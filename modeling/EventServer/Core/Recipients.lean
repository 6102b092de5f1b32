import EventServer.System

/-! # The recipients of an event

The query of a publication and its filter select the subscriptions that `Qualifies` describes
(`mem_reached`). A publication stores one delivery for each of them, and nothing that happens
afterwards adds a delivery of the event or removes one: deliveries are only ever added together with
their event, which is stored once (`recipients_exact`). -/

namespace EventServer.Core.Recipients

open EventServer.Db EventServer.Lib EventServer.Python EventServer.System
open EventServer.Services.Accounts EventServer.Core.MatchKeys EventServer.Core.Publication
open EventServer.Deliveries.Outbox
open EventServer.Deliveries.Steps (Call NewDelivery origin)

/-! ### The recipient query -/

theorem userRows (s : Store) (p o : String) :
    s.users.rows.filter (fun u => u.platform = p ∧ u.openid = o) = (s.users.get (p, o)).toList := by
  rw [← Table.filter_key]
  congr 1
  funext u
  simp [User.key]

/-- **The recipient query** selects the subscriptions of entitled users. -/
theorem recipients_eq (s : Store) (eventKey : String) :
    recipients s eventKey = s.subscriptions.rows.filter fun sub =>
      sub.eventKey = eventKey ∧ Entitled s sub.platform sub.openid := by
  have hsub : ∀ sub : Subscription,
      (s.users.rows.filter fun u => u.platform = sub.platform ∧ u.openid = sub.openid).flatMap
        (fun u => (s.userPermissions.rows.filter fun p =>
          p.platform = sub.platform ∧ p.openid = sub.openid ∧ p.permissionKey = .command ∧
            p.granted).flatMap fun _ =>
          if sub.eventKey = eventKey ∧ u.accountStatus = .active then [sub] else []) =
      if sub.eventKey = eventKey ∧ Entitled s sub.platform sub.openid then [sub] else [] := by
    intro sub
    rw [userRows, commandRows]
    by_cases hc : HasCommand s sub.platform sub.openid
    · have hc' := hc
      obtain ⟨r, hr, -⟩ := hc'
      cases hu : s.users.get (sub.platform, sub.openid) with
      | none => simp [Entitled, Active, hu]
      | some u => simp [Entitled, Active, hu, hc, hr]
    · simp [Entitled, hc]
  unfold recipients
  simp only [hsub]
  generalize s.subscriptions.rows = subs
  induction subs with
  | nil => rfl
  | cons sub subs ih =>
    rw [List.flatMap_cons, ih, List.filter_cons]
    by_cases h : sub.eventKey = eventKey ∧ Entitled s sub.platform sub.openid <;> simp [h]

variable [Runtime]

/-- The match keys `keys` accept an event with the payload `data`. -/
def MatchKeysAccept (field : Option String) (data : JsonObject) (keys : List String) : Prop :=
  field = none ∨ field = some "" ∨ keys = [] ∨
    ∃ f items, field = some f ∧ data.lookup f = some (.arr items) ∧
      ∃ item ∈ items, Json.toStr item ∈ keys

/-- The subscription is to the event, its user may be notified and its match keys accept. -/
structure Qualifies (s : Store) (eventType : EventType) (event : DomainEvent) (sub : Subscription) :
    Prop where
  stored : sub ∈ s.subscriptions
  eventKey : sub.eventKey = event.eventKey
  entitled : Entitled s sub.platform sub.openid
  matchKeys : MatchKeysAccept eventType.matchKeyField event.data sub.matchKeys

theorem recipientMatches_iff {field : Option String} {data : JsonObject} {keys : List String} :
    recipientMatches field data keys = true ↔ MatchKeysAccept field data keys := by
  unfold recipientMatches MatchKeysAccept
  cases field with
  | none => simp
  | some f =>
    by_cases hf : f = ""
    · simp [hf]
    · by_cases hk : keys = []
      · simp [hf, hk]
      · simp only [hf, hk, if_false, reduceCtorEq, Option.some.injEq, false_or]
        constructor
        · intro h
          split at h
          · rename_i items hl
            rw [List.any_eq_true] at h
            obtain ⟨item, hi, hm⟩ := h
            exact ⟨f, items, rfl, hl, item, hi, by simpa using hm⟩
          · cases h
        · rintro ⟨f', items, rfl, hl, item, hi, hm⟩
          rw [hl, List.any_eq_true]
          exact ⟨item, hi, by simpa using hm⟩

theorem mem_reached {s : Store} {eventType : EventType} {event : DomainEvent} {sub : Subscription} :
    sub ∈ reached s eventType event ↔ Qualifies s eventType event sub := by
  unfold reached
  rw [recipients_eq, List.mem_filter, List.mem_filter, recipientMatches_iff, decide_eq_true_eq]
  constructor
  · rintro ⟨⟨h1, h2, h3⟩, h4⟩; exact ⟨h1, h2, h3, h4⟩
  · rintro ⟨h1, h2, h3, h4⟩; exact ⟨⟨h1, h2, h3⟩, h4⟩

theorem nodup_reached (s : Store) (eventType : EventType) (event : DomainEvent) :
    (reached s eventType event).Nodup := by
  unfold reached
  rw [recipients_eq]
  exact ((List.Nodup.of_map _ s.subscriptions.key_nodup).filter _).filter _

/-! ### The deliveries of an event -/

omit [Runtime] in
/-- To whom the deliveries of the event `e` go, and what they say. -/
def deliveriesOf (t : Deliveries) (e : String) : List (String × String × Json) :=
  (t.rows.filter fun d => d.eventId = e).map fun d => (d.platform, d.openid, d.message)

omit [Runtime] in
/-- An update of some rows that keeps their messages keeps the deliveries of every event. -/
theorem deliveriesOf_modifyIf (t : Deliveries) (p : Delivery → Bool) {f : Delivery → Delivery}
    (hk : ∀ d, (f d).deliveryId = d.deliveryId) (ha : ∀ d, (f d).target = d.target)
    (hm : ∀ d, (f d).message = d.message) (e : String) :
    deliveriesOf (t.modifyIf p f hk ha) e = deliveriesOf t e := by
  have htarget : ∀ d, (f d).eventId = d.eventId ∧ (f d).platform = d.platform ∧
      (f d).openid = d.openid := by
    intro d
    simpa [Delivery.target] using ha d
  unfold deliveriesOf Table.modifyIf Table.modify
  rw [List.filter_map, List.map_map]
  have hp : ((fun d : Delivery => decide (d.eventId = e)) ∘ fun d =>
      if p d = true then f d else d) = fun d => decide (d.eventId = e) := by
    funext d
    by_cases hpd : p d <;> simp [hpd, (htarget d).1]
  rw [hp]
  refine List.map_congr_left fun d _ => ?_
  by_cases hpd : p d <;> simp [hpd, (htarget d).2, hm d]

omit [Runtime] in
theorem message_ack (a : Ack) (d : Delivery) : (a.apply d).message = d.message := rfl

omit [Runtime] in
theorem message_fail (a : Fail) (n : ℕ) (d : Delivery) : (a.apply n d).message = d.message := by
  simp only [Fail.apply, clearLease]; split_ifs <;> rfl

omit [Runtime] in
theorem deliveriesOf_insertAll? {t t' : Deliveries} {ds : List Delivery} (e : String)
    (h : t.insertAll? ds = some t') (hne : ∀ d ∈ ds, d.eventId ≠ e) :
    deliveriesOf t' e = deliveriesOf t e := by
  unfold deliveriesOf
  rw [Table.rows_of_insertAll? h, List.filter_append, List.map_append]
  have hnil : ds.filter (fun d => d.eventId = e) = [] := by
    rw [List.filter_eq_nil_iff]
    intro d hd
    simpa using hne d hd
  rw [hnil, List.map_nil, List.append_nil]

theorem deliveriesOf_call (n : ℕ) (t : Deliveries) (e : String) (c : Call)
    (hc : ∀ now ds, c = .enqueue now ds → ∀ d ∈ ds, d.val.eventId ≠ e) :
    deliveriesOf (Deliveries.Steps.step n t c) e = deliveriesOf t e := by
  cases c with
  | enqueue now ds =>
    show deliveriesOf ((t.insertAll? (ds.map Subtype.val)).getD t) e = _
    cases h : t.insertAll? (ds.map Subtype.val) with
    | none => rfl
    | some t' =>
      refine deliveriesOf_insertAll? e h ?_
      intro d hd
      obtain ⟨d, hm, rfl⟩ := List.mem_map.mp hd
      exact hc now ds rfl d hm
  | claim a => exact deliveriesOf_modifyIf t _ a.lease_key a.lease_target (fun _ => rfl) e
  | ack a =>
    simp only [Deliveries.Steps.step]
    cases h : Deliveries.Outbox.ack t a with
    | error _ => rfl
    | ok r =>
      unfold Deliveries.Outbox.ack at h
      split at h
      · cases h
      · cases h
        exact deliveriesOf_modifyIf t _ a.apply_key a.apply_target (message_ack a) e
  | fail a =>
    simp only [Deliveries.Steps.step]
    cases h : fail n t a with
    | error _ => rfl
    | ok r =>
      unfold fail at h
      split at h
      · cases h
      · cases h
        exact deliveriesOf_modifyIf t _ (a.apply_key n) (a.apply_target n) (message_fail a n) e

/-! ### Over a run -/

theorem eventOccurrences_mono {n : ℕ} {s : Store} {op : Op} {o : EventOccurrence}
    (h : o ∈ s.eventOccurrences) : o ∈ (step n s op).eventOccurrences := by
  cases outbox_cases n s op with
  | same hs => rw [hs.eventOccurrences]; exact h
  | call _ _ ho => rw [ho]; exact h
  | created _ _ _ _ _ _ _ ho =>
    rw [← Table.mem_rows, (Table.insert?_eq_some.mp ho).2.2]
    exact List.mem_append_left _ h

theorem mem_of_created {s s' : Store} {now : Time} {a : Publish} {r : PublicationResult}
    (h : publish s now a = .ok (s', r)) (hr : r.created = true) :
    occurrenceOf a.event ∈ s'.eventOccurrences := by
  cases publish_ok h with
  | existing => cases hr
  | created _ _ _ _ ho =>
    rw [← Table.mem_rows, (Table.insert?_eq_some.mp ho).2.2]
    simp

omit [Runtime] in
/-- Every delivery is of a stored event: the foreign key of `deliveries`. -/
def DeliveriesOfEvents (s : Store) : Prop :=
  ∀ d ∈ s.deliveries, ∃ o ∈ s.eventOccurrences, o.eventId = d.eventId

omit [Runtime] in
theorem eventId_of_target {d d' : Delivery} (h : d.target = d'.target) : d.eventId = d'.eventId :=
  (Prod.mk.inj h).1

theorem deliveriesOfEvents_step {n : ℕ} {s : Store} (h : DeliveriesOfEvents s) (op : Op) :
    DeliveriesOfEvents (step n s op) := by
  intro d hd
  cases outbox_cases n s op with
  | same hs =>
    rw [hs.deliveries] at hd
    rw [hs.eventOccurrences]
    exact h d hd
  | call c hc ho hds =>
    rw [hds] at hd
    rcases origin hd with ⟨d₀, hd₀, ht, -⟩ | ⟨now, ds, -, he, -⟩
    · rw [ho, ← eventId_of_target ht]
      exact h d₀ hd₀
    · exact absurd he (hc now ds)
  | created now a eventType fallback _ _ _ ho hds =>
    have hor := (Table.insert?_eq_some.mp ho).2.2
    rw [← Table.mem_rows, Table.rows_of_insertAll? hds] at hd
    rcases List.mem_append.mp hd with hold | hnew
    · obtain ⟨o, ho', he⟩ := h d hold
      exact ⟨o, eventOccurrences_mono ho', he⟩
    · obtain ⟨sub, -, rfl⟩ := List.mem_map.mp hnew
      exact ⟨occurrenceOf a.event, by rw [← Table.mem_rows, hor]; simp, rfl⟩

/-- **No request adds or removes a delivery of an event that is stored.** -/
theorem deliveriesOf_step {n : ℕ} {s : Store} {o : EventOccurrence} (h : o ∈ s.eventOccurrences)
    (op : Op) : deliveriesOf (step n s op).deliveries o.eventId =
      deliveriesOf s.deliveries o.eventId := by
  cases outbox_cases n s op with
  | same hs => rw [hs.deliveries]
  | call c hc _ hds =>
    rw [hds]
    exact deliveriesOf_call n _ _ c fun now ds he => absurd he (hc now ds)
  | created now a eventType fallback _ _ _ ho hds =>
    refine deliveriesOf_insertAll? _ hds fun d hd => ?_
    obtain ⟨sub, -, rfl⟩ := List.mem_map.mp hd
    exact ((Table.insert?_eq_some.mp ho).1 o h).symm

theorem deliveriesOf_run {n : ℕ} {s : Store} {o : EventOccurrence} (h : o ∈ s.eventOccurrences)
    (ops : List Op) : deliveriesOf (run (step n) s ops).deliveries o.eventId =
      deliveriesOf s.deliveries o.eventId := by
  induction ops generalizing s with
  | nil => rfl
  | cons op ops ih => rw [run_cons, ih (eventOccurrences_mono h), deliveriesOf_step h]

theorem deliveriesOf_created {s : Store} {a : Publish} {now : Time} {eventType : EventType}
    {fallback : DeliveryMessage} {t : Deliveries}
    (hnone : ∀ d ∈ s.deliveries, d.eventId ≠ a.event.eventId)
    (h : s.deliveries.insertAll? (a.deliveries s now eventType fallback) = some t) :
    deliveriesOf t a.event.eventId = (reached s eventType a.event).map fun sub =>
      (sub.platform, sub.openid, ((a.messages.lookup sub.locale).getD fallback).modelDump) := by
  have hold : s.deliveries.rows.filter (fun d => d.eventId = a.event.eventId) = [] := by
    rw [List.filter_eq_nil_iff]
    intro d hd
    simpa using hnone d hd
  have hall : (a.deliveries s now eventType fallback).filter (fun d =>
      d.eventId = a.event.eventId) = a.deliveries s now eventType fallback := by
    rw [List.filter_eq_self]
    intro d hd
    obtain ⟨sub, -, rfl⟩ := List.mem_map.mp hd
    simp [Publish.delivery]
  unfold deliveriesOf
  rw [Table.rows_of_insertAll? h, List.filter_append, hold, hall, List.nil_append,
    Publish.deliveries, List.map_map]
  rfl

theorem reached_inj {s : Store} {eventType : EventType} {event : DomainEvent}
    {sub sub' : Subscription} (hs : sub ∈ reached s eventType event)
    (hs' : sub' ∈ reached s eventType event) (hp : sub.platform = sub'.platform)
    (ho : sub.openid = sub'.openid) : sub = sub' := by
  have hq := mem_reached.mp hs
  have hq' := mem_reached.mp hs'
  refine Table.key_inj hq.stored hq'.stored ?_
  show (sub.platform, sub.openid, sub.eventKey) = _
  rw [hp, ho, hq.eventKey, ← hq'.eventKey]
  rfl

/-- The new deliveries differ from each other and from the stored ones in what tells their
recipients apart. -/
theorem nodup_map_deliveries {κ : Type} {s : Store} {a : Publish} {now : Time}
    {eventType : EventType} {fallback : DeliveryMessage} (f : Delivery → κ)
    (hinj : ∀ sub ∈ s.subscriptions, ∀ sub' ∈ s.subscriptions,
      f (a.delivery now fallback sub) = f (a.delivery now fallback sub') →
        sub.platform = sub'.platform ∧ sub.openid = sub'.openid)
    (hold : (s.deliveries.rows.map f).Nodup)
    (hnew : ∀ d ∈ s.deliveries, ∀ sub ∈ s.subscriptions, f d ≠ f (a.delivery now fallback sub)) :
    ((s.deliveries.rows ++ a.deliveries s now eventType fallback).map f).Nodup := by
  rw [List.map_append, List.nodup_append]
  refine ⟨hold, ?_, fun x hx y hy => ?_⟩
  · unfold Publish.deliveries
    rw [List.map_map]
    refine List.Nodup.map_on ?_ (nodup_reached s eventType a.event)
    intro sub hs sub' hs' heq
    have hstored := (mem_reached.mp hs).stored
    have hstored' := (mem_reached.mp hs').stored
    obtain ⟨hp, ho⟩ := hinj sub hstored sub' hstored' heq
    exact reached_inj hs hs' hp ho
  · obtain ⟨d, hd, rfl⟩ := List.mem_map.mp hx
    obtain ⟨d', hd', rfl⟩ := List.mem_map.mp hy
    obtain ⟨sub, hs, rfl⟩ := List.mem_map.mp hd'
    exact hnew d hd sub (mem_reached.mp hs).stored

/-- The deliveries of a new event can be inserted if their identifiers are new. -/
theorem exists_insertAll_deliveries {s : Store} {a : Publish} (hf : DeliveriesOfEvents s)
    (hevent : ∀ o ∈ s.eventOccurrences, o.eventId ≠ a.event.eventId)
    (hids : ∀ sub ∈ s.subscriptions, ∀ sub' ∈ s.subscriptions,
      a.deliveryId sub.platform sub.openid = a.deliveryId sub'.platform sub'.openid →
        sub.platform = sub'.platform ∧ sub.openid = sub'.openid)
    (hnew : ∀ d ∈ s.deliveries, ∀ sub ∈ s.subscriptions,
      d.deliveryId ≠ a.deliveryId sub.platform sub.openid)
    (now : Time) (eventType : EventType) (fallback : DeliveryMessage) :
    ∃ t, s.deliveries.insertAll? (a.deliveries s now eventType fallback) = some t := by
  rw [Table.insertAll?_iff]
  constructor
  · refine nodup_map_deliveries _ ?_ s.deliveries.key_nodup ?_
    · intro sub hs sub' hs' heq
      exact hids sub hs sub' hs' heq
    · intro d hd sub hs
      exact hnew d hd sub hs
  · refine nodup_map_deliveries _ ?_ s.deliveries.alt_nodup ?_
    · intro sub _ sub' _ heq
      exact Prod.mk.inj (Prod.mk.inj heq).2
    · intro d hd sub _ heq
      obtain ⟨o, ho, he⟩ := hf d hd
      refine hevent o ho ?_
      rw [he]
      exact eventId_of_target heq

theorem check_ok {s : Store} {a : Publish} {eventType : EventType} {fallback : DeliveryMessage}
    (h : a.check s = .ok (eventType, fallback)) :
    s.eventTypes.get a.event.eventKey = some eventType ∧
      a.messages.lookup "default" = some fallback := by
  unfold Publish.check at h
  cases hg : s.eventTypes.get a.event.eventKey with
  | none => simp [hg] at h
  | some et =>
    simp only [hg] at h
    split_ifs at h
    split at h
    · cases h
    · cases h
    · split at h
      · cases h
      · rename_i m hm
        cases h
        exact ⟨rfl, hm⟩

/-- The event `o` was stored by a publication of the run, with exactly the deliveries it should have
then and has had ever since. -/
def PublishedExactly (n : ℕ) (s₀ : Store) (ops : List Op) (o : EventOccurrence) : Prop :=
  ∃ (pre : List Op) (now : Time) (a : Publish) (post : List Op) (s' : Store) (eventType : EventType)
    (fallback : DeliveryMessage) (subs : List Subscription),
    ops = pre ++ .publish now a :: post ∧ occurrenceOf a.event = o ∧
    publish (run (step n) s₀ pre) now a = .ok (s', ⟨o.eventId, true, subs.length⟩) ∧
    (run (step n) s₀ pre).eventTypes.get o.eventKey = some eventType ∧
    a.messages.lookup "default" = some fallback ∧
    subs.Nodup ∧ (∀ sub, sub ∈ subs ↔ Qualifies (run (step n) s₀ pre) eventType a.event sub) ∧
    ∀ mid rest, post = mid ++ rest →
      deliveriesOf (run (step n) s₀ (pre ++ .publish now a :: mid)).deliveries o.eventId =
        subs.map fun sub => (sub.platform, sub.openid,
          ((a.messages.lookup sub.locale).getD fallback).modelDump)

/-- **Recipient exactness.** Every event stored during a run. -/
theorem recipients_exact {n : ℕ} {s₀ : Store} (hs₀ : DeliveriesOfEvents s₀) {ops : List Op}
    {o : EventOccurrence} (ho : o ∈ (run (step n) s₀ ops).eventOccurrences)
    (hnew : o ∉ s₀.eventOccurrences) : PublishedExactly n s₀ ops o := by
  obtain ⟨pre, op, post, rfl, hpre, hpost⟩ :=
    exists_last_entry (P := fun s : Store => o ∈ s.eventOccurrences) hnew ho
  have hop := hpost [] post rfl
  rw [run_nil] at hop
  -- the request that stored `o` is a publication that created it
  cases outbox_cases n (run (step n) s₀ pre) op with
  | same hs => rw [hs.eventOccurrences] at hop; exact absurd hop hpre
  | call _ _ ho' => rw [ho'] at hop; exact absurd hop hpre
  | created now a eventType fallback he hp hc hi hd =>
    subst he
    obtain ⟨hkey, -, hrows⟩ := Table.insert?_eq_some.mp hi
    have hoa : occurrenceOf a.event = o := by
      rw [← Table.mem_rows, hrows, List.mem_append, List.mem_singleton] at hop
      rcases hop with hop | rfl
      · exact absurd hop hpre
      · rfl
    obtain ⟨hg, hm⟩ := check_ok hc
    have hrefs : DeliveriesOfEvents (run (step n) s₀ pre) :=
      run_invariant_all (I := DeliveriesOfEvents)
        (fun s op h => deliveriesOfEvents_step h op) hs₀ pre
    have hnone : ∀ d ∈ (run (step n) s₀ pre).deliveries, d.eventId ≠ a.event.eventId := by
      intro d hd' he
      obtain ⟨o', ho', hoe⟩ := hrefs d hd'
      exact hkey o' ho' (hoe.trans he)
    subst hoa
    refine ⟨pre, now, a, post, step n (run (step n) s₀ pre) (.publish now a), eventType, fallback,
      reached (run (step n) s₀ pre) eventType a.event, rfl, rfl, ?_, hg, hm, nodup_reached _ _ _,
      fun sub => mem_reached, fun mid rest _ => ?_⟩
    · rw [hp, Publish.deliveries, List.length_map]
      rfl
    · rw [run_append, run_cons, deliveriesOf_run hop]
      exact deliveriesOf_created hnone hd

omit [Runtime] in
/-- The event of the sample run. -/
theorem recipients_exact_sample : @PublishedExactly .sample 5 {}
    (sampleSetup ++ [.publish (seconds 20) samplePublish]) (occurrenceOf samplePublish.event) := by
  let _ := Runtime.sample
  refine recipients_exact (fun d hd => by cases hd) ?_ (fun ho => by cases ho)
  have hr : (publish (run (step 5) {} sampleSetup) (seconds 20) samplePublish).toOption.map
      (·.2) = some ⟨"e-1", true, 1⟩ := by decide
  rw [run_concat]
  cases hp : publish (run (step 5) {} sampleSetup) (seconds 20) samplePublish with
  | error e => rw [hp] at hr; cases hr
  | ok x =>
    rw [hp] at hr
    have hx : x.2 = ⟨"e-1", true, 1⟩ := Option.some_inj.mp hr
    simp only [step, committed, hp]
    exact mem_of_created hp (by rw [hx])

end EventServer.Core.Recipients
