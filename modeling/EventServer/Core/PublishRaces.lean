import EventServer.Core.Recipients
import EventServer.Db.Session
import EventServer.Lib.Interleave

/-! # Publications as concurrent transactions

`publish` as a transaction at READ COMMITTED, one step for each statement: the checks, the lookup,
the insert of the event in a savepoint, after a unique violation the lookup again, the query of the
recipients with the insert of their deliveries, and the commit. A row that has been inserted and not
committed is seen by nobody else, but its entries in the unique indices are there: an insert that
collides with one waits until the transaction of that entry has ended.

The unique index decides who creates the event. The one that does is the only one to create
deliveries, and everybody else finds the event it has created (`publish_idempotent`). -/

namespace EventServer.Core.PublishRaces

open EventServer.Db EventServer.Lib EventServer.Python EventServer.System
open EventServer.Core.Publication EventServer.Core.Recipients EventServer.Deliveries.Outbox

/-- The committed rows, which transaction has written which entry of a unique index without having
committed it, and the clock. The targets of deliveries have no entries of their own here: they begin
with the identifier of their event. -/
structure Db (ι : Type) where
  store : Store
  eventIds : String → Option ι
  dedupes : String × String → Option ι
  deliveryIds : String → Option ι
  now : Time

/-- Where a transaction stands, and what it has loaded or added. -/
inductive Local where
  | start
  | checked (eventType : EventType) (fallback : DeliveryMessage)
  | absent (eventType : EventType) (fallback : DeliveryMessage)
  | refused
  | inserted (eventType : EventType) (fallback : DeliveryMessage)
  | delivered (ds : List Delivery)
  | answered (r : PublicationResult)
  | committed (r : PublicationResult)
  | aborted

inductive Choice where
  | go
  | rollback

/-- Time passes; other requests change other tables; workers update deliveries. -/
inductive Env where
  | tick (d : ℕ)
  | others (s : Store)
  | deliveries (f : Delivery → Delivery) (hk : ∀ d, (f d).deliveryId = d.deliveryId)
    (ht : ∀ d, (f d).target = d.target)

/-- The key and the dedupe key of the event. -/
def dedupe (a : Publish) : String × String := (occurrenceOf a.event).dedupe

namespace Db

variable {ι : Type}

/-- The index entries of an event. -/
def addOccurrence (db : Db ι) (i : ι) (a : Publish) : Db ι :=
  { db with
    eventIds := lockRows db.eventIds i [a.event.eventId]
    dedupes := lockRows db.dedupes i [dedupe a] }

/-- The index entries of deliveries. -/
def addDeliveries (db : Db ι) (i : ι) (ds : List Delivery) : Db ι :=
  { db with deliveryIds := lockRows db.deliveryIds i (ds.map (·.deliveryId)) }

/-- Transaction `i` ends. -/
def finish [DecidableEq ι] (db : Db ι) (i : ι) : Db ι :=
  { db with
    eventIds := releaseRows db.eventIds i
    dedupes := releaseRows db.dedupes i
    deliveryIds := releaseRows db.deliveryIds i }

/-- The rows of an event become visible. -/
def write (db : Db ι) (occurrences : EventOccurrences) (deliveries : Deliveries) : Db ι :=
  { db with
    store := { db.store with eventOccurrences := occurrences, deliveries := deliveries } }

end Db

/-- The answer for an event that was published before. -/
def duplicateOf (o : EventOccurrence) : PublicationResult := ⟨o.eventId, false, 0⟩

variable {ι : Type} [DecidableEq ι] [Runtime]

/-- The moves of the transaction that answers `req i`. -/
def move (req : ι → Publish) (i : ι) : Choice → Db ι → Local → Option (Db ι × Local)
  | .go, db, .start =>
    match (req i).check db.store with
    | .error _ => some (db.finish i, .aborted)
    | .ok (eventType, fallback) => some (db, .checked eventType fallback)
  | .go, db, .checked eventType fallback =>
    match findExisting db.store.eventOccurrences (req i).event with
    | some existing => some (db, .answered (duplicateOf existing))
    | none => some (db, .absent eventType fallback)
  | .go, db, .absent eventType fallback =>
    match db.store.eventOccurrences.insert? (occurrenceOf (req i).event) with
    | none => some (db, .refused)
    | some _ =>
      if db.eventIds (req i).event.eventId = none ∧ db.dedupes (dedupe (req i)) = none then
        some (db.addOccurrence i (req i), .inserted eventType fallback)
      else none
  | .go, db, .refused =>
    match findExisting db.store.eventOccurrences (req i).event with
    | some existing => some (db, .answered (duplicateOf existing))
    | none => some (db.finish i, .aborted)
  | .go, db, .inserted eventType fallback =>
    let ds := (req i).deliveries db.store db.now eventType fallback
    match db.store.deliveries.insertAll? ds with
    | none => some (db.finish i, .aborted)
    | some _ =>
      if ∀ d ∈ ds, db.deliveryIds d.deliveryId = none then
        some (db.addDeliveries i ds, .delivered ds)
      else none
  | .go, db, .delivered ds =>
    match db.store.eventOccurrences.insert? (occurrenceOf (req i).event),
        db.store.deliveries.insertAll? ds with
    | some occurrences, some deliveries =>
      some ((db.write occurrences deliveries).finish i,
        .committed ⟨(req i).event.eventId, true, ds.length⟩)
    | _, _ => none
  | .go, db, .answered r => some (db, .committed r)
  | .rollback, db, .checked _ _ => some (db.finish i, .aborted)
  | .rollback, db, .absent _ _ => some (db.finish i, .aborted)
  | .rollback, db, .refused => some (db.finish i, .aborted)
  | .rollback, db, .inserted _ _ => some (db.finish i, .aborted)
  | .rollback, db, .delivered _ => some (db.finish i, .aborted)
  | .rollback, db, .answered _ => some (db.finish i, .aborted)
  | _, _, _ => none

/-- Any number of publications next to other requests. -/
def system (req : ι → Publish) : Sys ι Choice Env (Db ι) Local where
  move := move req
  env
    | .tick d, db => some { db with now := db.now + d }
    | .others s, db => some { db with
        store := { s with
          eventOccurrences := db.store.eventOccurrences
          deliveries := db.store.deliveries } }
    | .deliveries f hk ht, db => some { db with
        store := { db.store with deliveries := db.store.deliveries.modify f hk ht } }

/-! ### Lookups -/

section Lookups

omit [DecidableEq ι] [Runtime]

variable {t : EventOccurrences} {a : Publish} {o : EventOccurrence}

theorem findExisting_eq_some (h : findExisting t a.event = some o) :
    o ∈ t ∧ o.dedupe = dedupe a := by
  refine ⟨List.mem_of_find?_eq_some h, ?_⟩
  have hp : o.eventKey = a.event.eventKey ∧ o.dedupeKey = a.event.dedupeKey := by
    simpa using List.find?_some h
  exact Prod.ext hp.1 hp.2

theorem findExisting_eq_none : findExisting t a.event = none ↔ ∀ o ∈ t, o.dedupe ≠ dedupe a := by
  unfold findExisting
  rw [List.find?_eq_none]
  constructor
  · intro h o ho hd
    have hp : o.eventKey = a.event.eventKey ∧ o.dedupeKey = a.event.dedupeKey := Prod.mk.inj hd
    exact h o ho (decide_eq_true hp)
  · intro h o ho hp
    have hp' : o.eventKey = a.event.eventKey ∧ o.dedupeKey = a.event.dedupeKey := by simpa using hp
    exact h o ho (Prod.ext hp'.1 hp'.2)

theorem findExisting_of_mem (ho : o ∈ t) (hd : o.dedupe = dedupe a) :
    findExisting t a.event = some o := by
  cases hf : findExisting t a.event with
  | none => exact absurd hd (findExisting_eq_none.mp hf o ho)
  | some o' =>
    obtain ⟨ho', hd'⟩ := findExisting_eq_some hf
    rw [Table.alt_inj ho' ho (hd'.trans hd.symm)]

end Lookups

/-- The ways a transaction can move. -/
inductive Moved (a : Publish) (i : ι) (db : Db ι) : Choice → Local → Db ι → Local → Prop
  | check (eventType : EventType) (fallback : DeliveryMessage) :
    Moved a i db .go .start db (.checked eventType fallback)
  | absent (eventType : EventType) (fallback : DeliveryMessage) :
    Moved a i db .go (.checked eventType fallback) db (.absent eventType fallback)
  | found (l : Local) (o : EventOccurrence) (ho : o ∈ db.store.eventOccurrences)
    (hd : o.dedupe = dedupe a) : Moved a i db .go l db (.answered (duplicateOf o))
  | refuse (eventType : EventType) (fallback : DeliveryMessage)
    (h : db.store.eventOccurrences.insert? (occurrenceOf a.event) = none) :
    Moved a i db .go (.absent eventType fallback) db .refused
  | insert (eventType : EventType) (fallback : DeliveryMessage)
    (h : ∃ t, db.store.eventOccurrences.insert? (occurrenceOf a.event) = some t)
    (hid : db.eventIds a.event.eventId = none) (hdedupe : db.dedupes (dedupe a) = none) :
    Moved a i db .go (.absent eventType fallback) (db.addOccurrence i a)
      (.inserted eventType fallback)
  | deliver (eventType : EventType) (fallback : DeliveryMessage) (ds : List Delivery)
    (hds : ds = a.deliveries db.store db.now eventType fallback)
    (h : ∃ t, db.store.deliveries.insertAll? ds = some t)
    (hfree : ∀ d ∈ ds, db.deliveryIds d.deliveryId = none) :
    Moved a i db .go (.inserted eventType fallback) (db.addDeliveries i ds) (.delivered ds)
  | create (ds : List Delivery) (occurrences : EventOccurrences) (deliveries : Deliveries)
    (ho : db.store.eventOccurrences.insert? (occurrenceOf a.event) = some occurrences)
    (hd : db.store.deliveries.insertAll? ds = some deliveries) :
    Moved a i db .go (.delivered ds) ((db.write occurrences deliveries).finish i)
      (.committed ⟨a.event.eventId, true, ds.length⟩)
  | answer (r : PublicationResult) : Moved a i db .go (.answered r) db (.committed r)
  | abort (ch : Choice) (l : Local) : Moved a i db ch l (db.finish i) .aborted

theorem move_cases {req : ι → Publish} {i : ι} {ch : Choice} {db db' : Db ι} {l l' : Local}
    (h : move req i ch db l = some (db', l')) : Moved (req i) i db ch l db' l' := by
  cases ch with
  | rollback =>
    cases l with
    | start | committed | aborted => cases h
    | checked | absent | refused | inserted | delivered | answered => cases h; exact .abort _ _
  | go =>
    cases l with
    | start =>
      cases hc : (req i).check db.store with
      | error e => simp only [move, hc] at h; cases h; exact .abort _ _
      | ok checked => simp only [move, hc] at h; cases h; exact .check _ _
    | checked eventType fallback =>
      cases hf : findExisting db.store.eventOccurrences (req i).event with
      | none => simp only [move, hf] at h; cases h; exact .absent _ _
      | some o =>
        simp only [move, hf] at h
        cases h
        obtain ⟨ho, hd⟩ := findExisting_eq_some hf
        exact .found _ o ho hd
    | absent eventType fallback =>
      cases hi : db.store.eventOccurrences.insert? (occurrenceOf (req i).event) with
      | none => simp only [move, hi] at h; cases h; exact .refuse _ _ hi
      | some t =>
        simp only [move, hi] at h
        split_ifs at h with hfree
        cases h
        exact .insert _ _ ⟨t, hi⟩ hfree.1 hfree.2
    | refused =>
      cases hf : findExisting db.store.eventOccurrences (req i).event with
      | none => simp only [move, hf] at h; cases h; exact .abort _ _
      | some o =>
        simp only [move, hf] at h
        cases h
        obtain ⟨ho, hd⟩ := findExisting_eq_some hf
        exact .found _ o ho hd
    | inserted eventType fallback =>
      cases hi : db.store.deliveries.insertAll?
          ((req i).deliveries db.store db.now eventType fallback) with
      | none => simp only [move, hi] at h; cases h; exact .abort _ _
      | some t =>
        simp only [move, hi] at h
        split_ifs at h with hfree
        cases h
        exact .deliver _ _ _ rfl ⟨t, hi⟩ hfree
    | delivered ds =>
      simp only [move] at h
      split at h
      · rename_i occurrences deliveries ho hd
        cases h
        exact .create ds occurrences deliveries ho hd
      · cases h
    | answered r => cases h; exact .answer r
    | committed | aborted => cases h

/-! ### What a transaction relies on -/

/-- The rows a transaction has inserted are its own in the indices, and can be made visible. -/
structure Inserted (a : Publish) (i : ι) (db : Db ι) : Prop where
  eventId : db.eventIds a.event.eventId = some i
  dedupe : db.dedupes (dedupe a) = some i
  insertable : ∃ t, db.store.eventOccurrences.insert? (occurrenceOf a.event) = some t

/-- The number of deliveries of an event. -/
def deliveryCount (s : Store) (eventId : String) : ℕ :=
  (s.deliveries.rows.filter fun d => d.eventId = eventId).length

/-- An answer names the stored event; the one that has created it has created all its deliveries. -/
structure Answers (a : Publish) (s : Store) (r : PublicationResult) : Prop where
  stored : ∃ o ∈ s.eventOccurrences, o.dedupe = dedupe a ∧ r.eventId = o.eventId
  created : r.created = true → r.eventId = a.event.eventId ∧
    r.deliveriesCreated = deliveryCount s r.eventId
  duplicate : r.created = false → r.deliveriesCreated = 0

def Holds (a : Publish) (i : ι) (db : Db ι) : Local → Prop
  | .refused => (∃ o ∈ db.store.eventOccurrences, o.dedupe = dedupe a) ∨
      ∃ o ∈ db.store.eventOccurrences, o.eventId = a.event.eventId
  | .inserted _ _ => Inserted a i db
  | .delivered ds => Inserted a i db ∧ (∃ t, db.store.deliveries.insertAll? ds = some t) ∧
      ∀ d ∈ ds, db.deliveryIds d.deliveryId = some i ∧ d.eventId = a.event.eventId
  | .answered r => Answers a db.store r ∧ r.created = false
  | .committed r => Answers a db.store r
  | _ => True

section Moves

omit [Runtime]

theorem mem_insert? {t t' : EventOccurrences} {o x : EventOccurrence} (h : t.insert? o = some t') :
    x ∈ t' ↔ x ∈ t ∨ x = o := by
  rw [← Table.mem_rows, (Table.insert?_eq_some.mp h).2.2, List.mem_append, List.mem_singleton]
  exact Iff.rfl

theorem mem_insertAll? {t t' : Deliveries} {ds : List Delivery} {d : Delivery}
    (h : t.insertAll? ds = some t') : d ∈ t' ↔ d ∈ t ∨ d ∈ ds := by
  rw [← Table.mem_rows, Table.rows_of_insertAll? h, List.mem_append]
  exact Iff.rfl

theorem answers_duplicateOf {a : Publish} {s : Store} {o : EventOccurrence}
    (ho : o ∈ s.eventOccurrences) (hd : o.dedupe = dedupe a) : Answers a s (duplicateOf o) :=
  ⟨⟨o, ho, hd, rfl⟩, by simp [duplicateOf], fun _ => rfl⟩

omit [DecidableEq ι] in
theorem answers_create {a : Publish} {db : Db ι} {ds : List Delivery}
    {occurrences : EventOccurrences} {deliveries : Deliveries}
    (hf : DeliveriesOfEvents db.store)
    (ho : db.store.eventOccurrences.insert? (occurrenceOf a.event) = some occurrences)
    (hd : db.store.deliveries.insertAll? ds = some deliveries)
    (hds : ∀ d ∈ ds, d.eventId = a.event.eventId) :
    Answers a (db.write occurrences deliveries).store ⟨a.event.eventId, true, ds.length⟩ where
  stored := ⟨occurrenceOf a.event, (mem_insert? ho).mpr (Or.inr rfl), rfl, rfl⟩
  created _ := by
    refine ⟨rfl, ?_⟩
    have hold : db.store.deliveries.rows.filter (fun d => d.eventId = a.event.eventId) = [] := by
      rw [List.filter_eq_nil_iff]
      intro d hd
      obtain ⟨o, ho', he⟩ := hf d hd
      have hne : o.eventId ≠ a.event.eventId := (Table.insert?_eq_some.mp ho).1 o ho'
      simpa [← he] using hne
    have hnew : ds.filter (fun d => d.eventId = a.event.eventId) = ds := by
      rw [List.filter_eq_self]
      intro d hm
      simpa using hds d hm
    show ds.length = (deliveries.rows.filter _).length
    rw [Table.rows_of_insertAll? hd, List.filter_append, hold, hnew, List.nil_append]
  duplicate h := by cases h

omit [DecidableEq ι] in
theorem answers_of_create {a a' : Publish} {db : Db ι} {ds : List Delivery}
    {occurrences : EventOccurrences} {deliveries : Deliveries} {r : PublicationResult}
    (ho : db.store.eventOccurrences.insert? (occurrenceOf a'.event) = some occurrences)
    (hd : db.store.deliveries.insertAll? ds = some deliveries)
    (hds : ∀ d ∈ ds, d.eventId = a'.event.eventId) (h : Answers a db.store r) :
    Answers a (db.write occurrences deliveries).store r := by
  obtain ⟨o, hmem, hdedupe, heq⟩ := h.stored
  refine ⟨⟨o, (mem_insert? ho).mpr (Or.inl hmem), hdedupe, heq⟩, fun hc => ?_, h.duplicate⟩
  obtain ⟨hid, hcount⟩ := h.created hc
  refine ⟨hid, hcount.trans ?_⟩
  have hne : o.eventId ≠ a'.event.eventId := (Table.insert?_eq_some.mp ho).1 o hmem
  have hnil : ds.filter (fun d => d.eventId = r.eventId) = [] := by
    rw [List.filter_eq_nil_iff]
    intro d hm
    rw [hds d hm, heq]
    simpa using hne.symm
  show (db.store.deliveries.rows.filter _).length = (deliveries.rows.filter _).length
  rw [Table.rows_of_insertAll? hd, List.filter_append, hnil, List.append_nil]

variable [Runtime]

variable {a a' : Publish} {i j : ι} {db db' : Db ι} {ch : Choice} {l l' lj : Local}

theorem eventId_of_mem_deliveries {s : Store} {now : Time} {eventType : EventType}
    {fallback : DeliveryMessage} {d : Delivery} (h : d ∈ a.deliveries s now eventType fallback) :
    d.eventId = a.event.eventId := by
  obtain ⟨sub, -, rfl⟩ := List.mem_map.mp h
  rfl

/-- A move establishes what its transaction relies on. -/
theorem holds_own (h : Moved a i db ch l db' l') (hf : DeliveriesOfEvents db.store)
    (hl : Holds a i db l) : Holds a i db' l' := by
  cases h with
  | found l o ho hd => exact ⟨answers_duplicateOf ho hd, rfl⟩
  | refuse eventType fallback h =>
    rcases Table.insert?_eq_none.mp h with ⟨o, ho, hk⟩ | ⟨o, ho, hd⟩
    · exact Or.inr ⟨o, ho, hk⟩
    · exact Or.inl ⟨o, ho, hd⟩
  | insert eventType fallback h hid hdedupe =>
    exact ⟨lockRows_of_mem List.mem_cons_self, lockRows_of_mem List.mem_cons_self, h⟩
  | deliver eventType fallback ds hds h hfree =>
    refine ⟨⟨hl.eventId, hl.dedupe, hl.insertable⟩, h, fun d hd => ⟨?_, ?_⟩⟩
    · exact lockRows_of_mem (List.mem_map_of_mem hd)
    · rw [hds] at hd
      exact eventId_of_mem_deliveries hd
  | create ds occurrences deliveries ho hd =>
    exact answers_create hf ho hd fun d hm => (hl.2.2 d hm).2
  | answer r => exact hl.1
  | check | absent | abort => trivial

theorem inserted_others (h : Moved a i db ch l db' l') (hl : Holds a i db l) (hj : j ≠ i)
    (hin : Inserted a' j db) : Inserted a' j db' := by
  cases h with
  | insert eventType fallback h hid hdedupe =>
    exact ⟨lockRows_other (by simpa using hid) hin.eventId,
      lockRows_other (by simpa using hdedupe) hin.dedupe, hin.insertable⟩
  | deliver => exact ⟨hin.eventId, hin.dedupe, hin.insertable⟩
  | create ds occurrences deliveries ho hd =>
    refine ⟨releaseRows_other hin.eventId hj, releaseRows_other hin.dedupe hj, ?_⟩
    -- the entries belong to different transactions, so they are different
    refine Table.exists_insert?_of_insert? ho hin.insertable ?_ ?_
    · intro heq
      have hi := hl.1.eventId
      rw [show a.event.eventId = a'.event.eventId from heq, hin.eventId, Option.some_inj] at hi
      exact hj hi
    · intro heq
      have hi := hl.1.dedupe
      rw [show dedupe a = dedupe a' from heq, hin.dedupe, Option.some_inj] at hi
      exact hj hi
  | abort =>
    exact ⟨releaseRows_other hin.eventId hj, releaseRows_other hin.dedupe hj, hin.insertable⟩
  | check | absent | found | refuse | answer => exact hin

theorem occurrences_mono (h : Moved a i db ch l db' l') {o : EventOccurrence}
    (ho : o ∈ db.store.eventOccurrences) : o ∈ db'.store.eventOccurrences := by
  cases h with
  | create ds occurrences deliveries hi hd => exact (mem_insert? hi).mpr (Or.inl ho)
  | check | absent | found | refuse | insert | deliver | answer | abort => exact ho

theorem answers_others (h : Moved a i db ch l db' l') (hl : Holds a i db l) {r : PublicationResult}
    (hr : Answers a' db.store r) : Answers a' db'.store r := by
  cases h with
  | create ds occurrences deliveries ho hd =>
    exact answers_of_create ho hd (fun d hm => (hl.2.2 d hm).2) hr
  | check | absent | found | refuse | insert | deliver | answer | abort => exact hr

/-- The moves of others preserve what a transaction relies on. -/
theorem holds_others (h : Moved a i db ch l db' l') (hl : Holds a i db l) (hj : j ≠ i)
    (hlj : Holds a' j db lj) : Holds a' j db' lj := by
  cases lj with
  | refused =>
    rcases hlj with ⟨o, ho, hd⟩ | ⟨o, ho, hid⟩
    · exact Or.inl ⟨o, occurrences_mono h ho, hd⟩
    · exact Or.inr ⟨o, occurrences_mono h ho, hid⟩
  | inserted eventType fallback => exact inserted_others h hl hj hlj
  | delivered ds =>
    obtain ⟨hin, hins, hds⟩ := hlj
    refine ⟨inserted_others h hl hj hin, ?_, fun d hd => ⟨?_, (hds d hd).2⟩⟩
    · cases h with
      | create ds' occurrences deliveries ho hd =>
        refine Table.exists_insertAll?_of_insertAll? hd hins ?_ ?_
        · intro d' hd' d hm heq
          have hi := (hl.2.2 d' hd').1
          rw [show d'.deliveryId = d.deliveryId from heq, (hds d hm).1, Option.some_inj] at hi
          exact hj hi
        · intro d' hd' d hm heq
          have he : a.event.eventId = a'.event.eventId := by
            rw [← (hl.2.2 d' hd').2, ← (hds d hm).2]
            exact eventId_of_target heq
          have hi := hl.1.eventId
          rw [he, hin.eventId, Option.some_inj] at hi
          exact hj hi
      | check | absent | found | refuse | insert | deliver | answer | abort => exact hins
    · cases h with
      | deliver eventType fallback ds' hds' h hfree =>
        refine lockRows_other ?_ (hds d hd).1
        intro k hk
        obtain ⟨d', hd', rfl⟩ := List.mem_map.mp hk
        exact hfree d' hd'
      | create | abort => exact releaseRows_other (hds d hd).1 hj
      | check | absent | found | refuse | insert | answer => exact (hds d hd).1
  | answered r => exact ⟨answers_others h hl hlj.1, hlj.2⟩
  | committed r => exact answers_others h hl hlj
  | start | checked | absent | aborted => trivial

theorem deliveriesOfEvents_moved (h : Moved a i db ch l db' l') (hf : DeliveriesOfEvents db.store)
    (hl : Holds a i db l) : DeliveriesOfEvents db'.store := by
  cases h with
  | create ds occurrences deliveries ho hd =>
    intro d hm
    rcases (mem_insertAll? hd).mp hm with hold | hnew
    · obtain ⟨o, ho', he⟩ := hf d hold
      exact ⟨o, (mem_insert? ho).mpr (Or.inl ho'), he⟩
    · exact ⟨occurrenceOf a.event, (mem_insert? ho).mpr (Or.inr rfl), (hl.2.2 d hnew).2.symm⟩
  | check | absent | found | refuse | insert | deliver | answer | abort => exact hf

end Moves

/-! ### The environment -/

omit [DecidableEq ι] [Runtime] in
/-- No event and no delivery has been added. -/
structure NothingAdded (db db' : Db ι) : Prop where
  eventIds : db'.eventIds = db.eventIds
  dedupes : db'.dedupes = db.dedupes
  deliveryIds : db'.deliveryIds = db.deliveryIds
  occurrences : db'.store.eventOccurrences = db.store.eventOccurrences
  count : ∀ e, deliveryCount db'.store e = deliveryCount db.store e
  insertable : ∀ ds, (∃ t, db.store.deliveries.insertAll? ds = some t) →
    ∃ t, db'.store.deliveries.insertAll? ds = some t
  targets : ∀ d ∈ db'.store.deliveries, ∃ d₀ ∈ db.store.deliveries, d₀.target = d.target

theorem nothingAdded_env {req : ι → Publish} {e : Env} {db db' : Db ι}
    (h : (system req).env e db = some db') : NothingAdded db db' := by
  cases e with
  | tick d =>
    cases h
    exact ⟨rfl, rfl, rfl, rfl, fun _ => rfl, fun _ h => h, fun d hd => ⟨d, hd, rfl⟩⟩
  | others s =>
    cases h
    exact ⟨rfl, rfl, rfl, rfl, fun _ => rfl, fun _ h => h, fun d hd => ⟨d, hd, rfl⟩⟩
  | deliveries f hk ht =>
    cases h
    refine ⟨rfl, rfl, rfl, rfl, fun e => ?_, fun ds h => Table.exists_insertAll?_modify hk ht h,
      fun d hd => ?_⟩
    · show ((db.store.deliveries.rows.map f).filter _).length = _
      rw [List.filter_map, List.length_map]
      have hp : (fun d : Delivery => decide (d.eventId = e)) ∘ f =
          fun d => decide (d.eventId = e) := by
        funext d
        simp [eventId_of_target (ht d)]
      rw [hp]
      rfl
    · have hd' : d ∈ db.store.deliveries.modify f hk ht := hd
      obtain ⟨d₀, hd₀, rfl⟩ := Table.mem_modify.mp hd'
      exact ⟨d₀, hd₀, (ht d₀).symm⟩

theorem env_step {req : ι → Publish} (n : ℕ) (db : Db ι) (op : Op)
    (hop : ∀ now a, op ≠ .publish now a) :
    ∃ e db', (system req).env e db = some db' ∧ db'.store = step n db.store op := by
  have hsame : SameOutbox db.store (step n db.store op) →
      ∃ e db', (system req).env e db = some db' ∧ db'.store = step n db.store op := by
    intro h
    refine ⟨.others (step n db.store op), _, rfl, ?_⟩
    rw [← h.eventOccurrences, ← h.deliveries]
  have hmodify : ∀ (p : Delivery → Bool) (f : Delivery → Delivery) (hk ht),
      step n db.store op = { db.store with deliveries := db.store.deliveries.modifyIf p f hk ht } →
        ∃ e db', (system req).env e db = some db' ∧ db'.store = step n db.store op := by
    intro p f hk ht h
    refine ⟨.deliveries (fun d => if p d then f d else d) (fun d => ?_) (fun d => ?_), _,
      rfl, h.symm⟩
    · split_ifs
      · exact hk d
      · rfl
    · split_ifs
      · exact ht d
      · rfl
  cases op with
  | publish now a => exact absurd rfl (hop now a)
  | claim a => exact hmodify _ a.lease a.lease_key a.lease_target rfl
  | ack a =>
    cases h : leased db.store.deliveries a.deliveryId a.leaseToken a.now with
    | error e =>
      refine hsame ?_
      simp only [step, Deliveries.Outbox.ack, h, committed, Except.map]
      exact SameOutbox.refl _
    | ok d =>
      refine hmodify (fun r => r.deliveryId = a.deliveryId) a.apply a.apply_key a.apply_target ?_
      simp only [step, Deliveries.Outbox.ack, h, committed, Except.map]
  | fail a =>
    cases h : leased db.store.deliveries a.deliveryId a.leaseToken a.now with
    | error e =>
      refine hsame ?_
      simp only [step, fail, h, committed, Except.map]
      exact SameOutbox.refl _
    | ok d =>
      refine hmodify (fun r => r.deliveryId = a.deliveryId) (a.apply n) (a.apply_key n)
        (a.apply_target n) ?_
      simp only [step, fail, h, committed, Except.map]
  | setPermissions | changeRole | createPairingCode | approvePairingCode | bootstrapFirstAdmin
  | setAccountStatus | subscribe | unsubscribe | register => exact hsame (sameOutbox_step _ rfl)

section Env

omit [DecidableEq ι] [Runtime]

variable {a : Publish} {j : ι} {db db' : Db ι}

theorem answers_env (h : NothingAdded db db') {r : PublicationResult} (hr : Answers a db.store r) :
    Answers a db'.store r := by
  refine ⟨by rw [h.occurrences]; exact hr.stored, fun hc => ?_, hr.duplicate⟩
  rw [h.count]
  exact hr.created hc

theorem inserted_env (h : NothingAdded db db') (hin : Inserted a j db) : Inserted a j db' :=
  ⟨by rw [h.eventIds]; exact hin.eventId, by rw [h.dedupes]; exact hin.dedupe,
    by rw [h.occurrences]; exact hin.insertable⟩

theorem holds_env (h : NothingAdded db db') {lj : Local} (hlj : Holds a j db lj) :
    Holds a j db' lj := by
  cases lj with
  | refused =>
    unfold Holds
    rw [h.occurrences]
    exact hlj
  | inserted => exact inserted_env h hlj
  | delivered ds =>
    refine ⟨inserted_env h hlj.1, h.insertable ds hlj.2.1, fun d hd => ?_⟩
    rw [h.deliveryIds]
    exact hlj.2.2 d hd
  | answered r => exact ⟨answers_env h hlj.1, hlj.2⟩
  | committed r => exact answers_env h hlj
  | start | checked | absent | aborted => trivial

theorem deliveriesOfEvents_env (h : NothingAdded db db') (hf : DeliveriesOfEvents db.store) :
    DeliveriesOfEvents db'.store := by
  intro d hd
  obtain ⟨d₀, hd₀, ht⟩ := h.targets d hd
  rw [h.occurrences, ← eventId_of_target ht]
  exact hf d₀ hd₀

end Env

/-! ### Over any schedule -/

omit [DecidableEq ι] [Runtime] in
/-- No transaction has begun. -/
structure Initial (c : Config ι (Db ι) Local) : Prop where
  loc : ∀ i, c.loc i = .start
  deliveries : DeliveriesOfEvents c.db.store

section Reach

variable {req : ι → Publish} {c₀ c c' : Config ι (Db ι) Local}

theorem holds_reach (h₀ : Initial c₀) (h : (system req).Reachable c₀ c) :
    DeliveriesOfEvents c.db.store ∧ ∀ i, Holds (req i) i c.db (c.loc i) := by
  have hstart : ∀ i, Holds (req i) i c₀.db (c₀.loc i) := by
    intro i
    rw [h₀.loc i]
    trivial
  refine h.interference_free (G := fun db => DeliveriesOfEvents db.store)
    (A := fun i => Holds (req i) i) h₀.deliveries hstart ?_ ?_ ?_
  · intro c i ch db l _ hG hA _ hm
    have hmoved := move_cases hm
    exact ⟨deliveriesOfEvents_moved hmoved hG (hA i), holds_own hmoved hG (hA i)⟩
  · intro c i ch db l _ _ hA _ hm j hj
    exact holds_others (move_cases hm) (hA i) hj (hA j)
  · intro c e db _ hG hA _ he
    have hnothing := nothingAdded_env he
    exact ⟨deliveriesOfEvents_env hnothing hG, fun j => holds_env hnothing (hA j)⟩

theorem occurrences_next {l : Label ι Choice Env} (hn : (system req).next c l = some c')
    {o : EventOccurrence} (ho : o ∈ c.db.store.eventOccurrences) :
    o ∈ c'.db.store.eventOccurrences := by
  cases l with
  | env e =>
    obtain ⟨db, he, rfl⟩ := Sys.next_env.mp hn
    show o ∈ db.store.eventOccurrences
    rw [(nothingAdded_env he).occurrences]
    exact ho
  | proc i ch =>
    obtain ⟨db, l', hm, rfl⟩ := Sys.next_proc.mp hn
    exact occurrences_mono (move_cases hm) ho

theorem occurrences_reach (h : (system req).Reachable c c') {o : EventOccurrence}
    (ho : o ∈ c.db.store.eventOccurrences) : o ∈ c'.db.store.eventOccurrences := by
  induction h with
  | refl => exact ho
  | step _ _ hn ih => exact occurrences_next hn ih

theorem committed_next {l : Label ι Choice Env} (hn : (system req).next c l = some c') {i : ι}
    {r : PublicationResult} (hi : c.loc i = .committed r) : c'.loc i = .committed r := by
  rcases Sys.next_loc hn i with hl | ⟨ch, -, hm⟩
  · rw [hl, hi]
  · rw [hi] at hm
    cases ch <;> cases hm

/-- The transaction has created the event `o`. -/
def Creates (req : ι → Publish) (c : Config ι (Db ι) Local) (i : ι) (o : EventOccurrence) : Prop :=
  o = occurrenceOf (req i).event ∧ ∃ r, c.loc i = .committed r ∧ r.created = true

/-- Every event that is not there from the beginning has been created by a transaction. -/
theorem creator_reach (h : (system req).Reachable c₀ c) {o : EventOccurrence}
    (ho : o ∈ c.db.store.eventOccurrences) :
    o ∈ c₀.db.store.eventOccurrences ∨ ∃ i, Creates req c i o := by
  induction h generalizing o with
  | refl => exact Or.inl ho
  | step _ _ hn ih =>
    rename_i c c' l hr hC
    have hkeep : o ∈ c.db.store.eventOccurrences →
        o ∈ c₀.db.store.eventOccurrences ∨ ∃ i, Creates req c' i o := by
      intro hold
      rcases ih hold with h | ⟨i, heq, r, hi, hc⟩
      · exact Or.inl h
      · exact Or.inr ⟨i, heq, r, committed_next hn hi, hc⟩
    cases l with
    | env e =>
      obtain ⟨db, he, rfl⟩ := Sys.next_env.mp hn
      refine hkeep ?_
      rw [← (nothingAdded_env he).occurrences]
      exact ho
    | proc i ch =>
      obtain ⟨db, l', hm, rfl⟩ := Sys.next_proc.mp hn
      have hmoved := move_cases hm
      generalize c.loc i = l at hmoved
      cases hmoved with
      | create ds occurrences deliveries hi hd =>
        rcases (mem_insert? hi).mp ho with hold | rfl
        · exact hkeep hold
        · exact Or.inr ⟨i, rfl, _, Function.update_self i _ c.loc, rfl⟩
      | check | absent | found | refuse | insert | deliver | answer | abort => exact hkeep ho

end Reach

/-! ### Creating an event -/

/-- The identifiers a publication has drawn are new. -/
structure Fresh (db : Db ι) (a : Publish) : Prop where
  eventId : ∀ o ∈ db.store.eventOccurrences, o.eventId ≠ a.event.eventId
  eventIdFree : db.eventIds a.event.eventId = none
  deliveryId : ∀ p o p' o', a.deliveryId p o = a.deliveryId p' o' → p = p' ∧ o = o'
  deliveryIds : ∀ d ∈ db.store.deliveries, ∀ p o, d.deliveryId ≠ a.deliveryId p o
  deliveryIdsFree : ∀ p o, db.deliveryIds (a.deliveryId p o) = none

section Create

variable {req : ι → Publish} {j : ι} {db : Db ι} {a : Publish}

omit [DecidableEq ι] [Runtime] in
theorem exists_insert (hnew : Fresh db a)
    (hno : ∀ o ∈ db.store.eventOccurrences, o.dedupe ≠ dedupe a) :
    ∃ t, db.store.eventOccurrences.insert? (occurrenceOf a.event) = some t := by
  cases hi : db.store.eventOccurrences.insert? (occurrenceOf a.event) with
  | some t => exact ⟨t, rfl⟩
  | none =>
    rcases Table.insert?_eq_none.mp hi with ⟨o, ho, hk⟩ | ⟨o, ho, hd⟩
    · exact absurd hk (hnew.eventId o ho)
    · exact absurd hd (hno o ho)

omit [DecidableEq ι] in
theorem exists_insertAll (hf : DeliveriesOfEvents db.store) (hnew : Fresh db a) (now : Time)
    (eventType : EventType) (fallback : DeliveryMessage) :
    ∃ t, db.store.deliveries.insertAll? (a.deliveries db.store now eventType fallback) = some t :=
  exists_insertAll_deliveries hf hnew.eventId (fun _ _ _ _ => hnew.deliveryId _ _ _ _)
    (fun d hd _ _ => hnew.deliveryIds d hd _ _) now eventType fallback

theorem move_absent {eventType : EventType} {fallback : DeliveryMessage}
    {occurrences : EventOccurrences}
    (ho : db.store.eventOccurrences.insert? (occurrenceOf (req j).event) = some occurrences)
    (hid : db.eventIds (req j).event.eventId = none)
    (hdedupe : db.dedupes (dedupe (req j)) = none) :
    move req j .go db (.absent eventType fallback) =
      some (db.addOccurrence j (req j), .inserted eventType fallback) := by
  simp only [move, ho, hid, hdedupe, and_self, if_true]

theorem move_inserted {eventType : EventType} {fallback : DeliveryMessage} {deliveries : Deliveries}
    {ds : List Delivery} (hds : ds = (req j).deliveries db.store db.now eventType fallback)
    (hd : db.store.deliveries.insertAll? ds = some deliveries)
    (hfree : ∀ d ∈ ds, db.deliveryIds d.deliveryId = none) :
    move req j .go db (.inserted eventType fallback) =
      some (db.addDeliveries j ds, .delivered ds) := by
  subst hds
  simp only [move, hd]
  rw [if_pos hfree]

theorem move_delivered {occurrences : EventOccurrences} {deliveries : Deliveries}
    {ds : List Delivery}
    (ho : db.store.eventOccurrences.insert? (occurrenceOf (req j).event) = some occurrences)
    (hd : db.store.deliveries.insertAll? ds = some deliveries) :
    move req j .go db (.delivered ds) =
      some ((db.write occurrences deliveries).finish j,
        .committed ⟨(req j).event.eventId, true, ds.length⟩) := by
  simp only [move, ho, hd]

theorem solo_create {eventType : EventType} {fallback : DeliveryMessage}
    {occurrences : EventOccurrences} {deliveries : Deliveries} {ds : List Delivery}
    (hds : ds = (req j).deliveries db.store db.now eventType fallback)
    (ho : db.store.eventOccurrences.insert? (occurrenceOf (req j).event) = some occurrences)
    (hd : db.store.deliveries.insertAll? ds = some deliveries)
    (hid : db.eventIds (req j).event.eventId = none) (hdedupe : db.dedupes (dedupe (req j)) = none)
    (hfree : ∀ d ∈ ds, db.deliveryIds d.deliveryId = none) :
    (system req).solo j db (.absent eventType fallback) [.go, .go, .go] =
      some ((((db.addOccurrence j (req j)).addDeliveries j ds).write occurrences
        deliveries).finish j,
        .committed ⟨(req j).event.eventId, true, ds.length⟩) := by
  have hinsert : move req j .go db (.absent eventType fallback) = _ := move_absent ho hid hdedupe
  have hdeliver : move req j .go (db.addOccurrence j (req j)) (.inserted eventType fallback) = _ :=
    move_inserted hds hd hfree
  have hcommit : move req j .go ((db.addOccurrence j (req j)).addDeliveries j ds) (.delivered ds) =
      _ := move_delivered ho hd
  simp only [Sys.solo, system, hinsert, hdeliver, hcommit, Option.bind_some]

/-- **An event that nobody else has stored or inserted is created.** -/
theorem exists_create (hf : DeliveriesOfEvents db.store) (hnew : Fresh db (req j))
    (hno : ∀ o ∈ db.store.eventOccurrences, o.dedupe ≠ dedupe (req j))
    (hfree : db.dedupes (dedupe (req j)) = none) (eventType : EventType)
    (fallback : DeliveryMessage) :
    ∃ db' r, (system req).solo j db (.absent eventType fallback) [.go, .go, .go] =
      some (db', .committed r) ∧ r.created = true := by
  obtain ⟨occurrences, ho⟩ := exists_insert hnew hno
  obtain ⟨deliveries, hd⟩ := exists_insertAll hf hnew db.now eventType fallback
  have hids : ∀ d ∈ (req j).deliveries db.store db.now eventType fallback,
      db.deliveryIds d.deliveryId = none := by
    intro d hd
    obtain ⟨sub, -, rfl⟩ := List.mem_map.mp hd
    exact hnew.deliveryIdsFree sub.platform sub.openid
  have hsolo := solo_create rfl ho hd hnew.eventIdFree hfree hids
  exact ⟨_, _, hsolo, rfl⟩

/-- **A publication that meets no other transaction is the call of the service.** -/
theorem publish_alone (hids : ∀ k, db.eventIds k = none) (hdedupes : ∀ k, db.dedupes k = none)
    (hdeliveryIds : ∀ k, db.deliveryIds k = none) {s : Store} {r : PublicationResult}
    (h : publish db.store db.now (req j) = .ok (s, r)) :
    ∃ chs db', (system req).solo j db .start chs = some (db', .committed r) ∧ db'.store = s := by
  obtain ⟨⟨eventType, fallback⟩, hc⟩ : ∃ x, (req j).check db.store = .ok x := by
    cases hc : (req j).check db.store with
    | error e => simp [publish, hc] at h
    | ok x => exact ⟨x, rfl⟩
  have hcheck : move req j .go db .start = some (db, .checked eventType fallback) := by
    simp only [move, hc]
  cases publish_ok h with
  | existing o hf =>
    refine ⟨[.go, .go, .go], db, ?_, rfl⟩
    have hfound : move req j .go db (.checked eventType fallback) =
        some (db, .answered (duplicateOf o)) := by
      simp only [move, hf]
    simp only [Sys.solo, system, hcheck, hfound, Option.bind_some]
    rfl
  | created eventType' fallback' hc' hf ho hd hs =>
    rw [hc, Except.ok.injEq, Prod.mk.injEq] at hc'
    obtain ⟨rfl, rfl⟩ := hc'
    have habsent : move req j .go db (.checked eventType fallback) =
        some (db, .absent eventType fallback) := by
      simp only [move, hf]
    have hsolo := solo_create (j := j) rfl ho hd (hids _) (hdedupes _) fun d _ => hdeliveryIds _
    refine ⟨[.go, .go, .go, .go, .go], _, Eq.trans ?_ hsolo, hs.symm⟩
    rw [Sys.solo]
    show (move req j .go db .start).bind _ = _
    rw [hcheck, Option.bind_some, Sys.solo]
    show (move req j .go db (.checked eventType fallback)).bind _ = _
    rw [habsent, Option.bind_some]

end Create

/-! ### The promises -/

/-- The call has been committed and has created the event. -/
def HasCreated (c : Config ι (Db ι) Local) (i : ι) : Prop :=
  ∃ r, c.loc i = .committed r ∧ r.created = true

/-- What can be said of the publications `req`. -/
structure Idempotent (req : ι → Publish) (c₀ : Config ι (Db ι) Local) : Prop where
  /-- For a key and a dedupe key at most one event is ever committed. -/
  once : ∀ c c', (system req).Reachable c₀ c → (system req).Reachable c c' →
    ∀ o ∈ c.db.store.eventOccurrences, ∀ o' ∈ c'.db.store.eventOccurrences,
      o.dedupe = o'.dedupe → o = o'
  /-- Among the calls committed for an event that was not there exactly one has created it. -/
  creator : ∀ c i r, (system req).Reachable c₀ c → c.loc i = .committed r →
    (∀ o ∈ c₀.db.store.eventOccurrences, o.dedupe ≠ dedupe (req i)) →
      ∃! k, dedupe (req k) = dedupe (req i) ∧ HasCreated c k
  /-- None creates an event that was there. -/
  known : ∀ c i, (system req).Reachable c₀ c →
    (∃ o ∈ c₀.db.store.eventOccurrences, o.dedupe = dedupe (req i)) → ¬ HasCreated c i
  /-- Every answer names the committed event, and counts the deliveries the call has created: all
  there are of the event, or none. -/
  answers : ∀ c i r, (system req).Reachable c₀ c → c.loc i = .committed r →
    Answers (req i) c.db.store r
  /-- Deliveries are added by the commit of a call that has created their event. -/
  deliveries : ∀ c l c', (system req).Reachable c₀ c → (system req).next c l = some c' →
    ∀ d ∈ c'.db.store.deliveries, (∀ d₀ ∈ c.db.store.deliveries, d₀.target ≠ d.target) →
      ∃ i r, l = .proc i .go ∧ c'.loc i = .committed r ∧ r.created = true ∧ d.eventId = r.eventId
  /-- No user has two deliveries of an event. -/
  targets : ∀ c, (system req).Reachable c₀ c → ∀ d ∈ c.db.store.deliveries,
    ∀ d' ∈ c.db.store.deliveries, d.target = d'.target → d = d'
  /-- A call whose insert was refused, and not for its identifier, gets an answer. -/
  refused : ∀ c i, (system req).Reachable c₀ c → c.loc i = .refused →
    (∀ o ∈ c.db.store.eventOccurrences, o.eventId ≠ (req i).event.eventId) →
      ∃ c' r, (system req).next c (.proc i .go) = some c' ∧ c'.loc i = .answered r
  /-- After a publisher has been rolled back a call that starts, or that has waited, can create the
  event. -/
  retried : ∀ c c₁ i j, (system req).Reachable c₀ c →
    ((∃ e f, c.loc i = .inserted e f) ∨ ∃ ds, c.loc i = .delivered ds) →
    (system req).next c (.proc i .rollback) = some c₁ → dedupe (req j) = dedupe (req i) →
    Fresh c₁.db (req j) →
    (c₁.loc j = .start ∧ (∃ x, (req j).check c₁.db.store = .ok x) ∨ ∃ e f, c₁.loc j = .absent e f) →
      ∃ (chs : List Choice) (c₂ : Config ι (Db ι) Local),
        (system req).exec c₁ (chs.map (.proc j)) = some c₂ ∧ HasCreated c₂ j

section Promises

variable {req : ι → Publish} {c₀ c c' c₁ : Config ι (Db ι) Local}

theorem once_reach (h : (system req).Reachable c c') {o o' : EventOccurrence}
    (ho : o ∈ c.db.store.eventOccurrences) (ho' : o' ∈ c'.db.store.eventOccurrences)
    (hd : o.dedupe = o'.dedupe) : o = o' :=
  Table.alt_inj (t := c'.db.store.eventOccurrences) (occurrences_reach h ho) ho' hd

theorem new_of_created {a : Publish} {i : ι} {db db' : Db ι} {ch : Choice} {l : Local}
    {r : PublicationResult} (h : Moved a i db ch l db' (.committed r)) (hl : Holds a i db l)
    (hr : r.created = true) : ∀ o ∈ db.store.eventOccurrences, o.dedupe ≠ dedupe a := by
  cases h with
  | create ds occurrences deliveries ho hd => exact (Table.insert?_eq_some.mp ho).2.1
  | answer r =>
    have hdup : r.created = false := hl.2
    rw [hdup] at hr
    cases hr

/-- A call that has created an event has done so before the last move, or with it, and there was
none. -/
theorem hasCreated_next (h₀ : Initial c₀) (h : (system req).Reachable c₀ c)
    {l : Label ι Choice Env} (hn : (system req).next c l = some c') {i : ι} (hi : HasCreated c' i) :
    HasCreated c i ∨ (∃ ch, l = .proc i ch) ∧
      ∀ o ∈ c.db.store.eventOccurrences, o.dedupe ≠ dedupe (req i) := by
  obtain ⟨r, hr, hc⟩ := hi
  rcases Sys.next_loc hn i with hl | ⟨ch, rfl, hm⟩
  · rw [hl] at hr
    exact Or.inl ⟨r, hr, hc⟩
  · rw [hr] at hm
    exact Or.inr ⟨⟨ch, rfl⟩, new_of_created (move_cases hm) ((holds_reach h₀ h).2 i) hc⟩

theorem stored_of_hasCreated (h₀ : Initial c₀) (h : (system req).Reachable c₀ c) {i : ι}
    (hi : HasCreated c i) : ∃ o ∈ c.db.store.eventOccurrences, o.dedupe = dedupe (req i) := by
  obtain ⟨r, hr, -⟩ := hi
  have hholds := (holds_reach h₀ h).2 i
  rw [hr] at hholds
  obtain ⟨o, ho, hd, -⟩ := Answers.stored hholds
  exact ⟨o, ho, hd⟩

/-- **Two calls do not create the same event.** -/
theorem creator_unique (h₀ : Initial c₀) (h : (system req).Reachable c₀ c) : ∀ i k,
    HasCreated c i → HasCreated c k → dedupe (req i) = dedupe (req k) → i = k := by
  refine h.unique (fun l => ∃ r, l = .committed r ∧ r.created = true) (fun i => dedupe (req i))
    (fun db k => ∃ o ∈ db.store.eventOccurrences, o.dedupe = k) ?_ ?_ ?_
  · rintro i ⟨r, hr, -⟩
    rw [h₀.loc i] at hr
    cases hr
  · intro c i hr hi
    exact stored_of_hasCreated h₀ hr hi
  · rintro c i ch db l hr - hm ⟨r, rfl, hc⟩ ⟨o, ho, hd⟩
    exact new_of_created (move_cases hm) ((holds_reach h₀ hr).2 i) hc o ho hd

theorem known_reach (h₀ : Initial c₀) (h : (system req).Reachable c₀ c) {i : ι} :
    HasCreated c i → ∀ o ∈ c₀.db.store.eventOccurrences, o.dedupe ≠ dedupe (req i) := by
  refine h.invariant (I := fun c => HasCreated c i →
    ∀ o ∈ c₀.db.store.eventOccurrences, o.dedupe ≠ dedupe (req i)) ?_ ?_
  · rintro ⟨r, hr, -⟩
    rw [h₀.loc i] at hr
    cases hr
  · intro c l c' hr hI _ hn hi o ho
    rcases hasCreated_next h₀ hr hn hi with hi' | ⟨-, hnew⟩
    · exact hI hi' o ho
    · exact hnew o (occurrences_reach hr ho)

theorem exists_creator (h₀ : Initial c₀) (h : (system req).Reachable c₀ c) {i : ι}
    {r : PublicationResult} (hi : c.loc i = .committed r)
    (hnew : ∀ o ∈ c₀.db.store.eventOccurrences, o.dedupe ≠ dedupe (req i)) :
    ∃ k, dedupe (req k) = dedupe (req i) ∧ HasCreated c k := by
  have hholds := (holds_reach h₀ h).2 i
  rw [hi] at hholds
  obtain ⟨o, ho, hd, -⟩ := Answers.stored hholds
  rcases creator_reach h ho with hold | ⟨k, rfl, hk⟩
  · exact absurd hd (hnew o hold)
  · exact ⟨k, hd, hk⟩

theorem added_next (h₀ : Initial c₀) (h : (system req).Reachable c₀ c) {l : Label ι Choice Env}
    (hn : (system req).next c l = some c') {d : Delivery} (hd : d ∈ c'.db.store.deliveries)
    (hnew : ∀ d₀ ∈ c.db.store.deliveries, d₀.target ≠ d.target) :
    ∃ i r, l = .proc i .go ∧ c'.loc i = .committed r ∧ r.created = true ∧
      d.eventId = r.eventId := by
  cases l with
  | env e =>
    obtain ⟨db, he, rfl⟩ := Sys.next_env.mp hn
    obtain ⟨d₀, hd₀, ht⟩ := (nothingAdded_env he).targets d hd
    exact absurd ht (hnew d₀ hd₀)
  | proc i ch =>
    obtain ⟨db, l', hm, rfl⟩ := Sys.next_proc.mp hn
    have hmoved := move_cases hm
    have hholds := (holds_reach h₀ h).2 i
    generalize hl : c.loc i = l at hmoved hholds
    cases hmoved with
    | create ds occurrences deliveries ho hds =>
      rcases (mem_insertAll? hds).mp hd with hold | hmem
      · exact absurd rfl (hnew d hold)
      · exact ⟨i, _, rfl, Function.update_self i _ c.loc, rfl, (hholds.2.2 d hmem).2⟩
    | check | absent | found | refuse | insert | deliver | answer | abort =>
      exact absurd rfl (hnew d hd)

theorem answered_of_refused (h₀ : Initial c₀) (h : (system req).Reachable c₀ c) {i : ι}
    (hi : c.loc i = .refused)
    (hid : ∀ o ∈ c.db.store.eventOccurrences, o.eventId ≠ (req i).event.eventId) :
    ∃ c' r, (system req).next c (.proc i .go) = some c' ∧ c'.loc i = .answered r := by
  have hholds := (holds_reach h₀ h).2 i
  rw [hi] at hholds
  rcases hholds with ⟨o, ho, hd⟩ | ⟨o, ho, heq⟩
  · refine ⟨⟨c.db, Function.update c.loc i (.answered (duplicateOf o))⟩, duplicateOf o, ?_,
      Function.update_self i _ c.loc⟩
    refine Sys.next_proc.mpr ⟨c.db, .answered (duplicateOf o), ?_, rfl⟩
    show move req i .go c.db (c.loc i) = _
    rw [hi]
    simp only [move, findExisting_of_mem ho hd]
  · exact absurd heq (hid o ho)

theorem traceless_of_rollback (h₀ : Initial c₀) (h : (system req).Reachable c₀ c) {i : ι}
    (hi : (∃ e f, c.loc i = .inserted e f) ∨ ∃ ds, c.loc i = .delivered ds)
    (hn : (system req).next c (.proc i .rollback) = some c₁) :
    DeliveriesOfEvents c₁.db.store ∧ c₁.db.dedupes (dedupe (req i)) = none ∧
      ∀ o ∈ c₁.db.store.eventOccurrences, o.dedupe ≠ dedupe (req i) := by
  obtain ⟨hf, hholds⟩ := holds_reach h₀ h
  have hin : Inserted (req i) i c.db := by
    have hi' := hholds i
    rcases hi with ⟨e, f, hl⟩ | ⟨ds, hl⟩
    · rw [hl] at hi'
      exact hi'
    · rw [hl] at hi'
      exact hi'.1
  have hdb : c₁.db = c.db.finish i := by
    obtain ⟨db, l', hm, rfl⟩ := Sys.next_proc.mp hn
    have hm' : move req i .rollback c.db (c.loc i) = some (db, l') := hm
    rcases hi with ⟨e, f, hl⟩ | ⟨ds, hl⟩
    · rw [hl] at hm'
      cases hm'
      rfl
    · rw [hl] at hm'
      cases hm'
      rfl
  obtain ⟨t, ht⟩ := hin.insertable
  rw [hdb]
  exact ⟨hf, releaseRows_own hin.dedupe, (Table.insert?_eq_some.mp ht).2.1⟩

theorem retried_after (hf : DeliveriesOfEvents c₁.db.store) {j : ι}
    (hfree : c₁.db.dedupes (dedupe (req j)) = none)
    (hno : ∀ o ∈ c₁.db.store.eventOccurrences, o.dedupe ≠ dedupe (req j))
    (hnew : Fresh c₁.db (req j)) (hj : c₁.loc j = .start ∧
      (∃ x, (req j).check c₁.db.store = .ok x) ∨
      ∃ e f, c₁.loc j = .absent e f) :
    ∃ (chs : List Choice) (c₂ : Config ι (Db ι) Local),
      (system req).exec c₁ (chs.map (.proc j)) = some c₂ ∧ HasCreated c₂ j := by
  have hrun : ∃ chs db' r, (system req).solo j c₁.db (c₁.loc j) chs = some (db', .committed r) ∧
      r.created = true := by
    rcases hj with ⟨hl, ⟨e, f⟩, hc⟩ | ⟨e, f, hl⟩
    · obtain ⟨db', r, hsolo, hr⟩ := exists_create hf hnew hno hfree e f
      have hcheck : move req j .go c₁.db .start = some (c₁.db, .checked e f) := by
        simp only [move, hc]
      have habsent : move req j .go c₁.db (.checked e f) = some (c₁.db, .absent e f) := by
        simp only [move, findExisting_eq_none.mpr hno]
      refine ⟨[.go, .go, .go, .go, .go], db', r, Eq.trans ?_ hsolo, hr⟩
      rw [hl, Sys.solo]
      show (move req j .go c₁.db .start).bind _ = _
      rw [hcheck, Option.bind_some, Sys.solo]
      show (move req j .go c₁.db (.checked e f)).bind _ = _
      rw [habsent, Option.bind_some]
    · obtain ⟨db', r, hsolo, hr⟩ := exists_create hf hnew hno hfree e f
      exact ⟨[.go, .go, .go], db', r, by rw [hl]; exact hsolo, hr⟩
  obtain ⟨chs, db', r, hsolo, hr⟩ := hrun
  refine ⟨chs, ⟨db', Function.update c₁.loc j (.committed r)⟩, ?_, r,
    Function.update_self j _ c₁.loc, hr⟩
  rw [Sys.exec_solo, hsolo]
  rfl

end Promises

/-- **Publishing is idempotent**, whatever other publications run at the same time. -/
theorem publish_idempotent {req : ι → Publish} {c₀ : Config ι (Db ι) Local} (h₀ : Initial c₀) :
    Idempotent req c₀ where
  once _ _ _ h _ ho _ ho' hd := once_reach h ho ho' hd
  creator c i r h hi hnew := by
    obtain ⟨k, hd, hk⟩ := exists_creator h₀ h hi hnew
    refine ⟨k, ⟨hd, hk⟩, ?_⟩
    rintro k' ⟨hd', hk'⟩
    exact creator_unique h₀ h k' k hk' hk (hd'.trans hd.symm)
  known c i h := by
    rintro ⟨o, ho, hd⟩ hi
    exact known_reach h₀ h hi o ho hd
  answers c i r h hi := by
    have hholds := (holds_reach h₀ h).2 i
    rw [hi] at hholds
    exact hholds
  deliveries _ _ _ h hn _ hd hnew := added_next h₀ h hn hd hnew
  targets _ _ _ hd _ hd' ht := Table.alt_inj hd hd' ht
  refused _ _ h hi hid := answered_of_refused h₀ h hi hid
  retried c c₁ i j h hi hn hd hnew hj := by
    obtain ⟨hf, hfree, hno⟩ := traceless_of_rollback h₀ h hi hn
    rw [← hd] at hfree hno
    exact retried_after hf hfree hno hnew hj

omit [DecidableEq ι] [Runtime] in
/-- Two calls for one event. -/
def sampleRequests (first : Bool) : Publish :=
  if first then samplePublish
  else { samplePublish with event := { samplePublish.event with eventId := "e-2" } }

omit [DecidableEq ι] [Runtime] in
/-- `alice` has subscribed to the event type. -/
def sampleConfig : Config Bool (Db Bool) Local where
  db :=
    { store := run (@step .sample 5) {} sampleSetup
      eventIds := fun _ => none
      dedupes := fun _ => none
      deliveryIds := fun _ => none
      now := seconds 10 }
  loc _ := .start

omit [DecidableEq ι] [Runtime] in
theorem publish_idempotent_sample : @Idempotent Bool _ .sample sampleRequests sampleConfig := by
  have hrefs : DeliveriesOfEvents (run (@step .sample 5) {} sampleSetup) :=
    run_invariant_all (I := DeliveriesOfEvents)
      (fun s op h => @deliveriesOfEvents_step .sample 5 s h op)
        (fun d hd => by cases hd) sampleSetup
  exact @publish_idempotent Bool _ .sample sampleRequests sampleConfig ⟨fun _ => rfl, hrefs⟩

end EventServer.Core.PublishRaces
