import EventServer.Services.SubscriptionKeys

/-! # Unsubscribing under the name of the subscription

`subscribe` and `unsubscribe` resolve a name in the same way, and for a name that does not resolve
`unsubscribe` falls back to the name itself. That is the key of the event type if the user
subscribed under it, but not if under an alias: when the event type has been disabled, the alias no
longer leads to the subscription (`undoes_iff`). -/

namespace EventServer.Services.Unsubscribing

open EventServer.Db EventServer.Lib EventServer.Python
open EventServer.Services.SubscriptionKeys EventServer.Services.Subscriptions EventServer.System

/-! ### Names -/

section Names

variable {s : Store} {name : String} {event : EventType}

theorem canonicalKey_of_type (h : s.eventTypes.get name = some event) :
    canonicalKey s name = name := by
  have hkey : event.eventKey = name := Table.key_of_get h
  unfold canonicalKey resolveEvent
  simp only [h]
  by_cases havailable : event.enabled = true ∧ event.subscribable = true
  · rw [if_pos havailable]
    exact hkey
  · rw [if_neg havailable]

/-- An alias is the name of the event type as long as that is available. -/
theorem canonicalKey_of_alias (hnone : s.eventTypes.get name = none) {eventAlias : EventAlias}
    (halias : s.eventAliases.get name = some eventAlias)
    (h : s.eventTypes.get eventAlias.eventKey = some event) :
    canonicalKey s name =
      if event.enabled = true ∧ event.subscribable = true then eventAlias.eventKey else name := by
  have hkey : event.eventKey = eventAlias.eventKey := Table.key_of_get h
  unfold canonicalKey resolveEvent
  simp only [hnone, halias, h]
  split_ifs
  · exact hkey
  · rfl

/-- A name that resolves to an event type of another key is an alias of it. -/
theorem alias_of_resolveEvent (h : resolveEvent s name = .ok event) (hne : name ≠ event.eventKey) :
    s.eventTypes.get name = none ∧ ∃ eventAlias, s.eventAliases.get name = some eventAlias ∧
      eventAlias.eventKey = event.eventKey := by
  unfold resolveEvent at h
  cases htype : s.eventTypes.get name with
  | some found =>
    have hkey : found.eventKey = name := Table.key_of_get htype
    simp only [htype] at h
    split_ifs at h
    cases h
    exact absurd hkey.symm hne
  | none =>
    simp only [htype] at h
    cases halias : s.eventAliases.get name with
    | none => simp [halias] at h
    | some eventAlias =>
      simp only [halias] at h
      cases hevent : s.eventTypes.get eventAlias.eventKey with
      | none => simp [hevent] at h
      | some found =>
        have hkey : found.eventKey = eventAlias.eventKey := Table.key_of_get hevent
        simp only [hevent] at h
        split_ifs at h
        cases h
        exact ⟨rfl, eventAlias, rfl, hkey.symm⟩

end Names

/-! ### Unsubscribing -/

/-- The call removes the subscription to `canonical` and nothing else, and finds nothing when it is
made again. -/
structure Undoes (s : Store) (a : Unsubscribe) (canonical : String) : Prop where
  removes : unsubscribe s a = .ok
    ({ s with subscriptions := s.subscriptions.erase (a.platform, a.openid, canonical) }, true)
  again : ∀ s', unsubscribe s a = .ok (s', true) → unsubscribe s' a = .ok (s', false)

/-- A call by an active user with `command` who has no such subscription. -/
theorem unsubscribe_of_none {s : Store} {a : Unsubscribe}
    (hactive : activeCommand s a.platform a.openid = true)
    (hget : s.subscriptions.get (a.platform, a.openid, canonicalKey s a.eventKey) = none) :
    unsubscribe s a = .ok (s, false) := by
  unfold unsubscribe
  simp only [if_pos hactive, hget]

theorem unsubscribe_of_some {s : Store} {a : Unsubscribe}
    (hactive : activeCommand s a.platform a.openid = true) {sub : Subscription}
    (hget : s.subscriptions.get (a.platform, a.openid, canonicalKey s a.eventKey) = some sub) :
    unsubscribe s a = .ok ({ s with
      subscriptions := s.subscriptions.erase (a.platform, a.openid, canonicalKey s a.eventKey) },
      true) := by
  unfold unsubscribe
  simp only [if_pos hactive, hget]

theorem undoes_iff_canonicalKey {s : Store} {a : Unsubscribe} {canonical : String}
    (hactive : activeCommand s a.platform a.openid = true) {sub : Subscription}
    (hsub : s.subscriptions.get (a.platform, a.openid, canonical) = some sub) :
    Undoes s a canonical ↔ canonicalKey s a.eventKey = canonical := by
  constructor
  · rintro ⟨hremoves, -⟩
    cases hget : s.subscriptions.get (a.platform, a.openid, canonicalKey s a.eventKey) with
    | none =>
      rw [unsubscribe_of_none hactive hget, Except.ok.injEq, Prod.mk.injEq] at hremoves
      exact absurd hremoves.2 Bool.false_ne_true
    | some other =>
      rw [unsubscribe_of_some hactive hget, Except.ok.injEq, Prod.mk.injEq] at hremoves
      have hsame : s.subscriptions.erase (a.platform, a.openid, canonicalKey s a.eventKey) =
          s.subscriptions.erase (a.platform, a.openid, canonical) :=
        congrArg Store.subscriptions hremoves.1
      -- otherwise the subscription would have stayed
      by_contra hne
      have hkey : Subscription.key sub = (a.platform, a.openid, canonical) := Table.key_of_get hsub
      have hstays : sub ∈ s.subscriptions.erase (a.platform, a.openid,
          canonicalKey s a.eventKey) := by
        refine Table.mem_erase.mpr ⟨Table.mem_of_get hsub, ?_⟩
        rw [hkey]
        exact fun he => hne (Prod.mk.inj (Prod.mk.inj he).2).2.symm
      rw [hsame] at hstays
      exact (Table.mem_erase.mp hstays).2 hkey
  · rintro rfl
    have hremoves := unsubscribe_of_some hactive hsub
    refine ⟨hremoves, fun s' hs' => ?_⟩
    rw [hremoves, Except.ok.injEq, Prod.mk.injEq] at hs'
    obtain ⟨rfl, -⟩ := hs'
    refine unsubscribe_of_none hactive ?_
    exact Table.get_eq_none.mpr fun r hr => (Table.mem_erase.mp hr).2

variable [Runtime]

/-- A later state in which the user is still active and subscribed, and the event type and the alias
are still there. -/
structure Later (s s' : Store) (a : Subscribe) (canonical : String) (event : EventType) : Prop where
  active : activeCommand s' a.platform a.openid = true
  event : s'.eventTypes.get canonical = some event
  eventAlias : ∀ row, s.eventAliases.get a.eventKey = some row →
    s'.eventAliases.get a.eventKey = some row
  subscribed : ∃ sub, s'.subscriptions.get (a.platform, a.openid, canonical) = some sub

/-- **Unsubscribing undoes subscribing under the key of the event type**, and under an alias exactly
if the event type is enabled and subscribable and none is registered under the alias. -/
theorem undoes_iff {s s' : Store} {a : Subscribe} {r : Store × Subscribed}
    (h : subscribe s a = .ok r) {event : EventType}
    (hlater : Later s s' a r.2.item.eventKey event) :
    Undoes s' ⟨a.platform, a.openid, a.eventKey⟩ r.2.item.eventKey ↔
      a.eventKey = r.2.item.eventKey ∨
        (s'.eventTypes.get a.eventKey = none ∧ event.enabled = true ∧
          event.subscribable = true) := by
  obtain ⟨found, requested, -, hresolve, -, -, hkey, -⟩ := subscribe_ok h
  have hcanonical : r.2.item.eventKey = found.eventKey := congrArg (fun key => key.2.2) hkey
  obtain ⟨sub, hsub⟩ := hlater.subscribed
  rw [undoes_iff_canonicalKey hlater.active hsub]
  simp only
  by_cases hname : a.eventKey = r.2.item.eventKey
  · refine iff_of_true ?_ (Or.inl hname)
    have htype := hlater.event
    rw [← hname] at htype ⊢
    exact canonicalKey_of_type htype
  · obtain ⟨-, row, hrow, hrowkey⟩ := alias_of_resolveEvent hresolve (hcanonical ▸ hname)
    simp only [hname, false_or]
    cases htype : s'.eventTypes.get a.eventKey with
    | some other =>
      rw [canonicalKey_of_type htype]
      exact iff_of_false hname (by simp)
    | none =>
      have hevent := hlater.event
      rw [hcanonical, ← hrowkey] at hevent
      rw [canonicalKey_of_alias htype (hlater.eventAlias row hrow) hevent, hcanonical, hrowkey]
      simp only [true_and]
      split_ifs with havailable
      · exact iff_of_true rfl havailable
      · refine iff_of_false ?_ havailable
        rw [← hcanonical]
        exact hname

/-! ### A sample -/

omit [Runtime] in
/-- `alice` has command, and the event type has an alias. -/
def sampleStore : Store where
  users := Table.empty.put { platform := "qqbot", openid := "alice" }
  userPermissions := Table.empty.put
    { platform := "qqbot", openid := "alice", permissionKey := .command, granted := true }
  eventTypes := Table.empty.put { eventKey := "warframe.cetus.night", displayName := "Cetus night" }
  eventAliases := Table.empty.put { aliasKey := "cetus_night", eventKey := "warframe.cetus.night" }

omit [Runtime] in
def sampleSubscribe : Subscribe :=
  { platform := "qqbot", openid := "alice", eventKey := "cetus_night" }

omit [Runtime] in
/-- The subscription of `alice`. -/
def sampleSubscription : Subscription :=
  { platform := "qqbot", openid := "alice", eventKey := "warframe.cetus.night" }

omit [Runtime] in
def sampleSubscribed : Store :=
  { sampleStore with subscriptions := Table.empty.put sampleSubscription }

omit [Runtime] in
/-- The event type is disabled. -/
def sampleDisabled : Store :=
  { sampleSubscribed with
    eventTypes := Table.empty.put
      { eventKey := "warframe.cetus.night", displayName := "Cetus night", enabled := false } }

omit [Runtime] in
theorem subscribe_sample : @subscribe .sample sampleStore sampleSubscribe =
    .ok (sampleSubscribed, ⟨sampleSubscription, true, false⟩) := rfl

omit [Runtime] in
theorem undoes_iff_sample :
    Undoes sampleSubscribed ⟨"qqbot", "alice", "cetus_night"⟩ "warframe.cetus.night" := by
  have hlater : Later sampleStore sampleSubscribed sampleSubscribe "warframe.cetus.night"
      { eventKey := "warframe.cetus.night", displayName := "Cetus night" } :=
    ⟨by decide, rfl, fun _ h => h, _, rfl⟩
  exact (@undoes_iff .sample _ _ _ _ subscribe_sample _ hlater).mpr (Or.inr ⟨rfl, rfl, rfl⟩)

omit [Runtime] in
/-- **An alias does not lead to the subscription any more**: `alice` cannot unsubscribe under the
name she has subscribed under. -/
theorem alias_not_undone :
    (∃ r, @subscribe .sample sampleStore sampleSubscribe = .ok r ∧ r.1 = sampleSubscribed ∧
        r.2.item.eventKey = "warframe.cetus.night") ∧
      (∃ event, Later sampleStore sampleDisabled sampleSubscribe "warframe.cetus.night" event) ∧
      ¬ Undoes sampleDisabled ⟨"qqbot", "alice", "cetus_night"⟩ "warframe.cetus.night" := by
  refine ⟨⟨_, subscribe_sample, rfl, rfl⟩, ⟨_, by decide, rfl, fun _ h => h, _, rfl⟩, fun h => ?_⟩
  have hsub : sampleDisabled.subscriptions.get ("qqbot", "alice", "warframe.cetus.night") =
      some sampleSubscription := rfl
  have hkey := (undoes_iff_canonicalKey (by decide) hsub).mp h
  exact absurd hkey (by decide)

end EventServer.Services.Unsubscribing
