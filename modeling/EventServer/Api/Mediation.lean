import EventServer.Api.Refinement
import EventServer.Deliveries.Content

/-! # What a caller can do and learn

A request that changes anything is answered with 200 and has presented valid credentials
(`changes_authorized`). One without them changes nothing and is answered in the same way whatever
the database holds (`closed_unauthorized`). -/

namespace EventServer.Api.App

open EventServer.Db EventServer.Lib EventServer.Python EventServer.System
open EventServer.Auth.Publisher EventServer.Api.Publish EventServer.Api.Subscriptions
open EventServer.Api.Bodies EventServer.Api.Server EventServer.CatalogAdmin
open EventServer.Core.Publication EventServer.Services.Accounts
open EventServer.Services.Users EventServer.Services.Pairing EventServer.Services.Subscriptions
open EventServer.Deliveries.Outbox EventServer.Deliveries.Content

variable [Runtime]

/-! ### Credentials -/

/-- The caller is authenticated on the route: as a publisher to publish, else with the internal
token. -/
def Authorized (settings : Settings) (sv : State) (d : Draw) (credentials : Option Credentials)
    (kind : Kind) : Prop :=
  match kind with
  | .publish => ∃ publisher,
      requirePublisherAuth (enabledRows sv.publishers d.order) credentials = .ok publisher
  | _ => requireServiceAuth settings credentials = .ok ()

/-- The routes that answer everyone. -/
def Target.isOpen : Target → Bool
  | .health | .ready _ | .unmatched _ => true
  | _ => false

section Unauthorized

variable [Pydantic] {settings : Settings} {d : Draw} {credentials : Option Credentials}

omit [Runtime] [Pydantic] in
/-- A route that authenticates with the internal token refuses in the same way in every state. -/
theorem authenticated_error {e : Failure} (h : requireServiceAuth settings credentials = .error e)
    (sv : State) (endpoint : Reply) :
    authenticated settings sv credentials endpoint = (sv, .error e) := by
  unfold authenticated
  rw [h]

omit [Runtime] [Pydantic] in
theorem body_of_validated {α : Type} {ofJson : JsonObject → Option α} {body : Body} {value : Json}
    {a : α} (hread : readBody body = .ok value) (hvalid : validated ofJson value = .ok a) :
    ∃ fields, body = .json (.obj fields) ∧ ofJson fields = some a := by
  obtain rfl : body = .json value := by
    unfold readBody at hread
    split at hread <;> cases hread
    rfl
  unfold validated at hvalid
  split at hvalid
  · rename_i fields
    split at hvalid
    · rename_i a' ha
      cases hvalid
      exact ⟨fields, rfl, ha⟩
    · cases hvalid
  · cases hvalid

/-- The failure of a request with a body that is refused. -/
def refusal (body : Body) (e : Failure) : Failure :=
  match readBody body with
  | .error e' => e'
  | .ok _ => e

omit [Runtime] [Pydantic] in
theorem withBody_error {e : Failure} (h : requireServiceAuth settings credentials = .error e)
    (sv : State) {α : Type} (body : Body) (ofJson : JsonObject → Option α) (endpoint : α → Reply) :
    withBody settings sv credentials body ofJson endpoint = (sv, .error (refusal body e)) := by
  unfold withBody refusal
  cases readBody body with
  | error e' => rfl
  | ok value => exact authenticated_error h sv _

theorem publishRoute_error {sv : State} {id : String} {e : ApiError}
    (h : requirePublisherAuth (enabledRows sv.publishers d.order) credentials = .error e)
    (body : Body) : publishRoute settings sv d id credentials body =
      (sv, .error (refusal body (apiHandler e))) := by
  unfold publishRoute refusal
  cases readBody body with
  | error e' => rfl
  | ok value => simp only [h]

omit [Pydantic] in
/-- Whoever is not authenticated as a publisher is told so, whatever the reason. -/
theorem requirePublisherAuth_error {rows : List EventPublisher} {e : ApiError}
    (h : requirePublisherAuth rows credentials = .error e) : e = unauthorized := by
  unfold requirePublisherAuth at h
  cases credentials with
  | none => cases h; rfl
  | some c =>
    simp only at h
    split_ifs at h
    · split at h
      · cases h
      · cases h; rfl
    · cases h; rfl

/-- The failure of a request that is refused, which no state has a part in. -/
def refused (settings : Settings) (credentials : Option Credentials) : Target → Option Failure
  | .publishEvent body => some (refusal body (apiHandler unauthorized))
  | .health | .ready _ | .unmatched _ => none
  | .metrics | .listEvents | .getPermission .. | .getSubscriptions .. | .removeSubscription .. =>
    match requireServiceAuth settings credentials with
    | .error e => some e
    | .ok () => none
  | .grantPermissions _ _ body | .revokePermissions _ _ body | .updateRole _ _ body
  | .addSubscription _ _ body | .newPairingCode body | .approveCode _ body | .claimDeliveries body
  | .ackDelivery _ body | .failDelivery _ body =>
    match requireServiceAuth settings credentials with
    | .error e => some (refusal body e)
    | .ok () => none

theorem route_unauthorized {sv : State} {target : Target} (id : String)
    (hopen : target.isOpen = false) (h : ¬ Authorized settings sv d credentials target.kind) : ∃ e,
      refused settings credentials target = some e ∧
        route settings sv d id credentials target = (sv, .error e) := by
  have hservice : target.kind ≠ .publish →
      ∃ e, requireServiceAuth settings credentials = .error e := by
    intro hk
    cases hauth : requireServiceAuth settings credentials with
    | error e => exact ⟨e, rfl⟩
    | ok u =>
      refine absurd ?_ h
      unfold Authorized
      split
      · rename_i hpublish
        exact absurd hpublish hk
      · exact hauth
  cases target with
  | health | ready | unmatched => cases hopen
  | publishEvent body =>
    cases hauth : requirePublisherAuth (enabledRows sv.publishers d.order) credentials with
    | ok publisher => exact absurd ⟨publisher, hauth⟩ h
    | error e =>
      have he := requirePublisherAuth_error hauth
      subst he
      exact ⟨_, rfl, publishRoute_error hauth body⟩
  | metrics | listEvents | getPermission | getSubscriptions | removeSubscription =>
    obtain ⟨e, he⟩ := hservice (by simp [Target.kind])
    exact ⟨e, by simp only [refused, he], authenticated_error he sv _⟩
  | grantPermissions _ _ body | revokePermissions _ _ body | updateRole _ _ body
  | addSubscription _ _ body | newPairingCode body | approveCode _ body | claimDeliveries body
  | ackDelivery _ body | failDelivery _ body =>
    obtain ⟨e, he⟩ := hservice (by simp [Target.kind])
    exact ⟨refusal body e, by simp only [refused, he], withBody_error he sv body _ _⟩

/-- **Without valid credentials** a request changes nothing, and its response is the same whatever
the database holds. -/
theorem closed_unauthorized (settings : Settings) (sv sv' : State) (d : Draw) (req : Request)
    (h : ¬ Authorized settings sv d req.credentials req.target.kind)
    (h' : ¬ Authorized settings sv' d req.credentials req.target.kind) :
    (serve settings sv d req).1 = sv ∧
      (serve settings sv d req).2 = (serve settings sv' d req).2 := by
  simp only [serve]
  cases hopen : req.target.isOpen with
  | true =>
    cases htarget : req.target with
    | health | ready | unmatched => exact ⟨rfl, rfl⟩
    | metrics | listEvents | getPermission | getSubscriptions | removeSubscription | publishEvent
    | grantPermissions | revokePermissions | updateRole | addSubscription | newPairingCode
    | approveCode | claimDeliveries | ackDelivery | failDelivery =>
      rw [htarget] at hopen
      cases hopen
  | false =>
    obtain ⟨e, he, hroute⟩ := route_unauthorized (requestId req.suppliedId d.uuid) hopen h
    obtain ⟨e', he', hroute'⟩ := route_unauthorized (requestId req.suppliedId d.uuid) hopen h'
    rw [he, Option.some_inj] at he'
    rw [hroute, hroute', he']
    exact ⟨rfl, rfl⟩

omit [Runtime] [Pydantic] in
/-- A wrong token, before and after a publisher is configured. -/
theorem closed_unauthorized_sample :
    (sampleServe {} (samplePairing "wrong")).1 = {} ∧
      (sampleServe {} (samplePairing "wrong")).2 =
        (sampleServe (sampleRun [.upsert samplePublisher]) (samplePairing "wrong")).2 :=
  @closed_unauthorized .sample samplePydantic sampleSettings {} _ sampleDraw (samplePairing "wrong")
    (fun h => by cases h) (fun h => by cases h)

end Unauthorized

/-! ### Changes -/

section Changes

omit [Runtime] in
/-- The message of every delivery is an object, as the response to a claim needs it. -/
def ObjectMessages (s : Store) : Prop := ∀ d ∈ s.deliveries, ∃ fields, d.message = .obj fields

theorem objectMessages_step {n : ℕ} (s : Store) (op : Op) (h : ObjectMessages s) :
    ObjectMessages (System.step n s op) := by
  intro d hd
  cases outbox_cases n s op with
  | same hsame =>
    rw [hsame.deliveries] at hd
    exact h d hd
  | created now a eventType fallback _ _ _ _ hdeliveries =>
    rw [← Table.mem_rows, Table.rows_of_insertAll? hdeliveries, List.mem_append] at hd
    rcases hd with hd | hd
    · exact h d hd
    · obtain ⟨sub, -, rfl⟩ := List.mem_map.mp hd
      exact ⟨_, rfl⟩
  | call c hc _ hstep =>
    rw [hstep] at hd
    obtain ⟨d₀, hd₀, hcontent⟩ := content_origin hc hd
    rw [← show d₀.message = d.message from congrArg DeliveryContent.message hcontent]
    exact h d₀ hd₀

theorem mem_claimed_message {s : Store} (h : ObjectMessages s) {a : Claim} {x : ClaimedDelivery}
    (hx : x ∈ (claim s.deliveries a).2) : ∃ fields, x.message = .obj fields := by
  obtain ⟨d, hg, -, -, hclaimed, -⟩ := Deliveries.Steps.mem_returned hx
  rw [hclaimed]
  exact h d (Table.mem_of_get hg)

omit [Runtime] in
theorem exists_mapM {α β : Type} {f : α → Option β} {items : List α}
    (h : ∀ x ∈ items, ∃ y, f x = some y) : ∃ results, items.mapM f = some results := by
  induction items with
  | nil => exact ⟨[], rfl⟩
  | cons x items ih =>
    obtain ⟨y, hy⟩ := h x List.mem_cons_self
    obtain ⟨results, hresults⟩ := ih fun z hz => h z (List.mem_cons_of_mem x hz)
    rw [List.mapM_cons, hy, hresults]
    exact ⟨_, rfl⟩

omit [Runtime] in
theorem claimResult_ok {items : List ClaimedDelivery}
    (h : ∀ x ∈ items, ∃ fields, x.message = .obj fields) :
    ∃ responses, claimResult items = .ok (.claim responses) := by
  have hmap : ∃ responses, items.mapM claimedDelivery = some responses := by
    refine exists_mapM fun x hx => ?_
    obtain ⟨fields, hfields⟩ := h x hx
    simp only [claimedDelivery, hfields]
    exact ⟨_, rfl⟩
  obtain ⟨responses, hresponses⟩ := hmap
  refine ⟨responses, ?_⟩
  unfold claimResult
  rw [hresponses]

omit [Runtime] in
/-- **A reply that changes the state** is a payload of a route that writes. -/
theorem Served.changes {settings : Settings} {sv : State} {d : Draw} {id : String} {kind : Kind}
    {reply : Reply} [Runtime] (h : Served settings sv d id kind reply)
    (hmsg : ObjectMessages sv.store) (hne : reply.1 ≠ sv) :
    kind ≠ .read ∧ ∃ p, reply.2 = .ok p := by
  cases h with
  | failed e => exact absurd rfl hne
  | read p => exact absurd rfl hne
  | claim a =>
    obtain ⟨responses, hok⟩ := claimResult_ok fun x => mem_claimed_message hmsg
    exact ⟨by simp, _, hok⟩
  | setPermissions | changeRole | addSubscription | removeSubscription
  | newPairingCode | approveCode
  | ack | fail | publish => exact ⟨by simp, _, rfl⟩

variable [Pydantic]

/-- **Changes are authorized and reported**: in every state that any actions lead to, a request that
changes anything is answered with 200, on a route that writes, and its caller is authenticated. -/
theorem changes_authorized (settings : Settings) {sv₀ : State} (h₀ : ObjectMessages sv₀.store)
    (actions : List Action) (d : Draw) (req : Request) :
    (serve settings (run (step settings) sv₀ actions) d req).1 ≠ run (step settings) sv₀ actions →
      (serve settings (run (step settings) sv₀ actions) d req).2.status = 200 ∧
        req.target.kind ≠ .read ∧
        Authorized settings (run (step settings) sv₀ actions) d req.credentials
          req.target.kind := by
  have hmsg : ObjectMessages (run (step settings) sv₀ actions).store := by
    refine run_invariant_all (I := fun sv : State => ObjectMessages sv.store)
      (fun sv action h => ?_) h₀ actions
    refine invariant_step (fun s s' hs hm => ?_) objectMessages_step h action
    obtain ⟨logs, rfl⟩ := hs
    exact hm
  generalize run (step settings) sv₀ actions = sv at hmsg ⊢
  intro hne
  obtain ⟨hkind, p, hp⟩ := (route_cases settings sv d (requestId req.suppliedId d.uuid)
    req.credentials req.target).changes hmsg hne
  refine ⟨?_, hkind, ?_⟩
  · simp only [serve, hp, respond]
  · by_contra hauth
    exact hne (closed_unauthorized settings sv sv d req hauth hauth).1

omit [Runtime] [Pydantic] in
theorem objectMessages_empty : ObjectMessages {} := fun _ hd => absurd hd List.not_mem_nil

omit [Runtime] [Pydantic] in
/-- A pairing code is stored. -/
theorem changes_authorized_sample :
    (sampleServe {} sampleAuthorized).2.status = 200 ∧ Kind.pairingCode ≠ .read ∧
      @Authorized .sample sampleSettings {} sampleDraw sampleAuthorized.credentials
        .pairingCode := by
  refine @changes_authorized .sample samplePydantic sampleSettings {}
    objectMessages_empty [] sampleDraw sampleAuthorized fun h => ?_
  have hcodes := congrArg (fun sv : State => sv.store.pairingCodes.rows.length) h
  exact absurd hcodes (by decide)

end Changes

end EventServer.Api.App
