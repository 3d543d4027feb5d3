import VitrialSync.Server.Checks

set_option relaxedAutoImplicit false
set_option autoImplicit false

/-!
# Blocker and quotation lifecycles

The validators of `app/lifecycle.py`. An upsert of a blocker or a quotation carries its whole event
history; the validator replays it, compares it with the stored one and checks that the status is
the one the history leads to.

## Main definitions

* `VitrialSync.Lifecycle.requireImmutablePrefix` — `_require_immutable_prefix`.
* `VitrialSync.Lifecycle.validateBlockerLifecycle` — `validate_blocker_lifecycle`.
* `VitrialSync.Lifecycle.validateQuotationLifecycle` — `validate_quotation_lifecycle`.
* `VitrialSync.Lifecycle.validateLifecycleMutation` — `validate_lifecycle_mutation`.

## Main results

* `VitrialSync.Lifecycle.requireImmutablePrefix_spec` — what the prefix check establishes.
* `VitrialSync.Lifecycle.validateBlockerLifecycle_spec`,
  `VitrialSync.Lifecycle.validateQuotationLifecycle_spec`,
  `VitrialSync.Lifecycle.validateLifecycleMutation_spec` — an accepted history extends the stored
  one, and its last new event names the principal.
-/

namespace VitrialSync.Lifecycle

open Python Program

/-- `raise LifecycleRejected(message)`. -/
def rejected (message : String) : Exc := .lifecycleRejected message

/-! ### Histories -/

/-- `_events`. -/
def events (payload : Dict) (name : String) (required : Bool) : Except Exc (List Dict) :=
  let raw := payload.get "events"
  if raw.isNone && !required then .ok []
  else
    match raw.list? with
    | none => .error (rejected (name ++ " history is required"))
    | some xs =>
      if required && xs.isEmpty then .error (rejected (name ++ " history is required"))
      else
        match dicts? xs with
        | none => .error (rejected (name ++ " history is malformed"))
        | some ds => .ok ds

/-- `_require_unique_event_ids`. -/
def requireUniqueEventIds (entries : List Dict) (name : String) : Except Exc Unit :=
  requireUniqueIds "id" (rejected (name ++ " event id is required"))
    (rejected (name ++ " event ids must be unique")) entries []

/-- `_require_connected_provenance`. -/
def requireConnectedProvenance (event : Dict) (principal : Principal) (name : String)
    (currentActor : Bool) : Except Exc Unit :=
  requireProvenance (fun m => .lifecycleRejected m)
    { incomplete := name ++ " event provenance is incomplete"
      organization := name ++ " event organization is invalid"
      mismatch := name ++ " latest event does not match authenticated provenance" }
    event principal currentActor

/-- `payload.get("events") or []` as a list of dictionaries, when it is one. -/
def storedEvents? (payload : Dict) : Option (List Dict) :=
  let raw := payload.get "events"
  if raw.truthy then raw.list?.bind dicts? else some []

/-- `_require_immutable_prefix`: the events that `proposed` appends to the stored history. -/
def requireImmutablePrefix (currentPayload : Option Dict) (proposed : List Dict) (name : String) :
    Except Exc (List Dict) :=
  match currentPayload with
  | none => .ok proposed
  | some stored =>
    match storedEvents? stored with
    | none => .error (rejected ("canonical " ++ name ++ " history is malformed"))
    | some current =>
      if proposed.length < current.length then
        .error (rejected (name ++ " history cannot be truncated"))
      else if startsWith proposed current then .ok (proposed.drop current.length)
      else .error (rejected (name ++ " history is immutable"))

/-- The check on the last of the events that a mutation appends. -/
def requireNewestProvenance (appended : List Dict) (principal : Principal) (name : String) :
    Except Exc Unit :=
  match appended.getLast? with
  | none => .ok ()
  | some newest => requireConnectedProvenance newest principal name true

/-! ### Blockers -/

/-- The statuses of a blocker. -/
inductive BlockerStatus where
  | isOpen
  | resolved
  deriving DecidableEq

/-- `{"open", "resolved"}`. -/
def blockerStatuses : List (String × BlockerStatus) := [("open", .isOpen), ("resolved", .resolved)]

/-- The kinds of blocker events. -/
inductive BlockerEventKind where
  | created
  | updated
  | resolved
  | reopened
  deriving DecidableEq

/-- `_BLOCKER_EVENT_KINDS`. -/
def blockerEventKinds : List (String × BlockerEventKind) :=
  [("created", .created), ("updated", .updated), ("resolved", .resolved), ("reopened", .reopened)]

/-- `_normalized(v) or ""` as a value. -/
def textOrEmpty (v : Value) : Value := .str ((normalized v).getD [])

/-- `_blocker_snapshot`. -/
def blockerSnapshot (event : Dict) : List Value :=
  [event.get "blockerCategory", textOrEmpty (event.get "blockerKind"),
    textOrEmpty (event.get "description"), event.get "critical",
    textOrEmpty (event.get "responsiblePerson"), textOrEmpty (event.get "vendorSupplier")]

/-- One check of `_validate_optional_blocker_snapshot`: a field of the latest event, when present,
agrees with the payload. Texts are compared normalized. -/
def optionalSnapshotField (event : Dict) (key : String) (expected : Value) (text : Bool) :
    Except Exc Unit :=
  if event.contains key then
    let actual := event.get key
    raiseIf ((if text then textOrEmpty actual else actual).ne expected)
      (rejected ("blocker latest event " ++ key ++ " does not match snapshot"))
  else .ok ()

/-- `_validate_optional_blocker_snapshot`. -/
def validateOptionalBlockerSnapshot (payload event : Dict) : Except Exc Unit := do
  optionalSnapshotField event "blockerCategory" (payload.get "category") false
  optionalSnapshotField event "blockerKind" (textOrEmpty (payload.get "kind")) true
  optionalSnapshotField event "description" (textOrEmpty (payload.get "description")) true
  optionalSnapshotField event "critical" (payload.get "critical") false
  optionalSnapshotField event "responsiblePerson" (textOrEmpty (payload.get "responsiblePerson"))
    true
  optionalSnapshotField event "vendorSupplier" (textOrEmpty (payload.get "vendorSupplier")) true

/-- The loop variables of `validate_blocker_lifecycle`. -/
structure BlockerReplay where
  state : Option BlockerStatus
  previousSnapshot : Option (List Value)

/-- The state after an event of a given kind; `index` is its position in the history. -/
def blockerTransition (r : BlockerReplay) (index : ℕ) (kind : BlockerEventKind)
    (snapshot : List Value) : Except Exc (Option BlockerStatus) :=
  match kind with
  | .created =>
    if index ≠ 0 ∨ r.state.isSome then .error (rejected "blocker created event must be first")
    else .ok (some .isOpen)
  | .updated =>
    if r.state.isNone then .error (rejected "blocker update cannot precede creation")
    else if r.previousSnapshot.any (Value.sameList snapshot) then
      .error (rejected "blocker updated event must record a material field change")
    else .ok r.state
  | .resolved =>
    if r.state ≠ some .isOpen then .error (rejected "blocker can only resolve from open")
    else .ok (some .resolved)
  | .reopened =>
    if r.state ≠ some .resolved then .error (rejected "blocker can only reopen from resolved")
    else .ok (some .isOpen)

/-- One iteration of the replay loop of `validate_blocker_lifecycle`. -/
def replayBlockerEvent (principal : Principal) (entityId itemId : Str) (r : BlockerReplay)
    (indexed : Dict × ℕ) : Except Exc BlockerReplay := do
  let (event, index) := indexed
  match ← hashedName blockerEventKinds (event.get "kind") with
  | none => .error (rejected "blocker event kind is invalid")
  | some kind => do
    raiseIf (!(event.get "blockerID").isStr entityId || !(event.get "itemID").isStr itemId)
      (rejected "blocker event identity is invalid")
    requireConnectedProvenance event principal "blocker" false
    let snapshot := blockerSnapshot event
    let state ← blockerTransition r index kind snapshot
    return ⟨state, some snapshot⟩

/-- The fields that may only change together with a new event. -/
def blockerProtected : List String :=
  ["category", "kind", "description", "status", "critical", "resolvedAt", "responsiblePerson",
    "vendorSupplier"]

/-- The latest event of a blocker agrees with its payload. -/
def requireLatestSnapshot (payload : Dict) (history : List Dict) : Except Exc Unit :=
  match history.getLast? with
  | none => .ok ()
  | some latest => validateOptionalBlockerSnapshot payload latest

/-- A change of a stored blocker appends an event. -/
def requireAppendedChange (payload : Dict) (currentPayload : Option Dict) (appended : List Dict) :
    Except Exc Unit :=
  match currentPayload with
  | none => .ok ()
  | some stored =>
    raiseIf (appended.isEmpty &&
        blockerProtected.any fun key => (stored.get key).ne (payload.get key))
      (rejected "blocker changes must append a lifecycle event")

/-- `validate_blocker_lifecycle`. -/
def validateBlockerLifecycle (payload : Dict) (currentPayload : Option Dict)
    (principal : Principal) (entityId : Str) : Except Exc Unit := do
  raiseIf (normalized (payload.get "description")).isNone
    (rejected "blocker description is required")
  match ← hashedName blockerStatuses (payload.get "status") with
  | none => .error (rejected "blocker status is invalid")
  | some status => do
    raiseIf (status == .isOpen && !(payload.get "resolvedAt").isNone)
      (rejected "open blocker cannot have resolvedAt")
    raiseIf (status == .resolved && (payload.get "resolvedAt").isNone)
      (rejected "resolved blocker requires resolvedAt")
    match normalized (payload.get "itemID") with
    | none => .error (rejected "blocker itemID is required")
    | some itemId => do
      let history ← events payload "blocker" true
      requireUniqueEventIds history "blocker"
      let appended ← requireImmutablePrefix currentPayload history "blocker"
      let replay ← history.zipIdx.foldlM (replayBlockerEvent principal entityId itemId) ⟨none, none⟩
      raiseIf (replay.state != some status)
        (rejected "blocker status does not match lifecycle history")
      requireLatestSnapshot payload history
      requireAppendedChange payload currentPayload appended
      requireNewestProvenance appended principal "blocker"

/-! ### Quotations -/

/-- The statuses of a quotation. -/
inductive QuotationStatus where
  | draft
  | ready
  | sent
  | approved
  | rejected
  | superseded
  deriving DecidableEq

/-- `_QUOTATION_STATUSES`. -/
def quotationStatuses : List (String × QuotationStatus) :=
  [("draft", .draft), ("ready", .ready), ("sent", .sent), ("approved", .approved),
    ("rejected", .rejected), ("superseded", .superseded)]

/-- The kinds of quotation events. -/
inductive QuotationEventKind where
  | sent
  | approved
  | rejected
  | superseded
  deriving DecidableEq

/-- `_QUOTATION_EVENT_KINDS`. -/
def quotationEventKinds : List (String × QuotationEventKind) :=
  [("sent", .sent), ("approved", .approved), ("rejected", .rejected),
    ("superseded", .superseded)]

/-- `_QUOTATION_CONTENT_LOCKED`. -/
def quotationContentLocked : List QuotationStatus := [.sent, .rejected, .approved, .superseded]

/-- `_QUOTATION_LIFECYCLE_KEYS`. -/
def quotationLifecycleKeys : List Str :=
  [Str.ofString "status", Str.ofString "events", Str.ofString "updatedAt"]

/-- The statuses a quotation can move to without an event. -/
def noEventDestinations : QuotationStatus → List QuotationStatus
  | .draft => [.ready]
  | .ready => [.draft]
  | .rejected => [.draft]
  | _ => []

/-- One pass of the loop of `_quotation_no_event_closure`: the destinations of all states. -/
def closurePass (states : List QuotationStatus) : List QuotationStatus :=
  (states.flatMap noEventDestinations).foldl (fun acc s => acc.insert s) states

/-- The loop of `_quotation_no_event_closure`: repeat until a pass changes nothing. -/
def closureLoop : ℕ → List QuotationStatus → List QuotationStatus
  | 0, states => states
  | fuel + 1, states =>
    let next := closurePass states
    if next.length = states.length then states else closureLoop fuel next

/-- `_quotation_no_event_closure`. A pass that changes something adds a status, and there are
six. -/
def quotationNoEventClosure (states : List QuotationStatus) : List QuotationStatus :=
  closureLoop 6 states

/-- `_apply_quotation_event`. -/
def applyQuotationEvent (states : List QuotationStatus) (kind : QuotationEventKind) :
    List QuotationStatus :=
  let reachable := quotationNoEventClosure states
  match kind with
  | .sent => if reachable.contains .ready then [.sent] else []
  | .approved => if reachable.contains .sent then [.approved] else []
  | .rejected => if reachable.contains .sent then [.rejected] else []
  | .superseded =>
    if reachable.any fun s => s = .draft ∨ s = .ready ∨ s = .sent ∨ s = .rejected then
      [.superseded]
    else []

/-- One iteration of the replay loop of `validate_quotation_lifecycle`. -/
def replayQuotationEvent (states : List QuotationStatus) (kind : QuotationEventKind) :
    Except Exc (List QuotationStatus) :=
  let next := applyQuotationEvent states kind
  if next.isEmpty then .error (rejected "quotation lifecycle event sequence is invalid")
  else .ok next

/-- `_quotation_revision`, with the exception of the module it stands in. -/
def quotationRevisionOr (invalid : Exc) (payload : Dict) : Except Exc ℤ :=
  let revision := payload.get "revision"
  if revision.isNone then .ok 1
  else
    match revision.properInt? with
    | some n => if n < 1 then .error invalid else .ok n
    | none => .error invalid

/-- `_quotation_revision` of the lifecycle module. -/
def quotationRevision (payload : Dict) : Except Exc ℤ :=
  quotationRevisionOr (rejected "quotation revision must be at least 1") payload

/-- `_commercial_content`. -/
def commercialContent (payload : Dict) : Dict :=
  payload.filter fun e => !quotationLifecycleKeys.contains e.1

/-- One iteration of the loop that checks the events of a quotation; the kind is returned. -/
def checkQuotationEvent (principal : Principal) (event : Dict) : Except Exc QuotationEventKind := do
  match ← hashedName quotationEventKinds (event.get "kind") with
  | none => .error (rejected "quotation event kind is invalid")
  | some kind => do
    requireConnectedProvenance event principal "quotation" false
    return kind

/-- The checks of `validate_quotation_lifecycle` against the stored payload. -/
def requireSameQuotation (payload stored : Dict) (revision : ℤ) (supersedes : Option Str) :
    Except Exc Unit := do
  let currentRevision ← quotationRevision stored
  raiseIf (currentRevision != revision) (rejected "quotation revision is immutable")
  raiseIf (normalized (stored.get "supersedesQuotationID") != supersedes)
    (rejected "quotation supersession identity is immutable")
  match ← hashedName quotationStatuses (stored.get "status") with
  | none => .error (rejected "canonical quotation status is invalid")
  | some currentStatus =>
    raiseIf (quotationContentLocked.contains currentStatus &&
        Value.ne (.dict (commercialContent stored)) (.dict (commercialContent payload)))
      (rejected "customer-facing quotation content is locked; create a replacement revision")

/-- The checks of `validate_quotation_lifecycle` for a quotation without stored payload. -/
def requirePredecessor (db : Db) (principal : Principal) (payload : Dict) (entityId : Str)
    (revision : ℤ) (supersedes : Option Str) : Except Exc Unit :=
  if revision = 1 then
    raiseIf supersedes.isSome
      (rejected "quotation revision 1 cannot supersede another quotation")
  else
    match supersedes with
    | none => .error (rejected "replacement quotation requires a predecessor")
    | some predecessorId => do
      raiseIf (predecessorId == entityId)
        (rejected "replacement quotation requires a predecessor")
      match db.entities.get (principal.organizationId, .quotation, predecessorId) with
      | some ⟨_, some predecessor, _, none⟩ => do
        raiseIf ((predecessor.items.get "projectID").ne (payload.get "projectID"))
          (rejected "quotation predecessor belongs to another Project")
        raiseIf ((predecessor.items.get "customerID").ne (payload.get "customerID"))
          (rejected "quotation predecessor belongs to another Customer")
        let predecessorRevision ← quotationRevision predecessor.items
        raiseIf (predecessorRevision != revision - 1)
          (rejected "quotation predecessor revision is not contiguous")
      | _ => .error (rejected "quotation predecessor is not canonical and active")

/-- `validate_quotation_lifecycle`. -/
def validateQuotationLifecycle (db : Db) (payload : Dict) (currentPayload : Option Dict)
    (principal : Principal) (entityId : Str) : Except Exc Unit := do
  match ← hashedName quotationStatuses (payload.get "status") with
  | none => .error (rejected "quotation status is invalid")
  | some status => do
    let history ← events payload "quotation" false
    requireUniqueEventIds history "quotation"
    let kinds ← history.mapM (checkQuotationEvent principal)
    let appended ← requireImmutablePrefix currentPayload history "quotation"
    let states ← kinds.foldlM replayQuotationEvent [.draft]
    raiseIf (!(quotationNoEventClosure states).contains status)
      (rejected "quotation status is not reachable from lifecycle history")
    requireNewestProvenance appended principal "quotation"
    let revision ← quotationRevision payload
    let supersedes := normalized (payload.get "supersedesQuotationID")
    match currentPayload with
    | some stored => requireSameQuotation payload stored revision supersedes
    | none => requirePredecessor db principal payload entityId revision supersedes

/-! ### What an accepted history establishes -/

/-- The events of a payload that may be absent. -/
def historyOf (payload : Option Dict) : List Dict := (payload.bind storedEvents?).getD []

/-- An accepted event history: it extends the stored one, every event has a revision number, and the
last appended event names the principal. -/
structure AcceptedHistory (payload : Dict) (currentPayload : Option Dict) (principal : Principal) :
    Prop where
  wellFormed : (storedEvents? payload).isSome
  extend : IsPrefix (historyOf currentPayload) (historyOf (some payload))
  revision : ∀ event ∈ historyOf (some payload), ∃ n, event.get "authorizationRevision" = .int n
  newest : ∀ event,
    ((historyOf (some payload)).drop (historyOf currentPayload).length).getLast? = some event →
      NamesPrincipal event principal

/-- The events that the validators replay are those a later validator reads back. -/
lemma storedEvents?_of_events {payload : Dict} {name : String} {required : Bool}
    {history : List Dict} (h : events payload name required = .ok history) :
    storedEvents? payload = some history := by
  unfold events at h
  unfold storedEvents?
  generalize payload.get "events" = raw at h ⊢
  cases raw with
  | none =>
    cases required with
    | false =>
      simp only [Value.isNone, Bool.not_false, Bool.and_self, ↓reduceIte, Except.ok.injEq] at h
      simp [Value.truthy, h]
    | true => simp [Value.isNone, Value.list?] at h
  | list xs =>
    simp only [Value.isNone, Value.list?, Bool.false_and, Bool.false_eq_true, ↓reduceIte] at h
    split_ifs at h
    cases hds : dicts? xs with
    | none => simp [hds] at h
    | some ds =>
      simp only [hds, Except.ok.injEq] at h
      subst h
      cases xs with
      | nil => simpa [Value.truthy, dicts?] using hds
      | cons x xs => simp [Value.truthy, Value.list?, hds]
  | _ => simp [Value.isNone, Value.list?] at h

/-- What the prefix check establishes: the proposed events extend the stored ones, and the result
are the appended ones. -/
lemma requireImmutablePrefix_spec {currentPayload : Option Dict} {proposed appended : List Dict}
    {name : String} (h : requireImmutablePrefix currentPayload proposed name = .ok appended) :
    IsPrefix (historyOf currentPayload) proposed ∧
      appended = proposed.drop (historyOf currentPayload).length := by
  unfold requireImmutablePrefix at h
  split at h
  · simp only [Except.ok.injEq] at h
    exact ⟨.nil _, by simp [historyOf, h]⟩
  · rename_i stored
    split at h
    · cases h
    · rename_i current hcurrent
      have hhistory : historyOf (some stored) = current := by simp [historyOf, hcurrent]
      split_ifs at h with hlen hstarts
      simp only [Except.ok.injEq] at h
      rw [hhistory]
      exact ⟨isPrefix_of_startsWith (not_lt.mp hlen) hstarts, h.symm⟩

/-- What the check of the last appended event establishes. -/
lemma requireNewestProvenance_spec {appended : List Dict} {principal : Principal} {name : String}
    (h : requireNewestProvenance appended principal name = .ok ()) :
    ∀ event, appended.getLast? = some event → NamesPrincipal event principal := by
  intro event hlast
  simp only [requireNewestProvenance, hlast] at h
  exact requireProvenance_current h

/-- An accepted history from the three checks that both validators make. -/
lemma acceptedHistory_of_checks {payload : Dict} {currentPayload : Option Dict}
    {principal : Principal} {name : String} {history appended : List Dict}
    (hstored : storedEvents? payload = some history)
    (hleading : requireImmutablePrefix currentPayload history name = .ok appended)
    (hrevision : ∀ event ∈ history, ∃ n, event.get "authorizationRevision" = .int n)
    (hnewest : requireNewestProvenance appended principal name = .ok ()) :
    AcceptedHistory payload currentPayload principal := by
  have hhistory : historyOf (some payload) = history := by simp [historyOf, hstored]
  obtain ⟨hextend, rfl⟩ := requireImmutablePrefix_spec hleading
  refine ⟨by simp [hstored], ?_, ?_, ?_⟩
  · rwa [hhistory]
  · rwa [hhistory]
  · rw [hhistory]
    exact requireNewestProvenance_spec hnewest

/-- An accepted blocker history. -/
theorem validateBlockerLifecycle_spec {payload : Dict} {currentPayload : Option Dict}
    {principal : Principal} {entityId : Str}
    (h : validateBlockerLifecycle payload currentPayload principal entityId = .ok ()) :
    AcceptedHistory payload currentPayload principal := by
  simp only [validateBlockerLifecycle, bind_eq_ok] at h
  obtain ⟨-, -, status?, -, h⟩ := h
  cases status? with
  | none => cases h
  | some status =>
    simp only [bind_eq_ok] at h
    obtain ⟨-, -, -, -, h⟩ := h
    split at h
    · cases h
    · rename_i itemId hitem
      simp only [bind_eq_ok] at h
      obtain ⟨history, hevents, -, -, appended, hleading, replay, hreplay, -, -, -, -, -, -,
        hnewest⟩ := h
      refine acceptedHistory_of_checks (storedEvents?_of_events hevents) hleading ?_ hnewest
      intro event hevent
      obtain ⟨index, hindexed⟩ := List.mem_iff_getElem?.mp hevent
      obtain ⟨r, r', hiteration⟩ :=
        foldlM_eq_ok_mem hreplay (event, index) (List.mk_mem_zipIdx_iff_getElem?.mpr hindexed)
      simp only [replayBlockerEvent, bind_eq_ok] at hiteration
      obtain ⟨kind?, -, hiteration⟩ := hiteration
      cases kind? with
      | none => cases hiteration
      | some kind =>
        simp only [bind_eq_ok] at hiteration
        obtain ⟨-, -, ⟨⟩, hprovenance, -⟩ := hiteration
        exact requireProvenance_revision hprovenance

/-- What the checks on a quotation have read and found: its status, its events with their kinds, the
states the events lead to, and its revision. -/
structure QuotationChecked (db : Db) (payload : Dict) (currentPayload : Option Dict)
    (principal : Principal) (entityId : Str) (status : QuotationStatus) (history : List Dict)
    (kinds : List QuotationEventKind) (states : List QuotationStatus) (revision : ℤ) : Prop where
  spelled : hashedName quotationStatuses (payload.get "status") = .ok (some status)
  readEvents : events payload "quotation" false = .ok history
  readKinds : history.mapM (checkQuotationEvent principal) = .ok kinds
  extended : ∃ appended, requireImmutablePrefix currentPayload history "quotation" = .ok appended ∧
    requireNewestProvenance appended principal "quotation" = .ok ()
  replay : kinds.foldlM replayQuotationEvent [.draft] = .ok states
  reachable : (quotationNoEventClosure states).contains status = true
  readRevision : quotationRevision payload = .ok revision
  same : ∀ stored, currentPayload = some stored → requireSameQuotation payload stored revision
    (normalized (payload.get "supersedesQuotationID")) = .ok ()
  predecessor : currentPayload = none → requirePredecessor db principal payload entityId revision
    (normalized (payload.get "supersedesQuotationID")) = .ok ()

/-- Inversion of the checks on a quotation. -/
lemma validateQuotationLifecycle_checked {db : Db} {payload : Dict} {currentPayload : Option Dict}
    {principal : Principal} {entityId : Str}
    (h : validateQuotationLifecycle db payload currentPayload principal entityId = .ok ()) :
    ∃ status history kinds states revision, QuotationChecked db payload currentPayload principal
      entityId status history kinds states revision := by
  simp only [validateQuotationLifecycle, bind_eq_ok] at h
  obtain ⟨status?, hstatus, h⟩ := h
  cases status? with
  | none => cases h
  | some status =>
    simp only [bind_eq_ok, raiseIf_eq_ok, exists_const, Bool.not_eq_false'] at h
    obtain ⟨history, hevents, -, -, kinds, hkinds, appended, hleading, states, hreplay, hreachable,
      ⟨⟩, hnewest, revision, hrevision, h⟩ := h
    refine ⟨status, history, kinds, states, revision, hstatus, hevents, hkinds,
      ⟨appended, hleading, hnewest⟩, hreplay, hreachable, hrevision, ?_, ?_⟩
    · rintro stored rfl
      exact h
    · rintro rfl
      exact h

/-- An accepted quotation history. -/
theorem validateQuotationLifecycle_spec {db : Db} {payload : Dict} {currentPayload : Option Dict}
    {principal : Principal} {entityId : Str}
    (h : validateQuotationLifecycle db payload currentPayload principal entityId = .ok ()) :
    AcceptedHistory payload currentPayload principal := by
  obtain ⟨status, history, kinds, states, revision, hchecked⟩ :=
    validateQuotationLifecycle_checked h
  obtain ⟨appended, hleading, hnewest⟩ := hchecked.extended
  refine acceptedHistory_of_checks (storedEvents?_of_events hchecked.readEvents) hleading ?_ hnewest
  intro event hevent
  obtain ⟨kind, hcheck⟩ := mapM_eq_ok_mem hchecked.readKinds event hevent
  simp only [checkQuotationEvent, bind_eq_ok] at hcheck
  obtain ⟨kind?, -, hcheck⟩ := hcheck
  cases kind? with
  | none => cases hcheck
  | some kind =>
    simp only [bind_eq_ok] at hcheck
    obtain ⟨⟨⟩, hprovenance, -⟩ := hcheck
    exact requireProvenance_revision hprovenance

/-! ### Dispatch -/

/-- `validate_lifecycle_mutation`: upserts of blockers and quotations. -/
def validateLifecycleMutation (db : Db) (principal : Principal) (entityType : EntityType)
    (entityId : Str) (payload : Dict) (deletedAt : Option DateTime) (current : Option SyncEntity) :
    Except Exc Unit :=
  if deletedAt.isSome then .ok ()
  else
    let currentPayload := (current.bind SyncEntity.payloadJson).map Payload.items
    match entityType with
    | .blocker => validateBlockerLifecycle payload currentPayload principal entityId
    | .quotation => validateQuotationLifecycle db payload currentPayload principal entityId
    | _ => .ok ()

/-- An accepted upsert of a blocker or a quotation has an accepted history. -/
theorem validateLifecycleMutation_spec {db : Db} {principal : Principal} {entityType : EntityType}
    {entityId : Str} {payload : Dict} {current : Option SyncEntity}
    (htype : entityType = .blocker ∨ entityType = .quotation)
    (h : validateLifecycleMutation db principal entityType entityId payload none current = .ok ()) :
    AcceptedHistory payload ((current.bind SyncEntity.payloadJson).map Payload.items) principal := by
  rcases htype with rfl | rfl
  · exact validateBlockerLifecycle_spec h
  · exact validateQuotationLifecycle_spec h

/-- The events of a well-formed payload are well formed. -/
lemma historyOf_wellFormed {payload : Dict} (h : Value.WellFormed (.dict payload)) :
    ∀ event ∈ historyOf (some payload), Value.WellFormed (.dict event) := by
  intro event hevent
  simp only [historyOf, storedEvents?, Option.bind_some] at hevent
  have hraw := h.get "events"
  generalize payload.get "events" = raw at hevent hraw
  split_ifs at hevent
  · cases raw with
    | list xs => exact wellFormed_of_dicts? hraw hevent
    | _ => simp [Value.list?] at hevent
  · simp at hevent

end VitrialSync.Lifecycle
