import VitrialSync.Beam.Canonical
import VitrialSync.Server.Lifecycle

set_option relaxedAutoImplicit false
set_option autoImplicit false

/-!
# Blocker and quotation lifecycles on the BEAM

`VitrialSync.Lifecycle`: the port of `validate_blocker_lifecycle` and
`validate_quotation_lifecycle`. The vocabularies are those of the reference.

## Main definitions

* `VitrialSync.Beam.Lifecycle.blocker`, `VitrialSync.Beam.Lifecycle.quotation` — `blocker/4` and
  `quotation/5`.
* `VitrialSync.Beam.Lifecycle.checkQuotationRevision` — `check_quotation_revision/4`.
* `VitrialSync.Beam.Lifecycle.decide` — `decide/5`.
-/

namespace VitrialSync.Beam.Lifecycle

open Python Program
open VitrialSync.Lifecycle (BlockerStatus BlockerEventKind blockerStatuses blockerEventKinds
  QuotationStatus QuotationEventKind quotationStatuses quotationEventKinds quotationContentLocked
  quotationLifecycleKeys)

/-! ### Histories -/

/-- `events/3`. -/
def events (payload : Dict) (name : String) (required : Bool) : Except Fault (List Dict) :=
  match eventList (payload.get "events") required with
  | .ok events => .ok events
  | .error .required => refuse (name ++ " history is required")
  | .error .malformed => refuse (name ++ " history is malformed")

/-- `unique_event_ids/2`; `seen` are the ids of the events before. -/
def uniqueEventIds (name : String) : (events : List Dict) → (seen : List Str) → Except Fault Unit
  | [], _ => .ok ()
  | event :: events, seen =>
    match normalized (event.get "id") with
    | none => refuse (name ++ " event id is required")
    | some id =>
      if seen.contains id then refuse (name ++ " event ids must be unique")
      else uniqueEventIds name events (id :: seen)

/-- `falsy_json?/1`. An empty list and an empty map are not falsy. -/
def falsyJson : Value → Bool
  | .none => true
  | .bool b => !b
  | .int n => n == 0
  | .float x => x.eq (Binary64.ofInt 0)
  | .str s => s.isEmpty
  | .list _ => false
  | .dict _ => false

/-- `immutable_prefix/3`: the events that are appended to the stored history. -/
def immutablePrefix (currentPayload : Option Dict) (proposed : List Dict) (name : String) :
    Except Fault (List Dict) :=
  match currentPayload with
  | none => .ok proposed
  | some currentPayload =>
    let current := currentPayload.get "events"
    if falsyJson current then .ok proposed
    else
      match current.list?.bind dicts? with
      | none => refuse ("canonical " ++ name ++ " history is malformed")
      | some current =>
        if proposed.length < current.length then refuse (name ++ " history cannot be truncated")
        else if !listEq ((proposed.take current.length).map .dict) (current.map .dict) then
          refuse (name ++ " history is immutable")
        else .ok (proposed.drop current.length)

/-- `tail_provenance/3`. -/
def tailProvenance (appended : List Dict) (principal : Option Principal) (texts : ProvenanceTexts) :
    Except Fault Unit :=
  match appended.getLast? with
  | none => .ok ()
  | some newest => checkProvenance newest principal true texts

/-! ### Blockers -/

/-- `@blocker_provenance_messages`. -/
def blockerProvenanceMessages : ProvenanceTexts where
  incomplete := "blocker event provenance is incomplete"
  organization := "blocker event organization is invalid"
  mismatch := "blocker latest event does not match authenticated provenance"

/-- `Value.normalized(value) || ""`. -/
def textOrEmpty (v : Value) : Value := .str ((normalized v).getD [])

/-- `blocker_snapshot/1`. -/
def blockerSnapshot (event : Dict) : List Value :=
  [event.get "blockerCategory", textOrEmpty (event.get "blockerKind"),
    textOrEmpty (event.get "description"), event.get "critical",
    textOrEmpty (event.get "responsiblePerson"), textOrEmpty (event.get "vendorSupplier")]

/-- `step_blocker_state/4`. The kind was checked before, so the `case` has an arm for it. -/
def stepBlockerState (event : Dict) (index : ℕ) (state : Option BlockerStatus)
    (previousSnapshot : Option (List Value)) : Except Fault (Option BlockerStatus) :=
  match findName blockerEventKinds (event.get "kind") with
  | some .created =>
    if index ≠ 0 ∨ state.isSome then refuse "blocker created event must be first"
    else .ok (some .isOpen)
  | some .updated =>
    if state.isNone then refuse "blocker update cannot precede creation"
    else if previousSnapshot.any fun previous => listEq (blockerSnapshot event) previous then
      refuse "blocker updated event must record a material field change"
    else .ok state
  | some .resolved =>
    if state ≠ some .isOpen then refuse "blocker can only resolve from open"
    else .ok (some .resolved)
  | some .reopened =>
    if state ≠ some .resolved then refuse "blocker can only reopen from resolved"
    else .ok (some .isOpen)
  | none => .error (.raised .caseClauseError)

/-- What `walk_blocker_events/8` threads: the position, the state and the last snapshot. -/
structure BlockerWalk where
  index : ℕ
  state : Option BlockerStatus
  previous : Option (List Value)

/-- One event of `walk_blocker_events/8`. -/
def walkBlockerEvent (principal : Option Principal) (entityId itemId : Str) (walk : BlockerWalk)
    (event : Dict) : Except Fault BlockerWalk := do
  refuseIf (!member (event.get "kind") (blockerEventKinds.map Prod.fst))
    "blocker event kind is invalid"
  refuseIf (!(event.get "blockerID").isStr entityId || !(event.get "itemID").isStr itemId)
    "blocker event identity is invalid"
  checkProvenance event principal false blockerProvenanceMessages
  let state ← stepBlockerState event walk.index walk.state walk.previous
  return ⟨walk.index + 1, state, some (blockerSnapshot event)⟩

/-- The fields that `match_blocker_snapshot/2` compares, with what the payload says and whether the
event's text is normalized. -/
def snapshotFields (payload : Dict) : List (String × Value × Bool) :=
  [("blockerCategory", payload.get "category", false),
    ("blockerKind", textOrEmpty (payload.get "kind"), true),
    ("description", textOrEmpty (payload.get "description"), true),
    ("critical", payload.get "critical", false),
    ("responsiblePerson", textOrEmpty (payload.get "responsiblePerson"), true),
    ("vendorSupplier", textOrEmpty (payload.get "vendorSupplier"), true)]

/-- `match_blocker_snapshot/2`. -/
def matchBlockerSnapshot (payload event : Dict) : Except Fault Unit :=
  (snapshotFields payload).forM fun (key, expected, text) =>
    if event.contains key then
      let actual := if text then textOrEmpty (event.get key) else event.get key
      refuseIf (!pyEq actual expected)
        ("blocker latest event " ++ key ++ " does not match snapshot")
    else .ok ()

/-- `@blocker_protected_keys`. -/
def blockerProtectedKeys : List String :=
  ["category", "kind", "description", "status", "critical", "resolvedAt", "responsiblePerson",
    "vendorSupplier"]

/-- `blocker_change_requires_event/3`. -/
def blockerChangeRequiresEvent (payload : Dict) (currentPayload : Option Dict)
    (appended : List Dict) : Except Fault Unit :=
  match currentPayload with
  | none => .ok ()
  | some current =>
    if !appended.isEmpty then .ok ()
    else
      refuseIf (blockerProtectedKeys.any fun key => pyNe (current.get key) (payload.get key))
        "blocker changes must append a lifecycle event"

/-- `blocker/4`. -/
def blocker (payload : Dict) (principal : Option Principal) (currentPayload : Option Dict)
    (entityId : Str) : Except Fault Unit := do
  refuseIf (normalized (payload.get "description")).isNone "blocker description is required"
  refuseIf (!member (payload.get "status") (blockerStatuses.map Prod.fst))
    "blocker status is invalid"
  refuseIf ((payload.get "status").isStr "open" && !(payload.get "resolvedAt").isNone)
    "open blocker cannot have resolvedAt"
  refuseIf ((payload.get "status").isStr "resolved" && (payload.get "resolvedAt").isNone)
    "resolved blocker requires resolvedAt"
  match normalized (payload.get "itemID") with
  | none => refuse "blocker itemID is required"
  | some itemId => do
    let history ← events payload "blocker" true
    uniqueEventIds "blocker" history []
    let appended ← immutablePrefix currentPayload history "blocker"
    let walk ← history.foldlM (walkBlockerEvent principal entityId itemId) ⟨0, none, none⟩
    refuseIf (walk.state != findName blockerStatuses (payload.get "status"))
      "blocker status does not match lifecycle history"
    -- a required history is not empty
    matchBlockerSnapshot payload (history.getLast?.getD [])
    blockerChangeRequiresEvent payload currentPayload appended
    tailProvenance appended principal blockerProvenanceMessages

/-! ### Quotations -/

/-- `@quotation_provenance_messages`. -/
def quotationProvenanceMessages : ProvenanceTexts where
  incomplete := "quotation event provenance is incomplete"
  organization := "quotation event organization is invalid"
  mismatch := "quotation latest event does not match authenticated provenance"

/-- `quotation_event_kinds/2`. -/
def quotationEventKindsCheck (events : List Dict) (principal : Option Principal) :
    Except Fault Unit :=
  events.forM fun event =>
    if member (event.get "kind") (quotationEventKinds.map Prod.fst) then
      checkProvenance event principal false quotationProvenanceMessages
    else refuse "quotation event kind is invalid"

/-- `quotation_destinations/1`. -/
def quotationDestinations : QuotationStatus → List QuotationStatus
  | .draft => [.ready]
  | .ready => [.draft]
  | .rejected => [.draft]
  | _ => []

/-- `widen_quotation_closure/1`: the destinations of a state of the accumulated set are put into
it. -/
def widenQuotationClosure (states : List QuotationStatus) : List QuotationStatus :=
  [QuotationStatus.draft, .ready, .rejected].foldl
    (fun acc state =>
      if acc.contains state then (quotationDestinations state).foldl (fun s d => s.insert d) acc
      else acc)
    states

/-- The recursion of `no_event_closure/1`. -/
def closure : ℕ → List QuotationStatus → List QuotationStatus
  | 0, states => states
  | fuel + 1, states =>
    let widened := widenQuotationClosure states
    if widened.length = states.length then states else closure fuel widened

/-- `no_event_closure/1`. A recursive call has one status more, and there are six. -/
def noEventClosure (states : List QuotationStatus) : List QuotationStatus := closure 6 states

/-- `single/3`. -/
def single (required : QuotationStatus) (reachable : List QuotationStatus)
    (kind : QuotationStatus) : Option (List QuotationStatus) :=
  if reachable.contains required then some [kind] else none

/-- `supersedable?/1`. -/
def supersedable (reachable : List QuotationStatus) : Bool :=
  [QuotationStatus.draft, .ready, .sent, .rejected].any fun s => reachable.contains s

/-- `apply_quotation_event/2`; `none` stands for the dead end. -/
def applyQuotationEvent (states : List QuotationStatus) (kind : Value) :
    Option (List QuotationStatus) :=
  let reachable := noEventClosure states
  match findName quotationEventKinds kind with
  | some .sent => single .ready reachable .sent
  | some .approved => single .sent reachable .approved
  | some .rejected => single .sent reachable .rejected
  | some .superseded => if supersedable reachable then some [.superseded] else none
  | none => none

/-- `fold_quotation_events/2`. -/
def foldQuotationEvents : (events : List Dict) → (states : List QuotationStatus) →
    Option (List QuotationStatus)
  | [], states => some states
  | event :: events, states =>
    match applyQuotationEvent states (event.get "kind") with
    | none => none
    | some next => foldQuotationEvents events next

/-- `walk_quotation_events/2`. -/
def walkQuotationEvents (events : List Dict) (status : Value) : Except Fault Unit :=
  match foldQuotationEvents events [.draft] with
  | none => refuse "quotation lifecycle event sequence is invalid"
  | some states =>
    refuseIf (!(findName quotationStatuses status).any fun s => (noEventClosure states).contains s)
      "quotation status is not reachable from lifecycle history"

/-- `quotation_revision/1`. -/
def quotationRevision (payload : Dict) : Except Fault ℤ :=
  match payload.get "revision" with
  | .none => .ok 1
  | value =>
    match value.properInt? with
    | some n => if 1 ≤ n then .ok n else refuse "quotation revision must be at least 1"
    | none => refuse "quotation revision must be at least 1"

/-- `commercial_content/1`. -/
def commercialContent (payload : Dict) : Dict :=
  payload.filter fun e => !quotationLifecycleKeys.contains e.1

/-- `check_quotation_update/4`. -/
def checkQuotationUpdate (payload currentPayload : Dict) (revision : ℤ)
    (supersedes : Option Str) : Except Fault Unit := do
  let currentRevision ← quotationRevision currentPayload
  refuseIf (currentRevision != revision) "quotation revision is immutable"
  refuseIf (normalized (currentPayload.get "supersedesQuotationID") != supersedes)
    "quotation supersession identity is immutable"
  refuseIf (!member (currentPayload.get "status") (quotationStatuses.map Prod.fst))
    "canonical quotation status is invalid"
  refuseIf ((findName quotationStatuses (currentPayload.get "status")).any
        quotationContentLocked.contains &&
      !pyEq (.dict (commercialContent currentPayload)) (.dict (commercialContent payload)))
    "customer-facing quotation content is locked; create a replacement revision"

/-- `predecessor_field/4`. -/
def predecessorField (predecessor payload : Dict) (key label : String) : Except Fault Unit :=
  refuseIf (!pyEq (predecessor.get key) (payload.get key))
    ("quotation predecessor belongs to another " ++ label)

/-- `check_predecessor_row/3`. -/
def checkPredecessorRow (payload : Dict) (revision : ℤ) (row : Entity) : Except Fault Unit :=
  match row.payload.object? with
  | none => refuse "quotation predecessor is not canonical and active"
  | some predecessor => do
    predecessorField predecessor.items payload "projectID" "Project"
    predecessorField predecessor.items payload "customerID" "Customer"
    let predecessorRevision ← quotationRevision predecessor.items
    refuseIf (predecessorRevision != revision - 1)
      "quotation predecessor revision is not contiguous"

/-- `check_quotation_predecessor/5`. -/
def checkQuotationPredecessor (payload : Dict) (revision : ℤ) (supersedes : Option Str)
    (entityId : Str) (world : World) : Except Fault Unit :=
  if revision = 1 then
    refuseIf supersedes.isSome "quotation revision 1 cannot supersede another quotation"
  else
    match supersedes with
    | none => refuse "replacement quotation requires a predecessor"
    | some supersedes =>
      if supersedes = entityId then refuse "replacement quotation requires a predecessor"
      else
        match activeStruct (world.entity (.known .quotation) supersedes) with
        | some row => checkPredecessorRow payload revision row
        | none => refuse "quotation predecessor is not canonical and active"

/-- `check_quotation_revision/4`. -/
def checkQuotationRevision (payload : Dict) (currentPayload : Option Dict) (entityId : Str)
    (world : World) : Except Fault Unit := do
  let revision ← quotationRevision payload
  let supersedes := normalized (payload.get "supersedesQuotationID")
  match currentPayload with
  | none => checkQuotationPredecessor payload revision supersedes entityId world
  | some current => checkQuotationUpdate payload current revision supersedes

/-- The `with` chain of `quotation/5`: the appended events of a history that was accepted. -/
def quotationHistory (payload : Dict) (principal : Option Principal)
    (currentPayload : Option Dict) : Except Fault (List Dict) := do
  refuseIf (!member (payload.get "status") (quotationStatuses.map Prod.fst))
    "quotation status is invalid"
  let history ← events payload "quotation" false
  uniqueEventIds "quotation" history []
  quotationEventKindsCheck history principal
  let appended ← immutablePrefix currentPayload history "quotation"
  walkQuotationEvents history (payload.get "status")
  return appended

/-- `quotation/5`. -/
def quotation (payload : Dict) (principal : Option Principal) (currentPayload : Option Dict)
    (entityId : Str) (world : World) : Except Fault Unit := do
  let appended ← quotationHistory payload principal currentPayload
  match appended.getLast? with
  | some newest => checkProvenance newest principal true quotationProvenanceMessages
  | none => checkQuotationRevision payload currentPayload entityId world

/-! ### Dispatch -/

/-- `decide/5`: upserts of blockers and quotations. The rejection code of a refusal is
`lifecycle_rejected`. -/
def decide (entityType : EntityKind) (entityId : Str) (deletedAt : Option Str) (payload : Object)
    (principal : Option Principal) (current : Option StoredEntity) (world : World) :
    Except Fault Unit :=
  if deletedAt.isSome then .ok ()
  else
    match entityType with
    | .known .blocker => do
      let stored ← payloadObject current
      blocker payload.items principal (stored.map Object.items) entityId
    | .known .quotation => do
      let stored ← payloadObject current
      quotation payload.items principal (stored.map Object.items) entityId world
    | _ => .ok ()

end VitrialSync.Beam.Lifecycle
