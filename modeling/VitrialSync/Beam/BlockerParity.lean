import VitrialSync.Beam.Parity
import VitrialSync.Server.Push

set_option relaxedAutoImplicit false
set_option autoImplicit false

/-!
# Blocker lifecycles on both servers

The port replays the history of a blocker by recursion, with the position, the state and the last
snapshot as arguments, the reference in a loop over the enumerated events. On texts that both
runtimes trim alike, and on a stored blocker that was accepted before, the two agree: the step of
the replay, the comparison with the last event and the rule that a change appends an event.

## Main definitions

* `VitrialSync.Beam.Lifecycle.BlockerTexts` — the texts of a blocker that both runtimes trim alike.
* `VitrialSync.Beam.Lifecycle.AcceptedBlocker` — a payload that a server accepted for a blocker.

## Main results

* `VitrialSync.Beam.Lifecycle.walkBlockerEvent_iff`, `VitrialSync.Beam.Lifecycle.blockerWalk_iff` —
  one event of the replay, and the replay.
* `VitrialSync.Beam.Lifecycle.blocker_iff` — the checks of a blocker agree.
* `VitrialSync.Beam.Lifecycle.blocker_agrees` — the servers agree on an upsert of a blocker.
-/

namespace VitrialSync.Beam.Lifecycle

open Python Program
open VitrialSync.Lifecycle (BlockerStatus BlockerEventKind BlockerReplay blockerStatuses
  blockerEventKinds blockerTransition blockerProtected replayBlockerEvent optionalSnapshotField
  requireImmutablePrefix requireNewestProvenance requireLatestSnapshot requireAppendedChange
  validateBlockerLifecycle validateOptionalBlockerSnapshot validateLifecycleMutation historyOf
  storedEvents? storedEvents?_of_events requireImmutablePrefix_spec)

/-! ### Texts -/

/-- The fields of an event that a snapshot reads as texts. -/
def snapshotTexts : List String :=
  ["blockerKind", "description", "responsiblePerson", "vendorSupplier"]

/-- The fields of a blocker that the lifecycle reads as texts. -/
def blockerTexts : List String :=
  ["itemID", "kind", "description", "responsiblePerson", "vendorSupplier"]

/-- The texts of a blocker that the lifecycle trims are trimmed alike. -/
structure BlockerTexts (payload : Dict) : Prop where
  fields : ∀ key ∈ blockerTexts, TrimsAlike (payload.get key)
  events : ∀ event ∈ historyOf (some payload), ∀ key ∈ eventTexts ++ snapshotTexts,
    TrimsAlike (event.get key)

/-- A text that both runtimes trim alike is normalized alike. -/
lemma textOrEmpty_eq {v : Value} (h : TrimsAlike v) :
    textOrEmpty v = VitrialSync.Lifecycle.textOrEmpty v := by
  rw [textOrEmpty, VitrialSync.Lifecycle.textOrEmpty, normalized_eq h]

/-- Both servers take the same snapshot of an event. -/
lemma blockerSnapshot_eq {event : Dict} (h : ∀ key ∈ snapshotTexts, TrimsAlike (event.get key)) :
    blockerSnapshot event = VitrialSync.Lifecycle.blockerSnapshot event := by
  have hkind := textOrEmpty_eq (h "blockerKind" (by simp [snapshotTexts]))
  have hdescription := textOrEmpty_eq (h "description" (by simp [snapshotTexts]))
  have hperson := textOrEmpty_eq (h "responsiblePerson" (by simp [snapshotTexts]))
  have hvendor := textOrEmpty_eq (h "vendorSupplier" (by simp [snapshotTexts]))
  rw [blockerSnapshot, VitrialSync.Lifecycle.blockerSnapshot, hkind, hdescription, hperson, hvendor]

/-- An event of a history is an element of the stored list. -/
lemma events_of_mem_historyOf {payload event : Dict} (h : event ∈ historyOf (some payload)) :
    ∃ xs, payload.get "events" = .list xs ∧ .dict event ∈ xs := by
  simp only [historyOf, storedEvents?, Option.bind_some] at h
  split_ifs at h
  · cases hraw : payload.get "events" with
    | list xs =>
      cases hdicts : dicts? xs with
      | none => simp [hraw, Value.list?, hdicts] at h
      | some events =>
        simp only [hraw, Value.list?, Option.bind_some, hdicts, Option.getD_some] at h
        exact ⟨xs, rfl, dicts?_eq_some.mp hdicts ▸ List.mem_map_of_mem h⟩
    | _ => simp [hraw, Value.list?] at h
  · simp at h

/-- A field of an object with finite numbers has finite numbers. -/
lemma finite_get {d : Dict} (h : Json.AllFinite (.dict d)) (key : Str) :
    Json.AllFinite (d.get key) := by
  intro x hx
  cases hlookup : d.lookup key with
  | none => simp [Dict.get, hlookup, Value.leaves] at hx
  | some v =>
    rw [Dict.get, hlookup, Option.getD_some] at hx
    apply h x
    rw [Value.leaves, Value.mem_leavesOfItems]
    exact ⟨_, mem_of_lookup hlookup, hx⟩

/-- A field of an event of a payload with finite numbers is no NaN. -/
lemma event_get_ne_nan {payload : Object} {event : Dict}
    (h : event ∈ historyOf (some payload.items)) (key : Str) : event.get key ≠ .float .nan := by
  have hwell := VitrialSync.Lifecycle.historyOf_wellFormed payload.wellFormed event h
  obtain ⟨xs, hraw, hmem⟩ := events_of_mem_historyOf h
  have hfinite : Json.AllFinite (.dict event) := by
    intro x hx
    apply finite_get payload.finite "events" x
    rw [hraw, Value.leaves, Value.mem_leavesOfList]
    exact ⟨_, hmem, hx⟩
  exact Object.get_ne_nan ⟨event, hwell, hfinite⟩ key

/-! ### One event -/

/-- Both servers move from a state to the same state on an event of a kind. -/
lemma stepBlockerState_iff {event : Dict} {index : ℕ} {state next : Option BlockerStatus}
    {previous : Option (List Value)} {kind : BlockerEventKind}
    (hkind : findName blockerEventKinds (event.get "kind") = some kind)
    (htexts : ∀ key ∈ snapshotTexts, TrimsAlike (event.get key)) :
    stepBlockerState event index state previous = .ok next ↔
      blockerTransition ⟨state, previous⟩ index kind
        (VitrialSync.Lifecycle.blockerSnapshot event) = .ok next := by
  have hsnapshot : (fun p => listEq (VitrialSync.Lifecycle.blockerSnapshot event) p) =
      Value.sameList (VitrialSync.Lifecycle.blockerSnapshot event) :=
    funext fun p => listEq_eq_sameList _ p
  rw [stepBlockerState, hkind, blockerSnapshot_eq htexts, hsnapshot]
  cases kind <;> simp only [blockerTransition] <;> split_ifs <;> simp

/-- Both servers accept an event, and come to the same state and snapshot. -/
lemma walkBlockerEvent_iff {principal : Principal} {entityId itemId : Str} {event : Dict}
    {index : ℕ} {state : Option BlockerStatus} {previous : Option (List Value)} {walk : BlockerWalk}
    (h : ∀ key ∈ eventTexts ++ snapshotTexts, TrimsAlike (event.get key)) :
    walkBlockerEvent (some principal) entityId itemId ⟨index, state, previous⟩ event = .ok walk ↔
      walk.index = index + 1 ∧
        replayBlockerEvent principal entityId itemId ⟨state, previous⟩ (event, index) =
          .ok ⟨walk.state, walk.previous⟩ := by
  have hnames : ∀ key ∈ eventTexts, TrimsAlike (event.get key) := fun key hkey =>
    h key (List.mem_append_left _ hkey)
  have htexts : ∀ key ∈ snapshotTexts, TrimsAlike (event.get key) := fun key hkey =>
    h key (List.mem_append_right _ hkey)
  have hprovenance : checkProvenance event (some principal) false blockerProvenanceMessages = .ok () ↔
      VitrialSync.Lifecycle.requireConnectedProvenance event principal "blocker" false = .ok () :=
    checkProvenance_iff hnames _ _ _ _ _
  obtain ⟨index', state', previous'⟩ := walk
  simp only [walkBlockerEvent, replayBlockerEvent, bind_eq_ok, refuseIf_eq_ok, exists_const,
    member_eq_findName, hprovenance, pure_eq_ok, BlockerWalk.mk.injEq, blockerSnapshot_eq htexts]
  constructor
  · rintro ⟨hkind, hidentity, hnamed, next, hstep, rfl, rfl, rfl⟩
    obtain ⟨kind, hkind⟩ := Option.isSome_iff_exists.mp (by simpa using hkind)
    refine ⟨rfl, some kind, hashedName_eq_ok_some.mpr hkind, ?_⟩
    simp only [bind_eq_ok, raiseIf_eq_ok, exists_const, pure_eq_ok]
    exact ⟨hidentity, (), hnamed, next, (stepBlockerState_iff hkind htexts).mp hstep, rfl⟩
  · rintro ⟨rfl, kind?, hhashed, hrest⟩
    cases kind? with
    | none => cases hrest
    | some kind =>
      have hkind := hashedName_eq_ok hhashed
      simp only [bind_eq_ok, raiseIf_eq_ok, exists_const, pure_eq_ok, BlockerReplay.mk.injEq]
        at hrest
      obtain ⟨hidentity, ⟨⟩, hnamed, next, hstep, rfl, rfl⟩ := hrest
      exact ⟨by simp [hkind], hidentity, hnamed, next, (stepBlockerState_iff hkind htexts).mpr hstep,
        rfl, rfl, rfl⟩

/-- Both servers replay the events, and come to the same state.

**Proof sketch.** Induction on the events, from any position, state and snapshot; the recursion of
the port carries the position that the loop of the reference enumerates. -/
lemma blockerWalk_iff {principal : Principal} {entityId itemId : Str} {history : List Dict}
    (h : ∀ event ∈ history, ∀ key ∈ eventTexts ++ snapshotTexts, TrimsAlike (event.get key))
    {index : ℕ} {state final : Option BlockerStatus} {previous : Option (List Value)} :
    (∃ walk, history.foldlM (walkBlockerEvent (some principal) entityId itemId)
        ⟨index, state, previous⟩ = .ok walk ∧ walk.state = final) ↔
      ∃ replay, (history.zipIdx index).foldlM (replayBlockerEvent principal entityId itemId)
        ⟨state, previous⟩ = .ok replay ∧ replay.state = final := by
  induction history generalizing index state previous with
  | nil => simp [pure_eq_ok]
  | cons event history ih =>
    rw [List.forall_mem_cons] at h
    simp only [List.zipIdx_cons, List.foldlM_cons, bind_eq_ok]
    constructor
    · rintro ⟨walk, ⟨⟨index', state', previous'⟩, hevent, hrest⟩, hfinal⟩
      obtain ⟨rfl, hevent⟩ := (walkBlockerEvent_iff h.1).mp hevent
      obtain ⟨replay, hreplay, hstate⟩ := (ih h.2).mp ⟨walk, hrest, hfinal⟩
      exact ⟨replay, ⟨_, hevent, hreplay⟩, hstate⟩
    · rintro ⟨replay, ⟨⟨state', previous'⟩, hevent, hrest⟩, hfinal⟩
      obtain ⟨walk, hwalk, hstate⟩ := (ih h.2).mpr ⟨replay, hrest, hfinal⟩
      exact ⟨walk, ⟨⟨index + 1, state', previous'⟩, (walkBlockerEvent_iff h.1).mpr ⟨rfl, hevent⟩,
        hwalk⟩, hstate⟩

/-! ### The snapshot and the change -/

/-- Both servers compare a field of the last event with the payload. -/
lemma optionalSnapshotField_iff {event : Dict} {key : String} {expected : Value} {text : Bool}
    (hnan : event.get key ≠ .float .nan) (h : text = true → TrimsAlike (event.get key)) :
    (if event.contains key then
        refuseIf (!pyEq (if text then textOrEmpty (event.get key) else event.get key) expected)
          ("blocker latest event " ++ key ++ " does not match snapshot")
      else .ok ()) = .ok () ↔ optionalSnapshotField event key expected text = .ok () := by
  rw [optionalSnapshotField]
  split_ifs with hcontains htext
  · have hstr : VitrialSync.Lifecycle.textOrEmpty (event.get key) ≠ .float .nan := by
      simp [VitrialSync.Lifecycle.textOrEmpty]
    rw [refuseIf_eq_ok, raiseIf_eq_ok, textOrEmpty_eq (h htext), ne_eq_not_pyEq hstr]
  · rw [refuseIf_eq_ok, raiseIf_eq_ok, ne_eq_not_pyEq hnan]
  · simp

/-- The reference compares the same fields, on texts that are trimmed alike. -/
lemma validateOptionalBlockerSnapshot_iff {payload event : Dict}
    (h : ∀ key ∈ blockerTexts, TrimsAlike (payload.get key)) :
    validateOptionalBlockerSnapshot payload event = .ok () ↔
      ∀ field ∈ snapshotFields payload,
        optionalSnapshotField event field.1 field.2.1 field.2.2 = .ok () := by
  have hkind := textOrEmpty_eq (h "kind" (by simp [blockerTexts]))
  have hdescription := textOrEmpty_eq (h "description" (by simp [blockerTexts]))
  have hperson := textOrEmpty_eq (h "responsiblePerson" (by simp [blockerTexts]))
  have hvendor := textOrEmpty_eq (h "vendorSupplier" (by simp [blockerTexts]))
  simp only [validateOptionalBlockerSnapshot, snapshotFields, bind_eq_ok, List.forall_mem_cons,
    List.not_mem_nil, IsEmpty.forall_iff, implies_true, and_true, hkind, hdescription, hperson,
    hvendor, Unique.exists_iff, PUnit.default_eq_unit]

/-- Both servers compare the last event with the payload. -/
lemma matchBlockerSnapshot_iff {payload event : Dict}
    (hnan : ∀ key : Str, event.get key ≠ .float .nan)
    (hpayload : ∀ key ∈ blockerTexts, TrimsAlike (payload.get key))
    (hevent : ∀ key ∈ snapshotTexts, TrimsAlike (event.get key)) :
    matchBlockerSnapshot payload event = .ok () ↔
      validateOptionalBlockerSnapshot payload event = .ok () := by
  have htext : ∀ field ∈ snapshotFields payload, field.2.2 = true → field.1 ∈ snapshotTexts := by
    simp [snapshotFields, snapshotTexts]
  rw [matchBlockerSnapshot, forM_eq_ok, validateOptionalBlockerSnapshot_iff hpayload]
  exact forall₂_congr fun field hfield => optionalSnapshotField_iff (hnan field.1) fun h =>
    hevent _ (htext field hfield h)

/-- Both servers compare the fields that change only together with a new event. -/
lemma blockerChangeRequiresEvent_iff {payload : Dict} {currentPayload : Option Dict}
    {appended : List Dict}
    (h : ∀ stored, currentPayload = some stored → ∀ key : Str, stored.get key ≠ .float .nan) :
    blockerChangeRequiresEvent payload currentPayload appended = .ok () ↔
      requireAppendedChange payload currentPayload appended = .ok () := by
  cases currentPayload with
  | none => simp [blockerChangeRequiresEvent, requireAppendedChange]
  | some stored =>
    have hne : ∀ key : String, pyNe (stored.get key) (payload.get key) =
        (stored.get key).ne (payload.get key) := fun key => pyNe_eq_ne (h stored rfl key) _
    simp only [blockerChangeRequiresEvent, requireAppendedChange, hne, blockerProtectedKeys,
      blockerProtected]
    cases appended <;> simp

/-- Both servers check the last of the appended events. -/
lemma tailProvenance_iff {appended : List Dict} {principal : Principal}
    (h : ∀ event ∈ appended, ∀ key ∈ eventTexts, TrimsAlike (event.get key)) :
    tailProvenance appended (some principal) blockerProvenanceMessages = .ok () ↔
      requireNewestProvenance appended principal "blocker" = .ok () := by
  rw [tailProvenance, requireNewestProvenance]
  cases hlast : appended.getLast? with
  | none => simp
  | some newest => exact checkProvenance_iff (h newest (List.mem_of_getLast? hlast)) _ _ _ _ _

/-! ### The whole check -/

/-- A server accepted a payload for a blocker, on whatever was stored and from whoever sent it. -/
def AcceptedBlocker (payload : Dict) (entityId : Str) : Prop :=
  (∃ stored principal, validateBlockerLifecycle payload stored principal entityId = .ok ()) ∨
    ∃ principal stored, blocker payload principal stored entityId = .ok ()

/-- The history of an accepted blocker is a list. -/
lemma AcceptedBlocker.events_ne {payload : Dict} {entityId : Str}
    (h : AcceptedBlocker payload entityId) : payload.get "events" ≠ .dict [] := by
  have hread : ∃ history,
      VitrialSync.Lifecycle.events payload "blocker" true = .ok history := by
    rcases h with ⟨stored, principal, h⟩ | ⟨principal, stored, h⟩
    · simp only [validateBlockerLifecycle, bind_eq_ok] at h
      obtain ⟨-, -, status?, -, h⟩ := h
      cases status? with
      | none => cases h
      | some status =>
        simp only [bind_eq_ok] at h
        obtain ⟨-, -, -, -, h⟩ := h
        cases hitem : VitrialSync.normalized (payload.get "itemID") with
        | none => simp [hitem] at h
        | some itemId =>
          simp only [hitem, bind_eq_ok] at h
          obtain ⟨history, hread, -⟩ := h
          exact ⟨history, hread⟩
    · simp only [blocker, bind_eq_ok] at h
      obtain ⟨-, -, -, -, -, -, -, -, h⟩ := h
      cases hitem : normalized (payload.get "itemID") with
      | none => simp [hitem] at h
      | some itemId =>
        simp only [hitem, bind_eq_ok] at h
        obtain ⟨history, hread, -⟩ := h
        exact ⟨history, events_iff.mp hread⟩
  rintro hempty
  obtain ⟨history, hread⟩ := hread
  simp [VitrialSync.Lifecycle.events, hempty, Value.isNone, Value.list?] at hread

/-- The two statuses are told apart by their names. -/
lemma isStr_of_blockerStatus {v : Value} {status : BlockerStatus}
    (h : findName blockerStatuses v = some status) :
    v.isStr "open" = (status == .isOpen) ∧ v.isStr "resolved" = (status == .resolved) := by
  obtain ⟨name, hmem, rfl⟩ := findName_eq_some h
  simp only [blockerStatuses, List.mem_cons, Prod.mk.injEq, List.not_mem_nil, or_false] at hmem
  rcases hmem with ⟨rfl, rfl⟩ | ⟨rfl, rfl⟩ <;> decide

/-- **The checks of a blocker agree.**

**Proof sketch.** The fields are read alike; the events, their ids and the appended part by the
lemmas on histories; the replay by `blockerWalk_iff`; the last event, the change and the newest
provenance one by one. The two servers make the checks in the same order. -/
lemma blocker_iff {payload : Object} {currentPayload : Option Dict} {principal : Principal}
    {entityId : Str} (htexts : BlockerTexts payload.items)
    (hfinite : ∀ stored, currentPayload = some stored →
      ∀ key : Str, stored.get key ≠ .float .nan)
    (hevents : ∀ stored, currentPayload = some stored → stored.get "events" ≠ .dict []) :
    blocker payload.items (some principal) currentPayload entityId = .ok () ↔
      validateBlockerLifecycle payload.items currentPayload principal entityId = .ok () := by
  have hdescription := normalized_eq (htexts.fields "description" (by simp [blockerTexts]))
  have hitem := normalized_eq (htexts.fields "itemID" (by simp [blockerTexts]))
  simp only [blocker, validateBlockerLifecycle, bind_eq_ok, refuseIf_eq_ok, raiseIf_eq_ok,
    exists_const, hdescription, hitem, member_eq_findName]
  refine and_congr_right fun _ => ?_
  cases hstatus : findName blockerStatuses (payload.items.get "status") with
  | none =>
    simp only [Option.isSome_none, Bool.not_false, Bool.true_eq_false, false_and, false_iff,
      not_exists, not_and]
    intro status? hhashed
    rw [← hashedName_eq_ok hhashed, hstatus]
    simp
  | some status =>
    obtain ⟨hopen, hresolved⟩ := isStr_of_blockerStatus hstatus
    simp only [hashedName_eq_ok_some.mpr hstatus, Except.ok.injEq, exists_eq_left', bind_eq_ok,
      raiseIf_eq_ok, exists_const, hopen, hresolved, Option.isSome_some, Bool.not_true, true_and]
    refine and_congr_right fun _ => and_congr_right fun _ => ?_
    cases VitrialSync.normalized (payload.items.get "itemID") with
    | none => simp
    | some itemId =>
      simp only [bind_eq_ok, refuseIf_eq_ok, raiseIf_eq_ok, events_iff,
        immutablePrefix_iff hevents, Unique.exists_iff, PUnit.default_eq_unit]
      refine exists_congr fun history => and_congr_right fun hread => ?_
      have hhistory : historyOf (some payload.items) = history := by
        simp [historyOf, storedEvents?_of_events hread]
      have halike := hhistory ▸ htexts.events
      have hunique : uniqueEventIds "blocker" history [] = .ok () ↔
          VitrialSync.Lifecycle.requireUniqueEventIds history "blocker" = .ok () :=
        uniqueEventIds_iff (fun event hevent => halike event hevent "id" (by simp [eventTexts])) []
      rw [hunique]
      refine and_congr_right fun _ => exists_congr fun appended => and_congr_right fun hextend => ?_
      have happended : ∀ event ∈ appended, ∀ key ∈ eventTexts, TrimsAlike (event.get key) := by
        obtain ⟨-, rfl⟩ := requireImmutablePrefix_spec hextend
        exact fun event hevent key hkey =>
          halike event (List.mem_of_mem_drop hevent) key (List.mem_append_left _ hkey)
      have hlatest : matchBlockerSnapshot payload.items (history.getLast?.getD []) = .ok () ↔
          requireLatestSnapshot payload.items history = .ok () := by
        rw [requireLatestSnapshot]
        cases hlast : history.getLast? with
        | none => exact iff_of_true rfl rfl
        | some latest =>
          have hmem := List.mem_of_getLast? hlast
          exact matchBlockerSnapshot_iff (event_get_ne_nan (hhistory ▸ hmem)) htexts.fields
            fun key hkey => halike latest hmem key (List.mem_append_right _ hkey)
      have hwalk : (∃ walk, history.foldlM (walkBlockerEvent (some principal) entityId itemId)
            ⟨0, none, none⟩ = .ok walk ∧ walk.state = some status) ↔
          ∃ replay, history.zipIdx.foldlM (replayBlockerEvent principal entityId itemId)
            ⟨none, none⟩ = .ok replay ∧ replay.state = some status :=
        blockerWalk_iff halike
      simp only [bne_eq_false_iff_eq, blockerChangeRequiresEvent_iff hfinite,
        tailProvenance_iff happended, hlatest, ← and_assoc, exists_and_right, hwalk]

/-- **The servers agree on an upsert of a blocker**, on a stored payload that was accepted before. -/
theorem blocker_agrees {db : Db} {world : World} {principal : Principal} {payload : Object}
    {current : Option StoredEntity} {row : Option SyncEntity} {entityId : Str}
    (hcurrent : SameEntity current row)
    (haccepted : ∀ stored, storedItems row = some stored → AcceptedBlocker stored entityId)
    (htexts : BlockerTexts payload.items) :
    decide (.known .blocker) entityId none payload (some principal) current world = .ok () ↔
      validateLifecycleMutation db principal .blocker entityId payload.items none row = .ok () := by
  obtain ⟨stored, hstored, hitems⟩ := hcurrent.payloadObject
  have hport : decide (.known .blocker) entityId none payload (some principal) current world =
      blocker payload.items (some principal) (storedItems row) entityId := by
    simp only [decide, Option.isSome_none, Bool.false_eq_true, ↓reduceIte, hstored, ok_bind, hitems]
  have hreference : validateLifecycleMutation db principal .blocker entityId payload.items none
      row = validateBlockerLifecycle payload.items (storedItems row) principal entityId := rfl
  rw [hport, hreference]
  refine blocker_iff htexts (fun items h key => ?_) fun items h => (haccepted items h).events_ne
  rw [← hitems, Option.map_eq_some_iff] at h
  obtain ⟨object, -, rfl⟩ := h
  exact object.get_ne_nan key

namespace Sample

open VitrialSync.Sample (principal db time)

/-- An event of the sample blocker. -/
def blockerEvent (id kind : String) : Dict :=
  [("id", .str id), ("kind", .str kind), ("blockerID", .str "b"), ("itemID", .str "i"),
    ("actorID", .str "u"), ("organizationID", .str "o"), ("membershipID", .str "m"),
    ("sessionID", .str "s"), ("authorizationRevision", .int 1)]

/-- The payload of the sample blocker. -/
def blockerItems (status : String) (resolvedAt : Value) (events : List Dict) : Dict :=
  [("itemID", .str "i"), ("status", .str status), ("description", .str "d"),
    ("resolvedAt", resolvedAt), ("events", .list (events.map .dict))]

/-- The sample blocker, as it was opened. -/
def opened : Object where
  items := blockerItems "open" .none [blockerEvent "e1" "created"]
  wellFormed := by
    simp only [blockerItems, blockerEvent, List.map_cons, List.map_nil, Value.WellFormed,
      Value.WellFormedItems, Value.WellFormedList, and_true, true_and]
    decide +kernel
  finite := by
    intro x hx
    simp [blockerItems, blockerEvent, Value.leaves, Value.leavesOfItems, Value.leavesOfList] at hx

/-- The sample blocker, as it was resolved. -/
def resolved : Object where
  items := blockerItems "resolved" (.str "t")
    [blockerEvent "e1" "created", blockerEvent "e2" "resolved"]
  wellFormed := by
    simp only [blockerItems, blockerEvent, List.map_cons, List.map_nil, Value.WellFormed,
      Value.WellFormedItems, Value.WellFormedList, and_true, true_and]
    decide +kernel
  finite := by
    intro x hx
    simp [blockerItems, blockerEvent, Value.leaves, Value.leavesOfItems, Value.leavesOfList] at hx

/-- The stored blocker on the BEAM. -/
def openEntity : Entity := ⟨.known .blocker, "b", opened.term, none, some 1⟩

/-- The stored blocker of the reference. -/
def openRow : SyncEntity := ⟨1, some ⟨opened.items, opened.wellFormed⟩, time, none⟩

/-- The open blocker was accepted when it was created. -/
lemma opened_accepted : AcceptedBlocker opened.items "b" :=
  Or.inl ⟨none, principal, by decide +kernel⟩

/-- No text of the resolved blocker has an information separator. -/
lemma blockerTexts_resolved : BlockerTexts resolved.items where
  fields := by decide +kernel
  events := by
    have hhistory : historyOf (some resolved.items) =
        [blockerEvent "e1" "created", blockerEvent "e2" "resolved"] := rfl
    rw [hhistory]
    decide +kernel

end Sample

/-- The servers agree when the open sample blocker is resolved. -/
theorem blocker_agrees_sample :
    decide (.known .blocker) "b" none Sample.resolved (some VitrialSync.Sample.principal)
        (some (.struct Sample.openEntity)) World.empty = .ok () ↔
      validateLifecycleMutation VitrialSync.Sample.db VitrialSync.Sample.principal .blocker "b"
        Sample.resolved.items none (some Sample.openRow) = .ok () :=
  blocker_agrees (.stored rfl rfl)
    (by
      rintro stored hstored
      obtain rfl := Option.some.inj hstored
      exact Sample.opened_accepted)
    Sample.blockerTexts_resolved

end VitrialSync.Beam.Lifecycle
