import VitrialSync.Beam.Hierarchy
import VitrialSync.Server.DeliverySteps

set_option relaxedAutoImplicit false
set_option autoImplicit false

/-!
# The status of a delivery and its history on the BEAM

The events of an accepted delivery are a chain of allowed transitions that starts in Engineering
Review. Its status is only checked to be a status: where an update appends no event, it may not
change, but a delivery that is created, or that appends an event, may name any status that its
plans allow.

## Main definitions

* `VitrialSync.Beam.Delivery.Consistent` — the status is the one that the last event leads to.
* `VitrialSync.Beam.Delivery.MovesAsRecorded` — an accepted record that has more events than the
  stored delivery names the status of the last one.

## Main results

* `VitrialSync.Beam.Delivery.authorize_consistent` — an accepted record that moves as it records
  leaves a consistent delivery, if the stored one was.
* `VitrialSync.Beam.Batch.deliveries_consistent_iff` — over every run the stored deliveries are
  consistent exactly when every accepted delivery moves as it records.
-/

namespace VitrialSync.Beam

open Python Program
open VitrialSync.Delivery (DeliveryStatus deliveryStatuses findName_deliveryStatuses)

namespace Delivery

/-! ### Consistent deliveries -/

/-- `toStatus` of the last event. -/
def lastStatus (d : Dict) : Option Value :=
  (((d.get "events").list?.bind List.getLast?).bind Value.dict?).map fun event =>
    event.get "toStatus"

/-- The number of events. -/
def eventCount (d : Dict) : ℕ := (d.get "events").list?.elim 0 List.length

/-- The number of events of what is stored. -/
def storedCount (current : Option StoredEntity) : ℕ :=
  (current.bind fun e => e.payload.dict?).elim 0 eventCount

/-- The events are a chain of allowed transitions from Engineering Review, and the status is the one
that the last of them leads to. -/
structure Consistent (d : Dict) : Prop where
  chain : ∃ events, deliveryEvents d = .ok events ∧ startInEngineeringReview events = .ok () ∧
    walkTransitions events none = .ok ()
  status : lastStatus d = some (d.get "status")

/-- An accepted payload with more events than what is stored has the status of its last event. -/
def MovesAsRecorded (current : Option StoredEntity) (payload : Dict) : Prop :=
  storedCount current < eventCount payload → lastStatus payload = some (payload.get "status")

/-! ### What is accepted -/

section Events

variable {payload : Dict} {events : List Dict}

/-- The events of a delivery are objects, and there is one. -/
lemma deliveryEvents_ok (h : deliveryEvents payload = .ok events) :
    (payload.get "events").list? = some (events.map .dict) ∧ events ≠ [] := by
  unfold deliveryEvents at h
  split at h
  · rename_i found hfound
    cases h
    unfold eventList at hfound
    simp only [Bool.not_true, Bool.and_false, Bool.false_eq_true, ↓reduceIte, Bool.true_and]
      at hfound
    split at hfound
    · cases hfound
    · rename_i xs hxs
      split_ifs at hfound with hempty
      split at hfound
      · cases hfound
      · rename_i ds hds
        cases hfound
        obtain rfl := dicts?_eq_some.mp hds
        refine ⟨hxs, ?_⟩
        rintro rfl
        exact hempty rfl
  · cases h
  · cases h

/-- The last event of a delivery. -/
lemma lastStatus_eq (h : deliveryEvents payload = .ok events) :
    lastStatus payload = events.getLast?.map fun event => event.get "toStatus" := by
  rw [lastStatus, (deliveryEvents_ok h).1, Option.bind_some, List.getLast?_map]
  cases events.getLast? <;> rfl

/-- The number of events of a delivery. -/
lemma eventCount_eq (h : deliveryEvents payload = .ok events) :
    eventCount payload = events.length := by
  rw [eventCount, (deliveryEvents_ok h).1, Option.elim_some, List.length_map]

/-- Every status of a chain is the name of a status. -/
lemma toStatus_of_walk {state : Option DeliveryStatus} {event : Dict}
    (h : walkTransitions events state = .ok ()) (hevent : event ∈ events) :
    ∃ status : DeliveryStatus, event.get "toStatus" = .str status.name := by
  induction events generalizing state with
  | nil => cases hevent
  | cons first events ih =>
    unfold walkTransitions at h
    split at h
    · exact absurd h refuse_ne_ok
    · rename_i status hstatus
      simp only [bind_eq_ok] at h
      obtain ⟨-, -, -, -, hrest⟩ := h
      rcases List.mem_cons.mp hevent with rfl | hmem
      · exact ⟨status, findName_deliveryStatuses hstatus⟩
      · exact ih hrest hmem

end Events

section Accepted

variable {entityId projectId : Str} {payload : Dict} {deletedAt : Option Str}
  {current : Option StoredEntity} {principal : Principal} {scope : EffectiveScope} {world : World}

/-- What the reading of the events establishes. -/
lemma readHistory_ok {found : DeliveryStatus × List Dict}
    (h : readHistory payload principal entityId = .ok found) :
    payload.get "status" = .str found.1.name ∧ deliveryEvents payload = .ok found.2 ∧
      startInEngineeringReview found.2 = .ok () ∧ walkTransitions found.2 none = .ok () := by
  simp only [readHistory, bind_eq_ok] at h
  obtain ⟨-, -, h⟩ := h
  split at h
  · exact absurd h refuse_ne_ok
  · rename_i status hstatus
    simp only [bind_eq_ok, pure_eq_ok] at h
    obtain ⟨events, hevents, -, -, -, -, ⟨⟩, hstart, ⟨⟩, hwalk, rfl⟩ := h
    exact ⟨findName_deliveryStatuses hstatus, hevents, hstart, hwalk⟩

/-- The stored payload that an accepted delivery continues. -/
lemma continuity_ok {found : Option Dict} (h : continuity entityId current world = .ok found) :
    current = none ∧ found = none ∨
      ∃ e d, current = some (.struct e) ∧ e.payload.value = .dict d ∧ found = some d := by
  unfold continuity at h
  cases current with
  | none =>
    simp only at h
    split_ifs at h
    · cases h
    · cases h
      exact Or.inl ⟨rfl, rfl⟩
  | some stored =>
    cases stored with
    | map row => cases h
    | struct e =>
      simp only at h
      split at h
      · cases h
      · rename_i o ho
        split_ifs at h
        · cases h
        · split at h
          · cases h
          · split_ifs at h
            · cases h
              exact Or.inr ⟨e, o.items, rfl, Term.value_of_object? ho, rfl⟩
            · cases h

/-- The last events of two histories that are equal element by element lead to one status. -/
lemma toStatus_congr {new old : List Dict} {last last' : Dict}
    (hw : ∀ event ∈ new, Value.WellFormed (.dict event))
    (hsame : listEq (new.map .dict) (old.map .dict) = true) (hlength : new.length = old.length)
    (hlast : new.getLast? = some last) (hlast' : old.getLast? = some last') (s : Str) :
    (last.get "toStatus").isStr s = (last'.get "toStatus").isStr s := by
  rw [listEq_eq_sameList] at hsame
  rw [List.getLast?_eq_getElem?] at hlast hlast'
  have hnew : (new.map Value.dict)[new.length - 1]? = some (.dict last) := by
    rw [List.getElem?_map, hlast]
    rfl
  obtain ⟨v, hv, hpair⟩ := sameList_getElem? hsame hnew
  rw [List.getElem?_map, hlength, hlast'] at hv
  obtain rfl := Option.some.inj hv
  exact Value.isStr_congr (Dict.same_get (hw last (List.mem_of_getElem? hlast)).1 hpair _) s

/-- An update that appends no event keeps the status and the last event.

**Proof sketch.** The history is not truncated and not longer, so it is the stored one event by
event, and the status is among the fields that may not change. -/
lemma enforceHistory_kept {stored : Dict} {events : List Dict}
    (h : enforceHistory payload (some stored) events principal = .ok ())
    (hcount : events.length ≤ eventCount stored) :
    events = [] ∨ ∃ old, deliveryEvents stored = .ok old ∧ events.length = old.length ∧
      listEq (events.map .dict) (old.map .dict) = true ∧
      pyEq (stored.get "status") (payload.get "status") = true := by
  simp only [enforceHistory, bind_eq_ok] at h
  obtain ⟨-, -, h⟩ := h
  split at h
  · exact absurd h refuse_ne_ok
  · rename_i old hold
    simp only [bind_eq_ok, refuseIf_eq_ok] at h
    obtain ⟨-, htruncated, -, hsame, happended⟩ := h
    obtain ⟨xs, hxs, hdicts⟩ := Option.bind_eq_some_iff.mp hold
    obtain rfl := dicts?_eq_some.mp hdicts
    rw [eventCount, hxs, Option.elim_some, List.length_map] at hcount
    rw [decide_eq_false_iff_not, not_lt] at htruncated
    have hlength : events.length = old.length := le_antisymm hcount htruncated
    rw [Bool.not_eq_false', ← hlength, List.take_length] at hsame
    have hdrop : events.drop old.length = [] := List.drop_eq_nil_of_le hlength.le
    rw [appendedRules, hdrop, operationalChangeRequiresEvent, refuseIf_eq_ok,
      List.any_eq_false] at happended
    have hstatus := happended "status" (by decide)
    cases old with
    | nil => exact Or.inl (List.length_eq_zero_iff.mp hlength)
    | cons first rest =>
      refine Or.inr ⟨first :: rest, ?_, hlength, hsame, by simpa using hstatus⟩
      have hevents : eventList (stored.get "events") true = .ok (first :: rest) := by
        have hnone : (stored.get "events").isNone = false := by
          cases hv : stored.get "events" <;> rw [hv] at hxs <;> cases hxs
          rfl
        simp only [eventList, hnone, Bool.false_and, Bool.false_eq_true, ↓reduceIte, hxs, hdicts]
        rfl
      rw [deliveryEvents, hevents]

/-- **What an accepted record leaves.** Over a consistent delivery, or none, an accepted record
leaves a consistent delivery when it moves as it records.

**Proof sketch.** The chain is checked in every case. With more events than are stored, the status
is the one of the last event by assumption; otherwise the last event and the status are the stored
ones, and these agree. -/
theorem authorize_consistent (hw : Value.WellFormed (.dict payload))
    (h : authorize entityId payload deletedAt current principal scope world = .ok projectId)
    (hstored : ∀ e d, current = some e → e.payload = .dict d → Consistent d)
    (hmoves : MovesAsRecorded current payload) : Consistent payload := by
  simp only [authorize, bind_eq_ok] at h
  obtain ⟨-, -, -, -, found, hfound, ⟨⟩, hvalidate, -⟩ := h
  simp only [validatePayload, bind_eq_ok] at hvalidate
  obtain ⟨⟨status, events⟩, hread, -, -, -, -, hhistory⟩ := hvalidate
  obtain ⟨hstatus, hevents, hstart, hwalk⟩ := readHistory_ok hread
  refine ⟨⟨events, hevents, hstart, hwalk⟩, ?_⟩
  rcases lt_or_ge (storedCount current) (eventCount payload) with hlt | hge
  · exact hmoves hlt
  · obtain ⟨hlist, hne⟩ := deliveryEvents_ok hevents
    rw [eventCount_eq hevents] at hge
    have hpos := List.length_pos_iff.mpr hne
    rcases continuity_ok hfound with ⟨rfl, rfl⟩ | ⟨e, stored, rfl, hpayload, rfl⟩
    · exact absurd (hpos.trans_le hge) (lt_irrefl 0)
    · have hcount : storedCount (some (.struct e)) = eventCount stored := by
        rw [storedCount, Option.bind_some, StoredEntity.payload, hpayload]
        rfl
      rw [hcount] at hge
      rcases enforceHistory_kept hhistory hge with hempty |
        ⟨old, hold, hlength, hsame, hsameStatus⟩
      · exact absurd hempty hne
      · have hconsistent := (hstored _ stored rfl hpayload).status
        obtain ⟨last, hlast⟩ : ∃ last, events.getLast? = some last :=
          ⟨_, List.getLast?_eq_some_getLast hne⟩
        obtain ⟨last', hlast'⟩ : ∃ last, old.getLast? = some last :=
          ⟨_, List.getLast?_eq_some_getLast (deliveryEvents_ok hold).2⟩
        rw [lastStatus_eq hold, hlast', Option.map_some, Option.some.injEq] at hconsistent
        rw [lastStatus_eq hevents, hlast, Option.map_some]
        obtain ⟨reached, hreached⟩ := toStatus_of_walk hwalk (List.mem_of_getLast? hlast)
        have hwevents : ∀ event ∈ events, Value.WellFormed (.dict event) := by
          have hwlist := hw.get "events"
          intro event hevent
          cases hv : payload.get "events" with
          | list xs =>
            rw [hv] at hlist hwlist
            obtain rfl := Option.some.inj hlist
            exact (Value.wellFormedList_iff _).mp hwlist _ (List.mem_map_of_mem hevent)
          | _ =>
            rw [hv] at hlist
            cases hlist
        have hstr := toStatus_congr hwevents hsame hlength hlast hlast' reached.name
        have hold' : (Dict.get stored "status").isStr reached.name = true := by
          rw [← hconsistent, ← hstr, hreached]
          exact (Value.isStr_iff _ _).mpr rfl
        rw [pyEq_eq_same] at hsameStatus
        rw [Value.isStr_congr hsameStatus, hstatus] at hold'
        rw [hreached, hstatus, ← (Value.isStr_iff _ _).mp hold']

end Accepted

end Delivery

/-- Every stored delivery is consistent. -/
def World.DeliveriesConsistent (w : World) : Prop :=
  ∀ id e, w.entity (.known .deliveryExecution) id = some e →
    ∃ d, e.payload = .dict d ∧ Delivery.Consistent d

namespace Batch

/-! ### Runs -/

section Commit

variable {record : Record} {principal : Principal} {s : State} {admitted : Admitted}

/-- The canonical effects leave the entities. -/
lemma applyCanonicalEffects_entities (w : World) (authorized : Authorized) :
    (applyCanonicalEffects w authorized).entities = w.entities := by
  rw [applyCanonicalEffects_eq]
  generalize authorized.upserts = upserts
  induction upserts generalizing w with
  | nil => rfl
  | cons upsert upserts ih =>
    rw [List.foldl_cons, ih]
    cases upsert <;> rfl

/-- An entity after a commit: the row of the record, or what was there. -/
lemma commit_entity (fingerprint : Str) (entityType : EntityKind) (id : Str) :
    (commit record principal s admitted fingerprint).store.world.entity entityType id =
      if (record.entityType, record.entityId) = (entityType, id) then
        some (.map (entityRow record principal admitted.payload (nextRevision s)))
      else s.store.world.entity entityType id := by
  obtain ⟨membership, hworld⟩ := commit_world record principal s admitted fingerprint
  rw [hworld, World.entity, applyCanonicalEffects_entities]
  have hfound : ∀ row : StoredEntity, (row.entityType == entityType && row.entityId == id) = true ↔
      entityKey row = (entityType, id) := by
    simp [entityKey]
  exact find?_upsertBy hfound _ _

/-- What the authority establishes of an admitted delivery: its gate accepted it, and the record is
no tombstone. -/
lemma delivery_of_admitted (htype : record.entityType = .known .deliveryExecution)
    (hdecide : decideRecord s record principal = .ok (.admitted admitted)) :
    record.deletedAt = none ∧ ∃ projectId,
      Delivery.authorize record.entityId admitted.payload.items record.deletedAt
        (currentEntity s.store record) principal s.scope s.store.world = .ok projectId := by
  obtain ⟨payload, -, hauthority⟩ := authority_of_admitted hdecide
  simp only [Authority.decide, Authority.authority, htype, ↓reduceIte, bind_eq_ok, pure_eq_ok]
    at hauthority
  obtain ⟨-, -, -, -, authorized, hauthorized, rfl⟩ := hauthority
  simp only [Authority.deliveryAuthority, coded_eq_ok, bind_eq_ok] at hauthorized
  obtain ⟨projectId, hproject, -⟩ := hauthorized
  refine ⟨?_, projectId, hproject⟩
  simp only [Delivery.authorize, bind_eq_ok] at hproject
  obtain ⟨-, -, ⟨⟩, htombstone, -⟩ := hproject
  simpa [Delivery.refuseTombstone] using htombstone

/-- A commit of a delivery that moves as it records keeps the deliveries consistent. -/
lemma commit_consistent (fingerprint : Str) (hw : s.store.world.DeliveriesConsistent)
    (hdecide : decideRecord s record principal = .ok (.admitted admitted))
    (hmoves : record.entityType = .known .deliveryExecution →
      Delivery.MovesAsRecorded (currentEntity s.store record) admitted.payload.items) :
    (commit record principal s admitted fingerprint).store.world.DeliveriesConsistent := by
  intro id e he
  rw [commit_entity] at he
  split_ifs at he with hkey
  · obtain ⟨htype, rfl⟩ := Prod.mk.inj hkey
    obtain rfl := Option.some.inj he
    obtain ⟨hlive, projectId, hproject⟩ := delivery_of_admitted htype hdecide
    have hpayload : (entityRow record principal admitted.payload (nextRevision s)).payload =
        some admitted.payload := by
      rw [entityRow, Record.tombstone, hlive]
      rfl
    refine ⟨admitted.payload.items, by rw [StoredEntity.payload, hpayload]; rfl, ?_⟩
    refine Delivery.authorize_consistent admitted.payload.wellFormed hproject ?_ (hmoves htype)
    intro e d hcurrent hd
    rw [currentEntity, htype] at hcurrent
    obtain ⟨d', hd', hconsistent⟩ := hw _ e hcurrent
    rw [hd, Value.dict.injEq] at hd'
    exact hd' ▸ hconsistent
  · exact hw id e he

end Commit

/-- **The status of a delivery.** Over every run that starts with consistent deliveries, or with
none, the deliveries are consistent in every state if and only if every delivery that is accepted
with more events than are stored names the status of its last event; and then they are consistent
after the run.

**Proof sketch.** One direction by the invariant of the run, a step by `commit_consistent`. For the
other, the delivery that a step accepts is stored after it, and is consistent there. -/
theorem deliveries_consistent_iff (inputs : List BatchInput) (store : Store)
    (hstore : store.world.DeliveriesConsistent) :
    ((∀ input s x s', RunReaches inputs store input s x s' → ∀ admitted,
        x.1.entityType = .known .deliveryExecution →
        decideRecord s x.1 input.principal = .ok (.admitted admitted) →
          Delivery.MovesAsRecorded (currentEntity s.store x.1) admitted.payload.items) ↔
      (∀ input s x s', RunReaches inputs store input s x s' →
        s'.store.world.DeliveriesConsistent) ∧
        (runBatches inputs store).world.DeliveriesConsistent) := by
  constructor
  · intro hmoves
    have hrun : (∀ input s x s', RunReaches inputs store input s x s' →
          s.store.world.DeliveriesConsistent ∧ s'.store.world.DeliveriesConsistent) ∧
        (runBatches inputs store).world.DeliveriesConsistent := by
      refine runReaches_inv (I := fun store => store.world.DeliveriesConsistent) hstore ?_ ?_
      · intro input s x s' hreaches hs
        obtain ⟨-, -, -, -, -, -, -, -, hstep⟩ := id hreaches
        obtain ⟨outcome, t, hsettles, rfl⟩ := settles_of_walkRecord hstep
        cases hsettles with
        | quiet _ _ _ => exact hs
        | refused _ _ _ _ _ => exact hs
        | accepted fingerprint admitted _ _ hdecide =>
          exact commit_consistent fingerprint hs hdecide fun htype =>
            hmoves input s x _ hreaches admitted htype hdecide
      · intro s hs id e he
        change (loadedWorld _ _).entity _ _ = _ at he
        rw [loadedWorld_entity] at he
        obtain ⟨e', he', rfl⟩ := Option.map_eq_some_iff.mp he
        obtain ⟨d, hd, hconsistent⟩ := hs id e' he'
        exact ⟨d, (loaded_payload e').trans hd, hconsistent⟩
    exact ⟨fun input s x s' hreaches => (hrun.1 input s x s' hreaches).2, hrun.2⟩
  · rintro ⟨hconsistent, -⟩ input s x s' hreaches admitted htype hdecide -
    obtain ⟨-, -, -, -, -, -, -, -, hstep⟩ := id hreaches
    obtain ⟨fingerprint, rfl⟩ := walkRecord_admitted hdecide hstep
    have hentity : (commit x.1 input.principal s admitted fingerprint).store.world.entity
          (.known .deliveryExecution) x.1.entityId =
        some (.map (entityRow x.1 input.principal admitted.payload (nextRevision s))) := by
      rw [commit_entity, htype, if_pos rfl]
    obtain ⟨d, hd, hstatus⟩ := hconsistent input s x _ hreaches x.1.entityId _ hentity
    have hlive := (delivery_of_admitted htype hdecide).1
    rw [StoredEntity.payload, entityRow, Record.tombstone, hlive] at hd
    obtain rfl := Value.dict.inj hd
    exact hstatus.status

end Batch

namespace Sample

/-- An approved quotation of the sample project. -/
def quotation : Record :=
  record .quotation "q" "5" none
    [("id", .str "q"), ("projectID", .str "p"), ("customerID", .str "c"),
      ("status", .str "approved"),
      ("lines", .list [.dict [("itemID", .str "i"), ("totalPrice", .int 1)]]),
      ("events", .list
        [.dict (("id", .str "1") :: ("kind", .str "sent") :: VitrialSync.Sample.provenance),
          .dict (("id", .str "2") :: ("kind", .str "approved") :: VitrialSync.Sample.provenance)])]

/-- The sample delivery with its first event. -/
def delivery (status : String) : Record :=
  record .deliveryExecution "v" "6" none
    [("id", .str "v"), ("status", .str status), ("startedAt", .str "1"), ("updatedAt", .str "1"),
      ("projectID", .str "p"), ("customerID", .str "c"), ("quotationID", .str "q"),
      ("quotationRevision", .int 1), ("quotedTotal", .int 1),
      ("events", .list [VitrialSync.Sample.opened])]

/-- Batches of the sample member. -/
def batches (batches : List (List Record)) : List Batch.BatchInput :=
  batches.map fun records => ⟨VitrialSync.Sample.principal, none, records⟩

/-- A delivery is created in Materials Required although its only event opens it in Engineering
Review. -/
def premature : List Batch.BatchInput :=
  batches [setup, [quotation], [delivery "materialsRequired"]]

end Sample

namespace Batch

/-- The delivery that is stored after it. -/
lemma premature_stored :
    ∃ (e : StoredEntity) (d : Dict),
      (runBatches Sample.premature Sample.store).world.entity (.known .deliveryExecution) "v" =
        some e ∧ e.payload = .dict d ∧ d.get "status" = .str "materialsRequired" ∧
      Delivery.lastStatus d = some (.str "engineeringReview") := by
  have hstored : ((runBatches Sample.premature Sample.store).world.entity
      (.known .deliveryExecution) "v").any (fun e => e.payload.dict?.any fun d =>
        (d.get "status").isStr "materialsRequired" &&
          (Delivery.lastStatus d).any fun v => v.isStr "engineeringReview") = true := by
    decide +kernel
  obtain ⟨e, he, hpayload⟩ := (Option.any_eq_true _ _).mp hstored
  obtain ⟨d, hd, hmatch⟩ := (Option.any_eq_true _ _).mp hpayload
  rw [Bool.and_eq_true, Value.isStr_iff, Option.any_eq_true] at hmatch
  obtain ⟨hstatus, v, hv, hstr⟩ := hmatch
  refine ⟨e, d, he, ?_, hstatus, by rw [hv, (Value.isStr_iff _ _).mp hstr]⟩
  cases hvalue : e.payload <;> rw [hvalue] at hd <;> cases hd
  rfl

/-- The two statuses are different texts. -/
lemma engineeringReview_ne :
    (some (.str "engineeringReview") : Option Value) ≠ some (.str "materialsRequired") := by
  intro h
  have htexts := Value.str.inj (Option.some.inj h)
  revert htexts
  decide +kernel

/-- There is nothing stored in the sample store. -/
lemma sampleStore_consistent : Sample.store.world.DeliveriesConsistent := by
  intro id e he
  cases he

/-- A delivery in Materials Required whose history ends in Engineering Review. -/
theorem runBatches_delivery_ahead :
    ∃ (e : StoredEntity) (d : Dict),
      (runBatches Sample.premature Sample.store).world.entity (.known .deliveryExecution) "v" =
        some e ∧ e.payload = .dict d ∧ Delivery.lastStatus d ≠ some (d.get "status") := by
  obtain ⟨e, d, he, hd, hstatus, hlast⟩ := premature_stored
  refine ⟨e, d, he, hd, ?_⟩
  rw [hstatus, hlast]
  exact engineeringReview_ne

/-- In the run that creates it some accepted delivery does not move as it records. -/
theorem deliveries_consistent_iff_premature :
    ¬ ∀ input s x s', RunReaches Sample.premature Sample.store input s x s' → ∀ admitted,
        x.1.entityType = .known .deliveryExecution →
        decideRecord s x.1 input.principal = .ok (.admitted admitted) →
          Delivery.MovesAsRecorded (currentEntity s.store x.1) admitted.payload.items := by
  intro hmoves
  obtain ⟨e, d, he, hd, hstatus, hlast⟩ := premature_stored
  obtain ⟨-, hend⟩ :=
    (deliveries_consistent_iff Sample.premature Sample.store sampleStore_consistent).mp hmoves
  obtain ⟨d', hd', hconsistent⟩ := hend _ e he
  obtain rfl := Value.dict.inj (hd.symm.trans hd')
  have hagree := hconsistent.status
  rw [hstatus, hlast] at hagree
  exact engineeringReview_ne hagree

end Batch

end VitrialSync.Beam
