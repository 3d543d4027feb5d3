import VitrialSync.Beam.Steps

set_option relaxedAutoImplicit false
set_option autoImplicit false

/-!
# Runs of batches

A batch is decided on a store that was loaded for it. The store of the next batch is what the walk
ended with, loaded again: the maps that the walk put among the entities come back as structs, and
the organization has the revision of the effects.

## Main definitions

* `VitrialSync.Beam.Batch.State.next` — the store that the next batch begins with.
* `VitrialSync.Beam.Batch.runBatches` — the store after a sequence of batches.
* `VitrialSync.Beam.Batch.RunReaches` — a step of a run.

## Main results

* `VitrialSync.Beam.Batch.runBatches_inv` — an invariant of every step of a walk, and of loading,
  holds after a run.
* `VitrialSync.Beam.Batch.runReaches_inv` — the same for the steps that a run takes.
-/

namespace VitrialSync.Beam

open Python Program

/-- The row of an accepted record as it is loaded. -/
def EntityRow.loaded (row : EntityRow) : Entity where
  entityType := row.entityType
  entityId := row.entityId
  payload := row.payload.elim ⟨.none, trivial, by simp [Json.AllFinite, Value.leaves]⟩ Object.term
  deletedAt := row.deletedAt
  serverRevision := some row.serverRevision

/-- An entity as it is loaded. -/
def StoredEntity.loaded : StoredEntity → Entity
  | .struct e => e
  | .map row => row.loaded

namespace Batch

/-- The world that is loaded after a batch. -/
def loadedWorld (w : World) (authorizationRevision : ℤ) : World :=
  { w with
    entities := w.entities.map fun e => .struct e.loaded
    organization := w.organization.map fun _ => ⟨authorizationRevision⟩ }

/-- The store that is loaded after a batch. -/
def State.next (s : State) : Store :=
  { s.store with
    world := loadedWorld s.store.world s.effects.organizationAuthorizationRevision }

/-- A loaded entity has the payload that was threaded. -/
lemma loaded_payload (e : StoredEntity) : (StoredEntity.struct e.loaded).payload = e.payload := by
  cases e with
  | struct e => rfl
  | map row =>
    simp only [StoredEntity.payload, StoredEntity.loaded, EntityRow.loaded]
    cases row.payload <;> rfl

/-- An entity that is loaded. -/
lemma loadedWorld_entity (w : World) (authorizationRevision : ℤ) (entityType : EntityKind)
    (id : Str) :
    (loadedWorld w authorizationRevision).entity entityType id =
      (w.entity entityType id).map fun e => .struct e.loaded := by
  rw [World.entity, loadedWorld, List.find?_map, World.entity]
  congr 2
  funext e
  cases e <;> rfl

/-- A push: by whom and what. -/
structure BatchInput where
  principal : Principal
  deviceId : Option Str
  records : List Record

/-- The store after a push; one that raises or is denied leaves it. -/
def afterBatch (store : Store) (input : BatchInput) : Store :=
  if !input.principal.holds .sync || store.world.organization.isNone then store
  else
    match walk input.records input.deviceId input.principal store with
    | .ok s => s.next
    | .error _ => store

/-- The store after a sequence of pushes. -/
def runBatches (inputs : List BatchInput) (store : Store) : Store := inputs.foldl afterBatch store

/-- An invariant of the steps of a walk holds at its end. -/
lemma walk_inv {I : State → Prop} {records : List Record} {deviceId : Option Str}
    {principal : Principal} {store : Store} {s : State}
    (hstart : I (.start deviceId principal store))
    (hstep : ∀ s record index s', I s → walkRecord principal s (record, index) = .ok s' → I s')
    (h : walk records deviceId principal store = .ok s) : I s :=
  foldlM_inv (fun s x s' hs hx => hstep s x.1 x.2 s' hs hx) hstart h

/-- **Invariants of a run.** What every step of a walk and the loading keep of the store holds after
every sequence of batches. -/
theorem runBatches_inv {I : Store → Prop}
    (hstep : ∀ principal s record index s', I s.store →
      walkRecord principal s (record, index) = .ok s' → I s'.store)
    (hnext : ∀ s : State, I s.store → I s.next) (inputs : List BatchInput) {store : Store}
    (hstore : I store) : I (runBatches inputs store) := by
  induction inputs generalizing store with
  | nil => exact hstore
  | cons input inputs ih =>
    refine ih ?_
    unfold afterBatch
    split
    · exact hstore
    · cases hwalk : walk input.records input.deviceId input.principal store with
      | error e => exact hstore
      | ok s =>
        exact hnext s (walk_inv (I := fun s => I s.store) hstore
          (fun s record index s' hs hs' => hstep _ s record index s' hs hs') hwalk)

/-- A push that is neither denied by the principal nor by the organization. -/
def Served (store : Store) (input : BatchInput) : Prop :=
  input.principal.holds .sync = true ∧ store.world.organization.isSome = true

/-- A step of a run: a step of the walk of one of its batches, on the store of that batch. -/
def RunReaches (inputs : List BatchInput) (store : Store) (input : BatchInput) (s : State)
    (x : Record × ℕ) (s' : State) : Prop :=
  ∃ done rest, inputs = done ++ input :: rest ∧ Served (runBatches done store) input ∧
    Reaches input.records input.deviceId input.principal (runBatches done store) s x s'

section Steps

variable {I : Store → Prop} {inputs : List BatchInput} {store : Store}

/-- An invariant of the steps of a walk holds before each of them, and at its end. -/
lemma reaches_inv {records : List Record} {deviceId : Option Str} {principal : Principal}
    (hstore : I store)
    (hstep : ∀ s x s', Reaches records deviceId principal store s x s' → I s.store → I s'.store) :
    (∀ s x s', Reaches records deviceId principal store s x s' → I s.store) ∧
      ∀ s, walk records deviceId principal store = .ok s → I s.store := by
  have hdone : ∀ done rest s, sortedRecords records = done ++ rest →
      done.foldlM (walkRecord principal) (.start deviceId principal store) = .ok s →
        I s.store := by
    intro done
    induction done using List.reverseRecOn with
    | nil =>
      intro rest s hsplit hs
      obtain rfl := pure_eq_ok.mp hs
      exact hstore
    | append_singleton done x ih =>
      intro rest s hsplit hs
      obtain ⟨c, s', hc, hs', hend⟩ := foldlM_split.mp hs
      obtain rfl := pure_eq_ok.mp hend
      rw [List.append_assoc, List.singleton_append] at hsplit
      exact hstep c x s' ⟨done, rest, hsplit, hc, hs'⟩ (ih (x :: rest) c hsplit hc)
  constructor
  · rintro s x s' ⟨done, rest, hsplit, hs, -⟩
    exact hdone done (x :: rest) s hsplit hs
  · intro s hs
    exact hdone _ [] s (List.append_nil _).symm hs

/-- **Invariants of the steps of a run.** What every step of a run and the loading keep of the store
holds around every step, and after the run.

**Proof sketch.** Induction on the batches from the end: before a batch by the induction hypothesis,
in its walk by `reaches_inv`. -/
theorem runReaches_inv (hstore : I store)
    (hstep : ∀ input s x s', RunReaches inputs store input s x s' → I s.store → I s'.store)
    (hnext : ∀ s : State, I s.store → I s.next) :
    (∀ input s x s', RunReaches inputs store input s x s' → I s.store ∧ I s'.store) ∧
      I (runBatches inputs store) := by
  have hdone : ∀ done rest, inputs = done ++ rest → I (runBatches done store) := by
    intro done
    induction done using List.reverseRecOn with
    | nil => exact fun _ _ => hstore
    | append_singleton done input ih =>
      intro rest hsplit
      rw [List.append_assoc, List.singleton_append] at hsplit
      have hbefore := ih (input :: rest) hsplit
      rw [runBatches, List.foldl_append]
      change I (afterBatch (runBatches done store) input)
      unfold afterBatch
      split_ifs with hdenied
      · exact hbefore
      · have hserved : Served (runBatches done store) input := by
          simp only [Bool.or_eq_true, Bool.not_eq_true', not_or, Bool.not_eq_false,
            Option.isNone_iff_eq_none] at hdenied
          exact ⟨hdenied.1, Option.isSome_iff_ne_none.mpr hdenied.2⟩
        cases hwalk : walk input.records input.deviceId input.principal (runBatches done store) with
        | error e => exact hbefore
        | ok s =>
          refine hnext s ((reaches_inv hbefore ?_).2 s hwalk)
          exact fun s x s' hreaches => hstep input s x s' ⟨done, rest, hsplit, hserved, hreaches⟩
  refine ⟨?_, hdone inputs [] (List.append_nil _).symm⟩
  rintro input s x s' ⟨done, rest, hsplit, hserved, hreaches⟩
  have hbefore : I s.store := by
    refine (reaches_inv (hdone done (input :: rest) hsplit) ?_).1 s x s' hreaches
    exact fun s x s' hreaches => hstep input s x s' ⟨done, rest, hsplit, hserved, hreaches⟩
  exact ⟨hbefore, hstep input s x s' ⟨done, rest, hsplit, hserved, hreaches⟩ hbefore⟩

end Steps

end Batch

end VitrialSync.Beam
