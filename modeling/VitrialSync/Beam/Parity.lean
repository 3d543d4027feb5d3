import VitrialSync.Beam.Lifecycle

set_option relaxedAutoImplicit false
set_option autoImplicit false

/-!
# Two servers on one state

What it means that the world of the BEAM and the tables of the reference hold the same rows, and the
checks on event histories that both servers make, compared one by one: each accepts exactly when
its counterpart does, on texts that both runtimes trim alike.

## Main definitions

* `VitrialSync.Beam.SameEntity`, `VitrialSync.Beam.Mirrors` — the same stored entity, and the same
  rows of an organization.
* `VitrialSync.Beam.eventTexts` — the fields of an event that are read as names.

## Main results

* `VitrialSync.Beam.checkProvenance_iff` — the provenance checks agree.
* `VitrialSync.Beam.Lifecycle.events_iff`, `VitrialSync.Beam.Lifecycle.uniqueEventIds_iff`,
  `VitrialSync.Beam.Lifecycle.immutablePrefix_iff` — the checks of a history agree.
-/

namespace VitrialSync.Beam

open Python Program

/-! ### Rows -/

/-- Both servers store the same entity: the same payload, if it is an object, and both a tombstone or
neither. -/
inductive SameEntity : Option StoredEntity → Option SyncEntity → Prop where
  | absent : SameEntity none none
  | stored {entity : Entity} {row : SyncEntity}
      (payload : entity.payload.object?.map Object.items = row.payloadJson.map Payload.items)
      (deleted : entity.deletedAt.isSome = row.deletedAt.isSome) :
      SameEntity (some (.struct entity)) (some row)

/-- The world holds what the tables hold of an organization. -/
structure Mirrors (world : World) (db : Db) (organizationId : Str) : Prop where
  entity : ∀ type id,
    SameEntity (world.entity (.known type) id) (db.entities.get (organizationId, type, id))
  project : ∀ id, (world.project id).map (fun p => (p.customerId, p.deletedAt.isSome)) =
    (db.projects.get (organizationId, id)).map fun p => (p.customerId, p.deletedAt.isSome)
  item : ∀ id, (world.item id).map (fun i => (i.projectId, i.deletedAt.isSome)) =
    (db.items.get (organizationId, id)).map fun i => (i.projectId, i.deletedAt.isSome)
  itemChild : ∀ type id,
    (world.itemChild (.known type) id).map (fun c => (c.itemId, c.deletedAt.isSome)) =
      (db.itemChildren.get (organizationId, type, id)).map fun c => (c.itemId, c.deletedAt.isSome)
  projectChild : ∀ type id,
    (world.projectChild (.known type) id).map (fun c => (c.projectId, c.deletedAt.isSome)) =
      (db.projectChildren.get (organizationId, type, id)).map
        fun c => (c.projectId, c.deletedAt.isSome)

/-- The stored payload of a row of the reference. -/
def storedItems (row : Option SyncEntity) : Option Dict :=
  (row.bind SyncEntity.payloadJson).map Payload.items

/-- The payload of the same entity is read alike. -/
lemma SameEntity.payloadObject {current : Option StoredEntity} {row : Option SyncEntity}
    (h : SameEntity current row) :
    ∃ stored, payloadObject current = .ok stored ∧ stored.map Object.items = storedItems row := by
  cases h with
  | absent => exact ⟨none, rfl, rfl⟩
  | stored payload deleted => exact ⟨_, rfl, payload⟩

/-- An entity that is not a tombstone is found by both servers. -/
lemma SameEntity.activeStruct {current : Option StoredEntity} {row : Option SyncEntity}
    (h : SameEntity current row) :
    (∃ entity payload updatedAt revision, activeStruct current = some entity ∧
      row = some ⟨revision, payload, updatedAt, none⟩ ∧
      entity.payload.object?.map Object.items = payload.map Payload.items) ∨
    (activeStruct current = none ∧ ∀ stored, row = some stored → stored.deletedAt ≠ none) := by
  cases h with
  | absent => exact Or.inr ⟨rfl, by simp⟩
  | @stored entity row payload deleted =>
    obtain ⟨revision, payloadJson, updatedAt, deletedAt⟩ := row
    cases deletedAt with
    | none =>
      have hactive : entity.deletedAt.isNone = true := by
        rw [← Option.not_isSome, deleted]
        rfl
      exact Or.inl ⟨entity, payloadJson, updatedAt, revision, by simp [Beam.activeStruct, hactive],
        rfl, payload⟩
    | some deletion =>
      have hgone : entity.deletedAt.isNone = false := by
        rw [← Option.not_isSome, deleted]
        rfl
      refine Or.inr ⟨by simp [Beam.activeStruct, hgone], ?_⟩
      rintro _ ⟨⟩
      simp

/-! ### Values -/

/-- A name that is found has a hash. -/
lemma hashedName_eq_ok_some {α : Type} {vocabulary : List (String × α)} {v : Value} {a : α} :
    hashedName vocabulary v = .ok (some a) ↔ findName vocabulary v = some a := by
  refine ⟨hashedName_eq_ok, fun h => ?_⟩
  obtain ⟨name, -, rfl⟩ := findName_eq_some h
  rw [hashedName, ← h]
  rfl

/-- A value that is no NaN is compared alike. -/
lemma ne_eq_not_pyEq {v : Value} (h : v ≠ .float .nan) (w : Value) : v.ne w = !pyEq v w := by
  rw [← pyNe_eq_ne h, pyNe]

/-! ### Provenance -/

/-- The fields of an event that are read as names. -/
def eventTexts : List String := ["id", "actorID", "organizationID", "membershipID", "sessionID"]

/-- A complete entry has an integer as its revision, and integers differ alike. -/
lemma pyNe_revision {value : Dict} (h : provenanceIncomplete value = false) (n : ℤ) :
    pyNe (value.get "authorizationRevision") (.int n) =
      ((value.get "authorizationRevision").properInt? != some n) := by
  simp only [provenanceIncomplete, Bool.or_eq_false_iff, Bool.not_eq_false'] at h
  obtain ⟨-, hrevision⟩ := h
  cases hv : value.get "authorizationRevision" with
  | int m =>
    rw [pyNe, pyEq_eq_same, Bool.eq_iff_iff, Bool.not_eq_true', ← Bool.not_eq_true,
      Value.same_int_iff]
    simp [Value.properInt?]
  | _ => simp [hv, Value.properInt?] at hrevision

/-- The provenance checks agree on texts that are trimmed alike. -/
lemma checkProvenance_iff {value : Dict} (h : ∀ key ∈ eventTexts, TrimsAlike (value.get key))
    (raise : Str → Exc) (principal : Principal) (currentActor : Bool)
    (texts texts' : ProvenanceTexts) :
    checkProvenance value (some principal) currentActor texts = .ok () ↔
      requireProvenance raise texts' value principal currentActor = .ok () := by
  have hactor := normalized_eq (h "actorID" (by simp [eventTexts]))
  have horganization := normalized_eq (h "organizationID" (by simp [eventTexts]))
  have hmembership := normalized_eq (h "membershipID" (by simp [eventTexts]))
  have hsession := normalized_eq (h "sessionID" (by simp [eventTexts]))
  have hreference : requireProvenance raise texts' value principal currentActor = .ok () ↔
      provenanceIncomplete value = false ∧
        normalized (value.get "organizationID") = some principal.organizationId ∧
        (currentActor && (normalized (value.get "actorID") != some principal.userId ||
          normalized (value.get "membershipID") != some principal.membershipId ||
          normalized (value.get "sessionID") != some principal.sessionId ||
          (value.get "authorizationRevision").properInt? !=
            some principal.authorizationRevision)) = false := by
    simp only [requireProvenance, provenanceIncomplete, bind_eq_ok, raiseIf_eq_ok, exists_const,
      bne_eq_false_iff_eq, hactor, horganization, hmembership, hsession]
  rw [hreference, checkProvenance]
  cases hincomplete : provenanceIncomplete value with
  | true => simp
  | false =>
    by_cases horg : normalized (value.get "organizationID") = some principal.organizationId
    · simp [horg, provenanceMismatch, pyNe_revision hincomplete]
    · simp [horg]

namespace Lifecycle

/-! ### Histories -/

/-- Both servers read the same events. -/
lemma events_iff {payload : Dict} {name : String} {required : Bool} {history : List Dict} :
    events payload name required = .ok history ↔
      VitrialSync.Lifecycle.events payload name required = .ok history := by
  unfold events eventList VitrialSync.Lifecycle.events
  generalize payload.get "events" = raw
  by_cases hnone : (raw.isNone && !required) = true
  · simp [hnone]
  · simp only [hnone, Bool.false_eq_true, ↓reduceIte]
    cases raw.list? with
    | none => simp [refuse]
    | some xs =>
      by_cases hempty : (required && xs.isEmpty) = true
      · simp [hempty, refuse]
      · simp only [hempty, Bool.false_eq_true, ↓reduceIte]
        cases dicts? xs with
        | none => simp [refuse]
        | some ds => simp

/-- Both servers find the ids of the events distinct.

**Proof sketch.** Induction on the events, with the ids that were seen as a parameter. -/
lemma uniqueEventIds_iff {name : String} {missing repeated : Exc} {history : List Dict}
    (h : ∀ event ∈ history, TrimsAlike (event.get "id")) (seen : List Str) :
    uniqueEventIds name history seen = .ok () ↔
      requireUniqueIds "id" missing repeated history seen = .ok () := by
  induction history generalizing seen with
  | nil => simp [uniqueEventIds, requireUniqueIds]
  | cons event history ih =>
    rw [List.forall_mem_cons] at h
    rw [uniqueEventIds, requireUniqueIds, normalized_eq h.1]
    cases VitrialSync.normalized (event.get "id") with
    | none => simp
    | some id =>
      dsimp only
      split_ifs with hseen
      · simp
      · exact ih h.2 _

/-- Apart from an empty list, a value is falsy when it is not truthy, unless it is an empty object. -/
lemma falsyJson_eq {v : Value} (hobject : v ≠ .dict []) (hlist : v ≠ .list []) :
    falsyJson v = !v.truthy := by
  cases v with
  | list xs => cases xs <;> simp [falsyJson, Value.truthy] at hlist ⊢
  | dict d => cases d <;> simp [falsyJson, Value.truthy] at hobject ⊢
  | int n => simp [falsyJson, Value.truthy, bne]
  | _ => simp [falsyJson, Value.truthy]

/-- Both servers find the same events appended, unless the stored history is an empty object. -/
lemma immutablePrefix_iff {currentPayload : Option Dict}
    (h : ∀ stored, currentPayload = some stored → stored.get "events" ≠ .dict [])
    {proposed appended : List Dict} {name : String} :
    immutablePrefix currentPayload proposed name = .ok appended ↔
      VitrialSync.Lifecycle.requireImmutablePrefix currentPayload proposed name = .ok appended := by
  cases currentPayload with
  | none => simp [immutablePrefix, VitrialSync.Lifecycle.requireImmutablePrefix]
  | some stored =>
    have hobject := h stored rfl
    simp only [immutablePrefix, VitrialSync.Lifecycle.requireImmutablePrefix,
      VitrialSync.Lifecycle.storedEvents?]
    generalize stored.get "events" = raw at hobject ⊢
    by_cases hlist : raw = .list []
    · subst hlist
      simp [falsyJson, Value.truthy, Value.list?, dicts?, startsWith, listEq, Value.sameList]
    · simp only [falsyJson_eq hobject hlist]
      cases htruthy : raw.truthy with
      | false => simp [startsWith, Value.sameList]
      | true =>
        simp only [Bool.not_true, Bool.false_eq_true, ↓reduceIte]
        cases raw.list?.bind dicts? with
        | none => simp
        | some current =>
          by_cases hlength : proposed.length < current.length
          · simp [hlength]
          · simp only [hlength, ↓reduceIte, startsWith, listEq_eq_sameList]
            by_cases hsame : Value.sameList ((proposed.take current.length).map .dict)
                (current.map .dict) = true
            · simp only [hsame, Bool.not_true, Bool.false_eq_true, ↓reduceIte, Except.ok.injEq]
            · simp only [hsame, Bool.not_false, ↓reduceIte, refuse, Bool.false_eq_true,
                reduceCtorEq]

end Lifecycle

end VitrialSync.Beam
