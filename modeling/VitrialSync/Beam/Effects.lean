import VitrialSync.Beam.Hierarchy
import VitrialSync.Beam.PushService

set_option relaxedAutoImplicit false
set_option autoImplicit false

/-!
# The effects of a push

What the walk over a batch gives to write when its store was loaded by the queries of a push. The
loaded world has no membership, and no step of the walk adds one, so nothing is granted and the
organization keeps its revision.

## Main definitions

* `VitrialSync.Beam.Batch.Recorded` — what the effects of a walk say about its state.

## Main results

* `VitrialSync.Beam.Ownership.applyPlan_ungranted` — without a membership no plan grants anything.
* `VitrialSync.Beam.Batch.recorded_walk` — the effects and the last state of every walk.
-/

namespace VitrialSync.Beam

open Python Program

/-! ### Grants -/

namespace Ownership

variable {plan : Plan} {world : World} {principal : Principal}

/-- Without a membership every grant is refused. -/
lemma grant_unavailable (h : world.membership = none) (requested : Grant) :
    grant principal world requested = refuse "creator membership is not canonical and active" := by
  rw [grant, h]

/-- Without a membership a customer is granted nothing. -/
lemma newCustomerGrant_empty {granted : Grant} (hworld : world.membership = none)
    (h : newCustomerGrant plan world principal = .ok granted) : granted = .empty := by
  unfold newCustomerGrant at h
  split_ifs at h
  · rw [grant_unavailable hworld] at h
    cases h
  · exact (Except.ok.inj h).symm

/-- Without a membership a project is granted nothing. -/
lemma newProjectGrant_empty {granted : Grant} (hworld : world.membership = none)
    (h : newProjectGrant plan world principal = .ok granted) : granted = .empty := by
  obtain ⟨stored, -, h⟩ := bind_eq_ok.mp h
  cases stored with
  | none =>
    rw [grant_unavailable hworld] at h
    cases h
  | some project =>
    simp only at h
    split_ifs at h
    · exact (Except.ok.inj h).symm
    · cases h

/-- Without a membership no plan grants anything.

**Proof sketch.** Only customers and projects ask for a grant. -/
lemma applyPlan_ungranted {applied : Applied} (hworld : world.membership = none)
    (h : applyPlan plan world principal = .ok applied) :
    applied.authorizationRevisionBump = false := by
  have hchild : ∀ {applied : Applied}, applyProjectChild plan world = .ok applied →
      applied.authorizationRevisionBump = false := by
    intro applied happlied
    simp only [applyProjectChild, bind_eq_ok, pure_eq_ok] at happlied
    obtain ⟨_, -, _, -, _, -, rfl⟩ := happlied
    rfl
  have hitem : ∀ {applied : Applied}, applyItemChild plan world = .ok applied →
      applied.authorizationRevisionBump = false := by
    intro applied happlied
    simp only [applyItemChild, bind_eq_ok, pure_eq_ok] at happlied
    obtain ⟨_, -, _, -, _, -, _, -, rfl⟩ := happlied
    rfl
  unfold applyPlan at h
  split at h
  · obtain ⟨granted, hgranted, happlied⟩ := bind_eq_ok.mp h
    cases newCustomerGrant_empty hworld hgranted
    cases happlied
    rfl
  · obtain ⟨granted, hgranted, happlied⟩ := bind_eq_ok.mp h
    cases newProjectGrant_empty hworld hgranted
    cases happlied
    rfl
  · simp only [bind_eq_ok, pure_eq_ok] at h
    obtain ⟨_, -, _, -, _, -, rfl⟩ := h
    rfl
  · simp only [bind_eq_ok, pure_eq_ok] at h
    obtain ⟨_, -, _, -, _, -, rfl⟩ := h
    rfl
  · exact hchild h
  · exact hchild h
  · exact hitem h

end Ownership

namespace Batch

/-- A record that is admitted in a world without a membership is granted nothing. -/
lemma applyGrant_of_admitted {principal : Principal} {s : State} {record : Record}
    {admitted : Admitted} (hworld : s.store.world.membership = none)
    (h : decideRecord s record principal = .ok (.admitted admitted)) (t : State) :
    applyGrant t admitted.authorized = t := by
  obtain ⟨payload, -, hauthority⟩ := authority_of_admitted h
  simp only [Authority.decide, bind_eq_ok, pure_eq_ok] at hauthority
  obtain ⟨_, -, _, -, authorized, hauthorized, rfl⟩ := hauthority
  unfold Authority.authority at hauthorized
  split_ifs at hauthorized
  · simp only [Authority.deliveryAuthority, coded_eq_ok, bind_eq_ok, pure_eq_ok] at hauthorized
    obtain ⟨_, -, child, -, rfl⟩ := hauthorized
    rfl
  · simp only [Authority.genericAuthority, coded_eq_ok, bind_eq_ok, pure_eq_ok] at hauthorized
    obtain ⟨plan, -, applied, happlied, rfl⟩ := hauthorized
    rw [applyGrant, Ownership.applyPlan_ungranted hworld happlied, if_neg Bool.false_ne_true]

/-! ### The rows of the effects -/

/-- The rows of a mutation that was recorded under an id. -/
def recordedUnder {ρ : Type} (id : ρ → Option Str) (rows : List ρ) (key : Option Str) : Option ρ :=
  rows.find? fun row => id row == key

/-- What the effects of a walk say about its state. -/
structure Recorded (principal : Principal) (store : Store) (s : State) : Prop where
  membership : s.store.world.membership = none
  organization : s.store.world.organization = store.world.organization
  grants : s.effects.membershipGrants = []
  revision : s.effects.organizationAuthorizationRevision = entryRevision store
  /-- Every row is one of the principal's organization. -/
  mutations : ∀ row ∈ s.effects.mutationRows, row.organizationId = principal.organizationId
  fingerprintRows : ∀ row ∈ s.effects.fingerprintRows,
    row.organizationId = principal.organizationId
  entities : ∀ row ∈ s.effects.entityUpserts, row.organizationId = principal.organizationId
  changes : ∀ row ∈ s.effects.changelogRows, row.organizationId = principal.organizationId
  /-- Every mutation has its fingerprint. -/
  ids : s.effects.fingerprintRows.map FingerprintRow.clientMutationId =
    s.effects.mutationRows.map MutationRow.clientMutationId
  /-- The threaded priors are those of the store and the recorded ones. -/
  priors : ∀ key, s.store.priors.get key =
    ((recordedUnder MutationRow.clientMutationId s.effects.mutationRows key).map toPrior).or
      (store.priors.get key)
  fingerprints : ∀ key, s.store.fingerprints.get key =
    ((recordedUnder FingerprintRow.clientMutationId s.effects.fingerprintRows key).map
      FingerprintRow.requestFingerprint).or (store.fingerprints.get key)
  /-- An accepted record has its mutation. -/
  posted : s.effects.entityUpserts.length ≤ s.effects.mutationRows.length
  /-- Before the first acceptance the world is the loaded one. -/
  untouched : s.effects.entityUpserts = [] →
    s.store.world = store.world ∧ s.store.maxRevision = store.maxRevision ∧
      s.scope = .fromPrincipal principal ∧ s.effects.changelogRows = [] ∧
      s.effects.evidenceGcRows = []
  /-- After it the world has entities. -/
  touched : s.effects.entityUpserts ≠ [] → s.store.world.entities ≠ []

/-- The walk begins with nothing recorded. -/
lemma recorded_start {deviceId : Option Str} {principal : Principal} {store : Store}
    (h : store.world.membership = none) :
    Recorded principal store (.start deviceId principal store) where
  membership := h
  organization := rfl
  grants := rfl
  revision := rfl
  mutations := by simp [State.start, Effects.start]
  fingerprintRows := by simp [State.start, Effects.start]
  entities := by simp [State.start, Effects.start]
  changes := by simp [State.start, Effects.start]
  ids := rfl
  priors := fun _ => rfl
  fingerprints := fun _ => rfl
  posted := le_refl _
  untouched := fun _ => ⟨rfl, rfl, rfl, rfl, rfl⟩
  touched := fun h => absurd rfl h

section Step

variable {principal : Principal} {store : Store} {s : State} {record : Record}

/-- Nothing is recorded under an id exactly if no row has it. -/
lemma recordedUnder_eq_none {ρ : Type} {id : ρ → Option Str} {rows : List ρ} {key : Option Str} :
    recordedUnder id rows key = none ↔ key ∉ rows.map id := by
  simp [recordedUnder, List.find?_eq_none]

/-- One more row under a new id. -/
lemma recordedUnder_append {ρ ν : Type} {id : ρ → Option Str} {rows : List ρ} {row : ρ}
    {read : ρ → ν} {stored : Option ν} {key : Option Str} (hfresh : id row ∉ rows.map id) :
    ((recordedUnder id (rows ++ [row]) key).map read).or stored =
      if key == id row then some (read row)
      else ((recordedUnder id rows key).map read).or stored := by
  rw [recordedUnder, List.find?_append, ← recordedUnder]
  by_cases hkey : key = id row
  · rw [hkey, recordedUnder_eq_none.mpr hfresh]
    simp
  · have hkey' : ¬id row = key := fun h => hkey h.symm
    simp [hkey, hkey']

/-- The id of a record with a new one is not recorded. -/
lemma Recorded.unspent (h : Recorded principal store s)
    (hfresh : s.store.priors.get record.clientMutationId = none) :
    record.clientMutationId ∉ s.effects.mutationRows.map MutationRow.clientMutationId := by
  rw [h.priors, Option.or_eq_none_iff, Option.map_eq_none_iff] at hfresh
  exact recordedUnder_eq_none.mp hfresh.1

/-- What the rows of a mutation with a new id add to the record. -/
lemma Recorded.spend_rows {t : State} {status : ResultStatus} {revision : Option ℕ}
    {fingerprint : Str} (h : Recorded principal store s)
    (hfresh : s.store.priors.get record.clientMutationId = none)
    (hmutations : t.effects.mutationRows = s.effects.mutationRows ++
      [mutationRow record principal status revision s.deviceId])
    (hfingerprints : t.effects.fingerprintRows = s.effects.fingerprintRows ++
      [⟨principal.organizationId, record.clientMutationId, fingerprint⟩])
    (hpriors : t.store.priors =
      s.store.priors.set record.clientMutationId (priorOf record status revision))
    (hstored : t.store.fingerprints = s.store.fingerprints.set record.clientMutationId fingerprint) :
    (∀ row ∈ t.effects.mutationRows, row.organizationId = principal.organizationId) ∧
      (∀ row ∈ t.effects.fingerprintRows, row.organizationId = principal.organizationId) ∧
      t.effects.fingerprintRows.map FingerprintRow.clientMutationId =
        t.effects.mutationRows.map MutationRow.clientMutationId ∧
      (∀ key, t.store.priors.get key =
        ((recordedUnder MutationRow.clientMutationId t.effects.mutationRows key).map toPrior).or
          (store.priors.get key)) ∧
      ∀ key, t.store.fingerprints.get key =
        ((recordedUnder FingerprintRow.clientMutationId t.effects.fingerprintRows key).map
          FingerprintRow.requestFingerprint).or (store.fingerprints.get key) := by
  have hunspent := h.unspent hfresh
  refine ⟨?_, ?_, ?_, ?_, ?_⟩
  · rw [hmutations]
    exact List.forall_mem_append.mpr ⟨h.mutations, by simp [mutationRow]⟩
  · rw [hfingerprints]
    exact List.forall_mem_append.mpr ⟨h.fingerprintRows, by simp⟩
  · rw [hmutations, hfingerprints, List.map_append, List.map_append, h.ids]
    rfl
  · intro key
    rw [hpriors, hmutations, Table.get_set, recordedUnder_append (by exact hunspent), h.priors]
    rfl
  · intro key
    rw [hstored, hfingerprints, Table.get_set,
      recordedUnder_append (by rw [h.ids]; exact hunspent), h.fingerprints]

/-- The rows that the world of a commit has for an ungranted record. -/
lemma commit_of_ungranted {admitted : Admitted} (fingerprint : Str)
    (h : ∀ t, applyGrant t admitted.authorized = t) :
    let t := commit record principal s admitted fingerprint
    t.effects.membershipGrants = s.effects.membershipGrants ∧
      t.effects.organizationAuthorizationRevision =
        s.effects.organizationAuthorizationRevision ∧
      t.store.world = applyCanonicalEffects
        { s.store.world with
          entities := upsertBy entityKey s.store.world.entities
            (.map (entityRow record principal admitted.payload (nextRevision s))) }
        admitted.authorized := by
  simp only [commit, h]
  exact ⟨rfl, rfl, rfl⟩

/-- The canonical effects leave the entities, the membership and the organization. -/
lemma applyCanonicalEffects_frame (w : World) (authorized : Authorized) :
    (applyCanonicalEffects w authorized).entities = w.entities ∧
      (applyCanonicalEffects w authorized).membership = w.membership ∧
      (applyCanonicalEffects w authorized).organization = w.organization := by
  rw [applyCanonicalEffects_eq]
  induction authorized.upserts generalizing w with
  | nil => exact ⟨rfl, rfl, rfl⟩
  | cons upsert upserts ih =>
    rw [List.foldl_cons]
    obtain ⟨hentities, hmembership, horganization⟩ := ih (applyUpsert w upsert)
    rw [hentities, hmembership, horganization]
    cases upsert <;> exact ⟨rfl, rfl, rfl⟩

/-- A step of the walk keeps the record.

**Proof sketch.** A quiet step changes nothing of it, a refusal adds the rows of the mutation, and a
commit adds those and the rows of the entity. A commit grants nothing, since there is no
membership. -/
lemma Recorded.step {index : ℕ} {s' : State} (h : Recorded principal store s)
    (hstep : walkRecord principal s (record, index) = .ok s') : Recorded principal store s' := by
  obtain ⟨outcome, t, hsettles, rfl⟩ := settles_of_walkRecord hstep
  cases hsettles with
  | quiet _ hwrites hreason => exact { h with }
  | refused fingerprint code revision hpresent hfresh =>
    obtain ⟨hmutations, hfingerprintRows, hids, hpriors, hfingerprints⟩ :=
      h.spend_rows (t := spend record principal s .rejected revision fingerprint) hfresh rfl rfl
        rfl rfl
    exact { h with
      mutations := hmutations
      fingerprintRows := hfingerprintRows
      ids := hids
      priors := hpriors
      fingerprints := hfingerprints
      posted := by
        change _ ≤ (s.effects.mutationRows ++ [_]).length
        rw [List.length_append]
        exact le_trans h.posted (Nat.le_add_right _ _) }
  | accepted fingerprint admitted hpresent hfresh hdecide =>
    obtain ⟨hmutationRows, hrows, hentities, hchanges, hmax, -⟩ :=
      commit_rows record principal s admitted fingerprint
    obtain ⟨hpriorTable, hfingerprintTable⟩ :=
      @commit_priors record principal s admitted fingerprint
    obtain ⟨hmutations, hfingerprintRows, hids, hpriors, hfingerprints⟩ :=
      h.spend_rows hfresh hmutationRows hrows hpriorTable hfingerprintTable
    obtain ⟨hgrants, hrevision, hworld⟩ := @commit_of_ungranted principal s record admitted
      fingerprint (applyGrant_of_admitted h.membership hdecide)
    obtain ⟨hworldEntities, hmembership, horganization⟩ := applyCanonicalEffects_frame
      { s.store.world with
        entities := upsertBy entityKey s.store.world.entities
          (.map (entityRow record principal admitted.payload (nextRevision s))) }
      admitted.authorized
    rw [← hworld] at hworldEntities hmembership horganization
    exact {
      membership := hmembership.trans h.membership
      organization := horganization.trans h.organization
      grants := hgrants.trans h.grants
      revision := hrevision.trans h.revision
      mutations := hmutations
      fingerprintRows := hfingerprintRows
      entities := by
        change ∀ row ∈ (commit record principal s admitted fingerprint).effects.entityUpserts, _
        rw [hentities]
        exact List.forall_mem_append.mpr ⟨h.entities, by simp [entityRow]⟩
      changes := by
        change ∀ row ∈ (commit record principal s admitted fingerprint).effects.changelogRows, _
        rw [hchanges]
        exact List.forall_mem_append.mpr ⟨h.changes, by simp [changelogRow]⟩
      ids := hids
      priors := hpriors
      fingerprints := hfingerprints
      posted := by
        change (commit record principal s admitted fingerprint).effects.entityUpserts.length ≤
          (commit record principal s admitted fingerprint).effects.mutationRows.length
        rw [hentities, hmutationRows, List.length_append, List.length_append]
        exact Nat.add_le_add_right h.posted _
      untouched := by
        intro hempty
        exact absurd (hentities.symm.trans hempty) (by simp)
      touched := by
        intro _ hnone
        exact absurd (hworldEntities.symm.trans hnone) (by simp [upsertBy]) }

/-- **The record of a walk.** The effects of a walk on a store without a membership. -/
theorem recorded_walk {records : List Record} {deviceId : Option Str}
    (hstore : store.world.membership = none)
    (h : walk records deviceId principal store = .ok s) : Recorded principal store s :=
  walk_inv (recorded_start hstore) (fun _ _ _ _ hs hstep => hs.step hstep) h

end Step

end Batch

end VitrialSync.Beam
