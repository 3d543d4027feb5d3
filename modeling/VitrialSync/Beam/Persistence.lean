import VitrialSync.Beam.Statements

set_option relaxedAutoImplicit false
set_option autoImplicit false

/-!
# What is loaded after a push

The store that a walk ended with, and the store that the next push loads from the rows of that walk.
They are the same as long as nothing was accepted: the entities are written but no query of a push
reads them, and the canonical rows are not written.

## Main definitions

* `VitrialSync.Beam.Commits` — a push whose statements were all executed.
* `VitrialSync.Beam.SameStore` — two stores with the same rows, up to their order.
* `VitrialSync.Beam.Reloads` — what is loaded after a push is what its walk ended with.
* `VitrialSync.Beam.AdmitsNothing` — no record of a batch is admitted on the store that was loaded.

## Main results

* `VitrialSync.Beam.upserts_eq_nil_iff` — a walk accepts nothing exactly if no record is admitted
  before the first one.
* `VitrialSync.Beam.reloads_iff` — a push is reloaded exactly if it admits nothing.
-/

namespace VitrialSync.Beam

open Python Program
open Batch

/-! ### Pushes that commit -/

/-- The walk of a push on the store that its queries brought. -/
structure Walks (p : Push) (d : Database) (store : Store) (s : State) : Prop where
  loaded : (p.load d).store p.principal.organizationId = .ok store
  capable : p.principal.holds .sync = true
  organization : store.world.organization.isSome = true
  walked : walk p.records p.deviceId p.principal store = .ok s

/-- A push whose statements were all executed: its walk, and the database after them. -/
structure Commits (p : Push) (d : Database) (store : Store) (s : State) (d' : Database) : Prop
    extends Walks p d store s where
  written : ∃ statements, p.statements (runOf p.records s) = .ok statements ∧
    applyAll statements d = some d'

/-- A run of a push comes from a walk. -/
lemma walks_of_decide {p : Push} {d : Database} {run : Batch.Run}
    (h : p.decide (p.load d) = .ok (.ok run)) :
    ∃ store s, Walks p d store s ∧ run = runOf p.records s := by
  obtain ⟨store, hstore, hrun⟩ := bind_eq_ok.mp h
  unfold Batch.run at hrun
  split_ifs at hrun with hcapable horganization
  · cases hrun
  · cases hrun
  · obtain ⟨s, hwalk, hs⟩ := bind_eq_ok.mp hrun
    cases hs
    refine ⟨store, s, ⟨hstore, by simpa using hcapable, ?_, hwalk⟩, rfl⟩
    exact Option.isSome_iff_ne_none.mpr fun hnone => horganization (by rw [hnone]; rfl)

/-- A walk of a push gives its run. -/
lemma Walks.decide {p : Push} {d : Database} {store : Store} {s : State} (h : Walks p d store s) :
    p.decide (p.load d) = .ok (.ok (runOf p.records s)) := by
  have horganization : store.world.organization.isNone = false := by
    simpa using h.organization
  rw [Push.decide, h.loaded, ok_bind, Batch.run, h.capable, horganization, h.walked]
  rfl

/-- The answer to a push has the effects of its run. -/
lemma effects_of_answer {p : Push} {d : Database} {run run' : Batch.Run}
    (h : p.answer run d = .pushed run') : run'.effects = run.effects := by
  unfold Push.answer at h
  split at h
  · rename_i finished hfinish
    simp only [Batch.finish, bind_eq_ok, pure_eq_ok] at hfinish
    obtain ⟨_, -, _, -, rfl⟩ := hfinish
    cases h
    rfl
  · cases h

/-- A push that was answered without a fault committed. -/
lemma commits_of_pushed {p : Push} {d d' : Database} {run : Batch.Run}
    (h : p.run .none d = (.pushed run, d')) :
    ∃ store s, Commits p d store s d' ∧ run.effects = s.effects := by
  unfold Push.run at h
  simp only [Faults.none, Bool.false_eq_true, ↓reduceIte] at h
  split at h
  · cases h
  · cases h
  · rename_i decided hdecide
    obtain ⟨store, s, hwalks, rfl⟩ := walks_of_decide hdecide
    refine ⟨store, s, ?_⟩
    simp only [Push.write, Bool.false_eq_true, ↓reduceIte, Bool.not_false, Bool.and_true] at h
    split at h
    · cases h
    · rename_i statements hstatements
      split_ifs at h with hserved
      · obtain ⟨hanswer, hwritten⟩ := Prod.ext_iff.mp h
        refine ⟨⟨hwalks, statements, hstatements, applyEffects_served.mp ?_⟩,
          effects_of_answer hanswer⟩
        exact Prod.ext_iff.mpr ⟨hserved, hwritten⟩
      · cases h

/-! ### Reloading -/

/-- Two stores with the same rows, up to their order. The rows of the mutations are compared under
the ids that are looked up. -/
structure SameStore (ids : List Str) (a b : Store) : Prop where
  priors : ∀ id ∈ ids, a.priors.get (some id) = b.priors.get (some id)
  fingerprints : ∀ id ∈ ids, a.fingerprints.get (some id) = b.fingerprints.get (some id)
  customers : a.world.customers.Perm b.world.customers
  projects : a.world.projects.Perm b.world.projects
  projectSectors : a.world.projectSectors.Perm b.world.projectSectors
  items : a.world.items.Perm b.world.items
  itemChildren : a.world.itemChildren.Perm b.world.itemChildren
  projectChildren : a.world.projectChildren.Perm b.world.projectChildren
  entities : (a.world.entities.map StoredEntity.loaded).Perm
    (b.world.entities.map StoredEntity.loaded)
  evidenceBlobs : a.world.evidenceBlobs.Perm b.world.evidenceBlobs
  membership : a.world.membership = b.world.membership
  organization : a.world.organization = b.world.organization
  maxRevision : a.maxRevision = b.maxRevision

/-- Stores with the same world have the same rows of it. -/
lemma SameStore.of_world {ids : List Str} {a b : Store}
    (priors : ∀ id ∈ ids, a.priors.get (some id) = b.priors.get (some id))
    (fingerprints : ∀ id ∈ ids, a.fingerprints.get (some id) = b.fingerprints.get (some id))
    (world : a.world = b.world) (maxRevision : a.maxRevision = b.maxRevision) :
    SameStore ids a b where
  priors := priors
  fingerprints := fingerprints
  customers := world ▸ .refl _
  projects := world ▸ .refl _
  projectSectors := world ▸ .refl _
  items := world ▸ .refl _
  itemChildren := world ▸ .refl _
  projectChildren := world ▸ .refl _
  entities := world ▸ .refl _
  evidenceBlobs := world ▸ .refl _
  membership := world ▸ rfl
  organization := world ▸ rfl
  maxRevision := maxRevision

/-- What is loaded after a push is what its walk ended with. -/
def Reloads (p : Push) (s : State) (d' : Database) : Prop :=
  ∃ store', (p.load d').store p.principal.organizationId = .ok store' ∧
    SameStore (lookedUp p.records) store' s.next

/-- No record of a batch is admitted on the store that was loaded, the later ones of a mutation id
apart. -/
def AdmitsNothing (p : Push) (store : Store) : Prop :=
  ∀ done x rest, Batch.sortedRecords p.records = done ++ x :: rest →
    (∀ r ∈ done, r.1.clientMutationId ≠ x.1.clientMutationId) →
    ∀ admitted, decideRecord (.start p.deviceId p.principal store) x.1 p.principal ≠
      .ok (.admitted admitted)

/-! ### Before the first acceptance -/

namespace Batch

section First

variable {principal : Principal} {deviceId : Option Str} {store : Store} {s s' : State}
  {record : Record} {index : ℕ} {done : List (Record × ℕ)}

/-- A record with a mutation id that is new writes its rows. -/
lemma settle_writes {context : Admission.Context} {outcome : Admission.Outcome}
    (hpresent : Admission.missingId record = false) (hprior : context.prior = none)
    (h : Admission.settle record context = .ok outcome) : outcome.writesMutationRow = true := by
  unfold Admission.settle at h
  rw [hpresent, if_neg Bool.false_ne_true, hprior, Except.ok.injEq] at h
  rw [← h, Admission.stepRevisionGuard]
  split
  · rfl
  · split <;> rfl

/-- After its step a record with a mutation id has a prior. -/
lemma prior_of_walkRecord (hpresent : Admission.missingId record = false)
    (h : walkRecord principal s (record, index) = .ok s') :
    s'.store.priors.get record.clientMutationId ≠ none := by
  rw [walkRecord_eq] at h
  obtain ⟨decision, hdecide, h⟩ := bind_eq_ok.mp h
  have hmap : ∀ {f : Str → State}, record.fingerprint.map f = .ok s' →
      ∃ fingerprint, f fingerprint = s' := by
    intro f hf
    cases hfingerprint : record.fingerprint with
    | error e =>
      rw [hfingerprint] at hf
      cases hf
    | ok fingerprint =>
      rw [hfingerprint] at hf
      exact ⟨fingerprint, Except.ok.inj hf⟩
  cases decision with
  | settled outcome =>
    by_cases hwrites : outcome.writesMutationRow = true
    · simp only [hwrites, ↓reduceIte] at h
      obtain ⟨fingerprint, rfl⟩ := hmap h
      simp [recordOutcome, spend]
    · -- nothing is written, so the id was spent before
      simp only [hwrites, Bool.false_eq_true, ↓reduceIte, Except.ok.injEq] at h
      obtain ⟨outcome', hsettle, hrest⟩ := bind_eq_ok.mp hdecide
      intro hnone
      have hprior : (contextOf s.store record).prior = none := by
        rw [← h] at hnone
        exact hnone
      have hwrites' := settle_writes hpresent hprior hsettle
      split at hrest
      · exact absurd hrest ofAuthority_ne_settled
      · cases hrest
        exact hwrites hwrites'
  | rejected code =>
    obtain ⟨revision, -, h⟩ := bind_eq_ok.mp h
    obtain ⟨fingerprint, rfl⟩ := hmap h
    simp [recordOutcome, spend]
  | admitted admitted =>
    obtain ⟨fingerprint, rfl⟩ := hmap h
    simp [recordOutcome, (commit_priors s admitted fingerprint).1]

/-- What a record adds to the mutations: nothing, or a row under its id. -/
lemma Settles.mutations {outcome : Admission.Outcome} {t : State}
    (h : Settles principal s record outcome t) :
    (t.effects.mutationRows = s.effects.mutationRows ∧ t.store.priors = s.store.priors) ∨
      ∃ row prior, row.clientMutationId = record.clientMutationId ∧
        t.effects.mutationRows = s.effects.mutationRows ++ [row] ∧
          t.store.priors = s.store.priors.set record.clientMutationId prior := by
  cases h with
  | quiet _ hwrites hreason => exact Or.inl ⟨rfl, rfl⟩
  | refused fingerprint code revision hpresent hfresh => exact Or.inr ⟨_, _, rfl, rfl, rfl⟩
  | accepted fingerprint admitted hpresent hfresh hdecide =>
    obtain ⟨hrows, -⟩ := commit_rows record principal s admitted fingerprint
    exact Or.inr ⟨_, _, rfl, hrows, (commit_priors s admitted fingerprint).1⟩

/-- The ids that are recorded are those of records that were decided, and a record that was decided
has a prior. -/
structure Decided (done : List (Record × ℕ)) (s : State) : Prop where
  recorded : ∀ id ∈ s.effects.mutationRows.map MutationRow.clientMutationId,
    ∃ r ∈ done, r.1.clientMutationId = id
  prior : ∀ r ∈ done, Admission.missingId r.1 = false →
    s.store.priors.get r.1.clientMutationId ≠ none

/-- A step decides one more record. -/
lemma Decided.step (h : Decided done s) (hstep : walkRecord principal s (record, index) = .ok s') :
    Decided (done ++ [(record, index)]) s' := by
  have hlast : ∀ r ∈ [(record, index)], Admission.missingId r.1 = false →
      s'.store.priors.get r.1.clientMutationId ≠ none := by
    intro r hr hpresent
    cases List.mem_singleton.mp hr
    exact prior_of_walkRecord hpresent hstep
  obtain ⟨outcome, t, hsettles, rfl⟩ := settles_of_walkRecord hstep
  have hold : ∀ id ∈ s.effects.mutationRows.map MutationRow.clientMutationId,
      ∃ r ∈ done ++ [(record, index)], r.1.clientMutationId = id := by
    intro id hid
    obtain ⟨r, hr, hrid⟩ := h.recorded id hid
    exact ⟨r, List.mem_append_left _ hr, hrid⟩
  rcases hsettles.mutations with ⟨hrows, hpriors⟩ | ⟨row, prior, hrow, hrows, hpriors⟩
  · refine ⟨?_, List.forall_mem_append.mpr ⟨?_, hlast⟩⟩
    · change ∀ id ∈ t.effects.mutationRows.map MutationRow.clientMutationId, _
      rw [hrows]
      exact hold
    · change ∀ r ∈ done, _ → t.store.priors.get r.1.clientMutationId ≠ none
      rw [hpriors]
      exact h.prior
  · refine ⟨?_, List.forall_mem_append.mpr ⟨?_, hlast⟩⟩
    · change ∀ id ∈ t.effects.mutationRows.map MutationRow.clientMutationId, _
      rw [hrows, List.map_append, List.forall_mem_append, List.map_singleton,
        List.forall_mem_singleton]
      exact ⟨hold, _, List.mem_append_right _ List.mem_cons_self, hrow.symm⟩
    · change ∀ r ∈ done, _ → t.store.priors.get r.1.clientMutationId ≠ none
      intro r hr hpresent
      rw [hpriors, Table.get_set]
      split_ifs
      · simp
      · exact h.prior r hr hpresent

/-- The records before the first acceptance leave the store of the queries, the ids that they spent
apart; so a record with another id is decided as on that store. -/
lemma decideRecord_first (h : Recorded principal store s) (hdecided : Decided done s)
    (hempty : s.effects.entityUpserts = [])
    (hfirst : ∀ r ∈ done, r.1.clientMutationId ≠ record.clientMutationId) :
    decideRecord s record principal =
      decideRecord (.start deviceId principal store) record principal := by
  obtain ⟨hworld, -, hscope, -, -⟩ := h.untouched hempty
  have hnotin : record.clientMutationId ∉
      s.effects.mutationRows.map MutationRow.clientMutationId := by
    intro hmem
    obtain ⟨r, hr, hid⟩ := hdecided.recorded _ hmem
    exact hfirst r hr hid
  have hpriors : s.store.priors.get record.clientMutationId =
      store.priors.get record.clientMutationId := by
    rw [h.priors, recordedUnder_eq_none.mpr hnotin]
    rfl
  have hfingerprints : s.store.fingerprints.get record.clientMutationId =
      store.fingerprints.get record.clientMutationId := by
    rw [h.fingerprints, recordedUnder_eq_none.mpr (by rw [h.ids]; exact hnotin)]
    rfl
  simp only [decideRecord, contextOf, currentEntity, State.start, hworld, hscope, hpriors,
    hfingerprints]

/-- The entities of a walk are kept. -/
lemma upserts_of_rest {rest : List (Record × ℕ)}
    (h : rest.foldlM (walkRecord principal) s = .ok s') (hempty : s'.effects.entityUpserts = []) :
    s.effects.entityUpserts = [] := by
  by_contra hne
  refine absurd hempty (foldlM_inv (P := fun t => t.effects.entityUpserts ≠ []) ?_ hne h)
  rintro t ⟨record, index⟩ t' ht hstep
  obtain ⟨outcome, u, hsettles, rfl⟩ := settles_of_walkRecord hstep
  cases hsettles with
  | quiet _ _ _ => exact ht
  | refused _ _ _ _ _ => exact ht
  | accepted fingerprint admitted hpresent hfresh hdecide =>
    obtain ⟨-, -, hentities, -⟩ := commit_rows record principal t admitted fingerprint
    change (commit record principal t admitted fingerprint).effects.entityUpserts ≠ []
    rw [hentities]
    simp

end First

end Batch

/-- **The first acceptance.** A walk accepts nothing exactly if no record is admitted on the store
that it began with, the later ones of a mutation id apart.

**Proof sketch.** As long as nothing was accepted, a record whose id is new is decided as on that
store. A later record with an id finds the id spent. -/
theorem upserts_eq_nil_iff {p : Push} {store : Store} {s : State}
    (hmembership : store.world.membership = none)
    (hwalk : walk p.records p.deviceId p.principal store = .ok s) :
    s.effects.entityUpserts = [] ↔ AdmitsNothing p store := by
  constructor
  · rintro hempty done ⟨record, index⟩ rest hsplit hfirst admitted hadmitted
    rw [walk, hsplit, foldlM_split] at hwalk
    obtain ⟨c, c', hdone, hstep, hrest⟩ := hwalk
    have hrecorded : Recorded p.principal store c :=
      foldlM_inv (fun _ _ _ hs hstep => Recorded.step hs hstep) (recorded_start hmembership) hdone
    have hdecided : Batch.Decided done c :=
      foldlM_inv_done (fun _ _ _ _ _ _ hs hstep => Batch.Decided.step hs hstep)
        ⟨by simp [State.start, Effects.start], by simp⟩ hdone
    have hafter := Batch.upserts_of_rest hrest hempty
    have hone : [(record, index)].foldlM (walkRecord p.principal) c = .ok c' := by
      rw [List.foldlM_cons, hstep]
      rfl
    have hbefore := Batch.upserts_of_rest hone hafter
    rw [← decideRecord_first hrecorded hdecided hbefore hfirst] at hadmitted
    obtain ⟨fingerprint, rfl⟩ := walkRecord_admitted hadmitted hstep
    obtain ⟨-, -, hentities, -⟩ := commit_rows record p.principal c admitted fingerprint
    exact absurd (hentities.symm.trans hafter) (by simp)
  · intro hnothing
    have hinv : s.effects.entityUpserts = [] ∧ Recorded p.principal store s ∧
        Batch.Decided (Batch.sortedRecords p.records) s := by
      refine foldlM_inv_done (P := fun done c => c.effects.entityUpserts = [] ∧
        Recorded p.principal store c ∧ Batch.Decided done c) ?_ ?_ hwalk
      · rintro done ⟨record, index⟩ rest c c' hsplit ⟨hempty, hrecorded, hdecided⟩ hstep
        refine ⟨?_, hrecorded.step hstep, hdecided.step hstep⟩
        obtain ⟨outcome, t, hsettles, rfl⟩ := settles_of_walkRecord hstep
        cases hsettles with
        | quiet _ _ _ => exact hempty
        | refused _ _ _ _ _ => exact hempty
        | accepted fingerprint admitted hpresent hfresh hdecide =>
          have hfirst : ∀ r ∈ done, r.1.clientMutationId ≠ record.clientMutationId := by
            intro r hr hid
            refine hdecided.prior r hr ?_ (hid ▸ hfresh)
            rw [Admission.missingId, hid]
            exact hpresent
          rw [Batch.decideRecord_first hrecorded hdecided hempty hfirst] at hdecide
          exact absurd hdecide (hnothing done _ rest hsplit hfirst admitted)
      · exact ⟨rfl, recorded_start hmembership, by simp [State.start, Effects.start], by simp⟩
    exact hinv.1

/-! ### After a batch that accepted nothing -/

section Reload

variable {p : Push} {d d' : Database} {store : Store} {s : State}

/-- A loaded store has no membership. -/
lemma Walks.membership (h : Walks p d store s) : store.world.membership = none := by
  rw [((load_store d _).mp h.loaded).2]
  rfl

/-- The effects of the walk of a push. -/
lemma Walks.recorded (h : Walks p d store s) : Recorded p.principal store s :=
  recorded_walk h.membership h.walked

/-- The organization of a loaded store has the revision of its row. -/
lemma Walks.revision (h : Walks p d store s) :
    ∀ row, d.organizations.get p.principal.organizationId = some row →
      row.authorizationRevision = s.effects.organizationAuthorizationRevision := by
  intro row hrow
  rw [h.recorded.revision, entryRevision, ((load_store d _).mp h.loaded).2]
  simp [loadedTables, Database.organizationStruct, hrow]

/-- The database after a batch that accepted nothing: the rows of the mutations are added. -/
lemma Commits.mutations (h : Commits p d store s d') (hempty : s.effects.entityUpserts = []) :
    ∃ mutations fingerprints, d' = { d with mutations, fingerprints } ∧
      (∀ id, mutations.get (p.principal.organizationId, id) =
        (recordedUnder MutationRow.clientMutationId s.effects.mutationRows (some id)).or
          (d.mutations.get (p.principal.organizationId, id))) ∧
      ∀ id, fingerprints.get (p.principal.organizationId, id) =
        ((recordedUnder FingerprintRow.clientMutationId s.effects.fingerprintRows (some id)).map
          FingerprintRow.requestFingerprint).or
            (d.fingerprints.get (p.principal.organizationId, id)) := by
  obtain ⟨statements, hstatements, hwritten⟩ := h.written
  have hrecorded := h.recorded
  have hdistinct := (bookkept_walk h.walked).distinct
  obtain ⟨-, -, -, hchanges, hgc⟩ := hrecorded.untouched hempty
  have hlist : statements = s.effects.mutationRows.map .mutationInsert ++
      (s.effects.fingerprintRows.map .fingerprintInsert ++
        Writes.revisionUpdate s.effects.organizationAuthorizationRevision
          p.principal.organizationId) := by
    simp only [Push.statements, Writes.effects, runOf, hempty, hchanges, hgc, hrecorded.grants,
      List.mapM_nil, pure_bind, List.map_nil, List.nil_append] at hstatements
    exact (Except.ok.inj hstatements).symm
  rw [hlist, applyAll_append] at hwritten
  obtain ⟨d₁, hmutations, hwritten⟩ := hwritten
  obtain ⟨d₂, hfingerprints, hrevision⟩ := applyAll_append.mp hwritten
  obtain ⟨mutations, rfl, hget⟩ := applyAll_mutationInserts hrecorded.mutations hdistinct hmutations
  obtain ⟨fingerprints, rfl, hget'⟩ := applyAll_fingerprintInserts hrecorded.fingerprintRows
    (by rw [hrecorded.ids]; exact hdistinct) hfingerprints
  have hidle : applyAll (Writes.revisionUpdate s.effects.organizationAuthorizationRevision
      p.principal.organizationId) { d with mutations, fingerprints } =
        some { d with mutations, fingerprints } :=
    applyAll_idle (Statement.revisionUpdate_idle h.toWalks.revision)
  exact ⟨mutations, fingerprints, Option.some.inj (hrevision.symm.trans hidle), hget, hget'⟩

/-- After a batch that accepted nothing the store that the walk ended with is loaded. -/
lemma Commits.reloads (h : Commits p d store s d') (hempty : s.effects.entityUpserts = []) :
    Reloads p s d' := by
  obtain ⟨mutations, fingerprints, rfl, hmutations, hfingerprints⟩ := h.mutations hempty
  have hrecorded := h.recorded
  obtain ⟨hworld, hmax, -, -, -⟩ := hrecorded.untouched hempty
  obtain ⟨hmembership, hstore⟩ := (load_store d _).mp h.loaded
  refine ⟨_, (load_store _ _).mpr ⟨hmembership, rfl⟩, ?_⟩
  have htables : s.store.world = loadedTables d p.principal.organizationId := by
    rw [hworld, hstore]
  have hpriors : ∀ id ∈ lookedUp p.records,
      (load { d with mutations, fingerprints } p.records p.principal.organizationId).priors.get
        (some id) = s.store.priors.get (some id) := by
    intro id hid
    have hprior : store.priors.get (some id) =
        (d.mutations.get (p.principal.organizationId, id)).map toPrior := by
      rw [hstore]
      exact load_priors d _ _ hid
    rw [load_priors _ _ _ hid, hmutations, hrecorded.priors, hprior, Option.map_or]
  have hfingerprint : ∀ id ∈ lookedUp p.records,
      (load { d with mutations, fingerprints } p.records
        p.principal.organizationId).fingerprints.get (some id) =
        s.store.fingerprints.get (some id) := by
    intro id hid
    have hstored : store.fingerprints.get (some id) =
        d.fingerprints.get (p.principal.organizationId, id) := by
      rw [hstore]
      exact load_fingerprints d _ _ hid
    rw [load_fingerprints _ _ _ hid, hfingerprints, hrecorded.fingerprints, hstored]
  have horganization : d.organizationStruct p.principal.organizationId =
      (d.organizationStruct p.principal.organizationId).map fun _ =>
        ⟨s.effects.organizationAuthorizationRevision⟩ := by
    rw [Database.organizationStruct]
    cases hget : d.organizations.get p.principal.organizationId with
    | none => rfl
    | some row =>
      rw [← h.toWalks.revision row hget]
      rfl
  have hworldNext : loadedTables d p.principal.organizationId = s.next.world := by
    simp only [State.next, loadedWorld, htables]
    exact congrArg (fun o => { loadedTables d p.principal.organizationId with organization := o })
      horganization
  have hmaxNext : d.maxSequence p.principal.organizationId = s.next.maxRevision := by
    change _ = s.store.maxRevision
    rw [hmax, hstore]
  exact .of_world hpriors hfingerprint hworldNext hmaxNext

/-- A store that is loaded has no entity, so the walk ended with none. -/
lemma Reloads.entities (h : Reloads p s d') : s.store.world.entities = [] := by
  obtain ⟨store', hstore', hsame⟩ := h
  have hentities := hsame.entities
  rw [((load_store _ _).mp hstore').2] at hentities
  have hnone : (loadedWorld s.store.world
      s.effects.organizationAuthorizationRevision).entities.map StoredEntity.loaded = [] :=
    List.nil_perm.mp hentities
  simpa only [loadedWorld, List.map_eq_nil_iff] using hnone

/-- **Reloading.** A push that commits is followed by a load of the store that its walk ended with
exactly if the store that it loaded admits none of its records.

**Proof sketch.** An accepted record leaves an entity in the world of the walk, and the loaded world
has none. Without one the statements write the rows of the mutations, which are loaded under their
ids, and the revision of the organization as it was. -/
theorem reloads_iff (h : Commits p d store s d') : Reloads p s d' ↔ AdmitsNothing p store := by
  rw [← upserts_eq_nil_iff h.toWalks.membership h.walked]
  constructor
  · intro hreloads
    by_contra hne
    exact h.toWalks.recorded.touched hne hreloads.entities
  · exact h.reloads

end Reload

/-! ### Samples -/

/-- The run of a push that was answered. -/
def Answer.run? : Answer → Option Batch.Run
  | .pushed finished => some finished
  | _ => none

/-- A push that was answered, from a fact about its run. -/
lemma pushed_of_run? {p : Push} {d : Database} {α : Type} {f : Batch.Run → α} {a : α}
    (h : (p.run .none d).1.run?.map f = some a) :
    ∃ run d', p.run .none d = (.pushed run, d') ∧ f run = a := by
  obtain ⟨run, hrun, hf⟩ := Option.map_eq_some_iff.mp h
  refine ⟨run, (p.run .none d).2, ?_, hf⟩
  rw [Prod.ext_iff]
  refine ⟨?_, rfl⟩
  cases hanswer : (p.run .none d).1 with
  | pushed run' =>
    rw [hanswer] at hrun
    cases hrun
    rfl
  | denied denial =>
    rw [hanswer] at hrun
    cases hrun
  | failed =>
    rw [hanswer] at hrun
    cases hrun
  | raised exception =>
    rw [hanswer] at hrun
    cases hrun

namespace Sample

/-- The database of an organization with a member and a customer. -/
def database : Database where
  organizations := Table.empty.set "o" ⟨1⟩
  memberships := Table.empty.set "m" ⟨"o", "u", true, true, true, [], []⟩
  customers := Table.empty.set ("o", "c") ⟨none⟩
  projects := .empty
  projectSectors := .empty
  items := .empty
  projectChildren := .empty
  itemChildren := .empty
  entities := .empty
  mutations := .empty
  fingerprints := .empty
  changeLog := []
  lastSequence := 0
  evidenceGc := []

/-- A push of the sample principal. -/
def push (records : List Record) : Push := ⟨VitrialSync.Sample.principal, some "d", records, 0⟩

/-- An update of the sample customer from a revision that it does not have. -/
def staleCustomer : Record := record .customer "c" "1" (some 7) [("id", .str "c")]

end Sample

/-- A refused update of the customer is reloaded. -/
theorem reloads_iff_stale :
    ∃ store s d', Commits (Sample.push [Sample.staleCustomer]) Sample.database store s d' ∧
      (Reloads (Sample.push [Sample.staleCustomer]) s d' ↔
        AdmitsNothing (Sample.push [Sample.staleCustomer]) store) := by
  have hrun : ((Sample.push [Sample.staleCustomer]).run .none Sample.database).1.run?.map
      (fun run => run.effects.mutationRows.length) = some 1 := by
    decide +kernel
  obtain ⟨run, d', hpushed, -⟩ := pushed_of_run? hrun
  obtain ⟨store, s, hcommits, -⟩ := commits_of_pushed hpushed
  exact ⟨store, s, d', hcommits, reloads_iff hcommits⟩

/-- An accepted update of the customer is not: its entity is written, and no query reads it. -/
theorem not_reloads_customer :
    ∃ store s d', Commits (Sample.push [Sample.customer]) Sample.database store s d' ∧
      ¬Reloads (Sample.push [Sample.customer]) s d' := by
  have hrun : ((Sample.push [Sample.customer]).run .none Sample.database).1.run?.map
      (fun run => run.effects.entityUpserts.length) = some 1 := by
    decide +kernel
  obtain ⟨run, d', hpushed, hlength⟩ := pushed_of_run? hrun
  obtain ⟨store, s, hcommits, heffects⟩ := commits_of_pushed hpushed
  refine ⟨store, s, d', hcommits, fun hreloads => ?_⟩
  refine hcommits.toWalks.recorded.touched ?_ hreloads.entities
  rw [← heffects]
  exact List.ne_nil_of_length_eq_add_one hlength

end VitrialSync.Beam
