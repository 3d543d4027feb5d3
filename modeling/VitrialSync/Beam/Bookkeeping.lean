import Mathlib.Data.List.Sort
import VitrialSync.Beam.Steps

set_option relaxedAutoImplicit false
set_option autoImplicit false

/-!
# The bookkeeping of a batch

What `Batch.run/4` reports of a batch and the rows it gives to write agree: every record has its
outcome, a mutation id is spent once, the rows of the accepted records carry consecutive revisions,
and a record that is not committed moves nothing.

## Main definitions

* `VitrialSync.Beam.Batch.freshRecords` — the accepted records that are no replays, in the order of
  processing.
* `VitrialSync.Beam.Batch.Ledger` — their rows.
* `VitrialSync.Beam.Batch.Bookkept` — the bookkeeping of a run.
* `VitrialSync.Beam.Batch.Unmoved` — what a record that is not committed leaves.

## Main results

* `VitrialSync.Beam.Batch.bookkept_walk` — the bookkeeping holds at the end of every walk.
* `VitrialSync.Beam.Batch.run_bookkeeping` — it holds of every run, with its steps and its answer.
-/

namespace VitrialSync.Beam.Batch

open Python Program

/-! ### The order of processing -/

/-- The sorted records are the records with their positions. -/
lemma sortedRecords_perm (records : List Record) :
    (sortedRecords records).Perm records.zipIdx :=
  List.perm_insertionSort precedes records.zipIdx

/-- The positions of the sorted records are those of the batch. -/
lemma mem_positions {records : List Record} {index : ℕ} :
    index ∈ (sortedRecords records).map Prod.snd ↔ index < records.length := by
  rw [((sortedRecords_perm records).map Prod.snd).mem_iff, List.zipIdx_map_snd, List.mem_range']
  simp

/-- No position comes twice. -/
lemma nodup_positions (records : List Record) :
    ((sortedRecords records).map Prod.snd).Nodup := by
  rw [((sortedRecords_perm records).map Prod.snd).nodup_iff, List.zipIdx_map_snd]
  exact List.nodup_range'

/-- The position of a record is not among those before it. -/
lemma position_notMem {records : List Record} {done rest : List (Record × ℕ)} {x : Record × ℕ}
    (h : sortedRecords records = done ++ x :: rest) : x.2 ∉ done.map Prod.snd := by
  have hnodup := nodup_positions records
  rw [h, List.map_append, List.map_cons, List.nodup_append] at hnodup
  intro hmem
  exact hnodup.2.2 _ hmem _ List.mem_cons_self rfl

/-! ### The rows of the accepted records -/

/-- Whether the record at a position was accepted and is no replay. -/
def freshAt (results : Table ℕ Admission.Outcome) (index : ℕ) : Bool :=
  (results.get index).any fun o => o.status == .accepted && o.reason == .committed

/-- The accepted records that are no replays, in the order of processing. -/
def freshRecords (records : List Record) (results : Table ℕ Admission.Outcome) :
    List (Record × ℕ) :=
  (sortedRecords records).filter fun r => freshAt results r.2

/-- The rows of the accepted records: the `k`-th of them has the `k`-th row and the `k`-th change,
under the `k`-th revision after `maxRevision`, which is also the revision of its outcome. -/
structure Ledger (principal : Principal) (maxRevision : ℕ) (results : Table ℕ Admission.Outcome)
    (fresh : List (Record × ℕ)) (effects : Effects) : Prop where
  entities : effects.entityUpserts.length = fresh.length
  changes : effects.changelogRows.length = fresh.length
  posted : ∀ k record index, fresh[k]? = some (record, index) → ∃ payload,
    results.get index =
        some ⟨.accepted, .committed, some (maxRevision + 1 + k), true, some payload⟩ ∧
      effects.entityUpserts[k]? =
        some (entityRow record principal payload (maxRevision + 1 + k)) ∧
      effects.changelogRows[k]? = some (changelogRow record principal (maxRevision + 1 + k))

/-- The bookkeeping of a run. -/
structure Bookkept (records : List Record) (principal : Principal) (store : Store)
    (results : Table ℕ Admission.Outcome) (effects : Effects) : Prop where
  /-- Every record of the batch has its outcome. -/
  outcomes : ∀ index, (results.get index).isSome = true ↔ index < records.length
  /-- A mutation id is spent once. -/
  distinct : (effects.mutationRows.map MutationRow.clientMutationId).Nodup
  /-- No mutation id was spent before. -/
  unspent : ∀ row ∈ effects.mutationRows, store.priors.get row.clientMutationId = none
  /-- Every mutation has its fingerprint. -/
  fingerprints : effects.fingerprintRows.map FingerprintRow.clientMutationId =
    effects.mutationRows.map MutationRow.clientMutationId
  /-- The accepted records have their rows. -/
  ledger : Ledger principal store.maxRevision results (freshRecords records results) effects
  /-- The organization moves on by one for each grant. -/
  grants : effects.organizationAuthorizationRevision =
    entryRevision store + effects.membershipGrants.length

/-! ### The invariant of the walk -/

/-- What the walk keeps after the records `done`. -/
structure Walked (principal : Principal) (store : Store) (done : List (Record × ℕ)) (s : State) :
    Prop where
  outcomes : ∀ index, (s.results.get index).isSome = true ↔ index ∈ done.map Prod.snd
  distinct : (s.effects.mutationRows.map MutationRow.clientMutationId).Nodup
  unspent : ∀ row ∈ s.effects.mutationRows, store.priors.get row.clientMutationId = none
  spent : ∀ id, s.store.priors.get id = none →
    id ∉ s.effects.mutationRows.map MutationRow.clientMutationId ∧ store.priors.get id = none
  fingerprints : s.effects.fingerprintRows.map FingerprintRow.clientMutationId =
    s.effects.mutationRows.map MutationRow.clientMutationId
  ledger : Ledger principal store.maxRevision s.results
    (done.filter fun r => freshAt s.results r.2) s.effects
  revisions : s.store.maxRevision = store.maxRevision + s.effects.entityUpserts.length
  grants : s.effects.organizationAuthorizationRevision =
    entryRevision store + s.effects.membershipGrants.length

/-- The walk begins with nothing written. -/
lemma walked_start (deviceId : Option Str) (principal : Principal) (store : Store) :
    Walked principal store [] (.start deviceId principal store) where
  outcomes := by simp [State.start]
  distinct := List.nodup_nil
  unspent := by simp [State.start, Effects.start]
  spent := by
    intro id hid
    exact ⟨List.not_mem_nil, hid⟩
  fingerprints := rfl
  ledger := ⟨rfl, rfl, by simp⟩
  revisions := rfl
  grants := (add_zero _).symm

section Results

variable {results : Table ℕ Admission.Outcome} {done : List (Record × ℕ)} {record : Record}
  {index : ℕ} {o : Admission.Outcome}

/-- The outcomes after one more record. -/
lemma isSome_set_iff (h : ∀ j, (results.get j).isSome = true ↔ j ∈ done.map Prod.snd) (j : ℕ) :
    ((results.set index o).get j).isSome = true ↔ j ∈ (done ++ [(record, index)]).map Prod.snd := by
  rw [Table.get_set, List.map_append, List.mem_append, ← h j]
  by_cases hj : j = index <;> simp [hj]

/-- The accepted records after one more record. -/
lemma fresh_set (hnew : index ∉ done.map Prod.snd) :
    ((done ++ [(record, index)]).filter fun r => freshAt (results.set index o) r.2) =
      (done.filter fun r => freshAt results r.2) ++
        if o.status == .accepted && o.reason == .committed then [(record, index)] else [] := by
  have hold : ∀ r ∈ done, freshAt (results.set index o) r.2 = freshAt results r.2 := by
    intro r hr
    have hne : r.2 ≠ index := by
      rintro rfl
      exact hnew (List.mem_map_of_mem hr)
    rw [freshAt, freshAt, Table.get_set_of_ne _ _ hne]
  rw [List.filter_append, List.filter_congr hold]
  simp [freshAt, List.filter_cons]

/-- The rows of the accepted records stay when a record is noted that is not one of them. -/
lemma Ledger.note {principal : Principal} {maxRevision : ℕ} {effects effects' : Effects}
    (h : Ledger principal maxRevision results (done.filter fun r => freshAt results r.2) effects)
    (hnew : index ∉ done.map Prod.snd)
    (ho : (o.status == .accepted && o.reason == .committed) = false)
    (hentities : effects'.entityUpserts = effects.entityUpserts)
    (hchanges : effects'.changelogRows = effects.changelogRows) :
    Ledger principal maxRevision (results.set index o)
      ((done ++ [(record, index)]).filter fun r => freshAt (results.set index o) r.2) effects' := by
  rw [fresh_set hnew, ho, if_neg Bool.false_ne_true, List.append_nil]
  refine ⟨hentities ▸ h.entities, hchanges ▸ h.changes, ?_⟩
  intro k r i hk
  have hne : i ≠ index := by
    rintro rfl
    exact hnew (List.mem_map_of_mem (List.mem_of_mem_filter (List.mem_of_getElem? hk)))
  rw [hentities, hchanges, Table.get_set_of_ne _ _ hne]
  exact h.posted k r i hk

/-- An accepted record is posted under the next revision.

**Proof sketch.** It is the last of the accepted records and its rows are the last rows; the others
are where they were. -/
lemma Ledger.post {principal : Principal} {maxRevision revision : ℕ} {effects effects' : Effects}
    {payload : Object}
    (h : Ledger principal maxRevision results (done.filter fun r => freshAt results r.2) effects)
    (hnew : index ∉ done.map Prod.snd)
    (ho : o = ⟨.accepted, .committed, some revision, true, some payload⟩)
    (hrevision : revision = maxRevision + effects.entityUpserts.length + 1)
    (hentities : effects'.entityUpserts =
      effects.entityUpserts ++ [entityRow record principal payload revision])
    (hchanges : effects'.changelogRows =
      effects.changelogRows ++ [changelogRow record principal revision]) :
    Ledger principal maxRevision (results.set index o)
      ((done ++ [(record, index)]).filter fun r => freshAt (results.set index o) r.2) effects' := by
  have hfresh : (o.status == .accepted && o.reason == .committed) = true := by
    rw [ho]
    rfl
  rw [fresh_set hnew, if_pos hfresh]
  have hlast : ∀ k, revision = maxRevision + 1 + k ↔ k = effects.entityUpserts.length := by
    intro k
    omega
  refine ⟨?_, ?_, ?_⟩
  · rw [hentities, List.length_append, List.length_append, h.entities]
    rfl
  · rw [hchanges, List.length_append, List.length_append, h.changes]
    rfl
  · intro k r i hk
    rw [hentities, hchanges]
    rcases lt_or_ge k (done.filter fun r => freshAt results r.2).length with hlt | hge
    · rw [List.getElem?_append_left hlt] at hk
      have hne : i ≠ index := by
        rintro rfl
        exact hnew (List.mem_map_of_mem (List.mem_of_mem_filter (List.mem_of_getElem? hk)))
      rw [Table.get_set_of_ne _ _ hne, List.getElem?_append_left (h.entities.symm ▸ hlt),
        List.getElem?_append_left (h.changes.symm ▸ hlt)]
      exact h.posted k r i hk
    · rw [List.getElem?_append_right hge] at hk
      have hmem := List.mem_of_getElem? hk
      rw [List.mem_singleton] at hmem
      obtain ⟨rfl, rfl⟩ := Prod.mk.inj hmem
      have hbound := (List.getElem?_eq_some_iff.mp hk).1
      rw [List.length_singleton] at hbound
      have hlength : k = effects.entityUpserts.length := by
        rw [h.entities]
        omega
      have hrev := (hlast k).mpr hlength
      refine ⟨payload, ?_, ?_, ?_⟩
      · rw [Table.get_set_self, ho, hrev]
      · rw [hlength, List.getElem?_concat_length, hrev, hlength]
      · rw [hlength, h.entities, ← h.changes, List.getElem?_concat_length, hrev, hlength,
          h.entities, h.changes]

end Results

/-! ### What a commit does -/

section Commit

variable (record : Record) (principal : Principal) (s : State) (admitted : Admitted)
  (fingerprint : Str)

/-- A grant adds to the grants and moves the organization on by one, or leaves both. -/
lemma applyGrant_grants (authorized : Authorized) {entry : ℤ}
    (h : s.effects.organizationAuthorizationRevision = entry + s.effects.membershipGrants.length) :
    (applyGrant s authorized).effects.organizationAuthorizationRevision =
      entry + (applyGrant s authorized).effects.membershipGrants.length := by
  cases authorized with
  | generic plan ownership =>
    rw [applyGrant]
    split
    · rw [List.length_append, h, List.length_singleton]
      push_cast
      ring
    · exact h
  | delivery child => exact h

/-- What a grant leaves. -/
lemma applyGrant_frame (authorized : Authorized) :
    (applyGrant s authorized).effects.mutationRows = s.effects.mutationRows ∧
      (applyGrant s authorized).effects.fingerprintRows = s.effects.fingerprintRows ∧
      (applyGrant s authorized).effects.entityUpserts = s.effects.entityUpserts ∧
      (applyGrant s authorized).effects.changelogRows = s.effects.changelogRows ∧
      (applyGrant s authorized).store.maxRevision = s.store.maxRevision ∧
      (applyGrant s authorized).results = s.results := by
  cases authorized with
  | generic plan ownership =>
    rw [applyGrant]
    split <;> exact ⟨rfl, rfl, rfl, rfl, rfl, rfl⟩
  | delivery child => exact ⟨rfl, rfl, rfl, rfl, rfl, rfl⟩

/-- The rows that a commit writes. -/
lemma commit_rows :
    let t := commit record principal s admitted fingerprint
    t.effects.mutationRows = s.effects.mutationRows ++
        [mutationRow record principal .accepted (some (nextRevision s)) s.deviceId] ∧
      t.effects.fingerprintRows = s.effects.fingerprintRows ++
        [⟨principal.organizationId, record.clientMutationId, fingerprint⟩] ∧
      t.effects.entityUpserts = s.effects.entityUpserts ++
        [entityRow record principal admitted.payload (nextRevision s)] ∧
      t.effects.changelogRows = s.effects.changelogRows ++
        [changelogRow record principal (nextRevision s)] ∧
      t.store.maxRevision = nextRevision s ∧ t.results = s.results := by
  obtain ⟨hmutations, hfingerprints, hentities, hchanges, hmax, hresults⟩ := applyGrant_frame
    (advanceWorld (spend record principal s .accepted (some (nextRevision s)) fingerprint)
      admitted.authorized (entityRow record principal admitted.payload (nextRevision s))
      (nextRevision s)) admitted.authorized
  refine ⟨hmutations, hfingerprints, ?_, ?_, hmax, hresults⟩
  · exact congrArg (· ++ _) hentities
  · exact congrArg (· ++ _) hchanges

end Commit

/-! ### The walk -/

section Walk

variable {records : List Record} {principal : Principal} {store : Store}
  {done : List (Record × ℕ)} {s : State} {record : Record} {index : ℕ}

/-- The mutation id of a record with a new one is spent.

**Proof sketch.** The rows of the mutations have one entry more, under an id that the threaded
priors did not have; so it is none of the ids that were spent, and it is new to the store. -/
lemma Walked.spend_rows {t : State} {status : ResultStatus} {revision : Option ℕ}
    {fingerprint : Str} (h : Walked principal store done s)
    (hfresh : s.store.priors.get record.clientMutationId = none)
    (hmutations : t.effects.mutationRows = s.effects.mutationRows ++
      [mutationRow record principal status revision s.deviceId])
    (hfingerprints : t.effects.fingerprintRows = s.effects.fingerprintRows ++
      [⟨principal.organizationId, record.clientMutationId, fingerprint⟩])
    (hpriors : t.store.priors =
      s.store.priors.set record.clientMutationId (priorOf record status revision)) :
    (t.effects.mutationRows.map MutationRow.clientMutationId).Nodup ∧
      (∀ row ∈ t.effects.mutationRows, store.priors.get row.clientMutationId = none) ∧
      (∀ id, t.store.priors.get id = none →
        id ∉ t.effects.mutationRows.map MutationRow.clientMutationId ∧
          store.priors.get id = none) ∧
      t.effects.fingerprintRows.map FingerprintRow.clientMutationId =
        t.effects.mutationRows.map MutationRow.clientMutationId := by
  obtain ⟨hnotin, hnew⟩ := h.spent _ hfresh
  have hids : t.effects.mutationRows.map MutationRow.clientMutationId =
      s.effects.mutationRows.map MutationRow.clientMutationId ++ [record.clientMutationId] := by
    rw [hmutations, List.map_append]
    rfl
  refine ⟨?_, ?_, ?_, ?_⟩
  · rw [hids, List.nodup_append]
    refine ⟨h.distinct, List.nodup_singleton _, ?_⟩
    rintro id hid _ hlast rfl
    exact hnotin (List.mem_singleton.mp hlast ▸ hid)
  · intro row hrow
    rw [hmutations, List.mem_append, List.mem_singleton] at hrow
    rcases hrow with hrow | rfl
    · exact h.unspent row hrow
    · exact hnew
  · intro id hid
    rw [hpriors, Table.get_set] at hid
    split_ifs at hid with hne
    obtain ⟨hold, hstore⟩ := h.spent id hid
    rw [hids, List.mem_append, List.mem_singleton]
    exact ⟨fun hmem => hmem.elim hold fun heq => hne (beq_iff_eq.mpr heq), hstore⟩
  · rw [hids, hfingerprints, List.map_append, h.fingerprints]
    rfl

/-- A step of the walk keeps its bookkeeping.

**Proof sketch.** A case for each of the three ways in which a record is settled: a quiet step only
notes the outcome, a refusal writes the rows of the mutation, a commit posts the record besides. -/
lemma Walked.step {s' : State} (h : Walked principal store done s)
    (hnew : index ∉ done.map Prod.snd) (hstep : walkRecord principal s (record, index) = .ok s') :
    Walked principal store (done ++ [(record, index)]) s' := by
  obtain ⟨outcome, t, hsettles, rfl⟩ := settles_of_walkRecord hstep
  cases hsettles with
  | quiet _ hwrites hreason =>
    have hnote : (outcome.status == .accepted && outcome.reason == .committed) = false := by
      simp [hreason]
    exact {
      outcomes := isSome_set_iff h.outcomes
      distinct := h.distinct
      unspent := h.unspent
      spent := h.spent
      fingerprints := h.fingerprints
      ledger := h.ledger.note hnew hnote rfl rfl
      revisions := h.revisions
      grants := h.grants }
  | refused fingerprint code revision hpresent hfresh =>
    obtain ⟨hdistinct, hunspent, hspent, hfingerprints⟩ :=
      h.spend_rows (t := spend record principal s .rejected revision fingerprint) hfresh rfl rfl rfl
    exact {
      outcomes := isSome_set_iff h.outcomes
      distinct := hdistinct
      unspent := hunspent
      spent := hspent
      fingerprints := hfingerprints
      ledger := h.ledger.note hnew rfl rfl rfl
      revisions := h.revisions
      grants := h.grants }
  | accepted fingerprint admitted hpresent hfresh hdecide =>
    obtain ⟨hmutations, hfingerprintRows, hentities, hchanges, hmax, hresults⟩ :=
      commit_rows record principal s admitted fingerprint
    obtain ⟨hdistinct, hunspent, hspent, hfingerprints⟩ :=
      h.spend_rows hfresh hmutations hfingerprintRows (commit_priors s admitted fingerprint).1
    have hposted := h.ledger.post hnew rfl
      (congrArg (· + 1) h.revisions) hentities hchanges
    rw [← hresults] at hposted
    refine {
      outcomes := ?_
      distinct := hdistinct
      unspent := hunspent
      spent := hspent
      fingerprints := hfingerprints
      ledger := hposted
      revisions := ?_
      grants := ?_ }
    · rw [recordOutcome, hresults]
      exact isSome_set_iff h.outcomes
    · rw [recordOutcome, hmax, hentities, List.length_append, nextRevision, h.revisions]
      rfl
    · exact applyGrant_grants _ _ h.grants

/-- The bookkeeping holds at the end of every walk. -/
theorem bookkept_walk {deviceId : Option Str} (h : walk records deviceId principal store = .ok s) :
    Bookkept records principal store s.results s.effects := by
  have hwalked : Walked principal store (sortedRecords records) s := by
    refine foldlM_inv_done (P := Walked principal store) ?_ (walked_start deviceId principal store) h
    intro done x rest b b' hsplit hdone hstep
    exact hdone.step (position_notMem hsplit) hstep
  exact {
    outcomes := fun index => (hwalked.outcomes index).trans mem_positions
    distinct := hwalked.distinct
    unspent := hwalked.unspent
    fingerprints := hwalked.fingerprints
    ledger := hwalked.ledger
    grants := hwalked.grants }

end Walk

/-! ### The steps of a walk -/

/-- What a record that is not committed leaves as it was. -/
structure Unmoved (s s' : State) : Prop where
  world : s'.store.world = s.store.world
  maxRevision : s'.store.maxRevision = s.store.maxRevision
  scope : s'.scope = s.scope
  entityUpserts : s'.effects.entityUpserts = s.effects.entityUpserts
  changelogRows : s'.effects.changelogRows = s.effects.changelogRows
  membershipGrants : s'.effects.membershipGrants = s.effects.membershipGrants
  evidenceGcRows : s'.effects.evidenceGcRows = s.effects.evidenceGcRows

section Steps

variable {records : List Record} {deviceId : Option Str} {principal : Principal} {store : Store}

/-- A step notes one outcome; when the record is not committed, it moves nothing. -/
lemma walkRecord_noted {s s' : State} {record : Record} {index : ℕ}
    (h : walkRecord principal s (record, index) = .ok s') :
    ∃ outcome, s'.results = s.results.set index outcome ∧
      ((outcome.status == .accepted && outcome.reason == .committed) = false → Unmoved s s') := by
  obtain ⟨outcome, t, hsettles, rfl⟩ := settles_of_walkRecord h
  refine ⟨outcome, ?_, ?_⟩
  · cases hsettles with
    | quiet _ _ _ => rfl
    | refused _ _ _ _ _ => rfl
    | accepted fingerprint admitted _ _ _ =>
      have hresults := (commit_rows record principal s admitted fingerprint).2.2.2.2.2
      rw [recordOutcome, hresults]
  · intro hnote
    cases hsettles with
    | quiet _ _ _ => exact ⟨rfl, rfl, rfl, rfl, rfl, rfl, rfl⟩
    | refused _ _ _ _ _ => exact ⟨rfl, rfl, rfl, rfl, rfl, rfl, rfl⟩
    | accepted _ _ _ _ _ => cases hnote

/-- The outcomes of other records stay. -/
lemma results_of_rest {rest : List (Record × ℕ)} {s s' : State} {index : ℕ}
    (hindex : index ∉ rest.map Prod.snd) (h : rest.foldlM (walkRecord principal) s = .ok s') :
    s'.results.get index = s.results.get index := by
  refine foldlM_inv_done (P := fun _ t => t.results.get index = s.results.get index) ?_ rfl h
  intro done x tail t t' hsplit ht hstep
  obtain ⟨outcome, hresults, -⟩ := walkRecord_noted hstep
  have hne : index ≠ x.2 := by
    rintro rfl
    exact hindex (List.mem_map_of_mem (hsplit ▸ List.mem_append_right _ List.mem_cons_self))
  rw [hresults, Table.get_set_of_ne _ _ hne, ht]

/-- The outcome of a step is the outcome of the walk, and a record that is not committed moves
nothing. -/
lemma Reaches.outcome {final s s' : State} {x : Record × ℕ}
    (hwalk : walk records deviceId principal store = .ok final)
    (h : Reaches records deviceId principal store s x s') :
    s'.results.get x.2 = final.results.get x.2 ∧
      (freshAt final.results x.2 = false → Unmoved s s') := by
  obtain ⟨done, rest, hsplit, hdone, hstep⟩ := h
  rw [walk, hsplit, foldlM_split] at hwalk
  obtain ⟨c, c', hc, hc', hrest⟩ := hwalk
  obtain rfl := Except.ok.inj (hdone.symm.trans hc)
  obtain rfl := Except.ok.inj (hstep.symm.trans hc')
  have hafter : x.2 ∉ rest.map Prod.snd := by
    have hnodup := nodup_positions records
    rw [hsplit, List.map_append, List.map_cons] at hnodup
    exact (List.nodup_cons.mp hnodup.of_append_right).1
  have hkept := results_of_rest hafter hrest
  obtain ⟨outcome, hresults, hunmoved⟩ := walkRecord_noted hstep
  refine ⟨hkept.symm, fun hfresh => hunmoved ?_⟩
  rwa [freshAt, hkept, hresults, Table.get_set_self, Option.any_some] at hfresh

/-- Every record of the batch has its step. -/
lemma exists_reaches {final : State} (hwalk : walk records deviceId principal store = .ok final)
    {x : Record × ℕ} (hx : x ∈ sortedRecords records) :
    ∃ s s', Reaches records deviceId principal store s x s' := by
  obtain ⟨done, rest, hsplit⟩ := List.append_of_mem hx
  rw [walk, hsplit, foldlM_split] at hwalk
  obtain ⟨s, s', hdone, hstep, -⟩ := hwalk
  exact ⟨s, s', done, rest, hsplit, hdone, hstep⟩

end Steps

/-! ### The answer -/

/-- Whether the record at a position was accepted. -/
def acceptedAt (results : Table ℕ Admission.Outcome) (index : ℕ) : Bool :=
  (results.get index).any fun o => o.status == .accepted

/-- The ids of the records at some positions, in the order of the batch. -/
def idsWhere (p : ℕ → Bool) (records : List Record) : List Str :=
  (records.zipIdx.filter fun r => p r.2).map fun r => r.1.id

/-- The ids of some records are among those of the batch, in its order. -/
lemma idsWhere_sublist (p : ℕ → Bool) (records : List Record) :
    (idsWhere p records).Sublist (records.map Record.id) := by
  have h : (idsWhere p records).Sublist (records.zipIdx.map fun r => r.1.id) :=
    List.filter_sublist.map _
  have hids : records.zipIdx.map (fun r => r.1.id) = records.map Record.id := by
    conv_rhs => rw [← List.zipIdx_map_fst 0 records, List.map_map]
    rfl
  exact hids ▸ h

/-- Some records and the others are all records. -/
lemma idsWhere_perm (p : ℕ → Bool) (records : List Record) :
    (idsWhere p records ++ idsWhere (fun i => !p i) records).Perm (records.map Record.id) := by
  have h := (List.filter_append_perm (fun r : Record × ℕ => p r.2) records.zipIdx).map
    fun r => r.1.id
  have hids : records.zipIdx.map (fun r => r.1.id) = records.map Record.id := by
    conv_rhs => rw [← List.zipIdx_map_fst 0 records, List.map_map]
    rfl
  rw [List.map_append, hids] at h
  exact h

/-- The outcomes that `finish/2` fetches split the records as `acceptedAt` does. -/
lemma fetch_split {results : Table ℕ Admission.Outcome} {records : List (Record × ℕ)}
    (h : ∀ r ∈ records, (results.get r.2).isSome = true) :
    ∃ settled : List (Record × Admission.Outcome),
      (records.mapM fun r => do return (r.1, ← fetchOutcome results r.2)) = .ok settled ∧
        (settled.filter fun r => r.2.status == .accepted).map (fun r => r.1.id) =
          (records.filter fun r => acceptedAt results r.2).map (fun r => r.1.id) ∧
        (settled.filter fun r => r.2.status != .accepted).map (fun r => r.1.id) =
          (records.filter fun r => !acceptedAt results r.2).map (fun r => r.1.id) := by
  induction records with
  | nil => exact ⟨[], rfl, rfl, rfl⟩
  | cons r records ih =>
    rw [List.forall_mem_cons] at h
    obtain ⟨settled, hsettled, haccepted, hrejected⟩ := ih h.2
    obtain ⟨outcome, houtcome⟩ := Option.isSome_iff_exists.mp h.1
    have hfetch : fetchOutcome results r.2 = .ok outcome := by
      rw [fetchOutcome, houtcome]
    have hat : acceptedAt results r.2 = (outcome.status == .accepted) := by
      rw [acceptedAt, houtcome, Option.any_some]
    refine ⟨(r.1, outcome) :: settled, ?_, ?_, ?_⟩
    · rw [List.mapM_cons, hfetch, hsettled]
      rfl
    · cases hstatus : outcome.status == .accepted <;>
        simp [hat, hstatus, haccepted]
    · cases hstatus : outcome.status == .accepted <;>
        simp [bne, hat, hstatus] at hrejected ⊢ <;> exact hrejected

/-- The answer to a run whose records all have their outcomes. -/
lemma finish_eq {run : Run}
    (h : ∀ index, (run.results.get index).isSome = true ↔ index < run.records.length)
    (maxSequence : Option ℕ) :
    finish run maxSequence = (Cursor.encode (maxSequence.getD 0)).map fun cursor =>
      { run with
        result := some ⟨idsWhere (acceptedAt run.results) run.records,
          idsWhere (fun i => !acceptedAt run.results i) run.records, cursor⟩ } := by
  have hall : ∀ r ∈ run.records.zipIdx, (run.results.get r.2).isSome = true := by
    intro r hr
    have hlt := (List.mem_zipIdx hr).2.1
    rw [h]
    omega
  obtain ⟨settled, hsettled, haccepted, hrejected⟩ := fetch_split hall
  rw [finish]
  change (run.records.zipIdx.mapM fun r => do
    return (r.1, ← fetchOutcome run.results r.2)) >>= _ = _
  rw [hsettled]
  simp only [ok_bind, haccepted, hrejected]
  cases Cursor.encode (maxSequence.getD 0) <;> rfl

/-- A run is the end of a walk. -/
lemma walk_of_run {records : List Record} {deviceId : Option Str} {principal : Principal}
    {store : Store} {run : Run}
    (h : Batch.run records deviceId principal store = .ok (.ok run)) :
    ∃ s, walk records deviceId principal store = .ok s ∧ run = runOf records s := by
  unfold Batch.run at h
  split_ifs at h
  · cases h
  · cases h
  · obtain ⟨s, hwalk, hrun⟩ := bind_eq_ok.mp h
    cases hrun
    exact ⟨s, hwalk, rfl⟩

/-- **The bookkeeping of a batch.** A run that returned is kept in order; each of its records has a
step of the walk, whose outcome is the one that is reported, and which moves nothing unless the
record is accepted anew; and its answer splits the ids of the batch.

**Proof sketch.** `bookkept_walk` for the rows, `Reaches.outcome` for the steps. The answer reads
the outcome of every position, which is there. -/
theorem run_bookkeeping {records : List Record} {deviceId : Option Str} {principal : Principal}
    {store : Store} {run : Run}
    (h : Batch.run records deviceId principal store = .ok (.ok run)) :
    Bookkept records principal store run.results run.effects ∧
      (∀ x ∈ sortedRecords records, ∃ s s', Reaches records deviceId principal store s x s') ∧
      (∀ s x s', Reaches records deviceId principal store s x s' →
        s'.results.get x.2 = run.results.get x.2 ∧
          (freshAt run.results x.2 = false → Unmoved s s')) ∧
      (∀ maxSequence, finish run maxSequence =
        (Cursor.encode (maxSequence.getD 0)).map fun cursor =>
          { run with
            result := some ⟨idsWhere (acceptedAt run.results) records,
              idsWhere (fun i => !acceptedAt run.results i) records, cursor⟩ }) ∧
      (idsWhere (acceptedAt run.results) records ++
        idsWhere (fun i => !acceptedAt run.results i) records).Perm (records.map Record.id) ∧
      ∀ p, (idsWhere p records).Sublist (records.map Record.id) := by
  obtain ⟨s, hwalk, rfl⟩ := walk_of_run h
  have hbookkept := bookkept_walk hwalk
  refine ⟨hbookkept, ?_, ?_, ?_, idsWhere_perm _ _, fun p => idsWhere_sublist p records⟩
  · exact fun x hx => exists_reaches hwalk hx
  · exact fun s x s' hreaches => hreaches.outcome hwalk
  · exact finish_eq hbookkept.outcomes

/-- A run whose value is there returned. -/
lemma run_of_isSome {x : Except Raised (Except Denial Run)}
    (h : (x.toOption.bind Except.toOption).isSome = true) : ∃ run, x = .ok (.ok run) := by
  obtain ⟨run, hrun⟩ := Option.isSome_iff_exists.mp h
  obtain ⟨y, hy, hyrun⟩ := Option.bind_eq_some_iff.mp hrun
  exact ⟨run, by rw [toOption_eq_some hy, toOption_eq_some hyrun]⟩

/-- The bookkeeping of a batch with a customer, a project, a sector and an item. -/
theorem run_bookkeeping_setup :
    ∃ run, Batch.run Sample.setup none VitrialSync.Sample.principal Sample.store =
        .ok (.ok run) ∧
      Bookkept Sample.setup VitrialSync.Sample.principal Sample.store run.results
        run.effects := by
  obtain ⟨run, hrun⟩ := run_of_isSome
    (x := Batch.run Sample.setup none VitrialSync.Sample.principal Sample.store)
    (by decide +kernel)
  exact ⟨run, hrun, (run_bookkeeping hrun).1⟩

end VitrialSync.Beam.Batch
