import VitrialSync.Beam.Bookkeeping
import VitrialSync.Beam.DeliveryHistory
import VitrialSync.Beam.Effects

set_option relaxedAutoImplicit false
set_option autoImplicit false

/-!
# Repeated batches

What a batch answered under a mutation id is never forgotten, so a batch that is sent again, by
whomever and after whatever else was pushed, writes nothing and gets the answers of the first time.

## Main definitions

* `VitrialSync.Beam.Batch.Remembers` — a store knows the answers that another one knew.
* `VitrialSync.Beam.Batch.SameAnswer` — the answer to a repeated record.
* `VitrialSync.Beam.Batch.Ready` — what a push needs of a store, and what one leaves of it.

## Main results

* `VitrialSync.Beam.Batch.walkRecord_again` — a record that was settled is answered again.
* `VitrialSync.Beam.Batch.runBatches_replays` — repeated batches over whole runs.
-/

namespace VitrialSync.Beam.Batch

open Python Program
open Admission (Prior Context Decision)

/-! ### What is remembered -/

/-- A later store has the rows of the mutations that a store had. -/
structure Remembers (store later : Store) : Prop where
  priors : ∀ id prior, store.priors.get id = some prior → later.priors.get id = some prior
  fingerprints : ∀ id prior, store.priors.get id = some prior →
    later.fingerprints.get id = store.fingerprints.get id

namespace Remembers

/-- A store knows what it knows. -/
lemma refl (store : Store) : Remembers store store := ⟨fun _ _ h => h, fun _ _ _ => rfl⟩

/-- What a later store has forgotten nothing of is not forgotten later. -/
lemma trans {store₁ store₂ store₃ : Store} (h : Remembers store₁ store₂)
    (h' : Remembers store₂ store₃) : Remembers store₁ store₃ := by
  refine ⟨fun id prior hprior => h'.priors id prior (h.priors id prior hprior), ?_⟩
  intro id prior hprior
  rw [h'.fingerprints id prior (h.priors id prior hprior), h.fingerprints id prior hprior]

/-- A new mutation id leaves the others alone. -/
lemma of_set {store later : Store} {id : Option Str} {prior : Prior} {fingerprint : Str}
    (hfresh : store.priors.get id = none) (hpriors : later.priors = store.priors.set id prior)
    (hfingerprints : later.fingerprints = store.fingerprints.set id fingerprint) :
    Remembers store later := by
  have hne : ∀ other found, store.priors.get other = some found → other ≠ id := by
    rintro other found hfound rfl
    rw [hfresh] at hfound
    cases hfound
  refine ⟨fun other found hfound => ?_, fun other found hfound => ?_⟩
  · rw [hpriors, Table.get_set_of_ne _ _ (hne other found hfound), hfound]
  · rw [hfingerprints, Table.get_set_of_ne _ _ (hne other found hfound)]

end Remembers

/-- A step of a walk forgets nothing. -/
lemma walkRecord_remembers {principal : Principal} {s s' : State} {x : Record × ℕ}
    (h : walkRecord principal s x = .ok s') : Remembers s.store s'.store := by
  obtain ⟨record, index⟩ := x
  obtain ⟨outcome, t, hsettles, rfl⟩ := settles_of_walkRecord h
  cases hsettles with
  | quiet _ _ _ => exact .refl _
  | refused fingerprint code revision hpresent hfresh => exact .of_set hfresh rfl rfl
  | accepted fingerprint admitted hpresent hfresh hdecide =>
    have hspent := @commit_priors record principal s admitted fingerprint
    exact .of_set hfresh hspent.1 hspent.2

/-- Some steps of a walk forget nothing. -/
lemma steps_remember {principal : Principal} {s s' : State} {xs : List (Record × ℕ)}
    (h : xs.foldlM (walkRecord principal) s = .ok s') : Remembers s.store s'.store :=
  foldlM_inv (P := fun t => Remembers s.store t.store)
    (fun _ _ _ ht hstep => ht.trans (walkRecord_remembers hstep)) (.refl _) h

/-- A run forgets nothing: the rows of the mutations are loaded as they were written. -/
lemma runBatches_remembers (inputs : List BatchInput) (store : Store) :
    Remembers store (runBatches inputs store) :=
  runBatches_inv (I := Remembers store)
    (fun _ _ _ _ _ hs hstep => hs.trans (walkRecord_remembers hstep))
    (fun _ hs => ⟨hs.priors, hs.fingerprints⟩) inputs (.refl store)

/-! ### A record again -/

/-- The answer to a repeated record: the status and the revision of the first time, and nothing is
written. -/
structure SameAnswer (first again : Admission.Outcome) : Prop where
  status : again.status = first.status
  resultRevision : again.resultRevision = first.resultRevision
  quiet : again.writesMutationRow = false

/-- A record without a mutation id is refused. -/
lemma decideRecord_missing {s : State} {record : Record} (principal : Principal)
    (h : Admission.missingId record = true) :
    decideRecord s record principal = .ok (.settled Admission.missingOutcome) := by
  simp only [decideRecord, Admission.decide, Admission.settle, h, ↓reduceIte]
  rfl

/-- A record whose mutation id has a row is answered from it. -/
lemma decideRecord_prior {s : State} {record : Record} (principal : Principal)
    (h : Admission.missingId record = false) {prior : Prior}
    (hprior : s.store.priors.get record.clientMutationId = some prior) :
    decideRecord s record principal =
      (Admission.sameRequest record prior
        (s.store.fingerprints.get record.clientMutationId)).map fun same =>
          .settled (Admission.replayOutcome prior same) := by
  obtain ⟨entityType, entityId, base, status, revision⟩ := prior
  simp only [decideRecord, Admission.decide, Admission.settle, contextOf, h, Bool.false_eq_true,
    ↓reduceIte, hprior]
  cases Admission.sameRequest record ⟨entityType, entityId, base, status, revision⟩
    (s.store.fingerprints.get record.clientMutationId) with
  | error e => rfl
  | ok same => cases same <;> cases status <;> rfl

/-- An answer to a new mutation id is written. -/
lemma decideRecord_fresh {principal : Principal} {s : State} {record : Record}
    {outcome : Admission.Outcome} (h : Admission.missingId record = false)
    (hfresh : s.store.priors.get record.clientMutationId = none)
    (hdecide : decideRecord s record principal = .ok (.settled outcome)) :
    outcome.writesMutationRow = true := by
  simp only [decideRecord, Admission.decide, Admission.settle, contextOf, h, Bool.false_eq_true,
    ↓reduceIte, hfresh, ok_bind, Admission.stepRevisionGuard] at hdecide
  split_ifs at hdecide
  · cases hdecide
    rfl
  · cases hpayload : Payload.decode record.payload with
    | error e =>
      rw [hpayload] at hdecide
      cases hdecide
      rfl
    | ok payload =>
      rw [hpayload] at hdecide
      exact absurd hdecide ofAuthority_ne_settled

/-- An answer that writes nothing is noted, and that is all. -/
lemma walkRecord_quiet {principal : Principal} {s : State} {record : Record} (index : ℕ)
    {outcome : Admission.Outcome}
    (h : decideRecord s record principal = .ok (.settled outcome))
    (hquiet : outcome.writesMutationRow = false) :
    walkRecord principal s (record, index) = .ok (recordOutcome record s index outcome) := by
  rw [walkRecord_eq, h, ok_bind]
  simp only [hquiet, Bool.false_eq_true, ↓reduceIte]

/-- A record with a new mutation id spends it: its answer and its fingerprint are in the store.

**Proof sketch.** The decision is not an answer that writes nothing, since the first four steps of a
new id end in a rejection that is written or in a payload. The three arms left write the rows. -/
lemma walkRecord_spends {principal : Principal} {s s' : State} {record : Record} {index : ℕ}
    (hpresent : Admission.missingId record = false)
    (hfresh : s.store.priors.get record.clientMutationId = none)
    (h : walkRecord principal s (record, index) = .ok s') :
    ∃ outcome fingerprint, record.fingerprint = .ok fingerprint ∧
      s'.results.get index = some outcome ∧
      s'.store.priors.get record.clientMutationId =
        some (priorOf record outcome.status outcome.resultRevision) ∧
      s'.store.fingerprints.get record.clientMutationId = some fingerprint := by
  rw [walkRecord_eq] at h
  obtain ⟨decision, hdecide, h⟩ := bind_eq_ok.mp h
  have hspent : ∀ (t : Str → State) (outcome : Admission.Outcome),
      (∀ fingerprint, (t fingerprint).store.priors = s.store.priors.set record.clientMutationId
        (priorOf record outcome.status outcome.resultRevision) ∧
        (t fingerprint).store.fingerprints =
          s.store.fingerprints.set record.clientMutationId fingerprint) →
      (record.fingerprint.map fun fingerprint =>
        recordOutcome record (t fingerprint) index outcome) = .ok s' →
      ∃ outcome fingerprint, record.fingerprint = .ok fingerprint ∧
        s'.results.get index = some outcome ∧
        s'.store.priors.get record.clientMutationId =
          some (priorOf record outcome.status outcome.resultRevision) ∧
        s'.store.fingerprints.get record.clientMutationId = some fingerprint := by
    intro t outcome ht hmap
    cases hfingerprint : record.fingerprint with
    | error e =>
      rw [hfingerprint] at hmap
      cases hmap
    | ok fingerprint =>
      rw [hfingerprint] at hmap
      obtain rfl := Except.ok.inj hmap
      refine ⟨outcome, fingerprint, rfl, Table.get_set_self _ _ _, ?_, ?_⟩
      · exact ((ht fingerprint).1 ▸ Table.get_set_self _ _ _)
      · exact ((ht fingerprint).2 ▸ Table.get_set_self _ _ _)
  cases decision with
  | settled outcome =>
    simp only [decideRecord_fresh hpresent hfresh hdecide, ↓reduceIte] at h
    exact hspent _ outcome (fun fingerprint => ⟨rfl, rfl⟩) h
  | rejected code =>
    obtain ⟨revision, -, h⟩ := bind_eq_ok.mp h
    exact hspent _ (Admission.reject code revision) (fun fingerprint => ⟨rfl, rfl⟩) h
  | admitted admitted =>
    exact hspent _ (committedOutcome s admitted) (fun fingerprint => commit_priors s admitted _) h

/-- **A record again.** A record that a step has settled is answered in the same way in every later
state, by whomever it is sent, and writes nothing.

**Proof sketch.** Without a mutation id it is refused as before. With an id that had a row, the row
and its fingerprint are the same in the later state. With a new id, the step has stored its answer
with the fingerprint of the record, and that is the same request. -/
theorem walkRecord_again {principal : Principal} (principal' : Principal) {s s' t : State}
    {record : Record} {index : ℕ} (h : walkRecord principal s (record, index) = .ok s')
    (ht : Remembers s'.store t.store) :
    ∃ first again, s'.results.get index = some first ∧ SameAnswer first again ∧
      walkRecord principal' t (record, index) = .ok (recordOutcome record t index again) := by
  by_cases hmissing : Admission.missingId record = true
  · rw [walkRecord_quiet index (decideRecord_missing principal hmissing) rfl] at h
    obtain rfl := Except.ok.inj h
    exact ⟨Admission.missingOutcome, Admission.missingOutcome, Table.get_set_self _ _ _,
      ⟨rfl, rfl, rfl⟩, walkRecord_quiet index (decideRecord_missing principal' hmissing) rfl⟩
  have hpresent : Admission.missingId record = false := Bool.eq_false_of_not_eq_true hmissing
  cases hprior : s.store.priors.get record.clientMutationId with
  | none =>
    obtain ⟨first, fingerprint, hfingerprint, hfirst, hspent, hstored⟩ :=
      walkRecord_spends hpresent hprior h
    have hagain := decideRecord_prior principal' hpresent (ht.priors _ _ hspent)
    have hsame : Admission.sameRequest record (priorOf record first.status first.resultRevision)
        (t.store.fingerprints.get record.clientMutationId) = .ok true := by
      rw [ht.fingerprints _ _ hspent, hstored]
      simp only [Admission.sameRequest, hfingerprint, ok_bind, beq_self_eq_true]
      rfl
    rw [hsame] at hagain
    refine ⟨first,
      Admission.replayOutcome (priorOf record first.status first.resultRevision) true, hfirst,
      ⟨?_, rfl, rfl⟩, walkRecord_quiet index hagain rfl⟩
    cases hstatus : first.status <;> simp [Admission.replayOutcome, priorOf]
  | some prior =>
    have hfirst := decideRecord_prior principal hpresent hprior
    have hkept := walkRecord_remembers h
    have hlater := hkept.trans ht
    have hagain := decideRecord_prior principal' hpresent (hlater.priors _ _ hprior)
    rw [hlater.fingerprints _ _ hprior] at hagain
    cases hsame : Admission.sameRequest record prior
      (s.store.fingerprints.get record.clientMutationId) with
    | error e =>
      rw [hsame] at hfirst
      rw [walkRecord_eq, hfirst] at h
      cases h
    | ok same =>
      rw [hsame] at hfirst hagain
      rw [walkRecord_quiet index hfirst rfl] at h
      obtain rfl := Except.ok.inj h
      exact ⟨_, _, Table.get_set_self _ _ _, ⟨rfl, rfl, rfl⟩, walkRecord_quiet index hagain rfl⟩

/-! ### A batch again -/

/-- The steps of a walk again: the records get their answers, and nothing else changes.

**Proof sketch.** By induction on the records. A step is answered again in the later state
(`walkRecord_again`), which the answer leaves as it was for the rest; other records do not touch its
outcome in either walk. -/
lemma steps_again {principal : Principal} (principal' : Principal) {xs : List (Record × ℕ)}
    {s s' t : State} (hpositions : (xs.map Prod.snd).Nodup)
    (h : xs.foldlM (walkRecord principal) s = .ok s')
    (ht : Remembers s'.store t.store) :
    ∃ t', xs.foldlM (walkRecord principal') t = .ok t' ∧ t'.store = t.store ∧
      t'.effects = t.effects ∧ ∀ x ∈ xs, ∃ first again, s'.results.get x.2 = some first ∧
        t'.results.get x.2 = some again ∧ SameAnswer first again := by
  induction xs generalizing s t with
  | nil => exact ⟨t, rfl, rfl, rfl, by simp⟩
  | cons x xs ih =>
    obtain ⟨record, index⟩ := x
    rw [List.map_cons, List.nodup_cons] at hpositions
    rw [List.foldlM_cons] at h
    obtain ⟨s₁, hstep, hrest⟩ := bind_eq_ok.mp h
    obtain ⟨first, again, hfirst, hsame, hnoted⟩ :=
      walkRecord_again principal' hstep ((steps_remember hrest).trans ht)
    obtain ⟨t', hwalk, hstore, heffects, hanswers⟩ :=
      ih (t := recordOutcome record t index again) hpositions.2 hrest ht
    refine ⟨t', ?_, hstore, heffects, List.forall_mem_cons.mpr ⟨⟨first, again, ?_, ?_, hsame⟩,
      hanswers⟩⟩
    · rw [List.foldlM_cons, hnoted, ok_bind, hwalk]
    · rw [results_of_rest hpositions.1 hrest, hfirst]
    · rw [results_of_rest hpositions.1 hwalk]
      exact Table.get_set_self _ _ _

/-- A store as it is loaded: its entities are structs. -/
def Loaded (store : Store) : Prop := ∀ e ∈ store.world.entities, ∃ x, e = .struct x

/-- The store after a walk is loaded. -/
lemma loaded_next (s : State) : Loaded s.next := by
  intro e he
  obtain ⟨row, -, rfl⟩ := List.mem_map.mp he
  exact ⟨row.loaded, rfl⟩

/-- A run that returned was served. -/
lemma served_of_run {store : Store} {input : BatchInput} {run : Run}
    (h : Batch.run input.records input.deviceId input.principal store = .ok (.ok run)) :
    Served store input := by
  unfold Batch.run at h
  split_ifs at h with hholds hnone
  · cases h
  · cases h
  · rw [Bool.not_eq_true, Bool.not_eq_false'] at hholds
    rw [Option.isNone_iff_eq_none] at hnone
    exact ⟨hholds, Option.isSome_iff_ne_none.mpr hnone⟩

/-- A batch that is served and walked to its end returns. -/
lemma run_of_walk {store : Store} {input : BatchInput} {s : State} (hserved : Served store input)
    (h : walk input.records input.deviceId input.principal store = .ok s) :
    Batch.run input.records input.deviceId input.principal store =
      .ok (.ok (runOf input.records s)) := by
  have hpresent : store.world.organization.isNone = false :=
    Option.isNone_eq_false_iff.mpr hserved.2
  simp only [Batch.run, hserved.1, hpresent, Bool.not_true, Bool.false_eq_true, ↓reduceIte]
  rw [h]
  rfl

/-- A batch that was walked to its end. -/
lemma afterBatch_of_walk {store : Store} {input : BatchInput} {s : State}
    (hserved : Served store input)
    (h : walk input.records input.deviceId input.principal store = .ok s) :
    afterBatch store input = s.next := by
  obtain ⟨hsync, horganization⟩ := hserved
  have hpresent : store.world.organization.isNone = false := by
    rwa [← Bool.not_eq_true', Option.not_isNone]
  simp only [afterBatch, hsync, hpresent, Bool.not_true, Bool.or_self, Bool.false_eq_true,
    ↓reduceIte, h]

/-- A step of a walk leaves the organization. -/
lemma walkRecord_organization {principal : Principal} {s s' : State} {x : Record × ℕ}
    (h : walkRecord principal s x = .ok s') :
    s'.store.world.organization = s.store.world.organization := by
  obtain ⟨record, index⟩ := x
  obtain ⟨outcome, t, hsettles, rfl⟩ := settles_of_walkRecord h
  cases hsettles with
  | quiet _ _ _ => rfl
  | refused _ _ _ _ _ => rfl
  | accepted fingerprint admitted _ _ _ =>
    obtain ⟨membership, hworld⟩ := commit_world record principal s admitted fingerprint
    rw [recordOutcome, hworld]
    exact (applyCanonicalEffects_frame _ _).2.2

/-- What a push needs of a store, and what a push leaves of it: the entities are loaded and the
organization is there. -/
structure Ready (store : Store) : Prop where
  loaded : Loaded store
  organization : store.world.organization.isSome = true

/-- A walk to its end makes the store ready. -/
lemma ready_next {records : List Record} {deviceId : Option Str} {principal : Principal}
    {store : Store} {s : State} (horganization : store.world.organization.isSome = true)
    (h : walk records deviceId principal store = .ok s) : Ready s.next := by
  refine ⟨loaded_next s, ?_⟩
  have hkept : s.store.world.organization = store.world.organization :=
    walk_inv (I := fun t => t.store.world.organization = store.world.organization) rfl
      (fun _ _ _ _ ht hstep => (walkRecord_organization hstep).trans ht) h
  rw [State.next, loadedWorld, Option.isSome_map, hkept]
  exact horganization

/-- A run keeps a store ready. -/
lemma runBatches_ready {store : Store} (h : Ready store) (inputs : List BatchInput) :
    Ready (runBatches inputs store) := by
  induction inputs generalizing store with
  | nil => exact h
  | cons input inputs ih =>
    refine ih ?_
    unfold afterBatch
    split
    · exact h
    · cases hwalk : walk input.records input.deviceId input.principal store with
      | error e => exact h
      | ok s => exact ready_next h.organization hwalk

/-- A ready store that nothing was written to is loaded as it was. -/
lemma next_eq {s : State} (h : Ready s.store)
    (hrevision : s.effects.organizationAuthorizationRevision = entryRevision s.store) :
    s.next = s.store := by
  have hentities : s.store.world.entities.map (fun e => StoredEntity.struct e.loaded) =
      s.store.world.entities := by
    refine (List.map_congr_left fun e he => ?_).trans (List.map_id _)
    obtain ⟨x, rfl⟩ := h.loaded e he
    rfl
  have horganization : (s.store.world.organization.map fun _ =>
      (⟨entryRevision s.store⟩ : Organization)) = s.store.world.organization := by
    obtain ⟨organization, hsome⟩ := Option.isSome_iff_exists.mp h.organization
    rw [entryRevision, hsome]
    rfl
  rw [State.next, hrevision, loadedWorld, hentities, horganization]

/-- The ids at the positions where two conditions agree. -/
lemma idsWhere_congr {p q : ℕ → Bool} {records : List Record}
    (h : ∀ index < records.length, p index = q index) :
    idsWhere p records = idsWhere q records := by
  rw [idsWhere, idsWhere]
  congr 1
  refine List.filter_congr fun x hx => h x.2 ?_
  have hlt := (List.mem_zipIdx hx).2.1
  omega

/-- The answer of a run whose outcomes are all there. -/
lemma finish_result {run answered : Run} {maxSequence : Option ℕ}
    (h : ∀ index, (run.results.get index).isSome = true ↔ index < run.records.length)
    (hfinish : finish run maxSequence = .ok answered) :
    ∃ cursor, answered.result = some ⟨idsWhere (acceptedAt run.results) run.records,
      idsWhere (fun i => !acceptedAt run.results i) run.records, cursor⟩ := by
  rw [finish_eq h] at hfinish
  cases hcursor : Cursor.encode (maxSequence.getD 0) with
  | error e =>
    rw [hcursor] at hfinish
    cases hfinish
  | ok cursor =>
    rw [hcursor] at hfinish
    obtain rfl := Except.ok.inj hfinish
    exact ⟨cursor, rfl⟩

/-- Runs with the same answers list the same records.

**Proof sketch.** A list of the answer reads the status at each position, and the statuses are the
same. -/
lemma finish_again {records : List Record} {s t : State}
    (hs : ∀ index, (s.results.get index).isSome = true ↔ index < records.length)
    (ht : ∀ index, (t.results.get index).isSome = true ↔ index < records.length)
    (hanswers : ∀ index < records.length, ∃ first second, s.results.get index = some first ∧
      t.results.get index = some second ∧ SameAnswer first second)
    {m m' : Option ℕ} {first second : Run} (hfirst : finish (runOf records s) m = .ok first)
    (hsecond : finish (runOf records t) m' = .ok second) :
    ∃ answer answer', first.result = some answer ∧ second.result = some answer' ∧
      answer'.acceptedRecordIds = answer.acceptedRecordIds ∧
      answer'.rejectedRecordIds = answer.rejectedRecordIds := by
  obtain ⟨cursor, hfirst⟩ := finish_result hs hfirst
  obtain ⟨cursor', hsecond⟩ := finish_result ht hsecond
  have hsame : ∀ index < records.length,
      acceptedAt t.results index = acceptedAt s.results index := by
    intro index hindex
    obtain ⟨a, b, ha, hb, hanswer⟩ := hanswers index hindex
    rw [acceptedAt, acceptedAt, ha, hb, Option.any_some, Option.any_some, hanswer.status]
  have hother : idsWhere (fun i => !acceptedAt t.results i) records =
      idsWhere (fun i => !acceptedAt s.results i) records :=
    idsWhere_congr fun index hindex => by rw [hsame index hindex]
  exact ⟨_, _, hfirst, hsecond, idsWhere_congr hsame, hother⟩

/-- **Exactly once over runs.** A batch that was served is sent again, by anyone who may push and
after whatever other batches: it is served, no row is written, the store stays as it is, every
record gets the status and the revision of the first time, and the answer lists the same accepted
and the same rejected records.

**Proof sketch.** The store remembers the end of the first walk (`runBatches_remembers`), so every
step of the second walk repeats an answer (`steps_again`). -/
theorem runBatches_replays (before later : List BatchInput) (input : BatchInput) (store : Store)
    {run : Run} (hrun : Batch.run input.records input.deviceId input.principal
      (runBatches before store) = .ok (.ok run))
    (principal : Principal) (deviceId : Option Str) (hsync : principal.holds .sync = true) :
    ∃ again, Batch.run input.records deviceId principal
        (runBatches (before ++ input :: later) store) = .ok (.ok again) ∧
      again.effects = .start (entryRevision (runBatches (before ++ input :: later) store)) ∧
      afterBatch (runBatches (before ++ input :: later) store)
        ⟨principal, deviceId, input.records⟩ = runBatches (before ++ input :: later) store ∧
      (∀ index < input.records.length, ∃ first second, run.results.get index = some first ∧
        again.results.get index = some second ∧ SameAnswer first second) ∧
      ∀ m m' first second, finish run m = .ok first → finish again m' = .ok second →
        ∃ answer answer', first.result = some answer ∧ second.result = some answer' ∧
          answer'.acceptedRecordIds = answer.acceptedRecordIds ∧
          answer'.rejectedRecordIds = answer.rejectedRecordIds := by
  have hserved := served_of_run hrun
  obtain ⟨s, hwalk, rfl⟩ := walk_of_run hrun
  have hafter : runBatches (before ++ input :: later) store = runBatches later s.next := by
    rw [runBatches, List.foldl_append, List.foldl_cons]
    exact congrArg (runBatches later) (afterBatch_of_walk hserved hwalk)
  rw [hafter]
  have hready := runBatches_ready (ready_next hserved.2 hwalk) later
  have hnext : Remembers s.store s.next := ⟨fun _ _ h => h, fun _ _ _ => rfl⟩
  obtain ⟨t, hagain, hstore, heffects, hanswers⟩ := steps_again principal
    (t := .start deviceId principal (runBatches later s.next)) (nodup_positions input.records)
    hwalk (hnext.trans (runBatches_remembers later s.next))
  have hwalk' : walk input.records deviceId principal (runBatches later s.next) = .ok t := hagain
  have hserved' : Served (runBatches later s.next) ⟨principal, deviceId, input.records⟩ :=
    ⟨hsync, hready.organization⟩
  have hbookkept := bookkept_walk hwalk
  have hbookkept' := bookkept_walk hwalk'
  have hpoint : ∀ index < input.records.length, ∃ first second,
      s.results.get index = some first ∧ t.results.get index = some second ∧
        SameAnswer first second := by
    intro index hindex
    obtain ⟨x, hx, rfl⟩ := List.mem_map.mp (mem_positions.mpr hindex)
    exact hanswers x hx
  refine ⟨runOf input.records t, run_of_walk hserved' hwalk', heffects, ?_, hpoint, ?_⟩
  · have hready' : Ready t.store := by
      rw [hstore]
      exact hready
    have hrevision : t.effects.organizationAuthorizationRevision = entryRevision t.store := by
      rw [heffects, hstore]
      rfl
    rw [afterBatch_of_walk hserved' hwalk', next_eq hready' hrevision]
    exact hstore
  · intro m m' first second hfirst hsecond
    exact finish_again hbookkept.outcomes hbookkept'.outcomes hpoint hfirst hsecond

/-- A customer that is pushed from two devices is written once. -/
theorem runBatches_replays_sample :
    ∃ run again, Batch.run [Sample.customer] none VitrialSync.Sample.principal Sample.store =
        .ok (.ok run) ∧
      Batch.run [Sample.customer] (some "d") VitrialSync.Sample.principal
        (runBatches [⟨VitrialSync.Sample.principal, none, [Sample.customer]⟩] Sample.store) =
        .ok (.ok again) ∧
      again.effects.mutationRows = [] ∧ again.effects.entityUpserts = [] := by
  obtain ⟨run, hrun⟩ := run_of_isSome
    (x := Batch.run [Sample.customer] none VitrialSync.Sample.principal Sample.store)
    (by decide +kernel)
  obtain ⟨again, hagain, heffects, -⟩ := runBatches_replays [] []
    ⟨VitrialSync.Sample.principal, none, [Sample.customer]⟩ Sample.store hrun
    VitrialSync.Sample.principal (some "d") rfl
  exact ⟨run, again, hrun, hagain, by rw [heffects]; rfl, by rw [heffects]; rfl⟩

end VitrialSync.Beam.Batch
