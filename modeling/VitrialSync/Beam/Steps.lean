import VitrialSync.Beam.Batch

set_option relaxedAutoImplicit false
set_option autoImplicit false

/-!
# What a step of the walk does

A record is settled in one of three ways: nothing is written and the world stays as it is, its
mutation id is spent, or it is committed. Every property of the walk is a case analysis over these
three, so the functions that write are opened here and nowhere else.

## Main definitions

* `VitrialSync.Beam.Batch.spend`, `VitrialSync.Beam.Batch.commit` — the states that a spent mutation
  id and an accepted record lead to.
* `VitrialSync.Beam.Batch.Settles` — the three ways.
* `VitrialSync.Beam.Batch.Reaches` — a step of a walk, with the states around it.

## Main results

* `VitrialSync.Beam.Batch.walkRecord_eq` — a step from the decision about the record and its
  fingerprint.
* `VitrialSync.Beam.Batch.settles_of_walkRecord` — a step that returned settled its record.
-/

namespace VitrialSync.Beam.Batch

open Python Program
open Admission (Prior Context Decision)

/-! ### The states of a step -/

section States

variable (record : Record) (principal : Principal)

/-- The state after the rows of a mutation with this fingerprint are written. -/
def spend (s : State) (status : ResultStatus) (resultRevision : Option ℕ) (fingerprint : Str) :
    State :=
  { s with
    store := { s.store with
      priors := s.store.priors.set record.clientMutationId (priorOf record status resultRevision)
      fingerprints := s.store.fingerprints.set record.clientMutationId fingerprint }
    effects := { s.effects with
      mutationRows := s.effects.mutationRows ++
        [mutationRow record principal status resultRevision s.deviceId]
      fingerprintRows := s.effects.fingerprintRows ++
        [⟨principal.organizationId, record.clientMutationId, fingerprint⟩] } }

/-- The revision that an accepted record gets. -/
def nextRevision (s : State) : ℕ := s.store.maxRevision + 1

/-- The state after an accepted record is written. -/
def commit (s : State) (admitted : Admitted) (fingerprint : Str) : State :=
  let row := entityRow record principal admitted.payload (nextRevision s)
  let advanced := advanceWorld (spend record principal s .accepted (some (nextRevision s))
    fingerprint) admitted.authorized row (nextRevision s)
  addEffects (widenWorkingScope (applyGrant advanced admitted.authorized) admitted.authorized) row
    (changelogRow record principal (nextRevision s)) admitted.evidenceGc

/-- The outcome of an accepted record. -/
def committedOutcome (s : State) (admitted : Admitted) : Admission.Outcome :=
  ⟨.accepted, .committed, some (nextRevision s), true, some admitted.payload⟩

variable {record principal}

/-- Writing a mutation wants its fingerprint, and nothing else. -/
lemma writeMutation_eq (s : State) (status : ResultStatus) (resultRevision : Option ℕ) :
    writeMutation record principal s status resultRevision =
      record.fingerprint.map (spend record principal s status resultRevision) := by
  unfold writeMutation fingerprintRow putPriors
  cases record.fingerprint <;> rfl

/-- A record whose rows are written is settled without a further change of the store. -/
lemma settle_of_spent (s : State) (o : Admission.Outcome) {fingerprint : Str} {index : ℕ}
    (hfingerprint : record.fingerprint = .ok fingerprint) {t : State}
    (hpriors : t.store.priors =
      s.store.priors.set record.clientMutationId (priorOf record o.status o.resultRevision))
    (hstored : t.store.fingerprints =
      s.store.fingerprints.set record.clientMutationId fingerprint) :
    settle record t index o = .ok (recordOutcome record t index o) := by
  unfold settle
  split
  · rw [putPriors, hfingerprint, hpriors, hstored, ok_bind, Table.set_set, Table.set_set]
    change Except.ok _ = Except.ok _
    rw [← hpriors, ← hstored]
  · rfl

/-- A grant leaves the rows of the mutations. -/
lemma applyGrant_priors (s : State) (authorized : Authorized) :
    (applyGrant s authorized).store.priors = s.store.priors ∧
      (applyGrant s authorized).store.fingerprints = s.store.fingerprints := by
  cases authorized with
  | generic plan ownership =>
    rw [applyGrant]
    split <;> exact ⟨rfl, rfl⟩
  | delivery child => exact ⟨rfl, rfl⟩

/-- A commit spends the mutation id. -/
lemma commit_priors (s : State) (admitted : Admitted) (fingerprint : Str) :
    (commit record principal s admitted fingerprint).store.priors =
        s.store.priors.set record.clientMutationId
          (priorOf record .accepted (some (nextRevision s))) ∧
      (commit record principal s admitted fingerprint).store.fingerprints =
        s.store.fingerprints.set record.clientMutationId fingerprint :=
  applyGrant_priors _ _

/-- An accepted record is committed. -/
lemma accept_eq (s : State) (index : ℕ) (admitted : Admitted) :
    accept s index record principal admitted =
      record.fingerprint.map fun fingerprint =>
        recordOutcome record (commit record principal s admitted fingerprint) index
          (committedOutcome s admitted) := by
  simp only [accept, writeMutation_eq]
  cases hfingerprint : record.fingerprint with
  | error e => rfl
  | ok fingerprint =>
    have hspent := @commit_priors record principal s admitted fingerprint
    exact settle_of_spent s (committedOutcome s admitted) hfingerprint hspent.1 hspent.2

end States

/-! ### Steps -/

/-- A step of the walk, from the decision about the record and from its fingerprint. -/
theorem walkRecord_eq (principal : Principal) (s : State) (record : Record) (index : ℕ) :
    walkRecord principal s (record, index) =
      (decideRecord s record principal >>= fun
        | .settled outcome =>
          if outcome.writesMutationRow then
            record.fingerprint.map fun fingerprint =>
              recordOutcome record
                (spend record principal s outcome.status outcome.resultRevision fingerprint) index
                outcome
          else .ok (recordOutcome record s index outcome)
        | .rejected code =>
          revisionOf (currentEntity s.store record) >>= fun revision =>
            record.fingerprint.map fun fingerprint =>
              recordOutcome record (spend record principal s .rejected revision fingerprint) index
                (Admission.reject code revision)
        | .admitted admitted =>
          record.fingerprint.map fun fingerprint =>
            recordOutcome record (commit record principal s admitted fingerprint) index
              (committedOutcome s admitted)) := by
  simp only [walkRecord]
  cases decideRecord s record principal with
  | error e => rfl
  | ok decision =>
    simp only [ok_bind]
    cases decision with
    | settled outcome =>
      by_cases hwrites : outcome.writesMutationRow = true
      · simp only [writeMutationIf, hwrites, ↓reduceIte, writeMutation_eq]
        cases hfingerprint : record.fingerprint with
        | error e => rfl
        | ok fingerprint => exact settle_of_spent s outcome hfingerprint rfl rfl
      · simp only [writeMutationIf, settle, hwrites, Bool.false_eq_true, ↓reduceIte]
        rfl
    | rejected code =>
      simp only [writeMutation_eq]
      cases revisionOf (currentEntity s.store record) with
      | error e => rfl
      | ok revision =>
        simp only [ok_bind]
        cases hfingerprint : record.fingerprint with
        | error e => rfl
        | ok fingerprint => exact settle_of_spent s (Admission.reject code revision) hfingerprint rfl rfl
    | admitted admitted => exact accept_eq s index admitted

/-- The three ways in which a record is settled: with its outcome and the state before the outcome
is noted. -/
inductive Settles (principal : Principal) (s : State) (record : Record) :
    Admission.Outcome → State → Prop
  /-- Nothing is written. -/
  | quiet (outcome : Admission.Outcome) (hwrites : outcome.writesMutationRow = false)
      (hreason : outcome.reason ≠ .committed) : Settles principal s record outcome s
  /-- The mutation id is spent. -/
  | refused (fingerprint : Str) (code : Reason) (revision : Option ℕ)
      (hpresent : Admission.missingId record = false)
      (hfresh : s.store.priors.get record.clientMutationId = none) :
      Settles principal s record (Admission.reject code revision)
        (spend record principal s .rejected revision fingerprint)
  /-- The record is committed. -/
  | accepted (fingerprint : Str) (admitted : Admitted)
      (hpresent : Admission.missingId record = false)
      (hfresh : s.store.priors.get record.clientMutationId = none)
      (hdecide : decideRecord s record principal = .ok (.admitted admitted)) :
      Settles principal s record (committedOutcome s admitted)
        (commit record principal s admitted fingerprint)

/-- What the first four steps settle: an outcome that writes nothing and is no commit, or a record
with a new mutation id that is rejected or decoded. -/
lemma settle_cases {record : Record} {context : Context} {outcome : Admission.Outcome}
    (h : Admission.settle record context = .ok outcome) :
    (outcome.writesMutationRow = false ∧ outcome.reason ≠ .committed ∧ outcome.payload = none) ∨
      Admission.missingId record = false ∧ context.prior = none ∧
        ((∃ code revision, outcome = Admission.reject code revision) ∨
          ∃ payload, Payload.decode record.payload = .ok payload ∧
            outcome = ⟨.accepted, .committed, none, true, some payload⟩) := by
  unfold Admission.settle at h
  by_cases hmissing : Admission.missingId record = true
  · rw [if_pos hmissing] at h
    cases h
    exact Or.inl ⟨rfl, by decide, rfl⟩
  · rw [if_neg hmissing] at h
    cases hprior : context.prior with
    | some prior =>
      simp only [hprior] at h
      obtain ⟨same, -, hsame⟩ := bind_eq_ok.mp h
      cases hsame
      refine Or.inl ⟨rfl, ?_, rfl⟩
      simp only [Admission.replayOutcome, Admission.replayReason]
      split_ifs <;> decide
    | none =>
      simp only [hprior, Except.ok.injEq] at h
      refine Or.inr ⟨Bool.eq_false_of_not_eq_true hmissing, rfl, ?_⟩
      rw [← h, Admission.stepRevisionGuard]
      split
      · exact Or.inl ⟨_, _, rfl⟩
      · cases hdecode : Payload.decode record.payload with
        | error e => exact Or.inl ⟨_, _, rfl⟩
        | ok payload => exact Or.inr ⟨payload, rfl, rfl⟩

/-- The decision about a record with the outcome of its first four steps: only a record that was
decoded goes on to the authority.

**Proof sketch.** Of the outcomes of `settle_cases` only the last one is accepted with a payload. -/
lemma decideRecord_cases {principal : Principal} {s : State} {record : Record}
    {decision : Decision} (h : decideRecord s record principal = .ok decision) :
    (∃ outcome, decision = .settled outcome ∧ outcome.writesMutationRow = false ∧
        outcome.reason ≠ .committed) ∨
      Admission.missingId record = false ∧ s.store.priors.get record.clientMutationId = none ∧
        ((∃ code revision, decision = .settled (Admission.reject code revision)) ∨
          ∃ payload, Payload.decode record.payload = .ok payload ∧
            Decision.ofAuthority (Authority.decide record payload (currentEntity s.store record)
              principal s.scope s.store.world) = .ok decision) := by
  obtain ⟨outcome, hsettle, hrest⟩ := bind_eq_ok.mp h
  rcases settle_cases hsettle with ⟨hwrites, hreason, hpayload⟩ | ⟨hpresent, hprior, hcases⟩
  · refine Or.inl ⟨outcome, ?_, hwrites, hreason⟩
    rw [hpayload] at hrest
    cases hstatus : outcome.status <;> rw [hstatus] at hrest <;> cases hrest <;> rfl
  · refine Or.inr ⟨hpresent, hprior, ?_⟩
    rcases hcases with ⟨code, revision, rfl⟩ | ⟨payload, hdecode, rfl⟩
    · cases hrest
      exact Or.inl ⟨code, revision, rfl⟩
    · exact Or.inr ⟨payload, hdecode, hrest⟩

/-- The authority admits a record or gives a code for it. -/
lemma ofAuthority_ne_settled {x : Except Halt Admitted} {outcome : Admission.Outcome} :
    Decision.ofAuthority x ≠ .ok (.settled outcome) := by
  unfold Decision.ofAuthority
  split <;> simp

/-- A step that returned settled its record in one of the three ways.

**Proof sketch.** `walkRecord_eq` leaves the three arms of the decision. An outcome that spends the
id comes from a new one by `decideRecord_cases`, and so does whatever the authority answers. -/
theorem settles_of_walkRecord {principal : Principal} {s s' : State} {record : Record} {index : ℕ}
    (h : walkRecord principal s (record, index) = .ok s') :
    ∃ outcome t, Settles principal s record outcome t ∧
      s' = recordOutcome record t index outcome := by
  rw [walkRecord_eq] at h
  obtain ⟨decision, hdecide, h⟩ := bind_eq_ok.mp h
  have hmap : ∀ {f : Str → State}, record.fingerprint.map f = .ok s' →
      ∃ fingerprint, f fingerprint = s' := by
    intro f hf
    cases hfingerprint : record.fingerprint with
    | error e =>
      rw [hfingerprint] at hf
      cases hf
    | ok fingerprint =>
      rw [hfingerprint] at hf
      exact ⟨fingerprint, Except.ok.inj hf⟩
  rcases decideRecord_cases hdecide with ⟨outcome, rfl, hwrites, hreason⟩ |
    ⟨hpresent, hfresh, ⟨code, revision, rfl⟩ | ⟨payload, -, hauthority⟩⟩
  · simp only [hwrites, Bool.false_eq_true, ↓reduceIte, Except.ok.injEq] at h
    exact ⟨outcome, s, .quiet outcome hwrites hreason, h.symm⟩
  · obtain ⟨fingerprint, hstate⟩ := hmap h
    exact ⟨_, _, .refused fingerprint code revision hpresent hfresh, hstate.symm⟩
  · cases decision with
    | settled outcome => exact absurd hauthority ofAuthority_ne_settled
    | rejected code =>
      obtain ⟨revision, -, h⟩ := bind_eq_ok.mp h
      obtain ⟨fingerprint, hstate⟩ := hmap h
      exact ⟨_, _, .refused fingerprint code revision hpresent hfresh, hstate.symm⟩
    | admitted admitted =>
      obtain ⟨fingerprint, hstate⟩ := hmap h
      exact ⟨_, _, .accepted fingerprint admitted hpresent hfresh hdecide, hstate.symm⟩

/-- A step whose record is admitted commits it. -/
lemma walkRecord_admitted {principal : Principal} {s s' : State} {record : Record} {index : ℕ}
    {admitted : Admitted} (hdecide : decideRecord s record principal = .ok (.admitted admitted))
    (h : walkRecord principal s (record, index) = .ok s') :
    ∃ fingerprint, s' = recordOutcome record (commit record principal s admitted fingerprint) index
      (committedOutcome s admitted) := by
  rw [walkRecord_eq, hdecide, ok_bind] at h
  cases hfingerprint : record.fingerprint with
  | error e =>
    rw [hfingerprint] at h
    cases h
  | ok fingerprint =>
    rw [hfingerprint] at h
    exact ⟨fingerprint, (Except.ok.inj h).symm⟩

/-! ### The steps of a walk -/

/-- A step of a walk, with the states before and after it. -/
def Reaches (records : List Record) (deviceId : Option Str) (principal : Principal) (store : Store)
    (s : State) (x : Record × ℕ) (s' : State) : Prop :=
  ∃ done rest, sortedRecords records = done ++ x :: rest ∧
    done.foldlM (walkRecord principal) (.start deviceId principal store) = .ok s ∧
    walkRecord principal s x = .ok s'

end VitrialSync.Beam.Batch
