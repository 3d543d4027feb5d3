import VitrialSync.Server.Retry
import VitrialSync.Server.Settlement

set_option relaxedAutoImplicit false
set_option autoImplicit false

/-!
# A repeated push

A mutation row and its fingerprint are written once and never changed, and a record whose mutation
id has a row is answered from it. So every record of a committed batch is answered in the same way
for ever after, whoever repeats it and whatever was pushed in between; with that the retry loop
executes a batch once, wherever the aborts hit.

## Main definitions

* `VitrialSync.Remembers` — the mutation rows of a state are kept by a later one.
* `VitrialSync.PushReport.classification` — how each record of a batch was classified.

## Main results

* `VitrialSync.runPushes_remembers` — a run keeps mutation rows.
* `VitrialSync.applyPushOnce_again` — a committed batch is repeated without a change.
* `VitrialSync.applyPush_exactlyOnce` — the same through the retry loop, and transient aborts make
  no difference.
-/

namespace VitrialSync

open Python Program

/-! ### Mutation rows are kept -/

/-- A later state still has the organizations, the mutation rows and their fingerprints. -/
structure Remembers (db later : Db) : Prop where
  organizations : ∀ organizationId, (db.organizations.get organizationId).isSome →
    (later.organizations.get organizationId).isSome
  rows : ∀ k prior, db.mutations.get k = some prior →
    later.mutations.get k = some prior ∧ later.fingerprints.get k = db.fingerprints.get k

namespace Remembers

/-- Nothing has changed. -/
lemma refl (db : Db) : Remembers db db := ⟨fun _ h => h, fun _ _ h => ⟨h, rfl⟩⟩

/-- Later than later. -/
lemma trans {db₁ db₂ db₃ : Db} (h₁ : Remembers db₁ db₂) (h₂ : Remembers db₂ db₃) :
    Remembers db₁ db₃ := by
  refine ⟨fun k h => h₂.organizations k (h₁.organizations k h), fun k prior h => ?_⟩
  obtain ⟨hrow, hfingerprint⟩ := h₁.rows k prior h
  obtain ⟨hrow', hfingerprint'⟩ := h₂.rows k prior hrow
  exact ⟨hrow', hfingerprint'.trans hfingerprint⟩

/-- Tables that keep the organizations and leave the sync tables alone. -/
lemma of_syncTables {db later : Db}
    (horganizations : ∀ k, (db.organizations.get k).isSome → (later.organizations.get k).isSome)
    (hsync : later.syncTables = db.syncTables) : Remembers db later := by
  refine ⟨horganizations, fun k prior h => ?_⟩
  have hmutations : later.mutations = db.mutations := congrArg SyncTables.mutations hsync
  have hfingerprints : later.fingerprints = db.fingerprints :=
    congrArg SyncTables.fingerprints hsync
  exact ⟨hmutations ▸ h, by rw [hfingerprints]⟩

end Remembers

/-- Applying an authorization keeps the mutation rows. -/
lemma applied_remembers (principal : Principal) (record : SyncRecord) (w : Working)
    (grant : Authorized) : Remembers w.db (grant.apply principal record w).2.db := by
  refine .of_syncTables (fun k hk => ?_) (applied_syncTables principal record w grant)
  have h := apply_application principal record w grant
  generalize grant.apply principal record w = applied at h ⊢
  cases h with
  | raised e => exact hk
  | written c => exact hk
  | customer plan hgrant htype hnew => exact grantCreatedScope_organizations _ _ _ _ k hk
  | project plan customerId hgrant htype hnew => exact grantCreatedScope_organizations _ _ _ _ k hk

/-- Queueing a blob for collection keeps the mutation rows. -/
lemma queueEvidenceGc_remembers (env : Env) (now : DateTime) (principal : Principal)
    (record : SyncRecord) (w : Working) :
    Remembers w.db (queueEvidenceGc env now principal record w).db := by
  refine .of_syncTables (fun k hk => ?_) (queueEvidenceGc_frame env now principal record w).1
  unfold queueEvidenceGc
  split_ifs
  · split <;> exact hk
  · exact hk

/-- The `try` block keeps the mutation rows. -/
lemma attempt_remembers {env : Env} {now : DateTime} {principal : Principal} {w w' : Working}
    {record : SyncRecord} {r : Except Exc Payload}
    (h : attempt env now principal w record (currentEntity w principal record) = (r, w')) :
    Remembers w.db w'.db := by
  cases r with
  | error e =>
    rcases attempt_eq_error h with rfl | ⟨payload, grant, -, -, happly⟩
    · exact .refl _
    · have happlied := applied_remembers principal record w grant
      rwa [happly] at happlied
  | ok payload =>
    obtain ⟨grant, w₁, hadmitted, rfl⟩ := attempt_eq_ok h
    have happlied := applied_remembers principal record w grant
    rw [hadmitted.applied] at happlied
    exact happlied.trans (queueEvidenceGc_remembers env now principal record w₁)

/-- A new mutation row leaves the others alone. -/
lemma recordMutation_remembers {principal : Principal} {mutationId : Str} {db : Db}
    (hnew : db.mutations.get (principal.organizationId, mutationId) = none) (deviceId : Str)
    (record : SyncRecord) (status : ResultStatus) (revision : Option ℕ) :
    Remembers db (recordMutation principal deviceId mutationId record status revision db) := by
  refine ⟨fun k hk => hk, fun k prior hk => ?_⟩
  have hne : k ≠ (principal.organizationId, mutationId) := by
    rintro rfl
    rw [hnew] at hk
    cases hk
  simp only [recordMutation, Table.get_set_of_ne _ _ hne]
  exact ⟨hk, trivial⟩

/-- A mutation row is new to the later state when it is new to the earlier one. -/
lemma attempt_mutations {env : Env} {now : DateTime} {principal : Principal} {w w' : Working}
    {record : SyncRecord} {r : Except Exc Payload}
    (h : attempt env now principal w record (currentEntity w principal record) = (r, w')) :
    w'.db.mutations = w.db.mutations := by
  cases r with
  | error e =>
    rcases attempt_eq_error h with rfl | ⟨payload, grant, -, -, happly⟩
    · rfl
    · have hsync := applied_syncTables principal record w grant
      rw [happly] at hsync
      exact congrArg SyncTables.mutations hsync
  | ok payload =>
    obtain ⟨grant, w₁, hadmitted, rfl⟩ := attempt_eq_ok h
    have hsync := applied_syncTables principal record w grant
    rw [hadmitted.applied] at hsync
    exact congrArg SyncTables.mutations
      ((queueEvidenceGc_frame env now principal record w₁).1.trans hsync)

/-! ### Answers -/

/-- The two outcomes agree in all but the reason. -/
structure SameAnswer (first again : Outcome) : Prop where
  accepted : again.accepted = first.accepted
  resultRevision : again.resultRevision = first.resultRevision

/-- A record whose mutation id has a row is answered from it. -/
lemma processRecord_answered {env : Env} {now : DateTime} {principal : Principal} {deviceId : Str}
    {w : Working} {record : SyncRecord} {mutationId : Str} {prior : SyncMutation}
    (hm : mutationId? record = some mutationId)
    (hp : w.db.mutations.get (principal.organizationId, mutationId) = some prior) :
    processRecord env now principal deviceId w record =
      .ok (w, replayOutcome w.db principal mutationId record prior) := by
  simp only [processRecord, hm, hp]

/-- The answer depends on the fingerprint and the organization. -/
lemma replayOutcome_congr {db later : Db} {principal principal' : Principal} {mutationId : Str}
    (horg : principal'.organizationId = principal.organizationId)
    (hfingerprint : later.fingerprints.get (principal.organizationId, mutationId) =
      db.fingerprints.get (principal.organizationId, mutationId))
    (record : SyncRecord) (prior : SyncMutation) :
    replayOutcome later principal' mutationId record prior =
      replayOutcome db principal mutationId record prior := by
  simp only [replayOutcome, horg, hfingerprint]

/-- The request that a row was written for is recognized. -/
lemma replayOutcome_recorded {db : Db} {principal : Principal} {mutationId : Str}
    {record : SyncRecord} (hfingerprint : db.fingerprints.get
      (principal.organizationId, mutationId) = some (requestFingerprint record))
    (prior : SyncMutation) :
    (replayOutcome db principal mutationId record prior).accepted =
        (prior.resultStatus == .accepted) ∧
      (replayOutcome db principal mutationId record prior).resultRevision =
        prior.resultServerRevision := by
  simp [replayOutcome, hfingerprint]

/-- The mutation row of an accepted record. -/
lemma commitRecord_mutations (principal : Principal) (deviceId mutationId : Str)
    (record : SyncRecord) (payload : Payload) (db : Db) :
    (commitRecord principal deviceId mutationId record payload db).mutations =
        (recordMutation principal deviceId mutationId record .accepted
          (some (db.nextRevision principal.organizationId)) db).mutations ∧
      (commitRecord principal deviceId mutationId record payload db).fingerprints =
        (recordMutation principal deviceId mutationId record .accepted
          (some (db.nextRevision principal.organizationId)) db).fingerprints :=
  ⟨rfl, rfl⟩

/-- A record whose row was just written is answered by it in every later state. -/
lemma answered_of_recordMutation {principal principal' : Principal} {deviceId mutationId : Str}
    {record : SyncRecord} {status : ResultStatus} {revision : Option ℕ} {db written : Db}
    {t : Working} (hm : mutationId? record = some mutationId)
    (horg : principal'.organizationId = principal.organizationId)
    (hwritten : written.mutations =
        (recordMutation principal deviceId mutationId record status revision db).mutations ∧
      written.fingerprints =
        (recordMutation principal deviceId mutationId record status revision db).fingerprints)
    (ht : Remembers written t.db) (env : Env) (now : DateTime) (deviceId' : Str) :
    ∃ o, processRecord env now principal' deviceId' t record = .ok (t, o) ∧
      o.accepted = (status == .accepted) ∧ o.resultRevision = revision := by
  have hrow := hwritten.1
  have hfingerprint := hwritten.2
  simp only [recordMutation] at hrow hfingerprint
  obtain ⟨hlater, hlater'⟩ := ht.rows (principal.organizationId, mutationId) _ (by
    rw [hrow, Table.get_set_self])
  rw [hfingerprint, Table.get_set_self, ← horg] at hlater'
  rw [← horg] at hlater
  obtain ⟨haccepted, hrevision⟩ := replayOutcome_recorded hlater' _
  exact ⟨_, processRecord_answered hm hlater, haccepted, hrevision⟩

namespace RecordStep

variable {env : Env} {s : RecordStep}

/-- **Step.** A step keeps the mutation rows. -/
lemma Valid.remembers (h : s.Valid env) : Remembers s.before.db s.after.db := by
  obtain ⟨input, before, record, after, outcome⟩ := s
  have hsettles := h.settles
  dsimp only at hsettles
  cases hsettles with
  | unnamed hm => exact .refl _
  | answered hm hp => exact .refl _
  | stale hm hp hs => exact recordMutation_remembers hp _ _ _ _
  | refused hm hp hs ha hc =>
    rw [← attempt_mutations ha] at hp
    exact (attempt_remembers ha).trans (recordMutation_remembers hp _ _ _ _)
  | committed hm hp hs ha =>
    rename_i mutationId payload w'
    rw [← attempt_mutations ha] at hp
    have hwritten := recordMutation_remembers hp input.batch.deviceID.text record .accepted
      (some (w'.db.nextRevision input.principal.organizationId))
    exact (attempt_remembers ha).trans ⟨hwritten.organizations, hwritten.rows⟩

/-- **Step.** The record of a step is answered in the same way in every later state.

**Proof sketch.** By the five ways a record is settled. A record without a mutation id never gets
further; a repeated one is answered from the same row; each of the other three ways writes the row
that answers it from then on. -/
lemma Valid.answers (h : s.Valid env) {t : Working} (ht : Remembers s.after.db t.db)
    {principal' : Principal}
    (horg : principal'.organizationId = s.input.principal.organizationId) (now : DateTime)
    (deviceId : Str) :
    ∃ o, processRecord env now principal' deviceId t s.record = .ok (t, o) ∧
      SameAnswer s.outcome o := by
  obtain ⟨input, before, record, after, outcome⟩ := s
  have hsettles := h.settles
  dsimp only at hsettles ht horg ⊢
  cases hsettles with
  | unnamed hm => exact ⟨_, by simp only [processRecord, hm], rfl, rfl⟩
  | answered hm hp =>
    obtain ⟨hrow, hfingerprint⟩ := ht.rows _ _ hp
    rw [← horg] at hrow
    refine ⟨_, processRecord_answered hm hrow, ?_⟩
    rw [replayOutcome_congr horg hfingerprint]
    exact ⟨rfl, rfl⟩
  | stale hm hp hs =>
    obtain ⟨o, ho, haccepted, hrevision⟩ := answered_of_recordMutation hm horg ⟨rfl, rfl⟩ ht env
      now deviceId
    exact ⟨o, ho, haccepted, hrevision⟩
  | refused hm hp hs ha hc =>
    obtain ⟨o, ho, haccepted, hrevision⟩ := answered_of_recordMutation hm horg ⟨rfl, rfl⟩ ht env
      now deviceId
    exact ⟨o, ho, haccepted, hrevision⟩
  | committed hm hp hs ha =>
    rename_i mutationId payload w'
    have hwritten := commitRecord_mutations input.principal input.batch.deviceID.text mutationId
      record payload w'.db
    obtain ⟨o, ho, haccepted, hrevision⟩ := answered_of_recordMutation hm horg hwritten ht env now
      deviceId
    exact ⟨o, ho, haccepted, hrevision⟩

end RecordStep

/-- A run keeps the mutation rows. -/
theorem runPushes_remembers (env : Env) (inputs : List PushInput) (db : Db) :
    Remembers db (runPushes env inputs db) :=
  runPushes_inv (I := Remembers db) (.refl db) fun _ hs hbefore =>
    hbefore.trans (runSteps_valid hs).1.remembers

/-! ### A batch again -/

/-- How each record of a batch was classified, in the order of processing. -/
def PushReport.classification (report : PushReport) : List ((SyncRecord × ℕ) × Bool) :=
  report.outcomes.map fun o => (o.1, o.2.accepted)

/-- The two reports classify every record in the same way. -/
structure SameReport (first again : PushReport) : Prop where
  classification : again.classification = first.classification
  acceptedRecordIDs : again.result.acceptedRecordIDs = first.result.acceptedRecordIDs
  rejectedRecordIDs : again.result.rejectedRecordIDs = first.result.rejectedRecordIDs

/-- The lists of a result depend on the classification. -/
lemma acceptedAt_eq (outcomes : List ((SyncRecord × ℕ) × Outcome)) (index : ℕ) :
    acceptedAt outcomes index =
      (outcomes.map fun o => (o.1, o.2.accepted)).any fun o => o.1.2 == index && o.2 := by
  rw [acceptedAt, List.any_map]
  rfl

/-- Records that are answered in the same way are classified in the same way. -/
lemma classification_eq {first again : List ((SyncRecord × ℕ) × Outcome)}
    (h : List.Forall₂ (fun a b => a.1 = b.1 ∧ SameAnswer a.2 b.2) first again) :
    (again.map fun o => (o.1, o.2.accepted)) = first.map fun o => (o.1, o.2.accepted) := by
  induction h with
  | nil => rfl
  | cons hab _ ih => rw [List.map_cons, List.map_cons, ih, hab.1, hab.2.accepted]

/-- **Repetition of a push.** In every state that remembers a committed batch, the batch can be
pushed again by any principal of the organization that may push at all: nothing changes, and every
record is classified as before.

**Proof sketch.** Every iteration of the loop keeps the mutation rows and is answered in later
states (`RecordStep.Valid.remembers`, `RecordStep.Valid.answers`); `Program.loop_again` goes through
the loop. -/
theorem applyPushOnce_again {env : Env} {now : DateTime} {principal : Principal}
    {batch : SyncBatch} {db db' later : Db} {report : PushReport}
    (h : applyPushOnce env now principal batch db = .ok (db', report))
    (hlater : Remembers db' later) {principal' : Principal}
    (horg : principal'.organizationId = principal.organizationId)
    (hsync : principal'.holds .sync = true) (now' : DateTime) :
    ∃ report', applyPushOnce env now' principal' batch later = .ok (later, report') ∧
      SameReport report report' ∧
      (later = db' → report'.result.nextCursor = report.result.nextCursor) := by
  unfold applyPushOnce at h
  split_ifs at h with hholds hmissing
  split at h
  · cases h
  · rename_i w outcomes hloop
    simp only [Except.ok.injEq, Prod.mk.injEq] at h
    obtain ⟨rfl, rfl⟩ := h
    have hvalid : ∀ it ∈ iterations (processIndexed env now principal batch.deviceID.text)
        (sortedRecords batch) (Working.start db principal),
        RecordStep.Valid env
          ⟨⟨now, principal, batch⟩, it.before, it.input.1, it.after, it.output⟩ :=
      fun it hit => (iterations_spec hit).1
    have hkept : Remembers db w.db :=
      loop_rel (R := fun w t : Working => Remembers w.db t.db) (fun _ => .refl _)
        (fun _ _ _ => .trans) hloop fun it hit => (hvalid it hit).remembers
    have hpresent : (later.organizations.get principal'.organizationId).isNone = false := by
      rw [horg]
      have hhere : (db.organizations.get principal.organizationId).isSome := by
        rwa [Option.isNone_iff_eq_none, ← ne_eq, Option.ne_none_iff_isSome] at hmissing
      simpa using (hkept.trans hlater).organizations principal.organizationId hhere
    obtain ⟨outcomes', hagain, hall⟩ := loop_again (R := fun w t : Working => Remembers w.db t.db)
      (Q := SameAnswer) (g := processIndexed env now' principal' batch.deviceID.text)
      (t := Working.start later principal') (fun _ => .refl _) (fun _ _ _ => .trans) hloop
      (fun it hit => (hvalid it hit).remembers)
      (fun it hit ht => (hvalid it hit).answers ht horg now' _) hlater
    have hclassification := classification_eq hall
    refine ⟨⟨syncResult later principal' batch outcomes', outcomes'⟩, ?_,
      ⟨hclassification, ?_, ?_⟩, ?_⟩
    · simp only [applyPushOnce, hsync, hpresent, hagain, Bool.not_true, Bool.false_eq_true,
        ↓reduceIte]
      rfl
    · simp only [syncResult, acceptedAt_eq, hclassification]
    · simp only [syncResult, acceptedAt_eq, hclassification]
    · rintro rfl
      simp only [syncResult, horg]

/-- A principal that may not push changes nothing. -/
lemma applyPushOnce_denied {env : Env} {now : DateTime} {principal : Principal}
    {batch : SyncBatch} {db : Db} (hsync : principal.holds .sync = false) :
    applyPushOnce env now principal batch db =
      .error (.permissionError (Str.ofString "sync capability required")) := by
  simp [applyPushOnce, hsync]

/-- The results of a push and of its repetition: the same lists and the same cursor. -/
def SameResult (first again : PushReport) : Prop :=
  SameReport first again ∧ again.result = first.result

/-- **Exactly once.** After a batch was committed, any principal of the organization may push it
again, at any later time and with transient aborts: no table changes, and a principal with the
capability to sync gets every record classified as in the first execution. When fewer transient
aborts hit a push than attempts are made, wherever they hit, it ends as one clean execution of the
batch at the time of one of its attempts. -/
theorem applyPush_exactlyOnce (env : Env) (principal : Principal) (batch : SyncBatch) (db : Db) :
    (∀ now db' report, applyPushOnce env now principal batch db = .ok (db', report) →
      ∀ between clock interruption principal',
        principal'.organizationId = principal.organizationId →
        (applyPush env clock interruption principal' batch (runPushes env between db')).2 =
            runPushes env between db' ∧
          (principal'.holds .sync = true → (∀ k, (interruption k).Transient) →
            FewerAborts interruption defaultAttempts →
            ∃ report', (applyPush env clock interruption principal' batch
                (runPushes env between db')).1 = .ok report' ∧ SameReport report report')) ∧
    (∀ clock interruption, (∀ k, (interruption k).Transient) →
      FewerAborts interruption defaultAttempts →
      ∃ k, 1 ≤ k ∧ k ≤ defaultAttempts ∧
        Executes (applyPushOnce env (clock k) principal batch) SameResult db
          (applyPush env clock interruption principal batch db)) := by
  constructor
  · intro now db' report hpush between clock interruption principal' horg
    have hlater := runPushes_remembers env between db'
    constructor
    · refine runWithTransientRetry_unchanged (fun k => ?_) _ _
      cases hsync : principal'.holds .sync with
      | false => cases hi : interruption k <;> simp [interrupted, applyPushOnce_denied hsync]
      | true =>
        obtain ⟨report', hagain, -⟩ := applyPushOnce_again hpush hlater horg hsync (clock k)
        cases hi : interruption k <;> simp [interrupted, hagain]
    · intro hsync htransient hfewer
      obtain ⟨j, hj, hj', hclean⟩ := hfewer.exists_clean
      have hagain : ∀ k, ∃ report', applyPushOnce env (clock k) principal' batch
          (runPushes env between db') = .ok (runPushes env between db', report') ∧
            SameReport report report' := by
        intro k
        obtain ⟨report', hrun, hsame, -⟩ := applyPushOnce_again hpush hlater horg hsync (clock k)
        exact ⟨report', hrun, hsame⟩
      obtain ⟨report', hrun, hsame⟩ := retryFrom_answered hagain htransient 1 2
        ⟨j, hj, hj', hclean⟩
      exact ⟨report', congrArg Prod.fst hrun, hsame⟩
  · intro clock interruption htransient hfewer
    refine runWithTransientRetry_interrupted (fun _ => ⟨⟨rfl, rfl, rfl⟩, rfl⟩) ?_ htransient hfewer
    intro j db' report hpush k
    have hholds : principal.holds .sync = true := by
      by_contra hnot
      rw [applyPushOnce_denied (Bool.eq_false_iff.mpr hnot)] at hpush
      cases hpush
    obtain ⟨report', hrun, hsame, hcursor⟩ :=
      applyPushOnce_again hpush (.refl db') rfl hholds (clock k)
    refine ⟨report', hrun, hsame, ?_⟩
    have haccepted := hsame.acceptedRecordIDs
    have hrejected := hsame.rejectedRecordIDs
    have hnext := hcursor rfl
    generalize report'.result = again at haccepted hrejected hnext ⊢
    generalize report.result = first at haccepted hrejected hnext ⊢
    cases again
    cases first
    simp_all only

/-- The creation of the sample customer, twice under one mutation id. -/
def Sample.doubled : SyncBatch :=
  let create := record .customer "c" "1" none [("id", .str "c")]
  { deviceID := identifier "d"
    cursor := none
    records := [create, create]
    records_le := by simp [maxSyncRecords]
    payload_le := by decide +kernel }

/-- A serialization failure after the first commit, and none after that. -/
def Sample.interruption : ℕ → Interruption
  | 1 => .afterCommit (.database (some "40001") none)
  | _ => .clean

/-- The sample batch is executed once under an abort after its commit, and can be repeated. -/
theorem applyPush_exactlyOnce_sample :
    ∃ db' report,
      applyPushOnce Sample.env Sample.time Sample.principal Sample.doubled Sample.db =
        .ok (db', report) ∧
      (∃ report', applyPush Sample.env (fun _ => Sample.time) Sample.interruption
        Sample.principal Sample.doubled Sample.db = (.ok report', db') ∧
          SameResult report report') ∧
      ∃ report', (applyPush Sample.env (fun _ => Sample.time) Sample.interruption
        Sample.principal Sample.doubled db').1 = .ok report' ∧ SameReport report report' := by
  have htransient : ∀ k, (Sample.interruption k).Transient := by
    intro k
    unfold Sample.interruption
    split
    · decide
    · trivial
  have hfewer : FewerAborts Sample.interruption defaultAttempts := by
    unfold FewerAborts
    decide
  obtain ⟨hreplay, honce⟩ :=
    applyPush_exactlyOnce Sample.env Sample.principal Sample.doubled Sample.db
  have hok : (applyPushOnce Sample.env Sample.time Sample.principal Sample.doubled
      Sample.db).isOk = true := by
    decide +kernel
  generalize hrun : applyPushOnce Sample.env Sample.time Sample.principal Sample.doubled
    Sample.db = ended at hok
  cases ended with
  | error e => cases hok
  | ok committed =>
    obtain ⟨db', report⟩ := committed
    refine ⟨db', report, rfl, ?_, ?_⟩
    · obtain ⟨k, -, -, hexecutes⟩ := honce (fun _ => Sample.time) _ htransient hfewer
      simpa only [Executes, hrun] using hexecutes
    · exact (hreplay Sample.time db' report hrun [] (fun _ => Sample.time) _ Sample.principal
        rfl).2 rfl htransient hfewer

end VitrialSync
