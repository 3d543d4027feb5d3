import VitrialSync.Server.Push

set_option relaxedAutoImplicit false
set_option autoImplicit false

/-!
# Retry of transient aborts

`app/transient_retry.py` and `apply_push`. An operation is run again when PostgreSQL aborted it with
one of three SQLSTATEs, a bounded number of times; any other exception is passed on. An abort can
hit an attempt before its commit, and then the attempt has left nothing behind, or after it.

## Main definitions

* `VitrialSync.runWithTransientRetry` — `run_with_transient_retry`.
* `VitrialSync.interrupted` — a transaction that an abort may hit.
* `VitrialSync.applyPush` — `apply_push`.

## Main results

* `VitrialSync.runWithTransientRetry_interrupted` — a transaction that answers its repetition in the
  same way is executed once.
-/

namespace VitrialSync

open Python Program

/-- An exception of a database operation: a `DBAPIError`, with the attributes `sqlstate` and
`pgcode` of its origin, or one that the operation raised itself. -/
inductive Failure where
  | database (sqlstate pgcode : Option Str)
  | raised (e : Exc)
  deriving DecidableEq

/-- `sqlstate_of`. -/
def sqlstateOf : Failure → Option Str
  | .raised _ => none
  | .database sqlstate pgcode =>
    (sqlstate.filter fun code => !code.isEmpty).orElse fun _ =>
      pgcode.filter fun code => !code.isEmpty

/-- `STATEMENT_TIMEOUT`. -/
def statementTimeout : Str := "57014"

/-- `TRANSIENT_SQLSTATES`. -/
def transientSqlstates : List Str := ["40001", "40P01", "55P03"]

/-- `is_transient`. -/
def isTransient (includeTimeout : Bool) (failure : Failure) : Bool :=
  match sqlstateOf failure with
  | none => false
  | some state =>
    if state = statementTimeout then includeTimeout else transientSqlstates.contains state

section Retry

variable {σ ω : Type}

/-- The loop of `run_with_transient_retry` from one attempt on, with the number of attempts that
may follow it. An attempt ends with a result or an exception and leaves the committed tables. -/
def retryFrom (operation : ℕ → σ → Except Failure ω × σ) (includeTimeout : Bool) :
    ℕ → ℕ → σ → Except Failure ω × σ
  | attempt, further, s =>
    match operation attempt s with
    | (.ok result, s') => (.ok result, s')
    | (.error failure, s') =>
      if !isTransient includeTimeout failure then (.error failure, s')
      else
        match further with
        | 0 => (.error failure, s')
        | further + 1 => retryFrom operation includeTimeout (attempt + 1) further s'

/-- `run_with_transient_retry`. -/
def runWithTransientRetry (operation : ℕ → σ → Except Failure ω × σ) (attempts : ℕ)
    (includeTimeout : Bool) (s : σ) : Except Failure ω × σ :=
  match attempts with
  | 0 => (.error (.raised (.valueError (Str.ofString "attempts must be at least 1"))), s)
  | further + 1 => retryFrom operation includeTimeout 1 further s

/-- What hits an attempt. -/
inductive Interruption where
  | clean
  | beforeCommit (failure : Failure)
  | afterCommit (failure : Failure)
  deriving DecidableEq

/-- The exceptions that hit an attempt are transient aborts. -/
def Interruption.Transient : Interruption → Prop
  | clean => True
  | beforeCommit failure => isTransient false failure = true
  | afterCommit failure => isTransient false failure = true

instance : DecidablePred Interruption.Transient := fun i => by
  cases i <;> (unfold Interruption.Transient; infer_instance)

/-- A transaction that may be hit by an abort. One that raises does not reach its commit. -/
def interrupted (transaction : σ → Except Exc (σ × ω)) (interruption : Interruption) (s : σ) :
    Except Failure ω × σ :=
  match interruption with
  | .beforeCommit failure => (.error failure, s)
  | .clean =>
    match transaction s with
    | .error e => (.error (.raised e), s)
    | .ok (s', result) => (.ok result, s')
  | .afterCommit failure =>
    match transaction s with
    | .error e => (.error (.raised e), s)
    | .ok (s', _) => (.error failure, s')

/-- An exception that the operation raised itself is not transient. -/
lemma isTransient_raised (includeTimeout : Bool) (e : Exc) :
    isTransient includeTimeout (.raised e) = false := rfl

/-- The outcome of a transaction: its result, or its exception, and the state it leaves. -/
def Executes (transaction : σ → Except Exc (σ × ω)) (Same : ω → ω → Prop) (s : σ)
    (ended : Except Failure ω × σ) : Prop :=
  match transaction s with
  | .error e => ended = (.error (.raised e), s)
  | .ok (s', result) => ∃ result', ended = (.ok result', s') ∧ Same result result'

variable {transaction : ℕ → σ → Except Exc (σ × ω)} {interruption : ℕ → Interruption}
  {Same : ω → ω → Prop}

/-- After the commit, further attempts change nothing and give the same result.

**Proof sketch.** By induction on the number of attempts that may follow. A clean attempt ends the
loop; an abort before or after the commit of an attempt leaves the state as it is. -/
lemma retryFrom_answered {s : σ} {result : ω}
    (hagain : ∀ k, ∃ result', transaction k s = .ok (s, result') ∧ Same result result')
    (htransient : ∀ k, (interruption k).Transient) (attempt further : ℕ)
    (hclean : ∃ k, attempt ≤ k ∧ k ≤ attempt + further ∧ interruption k = .clean) :
    ∃ result', retryFrom (fun k => interrupted (transaction k) (interruption k)) false attempt
      further s = (.ok result', s) ∧ Same result result' := by
  induction further generalizing attempt with
  | zero =>
    obtain ⟨k, hle, hge, hk⟩ := hclean
    obtain rfl : attempt = k := by omega
    obtain ⟨result', hrun, hsame⟩ := hagain attempt
    exact ⟨result', by simp [retryFrom, interrupted, hk, hrun], hsame⟩
  | succ further ih =>
    obtain ⟨result', hrun, hsame⟩ := hagain attempt
    have hnext : interruption attempt ≠ .clean →
        ∃ k, attempt + 1 ≤ k ∧ k ≤ attempt + 1 + further ∧ interruption k = .clean := by
      intro hne
      obtain ⟨k, hle, hge, hk⟩ := hclean
      have hlt : attempt ≠ k := fun heq => hne (heq ▸ hk)
      exact ⟨k, by omega, by omega, hk⟩
    have hthis := htransient attempt
    unfold retryFrom
    cases hi : interruption attempt with
    | clean => exact ⟨result', by simp [interrupted, hrun], hsame⟩
    | beforeCommit failure =>
      rw [hi] at hthis hnext
      have habort : isTransient false failure = true := hthis
      simpa [interrupted, habort] using ih (attempt + 1) (hnext (by simp))
    | afterCommit failure =>
      rw [hi] at hthis hnext
      have habort : isTransient false failure = true := hthis
      simpa [interrupted, habort, hrun] using ih (attempt + 1) (hnext (by simp))

/-- Retry is one execution, from any attempt on.

**Proof sketch.** By induction on the number of attempts that may follow. An abort before the commit
leaves the state for the next attempt; after the first commit `retryFrom_answered` applies. -/
lemma retryFrom_executes {s : σ} (hrefl : ∀ result, Same result result)
    (hagain : ∀ j s' result, transaction j s = .ok (s', result) →
      ∀ k, ∃ result', transaction k s' = .ok (s', result') ∧ Same result result')
    (htransient : ∀ k, (interruption k).Transient) (attempt further : ℕ)
    (hclean : ∃ k, attempt ≤ k ∧ k ≤ attempt + further ∧ interruption k = .clean) :
    ∃ k, attempt ≤ k ∧ k ≤ attempt + further ∧ Executes (transaction k) Same s
      (retryFrom (fun k => interrupted (transaction k) (interruption k)) false attempt further
        s) := by
  induction further generalizing attempt with
  | zero =>
    obtain ⟨k, hle, hge, hk⟩ := hclean
    obtain rfl : attempt = k := by omega
    refine ⟨attempt, le_rfl, by omega, ?_⟩
    unfold Executes retryFrom
    cases hrun : transaction attempt s with
    | error e => simp [interrupted, hk, hrun, isTransient_raised]
    | ok r => exact ⟨r.2, by simp [interrupted, hk, hrun], hrefl r.2⟩
  | succ further ih =>
    have hnext : interruption attempt ≠ .clean →
        ∃ k, attempt + 1 ≤ k ∧ k ≤ attempt + 1 + further ∧ interruption k = .clean := by
      intro hne
      obtain ⟨k, hle, hge, hk⟩ := hclean
      have hlt : attempt ≠ k := fun heq => hne (heq ▸ hk)
      exact ⟨k, by omega, by omega, hk⟩
    have hthis := htransient attempt
    cases hi : interruption attempt with
    | clean =>
      refine ⟨attempt, le_rfl, by omega, ?_⟩
      unfold Executes retryFrom
      cases hrun : transaction attempt s with
      | error e => simp [interrupted, hi, hrun, isTransient_raised]
      | ok r => exact ⟨r.2, by simp [interrupted, hi, hrun], hrefl r.2⟩
    | beforeCommit failure =>
      rw [hi] at hthis hnext
      have habort : isTransient false failure = true := hthis
      obtain ⟨k, hle, hge, hexecutes⟩ := ih (attempt + 1) (hnext (by simp))
      refine ⟨k, by omega, by omega, ?_⟩
      unfold retryFrom
      simpa [interrupted, hi, habort] using hexecutes
    | afterCommit failure =>
      rw [hi] at hthis hnext
      have habort : isTransient false failure = true := hthis
      refine ⟨attempt, le_rfl, by omega, ?_⟩
      unfold Executes retryFrom
      cases hrun : transaction attempt s with
      | error e => simp [interrupted, hi, hrun, isTransient_raised]
      | ok r =>
        obtain ⟨result', hanswer, hsame⟩ := retryFrom_answered (hagain attempt r.1 r.2 hrun)
          htransient (attempt + 1) further (hnext (by simp))
        exact ⟨result', by simpa [interrupted, hi, hrun, habort] using hanswer, hsame⟩

/-- Fewer transient aborts than attempts, counted over the attempts that can be made. -/
def FewerAborts (interruption : ℕ → Interruption) (attempts : ℕ) : Prop :=
  ((List.range' 1 attempts).filter fun k => interruption k ≠ .clean).length < attempts

/-- With fewer aborts than attempts, one of the attempts is clean. -/
lemma FewerAborts.exists_clean {attempts : ℕ} (h : FewerAborts interruption attempts) :
    ∃ k, 1 ≤ k ∧ k ≤ attempts ∧ interruption k = .clean := by
  by_contra hnone
  push Not at hnone
  have hall : ∀ k ∈ List.range' 1 attempts, decide (interruption k ≠ .clean) = true := by
    intro k hk
    rw [List.mem_range'_1] at hk
    exact decide_eq_true (hnone k hk.1 (by omega))
  rw [FewerAborts, List.filter_eq_self.mpr hall, List.length_range'] at h
  exact lt_irrefl _ h

/-- **Exactly once.** A transaction that changes nothing and gives the same result when it is
repeated after its commit is executed once by the retry loop, when fewer transient aborts hit than
attempts are made. -/
theorem runWithTransientRetry_interrupted {s : σ} (hrefl : ∀ result, Same result result)
    (hagain : ∀ j s' result, transaction j s = .ok (s', result) →
      ∀ k, ∃ result', transaction k s' = .ok (s', result') ∧ Same result result')
    (htransient : ∀ k, (interruption k).Transient) {attempts : ℕ}
    (hfewer : FewerAborts interruption attempts) :
    ∃ k, 1 ≤ k ∧ k ≤ attempts ∧ Executes (transaction k) Same s
      (runWithTransientRetry (fun k => interrupted (transaction k) (interruption k)) attempts false
        s) := by
  obtain ⟨k, hle, hge, hk⟩ := hfewer.exists_clean
  cases attempts with
  | zero => omega
  | succ further =>
    obtain ⟨j, hj, hj', hexecutes⟩ := retryFrom_executes hrefl hagain htransient 1 further
      ⟨k, hle, by omega, hk⟩
    exact ⟨j, hj, by omega, hexecutes⟩

/-- When every attempt leaves the state as it is, so does the retry loop. -/
lemma runWithTransientRetry_unchanged {operation : ℕ → σ → Except Failure ω × σ} {s : σ}
    (h : ∀ k, (operation k s).2 = s) (attempts : ℕ) (includeTimeout : Bool) :
    (runWithTransientRetry operation attempts includeTimeout s).2 = s := by
  have hfrom : ∀ further attempt, (retryFrom operation includeTimeout attempt further s).2 = s := by
    intro further
    induction further with
    | zero =>
      intro attempt
      have hattempt := h attempt
      unfold retryFrom
      cases hrun : operation attempt s with
      | mk ended s' =>
        rw [hrun] at hattempt
        cases ended with
        | ok result => exact hattempt
        | error failure => simpa using hattempt
    | succ further ih =>
      intro attempt
      have hattempt := h attempt
      unfold retryFrom
      cases hrun : operation attempt s with
      | mk ended s' =>
        rw [hrun] at hattempt
        obtain rfl : s' = s := hattempt
        cases ended with
        | ok result => rfl
        | error failure =>
          dsimp only
          split_ifs
          · rfl
          · exact ih (attempt + 1)
  cases attempts with
  | zero => rfl
  | succ further => exact hfrom further 1

end Retry

/-- `DEFAULT_ATTEMPTS`. -/
def defaultAttempts : ℕ := 3

/-- `apply_push`: the attempts of a push at their own times, each of which an abort may hit. -/
def applyPush (env : Env) (clock : ℕ → DateTime) (interruption : ℕ → Interruption)
    (principal : Principal) (batch : SyncBatch) (db : Db) : Except Failure PushReport × Db :=
  runWithTransientRetry
    (fun k => interrupted (applyPushOnce env (clock k) principal batch) (interruption k))
    defaultAttempts false db

end VitrialSync
