import VitrialSync.Server.Pull

set_option relaxedAutoImplicit false
set_option autoImplicit false

/-!
# Cursors

What `pull_since` makes of the text of a cursor. A text is a position when it is empty or names one:
the prefix and one to nineteen decimal digits, of any script, of a number that a `BIGINT` holds. The
guard asks `isdigit`, which is true of further digits, as superscripts are; on a short text with
such a digit the guard passes and `int` raises `ValueError`.

## Main definitions

* `VitrialSync.Denotes` — the cursor of a position.
* `VitrialSync.CursorRead` — a cursor is read as a position, or refused.
* `VitrialSync.Undecodable` — a text that passes the guard and that `int` does not read.

## Main results

* `VitrialSync.startSequence_cases` — what a cursor comes to.
* `VitrialSync.cursors_read_iff` — a cursor is read or refused unless `int` does not read it, and the
  cursors that the service writes are read.
-/

namespace VitrialSync

open Python Program

/-! ### Positions -/

/-- The prefix, and one to nineteen decimal digits that denote a number that a `BIGINT` holds. -/
def Denotes (cursor : Str) (n : ℕ) : Prop :=
  n ≤ maxCursorSequence ∧ ∃ digits, cursor = cursorPrefix ++ digits ∧ 1 ≤ digits.length ∧
    digits.length ≤ maxCursorDigits ∧ digits.digitsValue? = some n

/-- The text of a cursor is used as a position or refused, and it is used as a position exactly when
it denotes that position; the empty text denotes the start. -/
structure CursorRead (cursor : Str) : Prop where
  total : startSequence (some cursor) = .error invalidCursor ∨
    ∃ n ≤ maxCursorSequence, startSequence (some cursor) = .ok n
  exact : ∀ n, startSequence (some cursor) = .ok n ↔ (cursor = [] ∧ n = 0) ∨ Denotes cursor n

/-- The prefix, and one to nineteen digits one of which is not decimal. -/
def Undecodable (cursor : Str) : Prop :=
  ∃ digits, cursor = cursorPrefix ++ digits ∧ digits.isDigit = true ∧
    digits.length ≤ maxCursorDigits ∧ digits.digitsValue? = none

/-! ### Reading -/

/-- Decimal digits have values, one by one. -/
lemma decimalValue?_of_mapM {digits : Str} {values : List ℕ}
    (h : digits.mapM decimalValue? = some values) : ∀ c ∈ digits, (decimalValue? c).isSome := by
  induction digits generalizing values with
  | nil => simp
  | cons c digits ih =>
    simp only [List.mapM_cons, Option.bind_eq_bind, Option.bind_eq_some_iff] at h
    obtain ⟨value, hvalue, rest, hrest, -⟩ := h
    rw [List.forall_mem_cons]
    exact ⟨by rw [hvalue]; rfl, ih hrest⟩

/-- Decimal digits are digits. -/
lemma isDigit_of_digitsValue? {digits : Str} {n : ℕ} (hne : 1 ≤ digits.length)
    (h : digits.digitsValue? = some n) : digits.isDigit = true := by
  obtain ⟨values, hvalues, -⟩ := Option.map_eq_some_iff.mp h
  have hall : digits.all Python.isDigit = true := by
    rw [List.all_eq_true]
    intro c hc
    rw [Python.isDigit, decimalValue?_of_mapM hvalues c hc, Bool.true_or]
  have hnonempty : digits.isEmpty = false := by
    cases digits with
    | nil => simp at hne
    | cons c cs => rfl
  rw [Str.isDigit, hall, hnonempty]
  rfl

/-- A text that is not empty is a position, or is refused, or has the prefix and digits that `int`
does not read. -/
lemma startSequence_eq_ok {cursor : Str} (hne : cursor ≠ []) {n : ℕ} :
    startSequence (some cursor) = .ok n ↔ Denotes cursor n := by
  have hempty : cursor.isEmpty = false := by simpa using hne
  constructor
  · intro h
    simp only [startSequence, hempty, Bool.false_eq_true, ↓reduceIte] at h
    split_ifs at h with hguard hlong
    simp only [Bool.or_eq_true, Bool.not_eq_true', not_or, Bool.not_eq_false] at hguard
    obtain ⟨hseq, hdigits⟩ := hguard
    obtain ⟨digits, rfl⟩ := List.isPrefixOf_iff_prefix.mp hseq
    have hdrop : (cursorPrefix ++ digits).drop 4 = digits := rfl
    rw [hdrop] at h hdigits hlong
    cases hvalue : Str.digitsValue? digits with
    | none => simp [hvalue] at h
    | some m =>
      simp only [hvalue] at h
      split_ifs at h with hlarge
      obtain rfl := Except.ok.inj h
      refine ⟨not_lt.mp hlarge, digits, rfl, ?_, not_lt.mp hlong, hvalue⟩
      cases digits with
      | nil => simp [Str.isDigit] at hdigits
      | cons c digits => simp
  · rintro ⟨hle, digits, rfl, hone, hlength, hvalue⟩
    have hdrop : (cursorPrefix ++ digits).drop 4 = digits := rfl
    have hseq : cursorPrefix.isPrefixOf (cursorPrefix ++ digits) = true :=
      List.isPrefixOf_iff_prefix.mpr (List.prefix_append _ _)
    simp [startSequence, hempty, hseq, hdrop, isDigit_of_digitsValue? hone hvalue, hvalue,
      not_lt.mpr hlength, not_lt.mpr hle]

/-- The empty text is the start of the log. -/
lemma startSequence_nil {n : ℕ} : startSequence (some []) = .ok n ↔ n = 0 := by
  simp [startSequence, eq_comm]

/-- A text comes to a position, to a refusal, or to the error of `int`. -/
lemma startSequence_cases (cursor : Str) :
    (∃ n ≤ maxCursorSequence, startSequence (some cursor) = .ok n) ∨
      startSequence (some cursor) = .error invalidCursor ∨
      (Undecodable cursor ∧ ∃ message, startSequence (some cursor) = .error (.valueError message)) := by
  unfold startSequence
  dsimp only
  split_ifs with hempty hguard hlong
  · exact Or.inl ⟨0, Nat.zero_le _, rfl⟩
  · exact Or.inr (Or.inl rfl)
  · exact Or.inr (Or.inl rfl)
  · simp only [Bool.or_eq_true, Bool.not_eq_true', not_or, Bool.not_eq_false] at hguard
    obtain ⟨hseq, hdigits⟩ := hguard
    obtain ⟨digits, rfl⟩ := List.isPrefixOf_iff_prefix.mp hseq
    have hdrop : (cursorPrefix ++ digits).drop 4 = digits := rfl
    rw [hdrop] at hdigits hlong ⊢
    cases hvalue : Str.digitsValue? digits with
    | none =>
      exact Or.inr (Or.inr ⟨⟨digits, rfl, hdigits, not_lt.mp hlong, hvalue⟩, _, rfl⟩)
    | some m =>
      dsimp only
      split_ifs with hlarge
      · exact Or.inr (Or.inl rfl)
      · exact Or.inl ⟨m, not_lt.mp hlarge, rfl⟩

/-- On a text that `int` does not read, a pull raises `ValueError`. -/
lemma startSequence_undecodable {cursor : Str} (h : Undecodable cursor) :
    ∃ message, startSequence (some cursor) = .error (.valueError message) := by
  obtain ⟨digits, rfl, hdigits, hlength, hvalue⟩ := h
  have hempty : (cursorPrefix ++ digits).isEmpty = false := rfl
  have hdrop : (cursorPrefix ++ digits).drop 4 = digits := rfl
  have hseq : cursorPrefix.isPrefixOf (cursorPrefix ++ digits) = true :=
    List.isPrefixOf_iff_prefix.mpr (List.prefix_append _ _)
  simp [startSequence, hempty, hseq, hdrop, hdigits, hvalue, not_lt.mpr hlength]

/-- **A cursor is used as a position or refused, unless `int` does not read its digits**, and the
cursors that the service writes are used as the positions they were built from.

**Proof sketch.** A text that is used is characterized by `startSequence_eq_ok`, what else can happen
by `startSequence_cases`; the digits of a written cursor are ASCII (`startSequence_cursorText`). -/
theorem cursors_read_iff (cursor : Str) :
    (CursorRead cursor ↔ ¬ Undecodable cursor) ∧
      ∀ n ≤ maxCursorSequence, startSequence (some (cursorText n)) = .ok n ∧
        Denotes (cursorText n) n := by
  constructor
  · constructor
    · rintro ⟨htotal, -⟩ hundecodable
      obtain ⟨message, hraised⟩ := startSequence_undecodable hundecodable
      rcases htotal with hrefused | ⟨n, -, hn⟩
      · simp [hraised, invalidCursor] at hrefused
      · simp [hraised] at hn
    · intro hdecodable
      constructor
      · rcases startSequence_cases cursor with hread | hrefused | ⟨hundecodable, -⟩
        · exact Or.inr hread
        · exact Or.inl hrefused
        · exact absurd hundecodable hdecodable
      · intro n
        by_cases hne : cursor = []
        · subst hne
          rw [startSequence_nil]
          simp [Denotes, cursorPrefix, Str.ofString]
        · rw [startSequence_eq_ok hne]
          simp [hne]
  · intro n hn
    have hread := startSequence_cursorText hn
    exact ⟨hread, (startSequence_eq_ok (by simp [cursorText, cursorPrefix, Str.ofString])).mp hread⟩

/-- A superscript passes the guard, and the reading raises `ValueError`. -/
theorem not_cursorRead_superscript :
    startSequence (some (cursorPrefix ++ [⟨0xb2, by decide⟩])) =
        .error (.valueError (Str.ofString "invalid literal for int() with base 10: '" ++
          [⟨0xb2, by decide⟩] ++ Str.ofString "'")) ∧
      ¬ CursorRead (cursorPrefix ++ [⟨0xb2, by decide⟩]) := by
  have hraised : startSequence (some (cursorPrefix ++ [⟨0xb2, by decide⟩])) =
      .error (.valueError (Str.ofString "invalid literal for int() with base 10: '" ++
        [⟨0xb2, by decide⟩] ++ Str.ofString "'")) := by
    decide +kernel
  refine ⟨hraised, fun hread => ?_⟩
  rcases hread.total with hrefused | ⟨n, -, hn⟩
  · exact absurd (hraised.symm.trans hrefused) (by simp [invalidCursor])
  · exact absurd (hraised.symm.trans hn) (by simp)

end VitrialSync
