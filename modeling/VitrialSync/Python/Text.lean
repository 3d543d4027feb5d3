import Mathlib.Data.List.DropRight
import Mathlib.Data.List.Lex
import Mathlib.Order.Fin.Basic
import Mathlib.Tactic.Ring

set_option relaxedAutoImplicit false
set_option autoImplicit false

/-!
# Python text

A Python `str` is a sequence of code points, lone surrogates included, so it is modelled by a
list of numbers below `0x110000` rather than by Lean's `String`, whose characters are Unicode
scalar values only. Literals are written as Lean strings and coerced.

## Main definitions

* `Python.CodePoint`, `Python.Str` — code points and the built-in `str`.
* `Python.Str.strip` — `str.strip()` with no argument, over the white space of `str.isspace`.
* `Python.decimalValue?`, `Python.Str.isDigit` — the decimal value of a code point (general
  category `Nd`) and `str.isdigit()`, which accepts further digits such as superscripts.
* `Python.Str.ofNat`, `Python.Str.ofInt` — decimal rendering of integers.
* `Python.Str.digitsValue?` — `int(s)` of a text of digits.

## Main results

* `Python.Str.strip_strip` — stripping is idempotent.
* `Python.Str.digitsValue?_ofNat` — a rendered number is read back.
-/

namespace Python

/-- A code point of a Python `str`. -/
abbrev CodePoint := Fin 0x110000

/-- The built-in `str`: a sequence of code points, surrogates allowed. -/
abbrev Str := List CodePoint

/-- Numerals below `0x110000` are code points. -/
instance (priority := 2000) CodePoint.neZero : NeZero 0x110000 := ⟨by decide⟩

/-- The equality test of texts decides equality. -/
instance (priority := 2000) Str.lawfulBEq : LawfulBEq Str := inferInstance

/-- The equality test of pairs of texts decides equality. -/
instance (priority := 2000) Str.lawfulBEq_pair : LawfulBEq (Str × Str) := inferInstance

/-- The equality test of optional texts decides equality. -/
instance (priority := 2000) Str.lawfulBEq_option : LawfulBEq (Option Str) := inferInstance

/-- The code point of a Lean character. -/
def CodePoint.ofChar (c : Char) : CodePoint :=
  ⟨c.toNat, by
    have h := c.valid
    rw [UInt32.isValidChar, Nat.isValidChar] at h
    change c.val.toNat < 0x110000
    omega⟩

/-- A Lean string literal as a Python `str`. -/
def Str.ofString (s : String) : Str := s.toList.map CodePoint.ofChar

instance : Coe String Str := ⟨Str.ofString⟩

/-- Whether a code point is a surrogate. -/
def CodePoint.isSurrogate (c : CodePoint) : Bool := 0xD800 ≤ c.val && c.val ≤ 0xDFFF

/-- ASCII lower case. -/
def asciiLower (c : CodePoint) : CodePoint :=
  if h : 0x41 ≤ c.val ∧ c.val ≤ 0x5a then ⟨c.val + 0x20, by omega⟩ else c

/-- `s.lower()` of ASCII text. -/
def Str.lower (s : Str) : Str := s.map asciiLower

/-! ### White space -/

/-- `str.isspace()` on one code point: the white space that `str.strip()` removes. -/
def isSpace (c : CodePoint) : Bool :=
  let n := c.val
  (0x9 ≤ n && n ≤ 0xd) || (0x1c ≤ n && n ≤ 0x20) || n == 0x85 || n == 0xa0 || n == 0x1680 ||
    (0x2000 ≤ n && n ≤ 0x200a) || n == 0x2028 || n == 0x2029 || n == 0x202f || n == 0x205f ||
    n == 0x3000

/-- `s.strip()`: `s` without leading and trailing white space. -/
def Str.strip (s : Str) : Str := (s.dropWhile isSpace).rdropWhile isSpace

/-- Dropping at the right end keeps a list that does not start with a dropped element. -/
lemma dropWhile_rdropWhile {α : Type} (p : α → Bool) (l : List α) (h : l.dropWhile p = l) :
    (l.rdropWhile p).dropWhile p = l.rdropWhile p := by
  cases l with
  | nil => simp
  | cons a t =>
    have ha : p a = false := by
      by_contra hne
      have hpa : p a = true := by simpa using hne
      have hlen := congrArg List.length h
      simp only [List.dropWhile_cons_of_pos hpa, List.length_cons] at hlen
      have := (List.dropWhile_sublist (l := t) p).length_le
      omega
    have hpre : (a :: t).rdropWhile p <+: a :: t := List.rdropWhile_prefix p _
    obtain ⟨r, hr⟩ := hpre
    cases hd : (a :: t).rdropWhile p with
    | nil => rfl
    | cons b u =>
      rw [hd, List.cons_append, List.cons.injEq] at hr
      rw [hr.1, List.dropWhile_cons_of_neg (by simp [ha])]

/-- Stripping is idempotent.

**Proof sketch.** After the left drop the text does not start with white space, and dropping at
the right end keeps its first element (`dropWhile_rdropWhile`), so a second strip drops nothing
on the left; `List.rdropWhile_idempotent` covers the right end. -/
lemma Str.strip_strip (s : Str) : s.strip.strip = s.strip := by
  unfold Str.strip
  rw [dropWhile_rdropWhile isSpace _ (List.dropWhile_idempotent isSpace s)]
  exact List.rdropWhile_idempotent isSpace _

/-! ### Digits -/

/-- The first code points of the blocks of ten decimal digits (general category `Nd`,
Unicode 15.0). -/
def decimalBlocks : List ℕ :=
  [0x30, 0x660, 0x6f0, 0x7c0, 0x966, 0x9e6, 0xa66, 0xae6, 0xb66, 0xbe6, 0xc66, 0xce6, 0xd66,
    0xde6, 0xe50, 0xed0, 0xf20, 0x1040, 0x1090, 0x17e0, 0x1810, 0x1946, 0x19d0, 0x1a80, 0x1a90,
    0x1b50, 0x1bb0, 0x1c40, 0x1c50, 0xa620, 0xa8d0, 0xa900, 0xa9d0, 0xa9f0, 0xaa50, 0xabf0,
    0xff10, 0x104a0, 0x10d30, 0x11066, 0x110f0, 0x11136, 0x111d0, 0x112f0, 0x11450, 0x114d0,
    0x11650, 0x116c0, 0x11730, 0x118e0, 0x11950, 0x11c50, 0x11d50, 0x11da0, 0x11f50, 0x16a60,
    0x16ac0, 0x16b50, 0x1d7ce, 0x1d7d8, 0x1d7e2, 0x1d7ec, 0x1d7f6, 0x1e140, 0x1e2f0, 0x1e4f0,
    0x1e950, 0x1fbf0]

/-- The ranges of digits that are not decimal: `str.isdigit()` accepts them, `int()` does not. -/
def otherDigitRanges : List (ℕ × ℕ) :=
  [(0xb2, 0xb3), (0xb9, 0xb9), (0x1369, 0x1371), (0x19da, 0x19da), (0x2070, 0x2070),
    (0x2074, 0x2079), (0x2080, 0x2089), (0x2460, 0x2468), (0x2474, 0x247c), (0x2488, 0x2490),
    (0x24ea, 0x24ea), (0x24f5, 0x24fd), (0x24ff, 0x24ff), (0x2776, 0x277e), (0x2780, 0x2788),
    (0x278a, 0x2792), (0x10a40, 0x10a43), (0x10e60, 0x10e68), (0x11052, 0x1105a),
    (0x1f100, 0x1f10a)]

/-- The value of a decimal digit in any script, as `int()` and `Decimal()` read it. -/
def decimalValue? (c : CodePoint) : Option ℕ :=
  (decimalBlocks.find? fun b => b ≤ c.val && c.val < b + 10).map (c.val - ·)

/-- `str.isdigit()` on one code point. -/
def isDigit (c : CodePoint) : Bool :=
  (decimalValue? c).isSome || otherDigitRanges.any fun r => r.1 ≤ c.val && c.val ≤ r.2

/-- `s.isdigit()`: every code point is a digit and there is at least one. -/
def Str.isDigit (s : Str) : Bool := !s.isEmpty && s.all Python.isDigit

/-- The number written by decimal digits, most significant first. -/
def ofDigits (ds : List ℕ) : ℕ := ds.foldl (fun acc d => 10 * acc + d) 0

/-- `int(s)` of a text of digits, `none` for the `ValueError` of a digit that is not decimal. -/
def Str.digitsValue? (s : Str) : Option ℕ := (s.mapM decimalValue?).map ofDigits

/-- The ASCII digit of a number below ten. -/
def digitChar (d : ℕ) : CodePoint := ⟨0x30 + d % 10, by omega⟩

/-- The code point of a letter from `a` on. -/
lemma letter_lt (n : ℕ) : 0x61 + (n % 16 - 10) < 0x110000 := by omega

/-- `str(n)` of a natural number. -/
def Str.ofNat (n : ℕ) : Str := (Nat.toDigits 10 n).map CodePoint.ofChar

/-- `str(n)` of an integer. -/
def Str.ofInt (n : ℤ) : Str :=
  match n with
  | Int.ofNat m => Str.ofNat m
  | Int.negSucc m => Str.ofString "-" ++ Str.ofNat (m + 1)

/-- The value of an ASCII digit. -/
lemma decimalValue?_ofChar {c : Char} (h : c.isDigit = true) :
    decimalValue? (CodePoint.ofChar c) = some (c.toNat - '0'.toNat) := by
  have hrange : 0x30 ≤ c.toNat ∧ c.toNat ≤ 0x39 := by
    simp only [Char.isDigit, Bool.and_eq_true, decide_eq_true_eq, ge_iff_le,
      UInt32.le_iff_toNat_le] at h
    exact h
  have hlow : 0x30 ≤ (CodePoint.ofChar c).val := hrange.1
  have hhigh : (CodePoint.ofChar c).val < 0x30 + 10 := Nat.lt_succ_of_le hrange.2
  have hblock : (decide (0x30 ≤ (CodePoint.ofChar c).val) &&
      decide ((CodePoint.ofChar c).val < 0x30 + 10)) = true := by
    rw [decide_eq_true hlow, decide_eq_true hhigh]
    rfl
  rw [decimalValue?, decimalBlocks, List.find?_cons, hblock]
  rfl

/-- The values of ASCII digits. -/
lemma mapM_decimalValue? {cs : List Char} (h : ∀ c ∈ cs, c.isDigit = true) :
    (cs.map CodePoint.ofChar).mapM decimalValue? = some (cs.map fun c => c.toNat - '0'.toNat) := by
  induction cs with
  | nil => rfl
  | cons c cs ih =>
    rw [List.forall_mem_cons] at h
    rw [List.map_cons, List.mapM_cons, decimalValue?_ofChar h.1, ih h.2]
    rfl

/-- The digits of a rendered number. -/
lemma isDigit_of_mem_ofNat (n : ℕ) : ∀ c ∈ Nat.toDigits 10 n, c.isDigit = true :=
  fun _ hc => Nat.isDigit_of_mem_toDigits (by decide) (by decide) hc

/-- A rendered number is read back. -/
lemma Str.digitsValue?_ofNat (n : ℕ) : (Str.ofNat n).digitsValue? = some n := by
  have hfold : ofDigits ((Nat.toDigits 10 n).map fun c => c.toNat - '0'.toNat) = n := by
    rw [ofDigits, List.foldl_map]
    exact Nat.ofDigitChars_ten_toDigits
  rw [Str.digitsValue?, Str.ofNat, mapM_decimalValue? (isDigit_of_mem_ofNat n), Option.map_some,
    hfold]

/-- A rendered number is a text of digits. -/
lemma Str.isDigit_ofNat (n : ℕ) : (Str.ofNat n).isDigit = true := by
  have hne : Nat.toDigits 10 n ≠ [] := Nat.toDigits_ne_nil
  have hall : (Str.ofNat n).all Python.isDigit = true := by
    rw [Str.ofNat, List.all_eq_true]
    intro c hc
    obtain ⟨d, hd, rfl⟩ := List.mem_map.mp hc
    simp [Python.isDigit, decimalValue?_ofChar (isDigit_of_mem_ofNat n d hd)]
  rw [Str.isDigit, hall]
  simp [Str.ofNat, hne]

/-- The number of digits of a rendered number. -/
lemma Str.length_ofNat_le {n k : ℕ} (hk : 0 < k) (h : n < 10 ^ k) : (Str.ofNat n).length ≤ k := by
  rw [Str.ofNat, List.length_map]
  exact (Nat.length_toDigits_le_iff (by decide) hk).mpr h

end Python
