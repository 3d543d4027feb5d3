import VitrialSync.Python.Value

set_option relaxedAutoImplicit false
set_option autoImplicit false

/-!
# Python decimals

The part of the standard `decimal` module that money and quantities go through: the constructor
on text, ordering and equality, and addition in the default context (28 digits, ties to even,
exponents up to `999999`, traps on invalid operations and overflow). A trapped signal is an
exception, so the operations return `Except Signal`.

## Main definitions

* `Python.Decimal`, `Python.Decimal.Signal` — decimals with their special values, and the signals
  that raise.
* `Python.Decimal.parse?` — `Decimal(text)`: exact, `none` where the constructor raises
  `InvalidOperation`.
* `Python.Decimal.le`, `Python.Decimal.lt`, `Python.Decimal.ne` — comparisons; ordering signals on
  every NaN, `!=` on a signaling one only.
* `Python.Decimal.add` — `a + b`.

## Main results

* `Python.Decimal.le_of_lt`, `Python.Decimal.lt_of_le` — each ordering decides the other.
-/

namespace Python

/-- A decimal: `±coeff · 10^exp`, an infinity, a quiet NaN or a signaling NaN. -/
inductive Decimal where
  | finite (neg : Bool) (coeff : ℕ) (exp : ℤ)
  | inf (neg : Bool)
  | nan
  | snan
  deriving DecidableEq

namespace Decimal

/-- The trapped signals of the default context. -/
inductive Signal where
  | invalidOperation
  | overflow
  deriving DecidableEq

/-- Whether the decimal is a NaN of either kind. -/
def isNaN : Decimal → Bool
  | nan => true
  | snan => true
  | _ => false

/-! ### The constructor on text -/

/-- A code point of a numeral: any decimal digit stands for its ASCII one. -/
def asciiDigit (c : CodePoint) : CodePoint :=
  match decimalValue? c with
  | some d => digitChar d
  | none => c

/-- The text the constructor reads: white space around it and underscores are dropped. -/
def numeralText (s : Str) : Str :=
  (s.strip.filter fun c => c != CodePoint.ofChar '_').map asciiDigit

/-- The longest prefix of ASCII digits, by value, and the rest. -/
def takeDigits : Str → List ℕ × Str
  | [] => ([], [])
  | c :: s =>
    if 0x30 ≤ c.val ∧ c.val ≤ 0x39 then
      let (ds, rest) := takeDigits s
      ((c.val - 0x30) :: ds, rest)
    else ([], c :: s)

/-- An optional sign. -/
def takeSign : Str → Bool × Str
  | [] => (false, [])
  | c :: s =>
    if c = CodePoint.ofChar '-' then (true, s)
    else if c = CodePoint.ofChar '+' then (false, s)
    else (false, c :: s)

/-- An optional exponent that ends the numeral. -/
def takeExponent? : Str → Option ℤ
  | [] => some 0
  | c :: s =>
    if asciiLower c = CodePoint.ofChar 'e' then
      let (neg, s) := takeSign s
      match takeDigits s with
      | ([], _) => none
      | (ds, []) => some (if neg then -(ofDigits ds : ℤ) else ofDigits ds)
      | (_, _ :: _) => none
    else none

/-- The number of decimal digits of a coefficient, at least one. -/
def numDigits (n : ℕ) : ℕ := (Nat.toDigits 10 n).length

/-- The exponent of the leading digit. -/
def adjusted (coeff : ℕ) (exp : ℤ) : ℤ := exp + (numDigits coeff - 1 : ℕ)

/-- Limits of the exact constructor. -/
def maxEmax : ℤ := 999999999999999999

/-- The least exponent of the exact constructor. -/
def minEtiny : ℤ := -1999999999999999997

/-- The finite numeral `digits [. digits] [exponent]` with at least one digit. -/
def parseFinite? (neg : Bool) (s : Str) : Option Decimal :=
  let (whole, rest) := takeDigits s
  let (frac, rest) :=
    match rest with
    | c :: t => if c = CodePoint.ofChar '.' then takeDigits t else ([], rest)
    | [] => ([], [])
  if whole = [] ∧ frac = [] then none
  else
    match takeExponent? rest with
    | none => none
    | some e =>
      let coeff := ofDigits (whole ++ frac)
      let exp := e - frac.length
      -- out of range for an exact result
      if maxEmax < adjusted coeff exp ∨ exp < minEtiny then none
      else some (finite neg coeff exp)

/-- Whether a text is made of ASCII digits only. -/
def allDigits (s : Str) : Bool := (takeDigits s).2.isEmpty

/-- `Decimal(s)`, with `none` for `InvalidOperation`. -/
def parse? (s : Str) : Option Decimal :=
  let (neg, body) := takeSign (numeralText s)
  let low := body.lower
  if low = Str.ofString "inf" ∨ low = Str.ofString "infinity" then some (inf neg)
  else if (Str.ofString "nan").isPrefixOf low ∧ allDigits (low.drop 3) then some nan
  else if (Str.ofString "snan").isPrefixOf low ∧ allDigits (low.drop 4) then some snan
  else parseFinite? neg body

/-! ### Comparison -/

/-- The value of a finite decimal. -/
def ratOf (neg : Bool) (coeff : ℕ) (exp : ℤ) : ℚ :=
  (if neg then -1 else 1) * coeff * Binary64.pow10 exp

/-- `a < b`. -/
def lt : Decimal → Decimal → Except Signal Bool
  | nan, _ | snan, _ | _, nan | _, snan => .error .invalidOperation
  | inf s, inf t => .ok (s && !t)
  | inf s, finite .. => .ok s
  | finite .., inf t => .ok !t
  | finite s c e, finite s' c' e' => .ok (ratOf s c e < ratOf s' c' e')

/-- `a <= b`. -/
def le : Decimal → Decimal → Except Signal Bool
  | nan, _ | snan, _ | _, nan | _, snan => .error .invalidOperation
  | inf s, inf t => .ok (s || !t)
  | inf s, finite .. => .ok s
  | finite .., inf t => .ok !t
  | finite s c e, finite s' c' e' => .ok (ratOf s c e ≤ ratOf s' c' e')

/-- `a != b`: a quiet NaN differs from everything, a signaling one raises. -/
def ne : Decimal → Decimal → Except Signal Bool
  | snan, _ | _, snan => .error .invalidOperation
  | nan, _ | _, nan => .ok true
  | inf s, inf t => .ok (s != t)
  | inf _, finite .. => .ok true
  | finite .., inf _ => .ok true
  | finite s c e, finite s' c' e' => .ok (ratOf s c e != ratOf s' c' e')

/-- `Decimal(0)`. -/
def zero : Decimal := finite false 0 0

/-! ### Addition -/

/-- Precision and exponent limits of the default context. -/
def prec : ℕ := 28

/-- The largest adjusted exponent of the default context. -/
def emax : ℤ := 999999

/-- The least exponent of the default context. -/
def etiny : ℤ := -1000026

/-- Drop `n` digits, rounding half to even. -/
def dropDigits (coeff n : ℕ) : ℕ := Binary64.roundHalfEven (coeff / ((10 ^ n : ℕ) : ℚ))

/-- Fit an exact result into the default context. -/
def fix (neg : Bool) (coeff : ℕ) (exp : ℤ) : Except Signal Decimal :=
  -- digits beyond the precision, and digits below the least exponent
  let cut := max (numDigits coeff - prec : ℕ) (etiny - exp).toNat
  let c := dropDigits coeff cut
  let e := exp + cut
  -- rounding up may carry into one more digit
  let (c, e) := if prec < numDigits c then (c / 10, e + 1) else (c, e)
  if c = 0 then .ok (finite neg 0 (min e emax))
  else if emax < adjusted c e then .error .overflow
  else .ok (finite neg c e)

/-- The coefficient brought to a smaller exponent, with its sign. -/
def scaled (neg : Bool) (coeff : ℕ) (exp target : ℤ) : ℤ :=
  (if neg then -1 else 1) * (coeff * 10 ^ (exp - target).toNat : ℕ)

/-- `a + b` in the default context. -/
def add : Decimal → Decimal → Except Signal Decimal
  | snan, _ | _, snan => .error .invalidOperation
  | nan, _ | _, nan => .ok nan
  | inf s, inf t => if s = t then .ok (inf s) else .error .invalidOperation
  | inf s, finite .. => .ok (inf s)
  | finite .., inf t => .ok (inf t)
  | finite s c e, finite s' c' e' =>
    let target := min e e'
    let n := scaled s c e target + scaled s' c' e' target
    let sign := if n = 0 then s && s' else decide (n < 0)
    fix sign n.natAbs target

/-! ### Signals -/

/-- Two decimals that are not NaNs are ordered without a signal. -/
lemma lt_ok {a b : Decimal} (ha : a.isNaN = false) (hb : b.isNaN = false) :
    ∃ r, lt a b = .ok r := by
  cases a with
  | finite s c e =>
    cases b with
    | finite s' c' e' => exact ⟨_, rfl⟩
    | inf t => exact ⟨_, rfl⟩
    | nan => simp [isNaN] at hb
    | snan => simp [isNaN] at hb
  | inf s =>
    cases b with
    | finite s' c' e' => exact ⟨_, rfl⟩
    | inf t => exact ⟨_, rfl⟩
    | nan => simp [isNaN] at hb
    | snan => simp [isNaN] at hb
  | nan => simp [isNaN] at ha
  | snan => simp [isNaN] at ha

/-- What `<` answers decides `<=` the other way. -/
lemma le_of_lt {a b : Decimal} {r : Bool} (h : lt a b = .ok r) : le b a = .ok !r := by
  cases a with
  | finite s c e =>
    cases b with
    | finite s' c' e' =>
      simp only [lt, le, Except.ok.injEq] at h ⊢
      rw [← h, ← decide_not, decide_eq_decide, not_lt]
    | inf t => cases t <;> cases h <;> rfl
    | nan => cases h
    | snan => cases h
  | inf s =>
    cases b with
    | finite s' c' e' => cases s <;> cases h <;> rfl
    | inf t => cases s <;> cases t <;> cases h <;> rfl
    | nan => cases h
    | snan => cases h
  | nan => cases h
  | snan => cases h

/-- What `<=` answers decides `<` the other way. -/
lemma lt_of_le {a b : Decimal} {r : Bool} (h : le a b = .ok r) : lt b a = .ok !r := by
  have hb : b.isNaN = false := by
    cases b <;> cases a <;> first | rfl | cases h
  have ha : a.isNaN = false := by
    cases a <;> cases b <;> first | rfl | cases h
  obtain ⟨q, hq⟩ := lt_ok hb ha
  have hle := le_of_lt hq
  rw [h, Except.ok.injEq] at hle
  rw [hq, hle, Bool.not_not]

end Decimal

/-- `Decimal(str(v))`, with `none` for `InvalidOperation`: the text of a list, a dictionary, `None`
or a boolean is no numeral. -/
def Value.toDecimal? : Value → Option Decimal
  | .int n => Decimal.parse? (Str.ofInt n)
  | .float x => Decimal.parse? x.repr
  | .str s => Decimal.parse? s
  | .none => Option.none
  | .bool _ => Option.none
  | .list _ => Option.none
  | .dict _ => Option.none

end Python
