import Mathlib.Algebra.Order.Ring.Rat
import Mathlib.Data.Rat.Floor
import VitrialSync.Python.Text

set_option relaxedAutoImplicit false
set_option autoImplicit false

/-!
# Python floats

The built-in `float` is IEEE 754 binary64. A finite value is kept as sign, integer significand
and exponent in canonical form, so that two finite values are the same float exactly when the
three parts agree; infinities and the (single) quiet NaN are separate constructors.

## Main definitions

* `Python.Binary64` — binary64 values; the finite ones carry the proof that they are canonical.
* `Python.Binary64.toRat?` — the exact value of a finite float.
* `Python.Binary64.ofRat` — rounding to nearest, ties to even, with overflow to infinity; this is
  `float()` of a decimal literal and the rounding of every arithmetic operation.
* `Python.Binary64.repr` — `repr(x)`: the shortest digits that round back to `x`.
-/

namespace Python

/-- Canonical parts of a finite binary64: a 53-bit significand, normalized unless the exponent
is the least one. -/
def Canonical64 (mant : ℕ) (exp : ℤ) : Prop :=
  mant < 2 ^ 53 ∧ -1074 ≤ exp ∧ exp ≤ 971 ∧ (2 ^ 52 ≤ mant ∨ exp = -1074)

instance (mant : ℕ) (exp : ℤ) : Decidable (Canonical64 mant exp) := by
  unfold Canonical64; infer_instance

/-- A binary64 value. `finite neg mant exp` is `±mant · 2^exp`. -/
inductive Binary64 where
  | nan
  | inf (neg : Bool)
  | finite (neg : Bool) (mant : ℕ) (exp : ℤ) (canonical : Canonical64 mant exp)
  deriving DecidableEq

namespace Binary64

/-- `2^e` for an integer exponent. -/
def pow2 (e : ℤ) : ℚ := if 0 ≤ e then ((2 ^ e.toNat : ℕ) : ℚ) else 1 / ((2 ^ (-e).toNat : ℕ) : ℚ)

/-- `10^e` for an integer exponent. -/
def pow10 (e : ℤ) : ℚ := if 0 ≤ e then ((10 ^ e.toNat : ℕ) : ℚ) else 1 / ((10 ^ (-e).toNat : ℕ) : ℚ)

/-- The exact value of a finite float. -/
def toRat? : Binary64 → Option ℚ
  | nan => none
  | inf _ => none
  | finite neg mant exp _ => some ((if neg then -1 else 1) * mant * pow2 exp)

/-- The exact value of a finite float, zero for the others. -/
def toRat (x : Binary64) : ℚ := x.toRat?.getD 0

/-- `math.isfinite(x)`. -/
def isFinite (x : Binary64) : Bool := x.toRat?.isSome

/-! ### Rounding -/

/-- Rounding a nonnegative rational to an integer, ties to even. -/
def roundHalfEven (q : ℚ) : ℕ :=
  let f := q.num.toNat / q.den
  let twice := 2 * (q.num.toNat % q.den)
  if twice < q.den then f
  else if q.den < twice then f + 1
  else if f % 2 = 0 then f else f + 1

/-- The exponent of the significand's last bit: 53 bits below the leading bit of `q`, but not
below the least exponent. -/
def lastBit (q : ℚ) : ℤ :=
  let e : ℤ := (Nat.log2 q.num.toNat : ℤ) - Nat.log2 q.den
  -- `e` is the exponent of the leading bit or one more than it
  let lead := if pow2 e ≤ q then e else e - 1
  max (lead - 52) (-1074)

/-- The float nearest to a rational, ties to even; too large a magnitude gives infinity. `neg`
is the sign of a zero result. -/
def ofRat (neg : Bool) (q : ℚ) : Binary64 :=
  let sign := if q = 0 then neg else decide (q < 0)
  let a := |q|
  let e := lastBit a
  let m := roundHalfEven (a / pow2 e)
  let (m, e) := if m = 2 ^ 53 then (2 ^ 52, e + 1) else (m, e)
  if q = 0 then finite sign 0 (-1074) (by decide)
  else if h : Canonical64 m e then finite sign m e h else inf sign

/-- The float of an integer in a numeric literal or a coercion. -/
def ofInt (n : ℤ) : Binary64 := ofRat false n

/-- `x < y`, false when one side is a NaN. -/
def lt : Binary64 → Binary64 → Bool
  | nan, _ | _, nan => false
  | inf true, inf true => false
  | inf true, _ => true
  | _, inf true => false
  | inf false, _ => false
  | _, inf false => true
  | x, y => x.toRat < y.toRat

/-- `x == y` between floats: NaN differs from everything, the two zeros are equal. -/
def eq : Binary64 → Binary64 → Bool
  | nan, _ | _, nan => false
  | inf s, inf t => s == t
  | inf _, _ | _, inf _ => false
  | x, y => x.toRat = y.toRat

/-- `x <= y`. -/
def le (x y : Binary64) : Bool := lt x y || eq x y

/-- The sign of a float, with a NaN counted as positive. -/
def sign : Binary64 → Bool
  | nan => false
  | inf neg => neg
  | finite neg _ _ _ => neg

/-- `abs(x)`. -/
def abs : Binary64 → Binary64
  | nan => nan
  | inf _ => inf false
  | finite _ m e h => finite false m e h

/-- `-x`. -/
def neg : Binary64 → Binary64
  | nan => nan
  | inf s => inf !s
  | finite s m e h => finite (!s) m e h

/-- `x + y`. -/
def add : Binary64 → Binary64 → Binary64
  | nan, _ | _, nan => nan
  | inf s, inf t => if s = t then inf s else nan
  | inf s, _ => inf s
  | _, inf t => inf t
  | x, y => ofRat (x.sign && y.sign) (x.toRat + y.toRat)

/-- `x - y`. -/
def sub (x y : Binary64) : Binary64 := add x y.neg

/-! ### Shortest decimal rendering -/

/-- The number `k` with `10^k ≤ q < 10^(k+1)`, searched downwards from an upper estimate; the
estimate below is at most a few units too large. -/
def floorLog10 (q : ℚ) : ℕ → ℤ → ℤ
  | 0, k => k
  | fuel + 1, k => if pow10 k ≤ q then k else floorLog10 q fuel (k - 1)

/-- Whether `d · 10^e` rounds back to the positive float `x`. -/
def readsBack (x : Binary64) (d : ℕ) (e : ℤ) : Bool := ofRat false (d * pow10 e) == x

/-- The `n`-digit decimal that reads back as `x`, of the two neighbours of `x` the nearer one
first. -/
def digitsOfLength (x : Binary64) (q : ℚ) (k : ℤ) (n : ℕ) : Option (ℕ × ℤ) :=
  let e := k - (n - 1 : ℕ)
  let scaled := q / pow10 e
  let near := roundHalfEven scaled
  let low := scaled.num.toNat / scaled.den
  let far := if near = low then low + 1 else low
  if readsBack x near e then some (near, e)
  else if readsBack x far e then some (far, e)
  else none

/-- The shortest digits of a positive float: `digits · 10^exponent`. Seventeen digits always
read back. -/
def shortest (x : Binary64) : ℕ × ℤ :=
  let q := x.toRat
  let lead : ℤ := (Nat.log2 q.num.toNat : ℤ) - Nat.log2 q.den
  -- `log₁₀ 2 < 0.30103`
  let k := floorLog10 q 8 ((lead + 2) * 30103 / 100000 + 1)
  ((List.range 17).findSome? fun i => digitsOfLength x q k (i + 1)).getD (0, 0)

/-- Drop the trailing zeros of a digit string, keeping at least one digit. -/
def trimZeros (ds : Str) : Str :=
  match ds.rdropWhile (· == digitChar 0) with
  | [] => [digitChar 0]
  | t => t

/-- The digits of a positive finite float in `repr` form: decimal notation when the decimal
exponent is in `[-4, 16)`, scientific notation with at least two exponent digits otherwise. -/
def reprDigits (d : ℕ) (e : ℤ) : Str :=
  let ds := trimZeros (Str.ofNat d)
  -- `point` is the position of the decimal point relative to the first digit
  let point : ℤ := (Str.ofNat d).length + e
  let zeros (n : ℤ) : Str := List.replicate n.toNat (digitChar 0)
  if -4 < point ∧ point ≤ 16 then
    if point ≤ 0 then Str.ofString "0." ++ zeros (-point) ++ ds
    else if (ds.length : ℤ) ≤ point then ds ++ zeros (point - ds.length) ++ Str.ofString ".0"
    else ds.take point.toNat ++ Str.ofString "." ++ ds.drop point.toNat
  else
    let expo := point - 1
    let expoDigits := Str.ofNat expo.natAbs
    let padded := if expoDigits.length < 2 then digitChar 0 :: expoDigits else expoDigits
    let frac := if ds.length ≤ 1 then [] else Str.ofString "." ++ ds.drop 1
    ds.take 1 ++ frac ++ Str.ofString (if expo < 0 then "e-" else "e+") ++ padded

/-- `repr(x)`. -/
def repr : Binary64 → Str
  | nan => Str.ofString "nan"
  | inf neg => Str.ofString (if neg then "-inf" else "inf")
  | finite neg m e h =>
    let body := if m = 0 then Str.ofString "0.0"
      else
        let (d, x) := shortest (finite false m e h)
        reprDigits d x
    if neg then Str.ofString "-" ++ body else body

end Binary64

end Python
