import VitrialSync.Beam.Terms
import VitrialSync.Python.Decimal

set_option relaxedAutoImplicit false
set_option autoImplicit false

/-!
# Decimals on the BEAM

`VitrialSync.Decimal`: a sign, digits and a scale, with exact integer arithmetic on the three. The
comparison looks at the signs first, so it tells a negative zero from zero.

## Main definitions

* `VitrialSync.Beam.Decimal` — a decimal.
* `VitrialSync.Beam.Decimal.parse` — `parse/1`.
* `VitrialSync.Beam.Decimal.compare`, `VitrialSync.Beam.Decimal.add` — `compare/2` and `add/2`.
-/

namespace VitrialSync.Beam

open Python

/-- `%Decimal{}`: the digits divided by `10 ^ scale`, negated when `neg` is set. -/
structure Decimal where
  neg : Bool
  digits : ℕ
  scale : ℕ
  deriving DecidableEq

namespace Decimal

/-- `zero/0`. -/
def zero : Decimal := ⟨false, 0, 0⟩

/-- `@max_digits`. -/
def maxDigits : ℕ := 4096

/-- `@max_scale`. -/
def maxScale : ℕ := 4096

/-! ### Parsing -/

/-- `String.split(text, separators, parts: 2)` with separators of one character. -/
def splitOnce (separator : CodePoint → Bool) (text : Str) : Str × Option Str :=
  match text.dropWhile fun c => !separator c with
  | [] => (text, none)
  | _ :: rest => (text.takeWhile fun c => !separator c, some rest)

/-- `Integer.parse/1` of a text that it reads to the end. -/
def integerParse? (text : Str) : Option ℤ :=
  let (neg, rest) := Python.Decimal.takeSign text
  match Python.Decimal.takeDigits rest with
  | ([], _) => none
  | (ds, []) => some (if neg then -(ofDigits ds : ℤ) else ofDigits ds)
  | (_, _ :: _) => none

/-- `split_exponent/1`: the mantissa and the exponent. -/
def splitExponent (text : Str) : Option (Str × ℤ) :=
  match splitOnce (fun c => c == Json.ch 'e' || c == Json.ch 'E') text with
  | (mantissa, none) => some (mantissa, 0)
  | (mantissa, some exponent) => (integerParse? exponent).map fun value => (mantissa, value)

/-- `finish/4`. -/
def finish (neg : Bool) (whole fraction : Str) (exponent : ℤ) : Option Decimal :=
  if Python.Decimal.allDigits whole && Python.Decimal.allDigits fraction &&
      (!whole.isEmpty || !fraction.isEmpty) then
    let digits := ofDigits (Python.Decimal.takeDigits (whole ++ fraction)).1
    let scale := (fraction.length : ℤ) - exponent
    if (maxScale : ℤ) < scale then none
    else if 0 ≤ scale then some ⟨neg, digits, scale.toNat⟩
    else if (maxDigits : ℤ) < -scale then none
    else some ⟨neg, digits * 10 ^ (-scale).toNat, 0⟩
  else none

/-- `assemble/3`. -/
def assemble (neg : Bool) (mantissa : Str) (exponent : ℤ) : Option Decimal :=
  match splitOnce (fun c => c == Json.ch '.') mantissa with
  | (whole, none) => finish neg whole [] exponent
  | (whole, some fraction) => finish neg whole fraction exponent

/-- `from_digits/1`. -/
def fromDigits (text : Str) : Option Decimal :=
  let (neg, rest) := Python.Decimal.takeSign text
  (splitExponent rest).bind fun (mantissa, exponent) => assemble neg mantissa exponent

/-- `parse/1`. `Float.to_string/1` writes the digits that `repr` writes; the two place the exponent
differently, which changes no value. -/
def parse : Value → Option Decimal
  | .int n => fromDigits (Str.ofInt n)
  | .float x => fromDigits x.repr
  | .str s => fromDigits s
  | _ => none

/-! ### Comparison and addition -/

/-- The digits of a decimal at a larger scale. -/
def scaledTo (d : Decimal) (scale : ℕ) : ℕ := d.digits * 10 ^ (scale - d.scale)

/-- `compare_abs/2`. -/
def compareAbs (left right : Decimal) : Ordering :=
  let scale := max left.scale right.scale
  let l := left.scaledTo scale
  let r := right.scaledTo scale
  if l < r then .lt else if r < l then .gt else .eq

/-- `compare/2`. -/
def compare (left right : Decimal) : Ordering :=
  if left.neg != right.neg then (if left.neg then .lt else .gt)
  else if left.neg then (compareAbs left right).swap
  else compareAbs left right

/-- `positive?/1`. -/
def isPositive (value : Decimal) : Bool := compare value zero == .gt

/-- `not_eq?/2`. -/
def notEq (left right : Decimal) : Bool := compare left right != .eq

/-- `add/2`. -/
def add (left right : Decimal) : Decimal :=
  let scale := max left.scale right.scale
  let l := left.scaledTo scale
  let r := right.scaledTo scale
  if left.neg = right.neg then ⟨left.neg, l + r, scale⟩
  else if r ≤ l then ⟨left.neg, l - r, scale⟩
  else ⟨right.neg, r - l, scale⟩

end Decimal

end VitrialSync.Beam
