import Mathlib.Tactic.FieldSimp
import Mathlib.Tactic.Linarith
import Mathlib.Algebra.BigOperators.Group.List.Basic
import VitrialSync.Beam.Delivery
import VitrialSync.Python.NumberText
import VitrialSync.Python.Rounding

set_option relaxedAutoImplicit false
set_option autoImplicit false

/-!
# Decimals as rationals

The rational number of a decimal. Addition adds the numbers, and a literal denotes its own. The
comparison is that of the numbers except for two zeros of different sign: it looks at the signs
first, and a sum can be a negative zero.

So the total of a quotation is compared exactly as a number unless both sides are zero with
different signs. The sign of a sum of zero is that of the last partial sum that was not zero.

## Main definitions

* `VitrialSync.Beam.Decimal.toRat` — the number of a decimal.
* `VitrialSync.Beam.Decimal.Literal` — decimal literals.
* `VitrialSync.Beam.Decimal.MixedZeros` — two zeros of different sign.
* `VitrialSync.Beam.Decimal.IsRational` — decimals are their numbers.

## Main results

* `VitrialSync.Beam.Decimal.toRat_add` — sums.
* `VitrialSync.Beam.Decimal.compare_eq_iff` — the comparison.
* `VitrialSync.Beam.Decimal.fromDigits_text` — literals.
* `VitrialSync.Beam.Decimal.isRational_iff` — where decimals are their numbers.
-/

namespace VitrialSync.Beam.Decimal

open Python Python.Json Program
open VitrialSync.Beam.Delivery (addLine quotationTotal quotedTotal matchQuotedTotal)

/-! ### The number of a decimal -/

/-- The number of a decimal. -/
def toRat (d : Decimal) : ℚ := (if d.neg then -1 else 1) * d.digits / 10 ^ d.scale

/-- Two zeros of different sign. -/
def MixedZeros (a b : Decimal) : Prop := a.neg ≠ b.neg ∧ a.digits = 0 ∧ b.digits = 0

instance (a b : Decimal) : Decidable (MixedZeros a b) :=
  inferInstanceAs (Decidable (a.neg ≠ b.neg ∧ a.digits = 0 ∧ b.digits = 0))

/-- The magnitude at a larger scale. -/
lemma scaledTo_div (d : Decimal) {scale : ℕ} (h : d.scale ≤ scale) :
    (d.scaledTo scale : ℚ) / 10 ^ scale = d.digits / 10 ^ d.scale := by
  have hpow : (10 : ℚ) ^ scale = 10 ^ (scale - d.scale) * 10 ^ d.scale := by
    rw [← pow_add, Nat.sub_add_cancel h]
  have hpos : (10 : ℚ) ^ (scale - d.scale) ≠ 0 := pow_ne_zero _ (by norm_num)
  rw [scaledTo, Nat.cast_mul, Nat.cast_pow, Nat.cast_ofNat, hpow, mul_comm (10 ^ _ : ℚ),
    mul_div_mul_right _ _ hpos]

/-- The number from the magnitude at a larger scale. -/
lemma toRat_eq (d : Decimal) {scale : ℕ} (h : d.scale ≤ scale) :
    d.toRat = (if d.neg then -1 else 1) * d.scaledTo scale / 10 ^ scale := by
  rw [toRat, mul_div_assoc, mul_div_assoc, scaledTo_div d h]

/-- The number of a decimal is zero if its digits are. -/
lemma toRat_eq_zero_iff (d : Decimal) : d.toRat = 0 ↔ d.digits = 0 := by
  have hpow : (10 : ℚ) ^ d.scale ≠ 0 := pow_ne_zero _ (by norm_num)
  rw [toRat, div_eq_zero_iff, or_iff_left hpow, mul_eq_zero, Nat.cast_eq_zero]
  refine or_iff_right ?_
  split
  · norm_num
  · norm_num

/-- A decimal without a minus sign is not below zero. -/
lemma toRat_nonneg {d : Decimal} (h : d.neg = false) : 0 ≤ d.toRat := by
  rw [toRat, h, if_neg Bool.false_ne_true, one_mul]
  positivity

/-- A decimal with a minus sign is not above zero. -/
lemma toRat_nonpos {d : Decimal} (h : d.neg = true) : d.toRat ≤ 0 := by
  rw [toRat, h, if_pos rfl, neg_one_mul, neg_div, neg_nonpos]
  positivity

/-- The sum of two decimals has the sum of their numbers.

**Proof sketch.** At the larger of the two scales, by the signs and the order of the magnitudes. -/
theorem toRat_add (a b : Decimal) : (a.add b).toRat = a.toRat + b.toRat := by
  rw [a.toRat_eq (le_max_left a.scale b.scale), b.toRat_eq (le_max_right a.scale b.scale), add]
  generalize a.scaledTo (max a.scale b.scale) = l
  generalize b.scaledTo (max a.scale b.scale) = r
  by_cases hsign : a.neg = b.neg
  · rw [if_pos hsign, hsign, toRat, Nat.cast_add]
    ring
  · rw [if_neg hsign]
    by_cases hle : r ≤ l
    · rw [if_pos hle, toRat, Nat.cast_sub hle]
      cases ha : a.neg with
      | true =>
        have hb : b.neg = false := by simpa [ha] using hsign
        simp only [hb, if_true, Bool.false_eq_true, if_false]
        ring
      | false =>
        have hb : b.neg = true := by simpa [ha] using hsign
        simp only [hb, if_true, Bool.false_eq_true, if_false]
        ring
    · rw [if_neg hle, toRat, Nat.cast_sub (Nat.le_of_not_le hle)]
      cases ha : a.neg with
      | true =>
        have hb : b.neg = false := by simpa [ha] using hsign
        simp only [hb, if_true, Bool.false_eq_true, if_false]
        ring
      | false =>
        have hb : b.neg = true := by simpa [ha] using hsign
        simp only [hb, if_true, Bool.false_eq_true, if_false]
        ring

/-! ### The comparison -/

/-- The comparison of two magnitudes is that of their quotients. -/
lemma compareAbs_eq (a b : Decimal) :
    compareAbs a b = cmp ((a.digits : ℚ) / 10 ^ a.scale) ((b.digits : ℚ) / 10 ^ b.scale) := by
  rw [← scaledTo_div a (le_max_left a.scale b.scale),
    ← scaledTo_div b (le_max_right a.scale b.scale), compareAbs]
  generalize a.scaledTo (max a.scale b.scale) = l
  generalize b.scaledTo (max a.scale b.scale) = r
  have hpos : (0 : ℚ) < 10 ^ max a.scale b.scale := by positivity
  rcases lt_trichotomy l r with hlt | rfl | hgt
  · rw [if_pos hlt, eq_comm, cmp_eq_lt_iff]
    exact div_lt_div_of_pos_right (Nat.cast_lt.mpr hlt) hpos
  · rw [if_neg (lt_irrefl l), if_neg (lt_irrefl l), cmp_self_eq_eq]
  · rw [if_neg hgt.not_gt, if_pos hgt, eq_comm, cmp_eq_gt_iff]
    exact div_lt_div_of_pos_right (Nat.cast_lt.mpr hgt) hpos

/-- Decimals of one sign are compared as numbers. -/
lemma compare_of_neg_eq {a b : Decimal} (h : a.neg = b.neg) :
    Decimal.compare a b = cmp a.toRat b.toRat := by
  rw [Decimal.compare, if_neg (by simp [h]), compareAbs_eq]
  cases hb : b.neg with
  | false =>
    rw [hb] at h
    have hvalue : ∀ d : Decimal, d.neg = false → d.toRat = d.digits / 10 ^ d.scale := by
      intro d hd
      rw [toRat, hd, if_neg Bool.false_ne_true, one_mul]
    rw [h, if_neg Bool.false_ne_true, hvalue a h, hvalue b hb]
  | true =>
    rw [hb] at h
    have hvalue : ∀ d : Decimal, d.neg = true → d.toRat = -(d.digits / 10 ^ d.scale) := by
      intro d hd
      rw [toRat, hd, if_pos rfl, neg_one_mul, neg_div]
    rw [h, if_pos rfl, hvalue a h, hvalue b hb, cmp_swap, cmp, cmp, cmpUsing, cmpUsing]
    simp only [neg_lt_neg_iff]

/-- The comparison is that of the numbers, unless both are zero with different signs. -/
theorem compare_eq_iff (a b : Decimal) :
    Decimal.compare a b = cmp a.toRat b.toRat ↔ ¬MixedZeros a b := by
  by_cases hsign : a.neg = b.neg
  · exact iff_of_true (compare_of_neg_eq hsign) fun hmixed => hmixed.1 hsign
  · have hzeros : MixedZeros a b ↔ a.toRat = b.toRat := by
      constructor
      · rintro ⟨-, ha, hb⟩
        rw [(toRat_eq_zero_iff a).mpr ha, (toRat_eq_zero_iff b).mpr hb]
      · intro heq
        have hzero : a.toRat = 0 := by
          cases ha : a.neg with
          | true =>
            have hb : b.neg = false := by simpa [ha] using hsign
            exact le_antisymm (toRat_nonpos ha) (heq ▸ toRat_nonneg hb)
          | false =>
            have hb : b.neg = true := by simpa [ha] using hsign
            exact le_antisymm (heq ▸ toRat_nonpos hb) (toRat_nonneg ha)
        exact ⟨hsign, (toRat_eq_zero_iff a).mp hzero, (toRat_eq_zero_iff b).mp (heq ▸ hzero)⟩
    rw [hzeros, Decimal.compare, if_pos (by simpa using hsign)]
    cases ha : a.neg with
    | true =>
      have hb : b.neg = false := by simpa [ha] using hsign
      rw [if_pos rfl, eq_comm, cmp_eq_lt_iff]
      exact ⟨ne_of_lt, lt_of_le_of_ne ((toRat_nonpos ha).trans (toRat_nonneg hb))⟩
    | false =>
      have hb : b.neg = true := by simpa [ha] using hsign
      rw [if_neg Bool.false_ne_true, eq_comm, cmp_eq_gt_iff]
      exact ⟨fun hlt heq => hlt.ne heq.symm, fun hne =>
        lt_of_le_of_ne ((toRat_nonpos hb).trans (toRat_nonneg ha)) fun heq => hne heq.symm⟩

/-- A decimal is compared with zero as a number, as far as `positive?/1` asks. -/
theorem isPositive_iff (a : Decimal) : a.isPositive = true ↔ 0 < a.toRat := by
  have hzero : toRat zero = 0 := by rw [toRat_eq_zero_iff]; rfl
  rw [isPositive, beq_iff_eq]
  by_cases hmixed : MixedZeros a zero
  · have ha : a.toRat = 0 := (toRat_eq_zero_iff a).mpr hmixed.2.1
    have hneg : a.neg = true := by simpa [zero] using hmixed.1
    rw [Decimal.compare, if_pos (by simp [hneg, zero]), hneg, if_pos rfl, ha]
    exact iff_of_false Ordering.noConfusion (lt_irrefl 0)
  · rw [(compare_eq_iff a zero).mpr hmixed, cmp_eq_gt_iff, hzero]

/-- `not_eq?/2` is the inequality of the numbers, unless both are zero with different signs. -/
theorem notEq_iff (a b : Decimal) :
    (a.notEq b = true ↔ a.toRat ≠ b.toRat) ↔ ¬MixedZeros a b := by
  have hcompare : a.notEq b = true ↔ Decimal.compare a b ≠ .eq := by
    rw [notEq, bne_iff_ne]
  rw [hcompare]
  constructor
  · intro hiff hmixed
    have heq : a.toRat = b.toRat := by
      rw [(toRat_eq_zero_iff a).mpr hmixed.2.1, (toRat_eq_zero_iff b).mpr hmixed.2.2]
    have hsame : Decimal.compare a b = .eq := not_not.mp (mt hiff.mp (not_not.mpr heq))
    rw [Decimal.compare, if_pos (by simpa using hmixed.1)] at hsame
    cases ha : a.neg with
    | true =>
      rw [ha, if_pos rfl] at hsame
      cases hsame
    | false =>
      rw [ha, if_neg Bool.false_ne_true] at hsame
      cases hsame
  · intro hmixed
    rw [(compare_eq_iff a b).mpr hmixed, Ne, cmp_eq_eq_iff]

/-! ### Literals -/

/-- A decimal literal: a sign, digits, a fraction and an exponent. -/
structure Literal where
  sign : Option Bool
  whole : List ℕ
  frac : Option (List ℕ)
  expo : Option Exponent

namespace Literal

variable (literal : Literal)

/-- The literal without its sign. -/
def numeral : Numeral := ⟨false, literal.whole, literal.frac, literal.expo⟩

/-- The text of a literal. -/
def text : Str :=
  (literal.sign.elim [] fun minus => [if minus then ch '-' else ch '+']) ++ literal.numeral.text

/-- The number that a literal writes. -/
def value : ℚ := (if literal.sign = some true then -1 else 1) * literal.numeral.magnitude

/-- Digits before or after the point. -/
structure WellFormed : Prop where
  whole : ∀ d ∈ literal.whole, d < 10
  frac : ∀ ds, literal.frac = some ds → ∀ d ∈ ds, d < 10
  some_digit : literal.whole ≠ [] ∨ ∃ ds, literal.frac = some ds ∧ ds ≠ []
  expo : ∀ e, literal.expo = some e → e.WellFormed

/-- The number of decimal places, which is below zero for a large exponent. -/
def places : ℤ := (literal.frac.getD []).length - literal.expo.elim 0 Exponent.value

/-- The places that `finish/4` takes. -/
def InBounds : Prop := literal.places ≤ maxScale ∧ -literal.places ≤ maxDigits

end Literal

/-- A text with a separator in it is split at the first. -/
lemma splitOnce_of_mem {separator : CodePoint → Bool} {before : Str} {c : CodePoint} (after : Str)
    (hbefore : ∀ x ∈ before, separator x = false) (hc : separator c = true) :
    splitOnce separator (before ++ c :: after) = (before, some after) := by
  have hdrop : (before ++ c :: after).dropWhile (fun x => !separator x) = c :: after := by
    rw [List.dropWhile_append_of_pos fun x hx => by rw [hbefore x hx]; rfl,
      List.dropWhile_cons_of_neg (by rw [hc]; decide)]
  have htake : (before ++ c :: after).takeWhile (fun x => !separator x) = before := by
    rw [List.takeWhile_append_of_pos fun x hx => by rw [hbefore x hx]; rfl,
      List.takeWhile_cons_of_neg (by rw [hc]; decide), List.append_nil]
  rw [splitOnce, hdrop, htake]

/-- A text without a separator is not split. -/
lemma splitOnce_of_not_mem {separator : CodePoint → Bool} {text : Str}
    (h : ∀ x ∈ text, separator x = false) : splitOnce separator text = (text, none) := by
  have hdrop : text.dropWhile (fun x => !separator x) = [] :=
    List.dropWhile_eq_nil_iff.mpr fun x hx => by rw [h x hx]; rfl
  rw [splitOnce, hdrop]

/-- A digit is neither a sign nor a letter nor a point. -/
lemma digit_ne {d : ℕ} (hd : d < 10) {c : Char} (hc : c.toNat < 0x30 ∨ 0x39 < c.toNat) :
    digitChar d ≠ ch c := by
  intro heq
  have hval := congrArg Fin.val heq
  rw [digitChar_val hd] at hval
  change 0x30 + d = c.toNat at hval
  omega

/-- The digits of a text are taken, up to its end. -/
lemma takeDigits_digitText {ds : List ℕ} (h : ∀ d ∈ ds, d < 10) :
    Python.Decimal.takeDigits (digitText ds) = (ds, []) := by
  induction ds with
  | nil => rfl
  | cons d ds ih =>
    rw [List.forall_mem_cons] at h
    have hval := digitChar_val h.1
    rw [digitText, List.map_cons, Python.Decimal.takeDigits,
      if_pos ⟨by omega, by omega⟩, ← digitText, ih h.2]
    simp only [hval, Nat.add_sub_cancel_left]

/-- A text of digits is one of digits. -/
lemma allDigits_digitText {ds : List ℕ} (h : ∀ d ∈ ds, d < 10) :
    Python.Decimal.allDigits (digitText ds) = true := by
  rw [Python.Decimal.allDigits, takeDigits_digitText h]
  rfl

/-- A sign is taken, before a text that has none. -/
lemma takeSign_text (sign : Option Bool) {rest : Str}
    (hrest : ∀ c s, rest = c :: s → c ≠ ch '-' ∧ c ≠ ch '+') :
    Python.Decimal.takeSign
      ((sign.elim [] fun minus => [if minus then ch '-' else ch '+']) ++ rest) =
      (decide (sign = some true), rest) := by
  cases sign with
  | none =>
    cases rest with
    | nil => rfl
    | cons c s =>
      obtain ⟨hminus, hplus⟩ := hrest c s rfl
      exact (if_neg hminus).trans (if_neg hplus)
  | some minus =>
    cases minus with
    | true => rfl
    | false => rfl

/-- Digits do not begin with a sign. -/
lemma digitText_head {ds : List ℕ} (h : ∀ d ∈ ds, d < 10) {c : CodePoint} {s : Str}
    (heq : digitText ds = c :: s) : c ≠ ch '-' ∧ c ≠ ch '+' := by
  cases ds with
  | nil => cases heq
  | cons d ds =>
    obtain ⟨rfl, -⟩ := List.cons.inj heq
    have hd := h d List.mem_cons_self
    exact ⟨digit_ne hd (by decide), digit_ne hd (by decide)⟩

/-- An exponent is read as its number. -/
lemma integerParse?_text {e : Exponent} (h : e.WellFormed) :
    integerParse? ((e.sign.elim [] fun minus => [if minus then ch '-' else ch '+']) ++
      digitText e.digits) = some e.value := by
  obtain ⟨-, hne, hdigits⟩ := h
  rw [integerParse?, takeSign_text e.sign fun c s heq => digitText_head hdigits heq]
  simp only [takeDigits_digitText hdigits, Exponent.value, decide_eq_true_eq]

/-- Digits before and after the point, with an exponent: the number, if it has not too many
places. -/
lemma finish_text (neg : Bool) {whole frac : List ℕ} (hwhole : ∀ d ∈ whole, d < 10)
    (hfrac : ∀ d ∈ frac, d < 10) (hsome : whole ≠ [] ∨ frac ≠ []) (exponent : ℤ) :
    ((frac.length - exponent ≤ (maxScale : ℤ) ∧ -(frac.length - exponent) ≤ (maxDigits : ℤ)) →
      ∃ d, finish neg (digitText whole) (digitText frac) exponent = some d ∧ d.neg = neg ∧
        d.toRat = (if neg then -1 else 1) *
          (ofDigits (whole ++ frac) * Binary64.pow10 (exponent - frac.length))) ∧
    (¬(frac.length - exponent ≤ (maxScale : ℤ) ∧ -(frac.length - exponent) ≤ (maxDigits : ℤ)) →
      finish neg (digitText whole) (digitText frac) exponent = none) := by
  have hne : (!(digitText whole).isEmpty || !(digitText frac).isEmpty) = true := by
    cases whole with
    | cons d ds => rfl
    | nil =>
      cases frac with
      | cons d ds => rfl
      | nil => rcases hsome with h | h <;> exact absurd rfl h
  have htext : digitText whole ++ digitText frac = digitText (whole ++ frac) :=
    List.map_append.symm
  have htake : (Python.Decimal.takeDigits (digitText whole ++ digitText frac)).1 =
      whole ++ frac := by
    rw [htext, takeDigits_digitText (List.forall_mem_append.mpr ⟨hwhole, hfrac⟩)]
  have hlength : (digitText frac).length = frac.length := List.length_map _
  have hfinish : finish neg (digitText whole) (digitText frac) exponent =
      if (maxScale : ℤ) < frac.length - exponent then none
      else if 0 ≤ (frac.length : ℤ) - exponent then
        some ⟨neg, ofDigits (whole ++ frac), (frac.length - exponent : ℤ).toNat⟩
      else if (maxDigits : ℤ) < -(frac.length - exponent) then none
      else some ⟨neg, ofDigits (whole ++ frac) * 10 ^ (-(frac.length - exponent : ℤ)).toNat,
        0⟩ := by
    simp only [finish, allDigits_digitText hwhole, allDigits_digitText hfrac, hne, htake, hlength,
      Bool.and_self, if_true]
  rw [hfinish, Binary64.pow10_eq]
  constructor
  · rintro ⟨hscale, hdigits⟩
    rw [if_neg (not_lt.mpr hscale)]
    by_cases hplaces : 0 ≤ (frac.length : ℤ) - exponent
    · rw [if_pos hplaces]
      refine ⟨_, rfl, rfl, ?_⟩
      have hpow : (10 : ℚ) ^ (exponent - frac.length) =
          (10 ^ (frac.length - exponent : ℤ).toNat)⁻¹ := by
        rw [← zpow_natCast, Int.toNat_of_nonneg hplaces, ← zpow_neg, neg_sub]
      rw [toRat, hpow]
      ring
    · rw [if_neg hplaces, if_neg (not_lt.mpr hdigits)]
      refine ⟨_, rfl, rfl, ?_⟩
      have hpow : (10 : ℚ) ^ (exponent - frac.length) =
          10 ^ (-(frac.length - exponent : ℤ)).toNat := by
        rw [← zpow_natCast, Int.toNat_of_nonneg (by omega), neg_sub]
      rw [toRat, hpow, Nat.cast_mul, Nat.cast_pow, Nat.cast_ofNat, pow_zero]
      ring
  · intro hbounds
    by_cases hscale : (maxScale : ℤ) < frac.length - exponent
    · rw [if_pos hscale]
    · rw [if_neg hscale]
      have hdigits : (maxDigits : ℤ) < -(frac.length - exponent) := by
        by_contra hle
        exact hbounds ⟨not_lt.mp hscale, not_lt.mp hle⟩
      have hplaces : ¬0 ≤ (frac.length : ℤ) - exponent := by
        have hmax : (0 : ℤ) ≤ maxDigits := Int.natCast_nonneg _
        omega
      rw [if_neg hplaces, if_pos hdigits]

/-- A digit is no exponent mark. -/
lemma digit_not_mark {d : ℕ} (hd : d < 10) :
    (digitChar d == ch 'e' || digitChar d == ch 'E') = false := by
  rw [Bool.or_eq_false_iff, beq_eq_false_iff_ne, beq_eq_false_iff_ne]
  exact ⟨digit_ne hd (by decide), digit_ne hd (by decide)⟩

/-- The digits of a text have a property that every digit has. -/
lemma forall_mem_digitText {p : CodePoint → Prop} {ds : List ℕ} (h : ∀ d ∈ ds, d < 10)
    (hp : ∀ d, d < 10 → p (digitChar d)) : ∀ c ∈ digitText ds, p c := by
  intro c hc
  obtain ⟨d, hd, rfl⟩ := List.mem_map.mp hc
  exact hp d (h d hd)

/-- A literal is read as its number, if it has not too many places, and else refused.

**Proof sketch.** The sign, the exponent mark and the point are found where they stand, since digits
are none of them. -/
theorem fromDigits_text {literal : Literal} (h : literal.WellFormed) :
    (literal.InBounds → ∃ d, fromDigits literal.text = some d ∧
      d.neg = decide (literal.sign = some true) ∧ d.toRat = literal.value) ∧
    (¬literal.InBounds → fromDigits literal.text = none) := by
  obtain ⟨sign, whole, frac, expo⟩ := literal
  obtain ⟨hwhole, hfrac, hsome, hexpo⟩ := h
  dsimp only at hwhole hfrac hsome hexpo
  let mantissa : Str := digitText whole ++ frac.elim [] fun ds => ch '.' :: digitText ds
  have hfrac' : ∀ d ∈ frac.getD [], d < 10 := by
    cases frac with
    | none => exact fun _ => List.not_mem_nil.elim
    | some ds => exact hfrac ds rfl
  have hsome' : whole ≠ [] ∨ frac.getD [] ≠ [] := by
    refine hsome.imp_right ?_
    rintro ⟨ds, rfl, hds⟩
    exact hds
  -- the parts of the mantissa
  have hmark : ∀ c ∈ mantissa, (c == ch 'e' || c == ch 'E') = false := by
    refine List.forall_mem_append.mpr ⟨forall_mem_digitText hwhole fun _ => digit_not_mark, ?_⟩
    cases frac with
    | none => exact fun _ => List.not_mem_nil.elim
    | some ds =>
      exact List.forall_mem_cons.mpr
        ⟨by decide, forall_mem_digitText hfrac' fun _ => digit_not_mark⟩
  have hpoint : ∀ {ds : List ℕ}, (∀ d ∈ ds, d < 10) →
      ∀ c ∈ digitText ds, (c == ch '.') = false := fun hds =>
    forall_mem_digitText hds fun d hd => beq_eq_false_iff_ne.mpr (digit_ne hd (by decide))
  have hassemble : ∀ neg exponent, assemble neg mantissa exponent =
      finish neg (digitText whole) (digitText (frac.getD [])) exponent := by
    intro neg exponent
    rw [assemble]
    cases frac with
    | none =>
      have hsplit := splitOnce_of_not_mem (hpoint hwhole)
      have hmantissa : mantissa = digitText whole := List.append_nil _
      rw [hmantissa, hsplit]
      rfl
    | some ds =>
      have hsplit := splitOnce_of_mem (digitText ds) (hpoint hwhole)
        (beq_self_eq_true (ch '.'))
      have hmantissa : mantissa = digitText whole ++ ch '.' :: digitText ds := rfl
      rw [hmantissa, hsplit]
      rfl
  -- the mantissa and the exponent
  have hsplit : splitExponent (mantissa ++ expo.elim [] Exponent.text) =
      some (mantissa, expo.elim 0 Exponent.value) := by
    rw [splitExponent]
    cases expo with
    | none =>
      rw [Option.elim_none, List.append_nil, splitOnce_of_not_mem hmark]
      rfl
    | some e =>
      have he := hexpo e rfl
      have hmark' : (e.mark == ch 'e' || e.mark == ch 'E') = true := by
        rcases he.1 with heq | heq
        · rw [heq]; rfl
        · rw [heq]; rfl
      have hsplit := splitOnce_of_mem
        ((e.sign.elim [] fun minus => [if minus then ch '-' else ch '+']) ++ digitText e.digits)
        hmark hmark'
      have htext : e.text = e.mark ::
          ((e.sign.elim [] fun minus => [if minus then ch '-' else ch '+']) ++
            digitText e.digits) := rfl
      rw [Option.elim_some, htext, hsplit]
      dsimp only
      rw [integerParse?_text he]
      rfl
  have htext : Literal.text ⟨sign, whole, frac, expo⟩ =
      (sign.elim [] fun minus => [if minus then ch '-' else ch '+']) ++
        (mantissa ++ expo.elim [] Exponent.text) := by
    rw [Literal.text, Literal.numeral, Numeral.text, if_neg Bool.false_ne_true, List.nil_append,
      Numeral.tailText, ← List.append_assoc (digitText whole)]
  have hhead : ∀ c s, mantissa ++ expo.elim [] Exponent.text = c :: s →
      c ≠ ch '-' ∧ c ≠ ch '+' := by
    intro c s heq
    cases whole with
    | cons d ds =>
      obtain ⟨rfl, -⟩ := List.cons.inj heq
      have hd := hwhole d List.mem_cons_self
      exact ⟨digit_ne hd (by decide), digit_ne hd (by decide)⟩
    | nil =>
      cases frac with
      | none => exact absurd hsome' (by simp)
      | some ds =>
        obtain ⟨rfl, -⟩ := List.cons.inj heq
        exact ⟨by decide, by decide⟩
  have hread : fromDigits (Literal.text ⟨sign, whole, frac, expo⟩) =
      finish (decide (sign = some true)) (digitText whole) (digitText (frac.getD []))
        (expo.elim 0 Exponent.value) := by
    rw [htext, fromDigits, takeSign_text sign hhead]
    dsimp only
    rw [hsplit, Option.bind_some]
    exact hassemble _ _
  rw [hread]
  obtain ⟨hin, hout⟩ := finish_text (decide (sign = some true)) hwhole hfrac' hsome'
    (expo.elim 0 Exponent.value)
  refine ⟨fun hbounds => ?_, hout⟩
  obtain ⟨d, hd, hneg, hvalue⟩ := hin hbounds
  refine ⟨d, hd, hneg, ?_⟩
  rw [hvalue, Literal.value, Literal.numeral, Numeral.magnitude]
  simp only [decide_eq_true_eq]

/-! ### The total of a quotation -/

/-- The sign of a decimal that is not zero. -/
lemma neg_eq_decide {d : Decimal} (h : d.toRat ≠ 0) : d.neg = decide (d.toRat < 0) := by
  cases hneg : d.neg with
  | false => exact (decide_eq_false (not_lt.mpr (toRat_nonneg hneg))).symm
  | true => exact (decide_eq_true (lt_of_le_of_ne (toRat_nonpos hneg) h)).symm

/-- A sum of zero has the sign of its first summand. -/
lemma neg_add_of_eq_zero {a b : Decimal} (h : a.toRat + b.toRat = 0) : (a.add b).neg = a.neg := by
  by_cases hsign : a.neg = b.neg
  · rw [add]
    simp only [if_pos hsign]
  · have hzero : (a.add b).digits = 0 := (toRat_eq_zero_iff _).mp ((toRat_add a b).trans h)
    rw [add] at hzero ⊢
    simp only [if_neg hsign] at hzero ⊢
    split at hzero
    · rename_i hle
      rw [if_pos hle]
    · rename_i hle
      dsimp only at hzero
      omega

/-- The sign of a running sum: a sum of zero keeps the sign from before. -/
def sumSign : (neg : Bool) → (sum : ℚ) → List ℚ → Bool
  | neg, _, [] => neg
  | neg, sum, price :: prices =>
    sumSign (if sum + price = 0 then neg else decide (sum + price < 0)) (sum + price) prices

/-- The sum of some decimals, and its sign. -/
lemma foldl_add (prices : List Decimal) : ∀ total : Decimal,
    (prices.foldl add total).toRat = total.toRat + (prices.map toRat).sum ∧
      (prices.foldl add total).neg = sumSign total.neg total.toRat (prices.map toRat) := by
  induction prices with
  | nil => exact fun total => ⟨by simp, rfl⟩
  | cons price prices ih =>
    intro total
    obtain ⟨hsum, hsign⟩ := ih (total.add price)
    rw [List.foldl_cons, List.map_cons, List.sum_cons, sumSign, hsum, hsign, toRat_add]
    refine ⟨add_assoc _ _ _, congrArg (fun neg => sumSign neg _ _) ?_⟩
    split
    · rename_i hzero
      exact neg_add_of_eq_zero hzero
    · rename_i hne
      rw [← toRat_add] at hne ⊢
      exact neg_eq_decide hne

/-- The total price of a line. -/
def linePrice? (line : Value) : Option Decimal :=
  line.dict?.bind fun d => parse (d.get "totalPrice")

/-- The prices of the lines of a quotation that has some. -/
def linePrices? (quote : Dict) : Option (List Decimal) :=
  match (quote.get "lines").list? with
  | none => none
  | some lines => if lines.isEmpty then none else lines.mapM linePrice?

/-- A line with a price adds it, and any other is refused. -/
lemma addLine_eq_ok {total total' : Decimal} {line : Value} :
    addLine total line = .ok total' ↔
      ∃ price, linePrice? line = some price ∧ total.add price = total' := by
  rw [addLine, linePrice?]
  cases line.dict? with
  | none =>
    constructor
    · intro h
      cases h
    · rintro ⟨price, hprice, -⟩
      cases hprice
  | some d =>
    rw [Option.bind_some]
    dsimp only
    cases parse (Dict.get d "totalPrice") with
    | none =>
      constructor
      · intro h
        cases h
      · rintro ⟨price, hprice, -⟩
        cases hprice
    | some price =>
      dsimp only
      rw [Except.ok.injEq]
      constructor
      · intro h
        exact ⟨price, rfl, h⟩
      · rintro ⟨price', hprice, heq⟩
        rw [Option.some.inj hprice]
        exact heq

/-- The total of some lines is the sum of their prices. -/
lemma foldlM_addLine (lines : List Value) : ∀ total total' : Decimal,
    lines.foldlM addLine total = .ok total' ↔
      ∃ prices, lines.mapM linePrice? = some prices ∧ prices.foldl add total = total' := by
  induction lines with
  | nil =>
    intro total total'
    constructor
    · intro h
      exact ⟨[], rfl, Except.ok.inj h⟩
    · rintro ⟨prices, hprices, rfl⟩
      obtain rfl := Option.some.inj hprices
      rfl
  | cons line lines ih =>
    intro total total'
    rw [List.foldlM_cons, List.mapM_cons]
    constructor
    · intro h
      cases hline : addLine total line with
      | error fault =>
        rw [hline] at h
        cases h
      | ok next =>
        rw [hline] at h
        obtain ⟨price, hprice, rfl⟩ := addLine_eq_ok.mp hline
        obtain ⟨prices, hprices, rfl⟩ := (ih _ _).mp h
        exact ⟨price :: prices, by rw [hprice, hprices]; rfl, rfl⟩
    · rintro ⟨prices, hprices, rfl⟩
      rw [Option.bind_eq_bind, Option.bind_eq_some_iff] at hprices
      obtain ⟨price, hprice, hprices⟩ := hprices
      rw [Option.bind_eq_bind, Option.bind_eq_some_iff] at hprices
      obtain ⟨rest, hrest, hprices⟩ := hprices
      obtain rfl := Option.some.inj hprices
      rw [addLine_eq_ok.mpr ⟨price, hprice, rfl⟩]
      exact (ih _ _).mpr ⟨rest, hrest, rfl⟩

/-- The total of a quotation is the sum of the prices of its lines. -/
lemma quotationTotal_eq_ok {quote : Dict} {total : Decimal} :
    quotationTotal quote = .ok total ↔
      ∃ prices, linePrices? quote = some prices ∧ prices.foldl add zero = total := by
  rw [quotationTotal, linePrices?]
  change (match (quote.get "lines").list? with | none => _ | some lines => _) = _ ↔ _
  cases (quote.get "lines").list? with
  | none => exact ⟨nofun, fun ⟨_, h, _⟩ => nomatch h⟩
  | some lines =>
    dsimp only
    cases lines.isEmpty with
    | true => exact ⟨nofun, fun ⟨_, h, _⟩ => nomatch h⟩
    | false => exact foldlM_addLine lines zero total

/-! ### Where decimals are their numbers -/

/-- The quoted total is the sum of the prices of the lines. -/
def SumsTo (payload quote : Dict) : Prop :=
  ∃ quoted prices, parse (payload.get "quotedTotal") = some quoted ∧
    linePrices? quote = some prices ∧ quoted.toRat = (prices.map toRat).sum

/-- The quoted total and the sum of the prices are zeros of different sign. -/
def MixedTotal (payload quote : Dict) : Prop :=
  ∃ quoted prices, parse (payload.get "quotedTotal") = some quoted ∧
    linePrices? quote = some prices ∧ quoted.digits = 0 ∧ (prices.map toRat).sum = 0 ∧
    quoted.neg ≠ sumSign false 0 (prices.map toRat)

/-- The text that a value is parsed from. -/
def writtenAs : Value → Option Str
  | .int n => some (Str.ofInt n)
  | .float x => some x.repr
  | .str s => some s
  | _ => none

/-- Decimals are their numbers. -/
structure IsRational (a b : Decimal) (literal : Literal) (payload quote : Dict) : Prop where
  sum : (a.add b).toRat = a.toRat + b.toRat
  order : Decimal.compare a b = cmp a.toRat b.toRat
  unequal : a.notEq b = true ↔ a.toRat ≠ b.toRat
  positive : a.isPositive = true ↔ 0 < a.toRat
  parsed : literal.WellFormed → ∀ v d, writtenAs v = some literal.text → parse v = some d →
    d.toRat = literal.value
  total : matchQuotedTotal payload quote = .ok () ↔ SumsTo payload quote

/-- A value is parsed from its text. -/
lemma parse_eq (v : Value) : parse v = (writtenAs v).bind fromDigits := by
  cases v <;> rfl

/-- The quoted total is read. -/
lemma quotedTotal_eq_ok {v : Value} {d : Decimal} :
    quotedTotal v = .ok d ↔ parse v = some d := by
  rw [quotedTotal]
  cases parse v with
  | none => exact ⟨nofun, nofun⟩
  | some d' =>
    exact ⟨fun h => congrArg some (Except.ok.inj h), fun h => congrArg _ (Option.some.inj h)⟩

/-- Where the total is matched, both sides are there and compare equal. -/
lemma matchQuotedTotal_eq_ok {payload quote : Dict} :
    matchQuotedTotal payload quote = .ok () ↔
      ∃ quoted prices, parse (payload.get "quotedTotal") = some quoted ∧
        linePrices? quote = some prices ∧ quoted.notEq (prices.foldl add zero) = false := by
  rw [matchQuotedTotal, bind_eq_ok]
  constructor
  · rintro ⟨quoted, hquoted, h⟩
    obtain ⟨total, htotal, h⟩ := bind_eq_ok.mp h
    obtain ⟨prices, hprices, rfl⟩ := quotationTotal_eq_ok.mp htotal
    exact ⟨quoted, prices, quotedTotal_eq_ok.mp hquoted, hprices, refuseIf_eq_ok.mp h⟩
  · rintro ⟨quoted, prices, hquoted, hprices, hne⟩
    refine ⟨quoted, quotedTotal_eq_ok.mpr hquoted, ?_⟩
    exact bind_eq_ok.mpr
      ⟨_, quotationTotal_eq_ok.mpr ⟨prices, hprices, rfl⟩, refuseIf_eq_ok.mpr hne⟩

/-- The total is matched as a number, unless both sides are zeros of different sign. -/
lemma matchQuotedTotal_iff (payload quote : Dict) :
    (matchQuotedTotal payload quote = .ok () ↔ SumsTo payload quote) ↔
      ¬MixedTotal payload quote := by
  have hzero : toRat zero = 0 := (toRat_eq_zero_iff zero).mpr rfl
  -- what is compared is the sum, with its sign
  have hmixed : ∀ (quoted : Decimal) (prices : List Decimal), MixedZeros quoted (prices.foldl add zero) ↔
      quoted.digits = 0 ∧ (prices.map toRat).sum = 0 ∧
        quoted.neg ≠ sumSign false 0 (prices.map toRat) := by
    intro quoted prices
    obtain ⟨hsum, hsign⟩ := foldl_add prices zero
    rw [hzero] at hsum hsign
    rw [MixedZeros, hsign, ← toRat_eq_zero_iff (prices.foldl add zero), hsum, zero_add]
    exact ⟨fun ⟨hneg, hquoted, htotal⟩ => ⟨hquoted, htotal, hneg⟩,
      fun ⟨hquoted, htotal, hneg⟩ => ⟨hneg, hquoted, htotal⟩⟩
  have hsum : ∀ prices : List Decimal,
      (prices.foldl add zero).toRat = (prices.map toRat).sum := fun prices => by
    rw [(foldl_add prices zero).1, hzero, zero_add]
  rw [matchQuotedTotal_eq_ok]
  constructor
  · rintro hiff ⟨quoted, prices, hquoted, hprices, hmix⟩
    have hmix' := (hmixed quoted prices).mpr hmix
    have hsums : SumsTo payload quote := by
      refine ⟨quoted, prices, hquoted, hprices, ?_⟩
      rw [(toRat_eq_zero_iff quoted).mpr hmix.1, hmix.2.1]
    obtain ⟨quoted', prices', hquoted', hprices', hne⟩ := hiff.mpr hsums
    obtain rfl := Option.some.inj (hquoted.symm.trans hquoted')
    obtain rfl := Option.some.inj (hprices.symm.trans hprices')
    have heq : quoted.toRat = (prices.foldl add zero).toRat := by
      rw [hsum, (toRat_eq_zero_iff quoted).mpr hmix.1, hmix.2.1]
    refine (notEq_iff quoted (prices.foldl add zero)).mp (iff_of_false ?_ (not_not.mpr heq)) hmix'
    rw [hne]
    exact Bool.false_ne_true
  · intro hnot
    refine exists_congr fun quoted => exists_congr fun prices => and_congr_right fun hquoted =>
      and_congr_right fun hprices => ?_
    have hmix : ¬MixedZeros quoted (prices.foldl add zero) := fun h =>
      hnot ⟨quoted, prices, hquoted, hprices, (hmixed quoted prices).mp h⟩
    have hne := (notEq_iff quoted (prices.foldl add zero)).mpr hmix
    rw [← Bool.not_eq_true, hne, hsum, not_not]

/-- Decimals are their numbers exactly where no two zeros of different sign are compared: addition,
`positive?/1` and literals everywhere, the order and `not_eq?/2` but for such zeros, and the match
of the quoted total but for such a total. -/
theorem isRational_iff (a b : Decimal) (literal : Literal) (payload quote : Dict) :
    IsRational a b literal payload quote ↔ ¬MixedZeros a b ∧ ¬MixedTotal payload quote := by
  constructor
  · intro h
    exact ⟨(compare_eq_iff a b).mp h.order, (matchQuotedTotal_iff payload quote).mp h.total⟩
  · rintro ⟨hzeros, htotal⟩
    refine ⟨toRat_add a b, (compare_eq_iff a b).mpr hzeros, (notEq_iff a b).mpr hzeros,
      isPositive_iff a, fun hliteral v d hv hd => ?_,
      (matchQuotedTotal_iff payload quote).mpr htotal⟩
    obtain ⟨hin, hout⟩ := fromDigits_text hliteral
    rw [parse_eq, hv, Option.bind_some] at hd
    by_cases hbounds : literal.InBounds
    · obtain ⟨d', hd', -, hvalue⟩ := hin hbounds
      obtain rfl := Option.some.inj (hd.symm.trans hd')
      exact hvalue
    · rw [hout hbounds] at hd
      cases hd

/-- A negative zero and zero have one number, and the first is less than the second. -/
theorem not_isRational : ∃ a b, parse (.str "-0") = some a ∧ parse (.str "0") = some b ∧
    ∀ literal payload quote, ¬IsRational a b literal payload quote := by
  refine ⟨⟨true, 0, 0⟩, zero, by decide, by decide, fun literal payload quote h => ?_⟩
  exact (compare_eq_iff _ _).mp h.order ⟨by decide, rfl, rfl⟩

end VitrialSync.Beam.Decimal
