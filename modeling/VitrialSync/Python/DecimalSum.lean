import Mathlib.Algebra.Order.Field.Rat
import Mathlib.Tactic.Ring
import VitrialSync.Python.Decimal
import VitrialSync.Python.Rounding

set_option relaxedAutoImplicit false
set_option autoImplicit false

/-!
# Sums of decimals by value

`1` and `1.0` are different decimals of the same value. The sum of two decimals depends on their
values only, although it is rounded to the precision of the context: the digits that are cut off
are counted from the leading one.

## Main definitions

* `Python.Decimal.SameValue` — `a == b`.

## Main results

* `Python.Decimal.fixValue_congr` — fitting a result into the context depends on its value only.
* `Python.Decimal.add_congr` — so does the sum.
-/

namespace Python.Decimal

/-- `a == b` for decimals that are not NaN. -/
def SameValue (a b : Decimal) : Prop := ne a b = .ok false

/-- The value of a finite decimal, zero for the others. -/
def toRat : Decimal → ℚ
  | finite neg coeff exp => ratOf neg coeff exp
  | _ => 0

/-! ### Powers and digits -/

/-- The number of digits is bounded by the powers of ten. -/
lemma numDigits_le_iff {c k : ℕ} (hk : 0 < k) : numDigits c ≤ k ↔ c < 10 ^ k :=
  Nat.length_toDigits_le_iff (by decide) hk

/-- A coefficient has a digit. -/
lemma numDigits_pos (c : ℕ) : 0 < numDigits c := Nat.length_toDigits_pos

/-- A zero at the end is one more digit. -/
lemma numDigits_mul_ten {c : ℕ} (hc : 0 < c) : numDigits (c * 10) = numDigits c + 1 := by
  have hpos := numDigits_pos c
  refine le_antisymm ?_ ?_
  · rw [numDigits_le_iff (Nat.succ_pos _), pow_succ]
    exact Nat.mul_lt_mul_of_pos_right ((numDigits_le_iff hpos).mp le_rfl) (by decide)
  · by_contra hlt
    have hshort : c * 10 < 10 ^ numDigits c := (numDigits_le_iff hpos).mp (by omega)
    obtain ⟨k, hk⟩ : ∃ k, numDigits c = k + 1 := ⟨numDigits c - 1, by omega⟩
    rw [hk, pow_succ] at hshort
    have hsmall : c < 10 ^ k := Nat.lt_of_mul_lt_mul_right hshort
    cases k with
    | zero => simp at hsmall; omega
    | succ k =>
      have := (numDigits_le_iff (Nat.succ_pos k)).mpr hsmall
      omega

/-- Rounding an integer. -/
lemma roundHalfEven_natCast (n : ℕ) : Binary64.roundHalfEven n = n := by
  simp [Binary64.roundHalfEven, Nat.mod_one]

/-- Dropping a digit that is zero. -/
lemma dropDigits_mul_ten (c n : ℕ) : dropDigits (c * 10) (n + 1) = dropDigits c n := by
  unfold dropDigits
  congr 1
  push_cast
  rw [pow_succ, mul_div_mul_right _ _ (by norm_num)]

/-- Dropping nothing. -/
lemma dropDigits_zero (c : ℕ) : dropDigits c 0 = c := by
  rw [dropDigits, pow_zero, Nat.cast_one, div_one, roundHalfEven_natCast]

/-- Dropping digits of zero. -/
lemma zero_dropDigits (n : ℕ) : dropDigits 0 n = 0 := by
  rw [dropDigits, Nat.cast_zero, zero_div]
  exact roundHalfEven_natCast 0

/-! ### Fitting a result into the context -/

/-- The value of a result that is fitted into the context. -/
def fixValue (neg : Bool) (coeff : ℕ) (exp : ℤ) : Except Signal ℚ := (fix neg coeff exp).map toRat

/-- The digits that are cut off a result. -/
def cutOff (coeff : ℕ) (exp : ℤ) : ℕ := max (numDigits coeff - prec) (etiny - exp).toNat

/-- The end of `fix`, after the cut: a carry, and the check of the exponent. -/
def settled (neg : Bool) (c : ℕ) (e : ℤ) : Except Signal Decimal :=
  let (c, e) := if prec < numDigits c then (c / 10, e + 1) else (c, e)
  if c = 0 then .ok (finite neg 0 (min e emax))
  else if emax < adjusted c e then .error .overflow
  else .ok (finite neg c e)

/-- Fitting is cutting, then settling. -/
lemma fix_eq (neg : Bool) (coeff : ℕ) (exp : ℤ) :
    fix neg coeff exp =
      settled neg (dropDigits coeff (cutOff coeff exp)) (exp + cutOff coeff exp) := by
  simp only [fix, settled, cutOff, Nat.cast_max]

/-- The value of a coefficient with a zero at its end. -/
lemma ratOf_mul_ten (neg : Bool) (c : ℕ) (e : ℤ) : ratOf neg (c * 10) (e - 1) = ratOf neg c e := by
  rw [ratOf, ratOf, Binary64.pow10_eq, Binary64.pow10_eq, zpow_sub_one₀ (by norm_num)]
  push_cast
  ring

/-- Zero fits. -/
lemma fixValue_zero (neg : Bool) (exp : ℤ) : fixValue neg 0 exp = .ok 0 := by
  rw [fixValue, fix_eq, zero_dropDigits]
  have hdigits : ¬ prec < numDigits 0 := by decide
  simp [settled, hdigits, Except.map, toRat, ratOf]

/-- A zero at the end of the coefficient does not change what is fitted.

**Proof sketch.** When digits are cut off, the zero is cut off too. When none are, the coefficient
with the zero either loses just the zero or still fits as it is. -/
lemma fixValue_mul_ten (neg : Bool) {c : ℕ} (hc : 0 < c) (e : ℤ) :
    fixValue neg (c * 10) (e - 1) = fixValue neg c e := by
  have hdigits := numDigits_mul_ten hc
  rw [fixValue, fixValue, fix_eq, fix_eq]
  rcases Nat.eq_zero_or_pos (cutOff c e) with hnone | hsome
  · rw [hnone, dropDigits_zero, Nat.cast_zero, add_zero]
    have hfits : numDigits c ≤ prec ∧ etiny ≤ e := by
      unfold cutOff at hnone
      omega
    rcases Nat.eq_zero_or_pos (cutOff (c * 10) (e - 1)) with hnone' | hsome'
    · have hfits' : numDigits c + 1 ≤ prec := by
        unfold cutOff at hnone'
        rw [hdigits] at hnone'
        omega
      rw [hnone', dropDigits_zero, Nat.cast_zero, add_zero]
      have hadjusted : adjusted (c * 10) (e - 1) = adjusted c e := by
        unfold adjusted
        have := numDigits_pos c
        omega
      have hcarry : ¬ prec < numDigits c := by omega
      have hcarry' : ¬ prec < numDigits (c * 10) := by omega
      simp only [settled, hcarry, hcarry', ↓reduceIte, hadjusted, hc.ne', mul_eq_zero,
        OfNat.ofNat_ne_zero, or_self]
      split_ifs
      · rfl
      · simp only [Except.map, toRat, ratOf_mul_ten]
    · have hone : cutOff (c * 10) (e - 1) = 0 + 1 := by
        unfold cutOff at hsome' ⊢
        rw [hdigits] at hsome' ⊢
        omega
      rw [hone, dropDigits_mul_ten, dropDigits_zero]
      congr 2
      push_cast
      ring
  · have hmore : cutOff (c * 10) (e - 1) = cutOff c e + 1 := by
      unfold cutOff at hsome ⊢
      rw [hdigits]
      omega
    rw [hmore, dropDigits_mul_ten]
    congr 2
    push_cast
    ring

/-- Zeros at the end of the coefficient do not change what is fitted. -/
lemma fixValue_mul_pow (neg : Bool) {c : ℕ} (hc : 0 < c) (e : ℤ) (k : ℕ) :
    fixValue neg (c * 10 ^ k) (e - k) = fixValue neg c e := by
  induction k with
  | zero => simp
  | succ k ih =>
    rw [← ih, ← fixValue_mul_ten neg (Nat.mul_pos hc (Nat.pow_pos (by decide))) (e - k), pow_succ,
      ← mul_assoc]
    congr 1
    push_cast
    ring

/-- **Fitting depends on the value.** Two results of the same value and sign are fitted to the same
value. -/
theorem fixValue_congr (neg : Bool) {c c' : ℕ} {e e' : ℤ}
    (h : (c : ℚ) * 10 ^ e = (c' : ℚ) * 10 ^ e') : fixValue neg c e = fixValue neg c' e' := by
  -- the coefficient with the smaller exponent is the other one with zeros at its end
  have hscale : ∀ {c c' : ℕ} {e e' : ℤ}, e' ≤ e → (c : ℚ) * 10 ^ e = (c' : ℚ) * 10 ^ e' →
      fixValue neg c e = fixValue neg c' e' := by
    intro c c' e e' hle h
    obtain ⟨k, rfl⟩ : ∃ k : ℕ, e' = e - k := ⟨(e - e').toNat, by omega⟩
    have hcoeff : c' = c * 10 ^ k := by
      rw [zpow_sub₀ (by norm_num), zpow_natCast] at h
      field_simp at h
      exact_mod_cast h.symm
    rcases Nat.eq_zero_or_pos c with rfl | hc
    · rw [hcoeff, Nat.zero_mul, fixValue_zero, fixValue_zero]
    · rw [hcoeff, fixValue_mul_pow neg hc]
  rcases le_total e' e with hle | hle
  · exact hscale hle h
  · exact (hscale hle h.symm).symm

/-- What is fitted is finite. -/
lemma fix_finite {neg : Bool} {c : ℕ} {e : ℤ} {d : Decimal} (h : fix neg c e = .ok d) :
    ∃ s c' e', d = finite s c' e' := by
  rw [fix_eq] at h
  simp only [settled] at h
  generalize (if prec < numDigits _ then _ else _ : ℕ × ℤ) = p at h
  obtain ⟨c', e'⟩ := p
  dsimp only at h
  split_ifs at h
  · exact ⟨_, _, _, (Except.ok.inj h).symm⟩
  · exact ⟨_, _, _, (Except.ok.inj h).symm⟩

/-! ### Addition -/

/-- Finite decimals of the same value. -/
lemma sameValue_finite {s s' : Bool} {c c' : ℕ} {e e' : ℤ} :
    SameValue (finite s c e) (finite s' c' e') ↔ ratOf s c e = ratOf s' c' e' := by
  simp [SameValue, ne]

/-- A decimal that has a value is finite or an infinity. -/
lemma SameValue.left_cases {a b : Decimal} (h : SameValue a b) :
    (∃ s c e, a = finite s c e) ∨ ∃ s, a = inf s := by
  cases a with
  | finite s c e => exact Or.inl ⟨s, c, e, rfl⟩
  | inf s => exact Or.inr ⟨s, rfl⟩
  | _ => cases b <;> simp [SameValue, ne] at h

/-- A decimal of the same value as a finite one is finite. -/
lemma SameValue.finite_right {s : Bool} {c : ℕ} {e : ℤ} {b : Decimal}
    (h : SameValue (finite s c e) b) :
    ∃ s' c' e', b = finite s' c' e' ∧ ratOf s c e = ratOf s' c' e' := by
  cases b with
  | finite s' c' e' => exact ⟨s', c', e', rfl, sameValue_finite.mp h⟩
  | _ => simp [SameValue, ne] at h

/-- A decimal of the same value as an infinity is that infinity. -/
lemma SameValue.inf_right {s : Bool} {b : Decimal} (h : SameValue (inf s) b) : b = inf s := by
  cases b with
  | inf t =>
    simp only [SameValue, ne, Except.ok.injEq, bne_eq_false_iff_eq] at h
    rw [h]
  | _ => simp [SameValue, ne] at h

/-- The same value in turn. -/
lemma SameValue.trans {a b c : Decimal} (hab : SameValue a b) (hbc : SameValue b c) :
    SameValue a c := by
  rcases hab.left_cases with ⟨s, k, e, rfl⟩ | ⟨s, rfl⟩
  · obtain ⟨s', k', e', rfl, hval⟩ := hab.finite_right
    obtain ⟨s'', k'', e'', rfl, hval'⟩ := hbc.finite_right
    exact sameValue_finite.mpr (hval.trans hval')
  · obtain rfl := hab.inf_right
    exact hbc

/-- The scaled coefficient keeps the value. -/
lemma scaled_mul (s : Bool) (c : ℕ) {e t : ℤ} (h : t ≤ e) :
    (scaled s c e t : ℚ) * 10 ^ t = ratOf s c e := by
  obtain ⟨k, rfl⟩ : ∃ k : ℕ, e = t + k := ⟨(e - t).toNat, by omega⟩
  have hk : (t + k - t : ℤ).toNat = k := by omega
  rw [scaled, ratOf, Binary64.pow10_eq, hk, zpow_add₀ (by norm_num), zpow_natCast]
  cases s <;> push_cast <;> ring

/-- The sum of two finite decimals: a coefficient of the value of the sum is fitted. -/
lemma add_finite (s s' : Bool) (c c' : ℕ) (e e' : ℤ) :
    ∃ (n : ℤ) (t : ℤ) (sign : Bool), (n : ℚ) * 10 ^ t = ratOf s c e + ratOf s' c' e' ∧
      (n ≠ 0 → sign = decide (n < 0)) ∧
      add (finite s c e) (finite s' c' e') = fix sign n.natAbs t := by
  refine ⟨_, _, _, ?_, ?_, rfl⟩
  · rw [Int.cast_add, add_mul, scaled_mul s c (min_le_left _ _),
      scaled_mul s' c' (min_le_right _ _)]
  · intro hn
    rw [if_neg hn]

/-- Two integers times powers of ten with the same value have the same sign. -/
lemma sign_of_value {m n : ℤ} {t u : ℤ} (h : (m : ℚ) * 10 ^ t = (n : ℚ) * 10 ^ u) :
    (m = 0 ↔ n = 0) ∧ (m < 0 ↔ n < 0) ∧
      (m.natAbs : ℚ) * 10 ^ t = (n.natAbs : ℚ) * 10 ^ u := by
  have ht : (0 : ℚ) < 10 ^ t := zpow_pos (by norm_num) t
  have hu : (0 : ℚ) < 10 ^ u := zpow_pos (by norm_num) u
  refine ⟨?_, ?_, ?_⟩
  · constructor <;> rintro rfl
    · have hn : (n : ℚ) * 10 ^ u = 0 := by rw [← h]; simp
      simpa [hu.ne'] using hn
    · have hm : (m : ℚ) * 10 ^ t = 0 := by rw [h]; simp
      simpa [ht.ne'] using hm
  · have hm : (m : ℚ) * 10 ^ t < 0 ↔ m < 0 := by
      rw [mul_neg_iff]
      simp [ht, ht.not_gt]
    have hn : (n : ℚ) * 10 ^ u < 0 ↔ n < 0 := by
      rw [mul_neg_iff]
      simp [hu, hu.not_gt]
    rw [← hm, h, hn]
  · have habs := congrArg abs h
    rw [abs_mul, abs_mul, abs_of_pos ht, abs_of_pos hu] at habs
    simpa [Nat.cast_natAbs] using habs

/-- The sum of two finite decimals depends on their values. -/
lemma add_finite_congr {s s' s₁ s₂ : Bool} {k k' k₁ k₂ : ℕ} {e e' e₁ e₂ : ℤ} {c : Decimal}
    (hval : ratOf s k e = ratOf s₁ k₁ e₁) (hval' : ratOf s' k' e' = ratOf s₂ k₂ e₂)
    (h : add (finite s k e) (finite s' k' e') = .ok c) :
    ∃ c', add (finite s₁ k₁ e₁) (finite s₂ k₂ e₂) = .ok c' ∧ SameValue c c' := by
  obtain ⟨m, t, sign, hm, hsign, hadd⟩ := add_finite s s' k k' e e'
  obtain ⟨n, u, sign', hn, hsign', hadd'⟩ := add_finite s₁ s₂ k₁ k₂ e₁ e₂
  have hsame : (m : ℚ) * 10 ^ t = (n : ℚ) * 10 ^ u := by rw [hm, hn, hval, hval']
  obtain ⟨hzero, hneg, habs⟩ := sign_of_value hsame
  have hfix : fixValue sign m.natAbs t = fixValue sign' n.natAbs u := by
    by_cases h0 : m = 0
    · rw [h0, hzero.mp h0, Int.natAbs_zero, fixValue_zero, fixValue_zero]
    · have hsigns : sign = sign' := by
        rw [hsign h0, hsign' fun hn0 => h0 (hzero.mpr hn0), decide_eq_decide]
        exact hneg
      rw [hsigns]
      exact fixValue_congr sign' habs
  rw [hadd] at h
  rw [hadd']
  rw [fixValue, fixValue, h] at hfix
  cases hfix' : fix sign' n.natAbs u with
  | error signal =>
    rw [hfix'] at hfix
    cases hfix
  | ok d =>
    rw [hfix'] at hfix
    obtain ⟨_, _, _, rfl⟩ := fix_finite h
    obtain ⟨_, _, _, rfl⟩ := fix_finite hfix'
    exact ⟨_, rfl, sameValue_finite.mpr (Except.ok.inj hfix)⟩

/-- **Sums depend on the values.** Decimals of the same values have sums of the same value. -/
theorem add_congr {a a' b b' c : Decimal} (ha : SameValue a a') (hb : SameValue b b')
    (h : add a b = .ok c) : ∃ c', add a' b' = .ok c' ∧ SameValue c c' := by
  rcases ha.left_cases with ⟨s, k, e, rfl⟩ | ⟨s, rfl⟩
  · obtain ⟨s₁, k₁, e₁, rfl, hval⟩ := ha.finite_right
    rcases hb.left_cases with ⟨s', k', e', rfl⟩ | ⟨t, rfl⟩
    · obtain ⟨s₂, k₂, e₂, rfl, hval'⟩ := hb.finite_right
      exact add_finite_congr hval hval' h
    · obtain rfl := hb.inf_right
      cases h
      exact ⟨_, rfl, hb⟩
  · obtain rfl := ha.inf_right
    rcases hb.left_cases with ⟨s', k', e', rfl⟩ | ⟨t, rfl⟩
    · obtain ⟨s₂, k₂, e₂, rfl, -⟩ := hb.finite_right
      cases h
      exact ⟨_, rfl, ha⟩
    · obtain rfl := hb.inf_right
      refine ⟨c, h, ?_⟩
      simp only [add] at h
      split_ifs at h
      cases h
      exact ha

end Python.Decimal
