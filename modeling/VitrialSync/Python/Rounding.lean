import Mathlib.Algebra.Order.Archimedean.Basic
import Mathlib.Algebra.Order.Field.Power
import Mathlib.Algebra.Order.Field.Rat
import Mathlib.Tactic.FieldSimp
import Mathlib.Tactic.Linarith
import Mathlib.Tactic.NormNum
import Mathlib.Tactic.Positivity
import Mathlib.Tactic.Ring
import VitrialSync.Python.Binary64

set_option relaxedAutoImplicit false
set_option autoImplicit false

/-!
# Shortest digits read back

A decimal that is nearer to a float than half the distance to the next floats rounds to it, and
among the decimals of seventeen digits there is one that near. So the search for the shortest digits
of a float ends, and the digits it finds round back to the float.

## Main results

* `Python.Binary64.ofRat_of_near` — a rational near a float rounds to it.
* `Python.Binary64.floorLog10_spec` — the search for the decimal exponent.
* `Python.Binary64.readsBack_shortest` — the shortest digits of a float read back.
-/

namespace Python.Binary64

/-! ### Powers -/

/-- The powers of two are those of the rationals. -/
lemma pow2_eq (e : ℤ) : pow2 e = (2 : ℚ) ^ e := by
  unfold pow2
  split_ifs with he
  · lift e to ℕ using he
    simp
  · obtain ⟨n, rfl⟩ : ∃ n : ℕ, e = -n := ⟨(-e).toNat, by omega⟩
    simp

/-- The powers of ten are those of the rationals. -/
lemma pow10_eq (e : ℤ) : pow10 e = (10 : ℚ) ^ e := by
  unfold pow10
  split_ifs with he
  · lift e to ℕ using he
    simp
  · obtain ⟨n, rfl⟩ : ∃ n : ℕ, e = -n := ⟨(-e).toNat, by omega⟩
    simp

/-- A power of two under a power of ten: `2 ^ 93 < 10 ^ 28` for positive exponents, and
`10 ^ 31 < 2 ^ 103` for negative ones. -/
lemma two_zpow_le_ten_zpow {a b : ℤ} (hpos : 28 * a ≤ 93 * b) (hneg : 31 * a ≤ 103 * b) :
    (2 : ℚ) ^ a ≤ (10 : ℚ) ^ b := by
  rcases le_or_gt 0 a with ha | ha
  · have h93 : ((2 : ℚ) ^ a) ^ (93 : ℕ) ≤ ((10 : ℚ) ^ b) ^ (93 : ℕ) := by
      rw [← zpow_natCast, ← zpow_natCast, ← zpow_mul, ← zpow_mul, mul_comm a, zpow_mul]
      calc ((2 : ℚ) ^ ((93 : ℕ) : ℤ)) ^ a ≤ ((10 : ℚ) ^ (28 : ℤ)) ^ a :=
            zpow_le_zpow_left₀ ha (by positivity) (by norm_num)
        _ = (10 : ℚ) ^ (28 * a) := by rw [← zpow_mul]
        _ ≤ (10 : ℚ) ^ (b * ((93 : ℕ) : ℤ)) :=
            zpow_le_zpow_right₀ (by norm_num) (by push_cast; linarith)
    exact le_of_pow_le_pow_left₀ (by norm_num) (by positivity) h93
  · have h103 : ((2 : ℚ) ^ a) ^ (103 : ℕ) ≤ ((10 : ℚ) ^ b) ^ (103 : ℕ) := by
      rw [← zpow_natCast, ← zpow_natCast, ← zpow_mul, ← zpow_mul, mul_comm a, zpow_mul]
      calc ((2 : ℚ) ^ ((103 : ℕ) : ℤ)) ^ a ≤ ((10 : ℚ) ^ (31 : ℤ)) ^ a := by
            obtain ⟨n, rfl⟩ : ∃ n : ℕ, a = -n := ⟨(-a).toNat, by omega⟩
            rw [zpow_neg, zpow_neg, zpow_natCast _ n, zpow_natCast _ n]
            gcongr
            norm_num
        _ = (10 : ℚ) ^ (31 * a) := by rw [← zpow_mul]
        _ ≤ (10 : ℚ) ^ (b * ((103 : ℕ) : ℤ)) :=
            zpow_le_zpow_right₀ (by norm_num) (by push_cast; linarith)
    exact le_of_pow_le_pow_left₀ (by norm_num) (by positivity) h103

/-- A power of ten under a power of two, by the same comparisons. -/
lemma ten_zpow_le_two_zpow {a b : ℤ} (hpos : 103 * b ≤ 31 * a) (hneg : 93 * b ≤ 28 * a) :
    (10 : ℚ) ^ b ≤ (2 : ℚ) ^ a := by
  have h := two_zpow_le_ten_zpow (a := -a) (b := -b) (by linarith) (by linarith)
  rw [zpow_neg, zpow_neg] at h
  exact (inv_le_inv₀ (by positivity) (by positivity)).mp h

/-! ### Rounding to an integer -/

/-- A positive rational is its numerator over its denominator. -/
lemma num_toNat_div_den {q : ℚ} (hq : 0 ≤ q) : ((q.num.toNat : ℕ) : ℚ) / q.den = q := by
  have hnum : ((q.num.toNat : ℕ) : ℤ) = q.num := Int.toNat_of_nonneg (Rat.num_nonneg.mpr hq)
  have hcast : ((q.num.toNat : ℕ) : ℚ) = (q.num : ℚ) := by exact_mod_cast congrArg (Int.cast) hnum
  rw [hcast]
  exact Rat.num_div_den q

/-- A positive rational is its floor and a fraction of its denominator. -/
lemma eq_floor_add {q : ℚ} (hq : 0 ≤ q) :
    q = (q.num.toNat / q.den : ℕ) + ((q.num.toNat % q.den : ℕ) : ℚ) / q.den := by
  have hden : (q.den : ℚ) ≠ 0 := by exact_mod_cast q.den_pos.ne'
  have hdiv : (q.num.toNat : ℚ) =
      q.den * (q.num.toNat / q.den : ℕ) + (q.num.toNat % q.den : ℕ) := by
    exact_mod_cast (Nat.div_add_mod q.num.toNat q.den).symm
  conv_lhs => rw [← num_toNat_div_den hq, hdiv, add_div, mul_div_cancel_left₀ _ hden]

/-- Rounding to an integer moves a rational by at most one half. -/
lemma abs_roundHalfEven_sub_le {q : ℚ} (hq : 0 ≤ q) : |(roundHalfEven q : ℚ) - q| ≤ 1 / 2 := by
  have hden : (0 : ℚ) < q.den := by exact_mod_cast q.den_pos
  have hfloor := eq_floor_add hq
  have hfrac : 0 ≤ ((q.num.toNat % q.den : ℕ) : ℚ) / q.den := by positivity
  have hlt : ((q.num.toNat % q.den : ℕ) : ℚ) / q.den < 1 := by
    rw [div_lt_one hden]
    exact_mod_cast Nat.mod_lt _ q.den_pos
  -- the fraction is at most one half where the floor is taken, and at least one half otherwise
  have hlow : 2 * (q.num.toNat % q.den) ≤ q.den →
      ((q.num.toNat % q.den : ℕ) : ℚ) / q.den ≤ 1 / 2 := by
    intro h
    rw [div_le_div_iff₀ hden (by norm_num)]
    have h' : ((2 * (q.num.toNat % q.den) : ℕ) : ℚ) ≤ (q.den : ℚ) := by exact_mod_cast h
    push_cast at h' ⊢
    linarith
  have hhigh : q.den ≤ 2 * (q.num.toNat % q.den) →
      1 / 2 ≤ ((q.num.toNat % q.den : ℕ) : ℚ) / q.den := by
    intro h
    rw [div_le_div_iff₀ (by norm_num) hden]
    have h' : (q.den : ℚ) ≤ ((2 * (q.num.toNat % q.den) : ℕ) : ℚ) := by exact_mod_cast h
    push_cast at h' ⊢
    linarith
  generalize hfr : ((q.num.toNat % q.den : ℕ) : ℚ) / q.den = fr at *
  unfold roundHalfEven
  dsimp only
  split_ifs with hcase hcase' heven
  · rw [abs_le]
    have := hlow hcase.le
    constructor <;> linarith
  · rw [abs_le]
    have := hhigh hcase'.le
    push_cast
    constructor <;> linarith
  · rw [abs_le]
    have := hlow (by omega)
    constructor <;> linarith
  · rw [abs_le]
    have := hhigh (by omega)
    push_cast
    constructor <;> linarith

/-- A rational nearer than one half to an integer rounds to it. -/
lemma roundHalfEven_of_near {q : ℚ} (hq : 0 ≤ q) {m : ℕ} (h : |(m : ℚ) - q| < 1 / 2) :
    roundHalfEven q = m := by
  have hround := abs_roundHalfEven_sub_le hq
  have hdist : |(roundHalfEven q : ℚ) - m| < 1 := by
    calc |(roundHalfEven q : ℚ) - m| = |((roundHalfEven q : ℚ) - q) - ((m : ℚ) - q)| := by ring_nf
      _ ≤ |(roundHalfEven q : ℚ) - q| + |(m : ℚ) - q| := abs_sub _ _
      _ < 1 := by linarith
  have hint : |(roundHalfEven q : ℤ) - m| < 1 := by exact_mod_cast hdist
  have := Int.abs_lt_one_iff.mp hint
  omega

/-! ### The leading bit -/

/-- The estimate of the leading bit from the lengths of numerator and denominator. -/
def leadEstimate (q : ℚ) : ℤ := (Nat.log2 q.num.toNat : ℤ) - Nat.log2 q.den

/-- A natural number between powers of two. -/
lemma two_pow_log2_le {n : ℕ} (hn : n ≠ 0) :
    (2 : ℚ) ^ (Nat.log2 n : ℤ) ≤ n ∧ (n : ℚ) < (2 : ℚ) ^ ((Nat.log2 n : ℤ) + 1) := by
  constructor
  · rw [zpow_natCast]
    exact_mod_cast Nat.log2_self_le hn
  · rw [← Nat.cast_succ, zpow_natCast]
    exact_mod_cast Nat.lt_log2_self

/-- The estimate is exact or one too large. -/
lemma leadEstimate_spec {q : ℚ} (hq : 0 < q) :
    (2 : ℚ) ^ (leadEstimate q - 1) < q ∧ q < (2 : ℚ) ^ (leadEstimate q + 1) := by
  have hnum : q.num.toNat ≠ 0 := by
    have := Rat.num_pos.mpr hq
    omega
  obtain ⟨hn, hn'⟩ := two_pow_log2_le hnum
  obtain ⟨hd, hd'⟩ := two_pow_log2_le q.den_pos.ne'
  have hden : (0 : ℚ) < q.den := by exact_mod_cast q.den_pos
  have hq' := num_toNat_div_den hq.le
  have hlow : (2 : ℚ) ^ (leadEstimate q - 1) * q.den < q.num.toNat := by
    calc (2 : ℚ) ^ (leadEstimate q - 1) * q.den
        < (2 : ℚ) ^ (leadEstimate q - 1) * (2 : ℚ) ^ ((Nat.log2 q.den : ℤ) + 1) := by gcongr
      _ = (2 : ℚ) ^ (Nat.log2 q.num.toNat : ℤ) := by
          rw [← zpow_add₀ (by norm_num), leadEstimate]
          ring_nf
      _ ≤ q.num.toNat := hn
  have hhigh : (q.num.toNat : ℚ) < (2 : ℚ) ^ (leadEstimate q + 1) * q.den := by
    calc (q.num.toNat : ℚ) < (2 : ℚ) ^ ((Nat.log2 q.num.toNat : ℤ) + 1) := hn'
      _ = (2 : ℚ) ^ (leadEstimate q + 1) * (2 : ℚ) ^ (Nat.log2 q.den : ℤ) := by
          rw [← zpow_add₀ (by norm_num), leadEstimate]
          ring_nf
      _ ≤ (2 : ℚ) ^ (leadEstimate q + 1) * q.den := by gcongr
  rw [← lt_div_iff₀ hden, hq'] at hlow
  rw [← div_lt_iff₀ hden, hq'] at hhigh
  exact ⟨hlow, hhigh⟩

/-- The last bit of a significand is 52 bits below the leading bit, or the least one. -/
lemma lastBit_of_lead {q : ℚ} {lead : ℤ} (hlow : (2 : ℚ) ^ lead ≤ q)
    (hhigh : q < (2 : ℚ) ^ (lead + 1)) : lastBit q = max (lead - 52) (-1074) := by
  have hq : 0 < q := lt_of_lt_of_le (by positivity) hlow
  obtain ⟨hest, hest'⟩ := leadEstimate_spec hq
  have h₁ : lead < leadEstimate q + 1 :=
    (zpow_lt_zpow_iff_right₀ (by norm_num)).mp (hlow.trans_lt hest')
  have h₂ : leadEstimate q - 1 < lead + 1 :=
    (zpow_lt_zpow_iff_right₀ (by norm_num)).mp (hest.trans hhigh)
  unfold lastBit
  dsimp only
  rw [← leadEstimate, pow2_eq]
  split_ifs with hcase
  · have h₃ : leadEstimate q < lead + 1 :=
      (zpow_lt_zpow_iff_right₀ (by norm_num)).mp (hcase.trans_lt hhigh)
    have : leadEstimate q = lead := by omega
    rw [this]
  · have h₃ : lead < leadEstimate q :=
      (zpow_lt_zpow_iff_right₀ (by norm_num)).mp (hlow.trans_lt (not_le.mp hcase))
    have : leadEstimate q - 1 = lead := by omega
    rw [this]

/-! ### Rounding to a float -/

/-- A positive rational rounds to the float whose significand and last bit are those of the
rational. -/
lemma ofRat_of_lastBit {neg : Bool} {r : ℚ} (hr : 0 < r) {m m' : ℕ} {e e' : ℤ}
    (hbit : lastBit r = e') (hround : roundHalfEven (r / pow2 e') = m')
    (hcarry : (if m' = 2 ^ 53 then (2 ^ 52, e' + 1) else (m', e')) = (m, e))
    (hcanonical : Canonical64 m e) : ofRat neg r = finite false m e hcanonical := by
  unfold ofRat
  simp only [abs_of_pos hr, hbit, hround, hcarry, hr.ne', ↓reduceIte, hcanonical, ↓reduceDIte]
  congr 1
  simp [hr.le]

/-- **Rounding.** A rational that is nearer to a positive float than half the distance to the floats
next to it rounds to it. Below a power of two the floats are twice as dense.

**Proof sketch.** When the rational has the last bit of the float, its quotient is nearer than one
half to the significand. When its last bit is lower, the float is a power of two and the quotient
rounds up to the next one. -/
theorem ofRat_of_near {m : ℕ} {e : ℤ} (hcanonical : Canonical64 m e) (hm : m ≠ 0) {r : ℚ}
    (hlow : ((m : ℚ) - 1 / 2) * (2 : ℚ) ^ e < r) (hhigh : r < ((m : ℚ) + 1 / 2) * (2 : ℚ) ^ e)
    (hpower : m = 2 ^ 52 → ((m : ℚ) - 1 / 4) * (2 : ℚ) ^ e < r) :
    ofRat false r = finite false m e hcanonical := by
  obtain ⟨hm53, he, -, hnormal⟩ := id hcanonical
  have hpos : (0 : ℚ) < (2 : ℚ) ^ e := by positivity
  have hm1 : (1 : ℚ) ≤ m := by exact_mod_cast Nat.one_le_iff_ne_zero.mpr hm
  have hmax : (m : ℚ) + 1 ≤ (2 : ℚ) ^ 53 := by exact_mod_cast hm53
  have hr : 0 < r := lt_of_lt_of_le (mul_pos (by linarith) hpos) hlow.le
  -- the quotient by the last bit of the float
  have hquot : |(m : ℚ) - r / pow2 e| < 1 / 2 := by
    rw [pow2_eq, abs_lt]
    have h₁ : r / (2 : ℚ) ^ e < m + 1 / 2 := by rwa [div_lt_iff₀ hpos]
    have h₂ : (m : ℚ) - 1 / 2 < r / (2 : ℚ) ^ e := by rwa [lt_div_iff₀ hpos]
    constructor <;> linarith
  have hsame : lastBit r = e → ofRat false r = finite false m e hcanonical := by
    intro hbit
    have hnonneg : 0 ≤ r / pow2 e := div_nonneg hr.le (by rw [pow2_eq]; exact hpos.le)
    refine ofRat_of_lastBit hr hbit (roundHalfEven_of_near hnonneg hquot) ?_ hcanonical
    rw [if_neg hm53.ne]
  have hsplit : (2 : ℚ) ^ (e + 52) = (2 : ℚ) ^ 52 * (2 : ℚ) ^ e := by
    rw [zpow_add₀ (by norm_num), mul_comm]
    norm_num
  rcases le_or_gt ((2 : ℚ) ^ (e + 52)) r with hlead | hlead
  · apply hsame
    have htop : r < (2 : ℚ) ^ (e + 52 + 1) := by
      rw [zpow_add_one₀ (by norm_num), hsplit]
      nlinarith
    rw [lastBit_of_lead hlead htop]
    omega
  · by_cases hleast : e = -1074
    · -- below the least normal float
      apply hsame
      obtain ⟨lead, hlow', hhigh'⟩ := exists_mem_Ico_zpow hr (by norm_num : (1 : ℚ) < 2)
      have hlt : lead < e + 52 :=
        (zpow_lt_zpow_iff_right₀ (by norm_num)).mp (hlow'.trans_lt hlead)
      rw [lastBit_of_lead hlow' hhigh']
      omega
    · -- the float is a power of two, and the rational is below it
      have hmant : m = 2 ^ 52 := by
        have hge : 2 ^ 52 ≤ m := hnormal.resolve_right hleast
        have hlt : (m : ℚ) < (2 : ℚ) ^ 52 + 1 := by
          rw [hsplit] at hlead
          have := lt_of_mul_lt_mul_right (hlow.trans hlead) hpos.le
          linarith
        have hlt' : m < 2 ^ 52 + 1 := by exact_mod_cast hlt
        omega
      have hnear := hpower hmant
      have hcast : (m : ℚ) = (2 : ℚ) ^ 52 := by rw [hmant]; norm_num
      have hhalf : (2 : ℚ) ^ (e - 1) = (2 : ℚ) ^ e / 2 := zpow_sub_one₀ (by norm_num) e
      have hbit : lastBit r = e - 1 := by
        have hlow' : (2 : ℚ) ^ (e + 51) ≤ r := by
          have : (2 : ℚ) ^ (e + 51) = (2 : ℚ) ^ 51 * (2 : ℚ) ^ e := by
            rw [zpow_add₀ (by norm_num), mul_comm]
            norm_num
          rw [this]
          rw [hcast] at hnear
          nlinarith
        have hhigh' : r < (2 : ℚ) ^ (e + 51 + 1) := by
          rw [show e + 51 + 1 = e + 52 by ring]
          exact hlead
        rw [lastBit_of_lead hlow' hhigh']
        omega
      have hround : roundHalfEven (r / pow2 (e - 1)) = 2 ^ 53 := by
        rw [pow2_eq, hhalf]
        have hpos' : (0 : ℚ) < (2 : ℚ) ^ e / 2 := by positivity
        refine roundHalfEven_of_near (div_nonneg hr.le hpos'.le) ?_
        rw [hcast] at hnear
        rw [hsplit] at hlead
        have h₁ : r / ((2 : ℚ) ^ e / 2) < (2 : ℚ) ^ 53 := by
          rw [div_lt_iff₀ hpos']
          linarith
        have h₂ : (2 : ℚ) ^ 53 - 1 / 2 < r / ((2 : ℚ) ^ e / 2) := by
          rw [lt_div_iff₀ hpos']
          linarith
        push_cast
        rw [abs_lt]
        constructor <;> linarith
      refine ofRat_of_lastBit hr hbit hround ?_ hcanonical
      rw [if_pos rfl, hmant, sub_add_cancel]

/-! ### The shortest digits -/

/-- The search for the decimal exponent, downwards from an estimate that is not too low. -/
lemma floorLog10_spec {q : ℚ} {fuel : ℕ} {k : ℤ} (hlow : (10 : ℚ) ^ (k - fuel) ≤ q)
    (hhigh : q < (10 : ℚ) ^ (k + 1)) :
    (10 : ℚ) ^ floorLog10 q fuel k ≤ q ∧ q < (10 : ℚ) ^ (floorLog10 q fuel k + 1) := by
  induction fuel generalizing k with
  | zero =>
    rw [Nat.cast_zero, sub_zero] at hlow
    exact ⟨hlow, hhigh⟩
  | succ fuel ih =>
    rw [floorLog10, pow10_eq]
    split_ifs with hcase
    · exact ⟨hcase, hhigh⟩
    · apply ih
      · push_cast at hlow
        rwa [show k - 1 - (fuel : ℤ) = k - (fuel + 1) by ring]
      · rw [sub_add_cancel]
        exact not_le.mp hcase

/-- The decimal exponent of a positive float. -/
lemma floorLog10_toRat {m : ℕ} {e : ℤ} (hcanonical : Canonical64 m e) (hm : m ≠ 0) :
    let q := (m : ℚ) * (2 : ℚ) ^ e
    let k := floorLog10 q 8 ((leadEstimate q + 2) * 30103 / 100000 + 1)
    (10 : ℚ) ^ k ≤ q ∧ q < (10 : ℚ) ^ (k + 1) := by
  intro q
  obtain ⟨hm53, he, he', -⟩ := hcanonical
  have hpos : (0 : ℚ) < (2 : ℚ) ^ e := by positivity
  have hm1 : (1 : ℚ) ≤ m := by exact_mod_cast Nat.one_le_iff_ne_zero.mpr hm
  have hmax : (m : ℚ) < (2 : ℚ) ^ 53 := by exact_mod_cast hm53
  have hq : 0 < q := mul_pos (by linarith) hpos
  obtain ⟨hest, hest'⟩ := leadEstimate_spec hq
  -- the exponents of the floats are bounded
  have hlow : e < leadEstimate q + 1 := by
    refine (zpow_lt_zpow_iff_right₀ (by norm_num : (1 : ℚ) < 2)).mp (lt_of_le_of_lt ?_ hest')
    nlinarith
  have hhigh : leadEstimate q - 1 < e + 53 := by
    refine (zpow_lt_zpow_iff_right₀ (by norm_num : (1 : ℚ) < 2)).mp (hest.trans ?_)
    rw [zpow_add₀ (by norm_num)]
    calc q < (2 : ℚ) ^ 53 * (2 : ℚ) ^ e := mul_lt_mul_of_pos_right hmax hpos
      _ = (2 : ℚ) ^ e * (2 : ℚ) ^ (53 : ℤ) := by rw [mul_comm]; norm_num
  apply floorLog10_spec
  · refine le_trans (ten_zpow_le_two_zpow (a := leadEstimate q - 1) ?_ ?_) hest.le <;> omega
  · refine hest'.trans_le (two_zpow_le_ten_zpow ?_ ?_) <;> omega

/-- **Seventeen digits.** Of the decimals of seventeen digits the one nearest to a float reads
back. -/
lemma ofRat_seventeen {m : ℕ} {e : ℤ} (hcanonical : Canonical64 m e) (hm : m ≠ 0) {k : ℤ}
    (hlow : (10 : ℚ) ^ k ≤ m * (2 : ℚ) ^ e) :
    ofRat false (roundHalfEven ((m : ℚ) * (2 : ℚ) ^ e / pow10 (k - 16)) * pow10 (k - 16)) =
      finite false m e hcanonical := by
  have hpos : (0 : ℚ) < (2 : ℚ) ^ e := by positivity
  have hten : (0 : ℚ) < (10 : ℚ) ^ (k - 16) := by positivity
  have hm1 : (1 : ℚ) ≤ m := by exact_mod_cast Nat.one_le_iff_ne_zero.mpr hm
  have hmax : (m : ℚ) < (2 : ℚ) ^ 53 := by exact_mod_cast hcanonical.1
  rw [pow10_eq]
  set t := (10 : ℚ) ^ (k - 16) with ht
  set n : ℚ := (roundHalfEven ((m : ℚ) * (2 : ℚ) ^ e / t) : ℚ) with hn
  -- the decimal is within half a unit of its last digit
  have herror : |n * t - m * (2 : ℚ) ^ e| ≤ t / 2 := by
    have h := abs_roundHalfEven_sub_le (q := (m : ℚ) * (2 : ℚ) ^ e / t) (by positivity)
    rw [← hn] at h
    calc |n * t - m * (2 : ℚ) ^ e| = |(n - m * (2 : ℚ) ^ e / t) * t| := by
          congr 1
          field_simp
      _ = |n - m * (2 : ℚ) ^ e / t| * t := by rw [abs_mul, abs_of_pos hten]
      _ ≤ 1 / 2 * t := by gcongr
      _ = t / 2 := by ring
  -- which is less than the distance to the next floats
  have hunit : t * 10 ^ 16 ≤ m * (2 : ℚ) ^ e := by
    have : t * 10 ^ 16 = (10 : ℚ) ^ k := by
      rw [ht, zpow_sub₀ (by norm_num)]
      norm_num
    rw [this]
    exact hlow
  obtain ⟨herr, herr'⟩ := abs_le.mp herror
  apply ofRat_of_near hcanonical hm
  · nlinarith
  · nlinarith
  · intro hpower
    have hcast : (m : ℚ) = (2 : ℚ) ^ 52 := by rw [hpower]; norm_num
    rw [hcast] at hunit herr ⊢
    nlinarith

/-- The digits of the shortest decimal read back. -/
lemma digitsOfLength_readsBack {x : Binary64} {q : ℚ} {k : ℤ} {n d : ℕ} {e : ℤ}
    (h : digitsOfLength x q k n = some (d, e)) : ofRat false (d * pow10 e) = x := by
  have hread : ∀ d e, readsBack x d e = true → ofRat false (d * pow10 e) = x := by
    intro d e h
    rwa [readsBack, beq_iff_eq] at h
  unfold digitsOfLength at h
  dsimp only at h
  generalize roundHalfEven (q / pow10 (k - (n - 1 : ℕ))) = near at h
  generalize (if near = _ then _ else _ : ℕ) = far at h
  split_ifs at h with hnear hfar
  · obtain ⟨rfl, rfl⟩ := Prod.mk.inj (Option.some.inj h)
    exact hread _ _ hnear
  · obtain ⟨rfl, rfl⟩ := Prod.mk.inj (Option.some.inj h)
    exact hread _ _ hfar

/-- **The shortest digits read back.** The search for the shortest digits of a positive float finds
a decimal that rounds to the float.

**Proof sketch.** Whatever the search finds reads back, and it finds something: seventeen digits
suffice (`ofRat_seventeen`). -/
theorem readsBack_shortest {m : ℕ} {e : ℤ} (hcanonical : Canonical64 m e) (hm : m ≠ 0) :
    let x := finite false m e hcanonical
    ofRat false ((shortest x).1 * pow10 (shortest x).2) = x := by
  intro x
  have hq : x.toRat = m * (2 : ℚ) ^ e := by
    simp [x, toRat, toRat?, pow2_eq]
  obtain ⟨hlow, -⟩ := floorLog10_toRat hcanonical hm
  have hseventeen := ofRat_seventeen hcanonical hm hlow
  unfold shortest
  dsimp only
  rw [hq, ← leadEstimate]
  generalize hk : floorLog10 ((m : ℚ) * (2 : ℚ) ^ e) 8
    ((leadEstimate ((m : ℚ) * (2 : ℚ) ^ e) + 2) * 30103 / 100000 + 1) = k at *
  cases hfound : (List.range 17).findSome?
      (fun i => digitsOfLength x (m * (2 : ℚ) ^ e) k (i + 1)) with
  | some found =>
    obtain ⟨i, -, hi⟩ := List.exists_of_findSome?_eq_some hfound
    exact digitsOfLength_readsBack hi
  | none =>
    have hlast := List.findSome?_eq_none_iff.mp hfound 16 (by decide)
    simp only [digitsOfLength] at hlast
    rw [if_pos] at hlast
    · cases hlast
    · rw [readsBack, beq_iff_eq]
      exact hseventeen

end Python.Binary64
