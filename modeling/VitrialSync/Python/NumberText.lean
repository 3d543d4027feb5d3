import Mathlib.Tactic.Ring
import VitrialSync.Python.JsonGrammar
import VitrialSync.Python.Rounding

set_option relaxedAutoImplicit false
set_option autoImplicit false

/-!
# Texts of numbers

The text of an integer and the `repr` of a finite float are numbers of the grammar, and they denote
the integer and the float that they were written for.

## Main definitions

* `Python.Json.decimalDigits` — the decimal digits of a natural number.
* `Python.Json.intNumeral`, `Python.Json.pointNumeral` — the numbers that are written.
* `Python.Json.shortDigits`, `Python.Json.Significand` — the digits of a float.

## Main results

* `Python.Json.intNumeral_spec` — integers.
* `Python.Json.shortDigits_spec` — the digits of a float are those of a significand.
* `Python.Json.writeFloat_denotes` — finite floats: the shortest digits, in decimal or scientific
  notation, are read back as the float.
-/

namespace Python.Json

/-! ### Digits -/

/-- Appending digits. -/
lemma ofDigits_append (xs ys : List ℕ) :
    ofDigits (xs ++ ys) = ofDigits xs * 10 ^ ys.length + ofDigits ys := by
  have hfold : ∀ (ys : List ℕ) (n : ℕ), ys.foldl (fun acc d => 10 * acc + d) n =
      n * 10 ^ ys.length + ofDigits ys := by
    intro ys
    induction ys with
    | nil =>
      intro n
      simp [ofDigits]
    | cons y ys ih =>
      intro n
      rw [ofDigits, List.foldl_cons, List.foldl_cons, ih, ih (10 * 0 + y), List.length_cons,
        pow_succ]
      ring
  rw [ofDigits, List.foldl_append, hfold]
  rfl

/-- Zeros have no value. -/
lemma ofDigits_replicate_zero (n : ℕ) : ofDigits (List.replicate n 0) = 0 := by
  induction n with
  | zero => rfl
  | succ n ih => rw [List.replicate_succ', ofDigits_append, ih]; rfl

/-- The decimal digits of a natural number, most significant first. -/
def decimalDigits (n : ℕ) : List ℕ := (Nat.toDigits 10 n).map fun c => c.toNat - '0'.toNat

/-- The digits have the value of the number. -/
lemma ofDigits_decimalDigits (n : ℕ) : ofDigits (decimalDigits n) = n := by
  rw [ofDigits, decimalDigits, List.foldl_map]
  exact Nat.ofDigitChars_ten_toDigits

/-- The value of the character of a digit. -/
lemma digitChar_toNat : ∀ d < 10, (Nat.digitChar d).toNat - '0'.toNat = d := by decide

/-- The digits of a number of more than one digit. -/
lemma decimalDigits_of_le {n : ℕ} (h : 10 ≤ n) :
    decimalDigits n = decimalDigits (n / 10) ++ [n % 10] := by
  have hlast : (Nat.digitChar (n % 10)).toNat - '0'.toNat = n % 10 :=
    digitChar_toNat _ (Nat.mod_lt n (by decide))
  rw [decimalDigits, Nat.toDigits_of_base_le (by decide) h, List.map_append, List.map_singleton,
    hlast]
  rfl

/-- The digit of a number below ten. -/
lemma decimalDigits_of_lt {n : ℕ} (h : n < 10) : decimalDigits n = [n] := by
  rw [decimalDigits, Nat.toDigits_of_lt_base h, List.map_singleton, digitChar_toNat n h]

/-- The digits of a number are digits, and there is no leading zero unless it is zero.

**Proof sketch.** Induction on the number, by its last digit. -/
lemma decimalDigits_spec (n : ℕ) :
    Digits (decimalDigits n) ∧ Str.ofNat n = digitText (decimalDigits n) ∧
      (n ≠ 0 → (decimalDigits n).head? ≠ some 0) := by
  induction n using Nat.strong_induction_on with
  | _ n ih =>
    have hchar : ∀ d < 10, CodePoint.ofChar (Nat.digitChar d) = digitChar d := by decide
    rcases Nat.lt_or_ge n 10 with hn | hn
    · rw [decimalDigits_of_lt hn]
      refine ⟨⟨by simp, by simpa using hn⟩, ?_, by simp⟩
      rw [Str.ofNat, Nat.toDigits_of_lt_base hn]
      exact congrArg (fun c => [c]) (hchar n hn)
    · obtain ⟨⟨hne, hdigits⟩, htext, hhead⟩ := ih (n / 10) (Nat.div_lt_self (by omega) (by decide))
      have hlast := Nat.mod_lt n (show 10 > 0 by decide)
      rw [decimalDigits_of_le hn]
      refine ⟨⟨by simp, fun d hd => ?_⟩, ?_, fun _ => ?_⟩
      · rcases List.mem_append.mp hd with hd | hd
        · exact hdigits d hd
        · rw [List.mem_singleton.mp hd]
          exact hlast
      · rw [Str.ofNat, Nat.toDigits_of_base_le (by decide) hn, List.map_append, digitText,
          List.map_append]
        rw [Str.ofNat, digitText] at htext
        rw [htext, List.map_singleton, List.map_singleton, hchar _ hlast]
      · have hhead' := hhead (by omega)
        cases hds : decimalDigits (n / 10) with
        | nil => exact absurd hds hne
        | cons d ds =>
          rw [hds] at hhead'
          exact hhead'

/-- A number with digits and no leading zero. -/
lemma zero_of_head {ds : List ℕ} (h : ds.head? ≠ some 0) : ∀ ds', ds = 0 :: ds' → ds' = [] := by
  rintro ds' rfl
  exact absurd rfl h

/-! ### Integers -/

/-- The number that is written for an integer. -/
def intNumeral (n : ℤ) : Numeral := ⟨decide (n < 0), decimalDigits n.natAbs, none, none⟩

/-- The text of an integer is a number that denotes it. -/
lemma intNumeral_spec (n : ℤ) :
    (intNumeral n).WellFormed ∧ (intNumeral n).text = Str.ofInt n ∧
      (intNumeral n).value = .int n := by
  obtain ⟨hdigits, htext, hhead⟩ := decimalDigits_spec n.natAbs
  refine ⟨⟨hdigits, ?_, fun ds h => ?_, fun e h => ?_⟩, ?_, ?_⟩
  · by_cases hzero : n.natAbs = 0
    · intro ds h
      rw [intNumeral, hzero, decimalDigits_of_lt (by decide)] at h
      exact (List.cons.inj h).2.symm
    · exact zero_of_head (hhead hzero)
  · cases h
  · cases h
  · cases n with
    | ofNat m =>
      have hneg : decide (Int.ofNat m < 0) = false := by simp
      rw [Numeral.text, intNumeral, hneg, Str.ofInt]
      exact (List.append_nil _).trans htext.symm
    | negSucc m =>
      have hneg : decide (Int.negSucc m < 0) = true := by simp [Int.negSucc_lt_zero]
      rw [Numeral.text, intNumeral, hneg, Str.ofInt]
      exact congrArg (List.cons _) ((List.append_nil _).trans htext.symm)
  · rw [Numeral.value, intNumeral]
    simp only [Option.isNone_none, Bool.and_self, ↓reduceIte, decide_eq_true_eq,
      ofDigits_decimalDigits]
    congr 1
    split_ifs <;> omega

/-- The digits of an integer within the limit of `int()`. -/
lemma intNumeral_short {n : ℤ} (h : n.natAbs < 10 ^ maxIntDigits) : (intNumeral n).Short := by
  intro _ _
  rw [intNumeral, decimalDigits, List.length_map]
  exact (Nat.length_toDigits_le_iff (by decide) (by decide)).mpr h

/-! ### Floats -/

/-- Digits without their trailing zeros. -/
def trimDigits (ds : List ℕ) : List ℕ := ds.rdropWhile (· == 0)

/-- What is trimmed off is zeros. -/
lemma trimDigits_append (ds : List ℕ) : ∃ z, ds = trimDigits ds ++ List.replicate z 0 := by
  refine ⟨(ds.rtakeWhile (· == 0)).length, ?_⟩
  have hzeros : ds.rtakeWhile (· == 0) = List.replicate (ds.rtakeWhile (· == 0)).length 0 :=
    List.eq_replicate_of_mem fun d hd =>
      beq_iff_eq.mp (List.mem_rtakeWhile_imp (p := fun x => x == 0) hd)
  rw [← hzeros]
  exact List.rdropWhile_append_rtakeWhile.symm

/-- Digits that are not all zeros are left. -/
lemma trimDigits_ne_nil {ds : List ℕ} (hvalue : ofDigits ds ≠ 0) : trimDigits ds ≠ [] := by
  intro hnil
  obtain ⟨z, hz⟩ := trimDigits_append ds
  rw [hnil, List.nil_append] at hz
  rw [hz, ofDigits_replicate_zero] at hvalue
  exact hvalue rfl

/-- The last digit that is left is no zero. -/
lemma trimDigits_getLast (ds : List ℕ) : (trimDigits ds).getLast? ≠ some 0 := by
  by_cases hnil : trimDigits ds = []
  · rw [hnil]
    exact fun h => by cases h
  · intro hlast
    rw [List.getLast?_eq_some_getLast hnil] at hlast
    have hnot : ¬ ((trimDigits ds).getLast hnil == 0) = true :=
      List.rdropWhile_last_not _ ds hnil
    rw [Option.some.inj hlast] at hnot
    exact hnot rfl

/-- The text of digits is trimmed like the digits. -/
lemma digitText_trimDigits {ds : List ℕ} (hds : ∀ d ∈ ds, d < 10) :
    (digitText ds).rdropWhile (· == digitChar 0) = digitText (trimDigits ds) := by
  induction ds using List.reverseRecOn with
  | nil => rfl
  | append_singleton ds d ih =>
    have hlt : d < 10 := hds d (by simp)
    have htext : digitText (ds ++ [d]) = digitText ds ++ [digitChar d] := by
      simp [digitText]
    rw [htext, trimDigits]
    by_cases hd : d = 0
    · subst hd
      rw [List.rdropWhile_concat_pos _ _ _ (by simp), List.rdropWhile_concat_pos _ _ _ (by simp)]
      exact ih fun d hd => hds d (List.mem_append_left _ hd)
    · rw [List.rdropWhile_concat_neg, List.rdropWhile_concat_neg _ _ _ (by simpa using hd), htext]
      rw [beq_iff_eq, Fin.ext_iff, digitChar_val hlt, digitChar_val (by decide)]
      omega

/-- Trailing zeros are trimmed off the text of a number that is not zero. -/
lemma trimZeros_text {ds : List ℕ} (hds : ∀ d ∈ ds, d < 10) (hvalue : ofDigits ds ≠ 0) :
    Binary64.trimZeros (digitText ds) = digitText (trimDigits ds) := by
  have hne := trimDigits_ne_nil hvalue
  rw [Binary64.trimZeros, digitText_trimDigits hds]
  cases hts : trimDigits ds with
  | nil => exact absurd hts hne
  | cons t ts => rfl

/-- The fraction in scientific notation: the digits after the first one, if there are any. -/
def scientificFraction (ts : List ℕ) : Option (List ℕ) :=
  if ts.length ≤ 1 then none else some (ts.drop 1)

/-- The exponent in scientific notation: two digits at least. -/
def scientificExponent (e : ℤ) : Exponent :=
  ⟨ch 'e', some (decide (e < 0)),
    if (decimalDigits e.natAbs).length < 2 then 0 :: decimalDigits e.natAbs
    else decimalDigits e.natAbs⟩

/-- Decimal notation of digits and the position of their decimal point. -/
def decimalNumeral (neg : Bool) (ts : List ℕ) (point : ℤ) : Numeral :=
  if point ≤ 0 then ⟨neg, [0], some (List.replicate (-point).toNat 0 ++ ts), none⟩
  else if (ts.length : ℤ) ≤ point then
    ⟨neg, ts ++ List.replicate (point - ts.length).toNat 0, some [0], none⟩
  else ⟨neg, ts.take point.toNat, some (ts.drop point.toNat), none⟩

/-- The number that is written for digits and the position of their decimal point: decimal notation
near zero, scientific notation elsewhere. -/
def pointNumeral (neg : Bool) (ts : List ℕ) (point : ℤ) : Numeral :=
  if -4 < point ∧ point ≤ 16 then
    if point ≤ 0 then ⟨neg, [0], some (List.replicate (-point).toNat 0 ++ ts), none⟩
    else if (ts.length : ℤ) ≤ point then
      ⟨neg, ts ++ List.replicate (point - ts.length).toNat 0, some [0], none⟩
    else ⟨neg, ts.take point.toNat, some (ts.drop point.toNat), none⟩
  else ⟨neg, ts.take 1, scientificFraction ts, some (scientificExponent (point - 1))⟩

/-- An exponent is one of the grammar, and has its value. -/
lemma scientificExponent_spec (e : ℤ) :
    (scientificExponent e).WellFormed ∧ (scientificExponent e).value = e := by
  obtain ⟨⟨hnil, hdigits⟩, -⟩ := decimalDigits_spec e.natAbs
  have hvalue : ofDigits (scientificExponent e).digits = e.natAbs := by
    unfold scientificExponent
    dsimp only
    split_ifs
    · exact ofDigits_decimalDigits _
    · exact ofDigits_decimalDigits _
  constructor
  · refine ⟨Or.inl rfl, ?_⟩
    unfold scientificExponent
    dsimp only
    split_ifs
    · refine ⟨by simp, fun d hd => ?_⟩
      rcases List.mem_cons.mp hd with rfl | hd
      · decide
      · exact hdigits d hd
    · exact ⟨hnil, hdigits⟩
  · rw [Exponent.value, hvalue]
    simp only [scientificExponent, Option.some.injEq, decide_eq_true_eq]
    split_ifs <;> omega

/-- The first digit and the fraction are all digits. -/
lemma scientificFraction_spec (ts : List ℕ) :
    ts.take 1 ++ (scientificFraction ts).getD [] = ts ∧
      ((scientificFraction ts).getD []).length = ts.length - 1 := by
  unfold scientificFraction
  split_ifs with hone
  · rw [Option.getD_none, List.append_nil, List.take_of_length_le hone, List.length_nil]
    exact ⟨rfl, by omega⟩
  · rw [Option.getD_some, List.take_append_drop, List.length_drop]
    exact ⟨rfl, rfl⟩

section Point

variable {neg : Bool} {ts : List ℕ} {point : ℤ}

/-- The head of a beginning of digits without a leading zero. -/
lemma take_head {n : ℕ} (hn : n ≠ 0) (hhead : ts.head? ≠ some 0) :
    (ts.take n).head? ≠ some 0 := by
  cases ts with
  | nil => simp
  | cons t ts =>
    cases n with
    | zero => exact absurd rfl hn
    | succ n => exact hhead

/-- A beginning of digits. -/
lemma digits_take (hne : ts ≠ []) (hdigits : ∀ d ∈ ts, d < 10) {n : ℕ} (hn : n ≠ 0) :
    Digits (ts.take n) := by
  refine ⟨?_, fun d hd => hdigits d (List.mem_of_mem_take hd)⟩
  rw [Ne, List.take_eq_nil_iff, not_or]
  exact ⟨hn, hne⟩

/-- An end of digits. -/
lemma digits_drop (hdigits : ∀ d ∈ ts, d < 10) {n : ℕ} (hn : n < ts.length) :
    Digits (ts.drop n) := by
  refine ⟨?_, fun d hd => hdigits d (List.mem_of_mem_drop hd)⟩
  rw [Ne, List.drop_eq_nil_iff]
  omega

/-- Decimal notation is a number of the grammar. -/
lemma decimalNumeral_wellFormed (hne : ts ≠ []) (hdigits : ∀ d ∈ ts, d < 10)
    (hhead : ts.head? ≠ some 0) : (decimalNumeral neg ts point).WellFormed := by
  have hlength := List.length_pos_iff.mpr hne
  have hzeros : ∀ n, ∀ d ∈ List.replicate n 0, d < 10 := by
    intro n d hd
    rw [(List.mem_replicate.mp hd).2]
    decide
  unfold decimalNumeral
  split_ifs with hsmall hwhole
  · refine ⟨⟨by simp, by simp⟩, fun ds h => (List.cons.inj h).2.symm, ?_, fun e h => by cases h⟩
    rintro ds ⟨⟩
    refine ⟨by simp [hne], fun d hd => ?_⟩
    rcases List.mem_append.mp hd with hd | hd
    · exact hzeros _ d hd
    · exact hdigits d hd
  · refine ⟨⟨by simp [hne], fun d hd => ?_⟩, zero_of_head ?_, ?_, fun e h => by cases h⟩
    · rcases List.mem_append.mp hd with hd | hd
      · exact hdigits d hd
      · exact hzeros _ d hd
    · rw [List.head?_append_of_ne_nil _ hne]
      exact hhead
    · rintro ds ⟨⟩
      exact ⟨by simp, by simp⟩
  · have hpoint : point.toNat ≠ 0 := by omega
    refine ⟨digits_take hne hdigits hpoint, zero_of_head (take_head hpoint hhead), ?_,
      fun e h => by cases h⟩
    rintro ds ⟨⟩
    exact digits_drop hdigits (by omega)

/-- Near zero it is decimal notation. -/
lemma pointNumeral_decimal (h : -4 < point ∧ point ≤ 16) :
    pointNumeral neg ts point = decimalNumeral neg ts point := if_pos h

/-- Elsewhere it is scientific notation. -/
lemma pointNumeral_scientific (h : ¬ (-4 < point ∧ point ≤ 16)) : pointNumeral neg ts point =
    ⟨neg, ts.take 1, scientificFraction ts, some (scientificExponent (point - 1))⟩ := if_neg h

/-- It is a number of the grammar. -/
lemma pointNumeral_wellFormed (hne : ts ≠ []) (hdigits : ∀ d ∈ ts, d < 10)
    (hhead : ts.head? ≠ some 0) : (pointNumeral neg ts point).WellFormed := by
  have hlength := List.length_pos_iff.mpr hne
  by_cases hdecimal : -4 < point ∧ point ≤ 16
  · rw [pointNumeral_decimal hdecimal]
    exact decimalNumeral_wellFormed hne hdigits hhead
  · rw [pointNumeral_scientific hdecimal]
    refine ⟨digits_take hne hdigits (by decide), zero_of_head (take_head (by decide) hhead), ?_,
      ?_⟩
    · intro ds h
      dsimp only [scientificFraction] at h
      split_ifs at h with hone
      rw [← Option.some.inj h]
      exact digits_drop hdigits (by omega)
    · rintro e ⟨⟩
      exact (scientificExponent_spec _).1

/-- It has a fraction or an exponent, so it denotes a float. -/
lemma pointNumeral_value : (pointNumeral neg ts point).value =
    .float (Binary64.ofRat neg (if neg then -(pointNumeral neg ts point).magnitude
      else (pointNumeral neg ts point).magnitude)) := by
  have hneg : (pointNumeral neg ts point).neg = neg := by
    unfold pointNumeral
    split_ifs <;> rfl
  rw [Numeral.value, if_neg, hneg]
  unfold pointNumeral
  split_ifs <;> simp

/-- The magnitude in decimal notation. -/
lemma decimalNumeral_magnitude : (decimalNumeral neg ts point).magnitude =
    ofDigits ts * (10 : ℚ) ^ (point - ts.length) := by
  unfold decimalNumeral Numeral.magnitude
  split_ifs with hsmall hwhole
  · simp only [Option.getD_some, Option.elim_none, Binary64.pow10_eq, List.length_append,
      List.length_replicate]
    rw [← List.append_assoc, ofDigits_append, ofDigits_append, ofDigits_replicate_zero]
    have hcast : ((-point).toNat : ℤ) = -point := by omega
    simp only [ofDigits, List.foldl_cons, List.foldl_nil, mul_zero, zero_mul, zero_add,
      Nat.cast_add, hcast]
    congr 2
    ring
  · simp only [Option.getD_some, Option.elim_none, Binary64.pow10_eq, List.length_singleton]
    rw [List.append_assoc, ofDigits_append, ← List.replicate_succ', ofDigits_replicate_zero,
      List.length_replicate, add_zero]
    push_cast
    rw [mul_assoc, ← zpow_natCast, ← zpow_add₀ (by norm_num)]
    congr 2
    push_cast
    omega
  · simp only [Option.getD_some, Option.elim_none, Binary64.pow10_eq, List.take_append_drop,
      List.length_drop]
    congr 2
    omega

/-- Its magnitude is that of its digits before the point. -/
lemma pointNumeral_magnitude (hne : ts ≠ []) : (pointNumeral neg ts point).magnitude =
    ofDigits ts * (10 : ℚ) ^ (point - ts.length) := by
  have hlength := List.length_pos_iff.mpr hne
  by_cases hdecimal : -4 < point ∧ point ≤ 16
  · rw [pointNumeral_decimal hdecimal, decimalNumeral_magnitude]
  · rw [pointNumeral_scientific hdecimal]
    obtain ⟨hsplit, hlast⟩ := scientificFraction_spec ts
    unfold Numeral.magnitude
    dsimp only
    rw [hsplit, hlast, Option.elim_some, (scientificExponent_spec _).2, Binary64.pow10_eq]
    congr 2
    omega

/-- The text of the fraction and the exponent in scientific notation. -/
lemma scientific_text (ts : List ℕ) (e : ℤ) :
    (scientificFraction ts).elim [] (fun ds => ch '.' :: digitText ds) ++
        (scientificExponent e).text =
      (if ts.length ≤ 1 then [] else Str.ofString "." ++ (digitText ts).drop 1) ++
        Str.ofString (if e < 0 then "e-" else "e+") ++
        (if (Str.ofNat e.natAbs).length < 2 then digitChar 0 :: Str.ofNat e.natAbs
          else Str.ofNat e.natAbs) := by
  obtain ⟨-, htext, -⟩ := decimalDigits_spec e.natAbs
  have hlength : (Str.ofNat e.natAbs).length = (decimalDigits e.natAbs).length := by
    rw [htext, digitText, List.length_map]
  have hdigits : digitText (scientificExponent e).digits =
      if (Str.ofNat e.natAbs).length < 2 then digitChar 0 :: Str.ofNat e.natAbs
        else Str.ofNat e.natAbs := by
    rw [hlength, htext]
    unfold scientificExponent
    dsimp only
    split_ifs <;> rfl
  have hfrac : (scientificFraction ts).elim [] (fun ds => ch '.' :: digitText ds) =
      if ts.length ≤ 1 then [] else Str.ofString "." ++ (digitText ts).drop 1 := by
    unfold scientificFraction
    split_ifs with hone
    · rfl
    · rw [Option.elim_some, digitText, List.map_drop]
      rfl
  rw [hfrac, List.append_assoc, Exponent.text, hdigits]
  congr 1
  by_cases hneg : e < 0
  · rw [if_pos hneg]
    simp only [scientificExponent, Option.elim_some, decide_eq_true hneg]
    rfl
  · rw [if_neg hneg]
    simp only [scientificExponent, Option.elim_some, decide_eq_false hneg]
    rfl

/-- Its text is the `repr` of the digits. -/
lemma pointNumeral_text {d : ℕ} {e : ℤ} (htrim : Binary64.trimZeros (Str.ofNat d) = digitText ts)
    (hpoint : ((Str.ofNat d).length : ℤ) + e = point) :
    digitText (pointNumeral neg ts point).whole ++ (pointNumeral neg ts point).tailText =
      Binary64.reprDigits d e := by
  have hlength : (digitText ts).length = ts.length := List.length_map _
  have hzero : Str.ofString "0." = [digitChar 0, ch '.'] := rfl
  have hpointZero : Str.ofString ".0" = [ch '.', digitChar 0] := rfl
  have hdot : Str.ofString "." = [ch '.'] := rfl
  unfold Binary64.reprDigits
  dsimp only
  rw [htrim, hpoint, hlength]
  unfold pointNumeral Numeral.tailText
  by_cases hdecimal : -4 < point ∧ point ≤ 16
  · rw [if_pos hdecimal, if_pos hdecimal]
    by_cases hsmall : point ≤ 0
    · rw [if_pos hsmall, if_pos hsmall, hzero]
      simp [digitText]
    · rw [if_neg hsmall, if_neg hsmall]
      by_cases hwhole : (ts.length : ℤ) ≤ point
      · rw [if_pos hwhole, if_pos hwhole, hpointZero]
        simp [digitText]
      · rw [if_neg hwhole, if_neg hwhole, hdot]
        simp [digitText]
  · rw [if_neg hdecimal, if_neg hdecimal]
    simp only [Option.elim_some]
    rw [scientific_text, digitText, List.map_take, ← digitText, ← List.append_assoc,
      ← List.append_assoc]

end Point

/-- The sign of a float is the sign of the number that rounds to it. -/
lemma ofRat_neg {q : ℚ} (hq : 0 < q) {m : ℕ} {e : ℤ} {h : Canonical64 m e}
    (hround : Binary64.ofRat false q = .finite false m e h) :
    Binary64.ofRat true (-q) = .finite true m e h := by
  have hneg : -q < 0 := by linarith
  unfold Binary64.ofRat at hround ⊢
  simp only [abs_neg, neg_eq_zero, hq.ne', ↓reduceIte, decide_eq_true hneg] at hround ⊢
  split_ifs at hround ⊢ with hcarry hcanonical
  · obtain ⟨-, rfl, rfl⟩ := Binary64.finite.inj hround
    rfl
  · obtain ⟨-, rfl, rfl⟩ := Binary64.finite.inj hround
    rfl

/-! ### Shortest digits -/

/-- The shortest digits of a finite float, without trailing zeros, and the position of their decimal
point: the magnitude is `0.ds · 10 ^ point`. Zero has one digit. -/
def shortDigits : Binary64 → List ℕ × ℤ
  | .finite _ m e h =>
    if m = 0 then ([0], 1)
    else
      let (d, x) := Binary64.shortest (.finite false m e h)
      (trimDigits (decimalDigits d), (decimalDigits d).length + x)
  | _ => ([0], 1)

/-- Digits as a float has them: zero alone, or without zeros at the ends. -/
structure Significand (ts : List ℕ) (point : ℤ) : Prop where
  digits : Digits ts
  head : ts.head? ≠ some 0 ∨ ts = [0] ∧ point = 1
  last : ts.getLast? ≠ some 0 ∨ ts = [0] ∧ point = 1

/-- Decimal notation of a significand is a number of the grammar. -/
lemma decimalNumeral_significand {neg : Bool} {ts : List ℕ} {point : ℤ}
    (h : Significand ts point) : (decimalNumeral neg ts point).WellFormed := by
  rcases h.head with hhead | ⟨rfl, rfl⟩
  · exact decimalNumeral_wellFormed h.digits.1 h.digits.2 hhead
  · refine ⟨h.digits, fun ds hds => (List.cons.inj hds).2.symm, ?_, fun e he => by cases he⟩
    rintro ds ⟨⟩
    exact ⟨by simp, by simp⟩

/-- So is the notation that is chosen. -/
lemma pointNumeral_significand {neg : Bool} {ts : List ℕ} {point : ℤ}
    (h : Significand ts point) : (pointNumeral neg ts point).WellFormed := by
  rcases h.head with hhead | ⟨rfl, rfl⟩
  · exact pointNumeral_wellFormed h.digits.1 h.digits.2 hhead
  · rw [pointNumeral_decimal (by decide)]
    exact decimalNumeral_significand h

/-- The shortest digits of a float that is not zero are not those of zero. -/
lemma shortest_ne_zero {m : ℕ} (hm : m ≠ 0) {e : ℤ} (h : Canonical64 m e) :
    (Binary64.shortest (.finite false m e h)).1 ≠ 0 := by
  have hread := Binary64.readsBack_shortest h hm
  dsimp only at hread
  intro hzero
  rw [hzero, Nat.cast_zero, zero_mul] at hread
  simp [Binary64.ofRat] at hread
  omega

/-- The shortest digits of a float that is not zero.

**Proof sketch.** They read back as the float, so they are not all zeros, and the trailing zeros
that are trimmed off leave the value. -/
lemma shortDigits_pos (neg : Bool) {m : ℕ} (hm : m ≠ 0) (e : ℤ) (h : Canonical64 m e) :
    ∃ ts point, shortDigits (.finite neg m e h) = (ts, point) ∧ Digits ts ∧ ts.head? ≠ some 0 ∧
      ts.getLast? ≠ some 0 ∧ (0 : ℚ) < ofDigits ts * (10 : ℚ) ^ (point - ts.length) ∧
      Binary64.ofRat false (ofDigits ts * (10 : ℚ) ^ (point - ts.length)) =
        .finite false m e h := by
  have hd := shortest_ne_zero hm h
  have hread := Binary64.readsBack_shortest h hm
  dsimp only at hread
  rw [shortDigits, if_neg hm]
  generalize Binary64.shortest (.finite false m e h) = s at hread hd
  obtain ⟨d, x⟩ := s
  dsimp only at hread hd ⊢
  have hvalue : ofDigits (decimalDigits d) ≠ 0 := by rwa [ofDigits_decimalDigits]
  obtain ⟨⟨-, hdigits⟩, -, hhead⟩ := decimalDigits_spec d
  obtain ⟨z, hsplit⟩ := trimDigits_append (decimalDigits d)
  have hts := trimDigits_ne_nil hvalue
  have hlength : (decimalDigits d).length = (trimDigits (decimalDigits d)).length + z := by
    have := congrArg List.length hsplit
    rwa [List.length_append, List.length_replicate] at this
  -- the digits without trailing zeros have the same value
  have hsame : (ofDigits (trimDigits (decimalDigits d)) : ℚ) *
      (10 : ℚ) ^ (((decimalDigits d).length : ℤ) + x - (trimDigits (decimalDigits d)).length) =
        d * Binary64.pow10 x := by
    have hsum : ofDigits (trimDigits (decimalDigits d)) * 10 ^ z = d := by
      have := congrArg ofDigits hsplit
      rw [ofDigits_decimalDigits, ofDigits_append, ofDigits_replicate_zero, List.length_replicate,
        add_zero] at this
      exact this.symm
    have hcast : ((ofDigits (trimDigits (decimalDigits d)) : ℚ) * 10 ^ z) = d := by
      exact_mod_cast hsum
    rw [hlength, Binary64.pow10_eq, ← hcast, mul_assoc, ← zpow_natCast, ← zpow_add₀ (by norm_num)]
    congr 2
    push_cast
    ring
  have hpos : (0 : ℚ) < d * Binary64.pow10 x := by
    rw [Binary64.pow10_eq]
    have : (0 : ℚ) < d := by exact_mod_cast Nat.pos_of_ne_zero hd
    positivity
  refine ⟨_, _, rfl, ⟨hts, fun t ht => hdigits t ?_⟩, ?_, trimDigits_getLast _, ?_, ?_⟩
  · rw [hsplit]
    exact List.mem_append_left _ ht
  · have := hhead hd
    rwa [hsplit, List.head?_append_of_ne_nil _ hts] at this
  · rwa [hsame]
  · rwa [hsame]

/-- The exponent of zero. -/
lemma exp_of_zero {e : ℤ} (h : Canonical64 0 e) : e = -1074 := by
  obtain ⟨-, -, -, hnormal⟩ := h
  omega

/-- **Shortest digits.** They are those of a significand, and they read back as the float. -/
theorem shortDigits_spec (neg : Bool) (m : ℕ) (e : ℤ) (h : Canonical64 m e) :
    ∃ ts point, shortDigits (.finite neg m e h) = (ts, point) ∧ Significand ts point ∧
      Binary64.ofRat neg (if neg then -(ofDigits ts * (10 : ℚ) ^ (point - ts.length))
        else ofDigits ts * (10 : ℚ) ^ (point - ts.length)) = .finite neg m e h := by
  by_cases hm : m = 0
  · subst hm
    obtain rfl := exp_of_zero h
    refine ⟨[0], 1, rfl, ⟨⟨by simp, by simp⟩, Or.inr ⟨rfl, rfl⟩, Or.inr ⟨rfl, rfl⟩⟩, ?_⟩
    cases neg <;> simp [ofDigits, Binary64.ofRat]
  · obtain ⟨ts, point, heq, hdigits, hhead, hlast, hpos, hround⟩ := shortDigits_pos neg hm e h
    refine ⟨ts, point, heq, ⟨hdigits, Or.inl hhead, Or.inl hlast⟩, ?_⟩
    cases neg with
    | true => exact ofRat_neg hpos hround
    | false => exact hround

/-- What `repr` writes for the shortest digits. -/
theorem writeFloat_digits (neg : Bool) (m : ℕ) (e : ℤ) (h : Canonical64 m e) :
    writeFloat (.finite neg m e h) = (pointNumeral neg (shortDigits (.finite neg m e h)).1
      (shortDigits (.finite neg m e h)).2).text := by
  have hneg : ∀ ts point, (pointNumeral neg ts point).neg = neg := by
    intro ts point
    unfold pointNumeral
    split_ifs <;> rfl
  by_cases hm : m = 0
  · subst hm
    cases neg <;> rfl
  · have hd := shortest_ne_zero hm h
    obtain ⟨⟨-, hdigits⟩, htext, -⟩ :=
      decimalDigits_spec (Binary64.shortest (.finite false m e h)).1
    have htrim := trimZeros_text hdigits (by rwa [ofDigits_decimalDigits])
    rw [← htext] at htrim
    have hpoint : ((Str.ofNat (Binary64.shortest (.finite false m e h)).1).length : ℤ) =
        (decimalDigits (Binary64.shortest (.finite false m e h)).1).length := by
      rw [htext, digitText, List.length_map]
    rw [writeFloat, Binary64.repr, if_neg hm, shortDigits, if_neg hm, Numeral.text, hneg]
    dsimp only
    rw [pointNumeral_text htrim (by rw [hpoint])]
    cases neg <;> rfl

/-- **Floats.** The text of a finite float is a number that denotes the float.

**Proof sketch.** The shortest digits read back, in whichever notation they are written, since the
notation keeps their value (`pointNumeral_magnitude`). -/
theorem writeFloat_denotes (neg : Bool) (m : ℕ) (e : ℤ) (h : Canonical64 m e) :
    ∃ n : Numeral, n.WellFormed ∧ n.Short ∧ n.text = writeFloat (.finite neg m e h) ∧
      n.value = .float (.finite neg m e h) := by
  obtain ⟨ts, point, heq, hsig, hround⟩ := shortDigits_spec neg m e h
  have hvalue : (pointNumeral neg ts point).value = .float (.finite neg m e h) := by
    rw [pointNumeral_value, pointNumeral_magnitude hsig.digits.1, hround]
  have htext := writeFloat_digits neg m e h
  rw [heq] at htext
  refine ⟨pointNumeral neg ts point, pointNumeral_significand hsig, ?_, htext.symm, hvalue⟩
  intro hfrac hexpo
  rw [Numeral.value, hfrac, hexpo] at hvalue
  simp only [Option.isNone_none, Bool.and_self, ↓reduceIte, reduceCtorEq] at hvalue

end Python.Json
