import VitrialSync.Python.NumberText

set_option relaxedAutoImplicit false
set_option autoImplicit false

/-!
# What the runtime decides

Two things that the encoders of the BEAM service take from the Erlang runtime: the text of a float,
`:erlang.float_to_binary(value, [:short])`, and the order in which a map is enumerated.

The text has the shortest digits that read back as the float, in decimal or in scientific notation,
whichever has fewer characters, and decimal notation for equal lengths; from `2 ^ 53` on scientific
notation may be written in any case. A map is enumerated by an order of its keys that the runtime
fixes for maps of its size.

## Main definitions

* `VitrialSync.Beam.Runtime` — the text of a float and the order of a map.
* `VitrialSync.Beam.Runtime.Renders` — the texts of floats that are documented.
* `VitrialSync.Beam.Runtime.shortText` — such texts.

## Main results

* `VitrialSync.Beam.Runtime.shortText_renders` — they are as documented.
* `VitrialSync.Beam.Runtime.Renders.readsBack` — documented texts are read back.
-/

namespace VitrialSync.Beam

open Python
open Python.Json (ch Numeral Exponent Significand decimalDigits decimalDigits_spec
  decimalNumeral decimalNumeral_significand decimalNumeral_magnitude shortDigits shortDigits_spec)

/-- What the service takes from the runtime. -/
structure Runtime where
  /-- `:erlang.float_to_binary(_, [:short])`. -/
  short : Binary64 → Str
  /-- The order of the keys of a map of a size. -/
  before : ℕ → Str → Str → Bool

namespace Runtime

/-! ### The order of a map -/

/-- The members of a map as it is enumerated. -/
def enumerate {α : Type} (runtime : Runtime) (members : List (Str × α)) : List (Str × α) :=
  members.insertionSort fun a b => runtime.before members.length a.1 b.1 = true

/-- Every member is enumerated once. -/
lemma enumerate_perm {α : Type} (runtime : Runtime) (members : List (Str × α)) :
    (runtime.enumerate members).Perm members := List.perm_insertionSort _ members

/-- The order is that of the keys. -/
lemma enumerate_map {α β : Type} (runtime : Runtime) (f : α → β) (members : List (Str × α)) :
    runtime.enumerate (members.map fun m => (m.1, f m.2)) =
      (runtime.enumerate members).map fun m => (m.1, f m.2) := by
  unfold enumerate
  rw [List.length_map]
  symm
  apply List.map_insertionSort
  exact fun _ _ _ _ => Iff.rfl

/-! ### The texts of floats -/

/-- The exponent in scientific notation, without a plus sign. -/
def shortExponent (e : ℤ) : Exponent :=
  ⟨ch 'e', if e < 0 then some true else none, decimalDigits e.natAbs⟩

/-- Scientific notation: one digit, and a fraction of one digit at least. -/
def scientificNumeral (neg : Bool) (ts : List ℕ) (point : ℤ) : Numeral :=
  ⟨neg, ts.take 1, some (if ts.length ≤ 1 then [0] else ts.drop 1),
    some (shortExponent (point - 1))⟩

/-- A float in decimal notation. -/
def decimalText (x : Binary64) : Str :=
  (decimalNumeral x.sign (shortDigits x).1 (shortDigits x).2).text

/-- A float in scientific notation. -/
def scientificText (x : Binary64) : Str :=
  (scientificNumeral x.sign (shortDigits x).1 (shortDigits x).2).text

/-- The documented texts: the shorter notation, decimal notation for equal lengths, and from
`2 ^ 53` on possibly scientific notation in any case. -/
def Renders (short : Binary64 → Str) : Prop := ∀ x : Binary64, x.isFinite = true →
  (short x = decimalText x ∧ (decimalText x).length ≤ (scientificText x).length) ∨
    (short x = scientificText x ∧
      ((scientificText x).length < (decimalText x).length ∨ 2 ^ 53 ≤ |x.toRat|))

/-- Every text is a number that denotes the float. -/
def ReadsBack (short : Binary64 → Str) : Prop := ∀ x : Binary64, x.isFinite = true →
  ∃ n : Numeral, n.WellFormed ∧ n.text = short x ∧ n.value = .float x

/-- Texts of floats: scientific notation from `2 ^ 53` on and where it is shorter. -/
def shortText (x : Binary64) : Str :=
  if |x.toRat| < 2 ^ 53 ∧ (decimalText x).length ≤ (scientificText x).length then decimalText x
  else scientificText x

/-- They are as documented. -/
theorem shortText_renders : Renders shortText := by
  intro x _
  unfold shortText
  split_ifs with h
  · exact Or.inl ⟨rfl, h.2⟩
  · refine Or.inr ⟨rfl, ?_⟩
    rw [not_and_or, not_lt, not_le] at h
    exact h.symm

/-! ### Reading back -/

/-- An exponent is one of the grammar, and has its value. -/
lemma shortExponent_spec (e : ℤ) : (shortExponent e).WellFormed ∧ (shortExponent e).value = e := by
  refine ⟨⟨Or.inl rfl, (decimalDigits_spec e.natAbs).1⟩, ?_⟩
  have hvalue : ofDigits (shortExponent e).digits = e.natAbs := Json.ofDigits_decimalDigits _
  rw [Exponent.value, hvalue]
  by_cases hneg : e < 0
  · rw [shortExponent, if_pos hneg, if_pos rfl]
    omega
  · rw [shortExponent, if_neg hneg, if_neg (by simp)]
    omega

section Notation

variable {neg : Bool} {ts : List ℕ} {point : ℤ}

/-- The digits of scientific notation. -/
lemma scientific_digits (point : ℤ) (hne : ts ≠ []) :
    (if ts.length ≤ 1 then [0] else ts.drop 1) ≠ [] ∧
      (ofDigits (ts.take 1 ++ if ts.length ≤ 1 then [0] else ts.drop 1) : ℚ) *
        (10 : ℚ) ^ (point - 1 - ((if ts.length ≤ 1 then [0] else ts.drop 1).length : ℕ)) =
      ofDigits ts * (10 : ℚ) ^ (point - ts.length) := by
  have hlength := List.length_pos_iff.mpr hne
  split_ifs with hone
  · refine ⟨by simp, ?_⟩
    have hlen : ts.length = 1 := by omega
    have hzero : ofDigits [0] = 0 := rfl
    rw [List.take_of_length_le hone, Json.ofDigits_append, hlen, List.length_singleton, pow_one,
      hzero, add_zero, Nat.cast_mul, mul_assoc]
    congr 1
    rw [Nat.cast_ofNat, ← zpow_one_add₀ (by norm_num)]
    congr 1
    push_cast
    ring
  · refine ⟨by rw [Ne, List.drop_eq_nil_iff]; omega, ?_⟩
    rw [List.take_append_drop, List.length_drop]
    congr 2
    omega

/-- Scientific notation of a significand is a number of the grammar. -/
lemma scientificNumeral_significand (h : Significand ts point) :
    (scientificNumeral neg ts point).WellFormed := by
  have hhead : ∀ ds, ts.take 1 = 0 :: ds → ds = [] := by
    intro ds hds
    have := congrArg List.length hds
    rw [List.length_take, List.length_cons] at this
    exact List.eq_nil_of_length_eq_zero (by omega)
  refine ⟨Json.digits_take h.digits.1 h.digits.2 (by decide), hhead, ?_, ?_⟩
  · intro ds hds
    obtain rfl := Option.some.inj hds
    refine ⟨(scientific_digits point h.digits.1).1, fun d hd => ?_⟩
    split_ifs at hd with hone
    · rw [List.mem_singleton.mp hd]
      decide
    · exact h.digits.2 d (List.mem_of_mem_drop hd)
  · rintro e ⟨⟩
    exact (shortExponent_spec _).1

/-- The magnitude in scientific notation. -/
lemma scientificNumeral_magnitude (hne : ts ≠ []) : (scientificNumeral neg ts point).magnitude =
    ofDigits ts * (10 : ℚ) ^ (point - ts.length) := by
  unfold Numeral.magnitude scientificNumeral
  dsimp only
  rw [Option.getD_some, Option.elim_some, (shortExponent_spec _).2, Binary64.pow10_eq]
  exact (scientific_digits point hne).2

/-- A number with a fraction denotes a float. -/
lemma value_of_frac {n : Numeral} {ds : List ℕ} (h : n.frac = some ds) :
    n.value = .float (Binary64.ofRat n.neg (if n.neg then -n.magnitude else n.magnitude)) := by
  rw [Numeral.value, h]
  rfl

/-- Decimal notation has a fraction. -/
lemma decimalNumeral_frac (neg : Bool) (ts : List ℕ) (point : ℤ) :
    (∃ ds, (decimalNumeral neg ts point).frac = some ds) ∧
    (decimalNumeral neg ts point).neg = neg := by
  unfold decimalNumeral
  split_ifs
  · exact ⟨⟨_, rfl⟩, rfl⟩
  · exact ⟨⟨_, rfl⟩, rfl⟩
  · exact ⟨⟨_, rfl⟩, rfl⟩

end Notation

/-- Both notations are read back. -/
lemma notation_readsBack {x : Binary64} (hx : x.isFinite = true) :
    (∃ n : Numeral, n.WellFormed ∧ n.text = decimalText x ∧ n.value = .float x) ∧
      ∃ n : Numeral, n.WellFormed ∧ n.text = scientificText x ∧ n.value = .float x := by
  cases x with
  | nan => cases hx
  | inf neg => cases hx
  | finite neg m e h =>
    obtain ⟨ts, point, heq, hsig, hround⟩ := shortDigits_spec neg m e h
    have hsign : (Binary64.finite neg m e h).sign = neg := rfl
    rw [decimalText, scientificText, heq, hsign]
    constructor
    · obtain ⟨⟨ds, hfrac⟩, hneg⟩ := decimalNumeral_frac neg ts point
      refine ⟨_, decimalNumeral_significand hsig, rfl, ?_⟩
      rw [value_of_frac hfrac, hneg, decimalNumeral_magnitude, hround]
    · refine ⟨_, scientificNumeral_significand hsig, rfl, ?_⟩
      rw [value_of_frac rfl, scientificNumeral_magnitude hsig.digits.1]
      exact congrArg Value.float hround

/-- **Documented texts are read back.** -/
theorem Renders.readsBack {short : Binary64 → Str} (h : Renders short) : ReadsBack short := by
  intro x hx
  obtain ⟨hdecimal, hscientific⟩ := notation_readsBack hx
  rcases h x hx with ⟨heq, -⟩ | ⟨heq, -⟩
  · rwa [heq]
  · rwa [heq]

end Runtime

end VitrialSync.Beam
