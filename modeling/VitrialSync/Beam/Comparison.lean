import VitrialSync.Beam.DeliveryHistory
import VitrialSync.Python.Rounding

set_option relaxedAutoImplicit false
set_option autoImplicit false

/-!
# The comparison of terms over several updates

`Value.py_eq?/2` compares a number with another one by the operator `==` of the runtime, which
converts an integer to a float while the float is below `2 ^ 53`, and the float to an integer from
there on. Neither conversion loses anything that matters to the comparison, so it is the exact one,
and `py_eq?/2` is an equivalence on the terms. A check that an update changes nothing of some
fields, or that it only appends to a history, is therefore a check against every earlier version.

## Main definitions

* `VitrialSync.Beam.integerEqFloat` — the operator `==` on an integer and a float.
* `VitrialSync.Beam.Lifecycle.Continues`, `VitrialSync.Beam.Delivery.Continues` — a payload passes
  the immutability checks of an update over another one.

## Main results

* `VitrialSync.Beam.integerEqFloat_iff` — the mixed comparison is exact.
* `VitrialSync.Beam.pyEq_equivalence` — `py_eq?/2` is an equivalence and Python's `==`, and the
  checks that are built on it compose.
-/

namespace VitrialSync.Beam

open Python Program

/-! ### An integer and a float -/

section Mixed

open Binary64

/-- `n == x` for an integer and a float: the term of the lesser precision is converted. -/
def integerEqFloat (n : ℤ) (x : Binary64) : Bool :=
  if |x.toRat| < 2 ^ 53 then (ofInt n).eq x else decide (n = ⌊x.toRat⌋)

/-- Rounding commutes with the sign. -/
lemma ofRat_neg {r : ℚ} (hr : 0 < r) : ofRat false (-r) = (ofRat false r).neg := by
  have hneg : -r < 0 := neg_lt_zero.mpr hr
  simp only [ofRat, neg_eq_zero, hr.ne', ↓reduceIte, abs_neg, hneg, decide_true, not_lt.mpr hr.le,
    decide_false]
  split <;> split <;> rfl

/-- The value of a negated float. -/
lemma toRat_neg (x : Binary64) : x.neg.toRat = -x.toRat := by
  cases x with
  | finite s m e h => cases s <;> simp [Binary64.neg, toRat, toRat?]
  | _ => simp [Binary64.neg, toRat, toRat?]

/-- A natural number below `2 ^ 53` is a float.

**Proof sketch.** Its significand is the number, shifted until the leading bit is the highest
one. -/
lemma ofRat_natCast {n : ℕ} (hpos : 0 < n) (hn : n < 2 ^ 53) :
    ∃ m e h, ofRat false n = finite false m e h ∧ (finite false m e h).toRat = n := by
  have hlog : Nat.log2 n < 53 := (Nat.log2_lt hpos.ne').mpr hn
  obtain ⟨hlow, hhigh⟩ : 2 ^ Nat.log2 n ≤ n ∧ n < 2 ^ (Nat.log2 n + 1) :=
    ⟨Nat.log2_self_le hpos.ne', Nat.lt_log2_self⟩
  set k := 52 - Nat.log2 n with hk
  have hsum : Nat.log2 n + k = 52 := by omega
  have hcanonical : Canonical64 (n * 2 ^ k) (-k) := by
    refine ⟨?_, by omega, by omega, Or.inl ?_⟩
    · calc n * 2 ^ k < 2 ^ (Nat.log2 n + 1) * 2 ^ k := by gcongr
        _ = 2 ^ 53 := by rw [← pow_add]; congr 1; omega
    · calc 2 ^ 52 = 2 ^ Nat.log2 n * 2 ^ k := by rw [← pow_add, hsum]
        _ ≤ n * 2 ^ k := by gcongr
  have hvalue : ((n * 2 ^ k : ℕ) : ℚ) * (2 : ℚ) ^ (-(k : ℤ)) = n := by
    rw [zpow_neg, zpow_natCast]
    push_cast
    field_simp
  have htwo : (0 : ℚ) < (2 : ℚ) ^ (-(k : ℤ)) := by positivity
  refine ⟨n * 2 ^ k, -k, hcanonical, ofRat_of_near hcanonical (by positivity) ?_ ?_ ?_, ?_⟩
  · rw [sub_mul, hvalue]
    linarith
  · rw [add_mul, hvalue]
    linarith
  · intro _
    rw [sub_mul, hvalue]
    linarith
  · rw [toRat, toRat?, pow2_eq]
    simp only [Bool.false_eq_true, ↓reduceIte, one_mul, Option.getD_some]
    exact hvalue

/-- From `2 ^ 53` on, rounding stays above `2 ^ 53`.

**Proof sketch.** The last bit of such a number is worth at least two, and its significand has the
leading bit. -/
lemma le_ofRat {r : ℚ} (hr : (2 : ℚ) ^ 53 ≤ r) :
    (ofRat false r).isFinite = false ∨ (2 : ℚ) ^ 53 ≤ (ofRat false r).toRat := by
  have hpos : 0 < r := lt_of_lt_of_le (by norm_num) hr
  obtain ⟨lead, hlow, hhigh⟩ := exists_mem_Ico_zpow hpos (by norm_num : (1 : ℚ) < 2)
  have hlead : 53 ≤ lead := by
    have : (53 : ℤ) < lead + 1 :=
      (zpow_lt_zpow_iff_right₀ (by norm_num : (1 : ℚ) < 2)).mp
        (lt_of_le_of_lt (by exact_mod_cast hr) hhigh)
    omega
  have hbit : lastBit r = lead - 52 := by
    rw [lastBit_of_lead hlow hhigh]
    omega
  set e := lead - 52 with he
  have htwo : (0 : ℚ) < (2 : ℚ) ^ e := by positivity
  have hquot : (2 : ℚ) ^ 52 ≤ r / pow2 e := by
    rw [pow2_eq, le_div_iff₀ htwo]
    calc (2 : ℚ) ^ 52 * (2 : ℚ) ^ e = (2 : ℚ) ^ lead := by
          rw [show lead = 52 + e by omega, zpow_add₀ (by norm_num)]
          norm_num
      _ ≤ r := hlow
  have hround : 2 ^ 52 ≤ roundHalfEven (r / pow2 e) := by
    have h := abs_roundHalfEven_sub_le (q := r / pow2 e) (le_trans (by norm_num) hquot)
    have hlt : (2 : ℚ) ^ 52 - 1 < roundHalfEven (r / pow2 e) := by
      have := (abs_le.mp h).1
      linarith
    have hlt' : ((4503599627370495 : ℕ) : ℚ) < roundHalfEven (r / pow2 e) :=
      lt_of_eq_of_lt (by norm_num) hlt
    have := Nat.cast_lt.mp hlt'
    omega
  have hbound : ∀ {m : ℕ} {e' : ℤ}, 2 ^ 52 ≤ m → 1 ≤ e' → (2 : ℚ) ^ 53 ≤ m * (2 : ℚ) ^ e' := by
    intro m e' hm he'
    calc (2 : ℚ) ^ 53 = ((2 ^ 52 : ℕ) : ℚ) * (2 : ℚ) ^ (1 : ℤ) := by norm_num
      _ ≤ m * (2 : ℚ) ^ e' := by
          gcongr
          norm_num
  simp only [ofRat, abs_of_pos hpos, hbit, hpos.ne', ↓reduceIte, not_lt.mpr hpos.le, decide_false]
  have hvalue : ∀ {m : ℕ} {e' : ℤ} (h : Canonical64 m e'),
      (finite false m e' h).toRat = m * (2 : ℚ) ^ e' := by
    intro m e' h
    rw [toRat, toRat?, pow2_eq]
    simp only [Bool.false_eq_true, ↓reduceIte, one_mul, Option.getD_some]
  split_ifs
  · right
    rw [hvalue]
    exact hbound le_rfl (by omega)
  · exact Or.inl rfl
  · right
    rw [hvalue]
    exact hbound hround (by omega)
  · exact Or.inl rfl

/-- The float of an integer below `2 ^ 53` has its value. -/
lemma ofInt_exact {n : ℤ} (hn : |n| < 2 ^ 53) :
    (ofInt n).isFinite = true ∧ (ofInt n).toRat = n := by
  obtain ⟨k, rfl | rfl⟩ := n.eq_nat_or_neg
  all_goals
    rcases Nat.eq_zero_or_pos k with rfl | hk
    · exact ⟨rfl, by norm_num [ofInt, ofRat, toRat, toRat?]⟩
    have hlt : k < 2 ^ 53 := by
      have : ((k : ℤ)) < 2 ^ 53 := by simpa using hn
      exact_mod_cast this
    obtain ⟨m, e, h, hround, hvalue⟩ := ofRat_natCast hk hlt
  · rw [ofInt, Int.cast_natCast, hround]
    exact ⟨rfl, hvalue⟩
  · rw [ofInt, Int.cast_neg, Int.cast_natCast, ofRat_neg (by exact_mod_cast hk), hround, toRat_neg,
      hvalue]
    exact ⟨rfl, rfl⟩

/-- The float of an integer from `2 ^ 53` on is no smaller, or infinite. -/
lemma le_abs_ofInt {n : ℤ} (hn : 2 ^ 53 ≤ |n|) :
    (ofInt n).isFinite = false ∨ (2 : ℚ) ^ 53 ≤ |(ofInt n).toRat| := by
  obtain ⟨k, rfl | rfl⟩ := n.eq_nat_or_neg
  all_goals
    have hk : 2 ^ 53 ≤ k := by
      have : (2 : ℤ) ^ 53 ≤ k := by simpa using hn
      exact_mod_cast this
    have hle := le_ofRat (r := k) (by exact_mod_cast hk)
  · rw [ofInt, Int.cast_natCast]
    exact hle.imp id fun h => h.trans (le_abs_self _)
  · rw [ofInt, Int.cast_neg, Int.cast_natCast, ofRat_neg (by positivity), toRat_neg, abs_neg]
    refine hle.imp (fun h => ?_) fun h => h.trans (le_abs_self _)
    cases hx : ofRat false (k : ℚ) with
    | finite s m e hc => rw [hx] at h; cases h
    | _ => rfl

/-- A float from `2 ^ 53` on is an integer. -/
lemma exists_int_of_le {x : Binary64} (hx : (2 : ℚ) ^ 53 ≤ |x.toRat|) : ∃ k : ℤ, x.toRat = k := by
  cases x with
  | finite s m e h =>
    rw [toRat, toRat?, pow2_eq, Option.getD_some] at hx ⊢
    have hexp : 0 ≤ e := by
      by_contra hneg
      have hsmall : |(if s then (-1 : ℚ) else 1) * m * (2 : ℚ) ^ e| < (2 : ℚ) ^ 53 := by
        have hsign : |(if s then (-1 : ℚ) else 1)| = 1 := by split <;> norm_num
        rw [abs_mul, abs_mul, hsign, one_mul, Nat.abs_cast, abs_of_pos (by positivity)]
        calc (m : ℚ) * (2 : ℚ) ^ e ≤ m * 1 := by
              gcongr
              exact zpow_le_one_of_nonpos₀ (by norm_num) (by omega)
          _ < (2 : ℚ) ^ 53 := by
              rw [mul_one]
              exact_mod_cast h.1
      exact absurd hx (not_le.mpr hsmall)
    obtain ⟨k, rfl⟩ := Int.eq_ofNat_of_zero_le hexp
    refine ⟨(if s then (-1 : ℤ) else 1) * m * 2 ^ k, ?_⟩
    push_cast
    rw [zpow_natCast]
  | _ => norm_num [toRat, toRat?] at hx

/-- Two floats without a NaN or an infinity are equal when their values are. -/
lemma eq_iff_of_isFinite {x y : Binary64} (hx : x.isFinite = true) (hy : y.isFinite = true) :
    x.eq y = true ↔ x.toRat = y.toRat := by
  cases x <;> cases y <;> simp [Binary64.eq, isFinite, toRat?] at hx hy ⊢

/-- An infinity is no finite float. -/
lemma eq_false_of_not_isFinite {x y : Binary64} (hx : x.isFinite = false)
    (hy : y.isFinite = true) : x.eq y = false := by
  cases x <;> cases y <;> simp [Binary64.eq, isFinite, toRat?] at hx hy ⊢

/-- **The mixed comparison is exact.**

**Proof sketch.** A float below `2 ^ 53` is compared with the integer as a float: this is the
integer itself when it is below `2 ^ 53`, and otherwise both it and its float are too large. From
`2 ^ 53` on the float is an integer. -/
theorem integerEqFloat_iff {x : Binary64} (hx : x.isFinite = true) (n : ℤ) :
    integerEqFloat n x = true ↔ x.toRat = n := by
  unfold integerEqFloat
  split_ifs with hsmall
  · rcases lt_or_ge |n| (2 ^ 53) with hn | hn
    · obtain ⟨hfinite, hvalue⟩ := ofInt_exact hn
      rw [eq_iff_of_isFinite hfinite hx, hvalue, eq_comm]
    · have hne : x.toRat ≠ n := by
        intro h
        rw [h] at hsmall
        have : |n| < 2 ^ 53 := by exact_mod_cast hsmall
        omega
      rcases le_abs_ofInt hn with hinf | hle
      · simp [eq_false_of_not_isFinite hinf hx, hne]
      · by_cases hfinite : (ofInt n).isFinite = true
        · rw [eq_iff_of_isFinite hfinite hx]
          refine iff_of_false (fun h => ?_) hne
          rw [h] at hle
          linarith
        · rw [Bool.not_eq_true] at hfinite
          simp [eq_false_of_not_isFinite hfinite hx, hne]
  · obtain ⟨k, hk⟩ := exists_int_of_le (not_lt.mp hsmall)
    rw [hk, Int.floor_intCast, decide_eq_true_eq, Int.cast_inj, eq_comm]

/-- `py_eq?/2` on an integer and a float. -/
lemma pyEq_int_float (n : ℤ) {x : Binary64} (hx : x.isFinite = true) :
    pyEq (.int n) (.float x) = integerEqFloat n x := by
  rw [Bool.eq_iff_iff, integerEqFloat_iff hx, pyEq_eq_same, Value.same_iff_of_scalar rfl]
  cases x with
  | finite s m e h => simp [Value.scalar?, Value.Number.ofFloat, eq_comm]
  | _ => cases hx

end Mixed

/-! ### Checks over several updates -/

/-- A check that compares a part of two payloads passes over several updates. -/
lemma pairwise_pyEq (part : Dict → Value) {payloads : List Dict}
    (h : payloads.IsChain fun earlier later => pyEq (part earlier) (part later) = true) :
    payloads.Pairwise fun earlier later => pyEq (part earlier) (part later) = true := by
  have : Trans (fun a b => pyEq (part a) (part b) = true) (fun a b => pyEq (part a) (part b) = true)
      (fun a b => pyEq (part a) (part b) = true) := ⟨by
    intro a b c hab hbc
    rw [pyEq_eq_same] at hab hbc ⊢
    exact Value.same_trans hab hbc⟩
  exact h.pairwise

namespace Lifecycle

/-- The history of a payload passes `immutable_prefix/3` over another payload. -/
def Continues (name : String) (required : Bool) (earlier later : Dict) : Prop :=
  ∃ history appended, events later name required = .ok history ∧
    immutablePrefix (some earlier) history name = .ok appended

/-- The events that are read from a payload: those it lists, or none where it has no list. -/
lemma events_ok {payload : Dict} {name : String} {required : Bool} {history : List Dict}
    (h : events payload name required = .ok history) :
    payload.get "events" = .list (history.map .dict) ∨
      payload.get "events" = .none ∧ history = [] := by
  unfold events at h
  split at h
  · rename_i found hfound
    cases h
    unfold eventList at hfound
    split_ifs at hfound with hnone
    · cases hfound
      rw [Bool.and_eq_true] at hnone
      refine Or.inr ⟨?_, rfl⟩
      cases hv : payload.get "events" <;> rw [hv] at hnone <;> simp [Value.isNone] at hnone
    · split at hfound
      · cases hfound
      · rename_i xs hxs
        split_ifs at hfound
        split at hfound
        · cases hfound
        · rename_i ds hds
          cases hfound
          rw [← dicts?_eq_some.mp hds]
          exact Or.inl (Value.list?_eq_some.mp hxs)
  · cases h
  · cases h

/-- The check over a payload with a list of events: they are a prefix of the history. -/
lemma immutablePrefix_list {current history : List Dict} {payload : Dict} {name : String}
    (hcurrent : payload.get "events" = .list (current.map .dict)) :
    (∃ appended, immutablePrefix (some payload) history name = .ok appended) ↔
      IsPrefix current history := by
  have hdicts : ((payload.get "events").list?.bind dicts?) = some current := by
    rw [hcurrent, Value.list?, Option.bind_some, dicts?_eq_some]
  simp only [immutablePrefix, hdicts]
  rw [hcurrent, falsyJson, IsPrefix, SameEvents, ← listEq_eq_sameList]
  by_cases hlength : history.length < current.length
  · simp [hlength, not_le.mpr hlength, refuse]
  · simp only [hlength, Bool.false_eq_true, ↓reduceIte, not_lt.mp hlength, true_and]
    cases listEq ((history.take current.length).map .dict) (current.map .dict) <;> simp [refuse]

/-- The check composes: what continues a continuation continues the first payload.

**Proof sketch.** The history of the payload between is what the second check reads as the stored
one. When it has none, the first history is empty. -/
lemma Continues.trans {name : String} {required : Bool} {first middle last : Dict}
    (h : Continues name required first middle) (h' : Continues name required middle last) :
    Continues name required first last := by
  obtain ⟨history, appended, hevents, hkept⟩ := h
  obtain ⟨history', appended', hevents', hkept'⟩ := h'
  refine ⟨history', ?_⟩
  suffices hlast : ∃ tail, immutablePrefix (some first) history' name = .ok tail by
    obtain ⟨tail, htail⟩ := hlast
    exact ⟨tail, hevents', htail⟩
  by_cases hfalsy : falsyJson (first.get "events") = true
  · exact ⟨history', by simp [immutablePrefix, hfalsy]⟩
  obtain ⟨current, hcurrent⟩ : ∃ current : List Dict,
      first.get "events" = .list (current.map .dict) := by
    simp only [immutablePrefix, hfalsy, Bool.false_eq_true, ↓reduceIte] at hkept
    split at hkept
    · cases hkept
    · rename_i current hdicts
      obtain ⟨xs, hxs, hds⟩ := Option.bind_eq_some_iff.mp hdicts
      obtain rfl := dicts?_eq_some.mp hds
      exact ⟨current, Value.list?_eq_some.mp hxs⟩
  have hfirst := (immutablePrefix_list hcurrent).mp ⟨appended, hkept⟩
  rw [immutablePrefix_list hcurrent]
  rcases events_ok hevents with hmiddle | ⟨-, rfl⟩
  · exact hfirst.trans ((immutablePrefix_list hmiddle).mp ⟨appended', hkept'⟩)
  · obtain rfl := List.length_eq_zero_iff.mp (Nat.le_zero.mp hfirst.1)
    exact IsPrefix.nil _

instance (name : String) (required : Bool) :
    Trans (Continues name required) (Continues name required) (Continues name required) :=
  ⟨Continues.trans⟩

/-- An accepted blocker continues the stored one. -/
lemma continues_of_blocker {payload current : Dict} {principal : Option Principal} {entityId : Str}
    (h : blocker payload principal (some current) entityId = .ok ()) :
    Continues "blocker" true current payload := by
  simp only [blocker, bind_eq_ok] at h
  obtain ⟨-, -, -, -, -, -, -, -, h⟩ := h
  split at h
  · exact absurd h refuse_ne_ok
  · simp only [bind_eq_ok] at h
    obtain ⟨history, hevents, -, -, appended, happended, -⟩ := h
    exact ⟨history, appended, hevents, happended⟩

/-- An accepted quotation continues the stored one. -/
lemma continues_of_quotation {payload current : Dict} {principal : Option Principal}
    {entityId : Str} {world : World}
    (h : quotation payload principal (some current) entityId world = .ok ()) :
    Continues "quotation" false current payload := by
  simp only [quotation, quotationHistory, bind_eq_ok] at h
  obtain ⟨-, ⟨-, -, history, hevents, -, -, -, -, appended, happended, -⟩, -⟩ := h
  exact ⟨history, appended, hevents, happended⟩

end Lifecycle

namespace Delivery

/-- A payload passes `immutable_handoff_fields/2`, `history_length/2` and `history_prefix/2` over
another one. -/
structure Continues (earlier later : Dict) : Prop where
  handoff : immutableHandoffFields earlier later = .ok ()
  history : ∃ current events, (earlier.get "events").list?.bind dicts? = some current ∧
    deliveryEvents later = .ok events ∧ IsPrefix current events

/-- The handoff fields are compared one by one. -/
lemma immutableHandoffFields_ok {current payload : Dict} :
    immutableHandoffFields current payload = .ok () ↔
      ∀ key ∈ VitrialSync.Delivery.immutableHandoffKeys,
        pyEq (current.get key) (payload.get key) = true := by
  rw [immutableHandoffFields, forM_eq_ok]
  simp only [refuseIf_eq_ok, Bool.not_eq_false']

/-- The checks compose. -/
lemma Continues.trans {first middle last : Dict} (h : Continues first middle)
    (h' : Continues middle last) : Continues first last := by
  obtain ⟨current, events, hcurrent, hevents, hkept⟩ := h.history
  obtain ⟨current', events', hcurrent', hevents', hkept'⟩ := h'.history
  refine ⟨immutableHandoffFields_ok.mpr fun key hkey => ?_,
    current, events', hcurrent, hevents', ?_⟩
  · have hone := immutableHandoffFields_ok.mp h.handoff key hkey
    have htwo := immutableHandoffFields_ok.mp h'.handoff key hkey
    rw [pyEq_eq_same] at hone htwo ⊢
    exact Value.same_trans hone htwo
  · obtain rfl : current' = events := by
      rw [(deliveryEvents_ok hevents).1, Option.bind_some, dicts?_eq_some.mpr rfl] at hcurrent'
      exact (Option.some.inj hcurrent').symm
    exact hkept.trans hkept'

instance : Trans Continues Continues Continues := ⟨Continues.trans⟩

/-- An accepted delivery continues the stored one. -/
lemma continues_of_validatePayload {payload current : Dict} {principal : Principal}
    {entityId : Str} (h : validatePayload payload (some current) principal entityId = .ok ()) :
    Continues current payload := by
  simp only [validatePayload, bind_eq_ok] at h
  obtain ⟨⟨status, events⟩, hread, -, -, -, -, hhistory⟩ := h
  simp only [enforceHistory, bind_eq_ok] at hhistory
  obtain ⟨⟨⟩, hhandoff, h⟩ := hhistory
  refine ⟨hhandoff, ?_⟩
  split at h
  · exact absurd h refuse_ne_ok
  · rename_i old hold
    simp only [bind_eq_ok, refuseIf_eq_ok] at h
    obtain ⟨-, htruncated, -, hsame, -⟩ := h
    refine ⟨old, events, hold, (readHistory_ok hread).2.1, ?_⟩
    rw [decide_eq_false_iff_not, not_lt] at htruncated
    rw [Bool.not_eq_false', listEq_eq_sameList] at hsame
    exact ⟨htruncated, hsame⟩

end Delivery

/-- **The comparison of terms.** `py_eq?/2` is reflexive, symmetric and transitive on the terms, it
is Python's `==`, and it compares numbers and booleans exactly. So a part that consecutive updates
leave equal is equal in all of them, and payloads that are accepted as updates one after the other
pass the immutability checks over every earlier one.

**Proof sketch.** `pyEq_eq_same` carries the laws of Python's equality over; the mixed comparison of
the runtime is exact by `integerEqFloat_iff`. Each check is a transitive relation of two payloads,
so a chain of updates is related pairwise. -/
theorem pyEq_equivalence :
    (∀ t : Term, pyEq t.value t.value = true) ∧
    (∀ s t : Term, pyEq s.value t.value = true → pyEq t.value s.value = true) ∧
    (∀ r s t : Term, pyEq r.value s.value = true → pyEq s.value t.value = true →
      pyEq r.value t.value = true) ∧
    (∀ s t : Term, pyEq s.value t.value = s.value.eq t.value) ∧
    (∀ (n : ℤ) (x : Binary64), x.isFinite = true →
      pyEq (.int n) (.float x) = integerEqFloat n x ∧
        (integerEqFloat n x = true ↔ x.toRat = n)) ∧
    (∀ (b : Bool) (n : ℤ), pyEq (.bool b) (.int n) = true ↔ n = if b then 1 else 0) ∧
    (∀ (part : Dict → Value) (payloads : List Dict),
      payloads.IsChain (fun earlier later => pyEq (part earlier) (part later) = true) →
      payloads.Pairwise fun earlier later => pyEq (part earlier) (part later) = true) ∧
    (∀ (entityId : Str) (payloads : List Dict),
      payloads.IsChain (fun earlier later =>
        ∃ principal, Lifecycle.blocker later principal (some earlier) entityId = .ok ()) →
      payloads.Pairwise (Lifecycle.Continues "blocker" true)) ∧
    (∀ (entityId : Str) (payloads : List Dict),
      payloads.IsChain (fun earlier later => ∃ principal world,
        Lifecycle.quotation later principal (some earlier) entityId world = .ok ()) →
      payloads.Pairwise (Lifecycle.Continues "quotation" false)) ∧
    ∀ (entityId : Str) (payloads : List Dict),
      payloads.IsChain (fun earlier later => ∃ principal,
        Delivery.validatePayload later (some earlier) principal entityId = .ok ()) →
      payloads.Pairwise Delivery.Continues := by
  refine ⟨fun t => ?_, fun s t h => ?_, fun r s t h h' => ?_, fun s t => ?_,
    fun n x hx => ⟨pyEq_int_float n hx, integerEqFloat_iff hx n⟩, fun b n => ?_,
    fun part _ h => pairwise_pyEq part h, fun _ _ h => ?_, fun _ _ h => ?_, fun _ _ h => ?_⟩
  · rw [pyEq_eq_same]
    exact Value.same_refl t.wellFormed
  · rw [pyEq_eq_same] at h ⊢
    exact Value.same_symm s.wellFormed t.wellFormed h
  · rw [pyEq_eq_same] at h h' ⊢
    exact Value.same_trans h h'
  · rw [pyEq_eq_same]
    unfold Value.eq
    split
    · rename_i hnan
      cases s.finite .nan (by simp [hnan, Value.leaves])
    · rfl
  · rw [pyEq_eq_same, Value.same_iff_of_scalar rfl]
    cases b <;> simp [Value.scalar?, eq_comm]
  · exact (h.imp fun _ _ ⟨_, haccepted⟩ => Lifecycle.continues_of_blocker haccepted).pairwise
  · exact (h.imp fun _ _ ⟨_, _, haccepted⟩ => Lifecycle.continues_of_quotation haccepted).pairwise
  · exact (h.imp fun _ _ ⟨_, haccepted⟩ =>
      Delivery.continues_of_validatePayload haccepted).pairwise

end VitrialSync.Beam
