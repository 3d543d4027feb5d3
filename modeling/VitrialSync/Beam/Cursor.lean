import VitrialSync.Beam.Batch
import VitrialSync.Beam.JsonTexts
import VitrialSync.Server.Cursors

set_option relaxedAutoImplicit false
set_option autoImplicit false

/-!
# Cursors on the BEAM

`VitrialSync.Cursor`: a cursor is the text `seq:` and the decimal digits of a position, of which a
`BIGINT` column holds those up to `2 ^ 63 - 1`. `decode/1` works on the bytes of the text. On a text
of ASCII it reads what `pull_since` of the reference reads; a text with digits of another script is
a cursor for the reference only.

## Main definitions

* `VitrialSync.Beam.Cursor.decode` — `Cursor.decode/1`; `Cursor.encode/1` is
  `VitrialSync.Beam.Cursor.encode`.
* `VitrialSync.Beam.Cursor.Names` — the cursors of a position.

## Main results

* `VitrialSync.Beam.Cursor.decode_eq_ok` — what is decoded.
* `VitrialSync.Beam.Cursor.startSequence_eq_decode` — the reference reads the same.
* `VitrialSync.Beam.Cursor.codec` — both, and that a position is read back.
-/

namespace VitrialSync.Beam.Cursor

open Python Program
open Python.Json (Digits digitText digitChar_val decimalDigits decimalDigits_spec)
open JSON (bytesOf takeDigits)

/-! ### Decoding -/

/-- `reject_reason`. -/
inductive RejectReason where
  | missingPrefix
  | notADecimalInteger
  | negative
  | tooWide
  | aboveMaxSequence
  deriving DecidableEq

/-- `%Cursor.Rejected{}`. -/
structure Rejected where
  cursor : Bytes
  reason : RejectReason
  deriving DecidableEq

/-- `@prefix`. -/
def seqPrefix : Bytes := Bytes.ofString "seq:"

/-- `@max_sequence`. -/
def maxSequence : ℕ := 2 ^ 63 - 1

/-- `@max_digits`. -/
def maxDigits : ℕ := 19

/-- `all_decimal?/1`. -/
def allDecimal : Bytes → Bool
  | [] => true
  | char :: rest => 0x30 ≤ char.val && char.val ≤ 0x39 && allDecimal rest

/-- `Integer.parse/1`: an optional sign, at least one digit, and what follows the digits. -/
def integerParse (b : Bytes) : Option (ℤ × Bytes) :=
  let (neg, rest) : Bool × Bytes :=
    match b with
    | 0x2b :: more => (false, more)
    | 0x2d :: more => (true, more)
    | _ => (false, b)
  match takeDigits rest with
  | ([], _) => none
  | (ds, more) => some (if neg then -(ofDigits ds : ℤ) else ofDigits ds, more)

/-- `reject/2`. -/
def reject {α : Type} (body : Bytes) (reason : RejectReason) : Except Rejected α :=
  .error ⟨seqPrefix ++ body, reason⟩

/-- `decode/1`. The length is taken of decimal digits, each of which is one character. -/
def decode (cursor : Bytes) : Except Rejected ℤ :=
  if seqPrefix.isPrefixOf cursor then
    let digits := cursor.drop 4
    if digits.isEmpty then reject digits .notADecimalInteger
    else if !allDecimal digits then reject digits .notADecimalInteger
    else if maxDigits < digits.length then reject digits .tooWide
    else
      match integerParse digits with
      | some (position, []) =>
        if maxSequence < position then reject digits .aboveMaxSequence else .ok position
      | _ => reject digits .notADecimalInteger
  else .error ⟨cursor, .missingPrefix⟩

/-! ### What is decoded -/

/-- The text of a position: the prefix and at most nineteen decimal digits. -/
def Names (cursor : Bytes) (n : ℕ) : Prop :=
  n ≤ maxSequence ∧ ∃ ds, Digits ds ∧ ds.length ≤ maxDigits ∧ ofDigits ds = n ∧
    cursor = seqPrefix ++ bytesOf (digitText ds)

/-- Digits are ASCII: as bytes they are as many. -/
lemma length_bytesOf_digitText {ds : List ℕ} (h : ∀ d ∈ ds, d < 10) :
    (bytesOf (digitText ds)).length = ds.length := by
  induction ds with
  | nil => rfl
  | cons d ds ih =>
    rw [List.forall_mem_cons] at h
    rw [JSON.bytesOf_digitText h.1, List.length_cons, List.length_cons, ih h.2]

/-- The bytes of digits pass the test. -/
lemma allDecimal_digitText {ds : List ℕ} (h : ∀ d ∈ ds, d < 10) :
    allDecimal (bytesOf (digitText ds)) = true := by
  induction ds with
  | nil => rfl
  | cons d ds ih =>
    rw [List.forall_mem_cons] at h
    have hval := JSON.byte_digit h.1
    have hd := h.1
    rw [JSON.bytesOf_digitText h.1, allDecimal, ih h.2, hval, Bool.and_true, Bool.and_eq_true,
      decide_eq_true_eq, decide_eq_true_eq]
    omega

/-- Bytes that pass the test are digits. -/
lemma exists_digits_of_allDecimal {b : Bytes} (h : allDecimal b = true) :
    ∃ ds : List ℕ, (∀ d ∈ ds, d < 10) ∧ b = bytesOf (digitText ds) := by
  induction b with
  | nil => exact ⟨[], fun _ h => absurd h List.not_mem_nil, rfl⟩
  | cons c rest ih =>
    simp only [allDecimal, Bool.and_eq_true, decide_eq_true_eq] at h
    obtain ⟨⟨hlow, hhigh⟩, hrest⟩ := h
    obtain ⟨ds, hds, rfl⟩ := ih hrest
    have hd : c.val - 0x30 < 10 := by omega
    refine ⟨(c.val - 0x30) :: ds, List.forall_mem_cons.mpr ⟨hd, hds⟩, ?_⟩
    rw [JSON.bytesOf_digitText hd, byte_eq (a := c) (by omega)]

/-- Digits are parsed to the end. -/
lemma integerParse_digitText {ds : List ℕ} (h : Digits ds) :
    integerParse (bytesOf (digitText ds)) = some ((ofDigits ds : ℤ), []) := by
  have htake : takeDigits (bytesOf (digitText ds)) = (ds, []) := by
    have := JSON.takeDigits_digitText h.2 (r := []) (fun c s h => by cases h)
    rwa [List.append_nil] at this
  have hsign := JSON.exponentSign_text none h []
  rw [Option.elim_none, JSON.bytesOf_nil, List.nil_append, List.append_nil] at hsign
  have heq : integerParse (bytesOf (digitText ds)) =
      match takeDigits (JSON.exponentSign (bytesOf (digitText ds))).2 with
      | ([], _) => none
      | (ds', more) => some (if (JSON.exponentSign (bytesOf (digitText ds))).1
          then -(ofDigits ds' : ℤ) else ofDigits ds', more) := rfl
  rw [heq, hsign]
  dsimp only
  rw [htake]
  cases ds with
  | nil => exact absurd rfl h.1
  | cons d ds => rfl

/-- **What is decoded.** A text is decoded exactly when it is the prefix and one to nineteen digits
of a position, and it is decoded to that position.

**Proof sketch.** The tests of the code are those of the definition, one by one; digits parse to
their value with nothing left. -/
theorem decode_eq_ok {cursor : Bytes} {k : ℤ} :
    decode cursor = .ok k ↔ ∃ n : ℕ, k = n ∧ Names cursor n := by
  constructor
  · intro h
    unfold decode at h
    split_ifs at h with hseq
    dsimp only at h
    obtain ⟨body, rfl⟩ := List.isPrefixOf_iff_prefix.mp hseq
    have hdrop : (seqPrefix ++ body).drop 4 = body := rfl
    rw [hdrop] at h
    split_ifs at h with hempty hdecimal hwide
    · cases h
    · cases h
    · cases h
    rw [Bool.not_eq_true', Bool.not_eq_false] at hdecimal
    obtain ⟨ds, hds, rfl⟩ := exists_digits_of_allDecimal hdecimal
    rw [length_bytesOf_digitText hds] at hwide
    have hdigits : Digits ds := by
      refine ⟨?_, hds⟩
      rintro rfl
      exact hempty rfl
    rw [integerParse_digitText hdigits] at h
    dsimp only at h
    split_ifs at h with hmax
    · cases h
    · cases h
      refine ⟨ofDigits ds, rfl, by exact_mod_cast not_lt.mp hmax, ds, hdigits, not_lt.mp hwide, rfl,
        rfl⟩
  · rintro ⟨n, rfl, hmax, ds, hdigits, hwide, rfl, rfl⟩
    have hseq : seqPrefix.isPrefixOf (seqPrefix ++ bytesOf (digitText ds)) = true :=
      List.isPrefixOf_iff_prefix.mpr (List.prefix_append _ _)
    have hdrop : (seqPrefix ++ bytesOf (digitText ds)).drop 4 = bytesOf (digitText ds) := rfl
    have hlength := length_bytesOf_digitText hdigits.2
    have hempty : (bytesOf (digitText ds)).isEmpty = false := by
      rw [List.isEmpty_eq_false_iff_exists_mem, ← List.length_pos_iff_exists_mem, hlength]
      exact List.length_pos_iff.mpr hdigits.1
    rw [decode, if_pos hseq]
    simp only [hdrop, hempty, Bool.false_eq_true, ↓reduceIte, allDecimal_digitText hdigits.2,
      Bool.not_true, hlength, not_lt.mpr hwide, integerParse_digitText hdigits]
    rw [if_neg (not_lt.mpr (by exact_mod_cast hmax))]

/-! ### The reference -/

/-- The decimal digits of ASCII are the ones of any script that are ASCII. -/
lemma decimalValue?_ascii {c : CodePoint} (h : c.val < 0x80) :
    decimalValue? c = if 0x30 ≤ c.val ∧ c.val ≤ 0x39 then some (c.val - 0x30) else none := by
  have hrest : ∀ b ∈ decimalBlocks.tail, 0x80 ≤ b := by decide
  have htail : decimalBlocks.tail.find? (fun b => b ≤ c.val && c.val < b + 10) = none := by
    rw [List.find?_eq_none]
    intro b hb
    have := hrest b hb
    simp only [Bool.and_eq_true, decide_eq_true_eq]
    omega
  have hcons : decimalBlocks = 0x30 :: decimalBlocks.tail := rfl
  rw [decimalValue?, hcons, List.find?_cons]
  split_ifs with hdigit
  · have hblock : (decide (0x30 ≤ c.val) && decide (c.val < 0x30 + 10)) = true := by
      rw [Bool.and_eq_true, decide_eq_true_eq, decide_eq_true_eq]
      omega
    rw [hblock]
    rfl
  · have hblock : (decide (0x30 ≤ c.val) && decide (c.val < 0x30 + 10)) = false := by
      rw [Bool.and_eq_false_iff, decide_eq_false_iff_not, decide_eq_false_iff_not]
      omega
    rw [hblock]
    dsimp only
    rw [htail]
    rfl

/-- In ASCII there are no digits but the decimal ones. -/
lemma isDigit_ascii {c : CodePoint} (h : c.val < 0x80) :
    Python.isDigit c = (decimalValue? c).isSome := by
  have hrest : ∀ r ∈ otherDigitRanges, 0x80 ≤ r.1 := by decide
  have hnone : (otherDigitRanges.any fun r => r.1 ≤ c.val && c.val ≤ r.2) = false := by
    rw [List.any_eq_false]
    intro r hr
    have := hrest r hr
    simp only [Bool.and_eq_true, decide_eq_true_eq]
    omega
  rw [Python.isDigit, hnone, Bool.or_false]

/-- The value of a text of decimal digits. -/
lemma digitsValue?_digitText {ds : List ℕ} (h : ∀ d ∈ ds, d < 10) :
    (digitText ds).mapM decimalValue? = some ds := by
  induction ds with
  | nil => rfl
  | cons d ds ih =>
    rw [List.forall_mem_cons] at h
    have hval := digitChar_val h.1
    have hd := h.1
    have hrest := ih h.2
    rw [digitText] at hrest ⊢
    rw [List.map_cons, List.mapM_cons, decimalValue?_ascii (by omega), if_pos (by omega), hrest,
      hval]
    simp

/-- A text of ASCII digits by its values. -/
lemma eq_digitText_of_mapM {digits : Str} {ds : List ℕ} (hascii : ∀ c ∈ digits, c.val < 0x80)
    (h : digits.mapM decimalValue? = some ds) :
    (∀ d ∈ ds, d < 10) ∧ digits = digitText ds := by
  induction digits generalizing ds with
  | nil =>
    cases h
    exact ⟨fun _ h => absurd h List.not_mem_nil, rfl⟩
  | cons c digits ih =>
    rw [List.forall_mem_cons] at hascii
    simp only [List.mapM_cons, Option.bind_eq_bind, Option.bind_eq_some_iff, Option.pure_def,
      Option.some.injEq] at h
    obtain ⟨d, hd, rest, hrest, rfl⟩ := h
    obtain ⟨hall, rfl⟩ := ih hascii.2 hrest
    rw [decimalValue?_ascii hascii.1] at hd
    split_ifs at hd with hrange
    cases hd
    refine ⟨List.forall_mem_cons.mpr ⟨by omega, hall⟩, ?_⟩
    rw [digitText, digitText, List.map_cons]
    congr 1
    refine Fin.ext ?_
    rw [digitChar_val (by omega)]
    omega

/-- ASCII has no surrogates. -/
lemma scalar_ascii {s : Str} (h : ∀ c ∈ s, c.val < 0x80) : JSON.Scalar s := by
  intro c hc
  have := h c hc
  exact JSON.isSurrogate_eq_false.mpr (Or.inl (by omega))

/-- The prefix in bytes. -/
lemma bytesOf_cursorPrefix : bytesOf cursorPrefix = seqPrefix := rfl

/-- In ASCII the reference has the same cursors. -/
lemma denotes_iff_names {s : Str} (hascii : ∀ c ∈ s, c.val < 0x80) {n : ℕ} :
    Denotes s n ↔ Names (bytesOf s) n := by
  constructor
  · rintro ⟨hmax, digits, rfl, hone, hwide, hvalue⟩
    rw [List.forall_mem_append] at hascii
    obtain ⟨ds, hds, hn⟩ := Option.map_eq_some_iff.mp hvalue
    obtain ⟨hall, rfl⟩ := eq_digitText_of_mapM hascii.2 hds
    rw [digitText, List.length_map] at hone hwide
    refine ⟨hmax, ds, ⟨List.length_pos_iff.mp hone, hall⟩, hwide, hn, ?_⟩
    rw [JSON.bytesOf_append, bytesOf_cursorPrefix]
  · rintro ⟨hmax, ds, hdigits, hwide, hn, hbytes⟩
    have hdigitAscii : ∀ c ∈ digitText ds, c.val < 0x80 := by
      intro c hc
      obtain ⟨d, hd, rfl⟩ := List.mem_map.mp hc
      have := hdigits.2 d hd
      rw [digitChar_val this]
      omega
    have hprefixAscii : ∀ c ∈ cursorPrefix, c.val < 0x80 := fun c hc => by
      simpa using List.all_eq_true.mp
        (show (cursorPrefix.all fun c => decide (c.val < 0x80)) = true from rfl) c hc
    rw [← bytesOf_cursorPrefix, ← JSON.bytesOf_append] at hbytes
    obtain rfl := JSON.bytesOf_inj (scalar_ascii hascii)
      (scalar_ascii (List.forall_mem_append.mpr ⟨hprefixAscii, hdigitAscii⟩)) hbytes
    refine ⟨hmax, digitText ds, rfl, ?_, ?_, ?_⟩
    · rw [digitText, List.length_map]
      exact List.length_pos_iff.mpr hdigits.1
    · rw [digitText, List.length_map]
      exact hwide
    · rw [Str.digitsValue?, digitsValue?_digitText hdigits.2, Option.map_some, hn]

/-- In ASCII every text of digits has a value. -/
lemma not_undecodable {s : Str} (hascii : ∀ c ∈ s, c.val < 0x80) : ¬ Undecodable s := by
  rintro ⟨digits, rfl, hdigits, -, hnone⟩
  rw [List.forall_mem_append] at hascii
  rw [Str.isDigit, Bool.and_eq_true, List.all_eq_true] at hdigits
  have hsome : ∀ {t : Str}, (∀ c ∈ t, (decimalValue? c).isSome = true) →
      (t.mapM decimalValue?).isSome = true := by
    intro t ht
    induction t with
    | nil => rfl
    | cons c t ih =>
      rw [List.forall_mem_cons] at ht
      obtain ⟨d, hd⟩ := Option.isSome_iff_exists.mp ht.1
      obtain ⟨ds, hds⟩ := Option.isSome_iff_exists.mp (ih ht.2)
      rw [List.mapM_cons, hd, hds]
      rfl
  have hall := hsome fun c hc => (isDigit_ascii (hascii.2 c hc)) ▸ hdigits.2 c hc
  rw [Str.digitsValue?, Option.map_eq_none_iff] at hnone
  rw [hnone] at hall
  cases hall

/-- **The reference reads the same.** On a text of ASCII that is not empty both sides come to the
same position, or both refuse it. -/
theorem startSequence_eq_decode {s : Str} (hne : s ≠ []) (hascii : ∀ c ∈ s, c.val < 0x80) :
    (∀ n : ℕ, startSequence (some s) = .ok n ↔ decode (bytesOf s) = .ok (n : ℤ)) ∧
      (startSequence (some s) = .error invalidCursor ↔ ∃ r, decode (bytesOf s) = .error r) := by
  have hread : ∀ n : ℕ, startSequence (some s) = .ok n ↔ decode (bytesOf s) = .ok (n : ℤ) := by
    intro n
    rw [startSequence_eq_ok hne, denotes_iff_names hascii, decode_eq_ok]
    constructor
    · exact fun h => ⟨n, rfl, h⟩
    · rintro ⟨m, hm, h⟩
      rw [Int.ofNat_inj.mp hm]
      exact h
  refine ⟨hread, ?_, ?_⟩
  · intro hrefused
    cases hdecode : decode (bytesOf s) with
    | error r => exact ⟨r, rfl⟩
    | ok k =>
      obtain ⟨n, rfl, -⟩ := decode_eq_ok.mp hdecode
      rw [(hread n).mpr hdecode] at hrefused
      cases hrefused
  · rintro ⟨r, hr⟩
    rcases startSequence_cases s with ⟨n, -, hn⟩ | hrefused | ⟨hundecodable, -⟩
    · rw [(hread n).mp hn] at hr
      cases hr
    · exact hrefused
    · exact absurd hundecodable (not_undecodable hascii)

/-- **The cursor codec.** A position is read back from its text; a text is read exactly when it is
the prefix and one to nineteen digits of a position; and on every text of ASCII that is not empty
the reference reads the same.

**Proof sketch.** The text of a position has its digits, of which there are at most nineteen; the
rest is `decode_eq_ok` and `startSequence_eq_decode`. -/
theorem codec :
    (∀ n ≤ maxSequence, ∃ text, encode n = .ok text ∧ decode (bytesOf text) = .ok (n : ℤ)) ∧
    (∀ (cursor : Bytes) (k : ℤ), decode cursor = .ok k ↔
      ∃ ds : List ℕ, (∀ d ∈ ds, d < 10) ∧ 1 ≤ ds.length ∧ ds.length ≤ 19 ∧
        cursor = Bytes.ofString "seq:" ++ ds.map (fun d => byte (0x30 + d)) ∧
        ofDigits ds ≤ 2 ^ 63 - 1 ∧ k = ofDigits ds) ∧
    ∀ s : Str, s ≠ [] → (∀ c ∈ s, c.val < 0x80) →
      (∀ n : ℕ, startSequence (some s) = .ok n ↔ decode (bytesOf s) = .ok (n : ℤ)) ∧
        (startSequence (some s) = .error invalidCursor ↔ ∃ r, decode (bytesOf s) = .error r) := by
  refine ⟨fun n hn => ?_, fun cursor k => ?_, fun s => startSequence_eq_decode⟩
  · refine ⟨cursorText n, if_pos hn, decode_eq_ok.mpr ⟨n, rfl, hn, decimalDigits n, ?_, ?_, ?_, ?_⟩⟩
    · exact (decimalDigits_spec n).1
    · have hlength : (Str.ofNat n).length ≤ maxDigits :=
        Str.length_ofNat_le (by decide) (lt_of_le_of_lt hn (by decide))
      rwa [(decimalDigits_spec n).2.1, digitText, List.length_map] at hlength
    · exact Json.ofDigits_decimalDigits n
    · rw [cursorText, JSON.bytesOf_append, bytesOf_cursorPrefix, (decimalDigits_spec n).2.1]
  · have hbytes : ∀ {ds : List ℕ}, (∀ d ∈ ds, d < 10) →
        bytesOf (digitText ds) = ds.map fun d => byte (0x30 + d) := by
      intro ds hds
      induction ds with
      | nil => rfl
      | cons d ds ih =>
        rw [List.forall_mem_cons] at hds
        rw [JSON.bytesOf_digitText hds.1, ih hds.2, List.map_cons]
    rw [decode_eq_ok]
    constructor
    · rintro ⟨n, rfl, hmax, ds, hdigits, hwide, rfl, rfl⟩
      exact ⟨ds, hdigits.2, List.length_pos_iff.mpr hdigits.1, hwide,
        by rw [← hbytes hdigits.2]; rfl, hmax, rfl⟩
    · rintro ⟨ds, hds, hone, hwide, rfl, hmax, rfl⟩
      exact ⟨ofDigits ds, rfl, hmax, ds, ⟨List.length_pos_iff.mp hone, hds⟩, hwide, rfl,
        by rw [← hbytes hds]; rfl⟩

end VitrialSync.Beam.Cursor
