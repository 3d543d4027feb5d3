import VitrialSync.Beam.JsonTexts

set_option relaxedAutoImplicit false
set_option autoImplicit false

/-!
# The decoder accepts exactly JSON

`VitrialSync.JSON.decode/1` reads a text of RFC 8259 as the value that the grammar denotes, and
nothing else, up to three limits: containers may be nested 1001 deep, an escaped surrogate has to be
half of a pair, and a number with a fraction or an exponent has to be finite. A byte order mark is
taken off first; after one of UTF-16 or UTF-32 the text is that of the decoded units.

## Main definitions

* `VitrialSync.Beam.JSON.Accepted` — the documents within the limits of the decoder.
* `VitrialSync.Beam.JSON.Unmarked` — bytes without a byte order mark.

## Main results

* `VitrialSync.Beam.JSON.Nested.reads` — completeness: what is nested is read.
* `VitrialSync.Beam.JSON.parse_sound` — soundness: what is read is nested.
* `VitrialSync.Beam.JSON.decode_exact` — the decoder accepts exactly these documents.
-/

namespace VitrialSync.Beam.JSON

open Python Program
open Python.Json (ch Node Nested Blank Starts isWs rfcWords rfc8259 rfcFinite PairedLiteral
  pairedLiteral_iff Numeral Digits digitText LimitedDocument Document Denotes build
  nested_iff_denotes)

/-! ### White space -/

/-- A byte of white space. -/
def isBlank (c : Byte) : Bool := c == 0x20 || c == 0x9 || c == 0xa || c == 0xd

/-- White space is dropped from the head. -/
lemma skipWhitespace_eq (b : Bytes) : skipWhitespace b = b.dropWhile isBlank := rfl

/-- White space as bytes. -/
lemma blank_cons {c : CodePoint} {l : Str} (h : Blank (c :: l)) :
    ∃ b : Byte, utf8 c = [b] ∧ isBlank b = true ∧ c.isSurrogate = false ∧ Blank l := by
  rw [Blank, List.forall_mem_cons] at h
  have hc := h.1
  simp only [isWs, Bool.or_eq_true, beq_iff_eq] at hc
  have hval : ∀ {n : ℕ} {d : CodePoint}, c.val = n → d.val = n → c = d :=
    fun h h' => Fin.ext (h.trans h'.symm)
  rcases hc with ((hc | hc) | hc) | hc
  · obtain rfl : c = 0x20 := hval hc rfl
    exact ⟨0x20, rfl, rfl, rfl, h.2⟩
  · obtain rfl : c = 0x9 := hval hc rfl
    exact ⟨0x9, rfl, rfl, rfl, h.2⟩
  · obtain rfl : c = 0xa := hval hc rfl
    exact ⟨0xa, rfl, rfl, rfl, h.2⟩
  · obtain rfl : c = 0xd := hval hc rfl
    exact ⟨0xd, rfl, rfl, rfl, h.2⟩

/-- White space is skipped. -/
lemma skipWhitespace_blank {l : Str} (hl : Blank l) (b : Bytes) :
    skipWhitespace (bytesOf l ++ b) = skipWhitespace b := by
  induction l with
  | nil => rfl
  | cons c l ih =>
    obtain ⟨a, hutf8, hws, -, hrest⟩ := blank_cons hl
    rw [bytesOf_cons, hutf8, List.cons_append, List.nil_append, List.cons_append,
      skipWhitespace_eq, List.dropWhile_cons_of_pos hws]
    exact ih hrest

/-- What is skipped is white space. -/
lemma skipWhitespace_spec (b : Bytes) :
    ∃ l, Blank l ∧ Scalar l ∧ b = bytesOf l ++ skipWhitespace b := by
  induction b with
  | nil => exact ⟨[], Json.blank_nil, fun _ h => absurd h List.not_mem_nil, rfl⟩
  | cons c rest ih =>
    by_cases hws : isBlank c = true
    · obtain ⟨l, hl, hs, hrest⟩ := ih
      have hskip : skipWhitespace (c :: rest) = skipWhitespace rest := by
        rw [skipWhitespace_eq, List.dropWhile_cons_of_pos hws]
        rfl
      obtain ⟨d, hd, hdws, hds⟩ : ∃ d : CodePoint, utf8 d = [c] ∧ isWs d = true ∧
          d.isSurrogate = false := by
        simp only [isBlank, Bool.or_eq_true, beq_iff_eq] at hws
        rcases hws with ((rfl | rfl) | rfl) | rfl
        · exact ⟨0x20, rfl, rfl, rfl⟩
        · exact ⟨0x9, rfl, rfl, rfl⟩
        · exact ⟨0xa, rfl, rfl, rfl⟩
        · exact ⟨0xd, rfl, rfl, rfl⟩
      refine ⟨d :: l, List.forall_mem_cons.mpr ⟨hdws, hl⟩, List.forall_mem_cons.mpr ⟨hds, hs⟩, ?_⟩
      rw [bytesOf_cons, hd, hskip, List.cons_append, List.nil_append, List.cons_append, ← hrest]
    · refine ⟨[], Json.blank_nil, fun _ h => absurd h List.not_mem_nil, ?_⟩
      rw [skipWhitespace_eq, List.dropWhile_cons_of_neg hws]
      rfl

/-- A byte that is no white space is not skipped. -/
lemma skipWhitespace_cons {c : Byte} (h : isBlank c = false)
    (b : Bytes) : skipWhitespace (c :: b) = c :: b := by
  rw [skipWhitespace_eq, List.dropWhile_cons_of_neg (by rw [h]; exact Bool.false_ne_true)]

/-- White space is skipped once. -/
lemma skipWhitespace_skipWhitespace (b : Bytes) :
    skipWhitespace (skipWhitespace b) = skipWhitespace b :=
  List.dropWhile_idempotent _ _

/-- A value may be read from behind the white space before it. -/
lemma parseValue_skipWhitespace (fuel : ℕ) (b : Bytes) (depth : ℕ) :
    parseValue fuel (skipWhitespace b) depth = parseValue fuel b depth := by
  cases fuel with
  | zero => rfl
  | succ fuel => rw [parseValue, parseValue, skipWhitespace_skipWhitespace]

/-- So may the elements of an array. -/
lemma parseArrayElement_skipWhitespace (fuel : ℕ) (b : Bytes) (depth : ℕ) (acc : List Value) :
    parseArrayElement fuel (skipWhitespace b) depth acc = parseArrayElement fuel b depth acc := by
  cases fuel with
  | zero => rfl
  | succ fuel => rw [parseArrayElement, parseArrayElement, parseValue_skipWhitespace]

/-- So may the members of an object. -/
lemma parseObjectMember_skipWhitespace (fuel : ℕ) (b : Bytes) (depth : ℕ) (acc : Dict) :
    parseObjectMember fuel (skipWhitespace b) depth acc = parseObjectMember fuel b depth acc := by
  have hkey : parseKey (skipWhitespace b) = parseKey b := by
    rw [parseKey, parseKey, skipWhitespace_skipWhitespace]
  cases fuel with
  | zero => rfl
  | succ fuel => rw [parseObjectMember, parseObjectMember, hkey]

/-- The bytes of a text that starts with a token: the first one is no white space and ends no
container. -/
lemma opens_of_starts {t : Str} (h : Starts t) : ∃ c s, bytesOf t = c :: s ∧
    isBlank c = false ∧ c ≠ 0x5d ∧ c ≠ 0x7d := by
  obtain ⟨c, t, rfl, hws, hbracket, hbrace⟩ := h
  by_cases hascii : c.val < 0x80
  · have hval : (byte c.val).val = c.val := byte_val (by omega)
    have hne : ∀ {d : Byte} {e : CodePoint}, d.val = e.val → c ≠ e → byte c.val ≠ d := by
      intro d e hde hce hd
      exact hce (Fin.ext (by rw [← hval, hd, hde]))
    refine ⟨byte c.val, bytesOf t, by rw [bytesOf_cons, utf8_ascii hascii]; rfl, ?_,
      hne rfl hbracket, hne rfl hbrace⟩
    simp only [isWs, isBlank, Bool.or_eq_false_iff, beq_eq_false_iff_ne] at hws ⊢
    have hws' : ∀ {d : Byte}, c.val ≠ d.val → byte c.val ≠ d := by
      intro d hd h
      exact hd (by rw [← hval, h])
    exact ⟨⟨⟨hws' hws.1.1.1, hws' hws.1.1.2⟩, hws' hws.1.2⟩, hws' hws.2⟩
  · have hmax := c.isLt
    obtain ⟨a, tail, hutf8, ha⟩ : ∃ a tail, utf8 c = a :: tail ∧ 0x80 ≤ a.val := by
      unfold utf8
      dsimp only
      rw [if_neg hascii]
      split_ifs <;> refine ⟨_, _, rfl, ?_⟩ <;> rw [byte_val (by omega)] <;> omega
    refine ⟨a, tail ++ bytesOf t, by rw [bytesOf_cons, hutf8]; rfl, ?_, ?_, ?_⟩
    · simp only [isBlank, Bool.or_eq_false_iff, beq_eq_false_iff_ne]
      refine ⟨⟨⟨?_, ?_⟩, ?_⟩, ?_⟩ <;>
        · rintro rfl
          revert ha
          decide
    · rintro rfl
      revert ha
      decide
    · rintro rfl
      revert ha
      decide

/-- Nothing is skipped where a token starts. -/
lemma skipWhitespace_starts {t : Str} (h : Starts t) (r : Bytes) :
    skipWhitespace (bytesOf t ++ r) = bytesOf t ++ r := by
  obtain ⟨c, s, hbytes, hws, -⟩ := opens_of_starts h
  rw [hbytes, List.cons_append, skipWhitespace_cons hws]

/-- A value ends before white space. -/
lemma delimits_blank {l : Str} (hl : Blank l) {r : Bytes} (hr : Delimits r) :
    Delimits (bytesOf l ++ r) := by
  cases l with
  | nil => exact hr
  | cons c l =>
    obtain ⟨a, hutf8, hws, -⟩ := blank_cons hl
    intro d s h
    rw [bytesOf_cons, hutf8] at h
    obtain rfl : a = d := (List.cons.inj h).1
    simp only [isBlank, Bool.or_eq_true, beq_iff_eq] at hws
    simp only [List.mem_cons, List.not_mem_nil, or_false]
    tauto

/-- A value ends before a separator or the end of a container. -/
lemma delimits_cons {c : Byte} (hc : c = 0x2c ∨ c = 0x5d ∨ c = 0x7d) (r : Bytes) :
    Delimits (c :: r) := by
  intro d s h
  obtain rfl : c = d := (List.cons.inj h).1
  rcases hc with rfl | rfl | rfl <;> simp

/-! ### Scalars -/

/-- What is neither an object nor an array is read as a scalar. -/
lemma parseValue_scalar {c : Byte} (hws : isBlank c = false) (hbrace : c ≠ 0x7b)
    (hbracket : c ≠ 0x5b) (fuel : ℕ) (b : Bytes) (depth : ℕ) :
    parseValue (fuel + 1) (c :: b) depth = parseScalar (c :: b) := by
  rw [parseValue, skipWhitespace_cons hws]
  dsimp only
  rw [if_neg hbrace, if_neg hbracket]

/-- A word is read. -/
lemma parseScalar_word {w : String} {v : Value} (h : (w, v) ∈ rfcWords) (r : Bytes) :
    parseScalar (bytesOf (Str.ofString w) ++ r) = .ok (v, r) := by
  simp only [rfcWords, List.mem_cons, Prod.mk.injEq, List.not_mem_nil, or_false] at h
  rcases h with ⟨rfl, rfl⟩ | ⟨rfl, rfl⟩ | ⟨rfl, rfl⟩ <;> rfl

/-- The first byte of a word. -/
lemma words_opens {w : String} {v : Value} (h : (w, v) ∈ rfcWords) : ∃ c s,
    bytesOf (Str.ofString w) = c :: s ∧ isBlank c = false ∧ c ≠ 0x7b ∧ c ≠ 0x5b := by
  simp only [rfcWords, List.mem_cons, Prod.mk.injEq, List.not_mem_nil, or_false] at h
  rcases h with ⟨rfl, -⟩ | ⟨rfl, -⟩ | ⟨rfl, -⟩ <;>
    exact ⟨_, _, rfl, by decide, by decide, by decide⟩

/-- Which byte starts no word. -/
lemma parseScalar_cons {c : Byte} (ht : c ≠ 0x74) (hf : c ≠ 0x66) (hn : c ≠ 0x6e) (b : Bytes) :
    parseScalar (c :: b) =
      if c = 0x22 then (do
        let (text, rest) ← parseString (b.length + 1) b []
        return (.str text, rest))
      else if c = 0x2d ∨ (0x30 ≤ c.val ∧ c.val ≤ 0x39) then parseNumber (c :: b)
      else .error .unexpectedByte := by
  have hword : ∀ {d : Byte} {w : Bytes}, d ≠ c → (d :: w).isPrefixOf (c :: b) = false := by
    intro d w hd
    simp [List.isPrefixOf, hd]
  have htrue : (Bytes.ofString "true").isPrefixOf (c :: b) = false := hword ht.symm
  have hfalse : (Bytes.ofString "false").isPrefixOf (c :: b) = false := hword hf.symm
  have hnull : (Bytes.ofString "null").isPrefixOf (c :: b) = false := hword hn.symm
  rw [parseScalar, htrue, hfalse, hnull]
  rfl

/-- A string is read as a scalar. -/
lemma parseScalar_string {s t : Str} (h : PairedLiteral s t) (ht : Scalar t) (r : Bytes) :
    ∃ t', bytesOf t = 0x22 :: t' ∧ parseScalar (0x22 :: (t' ++ r)) = .ok (.str s, r) := by
  obtain ⟨t', rfl, hglyphs⟩ := pairedLiteral_iff.mp h
  have hquote : utf8 (ch '"') = [0x22] := rfl
  rw [Scalar, List.forall_mem_cons, List.forall_mem_append] at ht
  refine ⟨bytesOf t' ++ [0x22], ?_, ?_⟩
  · rw [bytesOf_cons, bytesOf_append, bytesOf_cons, hquote]
    rfl
  · rw [parseScalar_cons (by decide) (by decide) (by decide), if_pos rfl, List.append_assoc,
      List.cons_append, List.nil_append, parseString_glyphs hglyphs ht.2.1 _ r []]
    · rfl
    · rw [List.length_append]
      omega

/-- The first byte of a number, a minus sign or a digit. -/
lemma numeral_opens {n : Numeral} (hn : n.WellFormed) : ∃ c s, bytesOf n.text = c :: s ∧
    (c = 0x2d ∨ (0x30 ≤ c.val ∧ c.val ≤ 0x39)) := by
  obtain ⟨d, ds, hwhole, hd, hminus, hplus⟩ := n.text_head hn
  cases hneg : n.neg with
  | true =>
    rw [hminus hneg]
    exact ⟨_, _, rfl, Or.inl rfl⟩
  | false =>
    have hval := byte_digit hd
    rw [hplus hneg, hwhole, bytesOf_append, bytesOf_digitText hd]
    refine ⟨_, _, rfl, Or.inr ?_⟩
    rw [hval]
    omega

/-- A number is a token of its own. -/
lemma numeral_starts {n : Numeral} (hn : n.WellFormed) : Starts n.text := by
  obtain ⟨d, ds, hwhole, hd, hminus, hplus⟩ := n.text_head hn
  have hdigit : ∀ k < 10, isWs (digitChar k) = false ∧ digitChar k ≠ ch ']' ∧
      digitChar k ≠ ch '}' := by decide
  cases hneg : n.neg with
  | true => exact ⟨_, _, hminus hneg, by decide, by decide, by decide⟩
  | false =>
    obtain ⟨hws, hbracket, hbrace⟩ := hdigit d hd
    rw [hplus hneg, hwhole]
    exact ⟨_, _, rfl, hws, hbracket, hbrace⟩

/-- The first byte of a number starts nothing else. -/
lemma number_head {c : Byte} (h : c = 0x2d ∨ (0x30 ≤ c.val ∧ c.val ≤ 0x39)) :
    isBlank c = false ∧ c ≠ 0x7b ∧ c ≠ 0x5b ∧ c ≠ 0x74 ∧ c ≠ 0x66 ∧ c ≠ 0x6e ∧ c ≠ 0x22 := by
  have hval : ∀ {d : Byte}, c.val ≠ d.val → c ≠ d := fun h h' => h (congrArg Fin.val h')
  have hrange : 0x2d ≤ c.val ∧ c.val ≤ 0x39 := by
    rcases h with rfl | h
    · decide
    · omega
  have hne : ∀ {d : Byte}, d.val < 0x2d ∨ 0x39 < d.val → c ≠ d := fun h => hval (by omega)
  refine ⟨?_, hne (by decide), hne (by decide), hne (by decide), hne (by decide), hne (by decide),
    hne (by decide)⟩
  simp only [isBlank, Bool.or_eq_false_iff, beq_eq_false_iff_ne]
  exact ⟨⟨⟨hne (by decide), hne (by decide)⟩, hne (by decide)⟩, hne (by decide)⟩

/-! ### Completeness -/

/-- What the decoder does on the text of a node, with enough steps. -/
def Reads (depth : ℕ) : Node → Str → Prop
  | .value v, t => Starts t ∧ ∀ fuel r, 2 * (bytesOf t).length ≤ fuel → Delimits r →
      parseValue fuel (bytesOf t ++ r) depth = .ok (v, r)
  | .elements xs, t => ∀ fuel r acc, 2 * (bytesOf t).length + 1 ≤ fuel →
      (∃ c s, skipWhitespace (bytesOf t ++ 0x5d :: r) = c :: s ∧ c ≠ 0x5d) ∧
      parseArrayElement fuel (bytesOf t ++ 0x5d :: r) depth acc =
        .ok (.list (acc.reverse ++ xs), r)
  | .members ms, t => ∀ fuel r (acc : Dict), 2 * (bytesOf t).length + 1 ≤ fuel →
      (∃ c s, skipWhitespace (bytesOf t ++ 0x7d :: r) = c :: s ∧ c ≠ 0x7d) ∧
      parseObjectMember fuel (bytesOf t ++ 0x7d :: r) depth acc =
        .ok (.dict (ms.foldl (fun d m => Dict.set d m.1 m.2) acc), r)

/-- The depth of what a node is read at: the members of a container are one deeper. -/
def nodeDepth (depth : ℕ) : Node → ℕ
  | .value _ => depth
  | _ => depth + 1

/-- A mark is one byte. -/
lemma bytesOf_mark {c : Char} (h : c.toNat < 0x80) (t : Str) :
    bytesOf (ch c :: t) = byte c.toNat :: bytesOf t := by
  rw [bytesOf_cons, utf8_ch h]
  rfl

/-- The bytes of an array. -/
lemma bytesOf_brackets (t : Str) :
    bytesOf (ch '[' :: (t ++ [ch ']'])) = 0x5b :: (bytesOf t ++ [0x5d]) := by
  rw [bytesOf_mark (by decide), bytesOf_append]
  rfl

/-- The bytes of an object. -/
lemma bytesOf_braces (t : Str) :
    bytesOf (ch '{' :: (t ++ [ch '}'])) = 0x7b :: (bytesOf t ++ [0x7d]) := by
  rw [bytesOf_mark (by decide), bytesOf_append]
  rfl

/-- The inside of an array is read up to its end. -/
lemma Reads.array {depth : ℕ} {xs : List Value} {t : Str} (hdepth : depth ≤ maxDepth)
    (h : Reads depth (.elements xs) t) :
    Reads depth (.value (.list xs)) (ch '[' :: (t ++ [ch ']'])) := by
  refine ⟨⟨_, _, rfl, by decide, by decide, by decide⟩, fun fuel r hfuel _ => ?_⟩
  rw [bytesOf_brackets] at hfuel ⊢
  simp only [List.length_cons, List.length_append, List.length_nil] at hfuel
  obtain ⟨fuel, rfl⟩ : ∃ f, fuel = f + 1 := ⟨fuel - 1, by omega⟩
  obtain ⟨⟨c, s, hskip, hclose⟩, hread⟩ := h fuel r [] (by omega)
  rw [List.cons_append, List.append_assoc, List.cons_append, List.nil_append, parseValue,
    skipWhitespace_cons rfl]
  dsimp only
  rw [if_neg (by decide), if_pos rfl, if_neg (not_lt.mpr hdepth), hskip]
  split
  · rename_i rest hrest
    exact absurd (List.cons.inj hrest).1 hclose
  · rw [← hskip, parseArrayElement_skipWhitespace, hread]
    rfl

/-- The inside of an object is read up to its end. -/
lemma Reads.object {depth : ℕ} {ms : List (Str × Value)} {t : Str} (hdepth : depth ≤ maxDepth)
    (h : Reads depth (.members ms) t) :
    Reads depth (.value (.dict (build ms))) (ch '{' :: (t ++ [ch '}'])) := by
  refine ⟨⟨_, _, rfl, by decide, by decide, by decide⟩, fun fuel r hfuel _ => ?_⟩
  rw [bytesOf_braces] at hfuel ⊢
  simp only [List.length_cons, List.length_append, List.length_nil] at hfuel
  obtain ⟨fuel, rfl⟩ : ∃ f, fuel = f + 1 := ⟨fuel - 1, by omega⟩
  obtain ⟨⟨c, s, hskip, hclose⟩, hread⟩ := h fuel r [] (by omega)
  rw [List.cons_append, List.append_assoc, List.cons_append, List.nil_append, parseValue,
    skipWhitespace_cons rfl]
  dsimp only
  rw [if_pos rfl, if_neg (not_lt.mpr hdepth), hskip]
  split
  · rename_i rest hrest
    exact absurd (List.cons.inj hrest).1 hclose
  · rw [← hskip, parseObjectMember_skipWhitespace, hread]
    rfl

/-- Behind the white space before a value stands its first byte. -/
lemma skip_opens {v : Value} {depth : ℕ} {l t : Str} (hl : Blank l)
    (h : Reads depth (.value v) t) (r : Bytes) :
    ∃ c s, skipWhitespace (bytesOf l ++ (bytesOf t ++ r)) = c :: s ∧ c ≠ 0x5d ∧ c ≠ 0x7d := by
  obtain ⟨c, s, hbytes, -, hclose⟩ := opens_of_starts h.1
  exact ⟨c, s ++ r, by rw [skipWhitespace_blank hl, skipWhitespace_starts h.1, hbytes]; rfl, hclose⟩

/-- A value is read behind white space. -/
lemma parseValue_blank {v : Value} {depth : ℕ} {l t : Str} (hl : Blank l)
    (h : Reads depth (.value v) t) (fuel : ℕ) (hfuel : 2 * (bytesOf t).length ≤ fuel) {r : Bytes}
    (hr : Delimits r) :
    parseValue fuel (bytesOf l ++ (bytesOf t ++ r)) depth = .ok (v, r) := by
  rw [← parseValue_skipWhitespace, skipWhitespace_blank hl, parseValue_skipWhitespace]
  exact h.2 fuel r hfuel hr

/-- A separator or an end after white space. -/
lemma skipWhitespace_mark {l : Str} (hl : Blank l) {c : Byte} (hc : isBlank c = false)
    (b : Bytes) : skipWhitespace (bytesOf l ++ c :: b) = c :: b := by
  rw [skipWhitespace_blank hl, skipWhitespace_cons hc]

/-- The last element of an array. -/
lemma Reads.element {depth : ℕ} {v : Value} {l t b : Str} (hl : Blank l)
    (h : Reads (depth + 1) (.value v) t) (hb : Blank b) :
    Reads depth (.elements [v]) (l ++ (t ++ b)) := by
  intro fuel r acc hfuel
  simp only [bytesOf_append, List.length_append] at hfuel
  obtain ⟨fuel, rfl⟩ : ∃ f, fuel = f + 1 := ⟨fuel - 1, by omega⟩
  rw [bytesOf_append, bytesOf_append, List.append_assoc, List.append_assoc]
  obtain ⟨c, s, hskip, hclose, -⟩ := skip_opens hl h (bytesOf b ++ 0x5d :: r)
  refine ⟨⟨c, s, hskip, hclose⟩, ?_⟩
  have hvalue := parseValue_blank hl h fuel (by omega)
    (delimits_blank hb (delimits_cons (c := 0x5d) (by simp) r))
  rw [parseArrayElement, hvalue, ok_bind]
  dsimp only
  rw [skipWhitespace_mark hb rfl]
  dsimp only
  rw [if_neg (by decide), if_pos rfl, List.reverse_cons]

/-- An element of an array before others. -/
lemma Reads.elements {depth : ℕ} {v : Value} {xs : List Value} {l t b rest : Str} (hl : Blank l)
    (h : Reads (depth + 1) (.value v) t) (hb : Blank b) (hrest : Reads depth (.elements xs) rest) :
    Reads depth (.elements (v :: xs)) (l ++ (t ++ (b ++ ch ',' :: rest))) := by
  intro fuel r acc hfuel
  have hbytes : bytesOf (l ++ (t ++ (b ++ ch ',' :: rest))) ++ 0x5d :: r =
      bytesOf l ++ (bytesOf t ++ (bytesOf b ++ 0x2c :: (bytesOf rest ++ 0x5d :: r))) := by
    rw [bytesOf_append, bytesOf_append, bytesOf_append, bytesOf_mark (by decide)]
    simp only [List.append_assoc, List.cons_append]
    rfl
  simp only [bytesOf_append, bytesOf_mark (show ','.toNat < 0x80 by decide), List.length_append,
    List.length_cons] at hfuel
  obtain ⟨fuel, rfl⟩ : ∃ f, fuel = f + 1 := ⟨fuel - 1, by omega⟩
  rw [hbytes]
  obtain ⟨c, s, hskip, hclose, -⟩ := skip_opens hl h
    (bytesOf b ++ 0x2c :: (bytesOf rest ++ 0x5d :: r))
  refine ⟨⟨c, s, hskip, hclose⟩, ?_⟩
  have hvalue := parseValue_blank hl h fuel (by omega)
    (delimits_blank hb (delimits_cons (c := 0x2c) (by simp) (bytesOf rest ++ 0x5d :: r)))
  rw [parseArrayElement, hvalue, ok_bind]
  dsimp only
  rw [skipWhitespace_mark hb rfl]
  dsimp only
  rw [if_pos rfl, (hrest fuel r (v :: acc) (by omega)).2, List.reverse_cons, List.append_assoc]
  rfl

/-- A key is read behind white space. -/
lemma parseKey_literal {k : Str} {l kt : Str} (hl : Blank l) (hk : PairedLiteral k kt)
    (ht : Scalar kt) (r : Bytes) :
    parseKey (bytesOf l ++ (bytesOf kt ++ r)) = .ok (k, r) := by
  obtain ⟨t', rfl, hglyphs⟩ := pairedLiteral_iff.mp hk
  have hbytes : bytesOf (ch '"' :: (t' ++ [ch '"'])) = 0x22 :: (bytesOf t' ++ [0x22]) := by
    rw [bytesOf_mark (by decide), bytesOf_append]
    rfl
  rw [Scalar, List.forall_mem_cons, List.forall_mem_append] at ht
  rw [hbytes, List.cons_append, List.append_assoc, List.cons_append, List.nil_append, parseKey,
    skipWhitespace_mark hl rfl]
  dsimp only
  rw [if_pos rfl, parseString_glyphs hglyphs ht.2.1 _ r []]
  · rfl
  · rw [List.length_append]
    omega

/-- A key, its colon and a value, before what follows them. -/
lemma parseObjectMember_key {depth : ℕ} {k : Str} {v : Value} {l kt m n t : Str} (hl : Blank l)
    (hk : PairedLiteral k kt) (ht : Scalar kt) (hm : Blank m) (hn : Blank n)
    (h : Reads (depth + 1) (.value v) t) {fuel : ℕ} (hfuel : 2 * (bytesOf t).length ≤ fuel)
    {r : Bytes} (hr : Delimits r) (acc : Dict) :
    parseObjectMember (fuel + 1) (bytesOf l ++ (bytesOf kt ++ (bytesOf m ++ 0x3a ::
        (bytesOf n ++ (bytesOf t ++ r))))) depth acc =
      match skipWhitespace r with
      | [] => .error .unexpectedEnd
      | c :: more =>
        if c = 0x2c then parseObjectMember fuel more depth (acc.set k v)
        else if c = 0x7d then .ok (.dict (acc.set k v), more)
        else .error .unexpectedByte := by
  rw [parseObjectMember, parseKey_literal hl hk ht, ok_bind]
  dsimp only
  rw [skipWhitespace_mark hm rfl, expect, if_pos rfl, ok_bind, parseValue_blank hn h fuel hfuel hr]
  rfl

/-- The first byte of a key. -/
lemma key_opens {k l kt : Str} (hl : Blank l) (hk : PairedLiteral k kt) (r : Bytes) :
    ∃ c s, skipWhitespace (bytesOf l ++ (bytesOf kt ++ r)) = c :: s ∧ c ≠ 0x7d := by
  obtain ⟨t', rfl, -⟩ := pairedLiteral_iff.mp hk
  rw [bytesOf_mark (by decide)]
  exact ⟨0x22, _, skipWhitespace_mark hl rfl _, by decide⟩

/-- The last member of an object. -/
lemma Reads.member {depth : ℕ} {k : Str} {v : Value} {l kt m n t b : Str} (hl : Blank l)
    (hk : PairedLiteral k kt) (ht : Scalar kt) (hm : Blank m) (hn : Blank n)
    (h : Reads (depth + 1) (.value v) t) (hb : Blank b) :
    Reads depth (.members [(k, v)]) (l ++ (kt ++ (m ++ ch ':' :: (n ++ (t ++ b))))) := by
  intro fuel r acc hfuel
  have hbytes : bytesOf (l ++ (kt ++ (m ++ ch ':' :: (n ++ (t ++ b))))) ++ 0x7d :: r =
      bytesOf l ++ (bytesOf kt ++ (bytesOf m ++ 0x3a ::
        (bytesOf n ++ (bytesOf t ++ (bytesOf b ++ 0x7d :: r))))) := by
    rw [bytesOf_append, bytesOf_append, bytesOf_append, bytesOf_mark (by decide), bytesOf_append,
      bytesOf_append]
    simp only [List.append_assoc, List.cons_append]
    rfl
  simp only [bytesOf_append, bytesOf_mark (show ':'.toNat < 0x80 by decide), List.length_append,
    List.length_cons] at hfuel
  obtain ⟨fuel, rfl⟩ : ∃ f, fuel = f + 1 := ⟨fuel - 1, by omega⟩
  rw [hbytes]
  refine ⟨key_opens hl hk _, ?_⟩
  rw [parseObjectMember_key hl hk ht hm hn h (by omega)
    (delimits_blank hb (delimits_cons (by simp) r)), skipWhitespace_mark hb rfl]
  dsimp only
  rw [if_neg (by decide), if_pos rfl]
  rfl

/-- A member of an object before others. -/
lemma Reads.members {depth : ℕ} {k : Str} {v : Value} {ms : List (Str × Value)}
    {l kt m n t b rest : Str} (hl : Blank l) (hk : PairedLiteral k kt) (ht : Scalar kt)
    (hm : Blank m) (hn : Blank n) (h : Reads (depth + 1) (.value v) t) (hb : Blank b)
    (hrest : Reads depth (.members ms) rest) :
    Reads depth (.members ((k, v) :: ms))
      (l ++ (kt ++ (m ++ ch ':' :: (n ++ (t ++ (b ++ ch ',' :: rest)))))) := by
  intro fuel r acc hfuel
  have hbytes : bytesOf (l ++ (kt ++ (m ++ ch ':' :: (n ++ (t ++ (b ++ ch ',' :: rest)))))) ++
      0x7d :: r = bytesOf l ++ (bytesOf kt ++ (bytesOf m ++ 0x3a ::
        (bytesOf n ++ (bytesOf t ++ (bytesOf b ++ 0x2c :: (bytesOf rest ++ 0x7d :: r)))))) := by
    rw [bytesOf_append, bytesOf_append, bytesOf_append, bytesOf_mark (by decide), bytesOf_append,
      bytesOf_append, bytesOf_append, bytesOf_mark (by decide)]
    simp only [List.append_assoc, List.cons_append]
    rfl
  simp only [bytesOf_append, bytesOf_mark (show ':'.toNat < 0x80 by decide),
    bytesOf_mark (show ','.toNat < 0x80 by decide), List.length_append, List.length_cons] at hfuel
  obtain ⟨fuel, rfl⟩ : ∃ f, fuel = f + 1 := ⟨fuel - 1, by omega⟩
  rw [hbytes]
  refine ⟨key_opens hl hk _, ?_⟩
  rw [parseObjectMember_key hl hk ht hm hn h (by omega)
    (delimits_blank hb (delimits_cons (by simp) _)), skipWhitespace_mark hb rfl]
  dsimp only
  rw [if_pos rfl, (hrest fuel r (acc.set k v) (by omega)).2]
  rfl

/-- **Completeness.** The decoder reads every text that is nested no deeper than its bound as the
value that the text denotes.

**Proof sketch.** Induction on the derivation. Every token takes one step and is one byte at least,
so twice the length of the text is enough steps; the bound leaves one level for each container that
is entered. -/
theorem Nested.reads {n : ℕ} {node : Node} {t : Str}
    (h : Nested rfcFinite PairedLiteral n node t) (ht : Scalar t) {depth : ℕ}
    (hdepth : nodeDepth depth node + n ≤ maxDepth + 1) : Reads depth node t := by
  induction h generalizing depth with
  | @word n w v h =>
    obtain ⟨c, s, hbytes, hws, hbrace, hbracket⟩ := words_opens h
    have hstarts : Starts (Str.ofString w) := by
      simp only [rfcFinite, rfcWords, List.mem_cons, Prod.mk.injEq, List.not_mem_nil,
        or_false] at h
      rcases h with ⟨rfl, -⟩ | ⟨rfl, -⟩ | ⟨rfl, -⟩ <;>
        exact ⟨_, _, rfl, by decide, by decide, by decide⟩
    refine ⟨hstarts, fun fuel r hfuel _ => ?_⟩
    have hread := parseScalar_word h r
    rw [hbytes] at hread hfuel ⊢
    rw [List.length_cons] at hfuel
    obtain ⟨fuel, rfl⟩ : ∃ f, fuel = f + 1 := ⟨fuel - 1, by omega⟩
    rw [List.cons_append] at hread ⊢
    rw [parseValue_scalar hws hbrace hbracket, hread]
  | @number n m h hfinite =>
    obtain ⟨c, s, hbytes, hc⟩ := numeral_opens h
    obtain ⟨hws, hbrace, hbracket, ht', hf', hn', hquote⟩ := number_head hc
    refine ⟨numeral_starts h, fun fuel r hfuel hr => ?_⟩
    have hread := parseNumber_text h hfinite hr
    rw [hbytes] at hread hfuel ⊢
    rw [List.length_cons] at hfuel
    obtain ⟨fuel, rfl⟩ : ∃ f, fuel = f + 1 := ⟨fuel - 1, by omega⟩
    rw [List.cons_append] at hread ⊢
    rw [parseValue_scalar hws hbrace hbracket, parseScalar_cons ht' hf' hn', if_neg hquote,
      if_pos hc, hread]
  | @string n s t h =>
    refine ⟨h.literal.starts, fun fuel r hfuel _ => ?_⟩
    obtain ⟨t', hbytes, hread⟩ := parseScalar_string h ht r
    rw [hbytes] at hfuel ⊢
    rw [List.length_cons] at hfuel
    obtain ⟨fuel, rfl⟩ : ∃ f, fuel = f + 1 := ⟨fuel - 1, by omega⟩
    rw [List.cons_append, parseValue_scalar rfl (by decide) (by decide), hread]
  | @emptyArray n b hb =>
    have hle : depth ≤ maxDepth := by
      simp only [nodeDepth] at hdepth
      omega
    refine ⟨⟨_, _, rfl, by decide, by decide, by decide⟩, fun fuel r hfuel _ => ?_⟩
    rw [bytesOf_brackets] at hfuel ⊢
    rw [List.length_cons] at hfuel
    obtain ⟨fuel, rfl⟩ : ∃ f, fuel = f + 1 := ⟨fuel - 1, by omega⟩
    rw [List.cons_append, List.append_assoc, List.cons_append, parseValue, skipWhitespace_cons rfl]
    dsimp only
    rw [if_neg (by decide), if_pos rfl, if_neg (not_lt.mpr hle), skipWhitespace_mark hb rfl]
    rfl
  | @emptyObject n b hb =>
    have hle : depth ≤ maxDepth := by
      simp only [nodeDepth] at hdepth
      omega
    refine ⟨⟨_, _, rfl, by decide, by decide, by decide⟩, fun fuel r hfuel _ => ?_⟩
    rw [bytesOf_braces] at hfuel ⊢
    rw [List.length_cons] at hfuel
    obtain ⟨fuel, rfl⟩ : ∃ f, fuel = f + 1 := ⟨fuel - 1, by omega⟩
    rw [List.cons_append, List.append_assoc, List.cons_append, parseValue, skipWhitespace_cons rfl]
    dsimp only
    rw [if_pos rfl, if_neg (not_lt.mpr hle), skipWhitespace_mark hb rfl]
    rfl
  | array _ ih =>
    rw [Scalar, List.forall_mem_cons, List.forall_mem_append] at ht
    simp only [nodeDepth] at hdepth ih
    exact .array (by omega) (ih ht.2.1 (by omega))
  | object _ ih =>
    rw [Scalar, List.forall_mem_cons, List.forall_mem_append] at ht
    simp only [nodeDepth] at hdepth ih
    exact .object (by omega) (ih ht.2.1 (by omega))
  | element hl _ hr ih =>
    simp only [Scalar, List.forall_mem_append] at ht
    simp only [nodeDepth] at hdepth ih
    exact .element hl (ih ht.2.1 hdepth) hr
  | elements hl _ hr _ ih ihrest =>
    simp only [Scalar, List.forall_mem_append, List.forall_mem_cons] at ht
    simp only [nodeDepth] at hdepth ih ihrest
    exact .elements hl (ih ht.2.1 hdepth) hr (ihrest ht.2.2.2.2 hdepth)
  | member hl hk hm hn _ hr ih =>
    simp only [Scalar, List.forall_mem_append, List.forall_mem_cons] at ht
    simp only [nodeDepth] at hdepth ih
    exact .member hl hk ht.2.1 hm hn (ih ht.2.2.2.2.2.1 hdepth) hr
  | members hl hk hm hn _ hr _ ih ihrest =>
    simp only [Scalar, List.forall_mem_append, List.forall_mem_cons] at ht
    simp only [nodeDepth] at hdepth ih ihrest
    exact .members hl hk ht.2.1 hm hn (ih ht.2.2.2.2.2.1 hdepth) hr
      (ihrest ht.2.2.2.2.2.2.2.2 hdepth)

/-! ### Soundness -/

/-- The grammar with the limits of what is nested in a container of a depth, or stands outside of
containers. -/
abbrev NestedAt (depth : ℕ) (node : Node) (t : Str) : Prop :=
  Nested rfcFinite PairedLiteral (maxDepth + 1 - depth) node t

/-- What is read as a scalar. -/
lemma parseScalar_spec {b r : Bytes} {v : Value} (h : parseScalar b = .ok (v, r)) (depth : ℕ) :
    ∃ t, Scalar t ∧ b = bytesOf t ++ r ∧ NestedAt depth (.value v) t := by
  have hword : ∀ {w : String} {x : Value}, (w, x) ∈ rfcWords →
      (bytesOf (Str.ofString w)).isPrefixOf b = true →
      ∃ t, Scalar t ∧ b = bytesOf t ++ b.drop (bytesOf (Str.ofString w)).length ∧
        NestedAt depth (.value x) t := by
    intro w x hw hb
    refine ⟨Str.ofString w, ?_, ?_, .word hw⟩
    · have hall : (Str.ofString w).all (fun c => !c.isSurrogate) = true := by
        simp only [rfcWords, List.mem_cons, Prod.mk.injEq, List.not_mem_nil, or_false] at hw
        rcases hw with ⟨rfl, -⟩ | ⟨rfl, -⟩ | ⟨rfl, -⟩ <;> rfl
      exact fun c hc => by simpa using List.all_eq_true.mp hall c hc
    · obtain ⟨rest, rfl⟩ := List.isPrefixOf_iff_prefix.mp hb
      rw [List.drop_left]
  unfold parseScalar at h
  split_ifs at h with htrue hfalse hnull
  · cases h
    exact hword (w := "true") (by simp [rfcWords]) htrue
  · cases h
    exact hword (w := "false") (by simp [rfcWords]) hfalse
  · cases h
    exact hword (w := "null") (by simp [rfcWords]) hnull
  · split at h
    · cases h
    · rename_i c rest
      split_ifs at h with hquote hnumber
      · obtain ⟨⟨text, rest'⟩, hstring, h⟩ := bind_eq_ok.mp h
        cases h
        obtain ⟨t, s, hglyphs, ht, rfl, rfl⟩ := parseString_spec hstring
        refine ⟨ch '"' :: (t ++ [ch '"']), ?_, ?_,
          .string (pairedLiteral_iff.mpr ⟨t, rfl, hglyphs⟩)⟩
        · have hs : (ch '"').isSurrogate = false := rfl
          simp only [Scalar, List.forall_mem_cons, List.forall_mem_append, hs, true_and]
          exact ⟨ht, by simp⟩
        · rw [hquote, bytesOf_mark (by decide), bytesOf_append, List.cons_append, List.append_assoc]
          rfl
      · obtain ⟨n, hn, hfinite, rfl, hbytes⟩ := parseNumber_spec h
        refine ⟨n.text, fun x hx => ?_, hbytes, .number hn hfinite⟩
        have hrange := (Json.NumberChar.printable (Json.numeral_chars hn x hx)).2
        exact isSurrogate_eq_false.mpr (Or.inl (by omega))

/-- What is read as a key. -/
lemma parseKey_spec {b r : Bytes} {k : Str} (h : parseKey b = .ok (k, r)) :
    ∃ l kt, Blank l ∧ PairedLiteral k kt ∧ Scalar (l ++ kt) ∧ b = bytesOf (l ++ kt) ++ r := by
  obtain ⟨l, hl, hs, hb⟩ := skipWhitespace_spec b
  unfold parseKey at h
  cases hskip : skipWhitespace b with
  | nil => simp [hskip] at h
  | cons c rest =>
    rw [hskip] at h hb
    dsimp only at h
    split_ifs at h with hquote
    obtain ⟨t, s, hglyphs, ht, rfl, rfl⟩ := parseString_spec h
    refine ⟨l, ch '"' :: (t ++ [ch '"']), hl, pairedLiteral_iff.mpr ⟨t, rfl, hglyphs⟩, ?_, ?_⟩
    · have hq : (ch '"').isSurrogate = false := rfl
      simp only [Scalar, List.forall_mem_cons, List.forall_mem_append, hq, true_and]
      exact ⟨hs, ht, by simp⟩
    · rw [hb, hquote, bytesOf_append, bytesOf_mark (by decide), bytesOf_append, List.append_assoc,
        List.cons_append, List.append_assoc]
      rfl

/-- The byte that is expected. -/
lemma expect_spec {b rest : Bytes} {c : Byte} (h : expect b c = .ok rest) : b = c :: rest := by
  unfold expect at h
  split at h
  · cases h
  · split_ifs at h with hc
    cases h
    rw [hc]

/-- **Soundness.** What the decoder reads is nested no deeper than its bound, and denotes the value
that it returns.

**Proof sketch.** Induction on the budget of steps, for the three parsers together. The white space
that is skipped before a token is that of the grammar. -/
theorem parse_sound (fuel : ℕ) :
    (∀ b depth v r, parseValue fuel b depth = .ok (v, r) →
      ∃ l t, Blank l ∧ Scalar (l ++ t) ∧ b = bytesOf (l ++ t) ++ r ∧
        NestedAt depth (.value v) t) ∧
    (∀ b depth acc v r, parseObjectMember fuel b depth acc = .ok (v, r) →
      ∃ ms t, Scalar t ∧ b = bytesOf t ++ 0x7d :: r ∧ NestedAt (depth + 1) (.members ms) t ∧
        v = .dict (ms.foldl (fun d m => Dict.set d m.1 m.2) acc)) ∧
    (∀ b depth acc v r, parseArrayElement fuel b depth acc = .ok (v, r) →
      ∃ xs t, Scalar t ∧ b = bytesOf t ++ 0x5d :: r ∧ NestedAt (depth + 1) (.elements xs) t ∧
        v = .list (acc.reverse ++ xs)) := by
  induction fuel with
  | zero => exact ⟨nofun, nofun, nofun⟩
  | succ fuel ih =>
    obtain ⟨ihValue, ihMember, ihElement⟩ := ih
    refine ⟨fun b depth v r h => ?_, fun b depth acc v r h => ?_, fun b depth acc v r h => ?_⟩
    · obtain ⟨l, hl, hs, hb⟩ := skipWhitespace_spec b
      have hbuild : ∀ {t : Str}, Scalar t → skipWhitespace b = bytesOf t ++ r →
          NestedAt depth (.value v) t →
          ∃ l t, Blank l ∧ Scalar (l ++ t) ∧ b = bytesOf (l ++ t) ++ r ∧
            NestedAt depth (.value v) t := by
        intro t ht hbytes hnested
        refine ⟨l, t, hl, List.forall_mem_append.mpr ⟨hs, ht⟩, ?_, hnested⟩
        rw [bytesOf_append, List.append_assoc, ← hbytes]
        exact hb
      rw [parseValue] at h
      cases hskip : skipWhitespace b with
      | nil => simp [hskip] at h
      | cons c rest =>
        rw [hskip] at h hbuild
        dsimp only at h
        split_ifs at h with hbrace htoo hbracket htoo
        · -- an object
          have hlevel : maxDepth + 1 - depth = (maxDepth + 1 - (depth + 1)) + 1 := by omega
          split at h
          · rename_i rest' hend
            cases h
            obtain ⟨l', hl', hs', hrest⟩ := skipWhitespace_spec rest
            rw [hend] at hrest
            refine hbuild (t := ch '{' :: (l' ++ [ch '}'])) ?_ ?_ ?_
            · have h₁ : (ch '{').isSurrogate = false := rfl
              have h₂ : (ch '}').isSurrogate = false := rfl
              simp only [Scalar, List.forall_mem_cons, List.forall_mem_append, h₁, h₂, true_and]
              exact ⟨hs', fun _ h => absurd h List.not_mem_nil⟩
            · rw [bytesOf_braces, hbrace, hrest, List.cons_append, List.append_assoc]
              rfl
            · rw [NestedAt, hlevel]
              exact .emptyObject hl'
          · rw [parseObjectMember_skipWhitespace] at h
            obtain ⟨ms, t, ht, rfl, hnested, rfl⟩ := ihMember _ _ _ _ _ h
            refine hbuild (t := ch '{' :: (t ++ [ch '}'])) ?_ ?_ ?_
            · have h₁ : (ch '{').isSurrogate = false := rfl
              have h₂ : (ch '}').isSurrogate = false := rfl
              simp only [Scalar, List.forall_mem_cons, List.forall_mem_append, h₁, h₂, true_and]
              exact ⟨ht, fun _ h => absurd h List.not_mem_nil⟩
            · rw [bytesOf_braces, hbrace, List.cons_append, List.append_assoc]
              rfl
            · rw [NestedAt, hlevel]
              exact .object hnested
        · -- an array
          have hlevel : maxDepth + 1 - depth = (maxDepth + 1 - (depth + 1)) + 1 := by omega
          split at h
          · rename_i rest' hend
            cases h
            obtain ⟨l', hl', hs', hrest⟩ := skipWhitespace_spec rest
            rw [hend] at hrest
            refine hbuild (t := ch '[' :: (l' ++ [ch ']'])) ?_ ?_ ?_
            · have h₁ : (ch '[').isSurrogate = false := rfl
              have h₂ : (ch ']').isSurrogate = false := rfl
              simp only [Scalar, List.forall_mem_cons, List.forall_mem_append, h₁, h₂, true_and]
              exact ⟨hs', fun _ h => absurd h List.not_mem_nil⟩
            · rw [bytesOf_brackets, hbracket, hrest, List.cons_append, List.append_assoc]
              rfl
            · rw [NestedAt, hlevel]
              exact .emptyArray hl'
          · rw [parseArrayElement_skipWhitespace] at h
            obtain ⟨xs, t, ht, rfl, hnested, rfl⟩ := ihElement _ _ _ _ _ h
            refine hbuild (t := ch '[' :: (t ++ [ch ']'])) ?_ ?_ ?_
            · have h₁ : (ch '[').isSurrogate = false := rfl
              have h₂ : (ch ']').isSurrogate = false := rfl
              simp only [Scalar, List.forall_mem_cons, List.forall_mem_append, h₁, h₂, true_and]
              exact ⟨ht, fun _ h => absurd h List.not_mem_nil⟩
            · rw [bytesOf_brackets, hbracket, List.cons_append, List.append_assoc]
              rfl
            · rw [NestedAt, hlevel]
              exact .array hnested
        · obtain ⟨t, ht, hbytes, hnested⟩ := parseScalar_spec h depth
          exact hbuild ht hbytes hnested
    · simp only [parseObjectMember, bind_eq_ok] at h
      obtain ⟨⟨k, afterKey⟩, hkey, afterColon, hcolon, ⟨x, rest⟩, hvalue, h⟩ := h
      obtain ⟨l, kt, hl, hk, hskt, rfl⟩ := parseKey_spec hkey
      obtain ⟨m, hm, hsm, hafterKey⟩ := skipWhitespace_spec afterKey
      rw [expect_spec hcolon] at hafterKey
      obtain ⟨n, t, hn, hst, rfl, hnested⟩ := ihValue _ _ _ _ hvalue
      obtain ⟨l', hl', hsl', hrest⟩ := skipWhitespace_spec rest
      have hcolon' : (ch ':').isSurrogate = false := rfl
      rw [Scalar, List.forall_mem_append] at hskt hst
      dsimp only at h hafterKey
      cases hskip : skipWhitespace rest with
      | nil => simp [hskip] at h
      | cons c more =>
        rw [hskip] at h hrest
        dsimp only at h
        split_ifs at h with hcomma hend
        · obtain ⟨ms, t', ht', rfl, hmembers, rfl⟩ := ihMember _ _ _ _ _ h
          refine ⟨(k, x) :: ms, _, ?_, ?_, .members hl hk hm hn hnested hl' hmembers, rfl⟩
          · have hcomma' : (ch ',').isSurrogate = false := rfl
            simp only [Scalar, List.forall_mem_cons, List.forall_mem_append, hcolon', hcomma',
              true_and]
            exact ⟨hskt.1, hskt.2, hsm, hst.1, hst.2, hsl', ht'⟩
          · rw [hafterKey, hrest, hcomma]
            simp only [bytesOf_append, bytesOf_mark (show ':'.toNat < 0x80 by decide),
              bytesOf_mark (show ','.toNat < 0x80 by decide), List.append_assoc, List.cons_append]
            rfl
        · cases h
          refine ⟨[(k, x)], _, ?_, ?_, .member hl hk hm hn hnested hl', rfl⟩
          · simp only [Scalar, List.forall_mem_cons, List.forall_mem_append, hcolon', true_and]
            exact ⟨hskt.1, hskt.2, hsm, hst.1, hst.2, hsl'⟩
          · rw [hafterKey, hrest, hend]
            simp only [bytesOf_append, bytesOf_mark (show ':'.toNat < 0x80 by decide),
              List.append_assoc, List.cons_append]
            rfl
    · simp only [parseArrayElement, bind_eq_ok] at h
      obtain ⟨⟨x, rest⟩, hvalue, h⟩ := h
      obtain ⟨l, t, hl, hst, rfl, hnested⟩ := ihValue _ _ _ _ hvalue
      obtain ⟨l', hl', hsl', hrest⟩ := skipWhitespace_spec rest
      rw [Scalar, List.forall_mem_append] at hst
      dsimp only at h
      cases hskip : skipWhitespace rest with
      | nil => simp [hskip] at h
      | cons c more =>
        rw [hskip] at h hrest
        dsimp only at h
        split_ifs at h with hcomma hend
        · obtain ⟨xs, t', ht', rfl, helements, rfl⟩ := ihElement _ _ _ _ _ h
          refine ⟨x :: xs, _, ?_, ?_, .elements hl hnested hl' helements, by simp⟩
          · have hcomma' : (ch ',').isSurrogate = false := rfl
            simp only [Scalar, List.forall_mem_cons, List.forall_mem_append, hcomma', true_and]
            exact ⟨hst.1, hst.2, hsl', ht'⟩
          · rw [hrest, hcomma]
            simp only [bytesOf_append, bytesOf_mark (show ','.toNat < 0x80 by decide),
              List.append_assoc, List.cons_append]
            rfl
        · cases h
          refine ⟨[x], _, ?_, ?_, .element hl hnested hl', by simp⟩
          · simp only [Scalar, List.forall_mem_append]
            exact ⟨hst.1, hst.2, hsl'⟩
          · rw [hrest, hend]
            simp only [bytesOf_append, List.append_assoc]

/-! ### Documents -/

/-- A document within the limits of the decoder. -/
def Accepted (v : Value) (s : Str) : Prop := LimitedDocument (maxDepth + 1) v s

/-- `decode/1` after the byte order mark. -/
def decodeBody (body : Bytes) : Except ErrorReason Value :=
  match skipWhitespace body with
  | [] => .error .empty
  | c :: rest => do
    let (value, trailing) ← parseValue (2 * rest.length + 4) (c :: rest) 0
    match skipWhitespace trailing with
    | [] => .ok value
    | _ => .error .trailingData

/-- `decode/1` takes the mark off first. -/
lemma decode_eq (b : Bytes) : decode b = stripBom b >>= decodeBody := rfl

/-- **The body of a document.** Bytes are decoded exactly when they are the UTF-8 form of a document
within the limits.

**Proof sketch.** Soundness and completeness of the parser, with white space before and after the
value. -/
theorem decodeBody_eq_ok {b : Bytes} {v : Value} :
    decodeBody b = .ok v ↔ ∃ s, encodeUtf8? s = some b ∧ Accepted v s := by
  constructor
  · intro h
    obtain ⟨l, hl, hs, hb⟩ := skipWhitespace_spec b
    unfold decodeBody at h
    cases hskip : skipWhitespace b with
    | nil => simp [hskip] at h
    | cons c rest =>
      rw [hskip] at h hb
      obtain ⟨⟨value, trailing⟩, hvalue, h⟩ := bind_eq_ok.mp h
      obtain ⟨l', t, hl', hst, hbytes, hnested⟩ := (parse_sound _).1 _ _ _ _ hvalue
      obtain ⟨r, hr, hsr, htrailing⟩ := skipWhitespace_spec trailing
      rw [Scalar, List.forall_mem_append] at hst
      dsimp only at h
      cases hend : skipWhitespace trailing with
      | cons c' more => simp [hend] at h
      | nil =>
        rw [hend, List.append_nil] at htrailing
        simp only [hend, Except.ok.injEq] at h
        refine ⟨(l ++ l') ++ (t ++ r), encodeUtf8?_eq_some.mpr ⟨?_, ?_⟩, l ++ l', t, r, rfl,
          List.forall_mem_append.mpr ⟨hl, hl'⟩, h ▸ hnested, hr⟩
        · simp only [Scalar, List.forall_mem_append]
          exact ⟨⟨hs, hst.1⟩, hst.2, hsr⟩
        · rw [hb, hbytes, htrailing]
          simp only [bytesOf_append, List.append_assoc]
  · rintro ⟨s, hencode, l, t, r, rfl, hl, hnested, hr⟩
    obtain ⟨hs, rfl⟩ := encodeUtf8?_eq_some.mp hencode
    simp only [Scalar, List.forall_mem_append] at hs
    have hdepth : nodeDepth 0 (.value v) + (maxDepth + 1) ≤ maxDepth + 1 := by simp [nodeDepth]
    obtain ⟨hstarts, hread⟩ := Nested.reads hnested hs.2.1 hdepth
    obtain ⟨c, rest, hbytes, -⟩ := opens_of_starts hstarts
    have hend : skipWhitespace (bytesOf r) = [] := by
      have := skipWhitespace_blank hr []
      rwa [List.append_nil] at this
    have hdelimits : Delimits (bytesOf r) := by
      rw [← List.append_nil (bytesOf r)]
      exact delimits_blank hr fun c s h => by cases h
    have hread' := hread (2 * (rest ++ bytesOf r).length + 4) (bytesOf r)
      (by rw [hbytes]; simp only [List.length_cons, List.length_append]; omega) hdelimits
    rw [decodeBody, bytesOf_append, bytesOf_append, skipWhitespace_blank hl,
      skipWhitespace_starts hstarts]
    rw [hbytes, List.cons_append] at hread' ⊢
    dsimp only
    rw [hread', ok_bind]
    dsimp only
    rw [hend]

/-! ### Byte order marks -/

/-- Bytes that start with no byte order mark. -/
structure Unmarked (b : Bytes) : Prop where
  utf8 : ¬ [0xef, 0xbb, 0xbf] <+: b
  utf16Little : ¬ [0xff, 0xfe] <+: b
  utf16Big : ¬ [0xfe, 0xff] <+: b
  utf32Big : ¬ [0, 0, 0xfe, 0xff] <+: b

/-- A mark of UTF-32, little end first, starts with the one of UTF-16. -/
lemma Unmarked.utf32Little {b : Bytes} (h : Unmarked b) : ¬ [0xff, 0xfe, 0, 0] <+: b := by
  rintro ⟨rest, rfl⟩
  exact h.utf16Little ⟨0 :: 0 :: rest, rfl⟩

/-- Without a mark the bytes are the body. -/
lemma stripBom_unmarked {b : Bytes} (h : Unmarked b) : stripBom b = .ok b := by
  have hfalse : ∀ {m : Bytes}, ¬ m <+: b → ¬ (m.isPrefixOf b = true) := by
    intro m hm hb
    exact hm (List.isPrefixOf_iff_prefix.mp hb)
  rw [stripBom, if_neg (hfalse h.utf8), if_neg (hfalse h.utf32Little), if_neg (hfalse h.utf32Big),
    if_neg (hfalse h.utf16Little), if_neg (hfalse h.utf16Big)]

/-- What is decoded after a mark of UTF-16 or UTF-32. -/
lemma transcode_bind {decoded : Option Str} {v : Value} :
    (transcode decoded >>= decodeBody) = .ok v ↔
      ∃ s, decoded = some s ∧ Scalar s ∧ Accepted v s := by
  rw [bind_eq_ok]
  constructor
  · rintro ⟨body, htranscode, hbody⟩
    unfold transcode at htranscode
    split at htranscode
    · rename_i utf8 hutf8
      cases htranscode
      obtain ⟨s, rfl, hs⟩ := Option.bind_eq_some_iff.mp hutf8
      obtain ⟨s', hs', haccepted⟩ := decodeBody_eq_ok.mp hbody
      obtain ⟨hscalar, rfl⟩ := encodeUtf8?_eq_some.mp hs
      obtain ⟨hscalar', hbytes⟩ := encodeUtf8?_eq_some.mp hs'
      obtain rfl := bytesOf_inj hscalar hscalar' hbytes
      exact ⟨s, rfl, hscalar, haccepted⟩
    · cases htranscode
  · rintro ⟨s, rfl, hs, haccepted⟩
    have hencode : encodeUtf8? s = some (bytesOf s) := encodeUtf8?_eq_some.mpr ⟨hs, rfl⟩
    refine ⟨bytesOf s, ?_, decodeBody_eq_ok.mpr ⟨s, hencode, haccepted⟩⟩
    rw [transcode, Option.bind_some, hencode]

/-- **The decoder accepts exactly JSON.** Bytes without a byte order mark are decoded to a value
exactly when they are the UTF-8 form of a document of RFC 8259 within the limits, and the value is
the one that the document denotes; after a mark the same holds of the text that follows in the
encoding of the mark. A document within the limits is a document of RFC 8259, and apart from the
limits it is any.

**Proof sketch.** The mark decides how `strip_bom` reads the rest; the body is
`decodeBody_eq_ok`. -/
theorem decode_exact :
    (∀ b v, Unmarked b → (decode b = .ok v ↔ ∃ s, encodeUtf8? s = some b ∧ Accepted v s)) ∧
    (∀ b v, decode ([0xef, 0xbb, 0xbf] ++ b) = .ok v ↔
      ∃ s, encodeUtf8? s = some b ∧ Accepted v s) ∧
    (∀ b v, ¬ [0, 0] <+: b → (decode ([0xff, 0xfe] ++ b) = .ok v ↔
      ∃ s, decodeUtf16? false b = some s ∧ Scalar s ∧ Accepted v s)) ∧
    (∀ b v, decode ([0xfe, 0xff] ++ b) = .ok v ↔
      ∃ s, decodeUtf16? true b = some s ∧ Scalar s ∧ Accepted v s) ∧
    (∀ b v, decode ([0xff, 0xfe, 0, 0] ++ b) = .ok v ↔
      ∃ s, decodeUtf32? false b = some s ∧ Scalar s ∧ Accepted v s) ∧
    (∀ b v, decode ([0, 0, 0xfe, 0xff] ++ b) = .ok v ↔
      ∃ s, decodeUtf32? true b = some s ∧ Scalar s ∧ Accepted v s) ∧
    (∀ v s, Accepted v s → Document rfc8259 v s) ∧
    ∀ node t, (∃ depth, Nested rfc8259 Json.Literal depth node t) ↔ Denotes rfc8259 node t := by
  refine ⟨fun b v hb => ?_, fun b v => ?_, fun b v hb => ?_, fun b v => ?_, fun b v => ?_,
    fun b v => ?_, fun v s h => h.document, fun node t => nested_iff_denotes⟩
  · rw [decode_eq, stripBom_unmarked hb, ok_bind, decodeBody_eq_ok]
  · rw [decode_eq, show stripBom ([0xef, 0xbb, 0xbf] ++ b) = .ok b from rfl, ok_bind,
      decodeBody_eq_ok]
  · have hstrip : stripBom ([0xff, 0xfe] ++ b) = transcode (decodeUtf16? false b) := by
      have hmark : ([0xff, 0xfe, 0, 0] : Bytes).isPrefixOf ([0xff, 0xfe] ++ b) = false := by
        rw [← Bool.not_eq_true]
        intro h
        obtain ⟨rest, hrest⟩ := List.isPrefixOf_iff_prefix.mp h
        exact hb ⟨rest, (List.cons.inj (List.cons.inj hrest).2).2⟩
      rw [stripBom, hmark]
      rfl
    rw [decode_eq, hstrip, transcode_bind]
  · rw [decode_eq, show stripBom ([0xfe, 0xff] ++ b) = transcode (decodeUtf16? true b) from rfl,
      transcode_bind]
  · rw [decode_eq, show stripBom ([0xff, 0xfe, 0, 0] ++ b) = transcode (decodeUtf32? false b)
      from rfl, transcode_bind]
  · rw [decode_eq, show stripBom ([0, 0, 0xfe, 0xff] ++ b) = transcode (decodeUtf32? true b)
      from rfl, transcode_bind]

end VitrialSync.Beam.JSON
