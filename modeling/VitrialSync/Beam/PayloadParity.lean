import VitrialSync.Beam.JsonExact
import VitrialSync.Python.JsonTokens
import VitrialSync.Python.Utf8
import VitrialSync.Server.Push

set_option relaxedAutoImplicit false
set_option autoImplicit false

/-!
# Payloads on both servers

A push carries a payload as the base64 of a JSON text, or as the JSON text itself, and both servers
find out which by trying: `Payload.decode/1` of the BEAM service, `decode_payload` of the reference.
Their decoders are of different strictness at every stage. The reference accepts padding beyond the
last group of base64, detects UTF-16 and UTF-32 without a byte order mark, keeps lone surrogates,
reads `NaN`, `Infinity` and numbers that overflow, and nests as deep as its stack; the service does
not. What both accept they read as the same object.

## Main definitions

* `VitrialSync.Beam.Payload.carried` — the bytes in which the reference finds the object.
* `VitrialSync.Beam.Payload.Portable` — payloads without the liberties of the reference.

## Main results

* `VitrialSync.Beam.Payload.strictBase64_eq_some` — the two decoders of base64.
* `VitrialSync.Beam.JSON.decode_eq_ok` — the two decoders of JSON.
* `VitrialSync.Beam.Payload.decode_agrees` — the service reads exactly the portable payloads, as the
  objects that the reference reads.
-/

namespace VitrialSync.Beam

open Python Program
open Python.Json (ch Blank Document Denotes Nested LimitedDocument PairedLiteral digitText
  rfcFinite cpython maxIntDigits)

/-! ### Base64 -/

namespace Payload

/-- A character of the alphabet is not the padding. -/
lemma ne_pad_of_value {a : Byte} {v : ℕ} (h : base64Value? a = some v) : a ≠ padByte := by
  rintro rfl
  cases h

/-- The padding is no character of the alphabet. -/
lemma value_pad : base64Value? padByte = none := rfl

/-- After the padding has begun nothing is decoded. -/
lemma a2bLoop_started {raw b : Bytes} {quad left pads : ℕ}
    (h : a2bLoop raw quad left pads true = some b) : b = [] := by
  induction raw generalizing quad pads with
  | nil =>
    rw [a2bLoop] at h
    split_ifs at h
    exact (Option.some.inj h).symm
  | cons c raw ih =>
    rw [a2bLoop] at h
    by_cases hpad : c = padByte
    · rw [if_pos hpad] at h
      split_ifs at h
      · exact (Option.some.inj h).symm
      · exact ih h
      · exact ih h
    · rw [if_neg hpad] at h
      cases hv : base64Value? c <;> simp [hv] at h

section Group

variable {a b c d : Byte} {va vb vc vd : ℕ} {left pads : ℕ}

/-- The first character of a group. -/
lemma a2bLoop_first (ha : base64Value? a = some va) (rest : Bytes) :
    a2bLoop (a :: rest) 0 left pads false = a2bLoop rest 1 va 0 false := by
  simp [a2bLoop, ne_pad_of_value ha, ha]

/-- The second one. -/
lemma a2bLoop_second (hb : base64Value? b = some vb) (rest : Bytes) :
    a2bLoop (b :: rest) 1 left pads false =
      (a2bLoop rest 2 (vb % 16) 0 false).map (byte (left * 4 + vb / 16) :: ·) := by
  simp [a2bLoop, ne_pad_of_value hb, hb]

/-- The third one. -/
lemma a2bLoop_third (hc : base64Value? c = some vc) (rest : Bytes) :
    a2bLoop (c :: rest) 2 left pads false =
      (a2bLoop rest 3 (vc % 4) 0 false).map (byte (left * 16 + vc / 4) :: ·) := by
  simp [a2bLoop, ne_pad_of_value hc, hc]

/-- The fourth one. -/
lemma a2bLoop_fourth (hd : base64Value? d = some vd) (rest : Bytes) :
    a2bLoop (d :: rest) 3 left pads false =
      (a2bLoop rest 0 0 0 false).map (byte (left * 64 + vd) :: ·) := by
  simp [a2bLoop, ne_pad_of_value hd, hd]

/-- What is outside the alphabet is padding or refused. -/
lemma a2bLoop_outside {quad : ℕ} {started : Bool} (ha : base64Value? a = none) (hpad : a ≠ padByte)
    (rest : Bytes) : a2bLoop (a :: rest) quad left pads started = none := by
  simp [a2bLoop, hpad, ha]

/-- Padding where no group could end. -/
lemma a2bLoop_early {quad : ℕ} {started : Bool} (hquad : quad < 2) (rest : Bytes) :
    a2bLoop (padByte :: rest) quad left pads started = a2bLoop rest quad left pads true := by
  rw [a2bLoop, if_pos rfl, if_neg (by omega)]

/-- A group of characters of the alphabet is decoded to three bytes. -/
lemma a2bLoop_group (ha : base64Value? a = some va) (hb : base64Value? b = some vb)
    (hc : base64Value? c = some vc) (hd : base64Value? d = some vd) (rest : Bytes) :
    a2bLoop (a :: b :: c :: d :: rest) 0 0 0 false = (a2bLoop rest 0 0 0 false).map fun more =>
      byte (va * 4 + vb / 16) :: byte (vb % 16 * 16 + vc / 4) :: byte (vc % 4 * 64 + vd) ::
        more := by
  rw [a2bLoop_first ha, a2bLoop_second hb, a2bLoop_third hc, a2bLoop_fourth hd]
  cases a2bLoop rest 0 0 0 false <;> rfl

/-- So it is by the service. -/
lemma strictBase64_group (ha : base64Value? a = some va) (hb : base64Value? b = some vb)
    (hc : base64Value? c = some vc) (hd : base64Value? d = some vd) (rest : Bytes) :
    strictBase64 (a :: b :: c :: d :: rest) = (strictBase64 rest).map fun more =>
      byte (va * 4 + vb / 16) :: byte (vb % 16 * 16 + vc / 4) :: byte (vc % 4 * 64 + vd) ::
        more := by
  have hshape : base64Shape (a :: b :: c :: d :: rest) = base64Shape rest := by
    simp [base64Shape, ha, hb, hc, hd]
  have hlength : (a :: b :: c :: d :: rest).length % 4 = rest.length % 4 := by
    simp only [List.length_cons]
    omega
  rw [strictBase64, strictBase64, hshape, hlength]
  split_ifs
  · rw [decode64, ha, hb, hc, hd]
    simp only [Option.bind_eq_bind, Option.bind_some, if_neg (ne_pad_of_value hc),
      if_neg (ne_pad_of_value hd)]
    cases decode64 rest <;> rfl
  · rfl

end Group

/-- The service decodes no text with another length than whole groups have. -/
lemma strictBase64_short {raw b : Bytes} (h : raw.length % 4 ≠ 0) : strictBase64 raw ≠ some b := by
  rw [strictBase64, if_neg (by simp [h])]
  exact nofun

/-- It decodes no text that is not in the shape. -/
lemma strictBase64_shape {raw b : Bytes} (h : base64Shape raw = false) :
    strictBase64 raw ≠ some b := by
  rw [strictBase64, if_neg (by simp [h])]
  exact nofun

/-- **The two decoders of base64.** The service decodes what the reference decodes, except with
padding beyond the last group.

**Proof sketch.** In groups of four. A group without padding is three bytes on both sides; with
padding it is the last one. Padding where a group would begin is skipped by the reference, which
then decodes nothing any more. -/
lemma strictBase64_loop : ∀ raw b : Bytes, strictBase64 raw = some b ↔
    a2bLoop raw 0 0 0 false = some b ∧ raw.length = 4 * ((b.length + 2) / 3)
  | [], b => by
    constructor
    · intro h
      obtain rfl : b = [] := (Option.some.inj h).symm
      exact ⟨rfl, rfl⟩
    · rintro ⟨h, -⟩
      exact h
  | [a], b => by
    refine iff_of_false (strictBase64_short (by simp)) ?_
    rintro ⟨-, h⟩
    simp only [List.length_singleton] at h
    omega
  | [a, a'], b => by
    refine iff_of_false (strictBase64_short (by simp)) ?_
    rintro ⟨-, h⟩
    simp only [List.length_cons, List.length_nil] at h
    omega
  | [a, a', a''], b => by
    refine iff_of_false (strictBase64_short (by simp)) ?_
    rintro ⟨-, h⟩
    simp only [List.length_cons, List.length_nil] at h
    omega
  | a :: a' :: c :: d :: rest, b => by
    have hlong : ∀ {b' : Bytes}, b' = [] →
        (a :: a' :: c :: d :: rest).length ≠ 4 * ((b'.length + 2) / 3) := by
      rintro b' rfl
      simp
    cases ha : base64Value? a with
    | none =>
      refine iff_of_false (strictBase64_shape (by simp [base64Shape, ha])) ?_
      rintro ⟨h, hlength⟩
      by_cases hpad : a = padByte
      · rw [hpad, a2bLoop_early (by omega)] at h
        exact hlong (a2bLoop_started h) hlength
      · rw [a2bLoop_outside ha hpad] at h
        cases h
    | some va =>
    cases hb : base64Value? a' with
    | none =>
      refine iff_of_false (strictBase64_shape (by simp [base64Shape, ha, hb])) ?_
      rintro ⟨h, hlength⟩
      rw [a2bLoop_first ha] at h
      by_cases hpad : a' = padByte
      · rw [hpad, a2bLoop_early (by omega)] at h
        exact hlong (a2bLoop_started h) hlength
      · rw [a2bLoop_outside hb hpad] at h
        cases h
    | some vb =>
    cases hc : base64Value? c with
    | none =>
      by_cases hpad : c = padByte
      · subst hpad
        by_cases hend : d = padByte ∧ rest = []
        · obtain ⟨rfl, rfl⟩ := hend
          have hdecode : strictBase64 [a, a', padByte, padByte] =
              some [byte (va * 4 + vb / 16)] := by
            simp [strictBase64, base64Shape, decode64, ha, hb, value_pad]
          have hloop : a2bLoop [padByte, padByte] 2 (vb % 16) 0 false = some [] := by
            simp [a2bLoop]
          rw [hdecode, a2bLoop_first ha, a2bLoop_second hb, hloop, Option.map_some, iff_self_and]
          intro h
          rw [← Option.some.inj h]
          simp
        · have hshape : base64Shape (a :: a' :: padByte :: d :: rest) = false := by
            simpa [base64Shape, ha, hb, hc] using hend
          refine iff_of_false (strictBase64_shape hshape) ?_
          rintro ⟨h, hlength⟩
          rw [a2bLoop_first ha, a2bLoop_second hb, a2bLoop, if_pos rfl, if_pos le_rfl,
            if_neg (by omega)] at h
          obtain ⟨b', hb', rfl⟩ := Option.map_eq_some_iff.mp h
          obtain rfl := a2bLoop_started hb'
          have hrest : rest = [] := List.eq_nil_of_length_eq_zero (by
            simp only [List.length_cons, List.length_nil] at hlength
            omega)
          have hne : d ≠ padByte := fun hd => hend ⟨hd, hrest⟩
          cases hd : base64Value? d <;> simp [a2bLoop, hne, hd] at hb'
      · refine iff_of_false (strictBase64_shape (by simp [base64Shape, ha, hb, hc, hpad])) ?_
        rintro ⟨h, -⟩
        rw [a2bLoop_first ha, a2bLoop_second hb, a2bLoop_outside hc hpad] at h
        cases h
    | some vc =>
    cases hd : base64Value? d with
    | none =>
      by_cases hpad : d = padByte
      · subst hpad
        by_cases hend : rest = []
        · subst hend
          have hdecode : strictBase64 [a, a', c, padByte] =
              some [byte (va * 4 + vb / 16), byte (vb % 16 * 16 + vc / 4)] := by
            simp [strictBase64, base64Shape, decode64, ha, hb, hc, value_pad, ne_pad_of_value hc]
          have hloop : a2bLoop [padByte] 3 (vc % 4) 0 false = some [] := by
            simp [a2bLoop]
          rw [hdecode, a2bLoop_first ha, a2bLoop_second hb, a2bLoop_third hc, hloop,
            Option.map_some, Option.map_some, iff_self_and]
          intro h
          rw [← Option.some.inj h]
          simp
        · have hstrict : strictBase64 (a :: a' :: c :: padByte :: rest) ≠ some b := by
            by_cases hone : rest = [padByte]
            · exact strictBase64_short (by simp [hone])
            · exact strictBase64_shape (by simp [base64Shape, ha, hb, hc, hd, hend, hone])
          refine iff_of_false hstrict ?_
          rintro ⟨h, -⟩
          rw [a2bLoop_first ha, a2bLoop_second hb, a2bLoop_third hc, a2bLoop, if_pos rfl,
            if_pos (by omega), if_pos (by omega), if_neg (by simpa using hend)] at h
          cases h
      · refine iff_of_false (strictBase64_shape (by simp [base64Shape, ha, hb, hc, hd, hpad])) ?_
        rintro ⟨h, -⟩
        rw [a2bLoop_first ha, a2bLoop_second hb, a2bLoop_third hc, a2bLoop_outside hd hpad] at h
        cases h
    | some vd =>
    have ih := strictBase64_loop rest
    rw [a2bLoop_group ha hb hc hd, strictBase64_group ha hb hc hd]
    constructor
    · intro h
      obtain ⟨more, hmore, rfl⟩ := Option.map_eq_some_iff.mp h
      obtain ⟨hloop, hlength⟩ := (ih more).mp hmore
      refine ⟨by rw [hloop, Option.map_some], ?_⟩
      simp only [List.length_cons]
      omega
    · rintro ⟨h, hlength⟩
      obtain ⟨more, hmore, rfl⟩ := Option.map_eq_some_iff.mp h
      simp only [List.length_cons] at hlength
      rw [(ih more).mpr ⟨hmore, by omega⟩, Option.map_some]

/-- The same of the whole decoders: the reference refuses padding at the beginning. -/
theorem strictBase64_eq_some {raw b : Bytes} : strictBase64 raw = some b ↔
    b64decode? raw = some b ∧ raw.length = 4 * ((b.length + 2) / 3) := by
  rw [strictBase64_loop, b64decode?]
  split_ifs with hpad
  · refine iff_of_false ?_ (by simp)
    rintro ⟨h, hlength⟩
    cases raw with
    | nil => cases hpad
    | cons a rest =>
      obtain rfl := Option.some.inj hpad
      rw [a2bLoop_early (by omega)] at h
      obtain rfl := a2bLoop_started h
      simp at hlength
  · rfl

end Payload

/-! ### JSON -/

namespace JSON

/-- A character that a JSON text may have: no control character but white space. -/
def Textual (c : CodePoint) : Prop := 0x20 ≤ c.val ∨ Json.isWs c = true

/-- White space is textual. -/
lemma textual_blank {s : Str} (h : Blank s) : ∀ c ∈ s, Textual c := fun c hc => Or.inr (h c hc)

/-- The characters of a character of a literal. -/
lemma textual_charText {t : Str} {x : CodePoint × Bool} (h : Json.CharText t x) :
    ∀ c ∈ t, Textual c := by
  have hhex : ∀ {c : CodePoint} {n : ℕ}, Json.hexValue? c = some n → Textual c := by
    intro c n hn
    left
    rw [Json.hexValue?] at hn
    split_ifs at hn <;> omega
  cases h with
  | plain h =>
    intro c hc
    rw [List.mem_singleton.mp hc]
    exact Or.inl h.1
  | simple h =>
    rename_i e c
    have he : Textual e := by
      left
      rw [Json.simpleEscape?] at h
      split_ifs at h <;> subst_vars <;> decide
    simp only [List.mem_cons, List.not_mem_nil, or_false, forall_eq_or_imp, forall_eq]
    exact ⟨Or.inl (by decide), he⟩
  | unit h =>
    rename_i a b c d u
    rw [Json.hex4?] at h
    simp only [Option.bind_eq_bind, Option.bind_eq_some_iff] at h
    obtain ⟨na, ha, nb, hb, nc, hc, nd, hd, -⟩ := h
    simp only [List.mem_cons, List.not_mem_nil, or_false, forall_eq_or_imp, forall_eq]
    exact ⟨Or.inl (by decide), Or.inl (by decide), hhex ha, hhex hb, hhex hc, hhex hd⟩

/-- The characters of a literal. -/
lemma textual_literal {s t : Str} (h : Json.Literal s t) : ∀ c ∈ t, Textual c := by
  obtain ⟨ts, xs, hchars, rfl, -⟩ := h
  have hquote : Textual (ch '"') := Or.inl (by decide)
  rw [List.forall_mem_cons, List.forall_mem_append]
  refine ⟨hquote, ?_, by simpa using hquote⟩
  induction hchars with
  | nil => simp
  | cons hx _ ih =>
    rw [List.flatten_cons, List.forall_mem_append]
    exact ⟨textual_charText hx, ih⟩

/-- The characters of a text.

**Proof sketch.** By induction on the derivation: white space, words, numbers, literals and the
marks between them. -/
lemma textual_denotes {node : Json.Node} {t : Str} (h : Denotes Json.rfc8259 node t) :
    ∀ c ∈ t, Textual c := by
  have hmark : ∀ {c : CodePoint} {s : Str},
      c ∈ [ch ',', ch ':', ch '[', ch ']', ch '\x7b', ch '\x7d'] → (∀ d ∈ s, Textual d) →
        ∀ d ∈ c :: s, Textual d := by
    intro c s hc hs
    have hall : ([ch ',', ch ':', ch '[', ch ']', ch '\x7b', ch '\x7d'].all fun d =>
        decide (0x20 ≤ d.val)) = true := by decide
    have hlow := of_decide_eq_true (List.all_eq_true.mp hall c hc)
    exact List.forall_mem_cons.mpr ⟨Or.inl hlow, hs⟩
  have hend : ∀ {c : CodePoint},
      c ∈ [ch ',', ch ':', ch '[', ch ']', ch '\x7b', ch '\x7d'] → ∀ d ∈ [c], Textual d :=
    fun hc => hmark hc fun _ h => absurd h List.not_mem_nil
  have happend : ∀ {s t : Str}, (∀ c ∈ s, Textual c) → (∀ c ∈ t, Textual c) →
      ∀ c ∈ s ++ t, Textual c := fun hs ht => List.forall_mem_append.mpr ⟨hs, ht⟩
  induction h with
  | word h =>
    have hwords : (Json.rfcWords.all fun w => (Str.ofString w.1).all fun c =>
        decide (0x20 ≤ c.val)) = true := by decide
    intro c hc
    exact Or.inl (of_decide_eq_true
      (List.all_eq_true.mp (List.all_eq_true.mp hwords _ h) c hc))
  | number h hn =>
    exact fun c hc => Or.inl (Json.NumberChar.printable (Json.numeral_chars h c hc)).1
  | string h => exact textual_literal h
  | emptyArray hb => exact hmark (by simp) (happend (textual_blank hb) (hend (by simp)))
  | array _ ih => exact hmark (by simp) (happend ih (hend (by simp)))
  | emptyObject hb => exact hmark (by simp) (happend (textual_blank hb) (hend (by simp)))
  | object _ ih => exact hmark (by simp) (happend ih (hend (by simp)))
  | element hl _ hr ih => exact happend (textual_blank hl) (happend ih (textual_blank hr))
  | elements hl _ hr _ ih ihrest =>
    exact happend (textual_blank hl)
      (happend ih (happend (textual_blank hr) (hmark (by simp) ihrest)))
  | member hl hk hm hn _ hr ih =>
    exact happend (textual_blank hl) (happend (textual_literal hk) (happend (textual_blank hm)
      (hmark (by simp) (happend (textual_blank hn) (happend ih (textual_blank hr))))))
  | members hl hk hm hn _ hr _ ih ihrest =>
    exact happend (textual_blank hl) (happend (textual_literal hk) (happend (textual_blank hm)
      (hmark (by simp) (happend (textual_blank hn) (happend ih
        (happend (textual_blank hr) (hmark (by simp) ihrest)))))))

/-- An accepted text has no zero in its bytes. -/
lemma zero_not_mem_bytesOf {v : Value} {s : Str} (h : Accepted v s) : 0 ∉ bytesOf s := by
  obtain ⟨l, t, r, rfl, hl, ht, hr⟩ := h.document
  have hbyte : ∀ c : CodePoint, Textual c → 0 ∉ utf8 c := by
    intro c hc
    have hpos : 0 < c.val := by
      rcases hc with hc | hc
      · omega
      · simp only [Json.isWs, Bool.or_eq_true, beq_iff_eq] at hc
        omega
    have hlt := c.isLt
    have hne : ∀ {n : ℕ}, n % 256 ≠ 0 → (0 : Byte) ≠ byte n := by
      intro n hn heq
      exact hn (congrArg Fin.val heq).symm
    unfold utf8
    dsimp only
    split_ifs
    · simpa using hne (by omega)
    · simp only [List.mem_cons, List.not_mem_nil, or_false, not_or]
      exact ⟨hne (by omega), hne (by omega)⟩
    · simp only [List.mem_cons, List.not_mem_nil, or_false, not_or]
      exact ⟨hne (by omega), hne (by omega), hne (by omega)⟩
    · simp only [List.mem_cons, List.not_mem_nil, or_false, not_or]
      exact ⟨hne (by omega), hne (by omega), hne (by omega), hne (by omega)⟩
  rw [bytesOf, List.mem_flatMap]
  rintro ⟨c, hc, hzero⟩
  refine hbyte c ?_ hzero
  rcases List.mem_append.mp hc with hc | hc
  · exact textual_blank hl c hc
  · rcases List.mem_append.mp hc with hc | hc
    · exact textual_denotes ht c hc
    · exact textual_blank hr c hc

/-- Bytes with a mark are not as without one. -/
lemma not_unmarked_cases {b : Bytes} (h : ¬ Unmarked b) : [0xef, 0xbb, 0xbf] <+: b ∨
    [0xff, 0xfe] <+: b ∨ [0xfe, 0xff] <+: b ∨ [0, 0, 0xfe, 0xff] <+: b := by
  by_contra hnone
  simp only [not_or] at hnone
  exact h ⟨hnone.1, hnone.2.1, hnone.2.2.1, hnone.2.2.2⟩

/-- Without a mark and without a zero byte the text is UTF-8. -/
lemma decodeDetected?_unmarked {b : Bytes} (h : Unmarked b) (hzero : 0 ∉ b) :
    Json.decodeDetected? b = decodeUtf8? b := by
  have hfalse : ∀ {m : Bytes}, ¬ m <+: b → ¬ (m.isPrefixOf b = true) := fun hm hb =>
    hm (List.isPrefixOf_iff_prefix.mp hb)
  unfold Json.decodeDetected?
  rw [if_neg (hfalse h.utf32Big), if_neg (hfalse h.utf32Little), if_neg (hfalse h.utf16Big),
    if_neg (hfalse h.utf16Little), if_neg (hfalse h.utf8)]
  split
  · rename_i a b' c d rest
    simp only [List.mem_cons, not_or] at hzero
    rw [if_neg (Ne.symm hzero.1), if_neg (Ne.symm hzero.2.1)]
  · rename_i a b'
    simp only [List.mem_cons, not_or] at hzero
    rw [if_neg (Ne.symm hzero.1), if_neg (Ne.symm hzero.2.1)]
  · rfl

/-- The UTF-8 form of a text without surrogates is decoded to it, and to nothing else. -/
lemma encodeUtf8?_iff {s : Str} {b : Bytes} :
    encodeUtf8? s = some b ↔ decodeUtf8? b = some s ∧ Scalar s := by
  rw [encodeUtf8?_eq_some, decodeUtf8?_eq_some]
  exact and_comm

/-- **The two decoders of JSON.** The service decodes the text that the reference detects in the
bytes, if it is one without surrogates and within the limits; but without a byte order mark it takes
no other encoding than UTF-8, in which such a text has no zero byte.

**Proof sketch.** By the mark, which both servers read alike; without one by
`decodeDetected?_unmarked`, as no character of a text is a zero. -/
theorem decode_eq_ok {b : Bytes} {v : Value} : decode b = .ok v ↔
    ∃ s, Json.decodeDetected? b = some s ∧ Scalar s ∧ Accepted v s ∧ (Unmarked b → 0 ∉ b) := by
  obtain ⟨hunmarked, hutf8, hutf16Little, hutf16Big, hutf32Little, hutf32Big, -⟩ := decode_exact
  by_cases hmark : Unmarked b
  · rw [hunmarked b v hmark]
    constructor
    · rintro ⟨s, hs, haccepted⟩
      have hzero : 0 ∉ b := by
        rw [(encodeUtf8?_eq_some.mp hs).2]
        exact zero_not_mem_bytesOf haccepted
      refine ⟨s, ?_, (encodeUtf8?_iff.mp hs).2, haccepted, fun _ => hzero⟩
      rw [decodeDetected?_unmarked hmark hzero]
      exact (encodeUtf8?_iff.mp hs).1
    · rintro ⟨s, hs, hscalar, haccepted, hzero⟩
      rw [decodeDetected?_unmarked hmark (hzero hmark)] at hs
      exact ⟨s, encodeUtf8?_iff.mpr ⟨hs, hscalar⟩, haccepted⟩
  · have hdetected : ∀ {x : Option Str}, Json.decodeDetected? b = x →
        (decode b = .ok v ↔ ∃ s, x = some s ∧ Scalar s ∧ Accepted v s) →
        (decode b = .ok v ↔ ∃ s, Json.decodeDetected? b = some s ∧ Scalar s ∧ Accepted v s ∧
          (Unmarked b → 0 ∉ b)) := by
      rintro x rfl h
      rw [h]
      refine exists_congr fun s => and_congr_right fun _ => and_congr_right fun _ => ?_
      exact ⟨fun h => ⟨h, fun hb => absurd hb hmark⟩, And.left⟩
    rcases not_unmarked_cases hmark with ⟨c, rfl⟩ | ⟨c, rfl⟩ | ⟨c, rfl⟩ | ⟨c, rfl⟩
    · refine hdetected (x := decodeUtf8? c) rfl ((hutf8 c v).trans ?_)
      simp only [encodeUtf8?_iff, and_assoc]
    · by_cases hzeros : [0, 0] <+: c
      · obtain ⟨c, rfl⟩ := hzeros
        exact hdetected (x := decodeUtf32? false c) rfl (hutf32Little c v)
      · refine hdetected (x := decodeUtf16? false c) ?_ (hutf16Little c v hzeros)
        have hlong : ([0xff, 0xfe, 0, 0] : Bytes).isPrefixOf ([0xff, 0xfe] ++ c) = false := by
          rw [← Bool.not_eq_true]
          intro h
          obtain ⟨rest, hrest⟩ := List.isPrefixOf_iff_prefix.mp h
          exact hzeros ⟨rest, (List.cons.inj (List.cons.inj hrest).2).2⟩
        unfold Json.decodeDetected?
        rw [hlong]
        rfl
    · exact hdetected (x := decodeUtf16? true c) rfl (hutf16Big c v)
    · exact hdetected (x := decodeUtf32? true c) rfl (hutf32Big c v)

/-! ### No text of an object is base64 -/

/-- The text of an object opens with a brace. -/
lemma nested_object {depth : ℕ} {node : Json.Node} {t : Str} {literal : Str → Str → Prop}
    (h : Nested rfcFinite literal depth node t) {d : Dict} (hnode : node = .value (.dict d)) :
    ∃ more, t = ch '\x7b' :: more := by
  cases h with
  | word h =>
    simp only [rfcFinite, Json.rfcWords, List.mem_cons, Prod.mk.injEq, List.not_mem_nil,
      or_false] at h
    cases hnode
    rcases h with ⟨-, h⟩ | ⟨-, h⟩ | ⟨-, h⟩ <;> cases h
  | number h hn =>
    rename_i n
    have hvalue : n.value = .dict d := by
      cases hv : n.value <;> rw [hv] at hnode <;> cases hnode
      rfl
    rw [Json.Numeral.value] at hvalue
    split_ifs at hvalue
  | emptyObject hb => exact ⟨_, rfl⟩
  | object h => exact ⟨_, rfl⟩
  | _ => cases hnode

/-- So an accepted text of one does, behind white space. -/
lemma Accepted.head {d : Dict} {s : Str} (h : Accepted (.dict d) s) :
    ∃ c more, s = c :: more ∧ (Json.isWs c = true ∨ c = ch '\x7b') := by
  obtain ⟨l, t, r, rfl, hl, ht, -⟩ := h
  cases l with
  | cons c l => exact ⟨c, _, rfl, Or.inl (hl c List.mem_cons_self)⟩
  | nil =>
    obtain ⟨more, rfl⟩ := nested_object ht rfl
    exact ⟨_, _, rfl, Or.inr rfl⟩

/-- A text that starts with a character of base64 is detected with that character in front. -/
lemma decodeDetected?_head {a : Byte} {n : ℕ} (ha : base64Value? a = some n) {rest : Bytes}
    {s : Str} (h : Json.decodeDetected? (a :: rest) = some s) :
    ∃ more, s = a.toCodePoint :: more := by
  have hrange : 0x2b ≤ a.val ∧ a.val < 0x80 := by
    rw [base64Value?] at ha
    split_ifs at ha <;> omega
  have hne : ∀ {b : Byte}, b.val = 0 ∨ 0x80 ≤ b.val → b ≠ a := by
    rintro b hb rfl
    omega
  have hpoint : codePoint? a.val = some a.toCodePoint := by
    rw [codePoint?, dif_pos (by have := a.isLt; omega)]
    rfl
  have hmark : ∀ {b : Byte} {m : Bytes}, b.val = 0 ∨ 0x80 ≤ b.val →
      ¬ ((b :: m).isPrefixOf (a :: rest) = true) := by
    intro b m hb hprefix
    obtain ⟨more, hmore⟩ := List.isPrefixOf_iff_prefix.mp hprefix
    exact hne hb (List.cons.inj hmore).1
  have hutf8 : ∀ {s : Str}, decodeUtf8? (a :: rest) = some s →
      ∃ more, s = a.toCodePoint :: more := by
    intro s hs
    rw [decodeUtf8?, utf8Loop, if_pos rfl, if_pos hrange.2] at hs
    obtain ⟨more, -, rfl⟩ := Option.map_eq_some_iff.mp hs
    exact ⟨more, rfl⟩
  have hutf16 : ∀ {s : Str} {r : Bytes}, decodeUtf16? false (a :: 0 :: r) = some s →
      ∃ more, s = a.toCodePoint :: more := by
    intro s r hs
    obtain ⟨units, hunits, hs⟩ := Option.bind_eq_some_iff.mp hs
    obtain ⟨more, -, rfl⟩ := Option.map_eq_some_iff.mp hunits
    have hunit : (if false = true then a.val * 0x100 + (0 : Byte).val
        else (0 : Byte).val * 0x100 + a.val) = a.val := by
      simp
    rw [hunit, joinUnits?, if_neg (by omega), hpoint, Option.bind_some] at hs
    obtain ⟨more, -, rfl⟩ := Option.map_eq_some_iff.mp hs
    exact ⟨more, rfl⟩
  unfold Json.decodeDetected? at h
  rw [if_neg (hmark (by decide)), if_neg (hmark (by decide)), if_neg (hmark (by decide)),
    if_neg (hmark (by decide)), if_neg (hmark (by decide))] at h
  have hzero : a ≠ 0 := (hne (b := 0) (Or.inl rfl)).symm
  split at h
  · rename_i a' b c d r heq
    obtain ⟨rfl, rfl⟩ := List.cons.inj heq
    rw [if_neg hzero] at h
    split_ifs at h with hb hcd
    · obtain ⟨rfl, rfl⟩ := hcd
      subst hb
      rw [decodeUtf32?] at h
      have hunit : (if false = true then
          ((a.val * 0x100 + (0 : Byte).val) * 0x100 + (0 : Byte).val) * 0x100 + (0 : Byte).val
          else (((0 : Byte).val * 0x100 + (0 : Byte).val) * 0x100 + (0 : Byte).val) * 0x100 +
            a.val) = a.val := by
        simp
      rw [hunit, hpoint, Option.bind_some] at h
      obtain ⟨more, -, rfl⟩ := Option.map_eq_some_iff.mp h
      exact ⟨more, rfl⟩
    · subst hb
      exact hutf16 h
    · exact hutf8 h
  · rename_i a' b heq
    obtain ⟨rfl, rfl⟩ := List.cons.inj heq
    rw [if_neg hzero] at h
    split_ifs at h with hb
    · subst hb
      exact hutf16 h
    · exact hutf8 h
  · exact hutf8 h

/-- A character of base64 is no white space and opens no container and no string. -/
lemma alphabet_spec {a : Byte} {n : ℕ} (ha : base64Value? a = some n) :
    Json.isWs a.toCodePoint = false ∧ a.toCodePoint ≠ ch '\x7b' ∧ a.toCodePoint ≠ ch '[' ∧
      a.toCodePoint ≠ ch '"' := by
  have hall : ∀ a : Byte, (base64Value? a).isSome = true → Json.isWs a.toCodePoint = false ∧
      a.toCodePoint ≠ ch '\x7b' ∧ a.toCodePoint ≠ ch '[' ∧ a.toCodePoint ≠ ch '"' := by
    decide +kernel
  exact hall a (by rw [ha]; rfl)

/-- Words and numbers are no objects. -/
lemma scanScalar_ne_object {s r : Str} {d : Dict} : Json.scanScalar s ≠ some (.dict d, r) := by
  have hnumber : ∀ {neg : Bool} {t : Str}, Json.scanNumber neg t ≠ some (.dict d, r) := by
    intro neg t h
    rw [Json.scanNumber] at h
    split at h
    · cases h
    · dsimp only at h
      split at h
      · split_ifs at h <;> cases h
      · cases h
  intro h
  unfold Json.scanScalar at h
  rcases Json.orElse_eq_some h with h | h
  · exact absurd (Json.scanWord_eq_some h) (by simp)
  rcases Json.orElse_eq_some h with h | h
  · exact absurd (Json.scanWord_eq_some h) (by simp)
  rcases Json.orElse_eq_some h with h | h
  · exact absurd (Json.scanWord_eq_some h) (by simp)
  rcases Json.orElse_eq_some h with h | h
  · exact absurd (Json.scanWord_eq_some h) (by simp)
  rcases Json.orElse_eq_some h with h | h
  · exact absurd (Json.scanWord_eq_some h) (by simp)
  rcases Json.orElse_eq_some h with h | h
  · exact absurd (Json.scanWord_eq_some h) (by simp)
  split at h
  · split_ifs at h <;> exact hnumber h
  · cases h

/-- The reference reads no object in bytes that start with a character of base64. -/
lemma loads_ne_object {a : Byte} {n : ℕ} (ha : base64Value? a = some n) {rest : Bytes} {d : Dict} :
    Json.loads (a :: rest) ≠ some (.dict d) := by
  intro h
  obtain ⟨s, hs, hparse⟩ := Option.bind_eq_some_iff.mp h
  obtain ⟨more, rfl⟩ := decodeDetected?_head ha hs
  obtain ⟨hws, hbrace, hbracket, hquote⟩ := alphabet_spec ha
  rw [Json.parseDocument, Json.skipWs_cons hws, Json.parseValue, if_neg hquote, if_neg hbrace,
    if_neg hbracket] at hparse
  split at hparse
  · cases hparse
  · rename_i v r hscan
    split_ifs at hparse
    obtain rfl := Option.some.inj hparse
    exact scanScalar_ne_object hscan

/-- Nor does the service. -/
lemma decode_ne_object {a : Byte} {n : ℕ} (ha : base64Value? a = some n) {rest : Bytes} {d : Dict} :
    decode (a :: rest) ≠ .ok (.dict d) := by
  intro h
  obtain ⟨s, hs, -, haccepted, -⟩ := decode_eq_ok.mp h
  obtain ⟨more, rfl⟩ := decodeDetected?_head ha hs
  obtain ⟨c, more', heq, hc⟩ := haccepted.head
  obtain ⟨rfl, -⟩ := List.cons.inj heq
  obtain ⟨hws, hbrace, -⟩ := alphabet_spec ha
  rcases hc with hc | hc
  · rw [hws] at hc
    cases hc
  · exact hbrace hc

/-! ### What the reference reads too -/

/-- No more digits in a row than `int()` reads. -/
def ShortRuns (t : Str) : Prop := ∀ ds : List ℕ, digitText ds <:+: t → ds.length ≤ maxIntDigits

/-- So it is within a text. -/
lemma ShortRuns.mono {t t' : Str} (h : ShortRuns t') (hin : t <:+: t') : ShortRuns t :=
  fun ds hds => h ds (hds.trans hin)

/-- So it is in a short text. -/
lemma ShortRuns.of_length {t : Str} (h : t.length ≤ maxIntDigits) : ShortRuns t := by
  intro ds hds
  have hle := hds.length_le
  rw [digitText, List.length_map] at hle
  exact hle.trans h

/-- **A text within the limits and with short runs is one of the reference.**

**Proof sketch.** By induction on the derivation; every number stands in the text as it is. -/
lemma denotes_of_nested {depth : ℕ} {node : Json.Node} {t : Str}
    (h : Nested rfcFinite PairedLiteral depth node t) (hshort : ShortRuns t) :
    Denotes cpython node t := by
  induction h with
  | word h => exact .word (List.mem_append_left _ h)
  | number h hn =>
    rename_i n
    refine .number h fun _ _ => hshort _ ⟨if n.neg then [ch '-'] else [], n.tailText, ?_⟩
    rw [Json.Numeral.text, List.append_assoc]
  | string h => exact .string h.literal
  | emptyArray hb => exact .emptyArray hb
  | array _ ih => exact .array (ih (hshort.mono ⟨[ch '['], [ch ']'], by simp⟩))
  | emptyObject hb => exact .emptyObject hb
  | object _ ih => exact .object (ih (hshort.mono ⟨[ch '\x7b'], [ch '\x7d'], by simp⟩))
  | @element _ _ l t r hl _ hr ih => exact .element hl (ih (hshort.mono ⟨l, r, by simp⟩)) hr
  | @elements _ _ _ l t r rest hl _ hr _ ih ihrest =>
    exact .elements hl (ih (hshort.mono ⟨l, r ++ ch ',' :: rest, by simp⟩)) hr
      (ihrest (hshort.mono ⟨l ++ t ++ r ++ [ch ','], [], by simp⟩))
  | @member _ _ _ l kt m n t r hl hk hm hn _ hr ih =>
    exact .member hl hk.literal hm hn
      (ih (hshort.mono ⟨l ++ kt ++ m ++ [ch ':'] ++ n, r, by simp⟩)) hr
  | @members _ _ _ _ l kt m n t r rest hl hk hm hn _ hr _ ih ihrest =>
    exact .members hl hk.literal hm hn
      (ih (hshort.mono ⟨l ++ kt ++ m ++ [ch ':'] ++ n, r ++ ch ',' :: rest, by simp⟩)) hr
      (ihrest (hshort.mono ⟨l ++ kt ++ m ++ [ch ':'] ++ n ++ t ++ r ++ [ch ','], [], by simp⟩))

/-- So is an accepted text, which is parsed as its value. -/
lemma Accepted.parsed {v : Value} {s : Str} (h : Accepted v s) (hshort : ShortRuns s) :
    Json.parseDocument s = some v := by
  obtain ⟨l, t, r, rfl, hl, ht, hr⟩ := h
  exact Json.parseDocument_of_document
    ⟨l, t, r, rfl, hl, denotes_of_nested ht (hshort.mono ⟨l, r, by simp⟩), hr⟩

end JSON

/-! ### Payloads -/

namespace Payload

/-- The bytes in which the reference finds an object: those that base64 stands for, or the payload
itself. -/
def carried (raw : Bytes) : Bytes := (b64decode? raw).getD raw

/-- **A payload without the liberties of the reference**: padding in the last group only, no UTF-16
and no UTF-32 without a mark, no surrogate outside a pair, and a text of RFC 8259 within the bound
of the nesting and without numbers that overflow. -/
structure Portable (raw : Bytes) (items : Dict) : Prop where
  padding : ∀ b, b64decode? raw = some b → raw.length = 4 * ((b.length + 2) / 3)
  encoding : JSON.Unmarked (carried raw) → 0 ∉ carried raw
  text : ∃ s, Json.decodeDetected? (carried raw) = some s ∧ JSON.Scalar s ∧
    JSON.Accepted (.dict items) s

/-- A decoded document has the value that is decoded. -/
lemma decodeTerm_eq_ok {b : Bytes} {term : Term} :
    JSON.decodeTerm b = .ok term ↔ JSON.decode b = .ok term.value := by
  unfold JSON.decodeTerm
  split
  · rename_i v heq
    obtain ⟨value, hformed, hfinite⟩ := term
    simp [heq]
  · rename_i reason heq
    simp [heq]

/-- What is refused as a document has no value. -/
lemma decode_ne_ok {b : Bytes} {reason : JSON.ErrorReason}
    (h : JSON.decodeTerm b = .error reason) (v : Value) : JSON.decode b ≠ .ok v := by
  intro hv
  have hspec := JSON.decode_spec hv
  have hterm : JSON.decodeTerm b = .ok ⟨v, hspec.wellFormed, hspec.finite⟩ :=
    decodeTerm_eq_ok.mpr hv
  rw [h] at hterm
  cases hterm

/-- The document of a payload is an object. -/
lemma object_eq_ok {term : Term} {items : Dict} :
    (∃ o, object term = .ok o ∧ o.items = items) ↔ term.value = .dict items := by
  obtain ⟨value, hformed, hfinite⟩ := term
  constructor
  · rintro ⟨o, ho, rfl⟩
    unfold object at ho
    split at ho
    · rename_i o' hobject
      obtain rfl := Except.ok.inj ho
      exact Term.value_of_object? hobject
    · cases ho
  · rintro rfl
    exact ⟨⟨items, hformed, hfinite⟩, rfl, rfl⟩

/-- The text itself is read. -/
lemma decodeRaw_eq_ok {raw : Bytes} {items : Dict} :
    (∃ o, decodeRaw raw = .ok o ∧ o.items = items) ↔ JSON.decode raw = .ok (.dict items) := by
  unfold decodeRaw
  split
  · rename_i term hterm
    rw [object_eq_ok, decodeTerm_eq_ok.mp hterm, Except.ok.injEq]
  · rename_i reason hreason
    exact iff_of_false (by simp) (decode_ne_ok hreason _)

/-- What base64 decodes starts with a character of its alphabet. -/
lemma head_of_b64decode? {raw b : Bytes} (h : b64decode? raw = some b) :
    raw = [] ∨ ∃ a rest n, raw = a :: rest ∧ base64Value? a = some n := by
  cases raw with
  | nil => exact Or.inl rfl
  | cons a rest =>
    refine Or.inr ⟨a, rest, ?_⟩
    cases ha : base64Value? a with
    | some n => exact ⟨n, rfl, rfl⟩
    | none =>
      exfalso
      by_cases hpad : a = padByte
      · rw [b64decode?, if_pos (by rw [hpad]; rfl)] at h
        cases h
      · rw [b64decode?_of_head rest hpad ha] at h
        cases h

/-- No text of base64 is read as an object by the service. -/
lemma decode_ne_of_b64decode? {raw b : Bytes} (h : b64decode? raw = some b) (items : Dict) :
    JSON.decode raw ≠ .ok (.dict items) := by
  rcases head_of_b64decode? h with rfl | ⟨a, rest, n, rfl, ha⟩
  · intro hdecode
    cases hdecode
  · exact JSON.decode_ne_object ha

/-- Nor by the reference. -/
lemma loads_ne_of_b64decode? {raw b : Bytes} (h : b64decode? raw = some b) (items : Dict) :
    Json.loads raw ≠ some (.dict items) := by
  rcases head_of_b64decode? h with rfl | ⟨a, rest, n, rfl, ha⟩
  · intro hloads
    cases hloads
  · exact JSON.loads_ne_object ha

/-- **The service reads an object in base64 or in the text itself, never in both.** -/
lemma decode_eq_ok {raw : Bytes} {items : Dict} :
    (∃ o, decode raw = .ok o ∧ o.items = items) ↔
      (∀ b, b64decode? raw = some b → raw.length = 4 * ((b.length + 2) / 3)) ∧
        JSON.decode (carried raw) = .ok (.dict items) := by
  unfold decode carried
  cases hstrict : strictBase64 raw with
  | some decoded =>
    obtain ⟨hdecoded, hlength⟩ := strictBase64_eq_some.mp hstrict
    have hpadding : ∀ b, b64decode? raw = some b → raw.length = 4 * ((b.length + 2) / 3) := by
      intro b hb
      rw [hdecoded] at hb
      obtain rfl := Option.some.inj hb
      exact hlength
    rw [and_iff_right hpadding, hdecoded, Option.getD_some]
    dsimp only
    split
    · rename_i term hterm
      rw [object_eq_ok, decodeTerm_eq_ok.mp hterm, Except.ok.injEq]
    · rename_i reason hreason
      rw [decodeRaw_eq_ok]
      exact iff_of_false (decode_ne_of_b64decode? hdecoded items) (decode_ne_ok hreason _)
  | none =>
    dsimp only
    rw [decodeRaw_eq_ok]
    cases hdecoded : b64decode? raw with
    | none => simp
    | some b =>
      refine iff_of_false (decode_ne_of_b64decode? hdecoded items) ?_
      rintro ⟨hpadding, -⟩
      rw [strictBase64_eq_some.mpr ⟨hdecoded, hpadding b rfl⟩] at hstrict
      cases hstrict

/-- The reference reads it in the bytes that are carried. -/
lemma decodeValue_eq_some {raw : Bytes} {items : Dict} :
    decodeValue raw = some (.dict items) ↔ Json.loads (carried raw) = some (.dict items) := by
  unfold decodeValue carried
  cases hdecoded : b64decode? raw with
  | none => rfl
  | some b =>
    rw [Option.bind_some, Option.getD_some]
    cases hloads : Json.loads b with
    | some v => rfl
    | none =>
      rw [Option.orElse_none]
      exact iff_of_false (loads_ne_of_b64decode? hdecoded items) (by simp)

/-- What is portable is what the service reads. -/
lemma portable_iff {raw : Bytes} {items : Dict} :
    (∃ o, decode raw = .ok o ∧ o.items = items) ↔ Portable raw items := by
  rw [decode_eq_ok, JSON.decode_eq_ok]
  constructor
  · rintro ⟨hpadding, s, hs, hscalar, haccepted, hzero⟩
    exact ⟨hpadding, hzero, s, hs, hscalar, haccepted⟩
  · rintro ⟨hpadding, hzero, s, hs, hscalar, haccepted⟩
    exact ⟨hpadding, s, hs, hscalar, haccepted, hzero⟩

/-- **The two servers agree on payloads.** Where no run of digits is longer than `int()` reads, the
service decodes a payload to an object exactly when the reference decodes it to this object and the
payload takes none of the liberties of the reference.

**Proof sketch.** Bytes of base64 are no text of an object on either side, so both take the same
bytes; of these the service accepts what the reference detects, within the limits. -/
theorem decode_agrees {env : Env} {raw : Bytes} {items : Dict}
    (hdigits : ∀ s, Json.decodeDetected? (carried raw) = some s → JSON.ShortRuns s) :
    (∃ o, decode raw = .ok o ∧ o.items = items) ↔
      (∃ p, decodePayload env raw = .ok p ∧ p.items = items) ∧ Portable raw items := by
  rw [portable_iff, iff_and_self]
  intro h
  obtain ⟨s, hs, -, haccepted⟩ := h.text
  refine decodePayload_eq_ok (decodeValue_eq_some.mpr ?_)
  rw [Json.loads, hs, Option.bind_some]
  exact haccepted.parsed (hdigits s hs)

namespace Sample

/-- The text of a small object in base64. -/
def raw : Bytes := b64encode (Bytes.ofString "\x7b\"id\":\"c1\"\x7d")

end Sample

/-- A payload in base64. -/
theorem decode_agrees_sample : ∃ items,
    (∃ p, decodePayload VitrialSync.Sample.env Sample.raw = .ok p ∧ p.items = items) ∧
      Portable Sample.raw items := by
  have hdecode : (decode Sample.raw).toOption.isSome = true := by
    decide +kernel
  have hlength : ((Json.decodeDetected? (carried Sample.raw)).all fun s =>
      decide (s.length ≤ maxIntDigits)) = true := by
    decide +kernel
  cases hresult : decode Sample.raw with
  | error reason =>
    rw [hresult] at hdecode
    cases hdecode
  | ok o =>
    refine ⟨o.items, (decode_agrees fun s hs => ?_).mp ⟨o, hresult, rfl⟩⟩
    rw [hs] at hlength
    exact .of_length (of_decide_eq_true hlength)

end Payload

end VitrialSync.Beam
