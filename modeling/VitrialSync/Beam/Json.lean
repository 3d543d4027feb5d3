import VitrialSync.Beam.Terms
import VitrialSync.Python.Codec

set_option relaxedAutoImplicit false
set_option autoImplicit false

/-!
# The JSON decoder of the BEAM service

`VitrialSync.JSON.decode/1`, a recursive descent over bytes: the marks of UTF-8, UTF-16 and UTF-32
are recognized, strings are read code point by code point, a number with a fraction or an exponent
is a float and has to be finite, and the last value of a repeated key wins. `VitrialSync.Payload`
decodes the payload of a record with it, after an attempt at base64.

The functions that recur into each other have a step budget. `decode` gives them two steps for every
byte and two more: of two calls in a row at least one reads a byte.

## Main definitions

* `VitrialSync.Beam.JSON.decode` — `decode/1`.
* `VitrialSync.Beam.Payload.decode` — `VitrialSync.Payload.decode/1`.

## Main results

* `VitrialSync.Beam.JSON.decode_spec` — what is decoded has distinct keys and finite numbers.
-/

namespace VitrialSync.Beam

open Python Program

namespace JSON

/-- `error_reason`. -/
inductive ErrorReason where
  | empty
  | unexpectedEnd
  | unexpectedByte
  | invalidEscape
  | invalidUnicodeEscape
  | unpairedSurrogate
  | controlCharacterInString
  | invalidNumber
  | invalidEncoding
  | tooDeep
  | trailingData
  deriving DecidableEq

/-- `@max_depth`. -/
def maxDepth : ℕ := 1000

/-! ### Encoding detection -/

/-- `transcode/3` of decoded units: a lone surrogate has no UTF-8 form. -/
def transcode (decoded : Option Str) : Except ErrorReason Bytes :=
  match decoded.bind encodeUtf8? with
  | some utf8 => .ok utf8
  | none => .error .invalidEncoding

/-- `strip_bom/1`. -/
def stripBom (b : Bytes) : Except ErrorReason Bytes :=
  if [0xef, 0xbb, 0xbf].isPrefixOf b then .ok (b.drop 3)
  else if [0xff, 0xfe, 0, 0].isPrefixOf b then transcode (decodeUtf32? false (b.drop 4))
  else if [0, 0, 0xfe, 0xff].isPrefixOf b then transcode (decodeUtf32? true (b.drop 4))
  else if [0xff, 0xfe].isPrefixOf b then transcode (decodeUtf16? false (b.drop 2))
  else if [0xfe, 0xff].isPrefixOf b then transcode (decodeUtf16? true (b.drop 2))
  else .ok b

/-! ### Tokens -/

/-- `skip_whitespace/1`. -/
def skipWhitespace (b : Bytes) : Bytes :=
  b.dropWhile fun c => c == 0x20 || c == 0x9 || c == 0xa || c == 0xd

/-- The bits of a continuation byte added to those before it. -/
def continued? (bits : ℕ) (b : Byte) : Option ℕ :=
  if isTail b then some (bits * 0x40 + (b.val - 0x80)) else none

/-- The pattern `<<char::utf8, rest::binary>>`: neither overlong forms nor surrogates match. -/
def takeUtf8? : Bytes → Option (CodePoint × Bytes)
  | [] => none
  | a :: rest =>
    if a.val < 0x80 then some (a.toCodePoint, rest)
    else if 0xc2 ≤ a.val ∧ a.val < 0xe0 then
      match rest with
      | b :: rest => do
        let n ← continued? (a.val - 0xc0) b
        let char ← codePoint? n
        return (char, rest)
      | _ => none
    else if 0xe0 ≤ a.val ∧ a.val < 0xf0 then
      match rest with
      | b :: c :: rest => do
        let n ← continued? (a.val - 0xe0) b
        let n ← continued? n c
        let char ← codePoint? n
        if n < 0x800 ∨ char.isSurrogate then none else some (char, rest)
      | _ => none
    else if 0xf0 ≤ a.val ∧ a.val < 0xf5 then
      match rest with
      | b :: c :: d :: rest => do
        let n ← continued? (a.val - 0xf0) b
        let n ← continued? n c
        let n ← continued? n d
        let char ← codePoint? n
        if n < 0x10000 then none else some (char, rest)
      | _ => none
    else none

/-- `hex_digit/1`. -/
def hexDigit? (b : Byte) : Option ℕ :=
  let n := b.val
  if 0x30 ≤ n ∧ n ≤ 0x39 then some (n - 0x30)
  else if 0x61 ≤ n ∧ n ≤ 0x66 then some (n - 0x61 + 10)
  else if 0x41 ≤ n ∧ n ≤ 0x46 then some (n - 0x41 + 10)
  else none

/-- `hex_quad/4`. -/
def hexQuad? (a b c d : Byte) : Option ℕ := do
  let ha ← hexDigit? a
  let hb ← hexDigit? b
  let hc ← hexDigit? c
  let hd ← hexDigit? d
  return ha * 4096 + hb * 256 + hc * 16 + hd

/-- `parse_low_surrogate/3`: the code point of the pair. -/
def parseLowSurrogate (high : ℕ) : Bytes → Except ErrorReason (CodePoint × Bytes)
  | 0x5c :: 0x75 :: a :: b :: c :: d :: rest =>
    match hexQuad? a b c d with
    | some low =>
      if 0xdc00 ≤ low ∧ low ≤ 0xdfff then
        match codePoint? (0x10000 + (high - 0xd800) * 0x400 + (low - 0xdc00)) with
        | some char => .ok (char, rest)
        | none => .error .unpairedSurrogate
      else .error .unpairedSurrogate
    | none => .error .unpairedSurrogate
  | _ => .error .unpairedSurrogate

/-- `parse_unicode_escape/2`. -/
def parseUnicodeEscape : Bytes → Except ErrorReason (CodePoint × Bytes)
  | [] => .error .unexpectedEnd
  | a :: b :: c :: d :: rest =>
    match hexQuad? a b c d with
    | none => .error .invalidUnicodeEscape
    | some n =>
      if 0xd800 ≤ n ∧ n ≤ 0xdbff then parseLowSurrogate n rest
      else if 0xdc00 ≤ n ∧ n ≤ 0xdfff then .error .unpairedSurrogate
      else
        match codePoint? n with
        | some char => .ok (char, rest)
        | none => .error .invalidUnicodeEscape
  | _ => .error .invalidUnicodeEscape

/-- `parse_escape/2`: the character of an escape. -/
def parseEscape : Bytes → Except ErrorReason (CodePoint × Bytes)
  | [] => .error .unexpectedEnd
  | c :: rest =>
    if c = 0x22 then .ok (0x22, rest)
    else if c = 0x5c then .ok (0x5c, rest)
    else if c = 0x2f then .ok (0x2f, rest)
    else if c = 0x62 then .ok (0x08, rest)
    else if c = 0x66 then .ok (0x0c, rest)
    else if c = 0x6e then .ok (0x0a, rest)
    else if c = 0x72 then .ok (0x0d, rest)
    else if c = 0x74 then .ok (0x09, rest)
    else if c = 0x75 then parseUnicodeEscape rest
    else .error .invalidEscape

/-- `parse_string/2`; the accumulator holds the last character first. -/
def parseString : ℕ → Bytes → Str → Except ErrorReason (Str × Bytes)
  | 0, _, _ => .error .unexpectedEnd
  | _ + 1, [], _ => .error .unexpectedEnd
  | fuel + 1, c :: rest, acc =>
    if c = 0x22 then .ok (acc.reverse, rest)
    else if c = 0x5c then do
      let (char, rest) ← parseEscape rest
      parseString fuel rest (char :: acc)
    else if c.val < 0x20 then .error .controlCharacterInString
    else
      match takeUtf8? (c :: rest) with
      | some (char, rest) => parseString fuel rest (char :: acc)
      | none => .error .invalidEncoding

/-- `take_digits/2`, by value. -/
def takeDigits : Bytes → List ℕ × Bytes
  | [] => ([], [])
  | c :: rest =>
    if 0x30 ≤ c.val ∧ c.val ≤ 0x39 then
      let (digits, more) := takeDigits rest
      ((c.val - 0x30) :: digits, more)
    else ([], c :: rest)

/-- A number as it is written. -/
structure Literal where
  neg : Bool
  whole : List ℕ
  fraction : List ℕ
  exponent : Option ℤ

/-- `finish_number/2`: `Float.parse/1` refuses what overflows. -/
def finishNumber (literal : Literal) (rest : Bytes) : Except ErrorReason (Value × Bytes) :=
  if literal.fraction.isEmpty && literal.exponent.isNone then
    let n : ℤ := ofDigits literal.whole
    .ok (.int (if literal.neg then -n else n), rest)
  else
    let e := literal.exponent.getD 0 - literal.fraction.length
    let q := ofDigits (literal.whole ++ literal.fraction) * Binary64.pow10 e
    let x := Binary64.ofRat literal.neg (if literal.neg then -q else q)
    if x.isFinite then .ok (.float x, rest) else .error .invalidNumber

/-- `parse_exponent/2`. -/
def parseExponent (literal : Literal) (b : Bytes) : Except ErrorReason (Value × Bytes) :=
  match b with
  | [] => finishNumber literal []
  | marker :: rest =>
    if marker = 0x65 ∨ marker = 0x45 then
      let (neg, rest) : Bool × Bytes :=
        match rest with
        | 0x2b :: more => (false, more)
        | 0x2d :: more => (true, more)
        | _ => (false, rest)
      let (digits, rest) := takeDigits rest
      if digits.isEmpty then .error .invalidNumber
      else
        let n : ℤ := ofDigits digits
        finishNumber { literal with exponent := some (if neg then -n else n) } rest
    else finishNumber literal b

/-- `parse_number_tail/2`. -/
def parseNumberTail (neg : Bool) (whole : List ℕ) (b : Bytes) :
    Except ErrorReason (Value × Bytes) :=
  match b with
  | 0x2e :: rest =>
    let (fraction, more) := takeDigits rest
    if fraction.isEmpty then .error .invalidNumber
    else parseExponent ⟨neg, whole, fraction, none⟩ more
  | _ => parseExponent ⟨neg, whole, [], none⟩ b

/-- `parse_number/1`. -/
def parseNumber (b : Bytes) : Except ErrorReason (Value × Bytes) :=
  let (neg, rest) : Bool × Bytes :=
    match b with
    | 0x2d :: more => (true, more)
    | _ => (false, b)
  match rest with
  | [] => .error .unexpectedEnd
  | c :: more =>
    if c = 0x30 then parseNumberTail neg [0] more
    else if 0x31 ≤ c.val ∧ c.val ≤ 0x39 then
      let (digits, more) := takeDigits rest
      parseNumberTail neg digits more
    else .error .invalidNumber

/-! ### Values -/

/-- The clauses of `parse_value_here/2` for what is neither an object nor an array. -/
def parseScalar (b : Bytes) : Except ErrorReason (Value × Bytes) :=
  if (Bytes.ofString "true").isPrefixOf b then .ok (.bool true, b.drop 4)
  else if (Bytes.ofString "false").isPrefixOf b then .ok (.bool false, b.drop 5)
  else if (Bytes.ofString "null").isPrefixOf b then .ok (.none, b.drop 4)
  else
    match b with
    | [] => .error .unexpectedEnd
    | c :: rest =>
      if c = 0x22 then do
        let (text, rest) ← parseString (rest.length + 1) rest []
        return (.str text, rest)
      else if c = 0x2d ∨ (0x30 ≤ c.val ∧ c.val ≤ 0x39) then parseNumber b
      else .error .unexpectedByte

/-- `parse_key/1`. -/
def parseKey (b : Bytes) : Except ErrorReason (Str × Bytes) :=
  match skipWhitespace b with
  | [] => .error .unexpectedEnd
  | c :: rest => if c = 0x22 then parseString (rest.length + 1) rest [] else .error .unexpectedByte

/-- `expect/2`. -/
def expect (b : Bytes) (expected : Byte) : Except ErrorReason Bytes :=
  match b with
  | [] => .error .unexpectedEnd
  | c :: rest => if c = expected then .ok rest else .error .unexpectedByte

mutual

/-- `parse_value/2`. -/
def parseValue : ℕ → Bytes → ℕ → Except ErrorReason (Value × Bytes)
  | 0, _, _ => .error .unexpectedEnd
  | fuel + 1, b, depth =>
    match skipWhitespace b with
    | [] => .error .unexpectedEnd
    | c :: rest =>
      if c = 0x7b then
        -- `enter_object/3`
        if maxDepth < depth then .error .tooDeep
        else
          match skipWhitespace rest with
          | 0x7d :: rest => .ok (.dict [], rest)
          | skipped => parseObjectMember fuel skipped depth []
      else if c = 0x5b then
        -- `enter_array/3`
        if maxDepth < depth then .error .tooDeep
        else
          match skipWhitespace rest with
          | 0x5d :: rest => .ok (.list [], rest)
          | skipped => parseArrayElement fuel skipped depth []
      else parseScalar (c :: rest)

/-- `parse_object_member/3`. -/
def parseObjectMember : ℕ → Bytes → ℕ → Dict → Except ErrorReason (Value × Bytes)
  | 0, _, _, _ => .error .unexpectedEnd
  | fuel + 1, b, depth, acc => do
    let (key, afterKey) ← parseKey b
    let afterColon ← expect (skipWhitespace afterKey) 0x3a
    let (value, rest) ← parseValue fuel afterColon (depth + 1)
    match skipWhitespace rest with
    | [] => .error .unexpectedEnd
    | c :: more =>
      if c = 0x2c then parseObjectMember fuel more depth (acc.set key value)
      else if c = 0x7d then .ok (.dict (acc.set key value), more)
      else .error .unexpectedByte

/-- `parse_array_element/3`; the accumulator holds the last element first. -/
def parseArrayElement : ℕ → Bytes → ℕ → List Value → Except ErrorReason (Value × Bytes)
  | 0, _, _, _ => .error .unexpectedEnd
  | fuel + 1, b, depth, acc => do
    let (value, rest) ← parseValue fuel b (depth + 1)
    match skipWhitespace rest with
    | [] => .error .unexpectedEnd
    | c :: more =>
      if c = 0x2c then parseArrayElement fuel more depth (value :: acc)
      else if c = 0x5d then .ok (.list (value :: acc).reverse, more)
      else .error .unexpectedByte

end

/-- `decode/1`. -/
def decode (b : Bytes) : Except ErrorReason Value := do
  let body ← stripBom b
  match skipWhitespace body with
  | [] => .error .empty
  | c :: rest => do
    let (value, trailing) ← parseValue (2 * rest.length + 4) (c :: rest) 0
    match skipWhitespace trailing with
    | [] => .ok value
    | _ => .error .trailingData

/-! ### What is decoded -/

/-- A value that a term may hold. -/
structure IsTerm (v : Value) : Prop where
  wellFormed : v.WellFormed
  finite : Json.AllFinite v

/-- The empty object. -/
lemma IsTerm.empty : IsTerm (.dict []) :=
  ⟨.empty, fun _ hx => absurd hx List.not_mem_nil⟩

/-- A value without members and without numbers. -/
lemma IsTerm.word {v : Value} (hw : v.WellFormed) (hv : ∀ x, .float x ∉ v.leaves) : IsTerm v :=
  ⟨hw, fun x hx => absurd hx (hv x)⟩

/-- An object after an assignment. -/
lemma IsTerm.set {d : Dict} (h : IsTerm (.dict d)) (k : Str) {v : Value} (hv : IsTerm v) :
    IsTerm (.dict (d.set k v)) := by
  refine ⟨h.wellFormed.set k hv.wellFormed, fun x hx => ?_⟩
  rw [Value.leaves, Value.mem_leavesOfItems] at hx
  obtain ⟨e, he, hleaf⟩ := hx
  rcases mem_assign he with rfl | hmem
  · exact hv.finite x hleaf
  · exact h.finite x (by rw [Value.leaves, Value.mem_leavesOfItems]; exact ⟨e, hmem, hleaf⟩)

/-- A list of terms. -/
lemma IsTerm.list {xs : List Value} (h : ∀ x ∈ xs, IsTerm x) : IsTerm (.list xs) := by
  refine ⟨(Value.wellFormedList_iff _).mpr fun x hx => (h x hx).wellFormed, fun x hx => ?_⟩
  rw [Value.leaves, Value.mem_leavesOfList] at hx
  obtain ⟨y, hy, hleaf⟩ := hx
  exact (h y hy).finite x hleaf

/-- A number that is read is finite. -/
lemma finishNumber_isTerm {literal : Literal} {b rest : Bytes} {v : Value}
    (h : finishNumber literal b = .ok (v, rest)) : IsTerm v := by
  unfold finishNumber at h
  dsimp only at h
  by_cases hint : (literal.fraction.isEmpty && literal.exponent.isNone) = true
  · rw [if_pos hint] at h
    cases h
    exact .word trivial fun x hx => by cases List.mem_singleton.mp hx
  · rw [if_neg hint] at h
    generalize Binary64.ofRat _ _ = x at h
    by_cases hfinite : x.isFinite = true
    · rw [if_pos hfinite] at h
      cases h
      refine ⟨trivial, fun y hy => ?_⟩
      rw [Value.float.inj (List.mem_singleton.mp hy)]
      exact hfinite
    · simp [hfinite] at h

/-- A number with its exponent. -/
lemma parseExponent_isTerm {literal : Literal} {b rest : Bytes} {v : Value}
    (h : parseExponent literal b = .ok (v, rest)) : IsTerm v := by
  unfold parseExponent at h
  split at h
  · exact finishNumber_isTerm h
  · dsimp only at h
    split_ifs at h <;> exact finishNumber_isTerm h

/-- A number after its whole part. -/
lemma parseNumberTail_isTerm {neg : Bool} {whole : List ℕ} {b rest : Bytes} {v : Value}
    (h : parseNumberTail neg whole b = .ok (v, rest)) : IsTerm v := by
  unfold parseNumberTail at h
  split at h
  · dsimp only at h
    split_ifs at h
    exact parseExponent_isTerm h
  · exact parseExponent_isTerm h

/-- A number. -/
lemma parseNumber_isTerm {b rest : Bytes} {v : Value} (h : parseNumber b = .ok (v, rest)) :
    IsTerm v := by
  unfold parseNumber at h
  dsimp only at h
  split at h
  · cases h
  · split_ifs at h <;> exact parseNumberTail_isTerm h

/-- A scalar. -/
lemma parseScalar_isTerm {b rest : Bytes} {v : Value} (h : parseScalar b = .ok (v, rest)) :
    IsTerm v := by
  unfold parseScalar at h
  split_ifs at h
  · cases h
    exact .word trivial fun x hx => by cases List.mem_singleton.mp hx
  · cases h
    exact .word trivial fun x hx => by cases List.mem_singleton.mp hx
  · cases h
    exact .word trivial fun x hx => by cases List.mem_singleton.mp hx
  · split at h
    · cases h
    · split_ifs at h
      · obtain ⟨⟨text, r⟩, -, hr⟩ := bind_eq_ok.mp h
        cases hr
        exact .word trivial fun x hx => absurd hx List.not_mem_nil
      · exact parseNumber_isTerm h

/-- The three mutually recursive parsers return terms.

**Proof sketch.** Induction on the step budget. An object is built by assignments to the empty
one, an array holds values that were read with a smaller budget. -/
lemma parse_isTerm (fuel : ℕ) :
    (∀ b depth v rest, parseValue fuel b depth = .ok (v, rest) → IsTerm v) ∧
    (∀ b depth acc v rest, IsTerm (.dict acc) →
      parseObjectMember fuel b depth acc = .ok (v, rest) → IsTerm v) ∧
    (∀ b depth acc v rest, (∀ x ∈ acc, IsTerm x) →
      parseArrayElement fuel b depth acc = .ok (v, rest) → IsTerm v) := by
  induction fuel with
  | zero => simp [parseValue, parseObjectMember, parseArrayElement]
  | succ fuel ih =>
    obtain ⟨ihValue, ihMember, ihElement⟩ := ih
    refine ⟨fun b depth v rest h => ?_, fun b depth acc v rest hacc h => ?_,
      fun b depth acc v rest hacc h => ?_⟩
    · simp only [parseValue] at h
      split at h
      · cases h
      · split_ifs at h
        · split at h
          · cases h
            exact .empty
          · exact ihMember _ _ _ _ _ .empty h
        · split at h
          · cases h
            exact .list (by simp)
          · exact ihElement _ _ _ _ _ (by simp) h
        · exact parseScalar_isTerm h
    · simp only [parseObjectMember, bind_eq_ok] at h
      obtain ⟨⟨key, afterKey⟩, -, afterColon, -, ⟨value, r⟩, hvalue, h⟩ := h
      have hset := hacc.set key (ihValue _ _ _ _ hvalue)
      split at h
      · cases h
      · split_ifs at h
        · exact ihMember _ _ _ _ _ hset h
        · cases h
          exact hset
    · simp only [parseArrayElement, bind_eq_ok] at h
      obtain ⟨⟨value, r⟩, hvalue, h⟩ := h
      have hcons := List.forall_mem_cons.mpr ⟨ihValue _ _ _ _ hvalue, hacc⟩
      split at h
      · cases h
      · split_ifs at h
        · exact ihElement _ _ _ _ _ hcons h
        · cases h
          exact .list fun x hx => hcons x (List.mem_reverse.mp hx)

/-- What is decoded has distinct keys and finite numbers. -/
theorem decode_spec {b : Bytes} {v : Value} (h : decode b = .ok v) : IsTerm v := by
  unfold decode at h
  obtain ⟨body, -, h⟩ := bind_eq_ok.mp h
  split at h
  · cases h
  · obtain ⟨⟨value, trailing⟩, hvalue, h⟩ := bind_eq_ok.mp h
    have hterm := (parse_isTerm _).1 _ _ _ _ hvalue
    cases hblank : skipWhitespace trailing with
    | nil =>
      simp only [hblank, Except.ok.injEq] at h
      exact h ▸ hterm
    | cons c r => simp [hblank] at h

/-- `decode/1`, with the term. -/
def decodeTerm (b : Bytes) : Except ErrorReason Term :=
  match h : decode b with
  | .ok v => .ok ⟨v, (decode_spec h).wellFormed, (decode_spec h).finite⟩
  | .error reason => .error reason

end JSON

namespace Payload

/-- The reasons of `VitrialSync.Payload.decode/1`. -/
inductive DecodeError where
  | notAJsonObject
  | json (reason : JSON.ErrorReason)
  deriving DecidableEq

/-- `base64_shape?/1`: at most two padding characters, at the end. -/
def base64Shape : Bytes → Bool
  | [] => true
  | c :: rest =>
    if (base64Value? c).isSome then base64Shape rest
    else c == padByte && (rest.isEmpty || rest == [padByte])

/-- `Base.decode64/1` of a text in the shape, in groups of four. -/
def decode64 : Bytes → Option Bytes
  | [] => some []
  | a :: b :: c :: d :: rest => do
    let a ← base64Value? a
    let b ← base64Value? b
    let first := byte (a * 4 + b / 16)
    if c = padByte then return [first]
    else
      let c ← base64Value? c
      let second := byte (b % 16 * 16 + c / 4)
      if d = padByte then return [first, second]
      else
        let d ← base64Value? d
        let more ← decode64 rest
        return first :: second :: byte (c % 4 * 64 + d) :: more
  | _ => none

/-- `strict_base64/1`. -/
def strictBase64 (raw : Bytes) : Option Bytes :=
  if base64Shape raw && raw.length % 4 == 0 then decode64 raw else none

/-- A decoded document as the payload of a record. -/
def object (term : Term) : Except DecodeError Object :=
  match term.object? with
  | some o => .ok o
  | none => .error .notAJsonObject

/-- `decode_raw/1`. -/
def decodeRaw (raw : Bytes) : Except DecodeError Object :=
  match JSON.decodeTerm raw with
  | .ok term => object term
  | .error reason => .error (.json reason)

/-- `VitrialSync.Payload.decode/1`: the text itself is tried when base64 does not give JSON. -/
def decode (raw : Bytes) : Except DecodeError Object :=
  match strictBase64 raw with
  | some decoded =>
    match JSON.decodeTerm decoded with
    | .ok term => object term
    | .error _ => decodeRaw raw
  | none => decodeRaw raw

end Payload

end VitrialSync.Beam
