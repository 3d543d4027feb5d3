import VitrialSync.Beam.Json
import VitrialSync.Python.JsonBytes
import VitrialSync.Python.JsonNesting

set_option relaxedAutoImplicit false
set_option autoImplicit false

/-!
# The tokens that the decoder reads

The decoder of `VitrialSync.JSON` works on bytes, the grammar of JSON on characters. Here the two
meet: a character is taken from the bytes exactly when they start with its UTF-8 form, and a string,
a number or a word is read exactly from the UTF-8 form of a text that the grammar has for it.

## Main definitions

* `VitrialSync.Beam.JSON.bytesOf` — the UTF-8 form of a text.
* `VitrialSync.Beam.JSON.Scalar` — texts without surrogates, which have such a form.
* `VitrialSync.Beam.JSON.Delimits` — what may follow a number.

## Main results

* `VitrialSync.Beam.JSON.takeUtf8?_utf8`, `VitrialSync.Beam.JSON.takeUtf8?_spec` — one character.
* `VitrialSync.Beam.JSON.parseString_glyphs`, `VitrialSync.Beam.JSON.parseString_spec` — strings.
* `VitrialSync.Beam.JSON.parseNumber_text`, `VitrialSync.Beam.JSON.parseNumber_spec` — numbers.
-/

namespace VitrialSync.Beam.JSON

open Python Program
open Python.Json (ch digitText digitChar_val Digits Numeral Exponent Glyph Glyphs CharText IsPlain
  hexValue? hex4? simpleEscape? isHigh isLow joinPair)

/-! ### Characters -/

/-- The UTF-8 form of a text. -/
def bytesOf (s : Str) : Bytes := s.flatMap utf8

/-- The bytes of two texts in a row. -/
@[simp]
lemma bytesOf_append (s t : Str) : bytesOf (s ++ t) = bytesOf s ++ bytesOf t :=
  List.flatMap_append

/-- The bytes of a character and the rest of a text. -/
@[simp]
lemma bytesOf_cons (c : CodePoint) (s : Str) : bytesOf (c :: s) = utf8 c ++ bytesOf s :=
  List.flatMap_cons

/-- The empty text has no bytes. -/
@[simp]
lemma bytesOf_nil : bytesOf [] = [] := rfl

/-- An ASCII character is one byte. -/
lemma utf8_ascii {c : CodePoint} (h : c.val < 0x80) : utf8 c = [byte c.val] := by
  rw [utf8]
  exact if_pos h

/-- Bytes are equal when their numbers are. -/
lemma byte_val {n : ℕ} (h : n < 256) : (byte n).val = n := Nat.mod_eq_of_lt h

/-- A code point from its number. -/
lemma codePoint?_eq_some {n : ℕ} {c : CodePoint} : codePoint? n = some c ↔ n = c.val := by
  unfold codePoint?
  split_ifs with h
  · rw [Option.some.injEq, Fin.ext_iff]
  · have := c.isLt
    refine iff_of_false nofun ?_
    omega

/-- A continuation byte adds its six bits. -/
lemma continued?_eq_some {bits n : ℕ} {b : Byte} :
    continued? bits b = some n ↔
      0x80 ≤ b.val ∧ b.val < 0xc0 ∧ n = bits * 0x40 + (b.val - 0x80) := by
  unfold continued? isTail
  split_ifs with h
  · rw [Bool.and_eq_true, decide_eq_true_eq, decide_eq_true_eq] at h
    rw [Option.some.injEq]
    constructor
    · rintro rfl
      exact ⟨h.1, h.2, rfl⟩
    · exact fun hn => hn.2.2.symm
  · rw [Bool.and_eq_true, decide_eq_true_eq, decide_eq_true_eq] at h
    exact iff_of_false nofun fun hn => h ⟨hn.1, hn.2.1⟩

/-- A surrogate by its number. -/
lemma isSurrogate_eq_false {c : CodePoint} :
    c.isSurrogate = false ↔ c.val < 0xd800 ∨ 0xe000 ≤ c.val := by
  simp only [CodePoint.isSurrogate, Bool.and_eq_false_iff, decide_eq_false_iff_not, not_le]
  omega

/-- A character is taken from its UTF-8 form.

**Proof sketch.** By the number of bytes: the first one tells how many follow, and the bits of the
others give the number back. -/
lemma takeUtf8?_utf8 {c : CodePoint} (h : c.isSurrogate = false) (r : Bytes) :
    takeUtf8? (utf8 c ++ r) = some (c, r) := by
  have hmax := c.isLt
  have hsurrogate := isSurrogate_eq_false.mp h
  have htail : ∀ {bits n : ℕ}, continued? bits (byte (0x80 + n % 0x40)) =
      some (bits * 0x40 + n % 0x40) := by
    intro bits n
    have hval : (byte (0x80 + n % 0x40)).val = 0x80 + n % 0x40 := byte_val (by omega)
    rw [continued?_eq_some, hval]
    omega
  have hchar : codePoint? c.val = some c := codePoint?_eq_some.mpr rfl
  unfold utf8
  dsimp only
  split_ifs with h1 h2 h3
  · have ha : (byte c.val).val = c.val := byte_val (by omega)
    simp only [List.cons_append, List.nil_append, takeUtf8?, ha, h1, ↓reduceIte]
    rw [show (byte c.val).toCodePoint = c from Fin.ext ha]
  · have ha : (byte (0xc0 + c.val / 0x40)).val = 0xc0 + c.val / 0x40 := byte_val (by omega)
    have hbits : (0xc0 + c.val / 0x40 - 0xc0) * 0x40 + c.val % 0x40 = c.val := by omega
    simp only [List.cons_append, List.nil_append, takeUtf8?, ha]
    rw [if_neg (by omega), if_pos (by omega), htail, hbits]
    simp only [Option.bind_eq_bind, Option.bind_some, hchar, Option.pure_def]
  · have ha : (byte (0xe0 + c.val / 0x1000)).val = 0xe0 + c.val / 0x1000 := byte_val (by omega)
    have hbits : ((0xe0 + c.val / 0x1000 - 0xe0) * 0x40 + c.val / 0x40 % 0x40) * 0x40 +
        c.val % 0x40 = c.val := by omega
    simp only [List.cons_append, List.nil_append, takeUtf8?, ha]
    rw [if_neg (by omega), if_neg (by omega), if_pos (by omega)]
    simp only [Option.bind_eq_bind, htail, Option.bind_some, hbits, hchar, h, Bool.false_eq_true,
      or_false]
    rw [if_neg (by omega)]
  · have ha : (byte (0xf0 + c.val / 0x40000)).val = 0xf0 + c.val / 0x40000 := byte_val (by omega)
    have hbits : (((0xf0 + c.val / 0x40000 - 0xf0) * 0x40 + c.val / 0x1000 % 0x40) * 0x40 +
        c.val / 0x40 % 0x40) * 0x40 + c.val % 0x40 = c.val := by omega
    simp only [List.cons_append, List.nil_append, takeUtf8?, ha]
    rw [if_neg (by omega), if_neg (by omega), if_neg (by omega), if_pos (by omega)]
    simp only [Option.bind_eq_bind, htail, Option.bind_some, hbits, hchar]
    rw [if_neg (by omega)]

/-- A continuation byte from its bits. -/
lemma byte_tail {b : Byte} {n : ℕ} (h : n % 0x40 = b.val - 0x80) (hlow : 0x80 ≤ b.val)
    (hhigh : b.val < 0xc0) : byte (0x80 + n % 0x40) = b := by
  refine Fin.ext ?_
  rw [byte_val (by omega)]
  omega

/-- What is taken as a character is its UTF-8 form.

**Proof sketch.** The ranges of the first byte are those of the forms of two to four bytes; the
shortest form of a number is fixed by its size. -/
lemma takeUtf8?_spec {b r : Bytes} {c : CodePoint} (h : takeUtf8? b = some (c, r)) :
    b = utf8 c ++ r ∧ c.isSurrogate = false := by
  unfold takeUtf8? at h
  cases b with
  | nil => cases h
  | cons a rest =>
    dsimp only at h
    split_ifs at h with h1 h2 h3 h4
    · cases h
      have hval : a.toCodePoint.val = a.val := rfl
      refine ⟨?_, isSurrogate_eq_false.mpr (Or.inl (by omega))⟩
      rw [utf8_ascii (by omega), hval, byte_eq (Nat.mod_eq_of_lt a.isLt)]
      rfl
    · cases rest with
      | nil => cases h
      | cons b rest =>
        simp only [Option.bind_eq_bind, Option.bind_eq_some_iff, continued?_eq_some,
          codePoint?_eq_some, Option.pure_def, Option.some.injEq, Prod.mk.injEq] at h
        obtain ⟨n, ⟨hb, hb', hn⟩, char, hchar, rfl, rfl⟩ := h
        refine ⟨?_, isSurrogate_eq_false.mpr (Or.inl (by omega))⟩
        rw [utf8]
        rw [if_neg (by omega), if_pos (by omega), byte_tail (by omega) hb hb',
          byte_eq (a := a) (by omega)]
        rfl
    · cases rest with
      | nil => cases h
      | cons b rest =>
        cases rest with
        | nil => cases h
        | cons b' rest =>
          simp only [Option.bind_eq_bind, Option.bind_eq_some_iff, continued?_eq_some,
            codePoint?_eq_some] at h
          obtain ⟨n, ⟨hb, hb', hn⟩, m, ⟨hc, hc', hm⟩, char, hchar, h⟩ := h
          split_ifs at h with hbad
          cases h
          rw [not_or, Bool.not_eq_true] at hbad
          refine ⟨?_, hbad.2⟩
          rw [utf8]
          rw [if_neg (by omega), if_neg (by omega), if_pos (by omega),
            byte_tail (n := c.val) (by omega) hc hc',
            byte_tail (n := c.val / 0x40) (by omega) hb hb', byte_eq (a := a) (by omega)]
          rfl
    · cases rest with
      | nil => cases h
      | cons b rest =>
        cases rest with
        | nil => cases h
        | cons b' rest =>
          cases rest with
          | nil => cases h
          | cons b'' rest =>
            simp only [Option.bind_eq_bind, Option.bind_eq_some_iff, continued?_eq_some,
              codePoint?_eq_some] at h
            obtain ⟨n, ⟨hb, hb', hn⟩, m, ⟨hc, hc', hm⟩, k, ⟨hd, hd', hk⟩, char, hchar, h⟩ := h
            split_ifs at h with hbad
            cases h
            refine ⟨?_, isSurrogate_eq_false.mpr (Or.inr (by omega))⟩
            rw [utf8]
            rw [if_neg (by omega), if_neg (by omega), if_neg (by omega),
              byte_tail (n := c.val) (by omega) hd hd',
              byte_tail (n := c.val / 0x40) (by omega) hc hc',
              byte_tail (n := c.val / 0x1000) (by omega) hb hb', byte_eq (a := a) (by omega)]
            rfl

/-- A text that has a UTF-8 form. -/
def Scalar (s : Str) : Prop := ∀ c ∈ s, c.isSurrogate = false

/-- The UTF-8 form of a text, when it has one. -/
lemma encodeUtf8?_eq_some {s : Str} {b : Bytes} :
    encodeUtf8? s = some b ↔ Scalar s ∧ b = bytesOf s := by
  unfold encodeUtf8?
  split_ifs with h
  · refine iff_of_false nofun fun hs => ?_
    obtain ⟨c, hc, hsurrogate⟩ := List.any_eq_true.mp h
    rw [hs.1 c hc] at hsurrogate
    cases hsurrogate
  · rw [Bool.not_eq_true, List.any_eq_false] at h
    rw [Option.some.injEq]
    exact ⟨fun hb => ⟨fun c hc => by simpa using h c hc, hb.symm⟩, fun hb => hb.2.symm⟩

/-- A text is determined by its UTF-8 form. -/
lemma bytesOf_inj {s t : Str} (hs : Scalar s) (ht : Scalar t) (h : bytesOf s = bytesOf t) :
    s = t := by
  have hne : ∀ c : CodePoint, utf8 c ≠ [] := by
    intro c
    unfold utf8
    dsimp only
    split_ifs <;> simp
  induction s generalizing t with
  | nil =>
    cases t with
    | nil => rfl
    | cons d t =>
      rw [bytesOf_nil, bytesOf_cons] at h
      exact absurd (List.append_eq_nil_iff.mp h.symm).1 (hne d)
  | cons c s ih =>
    cases t with
    | nil =>
      rw [bytesOf_nil, bytesOf_cons] at h
      exact absurd (List.append_eq_nil_iff.mp h).1 (hne c)
    | cons d t =>
      rw [Scalar, List.forall_mem_cons] at hs ht
      rw [bytesOf_cons, bytesOf_cons] at h
      have hc := takeUtf8?_utf8 hs.1 (bytesOf s)
      rw [h, takeUtf8?_utf8 ht.1, Option.some.injEq, Prod.mk.injEq] at hc
      rw [hc.1, ih hs.2 ht.2 hc.2.symm]

/-! ### Strings -/

/-- A character that stands for itself in a string. -/
lemma parseString_plain {c : CodePoint} (h : IsPlain c) (hs : c.isSurrogate = false) (fuel : ℕ)
    (r : Bytes) (acc : Str) :
    parseString (fuel + 1) (utf8 c ++ r) acc = parseString fuel r (c :: acc) := by
  obtain ⟨hlow, hquote, hslash⟩ := h
  obtain ⟨a, tail, hutf8, ha, ha', ha''⟩ : ∃ a tail, utf8 c = a :: tail ∧ a ≠ 0x22 ∧ a ≠ 0x5c ∧
      ¬ a.val < 0x20 := by
    have hmax := c.isLt
    by_cases hascii : c.val < 0x80
    · have hval : (byte c.val).val = c.val := byte_val (by omega)
      refine ⟨_, _, utf8_ascii hascii, fun h => hquote ?_, fun h => hslash ?_, by omega⟩ <;>
        · have := congrArg Fin.val h
          rw [hval] at this
          exact Fin.ext this
    · have hbig : ∀ {a : Byte}, 0x80 ≤ a.val → a ≠ 0x22 ∧ a ≠ 0x5c ∧ ¬ a.val < 0x20 := by
        intro a ha
        refine ⟨?_, ?_, by omega⟩ <;>
          · rintro rfl
            revert ha
            decide
      unfold utf8
      dsimp only
      rw [if_neg hascii]
      split_ifs <;> refine ⟨_, _, rfl, hbig ?_⟩ <;> rw [byte_val (by omega)] <;> omega
  have htake := takeUtf8?_utf8 hs r
  rw [hutf8, List.cons_append] at htake ⊢
  rw [parseString, if_neg ha, if_neg ha', if_neg ha'', htake]

/-- The letter of an escape is read. -/
lemma parseEscape_simple {e c : CodePoint} (h : simpleEscape? e = some c) (r : Bytes) :
    parseEscape (utf8 e ++ r) = .ok (c, r) := by
  unfold simpleEscape? at h
  split_ifs at h with h₁ h₂ h₃ h₄ h₅ h₆ h₇ h₈ <;> cases h <;> subst e <;> rfl

/-- After a `u` the code unit is read. -/
lemma parseEscape_u (r : Bytes) : parseEscape (0x75 :: r) = parseUnicodeEscape r := rfl

/-- A hexadecimal digit is an ASCII character, with the same value as a byte. -/
lemma hexDigit?_of_hexValue? {a : CodePoint} {n : ℕ} (h : hexValue? a = some n) :
    utf8 a = [byte a.val] ∧ hexDigit? (byte a.val) = some n := by
  have hascii : a.val < 0x80 := by
    unfold hexValue? at h
    dsimp only at h
    split_ifs at h <;> omega
  have hval : (byte a.val).val = a.val := byte_val (by omega)
  refine ⟨utf8_ascii hascii, ?_⟩
  rw [hexDigit?, hval]
  exact h

/-- Four hexadecimal digits are read. -/
lemma hexQuad?_of_hex4? {a b c d u : CodePoint} (h : hex4? a b c d = some u) :
    bytesOf [a, b, c, d] = [byte a.val, byte b.val, byte c.val, byte d.val] ∧
      hexQuad? (byte a.val) (byte b.val) (byte c.val) (byte d.val) = some u.val := by
  simp only [hex4?, Option.bind_eq_bind, Option.bind_eq_some_iff, codePoint?_eq_some] at h
  obtain ⟨na, ha, nb, hb, nc, hc, nd, hd, hu⟩ := h
  obtain ⟨hua, hda⟩ := hexDigit?_of_hexValue? ha
  obtain ⟨hub, hdb⟩ := hexDigit?_of_hexValue? hb
  obtain ⟨huc, hdc⟩ := hexDigit?_of_hexValue? hc
  obtain ⟨hud, hdd⟩ := hexDigit?_of_hexValue? hd
  constructor
  · simp only [bytesOf_cons, bytesOf_nil, hua, hub, huc, hud, List.append_nil, List.cons_append,
      List.nil_append]
  · simp only [hexQuad?, hda, hdb, hdc, hdd, Option.bind_eq_bind, Option.bind_some,
      Option.pure_def, Option.some.injEq]
    omega

/-- A hexadecimal digit from its byte. -/
lemma hexValue?_of_hexDigit? {a : Byte} {n : ℕ} (h : hexDigit? a = some n) :
    hexValue? a.toCodePoint = some n ∧ utf8 a.toCodePoint = [a] ∧ n < 16 ∧
      a.toCodePoint.isSurrogate = false := by
  have hval : a.toCodePoint.val = a.val := rfl
  have hascii : a.val < 0x80 ∧ n < 16 := by
    unfold hexDigit? at h
    dsimp only at h
    split_ifs at h <;> cases h <;> omega
  refine ⟨h, ?_, hascii.2, isSurrogate_eq_false.mpr (Or.inl (by omega))⟩
  rw [utf8_ascii (by omega), hval, byte_eq (Nat.mod_eq_of_lt a.isLt)]

/-- Four hexadecimal digits from their bytes. -/
lemma hex4?_of_hexQuad? {a b c d : Byte} {n : ℕ} (h : hexQuad? a b c d = some n) :
    ∃ u t, u.val = n ∧ CharText (ch '\\' :: ch 'u' :: t) (u, true) ∧ Scalar t ∧
      [a, b, c, d] = bytesOf t := by
  simp only [hexQuad?, Option.bind_eq_bind, Option.bind_eq_some_iff, Option.pure_def,
    Option.some.injEq] at h
  obtain ⟨na, ha, nb, hb, nc, hc, nd, hd, rfl⟩ := h
  obtain ⟨hva, hua, hna, hsa⟩ := hexValue?_of_hexDigit? ha
  obtain ⟨hvb, hub, hnb, hsb⟩ := hexValue?_of_hexDigit? hb
  obtain ⟨hvc, huc, hnc, hsc⟩ := hexValue?_of_hexDigit? hc
  obtain ⟨hvd, hud, hnd, hsd⟩ := hexValue?_of_hexDigit? hd
  refine ⟨⟨na * 4096 + nb * 256 + nc * 16 + nd, by omega⟩,
    [a.toCodePoint, b.toCodePoint, c.toCodePoint, d.toCodePoint], rfl, .unit ?_, ?_, ?_⟩
  · simp only [hex4?, hva, hvb, hvc, hvd, Option.bind_eq_bind, Option.bind_some,
      codePoint?_eq_some]
    omega
  · simp [Scalar, hsa, hsb, hsc, hsd]
  · simp only [bytesOf_cons, bytesOf_nil, hua, hub, huc, hud, List.append_nil, List.cons_append,
      List.nil_append]

/-- The text of an escape is ASCII where the escape is that of a code unit. -/
lemma utf8_ch {c : Char} (h : c.toNat < 0x80) : utf8 (ch c) = [byte c.toNat] := utf8_ascii h

/-- The escape of a code unit is read up to its four digits. -/
lemma parseUnicodeEscape_unit {t : Str} {u : CodePoint} (h : CharText t (u, true)) (r : Bytes) :
    ∃ a b c d, bytesOf t ++ r = 0x5c :: 0x75 :: a :: b :: c :: d :: r ∧
      hexQuad? a b c d = some u.val := by
  cases h with
  | unit hunit =>
    obtain ⟨hbytes, hquad⟩ := hexQuad?_of_hex4? hunit
    refine ⟨_, _, _, _, ?_, hquad⟩
    rw [bytesOf_cons, bytesOf_cons, hbytes, utf8_ch (by decide), utf8_ch (by decide)]
    rfl

/-- One character of a string is read. -/
lemma parseString_glyph {t : Str} {c : CodePoint} (h : Glyph t c) (ht : Scalar t) (fuel : ℕ)
    (r : Bytes) (acc : Str) :
    parseString (fuel + 1) (bytesOf t ++ r) acc = parseString fuel r (c :: acc) := by
  have hescape : ∀ {b r' : Bytes} {x : CodePoint}, parseEscape b = .ok (x, r') →
      parseString (fuel + 1) (0x5c :: b) acc = parseString fuel r' (x :: acc) := by
    intro b r' x hb
    rw [parseString, if_neg (by decide), if_pos rfl, hb]
    rfl
  cases h with
  | raw h =>
    cases h with
    | plain h =>
      rw [bytesOf_cons, bytesOf_nil, List.append_nil]
      exact parseString_plain h (ht c List.mem_cons_self) fuel r acc
    | @simple e _ h =>
      rw [bytesOf_cons, bytesOf_cons, bytesOf_nil, List.append_nil, utf8_ch (by decide),
        List.append_assoc]
      exact hescape (parseEscape_simple h r)
  | unit h hc =>
    obtain ⟨a, b, x, d, hbytes, hquad⟩ := parseUnicodeEscape_unit h r
    rw [hbytes]
    apply hescape
    have hhigh := isSurrogate_eq_false.mp hc
    simp only [parseEscape_u, parseUnicodeEscape, hquad, codePoint?_eq_some.mpr rfl]
    rw [if_neg (by omega), if_neg (by omega)]
  | @pair t t' high low h h' hhigh hlow =>
    obtain ⟨a, b, x, d, hbytes, hquad⟩ := parseUnicodeEscape_unit h (bytesOf t' ++ r)
    obtain ⟨a', b', x', d', hbytes', hquad'⟩ := parseUnicodeEscape_unit h' r
    rw [bytesOf_append, List.append_assoc, hbytes, hbytes']
    apply hescape
    simp only [isHigh, isLow, Bool.and_eq_true, decide_eq_true_eq] at hhigh hlow
    have hjoin : codePoint? (0x10000 + (high.val - 0xd800) * 0x400 + (low.val - 0xdc00)) =
        some (joinPair high low) := by
      rw [codePoint?_eq_some]
      simp only [joinPair]
      omega
    simp only [parseEscape_u, parseUnicodeEscape, parseLowSurrogate, hquad, hquad', hjoin]
    rw [if_pos (by omega), if_pos (by omega)]

/-- A character takes one byte at least. -/
lemma one_le_length_glyph {t : Str} {c : CodePoint} (h : Glyph t c) : 1 ≤ (bytesOf t).length := by
  have hone : ∀ {t : Str} {x : CodePoint × Bool}, CharText t x → 1 ≤ (bytesOf t).length := by
    intro t x hx
    obtain ⟨a, s, rfl⟩ : ∃ a s, t = a :: s := by cases hx <;> exact ⟨_, _, rfl⟩
    rw [bytesOf_cons, List.length_append]
    have : 1 ≤ (utf8 a).length := by
      unfold utf8
      dsimp only
      split_ifs <;> simp
    omega
  cases h with
  | raw h => exact hone h
  | unit h _ => exact hone h
  | pair h h' _ _ =>
    rw [bytesOf_append, List.length_append]
    exact le_add_right (hone h)

/-- **A string is read.** -/
lemma parseString_glyphs {t s : Str} (h : Glyphs t s) (ht : Scalar t) {fuel : ℕ}
    (hfuel : (bytesOf t).length < fuel) (r : Bytes) (acc : Str) :
    parseString fuel (bytesOf t ++ 0x22 :: r) acc = .ok (acc.reverse ++ s, r) := by
  induction h generalizing fuel acc with
  | nil =>
    obtain ⟨fuel, rfl⟩ : ∃ f, fuel = f + 1 := ⟨fuel - 1, by omega⟩
    rw [bytesOf_nil, List.nil_append, parseString, if_pos rfl, List.append_nil]
  | @cons t c ts s hglyph _ ih =>
    have hlength := one_le_length_glyph hglyph
    rw [bytesOf_append, List.length_append] at hfuel
    obtain ⟨fuel, rfl⟩ : ∃ f, fuel = f + 1 := ⟨fuel - 1, by omega⟩
    rw [Scalar, List.forall_mem_append] at ht
    rw [bytesOf_append, List.append_assoc, parseString_glyph hglyph ht.1,
      ih ht.2 (by omega) (c :: acc), List.reverse_cons, List.append_assoc]
    rfl

/-- What is read as an escape.

**Proof sketch.** A letter is that of a simple escape; after a `u` four digits give a code unit, and
a high surrogate is read together with the escape of a low one. -/
lemma parseEscape_spec {b r : Bytes} {c : CodePoint} (h : parseEscape b = .ok (c, r)) :
    ∃ t, Glyph (ch '\\' :: t) c ∧ Scalar t ∧ b = bytesOf t ++ r := by
  cases b with
  | nil => cases h
  | cons e rest =>
    have hsimple : ∀ {x y : CodePoint}, simpleEscape? x = some y → utf8 x = [e] →
        x.isSurrogate = false → (Except.ok (y, rest) : Except ErrorReason _) = .ok (c, r) →
        ∃ t, Glyph (ch '\\' :: t) c ∧ Scalar t ∧ e :: rest = bytesOf t ++ r := by
      intro x y hx hutf8 hs heq
      cases heq
      refine ⟨[x], .raw (.simple hx), by simpa [Scalar] using hs, ?_⟩
      rw [bytesOf_cons, bytesOf_nil, hutf8]
      rfl
    unfold parseEscape at h
    dsimp only at h
    split_ifs at h with h₁ h₂ h₃ h₄ h₅ h₆ h₇ h₈ h₉
    · subst h₁
      exact hsimple (x := ch '"') rfl rfl rfl h
    · subst h₂
      exact hsimple (x := ch '\\') rfl rfl rfl h
    · subst h₃
      exact hsimple (x := ch '/') rfl rfl rfl h
    · subst h₄
      exact hsimple (x := ch 'b') rfl rfl rfl h
    · subst h₅
      exact hsimple (x := ch 'f') rfl rfl rfl h
    · subst h₆
      exact hsimple (x := ch 'n') rfl rfl rfl h
    · subst h₇
      exact hsimple (x := ch 'r') rfl rfl rfl h
    · subst h₈
      exact hsimple (x := ch 't') rfl rfl rfl h
    · subst h₉
      have hu : utf8 (ch 'u') = [0x75] := rfl
      unfold parseUnicodeEscape at h
      split at h
      · cases h
      · rename_i a b' c' d rest
        split at h
        · cases h
        · rename_i n hquad
          obtain ⟨u, t, rfl, htext, ht, hbytes⟩ := hex4?_of_hexQuad? hquad
          split_ifs at h with hhigh hlow
          · -- a pair
            unfold parseLowSurrogate at h
            split at h
            · rename_i a₂ b₂ c₂ d₂ rest₂
              split at h
              · rename_i n₂ hquad₂
                obtain ⟨u₂, t₂, rfl, htext₂, ht₂, hbytes₂⟩ := hex4?_of_hexQuad? hquad₂
                split_ifs at h with hrange
                split at h
                · rename_i char hchar
                  cases h
                  rw [codePoint?_eq_some] at hchar
                  obtain rfl : c = joinPair u u₂ := by
                    refine Fin.ext ?_
                    simp only [joinPair]
                    omega
                  refine ⟨ch 'u' :: t ++ (ch '\\' :: ch 'u' :: t₂), ?_, ?_, ?_⟩
                  · refine Glyph.pair htext htext₂ ?_ ?_
                    · simp only [isHigh, Bool.and_eq_true, decide_eq_true_eq]
                      omega
                    · simp only [isLow, Bool.and_eq_true, decide_eq_true_eq]
                      omega
                  · have hu' : (ch 'u').isSurrogate = false := rfl
                    have hs' : (ch '\\').isSurrogate = false := rfl
                    simp only [Scalar, List.forall_mem_append, List.forall_mem_cons, hu', hs',
                      true_and]
                    exact ⟨ht, ht₂⟩
                  · have hslash : utf8 (ch '\\') = [0x5c] := rfl
                    rw [bytesOf_append, bytesOf_cons, bytesOf_cons, bytesOf_cons, ← hbytes,
                      ← hbytes₂, hu, hslash]
                    rfl
                · cases h
              · cases h
            · cases h
          · -- a code unit of its own
            split at h
            · rename_i char hchar
              cases h
              obtain rfl : c = u := Fin.ext (codePoint?_eq_some.mp hchar).symm
              refine ⟨ch 'u' :: t, .unit htext (isSurrogate_eq_false.mpr (by omega)), ?_, ?_⟩
              · have hu' : (ch 'u').isSurrogate = false := rfl
                simp only [Scalar, List.forall_mem_cons, hu', true_and]
                exact ht
              · rw [bytesOf_cons, ← hbytes, hu]
                rfl
            · cases h
      · cases h

/-- **What is read as a string.**

**Proof sketch.** Induction on the budget of steps, each of which reads one character. -/
lemma parseString_spec {fuel : ℕ} {b r : Bytes} {acc s : Str}
    (h : parseString fuel b acc = .ok (s, r)) :
    ∃ t s', Glyphs t s' ∧ Scalar t ∧ b = bytesOf t ++ 0x22 :: r ∧ s = acc.reverse ++ s' := by
  induction fuel generalizing b acc with
  | zero => cases h
  | succ fuel ih =>
    cases b with
    | nil => cases h
    | cons c rest =>
      rw [parseString] at h
      split_ifs at h with hquote hslash hcontrol
      · cases h
        subst hquote
        exact ⟨[], [], .nil, fun _ h => absurd h List.not_mem_nil, rfl, by simp⟩
      · subst hslash
        obtain ⟨⟨x, rest'⟩, hescape, hrest⟩ := bind_eq_ok.mp h
        obtain ⟨t, hglyph, ht, hbytes⟩ := parseEscape_spec hescape
        obtain ⟨ts, s', hglyphs, hts, rfl, rfl⟩ := ih hrest
        have hs' : (ch '\\').isSurrogate = false := rfl
        refine ⟨_, _, .cons hglyph hglyphs, ?_, ?_, by simp⟩
        · simp only [Scalar, List.forall_mem_append, List.forall_mem_cons, hs', true_and]
          exact ⟨ht, hts⟩
        · have hslash : utf8 (ch '\\') = [0x5c] := rfl
          rw [hbytes, bytesOf_append, bytesOf_cons, hslash]
          simp
      · split at h
        · rename_i x rest' htake
          obtain ⟨hbytes, hx⟩ := takeUtf8?_spec htake
          obtain ⟨ts, s', hglyphs, hts, rfl, rfl⟩ := ih h
          have hplain : IsPlain x := by
            have hhead : ∀ {n : ℕ}, n < 0x80 → x.val = n → c = byte n := by
              intro n hn hval
              rw [utf8_ascii (by omega), hval] at hbytes
              exact (List.cons.inj hbytes).1
            refine ⟨?_, ?_, ?_⟩
            · by_contra hlow
              rw [hhead (by omega) rfl, byte_val (by omega)] at hcontrol
              omega
            · rintro rfl
              exact hquote (hhead (by decide) rfl)
            · rintro rfl
              exact hslash (hhead (by decide) rfl)
          refine ⟨_, _, .cons (.raw (.plain hplain)) hglyphs, ?_, ?_, by simp⟩
          · simp only [Scalar, List.forall_mem_append, List.forall_mem_singleton]
            exact ⟨hx, hts⟩
          · rw [hbytes, bytesOf_append, bytesOf_cons, bytesOf_nil, List.append_nil,
              List.append_assoc]
        · cases h

/-! ### Numbers -/

/-- The bytes of digits. -/
lemma bytesOf_digitText {d : ℕ} (hd : d < 10) (ds : List ℕ) :
    bytesOf (digitText (d :: ds)) = byte (0x30 + d) :: bytesOf (digitText ds) := by
  have hval := digitChar_val hd
  rw [digitText, List.map_cons, bytesOf_cons, utf8_ascii (by omega), hval]
  rfl

/-- The next byte is no digit. -/
def NoDigit (r : Bytes) : Prop := ∀ c s, r = c :: s → ¬ (0x30 ≤ c.val ∧ c.val ≤ 0x39)

/-- Digits are taken up to the first byte that is none. -/
lemma takeDigits_digitText {ds : List ℕ} (hds : ∀ d ∈ ds, d < 10) {r : Bytes} (hr : NoDigit r) :
    takeDigits (bytesOf (digitText ds) ++ r) = (ds, r) := by
  induction ds with
  | nil =>
    cases r with
    | nil => rfl
    | cons c s =>
      change takeDigits (c :: s) = _
      rw [takeDigits, if_neg (hr c s rfl)]
  | cons d ds ih =>
    rw [List.forall_mem_cons] at hds
    have hd := hds.1
    have hval : (byte (0x30 + d)).val = 0x30 + d := byte_val (by omega)
    rw [bytesOf_digitText hd, List.cons_append, takeDigits, hval, if_pos (by omega), ih hds.2]
    simp

/-- What is taken as digits. -/
lemma takeDigits_spec {b r : Bytes} {ds : List ℕ} (h : takeDigits b = (ds, r)) :
    (∀ d ∈ ds, d < 10) ∧ b = bytesOf (digitText ds) ++ r := by
  induction b generalizing ds with
  | nil =>
    cases h
    exact ⟨fun _ h => absurd h List.not_mem_nil, rfl⟩
  | cons c rest ih =>
    rw [takeDigits] at h
    split_ifs at h with hdigit
    · obtain ⟨hds, hrest⟩ := Prod.mk.inj h
      subst hds
      obtain ⟨hall, hbytes⟩ := ih (Prod.ext rfl hrest)
      have hd : c.val - 0x30 < 10 := by omega
      refine ⟨List.forall_mem_cons.mpr ⟨hd, hall⟩, ?_⟩
      rw [bytesOf_digitText hd, byte_eq (a := c) (by omega), List.cons_append, ← hbytes]
    · cases h
      exact ⟨fun _ h => absurd h List.not_mem_nil, rfl⟩

/-- What may follow a number: nothing, white space, or the separator or end of a container. -/
def Delimits (r : Bytes) : Prop :=
  ∀ c s, r = c :: s → c ∈ ([0x20, 0x9, 0xa, 0xd, 0x2c, 0x5d, 0x7d] : List Byte)

/-- A byte that may follow a number continues none. -/
lemma Delimits.head {r : Bytes} (hr : Delimits r) : ∀ c s, r = c :: s →
    ¬ (0x30 ≤ c.val ∧ c.val ≤ 0x39) ∧ c ≠ 0x2e ∧ ¬ (c = 0x65 ∨ c = 0x45) := by
  intro c s h
  have hc := hr c s h
  simp only [List.mem_cons, List.not_mem_nil, or_false] at hc
  rcases hc with rfl | rfl | rfl | rfl | rfl | rfl | rfl <;> decide

/-- A number as the decoder keeps it. -/
def literalOf (n : Numeral) : Literal :=
  ⟨n.neg, n.whole, n.frac.getD [], n.expo.map Exponent.value⟩

/-- The value of a number that is read is its value in the grammar. -/
lemma finishNumber_eq {n : Numeral} (hn : n.WellFormed) (r : Bytes) :
    finishNumber (literalOf n) r = match n.value with
      | .float x => if x.isFinite then .ok (.float x, r) else .error .invalidNumber
      | v => .ok (v, r) := by
  have hfrac : (n.frac.getD []).isEmpty = n.frac.isNone := by
    cases hfrac : n.frac with
    | none => rfl
    | some ds =>
      cases ds with
      | nil => exact absurd rfl (hn.frac [] hfrac).1
      | cons d ds => rfl
  have hvalue : (n.expo.map Exponent.value).getD 0 = n.expo.elim 0 Exponent.value := by
    cases n.expo <;> rfl
  unfold finishNumber Numeral.value literalOf
  simp only [hfrac, Option.isNone_map, hvalue, Numeral.magnitude]
  split_ifs <;> simp_all

/-- A finite number is read. -/
lemma finishNumber_of_finite {n : Numeral} (hn : n.WellFormed) (hfinite : n.Finite) (r : Bytes) :
    finishNumber (literalOf n) r = .ok (n.value, r) := by
  rw [finishNumber_eq hn]
  split
  · rename_i x hx
    rw [if_pos (hfinite x hx), hx]
  · rfl

/-- A number that is read is finite. -/
lemma finishNumber_spec {n : Numeral} (hn : n.WellFormed) {b r : Bytes} {v : Value}
    (h : finishNumber (literalOf n) b = .ok (v, r)) : v = n.value ∧ n.Finite ∧ r = b := by
  rw [finishNumber_eq hn] at h
  split at h
  · rename_i x hx
    split_ifs at h with hfinite
    cases h
    refine ⟨hx.symm, fun y hy => ?_, rfl⟩
    rw [hx] at hy
    cases hy
    exact hfinite
  · rename_i hnot
    cases h
    exact ⟨rfl, fun x hx => absurd hx (hnot x), rfl⟩

/-- The sign of an exponent, `true` for the minus, and what follows it. -/
def exponentSign (b : Bytes) : Bool × Bytes :=
  match b with
  | 0x2b :: more => (false, more)
  | 0x2d :: more => (true, more)
  | _ => (false, b)

/-- The mark of an exponent, and its sign and digits. -/
lemma parseExponent_cons (literal : Literal) (c : Byte) (b : Bytes) :
    parseExponent literal (c :: b) =
      if c = 0x65 ∨ c = 0x45 then
        if (takeDigits (exponentSign b).2).1.isEmpty then .error .invalidNumber
        else finishNumber
          { literal with exponent := some (if (exponentSign b).1
              then -(ofDigits (takeDigits (exponentSign b).2).1 : ℤ)
              else ofDigits (takeDigits (exponentSign b).2).1) } (takeDigits (exponentSign b).2).2
      else finishNumber literal (c :: b) := rfl

/-- The sign of an exponent is optional. -/
lemma exponentSign_text (sign : Option Bool) {ds : List ℕ} (hds : Digits ds) (r : Bytes) :
    exponentSign (bytesOf (sign.elim [] fun minus => [if minus then ch '-' else ch '+']) ++
      (bytesOf (digitText ds) ++ r)) =
        (decide (sign = some true), bytesOf (digitText ds) ++ r) := by
  cases sign with
  | none =>
    obtain ⟨d, ds, rfl⟩ := List.exists_cons_of_ne_nil hds.1
    have hd := hds.2 d List.mem_cons_self
    have hne : ∀ {n : ℕ}, n < 0x30 → byte (0x30 + d) ≠ byte n := by
      intro n hn h
      have := congrArg Fin.val h
      rw [byte_val (by omega), byte_val (by omega)] at this
      omega
    rw [Option.elim_none, bytesOf_nil, List.nil_append, bytesOf_digitText hd, List.cons_append]
    unfold exponentSign
    split
    · rename_i more hmore
      exact absurd (List.cons.inj hmore).1 (hne (n := 0x2b) (by decide))
    · rename_i more hmore
      exact absurd (List.cons.inj hmore).1 (hne (n := 0x2d) (by decide))
    · rfl
  | some minus => cases minus <;> rfl

/-- The sign and the digits of an exponent. -/
lemma exponentSign_spec {b r : Bytes} {ds : List ℕ} {neg : Bool}
    (hsign : exponentSign b = (neg, bytesOf (digitText ds) ++ r)) :
    ∃ sign : Option Bool, decide (sign = some true) = neg ∧
      b = bytesOf ((sign.elim [] fun minus => [if minus then ch '-' else ch '+']) ++
        digitText ds) ++ r := by
  unfold exponentSign at hsign
  split at hsign
  · obtain ⟨rfl, rfl⟩ := Prod.mk.inj hsign
    exact ⟨some false, rfl, rfl⟩
  · obtain ⟨rfl, rfl⟩ := Prod.mk.inj hsign
    exact ⟨some true, rfl, rfl⟩
  · obtain ⟨rfl, rfl⟩ := Prod.mk.inj hsign
    exact ⟨none, rfl, rfl⟩

/-- The exponent of a number, or none, is read. -/
lemma parseExponent_text {neg : Bool} {whole fraction : List ℕ} {expo : Option Exponent}
    (hexpo : ∀ e, expo = some e → e.WellFormed) {r : Bytes} (hr : Delimits r) :
    parseExponent ⟨neg, whole, fraction, none⟩ (bytesOf (expo.elim [] Exponent.text) ++ r) =
      finishNumber ⟨neg, whole, fraction, expo.map Exponent.value⟩ r := by
  cases expo with
  | none =>
    cases r with
    | nil => rfl
    | cons c s =>
      change parseExponent _ (c :: s) = _
      rw [parseExponent_cons, if_neg (hr.head c s rfl).2.2]
      rfl
  | some e =>
    obtain ⟨hmark, hdigits⟩ := hexpo e rfl
    obtain ⟨mark, sign, digits⟩ := e
    dsimp only at hmark hdigits
    have htake := takeDigits_digitText hdigits.2 fun c s h => (hr.head c s h).1
    have hsome : digits.isEmpty = false := by simpa using hdigits.1
    obtain ⟨m, hm, hutf8⟩ : ∃ m : Byte, (m = 0x65 ∨ m = 0x45) ∧ utf8 mark = [m] := by
      rcases hmark with rfl | rfl
      · exact ⟨_, Or.inl rfl, rfl⟩
      · exact ⟨_, Or.inr rfl, rfl⟩
    rw [Option.elim_some, Exponent.text, bytesOf_cons, hutf8, List.cons_append, List.cons_append,
      List.nil_append, bytesOf_append, List.append_assoc, parseExponent_cons, if_pos hm,
      exponentSign_text sign hdigits, htake, hsome]
    simp [Exponent.value]

/-- What is read as an exponent, or as none. -/
lemma parseExponent_spec {neg : Bool} {whole fraction : List ℕ} {b r : Bytes} {v : Value}
    (h : parseExponent ⟨neg, whole, fraction, none⟩ b = .ok (v, r)) :
    ∃ expo : Option Exponent, ∃ r', (∀ e, expo = some e → e.WellFormed) ∧
      b = bytesOf (expo.elim [] Exponent.text) ++ r' ∧
      finishNumber ⟨neg, whole, fraction, expo.map Exponent.value⟩ r' = .ok (v, r) := by
  cases b with
  | nil => exact ⟨none, [], nofun, rfl, h⟩
  | cons c b =>
    rw [parseExponent_cons] at h
    by_cases hmark : c = 0x65 ∨ c = 0x45
    · rw [if_pos hmark] at h
      by_cases hempty : (takeDigits (exponentSign b).2).1.isEmpty = true
      · rw [if_pos hempty] at h
        cases h
      rw [if_neg hempty] at h
      obtain ⟨hall, hbytes⟩ := takeDigits_spec (b := (exponentSign b).2) rfl
      obtain ⟨sign, hsign, hb⟩ := exponentSign_spec (b := b) (Prod.ext rfl hbytes)
      obtain ⟨mark, hmark', hutf8⟩ : ∃ mark : CodePoint, (mark = ch 'e' ∨ mark = ch 'E') ∧
          utf8 mark = [c] := by
        rcases hmark with rfl | rfl
        · exact ⟨_, Or.inl rfl, rfl⟩
        · exact ⟨_, Or.inr rfl, rfl⟩
      refine ⟨some ⟨mark, sign, (takeDigits (exponentSign b).2).1⟩,
        (takeDigits (exponentSign b).2).2, ?_, ?_, ?_⟩
      · rintro e ⟨⟩
        exact ⟨hmark', by simpa using hempty, hall⟩
      · conv_lhs => rw [hb]
        rw [Option.elim_some, Exponent.text, bytesOf_cons, hutf8]
        rfl
      · have hneg : (exponentSign b).1 = decide (sign = some true) := hsign.symm
        rw [hneg] at h
        simpa [Exponent.value] using h
    · rw [if_neg hmark] at h
      exact ⟨none, c :: b, nofun, rfl, h⟩

/-- The fraction of a number, or none, and its exponent are read. -/
lemma parseNumberTail_text {n : Numeral} (hn : n.WellFormed) {r : Bytes} (hr : Delimits r) :
    parseNumberTail n.neg n.whole (bytesOf n.tailText ++ r) = finishNumber (literalOf n) r := by
  have hexpo : parseExponent ⟨n.neg, n.whole, n.frac.getD [], none⟩
      (bytesOf (n.expo.elim [] Exponent.text) ++ r) = _ := parseExponent_text hn.expo hr
  rw [Numeral.tailText, bytesOf_append, List.append_assoc]
  -- after the fraction no digit follows
  have hhead : ∀ c s, bytesOf (n.expo.elim [] Exponent.text) ++ r = c :: s →
      ¬ (0x30 ≤ c.val ∧ c.val ≤ 0x39) ∧ c ≠ 0x2e := by
    intro c s h
    cases hsome : n.expo with
    | none =>
      rw [hsome] at h
      exact ⟨(hr.head c s h).1, (hr.head c s h).2.1⟩
    | some e =>
      rw [hsome, Option.elim_some, Exponent.text, bytesOf_cons] at h
      rcases (hn.expo e hsome).1 with hmark | hmark
      · rw [hmark] at h
        obtain rfl : (0x65 : Byte) = c := (List.cons.inj h).1
        decide
      · rw [hmark] at h
        obtain rfl : (0x45 : Byte) = c := (List.cons.inj h).1
        decide
  cases hfrac : n.frac with
  | none =>
    rw [hfrac] at hexpo
    rw [Option.elim_none, bytesOf_nil, List.nil_append]
    unfold parseNumberTail
    split
    · rename_i rest hrest
      exact absurd rfl (hhead _ _ hrest).2
    · rw [literalOf, hfrac]
      exact hexpo
  | some ds =>
    obtain ⟨hne, hdigits⟩ := hn.frac ds hfrac
    have hpoint : utf8 (ch '.') = [0x2e] := rfl
    have hsome : ds.isEmpty = false := by simpa using hne
    rw [hfrac] at hexpo
    rw [Option.elim_some, bytesOf_cons, hpoint, List.cons_append, List.nil_append,
      List.cons_append, parseNumberTail,
      takeDigits_digitText hdigits fun c s h => (hhead c s h).1]
    simp only [hsome, Bool.false_eq_true, ↓reduceIte]
    rw [literalOf, hfrac]
    exact hexpo

/-- What is read as the rest of a number. -/
lemma parseNumberTail_spec {neg : Bool} {whole : List ℕ} {b r : Bytes} {v : Value}
    (h : parseNumberTail neg whole b = .ok (v, r)) :
    ∃ n : Numeral, ∃ r', n.neg = neg ∧ n.whole = whole ∧ (∀ ds, n.frac = some ds → Digits ds) ∧
      (∀ e, n.expo = some e → e.WellFormed) ∧ b = bytesOf n.tailText ++ r' ∧
      finishNumber (literalOf n) r' = .ok (v, r) := by
  unfold parseNumberTail at h
  split at h
  · rename_i rest
    dsimp only at h
    split_ifs at h with hempty
    obtain ⟨hall, hbytes⟩ := takeDigits_spec (b := rest) rfl
    obtain ⟨expo, r', hexpo, hmore, hfinish⟩ := parseExponent_spec h
    refine ⟨⟨neg, whole, some (takeDigits rest).1, expo⟩, r', rfl, rfl, ?_, hexpo, ?_, hfinish⟩
    · rintro ds ⟨⟩
      exact ⟨by simpa using hempty, hall⟩
    · have hpoint : utf8 (ch '.') = [0x2e] := rfl
      rw [Numeral.tailText, Option.elim_some, bytesOf_append, bytesOf_cons, hpoint,
        List.append_assoc, ← hmore]
      conv_lhs => rw [hbytes]
      rfl
  · obtain ⟨expo, r', hexpo, hmore, hfinish⟩ := parseExponent_spec h
    refine ⟨⟨neg, whole, none, expo⟩, r', rfl, rfl, ?_, hexpo, hmore, hfinish⟩
    intro ds hds
    cases hds

/-- The sign of a number, `true` for the minus, and what follows it. -/
def numberSign (b : Bytes) : Bool × Bytes :=
  match b with
  | 0x2d :: more => (true, more)
  | _ => (false, b)

/-- A number after its sign. -/
lemma parseNumber_eq (b : Bytes) : parseNumber b =
    match (numberSign b).2 with
    | [] => .error .unexpectedEnd
    | c :: more =>
      if c = 0x30 then parseNumberTail (numberSign b).1 [0] more
      else if 0x31 ≤ c.val ∧ c.val ≤ 0x39 then
        parseNumberTail (numberSign b).1 (takeDigits (numberSign b).2).1
          (takeDigits (numberSign b).2).2
      else .error .invalidNumber := rfl

/-- The digit of a number as a byte. -/
lemma byte_digit {d : ℕ} (hd : d < 10) : (byte (0x30 + d)).val = 0x30 + d := byte_val (by omega)

/-- **A number is read.** -/
lemma parseNumber_text {n : Numeral} (hn : n.WellFormed) (hfinite : n.Finite) {r : Bytes}
    (hr : Delimits r) : parseNumber (bytesOf n.text ++ r) = .ok (n.value, r) := by
  have htail := (parseNumberTail_text hn hr).trans (finishNumber_of_finite hn hfinite r)
  obtain ⟨hne, hdigits⟩ := hn.whole
  obtain ⟨d, ds, hwhole⟩ := List.exists_cons_of_ne_nil hne
  have hd : d < 10 := hdigits d (by rw [hwhole]; exact List.mem_cons_self)
  have hval := byte_digit hd
  have hsign : numberSign (bytesOf n.text ++ r) =
      (n.neg, bytesOf (digitText n.whole) ++ (bytesOf n.tailText ++ r)) := by
    rw [Numeral.text, bytesOf_append, bytesOf_append, List.append_assoc, List.append_assoc]
    cases n.neg with
    | true => rfl
    | false =>
      rw [if_neg Bool.false_ne_true, bytesOf_nil, List.nil_append, hwhole, bytesOf_digitText hd,
        List.cons_append]
      unfold numberSign
      split
      · rename_i more hmore
        have := congrArg Fin.val (List.cons.inj hmore).1
        rw [hval] at this
        change 0x30 + d = 0x2d at this
        omega
      · rfl
  rw [parseNumber_eq, hsign]
  dsimp only
  have htake : ∀ {rest : Bytes}, NoDigit rest →
      takeDigits (bytesOf (digitText n.whole) ++ rest) = (n.whole, rest) :=
    fun hrest => takeDigits_digitText hdigits hrest
  have hrest : NoDigit (bytesOf n.tailText ++ r) := by
    intro c s h
    rw [Numeral.tailText, bytesOf_append, List.append_assoc] at h
    cases hfrac : n.frac with
    | some fs =>
      rw [hfrac, Option.elim_some, bytesOf_cons] at h
      obtain rfl : (0x2e : Byte) = c := (List.cons.inj h).1
      decide
    | none =>
      rw [hfrac, Option.elim_none, bytesOf_nil, List.nil_append] at h
      cases hexpo : n.expo with
      | some e =>
        rw [hexpo, Option.elim_some, Exponent.text, bytesOf_cons] at h
        rcases (hn.expo e hexpo).1 with hmark | hmark
        · rw [hmark] at h
          obtain rfl : (0x65 : Byte) = c := (List.cons.inj h).1
          decide
        · rw [hmark] at h
          obtain rfl : (0x45 : Byte) = c := (List.cons.inj h).1
          decide
      | none =>
        rw [hexpo, Option.elim_none, bytesOf_nil, List.nil_append] at h
        exact (hr.head c s h).1
  rw [htake hrest]
  by_cases hzero : d = 0
  · subst hzero
    obtain rfl := hn.zero ds hwhole
    rw [hwhole] at htail ⊢
    exact htail
  · rw [hwhole] at htail ⊢
    rw [bytesOf_digitText hd, List.cons_append]
    dsimp only
    rw [if_neg, if_pos (by omega)]
    · exact htail
    · intro h
      have := congrArg Fin.val h
      rw [hval] at this
      change 0x30 + d = 0x30 at this
      omega

/-- **What is read as a number.** -/
lemma parseNumber_spec {b r : Bytes} {v : Value} (h : parseNumber b = .ok (v, r)) :
    ∃ n : Numeral, n.WellFormed ∧ n.Finite ∧ v = n.value ∧ b = bytesOf n.text ++ r := by
  have hsign : b = bytesOf (if (numberSign b).1 then [ch '-'] else []) ++ (numberSign b).2 := by
    unfold numberSign
    split
    · rfl
    · simp
  rw [parseNumber_eq] at h
  have hbuild : ∀ {whole : List ℕ} {rest : Bytes}, Digits whole →
      (∀ ds, whole = 0 :: ds → ds = []) → (numberSign b).2 = bytesOf (digitText whole) ++ rest →
      parseNumberTail (numberSign b).1 whole rest = .ok (v, r) →
      ∃ n : Numeral, n.WellFormed ∧ n.Finite ∧ v = n.value ∧ b = bytesOf n.text ++ r := by
    intro whole rest hwhole hzero hbytes htail
    obtain ⟨n, r', hneg, rfl, hfrac, hexpo, hrest, hfinish⟩ := parseNumberTail_spec htail
    have hn : n.WellFormed := ⟨hwhole, hzero, hfrac, hexpo⟩
    obtain ⟨hv, hfinite, rfl⟩ := finishNumber_spec hn hfinish
    refine ⟨n, hn, hfinite, hv, ?_⟩
    rw [Numeral.text, bytesOf_append, bytesOf_append, List.append_assoc, List.append_assoc, ← hrest,
      ← hbytes, hneg]
    exact hsign
  split at h
  · cases h
  · rename_i c more hrest
    split_ifs at h with hc hdigit
    · refine hbuild ⟨by simp, by simp⟩ (by simp) ?_ h
      rw [hrest, hc]
      rfl
    · obtain ⟨hall, hbytes⟩ := takeDigits_spec (b := (numberSign b).2) rfl
      have hhead : (takeDigits (numberSign b).2).1 =
          (c.val - 0x30) :: (takeDigits more).1 := by
        rw [hrest, takeDigits, if_pos (by omega)]
      refine hbuild ⟨by rw [hhead]; simp, hall⟩ ?_ hbytes h
      intro ds hds
      rw [hhead] at hds
      have := (List.cons.inj hds).1
      omega

end VitrialSync.Beam.JSON
