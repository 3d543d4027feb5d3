import VitrialSync.Python.Text

set_option relaxedAutoImplicit false
set_option autoImplicit false

/-!
# Byte codecs

The text encodings and the base64 alphabet that sync payloads travel in, as CPython 3.12 decodes
and encodes them: UTF-8, UTF-16 and UTF-32 with the `surrogatepass` error handler that
`json.loads` uses, and `base64.b64decode(s, validate=True)` with its strict padding rules.

## Main definitions

* `Python.Byte`, `Python.Bytes` — the built-in `bytes`.
* `Python.utf8`, `Python.encodeUtf8?` — UTF-8 encoding, which refuses surrogates.
* `Python.decodeUtf8?`, `Python.decodeUtf16?`, `Python.decodeUtf32?` — the decoders.
* `Python.b64encode`, `Python.b64decode?` — base64.
* `Python.utf8Length` — the length of a text in UTF-8.

## Main results

* `Python.length_b64encode` — four characters for every started group of three bytes.
* `Python.b64decode?_of_head` — a text that starts outside the alphabet is no base64.
* `Python.decodeUtf8?_ascii` — ASCII text decodes to itself.
-/

namespace Python

/-- A byte. -/
abbrev Byte := Fin 256

/-- The built-in `bytes`. -/
abbrev Bytes := List Byte

/-- Numerals below 256 are bytes. -/
instance (priority := 2000) Byte.neZero : NeZero 256 := ⟨by decide⟩

/-- A number below 256 as a byte, reduced otherwise. -/
def byte (n : ℕ) : Byte := ⟨n % 256, Nat.mod_lt _ (by decide)⟩

/-- ASCII text as bytes. -/
def Bytes.ofString (s : String) : Bytes := s.toList.map fun c => byte c.toNat

/-- A byte as the code point of the same number. -/
def Byte.toCodePoint (b : Byte) : CodePoint := b.castLE (by decide)

/-- A number as a code point, when there is one. -/
def codePoint? (n : ℕ) : Option CodePoint := if h : n < 0x110000 then some ⟨n, h⟩ else none

/-! ### UTF-8 -/

/-- The UTF-8 form of one code point (of a surrogate too, as `surrogatepass` would). -/
def utf8 (c : CodePoint) : Bytes :=
  let n := c.val
  if n < 0x80 then [byte n]
  else if n < 0x800 then [byte (0xc0 + n / 0x40), byte (0x80 + n % 0x40)]
  else if n < 0x10000 then
    [byte (0xe0 + n / 0x1000), byte (0x80 + n / 0x40 % 0x40), byte (0x80 + n % 0x40)]
  else
    [byte (0xf0 + n / 0x40000), byte (0x80 + n / 0x1000 % 0x40), byte (0x80 + n / 0x40 % 0x40),
      byte (0x80 + n % 0x40)]

/-- `s.encode("utf-8")`, with `none` for `UnicodeEncodeError` on a surrogate. -/
def encodeUtf8? (s : Str) : Option Bytes :=
  if s.any CodePoint.isSurrogate then none else some (s.flatMap utf8)

/-- Whether a byte continues a UTF-8 sequence. -/
def isTail (b : Byte) : Bool := 0x80 ≤ b.val && b.val < 0xc0

/-- The UTF-8 decoding loop: `need` continuation bytes are owed, `acc` are the bits read so far
and `low` is the least code point that may be written in so many bytes. -/
def utf8Loop : Bytes → (need acc low : ℕ) → Option Str
  | [], need, _, _ => if need = 0 then some [] else none
  | b :: rest, need, acc, low =>
    if need = 0 then
      if b.val < 0x80 then (utf8Loop rest 0 0 0).map (b.toCodePoint :: ·)
      else if 0xc2 ≤ b.val ∧ b.val < 0xe0 then utf8Loop rest 1 (b.val - 0xc0) 0x80
      else if 0xe0 ≤ b.val ∧ b.val < 0xf0 then utf8Loop rest 2 (b.val - 0xe0) 0x800
      else if 0xf0 ≤ b.val ∧ b.val < 0xf5 then utf8Loop rest 3 (b.val - 0xf0) 0x10000
      else none
    else
      let n := acc * 0x40 + (b.val - 0x80)
      if !isTail b then none
      else if need ≠ 1 then utf8Loop rest (need - 1) n low
      -- an overlong form is an error; a surrogate is not, by `surrogatepass`
      else if n < low then none
      else (codePoint? n).bind fun c => (utf8Loop rest 0 0 0).map (c :: ·)

/-- `bs.decode("utf-8", "surrogatepass")`. -/
def decodeUtf8? (bs : Bytes) : Option Str := utf8Loop bs 0 0 0

/-! ### UTF-16 and UTF-32 -/

/-- The 16-bit units of a byte sequence; an odd byte left over is an error. -/
def units16? (big : Bool) : Bytes → Option (List ℕ)
  | [] => some []
  | [_] => none
  | a :: b :: rest =>
    let n := if big then a.val * 0x100 + b.val else b.val * 0x100 + a.val
    (units16? big rest).map (n :: ·)

/-- Join surrogate pairs; a lone surrogate stays, by `surrogatepass`. The argument `high` is a
high surrogate that waits for its partner. -/
def joinUnits? : List ℕ → (high : Option ℕ) → Option Str
  | [], none => some []
  | [], some h => (codePoint? h).map ([·])
  | u :: rest, none =>
    if 0xd800 ≤ u ∧ u < 0xdc00 then joinUnits? rest (some u)
    else (codePoint? u).bind fun c => (joinUnits? rest none).map (c :: ·)
  | u :: rest, some h =>
    if 0xdc00 ≤ u ∧ u < 0xe000 then
      (codePoint? (0x10000 + (h - 0xd800) * 0x400 + (u - 0xdc00))).bind fun c =>
        (joinUnits? rest none).map (c :: ·)
    else
      (codePoint? h).bind fun c =>
        if 0xd800 ≤ u ∧ u < 0xdc00 then (joinUnits? rest (some u)).map (c :: ·)
        else (codePoint? u).bind fun d => (joinUnits? rest none).map (c :: d :: ·)

/-- `bs.decode("utf-16-be" | "utf-16-le", "surrogatepass")`. -/
def decodeUtf16? (big : Bool) (bs : Bytes) : Option Str :=
  (units16? big bs).bind (joinUnits? · none)

/-- `bs.decode("utf-32-be" | "utf-32-le", "surrogatepass")`. -/
def decodeUtf32? (big : Bool) : Bytes → Option Str
  | [] => some []
  | a :: b :: c :: d :: rest =>
    let n := if big then ((a.val * 0x100 + b.val) * 0x100 + c.val) * 0x100 + d.val
      else ((d.val * 0x100 + c.val) * 0x100 + b.val) * 0x100 + a.val
    (codePoint? n).bind fun x => (decodeUtf32? big rest).map (x :: ·)
  | _ => none

/-! ### Base64 -/

/-- The padding character. -/
def padByte : Byte := 0x3d

/-- The character of a 6-bit group. -/
def base64Char (n : ℕ) : Byte :=
  if n < 26 then byte (0x41 + n)
  else if n < 52 then byte (0x61 + (n - 26))
  else if n < 62 then byte (0x30 + (n - 52))
  else if n = 62 then byte 0x2b else byte 0x2f

/-- The 6-bit group of a character of the alphabet. -/
def base64Value? (b : Byte) : Option ℕ :=
  let n := b.val
  if 0x41 ≤ n ∧ n ≤ 0x5a then some (n - 0x41)
  else if 0x61 ≤ n ∧ n ≤ 0x7a then some (n - 0x61 + 26)
  else if 0x30 ≤ n ∧ n ≤ 0x39 then some (n - 0x30 + 52)
  else if n = 0x2b then some 62
  else if n = 0x2f then some 63
  else none

/-- `base64.b64encode(bs)`. -/
def b64encode : Bytes → Bytes
  | [] => []
  | [a] => [base64Char (a.val / 4), base64Char (a.val % 4 * 16), padByte, padByte]
  | [a, b] =>
    [base64Char (a.val / 4), base64Char (a.val % 4 * 16 + b.val / 16),
      base64Char (b.val % 16 * 4), padByte]
  | a :: b :: c :: rest =>
    base64Char (a.val / 4) :: base64Char (a.val % 4 * 16 + b.val / 16) ::
      base64Char (b.val % 16 * 4 + c.val / 64) :: base64Char (c.val % 64) :: b64encode rest

/-- The decoding loop of `binascii.a2b_base64` in strict mode: `quad` characters of the current
group have been read, `left` are its unwritten bits, `pads` counts consecutive padding characters
and `started` says that padding has begun. -/
def a2bLoop : Bytes → (quad left pads : ℕ) → (started : Bool) → Option Bytes
  | [], quad, _, _, _ => if quad = 0 then some [] else none
  | ch :: rest, quad, left, pads, started =>
    if ch = padByte then
      if 2 ≤ quad then
        -- a full group of data and padding ends the input
        if 4 ≤ quad + (pads + 1) then (if rest.isEmpty then some [] else none)
        else a2bLoop rest quad left (pads + 1) true
      else a2bLoop rest quad left pads true
    else
      match base64Value? ch with
      | none => none
      | some v =>
        if started then none
        else if quad = 0 then a2bLoop rest 1 v 0 started
        else if quad = 1 then
          (a2bLoop rest 2 (v % 16) 0 started).map (byte (left * 4 + v / 16) :: ·)
        else if quad = 2 then
          (a2bLoop rest 3 (v % 4) 0 started).map (byte (left * 16 + v / 4) :: ·)
        else (a2bLoop rest 0 0 0 started).map (byte (left * 64 + v) :: ·)

/-- `base64.b64decode(s, validate=True)`, with `none` for `binascii.Error`. -/
def b64decode? (s : Bytes) : Option Bytes :=
  if s.head? = some padByte then none else a2bLoop s 0 0 0 false

/-! ### Lengths and simple texts -/

/-- Base64 writes four characters for every started group of three bytes.

**Proof sketch.** The recursion of `b64encode`: one, two or three bytes make one group, and the
tail after three bytes is shorter by one group. -/
lemma length_b64encode (bs : Bytes) : (b64encode bs).length = 4 * ((bs.length + 2) / 3) := by
  induction bs using b64encode.induct with
  | case1 => rfl
  | case2 a => simp [b64encode]
  | case3 a b => simp [b64encode]
  | case4 a b c rest ih =>
    simp only [b64encode, List.length_cons, ih]
    omega

/-- A text whose first character is outside the alphabet is no base64. -/
lemma b64decode?_of_head {a : Byte} (s : Bytes) (ha : a ≠ padByte)
    (hv : base64Value? a = none) : b64decode? (a :: s) = none := by
  simp [b64decode?, a2bLoop, ha, hv]

/-- ASCII bytes decode as UTF-8 to the code points of the same numbers. -/
lemma decodeUtf8?_ascii (s : Str) (h : ∀ c ∈ s, c.val < 0x80) :
    decodeUtf8? (s.map fun c => byte c.val) = some s := by
  unfold decodeUtf8?
  induction s with
  | nil => rfl
  | cons c s ih =>
    have hc : c.val < 0x80 := h c List.mem_cons_self
    have hb : (byte c.val).val = c.val := Nat.mod_eq_of_lt (Nat.lt_trans hc (by decide))
    have hrest := ih fun d hd => h d (List.mem_cons_of_mem _ hd)
    have hcast : (byte c.val).toCodePoint = c := Fin.ext hb
    simp only [List.map_cons, utf8Loop, hb, hc, ↓reduceIte, hrest, Option.map_some, hcast]

/-! ### The length in UTF-8 -/

/-- `len(text.encode("utf-8"))`. -/
def utf8Length (s : Str) : ℕ := (s.flatMap utf8).length

/-- The UTF-8 length of two texts. -/
@[simp]
lemma utf8Length_append (s t : Str) : utf8Length (s ++ t) = utf8Length s + utf8Length t := by
  simp [utf8Length]

/-- The UTF-8 length with one more character. -/
@[simp]
lemma utf8Length_cons (c : CodePoint) (s : Str) :
    utf8Length (c :: s) = (utf8 c).length + utf8Length s := by
  simp [utf8Length]

/-- The UTF-8 length of the empty text. -/
@[simp]
lemma utf8Length_nil : utf8Length [] = 0 := rfl

/-- A character has at most four bytes. -/
lemma length_utf8_le (c : CodePoint) : (utf8 c).length ≤ 4 := by
  simp only [utf8]
  split_ifs <;> simp

/-- An ASCII character has one byte. -/
lemma length_utf8_ascii {c : CodePoint} (h : c.val < 0x80) : (utf8 c).length = 1 := by
  simp [utf8, h]

/-- ASCII text has a byte for every character. -/
lemma utf8Length_ascii {s : Str} (h : ∀ c ∈ s, c.val < 0x80) : utf8Length s = s.length := by
  induction s with
  | nil => rfl
  | cons c s ih =>
    rw [List.forall_mem_cons] at h
    rw [utf8Length_cons, length_utf8_ascii h.1, ih h.2, List.length_cons, Nat.add_comm]

end Python
