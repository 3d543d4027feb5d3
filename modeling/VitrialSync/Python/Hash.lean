import VitrialSync.Python.Codec

set_option relaxedAutoImplicit false
set_option autoImplicit false

/-!
# `hashlib.sha256`

The digest that identifies a push request and a bill of materials, written out over 32-bit words:
padding, message schedule and compression.

## Main definitions

* `Python.Sha256.digest` — the eight words of the digest.
* `Python.Sha256.hexdigest` — `hashlib.sha256(data).hexdigest()`.
-/

namespace Python.Sha256

/-- A 32-bit word. -/
abbrev Word := BitVec 32

/-- The round constants. -/
def roundConstants : List Word :=
  [0x428a2f98, 0x71374491, 0xb5c0fbcf, 0xe9b5dba5, 0x3956c25b, 0x59f111f1, 0x923f82a4, 0xab1c5ed5,
    0xd807aa98, 0x12835b01, 0x243185be, 0x550c7dc3, 0x72be5d74, 0x80deb1fe, 0x9bdc06a7, 0xc19bf174,
    0xe49b69c1, 0xefbe4786, 0x0fc19dc6, 0x240ca1cc, 0x2de92c6f, 0x4a7484aa, 0x5cb0a9dc, 0x76f988da,
    0x983e5152, 0xa831c66d, 0xb00327c8, 0xbf597fc7, 0xc6e00bf3, 0xd5a79147, 0x06ca6351, 0x14292967,
    0x27b70a85, 0x2e1b2138, 0x4d2c6dfc, 0x53380d13, 0x650a7354, 0x766a0abb, 0x81c2c92e, 0x92722c85,
    0xa2bfe8a1, 0xa81a664b, 0xc24b8b70, 0xc76c51a3, 0xd192e819, 0xd6990624, 0xf40e3585, 0x106aa070,
    0x19a4c116, 0x1e376c08, 0x2748774c, 0x34b0bcb5, 0x391c0cb3, 0x4ed8aa4a, 0x5b9cca4f, 0x682e6ff3,
    0x748f82ee, 0x78a5636f, 0x84c87814, 0x8cc70208, 0x90befffa, 0xa4506ceb, 0xbef9a3f7, 0xc67178f2]

/-- The chaining state. -/
structure State where
  (a b c d e f g h : Word)

/-- The initial chaining state. -/
def State.initial : State :=
  ⟨0x6a09e667, 0xbb67ae85, 0x3c6ef372, 0xa54ff53a, 0x510e527f, 0x9b05688c, 0x1f83d9ab, 0x5be0cd19⟩

/-- Componentwise addition. -/
def State.add (s t : State) : State :=
  ⟨s.a + t.a, s.b + t.b, s.c + t.c, s.d + t.d, s.e + t.e, s.f + t.f, s.g + t.g, s.h + t.h⟩

/-- The words of the state in order. -/
def State.words (s : State) : List Word := [s.a, s.b, s.c, s.d, s.e, s.f, s.g, s.h]

/-- One round with a schedule word and a round constant. -/
def State.round (s : State) (w k : Word) : State :=
  let big1 := s.e.rotateRight 6 ^^^ s.e.rotateRight 11 ^^^ s.e.rotateRight 25
  let choice := (s.e &&& s.f) ^^^ (~~~s.e &&& s.g)
  let t1 := s.h + big1 + choice + k + w
  let big0 := s.a.rotateRight 2 ^^^ s.a.rotateRight 13 ^^^ s.a.rotateRight 22
  let majority := (s.a &&& s.b) ^^^ (s.a &&& s.c) ^^^ (s.b &&& s.c)
  ⟨t1 + (big0 + majority), s.a, s.b, s.c, s.d + t1, s.e, s.f, s.g⟩

/-- The next schedule word from the last sixteen, latest first. -/
def nextWord (last : List Word) : Word :=
  let w2 := last.getD 1 0
  let w15 := last.getD 14 0
  let small0 := w15.rotateRight 7 ^^^ w15.rotateRight 18 ^^^ (w15 >>> 3)
  let small1 := w2.rotateRight 17 ^^^ w2.rotateRight 19 ^^^ (w2 >>> 10)
  last.getD 15 0 + small0 + last.getD 6 0 + small1

/-- The message schedule, latest word first, extended by `n` words. -/
def extendSchedule : ℕ → List Word → List Word
  | 0, ws => ws
  | n + 1, ws => extendSchedule n (nextWord ws :: ws)

/-- Compression of one block of sixteen words. -/
def compress (s : State) (block : List Word) : State :=
  let schedule := (extendSchedule 48 block.reverse).reverse
  s.add ((schedule.zip roundConstants).foldl (fun st wk => st.round wk.1 wk.2) s)

/-- Big-endian words of a byte sequence. -/
def words : Bytes → List Word
  | a :: b :: c :: d :: rest =>
    BitVec.ofNat 32 (((a.val * 0x100 + b.val) * 0x100 + c.val) * 0x100 + d.val) :: words rest
  | _ => []

/-- The padding of a message of `n` bytes: a one bit, zeros, and the length in bits. -/
def padding (n : ℕ) : Bytes :=
  byte 0x80 :: (List.replicate ((119 - n % 64) % 64) 0 ++
    (List.range 8).map fun i => byte (8 * n / 256 ^ (7 - i)))

/-- Compress the blocks of a padded message; the first argument bounds their number. -/
def compressAll : ℕ → State → List Word → State
  | 0, s, _ => s
  | n + 1, s, ws => if ws.isEmpty then s else compressAll n (compress s (ws.take 16)) (ws.drop 16)

/-- The words of the digest. -/
def digest (data : Bytes) : List Word :=
  let ws := words (data ++ padding data.length)
  (compressAll (ws.length / 16) State.initial ws).words

/-- A lower-case hexadecimal digit. -/
def hexChar (n : ℕ) : CodePoint :=
  if n % 16 < 10 then digitChar (n % 16) else ⟨0x61 + (n % 16 - 10), letter_lt n⟩

/-- `hashlib.sha256(data).hexdigest()`. -/
def hexdigest (data : Bytes) : Str :=
  (digest data).flatMap fun w => (List.range 8).map fun i => hexChar (w.toNat / 16 ^ (7 - i))

end Python.Sha256
