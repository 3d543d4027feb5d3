import VitrialSync.Beam.Terms
import VitrialSync.Python.Calendar
import VitrialSync.Python.Codec
import VitrialSync.Python.Hash

set_option relaxedAutoImplicit false
set_option autoImplicit false

/-!
# Timestamps and fingerprints on the BEAM

`VitrialSync.Timestamp`, `VitrialSync.CanonicalJSON` on the map that a fingerprint hashes, and
`VitrialSync.Fingerprint`. A timestamp is read with `DateTime.from_iso8601/1`, which wants an offset
and gives the instant in UTC; a text that it refuses raises.

## Main definitions

* `VitrialSync.Beam.Timestamp.fromIso8601?` — `DateTime.from_iso8601/1`.
* `VitrialSync.Beam.Timestamp.normalize` — `Timestamp.normalize/1`.
* `VitrialSync.Beam.Fingerprint.of` — `Fingerprint.of/1`.
-/

namespace VitrialSync.Beam

open Python

namespace Timestamp

/-! ### Reading -/

/-- A `DateTime` in UTC; the year may be negative. -/
structure Utc where
  year : ℤ
  (month day hour minute second microsecond : ℕ)
  deriving DecidableEq

/-- The next `n` ASCII digits, as a number. -/
def digits? (n : ℕ) (s : Str) : Option (ℕ × Str) :=
  let head := s.take n
  if head.length = n ∧ head.all fun c => 0x30 ≤ c.val && c.val ≤ 0x39 then
    some (ofDigits (head.map fun c => c.val - 0x30), s.drop n)
  else none

/-- The next character is one of the given ones. -/
def skip? (allowed : List Char) : Str → Option Str
  | [] => none
  | c :: s => if (allowed.map CodePoint.ofChar).contains c then some s else none

/-- A leading sign, minus one or one. -/
def takeSign : Str → ℤ × Str
  | [] => (1, [])
  | c :: s =>
    if c = CodePoint.ofChar '-' then (-1, s)
    else if c = CodePoint.ofChar '+' then (1, s)
    else (1, c :: s)

/-- The microseconds of an optional fraction: its first six digits. -/
def takeMicroseconds? : Str → Option (ℕ × Str)
  | [] => some (0, [])
  | c :: s =>
    if c = CodePoint.ofChar '.' ∨ c = CodePoint.ofChar ',' then
      let digits := s.takeWhile fun c => 0x30 ≤ c.val && c.val ≤ 0x39
      if digits.isEmpty then none
      else
        let kept := (digits.take 6).map fun c => c.val - 0x30
        some (ofDigits kept * 10 ^ (6 - kept.length), s.drop digits.length)
    else some (0, c :: s)

/-- The offset in seconds of a text that is nothing but an offset. -/
def offset? (s : Str) : Option ℤ :=
  if s = Str.ofString "Z" then some 0
  else if s = Str.ofString "-00:00" then none
  else
    match s with
    | [] => none
    | c :: rest =>
      if c = CodePoint.ofChar '-' ∨ c = CodePoint.ofChar '+' then do
        let (hours, rest) ← digits? 2 rest
        let (minutes, rest) ←
          if rest.isEmpty then some (0, []) else digits? 2 ((skip? [':'] rest).getD rest)
        if rest.isEmpty ∧ hours < 24 ∧ minutes < 60 then
          let seconds : ℤ := (hours * 60 + minutes) * 60
          return if c = CodePoint.ofChar '-' then -seconds else seconds
        else none
      else none

/-- The number of days of a month. -/
def daysInMonth (year : ℤ) (month : ℕ) : ℕ :=
  if month = 2 then
    if year % 4 = 0 ∧ (year % 100 ≠ 0 ∨ year % 400 = 0) then 29 else 28
  else if month = 4 ∨ month = 6 ∨ month = 9 ∨ month = 11 then 30
  else 31

/-- The civil fields some seconds before the given ones. The years are moved by 10000, a multiple
of the calendar's period, to be counted from zero. -/
def Utc.before (t : Utc) (offset : ℤ) : Utc :=
  let days := DateTime.daysFromCivil (t.year + 10000).toNat t.month t.day
  let civil : ℤ := 86400 * (days : ℤ) + 3600 * t.hour + 60 * t.minute + t.second
  let total := (civil - offset).toNat
  let (year, month, day) := DateTime.civilFromDays (total / 86400)
  let s := total % 86400
  ⟨(year : ℤ) - 10000, month, day, s / 3600, s / 60 % 60, s % 60, t.microsecond⟩

/-- `DateTime.from_iso8601/1`: the instant in UTC. -/
def fromIso8601? (text : Str) : Option Utc := do
  let (sign, s) := takeSign text
  let (year, s) ← digits? 4 s
  let s ← skip? ['-'] s
  let (month, s) ← digits? 2 s
  let s ← skip? ['-'] s
  let (day, s) ← digits? 2 s
  let s ← skip? ['T', ' '] s
  let (hour, s) ← digits? 2 s
  let s ← skip? [':'] s
  let (minute, s) ← digits? 2 s
  let s ← skip? [':'] s
  let (second, s) ← digits? 2 s
  let (microsecond, s) ← takeMicroseconds? s
  let offset ← offset? s
  let year := sign * year
  if 1 ≤ month ∧ month ≤ 12 ∧ 1 ≤ day ∧ day ≤ daysInMonth year month ∧ hour < 24 ∧ minute < 60 ∧
      second < 60 then
    return Utc.before ⟨year, month, day, hour, minute, second, microsecond⟩ offset
  else none

/-! ### Rendering -/

/-- `pad/2`. -/
def pad (n : ℤ) (width : ℕ) : Str :=
  let text := Str.ofInt n
  List.replicate (width - text.length) (CodePoint.ofChar '0') ++ text

/-- `render/1`; a `DateTime` in UTC has offset zero. -/
def render (t : Utc) : Str :=
  pad t.year 4 ++ Str.ofString "-" ++ pad t.month 2 ++ Str.ofString "-" ++ pad t.day 2 ++
    Str.ofString "T" ++ pad t.hour 2 ++ Str.ofString ":" ++ pad t.minute 2 ++ Str.ofString ":" ++
    pad t.second 2 ++ (if t.microsecond = 0 then [] else Str.ofString "." ++ pad t.microsecond 6) ++
    Str.ofString "+00:00"

/-- `normalize/1`. -/
def normalize (timestamp : Str) : Except Raised Str :=
  match fromIso8601? timestamp with
  | some t => .ok (render t)
  | none => .error .argumentError

end Timestamp

namespace CanonicalJSON

/-! ### Canonical JSON -/

/-- `escape_unit/1`. -/
def escapeUnit (n : ℕ) : Str :=
  Str.ofString "\\u" ++ [12, 8, 4, 0].map fun shift => Sha256.hexChar (n / 2 ^ shift)

/-- `@short_escapes`. -/
def shortEscapes : List (ℕ × String) :=
  [(0x22, "\\\""), (0x5c, "\\\\"), (0x08, "\\b"), (0x0c, "\\f"), (0x0a, "\\n"), (0x0d, "\\r"),
    (0x09, "\\t")]

/-- `escape_char/1`. -/
def escapeChar (char : CodePoint) : Str :=
  let n := char.val
  if 0xffff < n then
    escapeUnit (0xd800 + (n - 0x10000) / 0x400) ++ escapeUnit (0xdc00 + (n - 0x10000) % 0x400)
  else
    match shortEscapes.lookup n with
    | some escaped => Str.ofString escaped
    | none => if n < 0x20 ∨ 0x7f ≤ n then escapeUnit n else [char]

/-- A text between quotes. -/
def quoted (text : Str) : Str :=
  CodePoint.ofChar '"' :: (text.flatMap escapeChar ++ [CodePoint.ofChar '"'])

/-- `encode_value/2` of the scalars that a mutation has. -/
def encodeScalar : Value → Str
  | .str s => quoted s
  | .int n => Str.ofInt n
  | _ => Str.ofString "null"

/-- `encode/1` of a flat map that is given in the order of its keys. -/
def encodeFlat (pairs : List (String × Value)) : Str :=
  let members := pairs.map fun (key, value) =>
    quoted key ++ Str.ofString ":" ++ encodeScalar value
  Str.ofString "\x7b" ++ (members.intersperse (Str.ofString ",")).flatten ++ Str.ofString "\x7d"

end CanonicalJSON

namespace Fingerprint

/-! ### Fingerprints -/

/-- `Fingerprint.mutation`. -/
structure Mutation where
  entityType : Str
  entityId : Str
  baseServerRevision : Option ℕ
  updatedAt : Str
  deletedAt : Option Str
  payload : Bytes

/-- A revision as a term. -/
def optionalRevision : Option ℕ → Value
  | some n => .int n
  | none => .none

/-- `deleted_at && Timestamp.normalize(deleted_at)`. -/
def normalizedDeletion : Option Str → Except Raised Value
  | some t => (Timestamp.normalize t).map .str
  | none => .ok .none

/-- `canonical_bytes/1`, which are ASCII. -/
def canonicalBytes (m : Mutation) : Except Raised Bytes := do
  let deletedAt ← normalizedDeletion m.deletedAt
  let updatedAt ← Timestamp.normalize m.updatedAt
  let text := CanonicalJSON.encodeFlat
    [("baseServerRevision", optionalRevision m.baseServerRevision), ("deletedAt", deletedAt),
      ("entityID", .str m.entityId), ("entityType", .str m.entityType),
      ("payload", .str ((b64encode m.payload).map Byte.toCodePoint)),
      ("updatedAt", .str updatedAt)]
  return text.map fun c => byte c.val

/-- `of/1`. -/
def of (m : Mutation) : Except Raised Str := (canonicalBytes m).map Sha256.hexdigest

end Fingerprint

end VitrialSync.Beam
