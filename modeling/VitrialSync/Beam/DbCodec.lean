import VitrialSync.Beam.Cursor
import VitrialSync.Beam.FingerprintParity
import VitrialSync.Beam.Frames
import VitrialSync.Beam.JsonEncoder
import VitrialSync.Python.CivilDays

set_option relaxedAutoImplicit false
set_option autoImplicit false

/-!
# Values on the way to the database

`VitrialSync.Db.Codec`: the parameters of a statement, and the cells of a row by the type of their
column. JSON documents go through the JSON module both ways. A timestamp is written in UTC and read
at the offset of the session; its text is a civil date and time, a fraction of a second and an
offset.

Times are Elixir's, whose years are -9999 to 9999, so the fields of a date and time are such fields.

## Main definitions

* `VitrialSync.Beam.Codec.encodeParam` — `encode_param/1`.
* `VitrialSync.Beam.Codec.decodeCell`, `VitrialSync.Beam.Codec.decodeRow` — `decode_cell/2` and
  `decode_row/2`.
* `VitrialSync.Beam.Codec.Stamp` — the text of a timestamp with an offset, and what it denotes.
* `VitrialSync.Beam.Codec.printed` — the text that the server prints.

## Main results

* `VitrialSync.Beam.Codec.json_round_trip_iff` — which JSON is read back, also through a column.
* `VitrialSync.Beam.Codec.timestamp_round_trip` — so are timestamps.
-/

namespace VitrialSync.Beam.Codec

open Python Program
open Python.Json (Digits digitText)
open JSON (bytesOf byte_val)
open Pgconn (Param)
open Program.Wire (Reader Reads andThen result)

/-! ### Terms -/

/-- The fields of a date and time of the calendar. -/
structure Valid (t : Timestamp.Utc) : Prop where
  year : -9999 ≤ t.year ∧ t.year ≤ 9999
  month : 1 ≤ t.month ∧ t.month ≤ 12
  day : 1 ≤ t.day ∧ t.day ≤ Timestamp.daysInMonth t.year t.month
  hour : t.hour < 24
  minute : t.minute < 60
  second : t.second < 60
  microsecond : t.microsecond < 1000000

instance (t : Timestamp.Utc) : Decidable (Valid t) :=
  decidable_of_iff ((-9999 ≤ t.year ∧ t.year ≤ 9999) ∧ (1 ≤ t.month ∧ t.month ≤ 12) ∧
      (1 ≤ t.day ∧ t.day ≤ Timestamp.daysInMonth t.year t.month) ∧ t.hour < 24 ∧ t.minute < 60 ∧
      t.second < 60 ∧ t.microsecond < 1000000)
    ⟨fun ⟨y, mo, d, h, mi, s, us⟩ => ⟨y, mo, d, h, mi, s, us⟩,
      fun ⟨y, mo, d, h, mi, s, us⟩ => ⟨y, mo, d, h, mi, s, us⟩⟩

/-- A `NaiveDateTime`: its fields, and the precision of the microsecond. -/
structure NaiveDateTime where
  fields : Timestamp.Utc
  precision : ℕ
  valid : Valid fields

/-- A `DateTime`: the time on the clock of its zone, and the offsets of the zone in seconds. -/
structure DateTime extends NaiveDateTime where
  utcOffset : ℤ
  stdOffset : ℤ
  timeZone : Str
  utc : timeZone = Str.ofString "Etc/UTC" → utcOffset = 0 ∧ stdOffset = 0

/-- The terms at the boundary of the database. -/
inductive Term where
  | value (v : Value)
  | binary (b : Bytes)
  | dateTime (t : DateTime)
  | naiveDateTime (t : NaiveDateTime)
  /-- An atom, a tuple, or another struct. -/
  | other

/-! ### Parameters -/

/-- A number of `~W..0B`: zeros in front, and stars when it does not fit. -/
def field (n : ℤ) (width : ℕ) : Str :=
  if width < (Str.ofInt n).length then List.replicate width (CodePoint.ofChar '*')
  else Timestamp.pad n width

/-- `timestamp_text_utc/1`. -/
def timestampTextUtc (t : Timestamp.Utc) : Bytes :=
  bytesOf (field t.year 4 ++ Str.ofString "-" ++ field t.month 2 ++ Str.ofString "-" ++
    field t.day 2 ++ Str.ofString " " ++ field t.hour 2 ++ Str.ofString ":" ++ field t.minute 2 ++
    Str.ofString ":" ++ field t.second 2 ++ Str.ofString "." ++ field t.microsecond 6 ++
    Str.ofString "+00")

/-- The fields after a shift by an offset, which the calendar has for its years only. -/
def shift (t : Timestamp.Utc) (offset : ℤ) (precision : ℕ) : Except Raised NaiveDateTime :=
  if h : Valid (t.before offset) then .ok ⟨t.before offset, precision, h⟩
  else .error .functionClauseError

/-- `shift_to_utc/1`, as the fields in UTC. -/
def shiftToUtc (t : DateTime) : Except Raised NaiveDateTime :=
  if t.timeZone = Str.ofString "Etc/UTC" then .ok t.toNaiveDateTime
  else shift t.fields (t.utcOffset + t.stdOffset) t.precision

/-- `encode_param/1`. -/
def encodeParam (runtime : Runtime) : Term → Except Raised Param
  | .value .none => .ok .null
  | .value (.int n) => .ok (.int n)
  | .value (.float x) => .ok (.float x)
  | .value (.bool b) => .ok (.bool b)
  | .value (.str s) => .ok (.binary (bytesOf s))
  | .binary b => .ok (.binary b)
  | .dateTime t => do
    let utc ← shiftToUtc t
    return .binary (timestampTextUtc utc.fields)
  | .naiveDateTime t => .ok (.binary (timestampTextUtc t.fields))
  | .value (.dict d) => do
    let bytes ← JSON.encode runtime (.dict d)
    return .binary bytes
  | .value (.list xs) => do
    let bytes ← JSON.encode runtime (.list xs)
    return .binary bytes
  | .other => .error .argumentError

/-! ### The text of a timestamp -/

/-- `\d`. -/
def isDigit (c : Byte) : Bool := 0x30 ≤ c.val && c.val ≤ 0x39

/-- `\d{n}`. -/
def digits (n : ℕ) : Reader Bytes := fun b =>
  if (b.take n).length = n ∧ (b.take n).all isDigit = true then some (b.take n, b.drop n) else none

/-- A character. -/
def character (c : Byte) : Reader Unit
  | [] => none
  | d :: b => if d = c then some ((), b) else none

/-- The first six groups, with what stands between them. -/
def civilGroups : Reader (List Bytes) :=
  andThen (digits 4) fun y => andThen (character 0x2d) fun _ =>
  andThen (digits 2) fun mo => andThen (character 0x2d) fun _ =>
  andThen (digits 2) fun d => andThen (character 0x20) fun _ =>
  andThen (digits 2) fun h => andThen (character 0x3a) fun _ =>
  andThen (digits 2) fun mi => andThen (character 0x3a) fun _ =>
  andThen (digits 2) fun s => result [y, mo, d, h, mi, s]

/-- `(?:\.(\d{1,6}))?`. What follows the group is no digit, so it takes as many as it can. -/
def fractionGroup (b : Bytes) : Option Bytes × Bytes :=
  match b with
  | 0x2e :: rest =>
    let taken := (rest.takeWhile isDigit).take 6
    if taken.isEmpty then (none, b) else (some taken, rest.drop taken.length)
  | _ => (none, b)

/-- `(?::?(\d{2}))?`. -/
def minuteGroup (b : Bytes) : Option Bytes × Bytes :=
  let rest := match b with
    | 0x3a :: rest => rest
    | _ => b
  match digits 2 rest with
  | some (minutes, more) => (some minutes, more)
  | none => (none, b)

/-- `(?:([+-])(\d{2})(?::?(\d{2}))?)?`. -/
def offsetGroups (b : Bytes) : List Bytes × Bytes :=
  match b with
  | [] => ([], [])
  | sign :: rest =>
    if sign = 0x2b ∨ sign = 0x2d then
      match digits 2 rest with
      | some (hours, more) =>
        let (minutes, more) := minuteGroup more
        ([sign] :: hours :: minutes.toList, more)
      | none => ([], b)
    else ([], b)

/-- The groups of `Regex.run(@timestamp_regex, text)`. A group that took no part is left out at the
end of the list, and is empty before another one; the end is also in front of a last newline. -/
def run (text : Bytes) : Option (List Bytes) :=
  match civilGroups text with
  | none => none
  | some (groups, rest) =>
    let (fraction, rest) := fractionGroup rest
    let (offset, rest) := offsetGroups rest
    if rest = [] ∨ rest = [0x0a] then
      if offset.isEmpty then some (groups ++ fraction.toList)
      else some (groups ++ [fraction.getD []] ++ offset)
    else none

/-- `String.to_integer/1`. -/
def toInteger (b : Bytes) : Except Raised ℤ :=
  match Cursor.integerParse b with
  | some (n, []) => .ok n
  | _ => .error .argumentError

/-- `offset_seconds/3`. -/
def offsetSeconds (sign offH offM : Bytes) : Except Raised ℤ := do
  let hours ← toInteger offH
  let minutes ← toInteger offM
  let seconds := hours * 3600 + minutes * 60
  if sign = [0x2b] then .ok seconds
  else if sign = [0x2d] then .ok (-seconds)
  else .error .caseClauseError

/-- The microsecond of a fraction, and its precision. -/
def micro (frac : Option Bytes) : Except Raised (ℤ × ℕ) :=
  if frac.getD [] = [] then .ok (0, 0)
  else do
    let n ← toInteger ((frac.getD [] ++ Bytes.ofString "000000").take 6)
    return (n, 6)

/-- `from_parts/8`. -/
def fromParts (y mo d h mi s : Bytes) (frac : Option Bytes) (offset : ℤ) :
    Except Raised DateTime := do
  let (microsecond, precision) ← micro frac
  let year ← toInteger y
  let month ← toInteger mo
  let day ← toInteger d
  let hour ← toInteger h
  let minute ← toInteger mi
  let second ← toInteger s
  let fields : Timestamp.Utc := ⟨year, month.toNat, day.toNat, hour.toNat, minute.toNat,
    second.toNat, microsecond.toNat⟩
  if Valid fields then
    let utc ← shift fields offset precision
    return ⟨utc, 0, 0, Str.ofString "Etc/UTC", fun _ => ⟨rfl, rfl⟩⟩
  else .error .argumentError

/-- `parse_timestamp_text/1`. -/
def parseTimestampText (text : Bytes) : Except Raised DateTime :=
  match run text with
  | some [y, mo, d, h, mi, s, frac, sign, offH, offM] => do
    let offset ← offsetSeconds sign offH offM
    fromParts y mo d h mi s (some frac) offset
  | some [y, mo, d, h, mi, s, frac, sign, offH] => do
    let offset ← offsetSeconds sign offH (Bytes.ofString "0")
    fromParts y mo d h mi s (some frac) offset
  | some [y, mo, d, h, mi, s] => fromParts y mo d h mi s none 0
  | some [y, mo, d, h, mi, s, frac] => fromParts y mo d h mi s (some frac) 0
  | _ => .error .argumentError

/-! ### Cells -/

/-- The fields of a column that decide how its cells are read. -/
structure Field where
  name : Bytes
  typeOid : ℕ

/-- `Float.parse/1` of a whole text; what overflows raises. -/
def toFloat (cell : Bytes) : Except Raised Binary64 :=
  let (neg, rest) := JSON.exponentSign cell
  let (whole, rest) := JSON.takeDigits rest
  if whole = [] then .error .argumentError
  else
    let (fraction, rest) : List ℕ × Bytes :=
      match rest with
      | 0x2e :: more =>
        if (JSON.takeDigits more).1 = [] then ([], rest) else JSON.takeDigits more
      | _ => ([], rest)
    let (exponent, rest) : ℤ × Bytes :=
      match rest with
      | marker :: more =>
        if marker = 0x65 ∨ marker = 0x45 then
          match Cursor.integerParse more with
          | some (n, more) => (n, more)
          | none => (0, rest)
        else (0, rest)
      | [] => (0, rest)
    let q := ofDigits (whole ++ fraction) * Binary64.pow10 (exponent - fraction.length)
    let x := Binary64.ofRat neg (if neg then -q else q)
    if x.isFinite ∧ rest = [] then .ok x else .error .argumentError

/-- `decode_text/2`. -/
def decodeText (cell : Bytes) (oid : ℕ) : Except Raised Term :=
  if oid ∈ [21, 23, 20, 26] then do
    let n ← toInteger cell
    return .value (.int n)
  else if oid = 16 then
    if cell = Bytes.ofString "t" then .ok (.value (.bool true))
    else if cell = Bytes.ofString "f" then .ok (.value (.bool false))
    else .error .argumentError
  else if oid ∈ [700, 701] then do
    let x ← toFloat cell
    return .value (.float x)
  else if oid ∈ [1114, 1184] then do
    let t ← parseTimestampText cell
    return .dateTime t
  else if oid ∈ [114, 3802] then
    match JSON.decode cell with
    | .ok decoded => .ok (.value decoded)
    | .error _ => .error .argumentError
  else .ok (.binary cell)

/-- `decode_cell/2`. -/
def decodeCell (cell : Option Bytes) (field : Field) : Except Raised Term :=
  match cell with
  | none => .ok (.value .none)
  | some cell => decodeText cell field.typeOid

/-- `decode_row/2`. -/
def decodeRow (fields : List Field) (cells : List (Option Bytes)) :
    Except Raised (List (Bytes × Term)) :=
  if fields.length ≠ cells.length then .error .argumentError
  else (fields.zip cells).foldlM (fun row (column : Field × Option Bytes) => do
    let term ← decodeCell column.2 column.1
    return assign row column.1.name term) []

/-! ### What a timestamp denotes -/

/-- The seconds from 1 March of the year -10000. -/
def seconds (t : Timestamp.Utc) : ℤ :=
  86400 * (Python.DateTime.daysFromCivil (t.year + 10000).toNat t.month t.day : ℤ) +
    3600 * t.hour + 60 * t.minute + t.second

/-- The instant of a `DateTime`, in seconds. -/
def DateTime.instant (t : DateTime) : ℤ := seconds t.fields - (t.utcOffset + t.stdOffset)

/-- The year of a `DateTime` in UTC. -/
def DateTime.utcYear (t : DateTime) : ℤ := (t.fields.before (t.utcOffset + t.stdOffset)).year

/-- A timestamp as text: the clock of a zone, the digits of a fraction, and the offset of the zone
in minutes, whose own minutes are spelled out or not. -/
structure Stamp where
  (year month day hour minute second : ℕ)
  fraction : List ℕ
  offset : ℤ
  spelled : Bool
  deriving DecidableEq

/-- A stamp of the calendar, with four digits of a year, at most six of a fraction, and two of the
hours of an offset. -/
structure Stamp.WellFormed (s : Stamp) : Prop where
  year : s.year ≤ 9999
  month : 1 ≤ s.month ∧ s.month ≤ 12
  day : 1 ≤ s.day ∧ s.day ≤ Timestamp.daysInMonth s.year s.month
  hour : s.hour < 24
  minute : s.minute < 60
  second : s.second < 60
  fraction : s.fraction.length ≤ 6 ∧ ∀ d ∈ s.fraction, d < 10
  offset : s.offset.natAbs < 6000
  spelled : s.spelled = false → s.offset.natAbs % 60 = 0

/-- Its text. -/
def Stamp.text (s : Stamp) : Str :=
  Python.DateTime.padded 4 s.year ++ Str.ofString "-" ++ Python.DateTime.padded 2 s.month ++
    Str.ofString "-" ++ Python.DateTime.padded 2 s.day ++ Str.ofString " " ++
    Python.DateTime.padded 2 s.hour ++ Str.ofString ":" ++ Python.DateTime.padded 2 s.minute ++
    Str.ofString ":" ++ Python.DateTime.padded 2 s.second ++
    (if s.fraction = [] then [] else Str.ofString "." ++ digitText s.fraction) ++
    Str.ofString (if s.offset < 0 then "-" else "+") ++
    Python.DateTime.padded 2 (s.offset.natAbs / 60) ++
    (if s.spelled then Str.ofString ":" ++ Python.DateTime.padded 2 (s.offset.natAbs % 60) else [])

/-- The fields on the clock of its zone. -/
def Stamp.fields (s : Stamp) : Timestamp.Utc :=
  ⟨s.year, s.month, s.day, s.hour, s.minute, s.second,
    ofDigits s.fraction * 10 ^ (6 - s.fraction.length)⟩

/-- The instant that it denotes, in seconds. -/
def Stamp.instant (s : Stamp) : ℤ := seconds s.fields - 60 * s.offset

/-- The text denotes the instant, to the microsecond. -/
def Stamp.Denotes (s : Stamp) (t : DateTime) : Prop :=
  s.WellFormed ∧ s.instant = t.instant ∧ s.fields.microsecond = t.fields.microsecond

/-- The digits of a number in a width. -/
def digitsOf : ℕ → ℕ → List ℕ
  | 0, _ => []
  | width + 1, n => digitsOf width (n / 10) ++ [n % 10]

/-- What the server prints for an instant at an offset in minutes: the fraction without the zeros at
its end, and the minutes of the offset when there are any. -/
def printed (t : DateTime) (offset : ℤ) : Stamp :=
  let clock := t.fields.before (t.utcOffset + t.stdOffset - 60 * offset)
  ⟨clock.year.toNat, clock.month, clock.day, clock.hour, clock.minute, clock.second,
    Python.Json.trimDigits (digitsOf 6 t.fields.microsecond), offset, offset.natAbs % 60 != 0⟩

/-! ### Moving by an offset -/

/-- The calendar of Elixir's years is that of the years from zero. -/
lemma daysInMonth_sub (year month : ℕ) :
    Timestamp.daysInMonth ((year : ℤ) - 10000) month = Python.DateTime.daysInMonth year month := by
  have hfour : ((year : ℤ) - 10000) % 4 = 0 ↔ year % 4 = 0 := by omega
  have hhundred : ((year : ℤ) - 10000) % 100 = 0 ↔ year % 100 = 0 := by omega
  have hera : ((year : ℤ) - 10000) % 400 = 0 ↔ year % 400 = 0 := by omega
  simp only [Timestamp.daysInMonth, Python.DateTime.daysInMonth, ne_eq, hfour, hhundred, hera]

/-- The fields at an offset: they are of the calendar, and have the instant. -/
lemma before_spec {t : Timestamp.Utc} {offset : ℤ} (h : offset ≤ seconds t) :
    seconds (t.before offset) = seconds t - offset ∧
      (1 ≤ (t.before offset).month ∧ (t.before offset).month ≤ 12) ∧
      (1 ≤ (t.before offset).day ∧ (t.before offset).day ≤
        Timestamp.daysInMonth (t.before offset).year (t.before offset).month) ∧
      (t.before offset).hour < 24 ∧ (t.before offset).minute < 60 ∧
      (t.before offset).second < 60 := by
  obtain ⟨total, htotal⟩ : ∃ n : ℕ, (n : ℤ) = seconds t - offset :=
    ⟨(seconds t - offset).toNat, by omega⟩
  have htoNat : (86400 * (Python.DateTime.daysFromCivil (t.year + 10000).toNat t.month t.day : ℤ) +
      3600 * t.hour + 60 * t.minute + t.second - offset).toNat = total := by
    unfold seconds at htotal
    omega
  obtain ⟨y, m, d, hcivil, hm, hd, hdays⟩ :=
    Python.DateTime.daysFromCivil_civilFromDays (total / 86400)
  have hbefore : t.before offset = ⟨(y : ℤ) - 10000, m, d, total % 86400 / 3600,
      total % 86400 / 60 % 60, total % 86400 % 60, t.microsecond⟩ := by
    simp only [Timestamp.Utc.before, htoNat, hcivil]
  have hyear : ((y : ℤ) - 10000 + 10000).toNat = y := by omega
  have hhour : total % 86400 / 3600 < 24 := by omega
  have hminute : total % 86400 / 60 % 60 < 60 := by omega
  have hsecond : total % 86400 % 60 < 60 := by omega
  rw [← htotal, hbefore]
  refine ⟨?_, hm, ⟨hd.1, (daysInMonth_sub y m).symm ▸ hd.2⟩, hhour, hminute, hsecond⟩
  simp only [seconds, hyear, hdays]
  omega

/-- The microsecond stays. -/
lemma before_microsecond (t : Timestamp.Utc) (offset : ℤ) :
    (t.before offset).microsecond = t.microsecond := rfl

/-- The fields depend on the instant only. -/
lemma before_congr {t t' : Timestamp.Utc} {offset offset' : ℤ}
    (h : seconds t - offset = seconds t' - offset') (hmicro : t.microsecond = t'.microsecond) :
    t.before offset = t'.before offset' := by
  unfold seconds at h
  simp only [Timestamp.Utc.before, h, hmicro]

/-- Without an offset nothing is moved. -/
lemma before_zero {t : Timestamp.Utc} (h : Valid t) : t.before 0 = t := by
  obtain ⟨y, hy⟩ : ∃ y : ℕ, t.year = (y : ℤ) - 10000 := ⟨(t.year + 10000).toNat, by
    have := h.year.1
    omega⟩
  have hyear : (t.year + 10000).toNat = y := by omega
  have hday := h.day.2
  rw [hy, daysInMonth_sub] at hday
  have hdate : Python.DateTime.civilFromDays (Python.DateTime.daysFromCivil y t.month t.day) =
      (y, t.month, t.day) :=
    Python.DateTime.civilFromDays_daysFromCivil (by have := h.year.1; omega) h.month
      ⟨h.day.1, hday⟩
  have hhour := h.hour
  have hminute := h.minute
  have hsecond := h.second
  simp only [Timestamp.Utc.before, hyear]
  generalize Python.DateTime.daysFromCivil y t.month t.day = days at hdate
  have htotal : (86400 * (days : ℤ) + 3600 * (t.hour : ℤ) + 60 * (t.minute : ℤ) +
      (t.second : ℤ) - 0).toNat = 86400 * days + (3600 * t.hour + 60 * t.minute + t.second) := by
    omega
  have hdays : (86400 * days + (3600 * t.hour + 60 * t.minute + t.second)) / 86400 = days := by
    omega
  have hrest : (86400 * days + (3600 * t.hour + 60 * t.minute + t.second)) % 86400 =
      3600 * t.hour + 60 * t.minute + t.second := by
    omega
  rw [htotal, hdays, hrest, hdate]
  cases t
  simp only [Timestamp.Utc.mk.injEq, true_and, and_true] at hy ⊢
  dsimp only at hhour hminute hsecond
  omega

/-- The fields of a date and time in UTC are of the calendar when their year is. -/
lemma valid_before {t : Timestamp.Utc} (offset : ℤ) (h : t.microsecond < 1000000)
    (hyear : -9999 ≤ (t.before offset).year ∧ (t.before offset).year ≤ 9999) :
    offset ≤ seconds t ∧ Valid (t.before offset) := by
  have hle : offset ≤ seconds t := by
    by_contra hlt
    have hzero : (86400 * (Python.DateTime.daysFromCivil (t.year + 10000).toNat t.month t.day : ℤ) +
        3600 * t.hour + 60 * t.minute + t.second - offset).toNat = 0 := by
      unfold seconds at hlt
      omega
    have hbefore : (t.before offset).year = -10000 := by
      simp only [Timestamp.Utc.before, hzero]
      rfl
    omega
  obtain ⟨-, hmonth, hday, hhour, hminute, hsecond⟩ := before_spec hle
  exact ⟨hle, hyear, hmonth, hday, hhour, hminute, hsecond, h⟩

/-! ### Digits -/

/-- The digits of a number are as many as its width, and write it up to its width. -/
lemma digitsOf_spec (width n : ℕ) : (digitsOf width n).length = width ∧
    (∀ d ∈ digitsOf width n, d < 10) ∧ ofDigits (digitsOf width n) = n % 10 ^ width := by
  induction width generalizing n with
  | zero => exact ⟨rfl, fun _ h => absurd h List.not_mem_nil, by rw [pow_zero, Nat.mod_one]; rfl⟩
  | succ width ih =>
    obtain ⟨hlength, hdigits, hvalue⟩ := ih (n / 10)
    have hone : ofDigits [n % 10] = n % 10 := by simp [ofDigits]
    refine ⟨by simp [digitsOf, hlength], ?_, ?_⟩
    · rw [digitsOf, List.forall_mem_append, List.forall_mem_singleton]
      exact ⟨hdigits, Nat.mod_lt n (by decide)⟩
    · rw [digitsOf, Python.Json.ofDigits_append, hvalue, hone, List.length_singleton, pow_one,
        pow_succ, Nat.mul_comm (10 ^ width) 10, Nat.mod_mul]
      ring

/-- A number in a width is the text of its digits. -/
lemma padded_eq (width n : ℕ) :
    Python.DateTime.padded width n = digitText (digitsOf width n) := by
  induction width generalizing n with
  | zero => rfl
  | succ width ih =>
    have hlast : digitChar n = digitChar (n % 10) := by
      apply Fin.ext
      simp [digitChar]
    rw [Timestamp.padded_succ, ih, digitsOf]
    simp only [digitText, List.map_append, List.map_singleton, hlast]

/-- A number that fits is written in its width. -/
lemma field_eq {width n : ℕ} (hwidth : 1 ≤ width) (h : n < 10 ^ width) :
    field n width = Python.DateTime.padded width n := by
  have hpad := Timestamp.pad_eq_padded hwidth h
  have hlength := congrArg List.length hpad
  rw [Timestamp.pad, List.length_append, List.length_replicate,
    Python.DateTime.length_padded] at hlength
  rw [field, if_neg (by omega), hpad]

/-! ### Writing -/

/-- The stamp that is written: in UTC, with six digits of a fraction. -/
def written (t : Timestamp.Utc) : Stamp :=
  ⟨t.year.toNat, t.month, t.day, t.hour, t.minute, t.second, digitsOf 6 t.microsecond, 0, false⟩

/-- Its text is written. -/
lemma timestampTextUtc_eq {t : Timestamp.Utc} (h : Valid t) (hyear : 0 ≤ t.year) :
    timestampTextUtc t = bytesOf (written t).text := by
  have hnat : ((t.year.toNat : ℕ) : ℤ) = t.year := by omega
  have hmonth := h.month.2
  have hday : t.day ≤ 31 := by
    have := h.day.2
    unfold Timestamp.daysInMonth at this
    split_ifs at this <;> omega
  have hhour := h.hour
  have hminute := h.minute
  have hsecond := h.second
  have hfraction : digitsOf 6 t.microsecond ≠ [] := by
    intro hnil
    have := (digitsOf_spec 6 t.microsecond).1
    rw [hnil] at this
    exact absurd this (by decide)
  have hhours : Python.DateTime.padded 2 ((written t).offset.natAbs / 60) = Str.ofString "00" := by
    change Python.DateTime.padded 2 ((0 : ℤ).natAbs / 60) = _
    decide
  have hzone : Str.ofString "+00" = Str.ofString "+" ++ Str.ofString "00" := by decide
  have htext : (written t).text = Python.DateTime.padded 4 t.year.toNat ++ Str.ofString "-" ++
      Python.DateTime.padded 2 t.month ++ Str.ofString "-" ++ Python.DateTime.padded 2 t.day ++
      Str.ofString " " ++ Python.DateTime.padded 2 t.hour ++ Str.ofString ":" ++
      Python.DateTime.padded 2 t.minute ++ Str.ofString ":" ++ Python.DateTime.padded 2 t.second ++
      (Str.ofString "." ++ digitText (digitsOf 6 t.microsecond)) ++ Str.ofString "+" ++
      Str.ofString "00" ++ [] := by
    rw [Stamp.text, if_neg (show (written t).fraction ≠ [] from hfraction), hhours]
    rfl
  rw [timestampTextUtc, htext, ← hnat, field_eq (by decide) (by have := h.year.2; omega),
    field_eq (by decide) (by omega), field_eq (by decide) (by omega),
    field_eq (by decide) (by omega), field_eq (by decide) (by omega),
    field_eq (by decide) (by omega),
    field_eq (by decide) h.microsecond, padded_eq 6, hzone, Int.toNat_natCast]
  simp only [List.append_assoc, List.append_nil]

/-- The stamp denotes what was written. -/
lemma written_spec {t : Timestamp.Utc} (h : Valid t) (hyear : 0 ≤ t.year) :
    (written t).WellFormed ∧ (written t).fields = t := by
  have hnat : ((t.year.toNat : ℕ) : ℤ) = t.year := by omega
  obtain ⟨hlength, hdigits, hvalue⟩ := digitsOf_spec 6 t.microsecond
  constructor
  · exact ⟨by have := h.year.2; change t.year.toNat ≤ 9999; omega, h.month,
      by change 1 ≤ t.day ∧ t.day ≤ Timestamp.daysInMonth (t.year.toNat : ℤ) t.month
         rw [hnat]
         exact h.day,
      h.hour, h.minute, h.second, ⟨hlength.le, hdigits⟩, show (0 : ℤ).natAbs < 6000 by decide,
      fun _ => rfl⟩
  · have hmicro : ofDigits (digitsOf 6 t.microsecond) *
        10 ^ (6 - (digitsOf 6 t.microsecond).length) = t.microsecond := by
      have := h.microsecond
      rw [hvalue, hlength, Nat.sub_self, pow_zero, mul_one, Nat.mod_eq_of_lt (by omega)]
    rw [Stamp.fields]
    simp only [written, hmicro, hnat]

/-- The fields in UTC. -/
lemma shiftToUtc_eq {t : DateTime} (hyear : 0 ≤ t.utcYear ∧ t.utcYear ≤ 9999) :
    ∃ u, shiftToUtc t = .ok u ∧ u.fields = t.fields.before (t.utcOffset + t.stdOffset) := by
  have hmicro := t.valid.microsecond
  unfold DateTime.utcYear at hyear
  obtain ⟨-, hvalid⟩ := valid_before (t.utcOffset + t.stdOffset) hmicro (by omega)
  by_cases hzone : t.timeZone = Str.ofString "Etc/UTC"
  · obtain ⟨hutc, hstd⟩ := t.utc hzone
    refine ⟨t.toNaiveDateTime, by rw [shiftToUtc, if_pos hzone], ?_⟩
    rw [hutc, hstd, add_zero, before_zero t.valid]
  · refine ⟨⟨_, t.precision, hvalid⟩, ?_, rfl⟩
    rw [shiftToUtc, if_neg hzone, shift, dif_pos hvalid]

/-! ### Reading -/

section Reading

variable {n : ℕ} {ds : List ℕ}

/-- Digits are digits. -/
lemma all_isDigit (h : ∀ d ∈ ds, d < 10) : (bytesOf (digitText ds)).all isDigit = true := by
  induction ds with
  | nil => rfl
  | cons d ds ih =>
    rw [List.forall_mem_cons] at h
    have hval : (byte (0x30 + d)).val = 0x30 + d := byte_val (by omega)
    rw [JSON.bytesOf_digitText h.1, List.all_cons, ih h.2, Bool.and_true, isDigit, hval]
    simp only [Bool.and_eq_true, decide_eq_true_eq]
    omega

/-- So many digits are taken. -/
lemma reads_digits (h : ∀ d ∈ ds, d < 10) (hlength : ds.length = n) :
    Reads (digits n) (bytesOf (digitText ds)) (bytesOf (digitText ds)) := by
  intro rest
  have hbytes : (bytesOf (digitText ds)).length = n :=
    (Cursor.length_bytesOf_digitText h).trans hlength
  rw [digits, List.take_left' hbytes, List.drop_left' hbytes, if_pos ⟨hbytes, all_isDigit h⟩]

/-- A number in a width is taken. -/
lemma reads_padded (width n : ℕ) : Reads (digits width)
    (bytesOf (Python.DateTime.padded width n)) (bytesOf (Python.DateTime.padded width n)) := by
  obtain ⟨hlength, hdigits, -⟩ := digitsOf_spec width n
  rw [padded_eq]
  exact reads_digits hdigits hlength

/-- A character is taken. -/
lemma reads_character (c : Byte) : Reads (character c) [c] () := by
  intro rest
  change character c (c :: rest) = _
  rw [character, if_pos rfl]

/-- Digits are an integer. -/
lemma toInteger_digits (h : Digits ds) :
    toInteger (bytesOf (digitText ds)) = .ok (ofDigits ds) := by
  rw [toInteger, Cursor.integerParse_digitText h]

/-- A number in a width is the number. -/
lemma toInteger_padded (width : ℕ) {n : ℕ} (hwidth : 1 ≤ width) (h : n < 10 ^ width) :
    toInteger (bytesOf (Python.DateTime.padded width n)) = .ok n := by
  obtain ⟨hlength, hdigits, hvalue⟩ := digitsOf_spec width n
  rw [padded_eq, toInteger_digits ⟨?_, hdigits⟩, hvalue, Nat.mod_eq_of_lt h]
  rintro hnil
  rw [hnil] at hlength
  exact absurd hlength (by simp; omega)

end Reading

section Stamps

variable {s : Stamp}

/-- The six groups of the civil date and time. -/
def Stamp.groups (s : Stamp) : List Bytes :=
  [bytesOf (Python.DateTime.padded 4 s.year), bytesOf (Python.DateTime.padded 2 s.month),
    bytesOf (Python.DateTime.padded 2 s.day), bytesOf (Python.DateTime.padded 2 s.hour),
    bytesOf (Python.DateTime.padded 2 s.minute), bytesOf (Python.DateTime.padded 2 s.second)]

/-- The sign of the offset. -/
def Stamp.sign (s : Stamp) : Byte := if s.offset < 0 then 0x2d else 0x2b

/-- The bytes of the fraction. -/
def Stamp.fractionBytes (s : Stamp) : Bytes :=
  if s.fraction = [] then [] else 0x2e :: bytesOf (digitText s.fraction)

/-- The bytes after the sign. -/
def Stamp.offsetBytes (s : Stamp) : Bytes :=
  bytesOf (Python.DateTime.padded 2 (s.offset.natAbs / 60)) ++
    if s.spelled then 0x3a :: bytesOf (Python.DateTime.padded 2 (s.offset.natAbs % 60)) else []

/-- The text in its parts: after the civil date and time the fraction and the offset. -/
lemma civilGroups_text (s : Stamp) : civilGroups (bytesOf s.text) =
    some (s.groups, s.fractionBytes ++ s.sign :: s.offsetBytes) := by
  have hdash : bytesOf (Str.ofString "-") = [0x2d] := by decide
  have hblank : bytesOf (Str.ofString " ") = [0x20] := by decide
  have hcolon : bytesOf (Str.ofString ":") = [0x3a] := by decide
  have hdot : bytesOf (Str.ofString ".") = [0x2e] := by decide
  have hplus : bytesOf (Str.ofString "+") = [0x2b] := by decide
  have hsign : bytesOf (Str.ofString (if s.offset < 0 then "-" else "+")) = [s.sign] := by
    unfold Stamp.sign
    split_ifs
    · exact hdash
    · exact hplus
  have hfraction : bytesOf (if s.fraction = [] then [] else
      Str.ofString "." ++ digitText s.fraction) = s.fractionBytes := by
    unfold Stamp.fractionBytes
    split_ifs
    · rfl
    · rw [JSON.bytesOf_append, hdot]
      rfl
  have hspelled : bytesOf (if s.spelled then Str.ofString ":" ++
      Python.DateTime.padded 2 (s.offset.natAbs % 60) else []) =
      if s.spelled then 0x3a :: bytesOf (Python.DateTime.padded 2 (s.offset.natAbs % 60))
      else [] := by
    split_ifs
    · rw [JSON.bytesOf_append, hcolon]
      rfl
    · rfl
  have hread : Reads civilGroups (bytesOf (Python.DateTime.padded 4 s.year) ++ ([0x2d] ++
      (bytesOf (Python.DateTime.padded 2 s.month) ++ ([0x2d] ++
      (bytesOf (Python.DateTime.padded 2 s.day) ++ ([0x20] ++
      (bytesOf (Python.DateTime.padded 2 s.hour) ++ ([0x3a] ++
      (bytesOf (Python.DateTime.padded 2 s.minute) ++ ([0x3a] ++
      bytesOf (Python.DateTime.padded 2 s.second))))))))))) s.groups := by
    refine (reads_padded 4 s.year).bind ((reads_character 0x2d).bind ?_)
    refine (reads_padded 2 s.month).bind ((reads_character 0x2d).bind ?_)
    refine (reads_padded 2 s.day).bind ((reads_character 0x20).bind ?_)
    refine (reads_padded 2 s.hour).bind ((reads_character 0x3a).bind ?_)
    refine (reads_padded 2 s.minute).bind ((reads_character 0x3a).bind ?_)
    exact (reads_padded 2 s.second).last (Wire.reads_result _)
  have htext := hread (s.fractionBytes ++ s.sign :: s.offsetBytes)
  rw [Stamp.text]
  simp only [JSON.bytesOf_append, hdash, hblank, hcolon, hsign, hfraction, hspelled,
    List.append_assoc] at htext ⊢
  exact htext

/-- The fraction is taken up to the sign. -/
lemma fractionGroup_text (h : s.WellFormed) :
    fractionGroup (s.fractionBytes ++ s.sign :: s.offsetBytes) =
    (if s.fraction = [] then none else some (bytesOf (digitText s.fraction)),
      s.sign :: s.offsetBytes) := by
  have hsign : s.sign ≠ 0x2e ∧ isDigit s.sign = false := by
    unfold Stamp.sign
    split_ifs <;> decide
  obtain ⟨hlength, hdigits⟩ := h.fraction
  by_cases hnil : s.fraction = []
  · rw [Stamp.fractionBytes, if_pos hnil, if_pos hnil, List.nil_append, fractionGroup]
    intro rest hrest
    exact hsign.1 (List.cons.inj hrest).1
  · have hall := List.all_eq_true.mp (all_isDigit hdigits)
    have htaken : (bytesOf (digitText s.fraction) ++ s.sign :: s.offsetBytes).takeWhile isDigit =
        bytesOf (digitText s.fraction) := by
      rw [List.takeWhile_append_of_pos hall, List.takeWhile_cons_of_neg (by simp [hsign.2]),
        List.append_nil]
    have hbytes := Cursor.length_bytesOf_digitText hdigits
    have htake : (bytesOf (digitText s.fraction)).take 6 = bytesOf (digitText s.fraction) :=
      List.take_of_length_le (by omega)
    have hsome : (bytesOf (digitText s.fraction)).isEmpty = false := by
      rw [List.isEmpty_eq_false_iff, ← List.length_pos_iff, hbytes]
      exact List.length_pos_iff.mpr hnil
    rw [Stamp.fractionBytes, if_neg hnil, if_neg hnil, List.cons_append]
    simp only [fractionGroup, htaken, htake, hsome, Bool.false_eq_true, if_false,
      List.drop_left]

/-- The offset is taken up to the end. -/
lemma offsetGroups_text (s : Stamp) : offsetGroups (s.sign :: s.offsetBytes) =
    ([s.sign] :: bytesOf (Python.DateTime.padded 2 (s.offset.natAbs / 60)) ::
      (if s.spelled then [bytesOf (Python.DateTime.padded 2 (s.offset.natAbs % 60))] else []),
      []) := by
  have hsign : s.sign = 0x2b ∨ s.sign = 0x2d := by
    unfold Stamp.sign
    split_ifs
    · exact Or.inr rfl
    · exact Or.inl rfl
  rw [offsetGroups, if_pos hsign, Stamp.offsetBytes, reads_padded 2 (s.offset.natAbs / 60)]
  cases s.spelled with
  | true =>
    have hminutes := (reads_padded 2 (s.offset.natAbs % 60)).all
    simp only [minuteGroup, if_true, hminutes, Option.toList_some]
  | false => rfl

/-- The groups of the text. -/
lemma run_text (h : s.WellFormed) : run (bytesOf s.text) = some (s.groups ++
    [if s.fraction = [] then [] else bytesOf (digitText s.fraction)] ++ [s.sign] ::
      bytesOf (Python.DateTime.padded 2 (s.offset.natAbs / 60)) ::
      if s.spelled then [bytesOf (Python.DateTime.padded 2 (s.offset.natAbs % 60))] else []) := by
  simp only [run, civilGroups_text, fractionGroup_text h, offsetGroups_text, true_or, if_true,
    List.isEmpty_cons, Bool.false_eq_true, if_false]
  congr 3
  split_ifs <;> rfl

/-- The offset of the text. -/
lemma offsetSeconds_text (h : s.WellFormed) {minutes : Bytes}
    (hminutes : toInteger minutes = .ok ((s.offset.natAbs % 60 : ℕ) : ℤ)) :
    offsetSeconds [s.sign] (bytesOf (Python.DateTime.padded 2 (s.offset.natAbs / 60))) minutes =
      .ok (60 * s.offset) := by
  have hrange := h.offset
  have hhours := toInteger_padded 2 (n := s.offset.natAbs / 60) (by decide) (by omega)
  have hsum : ((s.offset.natAbs / 60 : ℕ) : ℤ) * 3600 + ((s.offset.natAbs % 60 : ℕ) : ℤ) * 60 =
      60 * (s.offset.natAbs : ℤ) := by
    omega
  simp only [offsetSeconds, hhours, hminutes, ok_bind, hsum]
  unfold Stamp.sign
  by_cases hneg : s.offset < 0
  · rw [if_pos hneg, if_neg (by decide), if_pos rfl]
    congr 1
    omega
  · rw [if_neg hneg, if_pos rfl]
    congr 1
    omega

/-- The microsecond of the text. -/
lemma micro_text (h : s.WellFormed) : ∃ precision,
    micro (some (if s.fraction = [] then [] else bytesOf (digitText s.fraction))) =
      .ok ((s.fields.microsecond : ℤ), precision) := by
  obtain ⟨hlength, hdigits⟩ := h.fraction
  by_cases hnil : s.fraction = []
  · refine ⟨0, ?_⟩
    have hzero : s.fields.microsecond = 0 := by
      simp only [Stamp.fields, hnil]
      rfl
    rw [micro, if_pos hnil, Option.getD_some, if_pos rfl, hzero]
    rfl
  · refine ⟨6, ?_⟩
    have hbytes := Cursor.length_bytesOf_digitText hdigits
    have hpositive := List.length_pos_iff.mpr hnil
    have hsome : bytesOf (digitText s.fraction) ≠ [] := by
      rw [← List.length_pos_iff, hbytes]
      exact hpositive
    have hzeros : Bytes.ofString "000000" = bytesOf (digitText (List.replicate 6 0)) := by decide
    have htake : (bytesOf (digitText s.fraction) ++ Bytes.ofString "000000").take 6 =
        bytesOf (digitText (s.fraction ++ List.replicate (6 - s.fraction.length) 0)) := by
      have hrest : (bytesOf (digitText (List.replicate 6 0))).take (6 - s.fraction.length) =
          bytesOf (digitText (List.replicate (6 - s.fraction.length) 0)) := by
        have hall : ∀ k : Fin 7, (bytesOf (digitText (List.replicate 6 0))).take k.val =
            bytesOf (digitText (List.replicate k.val 0)) := by decide
        exact hall ⟨6 - s.fraction.length, by omega⟩
      rw [hzeros, List.take_append, List.take_of_length_le (by omega), hbytes, hrest,
        ← JSON.bytesOf_append]
      simp only [digitText, List.map_append]
    have hformed : Digits (s.fraction ++ List.replicate (6 - s.fraction.length) 0) := by
      refine ⟨by simp [hnil], List.forall_mem_append.mpr ⟨hdigits, ?_⟩⟩
      intro d hd
      rw [List.eq_of_mem_replicate hd]
      decide
    have hvalue : ofDigits (s.fraction ++ List.replicate (6 - s.fraction.length) 0) =
        s.fields.microsecond := by
      rw [Python.Json.ofDigits_append, Python.Json.ofDigits_replicate_zero, List.length_replicate,
        add_zero]
      rfl
    rw [micro, if_neg hnil, Option.getD_some, if_neg hsome, htake, toInteger_digits hformed,
      hvalue]
    rfl

/-- The fields of a stamp are of the calendar. -/
lemma Stamp.WellFormed.valid (h : s.WellFormed) : Valid s.fields := by
  obtain ⟨hlength, hdigits⟩ := h.fraction
  refine ⟨?_, h.month, h.day, h.hour, h.minute, h.second, ?_⟩
  · have hyear : s.fields.year = (s.year : ℤ) := rfl
    have := h.year
    omega
  · have hlt := Python.Json.ofDigits_lt hdigits
    have hpow : (10 : ℕ) ^ s.fraction.length * 10 ^ (6 - s.fraction.length) = 1000000 := by
      rw [← pow_add, Nat.add_sub_cancel' hlength]
      decide
    calc s.fields.microsecond = ofDigits s.fraction * 10 ^ (6 - s.fraction.length) := rfl
      _ < 10 ^ s.fraction.length * 10 ^ (6 - s.fraction.length) :=
        Nat.mul_lt_mul_of_pos_right hlt (by positivity)
      _ = 1000000 := hpow

/-- **What is read.** A stamp is read as its fields at the offset of zero.

**Proof sketch.** The groups are the numbers of the stamp in their widths; the fraction is filled up
to six digits. -/
theorem parseTimestampText_text (h : s.WellFormed)
    (hvalid : Valid (s.fields.before (60 * s.offset))) :
    ∃ u : DateTime, parseTimestampText (bytesOf s.text) = .ok u ∧
      u.fields = s.fields.before (60 * s.offset) ∧ u.utcOffset = 0 ∧ u.stdOffset = 0 ∧
      u.timeZone = Str.ofString "Etc/UTC" := by
  obtain ⟨precision, hmicro⟩ := micro_text h
  have hday : s.day < 10 ^ 2 := by
    have := h.day.2
    unfold Timestamp.daysInMonth at this
    split_ifs at this <;> omega
  have hparts : fromParts (bytesOf (Python.DateTime.padded 4 s.year))
      (bytesOf (Python.DateTime.padded 2 s.month)) (bytesOf (Python.DateTime.padded 2 s.day))
      (bytesOf (Python.DateTime.padded 2 s.hour)) (bytesOf (Python.DateTime.padded 2 s.minute))
      (bytesOf (Python.DateTime.padded 2 s.second))
      (some (if s.fraction = [] then [] else bytesOf (digitText s.fraction))) (60 * s.offset) =
      .ok ⟨⟨s.fields.before (60 * s.offset), precision, hvalid⟩, 0, 0, Str.ofString "Etc/UTC",
        fun _ => ⟨rfl, rfl⟩⟩ := by
    have hfields : (⟨s.year, s.month, s.day, s.hour, s.minute, s.second, s.fields.microsecond⟩ :
        Timestamp.Utc) = s.fields := rfl
    rw [fromParts, hmicro]
    simp only [ok_bind, toInteger_padded 4 (by decide) (show s.year < 10 ^ 4 by
        have := h.year; omega),
      toInteger_padded 2 (by decide) (show s.month < 10 ^ 2 by have := h.month; omega),
      toInteger_padded 2 (by decide) hday,
      toInteger_padded 2 (by decide) (show s.hour < 10 ^ 2 by have := h.hour; omega),
      toInteger_padded 2 (by decide) (show s.minute < 10 ^ 2 by have := h.minute; omega),
      toInteger_padded 2 (by decide) (show s.second < 10 ^ 2 by have := h.second; omega),
      Int.toNat_natCast, hfields, if_pos h.valid, shift, dif_pos hvalid]
    rfl
  refine ⟨⟨⟨s.fields.before (60 * s.offset), precision, hvalid⟩, 0, 0, Str.ofString "Etc/UTC",
    fun _ => ⟨rfl, rfl⟩⟩, ?_, rfl, rfl, rfl, rfl⟩
  rw [parseTimestampText, run_text h]
  cases hspelled : s.spelled with
  | true =>
    have hminutes := toInteger_padded 2 (n := s.offset.natAbs % 60) (by decide)
      (by omega)
    simp only [Stamp.groups, List.cons_append, List.nil_append, if_true,
      offsetSeconds_text h hminutes, ok_bind, hparts]
  | false =>
    have hminutes : toInteger (Bytes.ofString "0") = .ok ((s.offset.natAbs % 60 : ℕ) : ℤ) := by
      rw [h.spelled hspelled]
      rfl
    simp only [Stamp.groups, List.cons_append, List.nil_append, Bool.false_eq_true, if_false,
      offsetSeconds_text h hminutes, ok_bind, hparts]

end Stamps

/-! ### JSON documents -/

/-- A column of a row has the term of its cell. -/
lemma lookup_decodeRow {columns : List (Field × Option Bytes)} {row : List (Bytes × Term)}
    (hnames : (columns.map fun c => c.1.name).Nodup)
    (h : decodeRow (columns.map Prod.fst) (columns.map Prod.snd) = .ok row)
    {c : Field × Option Bytes} (hc : c ∈ columns) {term : Term}
    (hterm : decodeCell c.2 c.1 = .ok term) : row.lookup c.1.name = some term := by
  have hzip : (columns.map Prod.fst).zip (columns.map Prod.snd) = columns := by
    rw [List.zip_map', List.map_id'']
    exact fun _ => rfl
  rw [decodeRow, if_neg (by simp), hzip] at h
  refine foldlM_inv_done (P := fun done row => ∀ c ∈ done, ∀ term, decodeCell c.2 c.1 = .ok term →
    row.lookup c.1.name = some term) ?_ (fun _ h => absurd h List.not_mem_nil) h c hc term hterm
  intro done x rest b b' hsplit hdone hstep
  obtain ⟨term', hterm', hb'⟩ := bind_eq_ok.mp hstep
  have hb : b' = assign b x.1.name term' := (Except.ok.inj hb').symm
  subst hb
  rw [List.forall_mem_append, List.forall_mem_singleton]
  constructor
  · intro c hc term hterm
    have hne : c.1.name ≠ x.1.name := by
      rw [hsplit, List.map_append, List.map_cons] at hnames
      have hdisjoint := List.disjoint_of_nodup_append hnames
      exact fun hname => hdisjoint (List.mem_map_of_mem hc) (hname ▸ List.mem_cons_self)
    rw [lookup_assign, if_neg (by simpa using hne)]
    exact hdone c hc term hterm
  · intro term hterm
    rw [hterm'] at hterm
    rw [lookup_assign, if_pos (by simp), Except.ok.inj hterm]

/-- A term is read back: it is encoded, and the bytes are decoded to the same term. A map or a list
is bound to a statement as these bytes, and the cell of a column of JSON with these bytes is the
same term again, in its row. -/
def ReadBack (runtime : Runtime) (v : Value) : Prop :=
  ∃ io w, JSON.encode runtime v = .ok io ∧ JSON.decode io = .ok w ∧ JSON.strictEq v w = true ∧
    (((∃ d, v = .dict d) ∨ ∃ xs, v = .list xs) →
      encodeParam runtime (.value v) = .ok (.binary io)) ∧
    ∀ field : Field, field.typeOid = 114 ∨ field.typeOid = 3802 →
      decodeCell (some io) field = .ok (.value w) ∧
        ∀ columns : List (Field × Option Bytes), (columns.map fun c => c.1.name).Nodup →
          (field, some io) ∈ columns → ∀ row,
            decodeRow (columns.map Prod.fst) (columns.map Prod.snd) = .ok row →
              row.lookup field.name = some (.value w)

/-- What is encoded is read back.

**Proof sketch.** The decoder reads the text that the encoder writes (`JSON.decode_encode`), and the
order of a map is no part of the term (`JSON.strictEq_reread`). -/
lemma readBack_of_encode {runtime : Runtime} (hshort : Runtime.ReadsBack runtime.short) {v : Value}
    (hv : JSON.IsTerm v) (hnesting : JSON.nesting v ≤ JSON.maxDepth + 1) {io : Bytes}
    (hencode : JSON.encode runtime v = .ok io) : ReadBack runtime v := by
  have hdecode := JSON.decode_encode hshort hv hnesting hencode
  refine ⟨io, JSON.reread runtime v, hencode, hdecode, JSON.strictEq_reread runtime hv.wellFormed,
    ?_, ?_⟩
  · rintro (⟨d, rfl⟩ | ⟨xs, rfl⟩) <;> rw [encodeParam, hencode] <;> rfl
  · intro field hoid
    have hcell : decodeCell (some io) field = .ok (.value (JSON.reread runtime v)) := by
      rcases hoid with hoid | hoid <;> simp only [decodeCell, decodeText, hoid, hdecode] <;> rfl
    exact ⟨hcell, fun columns hnames hmem row hrow => lookup_decodeRow hnames hrow hmem hcell⟩

/-- **JSON is read back exactly when it is written**: a term of JSON that is nested within the bound
of the decoder and has strings of UTF-8 is read back if and only if none of its strings and keys has
a control character without an escape of one letter. For the others `encode/1` raises, as
`encode_param/1` does for a map or a list.

**Proof sketch.** These are the terms that are written (`JSON.encodeValue_isOk_iff`), and what is
written is read back (`readBack_of_encode`). -/
theorem json_round_trip_iff {runtime : Runtime} (hshort : Runtime.ReadsBack runtime.short)
    {v : Value} (hv : JSON.IsTerm v) (htexts : ∀ s ∈ v.texts, JSON.Scalar s)
    (hnesting : JSON.nesting v ≤ JSON.maxDepth + 1) :
    ReadBack runtime v ↔ ∀ s ∈ v.texts, ∀ c ∈ s, ¬ JSON.Unescapable c := by
  constructor
  · rintro ⟨io, -, hencode, -⟩ s hs c hc
    obtain ⟨t, ht, -⟩ := map_eq_ok.mp hencode
    exact ((JSON.encodeValue_isOk_iff runtime v).mp ⟨t, ht⟩ s hs c hc).1
  · intro h
    obtain ⟨t, ht⟩ := (JSON.encodeValue_isOk_iff runtime v).mpr fun s hs c hc =>
      ⟨h s hs c hc, htexts s hs c hc⟩
    exact readBack_of_encode hshort hv hnesting (map_eq_ok.mpr ⟨t, ht, rfl⟩)

namespace Sample

/-- A runtime. -/
def runtime : Runtime := ⟨Runtime.shortText, fun _ a b => decide (a.length ≤ b.length)⟩

/-- A document with a text of all kinds of characters that are written, a number of each kind, and a
list. -/
def document : Value :=
  .dict [(Str.ofString "text", .str [⟨0x22, by decide⟩, ⟨0x0a, by decide⟩, ⟨0x7f, by decide⟩,
      ⟨0xe9, by decide⟩, ⟨0x1f600, by decide⟩]),
    (Str.ofString "n", .list [.int 1, .float (Binary64.ofInt 1), .none, .bool true])]

/-- It is a term of JSON. -/
lemma isTerm_document : JSON.IsTerm document := by
  constructor
  · simp only [document, Value.WellFormed, Value.WellFormedItems, Value.WellFormedList, and_true]
    decide
  · have hleaves : document.leaves = [.int 1, .float (Binary64.ofInt 1), .none, .bool true] := rfl
    intro x hx
    rw [hleaves] at hx
    simp only [List.mem_cons, reduceCtorEq, Value.float.injEq, List.not_mem_nil, or_false,
      false_or] at hx
    rw [hx]
    decide +kernel

/-- Texts that are searched. -/
lemma texts_of_all {v : Value} {P : CodePoint → Prop} [DecidablePred P]
    (h : v.texts.all (fun s => s.all fun c => P c) = true) : ∀ s ∈ v.texts, ∀ c ∈ s, P c := by
  intro s hs c hc
  simpa using List.all_eq_true.mp (List.all_eq_true.mp h s hs) c hc

/-- A document with the character U+0001. -/
def controlled : Value := .dict [(Str.ofString "text", .str [⟨0x01, by decide⟩])]

end Sample

/-- The first document is read back. -/
theorem json_round_trip_iff_document : ReadBack Sample.runtime Sample.document :=
  (json_round_trip_iff Runtime.shortText_renders.readsBack Sample.isTerm_document
    (Sample.texts_of_all (by decide +kernel)) (by decide +kernel)).mpr
    (Sample.texts_of_all (by decide +kernel))

/-- The second one is neither encoded nor bound. -/
theorem json_round_trip_controlled :
    JSON.IsTerm Sample.controlled ∧ (∀ s ∈ Sample.controlled.texts, JSON.Scalar s) ∧
      JSON.nesting Sample.controlled ≤ JSON.maxDepth + 1 ∧
      JSON.encode Sample.runtime Sample.controlled = .error .argumentError ∧
      encodeParam Sample.runtime (.value Sample.controlled) = .error .argumentError ∧
      ¬ ReadBack Sample.runtime Sample.controlled := by
  have hencode : JSON.encode Sample.runtime Sample.controlled = .error .argumentError := rfl
  refine ⟨⟨?_, ?_⟩, ?_, by decide, hencode, rfl, ?_⟩
  · simp only [Sample.controlled, Value.WellFormed, Value.WellFormedItems, and_true]
    decide
  · have hleaves : Sample.controlled.leaves = [] := rfl
    intro x hx
    rw [hleaves] at hx
    cases hx
  · exact Sample.texts_of_all (by decide +kernel)
  · rintro ⟨io, -, hok, -⟩
    rw [hencode] at hok
    cases hok

/-! ### Timestamps -/

/-- What the server prints denotes the instant. -/
lemma printed_denotes {t : DateTime} {offset : ℤ} (hoffset : offset.natAbs < 6000)
    (hyear : 0 ≤ (t.fields.before (t.utcOffset + t.stdOffset - 60 * offset)).year ∧
      (t.fields.before (t.utcOffset + t.stdOffset - 60 * offset)).year ≤ 9999) :
    (printed t offset).Denotes t := by
  have hlt := t.valid.microsecond
  obtain ⟨hle, hvalid⟩ := valid_before (t.utcOffset + t.stdOffset - 60 * offset) hlt (by omega)
  obtain ⟨hlength, hdigits, hvalue⟩ := digitsOf_spec 6 t.fields.microsecond
  obtain ⟨z, hz⟩ := Python.Json.trimDigits_append (digitsOf 6 t.fields.microsecond)
  have hcount := congrArg List.length hz
  rw [hlength, List.length_append, List.length_replicate] at hcount
  have hmicro : (printed t offset).fields.microsecond = t.fields.microsecond := by
    have htrim := congrArg ofDigits hz
    rw [hvalue, Python.Json.ofDigits_append, Python.Json.ofDigits_replicate_zero,
      List.length_replicate, add_zero, Nat.mod_eq_of_lt (by omega)] at htrim
    have hwidth : 6 - (Python.Json.trimDigits (digitsOf 6 t.fields.microsecond)).length = z := by
      omega
    simp only [Stamp.fields, printed, hwidth]
    exact htrim.symm
  have hyearNat :
      (((t.fields.before (t.utcOffset + t.stdOffset - 60 * offset)).year.toNat : ℕ) : ℤ) =
      (t.fields.before (t.utcOffset + t.stdOffset - 60 * offset)).year := by omega
  have hfields : (printed t offset).fields =
      t.fields.before (t.utcOffset + t.stdOffset - 60 * offset) := by
    have hsame : (printed t offset).fields = ⟨((t.fields.before
        (t.utcOffset + t.stdOffset - 60 * offset)).year.toNat : ℤ), _, _, _, _, _,
        (printed t offset).fields.microsecond⟩ := rfl
    rw [hsame, hyearNat, hmicro]
    rfl
  refine ⟨⟨?_, hvalid.month, ?_, hvalid.hour, hvalid.minute, hvalid.second, ⟨by
      change (Python.Json.trimDigits _).length ≤ 6
      omega, fun d hd => ?_⟩, hoffset, fun hspelled => ?_⟩, ?_, hmicro⟩
  · change (t.fields.before (t.utcOffset + t.stdOffset - 60 * offset)).year.toNat ≤ 9999
    omega
  · have hday := hvalid.day
    rwa [← hyearNat] at hday
  · exact hdigits d (hz ▸ List.mem_append_left _ hd)
  · exact not_not.mp (by simpa [printed] using hspelled)
  · have hinstant : (printed t offset).instant = seconds (printed t offset).fields - 60 * offset :=
      rfl
    rw [hinstant, hfields, (before_spec hle).1, DateTime.instant]
    ring

/-- **Timestamps are read back.** What is written for a `DateTime` denotes its instant; and every
text that denotes its instant, at any offset in minutes and with any number of digits of the
fraction, is read as this instant in UTC. What the server prints at an offset is such a text.

**Proof sketch.** Both are decided by the seconds since a fixed day: the fields in UTC, and the
fields of a text moved by its offset, are the same (`before_congr`). -/
theorem timestamp_round_trip (runtime : Runtime) (name : Bytes) {t : DateTime}
    (hyear : 0 ≤ t.utcYear ∧ t.utcYear ≤ 9999) :
    (∃ s : Stamp, encodeParam runtime (.dateTime t) = .ok (.binary (bytesOf s.text)) ∧
        s.Denotes t) ∧
      (∀ s : Stamp, s.Denotes t → ∃ u : DateTime,
        decodeCell (some (bytesOf s.text)) ⟨name, 1184⟩ = .ok (.dateTime u) ∧
          u.timeZone = Str.ofString "Etc/UTC" ∧ u.instant = t.instant ∧
          u.fields.microsecond = t.fields.microsecond) ∧
      ∀ offset : ℤ, offset.natAbs < 6000 →
        0 ≤ (t.fields.before (t.utcOffset + t.stdOffset - 60 * offset)).year →
        (t.fields.before (t.utcOffset + t.stdOffset - 60 * offset)).year ≤ 9999 →
        (printed t offset).Denotes t := by
  obtain ⟨hle, hvalid⟩ := valid_before (t.utcOffset + t.stdOffset) t.valid.microsecond
    (by unfold DateTime.utcYear at hyear; omega)
  have hinstant : seconds (t.fields.before (t.utcOffset + t.stdOffset)) = t.instant :=
    (before_spec hle).1
  refine ⟨?_, fun s ⟨hformed, hsame, hmicro⟩ => ?_,
    fun offset hoffset hlow hhigh => printed_denotes hoffset ⟨hlow, hhigh⟩⟩
  · obtain ⟨u, hshift, hfields⟩ := shiftToUtc_eq hyear
    rw [← hfields] at hvalid hinstant
    have hyear' : 0 ≤ u.fields.year := by
      rw [hfields]
      exact hyear.1
    obtain ⟨hformed, hwritten⟩ := written_spec hvalid hyear'
    refine ⟨written u.fields, ?_, hformed, ?_, ?_⟩
    · rw [encodeParam, hshift, ok_bind, timestampTextUtc_eq hvalid hyear']
      rfl
    · rw [Stamp.instant, hwritten, hinstant]
      change t.instant - 60 * 0 = t.instant
      omega
    · rw [hwritten, hfields, before_microsecond]
  · have hbefore : s.fields.before (60 * s.offset) =
        t.fields.before (t.utcOffset + t.stdOffset) :=
      before_congr hsame hmicro
    obtain ⟨u, hparse, hfields, hutc, hstd, hzone⟩ :=
      parseTimestampText_text hformed (hbefore ▸ hvalid)
    refine ⟨u, ?_, hzone, ?_, ?_⟩
    · simp only [decodeCell, decodeText, hparse]
      rfl
    · rw [DateTime.instant, hfields, hbefore, hutc, hstd, hinstant]
      omega
    · rw [hfields, hbefore, before_microsecond]

namespace Sample

/-- Half past midnight in Kathmandu, 125 ms: the evening before in UTC, of the year before. -/
def newYear : DateTime :=
  ⟨⟨⟨2026, 1, 1, 0, 30, 0, 125000⟩, 6, by decide⟩, 20700, 0, Str.ofString "Asia/Kathmandu",
    fun h => absurd h (by decide)⟩

end Sample

/-- A time of the new year that is one of the old year in UTC, with what is printed for it in
India. -/
theorem timestamp_round_trip_newYear :
    (printed Sample.newYear 330).text = Str.ofString "2026-01-01 00:15:00.125+05:30" ∧
      ∃ u : DateTime, decodeCell (some (bytesOf (printed Sample.newYear 330).text)) ⟨[], 1184⟩ =
          .ok (.dateTime u) ∧
        u.timeZone = Str.ofString "Etc/UTC" ∧ u.instant = Sample.newYear.instant ∧
        u.fields.microsecond = 125000 := by
  obtain ⟨-, hread, hprinted⟩ := timestamp_round_trip
    ⟨Runtime.shortText, fun _ _ _ => true⟩ [] (t := Sample.newYear) (by decide +kernel)
  exact ⟨by decide +kernel,
    hread _ (hprinted 330 (by decide) (by decide +kernel) (by decide +kernel))⟩

end VitrialSync.Beam.Codec
