import VitrialSync.Python.Text

set_option relaxedAutoImplicit false
set_option autoImplicit false

/-!
# `datetime`

Date-times as the wire schema admits them: civil fields in the proleptic Gregorian calendar with
microseconds and an optional UTC offset. A timestamp column holds an instant, which is read back
in UTC.

## Main definitions

* `Python.DateTime` — a date-time whose fields are in range.
* `Python.DateTime.isoformat` — `t.isoformat()`.
* `Python.DateTime.toUtc` — the same instant at offset zero.
* `Python.DateTime.addSeconds` — the UTC instant some seconds later.
* `Python.DateTime.jsonText` — the form `model_dump_json` writes.

## Main results

* `Python.DateTime.length_jsonText_le` — that form has at most 32 characters.
-/

namespace Python

/-- The fields of a date-time are in range. -/
structure DateTime.InRange (year month day hour minute second microsecond : ℕ)
    (offset : Option ℤ) : Prop where
  year : 1 ≤ year ∧ year ≤ 9999
  month : 1 ≤ month ∧ month ≤ 12
  day : 1 ≤ day ∧ day ≤ 31
  hour : hour < 24
  minute : minute < 60
  second : second < 60
  microsecond : microsecond < 1000000
  offset : ∀ o ∈ offset, -86400 < o ∧ o < 86400

/-- A `datetime`; `offset` is `t.utcoffset()` in seconds, `none` for a naive one. -/
structure DateTime where
  (year month day hour minute second microsecond : ℕ)
  offset : Option ℤ
  inRange : DateTime.InRange year month day hour minute second microsecond offset

namespace DateTime

/-- The beginning of the year 2026 in UTC. -/
lemma InRange.newYear : InRange 2026 1 1 0 0 0 0 (some 0) := by
  constructor <;> simp

/-! ### Calendar arithmetic -/

/-- Days from 1 March of year 0 to a civil date. -/
def daysFromCivil (y m d : ℕ) : ℕ :=
  -- years are counted from March, so that the leap day is the last one
  let y' := if m ≤ 2 then y - 1 else y
  let mp := if m ≤ 2 then m + 9 else m - 3
  365 * y' + y' / 4 - y' / 100 + y' / 400 + (153 * mp + 2) / 5 + (d - 1)

/-- The civil date some days after 1 March of year 0. -/
def civilFromDays (z : ℕ) : ℕ × ℕ × ℕ :=
  let era := z / 146097
  let doe := z % 146097
  let yoe := (doe - doe / 1460 + doe / 36524 - doe / 146096) / 365
  let doy := doe - (365 * yoe + yoe / 4 - yoe / 100)
  let mp := (5 * doy + 2) / 153
  let m := if mp < 10 then mp + 3 else mp - 9
  let y := yoe + 400 * era
  (if m ≤ 2 then y + 1 else y, m, doy - (153 * mp + 2) / 5 + 1)

/-- The UTC date-time some seconds after 1 March of year 0. Outside the years that `datetime`
supports the driver refuses the value; here it is moved to the nearest supported year. -/
def ofSeconds (total : ℕ) (microsecond : ℕ) : DateTime :=
  let (y, m, d) := civilFromDays (total / 86400)
  let s := total % 86400
  { year := max 1 (min y 9999)
    month := (m - 1) % 12 + 1
    day := (d - 1) % 31 + 1
    hour := s / 3600
    minute := s / 60 % 60
    second := s % 60
    microsecond := microsecond % 1000000
    offset := some 0
    inRange :=
      { year := by omega
        month := by omega
        day := by omega
        hour := by omega
        minute := by omega
        second := by omega
        microsecond := by omega
        offset := by simp } }

/-- Seconds from 1 March of year 0 to the instant; a naive date-time is read as UTC. -/
def seconds (t : DateTime) : ℕ :=
  let civil : ℕ :=
    86400 * daysFromCivil t.year t.month t.day + 3600 * t.hour + 60 * t.minute + t.second
  ((civil : ℤ) - t.offset.getD 0).toNat

/-- The same instant at offset zero: what a timestamp column gives back. -/
def toUtc (t : DateTime) : DateTime := ofSeconds t.seconds t.microsecond

/-- `t + timedelta(seconds=n)`, in UTC. -/
def addSeconds (t : DateTime) (n : ℤ) : DateTime :=
  ofSeconds ((t.seconds : ℤ) + n).toNat t.microsecond

/-- `t <= t'` of two instants. -/
def notAfter (t t' : DateTime) : Bool :=
  t.seconds < t'.seconds || t.seconds == t'.seconds && t.microsecond ≤ t'.microsecond

/-! ### Text -/

/-- A number in a fixed number of decimal digits. -/
def padded (width n : ℕ) : Str :=
  (List.range width).map fun i => digitChar (n / 10 ^ (width - 1 - i))

/-- The date, the time of day and the microseconds when there are any. -/
def civilText (t : DateTime) : Str :=
  padded 4 t.year ++ Str.ofString "-" ++ padded 2 t.month ++ Str.ofString "-" ++ padded 2 t.day ++
    Str.ofString "T" ++ padded 2 t.hour ++ Str.ofString ":" ++ padded 2 t.minute ++
    Str.ofString ":" ++ padded 2 t.second ++
    (if t.microsecond = 0 then [] else Str.ofString "." ++ padded 6 t.microsecond)

/-- An offset as `±HH:MM`. -/
def offsetText (o : ℤ) : Str :=
  Str.ofString (if o < 0 then "-" else "+") ++ padded 2 (o.natAbs / 3600) ++ Str.ofString ":" ++
    padded 2 (o.natAbs / 60 % 60)

/-- `t.isoformat()`. -/
def isoformat (t : DateTime) : Str :=
  t.civilText ++
    match t.offset with
    | none => []
    | some o =>
      offsetText o ++
        if o.natAbs % 60 = 0 then [] else Str.ofString ":" ++ padded 2 (o.natAbs % 60)

/-- The text of the date-time in `model_dump_json`. -/
def jsonText (t : DateTime) : Str :=
  t.civilText ++
    match t.offset with
    | none => []
    | some o => if o = 0 then Str.ofString "Z" else offsetText o

/-- Fixed-width numerals have their width. -/
@[simp]
lemma length_padded (width n : ℕ) : (padded width n).length = width := by
  simp [padded]

/-- The text of a date-time in a response has at most 32 characters. -/
lemma length_jsonText_le (t : DateTime) : t.jsonText.length ≤ 32 := by
  have hcivil : t.civilText.length ≤ 26 := by
    simp only [civilText, List.length_append, length_padded]
    split <;> simp [Str.ofString]
  have hoffset (o : ℤ) : (offsetText o).length = 6 := by
    simp only [offsetText, List.length_append, length_padded]
    split <;> simp [Str.ofString]
  unfold jsonText
  split
  · simp
    omega
  · rename_i o _
    have hz : (Str.ofString "Z").length = 1 := by simp [Str.ofString]
    split <;> simp only [List.length_append, hoffset, hz] <;> omega

end DateTime

end Python
