import VitrialSync.Beam.Fingerprint
import VitrialSync.Python.CivilDays
import VitrialSync.Python.JsonBytes
import VitrialSync.Server.PullProgress

set_option relaxedAutoImplicit false
set_option autoImplicit false

/-!
# The fingerprints of the two servers

The reference hashes the `isoformat()` of a timestamp, which keeps the offset that the timestamp
carries and has none when it carries none. The port reads the timestamp with
`DateTime.from_iso8601/1`, which gives the instant in UTC and reads no timestamp without an offset,
and writes that. Apart from the timestamps both hash the same text.

How pydantic reads a timestamp is a parameter. Of a text that both libraries read it is known that it
has an offset, and that the instant is the date and the time moved by the offset.

## Main definitions

* `VitrialSync.Beam.Fingerprint.ReadsIso` — what is known of pydantic's reader.
* `VitrialSync.Beam.Fingerprint.SameRecord` — a record as both servers have it.
* `VitrialSync.Beam.Fingerprint.SameFingerprint` — both hash the same bytes.
* `VitrialSync.Beam.Fingerprint.InUtc` — the timestamps that the port reads and that are in UTC.

## Main results

* `VitrialSync.Beam.Timestamp.render_eq_isoformat_iff` — the port writes what the reference writes
  exactly at offset zero.
* `VitrialSync.Beam.CanonicalJSON.escapeChar_eq` — both escape alike.
* `VitrialSync.Beam.Fingerprint.sameFingerprint_iff` — both fingerprints agree exactly when the
  timestamps are in UTC.
-/

namespace VitrialSync.Beam

open Python

namespace Timestamp

/-! ### Numerals -/

/-- The code point of a digit. -/
lemma ofChar_digitChar (n : ℕ) : CodePoint.ofChar (Nat.digitChar (n % 10)) = digitChar n := by
  have hlt : n % 10 < 10 := Nat.mod_lt n (by decide)
  have hall : ∀ d : Fin 10, CodePoint.ofChar (Nat.digitChar d.val) = digitChar d.val := by decide
  have hdigit := hall ⟨n % 10, hlt⟩
  rw [hdigit]
  apply Fin.ext
  simp [digitChar]

/-- The last digit of a numeral. -/
lemma padded_succ (width n : ℕ) :
    DateTime.padded (width + 1) n = DateTime.padded width (n / 10) ++ [digitChar n] := by
  rw [DateTime.padded, List.range_succ, List.map_append, DateTime.padded]
  congr 1
  · apply List.map_congr_left
    intro i hi
    have hlt : i < width := List.mem_range.mp hi
    have hpow : 10 ^ (width + 1 - 1 - i) = 10 * 10 ^ (width - 1 - i) := by
      rw [← pow_succ']
      congr 1
      omega
    rw [hpow, ← Nat.div_div_eq_div_mul]
  · simp

/-- Zero in a fixed width. -/
lemma padded_zero (width : ℕ) :
    DateTime.padded width 0 = List.replicate width (CodePoint.ofChar '0') := by
  induction width with
  | zero => rfl
  | succ width ih =>
    rw [padded_succ, Nat.zero_div, ih, List.replicate_succ']
    rfl

/-- Zeros before a numeral that fits give the numeral in its width.

**Proof sketch.** Induction on the width: the last digit of a numeral of two digits or more goes
last, and the rest is the numeral of the tenth. -/
lemma pad_eq_padded {width n : ℕ} (hwidth : 1 ≤ width) (h : n < 10 ^ width) :
    pad n width = DateTime.padded width n := by
  unfold pad
  change List.replicate (width - (Str.ofNat n).length) _ ++ Str.ofNat n = _
  induction width generalizing n with
  | zero => omega
  | succ width ih =>
    by_cases hn : n < 10
    · have hone : Str.ofNat n = [digitChar n] := by
        rw [Str.ofNat, Nat.toDigits_of_lt_base hn, List.map_singleton, ← ofChar_digitChar,
          Nat.mod_eq_of_lt hn]
      rw [hone, padded_succ, Nat.div_eq_of_lt hn, padded_zero]
      rfl
    · have hmore : Str.ofNat n = Str.ofNat (n / 10) ++ [digitChar n] := by
        rw [Str.ofNat, Nat.toDigits_of_base_le (by decide) (not_lt.mp hn), List.map_append,
          List.map_singleton, ofChar_digitChar]
        rfl
      have hwidth' : 1 ≤ width := by
        by_contra hzero
        have : width = 0 := by omega
        subst this
        omega
      have hrest := ih hwidth' (n := n / 10) (by rw [pow_succ] at h; omega)
      rw [padded_succ, ← hrest, hmore]
      simp

/-! ### Dates and times -/

/-- The date and the time of a date-time. -/
def civil (t : DateTime) : Utc :=
  ⟨t.year, t.month, t.day, t.hour, t.minute, t.second, t.microsecond⟩

/-- The calendar repeats after 10000 years. -/
lemma daysInMonth_add (year month : ℕ) :
    DateTime.daysInMonth (year + 10000) month = DateTime.daysInMonth year month := by
  have hfour : (year + 10000) % 4 = year % 4 := by omega
  have hhundred : (year + 10000) % 100 = year % 100 := by omega
  have hera : (year + 10000) % 400 = year % 400 := by omega
  simp only [DateTime.daysInMonth, hfour, hhundred, hera]

/-- At offset zero nothing is moved. -/
lemma before_zero {t : DateTime} (h : t.day ≤ DateTime.daysInMonth t.year t.month) :
    (civil t).before 0 = civil t := by
  have hin := t.inRange
  have hyear : ((t.year : ℤ) + 10000).toNat = t.year + 10000 := by omega
  have hdate : DateTime.civilFromDays (DateTime.daysFromCivil (t.year + 10000) t.month t.day) =
      (t.year + 10000, t.month, t.day) :=
    DateTime.civilFromDays_daysFromCivil (by omega) hin.month
      ⟨hin.day.1, (daysInMonth_add t.year t.month).symm ▸ h⟩
  have hhour := hin.hour
  have hminute := hin.minute
  have hsecond := hin.second
  simp only [Utc.before, civil, hyear]
  generalize DateTime.daysFromCivil (t.year + 10000) t.month t.day = days at hdate
  have htotal : (86400 * (days : ℤ) + 3600 * (t.hour : ℤ) + 60 * (t.minute : ℤ) +
      (t.second : ℤ) - 0).toNat = 86400 * days + (3600 * t.hour + 60 * t.minute + t.second) := by
    omega
  have hdays : (86400 * days + (3600 * t.hour + 60 * t.minute + t.second)) / 86400 = days := by
    omega
  have hrest : (86400 * days + (3600 * t.hour + 60 * t.minute + t.second)) % 86400 =
      3600 * t.hour + 60 * t.minute + t.second := by
    omega
  rw [htotal, hdays, hrest, hdate]
  simp only [Utc.mk.injEq, true_and, and_true]
  omega

/-- The texts of a numeral in a fixed width. -/
lemma padded_two (n : ℕ) : DateTime.padded 2 n = [digitChar (n / 10), digitChar n] := by
  rw [padded_succ, padded_succ]
  rfl

/-- The numeral of zero in two digits. -/
lemma padded_two_eq_zero {n : ℕ} (h : DateTime.padded 2 n = Str.ofString "00") : n % 100 = 0 := by
  rw [padded_two] at h
  have htens : digitChar (n / 10) = CodePoint.ofChar '0' := (List.cons.inj h).1
  have hones : digitChar n = CodePoint.ofChar '0' := (List.cons.inj (List.cons.inj h).2).1
  have htens' := congrArg Fin.val htens
  have hones' := congrArg Fin.val hones
  simp only [digitChar, CodePoint.ofChar] at htens' hones'
  have hzero : ('0' : Char).toNat = 48 := by decide
  omega

/-! ### Rendering -/

/-- The port writes a date-time at offset zero as the reference does. -/
lemma render_civil {t : DateTime} (h : t.offset = some 0) : render (civil t) = t.isoformat := by
  have hin := t.inRange
  have hyear := hin.year.2
  have hmonth := hin.month.2
  have hday := hin.day.2
  have hhour := hin.hour
  have hminute := hin.minute
  have hsecond := hin.second
  have hmicro := hin.microsecond
  have hoffset : DateTime.offsetText 0 = Str.ofString "+00:00" := by decide
  have hpad : ∀ width n : ℕ, 1 ≤ width → n < 10 ^ width →
      pad n width = DateTime.padded width n := fun _ _ => pad_eq_padded
  simp only [render, civil, DateTime.isoformat, DateTime.civilText, h, hoffset,
    hpad 4 t.year (by decide) (by omega), hpad 2 t.month (by decide) (by omega),
    hpad 2 t.day (by decide) (by omega), hpad 2 t.hour (by decide) (by omega),
    hpad 2 t.minute (by decide) (by omega), hpad 2 t.second (by decide) (by omega),
    hpad 6 t.microsecond (by decide) (by omega)]
  simp

/-- What the port writes ends with offset zero. -/
lemma render_split (u : Utc) : ∃ front, render u = front ++ Str.ofString "+00:00" :=
  ⟨_, rfl⟩

/-- Only offset zero is written as such. -/
lemma eq_zero_of_offsetText {o : ℤ} (hrange : -86400 < o ∧ o < 86400) (hminutes : o.natAbs % 60 = 0)
    (h : DateTime.offsetText o = Str.ofString "+00:00") : o = 0 := by
  have hsplit : Str.ofString "+00:00" =
      Str.ofString "+" ++ Str.ofString "00" ++ Str.ofString ":" ++ Str.ofString "00" := rfl
  rw [DateTime.offsetText, hsplit] at h
  obtain ⟨hfront, hminute⟩ := List.append_inj' h (by simp; rfl)
  obtain ⟨hfront, -⟩ := List.append_inj' hfront rfl
  obtain ⟨-, hhour⟩ := List.append_inj' hfront (by simp; rfl)
  have hhour := padded_two_eq_zero hhour
  have hminute := padded_two_eq_zero hminute
  omega

/-- **The port writes what the reference writes** exactly at offset zero.

**Proof sketch.** At offset zero the instant is the date and the time. Otherwise the reference writes
an offset that is not zero, in hours and minutes or with seconds, where the port writes zero. -/
theorem render_eq_isoformat_iff {t : DateTime} {o : ℤ} (hoffset : t.offset = some o)
    (hday : t.day ≤ DateTime.daysInMonth t.year t.month) :
    render ((civil t).before o) = t.isoformat ↔ o = 0 := by
  constructor
  · intro h
    have hrange := t.inRange.offset o hoffset
    obtain ⟨front, hfront⟩ := render_split ((civil t).before o)
    rw [hfront] at h
    simp only [DateTime.isoformat, hoffset] at h
    by_cases hseconds : o.natAbs % 60 = 0
    · rw [if_pos hseconds, List.append_nil] at h
      have hlength : (Str.ofString "+00:00").length = (DateTime.offsetText o).length := by
        rw [DateTime.offsetText]
        split_ifs <;> simp <;> rfl
      exact eq_zero_of_offsetText hrange hseconds (List.append_inj' h hlength).2.symm
    · rw [if_neg hseconds] at h
      have hsplit : front ++ Str.ofString "+00:00" =
          (front ++ Str.ofString "+00:") ++ Str.ofString "00" := by
        rw [List.append_assoc]
        rfl
      rw [hsplit, ← List.append_assoc, ← List.append_assoc] at h
      have hlast := (List.append_inj' h (by simp; rfl)).2
      have hzero := padded_two_eq_zero hlast.symm
      omega
  · rintro rfl
    rw [before_zero hday]
    exact render_civil hoffset

end Timestamp

namespace CanonicalJSON

/-! ### Canonical JSON -/

/-- Both write a code unit alike. -/
lemma escapeUnit_eq (n : ℕ) : escapeUnit n = Json.unitEscape n := by
  have hdigit : ∀ k, Sha256.hexChar k = Json.hexDigit k := fun _ => rfl
  simp [escapeUnit, Json.unitEscape, hdigit]
  rfl

/-- **Both escape alike.**

**Proof sketch.** The seven characters with a short escape one by one; the others by their range. -/
theorem escapeChar_eq (c : CodePoint) : escapeChar c = Json.escapeChar true c := by
  by_cases hshort : c.val ∈ shortEscapes.map Prod.fst
  · have hall : ∀ n ∈ shortEscapes.map Prod.fst, ∀ h : n < 0x110000,
        escapeChar ⟨n, h⟩ = Json.escapeChar true ⟨n, h⟩ := by
      intro n hn
      simp only [shortEscapes, List.map_cons, List.map_nil, List.mem_cons, List.not_mem_nil,
        or_false] at hn
      rcases hn with rfl | rfl | rfl | rfl | rfl | rfl | rfl <;> exact fun _ => rfl
    exact hall c.val hshort c.isLt
  · have hlookup : shortEscapes.lookup c.val = none := by
      rw [List.lookup_eq_none_iff]
      intro e he
      simp only [bne_iff_ne, ne_eq]
      intro heq
      exact hshort (heq ▸ List.mem_map_of_mem he)
    simp only [shortEscapes, List.map_cons, List.map_nil, List.mem_cons, List.not_mem_nil,
      or_false, not_or] at hshort
    obtain ⟨hquote, hslash, hb, hf, hn, hr, ht⟩ := hshort
    have hquote' : c ≠ Json.ch '"' := fun h => hquote (by rw [h]; rfl)
    have hslash' : c ≠ Json.ch '\\' := fun h => hslash (by rw [h]; rfl)
    simp only [escapeChar, Json.escapeChar, hlookup, hquote', hslash', hb, hf, hn, hr, ht,
      ↓reduceIte, escapeUnit_eq, true_and]
    split_ifs <;> first | rfl | omega

/-- Both write a string alike. -/
lemma quoted_eq (text : Str) : quoted text = Json.writeString true text := by
  have hescape : escapeChar = Json.escapeChar true := funext escapeChar_eq
  rw [quoted, Json.writeString, hescape]

/-- Both write the scalars of a mutation alike. -/
lemma encodeScalar_str (text : Str) : encodeScalar (.str text) = Json.dumps true (.str text) :=
  quoted_eq text

end CanonicalJSON

namespace Fingerprint

/-! ### The text that is hashed -/

/-- An optional text. -/
def optionalText : Option Str → Value
  | some text => .str text
  | none => .none

/-- What is hashed, with the texts of the timestamps. -/
def material (entityType entityId : Str) (base : Option ℕ) (payload : Bytes) (updatedAt : Str)
    (deletedAt : Option Str) : Dict :=
  [(Str.ofString "entityType", .str entityType), (Str.ofString "entityID", .str entityId),
    (Str.ofString "baseServerRevision", optionalInt base),
    (Str.ofString "updatedAt", .str updatedAt), (Str.ofString "deletedAt", optionalText deletedAt),
    (Str.ofString "payload", .str ((b64encode payload).map Byte.toCodePoint))]

/-- The bytes that the reference hashes. -/
def serverBytes (r : SyncRecord) : Bytes :=
  asciiBytes (Json.dumps true (.dict (material r.entityType.name r.entityID.text
    r.baseServerRevision r.payload r.updatedAt.isoformat (r.deletedAt.map DateTime.isoformat))))

/-- The reference hashes these bytes. -/
lemma requestFingerprint_eq (r : SyncRecord) :
    requestFingerprint r = Sha256.hexdigest (serverBytes r) := by
  unfold requestFingerprint serverBytes
  cases r.deletedAt <;> rfl

section Texts

variable {entityType entityId : Str} {base : Option ℕ} {payload : Bytes}

/-- The members of the material in the order of their keys. -/
lemma sortMembers_material (a b c d e f : Str) :
    Json.sortMembers [(Str.ofString "entityType", a), (Str.ofString "entityID", b),
        (Str.ofString "baseServerRevision", c), (Str.ofString "updatedAt", d),
        (Str.ofString "deletedAt", e), (Str.ofString "payload", f)] =
      [(Str.ofString "baseServerRevision", c), (Str.ofString "deletedAt", e),
        (Str.ofString "entityID", b), (Str.ofString "entityType", a),
        (Str.ofString "payload", f), (Str.ofString "updatedAt", d)] := by
  rfl

/-- The members in the order of their keys. -/
lemma dumps_material (updatedAt : Str) (deletedAt : Option Str) :
    Json.dumps true (.dict (material entityType entityId base payload updatedAt deletedAt)) =
      CanonicalJSON.encodeFlat
        [("baseServerRevision", optionalRevision base), ("deletedAt", optionalText deletedAt),
          ("entityID", .str entityId), ("entityType", .str entityType),
          ("payload", .str ((b64encode payload).map Byte.toCodePoint)),
          ("updatedAt", .str updatedAt)] := by
  have hscalar : ∀ v : Value, (∃ text, v = .str text) ∨ (∃ n, v = .int n) ∨ v = .none →
      CanonicalJSON.encodeScalar v = Json.dumps true v := by
    rintro v (⟨text, rfl⟩ | ⟨n, rfl⟩ | rfl)
    · exact CanonicalJSON.encodeScalar_str text
    · simp [CanonicalJSON.encodeScalar, Json.dumps]
    · simp [CanonicalJSON.encodeScalar, Json.dumps]
  have hbase : CanonicalJSON.encodeScalar (optionalRevision base) =
      Json.dumps true (optionalInt base) := by
    cases base with
    | none => exact hscalar _ (.inr (.inr rfl))
    | some n => exact hscalar _ (.inr (.inl ⟨n, rfl⟩))
  have hdeleted : CanonicalJSON.encodeScalar (optionalText deletedAt) =
      Json.dumps true (optionalText deletedAt) := by
    cases deletedAt with
    | none => exact hscalar _ (.inr (.inr rfl))
    | some text => exact hscalar _ (.inl ⟨text, rfl⟩)
  have hopen : Str.ofString "\x7b" = [Json.ch '{'] := rfl
  have hcolon : Str.ofString ":" = [Json.ch ':'] := rfl
  have hcomma : Str.ofString "," = [Json.ch ','] := rfl
  have hclose : Str.ofString "\x7d" = [Json.ch '}'] := rfl
  simp only [Json.dumps.eq_7, material, Json.dumpsMembers, sortMembers_material,
    CanonicalJSON.encodeFlat, List.map_cons, List.map_nil, hbase, hdeleted,
    CanonicalJSON.encodeScalar_str, CanonicalJSON.quoted_eq, Json.joinComma]
  simp [hopen, hcolon, hcomma, hclose]

/-- The text up to the time of the deletion. -/
def materialHead (base : Option ℕ) : Str :=
  Json.ch '{' :: (Json.writeString true (Str.ofString "baseServerRevision") ++ Json.ch ':' ::
    (Json.dumps true (optionalInt base) ++ Json.ch ',' ::
      (Json.writeString true (Str.ofString "deletedAt") ++ [Json.ch ':'])))

/-- The text between the two timestamps. -/
def materialMiddle (entityType entityId : Str) (payload : Bytes) : Str :=
  Json.ch ',' :: (Json.writeString true (Str.ofString "entityID") ++ Json.ch ':' ::
    (Json.writeString true entityId ++ Json.ch ',' ::
      (Json.writeString true (Str.ofString "entityType") ++ Json.ch ':' ::
        (Json.writeString true entityType ++ Json.ch ',' ::
          (Json.writeString true (Str.ofString "payload") ++ Json.ch ':' ::
            (Json.writeString true ((b64encode payload).map Byte.toCodePoint) ++ Json.ch ',' ::
              (Json.writeString true (Str.ofString "updatedAt") ++ [Json.ch ':'])))))))

/-- The text around the timestamps. -/
lemma dumps_material_split (updatedAt : Str) (deletedAt : Option Str) :
    Json.dumps true (.dict (material entityType entityId base payload updatedAt deletedAt)) =
      materialHead base ++ (Json.dumps true (optionalText deletedAt) ++
        (materialMiddle entityType entityId payload ++
          (Json.writeString true updatedAt ++ [Json.ch '}']))) := by
  simp only [Json.dumps.eq_7, material, Json.dumpsMembers, sortMembers_material, List.map_cons,
    List.map_nil, Json.joinComma]
  simp [materialHead, materialMiddle, Json.dumps]

end Texts

/-! ### The texts of timestamps -/

/-- The characters between the plus sign and the letter `T`, with which timestamps are written. -/
def stampChar (c : CodePoint) : Bool := 0x2b ≤ c.val && c.val ≤ 0x54

/-- Digits are such characters. -/
lemma padded_stamp (width n : ℕ) : (DateTime.padded width n).all stampChar = true := by
  rw [List.all_eq_true]
  intro c hc
  obtain ⟨i, -, rfl⟩ := List.mem_map.mp hc
  have hlow : 0x2b ≤ (digitChar (n / 10 ^ (width - 1 - i))).val := by
    simp only [digitChar]
    omega
  have hhigh : (digitChar (n / 10 ^ (width - 1 - i))).val ≤ 0x54 := by
    simp only [digitChar]
    omega
  simp [stampChar, hlow, hhigh]

/-- So are those of a number. -/
lemma ofNat_stamp (n : ℕ) : (Str.ofNat n).all stampChar = true := by
  rw [List.all_eq_true]
  intro c hc
  obtain ⟨d, hd, rfl⟩ := List.mem_map.mp hc
  have hdigit := isDigit_of_mem_ofNat n d hd
  simp only [Char.isDigit, Bool.and_eq_true, decide_eq_true_eq, ge_iff_le,
    UInt32.le_iff_toNat_le] at hdigit
  have hlow : 48 ≤ (CodePoint.ofChar d).val := hdigit.1
  have hhigh : (CodePoint.ofChar d).val ≤ 57 := hdigit.2
  simp only [stampChar, Bool.and_eq_true, decide_eq_true_eq]
  omega

/-- And those of a padded number. -/
lemma pad_stamp (n : ℤ) (width : ℕ) : (Timestamp.pad n width).all stampChar = true := by
  have hzero : stampChar (CodePoint.ofChar '0') = true := rfl
  have hminus : (Str.ofString "-").all stampChar = true := rfl
  have hint : (Str.ofInt n).all stampChar = true := by
    cases n with
    | ofNat m => exact ofNat_stamp m
    | negSucc m => rw [Str.ofInt, List.all_append, hminus, ofNat_stamp, Bool.and_self]
  simp [Timestamp.pad, hint, hzero]

/-- The reference writes timestamps with such characters. -/
lemma isoformat_stamp (t : DateTime) : t.isoformat.all stampChar = true := by
  have hminus : (Str.ofString "-").all stampChar = true := rfl
  have hplus : (Str.ofString "+").all stampChar = true := rfl
  have hcolon : (Str.ofString ":").all stampChar = true := rfl
  have hpoint : (Str.ofString ".").all stampChar = true := rfl
  have hletter : (Str.ofString "T").all stampChar = true := rfl
  have hcivil : t.civilText.all stampChar = true := by
    simp only [DateTime.civilText, List.all_append, padded_stamp, hminus, hcolon, hletter,
      Bool.and_self, Bool.true_and]
    split_ifs
    · rfl
    · rw [List.all_append, hpoint, padded_stamp, Bool.and_self]
  have hoffset : ∀ o, (DateTime.offsetText o).all stampChar = true := by
    intro o
    simp only [DateTime.offsetText, List.all_append, padded_stamp, hcolon, Bool.and_true]
    split_ifs
    · exact hminus
    · exact hplus
  rw [DateTime.isoformat, List.all_append, hcivil, Bool.true_and]
  cases t.offset with
  | none => rfl
  | some o =>
    dsimp only
    rw [List.all_append, hoffset, Bool.true_and]
    split_ifs
    · rfl
    · rw [List.all_append, hcolon, padded_stamp, Bool.and_self]

/-- And so does the port. -/
lemma render_stamp (u : Timestamp.Utc) : (Timestamp.render u).all stampChar = true := by
  have hminus : (Str.ofString "-").all stampChar = true := rfl
  have hcolon : (Str.ofString ":").all stampChar = true := rfl
  have hpoint : (Str.ofString ".").all stampChar = true := rfl
  have hletter : (Str.ofString "T").all stampChar = true := rfl
  have hoffset : (Str.ofString "+00:00").all stampChar = true := rfl
  simp only [Timestamp.render, List.all_append, pad_stamp, hminus, hcolon, hletter, hoffset,
    Bool.and_self, Bool.true_and, Bool.and_true]
  split_ifs
  · rfl
  · rw [List.all_append, hpoint, pad_stamp, Bool.and_self]

/-- A timestamp is written between quotes as it is, and has no quote in it. -/
lemma writeString_stamp {s : Str} (h : s.all stampChar = true) :
    Json.writeString true s = Json.ch '"' :: (s ++ [Json.ch '"']) ∧ Json.ch '"' ∉ s := by
  have hplain : ∀ c ∈ s, Json.IsPlain c ∧ c.val ≤ 0x7e := by
    intro c hc
    have hstamp := List.all_eq_true.mp h c hc
    simp only [stampChar, Bool.and_eq_true, decide_eq_true_eq] at hstamp
    refine ⟨⟨by omega, ?_, ?_⟩, by omega⟩
    · rintro rfl
      exact absurd hstamp (by decide)
    · rintro rfl
      exact absurd hstamp (by decide)
  refine ⟨by rw [Json.writeString, flatMap_escapeChar_plain hplain], fun hmem => ?_⟩
  exact (hplain _ hmem).1.2.1 rfl

/-- The first of two equal separators ends equal texts. -/
lemma append_cons_inj {q : CodePoint} {s s' rest rest' : Str} (hs : q ∉ s) (hs' : q ∉ s')
    (h : s ++ q :: rest = s' ++ q :: rest') : s = s' ∧ rest = rest' := by
  induction s generalizing s' with
  | nil =>
    cases s' with
    | nil => exact ⟨rfl, (List.cons.inj h).2⟩
    | cons c s' => exact absurd (List.mem_cons.mpr (.inl (List.cons.inj h).1)) hs'
  | cons c s ih =>
    cases s' with
    | nil => exact absurd (List.mem_cons.mpr (.inl (List.cons.inj h).1.symm)) hs
    | cons c' s' =>
      obtain ⟨rfl, htail⟩ := List.cons.inj h
      rw [List.mem_cons, not_or] at hs hs'
      obtain ⟨rfl, hrest⟩ := ih hs.2 hs'.2 htail
      exact ⟨rfl, hrest⟩

/-- Two timestamps in front of texts. -/
lemma writeString_append_inj {s s' rest rest' : Str} (hs : s.all stampChar = true)
    (hs' : s'.all stampChar = true)
    (h : Json.writeString true s ++ rest = Json.writeString true s' ++ rest') :
    s = s' ∧ rest = rest' := by
  obtain ⟨htext, hquote⟩ := writeString_stamp hs
  obtain ⟨htext', hquote'⟩ := writeString_stamp hs'
  rw [htext, htext'] at h
  simp only [List.cons_append, List.append_assoc, List.nil_append, List.cons.injEq,
    true_and] at h
  exact append_cons_inj hquote hquote' h

/-- Characters below 256 are determined by their bytes. -/
lemma map_byte_inj {s s' : Str} (hs : ∀ c ∈ s, c.val < 256) (hs' : ∀ c ∈ s', c.val < 256)
    (h : asciiBytes s = asciiBytes s') : s = s' := by
  induction s generalizing s' with
  | nil => simpa [asciiBytes] using h.symm
  | cons c s ih =>
    cases s' with
    | nil => simp [asciiBytes] at h
    | cons c' s' =>
      rw [List.forall_mem_cons] at hs hs'
      simp only [asciiBytes, List.map_cons, List.cons.injEq] at h
      have hbyte := congrArg Fin.val h.1
      simp only [byte] at hbyte
      rw [Nat.mod_eq_of_lt hs.1, Nat.mod_eq_of_lt hs'.1] at hbyte
      rw [Fin.ext hbyte, ih hs.2 hs'.2 h.2]

/-- The material has the texts of its timestamps in it.

**Proof sketch.** The bytes are those of ASCII characters. What stands before the first timestamp is
the same on both sides; a timestamp ends at its closing quote. -/
lemma material_inj {entityType entityId : Str} {base : Option ℕ} {payload : Bytes}
    {updated updated' : Str} {deleted deleted' : Option Str} (hu : updated.all stampChar = true)
    (hu' : updated'.all stampChar = true) (hd : ∀ s, deleted = some s → s.all stampChar = true)
    (hd' : ∀ s, deleted' = some s → s.all stampChar = true)
    (hsome : deleted.isSome = deleted'.isSome)
    (h : asciiBytes (Json.dumps true
        (.dict (material entityType entityId base payload updated deleted))) =
      asciiBytes (Json.dumps true
        (.dict (material entityType entityId base payload updated' deleted')))) :
    updated = updated' ∧ deleted = deleted' := by
  have hascii : ∀ v : Value, ∀ c ∈ Json.dumps true v, c.val < 256 := by
    intro v c hc
    rw [← Json.write_compact] at hc
    have hprintable := (Json.write_printable v c hc).2
    omega
  have htext := map_byte_inj (hascii _) (hascii _) h
  rw [dumps_material_split, dumps_material_split] at htext
  have hrest := List.append_cancel_left htext
  have hlast : ∀ {s s' : Str}, s.all stampChar = true → s'.all stampChar = true →
      materialMiddle entityType entityId payload ++ (Json.writeString true s ++ [Json.ch '}']) =
        materialMiddle entityType entityId payload ++
          (Json.writeString true s' ++ [Json.ch '}']) → s = s' :=
    fun hs hs' heq => (writeString_append_inj hs hs' (List.append_cancel_left heq)).1
  cases deleted with
  | none =>
    cases deleted' with
    | none => exact ⟨hlast hu hu' (List.append_cancel_left hrest), rfl⟩
    | some s' => cases hsome
  | some s =>
    cases deleted' with
    | none => cases hsome
    | some s' =>
      simp only [optionalText, Json.dumps] at hrest
      obtain ⟨rfl, hrest'⟩ := writeString_append_inj (hd s rfl) (hd' s' rfl) hrest
      exact ⟨hlast hu hu' hrest', rfl⟩

/-! ### Parity -/

/-- What is known of pydantic's reader of timestamps: of a text that `from_iso8601/1` reads as well it
gives the date, the time and the offset, and the other one the instant. -/
structure ReadsIso (parse : Str → Option DateTime) : Prop where
  alike : ∀ text t u, parse text = some t → Timestamp.fromIso8601? text = some u →
    ∃ o, t.offset = some o ∧ t.day ≤ DateTime.daysInMonth t.year t.month ∧
      u = (Timestamp.civil t).before o

/-- A record as the two servers have it: the timestamps are texts in one, and read in the other. -/
structure SameRecord (parse : Str → Option DateTime) (m : Mutation) (r : SyncRecord) : Prop where
  entityType : m.entityType = r.entityType.name
  entityId : m.entityId = r.entityID.text
  baseServerRevision : m.baseServerRevision = r.baseServerRevision
  payload : m.payload = r.payload
  updatedAt : parse m.updatedAt = some r.updatedAt
  deletedAt : m.deletedAt.map parse = r.deletedAt.map some

/-- Both servers hash the same bytes, and have the same digest. -/
def SameFingerprint (m : Mutation) (r : SyncRecord) : Prop :=
  canonicalBytes m = .ok (serverBytes r) ∧ of m = .ok (requestFingerprint r)

/-- A timestamp that `from_iso8601/1` reads and that is in UTC. -/
def InUtc (text : Str) (t : DateTime) : Prop :=
  (Timestamp.fromIso8601? text).isSome = true ∧ t.offset = some 0

/-- The timestamps of a record are in UTC. -/
def StampsInUtc (m : Mutation) (r : SyncRecord) : Prop :=
  InUtc m.updatedAt r.updatedAt ∧
    ∀ text t, m.deletedAt = some text → r.deletedAt = some t → InUtc text t

/-- What the port hashes, when it reads the timestamps. -/
lemma canonicalBytes_eq_ok {m : Mutation} {bytes : Bytes} :
    canonicalBytes m = .ok bytes ↔
      ∃ u, Timestamp.fromIso8601? m.updatedAt = some u ∧
        ∃ deleted : Option Timestamp.Utc,
          m.deletedAt.map Timestamp.fromIso8601? = deleted.map some ∧
          bytes = asciiBytes (Json.dumps true (.dict (material m.entityType m.entityId
            m.baseServerRevision m.payload (Timestamp.render u)
            (deleted.map Timestamp.render)))) := by
  unfold canonicalBytes
  simp only [dumps_material]
  cases hu : Timestamp.fromIso8601? m.updatedAt with
  | none =>
    have hraises : Timestamp.normalize m.updatedAt = .error .argumentError := by
      rw [Timestamp.normalize, hu]
    rw [hraises]
    cases normalizedDeletion m.deletedAt <;> simp [bind, Except.bind]
  | some u =>
    have hreads : Timestamp.normalize m.updatedAt = .ok (Timestamp.render u) := by
      rw [Timestamp.normalize, hu]
    rw [hreads]
    cases hdeleted : m.deletedAt with
    | none =>
      constructor
      · intro h
        exact ⟨u, rfl, none, rfl, (Except.ok.inj h).symm⟩
      · rintro ⟨u', hu', deleted, hsame, rfl⟩
        obtain rfl := Option.some.inj hu'
        cases deleted with
        | none => rfl
        | some d => cases hsame
    | some text =>
      cases hd : Timestamp.fromIso8601? text with
      | none =>
        have hraises : normalizedDeletion (some text) = .error .argumentError := by
          rw [normalizedDeletion, Timestamp.normalize, hd]
          rfl
        rw [hraises]
        constructor
        · intro h
          cases h
        · rintro ⟨u', -, deleted, hsame, -⟩
          rw [Option.map_some, hd] at hsame
          cases deleted with
          | none => cases hsame
          | some d => cases hsame
      | some d =>
        have hreads' : normalizedDeletion (some text) = .ok (.str (Timestamp.render d)) := by
          rw [normalizedDeletion, Timestamp.normalize, hd]
          rfl
        rw [hreads']
        constructor
        · intro h
          refine ⟨u, rfl, some d, ?_, (Except.ok.inj h).symm⟩
          rw [Option.map_some, hd, Option.map_some]
        · rintro ⟨u', hu', deleted, hsame, rfl⟩
          obtain rfl := Option.some.inj hu'
          rw [Option.map_some, hd] at hsame
          cases deleted with
          | none => cases hsame
          | some d' =>
            obtain rfl := Option.some.inj (Option.some.inj hsame)
            rfl

section Parity

variable {parse : Str → Option DateTime} {m : Mutation} {r : SyncRecord}

/-- The timestamps that both servers read are written alike exactly in UTC. -/
lemma render_eq_iff (hparse : ReadsIso parse) {text : Str} {t : DateTime} {u : Timestamp.Utc}
    (ht : parse text = some t) (hu : Timestamp.fromIso8601? text = some u) :
    Timestamp.render u = t.isoformat ↔ InUtc text t := by
  obtain ⟨o, hoffset, hday, rfl⟩ := hparse.alike text t u ht hu
  rw [Timestamp.render_eq_isoformat_iff hoffset hday, InUtc, hu, hoffset]
  simp

/-- **The fingerprints of both servers** agree exactly on records whose timestamps are in UTC, in a
form that the port reads.

**Proof sketch.** What both hash is the material with the texts of the timestamps in it, and has
these texts in it. The port writes the text of the reference exactly at offset zero; a timestamp that
it does not read raises. -/
theorem sameFingerprint_iff (hparse : ReadsIso parse) (hrecord : SameRecord parse m r) :
    SameFingerprint m r ↔ StampsInUtc m r := by
  have hbytes : canonicalBytes m = .ok (serverBytes r) ↔ StampsInUtc m r := by
    rw [canonicalBytes_eq_ok, serverBytes, ← hrecord.entityType, ← hrecord.entityId,
      ← hrecord.baseServerRevision, ← hrecord.payload]
    constructor
    · rintro ⟨u, hu, deleted, hdeleted, hsame⟩
      have hsome : (r.deletedAt.map DateTime.isoformat).isSome =
          (deleted.map Timestamp.render).isSome := by
        have hread := congrArg Option.isSome hdeleted
        have hrecorded := congrArg Option.isSome hrecord.deletedAt
        simp only [Option.isSome_map] at hread hrecorded ⊢
        rw [← hrecorded, hread]
      obtain ⟨hupdated, hdeletion⟩ := material_inj (isoformat_stamp r.updatedAt) (render_stamp u)
        (fun s hs => by
          obtain ⟨t, -, rfl⟩ := Option.map_eq_some_iff.mp hs
          exact isoformat_stamp t)
        (fun s hs => by
          obtain ⟨d, -, rfl⟩ := Option.map_eq_some_iff.mp hs
          exact render_stamp d) hsome hsame
      refine ⟨(render_eq_iff hparse hrecord.updatedAt hu).mp hupdated.symm, ?_⟩
      intro text t htext ht
      have hparsed := hrecord.deletedAt
      rw [htext, ht, Option.map_some, Option.map_some] at hparsed
      rw [htext, Option.map_some] at hdeleted
      cases deleted with
      | none => cases hdeleted
      | some d =>
        rw [ht] at hdeletion
        exact (render_eq_iff hparse (Option.some.inj hparsed) (Option.some.inj hdeleted)).mp
          (Option.some.inj hdeletion).symm
    · rintro ⟨hupdated, hdeletion⟩
      obtain ⟨u, hu⟩ := Option.isSome_iff_exists.mp hupdated.1
      have hsame := (render_eq_iff hparse hrecord.updatedAt hu).mpr hupdated
      have hparsed := hrecord.deletedAt
      cases htext : m.deletedAt with
      | none =>
        rw [htext] at hparsed
        cases ht : r.deletedAt with
        | none => exact ⟨u, hu, none, rfl, by rw [hsame]; rfl⟩
        | some t =>
          rw [ht] at hparsed
          cases hparsed
      | some text =>
        rw [htext] at hparsed
        cases ht : r.deletedAt with
        | none =>
          rw [ht] at hparsed
          cases hparsed
        | some t =>
          rw [ht] at hparsed
          have hutc := hdeletion text t htext ht
          obtain ⟨d, hd⟩ := Option.isSome_iff_exists.mp hutc.1
          have hrender := (render_eq_iff hparse (Option.some.inj hparsed) hd).mpr hutc
          refine ⟨u, hu, some d, by rw [Option.map_some, hd]; rfl, ?_⟩
          rw [hsame, Option.map_some, Option.map_some, hrender]
  rw [SameFingerprint, hbytes]
  refine ⟨And.left, fun h => ⟨h, ?_⟩⟩
  rw [of, hbytes.mpr h, requestFingerprint_eq]
  rfl

end Parity

namespace Sample

/-- A date-time in UTC, two hours before the other. -/
def utcTime : DateTime := ⟨2026, 1, 2, 3, 4, 5, 500000, some 0, by constructor <;> simp⟩

/-- A date-time with an offset of two hours. -/
def offsetTime : DateTime := ⟨2026, 1, 2, 5, 4, 5, 500000, some 7200, by constructor <;> simp⟩

/-- The text of the first. -/
def utcText : Str := Str.ofString "2026-01-02T03:04:05.5Z"

/-- The text of the second. -/
def offsetText : Str := Str.ofString "2026-01-02T05:04:05.5+02:00"

/-- A reader of both. -/
def parse (text : Str) : Option DateTime :=
  if text = utcText then some utcTime else if text = offsetText then some offsetTime else none

/-- The reader is as pydantic's. -/
lemma readsIso : ReadsIso parse := by
  refine ⟨fun text t u ht hu => ?_⟩
  unfold parse at ht
  split_ifs at ht with hutc hoffset
  · obtain rfl := Option.some.inj ht
    rw [hutc] at hu
    have hread : Timestamp.fromIso8601? utcText =
        some ((Timestamp.civil utcTime).before 0) := by
      decide +kernel
    exact ⟨0, rfl, by decide, Option.some.inj (hu.symm.trans hread)⟩
  · obtain rfl := Option.some.inj ht
    rw [hoffset] at hu
    have hread : Timestamp.fromIso8601? offsetText =
        some ((Timestamp.civil offsetTime).before 7200) := by
      decide +kernel
    exact ⟨7200, rfl, by decide, Option.some.inj (hu.symm.trans hread)⟩

/-- The update of a customer at a time, as the reference has it. -/
def record (t : DateTime) : SyncRecord :=
  { VitrialSync.Sample.record .customer "c" "1" none [] with updatedAt := t }

/-- The same, as the port has it. -/
def mutation (text : Str) : Mutation :=
  ⟨(record utcTime).entityType.name, (record utcTime).entityID.text, none, text, none,
    (record utcTime).payload⟩

end Sample

/-- A record in UTC has one fingerprint. -/
theorem sameFingerprint_iff_utc :
    SameFingerprint (Sample.mutation Sample.utcText) (Sample.record Sample.utcTime) ↔
      StampsInUtc (Sample.mutation Sample.utcText) (Sample.record Sample.utcTime) :=
  sameFingerprint_iff Sample.readsIso ⟨rfl, rfl, rfl, rfl, if_pos rfl, rfl⟩

/-- With an offset of two hours the port hashes the instant in UTC: the digests differ. -/
theorem not_sameFingerprint_offset :
    SameRecord Sample.parse (Sample.mutation Sample.offsetText) (Sample.record Sample.offsetTime) ∧
      ¬SameFingerprint (Sample.mutation Sample.offsetText) (Sample.record Sample.offsetTime) := by
  have hother : Sample.offsetText ≠ Sample.utcText := by decide +kernel
  refine ⟨⟨rfl, rfl, rfl, rfl, (if_neg hother).trans (if_pos rfl), rfl⟩, fun h => ?_⟩
  have hdiffer : (of (Sample.mutation Sample.offsetText)).toOption ≠
      some (requestFingerprint (Sample.record Sample.offsetTime)) := by
    decide +kernel
  rw [h.2] at hdiffer
  exact hdiffer rfl

end Fingerprint

end VitrialSync.Beam
