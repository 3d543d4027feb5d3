import VitrialSync.Beam.Cursor
import VitrialSync.Beam.FingerprintParity
import VitrialSync.Beam.Page
import VitrialSync.Beam.Runtime
import VitrialSync.Python.Utf8

set_option relaxedAutoImplicit false
set_option autoImplicit false

/-!
# Canonical JSON on both servers

`VitrialSync.CanonicalJSON` in full: the members of a map in the order of the bytes of their keys,
and a float from the text that the runtime has for it. The runtime writes the shortest digits in the
shorter of two notations; `float/1` takes the digits and the position of the point from the text and
writes them as `repr` does, in decimal notation near one and in scientific notation elsewhere.

`fixed/2` is written for digits that may start with zeros, but `strip_leading_zeros/2` looks for the
byte zero and strips nothing; and it keeps trailing zeros. Neither matters for a text of the
runtime: the one case in which it would, a single digit in scientific notation below one, is a text
that is not shorter than decimal notation.

## Main definitions

* `VitrialSync.Beam.CanonicalJSON.float` — `float/1`.
* `VitrialSync.Beam.CanonicalJSON.encodeTerm` — `encode_value/2`, and `encode_pairs/2` for a map.

## Main results

* `VitrialSync.Beam.CanonicalJSON.float_eq_writeFloat` — floats are written as `repr` writes them.
* `VitrialSync.Beam.CanonicalJSON.encode_eq_dumps` — the bytes are those of `json.dumps`.
-/

namespace VitrialSync.Beam.CanonicalJSON

open Python Program
open Python.Json (ch Numeral Digits Significand digitText decimalNumeral pointNumeral
  scientificFraction scientificExponent decimalDigits decimalDigits_spec shortDigits
  shortDigits_spec digitChar_ne)
open VitrialSync.Beam.Runtime (shortExponent shortExponent_spec scientificNumeral decimalText
  scientificText)

/-! ### Floats -/

/-- `split_sign/1`. -/
def splitSign : Str → Str × Str
  | [] => ([], [])
  | c :: rest => if c = ch '-' then ([ch '-'], rest) else ([], c :: rest)

/-- `String.to_integer/1`. -/
def toInteger (text : Str) : Except Raised ℤ :=
  match Cursor.integerParse (JSON.bytesOf text) with
  | some (n, []) => .ok n
  | _ => .error .argumentError

/-- `split_exponent/1`. -/
def splitExponent (magnitude : Str) : Except Raised (Str × ℤ) :=
  match magnitude.dropWhile (· ≠ ch 'e') with
  | [] => .ok (magnitude, 0)
  | _ :: exponent =>
    -- the `case` has clauses for one part and for two
    if ch 'e' ∈ exponent then .error .caseClauseError
    else (toInteger exponent).map fun n => (magnitude.takeWhile (· ≠ ch 'e'), n)

/-- `split_point/2`. -/
def splitPoint (mantissa : Str) (exponent : ℤ) : Str × ℤ :=
  let head := mantissa.takeWhile (· ≠ ch '.')
  let tail := (mantissa.dropWhile (· ≠ ch '.')).drop 1
  (head ++ tail, head.length + exponent)

/-- `String.duplicate("0", n)`. -/
def zeros (n : ℤ) : Str := List.replicate n.toNat (digitChar 0)

/-- `strip_leading_zeros/2`; its pattern is the byte zero, not the digit. -/
def stripLeadingZeros : Str → ℤ → Str × ℤ
  | [], decpt => ([], decpt)
  | c :: rest, decpt =>
    if c.val = 0 then stripLeadingZeros rest (decpt - 1) else (c :: rest, decpt)

/-- `fixed/2`. -/
def fixed (digits : Str) (decpt : ℤ) : Str :=
  let (digits, decpt) := stripLeadingZeros digits decpt
  if decpt ≤ 0 then Str.ofString "0." ++ zeros (-decpt) ++ digits
  else if digits.length ≤ decpt then
    digits ++ zeros (decpt - digits.length) ++ Str.ofString ".0"
  else digits.take decpt.toNat ++ Str.ofString "." ++ digits.drop decpt.toNat

/-- `trim_trailing_zeros/1`. -/
def trimTrailingZeros (digits : Str) : Str :=
  match digits.rdropWhile (· == digitChar 0) with
  | [] => [digitChar 0]
  | trimmed => trimmed

/-- `String.pad_leading(digits, 2, "0")`. -/
def padTwo (digits : Str) : Str := List.replicate (2 - digits.length) (digitChar 0) ++ digits

/-- `python_exponent/1`. -/
def pythonExponent : Str → Str
  | [] => ch '+' :: padTwo []
  | c :: digits => if c = ch '-' then ch '-' :: padTwo digits else ch '+' :: padTwo (c :: digits)

/-- `scientific/2`. -/
def scientific (digits : Str) (decpt : ℤ) : Except Raised Str :=
  let exponent := Str.ofString "e" ++ pythonExponent (Str.ofInt (decpt - 1))
  match trimTrailingZeros digits with
  | [] => .error .caseClauseError
  | [single] => .ok ([single] ++ exponent)
  | first :: rest => .ok (first :: ch '.' :: rest ++ exponent)

/-- The choice of `float/1` between the notations. -/
def format (digits : Str) (decpt : ℤ) : Except Raised Str :=
  if decpt ≤ -4 ∨ 16 < decpt then scientific digits decpt else .ok (fixed digits decpt)

/-- `float/1` on the text of the runtime. -/
def reformat (text : Str) : Except Raised Str := do
  let (sign, magnitude) := splitSign text
  let (mantissa, exponent) ← splitExponent magnitude
  let (digits, decpt) := splitPoint mantissa exponent
  return sign ++ (← format digits decpt)

/-- `float/1`. -/
def float (runtime : Runtime) (value : Binary64) : Except Raised Str :=
  reformat (runtime.short value)

/-! ### Values -/

/-- `Enum.sort_by/2` by the keys, which are compared as binaries. -/
def sortByKey (pairs : List (Str × Str)) : List (Str × Str) :=
  pairs.insertionSort fun a b => JSON.bytesOf a.1 ≤ JSON.bytesOf b.1

mutual

/-- `encode_value/2`, and `encode_pairs/2` for a map. -/
def encodeTerm (runtime : Runtime) : Value → Except Raised Str
  | .none => .ok (Str.ofString "null")
  | .bool b => .ok (Str.ofString (if b then "true" else "false"))
  | .int n => .ok (Str.ofInt n)
  | .float x => float runtime x
  | .str s => .ok (quoted s)
  | .list xs => do
    let values ← encodeTerms runtime xs
    return Str.ofString "[" ++ (values.intersperse (Str.ofString ",")).flatten ++ Str.ofString "]"
  | .dict d => do
    -- the values are encoded one by one, in the order in which the runtime enumerates the map
    let pairs ← encodeEntries runtime d
    match sortByKey (runtime.enumerate pairs) with
    | [] => return Str.ofString "\x7b\x7d"
    | sorted =>
      let body := sorted.map fun m => quoted m.1 ++ Str.ofString ":" ++ m.2
      return Str.ofString "\x7b" ++ (body.intersperse (Str.ofString ",")).flatten ++
        Str.ofString "\x7d"

/-- The elements of a list. -/
def encodeTerms (runtime : Runtime) : List Value → Except Raised (List Str)
  | [] => .ok []
  | x :: xs => do
    let text ← encodeTerm runtime x
    let texts ← encodeTerms runtime xs
    return text :: texts

/-- The values of a map under their keys. -/
def encodeEntries (runtime : Runtime) : List (Str × Value) → Except Raised (List (Str × Str))
  | [] => .ok []
  | (k, v) :: d => do
    let text ← encodeTerm runtime v
    let texts ← encodeEntries runtime d
    return (k, text) :: texts

end

/-- `encode/1`, whose only clause takes a map. -/
def encodeObject (runtime : Runtime) : Value → Except Raised Bytes
  | .dict d => (encodeTerm runtime (.dict d)).map JSON.bytesOf
  | _ => .error .functionClauseError

/-! ### What is read from a text of the runtime -/

/-- A marked exponent is split off. -/
lemma takeWhile_mark {c : CodePoint} {s : Str} (h : ∀ d ∈ s, d ≠ c) (rest : Str) :
    (s ++ c :: rest).takeWhile (· ≠ c) = s := by
  rw [List.takeWhile_append_of_pos (by simpa using h), List.takeWhile_cons]
  simp

/-- What follows a mark. -/
lemma dropWhile_mark {c : CodePoint} {s : Str} (h : ∀ d ∈ s, d ≠ c) (rest : Str) :
    (s ++ c :: rest).dropWhile (· ≠ c) = c :: rest := by
  rw [List.dropWhile_append_of_pos (by simpa using h), List.dropWhile_cons]
  simp

/-- Without the mark nothing follows. -/
lemma dropWhile_unmarked {c : CodePoint} {s : Str} (h : ∀ d ∈ s, d ≠ c) :
    s.dropWhile (· ≠ c) = [] := by
  rw [List.dropWhile_eq_nil_iff]
  simpa using h

/-- Digits are none of the marks. -/
lemma digitText_ne {ds : List ℕ} (h : ∀ d ∈ ds, d < 10) {c : CodePoint}
    (hc : c.val < 0x30 ∨ 0x39 < c.val) : ∀ x ∈ digitText ds, x ≠ c := by
  intro x hx
  obtain ⟨d, hd, rfl⟩ := List.mem_map.mp hx
  exact (digitChar_ne (h d hd) hc).symm

/-- The exponent of the runtime is read back. -/
lemma toInteger_shortExponent (e : ℤ) :
    ∃ text, (shortExponent e).text = ch 'e' :: text ∧ ch 'e' ∉ text ∧ toInteger text = .ok e := by
  obtain ⟨⟨hnil, hlt⟩, htext, -⟩ := decimalDigits_spec e.natAbs
  have hdigits : Digits (decimalDigits e.natAbs) := ⟨hnil, hlt⟩
  have hplain : ch 'e' ∉ digitText (decimalDigits e.natAbs) := fun h =>
    digitText_ne hlt (by decide) _ h rfl
  have hvalue := Json.ofDigits_decimalDigits e.natAbs
  by_cases hneg : e < 0
  · refine ⟨ch '-' :: digitText (decimalDigits e.natAbs), ?_, ?_, ?_⟩
    · rw [shortExponent, if_pos hneg]
      rfl
    · rw [List.mem_cons, not_or]
      exact ⟨by decide, hplain⟩
    · have htake : JSON.takeDigits (JSON.bytesOf (digitText (decimalDigits e.natAbs))) =
          (decimalDigits e.natAbs, []) := by
        have := JSON.takeDigits_digitText hlt (r := []) (fun c s h => by cases h)
        rwa [List.append_nil] at this
      have hparse : Cursor.integerParse
          (JSON.bytesOf (ch '-' :: digitText (decimalDigits e.natAbs))) = some (e, []) := by
        rw [show JSON.bytesOf (ch '-' :: digitText (decimalDigits e.natAbs)) =
          0x2d :: JSON.bytesOf (digitText (decimalDigits e.natAbs)) from rfl, Cursor.integerParse,
          htake]
        cases hds : decimalDigits e.natAbs with
        | nil => exact absurd hds hnil
        | cons d ds =>
          dsimp only
          rw [← hds, hvalue, if_pos rfl]
          congr 2
          omega
      rw [toInteger, hparse]
  · refine ⟨digitText (decimalDigits e.natAbs), ?_, hplain, ?_⟩
    · rw [shortExponent, if_neg hneg]
      rfl
    · rw [toInteger, Cursor.integerParse_digitText hdigits, hvalue]
      dsimp only
      congr 1
      omega

section Reformat

variable {neg : Bool} {whole frac : List ℕ}

/-- The sign of a number. -/
def signText (neg : Bool) : Str := if neg then [ch '-'] else []

/-- The sign is split off. -/
lemma splitSign_append (hwhole : Digits whole) (rest : Str) :
    splitSign (signText neg ++ (digitText whole ++ rest)) =
      (signText neg, digitText whole ++ rest) := by
  cases neg with
  | true => rfl
  | false =>
    obtain ⟨hnil, hlt⟩ := hwhole
    cases whole with
    | nil => exact absurd rfl hnil
    | cons d ds =>
      change splitSign (digitChar d :: _) = _
      rw [splitSign,
        if_neg (digitChar_ne (c := ch '-') (hlt d List.mem_cons_self) (by decide)).symm]
      rfl

/-- The digits and the point of a mantissa. -/
lemma splitPoint_mantissa (hwhole : ∀ d ∈ whole, d < 10) (e : ℤ) :
    splitPoint (digitText whole ++ ch '.' :: digitText frac) e =
      (digitText (whole ++ frac), whole.length + e) := by
  have hne := digitText_ne hwhole (c := ch '.') (by decide)
  rw [splitPoint, takeWhile_mark hne, dropWhile_mark hne]
  simp [digitText]

/-- A mantissa has no exponent mark. -/
lemma mantissa_ne (hwhole : ∀ d ∈ whole, d < 10) (hfrac : ∀ d ∈ frac, d < 10) :
    ∀ x ∈ digitText whole ++ ch '.' :: digitText frac, x ≠ ch 'e' := by
  intro x hx
  rcases List.mem_append.mp hx with hx | hx
  · exact digitText_ne hwhole (by decide) x hx
  · rcases List.mem_cons.mp hx with rfl | hx
    · decide
    · exact digitText_ne hfrac (by decide) x hx

/-- **Decimal notation is read as its digits and its point.** -/
lemma reformat_decimal (hwhole : Digits whole) (hfrac : ∀ d ∈ frac, d < 10) :
    reformat (Numeral.text ⟨neg, whole, some frac, none⟩) =
      (format (digitText (whole ++ frac)) whole.length).map (signText neg ++ ·) := by
  have htext : Numeral.text ⟨neg, whole, some frac, none⟩ =
      signText neg ++ (digitText whole ++ ch '.' :: digitText frac) := by
    rw [Numeral.text, Numeral.tailText, Option.elim_some, Option.elim_none, List.append_nil]
    rfl
  rw [htext, reformat, splitSign_append hwhole]
  dsimp only
  rw [splitExponent, dropWhile_unmarked (mantissa_ne hwhole.2 hfrac)]
  simp only [ok_bind, splitPoint_mantissa hwhole.2, add_zero]
  cases format (digitText (whole ++ frac)) whole.length <;> rfl

/-- **Scientific notation is read as its digits and its point.** -/
lemma reformat_scientific (hwhole : Digits whole) (hfrac : ∀ d ∈ frac, d < 10) (e : ℤ) :
    reformat (Numeral.text ⟨neg, whole, some frac, some (shortExponent e)⟩) =
      (format (digitText (whole ++ frac)) (whole.length + e)).map (signText neg ++ ·) := by
  obtain ⟨text, hexponent, hplain, hinteger⟩ := toInteger_shortExponent e
  have htext : Numeral.text ⟨neg, whole, some frac, some (shortExponent e)⟩ = signText neg ++
      (digitText whole ++ (ch '.' :: digitText frac ++ ch 'e' :: text)) := by
    rw [Numeral.text, Numeral.tailText, Option.elim_some, Option.elim_some, hexponent]
    rfl
  have hmantissa := mantissa_ne hwhole.2 hfrac
  rw [htext, reformat, splitSign_append hwhole]
  dsimp only
  rw [← List.append_assoc, splitExponent, dropWhile_mark hmantissa, takeWhile_mark hmantissa]
  dsimp only
  rw [if_neg hplain, hinteger]
  simp only [Except.map, ok_bind, splitPoint_mantissa hwhole.2]
  cases format (digitText (whole ++ frac)) (whole.length + e) <;> rfl

end Reformat

/-! ### The notation of `repr` -/

/-- Padding to two digits. -/
lemma padTwo_decimalDigits (n : ℕ) :
    padTwo (Str.ofNat n) =
      if (Str.ofNat n).length < 2 then digitChar 0 :: Str.ofNat n else Str.ofNat n := by
  obtain ⟨⟨hnil, -⟩, htext, -⟩ := decimalDigits_spec n
  have hpos : 0 < (Str.ofNat n).length := by
    rw [htext, digitText, List.length_map]
    exact List.length_pos_of_ne_nil hnil
  rw [padTwo]
  split_ifs with hshort
  · rw [show 2 - (Str.ofNat n).length = 1 by omega]
    rfl
  · rw [show 2 - (Str.ofNat n).length = 0 by omega]
    rfl

/-- The exponent has a sign and two digits at least. -/
lemma pythonExponent_ofInt (e : ℤ) : Str.ofString "e" ++ pythonExponent (Str.ofInt e) =
    Str.ofString (if e < 0 then "e-" else "e+") ++
      (if (Str.ofNat e.natAbs).length < 2 then digitChar 0 :: Str.ofNat e.natAbs
        else Str.ofNat e.natAbs) := by
  rw [← padTwo_decimalDigits]
  cases e with
  | ofNat n =>
    obtain ⟨⟨hnil, hlt⟩, htext, -⟩ := decimalDigits_spec n
    rw [if_neg (by simp), Str.ofInt]
    change _ = Str.ofString "e+" ++ padTwo (Str.ofNat n)
    rw [htext]
    cases hds : decimalDigits n with
    | nil => exact absurd hds hnil
    | cons d ds =>
      have hd : d < 10 := hlt d (by rw [hds]; exact List.mem_cons_self)
      have hne : digitChar d ≠ ch '-' := (digitChar_ne hd (by decide)).symm
      rw [digitText, List.map_cons, pythonExponent, if_neg hne]
      rfl
  | negSucc n =>
    rw [if_pos (Int.negSucc_lt_zero n), Str.ofInt]
    rfl

/-- Zeros at the end of a significand are trimmed off. -/
lemma trimDigits_zeros {ts : List ℕ} (hlast : ts.getLast? ≠ some 0) (n : ℕ) :
    Json.trimDigits (ts ++ List.replicate n 0) = ts := by
  induction n with
  | zero =>
    rw [List.replicate_zero, List.append_nil, Json.trimDigits, List.rdropWhile_eq_self_iff]
    intro hnil hzero
    exact hlast (by rw [List.getLast?_eq_some_getLast hnil, beq_iff_eq.mp hzero])
  | succ n ih =>
    rw [List.replicate_succ', ← List.append_assoc, Json.trimDigits,
      List.rdropWhile_concat_pos _ _ _ (by simp)]
    exact ih

/-- So they are in the text. -/
lemma trimTrailingZeros_append {ts : List ℕ} (hne : ts ≠ []) (hlt : ∀ d ∈ ts, d < 10)
    (hlast : ts.getLast? ≠ some 0) (n : ℕ) :
    trimTrailingZeros (digitText (ts ++ List.replicate n 0)) = digitText ts := by
  have hdigits : ∀ d ∈ ts ++ List.replicate n 0, d < 10 := by
    intro d hd
    rcases List.mem_append.mp hd with hd | hd
    · exact hlt d hd
    · rw [List.eq_of_mem_replicate hd]
      decide
  rw [trimTrailingZeros, Json.digitText_trimDigits hdigits, trimDigits_zeros hlast]
  cases ts with
  | nil => exact absurd rfl hne
  | cons t ts => rfl

/-- No digit is the byte zero. -/
lemma stripLeadingZeros_digitText (ds : List ℕ) (decpt : ℤ) :
    stripLeadingZeros (digitText ds) decpt = (digitText ds, decpt) := by
  cases ds with
  | nil => rfl
  | cons d ds =>
    rw [digitText, List.map_cons, stripLeadingZeros, if_neg]
    change ¬ 0x30 + d % 10 = 0
    omega

section Notation

variable {neg : Bool} {ts : List ℕ} {point : ℤ}

/-- Away from zero the significand has no zero at its end. -/
lemma last_of_significand (h : Significand ts point) (hpoint : point ≤ -4 ∨ 16 < point) :
    ts.getLast? ≠ some 0 := by
  rcases h.last with hlast | ⟨-, rfl⟩
  · exact hlast
  · omega

/-- **Scientific notation of digits.** -/
lemma scientific_append (neg : Bool) (h : Significand ts point)
    (hpoint : point ≤ -4 ∨ 16 < point) (n : ℕ) :
    scientific (digitText (ts ++ List.replicate n 0)) point =
      .ok (digitText (pointNumeral neg ts point).whole ++
        (pointNumeral neg ts point).tailText) := by
  have hexponent := pythonExponent_ofInt (point - 1)
  have htail := Json.scientific_text ts (point - 1)
  rw [List.append_assoc, ← hexponent] at htail
  rw [Json.pointNumeral_scientific (by omega), Numeral.tailText, Option.elim_some, htail,
    scientific, trimTrailingZeros_append h.digits.1 h.digits.2 (last_of_significand h hpoint)]
  cases ts with
  | nil => exact absurd rfl h.digits.1
  | cons t ts =>
    cases ts with
    | nil => rfl
    | cons t' ts => rfl

/-- Digits with the point among them. -/
lemma fixed_digitText {whole frac : List ℕ} (hwhole : whole ≠ []) (hfrac : frac ≠ []) :
    fixed (digitText (whole ++ frac)) whole.length =
      digitText whole ++ ch '.' :: digitText frac := by
  have hpos := List.length_pos_of_ne_nil hwhole
  have hpos' := List.length_pos_of_ne_nil hfrac
  have hlength : (digitText (whole ++ frac)).length = whole.length + frac.length := by
    rw [digitText, List.length_map, List.length_append]
  rw [fixed, stripLeadingZeros_digitText]
  dsimp only
  rw [if_neg (by omega), if_neg (by omega), Int.toNat_natCast, digitText, List.map_append,
    List.take_left' (List.length_map _), List.drop_left' (List.length_map _), List.append_assoc]
  rfl

/-- The sign of the notation. -/
lemma pointNumeral_neg : (pointNumeral neg ts point).neg = neg := by
  unfold pointNumeral
  split_ifs <;> rfl

/-- The digits and the point of a decimal text are written anew. -/
lemma reformat_written (whole frac : List ℕ) (h : Significand ts point) (hpoint : -4 < point)
    (hwhole : Digits whole) (hfrac : Digits frac)
    (hdecimal : decimalNumeral neg ts point = ⟨neg, whole, some frac, none⟩)
    (hlength : (whole.length : ℤ) = if point ≤ 0 then 1 else point)
    (hzeros : 0 < point → ∃ n, whole ++ frac = ts ++ List.replicate n 0) :
    reformat (decimalNumeral neg ts point).text = .ok (pointNumeral neg ts point).text := by
  rw [hdecimal, reformat_decimal hwhole hfrac.2, Numeral.text, pointNumeral_neg]
  by_cases hbig : 16 < point
  · obtain ⟨n, hn⟩ := hzeros (by omega)
    have hpoint' : (whole.length : ℤ) = point := by
      rw [hlength, if_neg (by omega)]
    rw [hn, hpoint', format, if_pos (Or.inr hbig), scientific_append neg h (Or.inr hbig)]
    rfl
  · have hsmall : ¬ ((whole.length : ℤ) ≤ -4 ∨ 16 < (whole.length : ℤ)) := by
      rw [hlength]
      split_ifs <;> omega
    rw [format, if_neg hsmall, fixed_digitText hwhole.1 hfrac.1,
      Json.pointNumeral_decimal ⟨hpoint, by omega⟩, hdecimal, Numeral.tailText, Option.elim_some,
      Option.elim_none, List.append_nil]
    rfl

/-- **Decimal notation is rewritten.** Near one it stays as it is; far above, the zeros that it is
filled up with are trimmed off.

**Proof sketch.** By the place of the point: before the digits, behind them or among them. -/
lemma reformat_decimalNumeral (h : Significand ts point) (hpoint : -4 < point) :
    reformat (decimalNumeral neg ts point).text = .ok (pointNumeral neg ts point).text := by
  obtain ⟨hne, hlt⟩ := h.digits
  have hzero : ∀ {n : ℕ}, ∀ d ∈ List.replicate n 0, d < 10 := by
    intro n d hd
    rw [List.eq_of_mem_replicate hd]
    decide
  by_cases hsmall : point ≤ 0
  · refine reformat_written [0] (List.replicate (-point).toNat 0 ++ ts) h hpoint
      ⟨by simp, by simp⟩ ⟨by simp [hne], ?_⟩ (by rw [decimalNumeral, if_pos hsmall]) ?_
      (by omega)
    · exact fun d hd => (List.mem_append.mp hd).elim (hzero d) (hlt d)
    · rw [if_pos hsmall]
      rfl
  · by_cases hwhole : (ts.length : ℤ) ≤ point
    · refine reformat_written (ts ++ List.replicate (point - ts.length).toNat 0) [0] h hpoint
        ⟨by simp [hne], ?_⟩ ⟨by simp, by simp⟩
        (by rw [decimalNumeral, if_neg hsmall, if_pos hwhole]) ?_ fun _ => ?_
      · exact fun d hd => (List.mem_append.mp hd).elim (hlt d) (hzero d)
      · rw [if_neg hsmall, List.length_append, List.length_replicate]
        omega
      · refine ⟨(point - ts.length).toNat + 1, ?_⟩
        rw [List.append_assoc, List.replicate_succ']
    · refine reformat_written (ts.take point.toNat) (ts.drop point.toNat) h hpoint
        (Json.digits_take hne hlt (by omega))
        (Json.digits_drop hlt (by omega))
        (by rw [decimalNumeral, if_neg hsmall, if_neg hwhole]) ?_ fun _ => ⟨0, ?_⟩
      · rw [if_neg hsmall, List.length_take]
        omega
      · rw [List.take_append_drop, List.replicate_zero, List.append_nil]

/-- The digits of a significand with at least two places, near one.

**Proof sketch.** By the place of the point, as in decimal notation; the zero behind a single digit
is the digit behind the point, or the first of the zeros before the point. -/
lemma fixed_padded (neg : Bool) (hne : ts ≠ []) (hsingle : ts.length = 1 → 0 < point) :
    fixed (digitText (ts ++ List.replicate (2 - ts.length) 0)) point =
      digitText (decimalNumeral neg ts point).whole ++ (decimalNumeral neg ts point).tailText := by
  have hpos := List.length_pos_of_ne_nil hne
  have hlength : (digitText (ts ++ List.replicate (2 - ts.length) 0)).length =
      ts.length + (2 - ts.length) := by
    rw [digitText, List.length_map, List.length_append, List.length_replicate]
  rw [fixed, stripLeadingZeros_digitText]
  dsimp only
  rw [hlength]
  by_cases hsmall : point ≤ 0
  · rw [if_pos hsmall, decimalNumeral, if_pos hsmall,
      show 2 - ts.length = 0 by omega, List.replicate_zero, List.append_nil, zeros,
      Numeral.tailText, Option.elim_some, Option.elim_none, List.append_nil, digitText, digitText,
      digitText, List.map_append, List.map_replicate]
    rfl
  · rw [if_neg hsmall, decimalNumeral, if_neg hsmall]
    by_cases hwhole : (ts.length : ℤ) ≤ point
    · rw [if_pos hwhole, Numeral.tailText, Option.elim_some, Option.elim_none, List.append_nil]
      by_cases hone : ts.length = 1 ∧ point = 1
      · obtain ⟨hone, rfl⟩ := hone
        rw [if_neg (by omega), show 2 - ts.length = 1 by omega, hone]
        obtain ⟨t, rfl⟩ := List.length_eq_one_iff.mp hone
        rfl
      · rw [if_pos (by omega), zeros, digitText, digitText, List.map_append, List.map_append,
          List.map_replicate, List.map_replicate, List.append_assoc (List.map digitChar ts),
          List.replicate_append_replicate]
        congr 3
        · omega
    · rw [if_neg hwhole, if_neg (by omega), show 2 - ts.length = 0 by omega, List.replicate_zero,
        List.append_nil, Numeral.tailText, Option.elim_some, Option.elim_none, List.append_nil,
        digitText, digitText, digitText, List.map_take, List.map_drop, List.append_assoc]
      rfl

/-- **Scientific notation is rewritten.** A single digit has a zero behind it, which is one too many
below one only.

**Proof sketch.** Away from one the digits are trimmed. Near one the point is put among the digits,
or zeros are filled in. -/
lemma reformat_scientificNumeral (h : Significand ts point)
    (hsingle : ts.length = 1 → ¬ (-4 < point ∧ point ≤ 0)) :
    reformat (scientificNumeral neg ts point).text = .ok (pointNumeral neg ts point).text := by
  obtain ⟨hne, hlt⟩ := h.digits
  have hpos := List.length_pos_of_ne_nil hne
  have hfirst : Digits (ts.take 1) := Json.digits_take hne hlt one_ne_zero
  have hlast : Digits (if ts.length ≤ 1 then [0] else ts.drop 1) := by
    split_ifs with hone
    · exact ⟨by simp, by simp⟩
    · exact Json.digits_drop hlt (by omega)
  -- the digits, with the zero behind a single one
  have hdigits : ts.take 1 ++ (if ts.length ≤ 1 then [0] else ts.drop 1) =
      ts ++ List.replicate (2 - ts.length) 0 := by
    split_ifs with hone
    · rw [List.take_of_length_le hone, show ts.length = 1 by omega]
      rfl
    · rw [List.take_append_drop, show 2 - ts.length = 0 by omega, List.replicate_zero,
        List.append_nil]
  have hlength : ((ts.take 1).length : ℤ) + (point - 1) = point := by
    rw [List.length_take]
    omega
  rw [scientificNumeral, reformat_scientific hfirst hlast.2, hdigits, hlength, Numeral.text,
    pointNumeral_neg]
  by_cases hfar : point ≤ -4 ∨ 16 < point
  · rw [format, if_pos hfar, scientific_append neg h hfar]
    rfl
  · rw [format, if_neg hfar, Json.pointNumeral_decimal (by omega)]
    rw [fixed_padded neg hne fun hone => by
      have := hsingle hone
      omega]
    rfl

end Notation

/-! ### The notation that the runtime chooses -/

/-- A number has at most as many digits as units, and far fewer beyond the first few. -/
lemma length_decimalDigits_le {n : ℕ} (h : 5 ≤ n) : (decimalDigits n).length + 4 ≤ n := by
  have hle : ∀ m, 0 < m → (decimalDigits m).length ≤ m := by
    intro m
    induction m using Nat.strong_induction_on with
    | _ m ih =>
      intro hm
      rcases Nat.lt_or_ge m 10 with hlt | hge
      · rw [Json.decimalDigits_of_lt hlt, List.length_singleton]
        exact hm
      · rw [Json.decimalDigits_of_le hge, List.length_append, List.length_singleton]
        have := ih (m / 10) (by omega) (by omega)
        omega
  rcases Nat.lt_or_ge n 10 with hlt | hge
  · rw [Json.decimalDigits_of_lt hlt, List.length_singleton]
    omega
  · rw [Json.decimalDigits_of_le hge, List.length_append, List.length_singleton]
    have := hle (n / 10) (by omega)
    omega

/-- A rational below one rounds to a float below two.

**Proof sketch.** The last bit of the significand is at most a unit, and the rounding moves the
rational by half of it. -/
lemma ofRat_small {neg neg' : Bool} {q : ℚ} (hq : |q| < 1) {m : ℕ} {e : ℤ}
    {h : Canonical64 m e} (heq : Binary64.ofRat neg q = .finite neg' m e h) :
    (m : ℚ) * Binary64.pow2 e < 2 := by
  by_cases hzero : q = 0
  · subst hzero
    simp only [Binary64.ofRat, ↓reduceIte, Binary64.finite.injEq] at heq
    rw [← heq.2.1]
    norm_num
  · have hpos : 0 < |q| := abs_pos.mpr hzero
    have hbit : Binary64.lastBit |q| ≤ 0 := by
      have hest : Binary64.leadEstimate |q| - 1 < 0 := by
        have := (Binary64.leadEstimate_spec hpos).1.trans hq
        rwa [← zpow_zero (2 : ℚ), zpow_lt_zpow_iff_right₀ (by norm_num)] at this
      have hlast : Binary64.lastBit |q| = max
          ((if Binary64.pow2 (Binary64.leadEstimate |q|) ≤ |q| then Binary64.leadEstimate |q|
            else Binary64.leadEstimate |q| - 1) - 52) (-1074) := rfl
      rw [hlast]
      split_ifs <;> omega
    have hunit : (0 : ℚ) < (2 : ℚ) ^ Binary64.lastBit |q| := by positivity
    have hunit' : (2 : ℚ) ^ Binary64.lastBit |q| ≤ 1 := by
      rw [← zpow_zero (2 : ℚ)]
      exact zpow_le_zpow_right₀ (by norm_num) hbit
    -- the rounded quotient
    have hround := Binary64.abs_roundHalfEven_sub_le
      (div_nonneg hpos.le (by rw [Binary64.pow2_eq]; exact hunit.le) :
        0 ≤ |q| / Binary64.pow2 (Binary64.lastBit |q|))
    rw [abs_le, Binary64.pow2_eq] at hround
    have hvalue : (Binary64.roundHalfEven (|q| / (2 : ℚ) ^ Binary64.lastBit |q|) : ℚ) *
        (2 : ℚ) ^ Binary64.lastBit |q| < 2 := by
      have hle : (Binary64.roundHalfEven (|q| / (2 : ℚ) ^ Binary64.lastBit |q|) : ℚ) ≤
          |q| / (2 : ℚ) ^ Binary64.lastBit |q| + 1 / 2 := by linarith [hround.2]
      calc (Binary64.roundHalfEven (|q| / (2 : ℚ) ^ Binary64.lastBit |q|) : ℚ) *
            (2 : ℚ) ^ Binary64.lastBit |q|
          ≤ (|q| / (2 : ℚ) ^ Binary64.lastBit |q| + 1 / 2) * (2 : ℚ) ^ Binary64.lastBit |q| := by
            gcongr
        _ = |q| + 1 / 2 * (2 : ℚ) ^ Binary64.lastBit |q| := by
            rw [add_mul, div_mul_cancel₀ _ hunit.ne']
        _ < 2 := by linarith
    rw [← Binary64.pow2_eq] at hvalue
    simp only [Binary64.ofRat, if_neg hzero] at heq
    generalize Binary64.roundHalfEven (|q| / Binary64.pow2 (Binary64.lastBit |q|)) = k
      at heq hvalue
    by_cases hcarry : k = 2 ^ 53
    · subst hcarry
      rw [if_pos rfl] at heq
      split_ifs at heq
      obtain ⟨-, rfl, rfl⟩ := Binary64.finite.inj heq
      rw [Binary64.pow2_eq] at hvalue ⊢
      rw [zpow_add₀ (by norm_num), zpow_one]
      push_cast at hvalue ⊢
      linarith
    · simp only [if_neg hcarry] at heq
      split_ifs at heq
      obtain ⟨-, rfl, rfl⟩ := Binary64.finite.inj heq
      exact hvalue

section Chosen

variable {ts : List ℕ} {point : ℤ} (neg : Bool)

/-- The length of a negative exponent. -/
lemma length_shortExponent {e : ℤ} (h : e < 0) :
    (shortExponent e).text.length = 2 + (decimalDigits e.natAbs).length := by
  have htext : (shortExponent e).text = ch 'e' :: ch '-' :: digitText (decimalDigits e.natAbs) := by
    rw [shortExponent, if_pos h]
    rfl
  rw [htext, List.length_cons, List.length_cons, digitText, List.length_map]
  omega

/-- The length of decimal notation below one. -/
lemma length_decimal (h : point ≤ 0) : (decimalNumeral neg ts point).text.length =
    (signText neg).length + (2 + (-point).toNat + ts.length) := by
  have htext : (decimalNumeral neg ts point).text = signText neg ++
      digitChar 0 :: ch '.' :: digitText (List.replicate (-point).toNat 0 ++ ts) := by
    rw [decimalNumeral, if_pos h, Numeral.text, Numeral.tailText, Option.elim_some,
      Option.elim_none, List.append_nil]
    rfl
  rw [htext, List.length_append, List.length_cons, List.length_cons, digitText, List.length_map,
    List.length_append, List.length_replicate]
  omega

/-- The length of scientific notation below one. -/
lemma length_scientific (hne : ts ≠ []) (h : point ≤ 0) :
    (scientificNumeral neg ts point).text.length = (signText neg).length +
      (4 + max 1 (ts.length - 1) + (decimalDigits (point - 1).natAbs).length) := by
  have htext : (scientificNumeral neg ts point).text = signText neg ++ (digitText (ts.take 1) ++
      (ch '.' :: digitText (if ts.length ≤ 1 then [0] else ts.drop 1) ++
        (shortExponent (point - 1)).text)) := rfl
  have hpos := List.length_pos_of_ne_nil hne
  rw [htext, List.length_append, List.length_append, List.length_append, List.length_cons,
    length_shortExponent (by omega), digitText, digitText, List.length_map, List.length_map,
    List.length_take]
  split_ifs
  · rw [List.length_singleton]
    omega
  · rw [List.length_drop]
    omega

/-- Decimal notation far below one is longer.

**Proof sketch.** It has as many zeros as the exponent has units, and the exponent fewer digits. -/
lemma decimal_longer (hne : ts ≠ []) (hpoint : point ≤ -4) :
    (scientificNumeral neg ts point).text.length < (decimalNumeral neg ts point).text.length := by
  have hpos := List.length_pos_of_ne_nil hne
  have hdigits := length_decimalDigits_le (n := (point - 1).natAbs) (by omega)
  rw [length_decimal neg (by omega), length_scientific neg hne (by omega)]
  omega

/-- Decimal notation of a single digit little below one is not longer. -/
lemma decimal_shorter (hone : ts.length = 1) (hpoint : -4 < point ∧ point ≤ 0) :
    (decimalNumeral neg ts point).text.length ≤ (scientificNumeral neg ts point).text.length := by
  have hdigits : 0 < (decimalDigits (point - 1).natAbs).length :=
    List.length_pos_of_ne_nil (decimalDigits_spec _).1.1
  have hne : ts ≠ [] := List.ne_nil_of_length_pos (by omega)
  rw [length_decimal neg hpoint.2, length_scientific neg hne hpoint.2]
  omega

end Chosen

/-- Digits with the point before them are below one. -/
lemma digits_lt_one {ts : List ℕ} {point : ℤ} (hlt : ∀ d ∈ ts, d < 10) (hpoint : point ≤ 0) :
    (ofDigits ts : ℚ) * (10 : ℚ) ^ (point - ts.length) < 1 := by
  have hdigits : (ofDigits ts : ℚ) < (10 : ℚ) ^ (ts.length : ℤ) := by
    rw [zpow_natCast]
    exact_mod_cast Json.ofDigits_lt hlt
  calc (ofDigits ts : ℚ) * (10 : ℚ) ^ (point - ts.length)
      < (10 : ℚ) ^ (ts.length : ℤ) * (10 : ℚ) ^ (point - ts.length) := by gcongr
    _ = (10 : ℚ) ^ point := by
        rw [← zpow_add₀ (by norm_num)]
        congr 1
        omega
    _ ≤ 1 := by
        rw [← zpow_zero (10 : ℚ)]
        exact zpow_le_zpow_right₀ (by norm_num) hpoint

/-- **Floats are written as `repr` writes them**, in whichever notation the runtime has them.

**Proof sketch.** The runtime writes the shortest digits in the shorter notation. Decimal notation
is not the shorter one far below one, and scientific notation of a single digit is not little below
one, where the two servers would differ; from `2 ^ 53` on the float is not below one. -/
theorem float_eq_writeFloat {runtime : Runtime} (hrenders : Runtime.Renders runtime.short)
    {x : Binary64} (hx : x.isFinite = true) : float runtime x = .ok (Json.writeFloat x) := by
  cases x with
  | nan => cases hx
  | inf neg => cases hx
  | finite neg m e h =>
  obtain ⟨ts, point, hshort, hsignificand, hround⟩ := shortDigits_spec neg m e h
  have hwrite := Json.writeFloat_digits neg m e h
  rw [hshort] at hwrite
  rw [float, hwrite]
  rcases hrenders _ hx with ⟨htext, hle⟩ | ⟨htext, hlt⟩
  · rw [decimalText, scientificText, hshort] at hle
    rw [htext, decimalText, hshort]
    refine reformat_decimalNumeral hsignificand ?_
    by_contra hpoint
    exact absurd (decimal_longer neg hsignificand.digits.1 (not_lt.mp hpoint)) (not_lt.mpr hle)
  · rw [scientificText, decimalText, hshort] at hlt
    rw [htext, scientificText, hshort]
    refine reformat_scientificNumeral hsignificand fun hone hpoint => ?_
    rcases hlt with hlt | hlarge
    · exact absurd hlt (not_lt.mpr (decimal_shorter neg hone hpoint))
    · -- a float of this size is not below one
      have hsmall : |if neg then -((ofDigits ts : ℚ) * (10 : ℚ) ^ (point - ts.length))
          else (ofDigits ts : ℚ) * (10 : ℚ) ^ (point - ts.length)| < 1 := by
        have hnonneg : (0 : ℚ) ≤ ofDigits ts * (10 : ℚ) ^ (point - ts.length) := by positivity
        have hone := digits_lt_one hsignificand.digits.2 hpoint.2
        cases neg with
        | true =>
          rw [if_pos rfl, abs_neg, abs_of_nonneg hnonneg]
          exact hone
        | false =>
          rw [if_neg Bool.false_ne_true, abs_of_nonneg hnonneg]
          exact hone
      have hbound := ofRat_small hsmall hround
      have habs : |(Binary64.finite neg m e h).toRat| = m * Binary64.pow2 e := by
        have hpos : (0 : ℚ) ≤ m * Binary64.pow2 e := by
          rw [Binary64.pow2_eq]
          positivity
        cases neg with
        | true =>
          change |(-1 : ℚ) * m * Binary64.pow2 e| = _
          rw [neg_one_mul, neg_mul, abs_neg, abs_of_nonneg hpos]
        | false =>
          change |(1 : ℚ) * m * Binary64.pow2 e| = _
          rw [one_mul, abs_of_nonneg hpos]
      rw [habs] at hlarge
      have : (2 : ℚ) ^ 53 < 2 := hlarge.trans_lt hbound
      norm_num at this

/-! ### Values -/

/-- Commas between texts. -/
lemma flatten_intersperse (texts : List Str) :
    (texts.intersperse (Str.ofString ",")).flatten = Json.joinComma texts := by
  induction texts with
  | nil => rfl
  | cons t texts ih =>
    cases texts with
    | nil =>
      rw [List.intersperse_singleton, List.flatten_cons, List.flatten_nil, List.append_nil]
      rfl
    | cons u texts =>
      rw [List.intersperse_cons_cons, List.flatten_cons, List.flatten_cons, ih]
      rfl

/-- Two members with one key are one when no key comes twice. -/
lemma eq_of_key {α : Type} {members : List (Str × α)} (h : (members.map Prod.fst).Nodup)
    {a b : Str × α} (ha : a ∈ members) (hb : b ∈ members) (hkey : a.1 = b.1) : a = b :=
  List.inj_on_of_nodup_map h ha hb hkey

/-- Sorted by the bytes of the keys or by the keys, in whichever order the map is enumerated: the
members are the same, and no key comes twice. -/
lemma sortByKey_enumerate (runtime : Runtime) {members : List (Str × Str)}
    (h : (members.map Prod.fst).Nodup) :
    sortByKey (runtime.enumerate members) = Json.sortMembers members := by
  have hbytes : ∀ ms : List (Str × Str), sortByKey ms = Json.sortMembers ms := by
    intro ms
    unfold sortByKey Json.sortMembers
    congr 1
    funext a b
    exact propext (utf8_le_iff a.1 b.1)
  have hmem : ∀ (ms : List (Str × Str)) a, a ∈ Json.sortMembers ms ↔ a ∈ ms := fun ms _ =>
    (List.perm_insertionSort _ ms).mem_iff
  have : Std.Total fun a b : Str × Str => a.1 ≤ b.1 := ⟨fun a b => le_total a.1 b.1⟩
  have : IsTrans (Str × Str) fun a b => a.1 ≤ b.1 := ⟨fun _ _ _ => le_trans⟩
  have hsorted : ∀ ms : List (Str × Str),
      (Json.sortMembers ms).Pairwise fun a b => a.1 ≤ b.1 := fun ms =>
    List.pairwise_insertionSort _ ms
  have hperm : (Json.sortMembers (runtime.enumerate members)).Perm (Json.sortMembers members) :=
    (List.perm_insertionSort _ _).trans
      ((runtime.enumerate_perm members).trans (List.perm_insertionSort _ _).symm)
  rw [hbytes]
  refine List.Perm.eq_of_pairwise ?_ (hsorted _) (hsorted _) hperm
  intro a b ha hb hab hba
  have ha' := (runtime.enumerate_perm members).mem_iff.mp ((hmem _ a).mp ha)
  exact eq_of_key h ha' ((hmem _ b).mp hb) (le_antisymm hab hba)

/-- The texts of the elements of a list. -/
lemma dumpsElements_eq (xs : List Value) :
    Json.dumpsElements true xs = xs.map (Json.dumps true) := by
  induction xs with
  | nil => rfl
  | cons x xs ih => rw [Json.dumpsElements, List.map_cons, ih]

/-- The keys with the texts of their values. -/
lemma dumpsMembers_eq (d : Dict) :
    Json.dumpsMembers true d = d.map fun m => (m.1, Json.dumps true m.2) := by
  induction d with
  | nil => rfl
  | cons m d ih => rw [Json.dumpsMembers, List.map_cons, ih]

/-- The elements of a list are encoded one by one. -/
lemma encodeTerms_eq_ok {runtime : Runtime} {xs : List Value}
    (h : ∀ x ∈ xs, encodeTerm runtime x = .ok (Json.dumps true x)) :
    encodeTerms runtime xs = .ok (xs.map (Json.dumps true)) := by
  induction xs with
  | nil => rfl
  | cons x xs ih =>
    rw [List.forall_mem_cons] at h
    rw [encodeTerms, h.1, ih h.2]
    rfl

/-- The values of a map are encoded one by one. -/
lemma encodeEntries_eq_ok {runtime : Runtime} {d : Dict}
    (h : ∀ m ∈ d, encodeTerm runtime m.2 = .ok (Json.dumps true m.2)) :
    encodeEntries runtime d = .ok (d.map fun m => (m.1, Json.dumps true m.2)) := by
  induction d with
  | nil => rfl
  | cons m d ih =>
    rw [List.forall_mem_cons] at h
    obtain ⟨k, v⟩ := m
    rw [encodeEntries, h.1, ih h.2]
    rfl

/-- **A term is written as `json.dumps` writes it.**

**Proof sketch.** By induction on the term. Its floats are finite, and the keys of its maps differ,
so that the two orders of the members agree. -/
lemma encodeTerm_eq_dumps {runtime : Runtime} (hrenders : Runtime.Renders runtime.short) (v : Value)
    (hv : JSON.IsTerm v) : encodeTerm runtime v = .ok (Json.dumps true v) := by
  obtain ⟨hformed, hfinite⟩ := hv
  induction v using Json.value_induction with
  | none => rfl
  | bool b => rfl
  | int n => rfl
  | float x =>
    have hx : x.isFinite = true := hfinite x (by simp [Value.leaves])
    rw [encodeTerm, float_eq_writeFloat hrenders hx]
    rfl
  | str s => rw [encodeTerm, quoted_eq]; rfl
  | list xs ih =>
    rw [Value.WellFormed, Value.wellFormedList_iff] at hformed
    have hxs : ∀ x ∈ xs, encodeTerm runtime x = .ok (Json.dumps true x) := fun x hx =>
      ih x hx (hformed x hx) fun f hf =>
        hfinite f (by rw [Value.leaves, Value.mem_leavesOfList]; exact ⟨x, hx, hf⟩)
    rw [encodeTerm, encodeTerms_eq_ok hxs, Json.dumps, dumpsElements_eq]
    dsimp only [ok_bind]
    rw [flatten_intersperse]
    rfl
  | dict d ih =>
    rw [Value.WellFormed, Value.wellFormedItems_iff] at hformed
    obtain ⟨hnodup, hformed⟩ := hformed
    have hd : ∀ m ∈ d, encodeTerm runtime m.2 = .ok (Json.dumps true m.2) := fun m hm =>
      ih m hm (hformed m hm) fun f hf =>
        hfinite f (by rw [Value.leaves, Value.mem_leavesOfItems]; exact ⟨m, hm, hf⟩)
    have hkeys : ((d.map fun m => (m.1, Json.dumps true m.2)).map Prod.fst).Nodup := by
      rw [List.map_map]
      exact hnodup
    have hopen : Str.ofString "\x7b" = [ch '{'] := rfl
    have hclose : Str.ofString "\x7d" = [ch '}'] := rfl
    rw [encodeTerm, encodeEntries_eq_ok hd, Json.dumps, dumpsMembers_eq]
    dsimp only [ok_bind]
    rw [sortByKey_enumerate runtime hkeys]
    cases Json.sortMembers (d.map fun m => (m.1, Json.dumps true m.2)) with
    | nil => rfl
    | cons m ms =>
      dsimp only
      rw [flatten_intersperse, hopen, hclose]
      simp only [quoted_eq, List.append_assoc]
      rfl

/-- The pages write a value as `json.dumps` does.

**Proof sketch.** By induction on the value; the members are sorted by the keys on both sides. -/
lemma encodeValue_eq_dumps (v : Value) : encodeValue v = Json.dumps true v := by
  induction v using Json.value_induction with
  | none => rfl
  | bool b => rfl
  | int n => rfl
  | float x => rfl
  | str s => rw [encodeValue, quoted_eq]; rfl
  | list xs ih =>
    have hxs : encodeElements xs = xs.map (Json.dumps true) := by
      induction xs with
      | nil => rfl
      | cons x xs ihxs =>
        rw [List.forall_mem_cons] at ih
        rw [encodeElements, ih.1, ihxs ih.2, List.map_cons]
    rw [encodeValue, hxs, flatten_intersperse, Json.dumps, dumpsElements_eq]
    simp only [List.append_assoc]
    rfl
  | dict d ih =>
    have hd : encodeMembers d = d.map fun m => (m.1, Json.dumps true m.2) := by
      induction d with
      | nil => rfl
      | cons m d ihd =>
        rw [List.forall_mem_cons] at ih
        obtain ⟨k, v⟩ := m
        rw [encodeMembers, ih.1, ihd ih.2, List.map_cons]
    have hopen : Str.ofString "\x7b" = [ch '{'] := rfl
    have hclose : Str.ofString "\x7d" = [ch '}'] := rfl
    rw [encodeValue, hd, flatten_intersperse, Json.dumps, dumpsMembers_eq, hopen, hclose]
    simp only [quoted_eq, List.append_assoc]
    rfl

/-- The text is ASCII. -/
lemma bytesOf_dumps (v : Value) :
    JSON.bytesOf (Json.dumps true v) = asciiBytes (Json.dumps true v) := by
  have hprintable : ∀ c ∈ Json.dumps true v, c.val < 0x80 := by
    intro c hc
    rw [← Json.write_compact] at hc
    have := (Json.write_printable v c hc).2
    omega
  generalize Json.dumps true v = s at hprintable
  induction s with
  | nil => rfl
  | cons c s ih =>
    rw [List.forall_mem_cons] at hprintable
    rw [JSON.bytesOf_cons, JSON.utf8_ascii hprintable.1, ih hprintable.2]
    rfl

/-- **Canonical JSON is the text that the reference hashes.** Whatever order a map is enumerated in,
and where the runtime writes floats as documented (`Runtime.Renders`), a term is encoded as the
bytes of `json.dumps` with sorted keys and compact separators, where `json.dumps` writes the term:
CPython refuses integers of more than 4300 digits. The pages take the digits from `repr` at once.

**Proof sketch.** The text of a term is that of `json.dumps`, which is ASCII. -/
theorem encode_eq_dumps {runtime : Runtime} (hrenders : Runtime.Renders runtime.short) {d : Dict}
    (hd : JSON.IsTerm (.dict d)) :
    encodeObject runtime (.dict d) = .ok (asciiBytes (Json.dumps true (.dict d))) ∧
      encode (.dict d) = encodeObject runtime (.dict d) := by
  have hobject : encodeObject runtime (.dict d) =
      .ok (asciiBytes (Json.dumps true (.dict d))) := by
    rw [encodeObject, encodeTerm_eq_dumps hrenders _ hd, ← bytesOf_dumps]
    rfl
  refine ⟨hobject, ?_⟩
  rw [hobject, encode, encodeValue_eq_dumps]
  rfl

namespace Sample

/-- A runtime that enumerates the longer keys last. -/
def runtime : Runtime := ⟨Runtime.shortText, fun _ a b => decide (a.length ≤ b.length)⟩

/-- An object with a number of each kind. -/
def object : Dict :=
  [(Str.ofString "width", .list [.int 12, .float (Binary64.ofRat false (3 / 2 * 10 ^ 10))]),
    (Str.ofString "note", .str (Str.ofString "left"))]

/-- It is a term. -/
lemma isTerm_object : JSON.IsTerm (.dict object) := by
  constructor
  · simp only [object, Value.WellFormed, Value.WellFormedItems, Value.WellFormedList, and_true]
    decide
  · have hleaves : (Value.dict object).leaves =
        [.int 12, .float (Binary64.ofRat false (3 / 2 * 10 ^ 10))] := rfl
    intro x hx
    rw [hleaves] at hx
    simp only [List.mem_cons, reduceCtorEq, Value.float.injEq, List.not_mem_nil, or_false,
      false_or] at hx
    rw [hx]
    decide +kernel

end Sample

/-- An object with a float that the runtime has in the other notation. -/
theorem encode_eq_dumps_sample :
    encodeObject Sample.runtime (.dict Sample.object) =
        .ok (asciiBytes (Json.dumps true (.dict Sample.object))) ∧
      encode (.dict Sample.object) = encodeObject Sample.runtime (.dict Sample.object) :=
  encode_eq_dumps Runtime.shortText_renders Sample.isTerm_object

end VitrialSync.Beam.CanonicalJSON
