import Mathlib.Data.List.Forall2
import Mathlib.Tactic.SplitIfs
import VitrialSync.Python.Json

set_option relaxedAutoImplicit false
set_option autoImplicit false

/-!
# The grammar of JSON texts

The grammar of RFC 8259 as a relation between values and texts, with a dialect as parameter: the
words that stand for values, and the numerals that are read. The reader of the standard library
reads every text of its own dialect as the value that the text denotes; the dialect has the words
`NaN`, `Infinity` and `-Infinity` in addition, and no integer of more than 4300 digits.

## Main definitions

* `Python.Json.Numeral` — the parts of a number.
* `Python.Json.CharText`, `Python.Json.Literal` — characters of a string, and string literals.
* `Python.Json.Dialect` — `Python.Json.rfc8259` and `Python.Json.cpython`.
* `Python.Json.Denotes` — the grammar: a text denotes a value.
* `Python.Json.Document` — a text between white space.

## Main results

* `Python.Json.Denotes.reads` — the reader reads what the grammar of its dialect derives.
* `Python.Json.parseDocument_of_document` — so it does for whole documents.
-/

namespace Python.Json

/-! ### White space and ends -/

/-- White space between tokens. -/
def Blank (s : Str) : Prop := ∀ c ∈ s, isWs c = true

/-- What may follow a number: nothing, white space, or the separator or end of a container. -/
def Delimited (r : Str) : Prop :=
  ∀ c s, r = c :: s → isWs c = true ∨ c = ch ',' ∨ c = ch ']' ∨ c = ch '}'

/-- A text that starts with a token other than the end of a container. -/
def Starts (s : Str) : Prop := ∃ c t, s = c :: t ∧ isWs c = false ∧ c ≠ ch ']' ∧ c ≠ ch '}'

/-- The empty text is white space. -/
lemma blank_nil : Blank [] := fun _ h => absurd h List.not_mem_nil

/-- White space before a token is skipped. -/
lemma skipWs_append {l : Str} (hl : Blank l) (s : Str) : skipWs (l ++ s) = skipWs s := by
  induction l with
  | nil => rfl
  | cons c l ih =>
    rw [Blank, List.forall_mem_cons] at hl
    rw [skipWs, List.cons_append, List.dropWhile_cons_of_pos hl.1]
    exact ih hl.2

/-- Nothing is skipped where a token starts. -/
lemma skipWs_of_starts {s : Str} (hs : Starts s) (r : Str) : skipWs (s ++ r) = s ++ r := by
  obtain ⟨c, t, rfl, hc, -⟩ := hs
  exact skipWs_cons hc _

/-- A value ends before white space. -/
lemma delimited_append {l r : Str} (hl : Blank l) (hr : Delimited r) : Delimited (l ++ r) := by
  intro c s h
  cases l with
  | nil => exact hr c s h
  | cons d l =>
    obtain ⟨rfl, -⟩ := List.cons.inj h
    exact Or.inl (hl _ List.mem_cons_self)

/-- A value ends at the end of a document. -/
lemma delimited_nil : Delimited [] := fun _ _ h => absurd h (by simp)

/-- A value ends at a separator or the end of a container. -/
lemma delimited_cons {c : CodePoint} (hc : c = ch ',' ∨ c = ch ']' ∨ c = ch '}') (s : Str) :
    Delimited (c :: s) := by
  intro d t h
  obtain ⟨rfl, -⟩ := List.cons.inj h
  exact Or.inr hc

/-! ### Numbers -/

/-- The text of digits. -/
def digitText (ds : List ℕ) : Str := ds.map digitChar

/-- An exponent: its mark, an optional sign, `true` for the minus, and its digits. -/
structure Exponent where
  mark : CodePoint
  sign : Option Bool
  digits : List ℕ

/-- A number: a sign, the whole part, and an optional fraction and exponent. -/
structure Numeral where
  neg : Bool
  whole : List ℕ
  frac : Option (List ℕ)
  expo : Option Exponent

/-- One digit at least, and digits only. -/
def Digits (ds : List ℕ) : Prop := ds ≠ [] ∧ ∀ d ∈ ds, d < 10

namespace Exponent

/-- The text of an exponent. -/
def text (e : Exponent) : Str :=
  e.mark :: ((e.sign.elim [] fun minus => [if minus then ch '-' else ch '+']) ++ digitText e.digits)

/-- The number that an exponent writes. -/
def value (e : Exponent) : ℤ :=
  if e.sign = some true then -(ofDigits e.digits : ℤ) else ofDigits e.digits

/-- An `e` or an `E`, and digits. -/
def WellFormed (e : Exponent) : Prop := (e.mark = ch 'e' ∨ e.mark = ch 'E') ∧ Digits e.digits

end Exponent

namespace Numeral

/-- The text of the fraction and the exponent. -/
def tailText (n : Numeral) : Str :=
  (n.frac.elim [] fun ds => ch '.' :: digitText ds) ++ n.expo.elim [] Exponent.text

/-- The text of a number. -/
def text (n : Numeral) : Str :=
  (if n.neg then [ch '-'] else []) ++ (digitText n.whole ++ n.tailText)

/-- The magnitude of a number with a fraction or an exponent. -/
def magnitude (n : Numeral) : ℚ :=
  ofDigits (n.whole ++ n.frac.getD []) *
    Binary64.pow10 ((n.expo.elim 0 Exponent.value) - (n.frac.getD []).length)

/-- The value of a number: an `int` without a fraction and an exponent, else the nearest float. -/
def value (n : Numeral) : Value :=
  if n.frac.isNone && n.expo.isNone then
    .int (if n.neg then -(ofDigits n.whole : ℤ) else ofDigits n.whole)
  else .float (Binary64.ofRat n.neg (if n.neg then -n.magnitude else n.magnitude))

/-- The grammar of numbers: digits without a leading zero, and digits in the fraction and in the
exponent where these are present. -/
structure WellFormed (n : Numeral) : Prop where
  whole : Digits n.whole
  zero : ∀ ds, n.whole = 0 :: ds → ds = []
  frac : ∀ ds, n.frac = some ds → Digits ds
  expo : ∀ e, n.expo = some e → e.WellFormed

/-- An integer has at most as many digits as `int()` reads. -/
def Short (n : Numeral) : Prop :=
  n.frac = none → n.expo = none → n.whole.length ≤ maxIntDigits

end Numeral

/-- The value of a digit. -/
lemma digitChar_val {d : ℕ} (hd : d < 10) : (digitChar d).val = 0x30 + d := by
  simp [digitChar, Nat.mod_eq_of_lt hd]

/-- A text that does not start with a digit. -/
def NoDigit (r : Str) : Prop := ∀ c s, r = c :: s → ¬ (0x30 ≤ c.val ∧ c.val ≤ 0x39)

/-- Digits are scanned up to the first character that is none. -/
lemma scanDigits_text {ds : List ℕ} (hds : ∀ d ∈ ds, d < 10) {r : Str} (hr : NoDigit r) :
    scanDigits (digitText ds ++ r) = (ds, r) := by
  induction ds with
  | nil =>
    cases r with
    | nil => rfl
    | cons c s =>
      change scanDigits (c :: s) = _
      rw [scanDigits, if_neg (hr c s rfl)]
  | cons d ds ih =>
    rw [List.forall_mem_cons] at hds
    have hval := digitChar_val hds.1
    have hrest := ih hds.2
    rw [digitText] at hrest
    rw [digitText, List.map_cons, List.cons_append, scanDigits, hval, if_pos (by omega), hrest]
    simp

/-- A separator is no digit. -/
lemma Delimited.noDigit {r : Str} (hr : Delimited r) : NoDigit r := by
  rintro c s h
  rcases hr c s h with hws | rfl | rfl | rfl
  · simp only [isWs, Bool.or_eq_true, beq_iff_eq] at hws
    omega
  · decide
  · decide
  · decide

/-- A text whose first character is none of `.`, `e` and `E`. -/
lemma Delimited.noMark {r : Str} (hr : Delimited r) :
    ∀ c s, r = c :: s → c ≠ ch '.' ∧ c ≠ ch 'e' ∧ c ≠ ch 'E' := by
  rintro c s h
  rcases hr c s h with hws | rfl | rfl | rfl
  · simp only [isWs, Bool.or_eq_true, beq_iff_eq] at hws
    refine ⟨?_, ?_, ?_⟩ <;> rintro rfl <;> revert hws <;> decide
  · decide
  · decide
  · decide

/-- An exponent, or none, is scanned. -/
lemma scanExponent_text {n : Numeral} (hn : n.WellFormed) {r : Str} (hr : Delimited r) :
    scanExponent (n.expo.elim [] Exponent.text ++ r) = (n.expo.map Exponent.value, r) := by
  cases hexpo : n.expo with
  | none =>
    change scanExponent r = (none, r)
    cases r with
    | nil => rfl
    | cons c s =>
      obtain ⟨-, he, hE⟩ := hr.noMark c s rfl
      rw [scanExponent, if_neg (by simp [he, hE])]
  | some e =>
    obtain ⟨hmark, hne, hdigits⟩ := hn.expo e hexpo
    have hscan := scanDigits_text hdigits hr.noDigit
    obtain ⟨mark, sign, digits⟩ := e
    dsimp only at hmark hne hdigits hscan
    change scanExponent (mark :: ((sign.elim [] fun minus => [if minus then ch '-' else ch '+']) ++
      digitText digits) ++ r) = _
    rw [List.cons_append, scanExponent, if_pos hmark]
    have hsign : scanSign ((sign.elim [] fun minus => [if minus then ch '-' else ch '+']) ++
        digitText digits ++ r) = (decide (sign = some true), digitText digits ++ r) := by
      cases sign with
      | none =>
        cases digits with
        | nil => exact absurd rfl hne
        | cons d ds =>
          have hval := digitChar_val (hdigits d List.mem_cons_self)
          have hd := hdigits d List.mem_cons_self
          simp only [Option.elim_none, List.nil_append, digitText, List.map_cons, List.cons_append,
            scanSign]
          rw [if_neg, if_neg]
          · rfl
          · intro h
            rw [h] at hval
            change 0x2b = _ at hval
            omega
          · intro h
            rw [h] at hval
            change 0x2d = _ at hval
            omega
      | some minus => cases minus <;> rfl
    rw [hsign]
    dsimp only
    rw [hscan]
    cases digits with
    | nil => exact absurd rfl hne
    | cons d ds => simp [Exponent.value]

/-- A fraction, or none, is scanned. -/
lemma scanFraction_text {n : Numeral} (hn : n.WellFormed) {r : Str} (hr : Delimited r) :
    scanFraction (n.tailText ++ r) = (n.frac, n.expo.elim [] Exponent.text ++ r) := by
  have hmark : ∀ c s, n.expo.elim [] Exponent.text ++ r = c :: s →
      c ≠ ch '.' ∧ ¬ (0x30 ≤ c.val ∧ c.val ≤ 0x39) := by
    intro c s h
    cases hexpo : n.expo with
    | none =>
      rw [hexpo] at h
      exact ⟨(hr.noMark c s h).1, hr.noDigit c s h⟩
    | some e =>
      rw [hexpo] at h
      have hc : e.mark = c := (List.cons.inj h).1
      rw [← hc]
      rcases (hn.expo e hexpo).1 with hmark | hmark <;> rw [hmark] <;> decide
  rw [Numeral.tailText]
  cases hfrac : n.frac with
  | none =>
    simp only [Option.elim_none, List.nil_append]
    generalize n.expo.elim [] Exponent.text ++ r = rest at hmark
    cases rest with
    | nil => rfl
    | cons c s => rw [scanFraction, if_neg (hmark c s rfl).1]
  | some ds =>
    obtain ⟨hne, hdigits⟩ := hn.frac ds hfrac
    have hscan := scanDigits_text hdigits (fun c s h => (hmark c s h).2)
    simp only [Option.elim_some, List.cons_append, List.append_assoc, scanFraction, ↓reduceIte]
    rw [hscan]
    cases ds with
    | nil => exact absurd rfl hne
    | cons d ds => rfl

/-- The whole part is scanned. -/
lemma scanWhole_text {n : Numeral} (hn : n.WellFormed) {r : Str} (hr : NoDigit r) :
    scanWhole (digitText n.whole ++ r) = some (n.whole, r) := by
  obtain ⟨hne, hdigits⟩ := hn.whole
  cases hwhole : n.whole with
  | nil => exact absurd hwhole hne
  | cons d ds =>
    rw [hwhole] at hdigits
    have hd := hdigits d List.mem_cons_self
    have hscan := scanDigits_text hdigits hr
    by_cases hzero : d = 0
    · subst hzero
      obtain rfl := hn.zero ds hwhole
      rfl
    · have hval := digitChar_val hd
      rw [digitText, List.map_cons, List.cons_append, scanWhole, if_neg]
      · rw [digitText, List.map_cons, List.cons_append] at hscan
        rw [hscan]
      · intro h
        rw [h] at hval
        change 0x30 = _ at hval
        omega

/-- A number after its sign is scanned. -/
lemma scanNumber_text {n : Numeral} (hn : n.WellFormed) (hshort : n.Short) {r : Str}
    (hr : Delimited r) :
    scanNumber n.neg (digitText n.whole ++ (n.tailText ++ r)) = some (n.value, r) := by
  have htail : NoDigit (n.tailText ++ r) := by
    intro c s h
    rw [Numeral.tailText] at h
    cases hfrac : n.frac with
    | some ds =>
      rw [hfrac] at h
      rw [← (List.cons.inj h).1]
      decide
    | none =>
      rw [hfrac] at h
      cases hexpo : n.expo with
      | some e =>
        rw [hexpo] at h
        have hc : e.mark = c := (List.cons.inj h).1
        rw [← hc]
        rcases (hn.expo e hexpo).1 with hmark | hmark <;> rw [hmark] <;> decide
      | none =>
        rw [hexpo] at h
        exact hr.noDigit c s h
  unfold scanNumber
  rw [scanWhole_text hn htail]
  dsimp only
  rw [scanFraction_text hn hr]
  dsimp only
  rw [scanExponent_text hn hr]
  dsimp only
  cases hfrac : n.frac with
  | none =>
    cases hexpo : n.expo with
    | none =>
      have hle := hshort hfrac hexpo
      simp only [Option.map_none, Numeral.value, hfrac, hexpo, Option.isNone_none, Bool.and_self,
        ↓reduceIte]
      rw [if_neg (by omega)]
    | some e => simp [Numeral.value, Numeral.magnitude, hfrac, hexpo]
  | some ds => cases hexpo : n.expo <;> simp [Numeral.value, Numeral.magnitude, hfrac, hexpo]

/-- A word is not read where another character stands. -/
lemma scanWord_of_ne {word : String} {v : Value} {c d : CodePoint} {w s : Str}
    (hword : Str.ofString word = c :: w) (hne : c ≠ d) : scanWord word v (d :: s) = none := by
  simp [scanWord, hword, List.isPrefixOf, hne]

/-- The first character of a number, a minus sign or a digit, stands for itself only, and starts no
word; after a minus sign there is a digit. -/
lemma Numeral.text_head {n : Numeral} (hn : n.WellFormed) : ∃ d ds,
    n.whole = d :: ds ∧ d < 10 ∧
      (n.neg = true → n.text = ch '-' :: (digitText n.whole ++ n.tailText)) ∧
      (n.neg = false → n.text = digitText n.whole ++ n.tailText) := by
  obtain ⟨hne, hdigits⟩ := hn.whole
  cases hwhole : n.whole with
  | nil => exact absurd hwhole hne
  | cons d ds =>
    refine ⟨d, ds, rfl, ?_, fun hneg => ?_, fun hneg => ?_⟩
    · exact hdigits d (by rw [hwhole]; exact List.mem_cons_self)
    · rw [text, if_pos hneg, hwhole]
      rfl
    · rw [text, hneg, hwhole]
      rfl

/-- A digit is none of the characters that start another token. -/
lemma digitChar_ne {d : ℕ} (hd : d < 10) {c : CodePoint} (hc : c.val < 0x30 ∨ 0x39 < c.val) :
    c ≠ digitChar d := by
  rintro rfl
  rw [digitChar_val hd] at hc
  omega

/-- A number is read as a scalar. -/
lemma scanScalar_numeral {n : Numeral} (hn : n.WellFormed) (hshort : n.Short) {r : Str}
    (hr : Delimited r) : scanScalar (n.text ++ r) = some (n.value, r) := by
  have hscan := scanNumber_text hn hshort hr
  obtain ⟨d, ds, hwhole, hd, hminus, hplus⟩ := n.text_head hn
  cases hneg : n.neg with
  | true =>
    rw [hneg] at hscan
    rw [hminus hneg, List.cons_append, List.append_assoc, scanScalar,
      scanWord_of_ne rfl (by decide), scanWord_of_ne rfl (by decide),
      scanWord_of_ne rfl (by decide), scanWord_of_ne rfl (by decide),
      scanWord_of_ne rfl (by decide)]
    have hinf : scanWord "-Infinity" (.float (.inf true))
        (ch '-' :: (digitText n.whole ++ (n.tailText ++ r))) = none := by
      have hne : ch 'I' ≠ digitChar d := digitChar_ne hd (by decide)
      have hfalse : (ch 'I' == digitChar d) = false := by simpa using hne
      rw [hwhole, scanWord]
      have hword : Str.ofString "-Infinity" = ch '-' :: ch 'I' :: Str.ofString "nfinity" := rfl
      simp only [hword, digitText, List.map_cons, List.cons_append, List.isPrefixOf, hfalse,
        Bool.false_and, Bool.and_false, Bool.false_eq_true, ↓reduceIte]
    rw [hinf]
    simp only [Option.orElse_none, ↓reduceIte]
    exact hscan
  | false =>
    rw [hneg] at hscan
    have hhead : digitText n.whole ++ (n.tailText ++ r) =
        digitChar d :: (digitText ds ++ (n.tailText ++ r)) := by
      rw [hwhole]
      rfl
    rw [hhead] at hscan
    rw [hplus hneg, List.append_assoc, hhead, scanScalar,
      scanWord_of_ne rfl (digitChar_ne hd (by decide)),
      scanWord_of_ne rfl (digitChar_ne hd (by decide)),
      scanWord_of_ne rfl (digitChar_ne hd (by decide)),
      scanWord_of_ne rfl (digitChar_ne hd (by decide)),
      scanWord_of_ne rfl (digitChar_ne hd (by decide)),
      scanWord_of_ne rfl (digitChar_ne hd (by decide))]
    have hne : digitChar d ≠ ch '-' := (digitChar_ne hd (by decide)).symm
    simp only [Option.orElse_none, hne, ↓reduceIte]
    exact hscan

/-! ### Strings -/

/-- The text of a character in a string literal, and the character with the mark whether it is
written as a `\u` escape. -/
inductive CharText : Str → CodePoint × Bool → Prop
  | plain {c : CodePoint} (h : IsPlain c) : CharText [c] (c, false)
  | simple {e c : CodePoint} (h : simpleEscape? e = some c) : CharText [ch '\\', e] (c, false)
  | unit {a b c d u : CodePoint} (h : hex4? a b c d = some u) :
      CharText [ch '\\', ch 'u', a, b, c, d] (u, true)

/-- A string literal, and the string that it denotes. -/
def Literal (s t : Str) : Prop :=
  ∃ ts xs, List.Forall₂ CharText ts xs ∧ t = ch '"' :: (ts.flatten ++ [ch '"']) ∧
    s = (joinEscapes xs).map Prod.fst

/-- The characters of a literal are scanned one by one. -/
lemma scanChars_flatten {ts : List Str} {xs : List (CodePoint × Bool)}
    (h : List.Forall₂ CharText ts xs) (r : Str) :
    scanChars (ts.flatten ++ ch '"' :: r) = some (xs, r) := by
  induction h with
  | nil =>
    rw [List.flatten_nil, List.nil_append, scanChars.eq_def]
    simp
  | @cons t x ts xs htext hrest ih =>
    have hslash : ch '\\' ≠ ch '"' := by decide
    rw [List.flatten_cons, List.append_assoc]
    cases htext with
    | plain hplain =>
      obtain ⟨hlow, hquote, hescape⟩ := hplain
      rw [List.cons_append, List.nil_append, scanChars.eq_def]
      simp only [hquote, hescape, ↓reduceIte]
      rw [if_neg (by omega), ih]
      rfl
    | @simple e c hsimple =>
      have hu : e ≠ ch 'u' := by
        rintro rfl
        have hnone : simpleEscape? (ch 'u') = none := by decide
        cases hnone.symm.trans hsimple
      rw [List.cons_append, List.cons_append, List.nil_append, scanChars.eq_def]
      simp only [hslash, hu, hsimple, ↓reduceIte, ih, Option.bind_some, Option.map_some]
    | unit hunit =>
      simp only [List.cons_append, List.nil_append]
      rw [scanChars.eq_def]
      simp only [hslash, hunit, ↓reduceIte, ih, Option.bind_some, Option.map_some]

/-- A literal is scanned as the string that it denotes. -/
lemma Literal.scanString {s t : Str} (h : Literal s t) (r : Str) :
    ∃ t', t = ch '"' :: t' ∧ scanString (t' ++ r) = some (s, r) := by
  obtain ⟨ts, xs, hchars, rfl, rfl⟩ := h
  refine ⟨_, rfl, ?_⟩
  rw [List.append_assoc, Json.scanString]
  have hscan := scanChars_flatten hchars r
  rw [show [ch '"'] ++ r = ch '"' :: r from rfl, hscan]
  rfl

/-- A literal starts with a quote. -/
lemma Literal.starts {s t : Str} (h : Literal s t) : Starts t := by
  obtain ⟨ts, xs, -, rfl, -⟩ := h
  exact ⟨_, _, rfl, by decide, by decide, by decide⟩

/-! ### The grammar -/

/-- What one dialect of JSON has of its own: the words that stand for values, and the numbers. -/
structure Dialect where
  words : List (String × Value)
  numeral : Numeral → Prop

/-- The words of RFC 8259. -/
def rfcWords : List (String × Value) :=
  [("null", .none), ("true", .bool true), ("false", .bool false)]

/-- RFC 8259. -/
def rfc8259 : Dialect := ⟨rfcWords, fun _ => True⟩

/-- The dialect of `json.loads`. -/
def cpython : Dialect :=
  ⟨rfcWords ++ [("NaN", .float .nan), ("Infinity", .float (.inf false)),
    ("-Infinity", .float (.inf true))], Numeral.Short⟩

/-- What a text denotes: a value, the elements of an array or the members of an object. -/
inductive Node where
  | value (v : Value)
  | elements (xs : List Value)
  | members (ms : List (Str × Value))

/-- The dictionary of members: the last value of a repeated key, at the place of the first. -/
def build (ms : List (Str × Value)) : Dict := ms.foldl (fun acc m => acc.set m.1 m.2) []

/-- **The grammar.** A text denotes a value, or the inside of a container. -/
inductive Denotes (dialect : Dialect) : Node → Str → Prop
  | word {w : String} {v : Value} (h : (w, v) ∈ dialect.words) :
      Denotes dialect (.value v) (Str.ofString w)
  | number {n : Numeral} (h : n.WellFormed) (hdialect : dialect.numeral n) :
      Denotes dialect (.value n.value) n.text
  | string {s t : Str} (h : Literal s t) : Denotes dialect (.value (.str s)) t
  | emptyArray {b : Str} (hb : Blank b) :
      Denotes dialect (.value (.list [])) (ch '[' :: (b ++ [ch ']']))
  | array {xs : List Value} {t : Str} (h : Denotes dialect (.elements xs) t) :
      Denotes dialect (.value (.list xs)) (ch '[' :: (t ++ [ch ']']))
  | emptyObject {b : Str} (hb : Blank b) :
      Denotes dialect (.value (.dict [])) (ch '{' :: (b ++ [ch '}']))
  | object {ms : List (Str × Value)} {t : Str} (h : Denotes dialect (.members ms) t) :
      Denotes dialect (.value (.dict (build ms))) (ch '{' :: (t ++ [ch '}']))
  | element {v : Value} {l t r : Str} (hl : Blank l) (h : Denotes dialect (.value v) t)
      (hr : Blank r) : Denotes dialect (.elements [v]) (l ++ (t ++ r))
  | elements {v : Value} {xs : List Value} {l t r rest : Str} (hl : Blank l)
      (h : Denotes dialect (.value v) t) (hr : Blank r)
      (hrest : Denotes dialect (.elements xs) rest) :
      Denotes dialect (.elements (v :: xs)) (l ++ (t ++ (r ++ ch ',' :: rest)))
  | member {k : Str} {v : Value} {l kt m n t r : Str} (hl : Blank l) (hk : Literal k kt)
      (hm : Blank m) (hn : Blank n) (h : Denotes dialect (.value v) t) (hr : Blank r) :
      Denotes dialect (.members [(k, v)]) (l ++ (kt ++ (m ++ ch ':' :: (n ++ (t ++ r)))))
  | members {k : Str} {v : Value} {ms : List (Str × Value)} {l kt m n t r rest : Str}
      (hl : Blank l) (hk : Literal k kt) (hm : Blank m) (hn : Blank n)
      (h : Denotes dialect (.value v) t) (hr : Blank r)
      (hrest : Denotes dialect (.members ms) rest) :
      Denotes dialect (.members ((k, v) :: ms))
        (l ++ (kt ++ (m ++ ch ':' :: (n ++ (t ++ (r ++ ch ',' :: rest))))))

/-- A document: the text of a value between white space. -/
def Document (dialect : Dialect) (v : Value) (s : Str) : Prop :=
  ∃ l t r, s = l ++ (t ++ r) ∧ Blank l ∧ Denotes dialect (.value v) t ∧ Blank r

/-- A dialect with more words and more numbers has more texts. -/
lemma Denotes.mono {d d' : Dialect} (hwords : ∀ w ∈ d.words, w ∈ d'.words)
    (hnumeral : ∀ n, d.numeral n → d'.numeral n) {node : Node} {s : Str} (h : Denotes d node s) :
    Denotes d' node s := by
  induction h with
  | word h => exact .word (hwords _ h)
  | number h hn => exact .number h (hnumeral _ hn)
  | string h => exact .string h
  | emptyArray hb => exact .emptyArray hb
  | array _ ih => exact .array ih
  | emptyObject hb => exact .emptyObject hb
  | object _ ih => exact .object ih
  | element hl _ hr ih => exact .element hl ih hr
  | elements hl _ hr _ ih ihrest => exact .elements hl ih hr ihrest
  | member hl hk hm hn _ hr ih => exact .member hl hk hm hn ih hr
  | members hl hk hm hn _ hr _ ih ihrest => exact .members hl hk hm hn ih hr ihrest

/-! ### Reading -/

/-- What the reader does on the text of a node, with enough steps. -/
def Reads : Node → Str → Prop
  | .value v, t => Starts t ∧ ∀ fuel r, 2 * t.length ≤ fuel → Delimited r →
      parseValue fuel (t ++ r) = some (v, r)
  | .elements xs, t => ∀ fuel r acc, 2 * t.length + 1 ≤ fuel →
      Starts (skipWs (t ++ ch ']' :: r)) ∧
      parseElements fuel (skipWs (t ++ ch ']' :: r)) acc = some (.list (acc.reverse ++ xs), r)
  | .members ms, t => ∀ fuel r (acc : Dict), 2 * t.length + 1 ≤ fuel →
      Starts (skipWs (t ++ ch '}' :: r)) ∧
      parseMembers fuel (skipWs (t ++ ch '}' :: r)) acc =
        some (.dict (ms.foldl (fun d m => Dict.set d m.1 m.2) acc), r)

/-- A word is read as the value that it stands for. -/
lemma scanScalar_word {w : String} {v : Value} (h : (w, v) ∈ cpython.words) (r : Str) :
    scanScalar (Str.ofString w ++ r) = some (v, r) := by
  simp only [cpython, rfcWords, List.cons_append, List.nil_append, List.mem_cons, Prod.mk.injEq,
    List.not_mem_nil, or_false] at h
  rcases h with ⟨rfl, rfl⟩ | ⟨rfl, rfl⟩ | ⟨rfl, rfl⟩ | ⟨rfl, rfl⟩ | ⟨rfl, rfl⟩ | ⟨rfl, rfl⟩ <;> rfl

/-- The first character of a word. -/
lemma words_head {w : String} {v : Value} (h : (w, v) ∈ cpython.words) : ∃ c t,
    Str.ofString w = c :: t ∧ c ∈ [ch 'n', ch 't', ch 'f', ch 'N', ch 'I', ch '-'] := by
  simp only [cpython, rfcWords, List.cons_append, List.nil_append, List.mem_cons, Prod.mk.injEq,
    List.not_mem_nil, or_false] at h
  rcases h with ⟨rfl, -⟩ | ⟨rfl, -⟩ | ⟨rfl, -⟩ | ⟨rfl, -⟩ | ⟨rfl, -⟩ | ⟨rfl, -⟩ <;>
    exact ⟨_, _, rfl, by decide⟩

/-- A scalar that starts with none of the characters of strings and containers. -/
lemma parseValue_scalar {fuel : ℕ} {c : CodePoint} {s : Str}
    (hc : c ≠ ch '"' ∧ c ≠ ch '{' ∧ c ≠ ch '[') :
    parseValue (fuel + 1) (c :: s) = scanScalar (c :: s) := by
  obtain ⟨hquote, hbrace, hbracket⟩ := hc
  rw [parseValue]
  simp only [hquote, hbrace, hbracket, ↓reduceIte]

/-- An array is read when its elements are. -/
lemma Reads.array {xs : List Value} {t : Str} (h : Reads (.elements xs) t) :
    Reads (.value (.list xs)) (ch '[' :: (t ++ [ch ']'])) := by
  refine ⟨⟨_, _, rfl, by decide, by decide, by decide⟩, fun fuel r hfuel _ => ?_⟩
  simp only [List.length_cons, List.length_append, List.length_nil] at hfuel
  obtain ⟨fuel, rfl⟩ : ∃ f, fuel = f + 1 := ⟨fuel - 1, by omega⟩
  obtain ⟨hstarts, hread⟩ := h fuel r [] (by omega)
  obtain ⟨c, s, hskip, -, hclose, -⟩ := hstarts
  have hquote : ch '[' ≠ ch '"' := by decide
  have hbrace : ch '[' ≠ ch '{' := by decide
  rw [List.cons_append, List.append_assoc, parseValue]
  simp only [hquote, hbrace, List.cons_append, List.nil_append, hskip, hclose, ↓reduceIte]
  rw [← hskip, hread]
  rfl

/-- An object is read when its members are. -/
lemma Reads.object {ms : List (Str × Value)} {t : Str} (h : Reads (.members ms) t) :
    Reads (.value (.dict (build ms))) (ch '{' :: (t ++ [ch '}'])) := by
  refine ⟨⟨_, _, rfl, by decide, by decide, by decide⟩, fun fuel r hfuel _ => ?_⟩
  simp only [List.length_cons, List.length_append, List.length_nil] at hfuel
  obtain ⟨fuel, rfl⟩ : ∃ f, fuel = f + 1 := ⟨fuel - 1, by omega⟩
  obtain ⟨hstarts, hread⟩ := h fuel r [] (by omega)
  obtain ⟨c, s, hskip, -, -, hclose⟩ := hstarts
  have hquote : ch '{' ≠ ch '"' := by decide
  rw [List.cons_append, List.append_assoc, parseValue]
  simp only [hquote, List.cons_append, List.nil_append, hskip, hclose, ↓reduceIte]
  rw [← hskip, hread]
  rfl

/-- A separator or an end after white space. -/
lemma skipWs_mark {b : Str} (hb : Blank b) {c : CodePoint} (hc : isWs c = false) (s : Str) :
    skipWs (b ++ c :: s) = c :: s := by
  rw [skipWs_append hb, skipWs_cons hc]

/-- The last element of an array. -/
lemma Reads.element {v : Value} {l t b : Str} (hl : Blank l) (h : Reads (.value v) t)
    (hb : Blank b) : Reads (.elements [v]) (l ++ (t ++ b)) := by
  obtain ⟨hstarts, hread⟩ := h
  intro fuel r acc hfuel
  simp only [List.length_append] at hfuel
  obtain ⟨fuel, rfl⟩ : ∃ f, fuel = f + 1 := ⟨fuel - 1, by omega⟩
  have hskip : skipWs (l ++ (t ++ b) ++ ch ']' :: r) = t ++ (b ++ ch ']' :: r) := by
    rw [List.append_assoc, skipWs_append hl, List.append_assoc, skipWs_of_starts hstarts]
  rw [hskip]
  constructor
  · obtain ⟨c, s, rfl, hc⟩ := hstarts
    exact ⟨c, _, rfl, hc⟩
  · rw [parseElements, hread fuel _ (by omega)
      (delimited_append hb (delimited_cons (by simp) r))]
    dsimp only
    rw [skipWs_mark hb (by decide)]
    simp

/-- An element of an array before others. -/
lemma Reads.elements {v : Value} {xs : List Value} {l t b rest : Str} (hl : Blank l)
    (h : Reads (.value v) t) (hb : Blank b) (hrest : Reads (.elements xs) rest) :
    Reads (.elements (v :: xs)) (l ++ (t ++ (b ++ ch ',' :: rest))) := by
  obtain ⟨hstarts, hread⟩ := h
  intro fuel r acc hfuel
  simp only [List.length_append, List.length_cons] at hfuel
  obtain ⟨fuel, rfl⟩ : ∃ f, fuel = f + 1 := ⟨fuel - 1, by omega⟩
  have hskip : skipWs (l ++ (t ++ (b ++ ch ',' :: rest)) ++ ch ']' :: r) =
      t ++ (b ++ ch ',' :: (rest ++ ch ']' :: r)) := by
    simp only [List.append_assoc, List.cons_append]
    rw [skipWs_append hl, skipWs_of_starts hstarts]
  rw [hskip]
  constructor
  · obtain ⟨c, s, rfl, hc⟩ := hstarts
    exact ⟨c, _, rfl, hc⟩
  · have hcomma : ch ',' ≠ ch ']' := by decide
    rw [parseElements, hread fuel _ (by omega)
      (delimited_append hb (delimited_cons (by simp) _))]
    dsimp only
    rw [skipWs_mark hb (by decide)]
    dsimp only
    rw [if_neg hcomma, if_pos rfl, (hrest fuel r (v :: acc) (by omega)).2]
    simp

/-- A key and its colon, before the text of a value. -/
lemma parseMembers_key {fuel : ℕ} {k kt m n t r : Str} {acc : Dict} {v : Value}
    (hk : Literal k kt) (hm : Blank m) (hn : Blank n) (h : Reads (.value v) t)
    (hfuel : 2 * t.length ≤ fuel) (hr : Delimited r) :
    parseMembers (fuel + 1) (kt ++ (m ++ ch ':' :: (n ++ (t ++ r)))) acc =
      match skipWs r with
      | [] => none
      | sep :: r' =>
        if sep = ch '}' then some (.dict (acc.set k v), r')
        else if sep = ch ',' then parseMembers fuel (skipWs r') (acc.set k v)
        else none := by
  obtain ⟨hstarts, hread⟩ := h
  obtain ⟨kt', rfl, hscan⟩ := hk.scanString (m ++ ch ':' :: (n ++ (t ++ r)))
  rw [List.cons_append, parseMembers, if_pos rfl, hscan]
  dsimp only
  rw [skipWs_mark hm (by decide)]
  dsimp only
  rw [if_pos rfl, skipWs_append hn, skipWs_of_starts hstarts]
  have hvalue := hread fuel r hfuel hr
  generalize parseValue fuel (t ++ r) = value at hvalue ⊢
  subst hvalue
  rfl

/-- The last member of an object. -/
lemma Reads.member {k : Str} {v : Value} {l kt m n t b : Str} (hl : Blank l) (hk : Literal k kt)
    (hm : Blank m) (hn : Blank n) (h : Reads (.value v) t) (hb : Blank b) :
    Reads (.members [(k, v)]) (l ++ (kt ++ (m ++ ch ':' :: (n ++ (t ++ b))))) := by
  intro fuel r acc hfuel
  simp only [List.length_append, List.length_cons] at hfuel
  obtain ⟨fuel, rfl⟩ : ∃ f, fuel = f + 1 := ⟨fuel - 1, by omega⟩
  have hskip : skipWs (l ++ (kt ++ (m ++ ch ':' :: (n ++ (t ++ b)))) ++ ch '}' :: r) =
      kt ++ (m ++ ch ':' :: (n ++ (t ++ (b ++ ch '}' :: r)))) := by
    simp only [List.append_assoc, List.cons_append]
    rw [skipWs_append hl, skipWs_of_starts hk.starts]
  rw [hskip]
  constructor
  · obtain ⟨c, s, rfl, hc⟩ := hk.starts
    exact ⟨c, _, rfl, hc⟩
  · rw [parseMembers_key hk hm hn h (by omega) (delimited_append hb (delimited_cons (by simp) r)),
      skipWs_mark hb (by decide)]
    simp

/-- A member of an object before others. -/
lemma Reads.members {k : Str} {v : Value} {ms : List (Str × Value)} {l kt m n t b rest : Str}
    (hl : Blank l) (hk : Literal k kt) (hm : Blank m) (hn : Blank n) (h : Reads (.value v) t)
    (hb : Blank b) (hrest : Reads (.members ms) rest) :
    Reads (.members ((k, v) :: ms))
      (l ++ (kt ++ (m ++ ch ':' :: (n ++ (t ++ (b ++ ch ',' :: rest)))))) := by
  intro fuel r acc hfuel
  simp only [List.length_append, List.length_cons] at hfuel
  obtain ⟨fuel, rfl⟩ : ∃ f, fuel = f + 1 := ⟨fuel - 1, by omega⟩
  have hskip : skipWs (l ++ (kt ++ (m ++ ch ':' :: (n ++ (t ++ (b ++ ch ',' :: rest))))) ++
      ch '}' :: r) =
        kt ++ (m ++ ch ':' :: (n ++ (t ++ (b ++ ch ',' :: (rest ++ ch '}' :: r))))) := by
    simp only [List.append_assoc, List.cons_append]
    rw [skipWs_append hl, skipWs_of_starts hk.starts]
  rw [hskip]
  constructor
  · obtain ⟨c, s, rfl, hc⟩ := hk.starts
    exact ⟨c, _, rfl, hc⟩
  · have hcomma : ch ',' ≠ ch '}' := by decide
    rw [parseMembers_key hk hm hn h (by omega) (delimited_append hb (delimited_cons (by simp) _)),
      skipWs_mark hb (by decide)]
    dsimp only
    rw [if_neg hcomma, if_pos rfl, (hrest fuel r (acc.set k v) (by omega)).2]
    rfl

/-- **Completeness of the reader.** The reader reads every text of its dialect as the value that the
text denotes.

**Proof sketch.** Induction on the derivation. Every token takes one step and is one character at
least, so twice the length of the text is enough steps. -/
theorem Denotes.reads {node : Node} {t : Str} (h : Denotes cpython node t) : Reads node t := by
  induction h with
  | @word w v h =>
    obtain ⟨c, s, hw, hc⟩ := words_head h
    have hother : isWs c = false ∧ c ≠ ch ']' ∧ c ≠ ch '}' ∧ c ≠ ch '"' ∧ c ≠ ch '{' ∧
        c ≠ ch '[' := by
      clear hw
      simp only [List.mem_cons, List.not_mem_nil, or_false] at hc
      rcases hc with rfl | rfl | rfl | rfl | rfl | rfl <;> decide
    obtain ⟨hws, hbracket, hbrace, hscalar⟩ := hother
    refine ⟨⟨c, s, hw, hws, hbracket, hbrace⟩, fun fuel r hfuel _ => ?_⟩
    have hscan := scanScalar_word h r
    rw [hw, List.length_cons] at hfuel
    obtain ⟨fuel, rfl⟩ : ∃ f, fuel = f + 1 := ⟨fuel - 1, by omega⟩
    rw [hw, List.cons_append] at hscan ⊢
    rw [parseValue_scalar hscalar, hscan]
  | @number n h hshort =>
    obtain ⟨d, ds, hwhole, hd, hminus, hplus⟩ := n.text_head h
    have hhead : ∃ c s, n.text = c :: s ∧ (c = ch '-' ∨ c = digitChar d) := by
      cases hneg : n.neg with
      | true => exact ⟨_, _, hminus hneg, Or.inl rfl⟩
      | false =>
        refine ⟨digitChar d, digitText ds ++ n.tailText, ?_, Or.inr rfl⟩
        rw [hplus hneg, hwhole]
        rfl
    obtain ⟨c, s, htext, hc⟩ := hhead
    have hother : isWs c = false ∧ c ≠ ch ']' ∧ c ≠ ch '}' ∧ c ≠ ch '"' ∧ c ≠ ch '{' ∧
        c ≠ ch '[' := by
      rcases hc with rfl | rfl
      · decide
      · have hval := digitChar_val hd
        refine ⟨?_, ?_, ?_, ?_, ?_, ?_⟩
        · simp only [isWs, hval, Bool.or_eq_false_iff, beq_eq_false_iff_ne]
          omega
        all_goals exact (digitChar_ne hd (by decide)).symm
    obtain ⟨hws, hbracket, hbrace, hscalar⟩ := hother
    refine ⟨⟨c, s, htext, hws, hbracket, hbrace⟩, fun fuel r hfuel hr => ?_⟩
    have hscan := scanScalar_numeral h hshort hr
    rw [htext, List.length_cons] at hfuel
    obtain ⟨fuel, rfl⟩ : ∃ f, fuel = f + 1 := ⟨fuel - 1, by omega⟩
    rw [htext, List.cons_append] at hscan ⊢
    rw [parseValue_scalar hscalar, hscan]
  | string h =>
    refine ⟨h.starts, fun fuel r hfuel _ => ?_⟩
    obtain ⟨t', rfl, hscan⟩ := h.scanString r
    rw [List.length_cons] at hfuel
    obtain ⟨fuel, rfl⟩ : ∃ f, fuel = f + 1 := ⟨fuel - 1, by omega⟩
    rw [List.cons_append, parseValue_string hscan]
  | emptyArray hb =>
    refine ⟨⟨_, _, rfl, by decide, by decide, by decide⟩, fun fuel r hfuel _ => ?_⟩
    rw [List.length_cons] at hfuel
    obtain ⟨fuel, rfl⟩ : ∃ f, fuel = f + 1 := ⟨fuel - 1, by omega⟩
    have hquote : ch '[' ≠ ch '"' := by decide
    have hbrace : ch '[' ≠ ch '{' := by decide
    rw [List.cons_append, List.append_assoc, parseValue]
    simp only [hquote, hbrace, List.cons_append, List.nil_append,
      skipWs_mark hb (show isWs (ch ']') = false by decide), ↓reduceIte]
  | emptyObject hb =>
    refine ⟨⟨_, _, rfl, by decide, by decide, by decide⟩, fun fuel r hfuel _ => ?_⟩
    rw [List.length_cons] at hfuel
    obtain ⟨fuel, rfl⟩ : ∃ f, fuel = f + 1 := ⟨fuel - 1, by omega⟩
    have hquote : ch '{' ≠ ch '"' := by decide
    rw [List.cons_append, List.append_assoc, parseValue]
    simp only [hquote, List.cons_append, List.nil_append,
      skipWs_mark hb (show isWs (ch '}') = false by decide), ↓reduceIte]
  | array _ ih => exact Reads.array ih
  | object _ ih => exact Reads.object ih
  | element hl _ hr ih => exact Reads.element hl ih hr
  | elements hl _ hr _ ih ihrest => exact Reads.elements hl ih hr ihrest
  | member hl hk hm hn _ hr ih => exact Reads.member hl hk hm hn ih hr
  | members hl hk hm hn _ hr _ ih ihrest => exact Reads.members hl hk hm hn ih hr ihrest

/-- A document of the dialect of the reader is read as the value that it denotes. -/
theorem parseDocument_of_document {v : Value} {s : Str} (h : Document cpython v s) :
    parseDocument s = some v := by
  obtain ⟨l, t, r, rfl, hl, ht, hr⟩ := h
  obtain ⟨hstarts, hread⟩ := ht.reads
  have hdelimited : Delimited r := by
    rw [← List.append_nil r]
    exact delimited_append hr delimited_nil
  have hend : skipWs r = [] := by
    have := skipWs_append hr []
    rwa [List.append_nil] at this
  rw [parseDocument, skipWs_append hl, skipWs_of_starts hstarts,
    hread _ r (by simp only [List.length_append]; omega) hdelimited]
  dsimp only
  rw [if_pos hend]

end Python.Json
