import Mathlib.Data.List.Sort
import VitrialSync.Python.Value
import VitrialSync.Python.Codec

set_option relaxedAutoImplicit false
set_option autoImplicit false

/-!
# The standard `json` module

`json.loads` on bytes and `json.dumps` in the two configurations the service uses. The reader
follows CPython: the encoding of a byte string is detected from its first bytes, the tokens `NaN`,
`Infinity` and `-Infinity` are accepted, strings may not hold raw control characters, `\u` escapes
of a surrogate pair are joined and lone ones kept, an integer may have at most 4300 digits, a
number too large for a float becomes an infinity, and the last value of a repeated key wins.

The reader is written with a step budget; `parseDocument` gives it twice the length of the text,
and every call of the mutual recursion reads at least one character.

## Main definitions

* `Python.Json.loads` — `json.loads(bytes)`, `none` for `ValueError`.
* `Python.Json.dumps` — `json.dumps(v, separators=(",", ":"), sort_keys=True)`, with
  `ensure_ascii` as an argument.

## Main results

* `Python.Json.loads_wellFormed` — what the reader returns has no repeated keys.
* `Python.Json.scanString_plain` — a run of plain characters up to the closing quote is read
  back as it is.
-/

namespace Python.Json

/-- The code point of a character. -/
abbrev ch (c : Char) : CodePoint := CodePoint.ofChar c

/-! ### Reading -/

/-- White space between tokens. -/
def isWs (c : CodePoint) : Bool := c.val == 0x20 || c.val == 0x9 || c.val == 0xa || c.val == 0xd

/-- Skip white space. -/
def skipWs (s : Str) : Str := s.dropWhile isWs

/-- The value of a hexadecimal digit. -/
def hexValue? (c : CodePoint) : Option ℕ :=
  let n := c.val
  if 0x30 ≤ n ∧ n ≤ 0x39 then some (n - 0x30)
  else if 0x61 ≤ n ∧ n ≤ 0x66 then some (n - 0x61 + 10)
  else if 0x41 ≤ n ∧ n ≤ 0x46 then some (n - 0x41 + 10)
  else none

/-- The code unit of four hexadecimal digits. -/
def hex4? (a b c d : CodePoint) : Option CodePoint := do
  let a ← hexValue? a
  let b ← hexValue? b
  let c ← hexValue? c
  let d ← hexValue? d
  codePoint? (((a * 16 + b) * 16 + c) * 16 + d)

/-- The character of a one-letter escape. -/
def simpleEscape? (c : CodePoint) : Option CodePoint :=
  if c = ch '"' then some (ch '"')
  else if c = ch '\\' then some (ch '\\')
  else if c = ch '/' then some (ch '/')
  else if c = ch 'b' then some 0x8
  else if c = ch 'f' then some 0xc
  else if c = ch 'n' then some 0xa
  else if c = ch 'r' then some 0xd
  else if c = ch 't' then some 0x9
  else none

/-- The characters of a string up to its closing quote, each with the mark whether it came from a
`\u` escape, and the text after the quote. -/
def scanChars : Str → Option (List (CodePoint × Bool) × Str)
  | [] => none
  | c :: s =>
    if c = ch '"' then some ([], s)
    else if c = ch '\\' then
      match s with
      | [] => none
      | e :: s =>
        if e = ch 'u' then
          match s with
          | a :: b :: c :: d :: s =>
            (hex4? a b c d).bind fun u => (scanChars s).map fun (t, r) => ((u, true) :: t, r)
          | _ => none
        else (simpleEscape? e).bind fun x => (scanChars s).map fun (t, r) => ((x, false) :: t, r)
    else if c.val < 0x20 then none
    else (scanChars s).map fun (t, r) => ((c, false) :: t, r)

/-- The code point of a surrogate pair. -/
def joinPair (h l : CodePoint) : CodePoint :=
  ⟨(0x10000 + (h.val - 0xd800) * 0x400 + (l.val - 0xdc00)) % 0x110000, Nat.mod_lt _ (by decide)⟩

/-- Join each escaped high surrogate with the escaped low surrogate right after it. -/
def joinEscapes : List (CodePoint × Bool) → List (CodePoint × Bool)
  | [] => []
  | (c, e) :: rest =>
    match joinEscapes rest with
    | (d, true) :: t =>
      if e ∧ 0xd800 ≤ c.val ∧ c.val < 0xdc00 ∧ 0xdc00 ≤ d.val ∧ d.val < 0xe000 then
        (joinPair c d, false) :: t
      else (c, e) :: (d, true) :: t
    | t => (c, e) :: t

/-- A string after its opening quote. -/
def scanString (s : Str) : Option (Str × Str) :=
  (scanChars s).map fun (t, r) => ((joinEscapes t).map Prod.fst, r)

/-- The longest prefix of ASCII digits, by value, and the rest. -/
def scanDigits : Str → List ℕ × Str
  | [] => ([], [])
  | c :: s =>
    if 0x30 ≤ c.val ∧ c.val ≤ 0x39 then
      let (ds, rest) := scanDigits s
      ((c.val - 0x30) :: ds, rest)
    else ([], c :: s)

/-- The integer part of a number: `0`, or digits without a leading zero. -/
def scanWhole (s : Str) : Option (List ℕ × Str) :=
  match s with
  | [] => none
  | c :: rest =>
    if c = ch '0' then some ([0], rest)
    else
      match scanDigits s with
      | ([], _) => none
      | r => some r

/-- An optional fraction: a point that is followed by a digit. -/
def scanFraction (s : Str) : Option (List ℕ) × Str :=
  match s with
  | c :: rest =>
    if c = ch '.' then
      match scanDigits rest with
      | ([], _) => (none, s)
      | (ds, r) => (some ds, r)
    else (none, s)
  | [] => (none, [])

/-- An optional sign of an exponent. -/
def scanSign (s : Str) : Bool × Str :=
  match s with
  | c :: rest =>
    if c = ch '-' then (true, rest) else if c = ch '+' then (false, rest) else (false, s)
  | [] => (false, [])

/-- An optional exponent, ignored unless a digit follows. -/
def scanExponent (s : Str) : Option ℤ × Str :=
  match s with
  | c :: rest =>
    if c = ch 'e' ∨ c = ch 'E' then
      let (neg, r) := scanSign rest
      match scanDigits r with
      | ([], _) => (none, s)
      | (ds, r) => (some (if neg then -(ofDigits ds : ℤ) else ofDigits ds), r)
    else (none, s)
  | [] => (none, [])

/-- The most digits `int()` reads. -/
def maxIntDigits : ℕ := 4300

/-- A number after its optional minus sign. -/
def scanNumber (neg : Bool) (s : Str) : Option (Value × Str) :=
  match scanWhole s with
  | none => none
  | some (whole, rest) =>
    let (frac, rest) := scanFraction rest
    let (expo, rest) := scanExponent rest
    match frac, expo with
    | none, none =>
      if maxIntDigits < whole.length then none
      else some (.int (if neg then -(ofDigits whole : ℤ) else ofDigits whole), rest)
    | _, _ =>
      let digits := whole ++ frac.getD []
      let e := expo.getD 0 - (frac.getD []).length
      let q := ofDigits digits * Binary64.pow10 e
      some (.float (Binary64.ofRat neg (if neg then -q else q)), rest)

/-- Read a fixed word. -/
def scanWord (word : String) (v : Value) (s : Str) : Option (Value × Str) :=
  let w := Str.ofString word
  if w.isPrefixOf s then some (v, s.drop w.length) else none

/-- A value that is not a string, an array or an object. -/
def scanScalar (s : Str) : Option (Value × Str) :=
  (scanWord "null" .none s).orElse fun _ =>
  (scanWord "true" (.bool true) s).orElse fun _ =>
  (scanWord "false" (.bool false) s).orElse fun _ =>
  (scanWord "NaN" (.float .nan) s).orElse fun _ =>
  (scanWord "Infinity" (.float (.inf false)) s).orElse fun _ =>
  (scanWord "-Infinity" (.float (.inf true)) s).orElse fun _ =>
  match s with
  | c :: rest => if c = ch '-' then scanNumber true rest else scanNumber false s
  | [] => none

mutual

/-- One value at the head of the text. -/
def parseValue : ℕ → Str → Option (Value × Str)
  | 0, _ => none
  | _ + 1, [] => none
  | fuel + 1, c :: s =>
    if c = ch '"' then (scanString s).map fun (t, r) => (.str t, r)
    else if c = ch '{' then
      match skipWs s with
      | [] => none
      | d :: r => if d = ch '}' then some (.dict [], r) else parseMembers fuel (d :: r) []
    else if c = ch '[' then
      match skipWs s with
      | [] => none
      | d :: r => if d = ch ']' then some (.list [], r) else parseElements fuel (d :: r) []
    else scanScalar (c :: s)

/-- The members of an object from a key on; `acc` holds the members read so far. -/
def parseMembers : ℕ → Str → Dict → Option (Value × Str)
  | 0, _, _ => none
  | _ + 1, [], _ => none
  | fuel + 1, q :: s, acc =>
    if q = ch '"' then
      match scanString s with
      | none => none
      | some (key, r) =>
        match skipWs r with
        | [] => none
        | colon :: r =>
          if colon = ch ':' then
            match parseValue fuel (skipWs r) with
            | none => none
            | some (v, r) =>
              match skipWs r with
              | [] => none
              | sep :: r =>
                if sep = ch '}' then some (.dict (acc.set key v), r)
                else if sep = ch ',' then parseMembers fuel (skipWs r) (acc.set key v)
                else none
          else none
    else none

/-- The elements of an array from a value on; `acc` holds the elements read so far, last first. -/
def parseElements : ℕ → Str → List Value → Option (Value × Str)
  | 0, _, _ => none
  | fuel + 1, s, acc =>
    match parseValue fuel s with
    | none => none
    | some (v, r) =>
      match skipWs r with
      | [] => none
      | sep :: r =>
        if sep = ch ']' then some (.list (v :: acc).reverse, r)
        else if sep = ch ',' then parseElements fuel (skipWs r) (v :: acc)
        else none

end

/-- A whole document: one value between white space. -/
def parseDocument (s : Str) : Option Value :=
  match parseValue (2 * s.length + 2) (skipWs s) with
  | none => none
  | some (v, r) => if skipWs r = [] then some v else none

/-- `b.decode(json.detect_encoding(b), "surrogatepass")`. -/
def decodeDetected? (b : Bytes) : Option Str :=
  if [0, 0, 0xfe, 0xff].isPrefixOf b then decodeUtf32? true (b.drop 4)
  else if [0xff, 0xfe, 0, 0].isPrefixOf b then decodeUtf32? false (b.drop 4)
  else if [0xfe, 0xff].isPrefixOf b then decodeUtf16? true (b.drop 2)
  else if [0xff, 0xfe].isPrefixOf b then decodeUtf16? false (b.drop 2)
  else if [0xef, 0xbb, 0xbf].isPrefixOf b then decodeUtf8? (b.drop 3)
  else
    match b with
    | a :: b' :: c :: d :: _ =>
      if a = 0 then (if b' = 0 then decodeUtf32? true b else decodeUtf16? true b)
      else if b' = 0 then
        (if c = 0 ∧ d = 0 then decodeUtf32? false b else decodeUtf16? false b)
      else decodeUtf8? b
    | [a, b'] =>
      if a = 0 then decodeUtf16? true b
      else if b' = 0 then decodeUtf16? false b
      else decodeUtf8? b
    | _ => decodeUtf8? b

/-- `json.loads(b)` on a byte string, with `none` for every `ValueError`. -/
def loads (b : Bytes) : Option Value := (decodeDetected? b).bind parseDocument

/-! ### Writing -/

/-- A hexadecimal digit. -/
def hexDigit (n : ℕ) : CodePoint := if n % 16 < 10 then digitChar (n % 16)
  else ⟨0x61 + (n % 16 - 10), letter_lt n⟩

/-- The escape `\uXXXX` of a code unit. -/
def unitEscape (n : ℕ) : Str :=
  [ch '\\', ch 'u', hexDigit (n / 4096), hexDigit (n / 256), hexDigit (n / 16), hexDigit n]

/-- A code point inside a string literal. With `ascii` everything outside the printable ASCII
range is escaped, a code point beyond the basic plane as a surrogate pair. -/
def escapeChar (ascii : Bool) (c : CodePoint) : Str :=
  let n := c.val
  if c = ch '"' then [ch '\\', ch '"']
  else if c = ch '\\' then [ch '\\', ch '\\']
  else if n = 0xa then [ch '\\', ch 'n']
  else if n = 0xd then [ch '\\', ch 'r']
  else if n = 0x9 then [ch '\\', ch 't']
  else if n = 0xc then [ch '\\', ch 'f']
  else if n = 0x8 then [ch '\\', ch 'b']
  else if n < 0x20 then unitEscape n
  else if ascii ∧ 0x7e < n then
    if n < 0x10000 then unitEscape n
    else unitEscape (0xd800 + (n - 0x10000) / 0x400) ++ unitEscape (0xdc00 + (n - 0x10000) % 0x400)
  else [c]

/-- A string literal. -/
def writeString (ascii : Bool) (s : Str) : Str :=
  ch '"' :: (s.flatMap (escapeChar ascii) ++ [ch '"'])

/-- A float. -/
def writeFloat : Binary64 → Str
  | .nan => Str.ofString "NaN"
  | .inf neg => Str.ofString (if neg then "-Infinity" else "Infinity")
  | .finite neg m e h => (Binary64.finite neg m e h).repr

/-- Texts separated by commas. -/
def joinComma : List Str → Str
  | [] => []
  | [t] => t
  | t :: ts => t ++ ch ',' :: joinComma ts

/-- Members in the order of their keys. -/
def sortMembers {α : Type} (ms : List (Str × α)) : List (Str × α) :=
  ms.insertionSort fun a b => a.1 ≤ b.1

mutual

/-- `json.dumps(v, separators=(",", ":"), sort_keys=True, ensure_ascii=ascii)`. -/
def dumps (ascii : Bool) : Value → Str
  | .none => Str.ofString "null"
  | .bool b => Str.ofString (if b then "true" else "false")
  | .int n => Str.ofInt n
  | .float x => writeFloat x
  | .str s => writeString ascii s
  | .list xs => ch '[' :: (joinComma (dumpsElements ascii xs) ++ [ch ']'])
  | .dict d =>
    let members := (sortMembers (dumpsMembers ascii d)).map fun m =>
      writeString ascii m.1 ++ ch ':' :: m.2
    ch '{' :: (joinComma members ++ [ch '}'])

/-- The texts of the elements of a list. -/
def dumpsElements (ascii : Bool) : List Value → List Str
  | [] => []
  | x :: xs => dumps ascii x :: dumpsElements ascii xs

/-- The keys of a dictionary with the texts of their values. -/
def dumpsMembers (ascii : Bool) : List (Str × Value) → List (Str × Str)
  | [] => []
  | (k, v) :: d => (k, dumps ascii v) :: dumpsMembers ascii d

end

/-! ### Plain strings -/

/-- A character that stands for itself in a string literal. -/
def IsPlain (c : CodePoint) : Prop := 0x20 ≤ c.val ∧ c ≠ ch '"' ∧ c ≠ ch '\\'

/-- Plain characters are scanned one by one. -/
lemma scanChars_plain {s : Str} (h : ∀ c ∈ s, IsPlain c) (r : Str) :
    scanChars (s ++ ch '"' :: r) = some (s.map fun c => (c, false), r) := by
  induction s with
  | nil =>
    rw [List.nil_append, scanChars.eq_def]
    simp
  | cons c s ih =>
    rw [List.forall_mem_cons] at h
    obtain ⟨⟨hlow, hquote, hslash⟩, hrest⟩ := h
    rw [List.cons_append, scanChars.eq_def]
    simp only [hquote, hslash, ↓reduceIte]
    rw [if_neg (by omega), ih hrest]
    rfl

/-- Characters that are not escapes are not joined. -/
lemma joinEscapes_plain (s : Str) :
    joinEscapes (s.map fun c => (c, false)) = s.map fun c => (c, false) := by
  induction s with
  | nil => rfl
  | cons c s ih =>
    rw [List.map_cons, joinEscapes, ih]
    cases s with
    | nil => rfl
    | cons d s => rfl

/-- A run of plain characters up to the closing quote is read back as it is. -/
lemma scanString_plain {s : Str} (h : ∀ c ∈ s, IsPlain c) (r : Str) :
    scanString (s ++ ch '"' :: r) = some (s, r) := by
  rw [scanString, scanChars_plain h, Option.map_some]
  have hfst : (s.map fun c => (c, false)).map Prod.fst = s := by
    rw [List.map_map]
    exact List.map_id s
  simp only [joinEscapes_plain, hfst]

/-- Nothing is skipped before a character that is no white space. -/
lemma skipWs_cons {c : CodePoint} (h : isWs c = false) (s : Str) : skipWs (c :: s) = c :: s := by
  simp [skipWs, h]

/-- A string literal as a value. -/
lemma parseValue_string {fuel : ℕ} {s t r : Str} (h : scanString s = some (t, r)) :
    parseValue (fuel + 1) (ch '"' :: s) = some (.str t, r) := by
  simp [parseValue, h]

/-- An object that is not empty. -/
lemma parseValue_object (fuel : ℕ) (s : Str) :
    parseValue (fuel + 1) (ch '{' :: ch '"' :: s) = parseMembers fuel (ch '"' :: s) [] := by
  have hopen : ch '{' ≠ ch '"' := by decide
  have hclose : ch '"' ≠ ch '}' := by decide
  have hquote : isWs (ch '"') = false := by decide
  rw [parseValue]
  simp only [hopen, hclose, skipWs_cons hquote, ↓reduceIte]

/-- A member with a string as value, at the end of its object and before another member. -/
lemma parseMembers_string {fuel : ℕ} {s key tail v r : Str} {acc : Dict}
    (hkey : scanString s = some (key, ch ':' :: ch '"' :: tail))
    (hvalue : scanString tail = some (v, r)) :
    (∀ r', r = ch '}' :: r' →
      parseMembers (fuel + 2) (ch '"' :: s) acc = some (.dict (acc.set key (.str v)), r')) ∧
    (∀ r', r = ch ',' :: ch '"' :: r' →
      parseMembers (fuel + 2) (ch '"' :: s) acc =
        parseMembers (fuel + 1) (ch '"' :: r') (acc.set key (.str v))) := by
  have hcolon : isWs (ch ':') = false := by decide
  have hquote : isWs (ch '"') = false := by decide
  have hclose : isWs (ch '}') = false := by decide
  have hcomma : isWs (ch ',') = false := by decide
  have hne : ch ',' ≠ ch '}' := by decide
  constructor
  · rintro r' rfl
    rw [parseMembers]
    simp only [hkey, ↓reduceIte, skipWs_cons hcolon, skipWs_cons hquote, skipWs_cons hclose,
      parseValue_string hvalue]
  · rintro r' rfl
    rw [parseMembers]
    simp only [hkey, ↓reduceIte, skipWs_cons hcolon, skipWs_cons hquote, skipWs_cons hcomma,
      parseValue_string hvalue, hne]

/-! ### What the reader returns -/

/-- A word token is the value it stands for. -/
lemma scanWord_eq_some {word : String} {v w : Value} {s r : Str}
    (h : scanWord word v s = some (w, r)) : w = v := by
  simp only [scanWord] at h
  split_ifs at h
  simp only [Option.some.injEq, Prod.mk.injEq] at h
  exact h.1.symm

/-- An alternative that succeeds did so on one side. -/
lemma orElse_eq_some {α : Type} {o : Option α} {f : Unit → Option α} {x : α}
    (h : o.orElse f = some x) : o = some x ∨ f () = some x := by
  cases o with
  | none => exact Or.inr h
  | some y => exact Or.inl h

/-- A number token has no dictionary inside. -/
lemma scanNumber_wellFormed {neg : Bool} {s r : Str} {v : Value}
    (h : scanNumber neg s = some (v, r)) : v.WellFormed := by
  unfold scanNumber at h
  split at h
  · cases h
  · dsimp only at h
    split at h
    · split at h
      · cases h
      · simp only [Option.some.injEq, Prod.mk.injEq] at h
        simp [← h.1, Value.WellFormed]
    · simp only [Option.some.injEq, Prod.mk.injEq] at h
      simp [← h.1, Value.WellFormed]

/-- A scalar token has no dictionary inside. -/
lemma scanScalar_wellFormed {s r : Str} {v : Value} (h : scanScalar s = some (v, r)) :
    v.WellFormed := by
  unfold scanScalar at h
  -- the six words in the order the reader tries them, then a number
  iterate 6
    rcases orElse_eq_some h with h | h
    · simp [scanWord_eq_some h, Value.WellFormed]
  split at h
  · split at h <;> exact scanNumber_wellFormed h
  · cases h

/-- The three mutually recursive readers return well-formed values.

**Proof sketch.** Induction on the step budget. An object is built by `Dict.set` from the empty
one, which keeps the keys distinct (`Value.WellFormed.set`); an array holds values that were read
with a smaller budget. -/
lemma parse_wellFormed (fuel : ℕ) :
    (∀ s v r, parseValue fuel s = some (v, r) → v.WellFormed) ∧
    (∀ s acc v r, Value.WellFormed (.dict acc) → parseMembers fuel s acc = some (v, r) →
      v.WellFormed) ∧
    (∀ s acc v r, (∀ x ∈ acc, Value.WellFormed x) → parseElements fuel s acc = some (v, r) →
      v.WellFormed) := by
  induction fuel with
  | zero => simp [parseValue, parseMembers, parseElements]
  | succ fuel ih =>
    obtain ⟨ihValue, ihMembers, ihElements⟩ := ih
    refine ⟨?_, ?_, ?_⟩
    · intro s v r h
      cases s with
      | nil => simp [parseValue] at h
      | cons c s =>
        simp only [parseValue] at h
        split_ifs at h
        · rw [Option.map_eq_some_iff] at h
          obtain ⟨p, -, hp⟩ := h
          simp only [Prod.mk.injEq] at hp
          simp [← hp.1, Value.WellFormed]
        · split at h
          · cases h
          · split_ifs at h
            · simp only [Option.some.injEq, Prod.mk.injEq] at h
              exact h.1 ▸ Value.WellFormed.empty
            · exact ihMembers _ _ _ _ Value.WellFormed.empty h
        · split at h
          · cases h
          · split_ifs at h
            · simp only [Option.some.injEq, Prod.mk.injEq] at h
              simp [← h.1, Value.WellFormed, Value.WellFormedList]
            · exact ihElements _ _ _ _ (by simp) h
        · exact scanScalar_wellFormed h
    · intro s acc v r hacc h
      cases s with
      | nil => simp [parseMembers] at h
      | cons q s =>
        simp only [parseMembers] at h
        split_ifs at h
        split at h
        · cases h
        · split at h
          · cases h
          · split_ifs at h
            split at h
            · cases h
            · rename_i hv
              have hset := fun k => hacc.set k (ihValue _ _ _ hv)
              split at h
              · cases h
              · split_ifs at h
                · simp only [Option.some.injEq, Prod.mk.injEq] at h
                  exact h.1 ▸ hset _
                · exact ihMembers _ _ _ _ (hset _) h
    · intro s acc v r hacc h
      simp only [parseElements] at h
      split at h
      · cases h
      · rename_i hv
        have hcons := List.forall_mem_cons.mpr ⟨ihValue _ _ _ hv, hacc⟩
        split at h
        · cases h
        · split_ifs at h
          · simp only [Option.some.injEq, Prod.mk.injEq] at h
            rw [← h.1]
            simp only [Value.WellFormed, Value.wellFormedList_iff, List.mem_reverse]
            exact hcons
          · exact ihElements _ _ _ _ hcons h

/-- What `json.loads` returns has no repeated keys. -/
theorem loads_wellFormed {b : Bytes} {v : Value} (h : loads b = some v) : v.WellFormed := by
  unfold loads at h
  obtain ⟨s, -, hs⟩ := Option.bind_eq_some_iff.mp h
  unfold parseDocument at hs
  split at hs
  · cases hs
  · rename_i hv
    split_ifs at hs
    simp only [Option.some.injEq] at hs
    exact hs ▸ (parse_wellFormed _).1 _ _ _ hv

end Python.Json
