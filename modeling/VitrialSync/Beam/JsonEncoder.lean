import VitrialSync.Beam.Fingerprint
import VitrialSync.Beam.JsonExact
import VitrialSync.Beam.Runtime
import VitrialSync.Python.JsonBytes

set_option relaxedAutoImplicit false
set_option autoImplicit false

/-!
# The JSON encoder of the BEAM service

`VitrialSync.JSON.encode/1`: strings in UTF-8 with the seven escapes of one letter, integers in
decimal, floats as the runtime renders them, and the members of a map in the order in which the
runtime enumerates it. The text is one of the grammar, so the decoder reads it back; a map comes
back with its members in the order of the text, which is the same map.

The other control characters were to be written by their number, but `hex4/1` raises for every one
of them. The terms are those that JSON has, so no term is refused; a string that is no UTF-8 matches
no clause of `escape/2`.

## Main definitions

* `VitrialSync.Beam.JSON.encode` — `encode/1`.
* `VitrialSync.Beam.JSON.Unescapable` — the characters for which `encode/1` raises.
* `VitrialSync.Beam.JSON.nesting` — how deep the containers of a term are nested.
* `VitrialSync.Beam.JSON.strictEq` — the operator `===`.
* `VitrialSync.Beam.JSON.reread` — the term that is decoded again.

## Main results

* `VitrialSync.Beam.JSON.encodeValue_isOk_iff` — the terms that are written.
* `VitrialSync.Beam.JSON.nested_encodeValue` — what is written is a text of the grammar.
* `VitrialSync.Beam.JSON.decode_encode` — what is written is read back.
* `VitrialSync.Beam.JSON.strictEq_reread` — and is the same term.
-/

namespace VitrialSync.Beam.JSON

open Python Program
open Python.Json (ch Nested Blank blank_nil rfcWords rfcFinite PairedLiteral pairedLiteral_iff Glyph
  Glyphs Numeral Printable joinComma joinGap joinGap_nil joinGap_chars value_induction
  build_of_nodup build)

/-! ### The encoder -/

/-- `@escapes`. -/
def escapes : List (ℕ × String) :=
  [(0x22, "\\\""), (0x5c, "\\\\"), (0x08, "\\b"), (0x0c, "\\f"), (0x0a, "\\n"), (0x0d, "\\r"),
    (0x09, "\\t")]

/-- `hex4/1`. The pipe hands the byte to `:io_lib.format/3` as its format, and a number is none. -/
def hex4 (_byte : ℕ) : Except Raised Str := .error .argumentError

/-- `escape/2` of one character. A surrogate has no UTF-8, so it matches no clause. -/
def escapeChar (char : CodePoint) : Except Raised Str :=
  if char.val < 0x20 then
    match escapes.lookup char.val with
    | some escaped => .ok (Str.ofString escaped)
    | none => do return Str.ofString "\\u" ++ (← hex4 char.val)
  else if char.val = 0x22 ∨ char.val = 0x5c then
    .ok (((escapes.lookup char.val).map Str.ofString).getD [])
  else if char.isSurrogate then .error .functionClauseError
  else .ok [char]

/-- `quote_string/1`. -/
def quoteString (text : Str) : Except Raised Str := do
  let chars ← text.mapM escapeChar
  return ch '"' :: (chars.flatten ++ [ch '"'])

/-- `encode_joined/1`. -/
def encodeJoined : List Str → Str
  | [] => []
  | first :: rest => rest.foldl (fun acc member => acc ++ ch ',' :: member) first

mutual

/-- `encode_value/1`. -/
def encodeValue (runtime : Runtime) : Value → Except Raised Str
  | .none => .ok (Str.ofString "null")
  | .bool true => .ok (Str.ofString "true")
  | .bool false => .ok (Str.ofString "false")
  | .str s => quoteString s
  | .int n => .ok (Str.ofInt n)
  | .float x => .ok (runtime.short x)
  | .list xs => do
    let elements ← encodeElements runtime xs
    return ch '[' :: (encodeJoined elements ++ [ch ']'])
  | .dict d => do
    let members ← (runtime.enumerate (encodeMembers runtime d)).mapM fun m => do
      let key ← quoteString m.1
      let value ← m.2
      return key ++ ch ':' :: value
    return ch '{' :: (encodeJoined members ++ [ch '}'])

/-- The texts of the elements of a list. -/
def encodeElements (runtime : Runtime) : List Value → Except Raised (List Str)
  | [] => .ok []
  | x :: xs => do
    let text ← encodeValue runtime x
    let texts ← encodeElements runtime xs
    return text :: texts

/-- The keys of a map with what becomes of their values. -/
def encodeMembers (runtime : Runtime) : List (Str × Value) → List (Str × Except Raised Str)
  | [] => []
  | (k, v) :: d => (k, encodeValue runtime v) :: encodeMembers runtime d

end

/-- `encode/1`, as flat bytes. Only what is thrown is caught, not what is raised. -/
def encode (runtime : Runtime) (term : Value) : Except Raised Bytes :=
  (encodeValue runtime term).map bytesOf

/-- The elements are written one by one. -/
lemma encodeElements_eq (runtime : Runtime) (xs : List Value) :
    encodeElements runtime xs = xs.mapM (encodeValue runtime) := by
  induction xs with
  | nil => rfl
  | cons x xs ih => rw [encodeElements, ih, List.mapM_cons]

/-- The members are written one by one. -/
lemma encodeMembers_eq (runtime : Runtime) (d : Dict) :
    encodeMembers runtime d = d.map fun e => (e.1, encodeValue runtime e.2) := by
  induction d with
  | nil => rfl
  | cons e d ih => rw [encodeMembers, ih, List.map_cons]

/-- Texts are joined by commas. -/
lemma encodeJoined_eq (ts : List Str) : encodeJoined ts = joinComma ts := by
  have hfold : ∀ (us : List Str) (acc : Str),
      us.foldl (fun acc member => acc ++ ch ',' :: member) acc =
        acc ++ us.flatMap fun member => ch ',' :: member := by
    intro us
    induction us with
    | nil => exact fun acc => (List.append_nil acc).symm
    | cons u us ih =>
      intro acc
      rw [List.foldl_cons, ih, List.flatMap_cons, List.append_assoc]
  have hjoin : ∀ (us : List Str) (t : Str),
      joinComma (t :: us) = t ++ us.flatMap fun member => ch ',' :: member := by
    intro us
    induction us with
    | nil => exact fun t => (List.append_nil t).symm
    | cons u us ih =>
      intro t
      rw [List.flatMap_cons, List.cons_append, ← ih]
      rfl
  cases ts with
  | nil => rfl
  | cons t ts => rw [encodeJoined, hfold, hjoin]

/-- The text of a list. -/
lemma encodeValue_list (runtime : Runtime) (xs : List Value) : encodeValue runtime (.list xs) =
    (xs.mapM (encodeValue runtime)).map fun ts => ch '[' :: (joinComma ts ++ [ch ']']) := by
  rw [encodeValue, encodeElements_eq]
  simp only [encodeJoined_eq]
  rfl

/-- The text of a member. -/
def encodeMember (runtime : Runtime) (e : Str × Value) : Except Raised Str := do
  let key ← quoteString e.1
  let value ← encodeValue runtime e.2
  return key ++ ch ':' :: value

/-- The text of a map. -/
lemma encodeValue_dict (runtime : Runtime) (d : Dict) : encodeValue runtime (.dict d) =
    ((runtime.enumerate d).mapM (encodeMember runtime)).map
      fun ts => ch '{' :: (joinComma ts ++ [ch '}']) := by
  rw [encodeValue, encodeMembers_eq, Runtime.enumerate_map, List.mapM_map]
  simp only [encodeJoined_eq]
  rfl

/-! ### Strings -/

/-- The control characters without a short escape. -/
def Unescapable (c : CodePoint) : Prop :=
  c.val < 0x08 ∨ c.val = 0x0b ∨ (0x0e ≤ c.val ∧ c.val < 0x20)

instance (c : CodePoint) : Decidable (Unescapable c) :=
  inferInstanceAs (Decidable (_ ∨ _ ∨ _))

/-- What `json.dumps` without `ensure_ascii` writes for a character, by the table of the short
escapes.

**Proof sketch.** The seven characters with a short escape one by one; the others by their range. -/
lemma escapeChar_table (c : CodePoint) : Json.escapeChar false c =
    match escapes.lookup c.val with
    | some escaped => Str.ofString escaped
    | none => if c.val < 0x20 then Json.unitEscape c.val else [c] := by
  by_cases hshort : c.val ∈ escapes.map Prod.fst
  · have hall : ∀ n ∈ escapes.map Prod.fst, ∀ h : n < 0x110000, Json.escapeChar false ⟨n, h⟩ =
        match escapes.lookup n with
        | some escaped => Str.ofString escaped
        | none => if n < 0x20 then Json.unitEscape n else [⟨n, h⟩] := by
      intro n hn
      simp only [escapes, List.map_cons, List.map_nil, List.mem_cons, List.not_mem_nil,
        or_false] at hn
      rcases hn with rfl | rfl | rfl | rfl | rfl | rfl | rfl <;> exact fun _ => rfl
    exact hall c.val hshort c.isLt
  · have hlookup : escapes.lookup c.val = none := by
      rw [List.lookup_eq_none_iff]
      intro e he
      have hne : c.val ≠ e.1 := fun h => hshort (h ▸ List.mem_map_of_mem he)
      simpa using hne
    simp only [escapes, List.map_cons, List.map_nil, List.mem_cons, List.not_mem_nil,
      or_false, not_or] at hshort
    obtain ⟨hquote, hslash, hb, hf, hn, hr, ht⟩ := hshort
    have hquote' : c ≠ ch '"' := fun h => hquote (by rw [h]; rfl)
    have hslash' : c ≠ ch '\\' := fun h => hslash (by rw [h]; rfl)
    simp only [Json.escapeChar, hlookup, hquote', hslash', hb, hf, hn, hr, ht, ↓reduceIte,
      Bool.false_eq_true, false_and]

/-- The control characters are those with a short escape and those without. -/
lemma lookup_escapes {c : CodePoint} (hlow : c.val < 0x20) :
    escapes.lookup c.val = none ↔ Unescapable c := by
  have hall : ∀ n < 0x20,
      escapes.lookup n = none ↔ n < 0x08 ∨ n = 0x0b ∨ (0x0e ≤ n ∧ n < 0x20) := by
    decide
  exact hall c.val hlow

/-- What `escape/2` does with a character: it raises for the controls without a short escape and for
surrogates, and writes the others as `json.dumps` without `ensure_ascii` does. -/
lemma escapeChar_spec (c : CodePoint) : escapeChar c =
    if Unescapable c then .error .argumentError
    else if c.isSurrogate then .error .functionClauseError
    else .ok (Json.escapeChar false c) := by
  by_cases hlow : c.val < 0x20
  · have hscalar : c.isSurrogate = false := isSurrogate_eq_false.mpr (Or.inl (by omega))
    rw [escapeChar, if_pos hlow, escapeChar_table, hscalar]
    by_cases hraises : Unescapable c
    · rw [if_pos hraises, (lookup_escapes hlow).mpr hraises]
      rfl
    · obtain ⟨escaped, hlookup⟩ :=
        Option.ne_none_iff_exists'.mp fun h => hraises ((lookup_escapes hlow).mp h)
      rw [if_neg hraises, hlookup]
      rfl
  · have hwritten : ¬ Unescapable c := by
      unfold Unescapable
      omega
    rw [escapeChar, if_neg hlow, if_neg hwritten, escapeChar_table]
    by_cases hmark : c.val = 0x22 ∨ c.val = 0x5c
    · have hscalar : c.isSurrogate = false :=
        isSurrogate_eq_false.mpr (Or.inl (by rcases hmark with h | h <;> omega))
      rw [if_pos hmark, hscalar]
      rcases hmark with h | h <;> rw [h] <;> rfl
    · have hlookup : escapes.lookup c.val = none := by
        rw [List.lookup_eq_none_iff]
        simp only [escapes, List.mem_cons, List.not_mem_nil, or_false, bne_iff_ne, ne_eq]
        rintro e (rfl | rfl | rfl | rfl | rfl | rfl | rfl) <;> dsimp only <;> omega
      rw [if_neg hmark, hlookup]
      simp only [hlow, ↓reduceIte]

/-- A character that is written. -/
lemma escapeChar_eq_ok {c : CodePoint} {t : Str} : escapeChar c = .ok t ↔
    (¬ Unescapable c ∧ c.isSurrogate = false) ∧ t = Json.escapeChar false c := by
  rw [escapeChar_spec]
  split_ifs with hraises hsurrogate
  · simp [hraises]
  · simp [hsurrogate]
  · simp [hraises, hsurrogate, eq_comm]

/-- A character is written as one of the glyphs that denote it. -/
lemma glyph_escapeChar {c : CodePoint} {t : Str} (h : escapeChar c = .ok t) : Glyph t c := by
  obtain ⟨-, rfl⟩ := escapeChar_eq_ok.mp h
  obtain ⟨ts, xs, htexts, hflat, hunits⟩ := Json.escapeChar_units false c
  cases hunits with
  | @one escaped _ hraw =>
    rw [← hflat]
    cases htexts with
    | @cons t x ts xs htext hrest =>
      cases hrest
      rw [List.flatten_cons, List.flatten_nil, List.append_nil]
      cases escaped with
      | false => exact .raw htext
      | true =>
        refine .unit htext (isSurrogate_eq_false.mpr (Or.inl ?_))
        have := hraw rfl rfl
        omega
  | pair hascii => cases hascii

/-- What is written for a character has no surrogate. -/
lemma scalar_escapeChar {c : CodePoint} {t : Str} (h : escapeChar c = .ok t) : Scalar t := by
  obtain ⟨⟨-, hc⟩, rfl⟩ := escapeChar_eq_ok.mp h
  intro d hd
  have hprintable : ∀ c, Printable c → c.isSurrogate = false := by
    intro c hc
    exact isSurrogate_eq_false.mpr (Or.inl (by have := hc.2; omega))
  have htwo : ∀ e, Printable e → d ∈ [ch '\\', e] → d.isSurrogate = false := by
    intro e he hd
    exact hprintable d (List.forall_mem_cons.mpr
      ⟨by decide, List.forall_mem_singleton.mpr he⟩ d hd)
  have hescape := Json.escapeChar.eq_1 false c
  split_ifs at hescape with h₁ h₂ h₃ h₄ h₅ h₆ h₇ h₈ h₉ h₁₀ <;> rw [hescape] at hd
  · exact htwo _ (by decide) hd
  · exact htwo _ (by decide) hd
  · exact htwo _ (by decide) hd
  · exact htwo _ (by decide) hd
  · exact htwo _ (by decide) hd
  · exact htwo _ (by decide) hd
  · exact htwo _ (by decide) hd
  · exact hprintable d (Json.unitEscape_printable _ d hd)
  · exact absurd h₉.1 (by decide)
  · exact absurd h₉.1 (by decide)
  · rw [List.mem_singleton.mp hd]
    exact hc

/-- A string that is written, character by character. -/
lemma quoteString_eq_ok {s t : Str} : quoteString s = .ok t ↔
    ∃ ts, List.Forall₂ (fun c u => escapeChar c = .ok u) s ts ∧
      t = ch '"' :: (ts.flatten ++ [ch '"']) := by
  simp only [quoteString, bind_eq_ok, mapM_eq_ok_iff, pure_eq_ok]
  exact exists_congr fun ts => and_congr_right fun _ => eq_comm

/-- The strings that are written. -/
lemma quoteString_isOk_iff (s : Str) : (∃ t, quoteString s = .ok t) ↔
    ∀ c ∈ s, ¬ Unescapable c ∧ c.isSurrogate = false := by
  have hchar : ∀ c, (∃ t, escapeChar c = .ok t) ↔ ¬ Unescapable c ∧ c.isSurrogate = false := by
    intro c
    exact ⟨fun ⟨_, h⟩ => (escapeChar_eq_ok.mp h).1, fun h => ⟨_, escapeChar_eq_ok.mpr ⟨h, rfl⟩⟩⟩
  have hmap : (∃ ts, s.mapM escapeChar = .ok ts) ↔ ∀ c ∈ s, ∃ t, escapeChar c = .ok t :=
    mapM_isOk_iff
  simp only [hchar] at hmap
  rw [← hmap]
  constructor
  · rintro ⟨t, h⟩
    obtain ⟨chars, hchars, -⟩ := bind_eq_ok.mp h
    exact ⟨chars, hchars⟩
  · rintro ⟨chars, hchars⟩
    exact ⟨_, bind_eq_ok.mpr ⟨chars, hchars, rfl⟩⟩

/-- A string of UTF-8 is written, or `hex4/1` raises. -/
lemma raises_quoteString {s : Str} (h : Scalar s) :
    Raises (· = .argumentError) (quoteString s) := by
  refine .bind (.mapM fun c hc => ?_) fun _ _ => .pure _
  have hscalar : ¬ c.isSurrogate = true := by
    rw [h c hc]
    exact Bool.false_ne_true
  rw [escapeChar_spec, if_neg hscalar]
  exact .ite (fun _ => .error rfl) fun _ => .ok _

/-- A string is written as a literal that denotes it. -/
lemma pairedLiteral_quoteString {s t : Str} (h : quoteString s = .ok t) : PairedLiteral s t := by
  obtain ⟨ts, hchars, rfl⟩ := quoteString_eq_ok.mp h
  refine pairedLiteral_iff.mpr ⟨ts.flatten, rfl, ?_⟩
  clear h
  induction hchars with
  | nil => exact .nil
  | cons hc _ ih => exact .cons (glyph_escapeChar hc) ih

/-- A string is written without surrogates. -/
lemma scalar_quoteString {s t : Str} (h : quoteString s = .ok t) : Scalar t := by
  obtain ⟨ts, hchars, rfl⟩ := quoteString_eq_ok.mp h
  refine List.forall_mem_cons.mpr ⟨rfl,
    List.forall_mem_append.mpr ⟨?_, List.forall_mem_singleton.mpr rfl⟩⟩
  clear h
  induction hchars with
  | nil => exact fun _ hd => absurd hd List.not_mem_nil
  | cons hc _ ih => exact List.forall_mem_append.mpr ⟨scalar_escapeChar hc, ih⟩

/-! ### Terms -/

mutual

/-- How deep the containers of a term are nested. -/
def nesting : Value → ℕ
  | .list xs => nestingOfElements xs + 1
  | .dict d => nestingOfMembers d + 1
  | _ => 0

/-- The deepest element of a list. -/
def nestingOfElements : List Value → ℕ
  | [] => 0
  | x :: xs => max (nesting x) (nestingOfElements xs)

/-- The deepest value of a map. -/
def nestingOfMembers : List (Str × Value) → ℕ
  | [] => 0
  | (_, v) :: d => max (nesting v) (nestingOfMembers d)

end

/-- An element is nested no deeper than the deepest one. -/
lemma nesting_le_elements {x : Value} {xs : List Value} (h : x ∈ xs) :
    nesting x ≤ nestingOfElements xs := by
  induction xs with
  | nil => exact absurd h List.not_mem_nil
  | cons y xs ih =>
    rw [nestingOfElements]
    rcases List.mem_cons.mp h with rfl | h
    · exact le_max_left _ _
    · exact (ih h).trans (le_max_right _ _)

/-- A value of a map is nested no deeper than the deepest one. -/
lemma nesting_le_members {e : Str × Value} {d : List (Str × Value)} (h : e ∈ d) :
    nesting e.2 ≤ nestingOfMembers d := by
  induction d with
  | nil => exact absurd h List.not_mem_nil
  | cons f d ih =>
    rw [nestingOfMembers]
    rcases List.mem_cons.mp h with rfl | h
    · exact le_max_left _ _
    · exact (ih h).trans (le_max_right _ _)

mutual

/-- The operator `===`: integers and floats are kept apart, and a map has no order. -/
def strictEq : Value → Value → Bool
  | .none, w => match w with
    | .none => true
    | _ => false
  | .bool b, w => match w with
    | .bool b' => b == b'
    | _ => false
  | .int n, w => match w with
    | .int n' => n == n'
    | _ => false
  | .float x, w => match w with
    | .float x' => x == x'
    | _ => false
  | .str s, w => match w with
    | .str s' => s == s'
    | _ => false
  | .list xs, w => match w with
    | .list ys => strictEqElements xs ys
    | _ => false
  | .dict d, w => match w with
    | .dict d' => d.length == d'.length && strictEqMembers d d'
    | _ => false

/-- Two lists, element by element. -/
def strictEqElements : List Value → List Value → Bool
  | [], [] => true
  | x :: xs, y :: ys => strictEq x y && strictEqElements xs ys
  | _, _ => false

/-- Every member of a map is one of the other map. -/
def strictEqMembers : List (Str × Value) → List (Str × Value) → Bool
  | [], _ => true
  | (k, v) :: d, d' =>
    (match d'.lookup k with
      | some w => strictEq v w
      | none => false) && strictEqMembers d d'

end

mutual

/-- The term that is decoded again: a map has its members in the order of the text. -/
def reread (runtime : Runtime) : Value → Value
  | .list xs => .list (rereadElements runtime xs)
  | .dict d => .dict (runtime.enumerate (rereadMembers runtime d))
  | v => v

/-- The elements of a list as they are decoded again. -/
def rereadElements (runtime : Runtime) : List Value → List Value
  | [] => []
  | x :: xs => reread runtime x :: rereadElements runtime xs

/-- The members of a map as they are decoded again. -/
def rereadMembers (runtime : Runtime) : List (Str × Value) → List (Str × Value)
  | [] => []
  | (k, v) :: d => (k, reread runtime v) :: rereadMembers runtime d

end

/-- A list that is decoded again. -/
lemma reread_list (runtime : Runtime) (xs : List Value) :
    reread runtime (.list xs) = .list (xs.map (reread runtime)) := by
  have heq : rereadElements runtime xs = xs.map (reread runtime) := by
    induction xs with
    | nil => rfl
    | cons x xs ih => rw [rereadElements, ih, List.map_cons]
  rw [reread, heq]

/-- A map that is decoded again. -/
lemma reread_dict (runtime : Runtime) (d : Dict) : reread runtime (.dict d) =
    .dict ((runtime.enumerate d).map fun e => (e.1, reread runtime e.2)) := by
  have heq : rereadMembers runtime d = d.map fun e => (e.1, reread runtime e.2) := by
    induction d with
    | nil => rfl
    | cons e d ih => rw [rereadMembers, ih, List.map_cons]
  rw [reread, heq, Runtime.enumerate_map]

/-- Lists of the same terms. -/
lemma strictEqElements_map {f : Value → Value} {xs : List Value}
    (h : ∀ x ∈ xs, strictEq x (f x) = true) : strictEqElements xs (xs.map f) = true := by
  induction xs with
  | nil => rfl
  | cons x xs ih =>
    rw [List.forall_mem_cons] at h
    rw [List.map_cons, strictEqElements, h.1, ih h.2]
    rfl

/-- Members that are found. -/
lemma strictEqMembers_of {d d' : List (Str × Value)}
    (h : ∀ e ∈ d, ∃ w, d'.lookup e.1 = some w ∧ strictEq e.2 w = true) :
    strictEqMembers d d' = true := by
  induction d with
  | nil => rfl
  | cons e d ih =>
    rw [List.forall_mem_cons] at h
    obtain ⟨⟨w, hlookup, heq⟩, hrest⟩ := h
    rw [strictEqMembers, hlookup, ih hrest, Bool.and_true]
    exact heq

/-- The keys of a map in the order of the text are those of the map. -/
lemma nodup_reread (runtime : Runtime) {d : Dict} (h : (Dict.keys d).Nodup) :
    (Dict.keys ((runtime.enumerate d).map fun e => (e.1, reread runtime e.2))).Nodup := by
  unfold Dict.keys Program.keys at h ⊢
  rw [List.map_map]
  exact ((runtime.enumerate_perm d).map Prod.fst).nodup_iff.mpr h

/-- **The same term.** What is decoded again is the term that was written.

**Proof sketch.** Induction on the term; the order of a map does not matter. -/
theorem strictEq_reread (runtime : Runtime) {v : Value} (h : v.WellFormed) :
    strictEq v (reread runtime v) = true := by
  induction v using value_induction with
  | none => rfl
  | bool b => exact beq_self_eq_true b
  | int n => exact beq_self_eq_true n
  | float x => exact beq_self_eq_true x
  | str s => exact beq_self_eq_true s
  | list xs ih =>
    rw [Value.WellFormed, Value.wellFormedList_iff] at h
    rw [reread_list, strictEq]
    exact strictEqElements_map fun x hx => ih x hx (h x hx)
  | dict d ih =>
    rw [Value.WellFormed, Value.wellFormedItems_iff] at h
    rw [reread_dict, strictEq, List.length_map, (runtime.enumerate_perm d).length_eq,
      beq_self_eq_true, Bool.true_and]
    refine strictEqMembers_of fun e he => ⟨reread runtime e.2, ?_, ih e he (h.2 e he)⟩
    exact Program.lookup_of_mem (nodup_reread _ h.1)
      (List.mem_map.mpr ⟨e, (runtime.enumerate_perm d).mem_iff.mpr he, rfl⟩)

/-! ### The text -/

section Text

variable {runtime : Runtime} {n : ℕ}

/-- A member that is written. -/
lemma encodeMember_eq_ok {e : Str × Value} {t : Str} : encodeMember runtime e = .ok t ↔
    ∃ k u, quoteString e.1 = .ok k ∧ encodeValue runtime e.2 = .ok u ∧ k ++ ch ':' :: u = t := by
  simp only [encodeMember, bind_eq_ok, pure_eq_ok, exists_and_left]

/-- A list that is written. -/
lemma encodeValue_list_eq_ok {xs : List Value} {t : Str} :
    encodeValue runtime (.list xs) = .ok t ↔
      ∃ ts, List.Forall₂ (fun x u => encodeValue runtime x = .ok u) xs ts ∧
        ch '[' :: (joinComma ts ++ [ch ']']) = t := by
  rw [encodeValue_list]
  simp only [map_eq_ok, mapM_eq_ok_iff]

/-- A map that is written. -/
lemma encodeValue_dict_eq_ok {d : Dict} {t : Str} :
    encodeValue runtime (.dict d) = .ok t ↔
      ∃ ts, List.Forall₂ (fun e u => encodeMember runtime e = .ok u) (runtime.enumerate d) ts ∧
        ch '{' :: (joinComma ts ++ [ch '}']) = t := by
  rw [encodeValue_dict]
  simp only [map_eq_ok, mapM_eq_ok_iff]

/-- The elements of an array that is not empty. -/
lemma nested_elements {x : Value} {xs : List Value} {ts : List Str}
    (h : List.Forall₂ (fun y t => Nested rfcFinite PairedLiteral n (.value (reread runtime y)) t)
      (x :: xs) ts) :
    Nested rfcFinite PairedLiteral n (.elements ((x :: xs).map (reread runtime)))
      (joinComma ts) := by
  induction xs generalizing x ts with
  | nil =>
    cases h with
    | cons hx hxs =>
      cases hxs
      have hx := Nested.element blank_nil hx blank_nil
      rwa [List.append_nil, List.nil_append] at hx
  | cons y xs ih =>
    cases h with
    | cons hx hxs =>
      have hrest := ih hxs
      cases hxs
      exact .elements blank_nil hx blank_nil hrest

/-- The members of an object that is not empty. -/
lemma nested_members {e : Str × Value} {d : List (Str × Value)} {ts : List Str}
    (h : ∀ m ∈ e :: d, ∀ t, encodeValue runtime m.2 = .ok t →
      Nested rfcFinite PairedLiteral n (.value (reread runtime m.2)) t)
    (hts : List.Forall₂ (fun m t => encodeMember runtime m = .ok t) (e :: d) ts) :
    Nested rfcFinite PairedLiteral n
      (.members ((e :: d).map fun m => (m.1, reread runtime m.2))) (joinComma ts) := by
  induction d generalizing e ts with
  | nil =>
    cases hts with
    | cons he hd =>
      cases hd
      obtain ⟨k, t, hk, ht, rfl⟩ := encodeMember_eq_ok.mp he
      have hmember := Nested.member blank_nil (pairedLiteral_quoteString hk) blank_nil blank_nil
        (h e List.mem_cons_self t ht) blank_nil
      rwa [List.append_nil, List.nil_append, List.nil_append, List.nil_append] at hmember
  | cons m d ih =>
    rw [List.forall_mem_cons] at h
    cases hts with
    | cons he hd =>
      have hrest := ih h.2 hd
      cases hd
      obtain ⟨k, t, hk, ht, rfl⟩ := encodeMember_eq_ok.mp he
      have hmembers := Nested.members blank_nil (pairedLiteral_quoteString hk) blank_nil blank_nil
        (h.1 t ht) blank_nil hrest
      rw [List.nil_append, List.nil_append, List.nil_append, List.nil_append] at hmembers
      simpa only [List.map_cons, joinComma, List.append_assoc, List.cons_append] using hmembers

/-- **What is written is a text of the grammar**, nested as deep as the term.

**Proof sketch.** Induction on the term. The members of a map have different keys, so none of them
replaces another one. -/
theorem nested_encodeValue (hshort : Runtime.ReadsBack runtime.short) {v : Value} (hv : IsTerm v)
    {t : Str} (ht : encodeValue runtime v = .ok t) :
    Nested rfcFinite PairedLiteral (nesting v) (.value (reread runtime v)) t := by
  induction v using value_induction generalizing t with
  | none =>
    cases ht
    exact .word (by simp [rfcFinite, rfcWords, reread])
  | bool b => cases b <;> cases ht <;> exact .word (by simp [rfcFinite, rfcWords, reread])
  | int n =>
    obtain ⟨hformed, htext, hvalue⟩ := Json.intNumeral_spec n
    cases ht
    rw [reread, ← htext, ← hvalue]
    · refine .number hformed fun x hx => ?_
      rw [hvalue] at hx
      cases hx
    · exact fun _ h => by cases h
    · exact fun _ h => by cases h
  | float x =>
    have hx : x.isFinite = true := hv.finite x List.mem_cons_self
    obtain ⟨n, hformed, htext, hvalue⟩ := hshort x hx
    cases ht
    rw [reread, ← htext, ← hvalue]
    · refine .number hformed fun y hy => ?_
      rw [hvalue] at hy
      rwa [← Value.float.inj hy]
    · exact fun _ h => by cases h
    · exact fun _ h => by cases h
  | str s => exact .string (pairedLiteral_quoteString ht)
  | list xs ih =>
    have helements : ∀ x ∈ xs, ∀ u, encodeValue runtime x = .ok u →
        Nested rfcFinite PairedLiteral (nestingOfElements xs) (.value (reread runtime x)) u := by
      intro x hx u hu
      refine (ih x hx ⟨?_, fun y hy => hv.finite y ?_⟩ hu).mono (nesting_le_elements hx)
      · exact (Value.wellFormedList_iff xs).mp hv.wellFormed x hx
      · exact Value.mem_leavesOfList.mpr ⟨x, hx, hy⟩
    obtain ⟨ts, hts, rfl⟩ := encodeValue_list_eq_ok.mp ht
    rw [reread_list, nesting]
    have hnested := ((List.forall₂_and_left _ _).mpr ⟨helements, hts⟩).imp fun x u h => h.1 u h.2
    cases xs with
    | nil =>
      cases hts
      exact .emptyArray blank_nil
    | cons x xs => exact .array (nested_elements hnested)
  | dict d ih =>
    have hformed := hv.wellFormed
    rw [Value.WellFormed, Value.wellFormedItems_iff] at hformed
    have hperm := runtime.enumerate_perm d
    have hmembers : ∀ e ∈ runtime.enumerate d, ∀ u, encodeValue runtime e.2 = .ok u →
        Nested rfcFinite PairedLiteral (nestingOfMembers d) (.value (reread runtime e.2)) u := by
      intro e he u hu
      have he := hperm.mem_iff.mp he
      refine (ih e he ⟨hformed.2 e he, fun y hy => hv.finite y ?_⟩ hu).mono (nesting_le_members he)
      exact Value.mem_leavesOfItems.mpr ⟨e, he, hy⟩
    have hbuild := build_of_nodup (nodup_reread runtime hformed.1)
    obtain ⟨ts, hts, rfl⟩ := encodeValue_dict_eq_ok.mp ht
    rw [reread_dict, nesting]
    cases hd : runtime.enumerate d with
    | nil =>
      rw [hd] at hts
      cases hts
      exact .emptyObject blank_nil
    | cons e d' =>
      rw [hd] at hmembers hbuild hts
      have hobject := Nested.object (nested_members hmembers hts)
      rwa [hbuild] at hobject

/-- What is written has a UTF-8 form.

**Proof sketch.** Induction on the term; everything but the strings is ASCII. -/
lemma scalar_encodeValue (hshort : Runtime.ReadsBack runtime.short) {v : Value} (hv : IsTerm v)
    {t : Str} (ht : encodeValue runtime v = .ok t) : Scalar t := by
  have hnumeral : ∀ m : Numeral, m.WellFormed → Scalar m.text := by
    intro m hm c hc
    have hprintable := (Json.numeral_chars hm c hc).printable
    exact isSurrogate_eq_false.mpr (Or.inl (by have := hprintable.2; omega))
  have hword : ∀ w : String, ((Str.ofString w).all fun c => !c.isSurrogate) = true →
      Scalar (Str.ofString w) := by
    intro w hw c hc
    simpa using List.all_eq_true.mp hw c hc
  have hmarks : ∀ (a b : CodePoint) (ts : List Str), a.isSurrogate = false →
      b.isSurrogate = false → (∀ u ∈ ts, Scalar u) → Scalar (a :: (joinComma ts ++ [b])) := by
    intro a b ts ha hb hts
    rw [← joinGap_nil]
    exact List.forall_mem_cons.mpr ⟨ha, List.forall_mem_append.mpr
      ⟨joinGap_chars (P := fun c => c.isSurrogate = false) rfl
        (fun _ h => absurd h List.not_mem_nil) hts, List.forall_mem_singleton.mpr hb⟩⟩
  induction v using value_induction generalizing t with
  | none =>
    cases ht
    exact hword "null" rfl
  | bool b => cases b <;> cases ht <;> exact hword _ rfl
  | int n =>
    obtain ⟨hformed, htext, -⟩ := Json.intNumeral_spec n
    cases ht
    rw [← htext]
    exact hnumeral _ hformed
  | float x =>
    obtain ⟨n, hformed, htext, -⟩ := hshort x (hv.finite x List.mem_cons_self)
    cases ht
    rw [← htext]
    exact hnumeral _ hformed
  | str s => exact scalar_quoteString ht
  | list xs ih =>
    obtain ⟨ts, hts, rfl⟩ := encodeValue_list_eq_ok.mp ht
    refine hmarks _ _ _ rfl rfl fun u hu => ?_
    obtain ⟨x, hx, hxu⟩ := mapM_eq_ok_mem_right (mapM_eq_ok_iff.mpr hts) u hu
    refine ih x hx ⟨?_, fun y hy => hv.finite y ?_⟩ hxu
    · exact (Value.wellFormedList_iff xs).mp hv.wellFormed x hx
    · exact Value.mem_leavesOfList.mpr ⟨x, hx, hy⟩
  | dict d ih =>
    have hformed := hv.wellFormed
    rw [Value.WellFormed, Value.wellFormedItems_iff] at hformed
    obtain ⟨ts, hts, rfl⟩ := encodeValue_dict_eq_ok.mp ht
    refine hmarks _ _ _ rfl rfl fun u hu => ?_
    obtain ⟨e, he, heu⟩ := mapM_eq_ok_mem_right (mapM_eq_ok_iff.mpr hts) u hu
    have he := (runtime.enumerate_perm d).mem_iff.mp he
    obtain ⟨k, u', hk, hu', rfl⟩ := encodeMember_eq_ok.mp heu
    refine List.forall_mem_append.mpr ⟨scalar_quoteString hk, List.forall_mem_cons.mpr ⟨rfl,
      ih e he ⟨hformed.2 e he, fun y hy => hv.finite y ?_⟩ hu'⟩⟩
    exact Value.mem_leavesOfItems.mpr ⟨e, he, hy⟩

end Text

/-! ### The terms that are written -/

section Writable

variable (runtime : Runtime)

/-- A member is written when its key and its value are. -/
lemma encodeMember_isOk_iff (e : Str × Value) : (∃ t, encodeMember runtime e = .ok t) ↔
    (∃ t, quoteString e.1 = .ok t) ∧ ∃ t, encodeValue runtime e.2 = .ok t := by
  constructor
  · rintro ⟨t, ht⟩
    obtain ⟨k, u, hk, hu, -⟩ := encodeMember_eq_ok.mp ht
    exact ⟨⟨k, hk⟩, ⟨u, hu⟩⟩
  · rintro ⟨⟨k, hk⟩, ⟨u, hu⟩⟩
    exact ⟨_, encodeMember_eq_ok.mpr ⟨k, u, hk, hu, rfl⟩⟩

/-- **The terms that are written** are those whose strings and keys have neither a control character
without a short escape nor a surrogate.

**Proof sketch.** Induction on the term: a container is written when its parts are. -/
theorem encodeValue_isOk_iff (v : Value) : (∃ t, encodeValue runtime v = .ok t) ↔
    ∀ s ∈ v.texts, ∀ c ∈ s, ¬ Unescapable c ∧ c.isSurrogate = false := by
  induction v using value_induction with
  | none => exact ⟨fun _ _ hs => absurd hs List.not_mem_nil, fun _ => ⟨_, rfl⟩⟩
  | bool b =>
    refine ⟨fun _ _ hs => absurd hs List.not_mem_nil, fun _ => ?_⟩
    cases b <;> exact ⟨_, rfl⟩
  | int n => exact ⟨fun _ _ hs => absurd hs List.not_mem_nil, fun _ => ⟨_, rfl⟩⟩
  | float x => exact ⟨fun _ _ hs => absurd hs List.not_mem_nil, fun _ => ⟨_, rfl⟩⟩
  | str s =>
    rw [show (Value.str s).texts = [s] from rfl, List.forall_mem_singleton]
    exact quoteString_isOk_iff s
  | list xs ih =>
    rw [encodeValue_list, map_isOk_iff, mapM_isOk_iff]
    constructor
    · intro h s hs
      obtain ⟨x, hx, hs⟩ := Value.mem_textsOfList.mp hs
      exact (ih x hx).mp (h x hx) s hs
    · intro h x hx
      exact (ih x hx).mpr fun s hs => h s (Value.mem_textsOfList.mpr ⟨x, hx, hs⟩)
  | dict d ih =>
    have hperm : ∀ e, e ∈ runtime.enumerate d ↔ e ∈ d := by
      intro e
      exact (runtime.enumerate_perm d).mem_iff
    rw [encodeValue_dict, map_isOk_iff, mapM_isOk_iff]
    simp only [hperm, encodeMember_isOk_iff, quoteString_isOk_iff]
    constructor
    · intro h s hs
      obtain ⟨e, he, rfl | hs⟩ := Value.mem_textsOfItems.mp hs
      · exact (h e he).1
      · exact (ih e he).mp (h e he).2 s hs
    · intro h e he
      exact ⟨h e.1 (Value.mem_textsOfItems.mpr ⟨e, he, Or.inl rfl⟩), (ih e he).mpr fun s hs =>
        h s (Value.mem_textsOfItems.mpr ⟨e, he, Or.inr hs⟩)⟩

/-- A term of strings of UTF-8 is written, or `hex4/1` raises.

**Proof sketch.** Induction on the term. -/
lemma raises_encodeValue {v : Value} (h : ∀ s ∈ v.texts, Scalar s) :
    Raises (· = .argumentError) (encodeValue runtime v) := by
  induction v using value_induction with
  | none => exact .ok _
  | bool b => cases b <;> exact .ok _
  | int n => exact .ok _
  | float x => exact .ok _
  | str s => exact raises_quoteString (h s List.mem_cons_self)
  | list xs ih =>
    rw [encodeValue_list]
    exact .map (.mapM fun x hx => ih x hx fun s hs => h s (Value.mem_textsOfList.mpr ⟨x, hx, hs⟩))
  | dict d ih =>
    rw [encodeValue_dict]
    refine .map (.mapM fun e he => ?_)
    have he := (runtime.enumerate_perm d).mem_iff.mp he
    refine .bind (raises_quoteString (h e.1 (Value.mem_textsOfItems.mpr ⟨e, he, Or.inl rfl⟩)))
      fun _ _ => .bind (ih e he fun s hs => ?_) fun _ _ => .pure _
    exact h s (Value.mem_textsOfItems.mpr ⟨e, he, Or.inr hs⟩)

end Writable

/-- The first character of a value is ASCII. -/
lemma ascii_head {n : ℕ} {v : Value} {t : Str}
    (h : Nested rfcFinite PairedLiteral n (.value v) t) :
    ∃ c s, t = c :: s ∧ 0 < c.val ∧ c.val < 0x80 := by
  cases h with
  | word h =>
    simp only [rfcFinite, rfcWords, List.mem_cons, Prod.mk.injEq, List.not_mem_nil, or_false] at h
    rcases h with ⟨rfl, -⟩ | ⟨rfl, -⟩ | ⟨rfl, -⟩ <;> exact ⟨_, _, rfl, by decide, by decide⟩
  | @number _ m h _ =>
    obtain ⟨d, ds, hwhole, hd, hminus, hplus⟩ := m.text_head h
    cases hneg : m.neg with
    | true => exact ⟨_, _, hminus hneg, by decide, by decide⟩
    | false =>
      have hval := Json.digitChar_val hd
      exact ⟨digitChar d, _, by rw [hplus hneg, hwhole]; rfl, by omega, by omega⟩
  | string h =>
    obtain ⟨t', rfl, -⟩ := pairedLiteral_iff.mp h
    exact ⟨_, _, rfl, by decide, by decide⟩
  | emptyArray _ => exact ⟨_, _, rfl, by decide, by decide⟩
  | array _ => exact ⟨_, _, rfl, by decide, by decide⟩
  | emptyObject _ => exact ⟨_, _, rfl, by decide, by decide⟩
  | object _ => exact ⟨_, _, rfl, by decide, by decide⟩

/-- Bytes that start with ASCII have no byte order mark. -/
lemma unmarked_of_ascii {c : CodePoint} (hpos : 0 < c.val) (hlt : c.val < 0x80) (s : Str) :
    Unmarked (bytesOf (c :: s)) := by
  have hval : (byte c.val).val = c.val := byte_val (by omega)
  have hmark : ∀ {a : Byte} {m : Bytes}, a.val = 0 ∨ 0x80 ≤ a.val →
      ¬ (a :: m) <+: bytesOf (c :: s) := by
    rintro a m ha ⟨rest, hrest⟩
    rw [bytesOf_cons, utf8_ascii hlt] at hrest
    obtain rfl : a = byte c.val := (List.cons.inj hrest).1
    omega
  exact ⟨hmark (by decide), hmark (by decide), hmark (by decide), hmark (by decide)⟩

/-- **What is written is read back**, as the term in the order of the text, if it is nested no
deeper than the bound of the decoder.

**Proof sketch.** The text is nested within the bound (`nested_encodeValue`), and the decoder
accepts exactly such texts (`decodeBody_eq_ok`). -/
theorem decode_encode {runtime : Runtime} (hshort : Runtime.ReadsBack runtime.short) {v : Value}
    (hv : IsTerm v) (hnesting : nesting v ≤ maxDepth + 1) {io : Bytes}
    (h : encode runtime v = .ok io) : decode io = .ok (reread runtime v) := by
  obtain ⟨t, ht, rfl⟩ := map_eq_ok.mp h
  have hnested := (nested_encodeValue hshort hv ht).mono hnesting
  have hencode : encodeUtf8? t = some (bytesOf t) :=
    encodeUtf8?_eq_some.mpr ⟨scalar_encodeValue hshort hv ht, rfl⟩
  obtain ⟨c, s, htext, hpos, hlt⟩ := ascii_head hnested
  have hunmarked : Unmarked (bytesOf t) := by
    rw [htext]
    exact unmarked_of_ascii hpos hlt s
  rw [decode_eq, stripBom_unmarked hunmarked, ok_bind]
  refine decodeBody_eq_ok.mpr ⟨_, hencode, [], _, [], ?_, blank_nil, hnested, blank_nil⟩
  rw [List.nil_append, List.append_nil]

end VitrialSync.Beam.JSON
