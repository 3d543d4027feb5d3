import VitrialSync.Python.JsonWriter

set_option relaxedAutoImplicit false
set_option autoImplicit false

/-!
# The nesting of JSON texts

The grammar of RFC 8259 puts no bound on the nesting of containers, lets a `\u` escape stand for
half of a surrogate pair, and has numbers of any size; section 9 allows a reader to set limits on
each. Here the grammar counts how deep its containers are nested, and takes the string literals as a
parameter, so that a reader with such limits has a grammar, too. Without limits it is the grammar.

## Main definitions

* `Python.Json.Nested` — the grammar with a bound on the nesting.
* `Python.Json.PairedLiteral` — string literals without a lone surrogate among their escapes.
* `Python.Json.Glyph`, `Python.Json.Glyphs` — how one character, and how a string, is written.
* `Python.Json.rfcFinite` — RFC 8259 without the numbers that are too large for a float.
* `Python.Json.LimitedDocument` — a document within all three limits.

## Main results

* `Python.Json.pairedLiteral_iff` — a paired literal is written character by character.
* `Python.Json.nested_iff_denotes` — without limits, what is nested is what is denoted.
* `Python.Json.LimitedDocument.document` — a document within the limits is a document.
-/

namespace Python.Json

/-! ### The grammar -/

/-- The grammar of `Denotes` with a given form of string literals, and at most the given number of
containers around one another. -/
inductive Nested (dialect : Dialect) (literal : Str → Str → Prop) : ℕ → Node → Str → Prop
  | word {depth : ℕ} {w : String} {v : Value} (h : (w, v) ∈ dialect.words) :
      Nested dialect literal depth (.value v) (Str.ofString w)
  | number {depth : ℕ} {n : Numeral} (h : n.WellFormed) (hdialect : dialect.numeral n) :
      Nested dialect literal depth (.value n.value) n.text
  | string {depth : ℕ} {s t : Str} (h : literal s t) :
      Nested dialect literal depth (.value (.str s)) t
  | emptyArray {depth : ℕ} {b : Str} (hb : Blank b) :
      Nested dialect literal (depth + 1) (.value (.list [])) (ch '[' :: (b ++ [ch ']']))
  | array {depth : ℕ} {xs : List Value} {t : Str}
      (h : Nested dialect literal depth (.elements xs) t) :
      Nested dialect literal (depth + 1) (.value (.list xs)) (ch '[' :: (t ++ [ch ']']))
  | emptyObject {depth : ℕ} {b : Str} (hb : Blank b) :
      Nested dialect literal (depth + 1) (.value (.dict [])) (ch '{' :: (b ++ [ch '}']))
  | object {depth : ℕ} {ms : List (Str × Value)} {t : Str}
      (h : Nested dialect literal depth (.members ms) t) :
      Nested dialect literal (depth + 1) (.value (.dict (build ms))) (ch '{' :: (t ++ [ch '}']))
  | element {depth : ℕ} {v : Value} {l t r : Str} (hl : Blank l)
      (h : Nested dialect literal depth (.value v) t) (hr : Blank r) :
      Nested dialect literal depth (.elements [v]) (l ++ (t ++ r))
  | elements {depth : ℕ} {v : Value} {xs : List Value} {l t r rest : Str} (hl : Blank l)
      (h : Nested dialect literal depth (.value v) t) (hr : Blank r)
      (hrest : Nested dialect literal depth (.elements xs) rest) :
      Nested dialect literal depth (.elements (v :: xs)) (l ++ (t ++ (r ++ ch ',' :: rest)))
  | member {depth : ℕ} {k : Str} {v : Value} {l kt m n t r : Str} (hl : Blank l)
      (hk : literal k kt) (hm : Blank m) (hn : Blank n)
      (h : Nested dialect literal depth (.value v) t) (hr : Blank r) :
      Nested dialect literal depth (.members [(k, v)])
        (l ++ (kt ++ (m ++ ch ':' :: (n ++ (t ++ r)))))
  | members {depth : ℕ} {k : Str} {v : Value} {ms : List (Str × Value)}
      {l kt m n t r rest : Str} (hl : Blank l) (hk : literal k kt) (hm : Blank m) (hn : Blank n)
      (h : Nested dialect literal depth (.value v) t) (hr : Blank r)
      (hrest : Nested dialect literal depth (.members ms) rest) :
      Nested dialect literal depth (.members ((k, v) :: ms))
        (l ++ (kt ++ (m ++ ch ':' :: (n ++ (t ++ (r ++ ch ',' :: rest))))))

/-- A text with the limits of the nesting dropped. -/
lemma Nested.denotes {dialect dialect' : Dialect} {literal : Str → Str → Prop} {depth : ℕ}
    {node : Node} {t : Str} (hwords : ∀ w ∈ dialect.words, w ∈ dialect'.words)
    (hnumeral : ∀ n, dialect.numeral n → dialect'.numeral n)
    (hliteral : ∀ s t, literal s t → Literal s t)
    (h : Nested dialect literal depth node t) : Denotes dialect' node t := by
  induction h with
  | word h => exact .word (hwords _ h)
  | number h hn => exact .number h (hnumeral _ hn)
  | string h => exact .string (hliteral _ _ h)
  | emptyArray hb => exact .emptyArray hb
  | array _ ih => exact .array ih
  | emptyObject hb => exact .emptyObject hb
  | object _ ih => exact .object ih
  | element hl _ hr ih => exact .element hl ih hr
  | elements hl _ hr _ ih ihrest => exact .elements hl ih hr ihrest
  | member hl hk hm hn _ hr ih => exact .member hl (hliteral _ _ hk) hm hn ih hr
  | members hl hk hm hn _ hr _ ih ihrest =>
    exact .members hl (hliteral _ _ hk) hm hn ih hr ihrest

/-- A text within a bound is within every larger one. -/
lemma Nested.mono {dialect : Dialect} {literal : Str → Str → Prop} {depth : ℕ} {node : Node}
    {t : Str} (h : Nested dialect literal depth node t) {depth' : ℕ} (hle : depth ≤ depth') :
    Nested dialect literal depth' node t := by
  induction h generalizing depth' with
  | word h => exact .word h
  | number h hn => exact .number h hn
  | string h => exact .string h
  | emptyArray hb =>
    obtain ⟨k, rfl⟩ : ∃ k, depth' = k + 1 := ⟨depth' - 1, by omega⟩
    exact .emptyArray hb
  | array _ ih =>
    obtain ⟨k, rfl⟩ : ∃ k, depth' = k + 1 := ⟨depth' - 1, by omega⟩
    exact .array (ih (by omega))
  | emptyObject hb =>
    obtain ⟨k, rfl⟩ : ∃ k, depth' = k + 1 := ⟨depth' - 1, by omega⟩
    exact .emptyObject hb
  | object _ ih =>
    obtain ⟨k, rfl⟩ : ∃ k, depth' = k + 1 := ⟨depth' - 1, by omega⟩
    exact .object (ih (by omega))
  | element hl _ hr ih => exact .element hl (ih hle) hr
  | elements hl _ hr _ ih ihrest => exact .elements hl (ih hle) hr (ihrest hle)
  | member hl hk hm hn _ hr ih => exact .member hl hk hm hn (ih hle) hr
  | members hl hk hm hn _ hr _ ih ihrest => exact .members hl hk hm hn (ih hle) hr (ihrest hle)

/-- **The nesting only counts.** With the literals of the grammar and without a bound, what is
nested is what is denoted.

**Proof sketch.** Each derivation of the grammar has a depth, the largest of its parts and one more
for a container. -/
theorem nested_iff_denotes {dialect : Dialect} {node : Node} {t : Str} :
    (∃ depth, Nested dialect Literal depth node t) ↔ Denotes dialect node t := by
  constructor
  · rintro ⟨depth, h⟩
    exact h.denotes (fun _ hw => hw) (fun _ hn => hn) fun _ _ hs => hs
  · intro h
    induction h with
    | word h => exact ⟨0, .word h⟩
    | number h hn => exact ⟨0, .number h hn⟩
    | string h => exact ⟨0, .string h⟩
    | emptyArray hb => exact ⟨1, .emptyArray hb⟩
    | array _ ih =>
      obtain ⟨depth, hd⟩ := ih
      exact ⟨depth + 1, .array hd⟩
    | emptyObject hb => exact ⟨1, .emptyObject hb⟩
    | object _ ih =>
      obtain ⟨depth, hd⟩ := ih
      exact ⟨depth + 1, .object hd⟩
    | element hl _ hr ih =>
      obtain ⟨depth, hd⟩ := ih
      exact ⟨depth, .element hl hd hr⟩
    | elements hl _ hr _ ih ihrest =>
      obtain ⟨depth, hd⟩ := ih
      obtain ⟨depth', hd'⟩ := ihrest
      exact ⟨max depth depth', .elements hl (hd.mono (le_max_left _ _)) hr
        (hd'.mono (le_max_right _ _))⟩
    | member hl hk hm hn _ hr ih =>
      obtain ⟨depth, hd⟩ := ih
      exact ⟨depth, .member hl hk hm hn hd hr⟩
    | members hl hk hm hn _ hr _ ih ihrest =>
      obtain ⟨depth, hd⟩ := ih
      obtain ⟨depth', hd'⟩ := ihrest
      exact ⟨max depth depth', .members hl hk hm hn (hd.mono (le_max_left _ _)) hr
        (hd'.mono (le_max_right _ _))⟩

/-! ### Limits -/

/-- The value of a number is an integer or a finite float. -/
def Numeral.Finite (n : Numeral) : Prop := ∀ x, n.value = .float x → x.isFinite = true

/-- RFC 8259 without the numbers that are too large for a float. -/
def rfcFinite : Dialect := ⟨rfcWords, Numeral.Finite⟩

/-- A string literal, and the string that it denotes, in which every escaped surrogate is half of a
pair: when the pairs are joined, none is left. -/
def PairedLiteral (s t : Str) : Prop :=
  ∃ ts xs, List.Forall₂ CharText ts xs ∧ t = ch '"' :: (ts.flatten ++ [ch '"']) ∧
    s = (joinEscapes xs).map Prod.fst ∧ ∀ x ∈ joinEscapes xs, x.2 = true → x.1.isSurrogate = false

/-- A paired literal is a literal. -/
lemma PairedLiteral.literal {s t : Str} (h : PairedLiteral s t) : Literal s t := by
  obtain ⟨ts, xs, hchars, ht, hs, -⟩ := h
  exact ⟨ts, xs, hchars, ht, hs⟩

/-- A document that is nested no deeper than a bound, in which every escaped surrogate is half of a
pair and every number with a fraction or an exponent is finite. -/
def LimitedDocument (depth : ℕ) (v : Value) (s : Str) : Prop :=
  ∃ l t r, s = l ++ (t ++ r) ∧ Blank l ∧ Nested rfcFinite PairedLiteral depth (.value v) t ∧ Blank r

/-- Such a document is a document of RFC 8259, with the same value. -/
lemma LimitedDocument.document {depth : ℕ} {v : Value} {s : Str} (h : LimitedDocument depth v s) :
    Document rfc8259 v s := by
  obtain ⟨l, t, r, hs, hl, ht, hr⟩ := h
  have hdenotes : Denotes rfc8259 (.value v) t := by
    refine Nested.denotes ?_ ?_ ?_ ht
    · exact fun _ hw => hw
    · exact fun _ _ => trivial
    · exact fun _ _ hk => PairedLiteral.literal hk
  exact ⟨l, t, r, hs, hl, hdenotes, hr⟩

/-! ### Characters of a paired literal -/

/-- The text of one character in a paired literal: as it is, by an escape, or by the two escapes of
a surrogate pair. -/
inductive Glyph : Str → CodePoint → Prop
  | raw {t : Str} {c : CodePoint} (h : CharText t (c, false)) : Glyph t c
  | unit {t : Str} {c : CodePoint} (h : CharText t (c, true)) (hc : c.isSurrogate = false) :
      Glyph t c
  | pair {t t' : Str} {c d : CodePoint} (h : CharText t (c, true)) (h' : CharText t' (d, true))
      (hc : isHigh c = true) (hd : isLow d = true) : Glyph (t ++ t') (joinPair c d)

/-- The text of a string between its quotes. -/
inductive Glyphs : Str → Str → Prop
  | nil : Glyphs [] []
  | cons {t c ts s} (h : Glyph t c) (hs : Glyphs ts s) : Glyphs (t ++ ts) (c :: s)

/-- What is no escaped high surrogate is joined with nothing. -/
lemma joinEscapes_cons {c : CodePoint} {escaped : Bool} (h : escaped = true → isHigh c = false)
    (xs : List (CodePoint × Bool)) :
    joinEscapes ((c, escaped) :: xs) = (c, escaped) :: joinEscapes xs := by
  rw [joinEscapes]
  split
  · rename_i d t hjoin
    rw [hjoin, if_neg]
    rintro ⟨hescaped, hlow, hhigh, -⟩
    have hc := h hescaped
    simp only [isHigh, Bool.and_eq_false_iff, decide_eq_false_iff_not] at hc
    omega
  · rfl

/-- What is no escape is joined with nothing. -/
lemma joinEscapes_raw (c : CodePoint) (xs : List (CodePoint × Bool)) :
    joinEscapes ((c, false) :: xs) = (c, false) :: joinEscapes xs :=
  joinEscapes_cons (fun h => by cases h) xs

/-- A low surrogate is no high one. -/
lemma isHigh_of_isLow {d : CodePoint} (h : isLow d = true) : isHigh d = false := by
  simp only [isLow, Bool.and_eq_true, decide_eq_true_eq] at h
  simp only [isHigh, Bool.and_eq_false_iff, decide_eq_false_iff_not]
  omega

/-- An escaped pair is joined. -/
lemma joinEscapes_pair {c d : CodePoint} (hc : isHigh c = true) (hd : isLow d = true)
    (xs : List (CodePoint × Bool)) :
    joinEscapes ((c, true) :: (d, true) :: xs) = (joinPair c d, false) :: joinEscapes xs := by
  rw [joinEscapes, joinEscapes_cons fun _ => isHigh_of_isLow hd]
  simp only [isHigh, isLow, Bool.and_eq_true, decide_eq_true_eq] at hc hd
  exact if_pos ⟨rfl, hc.1, hc.2, hd.1, hd.2⟩

/-- A high surrogate that is not joined stays an escape. -/
lemma joinEscapes_lone {c : CodePoint} {xs : List (CodePoint × Bool)}
    (h : ∀ d ys, xs = (d, true) :: ys → isLow d = false) :
    joinEscapes ((c, true) :: xs) = (c, true) :: joinEscapes xs := by
  rw [joinEscapes]
  split
  · rename_i d t hjoin
    rw [hjoin, if_neg]
    rintro ⟨-, -, -, hlow, hhigh⟩
    have hd : isLow d = true := by
      simp only [isLow, Bool.and_eq_true, decide_eq_true_eq]
      exact ⟨hlow, hhigh⟩
    -- the low surrogate is the first of the rest itself, as nothing before it was joined
    cases xs with
    | nil => cases hjoin
    | cons x ys =>
      obtain ⟨e, escaped⟩ := x
      cases escaped with
      | false =>
        rw [joinEscapes_raw] at hjoin
        cases hjoin
      | true =>
        by_cases hhigh' : isHigh e = false
        · rw [joinEscapes_cons fun _ => hhigh'] at hjoin
          obtain ⟨rfl, -⟩ := Prod.mk.inj (List.cons.inj hjoin).1
          rw [h e ys rfl] at hd
          cases hd
        · rw [joinEscapes] at hjoin
          rw [Bool.not_eq_false] at hhigh'
          have hfst : ∀ {l : List (CodePoint × Bool)}, (e, true) :: l = (d, true) :: t → False := by
            intro l hl
            obtain ⟨rfl, -⟩ := Prod.mk.inj (List.cons.inj hl).1
            rw [isHigh_of_isLow hd] at hhigh'
            cases hhigh'
          split at hjoin
          · split_ifs at hjoin
            · exact absurd (Prod.mk.inj (List.cons.inj hjoin).1).2 (by decide)
            · exact hfst hjoin
          · exact hfst hjoin
  · rfl

/-- The characters of a text whose joined escapes are no surrogates.

**Proof sketch.** Strong induction on the number of characters: an escaped high surrogate is
followed by an escaped low one, or it would be left. -/
lemma glyphs_of_forall₂ {ts : List Str} {xs : List (CodePoint × Bool)}
    (h : List.Forall₂ CharText ts xs)
    (hpaired : ∀ x ∈ joinEscapes xs, x.2 = true → x.1.isSurrogate = false) :
    Glyphs ts.flatten ((joinEscapes xs).map Prod.fst) := by
  induction hn : xs.length using Nat.strong_induction_on generalizing ts xs with
  | _ n ih =>
    cases h with
    | nil => exact .nil
    | @cons t x ts xs htext hrest =>
      obtain ⟨c, escaped⟩ := x
      rw [List.flatten_cons]
      by_cases hplain : escaped = true → isHigh c = false
      · rw [joinEscapes_cons hplain, List.forall_mem_cons] at hpaired
        rw [joinEscapes_cons hplain, List.map_cons]
        refine .cons ?_ (ih xs.length (by rw [← hn]; exact Nat.lt_succ_self _) hrest hpaired.2 rfl)
        cases escaped with
        | false => exact .raw htext
        | true => exact .unit htext (hpaired.1 rfl)
      · obtain ⟨rfl, hhigh⟩ : escaped = true ∧ isHigh c = true := by
          simpa using hplain
        by_cases hpair : ∃ d ys, xs = (d, true) :: ys ∧ isLow d = true
        · obtain ⟨d, ys, rfl, hlow⟩ := hpair
          cases hrest with
          | @cons t' x' ts' xs' htext' hrest' =>
            rw [joinEscapes_pair hhigh hlow, List.forall_mem_cons] at hpaired
            rw [joinEscapes_pair hhigh hlow, List.map_cons, List.flatten_cons,
              ← List.append_assoc]
            exact .cons (.pair htext htext' hhigh hlow)
              (ih ys.length (by rw [List.length_cons, List.length_cons] at hn; omega) hrest'
                hpaired.2 rfl)
        · exfalso
          have hlone : ∀ d ys, xs = (d, true) :: ys → isLow d = false := by
            intro d ys hxs
            rw [← Bool.not_eq_true]
            exact fun hlow => hpair ⟨d, ys, hxs, hlow⟩
          rw [joinEscapes_lone hlone, List.forall_mem_cons] at hpaired
          have hnot := hpaired.1 rfl
          simp only [isHigh, Bool.and_eq_true, decide_eq_true_eq] at hhigh
          simp only [CodePoint.isSurrogate, Bool.and_eq_false_iff, decide_eq_false_iff_not] at hnot
          omega

/-- The escapes of a text that is written character by character. -/
lemma Glyphs.forall₂ {t s : Str} (h : Glyphs t s) : ∃ ts xs, List.Forall₂ CharText ts xs ∧
    t = ts.flatten ∧ s = (joinEscapes xs).map Prod.fst ∧
    ∀ x ∈ joinEscapes xs, x.2 = true → x.1.isSurrogate = false := by
  induction h with
  | nil => exact ⟨[], [], .nil, rfl, rfl, fun x hx => absurd hx List.not_mem_nil⟩
  | @cons t c ts s hglyph _ ih =>
    obtain ⟨ts, xs, htexts, rfl, rfl, hpaired⟩ := ih
    cases hglyph with
    | raw h =>
      have hjoin := joinEscapes_raw c xs
      refine ⟨t :: ts, (c, false) :: xs, .cons h htexts, rfl, by rw [hjoin]; rfl, ?_⟩
      rw [hjoin, List.forall_mem_cons]
      exact ⟨fun h => Bool.noConfusion h, hpaired⟩
    | unit h hc =>
      have hhigh : isHigh c = false := by
        simp only [CodePoint.isSurrogate, Bool.and_eq_false_iff, decide_eq_false_iff_not] at hc
        simp only [isHigh, Bool.and_eq_false_iff, decide_eq_false_iff_not]
        omega
      have hjoin : joinEscapes ((c, true) :: xs) = (c, true) :: joinEscapes xs :=
        joinEscapes_cons (fun _ => hhigh) xs
      refine ⟨t :: ts, (c, true) :: xs, .cons h htexts, rfl, by rw [hjoin]; rfl, ?_⟩
      rw [hjoin, List.forall_mem_cons]
      exact ⟨fun _ => hc, hpaired⟩
    | @pair t t' c d h h' hc hd =>
      have hjoin := joinEscapes_pair hc hd xs
      refine ⟨t :: t' :: ts, (c, true) :: (d, true) :: xs, .cons h (.cons h' htexts), ?_,
        by rw [hjoin]; rfl, ?_⟩
      · simp
      · rw [hjoin, List.forall_mem_cons]
        exact ⟨fun h => Bool.noConfusion h, hpaired⟩

/-- **A paired literal is written character by character.** -/
theorem pairedLiteral_iff {s t : Str} :
    PairedLiteral s t ↔ ∃ t', t = ch '"' :: (t' ++ [ch '"']) ∧ Glyphs t' s := by
  constructor
  · rintro ⟨ts, xs, htexts, rfl, rfl, hpaired⟩
    exact ⟨_, rfl, glyphs_of_forall₂ htexts hpaired⟩
  · rintro ⟨t', rfl, hglyphs⟩
    obtain ⟨ts, xs, htexts, rfl, hs, hpaired⟩ := hglyphs.forall₂
    exact ⟨ts, xs, htexts, rfl, hs, hpaired⟩

end Python.Json
