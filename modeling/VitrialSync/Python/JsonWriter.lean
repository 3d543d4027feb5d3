import VitrialSync.Python.NumberText

set_option relaxedAutoImplicit false
set_option autoImplicit false

/-!
# What the writer writes, the reader reads

`json.dumps` in a style of writing: the escapes, the order of the members and the space after a
separator. Every text that it writes is one of the grammar. The value that the text denotes has the
same scalars and its members in the order in which they were written; where the text is ASCII, a
high and a low surrogate that stand next to each other in a string are read back as one character.
So a value equals what is read back exactly when no string in it has such a pair.

## Main definitions

* `Python.Json.Style`, `Python.Json.write` — `json.dumps` in a style.
* `Python.Value.leaves`, `Python.Value.texts` — the scalars and the strings inside a value.
* `Python.Json.joinPairs`, `Python.Json.reread` — strings and values as they are read back.

## Main results

* `Python.Json.write_compact` — the two configurations of the service.
* `Python.Json.write_denotes` — a text of the grammar, of any dialect that writes the scalars.
* `Python.Json.parseDocument_write` — what is written is read back.
* `Python.Json.same_reread_iff` — when it equals the value that was written.
-/

namespace Python

/-! ### The parts of a value -/

namespace Value

mutual

/-- The scalars inside a value that are not strings. -/
def leaves : Value → List Value
  | str _ => []
  | list xs => leavesOfList xs
  | dict d => leavesOfItems d
  | v => [v]

/-- The scalars inside the elements of a list. -/
def leavesOfList : List Value → List Value
  | [] => []
  | x :: xs => leaves x ++ leavesOfList xs

/-- The scalars inside the values of a dictionary. -/
def leavesOfItems : List (Str × Value) → List Value
  | [] => []
  | (_, v) :: d => leaves v ++ leavesOfItems d

end

mutual

/-- The strings inside a value, keys included. -/
def texts : Value → List Str
  | str s => [s]
  | list xs => textsOfList xs
  | dict d => textsOfItems d
  | _ => []

/-- The strings inside the elements of a list. -/
def textsOfList : List Value → List Str
  | [] => []
  | x :: xs => texts x ++ textsOfList xs

/-- The strings inside the members of a dictionary. -/
def textsOfItems : List (Str × Value) → List Str
  | [] => []
  | (k, v) :: d => k :: (texts v ++ textsOfItems d)

end

/-- The scalars of a list. -/
lemma mem_leavesOfList {x : Value} {xs : List Value} :
    x ∈ leavesOfList xs ↔ ∃ v ∈ xs, x ∈ leaves v := by
  induction xs with
  | nil => simp [leavesOfList]
  | cons y xs ih => simp [leavesOfList, ih]

/-- The scalars of a dictionary. -/
lemma mem_leavesOfItems {x : Value} {d : Dict} :
    x ∈ leavesOfItems d ↔ ∃ e ∈ d, x ∈ leaves e.2 := by
  induction d with
  | nil => simp [leavesOfItems]
  | cons e d ih => simp [leavesOfItems, ih]

/-- The strings of a list. -/
lemma mem_textsOfList {s : Str} {xs : List Value} :
    s ∈ textsOfList xs ↔ ∃ v ∈ xs, s ∈ texts v := by
  induction xs with
  | nil => simp [textsOfList]
  | cons y xs ih => simp [textsOfList, ih]

/-- The strings of a dictionary. -/
lemma mem_textsOfItems {s : Str} {d : Dict} :
    s ∈ textsOfItems d ↔ ∃ e ∈ d, s = e.1 ∨ s ∈ texts e.2 := by
  induction d with
  | nil => simp [textsOfItems]
  | cons e d ih => simp [textsOfItems, ih, or_assoc]

end Value

namespace Json

/-! ### Surrogate pairs -/

/-- A high surrogate. -/
def isHigh (c : CodePoint) : Bool := 0xd800 ≤ c.val && c.val < 0xdc00

/-- A low surrogate. -/
def isLow (c : CodePoint) : Bool := 0xdc00 ≤ c.val && c.val < 0xe000

/-- A string with each high surrogate joined with a low one right after it. -/
def joinPairs : Str → Str
  | [] => []
  | c :: s =>
    match joinPairs s with
    | [] => [c]
    | d :: t => if isHigh c && isLow d then joinPair c d :: t else c :: d :: t

/-- No high surrogate stands right before a low one. -/
def NoPair (s : Str) : Prop := List.IsChain (fun c d => (isHigh c && isLow d) = false) s

/-- A joined pair lies beyond the basic plane. -/
lemma joinPair_val {c d : CodePoint} (hc : isHigh c = true) (hd : isLow d = true) :
    0x10000 ≤ (joinPair c d).val := by
  simp only [isHigh, isLow, Bool.and_eq_true, decide_eq_true_eq] at hc hd
  simp only [joinPair]
  omega

/-- A string without pairs stays. -/
lemma joinPairs_of_noPair {s : Str} (h : NoPair s) : joinPairs s = s := by
  induction s with
  | nil => rfl
  | cons c s ih =>
    rw [joinPairs, ih h.tail]
    cases s with
    | nil => rfl
    | cons d s =>
      have hpair : (isHigh c && isLow d) = false := (List.isChain_cons_cons.mp h).1
      simp [hpair]

/-- No pair is left. -/
lemma noPair_joinPairs (s : Str) : NoPair (joinPairs s) := by
  induction s with
  | nil => exact List.isChain_nil
  | cons c s ih =>
    rw [joinPairs]
    cases hs : joinPairs s with
    | nil => exact List.isChain_singleton _
    | cons d t =>
      rw [hs] at ih
      dsimp only
      by_cases hpair : (isHigh c && isLow d) = true
      · rw [if_pos hpair]
        rw [Bool.and_eq_true] at hpair
        have hval := joinPair_val hpair.1 hpair.2
        cases t with
        | nil => exact List.isChain_singleton _
        | cons e t =>
          refine List.isChain_cons_cons.mpr ⟨?_, (List.isChain_cons_cons.mp ih).2⟩
          rw [isHigh, Bool.and_eq_false_iff]
          left
          rw [Bool.and_eq_false_iff]
          right
          simp only [decide_eq_false_iff_not]
          omega
      · rw [if_neg hpair]
        exact List.isChain_cons_cons.mpr ⟨Bool.eq_false_iff.mpr hpair, ih⟩

/-- A string stays exactly when it has no pair. -/
lemma joinPairs_eq_iff (s : Str) : joinPairs s = s ↔ NoPair s :=
  ⟨fun h => h ▸ noPair_joinPairs s, joinPairs_of_noPair⟩

/-! ### Writing strings -/

/-- A hexadecimal digit is read back. -/
lemma hexValue?_hexDigit (n : ℕ) : hexValue? (hexDigit n) = some (n % 16) := by
  have hmod : hexDigit n = hexDigit (n % 16) := by
    unfold hexDigit
    simp only [Nat.mod_mod]
  have hdigits : ∀ k < 16, hexValue? (hexDigit k) = some k := by decide
  rw [hmod, hdigits _ (Nat.mod_lt _ (by decide))]

/-- An escape of a code unit is read back. -/
lemma charText_unitEscape {n : ℕ} (hn : n < 0x10000) :
    CharText (unitEscape n) (⟨n, by omega⟩, true) := by
  apply CharText.unit
  simp only [hex4?, hexValue?_hexDigit, Option.bind_eq_bind, Option.bind_some, codePoint?]
  have hsum : ((n / 4096 % 16 * 16 + n / 256 % 16) * 16 + n / 16 % 16) * 16 + n % 16 = n := by
    omega
  rw [hsum, dif_pos]

/-- The code units that a character is written as: the character itself, as an escape if the text is
ASCII and it is a surrogate, or in ASCII the two surrogates of a character beyond the basic
plane. -/
inductive Units (ascii : Bool) (c : CodePoint) : List (CodePoint × Bool) → Prop
  | one {escaped : Bool} (hascii : ascii = true → c.isSurrogate = true → escaped = true)
      (hraw : ascii = false → escaped = true → c.val < 0x20) : Units ascii c [(c, escaped)]
  | pair {h l : CodePoint} (hascii : ascii = true) (hh : isHigh h = true) (hl : isLow l = true)
      (hc : joinPair h l = c) : Units ascii c [(h, true), (l, true)]

/-- The text of a character is that of its code units. -/
lemma escapeChar_units (ascii : Bool) (c : CodePoint) : ∃ ts xs,
    List.Forall₂ CharText ts xs ∧ ts.flatten = escapeChar ascii c ∧ Units ascii c xs := by
  have hone : ∀ {t : Str} {escaped : Bool}, CharText t (c, escaped) → escapeChar ascii c = t →
      (ascii = true → c.isSurrogate = true → escaped = true) →
      (ascii = false → escaped = true → c.val < 0x20) →
      ∃ ts xs, List.Forall₂ CharText ts xs ∧ ts.flatten = escapeChar ascii c ∧
        Units ascii c xs := by
    intro t escaped htext heq hascii hraw
    exact ⟨[t], _, .cons htext .nil, by rw [heq]; simp, .one hascii hraw⟩
  have hsimple : ∀ {e : CodePoint}, simpleEscape? e = some c →
      escapeChar ascii c = [ch '\\', e] → c.isSurrogate = false →
      ∃ ts xs, List.Forall₂ CharText ts xs ∧ ts.flatten = escapeChar ascii c ∧
        Units ascii c xs := by
    intro e he heq hnot
    exact hone (.simple he) heq (fun _ h => by rw [hnot] at h; cases h) (fun _ h => by cases h)
  have hescape := escapeChar.eq_1 ascii c
  split_ifs at hescape with h₁ h₂ h₃ h₄ h₅ h₆ h₇ h₈ h₉ h₁₀
  · exact hsimple (by rw [h₁]; rfl) hescape (by rw [h₁]; rfl)
  · exact hsimple (by rw [h₂]; rfl) hescape (by rw [h₂]; rfl)
  · obtain rfl : c = 0xa := Fin.ext h₃
    exact hsimple rfl hescape rfl
  · obtain rfl : c = 0xd := Fin.ext h₄
    exact hsimple rfl hescape rfl
  · obtain rfl : c = 0x9 := Fin.ext h₅
    exact hsimple rfl hescape rfl
  · obtain rfl : c = 0xc := Fin.ext h₆
    exact hsimple rfl hescape rfl
  · obtain rfl : c = 0x8 := Fin.ext h₇
    exact hsimple rfl hescape rfl
  · exact hone (charText_unitEscape (by omega)) hescape (fun _ _ => rfl) (fun _ _ => h₈)
  · refine hone (charText_unitEscape h₁₀) hescape (fun _ _ => rfl) (fun hraw _ => ?_)
    rw [h₉.1] at hraw
    cases hraw
  · refine ⟨_, _, .cons (charText_unitEscape (n := 0xd800 + (c.val - 0x10000) / 0x400) ?_)
      (.cons (charText_unitEscape (n := 0xdc00 + (c.val - 0x10000) % 0x400) ?_) .nil), ?_,
      .pair h₉.1 ?_ ?_ ?_⟩
    · omega
    · omega
    · rw [hescape]
      simp
    · simp only [isHigh, Bool.and_eq_true, decide_eq_true_eq]
      omega
    · simp only [isLow, Bool.and_eq_true, decide_eq_true_eq]
      omega
    · apply Fin.ext
      simp only [joinPair]
      omega
  · refine hone (.plain ⟨by omega, h₁, h₂⟩) hescape (fun hascii hsurrogate => ?_)
      (fun _ h => by cases h)
    simp only [CodePoint.isSurrogate, Bool.and_eq_true, decide_eq_true_eq] at hsurrogate
    exact absurd ⟨hascii, by omega⟩ h₉

/-- Nothing is joined where no escape is a high surrogate. -/
lemma joinEscapes_of_raw {xs : List (CodePoint × Bool)}
    (h : ∀ x ∈ xs, x.2 = true → x.1.val < 0x20) : joinEscapes xs = xs := by
  induction xs with
  | nil => rfl
  | cons x xs ih =>
    obtain ⟨c, escaped⟩ := x
    rw [List.forall_mem_cons] at h
    rw [joinEscapes, ih h.2]
    split
    · rw [if_neg]
      rintro ⟨hescaped, hhigh, -⟩
      have := h.1 hescaped
      dsimp only at this
      omega
    · rfl

/-- The pairs of a text in ASCII are joined: every surrogate in it is an escape. -/
lemma joinEscapes_units {s : Str} {xss : List (List (CodePoint × Bool))}
    (h : List.Forall₂ (Units true) s xss) :
    (joinEscapes xss.flatten).map Prod.fst = joinPairs s ∧
      ∀ d escaped t, joinEscapes xss.flatten = (d, escaped) :: t → isLow d = true →
        escaped = true := by
  induction h with
  | nil => exact ⟨rfl, fun _ _ _ h => by cases h⟩
  | @cons c xs s xss hunits _ ih =>
    obtain ⟨hfst, hlow⟩ := ih
    rw [List.flatten_cons, joinPairs, ← hfst]
    cases hunits with
    | @one escaped hascii _ =>
      change (joinEscapes ((c, escaped) :: xss.flatten)).map Prod.fst = _ ∧
        ∀ d escaped' t, joinEscapes ((c, escaped) :: xss.flatten) = (d, escaped') :: t → _
      rw [joinEscapes]
      have hhigh : isHigh c = true → escaped = true := by
        intro hhigh
        apply hascii rfl
        simp only [isHigh, CodePoint.isSurrogate, Bool.and_eq_true, decide_eq_true_eq] at hhigh ⊢
        omega
      have hself : isLow c = true → escaped = true := by
        intro hself
        apply hascii rfl
        simp only [isLow, CodePoint.isSurrogate, Bool.and_eq_true, decide_eq_true_eq] at hself ⊢
        omega
      have hcons : ∀ rest : List (CodePoint × Bool), ∀ d escaped' t,
          (c, escaped) :: rest = (d, escaped') :: t → isLow d = true → escaped' = true := by
        intro rest d escaped' t heq hd
        obtain ⟨hhead, -⟩ := List.cons.inj heq
        obtain ⟨rfl, rfl⟩ := Prod.mk.inj hhead
        exact hself hd
      cases hrest : joinEscapes xss.flatten with
      | nil => exact ⟨rfl, hcons _⟩
      | cons x t =>
        obtain ⟨d, escaped'⟩ := x
        have hd := hlow d escaped' t hrest
        cases escaped' with
        | false =>
          have hnot : (isHigh c && isLow d) = false := by
            rw [Bool.and_eq_false_iff]
            right
            by_contra hne
            cases hd (by simpa using hne)
          refine ⟨?_, hcons _⟩
          simp [hnot]
        | true =>
          have hiff : (escaped = true ∧ 0xd800 ≤ c.val ∧ c.val < 0xdc00 ∧ 0xdc00 ≤ d.val ∧
              d.val < 0xe000) ↔ (isHigh c && isLow d) = true := by
            simp only [isHigh, isLow, Bool.and_eq_true, decide_eq_true_eq] at hhigh ⊢
            constructor
            · rintro ⟨-, h₁, h₂, h₃, h₄⟩
              exact ⟨⟨h₁, h₂⟩, h₃, h₄⟩
            · rintro ⟨⟨h₁, h₂⟩, h₃, h₄⟩
              exact ⟨hhigh ⟨h₁, h₂⟩, h₁, h₂, h₃, h₄⟩
          by_cases hpair : (isHigh c && isLow d) = true
          · simp only [hiff, hpair, ↓reduceIte, List.map_cons]
            refine ⟨trivial, fun d' escaped' t' heq hd' => ?_⟩
            obtain ⟨hhead, -⟩ := List.cons.inj heq
            obtain ⟨rfl, rfl⟩ := Prod.mk.inj hhead
            rw [Bool.and_eq_true] at hpair
            have hval := joinPair_val hpair.1 hpair.2
            simp only [isLow, Bool.and_eq_true, decide_eq_true_eq] at hd'
            omega
          · simp only [hiff, hpair, Bool.false_eq_true, ↓reduceIte, List.map_cons]
            exact ⟨trivial, hcons _⟩
    | @pair h l hascii hh hl hc =>
      have hl' : ¬ (0xd800 ≤ l.val ∧ l.val < 0xdc00) := by
        simp only [isLow, Bool.and_eq_true, decide_eq_true_eq] at hl
        omega
      have hval := joinPair_val hh hl
      have hinner : joinEscapes ((l, true) :: xss.flatten) =
          (l, true) :: joinEscapes xss.flatten := by
        rw [joinEscapes]
        split
        · rename_i d t hrest
          rw [if_neg (fun hand => hl' ⟨hand.2.1, hand.2.2.1⟩), hrest]
        · rfl
      have houter : joinEscapes ([(h, true), (l, true)] ++ xss.flatten) =
          (c, false) :: joinEscapes xss.flatten := by
        change joinEscapes ((h, true) :: (l, true) :: xss.flatten) = _
        rw [joinEscapes, hinner]
        simp only [isHigh, isLow, Bool.and_eq_true, decide_eq_true_eq] at hh hl
        simp only [hh, hl, and_self, ↓reduceIte, hc]
      have hnot : isHigh c = false := by
        rw [hc] at hval
        simp only [isHigh, Bool.and_eq_false_iff, decide_eq_false_iff_not]
        omega
      rw [houter]
      constructor
      · rw [List.map_cons]
        cases joinEscapes xss.flatten with
        | nil => rfl
        | cons x t => simp [hnot]
      · intro d escaped t heq hd
        obtain ⟨hhead, -⟩ := List.cons.inj heq
        obtain ⟨rfl, -⟩ := Prod.mk.inj hhead
        rw [hc] at hval
        simp only [isLow, Bool.and_eq_true, decide_eq_true_eq] at hd
        omega

/-- A string as it is read back: pairs of surrogates are joined where the text is ASCII. -/
def readString (ascii : Bool) (s : Str) : Str := if ascii then joinPairs s else s

/-- Outside ASCII every character is written as itself, and only controls as escapes. -/
lemma units_raw {s : Str} {xss : List (List (CodePoint × Bool))}
    (h : List.Forall₂ (Units false) s xss) :
    xss.flatten.map Prod.fst = s ∧ ∀ x ∈ xss.flatten, x.2 = true → x.1.val < 0x20 := by
  induction h with
  | nil => exact ⟨rfl, fun _ h => absurd h List.not_mem_nil⟩
  | cons hunits _ ih =>
    obtain ⟨hfst, hcontrol⟩ := ih
    cases hunits with
    | one _ hraw =>
      rw [List.flatten_cons, List.singleton_append]
      refine ⟨by rw [List.map_cons, hfst], ?_⟩
      rw [List.forall_mem_cons]
      exact ⟨hraw rfl, hcontrol⟩
    | pair hascii => cases hascii

/-- The text of a string is a literal of the string that is read back. -/
lemma literal_writeString (ascii : Bool) (s : Str) :
    Literal (readString ascii s) (writeString ascii s) := by
  have hparts : ∃ tss xss, List.Forall₂ (List.Forall₂ CharText) tss xss ∧
      tss.map List.flatten = s.map (escapeChar ascii) ∧ List.Forall₂ (Units ascii) s xss := by
    induction s with
    | nil => exact ⟨[], [], .nil, rfl, .nil⟩
    | cons c s ih =>
      obtain ⟨tss, xss, htexts, hflat, hunits⟩ := ih
      obtain ⟨ts, xs, htext, heq, hunit⟩ := escapeChar_units ascii c
      exact ⟨ts :: tss, xs :: xss, .cons htext htexts, by simp [heq, hflat], .cons hunit hunits⟩
  obtain ⟨tss, xss, htexts, hflat, hunits⟩ := hparts
  refine ⟨tss.flatten, xss.flatten, List.rel_flatten htexts, ?_, ?_⟩
  · rw [List.flatten_flatten, hflat, ← List.flatMap_def]
    rfl
  · cases ascii with
    | true => exact (joinEscapes_units hunits).1.symm
    | false =>
      obtain ⟨hfst, hcontrol⟩ := units_raw hunits
      rw [joinEscapes_of_raw hcontrol, hfst]
      rfl

/-! ### Styles of writing -/

/-- A blank is white space. -/
lemma blank_space : Blank [ch ' '] := by
  intro c hc
  rw [List.mem_singleton.mp hc]
  rfl

/-- How `json.dumps` writes: in ASCII or not, in the order of the keys or of the dictionary, and
with what white space after a separator. -/
structure Style where
  ascii : Bool
  sorted : Bool
  gap : Str
  gap_blank : Blank gap

namespace Style

/-- `json.dumps(v)`. -/
def plain : Style := ⟨true, false, [ch ' '], blank_space⟩

/-- `json.dumps(v, separators=(",", ":"), sort_keys=True, ensure_ascii=ascii)`. -/
def compact (ascii : Bool) : Style := ⟨ascii, true, [], blank_nil⟩

/-- The members in the order in which they are written. -/
def order {α : Type} (style : Style) (ms : List (Str × α)) : List (Str × α) :=
  if style.sorted then sortMembers ms else ms

/-- The order is one of the same members. -/
lemma order_perm {α : Type} (style : Style) (ms : List (Str × α)) : (style.order ms).Perm ms := by
  unfold order
  split
  · exact List.perm_insertionSort _ ms
  · exact List.Perm.refl ms

/-- The order depends on the keys only. -/
lemma order_map {α β : Type} (style : Style) (f : α → β) (ms : List (Str × α)) :
    style.order (ms.map fun m => (m.1, f m.2)) = (style.order ms).map fun m => (m.1, f m.2) := by
  unfold order
  split
  · symm
    apply List.map_insertionSort
    exact fun _ _ _ _ => Iff.rfl
  · rfl

end Style

/-- Texts with a comma and a gap between them. -/
def joinGap (gap : Str) : List Str → Str
  | [] => []
  | [t] => t
  | t :: ts => t ++ ch ',' :: (gap ++ joinGap gap ts)

mutual

/-- `json.dumps(v)` in a style. -/
def write (style : Style) : Value → Str
  | .none => Str.ofString "null"
  | .bool b => Str.ofString (if b then "true" else "false")
  | .int n => Str.ofInt n
  | .float x => writeFloat x
  | .str s => writeString style.ascii s
  | .list xs => ch '[' :: (joinGap style.gap (writeElements style xs) ++ [ch ']'])
  | .dict d =>
    let members := (style.order (writeMembers style d)).map fun m =>
      writeString style.ascii m.1 ++ ch ':' :: (style.gap ++ m.2)
    ch '{' :: (joinGap style.gap members ++ [ch '}'])

/-- The texts of the elements of a list. -/
def writeElements (style : Style) : List Value → List Str
  | [] => []
  | x :: xs => write style x :: writeElements style xs

/-- The keys of a dictionary with the texts of their values. -/
def writeMembers (style : Style) : List (Str × Value) → List (Str × Str)
  | [] => []
  | (k, v) :: d => (k, write style v) :: writeMembers style d

end

mutual

/-- The value that is read back from the text of a value. -/
def reread (style : Style) : Value → Value
  | .str s => .str (readString style.ascii s)
  | .list xs => .list (rereadElements style xs)
  | .dict d => .dict (build ((style.order (rereadMembers style d)).map fun m =>
      (readString style.ascii m.1, m.2)))
  | v => v

/-- The elements of a list as they are read back. -/
def rereadElements (style : Style) : List Value → List Value
  | [] => []
  | x :: xs => reread style x :: rereadElements style xs

/-- The values of a dictionary as they are read back, each with the key that is written. -/
def rereadMembers (style : Style) : List (Str × Value) → List (Str × Value)
  | [] => []
  | (k, v) :: d => (k, reread style v) :: rereadMembers style d

end

/-- The elements are written one by one. -/
lemma writeElements_eq (style : Style) (xs : List Value) :
    writeElements style xs = xs.map (write style) := by
  induction xs with
  | nil => rfl
  | cons x xs ih => rw [writeElements, ih, List.map_cons]

/-- The members are written one by one. -/
lemma writeMembers_eq (style : Style) (d : Dict) :
    writeMembers style d = d.map fun e => (e.1, write style e.2) := by
  induction d with
  | nil => rfl
  | cons e d ih => rw [writeMembers, ih, List.map_cons]

/-- The elements are read back one by one. -/
lemma rereadElements_eq (style : Style) (xs : List Value) :
    rereadElements style xs = xs.map (reread style) := by
  induction xs with
  | nil => rfl
  | cons x xs ih => rw [rereadElements, ih, List.map_cons]

/-- The members are read back one by one. -/
lemma rereadMembers_eq (style : Style) (d : Dict) :
    rereadMembers style d = d.map fun e => (e.1, reread style e.2) := by
  induction d with
  | nil => rfl
  | cons e d ih => rw [rereadMembers, ih, List.map_cons]

/-- The text of a list. -/
lemma write_list (style : Style) (xs : List Value) : write style (.list xs) =
    ch '[' :: (joinGap style.gap (xs.map (write style)) ++ [ch ']']) := by
  rw [write, writeElements_eq]

/-- The text of a member. -/
def writeMember (style : Style) (e : Str × Value) : Str :=
  writeString style.ascii e.1 ++ ch ':' :: (style.gap ++ write style e.2)

/-- The text of a dictionary. -/
lemma write_dict (style : Style) (d : Dict) : write style (.dict d) =
    ch '{' :: (joinGap style.gap ((style.order d).map (writeMember style)) ++ [ch '}']) := by
  rw [write, writeMembers_eq, Style.order_map, List.map_map]
  rfl

/-- A list that is read back. -/
lemma reread_list (style : Style) (xs : List Value) :
    reread style (.list xs) = .list (xs.map (reread style)) := by
  rw [reread, rereadElements_eq]

/-- The member that is read back. -/
def rereadMember (style : Style) (e : Str × Value) : Str × Value :=
  (readString style.ascii e.1, reread style e.2)

/-- A dictionary that is read back. -/
lemma reread_dict (style : Style) (d : Dict) :
    reread style (.dict d) = .dict (build ((style.order d).map (rereadMember style))) := by
  rw [reread, rereadMembers_eq, Style.order_map, List.map_map]
  rfl

/-- Induction over values: a container after what is inside. -/
lemma value_induction {P : Value → Prop} (none : P .none) (bool : ∀ b, P (.bool b))
    (int : ∀ n, P (.int n)) (float : ∀ x, P (.float x)) (str : ∀ s, P (.str s))
    (list : ∀ xs : List Value, (∀ x ∈ xs, P x) → P (.list xs))
    (dict : ∀ d : Dict, (∀ e ∈ d, P e.2) → P (.dict d)) (v : Value) : P v := by
  refine @Value.rec P (fun xs => ∀ x ∈ xs, P x) (fun d => ∀ e ∈ d, P e.2) (fun e => P e.2) none
    bool int float str list dict ?_ ?_ ?_ ?_ ?_ v
  · exact fun _ h => absurd h List.not_mem_nil
  · exact fun x xs hx hxs => List.forall_mem_cons.mpr ⟨hx, hxs⟩
  · exact fun _ h => absurd h List.not_mem_nil
  · exact fun e d he hd => List.forall_mem_cons.mpr ⟨he, hd⟩
  · exact fun _ _ h => h

/-- The compact styles sort the members. -/
lemma order_compact (ascii : Bool) (ms : List (Str × Str)) :
    (Style.compact ascii).order ms = sortMembers ms := if_pos rfl

/-- Without a gap the texts are separated by commas. -/
lemma joinGap_nil (ts : List Str) : joinGap [] ts = joinComma ts := by
  induction ts with
  | nil => rfl
  | cons t ts ih =>
    cases ts with
    | nil => rfl
    | cons u ts =>
      rw [joinGap, joinComma, ih]
      · rfl
      · simp
      · simp

mutual

/-- The compact styles are the configurations of the service. -/
theorem write_compact (ascii : Bool) : ∀ v, write (.compact ascii) v = dumps ascii v
  | .none => rfl
  | .bool _ => rfl
  | .int _ => rfl
  | .float _ => rfl
  | .str _ => rfl
  | .list xs => by
    rw [write, dumps, writeElements_compact ascii xs]
    exact congrArg (fun t => ch '[' :: (t ++ [ch ']'])) (joinGap_nil _)
  | .dict d => by
    rw [write, dumps, writeMembers_compact ascii d, order_compact]
    change ch '{' :: (joinGap [] ((sortMembers (dumpsMembers ascii d)).map fun m =>
      writeString ascii m.1 ++ ch ':' :: m.2) ++ [ch '}']) = _
    rw [joinGap_nil]

/-- The elements of a list in the compact styles. -/
lemma writeElements_compact (ascii : Bool) :
    ∀ xs, writeElements (.compact ascii) xs = dumpsElements ascii xs
  | [] => rfl
  | x :: xs => by
    rw [writeElements, dumpsElements, write_compact ascii x, writeElements_compact ascii xs]

/-- The members of a dictionary in the compact styles. -/
lemma writeMembers_compact (ascii : Bool) :
    ∀ d, writeMembers (.compact ascii) d = dumpsMembers ascii d
  | [] => rfl
  | (k, v) :: d => by
    rw [writeMembers, dumpsMembers, write_compact ascii v, writeMembers_compact ascii d]

end

/-! ### What a text denotes -/

/-- White space in front of the inside of a container. -/
lemma Denotes.elements_blank {dialect : Dialect} {xs : List Value} {b s : Str} (hb : Blank b)
    (h : Denotes dialect (.elements xs) s) : Denotes dialect (.elements xs) (b ++ s) := by
  cases h with
  | @element v l t r hl hv hr =>
    rw [← List.append_assoc]
    exact .element (List.forall_mem_append.mpr ⟨hb, hl⟩) hv hr
  | @elements v xs l t r rest hl hv hr hrest =>
    rw [← List.append_assoc]
    exact .elements (List.forall_mem_append.mpr ⟨hb, hl⟩) hv hr hrest

/-- White space in front of the inside of an object. -/
lemma Denotes.members_blank {dialect : Dialect} {ms : List (Str × Value)} {b s : Str}
    (hb : Blank b) (h : Denotes dialect (.members ms) s) :
    Denotes dialect (.members ms) (b ++ s) := by
  cases h with
  | @member k v l kt m n t r hl hk hm hn hv hr =>
    rw [← List.append_assoc]
    exact .member (List.forall_mem_append.mpr ⟨hb, hl⟩) hk hm hn hv hr
  | @members k v ms l kt m n t r rest hl hk hm hn hv hr hrest =>
    rw [← List.append_assoc]
    exact .members (List.forall_mem_append.mpr ⟨hb, hl⟩) hk hm hn hv hr hrest

/-- The elements of an array that is not empty. -/
lemma denotes_elements {dialect : Dialect} (style : Style) {x : Value} {xs : List Value}
    (h : ∀ y ∈ x :: xs, Denotes dialect (.value (reread style y)) (write style y)) :
    Denotes dialect (.elements ((x :: xs).map (reread style)))
      (joinGap style.gap ((x :: xs).map (write style))) := by
  induction xs generalizing x with
  | nil =>
    have hx := Denotes.element blank_nil (h x List.mem_cons_self) blank_nil
    rwa [List.append_nil, List.nil_append] at hx
  | cons y xs ih =>
    rw [List.forall_mem_cons] at h
    exact .elements blank_nil h.1 blank_nil ((ih h.2).elements_blank style.gap_blank)

/-- The members of an object that is not empty. -/
lemma denotes_members {dialect : Dialect} (style : Style) {e : Str × Value} {d : Dict}
    (h : ∀ m ∈ e :: d, Denotes dialect (.value (reread style m.2)) (write style m.2)) :
    Denotes dialect (.members ((e :: d).map (rereadMember style)))
      (joinGap style.gap ((e :: d).map (writeMember style))) := by
  induction d generalizing e with
  | nil =>
    have he := Denotes.member blank_nil (literal_writeString style.ascii e.1) blank_nil
      style.gap_blank (h e List.mem_cons_self) blank_nil
    rwa [List.append_nil, List.nil_append, List.nil_append] at he
  | cons m d ih =>
    rw [List.forall_mem_cons] at h
    have he := Denotes.members blank_nil (literal_writeString style.ascii e.1) blank_nil
      style.gap_blank h.1 blank_nil ((ih h.2).members_blank style.gap_blank)
    rw [List.nil_append, List.nil_append, List.nil_append] at he
    simpa only [List.map_cons, joinGap, writeMember, List.append_assoc, List.cons_append,
      rereadMember] using he

/-- **Completeness of the writer.** What is written is a text of every dialect that has the texts of
the scalars.

**Proof sketch.** Induction on the value. -/
theorem write_denotes {dialect : Dialect} (style : Style) (v : Value)
    (h : ∀ x ∈ v.leaves, Denotes dialect (.value x) (write style x)) :
    Denotes dialect (.value (reread style v)) (write style v) := by
  induction v using value_induction with
  | none => exact h _ List.mem_cons_self
  | bool b => exact h _ List.mem_cons_self
  | int n => exact h _ List.mem_cons_self
  | float x => exact h _ List.mem_cons_self
  | str s => exact .string (literal_writeString style.ascii s)
  | list xs ih =>
    rw [reread_list, write_list]
    simp only [Value.leaves, Value.mem_leavesOfList] at h
    cases xs with
    | nil => exact .emptyArray blank_nil
    | cons x xs => exact .array (denotes_elements style fun y hy =>
        ih y hy fun leaf hleaf => h leaf ⟨y, hy, hleaf⟩)
  | dict d ih =>
    rw [reread_dict, write_dict]
    simp only [Value.leaves, Value.mem_leavesOfItems] at h
    have horder := style.order_perm d
    cases hd : style.order d with
    | nil => exact .emptyObject blank_nil
    | cons e d' =>
      rw [hd] at horder
      exact .object (denotes_members style fun m hm =>
        ih m (horder.mem_iff.mp hm) fun leaf hleaf => h leaf ⟨m, horder.mem_iff.mp hm, hleaf⟩)

/-! ### Scalars -/

/-- Every float inside a value is a number. -/
def AllFinite (v : Value) : Prop := ∀ x, .float x ∈ v.leaves → x.isFinite = true

/-- Every integer inside a value has at most as many digits as `int()` reads. -/
def AllShort (v : Value) : Prop := ∀ n, .int n ∈ v.leaves → n.natAbs < 10 ^ maxIntDigits

/-- A leaf is no string and no container. -/
lemma leaf_cases {v x : Value} (h : x ∈ v.leaves) :
    x = .none ∨ (∃ b, x = .bool b) ∨ (∃ n, x = .int n) ∨ ∃ f, x = .float f := by
  induction v using value_induction with
  | none => exact Or.inl (List.mem_singleton.mp h)
  | bool b => exact Or.inr (Or.inl ⟨b, List.mem_singleton.mp h⟩)
  | int n => exact Or.inr (Or.inr (Or.inl ⟨n, List.mem_singleton.mp h⟩))
  | float f => exact Or.inr (Or.inr (Or.inr ⟨f, List.mem_singleton.mp h⟩))
  | str s => exact absurd h List.not_mem_nil
  | list xs ih =>
    rw [Value.leaves, Value.mem_leavesOfList] at h
    obtain ⟨y, hy, hx⟩ := h
    exact ih y hy hx
  | dict d ih =>
    rw [Value.leaves, Value.mem_leavesOfItems] at h
    obtain ⟨e, he, hx⟩ := h
    exact ih e he hx

/-- A value is written in every dialect with the words of RFC 8259 that has the texts of its
numbers. -/
lemma write_denotes_of {dialect : Dialect} (hwords : ∀ w ∈ rfcWords, w ∈ dialect.words)
    (style : Style) {v : Value}
    (hint : ∀ n, .int n ∈ v.leaves → dialect.numeral (intNumeral n))
    (hfloat : ∀ x, .float x ∈ v.leaves → Denotes dialect (.value (.float x)) (writeFloat x)) :
    Denotes dialect (.value (reread style v)) (write style v) := by
  apply write_denotes
  intro x hx
  rcases leaf_cases hx with rfl | ⟨b, rfl⟩ | ⟨n, rfl⟩ | ⟨f, rfl⟩
  · exact .word (hwords _ (by simp [rfcWords]))
  · rw [write]
    apply Denotes.word
    apply hwords
    cases b <;> simp [rfcWords]
  · obtain ⟨hformed, htext, hvalue⟩ := intNumeral_spec n
    rw [write, ← htext, ← hvalue]
    exact .number hformed (hint n hx)
  · exact hfloat f hx

/-- The text of a finite float. -/
lemma denotes_float {dialect : Dialect} (hnumeral : ∀ n, n.Short → dialect.numeral n)
    {x : Binary64} (hx : x.isFinite = true) :
    Denotes dialect (.value (.float x)) (writeFloat x) := by
  cases x with
  | nan => cases hx
  | inf neg => cases hx
  | finite neg m e h =>
    obtain ⟨n, hformed, hshort, htext, hvalue⟩ := writeFloat_denotes neg m e h
    rw [← htext, ← hvalue]
    exact .number hformed (hnumeral n hshort)

/-- A value with finite floats is written as RFC 8259 has it. -/
theorem write_rfc8259 (style : Style) {v : Value} (h : AllFinite v) :
    Denotes rfc8259 (.value (reread style v)) (write style v) :=
  write_denotes_of (fun _ h => h) style (fun _ _ => trivial)
    fun x hx => denotes_float (fun _ _ => trivial) (h x hx)

/-- What `json.dumps` writes is in the dialect of `json.loads`. -/
theorem write_cpython (style : Style) {v : Value} (h : AllShort v) :
    Denotes cpython (.value (reread style v)) (write style v) := by
  refine write_denotes_of (fun _ h => List.mem_append_left _ h) style
    (fun n hn => intNumeral_short (h n hn)) fun x _ => ?_
  cases x with
  | nan => exact .word (by simp [cpython])
  | inf neg =>
    rw [writeFloat]
    apply Denotes.word
    cases neg <;> simp [cpython]
  | finite neg m e h => exact denotes_float (fun _ h => h) rfl

/-- **Round trip.** What is written is read back. -/
theorem parseDocument_write (style : Style) {v : Value} (h : AllShort v) :
    parseDocument (write style v) = some (reread style v) :=
  parseDocument_of_document ⟨[], write style v, [], by simp, blank_nil, write_cpython style h,
    blank_nil⟩

/-! ### Members -/

/-- A new key goes last. -/
lemma set_of_notMem {d : Dict} {k : Str} (h : k ∉ Dict.keys d) (v : Value) :
    d.set k v = d ++ [(k, v)] := by
  unfold Dict.set
  induction d with
  | nil => rfl
  | cons e d ih =>
    unfold Dict.keys Program.keys at h ih
    rw [List.map_cons, List.mem_cons, not_or] at h
    have hne : (k == e.1) = false := by simpa using h.1
    rw [Program.assign, hne, if_neg (by decide), ih h.2, List.cons_append]

/-- The keys of members. -/
lemma mem_keys_build (ms : List (Str × Value)) (k : Str) :
    k ∈ Dict.keys (build ms) ↔ k ∈ Dict.keys ms := by
  have hfold : ∀ acc : Dict,
      k ∈ Dict.keys (ms.foldl (fun d m => Dict.set d m.1 m.2) acc) ↔
        k ∈ Dict.keys acc ∨ k ∈ Dict.keys ms := by
    induction ms with
    | nil => exact fun acc => ⟨Or.inl, fun h => h.resolve_right List.not_mem_nil⟩
    | cons m ms ih =>
      intro acc
      rw [List.foldl_cons, ih]
      unfold Dict.keys Dict.set Program.keys
      rw [List.map_cons, List.mem_cons]
      have hassign := Program.mem_keys_assign acc m.1 m.2 k
      unfold Program.keys at hassign
      rw [hassign]
      tauto
  exact (hfold []).trans ⟨fun h => h.resolve_left List.not_mem_nil, Or.inr⟩

/-- Members with different keys are the items of their dictionary. -/
lemma build_of_nodup {ms : List (Str × Value)} (h : (Dict.keys ms).Nodup) : build ms = ms := by
  have hfold : ∀ acc : Dict, (Dict.keys (acc ++ ms)).Nodup →
      ms.foldl (fun d m => Dict.set d m.1 m.2) acc = acc ++ ms := by
    clear h
    induction ms with
    | nil => exact fun acc _ => (List.append_nil acc).symm
    | cons m ms ih =>
      intro acc hacc
      have hnew : m.1 ∉ Dict.keys acc := by
        unfold Dict.keys Program.keys at hacc ⊢
        rw [List.map_append, List.map_cons, List.nodup_append] at hacc
        exact fun hmem => hacc.2.2 _ hmem _ List.mem_cons_self rfl
      rw [List.foldl_cons, set_of_notMem hnew, ih]
      · rw [List.append_assoc, List.singleton_append]
      · rwa [List.append_assoc, List.singleton_append]
  exact hfold [] h

/-- A member of a dictionary without repeated keys is found in its text order. -/
lemma lookup_order (style : Style) {d : Dict} (hd : (Dict.keys d).Nodup) {e : Str × Value}
    (he : e ∈ d) : ((style.order d).map fun e => (e.1, reread style e.2)).lookup e.1 =
      some (reread style e.2) := by
  have hperm := style.order_perm d
  apply Program.lookup_of_mem
  · unfold Program.keys
    rw [List.map_map]
    exact (hperm.map Prod.fst).nodup_iff.mpr hd
  · exact List.mem_map.mpr ⟨e, hperm.mem_iff.mpr he, rfl⟩

/-- The dictionary that is read back, where no key changes. -/
lemma reread_dict_of_keys (style : Style) {d : Dict} (hd : (Dict.keys d).Nodup)
    (hkeys : ∀ e ∈ d, readString style.ascii e.1 = e.1) : reread style (.dict d) =
      .dict ((style.order d).map fun e => (e.1, reread style e.2)) := by
  have hperm := style.order_perm d
  have hmembers : (style.order d).map (rereadMember style) =
      (style.order d).map fun e => (e.1, reread style e.2) := by
    apply List.map_congr_left
    intro e he
    rw [rereadMember, hkeys e (hperm.mem_iff.mp he)]
  rw [reread_dict, hmembers, build_of_nodup]
  unfold Dict.keys Program.keys
  rw [List.map_map]
  exact (hperm.map Prod.fst).nodup_iff.mpr hd

/-- What is read back stays as it is. -/
lemma readString_idem (ascii : Bool) (s : Str) :
    readString ascii (readString ascii s) = readString ascii s := by
  cases ascii with
  | false => rfl
  | true => exact joinPairs_of_noPair (noPair_joinPairs s)

/-- The elements of two lists of one origin. -/
lemma sameList_map_iff {f : Value → Value} {xs : List Value} :
    Value.sameList xs (xs.map f) = true ↔ ∀ x ∈ xs, Value.same x (f x) = true := by
  induction xs with
  | nil => simp [Value.sameList]
  | cons x xs ih => simp [Value.sameList, ih]

/-- **When a round trip gives the same value.** The value that is read back equals the one that was
written exactly when every string in it, and every key, is read back as itself.

**Proof sketch.** Induction on the value. Reading a string back twice changes no more than once, so
a dictionary whose keys are all among those read back has only keys that stay. -/
theorem same_reread_iff (style : Style) {v : Value} (h : v.WellFormed) :
    Value.same v (reread style v) = true ↔ ∀ s ∈ v.texts, readString style.ascii s = s := by
  induction v using value_induction with
  | none => simp [reread, Value.texts, Value.same, Value.scalar?]
  | bool b => simp [reread, Value.texts, Value.same, Value.scalar?]
  | int n => simp [reread, Value.texts, Value.same, Value.scalar?]
  | float x => simp [reread, Value.texts, Value.same, Value.scalar?]
  | str s =>
    rw [reread, Value.same_str_iff]
    simp only [Value.str.injEq, Value.texts, List.mem_singleton, forall_eq]
    exact eq_comm
  | list xs ih =>
    rw [Value.WellFormed, Value.wellFormedList_iff] at h
    rw [reread_list, Value.same, sameList_map_iff]
    simp only [Value.texts, Value.mem_textsOfList]
    constructor
    · rintro hsame s ⟨x, hx, hs⟩
      exact (ih x hx (h x hx)).mp (hsame x hx) s hs
    · intro htexts x hx
      exact (ih x hx (h x hx)).mpr fun s hs => htexts s ⟨x, hx, hs⟩
  | dict d ih =>
    rw [Value.WellFormed, Value.wellFormedItems_iff] at h
    obtain ⟨hnodup, hformed⟩ := h
    have hperm := style.order_perm d
    simp only [Value.texts, Value.mem_textsOfItems]
    constructor
    · intro hsame
      have hkeys : ∀ e ∈ d, readString style.ascii e.1 = e.1 := by
        intro e he
        rw [reread_dict, Value.same, Bool.and_eq_true, Value.sameItems_iff] at hsame
        obtain ⟨w, hlookup, -⟩ := hsame.2 e he
        have hmem := (mem_keys_build _ _).mp (Program.mem_keys_of_lookup hlookup)
        unfold Dict.keys Program.keys at hmem
        rw [List.map_map, List.mem_map] at hmem
        obtain ⟨e', -, heq⟩ := hmem
        rw [← heq]
        exact readString_idem style.ascii e'.1
      rw [reread_dict_of_keys style hnodup hkeys, Value.same, Bool.and_eq_true,
        Value.sameItems_iff] at hsame
      rintro s ⟨e, he, rfl | hs⟩
      · exact hkeys e he
      · obtain ⟨w, hlookup, hw⟩ := hsame.2 e he
        rw [lookup_order style hnodup he] at hlookup
        cases hlookup
        exact (ih e he (hformed e he)).mp hw s hs
    · intro htexts
      rw [reread_dict_of_keys style hnodup fun e he => htexts e.1 ⟨e, he, Or.inl rfl⟩, Value.same,
        Bool.and_eq_true, Value.sameItems_iff]
      constructor
      · rw [List.length_map, hperm.length_eq]
        exact beq_self_eq_true _
      · intro e he
        exact ⟨_, lookup_order style hnodup he, (ih e he (hformed e he)).mpr
          fun s hs => htexts s ⟨e, he, Or.inr hs⟩⟩

end Json

end Python
