import VitrialSync.Python.JsonTokens

set_option relaxedAutoImplicit false
set_option autoImplicit false

/-!
# JSON texts as bytes

What travels of a JSON text: its bytes in ASCII or UTF-8, and their base64 form. Base64 is decoded to
what was encoded; the bytes of an object in ASCII are detected as UTF-8 and read as the text. The
text without escapes, of the value that is read back from the text in ASCII, has in UTF-8 at most as
many bytes as the text in ASCII.

## Main definitions

* `Python.Json.Printable` — a character that stands for itself in ASCII.

## Main results

* `Python.b64decode?_b64encode` — base64 round trip.
* `Python.Json.loads_write_object` — the bytes of an object in ASCII are read back.
* `Python.Json.utf8Length_reread_le` — the text in UTF-8 is not longer than the one in ASCII.
-/

namespace Python

/-! ### Base64 -/

/-- A character of the alphabet is not the padding, and stands for its group. -/
lemma base64Char_spec {n : ℕ} (hn : n < 64) :
    base64Char n ≠ padByte ∧ base64Value? (base64Char n) = some n := by
  have hall : ∀ m < 64, base64Char m ≠ padByte ∧ base64Value? (base64Char m) = some m := by
    decide
  exact hall n hn

/-- A byte from its number. -/
lemma byte_eq {a : Byte} {n : ℕ} (h : n % 256 = a.val) : byte n = a := Fin.ext h

/-- The loop reads back what was encoded.

**Proof sketch.** Along the recursion of `b64encode`: a group of four characters is read as its three
bytes, and a last group of two or three with its padding as one or two. -/
lemma a2bLoop_b64encode (bs : Bytes) : a2bLoop (b64encode bs) 0 0 0 false = some bs := by
  induction bs using b64encode.induct with
  | case1 => rfl
  | case2 a =>
    have ha := a.isLt
    obtain ⟨hp₁, hv₁⟩ := base64Char_spec (show a.val / 4 < 64 by omega)
    obtain ⟨hp₂, hv₂⟩ := base64Char_spec (show a.val % 4 * 16 < 64 by omega)
    simp [b64encode, a2bLoop, hp₁, hv₁, hp₂, hv₂]
    exact byte_eq (by omega)
  | case3 a b =>
    have ha := a.isLt
    have hb := b.isLt
    obtain ⟨hp₁, hv₁⟩ := base64Char_spec (show a.val / 4 < 64 by omega)
    obtain ⟨hp₂, hv₂⟩ := base64Char_spec (show a.val % 4 * 16 + b.val / 16 < 64 by omega)
    obtain ⟨hp₃, hv₃⟩ := base64Char_spec (show b.val % 16 * 4 < 64 by omega)
    have hbyte : byte (a.val / 4 * 4 + (a.val % 4 * 16 + b.val / 16) / 16) = a :=
      byte_eq (by omega)
    simp [b64encode, a2bLoop, hp₁, hv₁, hp₂, hv₂, hp₃, hv₃, hbyte]
    exact byte_eq (by omega)
  | case4 a b c rest ih =>
    have ha := a.isLt
    have hb := b.isLt
    have hc := c.isLt
    obtain ⟨hp₁, hv₁⟩ := base64Char_spec (show a.val / 4 < 64 by omega)
    obtain ⟨hp₂, hv₂⟩ := base64Char_spec (show a.val % 4 * 16 + b.val / 16 < 64 by omega)
    obtain ⟨hp₃, hv₃⟩ := base64Char_spec (show b.val % 16 * 4 + c.val / 64 < 64 by omega)
    obtain ⟨hp₄, hv₄⟩ := base64Char_spec (show c.val % 64 < 64 by omega)
    have hbyte₁ : byte (a.val / 4 * 4 + (a.val % 4 * 16 + b.val / 16) / 16) = a :=
      byte_eq (by omega)
    simp [b64encode, a2bLoop, hp₁, hv₁, hp₂, hv₂, hp₃, hv₃, hp₄, hv₄, hbyte₁, ih]
    exact ⟨byte_eq (by omega), byte_eq (by omega)⟩

/-- **Base64 round trip.** -/
theorem b64decode?_b64encode (bs : Bytes) : b64decode? (b64encode bs) = some bs := by
  rw [b64decode?, if_neg, a2bLoop_b64encode]
  intro h
  have hfirst : ∀ a : Byte, base64Char (a.val / 4) ≠ padByte := fun a =>
    (base64Char_spec (show a.val / 4 < 64 by have := a.isLt; omega)).1
  cases bs using b64encode.fun_cases with
  | case1 => cases h
  | case2 a => exact hfirst a (Option.some.inj h)
  | case3 a b => exact hfirst a (Option.some.inj h)
  | case4 a b c rest => exact hfirst a (Option.some.inj h)

namespace Json

/-! ### ASCII -/

/-- A printable character of ASCII. -/
def Printable (c : CodePoint) : Prop := 0x20 ≤ c.val ∧ c.val ≤ 0x7e

instance (c : CodePoint) : Decidable (Printable c) := by unfold Printable; infer_instance

/-- A character of a number is printable. -/
lemma NumberChar.printable {c : CodePoint} (h : NumberChar c) : Printable c := by
  rcases h with h | rfl | rfl | rfl | rfl | rfl
  · unfold Printable
    omega
  all_goals decide

/-- A hexadecimal digit is printable. -/
lemma hexDigit_printable (n : ℕ) : Printable (hexDigit n) := by
  unfold hexDigit Printable
  split_ifs
  · simp only [digitChar]
    omega
  · dsimp only
    omega

/-- An escape of a code unit is printable. -/
lemma unitEscape_printable (n : ℕ) : ∀ c ∈ unitEscape n, Printable c := by
  simp only [unitEscape, List.forall_mem_cons]
  exact ⟨by decide, by decide, hexDigit_printable _, hexDigit_printable _, hexDigit_printable _,
    hexDigit_printable _, fun _ h => absurd h List.not_mem_nil⟩

/-- What a character is written as in ASCII is printable. -/
lemma escapeChar_printable (c : CodePoint) : ∀ d ∈ escapeChar true c, Printable d := by
  have htwo : ∀ e, Printable e → ∀ d ∈ [ch '\\', e], Printable d := by
    intro e he
    exact List.forall_mem_cons.mpr ⟨by decide, List.forall_mem_singleton.mpr he⟩
  have hescape := escapeChar.eq_1 true c
  split_ifs at hescape with h₁ h₂ h₃ h₄ h₅ h₆ h₇ h₈ h₉ h₁₀ <;> rw [hescape]
  · exact htwo _ (by decide)
  · exact htwo _ (by decide)
  · exact htwo _ (by decide)
  · exact htwo _ (by decide)
  · exact htwo _ (by decide)
  · exact htwo _ (by decide)
  · exact htwo _ (by decide)
  · exact unitEscape_printable _
  · exact unitEscape_printable _
  · exact List.forall_mem_append.mpr ⟨unitEscape_printable _, unitEscape_printable _⟩
  · intro d hd
    rw [List.mem_singleton.mp hd]
    simp only [true_and, not_lt] at h₉
    exact ⟨by omega, h₉⟩

/-- A string is written in ASCII with printable characters. -/
lemma writeString_printable (s : Str) : ∀ c ∈ writeString true s, Printable c := by
  have hbody : ∀ d ∈ s.flatMap (escapeChar true), Printable d := by
    intro d hd
    obtain ⟨c, -, hc⟩ := List.mem_flatMap.mp hd
    exact escapeChar_printable c d hc
  exact List.forall_mem_cons.mpr ⟨by decide,
    List.forall_mem_append.mpr ⟨hbody, List.forall_mem_singleton.mpr (by decide)⟩⟩

/-- The text of a scalar is printable. -/
lemma leaf_printable (style : Style) {v x : Value} (hx : x ∈ v.leaves) :
    ∀ c ∈ write style x, Printable c := by
  have hword : ∀ w : String, ((Str.ofString w).all fun c => decide (Printable c)) = true →
      ∀ c ∈ Str.ofString w, Printable c := by
    intro w hw c hc
    exact of_decide_eq_true (List.all_eq_true.mp hw c hc)
  rcases leaf_cases hx with rfl | ⟨b, rfl⟩ | ⟨n, rfl⟩ | ⟨f, rfl⟩
  · exact hword "null" (by decide)
  · cases b with
    | true => exact hword "true" (by decide)
    | false => exact hword "false" (by decide)
  · obtain ⟨hformed, htext, -⟩ := intNumeral_spec n
    rw [write, ← htext]
    exact fun c hc => (numeral_chars hformed c hc).printable
  · cases f with
    | nan => exact hword "NaN" (by decide)
    | inf neg =>
      cases neg with
      | true => exact hword "-Infinity" (by decide)
      | false => exact hword "Infinity" (by decide)
    | finite neg m e h =>
      obtain ⟨n, hformed, -, htext, -⟩ := writeFloat_denotes neg m e h
      rw [write, ← htext]
      exact fun c hc => (numeral_chars hformed c hc).printable

/-- The characters of texts with a comma and a gap between them. -/
lemma joinGap_chars {P : CodePoint → Prop} {gap : Str} (hcomma : P (ch ','))
    (hgap : ∀ c ∈ gap, P c) {ts : List Str} (h : ∀ t ∈ ts, ∀ c ∈ t, P c) :
    ∀ c ∈ joinGap gap ts, P c := by
  induction ts with
  | nil => exact fun _ h => absurd h List.not_mem_nil
  | cons t ts ih =>
    rw [List.forall_mem_cons] at h
    cases ts with
    | nil => exact h.1
    | cons u ts =>
      rw [joinGap]
      · exact List.forall_mem_append.mpr ⟨h.1,
          List.forall_mem_cons.mpr ⟨hcomma, List.forall_mem_append.mpr ⟨hgap, ih h.2⟩⟩⟩
      · simp

/-- What holds of the characters of a text, where it holds of the printable ones and of those of the
strings.

**Proof sketch.** Induction on the value. -/
lemma write_chars {P : CodePoint → Prop} (hP : ∀ c, Printable c → P c) (style : Style) {v : Value}
    (hstrings : ∀ s ∈ v.texts, ∀ c ∈ writeString style.ascii s, P c)
    (hgap : ∀ c ∈ style.gap, P c) : ∀ c ∈ write style v, P c := by
  have hmark : ∀ {c}, Printable c → P c := fun hc => hP _ hc
  induction v using value_induction with
  | none => exact fun c hc => hP c (leaf_printable (v := .none) style List.mem_cons_self c hc)
  | bool b => exact fun c hc => hP c (leaf_printable (v := .bool b) style List.mem_cons_self c hc)
  | int n => exact fun c hc => hP c (leaf_printable (v := .int n) style List.mem_cons_self c hc)
  | float x => exact fun c hc => hP c (leaf_printable (v := .float x) style List.mem_cons_self c hc)
  | str s => exact hstrings s List.mem_cons_self
  | list xs ih =>
    simp only [Value.texts, Value.mem_textsOfList] at hstrings
    rw [write_list]
    refine List.forall_mem_cons.mpr ⟨hmark (by decide), List.forall_mem_append.mpr
      ⟨joinGap_chars (hmark (by decide)) hgap (List.forall_mem_map.mpr fun x hx => ?_),
        List.forall_mem_singleton.mpr (hmark (by decide))⟩⟩
    exact ih x hx fun s hs => hstrings s ⟨x, hx, hs⟩
  | dict d ih =>
    simp only [Value.texts, Value.mem_textsOfItems] at hstrings
    rw [write_dict]
    refine List.forall_mem_cons.mpr ⟨hmark (by decide), List.forall_mem_append.mpr
      ⟨joinGap_chars (hmark (by decide)) hgap (List.forall_mem_map.mpr fun e he => ?_),
        List.forall_mem_singleton.mpr (hmark (by decide))⟩⟩
    have hmem := (style.order_perm d).mem_iff.mp he
    exact List.forall_mem_append.mpr ⟨hstrings e.1 ⟨e, hmem, Or.inl rfl⟩,
      List.forall_mem_cons.mpr ⟨hmark (by decide), List.forall_mem_append.mpr
        ⟨hgap, ih e hmem fun s hs => hstrings s ⟨e, hmem, Or.inr hs⟩⟩⟩⟩

/-- The compact text in ASCII is printable. -/
lemma write_printable (v : Value) : ∀ c ∈ write (.compact true) v, Printable c :=
  write_chars (fun _ h => h) _ (fun s _ => writeString_printable s)
    fun _ h => absurd h List.not_mem_nil

/-- The bytes of an object in ASCII are detected as UTF-8. -/
lemma decodeDetected?_object {c : CodePoint} {s : Str}
    (h : ∀ d ∈ ch '{' :: c :: s, d.val < 0x80) (hc : c.val ≠ 0) :
    decodeDetected? ((ch '{' :: c :: s).map fun d => byte d.val) = some (ch '{' :: c :: s) := by
  have hsecond : byte c.val ≠ 0 := by
    intro heq
    have hlt : c.val < 0x80 := h c (List.mem_cons_of_mem _ List.mem_cons_self)
    have hval : (byte c.val).val = c.val := Nat.mod_eq_of_lt (by omega)
    rw [heq] at hval
    exact hc hval.symm
  have hdecode := decodeUtf8?_ascii _ h
  have hfirst : byte (ch '{').val = 0x7b := by decide
  have hne : (0x7b : Byte) ≠ 0 ∧ (0x7b : Byte) ≠ 0xff ∧ (0x7b : Byte) ≠ 0xfe ∧
      (0x7b : Byte) ≠ 0xef := by decide
  rw [← hdecode]
  match s with
  | [] =>
    simp only [List.map_cons, List.map_nil, hfirst]
    simp [decodeDetected?, List.isPrefixOf, hsecond]
  | [d] =>
    simp only [List.map_cons, List.map_nil, hfirst]
    simp [decodeDetected?, List.isPrefixOf]
  | d :: e :: t =>
    simp only [List.map_cons, hfirst]
    simp [decodeDetected?, List.isPrefixOf, hsecond]

/-- **Round trip of an object.** The bytes of its compact text in ASCII are read back. -/
theorem loads_write_object {d : Dict} (hshort : AllShort (.dict d)) :
    loads ((write (.compact true) (.dict d)).map fun c => byte c.val) =
      some (reread (.compact true) (.dict d)) := by
  have hprintable := write_printable (.dict d)
  have hparse := parseDocument_write (.compact true) hshort
  obtain ⟨c, s, htext⟩ : ∃ c s, write (.compact true) (.dict d) = ch '{' :: c :: s := by
    rw [write_dict]
    cases joinGap (Style.compact true).gap
        (((Style.compact true).order d).map (writeMember (.compact true))) with
    | nil => exact ⟨_, _, rfl⟩
    | cons c s => exact ⟨_, _, rfl⟩
  rw [htext] at hprintable hparse ⊢
  have hsecond := hprintable c (List.mem_cons_of_mem _ List.mem_cons_self)
  rw [loads, decodeDetected?_object (fun d hd => Nat.lt_succ_of_le
    ((hprintable d hd).2.trans (by decide))) (by have := hsecond.1; omega), Option.bind_some, hparse]

/-! ### UTF-8 -/

/-- A string is written outside ASCII with printable characters and its own. -/
lemma mem_writeString_raw {s : Str} {c : CodePoint} (h : c ∈ writeString false s) :
    Printable c ∨ c ∈ s := by
  have hchar : ∀ e, ∀ d ∈ escapeChar false e, Printable d ∨ d = e := by
    have htwo : ∀ e e', Printable e → ∀ d ∈ [ch '\\', e], Printable d ∨ d = e' := by
      intro e e' he
      exact List.forall_mem_cons.mpr
        ⟨Or.inl (by decide), List.forall_mem_singleton.mpr (Or.inl he)⟩
    intro e
    have hescape := escapeChar.eq_1 false e
    simp only [Bool.false_eq_true, false_and, ↓reduceIte] at hescape
    split_ifs at hescape <;> rw [hescape]
    · exact htwo _ e (by decide)
    · exact htwo _ e (by decide)
    · exact htwo _ e (by decide)
    · exact htwo _ e (by decide)
    · exact htwo _ e (by decide)
    · exact htwo _ e (by decide)
    · exact htwo _ e (by decide)
    · exact fun d hd => Or.inl (unitEscape_printable _ d hd)
    · exact fun d hd => Or.inr (List.mem_singleton.mp hd)
  rw [writeString, List.mem_cons, List.mem_append, List.mem_flatMap, List.mem_singleton] at h
  rcases h with rfl | ⟨e, he, hc⟩ | rfl
  · exact Or.inl (by decide)
  · rcases hchar e c hc with hc | rfl
    · exact Or.inl hc
    · exact Or.inr he
  · exact Or.inl (by decide)

/-- A value without surrogates has a text in UTF-8. -/
lemma encodeUtf8?_write {v : Value} (h : ∀ s ∈ v.texts, s.any CodePoint.isSurrogate = false) :
    encodeUtf8? (write (.compact false) v) = some ((write (.compact false) v).flatMap utf8) := by
  have hchars : ∀ c ∈ write (.compact false) v, c.isSurrogate = false := by
    have hprintable : ∀ c, Printable c → c.isSurrogate = false := by
      intro c hc
      simp only [CodePoint.isSurrogate, Bool.and_eq_false_iff, decide_eq_false_iff_not]
      exact Or.inl (by have := hc.2; omega)
    refine write_chars hprintable _ (fun s hs c hc => ?_) fun _ h => absurd h List.not_mem_nil
    rcases mem_writeString_raw hc with hc | hc
    · exact hprintable c hc
    · exact Bool.eq_false_iff.mpr (List.any_eq_false.mp (h s hs) c hc)
  rw [encodeUtf8?, if_neg]
  rw [Bool.not_eq_true, List.any_eq_false]
  exact fun c hc => Bool.eq_false_iff.mp (hchars c hc)

/-- A character has outside ASCII at most as many bytes as characters in ASCII. -/
lemma utf8Length_escapeChar_raw_le (c : CodePoint) :
    utf8Length (escapeChar false c) ≤ (escapeChar true c).length := by
  have htwo : ∀ e : CodePoint, e.val < 0x80 → utf8Length [ch '\\', e] = 2 := by
    intro e he
    rw [utf8Length_ascii]
    · rfl
    · exact List.forall_mem_cons.mpr ⟨by decide, List.forall_mem_singleton.mpr he⟩
  have hunit : ∀ n, utf8Length (unitEscape n) = 6 := by
    intro n
    rw [utf8Length_ascii fun c hc =>
      Nat.lt_succ_of_le ((unitEscape_printable n c hc).2.trans (by decide))]
    rfl
  have hraw := escapeChar.eq_1 false c
  have hascii := escapeChar.eq_1 true c
  simp only [Bool.false_eq_true, false_and, true_and, ↓reduceIte] at hraw hascii
  split_ifs at hraw hascii with h₁ h₂ h₃ h₄ h₅ h₆ h₇ h₈ h₉ h₁₀ <;> rw [hraw, hascii]
  · exact (htwo _ (by decide)).le
  · exact (htwo _ (by decide)).le
  · exact (htwo _ (by decide)).le
  · exact (htwo _ (by decide)).le
  · exact (htwo _ (by decide)).le
  · exact (htwo _ (by decide)).le
  · exact (htwo _ (by decide)).le
  · exact (hunit _).le
  · have := length_utf8_le c
    simpa [unitEscape] using this.trans (by decide)
  · have := length_utf8_le c
    simpa [unitEscape] using this.trans (by decide)
  · simp [length_utf8_ascii (show c.val < 0x80 by omega)]

/-- A surrogate has three bytes, and its escape six characters. -/
lemma length_escapeChar_surrogate {c : CodePoint} (h : 0xd800 ≤ c.val ∧ c.val < 0xe000) :
    (escapeChar true c).length = 6 ∧ utf8Length (escapeChar false c) = 3 := by
  have hquote : c ≠ ch '"' := by
    rintro rfl
    revert h
    decide
  have hslash : c ≠ ch '\\' := by
    rintro rfl
    revert h
    decide
  constructor
  · rw [escapeChar.eq_1]
    simp only [hquote, hslash, ↓reduceIte, true_and]
    rw [if_neg (by omega), if_neg (by omega), if_neg (by omega), if_neg (by omega),
      if_neg (by omega), if_neg (by omega), if_pos (by omega), if_pos (by omega)]
    rfl
  · rw [escapeChar.eq_1]
    simp only [hquote, hslash, ↓reduceIte, Bool.false_eq_true, false_and]
    rw [if_neg (by omega), if_neg (by omega), if_neg (by omega), if_neg (by omega),
      if_neg (by omega), if_neg (by omega), utf8Length_cons, utf8Length_nil]
    simp only [utf8]
    rw [if_neg (by omega), if_neg (by omega), if_pos (by omega)]
    rfl

/-- A character beyond the basic plane has four bytes at most. -/
lemma utf8Length_escapeChar_beyond {c : CodePoint} (h : 0x10000 ≤ c.val) :
    utf8Length (escapeChar false c) ≤ 4 := by
  have hraw : escapeChar false c = [c] := by
    have hquote : c ≠ ch '"' := by
      rintro rfl
      revert h
      decide
    have hslash : c ≠ ch '\\' := by
      rintro rfl
      revert h
      decide
    rw [escapeChar.eq_1]
    simp only [hquote, hslash, ↓reduceIte, Bool.false_eq_true, false_and]
    rw [if_neg (by omega), if_neg (by omega), if_neg (by omega), if_neg (by omega),
      if_neg (by omega), if_neg (by omega)]
  rw [hraw, utf8Length_cons, utf8Length_nil]
  exact length_utf8_le c

/-- A string that is read back from ASCII has at most as many bytes as characters in ASCII.

**Proof sketch.** Character by character; a pair has four bytes when it is joined and six characters
more than its second part. -/
lemma utf8Length_joinPairs_le (s : Str) :
    utf8Length ((joinPairs s).flatMap (escapeChar false)) ≤
      (s.flatMap (escapeChar true)).length := by
  induction s with
  | nil => simp [joinPairs]
  | cons c s ih =>
    have hc := utf8Length_escapeChar_raw_le c
    rw [joinPairs, List.flatMap_cons, List.length_append]
    cases hs : joinPairs s with
    | nil =>
      rw [List.flatMap_cons, List.flatMap_nil, List.append_nil]
      omega
    | cons d t =>
      rw [hs, List.flatMap_cons, utf8Length_append] at ih
      dsimp only
      split_ifs with hpair
      · simp only [Bool.and_eq_true, isHigh, isLow, decide_eq_true_eq] at hpair
        have hhigh := length_escapeChar_surrogate (c := c) (by omega)
        have hlow := length_escapeChar_surrogate (c := d) (by omega)
        have hjoined : utf8Length (escapeChar false (joinPair c d)) ≤ 4 := by
          apply utf8Length_escapeChar_beyond
          simp only [joinPair]
          omega
        rw [List.flatMap_cons, utf8Length_append]
        omega
      · rw [List.flatMap_cons, utf8Length_append, List.flatMap_cons, utf8Length_append]
        omega

/-- So has its literal. -/
lemma utf8Length_writeString_raw_le (s : Str) :
    utf8Length (writeString false (joinPairs s)) ≤ (writeString true s).length := by
  have hbody := utf8Length_joinPairs_le s
  have hquote : (utf8 (ch '"')).length = 1 := by decide
  simp only [writeString, utf8Length_cons, utf8Length_append, hquote, utf8Length_nil,
    List.length_cons, List.length_append, List.length_nil]
  omega

/-- The length of texts with commas between them, under any measure that adds up. -/
lemma measure_joinGap {α : Type} {f : Str → ℕ} (hnil : f [] = 0)
    (happend : ∀ s t, f (s ++ t) = f s + f t) (hcomma : f [ch ','] = 1) (g : α → Str)
    (xs : List α) : f (joinGap [] (xs.map g)) = (xs.map fun x => f (g x) + 1).sum - 1 := by
  induction xs with
  | nil => simpa [joinGap] using hnil
  | cons x xs ih =>
    cases xs with
    | nil => simp [joinGap]
    | cons y xs =>
      rw [List.map_cons, List.map_cons, joinGap]
      · rw [List.map_cons] at ih
        rw [happend, ← List.singleton_append, happend, List.nil_append, hcomma, ih]
        simp only [List.map_cons, List.sum_cons]
        omega
      · simp

/-- A dictionary of members weighs at most as much as the members. -/
lemma weight_build_le (f : Str × Value → ℕ) (ms : List (Str × Value)) :
    ((build ms).map f).sum ≤ (ms.map f).sum := by
  have hassign : ∀ (d : Dict) k v, ((d.set k v).map f).sum ≤ (d.map f).sum + f (k, v) := by
    intro d k v
    unfold Dict.set
    induction d with
    | nil => simp [Program.assign]
    | cons e d ih =>
      obtain ⟨k', v'⟩ := e
      rw [Program.assign]
      split_ifs
      · simp only [List.map_cons, List.sum_cons]
        omega
      · simp only [List.map_cons, List.sum_cons]
        omega
  have hfold : ∀ acc : Dict, ((ms.foldl (fun d m => Dict.set d m.1 m.2) acc).map f).sum ≤
      (acc.map f).sum + (ms.map f).sum := by
    induction ms with
    | nil => intro acc; simp
    | cons m ms ih =>
      intro acc
      obtain ⟨k, v⟩ := m
      have hm := hassign acc k v
      have hms := ih (acc.set k v)
      simp only [List.foldl_cons, List.map_cons, List.sum_cons]
      omega
  simpa [build] using hfold []

/-- **Sizes.** The text in UTF-8 of the value that is read back from the text in ASCII has at most as
many bytes as the text in ASCII.

**Proof sketch.** Induction on the value. A member that another one replaces makes the text
shorter. -/
theorem utf8Length_reread_le (v : Value) :
    utf8Length (write (.compact false) (reread (.compact true) v)) ≤
      (write (.compact true) v).length := by
  have hleaf : ∀ x : Value, x ∈ x.leaves → reread (.compact true) x = x →
      write (.compact false) x = write (.compact true) x →
      utf8Length (write (.compact false) (reread (.compact true) x)) ≤
        (write (.compact true) x).length := by
    intro x hx hreread hwrite
    rw [hreread, hwrite, utf8Length_ascii fun c hc =>
      Nat.lt_succ_of_le ((leaf_printable _ hx c hc).2.trans (by decide))]
  have hcomma : utf8Length [ch ','] = 1 := by decide
  have hmark : ∀ {c : CodePoint}, Printable c → (utf8 c).length = 1 :=
    fun hc => length_utf8_ascii (Nat.lt_succ_of_le (hc.2.trans (by decide)))
  induction v using value_induction with
  | none => exact hleaf _ List.mem_cons_self rfl rfl
  | bool b => exact hleaf _ List.mem_cons_self rfl rfl
  | int n => exact hleaf _ List.mem_cons_self rfl rfl
  | float x => exact hleaf _ List.mem_cons_self rfl rfl
  | str s => exact utf8Length_writeString_raw_le s
  | list xs ih =>
    have hsum : ((xs.map (reread (.compact true))).map
          fun x => utf8Length (write (.compact false) x) + 1).sum ≤
        (xs.map fun x => (write (.compact true) x).length + 1).sum := by
      rw [List.map_map]
      exact List.sum_le_sum fun x hx => Nat.add_le_add_right (ih x hx) 1
    rw [reread_list, write_list, write_list, utf8Length_cons, utf8Length_append, utf8Length_cons,
      utf8Length_nil, hmark (by decide), hmark (by decide), List.length_cons, List.length_append,
      List.length_singleton]
    have hraw := measure_joinGap utf8Length_nil utf8Length_append hcomma (write (.compact false))
      (xs.map (reread (.compact true)))
    have hascii := measure_joinGap (f := List.length) rfl (fun _ _ => List.length_append) rfl
      (write (.compact true)) xs
    change 1 + (utf8Length (joinGap [] _) + (1 + 0)) ≤ (joinGap [] _).length + 1 + 1
    rw [hraw, hascii]
    omega
  | dict d ih =>
    have hperm := (Style.compact true).order_perm d
    have hperm' := (Style.compact false).order_perm
      (build (((Style.compact true).order d).map (rereadMember (.compact true))))
    have hmember : ∀ e ∈ d, utf8Length (writeMember (.compact false)
        (rereadMember (.compact true) e)) ≤ (writeMember (.compact true) e).length := by
      intro e he
      have hkey := utf8Length_writeString_raw_le e.1
      have hvalue := ih e he
      have hcolon : (utf8 (ch ':')).length = 1 := hmark (by decide)
      change utf8Length (writeString false (joinPairs e.1) ++ ch ':' :: ([] ++
        write (.compact false) (reread (.compact true) e.2))) ≤
          (writeString true e.1 ++ ch ':' :: ([] ++ write (.compact true) e.2)).length
      rw [utf8Length_append, utf8Length_cons, hcolon, List.nil_append, List.nil_append,
        List.length_append, List.length_cons]
      omega
    have hsum : (((Style.compact false).order (build (((Style.compact true).order d).map
          (rereadMember (.compact true))))).map
          fun m => utf8Length (writeMember (.compact false) m) + 1).sum ≤
        (((Style.compact true).order d).map
          fun e => (writeMember (.compact true) e).length + 1).sum := by
      rw [(hperm'.map _).sum_eq]
      refine (weight_build_le _ _).trans ?_
      rw [List.map_map]
      exact List.sum_le_sum fun e he =>
        Nat.add_le_add_right (hmember e (hperm.mem_iff.mp he)) 1
    rw [reread_dict, write_dict, write_dict, utf8Length_cons, utf8Length_append, utf8Length_cons,
      utf8Length_nil, hmark (by decide), hmark (by decide), List.length_cons, List.length_append,
      List.length_singleton]
    have hraw := measure_joinGap utf8Length_nil utf8Length_append hcomma
      (writeMember (.compact false)) ((Style.compact false).order
        (build (((Style.compact true).order d).map (rereadMember (.compact true)))))
    have hascii := measure_joinGap (f := List.length) rfl (fun _ _ => List.length_append) rfl
      (writeMember (.compact true)) ((Style.compact true).order d)
    change 1 + (utf8Length (joinGap [] _) + (1 + 0)) ≤ (joinGap [] _).length + 1 + 1
    rw [hraw, hascii]
    omega

end Json

end Python
