import VitrialSync.Python.JsonWriter

set_option relaxedAutoImplicit false
set_option autoImplicit false

/-!
# What RFC 8259 excludes

The words `NaN`, `Infinity` and `-Infinity` are no JSON. Outside its string literals a document of
RFC 8259 has no capital `N` or `I`, and the text of a value with a float that is no number has one
there, in every style of writing. So a value is written as a document of RFC 8259 exactly when all
its floats are numbers.

## Main definitions

* `Python.Json.bare` — a text without its string literals.
* `Python.Json.Interchanges` — a document of RFC 8259 that is read back as a value.

## Main results

* `Python.Json.loads_allShort` — integers that are read have no more digits than can be read.
* `Python.Json.allFinite_of_document` — what a document of RFC 8259 was written from.
* `Python.Json.interchanges_write_iff` — when what is written is a document that is read back.
-/

namespace Python.Json

/-! ### Integers that are read -/

/-- Digits write a number below a power of ten. -/
lemma ofDigits_lt {ds : List ℕ} (h : ∀ d ∈ ds, d < 10) : ofDigits ds < 10 ^ ds.length := by
  induction ds using List.reverseRecOn with
  | nil => decide
  | append_singleton ds d ih =>
    rw [List.forall_mem_append, List.forall_mem_singleton] at h
    have hlt := ih h.1
    rw [ofDigits, List.foldl_append]
    change 10 * ofDigits ds + d < _
    rw [List.length_append, List.length_singleton, pow_succ]
    omega

/-- What is scanned as digits are digits. -/
lemma scanDigits_lt (s : Str) : ∀ d ∈ (scanDigits s).1, d < 10 := by
  induction s with
  | nil => exact fun _ h => absurd h List.not_mem_nil
  | cons c s ih =>
    rw [scanDigits]
    split_ifs with hc
    · rw [List.forall_mem_cons]
      exact ⟨by omega, ih⟩
    · exact fun _ h => absurd h List.not_mem_nil

/-- The whole part of a number is digits. -/
lemma scanWhole_lt {s r : Str} {ds : List ℕ} (h : scanWhole s = some (ds, r)) :
    ∀ d ∈ ds, d < 10 := by
  cases s with
  | nil => cases h
  | cons c s =>
    rw [scanWhole] at h
    split_ifs at h with hzero
    · cases h
      decide
    · have hdigits := scanDigits_lt (c :: s)
      split at h
      · cases h
      · rw [Option.some.injEq] at h
        rw [h] at hdigits
        exact hdigits

/-- A value without integers. -/
lemma allShort_of_leaves {v : Value} (h : ∀ n, .int n ∉ v.leaves) : AllShort v :=
  fun n hn => absurd hn (h n)

/-- A number that is read is short. -/
lemma scanNumber_allShort {neg : Bool} {s r : Str} {v : Value}
    (h : scanNumber neg s = some (v, r)) : AllShort v := by
  unfold scanNumber at h
  split at h
  · cases h
  · rename_i whole rest hwhole
    dsimp only at h
    split at h
    · split at h
      · cases h
      · rename_i hlength
        cases h
        intro n hn
        have hlt := ofDigits_lt (scanWhole_lt hwhole)
        have hpow : 10 ^ whole.length ≤ 10 ^ maxIntDigits :=
          Nat.pow_le_pow_right (by decide) (not_lt.mp hlength)
        have habs : n.natAbs = ofDigits whole := by
          rw [Value.int.inj (List.mem_singleton.mp hn)]
          split_ifs
          · rw [Int.natAbs_neg, Int.natAbs_natCast]
          · exact Int.natAbs_natCast _
        exact habs ▸ lt_of_lt_of_le hlt hpow
    · cases h
      exact allShort_of_leaves fun n hn => by cases List.mem_singleton.mp hn

/-- A scalar that is read is short. -/
lemma scanScalar_allShort {s r : Str} {v : Value} (h : scanScalar s = some (v, r)) :
    AllShort v := by
  unfold scanScalar at h
  -- the six words in the order the reader tries them, then a number
  iterate 6
    rcases orElse_eq_some h with h | h
    · rw [scanWord_eq_some h]
      exact allShort_of_leaves fun n hn => by cases List.mem_singleton.mp hn
  split at h
  · split at h <;> exact scanNumber_allShort h
  · cases h

/-- The integers of a dictionary after an assignment. -/
lemma AllShort.set {d : Dict} (h : AllShort (.dict d)) (k : Str) {v : Value} (hv : AllShort v) :
    AllShort (.dict (d.set k v)) := by
  intro n hn
  rw [Value.leaves, Value.mem_leavesOfItems] at hn
  obtain ⟨e, he, hleaf⟩ := hn
  rcases Program.mem_assign he with rfl | hmem
  · exact hv n hleaf
  · exact h n (by rw [Value.leaves, Value.mem_leavesOfItems]; exact ⟨e, hmem, hleaf⟩)

/-- The three mutually recursive readers return values with short integers.

**Proof sketch.** Induction on the step budget, as for `parse_wellFormed`. -/
lemma parse_allShort (fuel : ℕ) :
    (∀ s v r, parseValue fuel s = some (v, r) → AllShort v) ∧
    (∀ s acc v r, AllShort (.dict acc) → parseMembers fuel s acc = some (v, r) → AllShort v) ∧
    (∀ s acc v r, (∀ x ∈ acc, AllShort x) → parseElements fuel s acc = some (v, r) →
      AllShort v) := by
  induction fuel with
  | zero => simp [parseValue, parseMembers, parseElements]
  | succ fuel ih =>
    obtain ⟨ihValue, ihMembers, ihElements⟩ := ih
    have hempty : AllShort (.dict []) :=
      allShort_of_leaves fun n hn => absurd hn List.not_mem_nil
    refine ⟨?_, ?_, ?_⟩
    · intro s v r h
      cases s with
      | nil => simp [parseValue] at h
      | cons c s =>
        simp only [parseValue] at h
        split_ifs at h
        · rw [Option.map_eq_some_iff] at h
          obtain ⟨p, -, hp⟩ := h
          cases hp
          exact allShort_of_leaves fun n hn => absurd hn List.not_mem_nil
        · split at h
          · cases h
          · split_ifs at h
            · cases h
              exact hempty
            · exact ihMembers _ _ _ _ hempty h
        · split at h
          · cases h
          · split_ifs at h
            · cases h
              exact allShort_of_leaves fun n hn => absurd hn List.not_mem_nil
            · exact ihElements _ _ _ _ (fun _ h => absurd h List.not_mem_nil) h
        · exact scanScalar_allShort h
    · intro s acc v r hacc h
      cases s with
      | nil => simp [parseMembers] at h
      | cons q s =>
        simp only [parseMembers] at h
        split_ifs at h
        split at h
        · cases h
        · split at h
          · cases h
          · split_ifs at h
            split at h
            · cases h
            · rename_i hv
              have hset := fun k => hacc.set k (ihValue _ _ _ hv)
              split at h
              · cases h
              · split_ifs at h
                · cases h
                  exact hset _
                · exact ihMembers _ _ _ _ (hset _) h
    · intro s acc v r hacc h
      simp only [parseElements] at h
      split at h
      · cases h
      · rename_i hv
        have hcons := List.forall_mem_cons.mpr ⟨ihValue _ _ _ hv, hacc⟩
        split at h
        · cases h
        · split_ifs at h
          · cases h
            intro n hn
            rw [Value.leaves, Value.mem_leavesOfList] at hn
            obtain ⟨x, hx, hleaf⟩ := hn
            exact hcons x (List.mem_reverse.mp hx) n hleaf
          · exact ihElements _ _ _ _ hcons h

/-- A document that is read has no integer of more digits than can be read. -/
lemma parseDocument_allShort {s : Str} {v : Value} (h : parseDocument s = some v) :
    AllShort v := by
  unfold parseDocument at h
  split at h
  · cases h
  · rename_i hv
    split_ifs at h
    cases h
    exact (parse_allShort _).1 _ _ _ hv

/-- What `json.loads` returns has no integer of more digits than it reads. -/
theorem loads_allShort {b : Bytes} {v : Value} (h : loads b = some v) : AllShort v := by
  unfold loads at h
  obtain ⟨s, -, hs⟩ := Option.bind_eq_some_iff.mp h
  exact parseDocument_allShort hs

/-! ### Outside the strings -/

/-- Where a text starts: outside the string literals, in one, or after the backslash of an
escape. -/
inductive Place where
  | outside
  | inside
  | escaped

/-- A text without its string literals. -/
def bare : Place → Str → Str
  | _, [] => []
  | .outside, c :: s => if c = ch '"' then bare .inside s else c :: bare .outside s
  | .inside, c :: s =>
    if c = ch '"' then bare .outside s
    else if c = ch '\\' then bare .escaped s
    else bare .inside s
  | .escaped, _ :: s => bare .inside s

/-- A character of a string literal is skipped. -/
lemma bare_charText {t : Str} {x : CodePoint × Bool} (h : CharText t x) (r : Str) :
    bare .inside (t ++ r) = bare .inside r := by
  have hslash : ch '\\' ≠ ch '"' := by decide
  cases h with
  | plain h =>
    obtain ⟨-, hquote, hescape⟩ := h
    rw [List.singleton_append, bare, if_neg hquote, if_neg hescape]
  | simple h =>
    rw [List.cons_append, List.singleton_append, bare, if_neg hslash, if_pos rfl, bare]
  | @unit a b c d u h =>
    have hdigit : ∀ {e n}, hexValue? e = some n → e ≠ ch '"' ∧ e ≠ ch '\\' := by
      intro e n he
      constructor
      · rintro rfl
        cases (show hexValue? (ch '"') = none by decide).symm.trans he
      · rintro rfl
        cases (show hexValue? (ch '\\') = none by decide).symm.trans he
    simp only [hex4?, Option.bind_eq_bind, Option.bind_eq_some_iff] at h
    obtain ⟨_, ha, _, hb, _, hc, _, hd, -⟩ := h
    simp only [List.cons_append, List.nil_append]
    rw [bare, if_neg hslash, if_pos rfl, bare, bare, if_neg (hdigit ha).1, if_neg (hdigit ha).2,
      bare, if_neg (hdigit hb).1, if_neg (hdigit hb).2, bare, if_neg (hdigit hc).1,
      if_neg (hdigit hc).2, bare, if_neg (hdigit hd).1, if_neg (hdigit hd).2]

/-- A string literal is skipped. -/
lemma bare_literal {s t : Str} (h : Literal s t) (r : Str) :
    bare .outside (t ++ r) = bare .outside r := by
  obtain ⟨ts, xs, hchars, rfl, -⟩ := h
  have hinside : bare .inside (ts.flatten ++ ch '"' :: r) = bare .outside r := by
    induction hchars with
    | nil => rw [List.flatten_nil, List.nil_append, bare, if_pos rfl]
    | cons htext _ ih => rw [List.flatten_cons, List.append_assoc, bare_charText htext, ih]
  rw [List.cons_append, bare, if_pos rfl, List.append_assoc, List.singleton_append, hinside]

/-- A text whose string literals end in it, and of whose other characters something holds. -/
structure Outside (P : CodePoint → Prop) (t : Str) : Prop where
  balanced : ∀ r, bare .outside (t ++ r) = bare .outside t ++ bare .outside r
  chars : ∀ c ∈ bare .outside t, P c

namespace Outside

variable {P : CodePoint → Prop}

/-- A text without quotes. -/
lemma of_quoteless {t : Str} (h : ∀ c ∈ t, c ≠ ch '"' ∧ P c) : Outside P t := by
  have hbare : ∀ r, bare .outside (t ++ r) = t ++ bare .outside r := by
    intro r
    induction t with
    | nil => rfl
    | cons c t ih =>
      rw [List.forall_mem_cons] at h
      rw [List.cons_append, bare, if_neg h.1.1, ih h.2, List.cons_append]
  have hself : bare .outside t = t := by
    have := hbare []
    rwa [List.append_nil, show bare .outside [] = [] from rfl, List.append_nil] at this
  exact ⟨fun r => by rw [hself, hbare r], fun c hc => (h c (hself ▸ hc)).2⟩

/-- A string literal. -/
lemma of_literal {s t : Str} (h : Literal s t) : Outside P t := by
  have hself : bare .outside t = [] := by
    have := bare_literal h []
    rwa [List.append_nil] at this
  refine ⟨fun r => by rw [hself, bare_literal h, List.nil_append], fun c hc => ?_⟩
  rw [hself] at hc
  cases hc

/-- Two texts, one after the other. -/
lemma append {s t : Str} (hs : Outside P s) (ht : Outside P t) : Outside P (s ++ t) := by
  refine ⟨fun r => ?_, ?_⟩
  · rw [List.append_assoc, hs.balanced, ht.balanced, hs.balanced, List.append_assoc]
  · rw [hs.balanced, List.forall_mem_append]
    exact ⟨hs.chars, ht.chars⟩

/-- One character before a text. -/
lemma cons {c : CodePoint} {t : Str} (hc : c ≠ ch '"' ∧ P c) (ht : Outside P t) :
    Outside P (c :: t) :=
  append (of_quoteless (List.forall_mem_singleton.mpr hc)) ht

end Outside

/-- A character that no word of JSON with a capital letter starts with. -/
def NoCapital (c : CodePoint) : Prop := c ≠ ch 'N' ∧ c ≠ ch 'I'

/-- A character of a number. -/
def NumberChar (c : CodePoint) : Prop :=
  (0x30 ≤ c.val ∧ c.val ≤ 0x39) ∨ c = ch '-' ∨ c = ch '+' ∨ c = ch '.' ∨ c = ch 'e' ∨ c = ch 'E'

/-- The characters of a number. -/
lemma numeral_chars {n : Numeral} (h : n.WellFormed) : ∀ c ∈ n.text, NumberChar c := by
  have hdigits : ∀ ds : List ℕ, ∀ c ∈ digitText ds, NumberChar c := by
    intro ds c hc
    obtain ⟨d, -, rfl⟩ := List.mem_map.mp hc
    left
    simp only [digitChar]
    omega
  rw [Numeral.text, Numeral.tailText]
  simp only [List.forall_mem_append]
  refine ⟨?_, hdigits _, ?_, ?_⟩
  · split
    · exact List.forall_mem_singleton.mpr (by simp [NumberChar])
    · exact fun _ h => absurd h List.not_mem_nil
  · cases n.frac with
    | none => exact fun _ h => absurd h List.not_mem_nil
    | some ds => exact List.forall_mem_cons.mpr ⟨by simp [NumberChar], hdigits ds⟩
  · cases hexpo : n.expo with
    | none => exact fun _ h => absurd h List.not_mem_nil
    | some e =>
      refine List.forall_mem_cons.mpr ⟨?_, List.forall_mem_append.mpr ⟨?_, hdigits _⟩⟩
      · rcases (h.expo e hexpo).1 with hmark | hmark <;> simp [NumberChar, hmark]
      · cases e.sign with
        | none => exact fun _ h => absurd h List.not_mem_nil
        | some minus => cases minus <;> exact List.forall_mem_singleton.mpr (by simp [NumberChar])

/-- A character of a number is no quote and none of the capitals. -/
lemma NumberChar.noCapital {c : CodePoint} (h : NumberChar c) : c ≠ ch '"' ∧ NoCapital c := by
  rcases h with h | rfl | rfl | rfl | rfl | rfl
  · refine ⟨?_, ?_, ?_⟩ <;> rintro rfl <;> revert h <;> decide
  all_goals
    unfold NoCapital
    decide

/-- White space has no capitals and no quotes. -/
lemma blank_chars {b : Str} (h : Blank b) : ∀ c ∈ b, c ≠ ch '"' ∧ NoCapital c := by
  intro c hc
  have hws := h c hc
  simp only [isWs, Bool.or_eq_true, beq_iff_eq] at hws
  refine ⟨?_, ?_, ?_⟩ <;> rintro rfl <;> revert hws <;> decide

/-- The separators and the ends of containers have no capitals and no quotes. -/
lemma mark_chars {c : CodePoint} (h : c ∈ [ch ',', ch ':', ch '[', ch ']', ch '{', ch '}']) :
    c ≠ ch '"' ∧ NoCapital c := by
  have hall : [ch ',', ch ':', ch '[', ch ']', ch '{', ch '}'].all
      (fun d => d != ch '"' && (d != ch 'N' && d != ch 'I')) = true := by decide
  simpa [NoCapital] using List.all_eq_true.mp hall c h

/-- What holds of the characters of a text outside its strings, where it holds of all characters but
the two capitals, and of the words of the dialect.

**Proof sketch.** Induction on the derivation. -/
lemma Denotes.outside {dialect : Dialect} {P : CodePoint → Prop} (hP : ∀ c, NoCapital c → P c)
    (hwords : ∀ w ∈ dialect.words, ∀ c ∈ Str.ofString w.1, c ≠ ch '"' ∧ P c) {node : Node}
    {t : Str} (h : Denotes dialect node t) : Outside P t := by
  have hquoteless : ∀ {s : Str}, (∀ c ∈ s, c ≠ ch '"' ∧ NoCapital c) → Outside P s :=
    fun hs => .of_quoteless fun c hc => ⟨(hs c hc).1, hP c (hs c hc).2⟩
  have hmark : ∀ {c : CodePoint} {s : Str}, c ∈ [ch ',', ch ':', ch '[', ch ']', ch '{', ch '}'] →
      Outside P s → Outside P (c :: s) :=
    fun hc hs => .cons ⟨(mark_chars hc).1, hP _ (mark_chars hc).2⟩ hs
  have hend : ∀ {c : CodePoint}, c ∈ [ch ',', ch ':', ch '[', ch ']', ch '{', ch '}'] →
      Outside P [c] := fun hc => hmark hc (hquoteless fun _ h => absurd h List.not_mem_nil)
  induction h with
  | word h => exact .of_quoteless (hwords _ h)
  | number h _ => exact hquoteless fun c hc => (numeral_chars h c hc).noCapital
  | string h => exact .of_literal h
  | emptyArray hb =>
    exact hmark (by simp) (.append (hquoteless (blank_chars hb)) (hend (by simp)))
  | array _ ih => exact hmark (by simp) (.append ih (hend (by simp)))
  | emptyObject hb =>
    exact hmark (by simp) (.append (hquoteless (blank_chars hb)) (hend (by simp)))
  | object _ ih => exact hmark (by simp) (.append ih (hend (by simp)))
  | element hl _ hr ih =>
    exact .append (hquoteless (blank_chars hl)) (.append ih (hquoteless (blank_chars hr)))
  | elements hl _ hr _ ih ihrest =>
    exact .append (hquoteless (blank_chars hl))
      (.append ih (.append (hquoteless (blank_chars hr)) (hmark (by simp) ihrest)))
  | member hl hk hm hn _ hr ih =>
    exact .append (hquoteless (blank_chars hl)) (.append (.of_literal hk)
      (.append (hquoteless (blank_chars hm)) (hmark (by simp)
        (.append (hquoteless (blank_chars hn)) (.append ih (hquoteless (blank_chars hr)))))))
  | members hl hk hm hn _ hr _ ih ihrest =>
    exact .append (hquoteless (blank_chars hl)) (.append (.of_literal hk)
      (.append (hquoteless (blank_chars hm)) (hmark (by simp)
        (.append (hquoteless (blank_chars hn)) (.append ih
          (.append (hquoteless (blank_chars hr)) (hmark (by simp) ihrest)))))))

/-! ### Words that are no JSON -/

/-- JSON with the words of `json.loads` and numbers of any length. -/
def lenient : Dialect := ⟨cpython.words, fun _ => True⟩

/-- Everything that is written is in the lenient dialect. -/
lemma write_lenient (style : Style) (v : Value) :
    Denotes lenient (.value (reread style v)) (write style v) := by
  refine write_denotes_of (fun _ h => List.mem_append_left _ h) style (fun _ _ => trivial)
    fun x _ => ?_
  cases x with
  | nan => exact .word (by simp [lenient, cpython])
  | inf neg =>
    rw [writeFloat]
    apply Denotes.word
    cases neg <;> simp [lenient, cpython]
  | finite neg m e h => exact denotes_float (fun _ _ => trivial) rfl

/-- The strings in a text that is written end in it. -/
lemma write_balanced (style : Style) (v : Value) : Outside (fun _ => True) (write style v) := by
  have hall : lenient.words.all (fun w => (Str.ofString w.1).all (· != ch '"')) = true := by decide
  simp only [List.all_eq_true, bne_iff_ne, ne_eq] at hall
  exact (write_lenient style v).outside (fun _ _ => trivial)
    fun w hw c hc => ⟨hall w hw c hc, trivial⟩

/-- What stands outside the strings of a part stands there in the whole. -/
lemma mem_bare_joinGap {gap : Str} (hgap : Blank gap) {ts : List Str} {t : Str} {c : CodePoint}
    (hts : ∀ u ∈ ts, Outside (fun _ => True) u) (ht : t ∈ ts) (hc : c ∈ bare .outside t)
    (r : Str) : c ∈ bare .outside (joinGap gap ts ++ r) := by
  have hblank : Outside (fun _ => True) gap :=
    .of_quoteless fun d hd => ⟨(blank_chars hgap d hd).1, trivial⟩
  have hcomma : ch ',' ≠ ch '"' := by decide
  induction ts with
  | nil => exact absurd ht List.not_mem_nil
  | cons u ts ih =>
    rw [List.forall_mem_cons] at hts
    cases ts with
    | nil =>
      obtain rfl := List.mem_singleton.mp ht
      rw [joinGap, hts.1.balanced]
      exact List.mem_append_left _ hc
    | cons u' ts =>
      rw [joinGap, List.append_assoc, hts.1.balanced, List.mem_append]
      · rcases List.mem_cons.mp ht with rfl | hmem
        · exact Or.inl hc
        · right
          rw [List.cons_append, bare, if_neg hcomma, List.append_assoc, hblank.balanced]
          exact List.mem_cons_of_mem _ (List.mem_append_right _ (ih hts.2 hmem))
      · simp

/-- A float that is no number is written as a word with a capital. -/
lemma mem_bare_write (style : Style) {v : Value} {x : Binary64} (hx : .float x ∈ v.leaves)
    (hnot : x.isFinite = false) : ∃ c ∈ bare .outside (write style v), ¬ NoCapital c := by
  have hcapital : ∀ {c}, c = ch 'N' ∨ c = ch 'I' → ¬ NoCapital c := by
    rintro c (rfl | rfl) ⟨hN, hI⟩
    · exact hN rfl
    · exact hI rfl
  induction v using value_induction with
  | none => cases List.mem_singleton.mp hx
  | bool b => cases List.mem_singleton.mp hx
  | int n => cases List.mem_singleton.mp hx
  | float y =>
    cases List.mem_singleton.mp hx
    cases x with
    | nan => exact ⟨ch 'N', List.mem_cons_self, hcapital (Or.inl rfl)⟩
    | inf neg =>
      refine ⟨ch 'I', ?_, hcapital (Or.inr rfl)⟩
      cases neg with
      | true => exact List.mem_cons_of_mem _ List.mem_cons_self
      | false => exact List.mem_cons_self
    | finite neg m e h => cases hnot
  | str s => exact absurd hx List.not_mem_nil
  | list xs ih =>
    rw [Value.leaves, Value.mem_leavesOfList] at hx
    obtain ⟨y, hy, hleaf⟩ := hx
    obtain ⟨c, hc, hcap⟩ := ih y hy hleaf
    refine ⟨c, ?_, hcap⟩
    rw [write_list, bare, if_neg (by decide)]
    apply List.mem_cons_of_mem
    refine mem_bare_joinGap style.gap_blank ?_ (List.mem_map_of_mem hy) hc _
    exact List.forall_mem_map.mpr fun z _ => write_balanced style z
  | dict d ih =>
    rw [Value.leaves, Value.mem_leavesOfItems] at hx
    obtain ⟨e, he, hleaf⟩ := hx
    obtain ⟨c, hc, hcap⟩ := ih e he hleaf
    refine ⟨c, ?_, hcap⟩
    have hcolon : ch ':' ≠ ch '"' := by decide
    have hgap : Outside (fun _ => True) style.gap :=
      .of_quoteless fun d hd => ⟨(blank_chars style.gap_blank d hd).1, trivial⟩
    have hmember : ∀ m : Str × Value, Outside (fun _ => True) (writeMember style m) := fun m =>
      .append (.of_literal (literal_writeString style.ascii m.1))
        (.cons ⟨hcolon, trivial⟩ (.append hgap (write_balanced style m.2)))
    rw [write_dict, bare, if_neg (by decide)]
    apply List.mem_cons_of_mem
    refine mem_bare_joinGap style.gap_blank ?_
      (List.mem_map_of_mem ((style.order_perm d).mem_iff.mpr he)) ?_ _
    · exact List.forall_mem_map.mpr fun m _ => hmember m
    · rw [writeMember, bare_literal (literal_writeString style.ascii e.1), bare, if_neg hcolon,
        hgap.balanced]
      exact List.mem_cons_of_mem _ (List.mem_append_right _ hc)

/-- Outside its strings a document of RFC 8259 has neither of the two capitals. -/
lemma Document.chars {w : Value} {s : Str} (h : Document rfc8259 w s) :
    ∀ c ∈ bare .outside s, NoCapital c := by
  obtain ⟨l, t, r, rfl, hl, ht, hr⟩ := h
  have hblank : ∀ {b}, Blank b → Outside NoCapital b :=
    fun hb => .of_quoteless (blank_chars hb)
  have hall : rfc8259.words.all (fun w => (Str.ofString w.1).all
      fun c => c != ch '"' && (c != ch 'N' && c != ch 'I')) = true := by decide
  simp only [List.all_eq_true, Bool.and_eq_true, bne_iff_ne] at hall
  exact ((hblank hl).append ((ht.outside (fun _ h => h) hall).append (hblank hr))).chars

/-- **What RFC 8259 excludes.** A value whose text is a document of RFC 8259 has only floats that are
numbers.

**Proof sketch.** Outside its strings the document has no capital `N` or `I`. -/
theorem allFinite_of_document {style : Style} {v w : Value}
    (h : Document rfc8259 w (write style v)) : AllFinite v := by
  intro x hx
  by_contra hnot
  obtain ⟨c, hc, hcapital⟩ := mem_bare_write style hx (Bool.eq_false_iff.mpr hnot)
  exact hcapital (h.chars c hc)

/-- A text is a document of RFC 8259, and reading it gives a value that equals the one that was
written. -/
structure Interchanges (v : Value) (text : Str) : Prop where
  document : ∃ w, Document rfc8259 w text
  readBack : ∃ w, parseDocument text = some w ∧ Value.same v w = true

/-- **Interchange.** What is written from a value is a document of RFC 8259 that is read back as the
value exactly when every float in it is a number and every string is read back as itself. -/
theorem interchanges_write_iff (style : Style) {v : Value} (hv : v.WellFormed)
    (hshort : AllShort v) : Interchanges v (write style v) ↔
      AllFinite v ∧ ∀ s ∈ v.texts, readString style.ascii s = s := by
  rw [← same_reread_iff style hv]
  constructor
  · rintro ⟨⟨w, hdocument⟩, w', hread, hsame⟩
    rw [parseDocument_write style hshort] at hread
    cases hread
    exact ⟨allFinite_of_document hdocument, hsame⟩
  · rintro ⟨hfinite, hsame⟩
    refine ⟨⟨reread style v, [], write style v, [], by simp, blank_nil,
      write_rfc8259 style hfinite, blank_nil⟩, _, parseDocument_write style hshort, hsame⟩

end Python.Json
