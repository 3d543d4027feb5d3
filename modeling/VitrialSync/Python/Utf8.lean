import VitrialSync.Python.Codec

set_option relaxedAutoImplicit false
set_option autoImplicit false

/-!
# UTF-8

UTF-8 keeps the order of texts: bytes compare like the code points that they encode. The reason is
general: where the code words of two letters first differ, the word of the smaller letter has the
smaller symbol. And a text is the only one with its bytes: the decoder takes the code points off one
by one, and refuses every other form of them.

## Main definitions

* `Python.KeepsOrder` — code words that compare like their letters.

## Main results

* `Python.KeepsOrder.flatMap_lt_iff` — texts compare like the words that encode them.
* `Python.utf8_keepsOrder` — UTF-8 has such words.
* `Python.utf8_le_iff` — the order of bytes is the order of code points.
* `Python.decodeUtf8?_eq_some` — bytes are decoded to the text whose bytes they are.
-/

namespace Python

section KeepsOrder

variable {α β : Type} [LinearOrder α] [LinearOrder β]

/-- Where the words of two letters first differ, the word of the smaller letter has the smaller
symbol. -/
def KeepsOrder (word : α → List β) : Prop := ∀ a b, a < b →
  ∃ same x y rest rest', word a = same ++ x :: rest ∧ word b = same ++ y :: rest' ∧ x < y

/-- A common beginning does not matter. -/
lemma append_lt_append_left (same : List β) {s t : List β} : same ++ s < same ++ t ↔ s < t := by
  induction same with
  | nil => rfl
  | cons x same ih =>
    rw [List.cons_append, List.cons_append, List.cons_lt_cons_iff, ih]
    simp

/-- The first letters decide when they differ. -/
lemma KeepsOrder.append_lt {word : α → List β} (h : KeepsOrder word) {a b : α} (hab : a < b)
    (s t : List β) : word a ++ s < word b ++ t ∧ ¬ word b ++ t < word a ++ s := by
  obtain ⟨same, x, y, rest, rest', ha, hb, hxy⟩ := h a b hab
  rw [ha, hb, List.append_assoc, List.append_assoc, append_lt_append_left, append_lt_append_left,
    List.cons_append, List.cons_append, List.cons_lt_cons_iff, List.cons_lt_cons_iff]
  refine ⟨Or.inl hxy, ?_⟩
  rintro (hyx | ⟨heq, -⟩)
  · exact lt_asymm hxy hyx
  · exact hxy.ne heq.symm

/-- **Texts compare like the words that encode them.**

**Proof sketch.** By induction on the texts: equal letters have equal words, and different letters
decide on both sides. -/
theorem KeepsOrder.flatMap_lt_iff {word : α → List β} (h : KeepsOrder word)
    (hnil : ∀ a, word a ≠ []) (s t : List α) : s.flatMap word < t.flatMap word ↔ s < t := by
  induction s generalizing t with
  | nil =>
    cases t with
    | nil => simp
    | cons b t =>
      obtain ⟨x, rest, hword⟩ := List.exists_cons_of_ne_nil (hnil b)
      simp [hword]
  | cons a s ih =>
    cases t with
    | nil => simp
    | cons b t =>
      rw [List.flatMap_cons, List.flatMap_cons, List.cons_lt_cons_iff]
      rcases lt_trichotomy a b with hab | rfl | hba
      · simp [hab, (h.append_lt hab (s.flatMap word) (t.flatMap word)).1]
      · rw [append_lt_append_left, ih]
        simp
      · simp [hba.ne', hba.asymm, (h.append_lt hba (t.flatMap word) (s.flatMap word)).2]

end KeepsOrder

/-! ### The order of bytes -/

/-- Numbers below 256 compare as bytes. -/
lemma byte_lt_byte {m n : ℕ} (h : m < n) (hn : n < 256) : byte m < byte n := by
  rw [Fin.lt_def]
  change m % 256 < n % 256
  omega

/-- A code point has a byte. -/
lemma utf8_ne_nil (c : CodePoint) : utf8 c ≠ [] := by
  unfold utf8
  dsimp only
  split_ifs <;> simp

/-- **UTF-8 keeps the order.**

**Proof sketch.** A code point with fewer bytes has a smaller first byte. Among code points with
equally many bytes the first different group of bits decides. -/
theorem utf8_keepsOrder : KeepsOrder utf8 := by
  intro c d hcd
  have hlt : c.val < d.val := hcd
  have hd := d.isLt
  unfold utf8
  dsimp only
  by_cases hd1 : d.val < 0x80
  · rw [if_pos (by omega), if_pos hd1]
    exact ⟨[], _, _, [], [], rfl, rfl, byte_lt_byte hlt (by omega)⟩
  rw [if_neg hd1]
  by_cases hc1 : c.val < 0x80
  · rw [if_pos hc1]
    split_ifs
    · exact ⟨[], _, _, [], _, rfl, rfl, byte_lt_byte (by omega) (by omega)⟩
    · exact ⟨[], _, _, [], _, rfl, rfl, byte_lt_byte (by omega) (by omega)⟩
    · exact ⟨[], _, _, [], _, rfl, rfl, byte_lt_byte (by omega) (by omega)⟩
  rw [if_neg hc1]
  by_cases hd2 : d.val < 0x800
  · rw [if_pos (by omega), if_pos hd2]
    rcases Nat.lt_or_ge (c.val / 0x40) (d.val / 0x40) with hfirst | hfirst
    · exact ⟨[], _, _, _, _, rfl, rfl, byte_lt_byte (by omega) (by omega)⟩
    · have heq : c.val / 0x40 = d.val / 0x40 := by omega
      rw [heq]
      exact ⟨[_], _, _, [], [], rfl, rfl, byte_lt_byte (by omega) (by omega)⟩
  rw [if_neg hd2]
  by_cases hc2 : c.val < 0x800
  · rw [if_pos hc2]
    split_ifs
    · exact ⟨[], _, _, _, _, rfl, rfl, byte_lt_byte (by omega) (by omega)⟩
    · exact ⟨[], _, _, _, _, rfl, rfl, byte_lt_byte (by omega) (by omega)⟩
  rw [if_neg hc2]
  by_cases hd3 : d.val < 0x10000
  · rw [if_pos (by omega), if_pos hd3]
    rcases Nat.lt_or_ge (c.val / 0x1000) (d.val / 0x1000) with hfirst | hfirst
    · exact ⟨[], _, _, _, _, rfl, rfl, byte_lt_byte (by omega) (by omega)⟩
    have heq : c.val / 0x1000 = d.val / 0x1000 := by omega
    rw [heq]
    rcases Nat.lt_or_ge (c.val / 0x40 % 0x40) (d.val / 0x40 % 0x40) with hsecond | hsecond
    · exact ⟨[_], _, _, _, _, rfl, rfl, byte_lt_byte (by omega) (by omega)⟩
    have heq' : c.val / 0x40 % 0x40 = d.val / 0x40 % 0x40 := by omega
    rw [heq']
    exact ⟨[_, _], _, _, [], [], rfl, rfl, byte_lt_byte (by omega) (by omega)⟩
  rw [if_neg hd3]
  by_cases hc3 : c.val < 0x10000
  · rw [if_pos hc3]
    exact ⟨[], _, _, _, _, rfl, rfl, byte_lt_byte (by omega) (by omega)⟩
  rw [if_neg hc3]
  rcases Nat.lt_or_ge (c.val / 0x40000) (d.val / 0x40000) with hfirst | hfirst
  · exact ⟨[], _, _, _, _, rfl, rfl, byte_lt_byte (by omega) (by omega)⟩
  have heq : c.val / 0x40000 = d.val / 0x40000 := by omega
  rw [heq]
  rcases Nat.lt_or_ge (c.val / 0x1000 % 0x40) (d.val / 0x1000 % 0x40) with hsecond | hsecond
  · exact ⟨[_], _, _, _, _, rfl, rfl, byte_lt_byte (by omega) (by omega)⟩
  have heq' : c.val / 0x1000 % 0x40 = d.val / 0x1000 % 0x40 := by omega
  rw [heq']
  rcases Nat.lt_or_ge (c.val / 0x40 % 0x40) (d.val / 0x40 % 0x40) with hthird | hthird
  · exact ⟨[_, _], _, _, _, _, rfl, rfl, byte_lt_byte (by omega) (by omega)⟩
  have heq'' : c.val / 0x40 % 0x40 = d.val / 0x40 % 0x40 := by omega
  rw [heq'']
  exact ⟨[_, _, _], _, _, [], [], rfl, rfl, byte_lt_byte (by omega) (by omega)⟩

/-- **The order of bytes is the order of code points.** -/
theorem utf8_le_iff (s t : Str) : s.flatMap utf8 ≤ t.flatMap utf8 ↔ s ≤ t := by
  rw [← not_lt, ← not_lt]
  exact not_congr (utf8_keepsOrder.flatMap_lt_iff utf8_ne_nil t s)

/-! ### Decoding -/

section Decoding

variable {rest : Bytes} {need acc low : ℕ} {s : Str}

/-- A number below 256 is kept by its byte. -/
lemma byte_toNat {n : ℕ} (h : n < 256) : (byte n).val = n := Nat.mod_eq_of_lt h

/-- A continuation byte that is owed, and more after it. -/
lemma utf8Loop_more (hneed : need ≠ 0) (hmore : need ≠ 1) (m : ℕ) :
    utf8Loop (byte (0x80 + m % 0x40) :: rest) need acc low =
      utf8Loop rest (need - 1) (acc * 0x40 + m % 0x40) low := by
  have hbyte : (byte (0x80 + m % 0x40)).val = 0x80 + m % 0x40 := byte_toNat (by omega)
  have htail : isTail (byte (0x80 + m % 0x40)) = true := by
    rw [isTail, hbyte]
    simp
    omega
  rw [utf8Loop, if_neg hneed, htail, hbyte]
  simp [hmore]

/-- The last continuation byte. -/
lemma utf8Loop_last (m : ℕ) {c : CodePoint} (hc : acc * 0x40 + m % 0x40 = c.val)
    (hlow : low ≤ c.val) :
    utf8Loop (byte (0x80 + m % 0x40) :: rest) 1 acc low =
      (utf8Loop rest 0 0 0).map (c :: ·) := by
  have hbyte : (byte (0x80 + m % 0x40)).val = 0x80 + m % 0x40 := byte_toNat (by omega)
  have htail : isTail (byte (0x80 + m % 0x40)) = true := by
    rw [isTail, hbyte]
    simp
    omega
  have hpoint : codePoint? c.val = some c := by
    rw [codePoint?, dif_pos c.isLt]
  rw [utf8Loop, if_neg one_ne_zero, htail, hbyte, Nat.add_sub_cancel_left, hc]
  simp only [Bool.not_true, Bool.false_eq_true, ↓reduceIte, ne_eq, not_true_eq_false]
  rw [if_neg (by omega), hpoint]
  rfl

/-- **A code point is decoded from its bytes.**

**Proof sketch.** By the number of its bytes: the first gives it away, and the least code point of
so many bytes is not above it. -/
lemma utf8Loop_utf8 (c : CodePoint) (rest : Bytes) :
    utf8Loop (utf8 c ++ rest) 0 0 0 = (utf8Loop rest 0 0 0).map (c :: ·) := by
  have hc := c.isLt
  unfold utf8
  dsimp only
  split_ifs with h1 h2 h3
  · have hbyte : (byte c.val).val = c.val := byte_toNat (by omega)
    have hpoint : (byte c.val).toCodePoint = c := Fin.ext hbyte
    rw [List.singleton_append, utf8Loop, if_pos rfl, hbyte, if_pos h1, hpoint]
  · have hbyte : (byte (0xc0 + c.val / 0x40)).val = 0xc0 + c.val / 0x40 := byte_toNat (by omega)
    rw [List.cons_append, utf8Loop, if_pos rfl, hbyte, if_neg (by omega), if_pos (by omega),
      Nat.add_sub_cancel_left]
    exact utf8Loop_last c.val (by omega) (by omega)
  · have hbyte : (byte (0xe0 + c.val / 0x1000)).val = 0xe0 + c.val / 0x1000 :=
      byte_toNat (by omega)
    rw [List.cons_append, utf8Loop, if_pos rfl, hbyte, if_neg (by omega), if_neg (by omega),
      if_pos (by omega), Nat.add_sub_cancel_left, List.cons_append,
      utf8Loop_more (by omega) (by omega)]
    exact utf8Loop_last c.val (by omega) (by omega)
  · have hbyte : (byte (0xf0 + c.val / 0x40000)).val = 0xf0 + c.val / 0x40000 :=
      byte_toNat (by omega)
    rw [List.cons_append, utf8Loop, if_pos rfl, hbyte, if_neg (by omega), if_neg (by omega),
      if_neg (by omega), if_pos (by omega), Nat.add_sub_cancel_left, List.cons_append,
      utf8Loop_more (by omega) (by omega), List.cons_append,
      utf8Loop_more (by omega) (by omega)]
    exact utf8Loop_last c.val (by omega) (by omega)

/-- What is decoded where a continuation byte is owed. -/
lemma utf8Loop_owed (hneed : need ≠ 0) (h : utf8Loop rest need acc low = some s) :
    ∃ b more, rest = b :: more ∧ 0x80 ≤ b.val ∧ b.val < 0xc0 ∧
      ((need ≠ 1 ∧ utf8Loop more (need - 1) (acc * 0x40 + (b.val - 0x80)) low = some s) ∨
        (need = 1 ∧ ∃ c t, s = c :: t ∧ c.val = acc * 0x40 + (b.val - 0x80) ∧ low ≤ c.val ∧
          utf8Loop more 0 0 0 = some t)) := by
  cases rest with
  | nil =>
    rw [utf8Loop, if_neg hneed] at h
    cases h
  | cons b more =>
    rw [utf8Loop, if_neg hneed] at h
    simp only [Bool.not_eq_true', ne_eq, ite_not] at h
    split_ifs at h with htail hone hlow
    · simp only [isTail, Bool.not_eq_false, Bool.and_eq_true, decide_eq_true_eq] at htail
      refine ⟨b, more, rfl, htail.1, htail.2, Or.inr ⟨hone, ?_⟩⟩
      obtain ⟨c, hc, h⟩ := Option.bind_eq_some_iff.mp h
      obtain ⟨t, ht, rfl⟩ := Option.map_eq_some_iff.mp h
      rw [codePoint?] at hc
      split_ifs at hc
      obtain rfl := Option.some.inj hc
      exact ⟨_, t, rfl, rfl, not_lt.mp hlow, ht⟩
    · simp only [isTail, Bool.not_eq_false, Bool.and_eq_true, decide_eq_true_eq] at htail
      exact ⟨b, more, rfl, htail.1, htail.2, Or.inl ⟨hone, h⟩⟩

/-- A byte by its number. -/
lemma byte_eq_of {b : Byte} {n : ℕ} (h : n = b.val) : byte n = b := by
  have := b.isLt
  exact Fin.ext (by rw [byte_toNat (by omega), h])

/-- **Nothing else is decoded**: the bytes are those of the text.

**Proof sketch.** By induction on the number of bytes. The first byte tells how many continuation
bytes are owed; these and the least code point of so many bytes leave one form only. -/
lemma eq_flatMap_of_utf8Loop (b : Bytes) (h : utf8Loop b 0 0 0 = some s) :
    b = s.flatMap utf8 := by
  induction hlength : b.length using Nat.strong_induction_on generalizing b s with
  | _ n ih =>
    subst hlength
    cases b with
    | nil =>
      rw [utf8Loop, if_pos rfl] at h
      obtain rfl := Option.some.inj h
      rfl
    | cons a rest =>
      have ha := a.isLt
      rw [utf8Loop, if_pos rfl] at h
      split_ifs at h with h1 h2 h3 h4
      · obtain ⟨t, ht, rfl⟩ := Option.map_eq_some_iff.mp h
        have hval : a.toCodePoint.val = a.val := rfl
        rw [List.flatMap_cons, ← ih _ (Nat.lt_succ_self _) rest ht rfl, utf8]
        rw [if_pos (hval ▸ h1), hval, byte_eq_of rfl]
        rfl
      · obtain ⟨b, more, rfl, hb, hb', ⟨hneed, -⟩ | ⟨-, c, t, rfl, hc, hlow, ht⟩⟩ :=
          utf8Loop_owed one_ne_zero h
        · exact absurd rfl hneed
        rw [List.flatMap_cons, ← ih _ (by simp only [List.length_cons]; omega) more ht rfl, utf8]
        rw [if_neg (by omega), if_pos (by omega), byte_eq_of (b := a) (by omega),
          byte_eq_of (b := b) (by omega)]
        rfl
      · obtain ⟨b, more, rfl, hb, hb', ⟨-, h⟩ | ⟨hneed, -⟩⟩ := utf8Loop_owed (by decide) h
        swap
        · exact absurd hneed (by decide)
        obtain ⟨b', more, rfl, hd, hd', ⟨hneed, -⟩ | ⟨-, c, t, rfl, hc, hlow, ht⟩⟩ :=
          utf8Loop_owed (by decide) h
        · exact absurd rfl hneed
        rw [List.flatMap_cons, ← ih _ (by simp only [List.length_cons]; omega) more ht rfl, utf8]
        rw [if_neg (by omega), if_neg (by omega), if_pos (by omega),
          byte_eq_of (b := a) (by omega), byte_eq_of (b := b) (by omega),
          byte_eq_of (b := b') (by omega)]
        rfl
      · obtain ⟨b, more, rfl, hb, hb', ⟨-, h⟩ | ⟨hneed, -⟩⟩ := utf8Loop_owed (by decide) h
        swap
        · exact absurd hneed (by decide)
        obtain ⟨b', more, rfl, hd, hd', ⟨-, h⟩ | ⟨hneed, -⟩⟩ := utf8Loop_owed (by decide) h
        swap
        · exact absurd hneed (by decide)
        obtain ⟨d, more, rfl, he, he', ⟨hneed, -⟩ | ⟨-, c, t, rfl, hc, hlow, ht⟩⟩ :=
          utf8Loop_owed (by decide) h
        · exact absurd rfl hneed
        rw [List.flatMap_cons, ← ih _ (by simp only [List.length_cons]; omega) more ht rfl, utf8]
        rw [if_neg (by omega), if_neg (by omega), if_neg (by omega),
          byte_eq_of (b := a) (by omega), byte_eq_of (b := b) (by omega),
          byte_eq_of (b := b') (by omega), byte_eq_of (b := d) (by omega)]
        rfl

/-- **UTF-8 is decoded to the text that it encodes**, surrogates included. -/
theorem decodeUtf8?_eq_some {b : Bytes} : decodeUtf8? b = some s ↔ b = s.flatMap utf8 := by
  constructor
  · exact eq_flatMap_of_utf8Loop b
  · rintro rfl
    unfold decodeUtf8?
    induction s with
    | nil => rfl
    | cons c s ih => rw [List.flatMap_cons, utf8Loop_utf8, ih, Option.map_some]

end Decoding

end Python
