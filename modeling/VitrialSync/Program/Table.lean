import Mathlib.Data.List.Nodup
import Mathlib.Tactic.Lemma

set_option relaxedAutoImplicit false
set_option autoImplicit false

/-!
# Association lists and keyed tables

A dictionary and a database table with a primary key are both lists of key/value pairs in which no
key occurs twice. This file has the assignment on such lists and the table that carries the
distinctness of its keys, with the two facts every client needs: what a lookup finds after an
assignment, and that a query over all rows is a statement about lookups.

## Main definitions

* `Program.keys`, `Program.assign` — the keys of an association list; assignment in place, with a
  new key at the end.
* `Program.Table` — rows with distinct keys.
* `Program.Table.get`, `Program.Table.set`, `Program.Table.any` — lookup by primary key, insert or
  update, and an existence query.
* `Program.Table.without`, `Program.Table.size` — deletion of rows, and their number.
* `Program.Table.Keeps` — no row is lost, and what is read of a row does not change.

## Main results

* `Program.Table.get_set` — lookup after an update.
* `Program.Table.any_iff` — an existence query succeeds exactly when some lookup satisfies it.
-/

namespace Program

section Assoc

variable {κ ν : Type}

/-- The keys of an association list in order. -/
def keys (l : List (κ × ν)) : List κ := l.map Prod.fst

variable [BEq κ]

/-- Assignment: the value is replaced in place, a new key goes last. -/
def assign : List (κ × ν) → κ → ν → List (κ × ν)
  | [], k, v => [(k, v)]
  | (k', v') :: l, k, v => if k == k' then (k, v) :: l else (k', v') :: assign l k v

variable [LawfulBEq κ]

/-- The keys after an assignment. -/
lemma mem_keys_assign (l : List (κ × ν)) (k : κ) (v : ν) (j : κ) :
    j ∈ keys (assign l k v) ↔ j ∈ keys l ∨ j = k := by
  induction l with
  | nil => simp [assign, keys]
  | cons e l ih =>
    obtain ⟨k', v'⟩ := e
    by_cases h : k == k'
    · obtain rfl := beq_iff_eq.mp h
      simp [assign, keys]
      tauto
    · simp only [assign, h, Bool.false_eq_true, ↓reduceIte, keys, List.map_cons, List.mem_cons] at ih ⊢
      rw [ih]
      tauto

/-- An assignment keeps the keys distinct. -/
lemma nodup_keys_assign (l : List (κ × ν)) (k : κ) (v : ν) (h : (keys l).Nodup) :
    (keys (assign l k v)).Nodup := by
  induction l with
  | nil => simp [assign, keys]
  | cons e l ih =>
    obtain ⟨k', v'⟩ := e
    simp only [keys, List.map_cons, List.nodup_cons] at h
    by_cases hk : k == k'
    · obtain rfl := beq_iff_eq.mp hk
      simpa [assign, keys] using h
    · have hnot : k' ∉ keys (assign l k v) := by
        rw [mem_keys_assign]
        rintro (hm | rfl)
        · exact h.1 hm
        · exact hk (beq_self_eq_true _)
      simp only [assign, hk, Bool.false_eq_true, ↓reduceIte, keys, List.map_cons, List.nodup_cons]
      exact ⟨hnot, ih h.2⟩

/-- The second of two assignments to a key stands. -/
lemma assign_assign (l : List (κ × ν)) (k : κ) (v w : ν) :
    assign (assign l k v) k w = assign l k w := by
  induction l with
  | nil => simp [assign]
  | cons e l ih =>
    obtain ⟨k', v'⟩ := e
    by_cases h : k == k'
    · simp [assign, h]
    · simp only [assign, h, Bool.false_eq_true, ↓reduceIte, ih]

omit [LawfulBEq κ] in
/-- The pairs after an assignment are the new one and old ones. -/
lemma mem_assign {l : List (κ × ν)} {k : κ} {v : ν} {e : κ × ν} (h : e ∈ assign l k v) :
    e = (k, v) ∨ e ∈ l := by
  induction l with
  | nil => simpa [assign] using h
  | cons e' l ih =>
    obtain ⟨k', v'⟩ := e'
    by_cases hk : k == k'
    · simp only [assign, hk, ↓reduceIte, List.mem_cons] at h
      exact h.imp_right (List.mem_cons_of_mem _)
    · simp only [assign, hk, Bool.false_eq_true, ↓reduceIte, List.mem_cons] at h
      rcases h with h | h
      · exact Or.inr (h ▸ List.mem_cons_self)
      · exact (ih h).imp_right (List.mem_cons_of_mem _)

/-- A lookup after an assignment. -/
lemma lookup_assign (l : List (κ × ν)) (k : κ) (v : ν) (j : κ) :
    (assign l k v).lookup j = if j == k then some v else l.lookup j := by
  induction l with
  | nil => cases h : j == k <;> simp [assign, List.lookup_cons, h]
  | cons e l ih =>
    obtain ⟨k', v'⟩ := e
    by_cases hk : k == k'
    · obtain rfl := beq_iff_eq.mp hk
      cases hj : j == k <;> simp [assign, List.lookup_cons, hj]
    · simp only [assign, hk, Bool.false_eq_true, ↓reduceIte, List.lookup_cons, ih]
      by_cases hj : j == k
      · obtain rfl := beq_iff_eq.mp hj
        simp [hk]
      · simp [hj]

/-- A key that a lookup finds is a key. -/
lemma mem_keys_of_lookup {l : List (κ × ν)} {k : κ} {v : ν} (h : l.lookup k = some v) :
    k ∈ keys l := by
  induction l with
  | nil => simp at h
  | cons e l ih =>
    obtain ⟨k', v'⟩ := e
    rw [List.lookup_cons] at h
    by_cases hk : k == k'
    · simp [keys, beq_iff_eq.mp hk]
    · simp only [hk] at h
      exact List.mem_cons_of_mem _ (ih h)

/-- A lookup that fails misses the keys. -/
lemma lookup_eq_none_iff (l : List (κ × ν)) (k : κ) : l.lookup k = .none ↔ k ∉ keys l := by
  induction l with
  | nil => simp [keys]
  | cons e l ih =>
    obtain ⟨k', v'⟩ := e
    rw [List.lookup_cons]
    by_cases hk : k == k'
    · simp [keys, beq_iff_eq.mp hk]
    · have hne : k ≠ k' := by simpa using hk
      simp only [hk, ih, keys, List.map_cons, List.mem_cons, hne, false_or]

/-- What a lookup finds is in the list. -/
lemma mem_of_lookup {l : List (κ × ν)} {k : κ} {v : ν} (h : l.lookup k = some v) :
    (k, v) ∈ l := by
  induction l with
  | nil => simp at h
  | cons e l ih =>
    obtain ⟨k', v'⟩ := e
    rw [List.lookup_cons] at h
    by_cases hk : k == k'
    · simp only [hk, Option.some.injEq] at h
      simp [beq_iff_eq.mp hk, h]
    · simp only [hk] at h
      exact List.mem_cons_of_mem _ (ih h)

/-- With distinct keys every pair is found under its key. -/
lemma lookup_of_mem {l : List (κ × ν)} (hl : (keys l).Nodup) {k : κ} {v : ν}
    (h : (k, v) ∈ l) : l.lookup k = some v := by
  induction l with
  | nil => simp at h
  | cons e l ih =>
    obtain ⟨k', v'⟩ := e
    simp only [keys, List.map_cons, List.nodup_cons] at hl
    rw [List.lookup_cons]
    rcases List.mem_cons.mp h with heq | hm
    · simp only [Prod.mk.injEq] at heq
      simp [heq]
    · have hne : k ≠ k' := by
        rintro rfl
        exact hl.1 (List.mem_map_of_mem (f := Prod.fst) hm)
      have hb : (k == k') = false := by simpa using hne
      simp only [hb]
      exact ih hl.2 hm

/-- An assignment to a key that is there keeps the length. -/
lemma length_assign_of_mem {l : List (κ × ν)} {k : κ} (h : k ∈ keys l) (v : ν) :
    (assign l k v).length = l.length := by
  induction l with
  | nil => simp [keys] at h
  | cons e l ih =>
    obtain ⟨k', v'⟩ := e
    by_cases hk : k == k'
    · simp [assign, hk]
    · have hmem : k ∈ keys l := by
        simp only [keys, List.map_cons, List.mem_cons] at h
        exact h.resolve_left fun heq => hk (beq_iff_eq.mpr heq)
      simp [assign, hk, ih hmem]

/-- An assignment to a new key is one more. -/
lemma length_assign_of_notMem {l : List (κ × ν)} {k : κ} (h : k ∉ keys l) (v : ν) :
    (assign l k v).length = l.length + 1 := by
  induction l with
  | nil => rfl
  | cons e l ih =>
    obtain ⟨k', v'⟩ := e
    simp only [keys, List.map_cons, List.mem_cons, not_or] at h
    simp [assign, h.1, ih h.2]

end Assoc

/-- A table: rows under a primary key. -/
structure Table (κ ν : Type) where
  rows : List (κ × ν)
  nodup : (keys rows).Nodup

namespace Table

variable {κ ν : Type}

/-- The table without rows. -/
def empty : Table κ ν := ⟨[], by simp [keys]⟩

variable [BEq κ] [LawfulBEq κ]

/-- The row of a key. -/
def get (t : Table κ ν) (k : κ) : Option ν := t.rows.lookup k

/-- Insert a row, or replace the row of its key. -/
def set (t : Table κ ν) (k : κ) (v : ν) : Table κ ν :=
  ⟨assign t.rows k v, nodup_keys_assign t.rows k v t.nodup⟩

/-- Delete the rows of some keys. -/
def without (t : Table κ ν) (ks : List κ) : Table κ ν :=
  ⟨t.rows.filter fun r => !ks.contains r.1, (List.filter_sublist.map Prod.fst).nodup t.nodup⟩

/-- Whether some row satisfies a condition. -/
def any (t : Table κ ν) (p : κ → ν → Bool) : Bool := t.rows.any fun r => p r.1 r.2

omit [LawfulBEq κ] in
/-- Lookup in the table without rows. -/
@[simp]
lemma get_empty (k : κ) : (empty : Table κ ν).get k = none := rfl

/-- Lookup after an update. -/
lemma get_set (t : Table κ ν) (k : κ) (v : ν) (j : κ) :
    (t.set k v).get j = if j == k then some v else t.get j :=
  lookup_assign t.rows k v j

/-- Lookup of the updated key. -/
@[simp]
lemma get_set_self (t : Table κ ν) (k : κ) (v : ν) : (t.set k v).get k = some v := by
  simp [get_set]

/-- The second of two updates of a key stands. -/
lemma set_set (t : Table κ ν) (k : κ) (v w : ν) : (t.set k v).set k w = t.set k w := by
  simp only [set, assign_assign]

/-- Lookup of another key. -/
lemma get_set_of_ne (t : Table κ ν) {k j : κ} (v : ν) (h : j ≠ k) :
    (t.set k v).get j = t.get j := by
  simp [get_set, h]

/-- A new row changes the table. -/
lemma set_ne_of_get_eq_none {t : Table κ ν} {k : κ} (v : ν) (h : t.get k = none) :
    t.set k v ≠ t := by
  intro heq
  have hget := get_set_self t k v
  rw [heq, h] at hget
  cases hget

/-- What a lookup after an update finds: the new row, or an old row of another key. -/
lemma get_set_eq_some {t : Table κ ν} {k j : κ} {v u : ν} (h : (t.set k v).get j = some u) :
    j = k ∧ u = v ∨ j ≠ k ∧ t.get j = some u := by
  by_cases hj : j = k
  · subst hj
    exact Or.inl ⟨rfl, (Option.some.inj ((get_set_self t j v).symm.trans h)).symm⟩
  · exact Or.inr ⟨hj, get_set_of_ne t v hj ▸ h⟩

/-- A row with a property is still there after an update that does not lose the property. -/
lemma exists_get_set {t : Table κ ν} {k j : κ} {v : ν} {P : ν → Prop}
    (h : ∃ u, t.get j = some u ∧ P u) (hv : j = k → P v) : ∃ u, (t.set k v).get j = some u ∧ P u := by
  by_cases hj : j = k
  · subst hj
    exact ⟨v, get_set_self t j v, hv rfl⟩
  · obtain ⟨u, hu, hP⟩ := h
    exact ⟨u, (get_set_of_ne t v hj).trans hu, hP⟩

/-- Every row is kept, and with it what a function reads of it. -/
def Keeps {β : Type} (t : Table κ ν) (read : ν → β) (t' : Table κ ν) : Prop :=
  ∀ k v, t.get k = some v → ∃ v', t'.get k = some v' ∧ read v' = read v

omit [LawfulBEq κ] in
/-- A table keeps its rows. -/
lemma Keeps.refl {β : Type} {read : ν → β} (t : Table κ ν) : t.Keeps read t :=
  fun _ v h => ⟨v, h, rfl⟩

omit [LawfulBEq κ] in
/-- Kept in turn. -/
lemma Keeps.trans {β : Type} {read : ν → β} {t₁ t₂ t₃ : Table κ ν} (h : t₁.Keeps read t₂)
    (h' : t₂.Keeps read t₃) : t₁.Keeps read t₃ := by
  intro k v hget
  obtain ⟨v', hget', hread⟩ := h k v hget
  obtain ⟨v'', hget'', hread'⟩ := h' k v' hget'
  exact ⟨v'', hget'', hread'.trans hread⟩

/-- A new row keeps the others. -/
lemma keeps_set_new {β : Type} {read : ν → β} {t : Table κ ν} {k : κ} (v : ν)
    (h : t.get k = none) : t.Keeps read (t.set k v) := by
  intro j u hget
  have hj : j ≠ k := by
    rintro rfl
    cases h.symm.trans hget
  exact ⟨u, (t.get_set_of_ne v hj).trans hget, rfl⟩

/-- An update that agrees with the old row keeps the rows. -/
lemma keeps_set_old {β : Type} {read : ν → β} {t : Table κ ν} {k : κ} {v old : ν}
    (h : t.get k = some old) (hread : read v = read old) : t.Keeps read (t.set k v) := by
  intro j u hget
  by_cases hj : j = k
  · subst hj
    obtain rfl := Option.some.inj (h.symm.trans hget)
    exact ⟨v, t.get_set_self j v, hread⟩
  · exact ⟨u, (t.get_set_of_ne v hj).trans hget, rfl⟩

/-- What a lookup finds is a row, and conversely. -/
lemma mem_rows_iff (t : Table κ ν) (k : κ) (v : ν) : (k, v) ∈ t.rows ↔ t.get k = some v :=
  ⟨lookup_of_mem t.nodup, mem_of_lookup⟩

/-- What a lookup after a deletion finds. -/
lemma get_without_eq_some {t : Table κ ν} {ks : List κ} {k : κ} {v : ν} :
    (t.without ks).get k = some v ↔ t.get k = some v ∧ k ∉ ks := by
  rw [← mem_rows_iff, ← mem_rows_iff, without, List.mem_filter]
  simp

/-- An existence query succeeds exactly when some lookup satisfies it. -/
lemma any_iff (t : Table κ ν) (p : κ → ν → Bool) :
    t.any p = true ↔ ∃ k v, t.get k = some v ∧ p k v = true := by
  simp only [any, List.any_eq_true, Prod.exists, mem_rows_iff]

/-- An existence query fails exactly when no lookup satisfies it. -/
lemma any_eq_false_iff (t : Table κ ν) (p : κ → ν → Bool) :
    t.any p = false ↔ ∀ k v, t.get k = some v → p k v = false := by
  rw [← Bool.not_eq_true, any_iff]
  simp

/-! ### Sizes -/

/-- The number of rows. -/
def size (t : Table κ ν) : ℕ := t.rows.length

/-- An update of a row keeps their number. -/
lemma size_set_of_some {t : Table κ ν} {k : κ} {u : ν} (h : t.get k = some u) (v : ν) :
    (t.set k v).size = t.size :=
  length_assign_of_mem (mem_keys_of_lookup h) v

/-- A new row is one more. -/
lemma size_set_of_none {t : Table κ ν} {k : κ} (h : t.get k = none) (v : ν) :
    (t.set k v).size = t.size + 1 :=
  length_assign_of_notMem ((lookup_eq_none_iff t.rows k).mp h) v

omit [LawfulBEq κ] in
/-- A deletion adds no row. -/
lemma size_without_le (t : Table κ ν) (ks : List κ) : (t.without ks).size ≤ t.size :=
  List.length_filter_le _ _

/-- A deletion of a row leaves fewer. -/
lemma size_without_lt {t : Table κ ν} {ks : List κ} {k : κ} {v : ν} (h : t.get k = some v)
    (hk : k ∈ ks) : (t.without ks).size < t.size := by
  apply List.length_filter_lt_length_iff_exists.mpr
  exact ⟨(k, v), (t.mem_rows_iff k v).mpr h, by simpa using hk⟩

/-- A deletion of one row leaves one fewer. -/
lemma size_without_self {t : Table κ ν} {k : κ} {v : ν} (h : t.get k = some v) :
    (t.without [k]).size + 1 = t.size := by
  have hone : (keys t.rows).count k = 1 :=
    List.count_eq_one_of_mem t.nodup (mem_keys_of_lookup h)
  have hcount : t.rows.countP (fun r => r.1 == k) = 1 := by
    rw [← hone, keys, List.count, List.countP_map]
    rfl
  have hrest : t.rows.countP (fun r => decide (¬(r.1 == k) = true)) = (t.without [k]).size := by
    rw [List.countP_eq_length_filter, size, without]
    congr 2
    funext r
    simp
  have htotal : t.size = _ :=
    List.length_eq_countP_add_countP (fun r => r.1 == k) (l := t.rows)
  rw [htotal, hcount, hrest, Nat.add_comm]

end Table

end Program
