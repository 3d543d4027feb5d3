import VitrialSync.Program.Table

set_option relaxedAutoImplicit false
set_option autoImplicit false

/-!
# Rows under their keys

A list of rows as a table: the rows whose key is wanted, under their keys, and the grouping of
values by a key.

## Main definitions

* `Program.index` — the rows with a wanted key; a later row replaces an earlier one.
* `Program.groupBy` — the values of each key.

## Main results

* `Program.get_index` — of rows with distinct keys, the index holds the one with the key, if the key
  is wanted.
* `Program.mem_groupBy` — a value is in the group of its key.
-/

namespace Program

section Index

variable {κ ρ : Type} [BEq κ] [LawfulBEq κ]

/-- The rows with a wanted key, under their keys. -/
def index (rows : List ρ) (wanted : List κ) (key : ρ → κ) : Table κ ρ :=
  rows.foldl (fun acc row => if wanted.contains (key row) then acc.set (key row) row else acc) .empty

/-- The index of rows with distinct keys, from a table on. -/
lemma get_foldl_index {rows : List ρ} {key : ρ → κ} (h : (rows.map key).Nodup) (wanted : List κ)
    (acc : Table κ ρ) (k : κ) :
    (rows.foldl (fun acc row => if wanted.contains (key row) then acc.set (key row) row else acc)
        acc).get k =
      if wanted.contains k then (rows.find? fun row => key row == k).or (acc.get k)
      else acc.get k := by
  induction rows generalizing acc with
  | nil => simp
  | cons row rows ih =>
    rw [List.map_cons, List.nodup_cons] at h
    rw [List.foldl_cons, ih h.2, List.find?_cons]
    by_cases hkey : key row = k
    · obtain rfl := hkey
      have hrest : (rows.find? fun r => key r == key row) = none := by
        rw [List.find?_eq_none]
        intro r hr heq
        exact h.1 (List.mem_map.mpr ⟨r, hr, beq_iff_eq.mp heq⟩)
      cases hwanted : wanted.contains (key row)
      · simp only [Bool.false_eq_true, ↓reduceIte]
      · simp only [hrest, ↓reduceIte, Table.get_set_self, beq_self_eq_true, Option.none_or,
          Option.some_or]
    · have hother : (key row == k) = false := beq_eq_false_iff_ne.mpr hkey
      have hget : (if wanted.contains (key row) then acc.set (key row) row else acc).get k =
          acc.get k := by
        split
        · exact Table.get_set_of_ne acc row (Ne.symm hkey)
        · rfl
      simp only [hother, hget]

/-- **The index.** Of rows with distinct keys it holds the one with the key, if the key is
wanted. -/
theorem get_index {rows : List ρ} {key : ρ → κ} (h : (rows.map key).Nodup) (wanted : List κ)
    (k : κ) :
    (index rows wanted key).get k =
      if wanted.contains k then rows.find? (fun row => key row == k) else none := by
  rw [index, get_foldl_index h, Table.get_empty]
  simp only [Option.or_none]

/-- A wanted row is found. -/
lemma get_index_of_mem {rows : List ρ} {key : ρ → κ} (h : (rows.map key).Nodup) {wanted : List κ}
    {k : κ} (hk : k ∈ wanted) :
    (index rows wanted key).get k = rows.find? fun row => key row == k := by
  rw [get_index h, if_pos (List.contains_iff_mem.mpr hk)]

/-- A wanted row is among the rows of the index. -/
lemma mem_rows_index {rows : List ρ} {key : ρ → κ} (h : (rows.map key).Nodup) {wanted : List κ}
    {k : κ} (hk : k ∈ wanted) {row : ρ} (hrow : (rows.find? fun row => key row == k) = some row) :
    (k, row) ∈ (index rows wanted key).rows := by
  rw [Table.mem_rows_iff, get_index_of_mem h hk, hrow]

end Index

section Group

variable {κ ν : Type} [BEq κ] [LawfulBEq κ]

/-- The values of a key in a grouping. -/
def members (groups : Table κ (List ν)) (k : κ) : List ν := (groups.get k).getD []

/-- The values of each key, the last one first. -/
def groupBy (pairs : List (κ × ν)) : Table κ (List ν) :=
  pairs.foldl (fun acc pair => acc.set pair.1 (pair.2 :: members acc pair.1)) .empty

/-- The members of a grouping that is continued. -/
lemma mem_foldl_groupBy (pairs : List (κ × ν)) (acc : Table κ (List ν)) (k : κ) (v : ν) :
    v ∈ members (pairs.foldl (fun acc pair => acc.set pair.1 (pair.2 :: members acc pair.1)) acc) k ↔
      v ∈ members acc k ∨ (k, v) ∈ pairs := by
  induction pairs generalizing acc with
  | nil => simp
  | cons pair pairs ih =>
    obtain ⟨k', v'⟩ := pair
    rw [List.foldl_cons, ih, List.mem_cons, Prod.mk.injEq]
    by_cases hk : k = k'
    · obtain rfl := hk
      simp only [members, Table.get_set_self, Option.getD_some, List.mem_cons, true_and]
      tauto
    · simp only [members, Table.get_set_of_ne acc _ hk, hk, false_and, false_or]

/-- **The groups.** A value is in the group of its key. -/
theorem mem_groupBy {pairs : List (κ × ν)} {k : κ} {v : ν} :
    v ∈ members (groupBy pairs) k ↔ (k, v) ∈ pairs := by
  rw [groupBy, mem_foldl_groupBy, members, Table.get_empty, Option.getD_none]
  simp

/-- The pairs of the groups whose key satisfies a condition. -/
def pairsWhere (groups : Table κ (List ν)) (p : κ → Bool) : List (κ × ν) :=
  (groups.rows.filter fun row => p row.1).flatMap fun row => row.2.map fun v => (row.1, v)

/-- They are the pairs that were grouped. -/
theorem mem_pairsWhere {pairs : List (κ × ν)} {p : κ → Bool} {k : κ} {v : ν} :
    (k, v) ∈ pairsWhere (groupBy pairs) p ↔ p k = true ∧ (k, v) ∈ pairs := by
  have hmembers : v ∈ members (groupBy pairs) k ↔ (k, v) ∈ pairs := mem_groupBy
  rw [← hmembers]
  simp only [pairsWhere, List.mem_flatMap, List.mem_filter, List.mem_map, Prod.mk.injEq,
    Prod.exists]
  constructor
  · rintro ⟨k', vs, ⟨hrow, hp⟩, v', hv, rfl, rfl⟩
    rw [members, (Table.mem_rows_iff _ _ _).mp hrow]
    exact ⟨hp, hv⟩
  · rintro ⟨hp, hv⟩
    cases hget : (groupBy pairs).get k with
    | none =>
      rw [members, hget] at hv
      cases hv
    | some vs =>
      rw [members, hget] at hv
      exact ⟨k, vs, ⟨(Table.mem_rows_iff _ _ _).mpr hget, hp⟩, v, hv, rfl, rfl⟩

end Group

end Program
