import Mathlib.Data.List.Sort
import Mathlib.Tactic.Lemma

set_option relaxedAutoImplicit false
set_option autoImplicit false

/-!
# Reading a log by a cursor

A log is a collection of entries with distinct numbers. A reader keeps a cursor and asks for the
entries after it, in order. When it consumed a first part of them and moved the cursor to the last
number of that part, what is pending after the new cursor is the rest.

## Main definitions

* `Program.pending` — the entries after a cursor, in order.
* `Program.upTo` — the entries up to a cursor, in order.
* `Program.advance` — the cursor after some entries were consumed.

## Main results

* `Program.pairwise_pending` — the pending entries have increasing numbers.
* `Program.pending_advance` — what is pending after the cursor was moved.
* `Program.upTo_advance` — what has been passed after the cursor was moved.
* `Program.upTo_append` — entries that are added after a cursor do not change what it has passed.
-/

namespace Program

variable {α : Type} (key : α → ℕ)

/-- The entries after a cursor, in the order of their numbers. -/
def pending (log : List α) (cursor : ℕ) : List α :=
  (log.filter fun a => cursor < key a).insertionSort fun a b => key a ≤ key b

/-- The cursor after some entries were consumed. -/
def advance (cursor : ℕ) (consumed : List α) : ℕ :=
  consumed.foldl (fun m a => max m (key a)) cursor

/-- The new cursor depends on the numbers alone. -/
lemma advance_eq_foldl (cursor : ℕ) (consumed : List α) :
    advance key cursor consumed = (consumed.map key).foldl max cursor :=
  List.foldl_map.symm

variable {key}

/-- The order of the numbers is total. -/
instance totalKey : Std.Total fun a b : α => key a ≤ key b := ⟨fun _ _ => Nat.le_total _ _⟩

/-- The order of the numbers is transitive. -/
instance transKey : IsTrans α fun a b : α => key a ≤ key b := ⟨fun _ _ _ => Nat.le_trans⟩

/-- The pending entries are the entries of the log after the cursor. -/
lemma mem_pending {log : List α} {cursor : ℕ} {a : α} :
    a ∈ pending key log cursor ↔ a ∈ log ∧ cursor < key a := by
  rw [pending, (List.perm_insertionSort _ _).mem_iff, List.mem_filter, decide_eq_true_eq]

/-- The pending entries of a log whose entries are renamed. -/
lemma pending_map {β : Type} (f : β → α) (log : List β) (cursor : ℕ) :
    pending key (log.map f) cursor = (pending (key ∘ f) log cursor).map f := by
  have hsort := List.map_insertionSort (fun a b => (key ∘ f) a ≤ (key ∘ f) b)
    (fun a b => key a ≤ key b) f (log.filter fun b => cursor < (key ∘ f) b)
    fun _ _ _ _ => Iff.rfl
  rw [pending, pending, hsort, List.filter_map]
  rfl

/-- The pending entries have increasing numbers. -/
lemma pairwise_pending {log : List α} (hkeys : (log.map key).Nodup) (cursor : ℕ) :
    (pending key log cursor).Pairwise fun a b => key a < key b := by
  have hsorted := List.pairwise_insertionSort (fun a b : α => key a ≤ key b)
    (log.filter fun a => cursor < key a)
  have hperm := List.perm_insertionSort (fun a b : α => key a ≤ key b)
    (log.filter fun a => cursor < key a)
  have hdistinct : ((pending key log cursor).map key).Nodup :=
    ((hperm.map key).nodup_iff).mpr ((List.filter_sublist.map key).nodup hkeys)
  have hne : (pending key log cursor).Pairwise fun a b => key a ≠ key b :=
    List.pairwise_map.mp hdistinct
  exact hsorted.imp₂ (fun a b hle hne => lt_of_le_of_ne hle hne) hne

/-- A later cursor leaves the entries after it. -/
lemma pending_filter {log : List α} (hkeys : (log.map key).Nodup) {cursor later : ℕ}
    (h : cursor ≤ later) :
    pending key log later = (pending key log cursor).filter fun a => later < key a := by
  have hperm : (pending key log later).Perm
      ((pending key log cursor).filter fun a => later < key a) := by
    refine (List.perm_insertionSort _ _).trans ?_
    refine List.Perm.trans ?_ ((List.perm_insertionSort _ _).filter _).symm
    rw [List.filter_filter]
    refine List.Perm.of_eq (List.filter_congr fun a _ => ?_)
    by_cases hlater : later < key a
    · simp [hlater, lt_of_le_of_lt h hlater]
    · simp [hlater]
  refine List.Perm.eq_of_pairwise ?_ (pairwise_pending hkeys later)
    ((pairwise_pending hkeys cursor).filter _) hperm
  intro a b _ _ hab hba
  exact absurd hab (Nat.lt_asymm hba)

/-- The cursor does not move back. -/
lemma le_advance (cursor : ℕ) (consumed : List α) : cursor ≤ advance key cursor consumed := by
  induction consumed generalizing cursor with
  | nil => exact le_rfl
  | cons a consumed ih => exact (le_max_left _ _).trans (ih _)

/-- The cursor is not before what was consumed. -/
lemma key_le_advance {cursor : ℕ} {consumed : List α} {a : α} (h : a ∈ consumed) :
    key a ≤ advance key cursor consumed := by
  induction consumed generalizing cursor with
  | nil => cases h
  | cons b consumed ih =>
    rcases List.mem_cons.mp h with rfl | h
    · exact (le_max_right _ _).trans (le_advance _ consumed)
    · exact ih h

/-- A bound of the cursor and of what was consumed bounds the new cursor. -/
lemma advance_le {cursor bound : ℕ} {consumed : List α} (hcursor : cursor ≤ bound)
    (h : ∀ a ∈ consumed, key a ≤ bound) : advance key cursor consumed ≤ bound := by
  induction consumed generalizing cursor with
  | nil => exact hcursor
  | cons a consumed ih =>
    rw [List.forall_mem_cons] at h
    exact ih (max_le hcursor h.1) h.2

variable (key) in
/-- The new cursor is the old one or the number of something consumed. -/
lemma advance_mem (cursor : ℕ) (consumed : List α) :
    advance key cursor consumed = cursor ∨
      ∃ a ∈ consumed, advance key cursor consumed = key a := by
  induction consumed generalizing cursor with
  | nil => exact Or.inl rfl
  | cons a consumed ih =>
    rcases ih (max cursor (key a)) with h | ⟨b, hb, h⟩
    · rcases Nat.le_total (key a) cursor with hle | hle
      · exact Or.inl (h.trans (max_eq_left hle))
      · exact Or.inr ⟨a, List.mem_cons_self, h.trans (max_eq_right hle)⟩
    · exact Or.inr ⟨b, List.mem_cons_of_mem _ hb, h⟩

/-- The cursor after entries in order is the number of the last of them. -/
lemma advance_concat {cursor : ℕ} {consumed : List α} {last : α}
    (hsorted : (consumed ++ [last]).Pairwise fun a b => key a ≤ key b)
    (hcursor : cursor ≤ key last) :
    advance key cursor (consumed ++ [last]) = key last := by
  refine le_antisymm (advance_le hcursor fun a ha => ?_)
    (key_le_advance (List.mem_append_right _ (List.mem_singleton_self _)))
  rcases List.mem_append.mp ha with ha | ha
  · exact (List.pairwise_append.mp hsorted).2.2 a ha last (List.mem_singleton_self _)
  · rw [List.mem_singleton.mp ha]

/-- **Paging.** When a first part of the pending entries was consumed, the rest is pending.

**Proof sketch.** The numbers increase along the pending entries, so the new cursor is at least the
number of every consumed entry and below the number of every other one. -/
theorem pending_advance {log : List α} (hkeys : (log.map key).Nodup) {cursor : ℕ}
    {consumed rest : List α} (h : pending key log cursor = consumed ++ rest) :
    pending key log (advance key cursor consumed) = rest := by
  have hsorted := pairwise_pending hkeys cursor
  rw [h, List.pairwise_append] at hsorted
  have hrest : ∀ b ∈ rest, advance key cursor consumed < key b := by
    intro b hb
    rcases advance_mem key cursor consumed with hcursor | ⟨a, ha, hcursor⟩
    · have hmem : b ∈ pending key log cursor := by
        rw [h]
        exact List.mem_append_right _ hb
      rw [hcursor]
      exact (mem_pending.mp hmem).2
    · rw [hcursor]
      exact hsorted.2.2 a ha b hb
  rw [pending_filter hkeys (le_advance cursor consumed), h, List.filter_append]
  have hnone : consumed.filter (fun a => advance key cursor consumed < key a) = [] := by
    rw [List.filter_eq_nil_iff]
    intro a ha
    simpa using key_le_advance ha
  have hall : rest.filter (fun a => advance key cursor consumed < key a) = rest := by
    rw [List.filter_eq_self]
    intro b hb
    simpa using hrest b hb
  rw [hnone, hall, List.nil_append]

/-! ### What a cursor has passed -/

variable (key) in
/-- The entries with a positive number up to a cursor, in order. -/
def upTo (log : List α) (cursor : ℕ) : List α := (pending key log 0).filter fun a => key a ≤ cursor

/-- An entry that a cursor has passed. -/
lemma mem_upTo {log : List α} {cursor : ℕ} {a : α} :
    a ∈ upTo key log cursor ↔ a ∈ log ∧ 0 < key a ∧ key a ≤ cursor := by
  rw [upTo, List.mem_filter, mem_pending, decide_eq_true_eq, and_assoc]

/-- The entries up to a bound of a first part of an increasing list. -/
lemma filter_le_append {first second : List α} {bound : ℕ} (hfirst : ∀ a ∈ first, key a ≤ bound)
    (hsecond : ∀ a ∈ second, bound < key a) :
    (first ++ second).filter (fun a => key a ≤ bound) = first := by
  rw [List.filter_append, List.filter_eq_self.mpr fun a ha => decide_eq_true (hfirst a ha),
    List.filter_eq_nil_iff.mpr fun a ha => by simpa using hsecond a ha, List.append_nil]

/-- The log is what a cursor has passed and what is pending. -/
lemma upTo_append_pending {log : List α} (hkeys : (log.map key).Nodup) (cursor : ℕ) :
    upTo key log cursor ++ pending key log cursor = pending key log 0 := by
  have hperm : (upTo key log cursor ++ pending key log cursor).Perm (pending key log 0) := by
    have hsplit := List.filter_append_perm (fun a => decide (key a ≤ cursor)) (pending key log 0)
    refine List.Perm.trans ?_ hsplit
    rw [upTo, pending_filter hkeys (Nat.zero_le cursor)]
    refine List.Perm.of_eq (congrArg _ (List.filter_congr fun a _ => ?_))
    by_cases h : key a ≤ cursor
    · simp [h]
    · simp [h, not_le.mp h]
  refine List.Perm.eq_of_pairwise (fun a b _ _ hab hba => absurd hab (Nat.lt_asymm hba)) ?_
    (pairwise_pending hkeys 0) hperm
  refine List.pairwise_append.mpr ⟨(pairwise_pending hkeys 0).filter _,
    pairwise_pending hkeys cursor, fun a ha b hb => ?_⟩
  exact lt_of_le_of_lt (mem_upTo.mp ha).2.2 (mem_pending.mp hb).2

/-- When a first part of the pending entries was consumed, the cursor has passed these too. -/
lemma upTo_advance {log : List α} (hkeys : (log.map key).Nodup) {cursor : ℕ}
    {consumed rest : List α} (h : pending key log cursor = consumed ++ rest) :
    upTo key log (advance key cursor consumed) = upTo key log cursor ++ consumed := by
  have hrest := pending_advance hkeys h
  rw [upTo, ← upTo_append_pending hkeys cursor, h, ← List.append_assoc]
  refine filter_le_append (fun a ha => ?_) fun a ha => ?_
  · rcases List.mem_append.mp ha with ha | ha
    · exact (mem_upTo.mp ha).2.2.trans (le_advance _ _)
    · exact key_le_advance ha
  · rw [← hrest] at ha
    exact (mem_pending.mp ha).2

/-- Entries that are added after a cursor do not change what it has passed. -/
lemma upTo_append {log new : List α} (hkeys : ((log ++ new).map key).Nodup) {cursor : ℕ}
    (hnew : ∀ a ∈ new, cursor < key a) : upTo key (log ++ new) cursor = upTo key log cursor := by
  have hlog : (log.map key).Nodup := by
    rw [List.map_append] at hkeys
    exact hkeys.of_append_left
  have hperm : (upTo key (log ++ new) cursor).Perm (upTo key log cursor) := by
    refine ((List.perm_insertionSort _ _).filter _).trans ?_
    refine List.Perm.trans ?_ ((List.perm_insertionSort _ _).filter _).symm
    have hnone : (new.filter fun a => 0 < key a).filter (fun a => decide (key a ≤ cursor)) = [] :=
      List.filter_eq_nil_iff.mpr fun a ha => by simpa using hnew a (List.mem_of_mem_filter ha)
    rw [List.filter_append, List.filter_append, hnone, List.append_nil]
  exact List.Perm.eq_of_pairwise (fun a b _ _ hab hba => absurd hab (Nat.lt_asymm hba))
    ((pairwise_pending hkeys 0).filter _) ((pairwise_pending hlog 0).filter _) hperm

end Program
