import Mathlib.Tactic.Lemma
import Mathlib.Order.Nat

set_option relaxedAutoImplicit false
set_option autoImplicit false

/-!
# Replication from a change feed

A source keeps one row for each key and numbers its changes. A reader keeps copies of its own and
the number up to which it has read. A page moves the reader on: it brings the rows, as they are now,
of the keys that changed in between, as far as the reader may see them then. Rows that the reader
may not see at that time are passed over, and nothing brings them later unless they change again.

So the reader is right about a key as soon as it has read past the last change of the key, unless
that change was passed over; and it never goes back to an older row.

## Main definitions

* `Program.Source`, `Program.Reader` — the rows with their last changes, and the copies.
* `Program.Source.Writes`, `Program.Page` — what a write and a page may do.
* `Program.Follows` — every key is behind, held or missed.
* `Program.Dated` — no copy is newer than the row of its key.

## Main results

* `Program.Follows.write`, `Program.Follows.page` — a write and a page keep `Follows`.
* `Program.Dated.write`, `Program.Dated.page`, `Program.Page.date_le` — copies only get newer.
-/

namespace Program

variable {κ β ν ρ : Type}

/-- The rows of a source: for each key its last change with the row that it left, and the number of
changes so far. -/
structure Source (κ β ν : Type) where
  counter : ℕ
  newest : κ → Option (β × ν)

/-- The copies of a reader and the number up to which it has read. -/
structure Reader (κ ρ : Type) where
  position : ℕ
  copies : κ → Option ρ

section Feed

variable (number : β → ℕ) (stamp : ν → ℕ) (shows : β → ν → ρ → Prop) (date : ρ → ℕ)

/-- What writes do: the last change of a key stays, or a change with a new number replaces it. Rows
stay and get newer. -/
structure Source.Writes (s s' : Source κ β ν) : Prop where
  counter_le : s.counter ≤ s'.counter
  newest : ∀ k x, s'.newest k = some x → s.newest k = some x ∨ s.counter < number x.1
  stamps : ∀ k b v, s.newest k = some (b, v) →
    ∃ b' v', s'.newest k = some (b', v') ∧ stamp v ≤ stamp v'

/-- What a page does to a reader that may see some of the keys. -/
structure Page (s : Source κ β ν) (sees : κ → Prop) (r r' : Reader κ ρ) : Prop where
  position_le : r.position ≤ r'.position
  bounded : r.position ≤ s.counter → r'.position ≤ s.counter
  kept : ∀ k b v, s.newest k = some (b, v) → number b ≤ r.position → r'.copies k = r.copies k
  read : ∀ k b v, s.newest k = some (b, v) → r.position < number b → number b ≤ r'.position →
    sees k → ∃ c, r'.copies k = some c ∧ shows b v c
  fresh : ∀ k, r'.copies k = r.copies k ∨
    ∃ b v m c, s.newest k = some (b, v) ∧ r'.copies k = some c ∧ shows m v c

/-- Every key is behind the reader's number, held as it is now, or missed. -/
structure Follows (s : Source κ β ν) (r : Reader κ ρ) (missed : κ → ℕ → Prop) : Prop where
  bounded : r.position ≤ s.counter
  accounted : ∀ k b v, s.newest k = some (b, v) → r.position < number b ∨
    (∃ c, r.copies k = some c ∧ shows b v c) ∨ missed k (number b)

/-- Every copy is of a key with a row, and not newer than it. -/
def Dated (s : Source κ β ν) (r : Reader κ ρ) : Prop :=
  ∀ k c, r.copies k = some c → ∃ b v, s.newest k = some (b, v) ∧ date c ≤ stamp v

variable {number stamp shows date} {s s' : Source κ β ν} {r r' : Reader κ ρ} {sees : κ → Prop}
  {missed missed' : κ → ℕ → Prop}

/-! ### What a reader is right about -/

/-- More may be missed. -/
lemma Follows.mono (h : Follows number shows s r missed) (hle : ∀ k n, missed k n → missed' k n) :
    Follows number shows s r missed' := by
  refine ⟨h.bounded, fun k b v hnewest => ?_⟩
  rcases h.accounted k b v hnewest with hbehind | hheld | hmissed
  · exact Or.inl hbehind
  · exact Or.inr (Or.inl hheld)
  · exact Or.inr (Or.inr (hle k _ hmissed))

/-- A write leaves a key as it is or puts it behind: its new number is after everything read. -/
lemma Follows.write (h : Follows number shows s r missed) (hwrites : s.Writes number stamp s') :
    Follows number shows s' r missed := by
  refine ⟨h.bounded.trans hwrites.counter_le, fun k b v hnewest => ?_⟩
  rcases hwrites.newest k (b, v) hnewest with hsame | hnew
  · exact h.accounted k b v hsame
  · exact Or.inl (lt_of_le_of_lt h.bounded hnew)

/-- After a page, what it has read past is held, unless it was not seen.

**Proof sketch.** By the place of the key's last change: what was read before the page is not
touched by it, what is after the page is behind, and what is in between the page has read. -/
lemma Follows.page (h : Follows number shows s r missed)
    (hpage : Page number shows s sees r r') :
    Follows number shows s r' fun k n =>
      missed k n ∨ r.position < n ∧ n ≤ r'.position ∧ ¬ sees k := by
  refine ⟨hpage.bounded h.bounded, fun k b v hnewest => ?_⟩
  rcases Nat.lt_or_ge r'.position (number b) with hbehind | hpassed
  · exact Or.inl hbehind
  rcases Nat.lt_or_ge r.position (number b) with hread | hold
  · by_cases hsees : sees k
    · exact Or.inr (Or.inl (hpage.read k b v hnewest hread hpassed hsees))
    · exact Or.inr (Or.inr (Or.inr ⟨hread, hpassed, hsees⟩))
  · rw [hpage.kept k b v hnewest hold]
    rcases h.accounted k b v hnewest with hbehind | hheld | hmissed
    · exact absurd hbehind (not_lt.mpr hold)
    · exact Or.inr (Or.inl hheld)
    · exact Or.inr (Or.inr (Or.inl hmissed))

/-! ### Copies only get newer -/

/-- Rows get newer under writes. -/
lemma Dated.write (h : Dated stamp date s r) (hwrites : s.Writes number stamp s') :
    Dated stamp date s' r := by
  intro k c hcopy
  obtain ⟨b, v, hnewest, hle⟩ := h k c hcopy
  obtain ⟨b', v', hnewest', hstamp⟩ := hwrites.stamps k b v hnewest
  exact ⟨b', v', hnewest', hle.trans hstamp⟩

/-- A page brings rows as they are. -/
lemma Dated.page (h : Dated stamp date s r) (hpage : Page number shows s sees r r')
    (hdate : ∀ m v c, shows m v c → date c = stamp v) : Dated stamp date s r' := by
  intro k c hcopy
  rcases hpage.fresh k with hsame | ⟨b, v, m, c', hnewest, hcopy', hshows⟩
  · exact h k c (hsame ▸ hcopy)
  · obtain rfl : c' = c := Option.some.inj (hcopy'.symm.trans hcopy)
    exact ⟨b, v, hnewest, (hdate m v c' hshows).le⟩

/-- A page replaces a copy by one that is not older. -/
lemma Page.date_le (hpage : Page number shows s sees r r') (h : Dated stamp date s r)
    (hdate : ∀ m v c, shows m v c → date c = stamp v) {k : κ} {c : ρ}
    (hcopy : r.copies k = some c) : ∃ c', r'.copies k = some c' ∧ date c ≤ date c' := by
  rcases hpage.fresh k with hsame | ⟨b, v, m, c', hnewest, hcopy', hshows⟩
  · exact ⟨c, hsame.trans hcopy, le_rfl⟩
  · obtain ⟨b₀, v₀, hnewest₀, hle⟩ := h k c hcopy
    obtain ⟨rfl, rfl⟩ := Prod.mk.inj (Option.some.inj (hnewest₀.symm.trans hnewest))
    exact ⟨c', hcopy', hle.trans_eq (hdate m v₀ c' hshows).symm⟩

end Feed

end Program
