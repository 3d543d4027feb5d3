import Mathlib.Data.List.MinMax
import Mathlib.Data.Rat.Defs
import Mathlib.Algebra.Order.Ring.Rat
import VitrialSync.Program.Window
import VitrialSync.Python.Text

set_option relaxedAutoImplicit false
set_option autoImplicit false

/-!
# The rate limiter

`SlidingWindowLimiter` of `app/rate_limit.py`: a dictionary from clients to the times of their
admitted requests. Times are exact. The settings of a limiter are positive, so that a refused
request finds a time at the front of its bucket and an eviction finds a key.

## Main definitions

* `VitrialSync.RateLimit.Settings` — the arguments of the constructor.
* `VitrialSync.RateLimit.evictLocked` — `_evict_locked`.
* `VitrialSync.RateLimit.allow` — `allow`, at a moment.

## Main results

* `VitrialSync.RateLimit.allow_eq_tabled` — the limiter is one with a table.
* `VitrialSync.RateLimit.size_evictLocked_lt` — an eviction makes room.
-/

namespace VitrialSync.RateLimit

open Python Program Program.Window

/-- The settings of a limiter. -/
structure Settings where
  limit : ℕ
  window : ℚ
  maxClients : ℕ
  limit_pos : 0 < limit
  window_pos : 0 < window
  maxClients_pos : 0 < maxClients

/-- The settings of each window. -/
def Settings.limits (s : Settings) : Limits ℚ := ⟨s.limit, s.window, s.limit_pos⟩

/-- `_hits`. -/
abbrev Hits := Table Str (List ℚ)

/-- `while bucket and bucket[0] <= cutoff: bucket.popleft()`. -/
def popExpired (cutoff : ℚ) : List ℚ → List ℚ
  | [] => []
  | oldest :: rest => if oldest ≤ cutoff then popExpired cutoff rest else oldest :: rest

/-- `bucket[-1] if bucket else 0.0`. -/
def newest (bucket : List ℚ) : ℚ := bucket.getLast?.getD 0

/-- `not v or v[-1] <= cutoff`. -/
def quiet (cutoff : ℚ) (bucket : List ℚ) : Bool :=
  bucket.isEmpty || decide (newest bucket ≤ cutoff)

/-- The first step of an eviction: the keys without a time after the cutoff are deleted. -/
def unexpired (hits : Hits) (cutoff : ℚ) : Hits :=
  hits.without ((hits.rows.filter fun r => quiet cutoff r.2).map Prod.fst)

/-- `_evict_locked`. `min` returns the first of the least, in the order of insertion. -/
def evictLocked (s : Settings) (hits : Hits) (cutoff : ℚ) : Hits :=
  let hits := unexpired hits cutoff
  if hits.size < s.maxClients then hits
  else
    match hits.rows.argmin fun r => newest r.2 with
    | some oldest => hits.without [oldest.1]
    -- `min` is not called on an empty table: it is full here, and its capacity is positive.
    | none => hits

/-- The first part of `allow`: the bucket of the key, and the table with the key in it. -/
def opened (s : Settings) (hits : Hits) (key : Str) (cutoff : ℚ) : List ℚ × Hits :=
  match hits.get key with
  | some bucket => (bucket, hits)
  | none =>
    let hits := if s.maxClients ≤ hits.size then evictLocked s hits cutoff else hits
    ([], hits.set key [])

/-- `allow`, with `moment` as `now`. The bucket is changed in place. -/
def allow (s : Settings) (hits : Hits) (key : Str) (moment : ℚ) : Verdict ℚ × Hits :=
  let cutoff := moment - s.window
  let found := opened s hits key cutoff
  let bucket := popExpired cutoff found.1
  if h : s.limit ≤ bucket.length then
    (⟨false, max 0 (bucket.head (Limits.ne_nil (p := s.limits) h) + s.window - moment)⟩,
      found.2.set key bucket)
  else (⟨true, 0⟩, found.2.set key (bucket ++ [moment]))

/-! ### The limiter as one with a table -/

/-- The loop drops the times up to the cutoff. -/
lemma popExpired_eq_prune (cutoff : ℚ) (bucket : List ℚ) :
    popExpired cutoff bucket = prune cutoff bucket := by
  induction bucket with
  | nil => rfl
  | cons oldest rest ih =>
    by_cases h : oldest ≤ cutoff
    · simpa [popExpired, prune, h] using ih
    · simp [popExpired, prune, h]

/-- The end of a call: the answer of the window, and the row of the key. -/
lemma finish_eq_callAt (p : Limits ℚ) (bucket : List ℚ) (hits : Hits) (key : Str) (now : ℚ) :
    (if h : p.limit ≤ (prune (now - p.span) bucket).length then
      ((⟨false, max 0 ((prune (now - p.span) bucket).head (Limits.ne_nil h) + p.span - now)⟩ :
        Verdict ℚ), hits.set key (prune (now - p.span) bucket))
    else (⟨true, 0⟩, hits.set key (prune (now - p.span) bucket ++ [now]))) =
      ((callAt p bucket now).1, hits.set key (callAt p bucket now).2) := by
  unfold callAt
  by_cases h : p.limit ≤ (prune (now - p.span) bucket).length
  · simp only [h, ↓reduceDIte]
  · simp only [h, ↓reduceDIte]

/-- The bucket of a new key is empty. -/
lemma opened_bucket (s : Settings) (hits : Hits) (key : Str) (cutoff : ℚ) :
    (opened s hits key cutoff).1 = (hits.get key).getD [] := by
  unfold opened
  cases hits.get key <;> rfl

/-- The table that a new row goes to. -/
lemma opened_set (s : Settings) (hits : Hits) (key : Str) (cutoff : ℚ) (bucket : List ℚ) :
    (opened s hits key cutoff).2.set key bucket =
      (if (hits.get key).isNone && decide (s.maxClients ≤ hits.size) then evictLocked s hits cutoff
        else hits).set key bucket := by
  unfold opened
  cases hits.get key with
  | some old => rfl
  | none => simp [Table.set_set]

/-- **The limiter is one with a table.** -/
theorem allow_eq_tabled (s : Settings) :
    allow s = tabled s.limits s.maxClients (evictLocked s) := by
  funext hits key moment
  calc
    allow s hits key moment =
        ((callAt s.limits (opened s hits key (moment - s.window)).1 moment).1,
          (opened s hits key (moment - s.window)).2.set key
            (callAt s.limits (opened s hits key (moment - s.window)).1 moment).2) := by
      unfold allow
      simp only [popExpired_eq_prune]
      exact finish_eq_callAt s.limits _ _ key moment
    _ = tabled s.limits s.maxClients (evictLocked s) hits key moment := by
      rw [opened_bucket, opened_set]
      rfl

/-- An eviction deletes the quiet rows, and the oldest of the others if need be. -/
lemma evictLocked_eq (s : Settings) (hits : Hits) (cutoff : ℚ) :
    evictLocked s hits cutoff = makeRoom s.maxClients (unexpired hits cutoff)
      ((unexpired hits cutoff).rows.argmin fun r => newest r.2) := by
  simp only [evictLocked, makeRoom]
  split_ifs
  · rfl
  · cases (unexpired hits cutoff).rows.argmin fun r => newest r.2 <;> rfl

/-- **An eviction makes room.** -/
theorem size_evictLocked_lt (s : Settings) (hits : Hits) (cutoff : ℚ)
    (h : hits.size ≤ s.maxClients) : (evictLocked s hits cutoff).size < s.maxClients := by
  rw [evictLocked_eq]
  apply size_makeRoom_lt s.maxClients_pos ((Table.size_without_le hits _).trans h)
    (.refl (unexpired hits cutoff).rows)
  · exact fun r hr => List.argmin_mem hr
  · exact List.argmin_eq_none.mp

end VitrialSync.RateLimit
