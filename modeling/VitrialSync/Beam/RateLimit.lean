import VitrialSync.Server.RateLimit

set_option relaxedAutoImplicit false
set_option autoImplicit false

/-!
# The rate limiter of the BEAM server

`VitrialWeb.RateLimit.Window`, the port of the rate limiter: a map from clients to the lists of their
admitted times. The order in which a map is enumerated is not specified; it is a parameter here.

Both limiters keep to their capacity whatever they are called with. Under as few clients as the
capacity nobody is evicted, and both are one window a client: bounded, backing off, and equal to each
other.

## Main definitions

* `VitrialSync.Beam.RateLimit.Enumeration` — an order of enumeration.
* `VitrialSync.Beam.RateLimit.evict`, `VitrialSync.Beam.RateLimit.allow` — `evict/3` and `allow/3`.
* `VitrialSync.Beam.RateLimit.WindowsKept` — what holds of the limiters in every run.

## Main results

* `VitrialSync.Beam.RateLimit.allow_eq_tabled` — the limiter is one with a table.
* `VitrialSync.Beam.RateLimit.windows_kept` — both limiters keep their windows.
-/

namespace VitrialSync.Beam.RateLimit

open Python Program Program.Window
open VitrialSync.RateLimit (Settings Hits)

/-- An order in which a map is enumerated. -/
structure Enumeration where
  toList : Hits → List (Str × List ℚ)
  perm : ∀ hits, (toList hits).Perm hits.rows

/-- `keep?/2`. -/
def keep (bucket : List ℚ) (cutoff : ℚ) : Bool :=
  match bucket.getLast? with
  | none => false
  | some newest => decide (cutoff < newest)

/-- `prune/2`. -/
def prune : (bucket : List ℚ) → (cutoff : ℚ) → List ℚ
  | oldest :: rest, cutoff => if oldest ≤ cutoff then prune rest cutoff else oldest :: rest
  | [], _ => []

/-- The first step of an eviction: the keys without a time after the cutoff are deleted. -/
def unexpired (hits : Hits) (cutoff : ℚ) : Hits :=
  hits.without ((hits.rows.filter fun r => !keep r.2 cutoff).map Prod.fst)

/-- `evict/3`. `Enum.min_by/2` returns the first of the least. -/
def evict (order : Enumeration) (hits : Hits) (cutoff : ℚ) (maxClients : ℕ) : Hits :=
  let hits := unexpired hits cutoff
  if hits.size < maxClients then hits
  else
    match (order.toList hits).argmin fun r => r.2.getLast?.getD 0 with
    | some oldest => hits.without [oldest.1]
    -- The map is full here, and its capacity is positive.
    | none => hits

/-- The first part of `allow/3`: the bucket of the key, and the map with the key in it. -/
def opened (order : Enumeration) (s : Settings) (state : Hits) (key : Str) (cutoff : ℚ) :
    List ℚ × Hits :=
  match state.get key with
  | none =>
    let hits := if s.maxClients ≤ state.size then evict order state cutoff s.maxClients else state
    ([], hits.set key [])
  | some bucket => (bucket, state)

/-- `allow/3`. -/
def allow (order : Enumeration) (s : Settings) (state : Hits) (key : Str) (now : ℚ) :
    Verdict ℚ × Hits :=
  let cutoff := now - s.window
  let found := opened order s state key cutoff
  let bucket := prune found.1 cutoff
  let hits := found.2.set key bucket
  if h : s.limit ≤ bucket.length then
    (⟨false, max 0 (bucket.head (Limits.ne_nil (p := s.limits) h) + s.window - now)⟩, hits)
  else (⟨true, 0⟩, hits.set key (bucket ++ [now]))

/-- The recursion drops the times up to the cutoff. -/
lemma prune_eq (bucket : List ℚ) (cutoff : ℚ) :
    prune bucket cutoff = Window.prune cutoff bucket := by
  induction bucket with
  | nil => rfl
  | cons oldest rest ih =>
    by_cases h : oldest ≤ cutoff
    · simpa [prune, Window.prune, h] using ih
    · simp [prune, Window.prune, h]

/-- The bucket of a new key is empty. -/
lemma opened_bucket (order : Enumeration) (s : Settings) (hits : Hits) (key : Str) (cutoff : ℚ) :
    (opened order s hits key cutoff).1 = (hits.get key).getD [] := by
  unfold opened
  cases hits.get key <;> rfl

/-- The map that a new row goes to. -/
lemma opened_set (order : Enumeration) (s : Settings) (hits : Hits) (key : Str) (cutoff : ℚ)
    (bucket : List ℚ) :
    (opened order s hits key cutoff).2.set key bucket =
      (if (hits.get key).isNone && decide (s.maxClients ≤ hits.size) then
          evict order hits cutoff s.maxClients
        else hits).set key bucket := by
  unfold opened
  cases hits.get key with
  | some old => rfl
  | none => simp [Table.set_set]

/-- **The limiter is one with a table.** -/
theorem allow_eq_tabled (order : Enumeration) (s : Settings) :
    allow order s =
      tabled s.limits s.maxClients fun hits cutoff => evict order hits cutoff s.maxClients := by
  funext hits key now
  calc
    allow order s hits key now =
        ((callAt s.limits (opened order s hits key (now - s.window)).1 now).1,
          (opened order s hits key (now - s.window)).2.set key
            (callAt s.limits (opened order s hits key (now - s.window)).1 now).2) := by
      unfold allow
      simp only [prune_eq, Table.set_set]
      exact VitrialSync.RateLimit.finish_eq_callAt s.limits _ _ key now
    _ = tabled s.limits s.maxClients (fun hits cutoff => evict order hits cutoff s.maxClients)
        hits key now := by
      rw [opened_bucket, opened_set]
      rfl

/-- An eviction deletes the quiet rows, and the oldest of the others if need be. -/
lemma evict_eq (order : Enumeration) (hits : Hits) (cutoff : ℚ) (maxClients : ℕ) :
    evict order hits cutoff maxClients = makeRoom maxClients (unexpired hits cutoff)
      ((order.toList (unexpired hits cutoff)).argmin fun r => r.2.getLast?.getD 0) := by
  simp only [evict, makeRoom]
  split_ifs
  · rfl
  · cases (order.toList (unexpired hits cutoff)).argmin fun r => r.2.getLast?.getD 0 <;> rfl

/-- **An eviction makes room.** -/
theorem size_evict_lt (order : Enumeration) (s : Settings) (hits : Hits) (cutoff : ℚ)
    (h : hits.size ≤ s.maxClients) : (evict order hits cutoff s.maxClients).size < s.maxClients := by
  rw [evict_eq]
  apply size_makeRoom_lt s.maxClients_pos ((Table.size_without_le hits _).trans h)
    (order.perm (unexpired hits cutoff))
  · exact fun r hr => List.argmin_mem hr
  · exact List.argmin_eq_none.mp

/-! ### Both limiters -/

/-- What holds of both limiters after calls. -/
structure WindowsKept (order : Enumeration) (s : Settings) (calls : List (Str × ℚ)) : Prop where
  /-- No table is larger than its capacity. -/
  serverSize : (after (VitrialSync.RateLimit.allow s) .empty calls).size ≤ s.maxClients
  beamSize : (after (allow order s) .empty calls).size ≤ s.maxClients
  /-- Under as few clients as the capacity, no span of time holds more admitted requests of a client
  than the limit. -/
  bounded : (calls.map Prod.fst).toFinset.card ≤ s.maxClients →
    Bounded s.limits (trace (VitrialSync.RateLimit.allow s) .empty calls) ∧
      Bounded s.limits (trace (allow order s) .empty calls)
  /-- Then a refused client is admitted when it was told, and not before. -/
  backsOff : (calls.map Prod.fst).toFinset.card ≤ s.maxClients →
    BacksOff (trace (VitrialSync.RateLimit.allow s) .empty calls) ∧
      BacksOff (trace (allow order s) .empty calls)
  /-- And both servers give the same answers. -/
  same : (calls.map Prod.fst).toFinset.card ≤ s.maxClients →
    trace (VitrialSync.RateLimit.allow s) .empty calls = trace (allow order s) .empty calls

/-- **Both limiters keep their windows**, whatever they are called with as time goes on.

**Proof sketch.** Both are limiters with a table whose evictions make room. Under few clients both
have the trace of one window a client, which is bounded and backs off. -/
theorem windows_kept (order : Enumeration) (s : Settings) {calls : List (Str × ℚ)}
    (hsorted : calls.Pairwise fun c c' => c.2 ≤ c'.2) : WindowsKept order s calls := by
  have hserver : (calls.map Prod.fst).toFinset.card ≤ s.maxClients →
      trace (VitrialSync.RateLimit.allow s) .empty calls =
        trace (perKey s.limits) (fun _ => []) calls := by
    intro hfew
    rw [VitrialSync.RateLimit.allow_eq_tabled]
    exact trace_tabled hfew
  have hbeam : (calls.map Prod.fst).toFinset.card ≤ s.maxClients →
      trace (allow order s) .empty calls = trace (perKey s.limits) (fun _ => []) calls := by
    intro hfew
    rw [allow_eq_tabled]
    exact trace_tabled hfew
  refine ⟨?_, ?_, fun hfew => ?_, fun hfew => ?_, fun hfew => ?_⟩
  · rw [VitrialSync.RateLimit.allow_eq_tabled]
    exact after_inv (P := fun hits : Hits => hits.size ≤ s.maxClients)
      (fun hits key now h => size_tabled_le (VitrialSync.RateLimit.size_evictLocked_lt s) h key now)
      (Nat.zero_le _) calls
  · rw [allow_eq_tabled]
    exact after_inv (P := fun hits : Hits => hits.size ≤ s.maxClients)
      (fun hits key now h => size_tabled_le (size_evict_lt order s) h key now)
      (Nat.zero_le _) calls
  · rw [hserver hfew, hbeam hfew]
    exact ⟨perKey_bounded hsorted, perKey_bounded hsorted⟩
  · rw [hserver hfew, hbeam hfew]
    exact ⟨perKey_backsOff hsorted, perKey_backsOff hsorted⟩
  · rw [hserver hfew, hbeam hfew]

namespace Sample

/-- The order of the rows. -/
def order : Enumeration := ⟨fun hits => hits.rows, fun hits => .refl hits.rows⟩

/-- One request a minute, for two clients. -/
def settings : Settings := ⟨1, 60, 2, by decide, by decide, by decide⟩

/-- Requests of two clients. -/
def calls : List (Str × ℚ) :=
  [(Str.ofString "a", 0), (Str.ofString "b", 10), (Str.ofString "a", 30), (Str.ofString "a", 60)]

end Sample

/-- Two clients are within the capacity, and the windows are kept. -/
theorem windows_kept_clients :
    (Sample.calls.map Prod.fst).toFinset.card ≤ Sample.settings.maxClients ∧
      WindowsKept Sample.order Sample.settings Sample.calls :=
  ⟨by decide +kernel, windows_kept Sample.order Sample.settings (by decide +kernel)⟩

end VitrialSync.Beam.RateLimit
