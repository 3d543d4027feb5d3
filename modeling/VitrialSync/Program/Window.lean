import Mathlib.Algebra.Order.Group.Defs
import Mathlib.Algebra.Order.Sub.Basic
import Mathlib.Data.Finset.Card
import Mathlib.Order.MinMax
import VitrialSync.Program.Table

set_option relaxedAutoImplicit false
set_option autoImplicit false

/-!
# Sliding windows

A sliding window admits a call when fewer than `limit` calls were admitted in the span of time that
ends with it, and tells a call that it refuses when the oldest of them leaves the span. It is kept as
the list of the times of the admitted calls, from which the ones that have left the span are dropped
at the next call. Times are those of any ordered group.

A limiter gives every key a window of its own. What it answers to a list of calls is its `trace`; a
limiter of any other design is compared with `perKey` by a simulation.

## Main definitions

* `Program.Window.callAt` — a call at one window.
* `Program.Window.trace` — the calls to a limiter with their answers.
* `Program.Window.perKey` — one window a key.
* `Program.Window.tabled` — the windows in a table of some capacity.
* `Program.Window.Bounded` — no span of time holds more admitted calls than the limit.
* `Program.Window.BacksOff` — a refused key is admitted again when it was told, and not before.

## Main results

* `Program.Window.trace_eq_of_simulates` — limiters that simulate each other give the same answers.
* `Program.Window.perKey_bounded`, `Program.Window.perKey_backsOff` — one window a key is bounded and
  backs off.
* `Program.Window.trace_tabled` — with few keys, a limiter with a table is one window a key.
-/

namespace Program.Window

/-! ### Limiters -/

section Limiters

variable {σ τ κ T : Type}

/-- What a call is answered: whether it is admitted, and else how long to wait. -/
structure Verdict (T : Type) where
  allowed : Bool
  retryAfter : T

/-- A call with its answer. -/
structure Event (κ T : Type) where
  key : κ
  now : T
  verdict : Verdict T

/-- The calls to a limiter, with their answers. -/
def trace (allow : σ → κ → T → Verdict T × σ) : σ → List (κ × T) → List (Event κ T)
  | _, [] => []
  | s, (k, now) :: calls => ⟨k, now, (allow s k now).1⟩ :: trace allow (allow s k now).2 calls

/-- The limiter after calls. -/
def after (allow : σ → κ → T → Verdict T × σ) (s : σ) (calls : List (κ × T)) : σ :=
  calls.foldl (fun s c => (allow s c.1 c.2).2) s

/-- What every call keeps of a limiter, calls keep. -/
lemma after_inv {allow : σ → κ → T → Verdict T × σ} {P : σ → Prop}
    (hstep : ∀ s k now, P s → P (allow s k now).2) {s : σ} (h : P s) (calls : List (κ × T)) :
    P (after allow s calls) := by
  induction calls generalizing s with
  | nil => exact h
  | cons c calls ih => exact ih (hstep s c.1 c.2 h)

/-- An event is an answered call. -/
lemma mem_of_mem_trace {allow : σ → κ → T → Verdict T × σ} {s : σ} {calls : List (κ × T)}
    {e : Event κ T} (h : e ∈ trace allow s calls) : (e.key, e.now) ∈ calls := by
  induction calls generalizing s with
  | nil => cases h
  | cons c calls ih =>
    rw [trace, List.mem_cons] at h
    rcases h with rfl | h
    · exact List.mem_cons_self
    · exact List.mem_cons_of_mem c (ih h)

/-- **Simulation.** Two limiters whose calls, under the keys that occur, are answered alike and keep
their states related give the same answers. -/
theorem trace_eq_of_simulates {allow : σ → κ → T → Verdict T × σ}
    {allow' : τ → κ → T → Verdict T × τ} {R : σ → τ → Prop} {P : κ → Prop}
    (hstep : ∀ s t k now, P k → R s t →
      (allow s k now).1 = (allow' t k now).1 ∧ R (allow s k now).2 (allow' t k now).2)
    {s : σ} {t : τ} (hR : R s t) {calls : List (κ × T)} (hkeys : ∀ c ∈ calls, P c.1) :
    trace allow s calls = trace allow' t calls := by
  induction calls generalizing s t with
  | nil => rfl
  | cons c calls ih =>
    rw [List.forall_mem_cons] at hkeys
    obtain ⟨hverdict, hnext⟩ := hstep s t c.1 c.2 hkeys.1 hR
    rw [trace, trace, hverdict, ih hnext hkeys.2]

end Limiters

/-! ### One window -/

section Prune

variable {T : Type} [LinearOrder T]

/-- Drop the times up to a cutoff from the front. -/
def prune (cutoff : T) (bucket : List T) : List T := bucket.dropWhile fun x => decide (x ≤ cutoff)

/-- What is dropped, and what is kept. -/
lemma prune_split (cutoff : T) (bucket : List T) :
    ∃ dropped, bucket = dropped ++ prune cutoff bucket ∧ ∀ x ∈ dropped, x ≤ cutoff := by
  refine ⟨bucket.takeWhile fun x => decide (x ≤ cutoff), ?_, fun x hx => ?_⟩
  · exact (List.takeWhile_append_dropWhile).symm
  · simpa using List.all_eq_true.mp List.all_takeWhile x hx

/-- A time after the cutoff at the front keeps all times. -/
lemma prune_of_lt {cutoff x : T} {rest : List T} (h : cutoff < x) :
    prune cutoff (x :: rest) = x :: rest := by
  simp [prune, not_le.mpr h]

/-- No time is added. -/
lemma length_prune_le (cutoff : T) (bucket : List T) :
    (prune cutoff bucket).length ≤ bucket.length :=
  (List.dropWhile_suffix _).length_le

/-- A time up to the cutoff at the front is dropped. -/
lemma length_prune_lt {cutoff x : T} {rest : List T} (h : x ≤ cutoff) :
    (prune cutoff (x :: rest)).length < (x :: rest).length := by
  have hle := length_prune_le cutoff rest
  simp only [prune, List.dropWhile_cons, h, decide_true, ↓reduceIte, List.length_cons]
  exact Nat.lt_succ_of_le hle

/-- The first time that is kept is after the cutoff. -/
lemma cutoff_lt_head {bucket : List T} {cutoff x : T} {rest : List T}
    (h : prune cutoff bucket = x :: rest) : cutoff < x := by
  induction bucket with
  | nil => cases h
  | cons y bucket ih =>
    by_cases hy : y ≤ cutoff
    · apply ih
      rw [← h]
      simp [prune, hy]
    · rw [prune_of_lt (not_le.mp hy)] at h
      cases h
      exact not_le.mp hy

end Prune

/-- How many calls a window admits, and the span of time. -/
structure Limits (T : Type) where
  limit : ℕ
  span : T
  limit_pos : 0 < limit

/-- As many times as the limit are some times. -/
lemma Limits.ne_nil {T : Type} {p : Limits T} {bucket : List T} (h : p.limit ≤ bucket.length) :
    bucket ≠ [] :=
  List.ne_nil_of_length_pos (lt_of_lt_of_le p.limit_pos h)

variable {κ T : Type} [DecidableEq κ] [AddCommGroup T] [LinearOrder T]

/-- A call at a window: its answer and the times that are kept. -/
def callAt (p : Limits T) (bucket : List T) (now : T) : Verdict T × List T :=
  let kept := prune (now - p.span) bucket
  if h : p.limit ≤ kept.length then
    (⟨false, max 0 (kept.head (Limits.ne_nil h) + p.span - now)⟩, kept)
  else (⟨true, 0⟩, kept ++ [now])

/-- One window a key. -/
def perKey (p : Limits T) (buckets : κ → List T) (k : κ) (now : T) :
    Verdict T × (κ → List T) :=
  let call := callAt p (buckets k) now
  (call.1, Function.update buckets k call.2)

section Admit

variable {p : Limits T} {bucket : List T} {now : T}

/-- An admitted call is the last one kept. -/
lemma callAt_of_lt (h : (prune (now - p.span) bucket).length < p.limit) :
    callAt p bucket now = (⟨true, 0⟩, prune (now - p.span) bucket ++ [now]) := by
  simp [callAt, not_le.mpr h]

/-- A refused call is told when the first one kept leaves the span. -/
lemma callAt_of_le (h : p.limit ≤ (prune (now - p.span) bucket).length) :
    ∃ x rest, prune (now - p.span) bucket = x :: rest ∧
      callAt p bucket now = (⟨false, max 0 (x + p.span - now)⟩, x :: rest) := by
  cases hkept : prune (now - p.span) bucket with
  | nil => exact absurd hkept (Limits.ne_nil h)
  | cons x rest =>
    refine ⟨x, rest, rfl, ?_⟩
    rw [hkept, List.length_cons] at h
    simp [callAt, hkept, h]

/-- A window never keeps more times than the limit. -/
lemma length_callAt_le (h : bucket.length ≤ p.limit) : (callAt p bucket now).2.length ≤ p.limit := by
  by_cases hkept : p.limit ≤ (prune (now - p.span) bucket).length
  · obtain ⟨x, rest, hsame, hcall⟩ := callAt_of_le hkept
    rw [hcall, ← hsame]
    exact (length_prune_le _ _).trans h
  · rw [callAt_of_lt (not_le.mp hkept), List.length_append]
    exact not_le.mp hkept

/-- A call of another key leaves a window as it is. -/
lemma perKey_of_ne {buckets : κ → List T} {k key : κ} (h : key ≠ k) (now : T) :
    (perKey p buckets key now).2 k = buckets k :=
  Function.update_of_ne (Ne.symm h) _ _

/-- A call of the key leaves its window as the call did. -/
lemma perKey_self (buckets : κ → List T) (k : κ) (now : T) :
    (perKey p buckets k now).2 k = (callAt p (buckets k) now).2 :=
  Function.update_self k _ _

end Admit

/-! ### The bound -/

section Bound

/-- The times of the admitted calls of a key. -/
def allowedTimes (k : κ) (events : List (Event κ T)) : List T :=
  (events.filter fun e => decide (e.key = k) && e.verdict.allowed).map Event.now

/-- In every span of time, at most the limit of calls of a key is admitted. -/
def Bounded (p : Limits T) (events : List (Event κ T)) : Prop :=
  ∀ k t, ((allowedTimes k events).filter fun x =>
    decide (t - p.span < x ∧ x ≤ t)).length ≤ p.limit

/-- Times each of which has fewer than the limit before it in the span that it ends. -/
inductive Spaced (p : Limits T) : List T → Prop
  | nil : Spaced p []
  | snoc {times : List T} {x : T} (h : Spaced p times)
      (hfew : (times.filter fun y => decide (x - p.span < y)).length < p.limit) :
      Spaced p (times ++ [x])

/-- A window keeps the times that may still be in the span: what it has dropped of the history is
not. -/
def Tracks (p : Limits T) (history : List T) (now : T) (bucket : List T) : Prop :=
  ∃ dropped, history = dropped ++ bucket ∧ ∀ x ∈ dropped, x ≤ now - p.span

variable {p : Limits T} [IsOrderedAddMonoid T]

/-- No span holds more than the limit of spaced times.

**Proof sketch.** Induction on the times. The last of them that is in the span has at most the others
before it: a time after `t - span` is after `x - span` when `x ≤ t`. -/
lemma Spaced.bounded {times : List T} (h : Spaced p times) (t : T) :
    (times.filter fun x => decide (t - p.span < x ∧ x ≤ t)).length ≤ p.limit := by
  induction h with
  | nil => simp
  | @snoc times x h hfew ih =>
    by_cases hx : t - p.span < x ∧ x ≤ t
    · have hsub : ((times.filter fun y => decide (t - p.span < y ∧ y ≤ t)).length) ≤
          (times.filter fun y => decide (x - p.span < y)).length := by
        rw [← List.countP_eq_length_filter, ← List.countP_eq_length_filter]
        apply List.countP_mono_left
        intro y _ hy
        simp only [decide_eq_true_eq] at hy ⊢
        exact lt_of_le_of_lt (sub_le_sub_right hx.2 p.span) hy.1
      rw [List.filter_append, List.length_append, List.filter_cons_of_pos (by simpa using hx)]
      exact Nat.succ_le_of_lt (lt_of_le_of_lt hsub hfew)
    · rw [List.filter_append, List.filter_cons_of_neg (by simpa using hx)]
      simpa using ih

/-- What was dropped stays dropped. -/
lemma Tracks.mono {history bucket : List T} {now now' : T} (h : Tracks p history now bucket)
    (hle : now ≤ now') : Tracks p history now' bucket := by
  obtain ⟨dropped, hsplit, hdropped⟩ := h
  exact ⟨dropped, hsplit, fun x hx => (hdropped x hx).trans (sub_le_sub_right hle p.span)⟩

omit [IsOrderedAddMonoid T] in
/-- Pruning drops what has left the span. -/
lemma Tracks.prune {history bucket : List T} {now : T} (h : Tracks p history now bucket) :
    Tracks p history now (prune (now - p.span) bucket) := by
  obtain ⟨dropped, rfl, hdropped⟩ := h
  obtain ⟨more, hsplit, hmore⟩ := prune_split (now - p.span) bucket
  refine ⟨dropped ++ more, by rw [List.append_assoc, ← hsplit], fun x hx => ?_⟩
  exact (List.mem_append.mp hx).elim (hdropped x) (hmore x)

omit [IsOrderedAddMonoid T] in
/-- What is still in the span is kept. -/
lemma Tracks.length_filter_le {history bucket : List T} {now : T}
    (h : Tracks p history now bucket) :
    (history.filter fun y => decide (now - p.span < y)).length ≤ bucket.length := by
  obtain ⟨dropped, rfl, hdropped⟩ := h
  have hnone : dropped.filter (fun y => decide (now - p.span < y)) = [] := by
    rw [List.filter_eq_nil_iff]
    intro x hx
    simpa using hdropped x hx
  rw [List.filter_append, hnone, List.nil_append]
  exact List.length_filter_le _ _

/-- The history of a key after a call. -/
def recorded (history : List T) (now : T) (allowed : Bool) : List T :=
  if allowed then history ++ [now] else history

omit [IsOrderedAddMonoid T] in
/-- A call keeps the window in step with the history, and the history spaced. -/
lemma Tracks.callAt {history bucket : List T} {now : T} (h : Tracks p history now bucket)
    (hspaced : Spaced p history) :
    Tracks p (recorded history now (callAt p bucket now).1.allowed) now (callAt p bucket now).2 ∧
      Spaced p (recorded history now (callAt p bucket now).1.allowed) := by
  have hpruned := h.prune
  by_cases hkept : p.limit ≤ (Window.prune (now - p.span) bucket).length
  · obtain ⟨x, rest, hsame, hcall⟩ := callAt_of_le hkept
    rw [hcall]
    rw [hsame] at hpruned
    exact ⟨hpruned, hspaced⟩
  · have hfew := lt_of_le_of_lt hpruned.length_filter_le (not_le.mp hkept)
    rw [callAt_of_lt (not_le.mp hkept)]
    obtain ⟨dropped, hsplit, hdropped⟩ := hpruned
    refine ⟨⟨dropped, ?_, hdropped⟩, hspaced.snoc hfew⟩
    rw [recorded, if_pos rfl, ← List.append_assoc, ← hsplit]

/-- The admitted calls of a key are spaced.

**Proof sketch.** Induction on the calls, with any windows that keep up with a spaced history of the
key by the time of every call that follows. -/
lemma spaced_trace (k : κ) {calls : List (κ × T)} {buckets : κ → List T} {history : List T}
    (hspaced : Spaced p history) (htracks : ∀ c ∈ calls, Tracks p history c.2 (buckets k))
    (hsorted : calls.Pairwise fun c c' => c.2 ≤ c'.2) :
    Spaced p (history ++ allowedTimes k (trace (perKey p) buckets calls)) := by
  induction calls generalizing buckets history with
  | nil => simpa [trace, allowedTimes] using hspaced
  | cons c calls ih =>
    obtain ⟨key, now⟩ := c
    rw [List.pairwise_cons] at hsorted
    rw [List.forall_mem_cons] at htracks
    by_cases hkey : key = k
    · subst hkey
      obtain ⟨hnext, hspaced'⟩ := htracks.1.callAt hspaced
      have hrest := @ih (perKey p buckets key now).2 _ hspaced' (fun c hc => by
        simpa [perKey] using hnext.mono (hsorted.1 c hc)) hsorted.2
      rw [trace]
      cases hallowed : (Window.callAt p (buckets key) now).1.allowed <;>
        simpa [allowedTimes, perKey, recorded, hallowed] using hrest
    · have hrest := @ih (perKey p buckets key now).2 _ hspaced (fun c hc => by
        rw [perKey_of_ne hkey]
        exact htracks.2 c hc) hsorted.2
      rw [trace]
      simpa [allowedTimes, hkey] using hrest

/-- **One window a key is bounded.** -/
theorem perKey_bounded {calls : List (κ × T)} (hsorted : calls.Pairwise fun c c' => c.2 ≤ c'.2) :
    Bounded p (trace (perKey p) (fun _ => []) calls) := by
  intro k t
  have hspaced : Spaced p ([] ++ allowedTimes k (trace (perKey p) (fun _ => []) calls)) :=
    spaced_trace k .nil (fun c _ => ⟨[], rfl, by simp⟩) hsorted
  exact hspaced.bounded t

end Bound

/-! ### Backing off -/

section BackOff

/-- A key that is refused and waits as long as it was told is admitted, and it is refused until
then. -/
def BacksOff (events : List (Event κ T)) : Prop :=
  ∀ before e middle e' rest, events = before ++ e :: (middle ++ e' :: rest) → e'.key = e.key →
    e.verdict.allowed = false →
    ((∀ m ∈ middle, m.key ≠ e.key) → e.now + e.verdict.retryAfter ≤ e'.now →
      e'.verdict.allowed = true) ∧
    (e'.now < e.now + e.verdict.retryAfter → e'.verdict.allowed = false)

variable {p : Limits T} [IsOrderedAddMonoid T]

/-- The window of a refused call: full, and its first time leaves the span when the call was told. -/
lemma callAt_refused {bucket : List T} {now : T} (hlength : bucket.length ≤ p.limit)
    (h : (callAt p bucket now).1.allowed = false) :
    ∃ x rest, (callAt p bucket now).2 = x :: rest ∧ (x :: rest).length = p.limit ∧
      now + (callAt p bucket now).1.retryAfter = x + p.span := by
  have hkept : p.limit ≤ (prune (now - p.span) bucket).length := by
    by_contra hlt
    rw [callAt_of_lt (not_le.mp hlt)] at h
    cases h
  obtain ⟨x, rest, hsame, hcall⟩ := callAt_of_le hkept
  have hle := (length_prune_le (now - p.span) bucket).trans hlength
  rw [hsame] at hle hkept
  have hpos : 0 ≤ x + p.span - now := by
    rw [sub_nonneg]
    exact sub_le_iff_le_add.mp (cutoff_lt_head hsame).le
  refine ⟨x, rest, by rw [hcall], le_antisymm hle hkept, ?_⟩
  rw [hcall, max_eq_right hpos]
  exact add_sub_cancel now (x + p.span)

/-- A full window admits a call once its first time has left the span. -/
lemma callAt_later {x now : T} {rest : List T} (hlength : (x :: rest).length = p.limit)
    (h : x + p.span ≤ now) : (callAt p (x :: rest) now).1.allowed = true := by
  have hlt : (prune (now - p.span) (x :: rest)).length < (x :: rest).length :=
    length_prune_lt (le_sub_iff_add_le.mpr h)
  rw [hlength] at hlt
  rw [callAt_of_lt hlt]

/-- Before, it refuses the call and stays as it is. -/
lemma callAt_early {x now : T} {rest : List T} (hlength : (x :: rest).length = p.limit)
    (h : now < x + p.span) :
    (callAt p (x :: rest) now).1.allowed = false ∧ (callAt p (x :: rest) now).2 = x :: rest := by
  have hsame : prune (now - p.span) (x :: rest) = x :: rest :=
    prune_of_lt (sub_lt_iff_lt_add.mpr h)
  have hkept : p.limit ≤ (prune (now - p.span) (x :: rest)).length := by
    rw [hsame, hlength]
  obtain ⟨y, more, hkeeps, hcall⟩ := callAt_of_le hkept
  rw [hcall, ← hkeeps, hsame]
  exact ⟨rfl, rfl⟩

/-- From a full window on, the key is admitted once the first time has left the span if it was not
called in between, and refused before.

**Proof sketch.** Induction on the calls. A call of another key leaves the window as it is; a call of
the key does so too while the first time is in the span, and it is in the span at every call before
one at which it is. -/
lemma backsOff_from {k : κ} {x : T} {times : List T} (hlength : (x :: times).length = p.limit)
    {calls : List (κ × T)} (hsorted : calls.Pairwise fun c c' => c.2 ≤ c'.2)
    {buckets : κ → List T} (hbucket : buckets k = x :: times)
    {middle rest : List (Event κ T)} {e : Event κ T}
    (h : trace (perKey p) buckets calls = middle ++ e :: rest) (hkey : e.key = k) :
    ((∀ m ∈ middle, m.key ≠ k) → x + p.span ≤ e.now → e.verdict.allowed = true) ∧
      (e.now < x + p.span → e.verdict.allowed = false) := by
  induction calls generalizing buckets middle with
  | nil => simp [trace] at h
  | cons c calls ih =>
    obtain ⟨key, now⟩ := c
    rw [List.pairwise_cons] at hsorted
    rw [trace] at h
    cases middle with
    | nil =>
      obtain ⟨rfl, -⟩ := List.cons.inj h
      obtain rfl : key = k := hkey
      constructor
      · intro _ hlater
        simpa [perKey, hbucket] using callAt_later hlength hlater
      · intro hearly
        simpa [perKey, hbucket] using (callAt_early hlength hearly).1
    | cons m middle =>
      obtain ⟨rfl, htrace⟩ := List.cons.inj h
      have hmem : (e.key, e.now) ∈ calls := by
        apply mem_of_mem_trace (s := (perKey p buckets key now).2)
        rw [htrace]
        simp
      by_cases hsame : key = k
      · subst hsame
        refine ⟨fun hnone => absurd rfl (hnone _ List.mem_cons_self), fun hearly => ?_⟩
        have hbefore : now < x + p.span := lt_of_le_of_lt (hsorted.1 _ hmem) hearly
        have hstays : (perKey p buckets key now).2 key = x :: times := by
          rw [perKey_self, hbucket, (callAt_early hlength hbefore).2]
        exact (ih hsorted.2 hstays htrace).2 hearly
      · have hstays : (perKey p buckets key now).2 k = x :: times := by
          rw [perKey_of_ne hsame, hbucket]
        have hrest := ih hsorted.2 hstays htrace
        exact ⟨fun hnone => hrest.1 fun m hm => hnone m (List.mem_cons_of_mem _ hm), hrest.2⟩

omit [IsOrderedAddMonoid T] in
/-- No window keeps more times than the limit. -/
lemma length_perKey_le {buckets : κ → List T} (h : ∀ k, (buckets k).length ≤ p.limit) (key : κ)
    (now : T) (k : κ) : ((perKey p buckets key now).2 k).length ≤ p.limit := by
  by_cases hsame : key = k
  · subst hsame
    rw [perKey_self]
    exact length_callAt_le (h key)
  · rw [perKey_of_ne hsame]
    exact h k

/-- Windows within the limit back off. -/
lemma backsOff_of_length {calls : List (κ × T)}
    (hsorted : calls.Pairwise fun c c' => c.2 ≤ c'.2) {buckets : κ → List T}
    (hlength : ∀ k, (buckets k).length ≤ p.limit) :
    BacksOff (trace (perKey p) buckets calls) := by
  intro before e middle e' rest h hkey hrefused
  induction before generalizing calls buckets with
  | nil =>
    cases calls with
    | nil => cases h
    | cons c calls =>
      obtain ⟨rfl, htrace⟩ := List.cons.inj h
      obtain ⟨x, times, hbucket, hfull, htold⟩ := callAt_refused (hlength c.1) hrefused
      have hstays : (perKey p buckets c.1 c.2).2 c.1 = x :: times := by
        rw [perKey_self, hbucket]
      have hfrom := backsOff_from hfull (List.pairwise_cons.mp hsorted).2 hstays htrace hkey
      rw [← htold] at hfrom
      exact hfrom
  | cons b before ih =>
    cases calls with
    | nil => cases h
    | cons c calls =>
      obtain ⟨-, htrace⟩ := List.cons.inj h
      exact ih (List.pairwise_cons.mp hsorted).2 (length_perKey_le hlength c.1 c.2) htrace

/-- **One window a key backs off.** -/
theorem perKey_backsOff {calls : List (κ × T)}
    (hsorted : calls.Pairwise fun c c' => c.2 ≤ c'.2) :
    BacksOff (trace (perKey p) (fun _ => []) calls) :=
  backsOff_of_length hsorted fun _ => Nat.zero_le _

end BackOff

/-! ### Limiters with a table -/

section Tabled

variable [BEq κ] [LawfulBEq κ]

/-- A limiter that keeps its windows in a table of some capacity: a new key that finds the table full
has room made for it. -/
def tabled (p : Limits T) (capacity : ℕ)
    (evict : Table κ (List T) → T → Table κ (List T)) (hits : Table κ (List T)) (key : κ)
    (now : T) : Verdict T × Table κ (List T) :=
  let call := callAt p ((hits.get key).getD []) now
  let opened :=
    if (hits.get key).isNone && decide (capacity ≤ hits.size) then evict hits (now - p.span)
    else hits
  (call.1, opened.set key call.2)

variable {p : Limits T} {capacity : ℕ} {evict : Table κ (List T) → T → Table κ (List T)}

omit [DecidableEq κ] in
/-- A limiter whose evictions make room never exceeds its capacity. -/
lemma size_tabled_le
    (hevict : ∀ hits cutoff, hits.size ≤ capacity → (evict hits cutoff).size < capacity)
    {hits : Table κ (List T)} (h : hits.size ≤ capacity) (key : κ) (now : T) :
    (tabled p capacity evict hits key now).2.size ≤ capacity := by
  have hset : ∀ t : Table κ (List T), t.size < capacity → ∀ bucket,
      (t.set key bucket).size ≤ capacity := by
    intro t ht bucket
    cases hget : t.get key with
    | none =>
      rw [Table.size_set_of_none hget]
      exact ht
    | some old =>
      rw [Table.size_set_of_some hget]
      exact ht.le
  cases hget : hits.get key with
  | some bucket =>
    simp only [tabled, hget, Option.isNone_some, Bool.false_and, Bool.false_eq_true, ↓reduceIte]
    rw [Table.size_set_of_some hget]
    exact h
  | none =>
    by_cases hfull : capacity ≤ hits.size
    · simp only [tabled, hget, Option.isNone_none, hfull, decide_true, Bool.and_self, ↓reduceIte]
      exact hset _ (hevict hits _ h) _
    · simp only [tabled, hget, Option.isNone_none, hfull, decide_false, Bool.and_false,
        Bool.false_eq_true, ↓reduceIte]
      exact hset _ (not_le.mp hfull) _

/-- A table with room, for which one row is deleted if need be. -/
def makeRoom (capacity : ℕ) (hits : Table κ (List T)) (oldest : Option (κ × List T)) :
    Table κ (List T) :=
  if hits.size < capacity then hits
  else
    match oldest with
    | some r => hits.without [r.1]
    | none => hits

omit [DecidableEq κ] [AddCommGroup T] [LinearOrder T] in
/-- A full table has room after the deletion of one of its rows. -/
lemma size_makeRoom_lt (hpos : 0 < capacity) {hits : Table κ (List T)} (h : hits.size ≤ capacity)
    {order : List (κ × List T)} (hperm : order.Perm hits.rows) {oldest : Option (κ × List T)}
    (hsome : ∀ r, oldest = some r → r ∈ order) (hnone : oldest = none → order = []) :
    (makeRoom capacity hits oldest).size < capacity := by
  unfold makeRoom
  by_cases hroom : hits.size < capacity
  · simp [hroom]
  · simp only [hroom, ↓reduceIte]
    cases oldest with
    | none =>
      have hlength := hperm.length_eq
      rw [hnone rfl] at hlength
      exact absurd (lt_of_eq_of_lt hlength.symm hpos) hroom
    | some r =>
      have hget := (hits.mem_rows_iff r.1 r.2).mp (hperm.mem_iff.mp (hsome r rfl))
      exact lt_of_lt_of_le (Table.size_without_lt hget List.mem_cons_self) h

/-- A table of the windows, under some keys. -/
structure Tabulates (known : Finset κ) (hits : Table κ (List T)) (buckets : κ → List T) :
    Prop where
  window : ∀ k, (hits.get k).getD [] = buckets k
  known : ∀ k bucket, hits.get k = some bucket → k ∈ known

omit [AddCommGroup T] [LinearOrder T] in
/-- A table that lacks one of the keys has fewer rows than there are keys. -/
lemma Tabulates.size_lt {known : Finset κ} {hits : Table κ (List T)} {buckets : κ → List T}
    (h : Tabulates known hits buckets) {k : κ} (hk : k ∈ known) (hget : hits.get k = none) :
    hits.size < known.card := by
  have hsize : hits.size = (keys hits.rows).toFinset.card := by
    rw [List.toFinset_card_of_nodup hits.nodup, keys, List.length_map]
    rfl
  rw [hsize]
  apply Finset.card_lt_card
  refine Finset.ssubset_iff_subset_ne.mpr ⟨fun j hj => ?_, fun heq => ?_⟩
  · obtain ⟨r, hr, rfl⟩ := List.mem_map.mp (List.mem_toFinset.mp hj)
    exact h.known r.1 r.2 ((hits.mem_rows_iff r.1 r.2).mp hr)
  · rw [← heq, List.mem_toFinset] at hk
    exact (lookup_eq_none_iff hits.rows k).mp hget hk

/-- With as few keys as the capacity, a limiter with a table is one window a key. -/
lemma Tabulates.step {known : Finset κ} (hcard : known.card ≤ capacity)
    {hits : Table κ (List T)} {buckets : κ → List T} (h : Tabulates known hits buckets) {k : κ}
    (hk : k ∈ known) (now : T) :
    (tabled p capacity evict hits k now).1 = (perKey p buckets k now).1 ∧
      Tabulates known (tabled p capacity evict hits k now).2 (perKey p buckets k now).2 := by
  have hroom : ((hits.get k).isNone && decide (capacity ≤ hits.size)) = false := by
    cases hget : hits.get k with
    | some bucket => rfl
    | none =>
      have hlt := lt_of_lt_of_le (h.size_lt hk hget) hcard
      simpa using hlt
  simp only [tabled, hroom, Bool.false_eq_true, ↓reduceIte, perKey, h.window k]
  refine ⟨trivial, fun j => ?_, fun j bucket hj => ?_⟩
  · by_cases hj : j = k
    · subst hj
      simp
    · rw [Table.get_set_of_ne _ _ hj, Function.update_of_ne hj]
      exact h.window j
  · rcases Table.get_set_eq_some hj with ⟨rfl, -⟩ | ⟨-, hj⟩
    · exact hk
    · exact h.known j bucket hj

/-- **A limiter with a table** answers calls under as few keys as its capacity as one window a key
does. -/
theorem trace_tabled {calls : List (κ × T)}
    (hcard : (calls.map Prod.fst).toFinset.card ≤ capacity) :
    trace (tabled p capacity evict) .empty calls = trace (perKey p) (fun _ => []) calls := by
  have hempty : Tabulates (calls.map Prod.fst).toFinset (Table.empty : Table κ (List T))
      (fun _ => []) :=
    ⟨fun _ => rfl, by simp⟩
  apply trace_eq_of_simulates (P := fun k => k ∈ (calls.map Prod.fst).toFinset)
    (fun s t k now hk hR => hR.step hcard hk now) hempty
  intro c hc
  rw [List.mem_toFinset]
  exact List.mem_map_of_mem hc

end Tabled

end Program.Window
