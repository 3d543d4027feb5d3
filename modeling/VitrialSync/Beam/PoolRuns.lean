import Mathlib.Logic.Relation
import VitrialSync.Beam.PoolMoves

set_option relaxedAutoImplicit false
set_option autoImplicit false

/-!
# Runs of the connection pool

Every handler of the pool, in a state with the invariant, comes to an end with a state, which some
moves lead to. The invariant holds thus after any events, in any order, whatever the clock, the
connects and the processes do.

The lemmas say also which connections a handler lets go of, and when it loses none. A handler can
lose a connection only if one is parked while a caller waits; a state where that is not so is quiet.

## Main definitions

* `VitrialSync.Beam.Pool.recycled` — the parked connections that are closed as the queue is served.
* `VitrialSync.Beam.Pool.Releases` — the connections that a handler lets go of.
* `VitrialSync.Beam.Pool.RefusedRecycle` — the check-ins that lose a connection.

## Main results

* `VitrialSync.Beam.Pool.handle_moves` — a handler makes moves, and ends with a state.
* `VitrialSync.Beam.Pool.run_kept` — single ownership and capacity, after any events.
-/

namespace VitrialSync.Beam.Pool

open Program

/-- Moves one after the other. -/
abbrev Moves (c : Config) (lossy : Prop) (released : Pid → Prop) :
    State × World → State × World → Prop := Relation.ReflTransGen (Move c lossy released)

/-- Moves keep the invariant. -/
lemma Sound.moves {c : Config} {lossy : Prop} {released : Pid → Prop} {s s' : State} {w w' : World}
    (h : Sound c s w) (hmoves : Moves c lossy released (s, w) (s', w')) : Sound c s' w' := by
  suffices hgoal : ∀ p, Moves c lossy released (s, w) p → Sound c p.1 p.2 from hgoal _ hmoves
  intro p hp
  induction hp with
  | refl => exact h
  | tail _ hlast ih => exact ih.move hlast

/-! ### What serving the queue closes -/

/-- The owners of a queue that are alive when the pool looks. -/
def liveCount (env : Environment) : List Waiter → ℕ → ℕ
  | [], _ => 0
  | _ :: rest, reading => (if env.alive reading then 1 else 0) + liveCount env rest (reading + 1)

/-- The parked connections that are past their age when so many live callers look through them. -/
def recycled (c : Config) (env : Environment) : List (Pid × ℤ) → ℕ → ℕ → List Pid
  | [], _, _ => []
  | _, 0, _ => []
  | (conn, openedAt) :: rest, live + 1, reading =>
    if expiredAt c openedAt (env.clock reading) then
      conn :: recycled c env rest (live + 1) (reading + 1)
    else recycled c env rest live (reading + 1)

/-- The parked connections that are closed as the queue is served. -/
def recycledBy (c : Config) (env : Environment) (s : State) (w : World) : List Pid :=
  recycled c env s.idle (liveCount env s.waiters w.livenessReads) w.clockReads

/-- No caller waits while a connection is parked. -/
def Quiet (s : State) : Prop := s.waiters ≠ [] → s.idle = []

/-- Serving the queue loses no connection: at most one is parked, and if it is closed, another can
be opened. -/
def Calm (c : Config) (env : Environment) (s : State) (w : World) : Prop :=
  s.waiters ≠ [] → s.idle.length ≤ 1 ∧ (recycledBy c env s w ≠ [] → env.connects w.connects = true)

section Handlers

variable {c : Config} {env : Environment} {lossy : Prop} {released : Pid → Prop}
  {s : State} {w : World}

/-- Nothing is closed if connections do not age. -/
lemma recycled_eq_nil (h : c.recycleMs ≤ 0) (idle : List (Pid × ℤ)) (live reading : ℕ) :
    recycled c env idle live reading = [] := by
  fun_induction recycled c env idle live reading with
  | case1 => rfl
  | case2 => rfl
  | case3 conn openedAt rest live reading hexpired ih =>
    rw [expiredAt, decide_eq_false (Int.not_lt.mpr h), Bool.false_and] at hexpired
    cases hexpired
  | case4 conn openedAt rest live reading hexpired ih => exact ih

/-- A quiet state loses no connection. -/
lemma Quiet.calm (h : Quiet s) : Calm c env s w := by
  intro hwaiters
  refine ⟨(h hwaiters).symm ▸ Nat.zero_le _, fun hrecycled => absurd ?_ hrecycled⟩
  rw [recycledBy, h hwaiters, recycled]

/-- The age of a connection is not looked at if connections do not age. -/
lemma expired_cases (c : Config) (env : Environment) (openedAt : ℤ) (w : World) :
    c.recycleMs ≤ 0 ∧ expired c env openedAt w = (false, w) ∨
      expired c env openedAt w =
        (expiredAt c openedAt (env.clock w.clockReads), (w.now env).2) := by
  by_cases h : c.recycleMs ≤ 0
  · exact Or.inl ⟨h, if_pos h⟩
  · exact Or.inr (if_neg h)

/-- The age of a connection at the next reading of the clock. -/
lemma expired_fst (c : Config) (env : Environment) (openedAt : ℤ) (w : World) :
    (expired c env openedAt w).1 = expiredAt c openedAt (env.clock w.clockReads) := by
  rcases expired_cases c env openedAt w with ⟨hnever, hexpired⟩ | hexpired
  · rw [hexpired, expiredAt, decide_eq_false (Int.not_lt.mpr hnever), Bool.false_and]
  · rw [hexpired]

/-- A connect succeeds, with a new connection, or fails. -/
lemma openConnection_cases (env : Environment) (w : World) :
    (env.connects w.connects = true ∧ ∃ w', w.openConnection env = (some w.nextPid, w') ∧
      w.Later [.opened w.nextPid] w' ∧ w.nextPid < w'.nextPid ∧
      w'.livenessReads = w.livenessReads) ∨
    (env.connects w.connects = false ∧
      ∃ w', w.openConnection env = (none, w') ∧ w.Later [] w') := by
  rw [World.openConnection]
  cases env.connects w.connects with
  | true =>
    exact Or.inl ⟨rfl, _, rfl, ⟨rfl, Nat.le_succ _, le_rfl, le_rfl⟩, Nat.lt_succ_self _, rfl⟩
  | false => exact Or.inr ⟨rfl, _, rfl, (List.append_nil _).symm, le_rfl, le_rfl, le_rfl⟩

/-- A monitored connection is closed. -/
lemma closeConn_eq {conn : Pid} (h : ∃ ref, s.monitors.get conn = some ref) :
    closeConn conn s w = .ok (s.forget conn, w.record (.closed conn)) := by
  obtain ⟨ref, href⟩ := h
  rw [closeConn, href]

/-- No connection is found for the first of the queue: every parked one was closed and no other
could be opened. -/
def NoneFound (c : Config) (env : Environment) (rest : List Waiter) (live : ℕ)
    (idle : List (Pid × ℤ)) (s : State) (w : World) : Prop :=
  ∃ (conns : List Pid) (w' : World),
    takeConnection c env idle { s with waiters := rest } w = .ok (none, w') ∧
    w.Later (conns.map .closed) w' ∧ (∀ conn ∈ conns, conn ∈ idle.map Prod.fst) ∧
    (s.total < c.poolSize + c.maxOverflow → env.connects w.connects = false) ∧
    (idle ≠ [] → recycled c env idle (live + 1) w.clockReads ≠ [] ∧
      env.connects w.connects = false)

/-- A connection is found for the first of the queue, and moves hand it out. -/
def OneFound (c : Config) (env : Environment) (lossy : Prop) (released : Pid → Prop)
    (rest : List Waiter) (live : ℕ) (idle : List (Pid × ℤ)) (s : State) (w : World) : Prop :=
  ∃ (taken : Taken) (w' : World),
    takeConnection c env idle { s with waiters := rest } w = .ok (some taken, w') ∧
    w'.livenessReads = w.livenessReads ∧ taken.state.waiters = rest ∧
    (idle.length ≤ 1 → taken.state.idle = []) ∧
    (∀ conn ∈ recycled c env taken.state.idle live w'.clockReads,
      conn ∈ recycled c env idle (live + 1) w.clockReads) ∧
    ∀ waiter connRef w'', s.waiters = waiter :: rest →
      w'.Later [.granted taken.conn waiter.caller taken.isFresh] w'' →
      Moves c lossy released (s, w) (taken.state.checkOut taken.conn
        ⟨waiter.owner, waiter.ref, taken.openedAt⟩ connRef, w'')

/-- A parked connection that is not past its age is found. -/
lemma oneFound_of_kept {rest : List Waiter} {live : ℕ} {conn : Pid} {openedAt : ℤ}
    {parked : List (Pid × ℤ)} {w₁ : World} (hidle : s.idle = (conn, openedAt) :: parked)
    (hlater : w.Later [] w₁) (hreads : w₁.livenessReads = w.livenessReads)
    (hexpired : expired c env openedAt w = (false, w₁))
    (hrecycled : ∀ x ∈ recycled c env parked live w₁.clockReads,
      x ∈ recycled c env ((conn, openedAt) :: parked) (live + 1) w.clockReads) :
    OneFound c env lossy released rest live ((conn, openedAt) :: parked) s w := by
  refine ⟨⟨conn, false, openedAt, { s with idle := parked, waiters := rest }⟩, w₁, ?_, hreads,
    rfl, ?_, hrecycled, ?_⟩
  · rw [takeConnection, hexpired]
  · exact fun hlength =>
      List.length_eq_zero_iff.mp (Nat.le_zero.mp (Nat.le_of_succ_le_succ hlength))
  · intro waiter connRef w'' hwaiters hgranted
    exact Relation.ReflTransGen.single (.reuse hidle (.queued hwaiters) (hlater.after hgranted))

/-- What the first of the queue gets.

**Proof sketch.** By induction on the parked connections. One that is past its age is closed, which
leaves room to open another in the end. -/
lemma takeConnection_spec (lossy : Prop) (rest : List Waiter) (live : ℕ)
    (idle : List (Pid × ℤ)) :
    ∀ (s : State) (w : World), s.idle = idle → Sound c s w →
      (∀ conn ∈ recycled c env idle (live + 1) w.clockReads, released conn) →
      NoneFound c env rest live idle s w ∨ OneFound c env lossy released rest live idle s w := by
  induction idle with
  | nil =>
    intro s w hidle hsound _
    have htotal : ({ s with waiters := rest } : State).total = s.total := rfl
    simp only [NoneFound, OneFound, takeConnection, htotal]
    by_cases hroom : s.total < c.poolSize + c.maxOverflow
    · rw [if_pos hroom]
      rcases openConnection_cases env w with ⟨-, w', hopen, hlater, hmade, hreads⟩ |
        ⟨hconnects, w', hopen, hlater⟩
      · rw [hopen]
        refine Or.inr ⟨_, _, rfl, hreads, rfl, fun _ => hidle, ?_, ?_⟩
        · intro conn hconn
          rw [show _ = [] from hidle, recycled] at hconn
          cases hconn
        · intro waiter connRef w'' hwaiters hgranted
          have hgranted' := (w'.later_now env).after hgranted
          exact Relation.ReflTransGen.single (.connect hroom le_rfl
            (hmade.trans_le hgranted'.pids) (.queued hwaiters) (hlater.trans hgranted'))
      · rw [hopen]
        exact Or.inl ⟨[], w', rfl, hlater, fun _ => List.not_mem_nil.elim, fun _ => hconnects,
          fun hne => absurd rfl hne⟩
    · rw [if_neg hroom]
      exact Or.inl ⟨[], w, rfl, .refl w, fun _ => List.not_mem_nil.elim,
        fun hlt => absurd hlt hroom, fun hne => absurd rfl hne⟩
  | cons head parked ih =>
    obtain ⟨conn, openedAt⟩ := head
    intro s w hidle hsound hreleased
    rcases expired_cases c env openedAt w with ⟨hnever, hexpired⟩ | hexpired
    · refine Or.inr (oneFound_of_kept hidle (.refl w) rfl hexpired fun x hx => ?_)
      rw [recycled_eq_nil hnever] at hx
      cases hx
    · cases hage : expiredAt c openedAt (env.clock w.clockReads) with
      | false =>
        rw [hage] at hexpired
        refine Or.inr (oneFound_of_kept hidle (w.later_now env) rfl hexpired fun x hx => ?_)
        rw [recycled, hage]
        exact hx
      | true =>
        rw [hage] at hexpired
        have hrecycled : recycled c env ((conn, openedAt) :: parked) (live + 1) w.clockReads =
            conn :: recycled c env parked (live + 1) (w.clockReads + 1) := by
          rw [recycled, hage]
          rfl
        rw [hrecycled, List.forall_mem_cons] at hreleased
        rw [NoneFound, OneFound, hrecycled]
        have hmove : Move c lossy released (s, w)
            (({ s with idle := parked }).forget conn, (w.now env).2.record (.closed conn)) :=
          .unpark (show s.idle = [] ++ _ from hidle)
            ((w.later_now env).after (World.later_record _ _)) hreleased.1
        have hmem : conn ∈ s.idle.map Prod.fst := by
          rw [hidle]
          exact List.mem_cons_self
        have hclose := closeConn_eq (s := { s with idle := parked, waiters := rest })
          (w := (w.now env).2) (hsound.tracks.monitored conn (Or.inl hmem))
        have htake :
            takeConnection c env ((conn, openedAt) :: parked) { s with waiters := rest } w =
            takeConnection c env parked
              { ({ s with idle := parked }).forget conn with waiters := rest }
              ((w.now env).2.record (.closed conn)) := by
          rw [takeConnection, hexpired]
          simp only [hclose]
          rfl
        have htotal : (({ s with idle := parked }).forget conn).total <
            c.poolSize + c.maxOverflow := by
          have hcapacity := hsound.tracks.capacity
          rw [(hsound.tracks.take [] hidle).2.2] at hcapacity
          exact hcapacity
        rw [htake]
        rcases ih _ _ rfl (hsound.move hmove) hreleased.2 with
          ⟨conns, w', heq, hlater, hconns, hfull, -⟩ |
          ⟨taken, w', heq, hreads, hwaiters, hlength, hrecycled, hmoves⟩
        · refine Or.inl ⟨conn :: conns, w', heq, ?_, ?_, fun _ => hfull htotal,
            fun _ => ⟨List.cons_ne_nil _ _, hfull htotal⟩⟩
          · exact ((w.later_now env).after (World.later_record _ _)).trans hlater
          · intro x hx
            rcases List.mem_cons.mp hx with rfl | hx
            · exact List.mem_cons_self
            · exact List.mem_cons_of_mem _ (hconns x hx)
        · refine Or.inr ⟨taken, w', heq, hreads, hwaiters, fun hle => hlength ?_,
            fun x hx => List.mem_cons_of_mem _ (hrecycled x hx), ?_⟩
          · exact (Nat.le_of_succ_le_succ hle).trans (Nat.zero_le _)
          · intro waiter connRef w'' hqueue hgranted
            exact (Relation.ReflTransGen.single hmove).trans
              (hmoves waiter connRef w'' hqueue hgranted)

/-- How a handler ends: with a state that moves lead to. -/
def Ends (c : Config) (lossy : Prop) (released : Pid → Prop) (calm : Prop) (s : State) (w : World)
    (result : Except Crash (State × World)) : Prop :=
  ∃ s' w', result = .ok (s', w') ∧ Moves c lossy released (s, w) (s', w') ∧ (calm → Quiet s')

/-- A handler that ends after some moves. -/
lemma Ends.after {s₀ : State} {w₀ : World} {calm : Prop} {result : Except Crash (State × World)}
    (hmoves : Moves c lossy released (s₀, w₀) (s, w)) (h : Ends c lossy released calm s w result) :
    Ends c lossy released calm s₀ w₀ result := by
  obtain ⟨s', w', heq, hends, hquiet⟩ := h
  exact ⟨s', w', heq, hmoves.trans hends, hquiet⟩

/-- A handler that ends in more cases. -/
lemma Ends.calm {calm calm' : Prop} {result : Except Crash (State × World)} (hcalm : calm' → calm)
    (h : Ends c lossy released calm s w result) : Ends c lossy released calm' s w result := by
  obtain ⟨s', w', heq, hends, hquiet⟩ := h
  exact ⟨s', w', heq, hends, fun h => hquiet (hcalm h)⟩

/-- Serving the queue.

**Proof sketch.** By induction on the queue: a dead caller leaves it, and a live one gets a
connection or stays, with what `takeConnection_spec` says of the two cases. -/
lemma serveWaiters_ends (waiters : List Waiter) :
    ∀ (s : State) (w : World), s.waiters = waiters → Sound c s w →
      (∀ conn ∈ recycledBy c env s w, released conn) → (lossy ∨ Calm c env s w) →
      Ends c lossy released (Calm c env s w) s w (serveWaiters c env waiters s w) := by
  induction waiters with
  | nil =>
    intro s w hwaiters _ _ _
    exact ⟨s, w, rfl, .refl, fun _ hne => absurd hwaiters hne⟩
  | cons waiter rest ih =>
    intro s w hwaiters hsound hreleased hcalm
    have hne : s.waiters ≠ [] := by
      rw [hwaiters]
      exact List.cons_ne_nil _ _
    have hanswer : Move c lossy released (s, w) (s, (w.isAlive env).2) :=
      .answer (w.later_isAlive env) fun _ => List.not_mem_nil.elim
    cases halive : env.alive w.livenessReads with
    | false =>
      have hserve : serveWaiters c env (waiter :: rest) s w =
          serveWaiters c env rest { s with waiters := rest } (w.isAlive env).2 := by
        rw [serveWaiters, World.isAlive, halive]
      have hrecycled : recycledBy c env s w =
          recycledBy c env { s with waiters := rest } (w.isAlive env).2 := by
        rw [recycledBy, hwaiters, liveCount, halive, if_neg Bool.false_ne_true, Nat.zero_add]
        rfl
      have hdrop : Move c lossy released (s, (w.isAlive env).2)
          ({ s with waiters := rest }, (w.isAlive env).2) := by
        refine .drop ?_
        rw [hwaiters]
        exact List.sublist_cons_self _ _
      have hmoves := (Relation.ReflTransGen.single hanswer).tail hdrop
      have hcalm' : Calm c env s w → Calm c env { s with waiters := rest } (w.isAlive env).2 :=
        fun h _ => by
          rw [Calm, hrecycled] at h
          exact h hne
      rw [hserve]
      refine Ends.after hmoves (Ends.calm hcalm' (ih _ _ rfl (hsound.moves hmoves) ?_ ?_))
      · rwa [← hrecycled]
      · exact hcalm.imp_right hcalm'
    | true =>
      have hrecycled : recycledBy c env s w = recycled c env s.idle
          (liveCount env rest (w.livenessReads + 1) + 1) w.clockReads := by
        rw [recycledBy, hwaiters, liveCount, halive, if_pos rfl, Nat.add_comm 1]
      rw [hrecycled] at hreleased
      have hstate : { s with waiters := waiter :: rest } = s := by
        rw [← hwaiters]
      rcases takeConnection_spec lossy rest (liveCount env rest (w.livenessReads + 1))
        s.idle s (w.isAlive env).2 rfl (hsound.move hanswer) hreleased with
        ⟨conns, w', htake, hlater, hconns, -, hclosed⟩ |
        ⟨taken, w', htake, hreads, hqueue, hlength, htaken, hgranted⟩
      · have hserve : serveWaiters c env (waiter :: rest) s w = .ok (s, w') := by
          rw [serveWaiters, World.isAlive, halive]
          change
            (takeConnection c env s.idle { s with waiters := rest } (w.isAlive env).2 >>= _) = _
          rw [htake]
          exact congrArg (fun s' => Except.ok (s', w')) hstate
        -- a calm state had nothing parked, since no other connection could be opened
        have hempty : Calm c env s w → s.idle = [] := by
          intro h
          by_contra hidle
          obtain ⟨hrecycled', hconnects⟩ := hclosed hidle
          have htrue := (h hne).2 (hrecycled ▸ hrecycled')
          rw [show env.connects w.connects = false from hconnects] at htrue
          cases htrue
        refine ⟨s, w', hserve, (Relation.ReflTransGen.single hanswer).tail ?_, fun h _ => hempty h⟩
        rcases hcalm with hlossy | hcalm
        · exact .lost hlossy hconns hlater
        · have hnone : conns = [] := by
            rw [hempty hcalm] at hconns
            exact List.eq_nil_iff_forall_not_mem.mpr fun x hx => List.not_mem_nil (hconns x hx)
          subst hnone
          exact .answer hlater fun _ => List.not_mem_nil.elim
      · let s₂ := taken.state.checkOut taken.conn ⟨waiter.owner, waiter.ref, taken.openedAt⟩
          w'.monitor.1
        let w₂ := w'.monitor.2.record (.granted taken.conn waiter.caller taken.isFresh)
        have hserve : serveWaiters c env (waiter :: rest) s w = serveWaiters c env rest s₂ w₂ := by
          rw [serveWaiters, World.isAlive, halive]
          change
            (takeConnection c env s.idle { s with waiters := rest } (w.isAlive env).2 >>= _) = _
          rw [htake]
          rfl
        have hmoves : Moves c lossy released (s, w) (s₂, w₂) :=
          (Relation.ReflTransGen.single hanswer).trans
            (hgranted waiter _ _ hwaiters (w'.later_monitor.after (World.later_record _ _)))
        have hrest : recycledBy c env s₂ w₂ = recycled c env taken.state.idle
            (liveCount env rest (w.livenessReads + 1)) w'.clockReads := by
          have hreads' : w₂.livenessReads = w.livenessReads + 1 := hreads
          rw [recycledBy, hreads', show s₂.waiters = rest from hqueue]
          rfl
        have hcalm' : Calm c env s w → Calm c env s₂ w₂ := by
          intro h _
          have hidle : s₂.idle = [] := hlength (h hne).1
          refine ⟨hidle.symm ▸ Nat.zero_le _, fun hrecycled' => absurd ?_ hrecycled'⟩
          rw [recycledBy, hidle, recycled]
        rw [hserve]
        refine Ends.after hmoves (Ends.calm hcalm' (ih _ _ hqueue (hsound.moves hmoves) ?_ ?_))
        · rw [hrest]
          exact fun conn hconn => hreleased conn (htaken conn hconn)
        · exact hcalm.imp_right hcalm'

/-- Serving the queue of a state. -/
lemma serve_ends (hsound : Sound c s w) (hreleased : ∀ conn ∈ recycledBy c env s w, released conn)
    (hcalm : lossy ∨ Calm c env s w) :
    Ends c lossy released (Calm c env s w) s w (serve c env s w) :=
  serveWaiters_ends s.waiters s w rfl hsound hreleased hcalm

end Handlers

/-! ### What the handlers let go of -/

/-- The connections that go with one that died. -/
def Dies (c : Config) (env : Environment) (pid : Pid) (s : State) (w : World) (conn : Pid) : Prop :=
  s.Tracked pid ∧
    (conn = pid ∨ conn ∈ recycledBy c env { s with idle := s.idle.filter fun e => e.1 != pid } w)

/-- The connections that a handler lets go of. -/
def Releases (c : Config) (env : Environment) : Event → State → World → Pid → Prop
  | .checkout _, s, w, conn => s.draining = false ∧ c.nullPool = false ∧
      ∃ openedAt rest, s.idle = (conn, openedAt) :: rest ∧
        expiredAt c openedAt (env.clock w.clockReads) = true
  | .checkin x, s, w, conn => ∃ holder, s.checkedOut.get x = some holder ∧
      let seen := expired c env holder.openedAt (w.record (.checkedIn x))
      if c.nullPool || seen.1 || transient c (s.checkIn x) then
        conn = x ∨ conn ∈ recycledBy c env s seen.2
      else conn ∈ recycledBy c env ((s.checkIn x).park x holder.openedAt) seen.2
  | .discard x, s, w, conn => (∃ holder, s.checkedOut.get x = some holder) ∧
      (conn = x ∨ conn ∈ recycledBy c env s w)
  | .abandoned owner, s, w, conn => conn ∈ recycledBy c env (dropWaiterByOwner owner s) w
  | .down ref pid, s, w, conn =>
      if s.monitors.get pid = some ref then Dies c env pid s w conn
      else ∃ x holder, s.checkedOut.get x = some holder ∧ holder.ref = ref ∧
        (conn = x ∨ conn ∈ recycledBy c env s w)
  | .exit pid, s, w, conn => Dies c env pid s w conn
  | .drain budgetMs, s, _, conn => ¬(0 < s.checkedOut.size ∧ 0 < budgetMs) ∧ s.Tracked conn
  | .drainDeadline, s, _, conn => s.draining = true ∧ s.Tracked conn

/-- A check-in that parks a connection while a live caller waits; at the next reading of the clock
the connection is past its age, and then no other can be opened. -/
def RefusedRecycle (c : Config) (env : Environment) (event : Event) (s : State) (w : World) :
    Prop :=
  ∃ conn holder, event = .checkin conn ∧ s.checkedOut.get conn = some holder ∧
    c.nullPool = false ∧ transient c (s.checkIn conn) = false ∧
    expiredAt c holder.openedAt (env.clock w.clockReads) = false ∧
    0 < liveCount env s.waiters w.livenessReads ∧
    expiredAt c holder.openedAt (env.clock (w.clockReads + 1)) = true ∧
    env.connects w.connects = false

/-! ### The handlers -/

section Handlers

variable {c : Config} {env : Environment} {lossy : Prop} {released : Pid → Prop}
  {s : State} {w : World}

/-- A handler that answers in the end. -/
lemma Ends.answered {calm : Prop} {result : Except Crash (State × World)} (reply : Reply)
    (h : Ends c lossy released calm s w result) : Ends c lossy released calm s w (do
      let (s, w) ← result
      return (s, w.record (.answered reply))) := by
  obtain ⟨s', w', rfl, hmoves, hquiet⟩ := h
  refine ⟨s', w'.record (.answered reply), rfl, hmoves.tail ?_, hquiet⟩
  exact .answer (World.later_record _ _) (List.forall_mem_singleton.mpr ⟨reply, rfl⟩)

/-- A connection that was checked out goes, and the queue is served. -/
lemma release_ends {w' : World} {added : List Entry} {conn : Pid} {holder : Holder}
    (hsound : Sound c s w) (out : s.checkedOut.get conn = some holder) (later : w.Later added w')
    (entries : ∀ e ∈ added, e = .checkedIn conn ∨ e = .closed conn)
    (hreleased : ∀ x, x = conn ∨ x ∈ recycledBy c env s w' → released x)
    (hcalm : lossy ∨ Quiet s) :
    Ends c lossy released (Quiet s) s w (serve c env ((s.checkIn conn).forget conn) w') := by
  have hmove : Move c lossy released (s, w) ((s.checkIn conn).forget conn, w') :=
    .release out later entries (hreleased conn (Or.inl rfl))
  have hcalm' : Quiet s → Calm c env ((s.checkIn conn).forget conn) w' := fun h =>
    Quiet.calm (s := (s.checkIn conn).forget conn) h
  exact Ends.after (.single hmove) (Ends.calm hcalm' (serve_ends (hsound.move hmove)
    (fun x hx => hreleased x (Or.inr hx)) (hcalm.imp_right hcalm')))

/-- A connection is closed at its check-in or discarded, and the queue is served. -/
lemma close_ends {w₁ : World} {added : List Entry} {conn : Pid} {holder : Holder}
    (hsound : Sound c s w) (out : s.checkedOut.get conn = some holder) (later : w.Later added w₁)
    (entries : ∀ e ∈ added, e = .checkedIn conn)
    (hreleased : ∀ x, x = conn ∨ x ∈ recycledBy c env s w₁ → released x)
    (hcalm : lossy ∨ Quiet s) :
    Ends c lossy released (Quiet s) s w (do
      let (s, w) ← closeConn conn (s.checkIn conn) w₁
      serve c env s w) := by
  have hmonitored := hsound.tracks.monitored conn (Or.inr ⟨holder, out⟩)
  rw [closeConn_eq (s := s.checkIn conn) hmonitored]
  refine release_ends hsound out (later.trans (World.later_record _ _)) ?_ hreleased hcalm
  rw [List.forall_mem_append, List.forall_mem_singleton]
  exact ⟨fun e he => Or.inl (entries e he), Or.inr rfl⟩

/-- The same, and the call is answered. -/
lemma close_answered {w₁ : World} {added : List Entry} {conn : Pid} {holder : Holder}
    (hsound : Sound c s w) (out : s.checkedOut.get conn = some holder) (later : w.Later added w₁)
    (entries : ∀ e ∈ added, e = .checkedIn conn)
    (hreleased : ∀ x, x = conn ∨ x ∈ recycledBy c env s w₁ → released x)
    (hcalm : lossy ∨ Quiet s) :
    Ends c lossy released (Quiet s) s w (do
      let (s, w) ← closeConn conn (s.checkIn conn) w₁
      let (s, w) ← serve c env s w
      return (s, w.record (.answered .ok))) := by
  have hends := (close_ends hsound out later entries hreleased hcalm).answered .ok
  have hmonitored := hsound.tracks.monitored conn (Or.inr ⟨holder, out⟩)
  rw [closeConn_eq (s := s.checkIn conn) hmonitored] at hends ⊢
  exact hends

/-- A new connection is opened for a caller, or the caller waits.

Here `w₀` is the world before the call was made. -/
lemma openAndGrant_ends {w₀ : World} {caller : Caller} (later : w₀.Later [] w)
    (fresh : w₀.nextTag ≤ caller.tag) (made : caller.tag < w.nextTag) :
    Ends c lossy released (s.idle = [] ∨ Quiet s ∧ s.total < c.poolSize + c.maxOverflow) s w₀
      (.ok (openAndGrant c env caller s w)) := by
  rw [openAndGrant]
  by_cases hroom : s.total < c.poolSize + c.maxOverflow
  · rw [if_pos hroom]
    rcases openConnection_cases env w with ⟨-, w', hopen, hlater, hmade, -⟩ |
      ⟨-, w', hopen, hlater⟩
    · rw [hopen]
      have hgranted : w'.Later [.granted w.nextPid caller true]
          (grant w.nextPid true (w'.now env).1 caller s (w'.now env).2).2 :=
        (w'.later_now env).after ((World.later_monitor _).after
          ((World.later_monitor _).after (World.later_record _ _)))
      have hserved : Served w₀ _ s.waiters ⟨caller.owner, 0, caller⟩ s.waiters :=
        .direct fresh (made.trans_le (hlater.trans hgranted).tags)
      refine ⟨_, _, rfl, .single (.connect hroom later.pids (hmade.trans_le hgranted.pids) hserved
        (later.after (hlater.trans hgranted))), ?_⟩
      rintro (hidle | ⟨hquiet, -⟩)
      · exact fun _ => hidle
      · exact hquiet
    · rw [hopen]
      refine ⟨_, _, rfl, .single (.refuse (later.after (hlater.after (World.later_record _ _)))
        (Or.inl rfl) fresh (made.trans_le hlater.tags)), ?_⟩
      rintro (hidle | ⟨hquiet, -⟩)
      · exact fun _ => hidle
      · exact hquiet
  · rw [if_neg hroom]
    have hlater := later.before w.later_monitor
    refine ⟨_, _, rfl, .single (.enqueue hlater
      ⟨later.refs, Nat.lt_succ_self _⟩ ⟨fresh, made⟩), ?_⟩
    rintro (hidle | ⟨-, hlt⟩)
    · exact fun _ => hidle
    · exact absurd hlt hroom

/-- A checkout.

**Proof sketch.** A parked connection that is past its age leaves room for another when it is
closed, so that nobody waits then. -/
lemma grantOrQueue_ends {owner : Pid} (hsound : Sound c s w)
    (hreleased : ∀ conn openedAt rest, c.nullPool = false → s.idle = (conn, openedAt) :: rest →
      expiredAt c openedAt (env.clock w.clockReads) = true → released conn) :
    Ends c lossy released (Quiet s) s w
      (grantOrQueue c env (w.call owner).1 s (w.call owner).2) := by
  have hempty : s.idle = [] → Ends c lossy released (Quiet s) s w
      (.ok (openAndGrant c env (w.call owner).1 s (w.call owner).2)) := fun hidle =>
    Ends.calm (fun _ => Or.inl hidle)
      (openAndGrant_ends (w.later_call owner) le_rfl (Nat.lt_succ_self _))
  rw [grantOrQueue]
  cases hplain : c.nullPool with
  | true => exact hempty (hsound.tracks.plain hplain)
  | false =>
    rw [if_neg Bool.false_ne_true]
    cases hidle : s.idle with
    | nil => exact hempty hidle
    | cons head rest =>
      obtain ⟨conn, openedAt⟩ := head
      have hlater := World.later_expired c env openedAt (w.call owner).2
      have hage := expired_fst c env openedAt (w.call owner).2
      dsimp only
      generalize expired c env openedAt (w.call owner).2 = seen at hlater hage ⊢
      obtain ⟨age, w₁⟩ := seen
      have hcalled : w.Later [] w₁ := (w.later_call owner).after hlater
      have hmade : (w.call owner).1.tag < w₁.nextTag := (Nat.lt_succ_self _).trans_le hlater.tags
      cases age with
      | false =>
        have hgranted := hcalled.after ((World.later_monitor _).after
          ((World.later_monitor _).after
            (World.later_record _ (.granted conn (w.call owner).1 false))))
        have hserved : ∀ w' : World, w₁.nextTag ≤ w'.nextTag →
            Served w w' s.waiters ⟨owner, 0, (w.call owner).1⟩ s.waiters :=
          fun w' htag => .direct le_rfl (hmade.trans_le htag)
        refine ⟨_, _, rfl, .single (.reuse hidle (hserved _ le_rfl) hgranted),
          fun hquiet hne => ?_⟩
        have hnil := hquiet hne
        rw [hidle] at hnil
        cases hnil
      | true =>
        have hmem : conn ∈ s.idle.map Prod.fst := by
          rw [hidle]
          exact List.mem_cons_self
        -- the connection is closed before the call is seen
        have hmove : Move c lossy released (s, w)
            (({ s with idle := rest }).forget conn, w.record (.closed conn)) :=
          .unpark (show s.idle = [] ++ _ from hidle) (World.later_record _ _)
            (hreleased conn openedAt rest hplain hidle hage.symm)
        have hroom : (({ s with idle := rest }).forget conn).total <
            c.poolSize + c.maxOverflow := by
          have hcapacity := hsound.tracks.capacity
          rw [(hsound.tracks.take [] hidle).2.2] at hcapacity
          exact hcapacity
        have hseen : (w.record (.closed conn)).Later [] (w₁.record (.closed conn)) := by
          refine ⟨?_, hcalled.pids, hcalled.refs, hcalled.tags⟩
          have hlog := hcalled.log
          rw [List.append_nil] at hlog ⊢
          exact congrArg (· ++ [Entry.closed conn]) hlog
        dsimp only
        rw [closeConn_eq (s := { s with idle := rest })
          (hsound.tracks.monitored conn (Or.inl hmem))]
        refine Ends.after (.single hmove) (Ends.calm (fun hquiet => Or.inr ⟨fun hne => ?_, hroom⟩)
          (openAndGrant_ends hseen le_rfl hmade))
        have hnil := hquiet hne
        rw [hidle] at hnil
        cases hnil

/-- A connection that is parked at its check-in stays or goes to a caller, unless the recycle is
refused: a quiet state has no other parked, if somebody waits. -/
lemma parked_calm {conn : Pid} {holder : Holder} (hout : s.checkedOut.get conn = some holder)
    (hplain : c.nullPool = false)
    (hage : (expired c env holder.openedAt (w.record (.checkedIn conn))).1 = false)
    (htransient : transient c (s.checkIn conn) = false) (hquiet : Quiet s)
    (hrefused : ¬RefusedRecycle c env (.checkin conn) s w) :
    Calm c env ((s.checkIn conn).park conn holder.openedAt)
      (expired c env holder.openedAt (w.record (.checkedIn conn))).2 := by
  intro hne
  have hidle : ((s.checkIn conn).park conn holder.openedAt).idle = [(conn, holder.openedAt)] := by
    change s.idle ++ [(conn, holder.openedAt)] = _
    rw [hquiet hne, List.nil_append]
  refine ⟨by rw [hidle, List.length_singleton], fun hrecycled => ?_⟩
  by_contra hconnects
  rw [recycledBy, hidle] at hrecycled
  rcases expired_cases c env holder.openedAt (w.record (.checkedIn conn)) with ⟨hnever, -⟩ | hread
  · exact hrecycled (recycled_eq_nil hnever _ _ _)
  · rw [hread] at hrecycled hconnects hage
    refine hrefused ⟨conn, holder, rfl, hout, hplain, htransient, hage, ?_, ?_,
      Bool.eq_false_iff.mpr hconnects⟩
    · by_contra hlive
      refine hrecycled ?_
      change recycled c env _ (liveCount env s.waiters w.livenessReads) _ = []
      rw [Nat.eq_zero_of_not_pos hlive, recycled]
      exact List.cons_ne_nil _ _
    · by_contra hyoung
      refine hrecycled ?_
      change recycled c env _ (liveCount env s.waiters w.livenessReads) (w.clockReads + 1) = []
      cases liveCount env s.waiters w.livenessReads with
      | zero => rfl
      | succ live => rw [recycled, if_neg hyoung, recycled]

/-- A check-in: the connection is closed or parked, and the queue is served. -/
lemma handleCheckin_ends {conn : Pid} (hsound : Sound c s w)
    (hreleased : ∀ x, Releases c env (.checkin conn) s w x → released x)
    (hcalm : lossy ∨ Quiet s ∧ ¬RefusedRecycle c env (.checkin conn) s w) :
    Ends c lossy released (Quiet s ∧ ¬RefusedRecycle c env (.checkin conn) s w) s w
      (handleCheckin c env conn s w) := by
  simp only [handleCheckin]
  cases hout : s.checkedOut.get conn with
  | none =>
    refine ⟨s, _, rfl, .single (.answer (World.later_record _ _) ?_), And.left⟩
    exact List.forall_mem_singleton.mpr ⟨_, rfl⟩
  | some holder =>
    have hback := World.later_record w (.checkedIn conn)
    have hentry : ∀ e ∈ [Entry.checkedIn conn], e = .checkedIn conn :=
      List.forall_mem_singleton.mpr rfl
    have hlater : w.Later [.checkedIn conn]
        (expired c env holder.openedAt (w.record (.checkedIn conn))).2 :=
      hback.before (World.later_expired _ _ _ _)
    have hreleased' := fun x h => hreleased x ⟨holder, hout, h⟩
    have hcalm' := @parked_calm c env s w conn holder hout
    dsimp only
    cases hplain : c.nullPool with
    | true =>
      rw [if_pos rfl]
      refine Ends.calm And.left (close_answered hsound hout hback hentry ?_
        (hcalm.imp_right And.left))
      intro x hx
      refine hreleased' x ?_
      simp only [hplain, Bool.true_or, if_true]
      refine hx.imp_right fun hmem => ?_
      rw [recycledBy, hsound.tracks.plain hplain, recycled] at hmem
      cases hmem
    | false =>
      rw [if_neg Bool.false_ne_true]
      simp only [hplain, Bool.false_or] at hreleased'
      generalize expired c env holder.openedAt (w.record (.checkedIn conn)) = seen
        at hlater hreleased' hcalm' ⊢
      obtain ⟨age, w₁⟩ := seen
      cases age with
      | true =>
        refine Ends.calm And.left (close_answered hsound hout hlater hentry
          (fun x hx => hreleased' x ?_) (hcalm.imp_right And.left))
        simpa only [Bool.true_or, if_true] using hx
      | false =>
        dsimp only
        cases htransient : transient c (s.checkIn conn) with
        | true =>
          rw [if_pos rfl]
          refine Ends.calm And.left (close_answered hsound hout hlater hentry
            (fun x hx => hreleased' x ?_) (hcalm.imp_right And.left))
          simpa only [htransient, Bool.or_true, if_true] using hx
        | false =>
          rw [if_neg Bool.false_ne_true]
          have hroom : (s.checkIn conn).total < c.poolSize := by
            rw [transient, decide_eq_false_iff_not] at htransient
            exact Nat.lt_of_not_le htransient
          have hmove : Move c lossy released (s, w)
              ((s.checkIn conn).park conn holder.openedAt, w₁) :=
            .park hplain hout hroom hlater
          have hcalm'' := fun h : Quiet s ∧ _ => hcalm' hplain rfl htransient h.1 h.2
          refine Ends.answered .ok (Ends.after (.single hmove) (Ends.calm hcalm''
            (serve_ends (hsound.move hmove) (fun x hx => hreleased' x ?_)
              (hcalm.imp_right hcalm''))))
          simpa only [htransient, Bool.or_false, Bool.false_eq_true, if_false] using hx

/-- A key of a list without repetition stands in no place or in one. -/
lemma filter_key {α : Type} {l : List α} {key : α → ℕ} (hnodup : (l.map key).Nodup) (k : ℕ) :
    k ∉ l.map key ∧ (l.filter fun x => key x == k) = [] ∧ (l.filter fun x => key x != k) = l ∨
    ∃ before x after, l = before ++ x :: after ∧ key x = k ∧
      (l.filter fun x => key x == k) = [x] ∧ (l.filter fun x => key x != k) = before ++ after := by
  have hnot : ∀ {l : List α}, k ∉ l.map key →
      (l.filter fun x => key x == k) = [] ∧ (l.filter fun x => key x != k) = l := by
    intro l hl
    have hne : ∀ x ∈ l, key x ≠ k := fun x hx heq => hl (List.mem_map.mpr ⟨x, hx, heq⟩)
    exact ⟨List.filter_eq_nil_iff.mpr fun x hx => by simpa using hne x hx,
      List.filter_eq_self.mpr fun x hx => by simpa using hne x hx⟩
  by_cases hmem : k ∈ l.map key
  · obtain ⟨x, hx, rfl⟩ := List.mem_map.mp hmem
    obtain ⟨before, after, rfl⟩ := List.append_of_mem hx
    rw [List.map_append, List.map_cons, List.nodup_middle, List.nodup_cons, List.mem_append,
      not_or] at hnodup
    obtain ⟨hbefore, hbefore'⟩ := hnot hnodup.1.1
    obtain ⟨hafter, hafter'⟩ := hnot hnodup.1.2
    refine Or.inr ⟨before, x, after, rfl, rfl, ?_, ?_⟩
    · rw [List.filter_append, List.filter_cons, if_pos (beq_self_eq_true (key x)), hbefore, hafter,
        List.nil_append]
    · rw [List.filter_append, List.filter_cons, if_neg (by simp), hbefore', hafter']
  · exact Or.inl ⟨hmem, hnot hmem⟩

/-- A connection died: it was checked out, or parked, or is unknown. -/
lemma connectionDied_ends {pid : Pid} (hsound : Sound c s w)
    (hreleased : ∀ x, Dies c env pid s w x → released x) (hcalm : lossy ∨ Quiet s) :
    Ends c lossy released (Quiet s) s w (connectionDied c env pid s w) := by
  rw [connectionDied]
  cases hout : s.checkedOut.get pid with
  | some holder =>
    have hfilter : (s.idle.filter fun e => e.1 != pid) = s.idle := by
      rcases filter_key hsound.tracks.nodup pid with ⟨-, -, hrest⟩ |
        ⟨before, e, after, hidle, rfl, -⟩
      · exact hrest
      · have hnone := hsound.tracks.apart e.1
          (List.mem_map_of_mem (hidle ▸ List.mem_append_cons_self))
        rw [hout] at hnone
        cases hnone
    refine release_ends hsound hout (.refl w) (fun _ => List.not_mem_nil.elim)
      (fun x hx => ?_) hcalm
    refine hreleased x ⟨Or.inr ⟨holder, hout⟩, ?_⟩
    rw [hfilter]
    exact hx
  | none =>
    dsimp only
    rcases filter_key hsound.tracks.nodup pid with ⟨-, hone, -⟩ |
      ⟨before, e, after, hidle, rfl, hone, hrest⟩
    · rw [hone]
      exact ⟨s, w, rfl, .refl, id⟩
    · have hmem : e.1 ∈ s.idle.map Prod.fst :=
        List.mem_map_of_mem (hidle ▸ List.mem_append_cons_self)
      rw [hone]
      dsimp only
      rw [closeConn_eq (hsound.tracks.monitored e.1 (Or.inl hmem))]
      have hmove : Move c lossy released (s, w)
          ({ s.forget e.1 with idle := s.idle.filter fun x => x.1 != e.1 },
            w.record (.closed e.1)) := by
        rw [hrest]
        exact .unpark hidle (World.later_record _ _)
          (hreleased e.1 ⟨Or.inl hmem, Or.inl rfl⟩)
      have hcalm' : Quiet s → Calm c env { s.forget e.1 with
          idle := s.idle.filter fun x => x.1 != e.1 } (w.record (.closed e.1)) := by
        refine fun h => Quiet.calm fun hne => ?_
        have hnil : s.idle = [] := h hne
        change (s.idle.filter fun x => x.1 != e.1) = []
        rw [hnil, List.filter_nil]
      exact Ends.after (.single hmove) (Ends.calm hcalm' (serve_ends (hsound.move hmove)
        (fun x hx => hreleased x ⟨Or.inl hmem, Or.inr hx⟩) (hcalm.imp_right hcalm')))

/-- Callers leave the queue of a quiet state. -/
lemma Quiet.drop {waiters : List Waiter} (h : Quiet s) (hsub : waiters.Sublist s.waiters) :
    Quiet { s with waiters := waiters } := by
  refine fun hne => h fun hnil => hne ?_
  rw [hnil] at hsub
  exact List.sublist_nil.mp hsub

/-- An owner went down: its connection is closed, or it leaves the queue. -/
lemma ownerDeparted_ends {ref : Ref} (hsound : Sound c s w)
    (hreleased : ∀ conn holder, s.checkedOut.get conn = some holder → holder.ref = ref →
      ∀ x, x = conn ∨ x ∈ recycledBy c env s w → released x) (hcalm : lossy ∨ Quiet s) :
    Ends c lossy released (Quiet s) s w (ownerDeparted c env ref s w) := by
  rw [ownerDeparted]
  cases hfind : s.checkedOut.rows.find? fun r => r.2.ref == ref with
  | some row =>
    obtain ⟨conn, holder⟩ := row
    have hout := (Table.mem_rows_iff _ _ _).mp (List.mem_of_find?_eq_some hfind)
    have href : holder.ref = ref := by simpa using List.find?_some hfind
    exact close_ends hsound hout (.refl w) (fun _ => List.not_mem_nil.elim)
      (hreleased conn holder hout href) hcalm
  | none =>
    have hdrop : ∃ waiters, waiters.Sublist s.waiters ∧
        dropWaiter ref s = .ok { s with waiters := waiters } := by
      rw [dropWaiter]
      rcases filter_key hsound.queued.refs ref with ⟨-, hone, -⟩ | ⟨-, waiter, -, -, -, hone, -⟩
      · rw [hone]
        exact ⟨s.waiters, List.Sublist.refl _, rfl⟩
      · rw [hone]
        exact ⟨_, List.filter_sublist, rfl⟩
    obtain ⟨waiters, hsub, hdrop⟩ := hdrop
    dsimp only
    rw [hdrop]
    exact ⟨_, w, rfl, .single (.drop hsub), fun h => h.drop hsub⟩

/-- Every handler ends, with a state that moves lead to.

**Proof sketch.** By the events. The handlers that free a connection serve the queue, which
`serve_ends` is about; a state that is quiet before stays so, unless the step is a refused
recycle. -/
theorem handle_moves (env : Environment) (lossy : Prop) (released : Pid → Prop) {event : Event}
    (hsound : Sound c s w)
    (hreleased : ∀ x, Releases c env event s w x → released x)
    (hcalm : lossy ∨ Quiet s ∧ ¬RefusedRecycle c env event s w) :
    Ends c lossy released (Quiet s ∧ ¬RefusedRecycle c env event s w) s w
      (handle c env event s w) := by
  have hcalm' : lossy ∨ Quiet s := hcalm.imp_right And.left
  cases event with
  | checkout owner =>
    cases hdraining : s.draining with
    | true =>
      simp only [handle, hdraining, if_true]
      have hlater := (w.later_call owner).after (World.later_record _ (.drained (w.call owner).1))
      exact ⟨s, _, rfl, .single (.refuse hlater (Or.inr rfl) le_rfl (Nat.lt_succ_self _)), And.left⟩
    | false =>
      simp only [handle, hdraining, Bool.false_eq_true, if_false]
      exact Ends.calm And.left (grantOrQueue_ends hsound fun conn openedAt rest hplain hidle hage =>
        hreleased conn ⟨hdraining, hplain, openedAt, rest, hidle, hage⟩)
  | checkin conn => exact handleCheckin_ends hsound hreleased hcalm
  | discard conn =>
    rw [handle, handleDiscard]
    cases hout : s.checkedOut.get conn with
    | none =>
      refine ⟨s, _, rfl, .single (.answer (World.later_record _ _) ?_), And.left⟩
      exact List.forall_mem_singleton.mpr ⟨_, rfl⟩
    | some holder =>
      exact Ends.calm And.left (close_answered hsound hout (.refl w)
        (fun _ => List.not_mem_nil.elim) (fun x hx => hreleased x ⟨⟨holder, hout⟩, hx⟩) hcalm')
  | abandoned owner =>
    have hsub : (dropWaiterByOwner owner s).waiters.Sublist s.waiters := List.filter_sublist
    have hmove : Move c lossy released (s, w) (dropWaiterByOwner owner s, w) := .drop hsub
    have hquiet : Quiet s → Calm c env (dropWaiterByOwner owner s) w := fun h => (h.drop hsub).calm
    exact Ends.calm And.left (Ends.after (.single hmove) (Ends.calm hquiet
      (serve_ends (hsound.move hmove) hreleased (hcalm'.imp_right hquiet))))
  | down ref pid =>
    rw [handle]
    simp only [Releases] at hreleased
    by_cases hmonitor : s.monitors.get pid = some ref
    · rw [if_pos hmonitor]
      simp only [if_pos hmonitor] at hreleased
      exact Ends.calm And.left (connectionDied_ends hsound hreleased hcalm')
    · rw [if_neg hmonitor]
      simp only [if_neg hmonitor] at hreleased
      exact Ends.calm And.left (ownerDeparted_ends hsound
        (fun conn holder hout href x hx => hreleased x ⟨conn, holder, hout, href, hx⟩) hcalm')
  | exit pid => exact Ends.calm And.left (connectionDied_ends hsound hreleased hcalm')
  | drain budgetMs =>
    have hdrain : Move c lossy released (s, w) ({ s with draining := true }, w) := .drain
    have hanswer : Move c lossy released ({ s with draining := true }, w)
        ({ s with draining := true }, w.record (.answered (.outstanding s.checkedOut.size))) :=
      .answer (World.later_record _ _) (List.forall_mem_singleton.mpr ⟨_, rfl⟩)
    have hmoves := (Relation.ReflTransGen.single hdrain).tail hanswer
    simp only [handle, handleDrain]
    by_cases hwait : 0 < s.checkedOut.size ∧ 0 < budgetMs
    · rw [if_pos hwait]
      exact ⟨_, _, rfl, hmoves, And.left⟩
    · rw [if_neg hwait]
      exact ⟨_, _, rfl, hmoves.tail (.sweep fun conn hconn => hreleased conn ⟨hwait, hconn⟩),
        fun _ hne => absurd rfl hne⟩
  | drainDeadline =>
    rw [handle]
    cases hdraining : s.draining with
    | true =>
      exact ⟨_, _, rfl, .single (.sweep fun conn hconn => hreleased conn ⟨hdraining, hconn⟩),
        fun _ hne => absurd rfl hne⟩
    | false => exact ⟨s, w, rfl, .refl, And.left⟩

end Handlers

/-! ### Runs -/

/-- What a pool keeps. A caller of a checkout is named by the tag of its call. -/
structure Kept (c : Config) (s : State) (w : World) : Prop where
  once : (s.idle.map Prod.fst).Nodup
  apart : ∀ conn ∈ s.idle.map Prod.fst, s.checkedOut.get conn = none
  owned : SingleOwner w.log
  capacity : s.idle.length + s.checkedOut.size ≤ c.poolSize + c.maxOverflow
  parked : s.idle.length ≤ c.poolSize
  monitored : ∀ conn, s.Tracked conn → ∃ ref, s.monitors.get conn = some ref
  replied : ∀ tag, (w.log.filterMap Entry.tag?).count tag ≤ 1

/-- The invariant gives what a pool keeps. -/
lemma Sound.kept {c : Config} {s : State} {w : World} (h : Sound c s w) : Kept c s w where
  once := h.tracks.nodup
  apart := h.tracks.apart
  owned := h.recorded.owned
  capacity := h.tracks.capacity
  parked := h.tracks.parked
  monitored := h.tracks.monitored
  replied := List.nodup_iff_count_le_one.mp h.recorded.replies

/-- A handler keeps the invariant. -/
lemma Sound.handle {c : Config} {s : State} {w : World} (h : Sound c s w) (env : Environment)
    (event : Event) :
    ∃ s' w', Pool.handle c env event s w = .ok (s', w') ∧ Sound c s' w' := by
  obtain ⟨s', w', heq, hmoves, -⟩ := handle_moves env True (fun _ => True) h
    (fun _ _ => trivial) (Or.inl trivial)
  exact ⟨s', w', heq, h.moves hmoves⟩

/-- After any events, whatever the clock shows, whichever connects fail and whoever dies: the pool
has not crashed, each connection is in one place and was handed out to one caller at a time, the
bounds hold, every connection is monitored, and each caller has at most one reply.

**Proof sketch.** By induction on the events, with `handle_moves` for one of them. -/
theorem run_kept (c : Config) (env : Environment) (events : List Event) :
    ∃ s w, run c env events .initial .initial = .ok (s, w) ∧ Kept c s w := by
  suffices hgoal : ∀ (events : List Event) (s : State) (w : World), Sound c s w →
      ∃ s' w', run c env events s w = .ok (s', w') ∧ Sound c s' w' by
    obtain ⟨s, w, heq, hsound⟩ := hgoal events _ _ (sound_initial c)
    exact ⟨s, w, heq, hsound.kept⟩
  intro events
  induction events with
  | nil => exact fun s w hsound => ⟨s, w, rfl, hsound⟩
  | cons event events ih =>
    intro s w hsound
    obtain ⟨s₁, w₁, heq, hsound₁⟩ := hsound.handle env event
    obtain ⟨s₂, w₂, heq₂, hsound₂⟩ := ih s₁ w₁ hsound₁
    refine ⟨s₂, w₂, ?_, hsound₂⟩
    rw [run, heq]
    exact heq₂

end VitrialSync.Beam.Pool
