import VitrialSync.Beam.PoolRuns

set_option relaxedAutoImplicit false
set_option autoImplicit false

/-!
# Connections that the pool has closed

When the pool looks for a connection for a caller that waits, it closes the parked ones that are
past their age. If it finds none in the end, it goes on with the state from before, in which they
are still parked and monitored, and later hands them out again. That takes a check-in that parks a
connection while a live caller waits, a clock that passes the connection's age between its two
readings in the handler, and a connect that fails.

In all other runs no connection that was closed is left in the state.

## Main definitions

* `VitrialSync.Beam.Pool.Forgets` — the pool keeps no connection that it closed.

## Main results

* `VitrialSync.Beam.Pool.forgets_iff` — the runs in which it keeps none.
-/

namespace VitrialSync.Beam.Pool

open Program

/-! ### What is closed is gone -/

/-- A connection is nowhere in the state. -/
structure State.Absent (s : State) (conn : Pid) : Prop where
  idle : conn ∉ s.idle.map Prod.fst
  checkedOut : s.checkedOut.get conn = none
  monitors : s.monitors.get conn = none

/-- No connection is handed out after it was closed. -/
def NotReused (log : List Entry) : Prop :=
  ∀ before after conn caller isFresh, log = before ++ .granted conn caller isFresh :: after →
    .closed conn ∉ before

/-- The pool keeps no connection that it closed, and did not hand one out. -/
structure Forgets (s : State) (w : World) : Prop where
  absent : ∀ conn, .closed conn ∈ w.log → s.Absent conn
  notReused : NotReused w.log

/-- One more entry hands out no connection that was closed. -/
lemma NotReused.concat {log : List Entry} (h : NotReused log) {e : Entry}
    (he : ∀ conn caller isFresh, e = .granted conn caller isFresh → .closed conn ∉ log) :
    NotReused (log ++ [e]) := by
  intro before after conn caller isFresh heq
  rcases List.eq_nil_or_concat' after with rfl | ⟨after, last, rfl⟩
  · obtain ⟨rfl, hlast⟩ := List.append_inj' heq rfl
    exact he conn caller isFresh (List.cons.inj hlast).1
  · refine h before after conn caller isFresh ?_
    rw [← List.cons_append, ← List.append_assoc] at heq
    exact (List.append_inj' heq rfl).1

/-- Entries that hand out nothing. -/
lemma NotReused.append {log added : List Entry} (h : NotReused log)
    (hadded : ∀ conn caller isFresh, .granted conn caller isFresh ∉ added) :
    NotReused (log ++ added) := by
  induction added using List.reverseRecOn with
  | nil => rwa [List.append_nil]
  | append_singleton added e ih =>
    rw [← List.append_assoc]
    refine NotReused.concat (ih fun conn caller isFresh hmem =>
      hadded conn caller isFresh (List.mem_append_left _ hmem)) ?_
    rintro conn caller isFresh rfl
    exact absurd (List.mem_append_right _ List.mem_cons_self) (hadded conn caller isFresh)

namespace State.Absent

variable {s : State} {conn x : Pid}

/-- Parked connections are taken. -/
lemma sublist (h : s.Absent x) {idle : List (Pid × ℤ)} (hsub : idle.Sublist s.idle) :
    State.Absent { s with idle := idle } x :=
  { h with idle := fun hmem => h.idle ((hsub.map Prod.fst).subset hmem) }

/-- A connection comes back. -/
lemma checkIn (h : s.Absent x) : (s.checkIn conn).Absent x :=
  { h with
    checkedOut := Option.eq_none_iff_forall_ne_some.mpr fun holder hget => by
      have hold := (Table.get_without_eq_some.mp hget).1
      rw [h.checkedOut] at hold
      cases hold }

/-- A monitor goes. -/
lemma forget (h : s.Absent x) : (s.forget conn).Absent x :=
  { h with
    monitors := Option.eq_none_iff_forall_ne_some.mpr fun ref hget => by
      have hold := (Table.get_without_eq_some.mp hget).1
      rw [h.monitors] at hold
      cases hold }

/-- Another connection is handed out. -/
lemma checkOut (h : s.Absent x) {holder : Holder} {connRef : Ref} (hne : x ≠ conn) :
    (s.checkOut conn holder connRef).Absent x where
  idle := h.idle
  checkedOut := (Table.get_set_of_ne _ _ hne).trans h.checkedOut
  monitors := (Tracks.get_putNew_of_ne _ _ hne).trans h.monitors

/-- Another connection is parked. -/
lemma park (h : s.Absent x) {openedAt : ℤ} (hne : x ≠ conn) : (s.park conn openedAt).Absent x :=
  { h with
    idle := fun hmem => by
      rw [State.park, List.map_append, List.mem_append] at hmem
      rcases hmem with hmem | hmem
      · exact h.idle hmem
      · exact hne (List.mem_singleton.mp hmem) }

/-- A connection that is not tracked loses its monitor. -/
lemma of_not_tracked (h : ¬s.Tracked x) : (s.forget x).Absent x where
  idle := fun hmem => h (Or.inl hmem)
  checkedOut := Option.eq_none_iff_forall_ne_some.mpr fun holder hget => h (Or.inr ⟨holder, hget⟩)
  monitors := Option.eq_none_iff_forall_ne_some.mpr fun _ hget =>
    (Table.get_without_eq_some.mp hget).2 (List.mem_singleton.mpr rfl)

end State.Absent

/-! ### Moves -/

namespace Forgets

variable {c : Config} {s s' : State} {w w' : World}

/-- A tracked connection was not closed. -/
lemma not_closed (h : Forgets s w) {conn : Pid} (hconn : s.Tracked conn) :
    .closed conn ∉ w.log := by
  intro hclosed
  have habsent := h.absent conn hclosed
  rcases hconn with hmem | ⟨holder, hget⟩
  · exact habsent.idle hmem
  · rw [habsent.checkedOut] at hget
    cases hget

/-- More is done, and what is closed is gone. -/
lemma later (h : Forgets s w) {added : List Entry} (later : w.Later added w')
    (hkeep : ∀ conn, s.Absent conn → .closed conn ∈ w.log → s'.Absent conn)
    (hclosed : ∀ conn, .closed conn ∈ added → s'.Absent conn)
    (hgrant : ∀ conn caller isFresh, .granted conn caller isFresh ∉ added) : Forgets s' w' where
  absent conn hmem := by
    rw [later.log, List.mem_append] at hmem
    rcases hmem with hmem | hmem
    · exact hkeep conn (h.absent conn hmem) hmem
    · exact hclosed conn hmem
  notReused := by
    rw [later.log]
    exact h.notReused.append hgrant

/-- A connection that was not closed is handed out. -/
lemma grant (h : Forgets s w) {conn : Pid} {caller : Caller} {isFresh : Bool}
    (later : w.Later [.granted conn caller isFresh] w') (hconn : .closed conn ∉ w.log)
    (hkeep : ∀ x, x ≠ conn → s.Absent x → s'.Absent x) : Forgets s' w' where
  absent x hmem := by
    rw [later.log, List.mem_append, List.mem_singleton] at hmem
    rcases hmem with hmem | hmem
    · refine hkeep x ?_ (h.absent x hmem)
      rintro rfl
      exact hconn hmem
    · cases hmem
  notReused := by
    rw [later.log]
    refine h.notReused.concat fun x caller' isFresh' he => ?_
    obtain ⟨rfl, -, -⟩ := Entry.granted.inj he
    exact hconn

/-- A move that loses nothing leaves no connection that was closed.

**Proof sketch.** By the moves. What is handed out was parked, and thus not closed, or is new. -/
lemma move {released : Pid → Prop} (h : Forgets s w) (hsound : Sound c s w)
    (hmove : Move c False released (s, w) (s', w')) : Forgets s' w' := by
  have hsilent : ∀ {added : List Entry} {w' : World}, w.Later added w' →
      (∀ e ∈ added, (∀ conn, e ≠ .closed conn) ∧ ∀ conn caller isFresh,
        e ≠ .granted conn caller isFresh) → Forgets s w' := fun later hadded =>
    h.later later (fun _ habsent _ => habsent)
      (fun conn hmem => absurd rfl ((hadded _ hmem).1 conn))
      fun conn caller isFresh hmem => (hadded _ hmem).2 conn caller isFresh rfl
  cases hmove with
  | answer later silent =>
    refine hsilent later fun e he => ?_
    obtain ⟨reply, rfl⟩ := silent e he
    exact ⟨fun _ => nofun, fun _ _ _ => nofun⟩
  | refuse later entry fresh made =>
    refine hsilent later (List.forall_mem_singleton.mpr ?_)
    rcases entry with rfl | rfl
    · exact ⟨fun _ => nofun, fun _ _ _ => nofun⟩
    · exact ⟨fun _ => nofun, fun _ _ _ => nofun⟩
  | drain => exact ⟨fun conn hmem => { h.absent conn hmem with }, h.notReused⟩
  | drop sub => exact ⟨fun conn hmem => { h.absent conn hmem with }, h.notReused⟩
  | enqueue later ref tag =>
    have hforgets := hsilent later fun _ => List.not_mem_nil.elim
    exact ⟨fun conn hmem => { hforgets.absent conn hmem with }, hforgets.notReused⟩
  | @unpark s w w' conn openedAt before after idle later release =>
    have hsub : (before ++ after).Sublist s.idle := by
      rw [idle]
      exact (List.Sublist.refl before).append (List.sublist_cons_self _ _)
    refine h.later later (fun x habsent _ => (habsent.sublist hsub).forget) ?_ ?_
    · intro x hmem
      obtain rfl := Entry.closed.inj (List.mem_singleton.mp hmem)
      exact .of_not_tracked (hsound.tracks.take before idle).2.1
    · intro x caller isFresh hmem
      cases List.mem_singleton.mp hmem
  | @reuse s w w' conn openedAt rest waiter waiters holder connRef idle served later =>
    have hmem : conn ∈ s.idle.map Prod.fst := by
      rw [idle]
      exact List.mem_cons_self
    refine h.grant later (h.not_closed (Or.inl hmem)) fun x hne habsent => ?_
    have hrest : State.Absent { s with idle := rest } x :=
      habsent.sublist (idle ▸ List.sublist_cons_self _ _)
    exact State.Absent.checkOut (s := { s with idle := rest, waiters := waiters })
      { hrest with } hne
  | @connect s w w' conn waiter waiters holder connRef room fresh made served later =>
    let w₁ : World := { w' with log := w.log ++ [.opened conn] }
    have hforgets : Forgets s w₁ := by
      have hfirst : w.Later [.opened conn] w₁ := ⟨rfl, later.pids, later.refs, later.tags⟩
      refine hsilent hfirst (List.forall_mem_singleton.mpr ?_)
      exact ⟨fun _ => nofun, fun _ _ _ => nofun⟩
    have hsecond : w₁.Later [.granted conn waiter.caller true] w' :=
      ⟨by rw [later.log]; simp [w₁], le_rfl, le_rfl, le_rfl⟩
    refine hforgets.grant hsecond ?_ fun x hne habsent => ?_
    · intro hclosed
      rcases List.mem_append.mp hclosed with hclosed | hclosed
      · exact (hsound.recorded.conns conn (List.mem_filterMap.mpr ⟨_, hclosed, rfl⟩)).not_ge fresh
      · cases List.mem_singleton.mp hclosed
    · exact State.Absent.checkOut (s := { s with waiters := waiters }) { habsent with } hne
  | @release s w w' added conn holder out later entries release =>
    refine h.later later (fun x habsent _ => habsent.checkIn.forget) ?_ ?_
    · intro x hmem
      have hx : x = conn := by
        rcases entries _ hmem with heq | heq
        · cases heq
        · exact Entry.closed.inj heq
      subst hx
      exact .of_not_tracked (hsound.tracks.checkIn out).2.1
    · intro x caller isFresh hmem
      rcases entries _ hmem with heq | heq
      · cases heq
      · cases heq
  | @park s w w' conn holder openedAt plain out room later =>
    refine h.later later (fun x habsent _ => habsent.checkIn.park ?_) ?_ ?_
    · rintro rfl
      rw [habsent.checkedOut] at out
      cases out
    · intro x hmem
      cases List.mem_singleton.mp hmem
    · intro x caller isFresh hmem
      cases List.mem_singleton.mp hmem
  | sweep release =>
    refine h.later (later_sweep s w) (fun x _ _ => ⟨List.not_mem_nil, rfl, rfl⟩)
      (fun x _ => ⟨List.not_mem_nil, rfl, rfl⟩) fun conn caller isFresh hmem => ?_
    rcases mem_swept hmem with ⟨x, heq, -⟩ | ⟨waiter, -, heq⟩
    · cases heq
    · cases heq
  | lost loss parked later => exact loss.elim

/-- Moves that lose nothing. -/
lemma moves {released : Pid → Prop} (h : Forgets s w) (hsound : Sound c s w)
    (hmoves : Moves c False released (s, w) (s', w')) : Forgets s' w' := by
  suffices hgoal : ∀ p, Moves c False released (s, w) p → Forgets p.1 p.2 from hgoal _ hmoves
  intro p hp
  induction hp with
  | refl => exact h
  | tail hfirst hlast ih => exact ih.move (hsound.moves hfirst) hlast

end Forgets

/-! ### The check-ins that lose a connection -/

/-- While the queue is served, a connection is closed and stays parked: a live caller looks at it,
finds it past its age, and no other can be opened.

**Proof sketch.** By induction on the queue, up to its first live caller. -/
lemma serveWaiters_loses (c : Config) (env : Environment) {conn : Pid} {openedAt : ℤ}
    (waiters : List Waiter) :
    ∀ (s : State) (w : World), s.idle = [(conn, openedAt)] →
      (∃ ref, s.monitors.get conn = some ref) → s.total ≤ c.poolSize + c.maxOverflow →
      0 < liveCount env waiters w.livenessReads →
      expiredAt c openedAt (env.clock w.clockReads) = true → env.connects w.connects = false →
      ∃ s' w', serveWaiters c env waiters s w = .ok (s', w') ∧ conn ∈ s'.idle.map Prod.fst ∧
        .closed conn ∈ w'.log := by
  induction waiters with
  | nil => exact fun s w _ _ _ hlive => absurd hlive (Nat.lt_irrefl 0)
  | cons waiter rest ih =>
    intro s w hidle hmonitored hcapacity hlive hage hconnects
    cases halive : env.alive w.livenessReads with
    | false =>
      rw [liveCount, halive, if_neg Bool.false_ne_true, Nat.zero_add] at hlive
      rw [serveWaiters, World.isAlive, halive]
      exact ih _ _ hidle hmonitored hcapacity hlive hage hconnects
    | true =>
      have hexpired : expired c env openedAt (w.isAlive env).2 =
          (true, ((w.isAlive env).2.now env).2) := by
        rcases expired_cases c env openedAt (w.isAlive env).2 with ⟨-, hexpired⟩ | hexpired
        · have hfst := expired_fst c env openedAt (w.isAlive env).2
          rw [hexpired] at hfst
          exact absurd (hfst.trans hage) Bool.false_ne_true
        · rw [hexpired]
          exact congrArg (fun age => (age, _)) hage
      let s₁ : State := State.forget { s with idle := [], waiters := rest } conn
      let w₁ : World := ((w.isAlive env).2.now env).2.record (.closed conn)
      have hroom : s₁.total < c.poolSize + c.maxOverflow := by
        rw [State.total, hidle, List.length_singleton, Nat.add_comm] at hcapacity
        change 0 + s.checkedOut.size < _
        rwa [Nat.zero_add]
      have htake : ∃ w', takeConnection c env s.idle { s with waiters := rest } (w.isAlive env).2 =
          .ok (none, w') ∧ .closed conn ∈ w'.log := by
        rcases openConnection_cases env w₁ with ⟨htrue, -⟩ | ⟨-, w', hopen, hlater⟩
        · exact absurd (hconnects.symm.trans htrue) Bool.false_ne_true
        · refine ⟨w', ?_, ?_⟩
          · rw [hidle, takeConnection, hexpired]
            simp only [closeConn_eq (s := { s with idle := [], waiters := rest }) hmonitored]
            change takeConnection c env [] s₁ w₁ = _
            rw [takeConnection, if_pos hroom, hopen]
          · rw [hlater.log, List.append_nil]
            exact List.mem_append_right _ List.mem_cons_self
      obtain ⟨w', htake, hclosed⟩ := htake
      rw [serveWaiters, World.isAlive, halive]
      change ∃ s' w', (takeConnection c env s.idle { s with waiters := rest } (w.isAlive env).2 >>=
        _) = _ ∧ _
      rw [htake]
      refine ⟨_, w', rfl, ?_, hclosed⟩
      rw [hidle]
      exact List.mem_cons_self

/-- A refused recycle of a quiet state leaves a connection that was closed. -/
lemma refusedRecycle_loses {c : Config} {env : Environment} {event : Event} {s s' : State}
    {w w' : World} (hsound : Sound c s w) (hquiet : Quiet s)
    (hrefused : RefusedRecycle c env event s w) (heq : handle c env event s w = .ok (s', w')) :
    ¬Forgets s' w' := by
  obtain ⟨conn, holder, rfl, hout, hplain, htransient, hyoung, hlive, hage, hconnects⟩ := hrefused
  intro hforgets
  have hwaiters : s.waiters ≠ [] := by
    intro hnil
    rw [hnil] at hlive
    exact Nat.lt_irrefl 0 hlive
  have hexpired : expired c env holder.openedAt (w.record (.checkedIn conn)) =
      (false, ((w.record (.checkedIn conn)).now env).2) := by
    rcases expired_cases c env holder.openedAt (w.record (.checkedIn conn)) with
      ⟨hnever, -⟩ | hexpired
    · have hsnd := expired_fst c env holder.openedAt { w with clockReads := w.clockReads + 1 }
      rw [expired, if_pos hnever] at hsnd
      exact absurd (hsnd.trans hage) Bool.false_ne_true
    · rw [hexpired]
      exact congrArg (fun age => (age, _)) hyoung
  have hroom : (s.checkIn conn).total < c.poolSize := by
    rw [transient, decide_eq_false_iff_not] at htransient
    exact Nat.lt_of_not_le htransient
  have hparked : ((s.checkIn conn).park conn holder.openedAt).idle = [(conn, holder.openedAt)] := by
    change s.idle ++ [(conn, holder.openedAt)] = _
    rw [hquiet hwaiters, List.nil_append]
  have hcapacity : ((s.checkIn conn).park conn holder.openedAt).total ≤
      c.poolSize + c.maxOverflow := by
    rw [State.total] at hroom ⊢
    change (s.checkIn conn).idle.length + (s.checkIn conn).checkedOut.size < c.poolSize at hroom
    change ((s.checkIn conn).idle ++ [(conn, holder.openedAt)]).length +
      (s.checkIn conn).checkedOut.size ≤ _
    rw [List.length_append, List.length_singleton]
    omega
  obtain ⟨s₁, w₁, hserve, hidle, hclosed⟩ := serveWaiters_loses c env s.waiters
    ((s.checkIn conn).park conn holder.openedAt) ((w.record (.checkedIn conn)).now env).2 hparked
    (hsound.tracks.monitored conn (Or.inr ⟨holder, hout⟩)) hcapacity hlive hage hconnects
  have hresult : handle c env (.checkin conn) s w =
      .ok (s₁, w₁.record (.answered .ok)) := by
    simp only [handle, handleCheckin, hout, hplain, Bool.false_eq_true, if_false, hexpired,
      htransient]
    change (serveWaiters c env s.waiters _ _ >>= _) = _
    rw [hserve]
    rfl
  rw [hresult] at heq
  obtain ⟨rfl, rfl⟩ := Prod.mk.inj (Except.ok.inj heq)
  exact (hforgets.absent conn (List.mem_append_left _ hclosed)).idle hidle

/-! ### Runs -/

/-- One more event. -/
lemma run_concat (c : Config) (env : Environment) (events : List Event) (event : Event) :
    ∀ (s : State) (w : World), run c env (events ++ [event]) s w = (do
      let (s, w) ← run c env events s w
      handle c env event s w) := by
  induction events with
  | nil =>
    intro s w
    change (handle c env event s w >>= fun p => pure p) = handle c env event s w
    exact bind_pure _
  | cons first events ih =>
    intro s w
    rw [List.cons_append, run, run]
    cases handle c env first s w with
    | error crash => rfl
    | ok p => exact ih p.1 p.2

/-- A run without a refused recycle keeps no connection that it closed.

**Proof sketch.** By induction on the events from the last one: a quiet state stays quiet, and the
moves of a step lose nothing. -/
lemma forgets_of_run {c : Config} {env : Environment} (events : List Event)
    (hevents : ∀ before event s w, before ++ [event] <+: events →
      run c env before .initial .initial = .ok (s, w) → ¬RefusedRecycle c env event s w) :
    ∃ s w, run c env events .initial .initial = .ok (s, w) ∧ Sound c s w ∧ Quiet s ∧
      Forgets s w := by
  induction events using List.reverseRecOn with
  | nil =>
    refine ⟨_, _, rfl, sound_initial c, fun _ => rfl, fun _ => List.not_mem_nil.elim, ?_⟩
    intro before after conn caller isFresh heq
    exact absurd heq.symm (List.append_ne_nil_of_right_ne_nil _ (List.cons_ne_nil _ _))
  | append_singleton events event ih =>
    obtain ⟨s, w, hrun, hsound, hquiet, hforgets⟩ := ih fun before event' s w hbefore =>
      hevents before event' s w (hbefore.trans (List.prefix_append _ _))
    have hrefused := hevents events event s w (List.prefix_refl _) hrun
    obtain ⟨s', w', heq, hmoves, hquiet'⟩ := handle_moves env False (fun _ => True) hsound
      (fun _ _ => trivial) (Or.inr ⟨hquiet, hrefused⟩)
    refine ⟨s', w', ?_, hsound.moves hmoves, hquiet' ⟨hquiet, hrefused⟩,
      hforgets.moves hsound hmoves⟩
    rw [run_concat, hrun]
    exact heq

/-- In every state of a run the pool keeps no connection that it closed, exactly if no step of the
run is a refused recycle: a check-in that parks a connection while a live caller waits, followed by
a reading of the clock at which the connection is past its age and by a connect that fails.

**Proof sketch.** The first refused recycle of a run takes place in a quiet state, and leaves the
connection parked. -/
theorem forgets_iff (c : Config) (env : Environment) (events : List Event) :
    (∀ before s w, before <+: events → run c env before .initial .initial = .ok (s, w) →
      Forgets s w) ↔
    ∀ before event s w, before ++ [event] <+: events →
      run c env before .initial .initial = .ok (s, w) → ¬RefusedRecycle c env event s w := by
  constructor
  · intro hforgets
    induction events using List.reverseRecOn with
    | nil =>
      intro before event s w hbefore
      exact absurd (List.prefix_nil.mp hbefore)
        (List.append_ne_nil_of_right_ne_nil _ (List.cons_ne_nil _ _))
    | append_singleton events last ih =>
      have hgood := ih fun before s w hbefore =>
        hforgets before s w (hbefore.trans (List.prefix_append _ _))
      intro before event s w hbefore hrun hrefused
      rcases List.prefix_concat_iff.mp hbefore with heq | hbefore
      · obtain ⟨rfl, hlast⟩ := List.append_inj' heq rfl
        obtain ⟨rfl, -⟩ := List.cons.inj hlast
        obtain ⟨s₀, w₀, hrun₀, hsound, hquiet, -⟩ := forgets_of_run before hgood
        obtain ⟨rfl, rfl⟩ := Prod.mk.inj (Except.ok.inj (hrun.symm.trans hrun₀))
        obtain ⟨s', w', hstep, -⟩ := hsound.handle env event
        refine refusedRecycle_loses hsound hquiet hrefused hstep
          (hforgets _ s' w' (List.prefix_refl _) ?_)
        rw [run_concat, hrun]
        exact hstep
      · exact hgood before event s w hbefore hrun hrefused
  · intro hevents before s w hbefore hrun
    obtain ⟨s', w', hrun', -, -, hforgets⟩ := forgets_of_run before
      fun before' event s w hbefore' => hevents before' event s w (hbefore'.trans hbefore)
    obtain ⟨rfl, rfl⟩ := Prod.mk.inj (Except.ok.inj (hrun.symm.trans hrun'))
    exact hforgets

namespace Sample

/-- A pool of one connection, which is recycled after ten milliseconds. -/
def recycling : Config where
  poolSize := 1
  maxOverflow := 0
  recycleMs := 10
  nullPool := false

/-- The clock shows five milliseconds more at each reading, and only the first connect succeeds. -/
def unreachable : Environment where
  clock n := 5 * n
  connects n := n == 0
  alive _ := true

/-- One caller has the connection, another waits, and the connection comes back. -/
def handover : List Event := [.checkout 100, .checkout 101, .checkin 0]

/-- The pool after that. -/
def afterHandover : Except Crash (State × World) :=
  run recycling unreachable handover .initial .initial

end Sample

/-- The pool closes the connection that came back, and keeps it. -/
theorem not_forgets : ¬∀ (c : Config) (env : Environment),
    (∀ i j, i ≤ j → env.clock i ≤ env.clock j) → ∀ (events : List Event) (s : State) (w : World),
      run c env events .initial .initial = .ok (s, w) → Forgets s w := by
  intro hclaim
  have hclock : ∀ i j, i ≤ j → Sample.unreachable.clock i ≤ Sample.unreachable.clock j := by
    intro i j hij
    exact Int.mul_le_mul_of_nonneg_left (Int.ofNat_le.mpr hij) (by decide)
  obtain ⟨s, w, hrun, hclosed, hidle⟩ : ∃ s w, Sample.afterHandover = .ok (s, w) ∧
      .closed 0 ∈ w.log ∧ 0 ∈ s.idle.map Prod.fst := ⟨_, _, rfl, by decide, by decide⟩
  exact ((hclaim _ _ hclock _ s w hrun).absent 0 hclosed).idle hidle

end VitrialSync.Beam.Pool
