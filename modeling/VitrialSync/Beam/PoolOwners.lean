import Mathlib.Data.List.Perm.Subperm
import VitrialSync.Beam.PoolRuns
import VitrialSync.Program.System

set_option relaxedAutoImplicit false
set_option autoImplicit false

/-!
# The processes that own the sockets

A connection is a process that owns a socket. It receives messages in a loop, and closes the socket
when it leaves the loop. To close a connection the pool sends the process an exit signal. The
process traps exits: the signal becomes a message, and the loop has no clause for that message but
the last one, which goes on. So a connection that the pool closes stays open, and is no longer
counted.

This module has the pool and the owners side by side. A `DOWN` or `EXIT` of a connection comes only
when its owner has ended.

## Main definitions

* `VitrialSync.Beam.Pool.ownerReceive` — whether an owner leaves its loop on a message.
* `VitrialSync.Beam.Pool.Step` — a step of the pool, a caller or an owner.
* `VitrialSync.Beam.Pool.System.owners` — the owners that are alive.

## Main results

* `VitrialSync.Beam.Pool.owners_le` — in a run that closes no connection whose owner is alive, the
  pool counts every owner.
-/

namespace VitrialSync.Beam.Pool

open Program

/-! ### Owners -/

/-- What an owner receives. -/
inductive Message where
  /-- `{:pg_query, from, ref, sql, params}`. -/
  | query
  /-- `{:pg_close, from}`. -/
  | close
  /-- The atom `:shutdown`. -/
  | shutdown
  /-- `{:EXIT, from, :shutdown}`, which an exit signal becomes. -/
  | exit
  | other
  deriving DecidableEq

/-- `owner_receive/2`: whether the loop goes on after a message. -/
def ownerReceive : Message → Bool
  | .query => true
  | .close => false
  | .shutdown => false
  | _ => true

/-- The pool, the messages that each owner has not received, and the owners that have ended. -/
structure System where
  pool : State
  world : World
  mail : Pid → List Message
  ended : List Pid

/-- A new pool, and no owners. -/
def System.initial : System := ⟨.initial, .initial, fun _ => [], []⟩

namespace System

variable (sys : System)

/-- The owners that are alive, each with an open socket. -/
def owners : List Pid :=
  (sys.world.log.filterMap Entry.opened?).filter fun conn => !sys.ended.contains conn

/-- An owner is alive. -/
def Alive (conn : Pid) : Prop := conn ∈ sys.owners

/-- A message arrives. -/
def post (conn : Pid) (messages : List Message) : System :=
  { sys with mail := fun x => if x = conn then sys.mail x ++ messages else sys.mail x }

/-- What the pool did to the owners: an exit signal for each connection that it closed. -/
def deliver (added : List Entry) : System :=
  { sys with mail := fun x => sys.mail x ++ (added.filter (· == .closed x)).map fun _ => .exit }

/-- An event can come to the pool: a connection goes down when its owner has ended. -/
def Possible : Event → Prop
  | .down ref pid => sys.pool.monitors.get pid = some ref → ¬sys.Alive pid
  | .exit pid => ¬sys.Alive pid
  | _ => True

end System

/-- What takes place. -/
inductive Act where
  | pool (event : Event)
  | send (conn : Pid) (message : Message)
  | receive (conn : Pid)
  | crash (conn : Pid)

/-- A step of the pool, a caller or an owner. -/
inductive Step (c : Config) (env : Environment) : System → Act → System → Prop
  | pool {sys : System} {event : Event} {s : State} {w : World} (possible : sys.Possible event)
      (handled : handle c env event sys.pool sys.world = .ok (s, w)) :
      Step c env sys (.pool event)
        ({ sys with pool := s, world := w }.deliver (w.log.drop sys.world.log.length))
  | send {sys : System} {conn : Pid} {message : Message} :
      Step c env sys (.send conn message) (sys.post conn [message])
  | stay {sys : System} {conn : Pid} {message : Message} {rest : List Message}
      (alive : sys.Alive conn) (first : sys.mail conn = message :: rest)
      (stays : ownerReceive message = true) :
      Step c env sys (.receive conn)
        { sys with mail := fun x => if x = conn then rest else sys.mail x }
  | leave {sys : System} {conn : Pid} {message : Message} {rest : List Message}
      (alive : sys.Alive conn) (first : sys.mail conn = message :: rest)
      (leaves : ownerReceive message = false) :
      Step c env sys (.receive conn)
        { sys with
          mail := fun x => if x = conn then rest else sys.mail x
          ended := conn :: sys.ended }
  | crash {sys : System} {conn : Pid} (alive : sys.Alive conn) :
      Step c env sys (.crash conn) { sys with ended := conn :: sys.ended }

/-- A step closes no connection whose owner is alive. -/
def Spares (c : Config) (env : Environment) (sys : System) : Act → Prop
  | .pool event => ∀ conn, Releases c env event sys.pool sys.world conn → ¬sys.Alive conn
  | _ => True

/-! ### What the pool lets go of was tracked -/

/-- A connection that is closed as the queue is served was parked. -/
lemma mem_of_mem_recycled {c : Config} {env : Environment} {idle : List (Pid × ℤ)}
    {live reading : ℕ} {conn : Pid} (h : conn ∈ recycled c env idle live reading) :
    conn ∈ idle.map Prod.fst := by
  fun_induction recycled c env idle live reading with
  | case1 => cases h
  | case2 => cases h
  | case3 x openedAt rest live reading hexpired ih =>
    rcases List.mem_cons.mp h with rfl | h
    · exact List.mem_cons_self
    · exact List.mem_cons_of_mem _ (ih h)
  | case4 x openedAt rest live reading hexpired ih => exact List.mem_cons_of_mem _ (ih h)

/-- What a handler lets go of was tracked. -/
lemma Releases.tracked {c : Config} {env : Environment} {event : Event} {s : State} {w : World}
    {conn : Pid} (h : Releases c env event s w conn) : s.Tracked conn := by
  have hparked : ∀ {s' : State} {w' : World}, conn ∈ recycledBy c env s' w' →
      conn ∈ s'.idle.map Prod.fst := fun hmem => mem_of_mem_recycled hmem
  have hdies : ∀ {pid : Pid}, Dies c env pid s w conn → s.Tracked conn := by
    rintro pid ⟨hpid, rfl | hmem⟩
    · exact hpid
    · exact Or.inl ((List.filter_sublist.map Prod.fst).subset (hparked hmem))
  cases event with
  | checkout owner =>
    obtain ⟨-, -, openedAt, rest, hidle, -⟩ := h
    refine Or.inl ?_
    rw [hidle]
    exact List.mem_cons_self
  | checkin x =>
    obtain ⟨holder, hout, h⟩ := h
    dsimp only at h
    split at h
    · rcases h with rfl | hmem
      · exact Or.inr ⟨holder, hout⟩
      · exact Or.inl (hparked hmem)
    · have hmem := hparked h
      rw [State.park, List.map_append, List.mem_append] at hmem
      rcases hmem with hmem | hmem
      · exact Or.inl hmem
      · obtain rfl : conn = x := List.mem_singleton.mp hmem
        exact Or.inr ⟨holder, hout⟩
  | discard x =>
    obtain ⟨hout, rfl | hmem⟩ := h
    · exact Or.inr hout
    · exact Or.inl (hparked hmem)
  | abandoned owner =>
    have hmem : conn ∈ recycledBy c env (dropWaiterByOwner owner s) w := h
    have hidle := hparked hmem
    exact Or.inl hidle
  | down ref pid =>
    rw [Releases] at h
    split at h
    · exact hdies h
    · obtain ⟨x, holder, hout, -, rfl | hmem⟩ := h
      · exact Or.inr ⟨holder, hout⟩
      · exact Or.inl (hparked hmem)
  | exit pid => exact hdies h
  | drain budgetMs => exact h.2
  | drainDeadline => exact h.2

/-! ### What is not let go of stays tracked -/

/-- After some moves a connection that was tracked, or that is new, is tracked or was let go of. New
ones have new names. -/
structure Retains (released : Pid → Prop) (s : State) (w : World) (s' : State) (w' : World) :
    Prop where
  pids : w.nextPid ≤ w'.nextPid
  old : ∀ conn, s.Tracked conn → s'.Tracked conn ∨ released conn
  new : ∀ conn ∈ w'.log.filterMap Entry.opened?, conn ∈ w.log.filterMap Entry.opened? ∨
    w.nextPid ≤ conn ∧ (s'.Tracked conn ∨ released conn)

namespace Retains

variable {c : Config} {lossy : Prop} {released : Pid → Prop} {s s' s'' : State}
  {w w' w'' : World}

/-- Moves one after the other. -/
lemma trans (h : Retains released s w s' w') (h' : Retains released s' w' s'' w'') :
    Retains released s w s'' w'' where
  pids := h.pids.trans h'.pids
  old conn hconn := by
    rcases h.old conn hconn with hconn | hconn
    · exact h'.old conn hconn
    · exact Or.inr hconn
  new conn hconn := by
    rcases h'.new conn hconn with hconn | ⟨hpid, hconn⟩
    · rcases h.new conn hconn with hconn | ⟨hpid, hconn | hconn⟩
      · exact Or.inl hconn
      · exact Or.inr ⟨hpid, h'.old conn hconn⟩
      · exact Or.inr ⟨hpid, Or.inr hconn⟩
    · exact Or.inr ⟨h.pids.trans hpid, hconn⟩

/-- Nothing is opened. -/
lemma of_old {added : List Entry} (later : w.Later added w')
    (hadded : added.filterMap Entry.opened? = [])
    (h : ∀ conn, s.Tracked conn → s'.Tracked conn ∨ released conn) :
    Retains released s w s' w' where
  pids := later.pids
  old := h
  new conn hconn := by
    rw [later.log, List.filterMap_append, hadded, List.append_nil] at hconn
    exact Or.inl hconn

/-- One move. -/
lemma of_move (hmove : Move c lossy released (s, w) (s', w')) : Retains released s w s' w' := by
  cases hmove with
  | answer later silent =>
    refine .of_old later (List.filterMap_eq_nil_iff.mpr fun e he => ?_) fun _ hconn => Or.inl hconn
    obtain ⟨reply, rfl⟩ := silent e he
    rfl
  | refuse later entry fresh made =>
    refine .of_old later (List.filterMap_eq_nil_iff.mpr (List.forall_mem_singleton.mpr ?_))
      fun _ hconn => Or.inl hconn
    rcases entry with rfl | rfl
    · rfl
    · rfl
  | drain => exact .of_old (.refl w) rfl fun _ hconn => Or.inl hconn
  | drop sub => exact .of_old (.refl w) rfl fun _ hconn => Or.inl hconn
  | enqueue later ref tag => exact .of_old later rfl fun _ hconn => Or.inl hconn
  | @unpark s w w' conn openedAt before after idle later release =>
    refine .of_old later rfl fun x hx => ?_
    rcases hx with hx | hx
    · rw [idle, List.map_append, List.map_cons, List.mem_append, List.mem_cons] at hx
      rcases hx with hx | rfl | hx
      · exact Or.inl (Or.inl (List.mem_map.mpr ((List.mem_map.mp hx).imp fun e he =>
          ⟨List.mem_append_left _ he.1, he.2⟩)))
      · exact Or.inr release
      · exact Or.inl (Or.inl (List.mem_map.mpr ((List.mem_map.mp hx).imp fun e he =>
          ⟨List.mem_append_right _ he.1, he.2⟩)))
    · exact Or.inl (Or.inr hx)
  | @reuse s w w' conn openedAt rest waiter waiters holder connRef idle served later =>
    refine .of_old later rfl fun x hx => Or.inl ?_
    by_cases hne : x = conn
    · exact Or.inr ⟨holder, hne ▸ Table.get_set_self _ _ _⟩
    · rcases hx with hx | ⟨holder', hx⟩
      · rw [idle] at hx
        exact Or.inl ((List.mem_cons.mp hx).resolve_left hne)
      · exact Or.inr ⟨holder', (Table.get_set_of_ne _ _ hne).trans hx⟩
  | @connect s w w' conn waiter waiters holder connRef room fresh made served later =>
    have hself : ∀ {x}, x = conn → State.Tracked
        (({ s with waiters := waiters }).checkOut conn holder connRef) x := fun heq =>
      Or.inr ⟨holder, heq ▸ Table.get_set_self _ _ _⟩
    refine ⟨later.pids, fun x hx => Or.inl ?_, fun x hx => ?_⟩
    · by_cases hne : x = conn
      · exact hself hne
      · exact hx.imp_right fun ⟨holder', hx⟩ =>
          ⟨holder', (Table.get_set_of_ne _ _ hne).trans hx⟩
    · rw [later.log, List.filterMap_append, List.mem_append] at hx
      rcases hx with hx | hx
      · exact Or.inl hx
      · have heq : x = conn := List.mem_singleton.mp hx
        exact Or.inr ⟨heq ▸ fresh, Or.inl (hself heq)⟩
  | @release s w w' added conn holder out later entries release =>
    refine .of_old later (List.filterMap_eq_nil_iff.mpr fun e he => ?_) fun x hx => ?_
    · rcases entries e he with rfl | rfl
      · rfl
      · rfl
    · by_cases hne : x = conn
      · exact Or.inr (hne ▸ release)
      · exact Or.inl (hx.imp_right fun ⟨holder', hx⟩ => ⟨holder', Table.get_without_eq_some.mpr
          ⟨hx, fun hmem => hne (List.mem_singleton.mp hmem)⟩⟩)
  | @park s w w' conn holder openedAt plain out room later =>
    refine .of_old later rfl fun x hx => Or.inl ?_
    by_cases hne : x = conn
    · refine Or.inl ?_
      rw [State.park, List.map_append]
      exact List.mem_append_right _ (List.mem_singleton.mpr hne)
    · rcases hx with hx | ⟨holder', hx⟩
      · refine Or.inl ?_
        rw [State.park, List.map_append]
        exact List.mem_append_left _ hx
      · exact Or.inr ⟨holder', Table.get_without_eq_some.mpr
          ⟨hx, fun hmem => hne (List.mem_singleton.mp hmem)⟩⟩
  | sweep release =>
    refine .of_old (later_sweep s w) (List.filterMap_eq_nil_iff.mpr fun e he => ?_)
      fun x hx => Or.inr (release x hx)
    rcases mem_swept he with ⟨x, rfl, -⟩ | ⟨waiter, -, rfl⟩
    · rfl
    · rfl
  | lost loss parked later =>
    refine .of_old later (List.filterMap_eq_nil_iff.mpr fun e he => ?_) fun _ hconn => Or.inl hconn
    obtain ⟨x, -, rfl⟩ := List.mem_map.mp he
    rfl

/-- Any number of moves. -/
lemma of_moves (hmoves : Moves c lossy released (s, w) (s', w')) : Retains released s w s' w' := by
  suffices hgoal : ∀ p, Moves c lossy released (s, w) p → Retains released s w p.1 p.2 from
    hgoal _ hmoves
  intro p hp
  induction hp with
  | refl => exact .of_old (.refl w) rfl fun _ hconn => Or.inl hconn
  | tail _ hlast ih => exact ih.trans (.of_move hlast)

end Retains

/-! ### Runs -/

/-- The pool keeps its invariant, and tracks each connection whose owner is alive. -/
structure Counted (c : Config) (sys : System) : Prop where
  sound : Sound c sys.pool sys.world
  tracked : ∀ conn, sys.Alive conn → sys.pool.Tracked conn

/-- An owner is alive if it was opened and has not ended. -/
lemma System.alive_iff {sys : System} {conn : Pid} :
    sys.Alive conn ↔ conn ∈ sys.world.log.filterMap Entry.opened? ∧ conn ∉ sys.ended := by
  rw [System.Alive, System.owners, List.mem_filter, Bool.not_eq_true', ← Bool.not_eq_true,
    List.contains_iff_mem]

/-- A step that spares the owners that are alive keeps each of them tracked. -/
lemma Counted.step {c : Config} {env : Environment} {sys sys' : System} {act : Act}
    (h : Counted c sys) (hspares : Spares c env sys act) (hstep : Step c env sys act sys') :
    Counted c sys' := by
  cases hstep with
  | @pool event s w possible handled =>
    obtain ⟨s', w', heq, hmoves, -⟩ := handle_moves env True
      (Releases c env event sys.pool sys.world) h.sound (fun _ hx => hx) (Or.inl trivial)
    obtain ⟨rfl, rfl⟩ := Prod.mk.inj (Except.ok.inj (handled.symm.trans heq))
    have hretains := Retains.of_moves hmoves
    refine ⟨h.sound.moves hmoves, fun conn halive => ?_⟩
    obtain ⟨hopened, hended⟩ := System.alive_iff.mp halive
    have hspared : conn ∈ sys.world.log.filterMap Entry.opened? →
        ¬Releases c env event sys.pool sys.world conn := fun hold hreleased =>
      hspares conn hreleased (System.alive_iff.mpr ⟨hold, hended⟩)
    rcases hretains.new conn hopened with hold | ⟨hpid, htracked | hreleased⟩
    · have htracked := h.tracked conn (System.alive_iff.mpr ⟨hold, hended⟩)
      exact (hretains.old conn htracked).resolve_right (hspared hold)
    · exact htracked
    · exact absurd hpid (h.sound.known hreleased.tracked).not_ge
  | send => exact ⟨h.sound, h.tracked⟩
  | stay alive first stays => exact ⟨h.sound, h.tracked⟩
  | leave alive first leaves =>
    refine ⟨h.sound, fun x hx => h.tracked x ?_⟩
    obtain ⟨hopened, hended⟩ := System.alive_iff.mp hx
    exact System.alive_iff.mpr ⟨hopened, fun hmem => hended (List.mem_cons_of_mem _ hmem)⟩
  | crash alive =>
    refine ⟨h.sound, fun x hx => h.tracked x ?_⟩
    obtain ⟨hopened, hended⟩ := System.alive_iff.mp hx
    exact System.alive_iff.mpr ⟨hopened, fun hmem => hended (List.mem_cons_of_mem _ hmem)⟩

/-- The owners that are alive are no more than the connections that the pool tracks. -/
lemma Counted.length_owners {c : Config} {sys : System} (h : Counted c sys) :
    sys.owners.length ≤ sys.pool.idle.length + sys.pool.checkedOut.size := by
  have hnodup : sys.owners.Nodup := h.sound.recorded.opened.filter _
  have hsub : sys.owners ⊆
      sys.pool.idle.map Prod.fst ++ sys.pool.checkedOut.rows.map Prod.fst := by
    intro conn hconn
    rcases h.tracked conn hconn with hidle | ⟨holder, hout⟩
    · exact List.mem_append_left _ hidle
    · exact List.mem_append_right _
        (List.mem_map.mpr ⟨(conn, holder), (Table.mem_rows_iff _ _ _).mpr hout, rfl⟩)
  have hle := (hnodup.subperm hsub).length_le
  rwa [List.length_append, List.length_map, List.length_map] at hle

/-- A step that closes no connection whose owner is alive. -/
def SparingStep (c : Config) (env : Environment) (sys : System) (act : Act) (sys' : System) :
    Prop :=
  Spares c env sys act ∧ Step c env sys act sys'

/-- In every state of a run in which the pool closes no connection whose owner is alive, the owners
that are alive are no more than the connections that the pool tracks.

**Proof sketch.** By induction on the run: each of the owners stays tracked. -/
theorem owners_le {c : Config} {env : Environment} {acts : List Act} {sys : System}
    (h : Trace (SparingStep c env) .initial acts sys) :
    sys.owners.length ≤ sys.pool.idle.length + sys.pool.checkedOut.size := by
  have hcounted : Counted c sys := by
    refine h.inv (I := Counted c) ⟨sound_initial c, fun _ => List.not_mem_nil.elim⟩ ?_
    intro act _ t t' ht hstep
    exact ht.step hstep.1 hstep.2
  exact hcounted.length_owners

namespace Sample

/-- A pool of one connection. -/
def single : Config where
  poolSize := 1
  maxOverflow := 0
  recycleMs := 0
  nullPool := false

/-- All goes well. -/
def reachable : Environment where
  clock n := n
  connects _ := true
  alive _ := true

/-- A connection is checked out and queried; its owner crashes, and the connection is discarded.
Another one is checked out. -/
def queried : List Act :=
  [.pool (.checkout 100), .send 0 .query, .receive 0, .crash 0, .pool (.discard 0),
    .pool (.checkout 100)]

/-- A connection is checked out and discarded, and its owner receives the exit signal. -/
def discarded : List Act := [.pool (.checkout 100), .pool (.discard 0), .receive 0]

end Sample

/-- The pool closes a connection whose owner has crashed; one owner, and one connection that is
checked out. -/
theorem owners_le_queried : ∃ sys,
    Trace (SparingStep Sample.single Sample.reachable) .initial Sample.queried sys ∧
      sys.world.log.contains (.closed 0) ∧ sys.owners = [1] ∧
        sys.owners.length ≤ sys.pool.idle.length + sys.pool.checkedOut.size := by
  have htrace : ∃ sys,
      Trace (SparingStep Sample.single Sample.reachable) .initial Sample.queried sys ∧
        sys.world.log.contains (.closed 0) ∧ sys.owners = [1] := by
    refine ⟨_, .cons ⟨?_, .pool trivial rfl⟩ (.cons ⟨trivial, .send⟩
      (.cons ⟨trivial, .stay (System.alive_iff.mpr (by decide)) rfl rfl⟩
        (.cons ⟨trivial, .crash (System.alive_iff.mpr (by decide))⟩
          (.cons ⟨?_, .pool trivial rfl⟩ (.cons ⟨?_, .pool trivial rfl⟩ (.nil _)))))), ?_, ?_⟩
    -- nothing is parked when a connection is checked out
    · rintro conn ⟨-, -, openedAt, rest, hidle, -⟩
      cases hidle
    -- the discarded connection is the one whose owner has crashed, and no caller waits
    · rintro conn ⟨-, rfl | hrecycled⟩
      · exact fun halive => absurd (System.alive_iff.mp halive) (by decide)
      · exact absurd hrecycled List.not_mem_nil
    · rintro conn ⟨-, -, openedAt, rest, hidle, -⟩
      cases hidle
    · decide
    · decide
  obtain ⟨sys, htrace, hclosed, howners⟩ := htrace
  exact ⟨sys, htrace, hclosed, howners, owners_le htrace⟩

/-- The owner of a connection that was discarded goes on, with its mail read and nothing tracked. -/
theorem not_owners_le : ¬∀ (c : Config) (env : Environment) (acts : List Act) (sys : System),
    Trace (Step c env) .initial acts sys → (∀ conn, sys.Alive conn → sys.mail conn = []) →
      sys.owners.length ≤ sys.pool.idle.length + sys.pool.checkedOut.size := by
  intro hclaim
  have htrace : ∃ sys, Trace (Step Sample.single Sample.reachable) .initial Sample.discarded sys ∧
      sys.owners = [0] ∧ sys.mail 0 = [] ∧
        sys.pool.idle.length + sys.pool.checkedOut.size = 0 := by
    refine ⟨_, .cons (.pool trivial rfl) (.cons (.pool trivial rfl)
      (.cons (.stay (System.alive_iff.mpr (by decide)) rfl rfl) (.nil _))), ?_, ?_, ?_⟩
    · decide
    · decide
    · decide
  obtain ⟨sys, htrace, howners, hmail, hnone⟩ := htrace
  have hle := hclaim _ _ _ sys htrace fun conn halive => by
    rw [System.Alive, howners, List.mem_singleton] at halive
    rw [halive, hmail]
  rw [howners, hnone] at hle
  exact Nat.not_succ_le_zero 0 hle

end VitrialSync.Beam.Pool
