import Mathlib.Data.Int.Notation
import Mathlib.Data.Nat.Notation
import VitrialSync.Program.Table

set_option relaxedAutoImplicit false
set_option autoImplicit false

/-!
# The connection pool

`VitrialSync.Db.Pool`, the process that owns the connections of the BEAM server. Its state has the
parked connections, the ones that are checked out, the queue of the callers that wait and the
monitors of the connections. Callers check connections out and in, discard them or give up waiting;
connections and owners go down; the pool drains.

What a handler does outside of the state is kept apart, in a world: it reads a clock, connects, asks
whether a process is alive, makes references, and replies. What it reads comes from an environment
that answers every question anew; what it does is logged. A connection is named by its process.

`close_conn/2` returns no state when the connection has no monitor, and `drop_idle/2` and
`drop_waiter/2` have no clause for two entries that match; a handler that gets there crashes.

## Main definitions

* `VitrialSync.Beam.Pool.State` — the state of the pool.
* `VitrialSync.Beam.Pool.World`, `VitrialSync.Beam.Pool.Environment` — what is outside of it.
* `VitrialSync.Beam.Pool.takeConnection`, `VitrialSync.Beam.Pool.serveWaiters` — the loops that
  serve the queue.
* `VitrialSync.Beam.Pool.handle` — the handlers of the pool.
* `VitrialSync.Beam.Pool.run` — the pool after some events.
-/

namespace VitrialSync.Beam.Pool

open Program

/-! ### The state and the world -/

/-- A process. -/
abbrev Pid := ℕ

/-- A reference. -/
abbrev Ref := ℕ

/-- What the pool reads of its configuration. -/
structure Config where
  poolSize : ℕ
  maxOverflow : ℕ
  recycleMs : ℤ
  nullPool : Bool

/-- `from`: a caller and the tag of its call. -/
structure Caller where
  owner : Pid
  tag : ℕ
  deriving DecidableEq

/-- An entry of the queue. -/
structure Waiter where
  owner : Pid
  ref : Ref
  caller : Caller
  deriving DecidableEq

/-- The entry of a connection that is checked out. -/
structure Holder where
  owner : Pid
  ref : Ref
  openedAt : ℤ

/-- The state of the pool. Both queues have their front first. -/
structure State where
  idle : List (Pid × ℤ)
  checkedOut : Table Pid Holder
  waiters : List Waiter
  monitors : Table Pid Ref
  draining : Bool

/-- `init/1`. -/
def State.initial : State := ⟨[], .empty, [], .empty, false⟩

/-- The reply to a call that is no checkout. -/
inductive Reply where
  | ok
  | unknownConnection
  /-- `{:ok, outstanding}`. -/
  | outstanding (n : ℕ)
  deriving DecidableEq

/-- What the pool does outside of its state. -/
inductive Entry where
  | opened (conn : Pid)
  | closed (conn : Pid)
  /-- `{:ok, conn, fresh?}`, to a checkout. -/
  | granted (conn : Pid) (caller : Caller) (isFresh : Bool)
  /-- `{:error, reason}` of a connect, to a checkout. -/
  | refused (caller : Caller)
  /-- `{:error, :draining}`, to a checkout. -/
  | drained (caller : Caller)
  /-- A connection came back. -/
  | checkedIn (conn : Pid)
  | answered (reply : Reply)
  deriving DecidableEq

/-- How often the pool has asked, what it has made, and what it has done. -/
structure World where
  clockReads : ℕ
  connects : ℕ
  livenessReads : ℕ
  nextPid : Pid
  nextRef : Ref
  nextTag : ℕ
  log : List Entry

/-- The world of a new pool. -/
def World.initial : World := ⟨0, 0, 0, 0, 0, 0, []⟩

/-- The answers to the pool's questions: the readings of the clock, whether connects succeed, and
whether the owner of an entry of the queue is alive. -/
structure Environment where
  clock : ℕ → ℤ
  connects : ℕ → Bool
  alive : ℕ → Bool

/-- A crash of the pool. -/
inductive Crash where
  /-- A handler goes on with what is no state. -/
  | notAState
  | caseClause
  deriving DecidableEq

namespace World

variable (env : Environment) (w : World)

/-- Something is done. -/
def record (entry : Entry) : World := { w with log := w.log ++ [entry] }

/-- `now_ms/0`. -/
def now : ℤ × World := (env.clock w.clockReads, { w with clockReads := w.clockReads + 1 })

/-- `Process.alive?/1`. -/
def isAlive : Bool × World :=
  (env.alive w.livenessReads, { w with livenessReads := w.livenessReads + 1 })

/-- `Process.monitor/1`. -/
def monitor : Ref × World := (w.nextRef, { w with nextRef := w.nextRef + 1 })

/-- The caller of a checkout. -/
def call (owner : Pid) : Caller × World :=
  (⟨owner, w.nextTag⟩, { w with nextTag := w.nextTag + 1 })

/-- `open_connection/1`. -/
def openConnection : Option Pid × World :=
  if env.connects w.connects then
    (some w.nextPid, { w with
      connects := w.connects + 1
      nextPid := w.nextPid + 1
      log := w.log ++ [.opened w.nextPid] })
  else (none, { w with connects := w.connects + 1 })

end World

/-! ### Helpers -/

/-- `Map.put_new/3`. -/
def putNew (monitors : Table Pid Ref) (conn : Pid) (ref : Ref) : Table Pid Ref :=
  match monitors.get conn with
  | some _ => monitors
  | none => monitors.set conn ref

namespace State

variable (s : State)

/-- `total/1`. -/
def total : ℕ := s.idle.length + s.checkedOut.size

/-- `park/3`. -/
def park (conn : Pid) (openedAt : ℤ) : State := { s with idle := s.idle ++ [(conn, openedAt)] }

/-- A connection is checked out, and monitored if it was not. -/
def checkOut (conn : Pid) (holder : Holder) (connRef : Ref) : State :=
  { s with
    checkedOut := s.checkedOut.set conn holder
    monitors := putNew s.monitors conn connRef }

/-- A connection is no longer checked out. -/
def checkIn (conn : Pid) : State := { s with checkedOut := s.checkedOut.without [conn] }

/-- A connection is no longer monitored. -/
def forget (conn : Pid) : State := { s with monitors := s.monitors.without [conn] }

end State

section Handlers

variable (c : Config) (env : Environment)

/-- The age of a connection at a reading of the clock is past the configured one. -/
def expiredAt (openedAt now : ℤ) : Bool := 0 < c.recycleMs && c.recycleMs ≤ now - openedAt

/-- `expired?/2`, which reads the clock only when connections are recycled. -/
def expired (openedAt : ℤ) (w : World) : Bool × World :=
  if c.recycleMs ≤ 0 then (false, w)
  else
    let (now, w) := w.now env
    (expiredAt c openedAt now, w)

/-- `transient?/1`. -/
def transient (s : State) : Bool := c.poolSize ≤ s.total

/-- `close_conn/2`. -/
def closeConn (conn : Pid) (s : State) (w : World) : Except Crash (State × World) :=
  match s.monitors.get conn with
  | none => .error .notAState
  | some _ => .ok (s.forget conn, w.record (.closed conn))

/-- `grant/5`. -/
def grant (conn : Pid) (isFresh : Bool) (openedAt : ℤ) (caller : Caller) (s : State) (w : World) :
    State × World :=
  let (ref, w) := w.monitor
  let (connRef, w) := w.monitor
  (s.checkOut conn ⟨caller.owner, ref, openedAt⟩ connRef, w.record (.granted conn caller isFresh))

/-- `open_and_grant/2`. -/
def openAndGrant (caller : Caller) (s : State) (w : World) : State × World :=
  if s.total < c.poolSize + c.maxOverflow then
    match w.openConnection env with
    | (some conn, w) =>
      let (now, w) := w.now env
      grant conn true now caller s w
    | (none, w) => (s, w.record (.refused caller))
  else
    let (ref, w) := w.monitor
    ({ s with waiters := s.waiters ++ [⟨caller.owner, ref, caller⟩] }, w)

/-- `grant_or_queue/2`. -/
def grantOrQueue (caller : Caller) (s : State) (w : World) : Except Crash (State × World) :=
  if c.nullPool then .ok (openAndGrant c env caller s w)
  else
    match s.idle with
    | (conn, openedAt) :: rest =>
      match expired c env openedAt w with
      | (true, w) => do
        let (s, w) ← closeConn conn { s with idle := rest } w
        return openAndGrant c env caller s w
      | (false, w) => .ok (grant conn false openedAt caller { s with idle := rest } w)
    | [] => .ok (openAndGrant c env caller s w)

/-- A connection that was taken, and the state without it. -/
structure Taken where
  conn : Pid
  isFresh : Bool
  openedAt : ℤ
  state : State

/-- `take_connection/1`, by recursion on the parked connections. When it takes nothing it returns
`:none`, and with it nothing of the state. -/
def takeConnection : List (Pid × ℤ) → State → World → Except Crash (Option Taken × World)
  | (conn, openedAt) :: rest, s, w =>
    match expired c env openedAt w with
    | (true, w) => do
      let (s, w) ← closeConn conn { s with idle := rest } w
      takeConnection rest s w
    | (false, w) => .ok (some ⟨conn, false, openedAt, { s with idle := rest }⟩, w)
  | [], s, w =>
    if s.total < c.poolSize + c.maxOverflow then
      match w.openConnection env with
      | (some conn, w) =>
        let (now, w) := w.now env
        .ok (some ⟨conn, true, now, s⟩, w)
      | (none, w) => .ok (none, w)
    else .ok (none, w)

/-- `serve_waiters/1`, by recursion on the queue. A caller that finds no connection goes back to the
front, in the state from before one was looked for. -/
def serveWaiters : List Waiter → State → World → Except Crash (State × World)
  | [], s, w => .ok (s, w)
  | waiter :: rest, s, w =>
    match w.isAlive env with
    | (false, w) => serveWaiters rest { s with waiters := rest } w
    | (true, w) => do
      let (taken?, w) ← takeConnection c env s.idle { s with waiters := rest } w
      match taken? with
      | some taken =>
        let (connRef, w) := w.monitor
        serveWaiters rest
          (taken.state.checkOut taken.conn ⟨waiter.owner, waiter.ref, taken.openedAt⟩ connRef)
          (w.record (.granted taken.conn waiter.caller taken.isFresh))
      | none => return ({ s with waiters := waiter :: rest }, w)

/-- Serve the queue of the state. -/
def serve (s : State) (w : World) : Except Crash (State × World) := serveWaiters c env s.waiters s w

/-! ### Handlers -/

/-- `handle_call({:checkin, conn}, …)`. -/
def handleCheckin (conn : Pid) (s : State) (w : World) : Except Crash (State × World) :=
  match s.checkedOut.get conn with
  | none => .ok (s, w.record (.answered .unknownConnection))
  | some holder =>
    let s := s.checkIn conn
    let w := w.record (.checkedIn conn)
    if c.nullPool then do
      let (s, w) ← closeConn conn s w
      let (s, w) ← serve c env s w
      return (s, w.record (.answered .ok))
    else
      match expired c env holder.openedAt w with
      | (true, w) => do
        let (s, w) ← closeConn conn s w
        let (s, w) ← serve c env s w
        return (s, w.record (.answered .ok))
      | (false, w) =>
        if transient c s then do
          let (s, w) ← closeConn conn s w
          let (s, w) ← serve c env s w
          return (s, w.record (.answered .ok))
        else do
          let (s, w) ← serve c env (s.park conn holder.openedAt) w
          return (s, w.record (.answered .ok))

/-- `handle_call({:discard, conn}, …)`. -/
def handleDiscard (conn : Pid) (s : State) (w : World) : Except Crash (State × World) :=
  match s.checkedOut.get conn with
  | none => .ok (s, w.record (.answered .ok))
  | some _ => do
    let (s, w) ← closeConn conn (s.checkIn conn) w
    let (s, w) ← serve c env s w
    return (s, w.record (.answered .ok))

/-- `sweep/1`. A connection is closed for each place that it stands in. -/
def sweep (s : State) (w : World) : State × World :=
  ({ s with idle := [], checkedOut := .empty, waiters := [], monitors := .empty },
    { w with
      log := w.log ++ s.idle.map (fun e => .closed e.1) ++
        s.checkedOut.rows.map (fun e => .closed e.1) ++
        s.monitors.rows.map (fun e => .closed e.1) ++
        s.waiters.map fun waiter => .drained waiter.caller })

/-- `handle_call({:drain, budget_ms}, …)`. -/
def handleDrain (budgetMs : ℕ) (s : State) (w : World) : State × World :=
  let outstanding := s.checkedOut.size
  let s := { s with draining := true }
  let w := w.record (.answered (.outstanding outstanding))
  if 0 < outstanding ∧ 0 < budgetMs then (s, w) else sweep s w

/-- `drop_waiter_by_owner/2`. -/
def dropWaiterByOwner (owner : Pid) (s : State) : State :=
  { s with waiters := s.waiters.filter fun waiter => waiter.owner != owner }

/-- `drop_waiter/2`. -/
def dropWaiter (ref : Ref) (s : State) : Except Crash State :=
  match s.waiters.filter fun waiter => waiter.ref == ref with
  | [] => .ok s
  | [_] => .ok { s with waiters := s.waiters.filter fun waiter => waiter.ref != ref }
  | _ => .error .caseClause

/-- `connection_died/2`, with `drop_idle/2`. -/
def connectionDied (conn : Pid) (s : State) (w : World) : Except Crash (State × World) :=
  match s.checkedOut.get conn with
  | some _ => serve c env ((s.checkIn conn).forget conn) w
  | none =>
    match s.idle.filter fun e => e.1 == conn with
    | [] => .ok (s, w)
    | [_] => do
      let (s', w) ← closeConn conn s w
      serve c env { s' with idle := s.idle.filter fun e => e.1 != conn } w
    | _ => .error .caseClause

/-- `owner_departed/2`. -/
def ownerDeparted (ref : Ref) (s : State) (w : World) : Except Crash (State × World) :=
  match s.checkedOut.rows.find? fun r => r.2.ref == ref with
  | some (conn, _) => do
    let (s, w) ← closeConn conn (s.checkIn conn) w
    serve c env s w
  | none => do return (← dropWaiter ref s, w)

/-- What the pool receives. -/
inductive Event where
  | checkout (owner : Pid)
  | checkin (conn : Pid)
  | discard (conn : Pid)
  | abandoned (owner : Pid)
  /-- `{:DOWN, ref, :process, pid, _reason}`. -/
  | down (ref : Ref) (pid : Pid)
  /-- `{:EXIT, pid, _reason}`. -/
  | exit (pid : Pid)
  | drain (budgetMs : ℕ)
  | drainDeadline

/-- The handlers. -/
def handle : Event → State → World → Except Crash (State × World)
  | .checkout owner, s, w =>
    let (caller, w) := w.call owner
    if s.draining then .ok (s, w.record (.drained caller)) else grantOrQueue c env caller s w
  | .checkin conn, s, w => handleCheckin c env conn s w
  | .discard conn, s, w => handleDiscard c env conn s w
  | .abandoned owner, s, w => serve c env (dropWaiterByOwner owner s) w
  | .down ref pid, s, w =>
    if s.monitors.get pid = some ref then connectionDied c env pid s w
    else ownerDeparted c env ref s w
  | .exit pid, s, w => connectionDied c env pid s w
  | .drain budgetMs, s, w => .ok (handleDrain budgetMs s w)
  | .drainDeadline, s, w => .ok (if s.draining then sweep s w else (s, w))

/-- The pool after some events. -/
def run : List Event → State → World → Except Crash (State × World)
  | [], s, w => .ok (s, w)
  | event :: events, s, w => do
    let (s, w) ← handle c env event s w
    run events s w

end Handlers

end VitrialSync.Beam.Pool
