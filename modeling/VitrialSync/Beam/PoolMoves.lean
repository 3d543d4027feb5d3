import Mathlib.Data.List.Induction
import Mathlib.Data.List.Nodup
import Mathlib.Order.Nat
import Mathlib.Tactic.Lemma
import VitrialSync.Beam.Pool

set_option relaxedAutoImplicit false
set_option autoImplicit false

/-!
# What the pool can do

A handler of the pool is a sequence of moves: a connection is opened or taken and handed out, one is
parked, closed or lost, a caller is queued, dropped or refused. This module says once what a move
does to the state and to the log, and what every move keeps.

A pool that closes a parked connection while it looks for one to hand out, and then finds none,
forgets that it did: the state stays as it was. That move is `lost`, and a development that excludes
it says so with the parameter `lossy`. The parameter `released` is a bound on the connections that
the pool may stop to track.

## Main definitions

* `VitrialSync.Beam.Pool.SingleOwner` — a connection is handed out again only after it came back.
* `VitrialSync.Beam.Pool.Sound` — the invariant of the pool.
* `VitrialSync.Beam.Pool.Move` — a move.

## Main results

* `VitrialSync.Beam.Pool.Sound.move` — every move keeps the invariant.
-/

namespace VitrialSync.Beam.Pool

open Program

/-! ### What is in a log -/

/-- The connection that an entry is about. -/
def Entry.conn? : Entry → Option Pid
  | .opened conn | .closed conn | .granted conn _ _ | .checkedIn conn => some conn
  | _ => none

/-- The call of a checkout that an entry replies to. -/
def Entry.tag? : Entry → Option ℕ
  | .granted _ caller _ | .refused caller | .drained caller => some caller.tag
  | _ => none

/-- The connection that an entry opens. -/
def Entry.opened? : Entry → Option Pid
  | .opened conn => some conn
  | _ => none

/-- A connection was handed out and has not come back. -/
def Held (log : List Entry) (conn : Pid) : Prop :=
  ∃ before caller isFresh after, log = before ++ .granted conn caller isFresh :: after ∧
    .checkedIn conn ∉ after

/-- Between two callers that a connection is handed to, it comes back. -/
def SingleOwner (log : List Entry) : Prop :=
  ∀ before between after conn caller caller' isFresh isFresh',
    log = before ++ .granted conn caller isFresh :: between ++
      .granted conn caller' isFresh' :: after → .checkedIn conn ∈ between

/-- Who holds a connection after one more entry held it before, or the entry hands it out. -/
lemma Held.of_concat {log : List Entry} {e : Entry} {conn : Pid} (h : Held (log ++ [e]) conn) :
    Held log conn ∧ e ≠ .checkedIn conn ∨ ∃ caller isFresh, e = .granted conn caller isFresh := by
  obtain ⟨before, caller, isFresh, after, heq, hafter⟩ := h
  rcases List.eq_nil_or_concat' after with rfl | ⟨after, last, rfl⟩
  · obtain ⟨-, hlast⟩ := List.append_inj' heq rfl
    exact Or.inr ⟨caller, isFresh, (List.cons.inj hlast).1⟩
  · have heq' : log ++ [e] = (before ++ .granted conn caller isFresh :: after) ++ [last] := by
      rw [heq, List.append_assoc, List.cons_append]
    obtain ⟨rfl, hlast⟩ := List.append_inj' heq' rfl
    obtain ⟨rfl, -⟩ := List.cons.inj hlast
    rw [List.mem_append, not_or, List.mem_singleton] at hafter
    exact Or.inl ⟨⟨before, caller, isFresh, after, rfl, hafter.1⟩, fun hlast => hafter.2 hlast.symm⟩

/-- Entries that do not hand a connection out give it to nobody. -/
lemma Held.of_append {log added : List Entry} {conn : Pid} (h : Held (log ++ added) conn)
    (hadded : ∀ caller isFresh, .granted conn caller isFresh ∉ added) : Held log conn := by
  induction added using List.reverseRecOn with
  | nil => rwa [List.append_nil] at h
  | append_singleton added e ih =>
    rw [← List.append_assoc] at h
    rcases h.of_concat with ⟨h, -⟩ | ⟨caller, isFresh, rfl⟩
    · exact ih h fun caller isFresh hmem => hadded caller isFresh (List.mem_append_left _ hmem)
    · exact absurd (List.mem_append_right _ List.mem_cons_self) (hadded caller isFresh)

/-- Nobody holds a connection that just came back. -/
lemma not_held_checkedIn (log : List Entry) (conn : Pid) :
    ¬Held (log ++ [.checkedIn conn]) conn := by
  intro h
  rcases h.of_concat with ⟨-, hne⟩ | ⟨caller, isFresh, he⟩
  · exact hne rfl
  · cases he

/-- A connection that is held is in the log. -/
lemma Held.mem {log : List Entry} {conn : Pid} (h : Held log conn) :
    conn ∈ log.filterMap Entry.conn? := by
  obtain ⟨before, caller, isFresh, after, rfl, -⟩ := h
  rw [List.mem_filterMap]
  exact ⟨.granted conn caller isFresh, List.mem_append_right _ List.mem_cons_self, rfl⟩

/-- One more entry keeps single ownership, if it hands out no connection that is held. -/
lemma SingleOwner.concat {log : List Entry} (h : SingleOwner log) {e : Entry}
    (he : ∀ conn caller isFresh, e = .granted conn caller isFresh → ¬Held log conn) :
    SingleOwner (log ++ [e]) := by
  intro before between after conn caller caller' isFresh isFresh' heq
  rcases List.eq_nil_or_concat' after with rfl | ⟨after, last, rfl⟩
  · obtain ⟨rfl, hlast⟩ := List.append_inj' heq rfl
    by_contra hbetween
    exact he conn caller' isFresh' (List.cons.inj hlast).1
      ⟨before, caller, isFresh, between, rfl, hbetween⟩
  · refine h before between after conn caller caller' isFresh isFresh' ?_
    have heq' : log ++ [e] = (before ++ .granted conn caller isFresh :: between ++
        .granted conn caller' isFresh' :: after) ++ [last] := by
      rw [heq]
      simp only [List.append_assoc, List.cons_append]
    exact (List.append_inj' heq' rfl).1

/-- Entries that hand out nothing keep single ownership. -/
lemma SingleOwner.append {log added : List Entry} (h : SingleOwner log)
    (hadded : ∀ conn caller isFresh, .granted conn caller isFresh ∉ added) :
    SingleOwner (log ++ added) := by
  induction added using List.reverseRecOn with
  | nil => rwa [List.append_nil]
  | append_singleton added e ih =>
    rw [← List.append_assoc]
    refine SingleOwner.concat (ih fun conn caller isFresh hmem =>
      hadded conn caller isFresh (List.mem_append_left _ hmem)) ?_
    rintro conn caller isFresh rfl
    exact absurd (List.mem_append_right _ List.mem_cons_self) (hadded conn caller isFresh)

/-! ### Worlds -/

/-- A world that comes after another, and what is done in between. -/
structure World.Later (w : World) (added : List Entry) (w' : World) : Prop where
  log : w'.log = w.log ++ added
  pids : w.nextPid ≤ w'.nextPid
  refs : w.nextRef ≤ w'.nextRef
  tags : w.nextTag ≤ w'.nextTag

namespace World

/-- Nothing is done. -/
lemma Later.refl (w : World) : w.Later [] w := ⟨(List.append_nil _).symm, le_rfl, le_rfl, le_rfl⟩

/-- One thing after the other. -/
lemma Later.trans {w w' w'' : World} {added added' : List Entry} (h : w.Later added w')
    (h' : w'.Later added' w'') : w.Later (added ++ added') w'' where
  log := by rw [h'.log, h.log, List.append_assoc]
  pids := h.pids.trans h'.pids
  refs := h.refs.trans h'.refs
  tags := h.tags.trans h'.tags

/-- Something is done after nothing. -/
lemma Later.after {w w' w'' : World} {added : List Entry} (h : w.Later [] w')
    (h' : w'.Later added w'') : w.Later added w'' := h.trans h'

/-- Nothing is done after something. -/
lemma Later.before {w w' w'' : World} {added : List Entry} (h : w.Later added w')
    (h' : w'.Later [] w'') : w.Later added w'' := by
  have htrans := h.trans h'
  rwa [List.append_nil] at htrans

/-- Something is done. -/
lemma later_record (w : World) (entry : Entry) : w.Later [entry] (w.record entry) :=
  ⟨rfl, le_rfl, le_rfl, le_rfl⟩

/-- The clock is read. -/
lemma later_now (env : Environment) (w : World) : w.Later [] (w.now env).2 :=
  ⟨(List.append_nil _).symm, le_rfl, le_rfl, le_rfl⟩

/-- A process is looked for. -/
lemma later_isAlive (env : Environment) (w : World) : w.Later [] (w.isAlive env).2 :=
  ⟨(List.append_nil _).symm, le_rfl, le_rfl, le_rfl⟩

/-- A monitor begins. -/
lemma later_monitor (w : World) : w.Later [] w.monitor.2 :=
  ⟨(List.append_nil _).symm, le_rfl, Nat.le_succ _, le_rfl⟩

/-- A caller calls. -/
lemma later_call (owner : Pid) (w : World) : w.Later [] (w.call owner).2 :=
  ⟨(List.append_nil _).symm, le_rfl, le_rfl, Nat.le_succ _⟩

/-- The age of a connection is looked at. -/
lemma later_expired (c : Config) (env : Environment) (openedAt : ℤ) (w : World) :
    w.Later [] (expired c env openedAt w).2 := by
  rw [expired]
  split
  · exact .refl w
  · exact w.later_now env

end World

/-! ### The invariant -/

/-- What a pool has done: it opened connections of their own and replied once to each call. -/
structure Recorded (w : World) : Prop where
  conns : ∀ conn ∈ w.log.filterMap Entry.conn?, conn < w.nextPid
  opened : (w.log.filterMap Entry.opened?).Nodup
  replies : (w.log.filterMap Entry.tag?).Nodup
  tags : ∀ tag ∈ w.log.filterMap Entry.tag?, tag < w.nextTag
  owned : SingleOwner w.log

/-- The entry that opens a connection is about it. -/
lemma mem_conns_of_mem_opened {log : List Entry} {conn : Pid}
    (h : conn ∈ log.filterMap Entry.opened?) : conn ∈ log.filterMap Entry.conn? := by
  rw [List.mem_filterMap] at h ⊢
  obtain ⟨e, he, hconn⟩ := h
  refine ⟨e, he, ?_⟩
  cases e <;> first | exact hconn | cases hconn

/-- More is done: it is about known connections, opens new ones, and replies to calls without a
reply. -/
lemma Recorded.append {w w' : World} {added : List Entry} (h : Recorded w)
    (later : w.Later added w')
    (hconns : ∀ conn ∈ added.filterMap Entry.conn?, conn < w'.nextPid)
    (hopened : (added.filterMap Entry.opened?).Nodup)
    (hnew : ∀ conn ∈ added.filterMap Entry.opened?, w.nextPid ≤ conn)
    (hreplies : (added.filterMap Entry.tag?).Nodup)
    (htags : ∀ tag ∈ added.filterMap Entry.tag?,
      tag < w'.nextTag ∧ tag ∉ w.log.filterMap Entry.tag?)
    (howned : SingleOwner w'.log) : Recorded w' where
  conns := by
    rw [later.log, List.filterMap_append, List.forall_mem_append]
    exact ⟨fun conn hconn => (h.conns conn hconn).trans_le later.pids, hconns⟩
  opened := by
    rw [later.log, List.filterMap_append, List.nodup_append']
    refine ⟨h.opened, hopened, fun conn hold hadded => ?_⟩
    exact (h.conns conn (mem_conns_of_mem_opened hold)).not_ge (hnew conn hadded)
  replies := by
    rw [later.log, List.filterMap_append, List.nodup_append']
    exact ⟨h.replies, hreplies, fun tag hold hadded => (htags tag hadded).2 hold⟩
  tags := by
    rw [later.log, List.filterMap_append, List.forall_mem_append]
    exact ⟨fun tag htag => (h.tags tag htag).trans_le later.tags,
      fun tag htag => (htags tag htag).1⟩
  owned := howned

/-- The callers of a queue are apart, and none has a reply. -/
structure Queued (waiters : List Waiter) (w : World) : Prop where
  refs : (waiters.map Waiter.ref).Nodup
  tags : (waiters.map fun waiter => waiter.caller.tag).Nodup
  made : ∀ waiter ∈ waiters, waiter.ref < w.nextRef ∧ waiter.caller.tag < w.nextTag
  unreplied : ∀ waiter ∈ waiters, waiter.caller.tag ∉ w.log.filterMap Entry.tag?

/-- Callers leave the queue. -/
lemma Queued.sublist {waiters waiters' : List Waiter} {w : World} (h : Queued waiters w)
    (hsub : waiters'.Sublist waiters) : Queued waiters' w where
  refs := (hsub.map _).nodup h.refs
  tags := (hsub.map _).nodup h.tags
  made waiter hmem := h.made waiter (hsub.subset hmem)
  unreplied waiter hmem := h.unreplied waiter (hsub.subset hmem)

/-- Other calls are replied to. -/
lemma Queued.later {waiters : List Waiter} {w w' : World} {added : List Entry}
    (h : Queued waiters w) (later : w.Later added w')
    (hadded : ∀ waiter ∈ waiters, waiter.caller.tag ∉ added.filterMap Entry.tag?) :
    Queued waiters w' where
  refs := h.refs
  tags := h.tags
  made waiter hmem :=
    ⟨(h.made waiter hmem).1.trans_le later.refs, (h.made waiter hmem).2.trans_le later.tags⟩
  unreplied waiter hmem := by
    rw [later.log, List.filterMap_append, List.mem_append, not_or]
    exact ⟨h.unreplied waiter hmem, hadded waiter hmem⟩

/-- A caller joins the queue. -/
lemma Queued.concat {waiters : List Waiter} {w w' : World} {waiter : Waiter}
    (h : Queued waiters w) (later : w.Later [] w')
    (href : w.nextRef ≤ waiter.ref ∧ waiter.ref < w'.nextRef)
    (htag : w.nextTag ≤ waiter.caller.tag ∧ waiter.caller.tag < w'.nextTag)
    (hw : ∀ tag ∈ w.log.filterMap Entry.tag?, tag < w.nextTag) :
    Queued (waiters ++ [waiter]) w' where
  refs := by
    rw [List.map_append, List.nodup_append']
    refine ⟨h.refs, List.nodup_singleton _, fun ref hold hnew => ?_⟩
    obtain ⟨other, hother, rfl⟩ := List.mem_map.mp hold
    have heq : other.ref = waiter.ref := List.mem_singleton.mp hnew
    exact (h.made other hother).1.not_ge (heq ▸ href.1)
  tags := by
    rw [List.map_append, List.nodup_append']
    refine ⟨h.tags, List.nodup_singleton _, fun tag hold hnew => ?_⟩
    obtain ⟨other, hother, rfl⟩ := List.mem_map.mp hold
    have heq : other.caller.tag = waiter.caller.tag := List.mem_singleton.mp hnew
    exact (h.made other hother).2.not_ge (heq ▸ htag.1)
  made := by
    have hlater := h.later later fun _ _ => List.not_mem_nil
    rw [List.forall_mem_append, List.forall_mem_singleton]
    exact ⟨hlater.made, href.2, htag.2⟩
  unreplied := by
    have hlater := h.later later fun _ _ => List.not_mem_nil
    rw [List.forall_mem_append, List.forall_mem_singleton]
    refine ⟨hlater.unreplied, fun hmem => ?_⟩
    rw [later.log, List.append_nil] at hmem
    exact (hw _ hmem).not_ge htag.1

/-- A connection is parked or checked out. -/
def State.Tracked (s : State) (conn : Pid) : Prop :=
  conn ∈ s.idle.map Prod.fst ∨ ∃ holder, s.checkedOut.get conn = some holder

/-- The connections of a pool: each stands in one place and is monitored, there is room for all of
them, and nobody holds one that is parked. -/
structure Tracks (c : Config) (s : State) (w : World) : Prop where
  nodup : (s.idle.map Prod.fst).Nodup
  apart : ∀ conn ∈ s.idle.map Prod.fst, s.checkedOut.get conn = none
  capacity : s.total ≤ c.poolSize + c.maxOverflow
  parked : s.idle.length ≤ c.poolSize
  plain : c.nullPool = true → s.idle = []
  monitored : ∀ conn, s.Tracked conn → ∃ ref, s.monitors.get conn = some ref
  known : ∀ conn ref, s.monitors.get conn = some ref → conn < w.nextPid
  free : ∀ conn ∈ s.idle.map Prod.fst, ¬Held w.log conn

namespace Tracks

variable {c : Config} {s : State} {w : World}

/-- More is done, and no parked connection is handed out. -/
lemma later (h : Tracks c s w) {w' : World} {added : List Entry} (later : w.Later added w')
    (hadded : ∀ conn ∈ s.idle.map Prod.fst, ∀ caller isFresh,
      .granted conn caller isFresh ∉ added) : Tracks c s w' :=
  { h with
    known := fun conn ref href => (h.known conn ref href).trans_le later.pids
    free := fun conn hmem hheld => by
      rw [later.log] at hheld
      exact h.free conn hmem (hheld.of_append (hadded conn hmem)) }

/-- The queue and the flag do not matter. -/
lemma of_eq (h : Tracks c s w) {s' : State} (hidle : s'.idle = s.idle)
    (hout : s'.checkedOut = s.checkedOut) (hmonitors : s'.monitors = s.monitors) :
    Tracks c s' w := by
  obtain ⟨idle, checkedOut, waiters, monitors, draining⟩ := s
  obtain ⟨idle', checkedOut', waiters', monitors', draining'⟩ := s'
  cases hidle
  cases hout
  cases hmonitors
  exact ⟨h.nodup, h.apart, h.capacity, h.parked, h.plain, h.monitored, h.known, h.free⟩

/-- No connections. -/
lemma nothing (c : Config) (waiters : List Waiter) (draining : Bool) (w : World) :
    Tracks c ⟨[], .empty, waiters, .empty, draining⟩ w where
  nodup := List.nodup_nil
  apart := fun _ => List.not_mem_nil.elim
  capacity := Nat.zero_le _
  parked := Nat.zero_le _
  plain := fun _ => rfl
  monitored := fun conn hconn => by
    rcases hconn with hconn | ⟨holder, hconn⟩
    · cases hconn
    · cases hconn
  known := fun conn ref href => by cases href
  free := fun _ => List.not_mem_nil.elim

/-- A parked connection is taken. -/
lemma take (h : Tracks c s w) {conn : Pid} {openedAt : ℤ} (before : List (Pid × ℤ))
    {after : List (Pid × ℤ)} (hidle : s.idle = before ++ (conn, openedAt) :: after) :
    Tracks c { s with idle := before ++ after } w ∧ ¬State.Tracked
      { s with idle := before ++ after } conn ∧ s.total = (before ++ after).length +
        s.checkedOut.size + 1 := by
  have hperm : s.idle.Perm ((conn, openedAt) :: (before ++ after)) := by
    rw [hidle]
    exact List.perm_middle
  have hlength : s.idle.length = (before ++ after).length + 1 := hperm.length_eq
  have hnodup : (conn :: (before ++ after).map Prod.fst).Nodup :=
    (hperm.map Prod.fst).nodup_iff.mp h.nodup
  rw [List.nodup_cons] at hnodup
  have hmem : ∀ {x}, x ∈ (before ++ after).map Prod.fst → x ∈ s.idle.map Prod.fst := fun hx =>
    (hperm.map Prod.fst).mem_iff.mpr (List.mem_cons_of_mem _ hx)
  have hconn : conn ∈ s.idle.map Prod.fst := (hperm.map Prod.fst).mem_iff.mpr List.mem_cons_self
  refine ⟨?_, ?_, ?_⟩
  · exact {
      nodup := hnodup.2
      apart := fun x hx => h.apart x (hmem hx)
      capacity := by
        have hcapacity := h.capacity
        simp only [State.total] at hcapacity ⊢
        omega
      parked := by
        have hparked := h.parked
        change (before ++ after).length ≤ c.poolSize
        omega
      plain := fun hplain => by
        have hempty := h.plain hplain
        rw [hempty] at hlength
        cases hlength
      monitored := fun x hx => h.monitored x (hx.imp_left hmem)
      known := h.known
      free := fun x hx => h.free x (hmem hx) }
  · rintro (hx | ⟨holder, hx⟩)
    · exact hnodup.1 hx
    · rw [h.apart conn hconn] at hx
      cases hx
  · rw [State.total, hlength]
    omega

/-- A connection comes back. -/
lemma checkIn (h : Tracks c s w) {conn : Pid} {holder : Holder}
    (hout : s.checkedOut.get conn = some holder) :
    Tracks c (s.checkIn conn) w ∧ ¬(s.checkIn conn).Tracked conn ∧
      s.total = (s.checkIn conn).total + 1 := by
  have hsize : (s.checkIn conn).checkedOut.size + 1 = s.checkedOut.size :=
    Table.size_without_self hout
  have hget : ∀ {x holder'}, (s.checkIn conn).checkedOut.get x = some holder' →
      s.checkedOut.get x = some holder' ∧ x ≠ conn := by
    intro x holder' hx
    obtain ⟨hx, hne⟩ := Table.get_without_eq_some.mp hx
    exact ⟨hx, fun heq => hne (List.mem_singleton.mpr heq)⟩
  have htotal : s.total = (s.checkIn conn).total + 1 := by
    rw [State.total, ← hsize]
    rfl
  refine ⟨?_, ?_, htotal⟩
  · exact {
      nodup := h.nodup
      apart := fun x hx => by
        rw [Option.eq_none_iff_forall_ne_some]
        intro holder' hx'
        have hold := (hget hx').1
        rw [h.apart x hx] at hold
        cases hold
      capacity := by
        have hcapacity := h.capacity
        omega
      parked := h.parked
      plain := h.plain
      monitored := fun x hx => h.monitored x (hx.imp_right fun ⟨holder', hx⟩ =>
        ⟨holder', (hget hx).1⟩)
      known := h.known
      free := h.free }
  · rintro (hx | ⟨holder', hx⟩)
    · have hnone := h.apart conn hx
      rw [hout] at hnone
      cases hnone
    · exact (hget hx).2 rfl

/-- The monitor of a connection that is no longer tracked goes. -/
lemma forget (h : Tracks c s w) {conn : Pid} (hconn : ¬s.Tracked conn) :
    Tracks c (s.forget conn) w :=
  { h with
    monitored := fun x hx => by
      obtain ⟨ref, href⟩ := h.monitored x hx
      refine ⟨ref, Table.get_without_eq_some.mpr ⟨href, ?_⟩⟩
      rw [List.mem_singleton]
      rintro rfl
      exact hconn hx
    known := fun x ref href => h.known x ref (Table.get_without_eq_some.mp href).1 }

/-- A connection that is not tracked is parked. -/
lemma park (h : Tracks c s w) {conn : Pid} {openedAt : ℤ} (hconn : ¬s.Tracked conn)
    (hplain : c.nullPool = false) (hroom : s.total < c.poolSize)
    (hmonitored : ∃ ref, s.monitors.get conn = some ref) (hfree : ¬Held w.log conn) :
    Tracks c (s.park conn openedAt) w := by
  have hidle : (s.park conn openedAt).idle.map Prod.fst = s.idle.map Prod.fst ++ [conn] :=
    List.map_append
  have hlength : (s.park conn openedAt).idle.length = s.idle.length + 1 := List.length_append
  have hnone : s.checkedOut.get conn = none :=
    Option.eq_none_iff_forall_ne_some.mpr fun holder hget => hconn (Or.inr ⟨holder, hget⟩)
  have htotal : (s.park conn openedAt).total = s.total + 1 := by
    simp only [State.total, hlength, Nat.add_right_comm]
    rfl
  exact {
    nodup := by
      rw [hidle, List.nodup_append']
      refine ⟨h.nodup, List.nodup_singleton _, fun x hx hx' => ?_⟩
      rw [List.mem_singleton] at hx'
      subst hx'
      exact hconn (Or.inl hx)
    apart := by
      rw [hidle, List.forall_mem_append, List.forall_mem_singleton]
      exact ⟨h.apart, hnone⟩
    capacity := by omega
    parked := by
      rw [State.total] at hroom
      omega
    plain := fun hplain' => by
      rw [hplain] at hplain'
      cases hplain'
    monitored := fun x hx => by
      rw [State.Tracked, hidle, List.mem_append, List.mem_singleton] at hx
      rcases hx with (hx | rfl) | hx
      · exact h.monitored x (Or.inl hx)
      · exact hmonitored
      · exact h.monitored x (Or.inr hx)
    known := h.known
    free := by
      rw [hidle, List.forall_mem_append, List.forall_mem_singleton]
      exact ⟨h.free, hfree⟩ }

/-- The monitor of a connection that is checked out. -/
lemma get_putNew_self (monitors : Table Pid Ref) (conn : Pid) (ref : Ref) :
    ∃ ref', (putNew monitors conn ref).get conn = some ref' := by
  rw [putNew]
  split
  · rename_i ref' href
    exact ⟨ref', href⟩
  · exact ⟨ref, Table.get_set_self _ _ _⟩

/-- The monitors of the other connections. -/
lemma get_putNew_of_ne (monitors : Table Pid Ref) {conn x : Pid} (ref : Ref) (h : x ≠ conn) :
    (putNew monitors conn ref).get x = monitors.get x := by
  rw [putNew]
  split
  · rfl
  · exact Table.get_set_of_ne _ _ h

/-- A connection that is not tracked is checked out. -/
lemma checkOut (h : Tracks c s w) {conn : Pid} {holder : Holder} {connRef : Ref}
    (hconn : ¬s.Tracked conn) (hroom : s.total < c.poolSize + c.maxOverflow)
    (hknown : conn < w.nextPid) : Tracks c (s.checkOut conn holder connRef) w := by
  have hnone : s.checkedOut.get conn = none :=
    Option.eq_none_iff_forall_ne_some.mpr fun holder hget => hconn (Or.inr ⟨holder, hget⟩)
  have hsize : (s.checkOut conn holder connRef).checkedOut.size = s.checkedOut.size + 1 :=
    Table.size_set_of_none hnone _
  exact {
    nodup := h.nodup
    apart := fun x hx => by
      have hne : x ≠ conn := by
        rintro rfl
        exact hconn (Or.inl hx)
      exact (Table.get_set_of_ne _ _ hne).trans (h.apart x hx)
    capacity := by
      rw [State.total] at hroom ⊢
      rw [hsize]
      exact hroom
    parked := h.parked
    plain := h.plain
    monitored := fun x hx => by
      by_cases hne : x = conn
      · subst hne
        exact get_putNew_self _ _ _
      · obtain ⟨ref, href⟩ := h.monitored x (hx.imp_right fun ⟨holder', hx⟩ =>
          ⟨holder', (Table.get_set_of_ne _ _ hne).symm.trans hx⟩)
        exact ⟨ref, (get_putNew_of_ne _ _ hne).trans href⟩
    known := fun x ref href => by
      by_cases hne : x = conn
      · exact hne ▸ hknown
      · exact h.known x ref ((get_putNew_of_ne _ _ hne).symm.trans href)
    free := h.free }

end Tracks

/-- The invariant of the pool. -/
structure Sound (c : Config) (s : State) (w : World) : Prop where
  recorded : Recorded w
  queued : Queued s.waiters w
  tracks : Tracks c s w

/-- The invariant of a new pool. -/
lemma sound_initial (c : Config) : Sound c .initial .initial where
  recorded := {
    conns := fun _ => List.not_mem_nil.elim
    opened := List.nodup_nil
    replies := List.nodup_nil
    tags := fun _ => List.not_mem_nil.elim
    owned := fun before between after conn caller caller' isFresh isFresh' heq => by
      rw [World.initial, List.append_assoc] at heq
      exact absurd heq.symm (List.append_ne_nil_of_right_ne_nil _ (List.cons_ne_nil _ _)) }
  queued := ⟨List.nodup_nil, List.nodup_nil, fun _ => List.not_mem_nil.elim,
    fun _ => List.not_mem_nil.elim⟩
  tracks := .nothing c [] false .initial

/-! ### Moves -/

/-- A caller that a connection may go to: one that calls now, or the first of the queue. -/
inductive Served (w w' : World) (waiters : List Waiter) : Waiter → List Waiter → Prop
  | direct {waiter : Waiter} (fresh : w.nextTag ≤ waiter.caller.tag)
      (made : waiter.caller.tag < w'.nextTag) : Served w w' waiters waiter waiters
  | queued {waiter : Waiter} {rest : List Waiter} (first : waiters = waiter :: rest) :
      Served w w' waiters waiter rest

/-- A move of the pool. -/
inductive Move (c : Config) (lossy : Prop) (released : Pid → Prop) :
    State × World → State × World → Prop
  /-- A call is answered, or nothing is done. -/
  | answer {s : State} {w w' : World} {added : List Entry} (later : w.Later added w')
      (silent : ∀ e ∈ added, ∃ reply, e = .answered reply) : Move c lossy released (s, w) (s, w')
  /-- A checkout fails. -/
  | refuse {s : State} {w w' : World} {e : Entry} {caller : Caller} (later : w.Later [e] w')
      (entry : e = .refused caller ∨ e = .drained caller) (fresh : w.nextTag ≤ caller.tag)
      (made : caller.tag < w'.nextTag) : Move c lossy released (s, w) (s, w')
  /-- The pool begins to drain. -/
  | drain {s : State} {w : World} :
      Move c lossy released (s, w) ({ s with draining := true }, w)
  /-- Callers leave the queue. -/
  | drop {s : State} {w : World} {waiters : List Waiter} (sub : waiters.Sublist s.waiters) :
      Move c lossy released (s, w) ({ s with waiters := waiters }, w)
  /-- A caller joins the queue. -/
  | enqueue {s : State} {w w' : World} {waiter : Waiter} (later : w.Later [] w')
      (ref : w.nextRef ≤ waiter.ref ∧ waiter.ref < w'.nextRef)
      (tag : w.nextTag ≤ waiter.caller.tag ∧ waiter.caller.tag < w'.nextTag) :
      Move c lossy released (s, w) ({ s with waiters := s.waiters ++ [waiter] }, w')
  /-- A parked connection is closed. -/
  | unpark {s : State} {w w' : World} {conn : Pid} {openedAt : ℤ} {before after : List (Pid × ℤ)}
      (idle : s.idle = before ++ (conn, openedAt) :: after) (later : w.Later [.closed conn] w')
      (release : released conn) :
      Move c lossy released (s, w) (({ s with idle := before ++ after }).forget conn, w')
  /-- The first parked connection is handed out. -/
  | reuse {s : State} {w w' : World} {conn : Pid} {openedAt : ℤ} {rest : List (Pid × ℤ)}
      {waiter : Waiter} {waiters : List Waiter} {holder : Holder} {connRef : Ref}
      (idle : s.idle = (conn, openedAt) :: rest) (served : Served w w' s.waiters waiter waiters)
      (later : w.Later [.granted conn waiter.caller false] w') :
      Move c lossy released (s, w)
        (({ s with idle := rest, waiters := waiters }).checkOut conn holder connRef, w')
  /-- A connection is opened and handed out. -/
  | connect {s : State} {w w' : World} {conn : Pid} {waiter : Waiter} {waiters : List Waiter}
      {holder : Holder} {connRef : Ref} (room : s.total < c.poolSize + c.maxOverflow)
      (fresh : w.nextPid ≤ conn) (made : conn < w'.nextPid)
      (served : Served w w' s.waiters waiter waiters)
      (later : w.Later [.opened conn, .granted conn waiter.caller true] w') :
      Move c lossy released (s, w)
        (({ s with waiters := waiters }).checkOut conn holder connRef, w')
  /-- A connection that was checked out is closed or lost. -/
  | release {s : State} {w w' : World} {added : List Entry} {conn : Pid} {holder : Holder}
      (out : s.checkedOut.get conn = some holder) (later : w.Later added w')
      (entries : ∀ e ∈ added, e = .checkedIn conn ∨ e = .closed conn) (release : released conn) :
      Move c lossy released (s, w) ((s.checkIn conn).forget conn, w')
  /-- A connection that was checked out is parked. -/
  | park {s : State} {w w' : World} {conn : Pid} {holder : Holder} {openedAt : ℤ}
      (plain : c.nullPool = false)
      (out : s.checkedOut.get conn = some holder) (room : (s.checkIn conn).total < c.poolSize)
      (later : w.Later [.checkedIn conn] w') :
      Move c lossy released (s, w) ((s.checkIn conn).park conn openedAt, w')
  /-- Everything is closed. -/
  | sweep {s : State} {w : World} (release : ∀ conn, s.Tracked conn → released conn) :
      Move c lossy released (s, w) (sweep s w)
  /-- Connections are closed, and the pool goes on as if they were not. -/
  | lost {s : State} {w w' : World} {conns : List Pid} (loss : lossy)
      (parked : ∀ conn ∈ conns, conn ∈ s.idle.map Prod.fst)
      (later : w.Later (conns.map .closed) w') : Move c lossy released (s, w) (s, w')

/-! ### Every move keeps the invariant -/

/-- The call of a caller that is served was made and has no reply, and it is not in the queue that
is left. -/
lemma Served.call {w w' : World} {waiters rest : List Waiter} {waiter : Waiter}
    (h : Served w w' waiters waiter rest) (hw : Recorded w) (hq : Queued waiters w)
    (tags : w.nextTag ≤ w'.nextTag) :
    rest.Sublist waiters ∧ (waiter.caller.tag < w'.nextTag ∧
      waiter.caller.tag ∉ w.log.filterMap Entry.tag?) ∧
      ∀ other ∈ rest, other.caller.tag ≠ waiter.caller.tag := by
  cases h with
  | direct fresh made =>
    refine ⟨List.Sublist.refl _, ⟨made, fun hmem => ?_⟩, fun other hother heq => ?_⟩
    · exact (hw.tags _ hmem).not_ge fresh
    · exact (hq.made other hother).2.not_ge (heq ▸ fresh)
  | queued first =>
    subst first
    have hmade := (hq.made waiter List.mem_cons_self).2
    refine ⟨List.sublist_cons_self _ _, ⟨hmade.trans_le tags, hq.unreplied _ List.mem_cons_self⟩,
      fun other hother heq => ?_⟩
    have htags := hq.tags
    rw [List.map_cons, List.nodup_cons] at htags
    exact htags.1 (List.mem_map.mpr ⟨other, hother, heq⟩)

namespace Recorded

variable {w w' : World}

/-- Entries that reply to nothing and open nothing. -/
lemma later (h : Recorded w) {added : List Entry} (later : w.Later added w')
    (hadded : ∀ e ∈ added, e.tag? = none ∧ e.opened? = none ∧
      ∀ conn, e.conn? = some conn → conn < w'.nextPid)
    (hgrant : ∀ conn caller isFresh, .granted conn caller isFresh ∉ added) : Recorded w' := by
  have htag : added.filterMap Entry.tag? = [] :=
    List.filterMap_eq_nil_iff.mpr fun e he => (hadded e he).1
  have hopened : added.filterMap Entry.opened? = [] :=
    List.filterMap_eq_nil_iff.mpr fun e he => (hadded e he).2.1
  refine h.append later ?_ ?_ ?_ ?_ ?_ ?_
  · intro conn hconn
    obtain ⟨e, he, hconn⟩ := List.mem_filterMap.mp hconn
    exact (hadded e he).2.2 conn hconn
  · rw [hopened]
    exact List.nodup_nil
  · rw [hopened]
    exact fun _ => List.not_mem_nil.elim
  · rw [htag]
    exact List.nodup_nil
  · rw [htag]
    exact fun _ => List.not_mem_nil.elim
  · rw [later.log]
    exact h.owned.append hgrant

/-- A call fails. -/
lemma refuse (h : Recorded w) {e : Entry} {caller : Caller} (later : w.Later [e] w')
    (he : e = .refused caller ∨ e = .drained caller)
    (htag : caller.tag < w'.nextTag ∧ caller.tag ∉ w.log.filterMap Entry.tag?) : Recorded w' := by
  refine h.append later ?_ ?_ ?_ ?_ ?_ ?_
  · rcases he with rfl | rfl
    · exact fun _ => List.not_mem_nil.elim
    · exact fun _ => List.not_mem_nil.elim
  · rcases he with rfl | rfl
    · exact List.nodup_nil
    · exact List.nodup_nil
  · rcases he with rfl | rfl
    · exact fun _ => List.not_mem_nil.elim
    · exact fun _ => List.not_mem_nil.elim
  · rcases he with rfl | rfl
    · exact List.nodup_singleton _
    · exact List.nodup_singleton _
  · rcases he with rfl | rfl
    · exact List.forall_mem_singleton.mpr htag
    · exact List.forall_mem_singleton.mpr htag
  · rw [later.log]
    refine h.owned.append fun conn caller isFresh hmem => ?_
    rw [List.mem_singleton] at hmem
    rcases he with rfl | rfl
    · cases hmem
    · cases hmem

/-- A connection that nobody holds is handed out. -/
lemma grant (h : Recorded w) {conn : Pid} {caller : Caller} {isFresh : Bool}
    (later : w.Later [.granted conn caller isFresh] w') (hconn : conn < w'.nextPid)
    (hfree : ¬Held w.log conn)
    (htag : caller.tag < w'.nextTag ∧ caller.tag ∉ w.log.filterMap Entry.tag?) : Recorded w' := by
  refine h.append later ?_ ?_ ?_ ?_ ?_ ?_
  · exact List.forall_mem_singleton.mpr hconn
  · exact List.nodup_nil
  · exact fun _ => List.not_mem_nil.elim
  · exact List.nodup_singleton _
  · exact List.forall_mem_singleton.mpr htag
  · rw [later.log]
    refine h.owned.concat fun conn' caller' isFresh' he => ?_
    obtain ⟨rfl, -, -⟩ := Entry.granted.inj he
    exact hfree

/-- A new connection is opened. -/
lemma openNew (h : Recorded w) {conn : Pid} (later : w.Later [.opened conn] w')
    (hfresh : w.nextPid ≤ conn) (hmade : conn < w'.nextPid) : Recorded w' := by
  refine h.append later ?_ ?_ ?_ ?_ ?_ ?_
  · exact List.forall_mem_singleton.mpr hmade
  · exact List.nodup_singleton _
  · exact List.forall_mem_singleton.mpr hfresh
  · exact List.nodup_nil
  · exact fun _ => List.not_mem_nil.elim
  · rw [later.log]
    refine h.owned.append fun conn' caller isFresh hmem => ?_
    rw [List.mem_singleton] at hmem
    cases hmem

end Recorded

/-- What a sweep does. -/
def swept (s : State) : List Entry :=
  s.idle.map (fun e => .closed e.1) ++ s.checkedOut.rows.map (fun e => .closed e.1) ++
    s.monitors.rows.map (fun e => .closed e.1) ++ s.waiters.map fun waiter => .drained waiter.caller

/-- The world after a sweep. -/
lemma later_sweep (s : State) (w : World) : w.Later (swept s) (sweep s w).2 :=
  ⟨by rw [sweep, swept]; simp only [List.append_assoc], le_rfl, le_rfl, le_rfl⟩

/-- A sweep closes what is tracked or monitored, and tells the queue. -/
lemma mem_swept {s : State} {e : Entry} (h : e ∈ swept s) :
    (∃ conn, e = .closed conn ∧ (s.Tracked conn ∨ ∃ ref, s.monitors.get conn = some ref)) ∨
      ∃ waiter ∈ s.waiters, e = .drained waiter.caller := by
  rw [swept, List.mem_append, List.mem_append, List.mem_append, List.mem_map, List.mem_map,
    List.mem_map, List.mem_map] at h
  rcases h with ((⟨x, hx, rfl⟩ | ⟨x, hx, rfl⟩) | ⟨x, hx, rfl⟩) | ⟨waiter, hwaiter, rfl⟩
  · exact Or.inl ⟨x.1, rfl, Or.inl (Or.inl (List.mem_map_of_mem hx))⟩
  · exact Or.inl ⟨x.1, rfl, Or.inl (Or.inr ⟨x.2, (Table.mem_rows_iff _ _ _).mp hx⟩)⟩
  · exact Or.inl ⟨x.1, rfl, Or.inr ⟨x.2, (Table.mem_rows_iff _ _ _).mp hx⟩⟩
  · exact Or.inr ⟨waiter, hwaiter, rfl⟩

/-- Closing connections replies to nothing. -/
lemma tags_map_closed {α : Type} (l : List α) (conn : α → Pid) :
    (l.map fun e => Entry.closed (conn e)).filterMap Entry.tag? = [] := by
  rw [List.filterMap_eq_nil_iff]
  intro e he
  obtain ⟨x, -, rfl⟩ := List.mem_map.mp he
  rfl

/-- The calls that a sweep replies to. -/
lemma tags_swept (s : State) :
    (swept s).filterMap Entry.tag? = s.waiters.map fun waiter => waiter.caller.tag := by
  rw [swept, List.filterMap_append, List.filterMap_append, List.filterMap_append,
    tags_map_closed, tags_map_closed, tags_map_closed, List.filterMap_map]
  exact congrFun List.filterMap_eq_map s.waiters

namespace Sound

variable {c : Config} {s s' : State} {w w' : World}

/-- Entries that reply to nothing, and neither open nor hand out a connection. -/
lemma later (h : Sound c s w) {added : List Entry} (later : w.Later added w')
    (hadded : ∀ e ∈ added, (∃ reply, e = .answered reply) ∨
      ∃ conn, (e = .checkedIn conn ∨ e = .closed conn) ∧ conn < w'.nextPid) : Sound c s w' := by
  have hentry : ∀ e ∈ added, (e.tag? = none ∧ e.opened? = none ∧
      ∀ conn, e.conn? = some conn → conn < w'.nextPid) ∧
        ∀ conn caller isFresh, e ≠ .granted conn caller isFresh := by
    intro e he
    rcases hadded e he with ⟨reply, rfl⟩ | ⟨conn, rfl | rfl, hconn⟩
    · exact ⟨⟨rfl, rfl, fun _ h => by cases h⟩, fun _ _ _ h => by cases h⟩
    · exact ⟨⟨rfl, rfl, fun x hx => Option.some.inj hx ▸ hconn⟩, fun _ _ _ h => by cases h⟩
    · exact ⟨⟨rfl, rfl, fun x hx => Option.some.inj hx ▸ hconn⟩, fun _ _ _ h => by cases h⟩
  have hgrant : ∀ conn caller isFresh, .granted conn caller isFresh ∉ added :=
    fun conn caller isFresh hmem => (hentry _ hmem).2 _ _ _ rfl
  have htags : added.filterMap Entry.tag? = [] :=
    List.filterMap_eq_nil_iff.mpr fun e he => (hentry e he).1.1
  refine ⟨h.recorded.later later (fun e he => (hentry e he).1) hgrant, h.queued.later later ?_,
    h.tracks.later later fun conn _ caller isFresh => hgrant conn caller isFresh⟩
  rw [htags]
  exact fun _ _ => List.not_mem_nil

/-- A tracked connection is known. -/
lemma known (h : Sound c s w) {conn : Pid} (hconn : s.Tracked conn) : conn < w.nextPid := by
  obtain ⟨ref, href⟩ := h.tracks.monitored conn hconn
  exact h.tracks.known conn ref href

/-- A caller that is served leaves the queue, and a connection that nobody holds goes to it. -/
lemma grant (h : Sound c s w) {conn : Pid} {waiter : Waiter} {waiters : List Waiter}
    {holder : Holder} {connRef : Ref} {isFresh : Bool}
    (served : Served w w' s.waiters waiter waiters)
    (later : w.Later [.granted conn waiter.caller isFresh] w') (hconn : ¬s.Tracked conn)
    (hroom : s.total < c.poolSize + c.maxOverflow) (hknown : conn < w.nextPid)
    (hfree : ¬Held w.log conn) :
    Sound c (({ s with waiters := waiters }).checkOut conn holder connRef) w' := by
  obtain ⟨hsub, htag, hothers⟩ := served.call h.recorded h.queued later.tags
  refine ⟨h.recorded.grant later (hknown.trans_le later.pids) hfree htag, ?_, ?_⟩
  · refine (h.queued.sublist hsub).later later fun other hother hmem => ?_
    exact hothers other hother (List.mem_singleton.mp hmem)
  · have htracks : Tracks c { s with waiters := waiters } w := h.tracks.of_eq rfl rfl rfl
    refine (htracks.checkOut hconn hroom hknown).later later fun x hx caller isFresh hmem => ?_
    obtain ⟨rfl, -, -⟩ := Entry.granted.inj (List.mem_singleton.mp hmem)
    exact hconn (Or.inl hx)

/-- Every move keeps the invariant.

**Proof sketch.** By the moves. A connection is handed out from the parked ones, where nobody holds
it, or under a new name; a caller that is replied to leaves the queue with the reply. -/
theorem move {lossy : Prop} {released : Pid → Prop} (h : Sound c s w)
    (hmove : Move c lossy released (s, w) (s', w')) : Sound c s' w' := by
  cases hmove with
  | answer later silent => exact h.later later fun e he => Or.inl (silent e he)
  | refuse later entry fresh made =>
    have hnew : _ ∉ w.log.filterMap Entry.tag? := fun hmem => (h.recorded.tags _ hmem).not_ge fresh
    refine ⟨h.recorded.refuse later entry ⟨made, hnew⟩, ?_, ?_⟩
    · refine h.queued.later later fun other hother hmem => ?_
      refine (h.queued.made other hother).2.not_ge ?_
      rcases entry with rfl | rfl
      · exact (List.mem_singleton.mp hmem) ▸ fresh
      · exact (List.mem_singleton.mp hmem) ▸ fresh
    · refine h.tracks.later later fun x _ caller isFresh hmem => ?_
      rcases entry with rfl | rfl
      · cases List.mem_singleton.mp hmem
      · cases List.mem_singleton.mp hmem
  | drain => exact ⟨h.recorded, h.queued, h.tracks.of_eq rfl rfl rfl⟩
  | drop sub => exact ⟨h.recorded, h.queued.sublist sub, h.tracks.of_eq rfl rfl rfl⟩
  | enqueue later ref tag =>
    have hsound : Sound c s w' := h.later later fun _ => List.not_mem_nil.elim
    exact ⟨hsound.recorded, h.queued.concat later ref tag h.recorded.tags,
      hsound.tracks.of_eq rfl rfl rfl⟩
  | @unpark s w w' conn openedAt before after idle later release =>
    have hconn : s.Tracked conn := by
      refine Or.inl ?_
      rw [idle, List.map_append]
      exact List.mem_append_right _ List.mem_cons_self
    have hknown := (h.known hconn).trans_le later.pids
    have hsound : Sound c s w' := h.later later <| by
      rw [List.forall_mem_singleton]
      exact Or.inr ⟨conn, Or.inr rfl, hknown⟩
    obtain ⟨htracks, hnot, -⟩ := hsound.tracks.take before idle
    exact ⟨hsound.recorded, hsound.queued, htracks.forget hnot⟩
  | @reuse s w w' conn openedAt rest waiter waiters holder connRef idle served later =>
    have hmem : conn ∈ s.idle.map Prod.fst := by
      rw [idle]
      exact List.mem_cons_self
    obtain ⟨htracks, hnot, htotal⟩ := h.tracks.take [] idle
    have hsound : Sound c { s with idle := rest } w := ⟨h.recorded, h.queued, htracks⟩
    refine hsound.grant served later hnot ?_ (h.known (Or.inl hmem)) (h.tracks.free conn hmem)
    have hcapacity := h.tracks.capacity
    rw [htotal] at hcapacity
    exact hcapacity
  | @connect s w w' conn waiter waiters holder connRef room fresh made served later =>
    -- in between, the connection is open and not yet handed out
    let w₁ : World := { w' with log := w.log ++ [.opened conn], nextTag := w.nextTag }
    have hfirst : w.Later [.opened conn] w₁ := ⟨rfl, later.pids, later.refs, le_rfl⟩
    have hsecond : w₁.Later [.granted conn waiter.caller true] w' :=
      ⟨by rw [later.log]; simp [w₁], le_rfl, le_rfl, later.tags⟩
    have hnew : ¬s.Tracked conn := fun hconn => (h.known hconn).not_ge fresh
    have hsound : Sound c s w₁ := by
      refine ⟨h.recorded.openNew hfirst fresh made, h.queued.later hfirst ?_,
        h.tracks.later hfirst ?_⟩
      · exact fun _ _ => List.not_mem_nil
      · intro x _ caller isFresh hmem
        cases List.mem_singleton.mp hmem
    have hserved : Served w₁ w' s.waiters waiter waiters := by
      cases served with
      | direct fresh made => exact .direct fresh made
      | queued first => exact .queued first
    refine hsound.grant hserved hsecond hnew room made ?_
    · intro hheld
      have hold : Held w.log conn := hheld.of_append fun caller isFresh hmem => by
        cases List.mem_singleton.mp hmem
      exact (h.recorded.conns conn hold.mem).not_ge fresh
  | @release s w w' added conn holder out later entries release =>
    have hknown := (h.known (Or.inr ⟨holder, out⟩)).trans_le later.pids
    have hsound : Sound c s w' :=
      h.later later fun e he => Or.inr ⟨conn, entries e he, hknown⟩
    obtain ⟨htracks, hnot, -⟩ := hsound.tracks.checkIn out
    exact ⟨hsound.recorded, hsound.queued, htracks.forget hnot⟩
  | @park s w w' conn holder openedAt plain out room later =>
    have hconn : s.Tracked conn := Or.inr ⟨holder, out⟩
    have hknown := (h.known hconn).trans_le later.pids
    have hsound : Sound c s w' := h.later later <| by
      rw [List.forall_mem_singleton]
      exact Or.inr ⟨conn, Or.inl rfl, hknown⟩
    obtain ⟨htracks, hnot, -⟩ := hsound.tracks.checkIn out
    refine ⟨hsound.recorded, hsound.queued,
      htracks.park hnot plain room (h.tracks.monitored conn hconn) ?_⟩
    rw [later.log]
    exact not_held_checkedIn _ _
  | sweep release =>
    have hlater := later_sweep s w
    have hgrant : ∀ conn caller isFresh, .granted conn caller isFresh ∉ swept s := by
      intro conn caller isFresh hmem
      rcases mem_swept hmem with ⟨x, he, -⟩ | ⟨waiter, -, he⟩
      · cases he
      · cases he
    have hopened : (swept s).filterMap Entry.opened? = [] := by
      rw [List.filterMap_eq_nil_iff]
      intro e he
      rcases mem_swept he with ⟨x, rfl, -⟩ | ⟨waiter, -, rfl⟩
      · rfl
      · rfl
    refine ⟨h.recorded.append hlater ?_ ?_ ?_ ?_ ?_ ?_, ⟨List.nodup_nil, List.nodup_nil,
      fun _ => List.not_mem_nil.elim, fun _ => List.not_mem_nil.elim⟩, ?_⟩
    · intro conn hconn
      obtain ⟨e, he, hconn⟩ := List.mem_filterMap.mp hconn
      rcases mem_swept he with ⟨x, rfl, hx⟩ | ⟨waiter, -, rfl⟩
      · obtain rfl := Option.some.inj hconn
        rcases hx with hx | ⟨ref, href⟩
        · exact h.known hx
        · exact h.tracks.known _ ref href
      · cases hconn
    · rw [hopened]
      exact List.nodup_nil
    · rw [hopened]
      exact fun _ => List.not_mem_nil.elim
    · rw [tags_swept]
      exact h.queued.tags
    · rw [tags_swept]
      intro tag htag
      obtain ⟨waiter, hwaiter, rfl⟩ := List.mem_map.mp htag
      exact ⟨(h.queued.made waiter hwaiter).2, h.queued.unreplied waiter hwaiter⟩
    · have howned : SingleOwner (sweep s w).2.log := by
        rw [hlater.log]
        exact h.recorded.owned.append hgrant
      exact howned
    · exact Tracks.nothing c _ _ _
  | lost loss parked later =>
    refine h.later later fun e he => ?_
    obtain ⟨conn, hconn, rfl⟩ := List.mem_map.mp he
    exact Or.inr ⟨conn, Or.inr rfl, (h.known (Or.inl (parked conn hconn))).trans_le later.pids⟩

end Sound

end VitrialSync.Beam.Pool
