import VitrialSync.Program.System
import VitrialSync.Server.PullProgress
import VitrialSync.Server.Settlement

set_option relaxedAutoImplicit false
set_option autoImplicit false

/-!
# Pushes and pulls at the same time

Pushes of all organizations share one database sequence, and the order in which they draw numbers is
not the order in which they commit. A push holds the lock of its organization row from before its
first number to its end, so within one organization the two orders agree, and a cursor that a pull
returned is below every number that is committed later.

The parties share the change log only. A push is a lock, one step for each record and a commit or a
rollback; a pull is one query of the committed log. The other tables may be in any state in every
step: what is proved does not depend on them.

## Main definitions

* `VitrialSync.SharedLog`, `VitrialSync.LogEvent`, `VitrialSync.LogStep` — the system.
* `VitrialSync.PullsResume` — every pull of an organization starts from a cursor it was given.
* `VitrialSync.ClientResumes` — a client starts from the cursor of its last pull.

## Main results

* `VitrialSync.concurrentPull_complete` — no committed change is behind a returned cursor; a client
  that resumes from its last cursor scans every change once, in order.
* `VitrialSync.concurrentPull_forged` — a pull from a made-up cursor returns it, and later changes
  are behind it.
-/

namespace VitrialSync

open Python Program

/-! ### One pull that returned -/

section Page

variable {db : Db} {principal : Principal}

/-- What the loop of a pull that returned has done: it consumed a first part of the changes, sent
their records, and stopped at the end or at a record that did not fit.

**Proof sketch.** By induction on the changes. -/
lemma pullLoop_eq_ok {page : PageContext} {changes : List SyncChangeLog} {records : List SyncRecord}
    {start : ℕ} {records' : List SyncRecord} {last : ℕ}
    (h : pullLoop page changes records start = .ok (records', last)) :
    ∃ consumed rest new, changes = consumed ++ rest ∧
      last = advance SyncChangeLog.sequence start consumed ∧ records' = records ++ new ∧
      deliveredRecords (pageEntity page) consumed = .ok new ∧
      ∀ c ∈ rest.head?, ∃ e record, pageEntity page c = some e ∧ pullRecord c e = .ok record ∧
        pullPageAccepts records' record c.sequence = .ok false := by
  induction changes generalizing records start with
  | nil =>
    simp only [pullLoop, Except.ok.injEq, Prod.mk.injEq] at h
    obtain ⟨rfl, rfl⟩ := h
    exact ⟨[], [], [], rfl, rfl, (List.append_nil _).symm, rfl, by simp⟩
  | cons change changes ih =>
    unfold pullLoop at h
    split at h
    · rename_i hentity
      obtain ⟨consumed, rest, new, rfl, hlast, hrecords, hnew, hstop⟩ := ih h
      refine ⟨change :: consumed, rest, new, rfl, hlast, hrecords, ?_, hstop⟩
      rw [deliveredRecords_cons_none hentity, hnew]
    · rename_i e hentity
      obtain ⟨record, hrecord, h⟩ := bind_eq_ok.mp h
      obtain ⟨fits, hfits, h⟩ := bind_eq_ok.mp h
      cases fits with
      | false =>
        simp only [Bool.false_eq_true, ↓reduceIte, pure_eq_ok, Prod.mk.injEq] at h
        obtain ⟨rfl, rfl⟩ := h
        refine ⟨[], change :: changes, [], rfl, rfl, (List.append_nil _).symm, rfl, ?_⟩
        rintro c ⟨⟩
        exact ⟨e, record, hentity, hrecord, hfits⟩
      | true =>
        simp only [↓reduceIte] at h
        obtain ⟨consumed, rest, new, rfl, hlast, hrecords, hnew, hstop⟩ := ih h
        refine ⟨change :: consumed, rest, record :: new, rfl, hlast, ?_,
          deliveredRecords_cons_some hentity hrecord hnew, hstop⟩
        rw [hrecords, List.append_assoc, List.singleton_append]

/-- The pending changes that a pull has scanned when it returned a cursor. -/
def scannedTo (db : Db) (principal : Principal) (start next : ℕ) : List SyncChangeLog :=
  (pendingChanges db principal start).filter fun c => c.sequence ≤ next

/-- The columns `server_revision` are big integers of the database. -/
def BigIntRevisions (db : Db) : Prop :=
  ∀ k e, db.entities.get k = some e → e.serverRevision ≤ maxCursorSequence

/-- The number that the cursor of a response names. -/
lemma cursor_of_serverBatch {n next : ℕ} {records : List SyncRecord} {batch : SyncBatch}
    (h : serverBatch n records = .ok batch)
    (hnext : startSequence (batch.cursor.map ShortText.text) = .ok next) :
    next = n ∧ batch.records = records := by
  obtain ⟨-, hcursor, hrecords⟩ := serverBatch_spec h
  refine ⟨?_, hrecords⟩
  have hdrop : (cursorText n).drop 4 = Str.ofNat n := rfl
  have hempty : (cursorText n).isEmpty = false := rfl
  rw [hcursor] at hnext
  simp only [startSequence, hdrop, Str.digitsValue?_ofNat, hempty, Bool.false_eq_true,
    ↓reduceIte] at hnext
  split_ifs at hnext
  cases hnext
  rfl

/-- **A pull that returned.** It has scanned a first part of the pending changes, which is not empty
when there are any, sent their records and moved the cursor to the last of them.

**Proof sketch.** The loop stops at a record that does not fit the page only when the page is not
empty: a record that could be built has a payload within the wire limit, and then a page of its own
is within the ceiling of a response (`fitsAlone_of_length_le`). -/
theorem pullSince_eq_ok (hkeys : ((organizationLog db principal.organizationId).map
      SyncChangeLog.sequence).Nodup) (hbig : BigIntSequences db) (hrevisions : BigIntRevisions db)
    {cursor : Option Str} {start next : ℕ} {batch : SyncBatch}
    (hpull : pullSince db principal cursor = .ok batch)
    (hstart : startSequence cursor = .ok start)
    (hnext : startSequence (batch.cursor.map ShortText.text) = .ok next) :
    pendingChanges db principal start =
        scannedTo db principal start next ++ pendingChanges db principal next ∧
      next = advance SyncChangeLog.sequence start (scannedTo db principal start next) ∧
      deliveredRecords (deliverable db principal) (scannedTo db principal start next) =
        .ok batch.records ∧
      (pendingChanges db principal start ≠ [] → scannedTo db principal start next ≠ []) := by
  unfold pullSince at hpull
  rw [hstart] at hpull
  split_ifs at hpull
  rw [ok_bind] at hpull
  obtain ⟨⟨records, last⟩, hloop, hbatch⟩ := bind_eq_ok.mp hpull
  obtain ⟨rfl, hrecords⟩ := cursor_of_serverBatch hbatch hnext
  obtain ⟨consumed, rest, new, hsplit, hlast, hnew, hdelivered, hstop⟩ := pullLoop_eq_ok hloop
  rw [List.nil_append] at hnew
  subst hnew
  have hpending : pendingChanges db principal start =
      consumed ++ (rest ++ (pendingChanges db principal start).drop maxSyncPullScanChanges) := by
    rw [← List.append_assoc, ← hsplit, scannedChanges, List.take_append_drop]
  have hrest := pending_advance hkeys hpending
  rw [← hlast] at hrest
  have hscanned : scannedTo db principal start next = consumed := by
    rw [scannedTo, hpending, ← hrest]
    refine filter_le_append (fun c hc => ?_) fun c hc => (mem_pending.mp hc).2
    rw [hlast]
    exact key_le_advance hc
  rw [hscanned]
  refine ⟨hpending.trans (congrArg (consumed ++ ·) hrest.symm), hlast, ?_, ?_⟩
  · rw [hrecords, ← hdelivered]
    exact deliveredRecords_congr fun c hc =>
      (pageEntity_eq (hsplit ▸ List.mem_append_left _ hc)).symm
  · rintro hne rfl
    cases hscan : scannedChanges db principal start with
    | nil =>
      rw [scannedChanges, List.take_eq_nil_iff] at hscan
      exact hne (hscan.resolve_left (by decide))
    | cons c changes =>
      rw [hscan, List.nil_append] at hsplit
      obtain ⟨e, record, hentity, hrecord, hfull⟩ := hstop c (by simp [← hsplit])
      have hmem : c ∈ scannedChanges db principal start := by simp [hscan]
      rw [pageEntity_eq (hscan ▸ hmem)] at hentity
      have hc : c ∈ db.changeLog :=
        List.mem_of_mem_filter (mem_pendingChanges.mp (List.mem_of_mem_take hmem)).1
      have hstored : e.serverRevision ≤ maxCursorSequence := by
        simp only [deliverable] at hentity
        split_ifs at hentity
        all_goals exact hrevisions _ e hentity
      have hjson : (entityJson e).length ≤ maxPullJson := by
        by_contra hlong
        rw [pullRecord_of_length_gt (not_le.mp hlong) (hbig c hc)] at hrecord
        cases hrecord
      obtain ⟨record', hrecord', hfits⟩ := fitsAlone_of_length_le hjson (hbig c hc) hstored
      rw [hrecord] at hrecord'
      cases hrecord'
      obtain rfl : records = [] := (Except.ok.inj hdelivered).symm
      rw [hfits] at hfull
      cases hfull

end Page

/-! ### The system -/

/-- What the parties share: the database sequence, the committed rows, and for every organization
whose row is locked the rows that the push that holds it has added so far. -/
structure SharedLog where
  counter : ℕ
  log : List SyncChangeLog
  held : Str → Option (List SyncChangeLog)

namespace SharedLog

/-- Nothing has happened. -/
def init : SharedLog := ⟨0, [], fun _ => none⟩

/-- The committed rows of an organization. -/
def logOf (s : SharedLog) (organizationId : Str) : List SyncChangeLog :=
  s.log.filter fun c => c.organizationId == organizationId

end SharedLog

/-- The events of the parties. -/
inductive LogEvent where
  /-- A push takes the lock of the organization row. -/
  | lock (organizationId : Str)
  /-- A push settles a record; these are its rows so far. -/
  | record (organizationId : Str) (rows : List SyncChangeLog)
  | commit (organizationId : Str) (rows : List SyncChangeLog)
  | rollback (organizationId : Str)
  /-- A push answers with a cursor, which it reads after its commit. -/
  | answer (organizationId : Str) (cursor : ℕ)
  /-- A client pulls from a cursor; it is given the next one and the changes up to it. -/
  | pull (client organizationId : Str) (start next : ℕ) (scanned : List SyncChangeLog)

/-- The steps of the system. -/
inductive LogStep (env : Env) : SharedLog → LogEvent → SharedLog → Prop
  | lock {s : SharedLog} {organizationId : Str} (hfree : s.held organizationId = none) :
      LogStep env s (.lock organizationId)
        { s with held := Function.update s.held organizationId (some []) }
  /-- A push sees the committed rows and its own. The database sequence gives it the next numbers,
  whoever drew the last one. -/
  | record {s : SharedLog} {rows rows' : List SyncChangeLog} (r : RecordStep)
      (hvalid : r.Valid env) (hheld : s.held r.input.principal.organizationId = some rows)
      (hview : r.before.db.changeLog = s.log ++ rows)
      (hcounter : r.before.db.lastSequence = s.counter)
      (hafter : r.after.db.changeLog = s.log ++ rows') :
      LogStep env s (.record r.input.principal.organizationId rows')
        { s with
          counter := r.after.db.lastSequence
          held := Function.update s.held r.input.principal.organizationId (some rows') }
  | commit {s : SharedLog} {organizationId : Str} {rows : List SyncChangeLog}
      (hheld : s.held organizationId = some rows) :
      LogStep env s (.commit organizationId rows)
        { s with
          log := s.log ++ rows
          held := Function.update s.held organizationId none }
  /-- A rollback does not give numbers back. -/
  | rollback {s : SharedLog} {organizationId : Str} {rows : List SyncChangeLog}
      (hheld : s.held organizationId = some rows) :
      LogStep env s (.rollback organizationId)
        { s with held := Function.update s.held organizationId none }
  | answer {s : SharedLog} {organizationId : Str} (db : Db) (hview : db.changeLog = s.log) :
      LogStep env s (.answer organizationId (db.maxSequence organizationId)) s
  /-- A pull sees the committed rows. -/
  | pull {s : SharedLog} {client : Str} {start next : ℕ} (db : Db) (principal : Principal)
      (cursor : Option Str) (batch : SyncBatch) (hview : db.changeLog = s.log)
      (hbig : BigIntSequences db) (hrevisions : BigIntRevisions db)
      (hpull : pullSince db principal cursor = .ok batch)
      (hstart : startSequence cursor = .ok start)
      (hnext : startSequence (batch.cursor.map ShortText.text) = .ok next) :
      LogStep env s
        (.pull client principal.organizationId start next (scannedTo db principal start next)) s

/-! ### Numbers -/

/-- Within an organization the numbers increase in the order of the list; they were all drawn. -/
structure Numbered (counter : ℕ) (log : List SyncChangeLog) : Prop where
  increasing : log.Pairwise fun a b => a.organizationId = b.organizationId → a.sequence < b.sequence
  positive : ∀ c ∈ log, 0 < c.sequence
  drawn : ∀ c ∈ log, c.sequence ≤ counter

namespace Numbered

variable {counter : ℕ} {log rows : List SyncChangeLog}

/-- More numbers may be drawn. -/
lemma mono (h : Numbered counter log) {later : ℕ} (hle : counter ≤ later) : Numbered later log :=
  ⟨h.increasing, h.positive, fun c hc => (h.drawn c hc).trans hle⟩

/-- A row with the next number. -/
lemma concat (h : Numbered counter log) {c : SyncChangeLog} (hc : c.sequence = counter + 1) :
    Numbered (counter + 1) (log ++ [c]) := by
  refine ⟨?_, ?_, ?_⟩
  · refine List.pairwise_append.mpr ⟨h.increasing, List.pairwise_singleton _ _, ?_⟩
    intro a ha b hb _
    rw [List.mem_singleton.mp hb, hc]
    exact Nat.lt_succ_of_le (h.drawn a ha)
  · intro a ha
    rcases List.mem_append.mp ha with ha | ha
    · exact h.positive a ha
    · rw [List.mem_singleton.mp ha, hc]
      exact Nat.succ_pos _
  · intro a ha
    rcases List.mem_append.mp ha with ha | ha
    · exact (h.drawn a ha).trans (Nat.le_succ _)
    · rw [List.mem_singleton.mp ha, hc]

/-- Rows of other organizations may come in between. -/
lemma insert {between : List SyncChangeLog} {org org' : Str} (h : Numbered counter (log ++ rows))
    (h' : Numbered counter (log ++ between)) (hrows : ∀ c ∈ rows, c.organizationId = org)
    (hbetween : ∀ c ∈ between, c.organizationId = org') (hne : org ≠ org') :
    Numbered counter (log ++ between ++ rows) := by
  obtain ⟨hincreasing, hpositive, hdrawn⟩ := h
  rw [List.pairwise_append] at hincreasing
  rw [List.forall_mem_append] at hpositive hdrawn
  refine ⟨List.pairwise_append.mpr ⟨h'.increasing, hincreasing.2.1, ?_⟩,
    List.forall_mem_append.mpr ⟨h'.positive, hpositive.2⟩,
    List.forall_mem_append.mpr ⟨h'.drawn, hdrawn.2⟩⟩
  intro a ha b hb hsame
  rcases List.mem_append.mp ha with ha | ha
  · exact hincreasing.2.2 a ha b hb hsame
  · rw [hbetween a ha, hrows b hb] at hsame
    exact absurd hsame.symm hne

/-- The numbers of an organization are distinct. -/
lemma nodup (h : Numbered counter log) (organizationId : Str) :
    ((log.filter fun c => c.organizationId == organizationId).map SyncChangeLog.sequence).Nodup := by
  refine List.pairwise_map.mpr ?_
  refine (h.increasing.filter _).imp_of_mem fun {a b} ha hb hlt => ?_
  have horg : a.organizationId = organizationId := by simpa using (List.mem_filter.mp ha).2
  have horg' : b.organizationId = organizationId := by simpa using (List.mem_filter.mp hb).2
  exact (hlt (horg.trans horg'.symm)).ne

end Numbered

/-- **Invariant.** The committed rows are numbered in order, also when the rows of a push that is not
committed yet are put after them. -/
structure SharedLog.Ordered (s : SharedLog) : Prop where
  committed : Numbered s.counter s.log
  held : ∀ org rows, s.held org = some rows →
    (∀ c ∈ rows, c.organizationId = org) ∧ Numbered s.counter (s.log ++ rows)

/-- The locks other than that of an organization are not affected by its push. -/
lemma SharedLog.Ordered.update {s : SharedLog} (h : s.Ordered) {org : Str}
    {rows : Option (List SyncChangeLog)} {counter : ℕ} (hcounter : s.counter ≤ counter)
    (hrows : ∀ r, rows = some r →
      (∀ c ∈ r, c.organizationId = org) ∧ Numbered counter (s.log ++ r)) :
    SharedLog.Ordered { s with counter, held := Function.update s.held org rows } := by
  refine ⟨h.committed.mono hcounter, fun org' r hr => ?_⟩
  by_cases horg : org' = org
  · subst horg
    exact hrows r (by simpa using hr)
  · dsimp only at hr
    rw [Function.update_of_ne horg] at hr
    exact ⟨(h.held org' r hr).1, (h.held org' r hr).2.mono hcounter⟩

/-- **Step.** Every event keeps the numbers in order.

**Proof sketch.** A record draws the next number for a row of the locked organization. A commit puts
rows after the committed ones; the rows of the other open pushes belong to other organizations, as
each of these is locked by its own push. -/
lemma LogStep.ordered {env : Env} {s s' : SharedLog} {event : LogEvent}
    (hstep : LogStep env s event s') (h : s.Ordered) : s'.Ordered := by
  cases hstep with
  | lock hfree =>
    refine h.update le_rfl fun r hr => ?_
    obtain rfl := Option.some.inj hr
    exact ⟨by simp, by simpa using h.committed⟩
  | record r hvalid hheld hview hcounter hafter =>
    rename_i rows rows'
    obtain ⟨hrows, hnumbered⟩ := h.held _ _ hheld
    rcases hvalid.keeps_or_commits with hkeeps | ⟨payload, grant, applied, hcommits⟩
    · rw [hkeeps.changeLog, hview] at hafter
      obtain rfl := List.append_cancel_left hafter
      rw [hkeeps.lastSequence, hcounter]
      refine h.update le_rfl fun r' hr' => ?_
      obtain rfl := Option.some.inj hr'
      exact ⟨hrows, hnumbered⟩
    · rw [hcommits.changeLog, hview, List.append_assoc] at hafter
      obtain rfl := List.append_cancel_left hafter
      rw [hcommits.lastSequence, hcounter]
      refine h.update (Nat.le_succ _) fun r' hr' => ?_
      obtain rfl := Option.some.inj hr'
      refine ⟨List.forall_mem_append.mpr ⟨hrows, by simp [RecordStep.change]⟩, ?_⟩
      rw [← List.append_assoc]
      exact hnumbered.concat (congrArg (· + 1) hcounter)
  | commit hheld =>
    rename_i org rows
    obtain ⟨hrows, hnumbered⟩ := h.held _ _ hheld
    refine ⟨hnumbered, fun org' r hr => ?_⟩
    by_cases horg : org' = org
    · subst horg
      simp at hr
    · dsimp only at hr
      rw [Function.update_of_ne horg] at hr
      obtain ⟨hr₁, hr₂⟩ := h.held org' r hr
      exact ⟨hr₁, hr₂.insert hnumbered hr₁ hrows horg⟩
  | rollback hheld => exact h.update le_rfl fun r hr => by cases hr
  | answer db hview => exact h
  | pull db principal cursor batch hview hbig hrevisions hpull hstart hnext => exact h

/-- Every reachable state has its numbers in order. -/
lemma ordered_of_trace {env : Env} {s : SharedLog} {events : List LogEvent}
    (h : Trace (LogStep env) .init events s) : s.Ordered := by
  have hinit : SharedLog.init.Ordered :=
    ⟨⟨List.Pairwise.nil, by simp [SharedLog.init], by simp [SharedLog.init]⟩,
      by simp [SharedLog.init]⟩
  exact h.inv hinit fun event _ t t' ht hstep => hstep.ordered ht

/-! ### Cursors -/

/-- A number that a cursor of the organization may name: 0, or that of a committed row. -/
def SharedLog.Reached (s : SharedLog) (org : Str) (cursor : ℕ) : Prop :=
  cursor = 0 ∨ ∃ c ∈ s.log, c.organizationId = org ∧ c.sequence = cursor

/-- Committed rows stay. -/
lemma LogStep.log_subset {env : Env} {s s' : SharedLog} {event : LogEvent}
    (hstep : LogStep env s event s') : s.log ⊆ s'.log := by
  cases hstep with
  | commit hheld => exact List.subset_append_left _ _
  | _ => exact List.Subset.refl _

/-- A cursor that was reached stays reached. -/
lemma SharedLog.Reached.mono {s s' : SharedLog} {org : Str} {cursor : ℕ} (h : s.Reached org cursor)
    (hlog : s.log ⊆ s'.log) : s'.Reached org cursor :=
  h.imp_right fun ⟨c, hc, horg, hcursor⟩ => ⟨c, hlog hc, horg, hcursor⟩

/-- The rows of an open push are after every cursor that was reached. -/
lemma SharedLog.Reached.lt_held {s : SharedLog} {org : Str} {cursor : ℕ}
    (h : s.Reached org cursor) (hs : s.Ordered) {rows : List SyncChangeLog}
    (hheld : s.held org = some rows) : ∀ c ∈ rows, cursor < c.sequence := by
  intro c hc
  obtain ⟨hrows, hnumbered⟩ := hs.held org rows hheld
  rcases h with rfl | ⟨a, ha, horg, rfl⟩
  · exact hnumbered.positive c (List.mem_append_right _ hc)
  · exact (List.pairwise_append.mp hnumbered.increasing).2.2 a ha c hc
      (horg.trans (hrows c hc).symm)

/-- The committed log of an organization that a query sees. -/
lemma organizationLog_eq {s : SharedLog} {db : Db} (hview : db.changeLog = s.log) (org : Str) :
    organizationLog db org = s.logOf org := by
  rw [organizationLog, hview, SharedLog.logOf]

/-- What a pull of a reachable state has done. -/
lemma LogStep.pull_spec {env : Env} {s s' : SharedLog} {client org : Str} {start next : ℕ}
    {scanned : List SyncChangeLog} (hs : s.Ordered)
    (h : LogStep env s (.pull client org start next scanned) s') :
    s' = s ∧
      pending SyncChangeLog.sequence (s.logOf org) start =
        scanned ++ pending SyncChangeLog.sequence (s.logOf org) next ∧
      next = advance SyncChangeLog.sequence start scanned ∧
      (pending SyncChangeLog.sequence (s.logOf org) start ≠ [] → scanned ≠ []) := by
  cases h with
  | pull db principal cursor batch hview hbig hrevisions hpull hstart hnext =>
    have hlog := organizationLog_eq hview principal.organizationId
    have hkeys := hs.committed.nodup principal.organizationId
    rw [← SharedLog.logOf, ← hlog] at hkeys
    obtain ⟨hsplit, hadvance, -, hprogress⟩ :=
      pullSince_eq_ok hkeys hbig hrevisions hpull hstart hnext
    rw [pendingChanges, pendingChanges, hlog] at hsplit
    rw [pendingChanges, hlog] at hprogress
    exact ⟨rfl, hsplit, hadvance, hprogress⟩

/-- A pull from a reached cursor returns one. -/
lemma LogStep.pull_reached {env : Env} {s s' : SharedLog} {client org : Str} {start next : ℕ}
    {scanned : List SyncChangeLog} (hs : s.Ordered)
    (h : LogStep env s (.pull client org start next scanned) s') (hstart : s.Reached org start) :
    s'.Reached org next := by
  obtain ⟨rfl, hsplit, hadvance, -⟩ := h.pull_spec hs
  rcases advance_mem SyncChangeLog.sequence start scanned with heq | ⟨c, hc, heq⟩
  · rw [hadvance, heq]
    exact hstart
  · have hmem : c ∈ s'.logOf org :=
      (mem_pending.mp (hsplit ▸ List.mem_append_left _ hc)).1
    obtain ⟨hlog, horg⟩ := List.mem_filter.mp hmem
    exact Or.inr ⟨c, hlog, by simpa using horg, by rw [hadvance, heq]⟩

/-- The cursor of a push that was answered is reached. -/
lemma maxSequence_reached {s : SharedLog} {db : Db} (hview : db.changeLog = s.log) (org : Str) :
    s.Reached org (db.maxSequence org) := by
  have hmax : db.maxSequence org = advance SyncChangeLog.sequence 0 (organizationLog db org) := by
    rw [Db.maxSequence, advance, organizationLog, List.foldl_map]
  rw [hmax]
  rcases advance_mem SyncChangeLog.sequence 0 (organizationLog db org) with
    heq | ⟨c, hc, heq⟩
  · exact Or.inl heq
  · rw [organizationLog_eq hview] at hc
    obtain ⟨hlog, horg⟩ := List.mem_filter.mp hc
    exact Or.inr ⟨c, hlog, by simpa using horg, heq.symm⟩

/-- The service gives a cursor of an organization to a client. -/
def LogEvent.Gives (org : Str) (cursor : ℕ) : LogEvent → Prop
  | .answer org' given => org' = org ∧ given = cursor
  | .pull _ org' _ next _ => org' = org ∧ next = cursor
  | _ => False

/-- Every pull of an organization starts without a cursor or from one that the service gave before
to a client of the organization. -/
def PullsResume (org : Str) (events : List LogEvent) : Prop :=
  ∀ past client start next scanned future,
    events = past ++ .pull client org start next scanned :: future →
      start = 0 ∨ ∃ event ∈ past, event.Gives org start

/-- When every pull starts from a cursor that was given, all given cursors are reached.

**Proof sketch.** By induction on the trace. -/
lemma gives_reached {env : Env} {s : SharedLog} {events : List LogEvent} {org : Str}
    (htrace : Trace (LogStep env) .init events s) (hresume : PullsResume org events) :
    ∀ event ∈ events, ∀ cursor, event.Gives org cursor → s.Reached org cursor := by
  refine htrace.history (I := fun events s =>
    ∀ event ∈ events, ∀ cursor, event.Gives org cursor → s.Reached org cursor) (by simp) ?_
  intro past event future t t' hsplit hpast ih hstep
  refine List.forall_mem_append.mpr
    ⟨fun e he cursor hgives => (ih e he cursor hgives).mono hstep.log_subset, ?_⟩
  rintro e he cursor hgives
  obtain rfl := List.mem_singleton.mp he
  cases e with
  | pull client org' start next scanned =>
    obtain ⟨rfl, rfl⟩ := hgives
    refine hstep.pull_reached (ordered_of_trace hpast) ?_
    rcases hresume past client start next scanned future hsplit with rfl | ⟨e, he, hgives⟩
    · exact Or.inl rfl
    · exact ih e he start hgives
  | answer org' given =>
    obtain ⟨rfl, rfl⟩ := hgives
    cases hstep with
    | answer db hview => exact maxSequence_reached hview org'
  | _ => cases hgives

/-! ### A client that resumes -/

section Client

variable (client org : Str)

/-- The changes that a client scanned in an event. -/
def LogEvent.scannedBy : LogEvent → List SyncChangeLog
  | .pull client' org' _ _ scanned => if client' = client ∧ org' = org then scanned else []
  | _ => []

/-- The last cursor of a client after an event. -/
def LogEvent.cursorAfter (cursor : ℕ) : LogEvent → ℕ
  | .pull client' org' _ next _ => if client' = client ∧ org' = org then next else cursor
  | _ => cursor

/-- Whether an event is a pull of a client. -/
def LogEvent.isPullOf : LogEvent → Bool
  | .pull client' org' _ _ _ => client' == client && org' == org
  | _ => false

/-- The changes that a client scanned, in order. -/
def clientScanned (events : List LogEvent) : List SyncChangeLog :=
  events.flatMap (LogEvent.scannedBy client org)

/-- The cursor of a client: that of its last pull, 0 before the first. -/
def clientCursor (events : List LogEvent) : ℕ :=
  events.foldl (LogEvent.cursorAfter client org) 0

/-- The number of pulls of a client. -/
def clientPulls (events : List LogEvent) : ℕ := events.countP (LogEvent.isPullOf client org)

/-- A client always resumes from the cursor of its last pull. -/
def ClientResumes (events : List LogEvent) : Prop :=
  ∀ past start next scanned future,
    events = past ++ .pull client org start next scanned :: future →
      start = clientCursor client org past

variable {client org}

/-- A first part of a trace of a client that resumes. -/
lemma ClientResumes.of_append {past future : List LogEvent}
    (h : ClientResumes client org (past ++ future)) : ClientResumes client org past := by
  intro first start next scanned rest hsplit
  exact h first start next scanned (rest ++ future) (by rw [hsplit, List.append_assoc,
    List.cons_append])

variable (client org) in
/-- What a client has after one more event. -/
lemma client_concat (events : List LogEvent) (event : LogEvent) :
    clientScanned client org (events ++ [event]) =
        clientScanned client org events ++ event.scannedBy client org ∧
      clientCursor client org (events ++ [event]) =
        event.cursorAfter client org (clientCursor client org events) ∧
      clientPulls client org (events ++ [event]) =
        clientPulls client org events + if event.isPullOf client org then 1 else 0 := by
  refine ⟨by simp [clientScanned], by simp [clientCursor], ?_⟩
  rw [clientPulls, List.countP_append, List.countP_singleton]
  rfl

/-- An event that is no pull of a client does not concern it. -/
lemma LogEvent.other_client {event : LogEvent} (h : event.isPullOf client org = false)
    (cursor : ℕ) :
    event.scannedBy client org = [] ∧ event.cursorAfter client org cursor = cursor := by
  cases event with
  | pull client' org' start next scanned =>
    have hne : ¬ (client' = client ∧ org' = org) := by
      rintro ⟨rfl, rfl⟩
      simp [isPullOf] at h
    exact ⟨if_neg hne, if_neg hne⟩
  | _ => exact ⟨rfl, rfl⟩

/-- A pull of a client. -/
lemma LogEvent.eq_pull {event : LogEvent} (h : event.isPullOf client org = true) :
    ∃ start next scanned, event = .pull client org start next scanned := by
  cases event with
  | pull client' org' start next scanned =>
    obtain ⟨rfl, rfl⟩ : client' = client ∧ org' = org := by simpa [isPullOf] using h
    exact ⟨start, next, scanned, rfl⟩
  | _ => cases h

variable (org) in
/-- An event adds rows to the committed log of an organization, all of them after every cursor that
was reached. -/
lemma LogStep.logOf_append {env : Env} {s s' : SharedLog} {event : LogEvent}
    (hstep : LogStep env s event s') (hs : s.Ordered) :
    ∃ new, s'.logOf org = s.logOf org ++ new ∧
      ∀ cursor, s.Reached org cursor → ∀ c ∈ new, cursor < c.sequence := by
  cases hstep with
  | commit hheld =>
    refine ⟨_, List.filter_append _ _, fun cursor hcursor c hc => ?_⟩
    obtain ⟨hmem, horg⟩ := List.mem_filter.mp hc
    rw [beq_iff_eq, (hs.held _ _ hheld).1 c hmem] at horg
    subst horg
    exact hcursor.lt_held hs hheld c hmem
  | _ => exact ⟨[], (List.append_nil _).symm, by simp⟩

/-- **Invariant of a client that resumes.** Its cursor is reached, and it has scanned the changes up
to it. -/
structure ClientView (client org : Str) (events : List LogEvent) (s : SharedLog) : Prop where
  reached : s.Reached org (clientCursor client org events)
  scanned : clientScanned client org events =
    upTo SyncChangeLog.sequence (s.logOf org) (clientCursor client org events)

/-- **Step.** An event keeps the view of a client that resumes; when the event is a pull of the client
and a change is pending, the client scans at least one more.

**Proof sketch.** A pull moves the cursor past what it scanned (`Program.upTo_advance`); rows that
are committed are after the cursor (`Program.upTo_append`). -/
lemma ClientView.step {env : Env} {s s' : SharedLog} {past : List LogEvent} {event : LogEvent}
    (h : ClientView client org past s) (hs : s.Ordered) (hstep : LogStep env s event s')
    (hresume : ∀ start next scanned, event = .pull client org start next scanned →
      start = clientCursor client org past) :
    ClientView client org (past ++ [event]) s' ∧
      (event.isPullOf client org = true →
        (∃ c ∈ s.logOf org, clientCursor client org past < c.sequence) →
        (clientScanned client org past).length <
          (clientScanned client org (past ++ [event])).length) := by
  obtain ⟨hscanned, hcursor, -⟩ := client_concat client org past event
  cases hpull : event.isPullOf client org with
  | false =>
    obtain ⟨hnone, hsame⟩ := LogEvent.other_client hpull (clientCursor client org past)
    rw [hsame] at hcursor
    rw [hnone, List.append_nil] at hscanned
    obtain ⟨new, hlog, hnew⟩ := hstep.logOf_append org hs
    refine ⟨⟨?_, ?_⟩, by simp⟩
    · rw [hcursor]
      exact h.reached.mono hstep.log_subset
    · have hkeys := (hstep.ordered hs).committed.nodup org
      rw [← SharedLog.logOf, hlog] at hkeys
      rw [hscanned, hcursor, h.scanned, hlog, upTo_append hkeys (hnew _ h.reached)]
  | true =>
    obtain ⟨start, next, scanned, rfl⟩ := LogEvent.eq_pull hpull
    obtain rfl := hresume start next scanned rfl
    obtain ⟨rfl, hsplit, hadvance, hprogress⟩ := hstep.pull_spec hs
    simp only [LogEvent.scannedBy, LogEvent.cursorAfter, and_self, ↓reduceIte] at hscanned hcursor
    refine ⟨⟨?_, ?_⟩, fun _ ⟨c, hc, hlt⟩ => ?_⟩
    · rw [hcursor]
      exact hstep.pull_reached hs h.reached
    · rw [hscanned, hcursor, h.scanned, hadvance]
      exact (upTo_advance (hs.committed.nodup org) hsplit).symm
    · have hne := hprogress (List.ne_nil_of_mem (mem_pending.mpr ⟨hc, hlt⟩))
      rw [hscanned, List.length_append]
      exact Nat.lt_add_of_pos_right (List.length_pos_of_ne_nil hne)

/-- A client that resumes has scanned the changes up to its cursor. -/
lemma clientView_of_trace {env : Env} {s : SharedLog} {events : List LogEvent}
    (htrace : Trace (LogStep env) .init events s) (hresume : ClientResumes client org events) :
    ClientView client org events s := by
  refine htrace.history ⟨Or.inl rfl, rfl⟩ fun past event future t t' hsplit hpast ih hstep => ?_
  refine (ih.step (ordered_of_trace hpast) hstep fun start next scanned hevent => ?_).1
  exact hresume past start next scanned future (by rw [hsplit, hevent])

/-- The number of committed changes up to a committed change does not grow. -/
lemma LogStep.length_upTo {env : Env} {s s' : SharedLog} {event : LogEvent}
    (hstep : LogStep env s event s') (hs : s.Ordered) {c : SyncChangeLog} (hc : c ∈ s.log)
    (horg : c.organizationId = org) :
    upTo SyncChangeLog.sequence (s'.logOf org) c.sequence =
      upTo SyncChangeLog.sequence (s.logOf org) c.sequence := by
  obtain ⟨new, hlog, hnew⟩ := hstep.logOf_append org hs
  have hkeys := (hstep.ordered hs).committed.nodup org
  rw [← SharedLog.logOf, hlog] at hkeys
  rw [hlog, upTo_append hkeys (hnew _ (Or.inr ⟨c, hc, horg, rfl⟩))]

/-- After a change was committed, every pull of a client that resumes scans at least one more change
until it has passed that one.

**Proof sketch.** By induction on the events after the commit; a pull does not move the cursor
back, and as long as it is before the change, the change is pending. -/
lemma client_progress {env : Env} {s t : SharedLog} {past future : List LogEvent}
    (hpast : Trace (LogStep env) .init past t) (hfuture : Trace (LogStep env) t future s)
    (hresume : ClientResumes client org (past ++ future)) {c : SyncChangeLog} (hc : c ∈ t.log)
    (horg : c.organizationId = org) :
    c ∈ s.log ∧
      upTo SyncChangeLog.sequence (s.logOf org) c.sequence =
        upTo SyncChangeLog.sequence (t.logOf org) c.sequence ∧
      (c.sequence ≤ clientCursor client org (past ++ future) ∨
        (clientScanned client org past).length + clientPulls client org future ≤
          (clientScanned client org (past ++ future)).length) := by
  refine hfuture.history (I := fun events u => c ∈ u.log ∧
    upTo SyncChangeLog.sequence (u.logOf org) c.sequence =
      upTo SyncChangeLog.sequence (t.logOf org) c.sequence ∧
    (c.sequence ≤ clientCursor client org (past ++ events) ∨
      (clientScanned client org past).length + clientPulls client org events ≤
        (clientScanned client org (past ++ events)).length))
    ⟨hc, rfl, Or.inr (by simp [clientPulls])⟩ ?_
  rintro events event rest u u' hsplit hevents ⟨hu, hsame, hprogress⟩ hstep
  have hbefore : Trace (LogStep env) .init (past ++ events) u :=
    Trace.append_iff.mpr ⟨t, hpast, hevents⟩
  have hordered := ordered_of_trace hbefore
  have hsofar : ClientResumes client org (past ++ events) := by
    rw [hsplit, ← List.append_assoc] at hresume
    exact hresume.of_append
  have hview := clientView_of_trace hbefore hsofar
  obtain ⟨hview', hmore⟩ := hview.step hordered hstep fun start next scanned hevent =>
    hresume (past ++ events) start next scanned rest (by rw [hsplit, hevent, List.append_assoc])
  refine ⟨hstep.log_subset hu, (hstep.length_upTo hordered hu horg).trans hsame, ?_⟩
  rw [← List.append_assoc]
  obtain ⟨hscanned, hcursor, -⟩ :=
    client_concat client org (past ++ events) event
  obtain ⟨-, -, hpulls⟩ := client_concat client org events event
  cases hpull : event.isPullOf client org with
  | false =>
    obtain ⟨hnone, hkept⟩ :=
      LogEvent.other_client hpull (clientCursor client org (past ++ events))
    rw [hpull] at hpulls
    rw [hscanned, hcursor, hnone, hkept, hpulls]
    simpa using hprogress
  | true =>
    obtain ⟨start, next, scanned, rfl⟩ := LogEvent.eq_pull hpull
    obtain rfl := hresume (past ++ events) start next scanned rest
      (by rw [hsplit, List.append_assoc])
    obtain ⟨-, -, hadvance, -⟩ := hstep.pull_spec hordered
    rw [hpull] at hpulls
    by_cases hlt : clientCursor client org (past ++ events) < c.sequence
    · have hlonger := hmore hpull
        ⟨c, List.mem_filter.mpr ⟨hu, by simpa using horg⟩, hlt⟩
      have hle := hprogress.resolve_left (not_le.mpr hlt)
      refine Or.inr ?_
      rw [hpulls]
      simp only [↓reduceIte]
      omega
    · refine Or.inl ((not_lt.mp hlt).trans ?_)
      simp only [LogEvent.cursorAfter, and_self, ↓reduceIte] at hcursor
      rw [hcursor, hadvance]
      exact le_advance _ _

/-- A client that resumes has scanned a committed change after as many pulls as there were changes up
to it that it had not scanned.

**Proof sketch.** Otherwise every one of these pulls scanned a change (`client_progress`), and what
the client has scanned would be all the changes up to this one. -/
lemma client_scans {env : Env} {s t : SharedLog} {past future : List LogEvent}
    (hpast : Trace (LogStep env) .init past t) (hfuture : Trace (LogStep env) t future s)
    (hresume : ClientResumes client org (past ++ future)) {c : SyncChangeLog} (hc : c ∈ t.log)
    (horg : c.organizationId = org)
    (hpulls : ((t.logOf org).filter fun d => d.sequence ≤ c.sequence).length ≤
      (clientScanned client org past).length + clientPulls client org future) :
    c ∈ clientScanned client org (past ++ future) := by
  have htrace := Trace.append_iff.mpr ⟨t, hpast, hfuture⟩
  have hview := clientView_of_trace htrace hresume
  obtain ⟨hlog, hsame, hprogress⟩ := client_progress hpast hfuture hresume hc horg
  have hmem : c ∈ s.logOf org := List.mem_filter.mpr ⟨hlog, by simpa using horg⟩
  have hpositive := (ordered_of_trace htrace).committed.positive c hlog
  rw [hview.scanned, mem_upTo]
  refine ⟨hmem, hpositive, ?_⟩
  by_contra hlt
  rw [not_le] at hlt
  have hle := hprogress.resolve_left (not_le.mpr hlt)
  have hbound : (upTo SyncChangeLog.sequence (s.logOf org) c.sequence).length ≤
      ((t.logOf org).filter fun d => d.sequence ≤ c.sequence).length := by
    rw [hsame, upTo, pending]
    exact ((List.perm_insertionSort _ _).filter _).length_eq.trans_le
      (List.filter_sublist.filter _).length_le
  have hfilter : upTo SyncChangeLog.sequence (s.logOf org)
        (clientCursor client org (past ++ future)) =
      (upTo SyncChangeLog.sequence (s.logOf org) c.sequence).filter
        fun d => d.sequence ≤ clientCursor client org (past ++ future) := by
    rw [upTo, upTo, List.filter_filter]
    refine List.filter_congr fun d _ => ?_
    by_cases hd : d.sequence ≤ clientCursor client org (past ++ future)
    · simp [hd, hd.trans hlt.le]
    · simp [hd]
  have hshorter : (clientScanned client org (past ++ future)).length <
      (upTo SyncChangeLog.sequence (s.logOf org) c.sequence).length := by
    rw [hview.scanned, hfilter]
    refine List.length_filter_lt_length_iff_exists.mpr
      ⟨c, mem_upTo.mpr ⟨hmem, hpositive, le_rfl⟩, ?_⟩
    simpa using hlt
  omega

end Client

/-- **No committed change is skipped.** In every interleaving of pushes and pulls: when the pulls of an
organization start from cursors that the service gave, a change is never committed with a number at
or below a cursor that a pull returned before. A client that resumes from its last cursor has
scanned the committed changes up to its cursor, each once and in order, and it has scanned a
committed change after as many pulls as there were changes up to it that it had not scanned. -/
theorem concurrentPull_complete (env : Env) (events : List LogEvent) (s : SharedLog)
    (htrace : Trace (LogStep env) .init events s) (org : Str) :
    (PullsResume org events → ∀ past rows future, events = past ++ .commit org rows :: future →
      ∀ client start next scanned, LogEvent.pull client org start next scanned ∈ past →
        ∀ c ∈ rows, next < c.sequence) ∧
    ∀ client, ClientResumes client org events →
      (clientScanned client org events).Pairwise (fun a b => a.sequence < b.sequence) ∧
      (∀ c, c ∈ clientScanned client org events ↔ c ∈ s.log ∧ c.organizationId = org ∧
        c.sequence ≤ clientCursor client org events) ∧
      ∀ past future t, events = past ++ future → Trace (LogStep env) .init past t →
        Trace (LogStep env) t future s → ∀ c ∈ t.log, c.organizationId = org →
          ((t.logOf org).filter fun d => d.sequence ≤ c.sequence).length ≤
            (clientScanned client org past).length + clientPulls client org future →
          c ∈ clientScanned client org events := by
  have hordered := ordered_of_trace htrace
  constructor
  · intro hresume past rows future hsplit client start next scanned hpull c hc
    rw [hsplit] at htrace hresume
    obtain ⟨t, hpast, hcommit⟩ := Trace.append_iff.mp htrace
    have hsofar : PullsResume org past := by
      intro first client start next scanned rest hfirst
      exact hresume first client start next scanned (rest ++ .commit org rows :: future)
        (by rw [hfirst, List.append_assoc, List.cons_append])
    have hreached := gives_reached hpast hsofar _ hpull next ⟨rfl, rfl⟩
    cases hcommit with
    | cons head tail =>
      cases head with
      | commit hheld => exact hreached.lt_held (ordered_of_trace hpast) hheld c hc
  · intro client hresume
    have hview := clientView_of_trace htrace hresume
    refine ⟨?_, fun c => ?_, ?_⟩
    · rw [hview.scanned]
      exact (pairwise_pending (hordered.committed.nodup org) 0).filter _
    · rw [hview.scanned, mem_upTo, SharedLog.logOf, List.mem_filter, beq_iff_eq]
      constructor
      · exact fun ⟨⟨hlog, horg⟩, _, hle⟩ => ⟨hlog, horg, hle⟩
      · exact fun ⟨hlog, horg, hle⟩ => ⟨⟨hlog, horg⟩, hordered.committed.positive c hlog, hle⟩
    · rintro past future t rfl hpast hfuture c hc horg hpulls
      exact client_scans hpast hfuture hresume hc horg hpulls

namespace Sample

/-- The sample organization after the push of one customer. -/
def pushed : Db := runPushes env [input (bulkyRecord 0)] db

/-- The push of the customer, from the first state. -/
lemma push_trace : ∃ change s, change.organizationId = principal.organizationId ∧
    change.sequence = 1 ∧ pushed.changeLog = [change] ∧ BigIntRevisions pushed ∧
    s.log = [change] ∧
    Trace (LogStep env) .init
      [.lock principal.organizationId, .record principal.organizationId [change],
        .commit principal.organizationId [change]] s := by
  obtain ⟨step, change, entity, hsteps, hinput, hbefore, hafter, haccepted, hlog, horg, hsequence,
    -, -⟩ := bulky_step (n := 0) (by decide)
  have hvalid : step.Valid env := (runSteps_valid (hsteps ▸ List.mem_singleton_self step)).1
  have hprincipal : step.input.principal = principal := congrArg PushInput.principal hinput
  have hrevisions : BigIntRevisions step.after.db := by
    rcases hvalid.keeps_or_commits with hkeeps | ⟨payload, grant, applied, hcommits⟩
    · intro k e he
      rw [hkeeps.entities, hbefore] at he
      cases he
    · intro k e he
      rw [hcommits.entities, hbefore] at he
      rcases Table.get_set_eq_some he with ⟨-, rfl⟩ | ⟨-, he⟩
      · simp only [committedEntity, RecordStep.revision, hbefore, hprincipal]
        decide
      · cases he
  have hpushed : step.after.db = pushed := hafter
  rw [hpushed] at hrevisions
  have hheld : (Function.update SharedLog.init.held principal.organizationId (some []))
      step.input.principal.organizationId = some [] := by
    rw [hprincipal, Function.update_self]
  have hrecord : LogStep env
      { SharedLog.init with
        held := Function.update SharedLog.init.held principal.organizationId (some []) }
      (.record step.input.principal.organizationId [change]) _ :=
    .record step hvalid hheld (by rw [hbefore]; rfl) (by rw [hbefore]; rfl) hlog
  rw [hprincipal] at hrecord
  refine ⟨change, _, horg, hsequence, hpushed ▸ hlog, hrevisions, ?_,
    .cons (.lock rfl) (.cons hrecord (.cons (.commit ?_) (.nil _)))⟩
  · rfl
  · simp

/-- What a pull of a state returns for the cursor, evaluated. -/
lemma pull_eq_ok (db : Db) (cursor : Option Str) (next : ℕ)
    (h : (pullSince db principal cursor).toOption.map
      (fun batch => batch.cursor.map ShortText.text) = some (some (cursorText next)))
    (hnext : next ≤ maxCursorSequence) :
    ∃ batch, pullSince db principal cursor = .ok batch ∧
      startSequence (batch.cursor.map ShortText.text) = .ok next := by
  obtain ⟨batch, hbatch, hcursor⟩ := Option.map_eq_some_iff.mp h
  exact ⟨batch, toOption_eq_some hbatch, hcursor ▸ startSequence_cursorText hnext⟩

/-- A pull of the empty organization from a cursor returns that cursor. -/
lemma pull_empty {start : ℕ} (cursor : Option Str) (hstart : startSequence cursor = .ok start)
    (h : (pullSince db principal cursor).toOption.map
      (fun batch => batch.cursor.map ShortText.text) = some (some (cursorText start))) :
    LogStep env .init (.pull "a" principal.organizationId start start
      (scannedTo db principal start start)) .init := by
  obtain ⟨batch, hpull, hnext⟩ := pull_eq_ok db cursor start h (startSequence_le hstart)
  refine .pull db principal cursor batch rfl ?_ ?_ hpull hstart hnext
  · intro c hc
    cases hc
  · intro k e he
    cases he

end Sample

/-- A client that pulls the empty organization, and again after the push of a customer, has scanned
the change of the customer. -/
theorem concurrentPull_complete_sample :
    ∃ events s c, Trace (LogStep Sample.env) .init events s ∧ c ∈ s.log ∧
      c ∈ clientScanned "a" Sample.principal.organizationId events := by
  obtain ⟨change, s, horg, hsequence, hlog, hrevisions, hs, hpush⟩ := Sample.push_trace
  have hfirst := Sample.pull_empty none (rfl : startSequence none = .ok 0) (by decide +kernel)
  obtain ⟨batch, hpull, hnext⟩ :=
    Sample.pull_eq_ok Sample.pushed none 1 (by decide +kernel) (by decide)
  have hbig : BigIntSequences Sample.pushed := by
    intro c hc
    rw [hlog, List.mem_singleton] at hc
    rw [hc, hsequence]
    decide
  have hsecond : LogStep Sample.env s (.pull "a" Sample.principal.organizationId 0 1
      (scannedTo Sample.pushed Sample.principal 0 1)) s :=
    .pull Sample.pushed Sample.principal none batch (hlog.trans hs.symm) hbig hrevisions hpull rfl
      hnext
  have hpast := Trace.cons hfirst hpush
  have hfuture := Trace.cons hsecond (.nil s)
  have htrace := Trace.append_iff.mpr ⟨s, hpast, hfuture⟩
  have hmem : change ∈ s.log := hs ▸ List.mem_singleton_self change
  refine ⟨_, s, change, htrace, hmem, ?_⟩
  obtain ⟨-, hclient⟩ := concurrentPull_complete Sample.env _ s htrace Sample.principal.organizationId
  refine (hclient "a" ?_).2.2 _ _ s rfl hpast hfuture change hmem horg ?_
  · intro past start next scanned future hsplit
    rcases past with _ | ⟨e₁, _ | ⟨e₂, _ | ⟨e₃, _ | ⟨e₄, _ | ⟨e₅, past⟩⟩⟩⟩⟩ <;>
      simp at hsplit
    · obtain ⟨⟨rfl, -⟩, -⟩ := hsplit
      rfl
    · obtain ⟨rfl, rfl, rfl, rfl, ⟨rfl, -⟩, -⟩ := hsplit
      rfl
  · simp [SharedLog.logOf, hs, horg, clientPulls, LogEvent.isPullOf]

/-- A pull of the empty organization from the made-up cursor 100 returns 100; then a customer is
pushed, and its change is committed with the number 1. -/
theorem concurrentPull_forged :
    ∃ events s past rows c, Trace (LogStep Sample.env) .init events s ∧
      events = past ++ [.commit Sample.principal.organizationId rows] ∧
      (∃ scanned, LogEvent.pull "a" Sample.principal.organizationId 100 100 scanned ∈ past) ∧
      c ∈ rows ∧ c.sequence ≤ 100 := by
  obtain ⟨change, s, -, hsequence, -, -, -, hpush⟩ := Sample.push_trace
  have hpull := Sample.pull_empty (some (cursorText 100))
    (startSequence_cursorText (by decide)) (by decide +kernel)
  refine ⟨_, s, [_, _, _], [change], change, .cons hpull hpush, rfl,
    ⟨_, List.mem_cons_self⟩, List.mem_singleton_self change, ?_⟩
  rw [hsequence]
  decide

end VitrialSync
