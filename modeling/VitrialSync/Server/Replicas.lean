import VitrialSync.Program.Replication
import VitrialSync.Server.ConcurrentPull
import VitrialSync.Server.Revisions

set_option relaxedAutoImplicit false
set_option autoImplicit false

/-!
# Devices

A device keeps the cursor of its last page and one record for each entity it was sent. Devices of
all organizations push and pull in any order. A page sends the entities as they are when it is read,
under the numbers of their changes, so an early change may bring a later row; what is not visible
then is passed over.

## Main definitions

* `VitrialSync.Replica`, `VitrialSync.Replica.receive` — what a device keeps, and what a page does
  to it.
* `VitrialSync.Fleet`, `VitrialSync.Request`, `VitrialSync.Fleet.run` — the service and its devices.
* `VitrialSync.Withheld` — a page of the run passed over a change that was not visible.

## Main results

* `VitrialSync.replicas_follow` — a device that has read past the last change of an entity holds the
  record of its row, unless the change was withheld.
* `VitrialSync.replicas_faithful` — a device holds only what a page of its own sent, nothing newer
  than the service, and its copies only get newer.
-/

namespace VitrialSync

open Python Program

/-! ### Cursors and pages -/

section Page

variable {db : Db} {principal : Principal}

/-- The entity of a record. -/
def SyncRecord.entity (r : SyncRecord) : EntityType × Str := (r.entityType, r.entityID.text)

/-- The entity of a change. -/
def SyncChangeLog.entity (c : SyncChangeLog) : EntityType × Str := (c.entityType, c.entityId.text)

/-- The number that a cursor of the service names. -/
def position : Option Str → ℕ
  | none => 0
  | some cursor => (Str.digitsValue? (cursor.drop 4)).getD 0

/-- A pull starts from the number that its cursor names. -/
lemma position_of_start {cursor : Option Str} {start : ℕ} (h : startSequence cursor = .ok start) :
    position cursor = start := by
  unfold startSequence at h
  split at h
  · cases h
    rfl
  · rename_i cursor
    split_ifs at h with hempty
    · cases h
      obtain rfl : cursor = [] := List.isEmpty_iff.mp hempty
      rfl
    · split at h
      · cases h
      · rename_i n hdigits
        split_ifs at h
        cases h
        rw [position, hdigits, Option.getD_some]

/-- The number of a cursor that the service wrote. -/
lemma position_cursorText (n : ℕ) : position (some (cursorText n)) = n := by
  have hdrop : (cursorText n).drop 4 = Str.ofNat n := rfl
  rw [position, hdrop, Str.digitsValue?_ofNat, Option.getD_some]

/-- Whether the principal may see an entity. -/
def visible (db : Db) (principal : Principal) (entityType : EntityType) (entityId : Str) : Bool :=
  if entityType = .deliveryExecution then deliveryExecutionIsVisible db principal entityId
  else recordIsVisible db principal entityType entityId

/-- A change delivers the row of its entity if it is visible. -/
lemma deliverable_eq (change : SyncChangeLog) : deliverable db principal change =
    if visible db principal change.entityType change.entityId.text then
      db.entities.get (principal.organizationId, change.entityType, change.entityId.text)
    else none := rfl

/-- The records of a change that delivers and of others after it. -/
lemma deliveredRecords_cons_inv {entity : SyncChangeLog → Option SyncEntity}
    {change : SyncChangeLog} {changes : List SyncChangeLog} {e : SyncEntity}
    {records : List SyncRecord} (he : entity change = some e)
    (h : deliveredRecords entity (change :: changes) = .ok records) :
    ∃ record rest, pullRecord change e = .ok record ∧
      deliveredRecords entity changes = .ok rest ∧ records = record :: rest := by
  simp only [deliveredRecords, deliveries, List.filterMap_cons, he, Option.map_some,
    List.mapM_cons] at h
  obtain ⟨record, hrecord, h⟩ := bind_eq_ok.mp h
  obtain ⟨rest, hrest, h⟩ := bind_eq_ok.mp h
  rw [pure_eq_ok] at h
  exact ⟨record, rest, hrecord, hrest, h.symm⟩

/-- **A pull that returned**, whatever the state: it has consumed a first part of the pending
changes, sent their records and moved the cursor past them. -/
lemma pullSince_consumed (hdb : Revisioned db) {cursor : Option Str} {batch : SyncBatch}
    (h : pullSince db principal cursor = .ok batch) :
    ∃ consumed, batch.cursor.map ShortText.text =
        some (cursorText (advance SyncChangeLog.sequence (position cursor) consumed)) ∧
      pendingChanges db principal (position cursor) = consumed ++
        pendingChanges db principal
          (advance SyncChangeLog.sequence (position cursor) consumed) ∧
      deliveredRecords (deliverable db principal) consumed = .ok batch.records ∧
      (consumed.Pairwise fun a b => a.sequence < b.sequence) ∧
      ∀ c ∈ consumed, c ∈ db.changeLog ∧ position cursor < c.sequence ∧
        c.key = (principal.organizationId, c.entity) := by
  have hkeys : DistinctSequences db :=
    List.pairwise_map.mpr (hdb.sequences.imp fun hlt => hlt.ne)
  have horganization := hkeys.organizationLog principal.organizationId
  unfold pullSince at h
  split_ifs at h
  obtain ⟨start, hstart, h⟩ := bind_eq_ok.mp h
  rw [position_of_start hstart]
  obtain ⟨⟨records, last⟩, hloop, hbatch⟩ := bind_eq_ok.mp h
  obtain ⟨-, hcursor, hrecords⟩ := serverBatch_spec hbatch
  obtain ⟨consumed, rest, new, hsplit, rfl, hnew, hdelivered, -⟩ := pullLoop_eq_ok hloop
  rw [List.nil_append] at hnew
  have hpending : pendingChanges db principal start =
      consumed ++ (rest ++ (pendingChanges db principal start).drop maxSyncPullScanChanges) := by
    rw [← List.append_assoc, ← hsplit, scannedChanges, List.take_append_drop]
  have hrest := pending_advance horganization hpending
  refine ⟨consumed, hcursor, hpending.trans (congrArg (consumed ++ ·) hrest.symm), ?_, ?_, ?_⟩
  · rw [hrecords, hnew, ← hdelivered]
    exact deliveredRecords_congr fun c hc =>
      (pageEntity_eq (hsplit ▸ List.mem_append_left _ hc)).symm
  · have hsorted := pairwise_pending horganization start
    rw [← pendingChanges, hpending] at hsorted
    exact (List.pairwise_append.mp hsorted).1
  · intro c hc
    obtain ⟨hlog, hafter⟩ := mem_pendingChanges.mp (hpending ▸ List.mem_append_left _ hc)
    obtain ⟨hlog, hhere⟩ := List.mem_filter.mp hlog
    exact ⟨hlog, hafter, Prod.ext (beq_iff_eq.mp hhere) rfl⟩

end Page

/-! ### Devices -/

/-- What a device keeps: the cursor of its last page and a record for each entity. -/
structure Replica where
  cursor : Option Str
  copies : Table (EntityType × Str) SyncRecord

namespace Replica

/-- A device that has not pulled yet. -/
def fresh : Replica := ⟨none, .empty⟩

/-- The copies after some records, in their order. -/
def store (copies : Table (EntityType × Str) SyncRecord) (records : List SyncRecord) :
    Table (EntityType × Str) SyncRecord :=
  records.foldl (fun copies record => copies.set record.entity record) copies

/-- A device takes a page: it keeps the cursor and the last record of each entity. -/
def receive (r : Replica) (batch : SyncBatch) : Replica :=
  ⟨batch.cursor.map ShortText.text, store r.copies batch.records⟩

end Replica

/-- The record of a change is about its entity and has the revision of the row. -/
lemma pullRecord_spec {change : SyncChangeLog} {e : SyncEntity} {record : SyncRecord}
    (h : pullRecord change e = .ok record) :
    record.entity = change.entity ∧ record.serverRevision = some e.serverRevision := by
  unfold pullRecord at h
  obtain ⟨id, -, h⟩ := bind_eq_ok.mp h
  split_ifs at h
  rw [pure_eq_ok] at h
  subst h
  exact ⟨rfl, rfl⟩

/-- What a page leaves for an entity: the record of the last change that delivers it, or what was
there before.

**Proof sketch.** By induction on the changes; a later one of the same entity replaces the record of
an earlier one. -/
lemma get_store {entity : SyncChangeLog → Option SyncEntity} {changes : List SyncChangeLog}
    {records : List SyncRecord} (hsorted : changes.Pairwise fun a b => a.sequence < b.sequence)
    (h : deliveredRecords entity changes = .ok records)
    (copies : Table (EntityType × Str) SyncRecord) (k : EntityType × Str) :
    ((∀ c ∈ changes, c.entity = k → entity c = none) ∧
        (Replica.store copies records).get k = copies.get k) ∨
      ∃ c e record, c ∈ changes ∧ c.entity = k ∧ entity c = some e ∧ pullRecord c e = .ok record ∧
        (Replica.store copies records).get k = some record ∧
        ∀ c' ∈ changes, c'.entity = k → entity c' ≠ none → c'.sequence ≤ c.sequence := by
  induction changes generalizing records copies with
  | nil =>
    obtain rfl : records = [] := (Except.ok.inj h).symm
    exact Or.inl ⟨by simp, rfl⟩
  | cons change changes ih =>
    rw [List.pairwise_cons] at hsorted
    cases he : entity change with
    | none =>
      rw [deliveredRecords_cons_none he] at h
      rcases ih hsorted.2 h copies with ⟨hnone, hget⟩ | ⟨c, e, record, hc, hk, hlast⟩
      · exact Or.inl ⟨List.forall_mem_cons.mpr ⟨fun _ => he, hnone⟩, hget⟩
      · refine Or.inr ⟨c, e, record, List.mem_cons_of_mem _ hc, hk, hlast.1, hlast.2.1,
          hlast.2.2.1, List.forall_mem_cons.mpr ⟨fun _ hsome => absurd he hsome, hlast.2.2.2⟩⟩
    | some e =>
      obtain ⟨record, rest, hrecord, hrest, rfl⟩ := deliveredRecords_cons_inv he h
      have hentity := (pullRecord_spec hrecord).1
      rcases ih hsorted.2 hrest (copies.set record.entity record) with
        ⟨hnone, hget⟩ | ⟨c, e', record', hc, hk, hlast⟩
      · by_cases hk : change.entity = k
        · subst hk
          refine Or.inr ⟨change, e, record, List.mem_cons_self, rfl, he, hrecord, ?_,
            List.forall_mem_cons.mpr ⟨fun _ _ => le_rfl, fun c' hc' hsame hsome =>
              absurd (hnone c' hc' hsame) hsome⟩⟩
          rw [← hentity] at hget ⊢
          exact hget.trans (Table.get_set_self _ _ _)
        · refine Or.inl ⟨List.forall_mem_cons.mpr ⟨fun hsame => absurd hsame hk, hnone⟩, ?_⟩
          refine hget.trans (Table.get_set_of_ne _ _ ?_)
          rw [hentity]
          exact Ne.symm hk
      · refine Or.inr ⟨c, e', record', List.mem_cons_of_mem _ hc, hk, hlast.1, hlast.2.1,
          hlast.2.2.1, List.forall_mem_cons.mpr ⟨fun _ _ => ?_, hlast.2.2.2⟩⟩
        exact (hsorted.1 c hc).le

/-! ### The service as a source -/

/-- The rows of an organization with their last changes. -/
def source (db : Db) (organizationId : Str) :
    Source (EntityType × Str) SyncChangeLog SyncEntity where
  counter := db.lastSequence
  newest k := (lastChange db.changeLog (organizationId, k)).bind fun c =>
    (db.entities.get (organizationId, k)).map fun e => (c, e)

/-- The copies of a device and the number of its cursor. -/
def Replica.reader (r : Replica) : Reader (EntityType × Str) SyncRecord where
  position := position r.cursor
  copies := r.copies.get

/-- A record shows a row under the number of a change. -/
def Shows (c : SyncChangeLog) (e : SyncEntity) (record : SyncRecord) : Prop :=
  pullRecord c e = .ok record

/-- The revision of a record. -/
def SyncRecord.revision (record : SyncRecord) : ℕ := record.serverRevision.getD 0

/-- A row and its last change. -/
lemma source_newest {db : Db} {organizationId : Str} {k : EntityType × Str} {c : SyncChangeLog}
    {e : SyncEntity} : (source db organizationId).newest k = some (c, e) ↔
      lastChange db.changeLog (organizationId, k) = some c ∧
        db.entities.get (organizationId, k) = some e := by
  simp only [source, Option.bind_eq_some_iff, Option.map_eq_some_iff, Prod.mk.injEq]
  constructor
  · rintro ⟨c', hlast, e', hrow, rfl, rfl⟩
    exact ⟨hlast, hrow⟩
  · rintro ⟨hlast, hrow⟩
    exact ⟨c, hlast, e, hrow, rfl, rfl⟩

/-- A row of a consistent state has a last change with its revision. -/
lemma Revisioned.newest {db : Db} (h : Revisioned db) {organizationId : Str} {k : EntityType × Str}
    {e : SyncEntity} (hrow : db.entities.get (organizationId, k) = some e) :
    ∃ c, (source db organizationId).newest k = some (c, e) ∧
      c.serverRevision = e.serverRevision := by
  obtain ⟨c, hlast, hrevision⟩ := h.last (organizationId, k) e hrow
  exact ⟨c, source_newest.mpr ⟨hlast, hrow⟩, hrevision⟩

/-- No change of an entity comes after its last one. -/
lemma Revisioned.sequence_le {db : Db} (h : Revisioned db) {k : EntityKey} {c last : SyncChangeLog}
    (hc : c ∈ db.changeLog) (hkey : c.key = k) (hlast : lastChange db.changeLog k = some last) :
    c.sequence ≤ last.sequence := by
  have hsorted := h.sequences.sublist (List.filter_sublist (p := fun d => d.key == k))
  obtain ⟨init, hinit⟩ := List.getLast?_eq_some_iff.mp hlast
  have hmem : c ∈ db.changeLog.filter fun d => d.key == k :=
    List.mem_filter.mpr ⟨hc, by simpa using hkey⟩
  rw [hinit] at hsorted hmem
  rcases List.mem_append.mp hmem with hmem | hmem
  · exact ((List.pairwise_append.mp hsorted).2.2 c hmem last (List.mem_singleton_self _)).le
  · rw [List.mem_singleton.mp hmem]

/-- Two changes of one number are one change. -/
lemma Revisioned.change_eq {db : Db} (h : Revisioned db) {c c' : SyncChangeLog}
    (hc : c ∈ db.changeLog) (hc' : c' ∈ db.changeLog) (hsame : c.sequence = c'.sequence) :
    c = c' := by
  have hdistinct : (db.changeLog.map SyncChangeLog.sequence).Nodup :=
    List.pairwise_map.mpr (h.sequences.imp fun hlt => hlt.ne)
  exact List.inj_on_of_nodup_map hdistinct hc hc' hsame

/-- A push writes to the source of every organization.

**Proof sketch.** By the records of the push, each of which leaves the entities and the change log
alone or adds one change and the row of its entity. -/
lemma push_writes (env : Env) (input : PushInput) {db : Db} (hdb : Revisioned db)
    (organizationId : Str) :
    (source db organizationId).Writes SyncChangeLog.sequence SyncEntity.serverRevision
      (source (runPushes env [input] db) organizationId) := by
  refine (runPushes_inv (I := fun t => Revisioned t ∧ (source db organizationId).Writes
    SyncChangeLog.sequence SyncEntity.serverRevision (source t organizationId)) ⟨hdb, ?_⟩ ?_).2
  · exact ⟨le_rfl, fun _ _ h => Or.inl h, fun _ b v h => ⟨b, v, h, le_rfl⟩⟩
  · rintro s hs ⟨hbefore, hwrites⟩
    have hvalid := (runSteps_valid hs).1
    refine ⟨hvalid.revisioned hbefore, ?_⟩
    rcases hvalid.keeps_or_commits with hkeeps | ⟨payload, grant, applied, hcommits⟩
    · have hsame : source s.after.db organizationId = source s.before.db organizationId := by
        simp only [source, hkeeps.changeLog, hkeeps.entities, hkeeps.lastSequence]
      rwa [hsame]
    have hnew : s.before.db.lastSequence < s.change.sequence := Nat.lt_succ_self _
    have hafter : ∀ k, (source s.after.db organizationId).newest k =
        if s.key = (organizationId, k) then
          some (s.change, committedEntity s.record payload s.revision)
        else (source s.before.db organizationId).newest k := by
      intro k
      simp only [source, hcommits.changeLog, hcommits.entities, lastChange_concat]
      by_cases hkey : s.key = (organizationId, k)
      · have hchange : s.change.key = (organizationId, k) := hkey
        rw [if_pos hkey, if_pos hchange, ← hkey, Table.get_set_self]
        rfl
      · have hchange : s.change.key ≠ (organizationId, k) := hkey
        rw [if_neg hkey, if_neg hchange, Table.get_set_of_ne _ _ (Ne.symm hkey)]
    refine ⟨hwrites.counter_le.trans ?_, fun k x hx => ?_, fun k b v hrow => ?_⟩
    · rw [source, source, hcommits.lastSequence]
      exact Nat.le_succ _
    · rw [hafter k] at hx
      split_ifs at hx with hkey
      · obtain rfl := Option.some.inj hx
        exact Or.inr (lt_of_le_of_lt hwrites.counter_le hnew)
      · exact hwrites.newest k x hx
    · obtain ⟨b', v', hrow', hstamp⟩ := hwrites.stamps k b v hrow
      rw [hafter k]
      split_ifs with hkey
      · refine ⟨_, _, rfl, hstamp.trans ?_⟩
        have hlt := lt_nextRevision (source_newest.mp hrow').2
        rw [← hkey] at hlt
        exact hlt.le
      · exact ⟨b', v', hrow', hstamp⟩

/-- What a device has of an entity after a page: what it had, or a record that the page sent. -/
lemma pull_sends {db : Db} (hdb : Revisioned db) {principal : Principal} {r : Replica}
    {batch : SyncBatch} (h : pullSince db principal r.cursor = .ok batch) (k : EntityType × Str) :
    (r.receive batch).copies.get k = r.copies.get k ∨ ∃ c e record, c ∈ db.changeLog ∧
      c.key = (principal.organizationId, k) ∧
      db.entities.get (principal.organizationId, k) = some e ∧
      visible db principal k.1 k.2 = true ∧ pullRecord c e = .ok record ∧
      (r.receive batch).copies.get k = some record := by
  obtain ⟨consumed, -, -, hdelivered, hsorted, hmem⟩ := pullSince_consumed hdb h
  rcases get_store hsorted hdelivered r.copies k with
    ⟨-, hget⟩ | ⟨c, e, record, hc, rfl, he, hrecord, hget, -⟩
  · exact Or.inl hget
  · obtain ⟨hlog, -, hkey⟩ := hmem c hc
    rw [deliverable_eq] at he
    split_ifs at he with hvisible
    exact Or.inr ⟨c, e, record, hlog, hkey, he, hvisible, hrecord, hget⟩

/-- A pull that returned is a page for the device that takes it.

**Proof sketch.** Of a key, the page delivers rows as they are now, so what it leaves is the row
under the number of the last change that it read (`get_store`); when the last change of the key is
among these, it is that one. -/
lemma pull_page {db : Db} (hdb : Revisioned db) {principal : Principal} {r : Replica}
    {batch : SyncBatch} (h : pullSince db principal r.cursor = .ok batch) :
    Page SyncChangeLog.sequence Shows (source db principal.organizationId)
      (fun k => visible db principal k.1 k.2 = true) r.reader (r.receive batch).reader := by
  obtain ⟨consumed, hcursor, hsplit, hdelivered, hsorted, hmem⟩ := pullSince_consumed hdb h
  have hposition : (r.receive batch).reader.position =
      advance SyncChangeLog.sequence (position r.cursor) consumed := by
    rw [Replica.reader, Replica.receive, hcursor, position_cursorText]
  refine ⟨?_, fun hbounded => ?_, fun k b v hrow hold => ?_, fun k b v hrow hnew hread hsees => ?_,
    fun k => ?_⟩
  · rw [hposition]
    exact le_advance _ _
  · rw [hposition]
    exact advance_le hbounded fun c hc => hdb.bounded c (hmem c hc).1
  · rcases get_store hsorted hdelivered r.copies k with ⟨-, hget⟩ | ⟨c, e, record, hc, rfl, -⟩
    · exact hget
    · obtain ⟨hlog, hafter, hkey⟩ := hmem c hc
      have hle := hdb.sequence_le hlog hkey (source_newest.mp hrow).1
      exact absurd (hafter.trans_le hle) (not_lt.mpr hold)
  · obtain ⟨hlast, hrow⟩ := source_newest.mp hrow
    obtain ⟨hlog, hkey⟩ := lastChange_mem hlast
    obtain ⟨horganization, hentity⟩ := Prod.mk.inj hkey
    have hconsumed : b ∈ consumed := by
      have hpending : b ∈ pendingChanges db principal (position r.cursor) :=
        mem_pendingChanges.mpr ⟨List.mem_filter.mpr ⟨hlog, by simpa using horganization⟩, hnew⟩
      rw [hsplit] at hpending
      refine (List.mem_append.mp hpending).resolve_right fun hlater => ?_
      rw [hposition] at hread
      exact absurd (mem_pendingChanges.mp hlater).2 (not_lt.mpr hread)
    have hdeliverable : deliverable db principal b = some v := by
      have hvisible : visible db principal b.entityType b.entityId.text = true := by
        rw [← hsees, ← hentity]
      rw [deliverable_eq, hvisible, ← hrow, ← hentity]
      rfl
    rcases get_store hsorted hdelivered r.copies k with
      ⟨hnone, -⟩ | ⟨c, e, record, hc, hk, he, hrecord, hget, hlatest⟩
    · rw [hnone b hconsumed hentity] at hdeliverable
      cases hdeliverable
    · obtain ⟨hlog', -, hkey'⟩ := hmem c hc
      have hle := hdb.sequence_le hlog' (hk ▸ hkey') hlast
      have hge := hlatest b hconsumed hentity (by rw [hdeliverable]; exact Option.some_ne_none v)
      obtain rfl := hdb.change_eq hlog' hlog (le_antisymm hle hge)
      obtain rfl := Option.some.inj (he.symm.trans hdeliverable)
      exact ⟨record, hget, hrecord⟩
  · rcases pull_sends hdb h k with hsame | ⟨c, e, record, -, -, he, -, hrecord, hget⟩
    · exact Or.inl hsame
    · obtain ⟨last, hnewest, -⟩ := hdb.newest he
      exact Or.inr ⟨last, e, c, record, hnewest, hget, hrecord⟩

/-! ### The service and its devices -/

/-- The tables of the service and what every device keeps. -/
structure Fleet (ι : Type) where
  db : Db
  replicas : ι → Replica

/-- A request to the service: a push, or a pull of a device by one of its users. -/
inductive Request (ι : Type) where
  | push (input : PushInput)
  | pull (device : ι) (principal : Principal)

namespace Fleet

variable {ι : Type} [DecidableEq ι]

/-- The service answers a request. A push that aborts changes nothing, and a device keeps what it
has when its pull fails. -/
def handle (env : Env) (s : Fleet ι) : Request ι → Fleet ι
  | .push input => { s with db := runPushes env [input] s.db }
  | .pull device principal =>
    match pullSince s.db principal (s.replicas device).cursor with
    | .error _ => s
    | .ok batch =>
      { s with
        replicas := Function.update s.replicas device ((s.replicas device).receive batch) }

/-- The service answers one request after another. -/
def run (env : Env) (s : Fleet ι) (requests : List (Request ι)) : Fleet ι :=
  requests.foldl (handle env) s

/-- One more request. -/
lemma run_concat (env : Env) (s : Fleet ι) (requests : List (Request ι)) (request : Request ι) :
    s.run env (requests ++ [request]) = (s.run env requests).handle env request := by
  rw [run, List.foldl_append]
  rfl

/-- A request of one kind or another: a push writes the tables; a pull gives a page to its device,
or changes nothing. -/
lemma handle_cases (env : Env) (s : Fleet ι) (request : Request ι) :
    (∃ input, request = .push input ∧ s.handle env request =
        ⟨runPushes env [input] s.db, s.replicas⟩) ∨
      s.handle env request = s ∨
      ∃ device principal batch, request = .pull device principal ∧
        pullSince s.db principal (s.replicas device).cursor = .ok batch ∧
        s.handle env request = ⟨s.db,
          Function.update s.replicas device ((s.replicas device).receive batch)⟩ := by
  cases request with
  | push input => exact Or.inl ⟨input, rfl, rfl⟩
  | pull device principal =>
    cases hpull : pullSince s.db principal (s.replicas device).cursor with
    | error e =>
      refine Or.inr (Or.inl ?_)
      simp only [handle, hpull]
    | ok batch =>
      refine Or.inr (Or.inr ⟨device, principal, batch, rfl, hpull, ?_⟩)
      simp only [handle, hpull]

/-- Requests keep the tables consistent. -/
lemma run_revisioned (env : Env) {s : Fleet ι} (hs : Revisioned s.db)
    (requests : List (Request ι)) : Revisioned (s.run env requests).db := by
  induction requests using List.reverseRecOn with
  | nil => exact hs
  | append_singleton requests request ih =>
    rw [run_concat]
    rcases handle_cases env (s.run env requests) request with
      ⟨input, -, hpush⟩ | hsame | ⟨device, principal, batch, -, -, hpull⟩
    · rw [hpush]
      exact runPushes_inv ih fun t ht hbefore => (runSteps_valid ht).1.revisioned hbefore
    · rw [hsame]
      exact ih
    · rw [hpull]
      exact ih

end Fleet

/-! ### A sample -/

namespace Sample

/-- The sample organization before its first push, with devices that have not pulled yet. -/
def fleet : Fleet ℕ := ⟨db, fun _ => .fresh⟩

/-- The push of a customer. -/
def customer : Request ℕ := .push (input (record .customer "c" "1" none [("id", .str "c")]))

/-- The push of a customer, and a pull of one device. -/
def requests : List (Request ℕ) := [customer, .pull 0 principal]

/-- The sample organization is consistent before its first push. -/
lemma fleet_revisioned : Revisioned fleet.db := by
  refine ⟨?_, List.Pairwise.nil, List.Pairwise.nil, ?_, ?_⟩
  · rintro c ⟨⟩
  · rintro c ⟨⟩
  · rintro k e ⟨⟩

/-- The only pull of the sample comes last. -/
lemma requests_pull {past future : List (Request ℕ)} {device : ℕ} {user : Principal}
    (h : requests = past ++ .pull device user :: future) :
    past = [customer] ∧ user = principal := by
  cases past with
  | nil => cases h
  | cons first past =>
    cases past with
    | nil =>
      cases h
      exact ⟨rfl, rfl⟩
    | cons second past =>
      have hlength := congrArg List.length h
      simp only [requests, List.length_cons, List.length_nil, List.length_append] at hlength
      omega

/-- The pulls of the sample are of one organization. -/
lemma requests_organization (device : ℕ) (user : Principal)
    (h : Request.pull device user ∈ requests) : user.organizationId = "o" := by
  obtain ⟨past, future, hsplit⟩ := List.append_of_mem h
  rw [(requests_pull hsplit).2]
  rfl

end Sample

section Runs

variable {ι : Type} [DecidableEq ι]

/-- A pull of a run passed over a change of an entity: its page began before the number and ended at
or after it, and its user could not see the entity. -/
def Withheld (env : Env) (start : Fleet ι) (requests : List (Request ι)) (device : ι)
    (k : EntityType × Str) (n : ℕ) : Prop :=
  ∃ past principal future, requests = past ++ .pull device principal :: future ∧
    position ((start.run env past).replicas device).cursor < n ∧
    n ≤ position
      (((start.run env past).handle env (.pull device principal)).replicas device).cursor ∧
    visible (start.run env past).db principal k.1 k.2 = false

/-- What was withheld remains so. -/
lemma Withheld.concat {env : Env} {start : Fleet ι} {requests : List (Request ι)} {device : ι}
    {k : EntityType × Str} {n : ℕ} (h : Withheld env start requests device k n)
    (request : Request ι) : Withheld env start (requests ++ [request]) device k n := by
  obtain ⟨past, principal, future, rfl, hwithheld⟩ := h
  exact ⟨past, principal, future ++ [request], by rw [List.append_assoc, List.cons_append],
    hwithheld⟩

/-- **Run.** What holds of a device at the start, and is kept by pushes, by its own pages and by
requests that concern neither, holds in every run.

**Proof sketch.** By induction on the requests, from the last one. -/
lemma replica_inv {env : Env} {start : Fleet ι} (hstart : Revisioned start.db) {device : ι}
    {I : List (Request ι) → Db → Replica → Prop} (hnil : I [] start.db (start.replicas device))
    (hpush : ∀ past input db r, Revisioned db → I past db r →
      I (past ++ [.push input]) (runPushes env [input] db) r)
    (hother : ∀ past request db r, I past db r → I (past ++ [request]) db r)
    (requests : List (Request ι))
    (hpull : ∀ past principal future batch, requests = past ++ .pull device principal :: future →
      Revisioned (start.run env past).db → pullSince (start.run env past).db principal
        ((start.run env past).replicas device).cursor = .ok batch →
      I past (start.run env past).db ((start.run env past).replicas device) →
      I (past ++ [.pull device principal]) (start.run env past).db
        (((start.run env past).replicas device).receive batch)) :
    I requests (start.run env requests).db ((start.run env requests).replicas device) := by
  induction requests using List.reverseRecOn with
  | nil => exact hnil
  | append_singleton requests request ih =>
    have hbefore := Fleet.run_revisioned env hstart requests
    have hinv := ih fun past principal future batch hsplit =>
      hpull past principal (future ++ [request]) batch
        (by rw [hsplit, List.append_assoc, List.cons_append])
    rw [Fleet.run_concat]
    rcases Fleet.handle_cases env (start.run env requests) request with
      ⟨input, rfl, hafter⟩ | hsame | ⟨other, principal, batch, rfl, hpage, hafter⟩
    · rw [hafter]
      exact hpush requests input _ _ hbefore hinv
    · rw [hsame]
      exact hother requests request _ _ hinv
    · rw [hafter]
      by_cases hdevice : other = device
      · subst hdevice
        dsimp only
        rw [Function.update_self]
        exact hpull requests principal [] batch rfl hbefore hpage hinv
      · dsimp only
        rw [Function.update_of_ne (Ne.symm hdevice)]
        exact hother requests _ _ _ hinv

/-- The cursor of a device after a page of its own. -/
lemma handle_pull {env : Env} {s : Fleet ι} {device : ι} {principal : Principal} {batch : SyncBatch}
    (h : pullSince s.db principal (s.replicas device).cursor = .ok batch) :
    (s.handle env (.pull device principal)).replicas device =
      (s.replicas device).receive batch := by
  simp only [Fleet.handle, h, Function.update_self]

/-- A device of an organization accounts for every entity of it, in every run. -/
lemma follows_run (env : Env) {start : Fleet ι} (hstart : Revisioned start.db)
    (hpositive : ∀ c ∈ start.db.changeLog, 0 < c.sequence) {device : ι}
    (hfresh : start.replicas device = .fresh) {organizationId : Str} (requests : List (Request ι))
    (horganization : ∀ principal, .pull device principal ∈ requests →
      principal.organizationId = organizationId) :
    Follows SyncChangeLog.sequence Shows (source (start.run env requests).db organizationId)
      ((start.run env requests).replicas device).reader
      (Withheld env start requests device) := by
  refine replica_inv (I := fun past db r => Follows SyncChangeLog.sequence Shows
    (source db organizationId) r.reader (Withheld env start past device)) hstart ?_ ?_ ?_ requests
    ?_
  · rw [hfresh]
    refine ⟨Nat.zero_le _, fun k c e hnewest => Or.inl ?_⟩
    exact hpositive c (lastChange_mem (source_newest.mp hnewest).1).1
  · intro past input db r hdb h
    exact (h.mono fun k n hmissed => hmissed.concat _).write
      (push_writes env input hdb organizationId)
  · intro past request db r h
    exact h.mono fun k n hmissed => hmissed.concat request
  · intro past principal future batch hsplit hdb hpage h
    obtain rfl := horganization principal (hsplit ▸ by simp)
    refine (h.page (pull_page hdb hpage)).mono fun k n hmissed => ?_
    rcases hmissed with hmissed | ⟨hbegin, hend, hhidden⟩
    · exact hmissed.concat _
    · refine ⟨past, principal, [], rfl, hbegin, ?_, Bool.eq_false_iff.mpr hhidden⟩
      rw [handle_pull hpage]
      exact hend

/-- **Devices follow the service.** In every run of pushes and pulls by any devices, every stored
entity of the organization of a device, with its last change, is accounted for: the device has not
read up to the change yet, or it holds the record of the row as it is now, or a page of the device
has passed over the change because the user could not see the entity then. -/
theorem replicas_follow (env : Env) (start : Fleet ι) (hstart : Revisioned start.db)
    (hpositive : ∀ c ∈ start.db.changeLog, 0 < c.sequence) (device : ι)
    (hfresh : start.replicas device = .fresh) (organizationId : Str) (requests : List (Request ι))
    (horganization : ∀ principal, .pull device principal ∈ requests →
      principal.organizationId = organizationId)
    (k : EntityType × Str) (e : SyncEntity)
    (hrow : (start.run env requests).db.entities.get (organizationId, k) = some e) :
    ∃ c, lastChange (start.run env requests).db.changeLog (organizationId, k) = some c ∧
      c.serverRevision = e.serverRevision ∧
      (position ((start.run env requests).replicas device).cursor < c.sequence ∨
        (∃ record, ((start.run env requests).replicas device).copies.get k = some record ∧
          pullRecord c e = .ok record) ∨
        Withheld env start requests device k c.sequence) := by
  obtain ⟨c, hnewest, hrevision⟩ := (Fleet.run_revisioned env hstart requests).newest hrow
  have hfollows := follows_run env hstart hpositive hfresh requests horganization
  exact ⟨c, (source_newest.mp hnewest).1, hrevision, hfollows.accounted k c e hnewest⟩

/-- The device that pulled last holds the record of the customer as it is stored. -/
theorem replicas_follow_sample :
    ∃ c e record, lastChange (Sample.fleet.run Sample.env Sample.requests).db.changeLog
        ("o", .customer, "c") = some c ∧
      ((Sample.fleet.run Sample.env Sample.requests).replicas 0).copies.get (.customer, "c") =
        some record ∧ pullRecord c e = .ok record := by
  obtain ⟨hstored, hread, hseen⟩ : ((Sample.fleet.run Sample.env Sample.requests).db.entities.get
      ("o", .customer, "c")).isSome = true ∧
      (lastChange (Sample.fleet.run Sample.env Sample.requests).db.changeLog
        ("o", .customer, "c")).all (fun c => decide (c.sequence ≤
          position ((Sample.fleet.run Sample.env Sample.requests).replicas 0).cursor)) = true ∧
      visible (Sample.fleet.run Sample.env [Sample.customer]).db Sample.principal
        .customer "c" = true := by
    decide +kernel
  obtain ⟨e, he⟩ := Option.isSome_iff_exists.mp hstored
  obtain ⟨c, hlast, -, hbehind | ⟨record, hget, hrecord⟩ | hwithheld⟩ :=
    replicas_follow Sample.env Sample.fleet Sample.fleet_revisioned (by rintro c ⟨⟩) 0 rfl "o"
      Sample.requests (Sample.requests_organization 0) (.customer, "c") e he
  · rw [hlast, Option.all_some, decide_eq_true_eq] at hread
    exact absurd hbehind (not_lt.mpr hread)
  · exact ⟨c, e, record, hlast, hget, hrecord⟩
  · obtain ⟨past, user, future, hsplit, -, -, hhidden⟩ := hwithheld
    obtain ⟨rfl, rfl⟩ := Sample.requests_pull hsplit
    rw [hseen] at hhidden
    cases hhidden

/-- A page of a run sent a record: its change was in the log, and its entity was visible and had the
row of the record. -/
def Sent (env : Env) (start : Fleet ι) (requests : List (Request ι)) (device : ι)
    (k : EntityType × Str) (record : SyncRecord) : Prop :=
  ∃ past principal future c e, requests = past ++ .pull device principal :: future ∧
    c ∈ (start.run env past).db.changeLog ∧ c.key = (principal.organizationId, k) ∧
    (start.run env past).db.entities.get (principal.organizationId, k) = some e ∧
    visible (start.run env past).db principal k.1 k.2 = true ∧ pullRecord c e = .ok record

/-- A record that was sent was sent in every longer run. -/
lemma Sent.concat {env : Env} {start : Fleet ι} {requests : List (Request ι)} {device : ι}
    {k : EntityType × Str} {record : SyncRecord} (h : Sent env start requests device k record)
    (request : Request ι) : Sent env start (requests ++ [request]) device k record := by
  obtain ⟨past, principal, future, c, e, rfl, hsent⟩ := h
  exact ⟨past, principal, future ++ [request], c, e, by rw [List.append_assoc, List.cons_append],
    hsent⟩

/-- Every copy of a device was sent to it. -/
lemma sent_run {env : Env} {start : Fleet ι} (hstart : Revisioned start.db) {device : ι}
    (hfresh : start.replicas device = .fresh) (requests : List (Request ι))
    {k : EntityType × Str} {record : SyncRecord}
    (hcopy : ((start.run env requests).replicas device).copies.get k = some record) :
    Sent env start requests device k record := by
  refine replica_inv (I := fun past _ r => ∀ record, r.copies.get k = some record →
    Sent env start past device k record) hstart ?_ ?_ ?_ requests ?_ record hcopy
  · intro record hnone
    rw [hfresh] at hnone
    cases hnone
  · intro past input db r _ h record hget
    exact (h record hget).concat _
  · intro past request db r h record hget
    exact (h record hget).concat _
  · intro past principal future batch _ hdb hpage h record hget
    rcases pull_sends hdb hpage k with hsame | ⟨c, e, sent, hc, hkey, he, hvisible, hrecord, hsent⟩
    · exact (h record (hsame ▸ hget)).concat _
    · obtain rfl := Option.some.inj (hsent.symm.trans hget)
      exact ⟨past, principal, [], c, e, rfl, hc, hkey, he, hvisible, hrecord⟩

/-- The record of a row has its revision. -/
lemma Shows.revision {c : SyncChangeLog} {e : SyncEntity} {record : SyncRecord}
    (h : Shows c e record) : record.revision = e.serverRevision := by
  rw [SyncRecord.revision, (pullRecord_spec h).2, Option.getD_some]

/-- No copy of a device is newer than the row of its entity. -/
lemma dated_run (env : Env) {start : Fleet ι} (hstart : Revisioned start.db) {device : ι}
    (hfresh : start.replicas device = .fresh) {organizationId : Str} (requests : List (Request ι))
    (horganization : ∀ principal, .pull device principal ∈ requests →
      principal.organizationId = organizationId) :
    Dated SyncEntity.serverRevision SyncRecord.revision
      (source (start.run env requests).db organizationId)
      ((start.run env requests).replicas device).reader := by
  refine replica_inv (I := fun _ db r => Dated SyncEntity.serverRevision SyncRecord.revision
    (source db organizationId) r.reader) hstart ?_ ?_ ?_ requests ?_
  · intro k record hnone
    rw [hfresh] at hnone
    cases hnone
  · intro past input db r hdb h
    exact h.write (push_writes env input hdb organizationId)
  · exact fun past request db r h => h
  · intro past principal future batch hsplit hdb hpage h
    obtain rfl := horganization principal (hsplit ▸ by simp)
    exact h.page (pull_page hdb hpage) fun c e record hshows => hshows.revision

/-- **Devices are faithful.** Every record that a device holds was sent by a page of its own, at
which the entity was visible and had the row of the record. It is not newer than the row that the
service has now, and after any further requests the device holds a record of the entity that is at
least as new. -/
theorem replicas_faithful (env : Env) (start : Fleet ι) (hstart : Revisioned start.db) (device : ι)
    (hfresh : start.replicas device = .fresh) (organizationId : Str)
    (first second : List (Request ι))
    (horganization : ∀ principal, .pull device principal ∈ first ++ second →
      principal.organizationId = organizationId)
    (k : EntityType × Str) (record : SyncRecord)
    (hcopy : ((start.run env first).replicas device).copies.get k = some record) :
    Sent env start first device k record ∧
      (∃ e, (start.run env first).db.entities.get (organizationId, k) = some e ∧
        record.revision ≤ e.serverRevision) ∧
      ∃ later, ((start.run env (first ++ second)).replicas device).copies.get k = some later ∧
        record.revision ≤ later.revision := by
  have hdated := dated_run env hstart hfresh first fun principal hpull =>
    horganization principal (List.mem_append_left _ hpull)
  refine ⟨sent_run hstart hfresh first hcopy, ?_, ?_⟩
  · obtain ⟨c, e, hnewest, hle⟩ := hdated k record hcopy
    exact ⟨e, (source_newest.mp hnewest).2, hle⟩
  · have hrun : start.run env (first ++ second) = (start.run env first).run env second :=
      List.foldl_append
    rw [hrun]
    refine (replica_inv (I := fun _ db r => Dated SyncEntity.serverRevision SyncRecord.revision
      (source db organizationId) r.reader ∧ ∃ later, r.copies.get k = some later ∧
        record.revision ≤ later.revision) (Fleet.run_revisioned env hstart first)
      ⟨hdated, record, hcopy, le_rfl⟩ ?_ ?_ second ?_).2
    · rintro past input db r hdb ⟨h, hlater⟩
      exact ⟨h.write (push_writes env input hdb organizationId), hlater⟩
    · exact fun past request db r h => h
    · rintro past principal future batch hsplit hdb hpage ⟨h, later, hget, hle⟩
      obtain rfl := horganization principal (hsplit ▸ by simp)
      have hshown := pull_page hdb hpage
      obtain ⟨newer, hnewer, hdate⟩ :=
        hshown.date_le h (fun c e record hshows => hshows.revision) hget
      exact ⟨h.page hshown fun c e record hshows => hshows.revision, newer, hnewer,
        hle.trans hdate⟩

/-- What the device of the sample holds of the customer was sent to it. -/
theorem replicas_faithful_sample :
    ∃ record, ((Sample.fleet.run Sample.env Sample.requests).replicas 0).copies.get
        (.customer, "c") = some record ∧
      Sent Sample.env Sample.fleet Sample.requests 0 (.customer, "c") record := by
  have hheld : (((Sample.fleet.run Sample.env Sample.requests).replicas 0).copies.get
      (.customer, "c")).isSome = true := by
    decide +kernel
  obtain ⟨record, hget⟩ := Option.isSome_iff_exists.mp hheld
  have horganization := Sample.requests_organization 0
  rw [← List.append_nil Sample.requests] at horganization
  exact ⟨record, hget, (replicas_faithful Sample.env Sample.fleet Sample.fleet_revisioned 0 rfl "o"
    Sample.requests [] horganization (.customer, "c") record hget).1⟩

end Runs

end VitrialSync
