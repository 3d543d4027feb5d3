import VitrialSync.Beam.Page
import VitrialSync.Beam.Prefetch
import VitrialSync.Beam.PushService
import VitrialSync.Server.PullCeiling

set_option relaxedAutoImplicit false
set_option autoImplicit false

/-!
# Pulls on the BEAM

`VitrialSync.PullService`: the changes after a sequence and the canonical tables are read on one
connection, and a page is assembled from them.

No query reads `sync_entities`, so the world of a pull has no entity and every change is consumed
without being delivered. So a pull agrees with `pull_since` exactly where that has nothing to
deliver.

The time of a change is a column that the server clocks; it is a parameter.

## Main definitions

* `VitrialSync.Beam.PullService.pull` — `pull/3`.
* `VitrialSync.Beam.PullService.wire` — `wire/1`.
* `VitrialSync.Beam.SamePullTables` — the tables of both servers hold the same rows.
* `VitrialSync.Beam.SamePage` — a response of `wire/1` is that of the reference.

## Main results

* `VitrialSync.Beam.PullService.pull_eq` — the page of every pull.
* `VitrialSync.Beam.pull_agrees_iff` — where the two servers agree.
-/

namespace VitrialSync.Beam

open Python Program

namespace PullService

/-! ### The pull -/

/-- `Reads.sync_change_log/4`. -/
def syncChangeLog (d : Database) (organizationId : Str) (startSequence : ℕ) : List Change :=
  (pending Change.sequence (d.changeLog.filter fun c => c.row.organizationId == organizationId)
    startSequence).take Page.maxScanChanges

/-- `visible?/2`. -/
def visible (page : Prefetch.Context) (change : Change) : Except Fault Bool :=
  if change.row.entityType = .known .deliveryExecution then
    Prefetch.resolveDeliveryVisible page change.row.entityId
  else .ok (Prefetch.resolveVisible page change.row.entityType change.row.entityId)

/-- `entity/2`. -/
def entity (world : World) (change : Change) : Option StoredEntity :=
  world.entities.find? fun row =>
    row.entityType.text == change.row.entityType.text && row.entityId == change.row.entityId

/-- `entity_present?/2`. -/
def entityPresent (world : World) (change : Change) : Bool := (entity world change).isSome

/-- `entity_payload/2`. -/
def entityPayload (world : World) (change : Change) : Value :=
  match entity world change with
  | none => .dict []
  | some row => Page.orEmpty row.payload

/-- `entity_deleted_at/2`. -/
def entityDeletedAt (_world : World) (_change : Change) : Option Str := none

variable (createdAt : Change → Str)

/-- The candidate of a change. -/
def candidate (page : Prefetch.Context) (world : World) (change : Change) :
    Except Fault Page.Candidate := do
  let visible ← visible page change
  return {
    sequence := change.sequence
    entityType := change.row.entityType
    entityId := change.row.entityId
    payloadJson := entityPayload world change
    serverRevision := change.row.serverRevision
    clientMutationId := change.row.clientMutationId
    updatedAt := createdAt change
    deletedAt := entityDeletedAt world change
    visible
    entityPresent := entityPresent world change }

/-- `build_page/4`. -/
def buildPage (startSequence : ℕ) (changes : List Change) (principal : Principal) (world : World) :
    Except Fault Page.PageResult := do
  let page := Prefetch.loadPageContext principal
    (changes.map fun c => (c.row.entityType, c.row.entityId)) world
  let candidates ← changes.mapM (candidate createdAt page world)
  (Page.assemble startSequence candidates).mapError .raised

/-- `pull/3`; the world of the tables has no membership and no entity. -/
def pull (d : Database) (startSequence : ℕ) (principal : Principal) :
    Except Fault Page.PageResult :=
  buildPage createdAt startSequence (syncChangeLog d principal.organizationId startSequence)
    principal (loadedTables d principal.organizationId)

/-! ### The response -/

/-- A number or `nil`. -/
def optionalNumber : Option ℕ → Value
  | none => .none
  | some n => .int n

/-- A text or `nil`. -/
def optionalText : Option Str → Value
  | none => .none
  | some s => .str s

/-- `wire_record/1`. -/
def wireRecord (record : Page.PageRecord) : Dict :=
  [("id", .str record.id), ("entityType", .str record.entityType.text),
    ("entityID", .str record.entityId), ("serverRevision", optionalNumber record.serverRevision),
    ("clientMutationID", optionalText record.clientMutationId),
    ("updatedAt", .str record.updatedAt)]

/-- A field of a record, if it has one. -/
def field (w : Dict) (key : Str) : Option Value := w.lookup key

/-- The envelope of `wire/1`. -/
structure Envelope where
  deviceId : Str
  cursor : Str
  records : List Dict

/-- `wire/1`. -/
def wire (result : Page.PageResult) : Envelope :=
  ⟨"server", cursorText result.cursorSequence, result.records.map wireRecord⟩

/-! ### The page of a pull -/

/-- A world without entities has none to deliver. -/
lemma candidate_bare (page : Prefetch.Context) (world : World) (change : Change)
    (hworld : world.entities = []) (hpage : page.entities = .empty) :
    ∃ c, candidate createdAt page world change = .ok c ∧ c.sequence = change.sequence ∧
      c.deliverable = false := by
  have hvisible : ∃ b, visible page change = .ok b := by
    unfold visible
    split_ifs
    · rw [Prefetch.resolveDeliveryVisible, hpage, Table.get_empty]
      exact ⟨false, rfl⟩
    · exact ⟨_, rfl⟩
  obtain ⟨b, hvisible⟩ := hvisible
  have habsent : entityPresent world change = false := by
    rw [entityPresent, entity, hworld]
    rfl
  rw [candidate, hvisible, ok_bind]
  refine ⟨_, rfl, rfl, ?_⟩
  rw [Page.Candidate.deliverable, habsent, Bool.and_false]

/-- **The page of a pull.** Every pull returns an empty page, with the cursor past all changes that
were scanned. -/
theorem pull_eq (d : Database) (startSequence : ℕ) (principal : Principal) :
    pull createdAt d startSequence principal =
      .ok ⟨[], advance Change.sequence startSequence
        (syncChangeLog d principal.organizationId startSequence), none⟩ := by
  generalize hchanges : syncChangeLog d principal.organizationId startSequence = changes
  set world := loadedTables d principal.organizationId with hworld
  set page := Prefetch.loadPageContext principal
    (changes.map fun c => (c.row.entityType, c.row.entityId)) world with hpage
  have hcandidates : ∀ list : List Change, ∃ candidates,
      list.mapM (candidate createdAt page world) = .ok candidates ∧
        candidates.map Page.Candidate.sequence = list.map Change.sequence ∧
          ∀ c ∈ candidates, c.deliverable = false := by
    intro list
    induction list with
    | nil => exact ⟨[], rfl, rfl, by simp⟩
    | cons change list ih =>
      obtain ⟨candidates, hmap, hsequences, hnone⟩ := ih
      obtain ⟨c, hc, hsequence, hbare⟩ :=
        candidate_bare createdAt page world change rfl rfl
      refine ⟨c :: candidates, ?_, ?_, List.forall_mem_cons.mpr ⟨hbare, hnone⟩⟩
      · rw [List.mapM_cons, hc, ok_bind, hmap]
        rfl
      · rw [List.map_cons, List.map_cons, hsequence, hsequences]
  obtain ⟨candidates, hmap, hsequences, hnone⟩ := hcandidates changes
  rw [pull, hchanges, buildPage, ← hworld, ← hpage, hmap, ok_bind,
    Page.assemble_undelivered startSequence hnone, advance_eq_foldl, hsequences,
    ← advance_eq_foldl]
  rfl

end PullService

/-! ### The reference on the same tables -/

/-- A change of the reference. -/
def Change.ofServer (change : SyncChangeLog) : Change :=
  ⟨change.sequence, ⟨change.organizationId, .known change.entityType, change.entityId.text,
    change.serverRevision, change.clientMutationId.map ShortText.text, change.operation⟩⟩

/-- The tables that a pull on the BEAM reads hold the rows of the reference. -/
structure SamePullTables (d : Database) (db : Db) : Prop where
  organizations : d.organizations = db.organizations
  customers : d.customers = db.customers
  projects : d.projects = db.projects
  projectSectors : d.projectSectors = db.projectSectors
  items : d.items = db.items
  projectChildren : d.projectChildren = db.projectChildren
  itemChildren : d.itemChildren = db.itemChildren
  changeLog : d.changeLog = db.changeLog.map Change.ofServer

/-- A record of the response has the fields of a record of the reference. -/
structure SamePageRecord (w : Dict) (r : SyncRecord) : Prop where
  id : PullService.field w "id" = some (.str r.id.text)
  entityType : PullService.field w "entityType" = some (.str (Str.ofString r.entityType.name))
  entityID : PullService.field w "entityID" = some (.str r.entityID.text)
  updatedAt : PullService.field w "updatedAt" = some (.str r.updatedAt.jsonText)
  payload : PullService.field w "payload" = some (.str (r.payload.map Byte.toCodePoint))
  serverRevision : PullService.field w "serverRevision" =
    some (PullService.optionalNumber r.serverRevision)
  clientMutationID : PullService.field w "clientMutationID" =
    some (PullService.optionalText (r.clientMutationID.map ShortText.text))
  deletedAt : PullService.field w "deletedAt" =
    some (PullService.optionalText (r.deletedAt.map DateTime.jsonText))

/-- A response of `wire/1` is that of the reference. -/
structure SamePage (w : PullService.Envelope) (batch : SyncBatch) : Prop where
  deviceID : w.deviceId = batch.deviceID.text
  cursor : batch.cursor.map ShortText.text = some w.cursor
  records : List.Forall₂ SamePageRecord w.records batch.records

section Reference

variable {d : Database} {db : Db} {principal : Principal} {page : PageContext}
  {changes : List SyncChangeLog}

/-- The changes that a pull on the BEAM scans are those of the reference. -/
lemma syncChangeLog_eq (h : SamePullTables d db) (start : ℕ) :
    PullService.syncChangeLog d principal.organizationId start =
      (scannedChanges db principal start).map Change.ofServer := by
  have hlog : (d.changeLog.filter fun c => c.row.organizationId == principal.organizationId) =
      (organizationLog db principal.organizationId).map Change.ofServer := by
    rw [h.changeLog, List.filter_map]
    rfl
  rw [PullService.syncChangeLog, hlog, pending_map, ← List.map_take]
  rfl

/-- Changes that deliver nothing are consumed. -/
lemma pullLoop_undelivered (h : ∀ c ∈ changes, pageEntity page c = none)
    (records : List SyncRecord) (start : ℕ) :
    pullLoop page changes records start =
      .ok (records, advance SyncChangeLog.sequence start changes) := by
  induction changes generalizing start with
  | nil => rfl
  | cons change changes ih =>
    rw [List.forall_mem_cons] at h
    simp only [pullLoop, h.1]
    exact ih h.2 _

/-- The records of a page are kept. -/
lemma pullLoop_keeps {records records' : List SyncRecord} {start next : ℕ}
    (h : pullLoop page changes records start = .ok (records', next)) : records <+: records' := by
  induction changes generalizing records start with
  | nil =>
    cases h
    exact List.prefix_rfl
  | cons change changes ih =>
    unfold pullLoop at h
    split at h
    · exact ih h
    · obtain ⟨record, -, h⟩ := bind_eq_ok.mp h
      obtain ⟨fits, -, h⟩ := bind_eq_ok.mp h
      split_ifs at h
      · exact (List.prefix_append _ _).trans (ih h)
      · cases h
        exact List.prefix_rfl

/-- An empty page ends before the first change that delivers something. -/
lemma pullLoop_first {before after : List SyncChangeLog} {change : SyncChangeLog}
    {entity : SyncEntity} {start next : ℕ} (hbefore : ∀ c ∈ before, pageEntity page c = none)
    (hchange : pageEntity page change = some entity)
    (h : pullLoop page (before ++ change :: after) [] start = .ok ([], next)) :
    next = advance SyncChangeLog.sequence start before := by
  induction before generalizing start with
  | nil =>
    simp only [List.nil_append, pullLoop, hchange] at h
    obtain ⟨record, -, h⟩ := bind_eq_ok.mp h
    obtain ⟨fits, -, h⟩ := bind_eq_ok.mp h
    split_ifs at h
    · exact absurd (pullLoop_keeps h) (by simp)
    · cases h
      rfl
  | cons c before ih =>
    rw [List.forall_mem_cons] at hbefore
    simp only [List.cons_append, pullLoop, hbefore.1] at h
    exact ih hbefore.2 h

variable {createdAt : Change → Str}

/-- **Pulls agree where there is nothing to deliver.** On the same tables the two servers return the
same page exactly if no change that is scanned is visible to the principal with an entity.

**Proof sketch.** A pull on the BEAM returns no record and the highest sequence that was scanned. So
does the reference, if it delivers nothing. If it delivers something, it returns a record, or its
cursor stands before the first deliverable change, or it raises. -/
theorem pull_agrees_iff {cursor : Option Str} {start : ℕ} (hsame : SamePullTables d db)
    (hkeys : DistinctSequences db) (hbig : BigIntSequences db)
    (hsync : principal.holds .sync = true) (hstart : startSequence cursor = .ok start) :
    (∃ batch result, pullSince db principal cursor = .ok batch ∧
      PullService.pull createdAt d start principal = .ok result ∧
        SamePage (PullService.wire result) batch) ↔
      ∀ c ∈ scannedChanges db principal start, deliverable db principal c = none := by
  have hnext : advance Change.sequence start
      (PullService.syncChangeLog d principal.organizationId start) =
        advance SyncChangeLog.sequence start (scannedChanges db principal start) := by
    rw [syncChangeLog_eq hsame, advance_eq_foldl, advance_eq_foldl, List.map_map]
    rfl
  have hpull := PullService.pull_eq createdAt d start principal
  rw [hnext] at hpull
  have hscanned : ∀ c ∈ scannedChanges db principal start,
      start < c.sequence ∧ c.sequence ≤ maxCursorSequence := by
    intro c hc
    obtain ⟨hmem, hlt⟩ := mem_pendingChanges.mp (List.mem_of_mem_take hc)
    exact ⟨hlt, hbig c (List.mem_of_mem_filter hmem)⟩
  have hbound : advance SyncChangeLog.sequence start (scannedChanges db principal start) ≤
      maxCursorSequence :=
    advance_le (startSequence_le hstart) fun c hc => (hscanned c hc).2
  constructor
  · rintro ⟨batch, result, hbatch, hresult, hpage⟩
    cases hresult.symm.trans hpull
    obtain ⟨records, last, hloop, hserver, hrecords, -⟩ := pullSince_loop hbatch hstart
    have hempty : records = [] := by
      rw [← hrecords]
      exact List.forall₂_nil_left_iff.mp hpage.records
    have hlast : advance SyncChangeLog.sequence start (scannedChanges db principal start) = last :=
      (cursor_of_serverBatch hserver
        (by rw [hpage.cursor]; exact startSequence_cursorText hbound)).1
    by_contra hdelivers
    -- the first change that delivers something
    obtain ⟨change, hfirst⟩ : ∃ change, (scannedChanges db principal start).find?
        (fun c => (deliverable db principal c).isSome) = some change := by
      rw [← Option.isSome_iff_exists, List.find?_isSome]
      simp only [not_forall] at hdelivers
      obtain ⟨c, hc, hdelivers⟩ := hdelivers
      exact ⟨c, hc, Option.isSome_iff_ne_none.mpr hdelivers⟩
    obtain ⟨hdeliverable, before, after, hsplit, hbefore⟩ := List.find?_eq_some_iff_append.mp hfirst
    have hmem : change ∈ scannedChanges db principal start := by simp [hsplit]
    obtain ⟨entity, hentity⟩ := Option.isSome_iff_exists.mp hdeliverable
    rw [hempty, hsplit] at hloop
    have hstopped := pullLoop_first (fun c hc => ?_) ((hsplit ▸ pageEntity_eq hmem).trans hentity)
      hloop
    · -- the cursor of the reference stands before it
      have hlt : advance SyncChangeLog.sequence start before < change.sequence := by
        rcases advance_mem SyncChangeLog.sequence start before with hsame | ⟨a, ha, hsame⟩
        · rw [hsame]
          exact (hscanned change hmem).1
        · rw [hsame]
          have hsorted := (pairwise_pending (hkeys.organizationLog principal.organizationId)
            start).sublist (List.take_sublist maxSyncPullScanChanges _)
          change (scannedChanges db principal start).Pairwise _ at hsorted
          rw [hsplit, List.pairwise_append] at hsorted
          exact hsorted.2.2 a ha change List.mem_cons_self
      have hle : change.sequence ≤
          advance SyncChangeLog.sequence start (scannedChanges db principal start) :=
        key_le_advance hmem
      omega
    · have hmem' : c ∈ scannedChanges db principal start := by simp [hsplit, hc]
      have hnone := hbefore c hc
      rw [Bool.not_eq_true', Option.isSome_eq_false_iff, Option.isNone_iff_eq_none] at hnone
      exact (hsplit ▸ pageEntity_eq hmem').trans hnone
  · intro hnone
    have hloop := pullLoop_undelivered
      (fun c hc => (pageEntity_eq hc).trans (hnone c hc)) [] start
    have hcount : ([] : List SyncRecord).length ≤ maxSyncRecords := Nat.zero_le _
    have hbytes : payloadBytes [] ≤ maxSyncV1BatchPayloadBytes := Nat.zero_le _
    obtain ⟨batch, hbatch, -, -⟩ := serverBatch_eq_ok hbound hcount hbytes
    obtain ⟨hdevice, hcursor, hrecords⟩ := serverBatch_spec hbatch
    refine ⟨batch, _, ?_, hpull, hdevice.symm, hcursor, hrecords ▸ .nil⟩
    simp only [pullSince, hsync, hstart, hloop, ok_bind, Bool.not_true, Bool.false_eq_true,
      ↓reduceIte]
    exact hbatch

end Reference

/-! ### Samples -/

namespace Sample

/-- A time as the BEAM decodes it. -/
def utc (t : DateTime) : Timestamp.Utc :=
  let t := t.toUtc
  ⟨t.year, t.month, t.day, t.hour, t.minute, t.second, t.microsecond⟩

/-- The database with the tables of the reference; no query of a pull reads the mutations. -/
def pullDatabase (db : Db) : Database where
  organizations := db.organizations
  memberships := db.memberships
  customers := db.customers
  projects := db.projects
  projectSectors := db.projectSectors
  items := db.items
  projectChildren := db.projectChildren
  itemChildren := db.itemChildren
  entities := db.entities.rows.foldl (fun t r =>
    t.set (r.1.1, .known r.1.2.1, r.1.2.2)
      ⟨r.2.serverRevision, r.2.payloadJson.map Payload.items, utc r.2.updatedAt,
        r.2.deletedAt.map utc⟩) .empty
  mutations := .empty
  fingerprints := db.fingerprints
  changeLog := db.changeLog.map Change.ofServer
  lastSequence := db.lastSequence
  evidenceGc := []

/-- It has the same rows. -/
lemma pullDatabase_same (db : Db) : SamePullTables (pullDatabase db) db :=
  ⟨rfl, rfl, rfl, rfl, rfl, rfl, rfl, rfl⟩

/-- A member who may see nothing. -/
def outsider : Principal :=
  { VitrialSync.Sample.principal with allCustomers := false, allProjects := false }

/-- The sequences of the sample organization. -/
lemma filled_sequences :
    DistinctSequences VitrialSync.Sample.filled ∧ BigIntSequences VitrialSync.Sample.filled := by
  unfold DistinctSequences BigIntSequences
  decide +kernel

end Sample

/-- A member who may see nothing gets the same page from both servers. -/
theorem pull_agrees_outsider :
    ∃ batch result, pullSince VitrialSync.Sample.filled Sample.outsider none = .ok batch ∧
      PullService.pull (fun _ => "2026-01-01T00:00:00Z")
          (Sample.pullDatabase VitrialSync.Sample.filled) 0 Sample.outsider = .ok result ∧
        SamePage (PullService.wire result) batch := by
  have hnone : ∀ c ∈ scannedChanges VitrialSync.Sample.filled Sample.outsider 0,
      (deliverable VitrialSync.Sample.filled Sample.outsider c).isNone = true := by
    decide +kernel
  refine (pull_agrees_iff (Sample.pullDatabase_same _) Sample.filled_sequences.1
    Sample.filled_sequences.2 rfl rfl).mpr fun c hc => ?_
  exact Option.isNone_iff_eq_none.mp (hnone c hc)

/-- A member who may see the four records of the sample organization gets none of them. -/
theorem not_pull_agrees_filled :
    ¬∃ batch result,
      pullSince VitrialSync.Sample.filled VitrialSync.Sample.principal none = .ok batch ∧
        PullService.pull (fun _ => "2026-01-01T00:00:00Z")
            (Sample.pullDatabase VitrialSync.Sample.filled) 0 VitrialSync.Sample.principal =
              .ok result ∧ SamePage (PullService.wire result) batch := by
  rintro ⟨batch, result, hbatch, hresult, hpage⟩
  have hcount : (pullSince VitrialSync.Sample.filled VitrialSync.Sample.principal none).toOption.map
      (fun batch => batch.records.length) = some 4 := by
    decide +kernel
  cases hresult.symm.trans (PullService.pull_eq _ _ _ _)
  rw [hbatch, Except.toOption, Option.map_some, List.forall₂_nil_left_iff.mp hpage.records] at hcount
  cases hcount

end VitrialSync.Beam
