import VitrialSync.Server.Push

set_option relaxedAutoImplicit false
set_option autoImplicit false

/-!
# Evidence objects

The upload of evidence (`app/evidence.py`) and the collection of objects that nothing points to any
more (`app/evidence_gc.py`), with the object keys of `app/storage.py`. An upload streams its object
to the store without a transaction, then takes the lock of the organization row, checks everything
again and switches the pointer; when it is refused there, it rolls back and, without the lock, deletes
its object again. The collector locks the rows it selected, and the organizations of those it has
come to, until it commits.

An upload is split at its await points, a collection at its rows, and a push is one step, as it holds
the lock from its first query to its commit. Blob columns that none of these reads (the file name, the
type, the digest and the size) are left out, as is `last_error` of a collection row.

## Main definitions

* `VitrialSync.objectKeyFor` — `object_key_for`.
* `VitrialSync.initialCheck`, `VitrialSync.publish` — the two halves of `put_blob`.
* `VitrialSync.decideRow`, `VitrialSync.Collector` — `collect_due_evidence_gc`.
* `VitrialSync.EvidenceSystem`, `VitrialSync.EvidenceStep` — uploads, collections and pushes
  interleaved.
-/

namespace VitrialSync

open Python Program

/-! ### Object keys -/

/-- `char in "0123456789abcdef"`. -/
def isHexDigit (c : CodePoint) : Bool :=
  0x30 ≤ c.val && c.val ≤ 0x39 || 0x61 ≤ c.val && c.val ≤ 0x66

/-- `hashlib.sha256(text.encode()).hexdigest()`. -/
def textDigest (text : Str) : Str := Sha256.hexdigest (text.flatMap utf8)

/-- `object_key_for`. No character outside ASCII has a hexadecimal digit for its lower case. -/
def objectKeyFor (organizationId documentId sha256 : Str) : Except Exc Str :=
  let digest := sha256.map asciiLower
  if digest.length != 64 || digest.any fun c => !isHexDigit c then
    .error (.valueError (Str.ofString "invalid SHA-256 digest"))
  else
    .ok (Str.ofString "blobs/" ++ textDigest organizationId ++ Str.ofString "/" ++
      textDigest documentId ++ Str.ofString "/" ++ digest)

/-! ### Uploads -/

/-- `HTTPException`. -/
structure HttpError where
  status : ℕ
  detail : Str

/-- `str(exc)` of the exception of an ownership check. -/
def Exc.text : Exc → Str
  | authorizationRejected message => message
  | _ => []

/-- `_evidence_metadata`. -/
def evidenceMetadata (db : Db) (organizationId documentId : Str) : Option CanonicalItemChild :=
  db.itemChildren.get (organizationId, .evidence, documentId)

/-- `require_item_access`. -/
def requireItemAccess (db : Db) (principal : Principal) (itemId : Str)
    (capability : Option Capability) : Except Exc (CanonicalItem × CanonicalProject) := do
  match capability with
  | none => pure ()
  | some capability => Ownership.requireCapability principal capability
  Ownership.itemForScope db principal (EffectiveScope.fromPrincipal principal) itemId

/-- The access check of an upload. -/
def uploadAccess (db : Db) (principal : Principal) (itemId : Str) : Except HttpError Unit :=
  match requireItemAccess db principal itemId (some .itemEvidenceManage) with
  | .ok _ => .ok ()
  | .error e => .error ⟨403, e.text⟩

/-- The checks of `put_blob` before it streams. -/
def initialCheck (db : Db) (principal : Principal) (documentId itemId : Str) :
    Except HttpError Unit := do
  let initial := db.evidenceBlobs.get (principal.organizationId, documentId)
  raiseIf (initial.any fun blob => blob.itemId != itemId)
    ⟨409, Str.ofString "evidence ownership mismatch"⟩
  raiseIf ((evidenceMetadata db principal.organizationId documentId).any fun m =>
      m.deletedAt.isSome)
    ⟨409, Str.ofString "canonical evidence metadata is deleted"⟩
  uploadAccess db principal (initial.elim itemId EvidenceBlob.itemId)

/-- An object of the store: its provider and its key. -/
abbrev StoreKey := Str × Str

/-- What a blob row points to. -/
def EvidenceBlob.object (blob : EvidenceBlob) : StoreKey := (blob.storageProvider, blob.objectKey)

/-- What a collection row is about. -/
def EvidenceObjectGC.object (row : EvidenceObjectGC) : StoreKey :=
  (row.storageProvider, row.objectKey)

/-- The blob row that a collection row was made from. -/
def EvidenceObjectGC.key (row : EvidenceObjectGC) : OrgKey := (row.organizationId, row.documentId)

/-- A call of `put_blob` with its candidate. -/
structure Upload where
  principal : Principal
  documentId : Str
  itemId : Str
  object : StoreKey

/-- The row of an upload. -/
def Upload.key (u : Upload) : OrgKey := (u.principal.organizationId, u.documentId)

/-- The rows that `_cancel_gc_for_key` deletes. -/
def Upload.cancels (u : Upload) (row : EvidenceObjectGC) : Bool :=
  row.organizationId == u.principal.organizationId && row.object == u.object

/-- `_cancel_gc_for_key`. -/
def cancelGcForKey (u : Upload) (db : Db) : Db :=
  { db with evidenceGc := db.evidenceGc.filter fun row => !u.cancels row }

/-- The previous object is queued when the upload replaces it. -/
def queueReplaced (env : Env) (now : DateTime) (u : Upload) (db : Db) : Db :=
  match db.evidenceBlobs.get u.key with
  | none => db
  | some blob =>
    if blob.object != u.object then
      queueBlobGc env now u.principal.organizationId u.documentId blob (Str.ofString "replaced") db
    else db

/-- The writes of an upload: the previous object is queued, the pointer is set. -/
def switchPointer (env : Env) (now : DateTime) (u : Upload) (db : Db) : Db :=
  let queued := queueReplaced env now u db
  { queued with
    evidenceBlobs := queued.evidenceBlobs.set u.key
      { itemId := (db.evidenceBlobs.get u.key).elim u.itemId EvidenceBlob.itemId
        storageProvider := u.object.1
        objectKey := u.object.2 } }

/-- What an upload does under the lock: it rolls back and may have to discard its candidate, or it
commits. -/
inductive Publication where
  | refused (error : HttpError) (preserve : Bool)
  | committed (db : Db)

/-- `put_blob` from the lock of the organization row on; `stored` is what the store answers to
`exists`. -/
def publish (env : Env) (now : DateTime) (u : Upload) (stored : Bool) (db : Db) : Publication :=
  if (db.organizations.get u.principal.organizationId).isNone then
    .refused ⟨403, Str.ofString "organization unavailable"⟩ false
  else
    let model := db.evidenceBlobs.get u.key
    let candidateIsCanonical := model.any fun blob => blob.object == u.object
    if (evidenceMetadata db u.principal.organizationId u.documentId).any
        fun m => m.deletedAt.isSome then
      .refused ⟨409, Str.ofString "canonical evidence metadata is deleted"⟩ candidateIsCanonical
    else if model.any fun blob => blob.itemId != u.itemId then
      .refused ⟨409, Str.ofString "evidence ownership mismatch"⟩ candidateIsCanonical
    else
      let cancelled := cancelGcForKey u db
      if !stored then
        .refused ⟨503, Str.ofString "evidence object storage unavailable; retry the upload"⟩
          candidateIsCanonical
      else
        match uploadAccess cancelled u.principal (model.elim u.itemId EvidenceBlob.itemId) with
        | .error e => .refused e candidateIsCanonical
        | .ok _ => .committed (switchPointer env now u cancelled)

/-! ### Collection -/

/-- `_is_referenced`. -/
def isReferenced (db : Db) (organizationId documentId : Str) : Bool :=
  db.entities.any fun k e =>
    k.1 == organizationId && (k.2.1 == .measurement || k.2.1 == .customerRequirement) &&
      e.deletedAt.isNone && e.payloadJson.any fun p =>
        Ownership.listsReference p.items "evidenceReferences" documentId ||
          Ownership.listsReference p.items "evidenceReferenceIDs" documentId

/-- `_reschedule`. -/
def reschedule (cutoff : DateTime) (row : EvidenceObjectGC) : EvidenceObjectGC :=
  let attempts := row.attempts + 1
  { row with
    attempts
    notBefore := cutoff.addSeconds (min (300 * 2 ^ min (attempts - 1) 16) 3600) }

/-- What the collector does with a row. -/
inductive RowDecision where
  /-- The object is the current one of live evidence: the row goes. -/
  | live
  /-- The object is the current one of deleted evidence that is referenced: the row waits. -/
  | referenced
  /-- The object goes, with the row and, when it is the current one, the pointer. -/
  | reclaim (current : Bool)

/-- The decision of `collect_due_evidence_gc` about a row. -/
def decideRow (db : Db) (row : EvidenceObjectGC) : RowDecision :=
  let current := db.evidenceBlobs.get row.key
  let currentPointsToCandidate := current.any fun blob => blob.object == row.object
  if currentPointsToCandidate then
    if (evidenceMetadata db row.organizationId row.documentId).any fun m => m.deletedAt.isNone then
      .live
    else if isReferenced db row.organizationId row.documentId then .referenced
    else .reclaim true
  else .reclaim false

/-- A run of the collector: the rows it selected and locked, those it has not come to, the
organizations it has locked, and what it has written and not committed. -/
structure Collector where
  cutoff : DateTime
  dryRun : Bool
  rows : List EvidenceObjectGC
  todo : List EvidenceObjectGC
  locked : List Str
  removedBlobs : List OrgKey
  removedRows : List ℕ
  rescheduled : List EvidenceObjectGC

namespace Collector

/-- The tables as the transaction of the collector sees them. -/
def view (c : Collector) (db : Db) : Db :=
  { db with
    evidenceBlobs := db.evidenceBlobs.without c.removedBlobs
    evidenceGc := (db.evidenceGc.filter fun row => !c.removedRows.contains row.id).map fun row =>
      match c.rescheduled.find? fun r => r.id == row.id with
      | none => row
      | some r => { row with notBefore := r.notBefore, attempts := r.attempts } }

/-- The selection: due rows that no other run has locked, by id. -/
def start (cutoff : DateTime) (dryRun : Bool) (limit : ℤ) (lockedIds : List ℕ) (db : Db) :
    Collector :=
  let due := (db.evidenceGc.filter fun row =>
    row.notBefore.notAfter cutoff && !lockedIds.contains row.id).insertionSort fun a b => a.id ≤ b.id
  let rows := due.take (max 1 (min limit 1000)).toNat
  { cutoff, dryRun, rows
    todo := rows
    locked := []
    removedBlobs := []
    removedRows := []
    rescheduled := [] }

/-- One row: the organization is locked, and the decision is carried out unless it is a dry run. -/
def process (c : Collector) (row : EvidenceObjectGC) (rest : List EvidenceObjectGC)
    (decision : RowDecision) : Collector :=
  let next := { c with todo := rest, locked := row.organizationId :: c.locked }
  if c.dryRun then next
  else
    match decision with
    | .live => { next with removedRows := row.id :: c.removedRows }
    | .referenced => { next with rescheduled := reschedule c.cutoff row :: c.rescheduled }
    | .reclaim current =>
      { next with
        removedBlobs := if current then row.key :: c.removedBlobs else c.removedBlobs
        removedRows := row.id :: c.removedRows }

/-- Whether the collector deletes the object of a row. -/
def deletes (c : Collector) : RowDecision → Bool
  | .reclaim _ => !c.dryRun
  | _ => false

end Collector

/-! ### The system -/

/-- Where an upload stands. -/
inductive Phase where
  | checked
  | written
  | discarding
  deriving DecidableEq

/-- The committed tables, the objects of the stores, and the uploads and collections under way. -/
structure EvidenceSystem where
  db : Db
  objects : List StoreKey
  uploads : ℕ → Option (Upload × Phase)
  collectors : ℕ → Option Collector

/-- The lock of an organization row is not held by a collector. -/
def EvidenceSystem.Free (s : EvidenceSystem) (organizationId : Str) : Prop :=
  ∀ c st, s.collectors c = some st → organizationId ∉ st.locked

/-- The events of the system. -/
inductive EvidenceEvent where
  | check (n : ℕ) (upload : Upload)
  | write (n : ℕ)
  | publish (n : ℕ)
  | refuse (n : ℕ)
  | discard (n : ℕ)
  | abandon (n : ℕ)
  | select (c : ℕ)
  | collect (c : ℕ)
  | finish (c : ℕ)
  | push (input : PushInput)
  | other

/-- The steps of the system. -/
inductive EvidenceStep (env : Env) : EvidenceSystem → EvidenceEvent → EvidenceSystem → Prop
  /-- An upload passes the initial check. -/
  | check {s : EvidenceSystem} {n : ℕ} {u : Upload} {sha256 : Str} (hnew : s.uploads n = none)
      (hcheck : initialCheck s.db u.principal u.documentId u.itemId = .ok ())
      (hkey : objectKeyFor u.principal.organizationId u.documentId sha256 = .ok u.object.2) :
      EvidenceStep env s (.check n u)
        { s with uploads := Function.update s.uploads n (some (u, .checked)) }
  /-- `put_verified` returned. -/
  | write {s : EvidenceSystem} {n : ℕ} {u : Upload} (hu : s.uploads n = some (u, .checked)) :
      EvidenceStep env s (.write n)
        { s with
          objects := u.object :: s.objects
          uploads := Function.update s.uploads n (some (u, .written)) }
  /-- The pointer is committed. A row of the key that a collector has locked would have to be waited
  for. -/
  | publish {s : EvidenceSystem} {n : ℕ} {u : Upload} {db : Db} (now : DateTime)
      (hu : s.uploads n = some (u, .written)) (hlock : s.Free u.principal.organizationId)
      (hrows : ∀ c st, s.collectors c = some st → ∀ row ∈ st.rows, u.cancels row = false)
      (h : VitrialSync.publish env now u (s.objects.contains u.object) s.db = .committed db) :
      EvidenceStep env s (.publish n)
        { s with db, uploads := Function.update s.uploads n none }
  /-- The upload is refused under the lock and rolls back. -/
  | refuse {s : EvidenceSystem} {n : ℕ} {u : Upload} {error : HttpError} {preserve : Bool}
      (now : DateTime) (hu : s.uploads n = some (u, .written))
      (hlock : s.Free u.principal.organizationId)
      (h : VitrialSync.publish env now u (s.objects.contains u.object) s.db =
        .refused error preserve) :
      EvidenceStep env s (.refuse n)
        { s with
          uploads := Function.update s.uploads n (if preserve then none else some (u, .discarding)) }
  /-- `_discard_candidate`. -/
  | discard {s : EvidenceSystem} {n : ℕ} {u : Upload} (hu : s.uploads n = some (u, .discarding)) :
      EvidenceStep env s (.discard n)
        { s with
          objects := s.objects.filter fun o => o != u.object
          uploads := Function.update s.uploads n none }
  /-- A failed stream, or a client that is gone. -/
  | abandon {s : EvidenceSystem} {n : ℕ} {u : Upload × Phase} (hu : s.uploads n = some u) :
      EvidenceStep env s (.abandon n) { s with uploads := Function.update s.uploads n none }
  /-- A collector selects its rows, without those that another one has locked. -/
  | select {s : EvidenceSystem} {c : ℕ} (cutoff : DateTime) (dryRun : Bool) (limit : ℤ)
      (lockedIds : List ℕ) (hnew : s.collectors c = none)
      (hlocked : ∀ c' st, s.collectors c' = some st → ∀ row ∈ st.rows, row.id ∈ lockedIds) :
      EvidenceStep env s (.select c)
        { s with
          collectors := Function.update s.collectors c
            (some (Collector.start cutoff dryRun limit lockedIds s.db)) }
  /-- A collector comes to a row; its object is deleted at once. -/
  | collect {s : EvidenceSystem} {c : ℕ} {st : Collector} {row : EvidenceObjectGC}
      {rest : List EvidenceObjectGC} (hst : s.collectors c = some st) (htodo : st.todo = row :: rest)
      (hlock : ∀ c' st', c' ≠ c → s.collectors c' = some st' → row.organizationId ∉ st'.locked) :
      EvidenceStep env s (.collect c)
        { s with
          objects := if st.deletes (decideRow (st.view s.db) row) then
              s.objects.filter fun o => o != row.object
            else s.objects
          collectors := Function.update s.collectors c
            (some (st.process row rest (decideRow (st.view s.db) row))) }
  /-- A collector commits; a dry run has nothing to commit. -/
  | finish {s : EvidenceSystem} {c : ℕ} {st : Collector} (hst : s.collectors c = some st)
      (htodo : st.todo = []) :
      EvidenceStep env s (.finish c)
        { s with
          db := st.view s.db
          collectors := Function.update s.collectors c none }
  | push {s : EvidenceSystem} {db : Db} {report : PushReport} (input : PushInput)
      (hlock : s.Free input.principal.organizationId)
      (h : VitrialSync.push env s.db input = .ok (db, report)) :
      EvidenceStep env s (.push input) { s with db }
  /-- Whatever else happens in the service: no organization is deleted, and nothing else writes
  evidence rows or item children. -/
  | other {s : EvidenceSystem} (db : Db) (hblobs : db.evidenceBlobs = s.db.evidenceBlobs)
      (hgc : db.evidenceGc = s.db.evidenceGc) (hchildren : db.itemChildren = s.db.itemChildren)
      (horganizations : ∀ k, (s.db.organizations.get k).isSome → (db.organizations.get k).isSome) :
      EvidenceStep env s .other { s with db }

end VitrialSync
