import VitrialSync.Program.System
import VitrialSync.Server.Evidence
import VitrialSync.Server.Replay
import VitrialSync.Server.Writes

set_option relaxedAutoImplicit false
set_option autoImplicit false

/-!
# Evidence pointers

A committed blob row should point to an object that exists, unless the evidence is tombstoned. Under
the lock of the organization, an upload checks that its object exists before it commits the pointer,
and the collector keeps the objects that live evidence points to. But an upload that was refused
deletes its candidate after it has released the lock, and keys are made from the content: another
upload of the same content may have committed its pointer in between. The pointers are sound in every
interleaving in which no pointer is committed while an upload waits to discard the same object.

## Main definitions

* `VitrialSync.EvidenceSystem.NoDangling` — committed pointers of evidence that is not tombstoned.
* `VitrialSync.Orderly` — the condition on a step.
* `VitrialSync.EvidenceSystem.Sound` — the invariant.

## Main results

* `VitrialSync.evidencePointers_noDangling` — the condition is enough in every interleaving.
* `VitrialSync.evidencePointers_dangling` — without it a pointer may dangle.
-/

namespace VitrialSync

open Python Program

/-! ### What a push does to evidence -/

/-- What pushes of an organization leave of the evidence tables: blobs are not written, item children
of other organizations neither, and no child is lost; a new collection row is about the current object
of evidence whose child is there. -/
structure EvidenceKept (org : Str) (db db' : Db) : Prop where
  blobs : db'.evidenceBlobs = db.evidenceBlobs
  organizations : ∀ k, (db.organizations.get k).isSome → (db'.organizations.get k).isSome
  others : ∀ k, k.1 ≠ org → db'.itemChildren.get k = db.itemChildren.get k
  present : ∀ k, (db.itemChildren.get k).isSome → (db'.itemChildren.get k).isSome
  queue : ∃ new, db'.evidenceGc = db.evidenceGc ++ new ∧ ∀ row ∈ new, ∃ blob,
    db.evidenceBlobs.get row.key = some blob ∧ row.object = blob.object ∧
      (db'.itemChildren.get (row.organizationId, .evidence, row.documentId)).isSome

namespace EvidenceKept

variable {org : Str}

/-- Nothing has changed. -/
lemma refl (db : Db) : EvidenceKept org db db :=
  ⟨rfl, fun _ h => h, fun _ _ => rfl, fun _ h => h, [], (List.append_nil _).symm, by simp⟩

/-- One after the other. -/
lemma trans {db₁ db₂ db₃ : Db} (h₁ : EvidenceKept org db₁ db₂) (h₂ : EvidenceKept org db₂ db₃) :
    EvidenceKept org db₁ db₃ := by
  refine ⟨h₂.blobs.trans h₁.blobs, fun k hk => h₂.organizations k (h₁.organizations k hk),
    fun k hk => (h₂.others k hk).trans (h₁.others k hk),
    fun k hk => h₂.present k (h₁.present k hk), ?_⟩
  obtain ⟨new₁, hnew₁, hrows₁⟩ := h₁.queue
  obtain ⟨new₂, hnew₂, hrows₂⟩ := h₂.queue
  refine ⟨new₁ ++ new₂, by rw [hnew₂, hnew₁, List.append_assoc],
    List.forall_mem_append.mpr ⟨fun row hrow => ?_, fun row hrow => ?_⟩⟩
  · obtain ⟨blob, hblob, hobject, hchild⟩ := hrows₁ row hrow
    exact ⟨blob, hblob, hobject, h₂.present _ hchild⟩
  · obtain ⟨blob, hblob, hobject, hchild⟩ := hrows₂ row hrow
    exact ⟨blob, h₁.blobs ▸ hblob, hobject, hchild⟩

end EvidenceKept

/-- Applying an authorization writes no blob and no collection row. -/
lemma applied_evidence (principal : Principal) (record : SyncRecord) (w : Working)
    (grant : Authorized) :
    (grant.apply principal record w).2.db.evidenceBlobs = w.db.evidenceBlobs ∧
      (grant.apply principal record w).2.db.evidenceGc = w.db.evidenceGc := by
  have hgrant : ∀ (customerId projectId : Option Str) (w : Working),
      (Ownership.grantCreatedScope principal customerId projectId w).2.db.evidenceBlobs =
          w.db.evidenceBlobs ∧
        (Ownership.grantCreatedScope principal customerId projectId w).2.db.evidenceGc =
          w.db.evidenceGc := by
    intro customerId projectId w
    unfold Ownership.grantCreatedScope
    split
    · split_ifs <;> exact ⟨rfl, rfl⟩
    · exact ⟨rfl, rfl⟩
  have h := apply_application principal record w grant
  generalize grant.apply principal record w = applied at h ⊢
  cases h with
  | raised e => exact ⟨rfl, rfl⟩
  | written c => exact ⟨rfl, rfl⟩
  | customer plan _ htype hnew => exact hgrant _ _ _
  | project plan customerId _ htype hnew => exact hgrant _ _ _

/-- A canonical write of an organization leaves the item children of others alone and loses none. -/
lemma CanonicalWrite.itemChildren {org : Str} {entityType : EntityType} {id : Str}
    {deletedAt : Option DateTime} {c c' : Canonical}
    (h : CanonicalWrite org entityType id deletedAt c c') :
    (∀ k, k.1 ≠ org → c'.itemChildren.get k = c.itemChildren.get k) ∧
      ∀ k, (c.itemChildren.get k).isSome → (c'.itemChildren.get k).isSome := by
  cases h with
  | itemChild itemId htype hparent =>
    refine ⟨fun k hk => Table.get_set_of_ne _ _ ?_, fun k hk => ?_⟩
    · rintro rfl
      exact hk rfl
    · by_cases heq : k = (org, entityType, id)
      · rw [heq, Table.get_set_self]
        rfl
      · rwa [Table.get_set_of_ne _ _ heq]
  | _ => exact ⟨fun _ _ => rfl, fun _ hk => hk⟩

/-- A tombstone that was admitted is of evidence with a canonical child. -/
lemma Admitted.evidence_present {env : Env} {principal : Principal} {w w' : Working}
    {record : SyncRecord} {payload : Payload} {grant : Authorized}
    (h : Admitted env principal w record payload grant w') (htype : record.entityType = .evidence)
    (hdeleted : record.deletedAt.isSome) :
    (w.db.itemChildren.get (principal.organizationId, .evidence, record.entityID.text)).isSome := by
  obtain ⟨-, -, ⟨hdelivery, -⟩ | ⟨-, -, plan, hplan, -⟩⟩ := authorize_eq_ok_iff.mp h.authorized
  · rw [htype] at hdelivery
    cases hdelivery
  · rw [htype] at hplan
    simp only [Ownership.authorizeRecord, Ownership.authorizeItemChild, bind_eq_ok, raiseIf_eq_ok]
      at hplan
    obtain ⟨-, -, -, -, -, -, -, hknown, -⟩ := hplan
    rw [hdeleted, Bool.and_true, Option.isNone_eq_false_iff] at hknown
    exact hknown

/-- What queueing does to the evidence tables. -/
lemma queueEvidenceGc_evidence (env : Env) (now : DateTime) (principal : Principal)
    (record : SyncRecord) (w : Working) :
    (queueEvidenceGc env now principal record w).db.evidenceBlobs = w.db.evidenceBlobs ∧
      ∃ new, (queueEvidenceGc env now principal record w).db.evidenceGc = w.db.evidenceGc ++ new ∧
        ∀ row ∈ new, record.entityType = .evidence ∧ record.deletedAt.isSome ∧
          row.organizationId = principal.organizationId ∧ row.documentId = record.entityID.text ∧
          ∃ blob, w.db.evidenceBlobs.get row.key = some blob ∧ row.object = blob.object := by
  unfold queueEvidenceGc
  split_ifs with htombstone
  · split
    · exact ⟨rfl, [], (List.append_nil _).symm, by simp⟩
    · rename_i blob hblob
      refine ⟨rfl, _, rfl, fun row hrow => ?_⟩
      obtain rfl := List.mem_singleton.mp hrow
      exact ⟨htombstone.1, htombstone.2, rfl, rfl, blob, hblob, rfl⟩
  · exact ⟨rfl, [], (List.append_nil _).symm, by simp⟩

/-- **Step.** What a settled record leaves of the evidence tables.

**Proof sketch.** By the five ways a record is settled; only the tombstone of evidence that is
admitted queues a row, and its child is there. -/
lemma RecordStep.Valid.evidenceKept {env : Env} {s : RecordStep} (h : s.Valid env) :
    EvidenceKept s.input.principal.organizationId s.before.db s.after.db := by
  have hwrite := h.canonicalWrite.itemChildren
  have hremembers := h.remembers
  obtain ⟨input, before, record, after, outcome⟩ := s
  have hsettles := h.settles
  dsimp only [Db.canonical] at hsettles hwrite hremembers ⊢
  suffices hevidence : after.db.evidenceBlobs = before.db.evidenceBlobs ∧
      ∃ new, after.db.evidenceGc = before.db.evidenceGc ++ new ∧ ∀ row ∈ new,
        (∃ blob, before.db.evidenceBlobs.get row.key = some blob ∧ row.object = blob.object) ∧
        (before.db.itemChildren.get (row.organizationId, .evidence, row.documentId)).isSome by
    obtain ⟨hblobs, new, hnew, hrows⟩ := hevidence
    refine ⟨hblobs, hremembers.organizations, hwrite.1, hwrite.2, new, hnew, fun row hrow => ?_⟩
    obtain ⟨⟨blob, hblob, hobject⟩, hchild⟩ := hrows row hrow
    exact ⟨blob, hblob, hobject, hwrite.2 _ hchild⟩
  cases hsettles with
  | unnamed hm => exact ⟨rfl, [], (List.append_nil _).symm, by simp⟩
  | answered hm hp => exact ⟨rfl, [], (List.append_nil _).symm, by simp⟩
  | stale hm hp hs => exact ⟨rfl, [], (List.append_nil _).symm, by simp⟩
  | refused hm hp hs ha hc =>
    rename_i mutationId e w'
    have hkept : w'.db.evidenceBlobs = before.db.evidenceBlobs ∧
        w'.db.evidenceGc = before.db.evidenceGc := by
      rcases attempt_eq_error ha with rfl | ⟨payload, grant, -, -, happly⟩
      · exact ⟨rfl, rfl⟩
      · have happlied := applied_evidence input.principal record before grant
        rwa [happly] at happlied
    exact ⟨hkept.1, [], by rw [List.append_nil]; exact hkept.2, by simp⟩
  | committed hm hp hs ha =>
    rename_i mutationId payload w'
    obtain ⟨grant, w₁, hadmitted, rfl⟩ := attempt_eq_ok ha
    have happlied := applied_evidence input.principal record before grant
    rw [hadmitted.applied] at happlied
    obtain ⟨hblobs, new, hnew, hrows⟩ :=
      queueEvidenceGc_evidence env input.now input.principal record w₁
    refine ⟨hblobs.trans happlied.1, new, hnew.trans (by rw [happlied.2]), fun row hrow => ?_⟩
    obtain ⟨htype, hdeleted, horg, hdocument, blob, hblob, hobject⟩ := hrows row hrow
    refine ⟨⟨blob, happlied.1 ▸ hblob, hobject⟩, ?_⟩
    rw [horg, hdocument]
    exact hadmitted.evidence_present htype hdeleted

/-- **Push.** What a push leaves of the evidence tables. -/
theorem push_evidenceKept {env : Env} {db db' : Db} {input : PushInput} {report : PushReport}
    (h : push env db input = .ok (db', report)) :
    EvidenceKept input.principal.organizationId db db' := by
  refine push_inv (I := EvidenceKept input.principal.organizationId db) h (.refl db)
    fun s hs hbefore => hbefore.trans ?_
  obtain ⟨hvalid, rfl⟩ := pushSteps_valid hs
  exact hvalid.evidenceKept

/-! ### The invariant -/

/-- Committed pointers of evidence whose metadata is not tombstoned are to objects that exist. -/
def EvidenceSystem.NoDangling (s : EvidenceSystem) : Prop :=
  ∀ k blob, s.db.evidenceBlobs.get k = some blob →
    (∀ child, evidenceMetadata s.db k.1 k.2 = some child → child.deletedAt = none) →
    blob.object ∈ s.objects

/-- No two of the documents get the same object key: SHA-256 has no collision on the identifiers. -/
def KeysDistinct (ids : List OrgKey) : Prop :=
  ∀ k ∈ ids, ∀ k' ∈ ids, ∀ sha sha' key, objectKeyFor k.1 k.2 sha = .ok key →
    objectKeyFor k'.1 k'.2 sha' = .ok key → k = k'

/-- The condition on a step: uploads are of the given documents, and no pointer is committed while an
upload that was refused waits to discard the same object. -/
def Orderly (ids : List OrgKey) (s : EvidenceSystem) : EvidenceEvent → Prop
  | .check _ u => u.key ∈ ids
  | .publish n => ∀ u phase, s.uploads n = some (u, phase) → ∀ m u',
      s.uploads m = some (u', .discarding) → u'.object ≠ u.object
  | _ => True

/-- An object with the key of a document. -/
def Keyed (ids : List OrgKey) (k : OrgKey) (object : StoreKey) : Prop :=
  k ∈ ids ∧ ∃ sha, objectKeyFor k.1 k.2 sha = .ok object.2

/-- An object belongs to one document. -/
lemma Keyed.eq {ids : List OrgKey} (hids : KeysDistinct ids) {k k' : OrgKey} {object : StoreKey}
    (h : Keyed ids k object) (h' : Keyed ids k' object) : k = k' := by
  obtain ⟨hk, sha, hsha⟩ := h
  obtain ⟨hk', sha', hsha'⟩ := h'
  exact hids k hk k' hk' sha sha' _ hsha hsha'

/-- What holds of a collector that is under way: the rows it has not come to are still there, what it
has written is about rows it has locked, and the evidence whose pointer it deletes is tombstoned and
its organization locked. -/
structure Collector.Sound (st : Collector) (db : Db) : Prop where
  todo : ∀ row ∈ st.todo, row ∈ db.evidenceGc ∧ row ∈ st.rows
  touched : ∀ id, id ∈ st.removedRows ∨ id ∈ st.rescheduled.map EvidenceObjectGC.id →
    ∃ row ∈ st.rows, row.id = id
  removed : ∀ k ∈ st.removedBlobs, k.1 ∈ st.locked ∧
    ∃ child, evidenceMetadata db k.1 k.2 = some child ∧ child.deletedAt ≠ none

/-- **Invariant.** Every committed pointer is to an object that exists, or a collector is about to
delete the pointer; no upload waits to discard an object that is pointed to. -/
structure EvidenceSystem.Sound (ids : List OrgKey) (s : EvidenceSystem) : Prop where
  stored : ∀ k blob, s.db.evidenceBlobs.get k = some blob →
    blob.object ∈ s.objects ∨ ∃ c st, s.collectors c = some st ∧ k ∈ st.removedBlobs
  queued : ∀ row ∈ s.db.evidenceGc, ∀ blob, s.db.evidenceBlobs.get row.key = some blob →
    blob.object = row.object →
      (evidenceMetadata s.db row.organizationId row.documentId).isSome
  organizations : ∀ k blob, s.db.evidenceBlobs.get k = some blob →
    (s.db.organizations.get k.1).isSome
  blobKeys : ∀ k blob, s.db.evidenceBlobs.get k = some blob → Keyed ids k blob.object
  rowKeys : ∀ row ∈ s.db.evidenceGc, Keyed ids row.key row.object
  uploadKeys : ∀ n u phase, s.uploads n = some (u, phase) → Keyed ids u.key u.object
  discarding : ∀ n u, s.uploads n = some (u, .discarding) → ∀ k blob,
    s.db.evidenceBlobs.get k = some blob → blob.object ≠ u.object
  collectors : ∀ c st, s.collectors c = some st → st.Sound s.db
  apart : ∀ c c' st st', s.collectors c = some st → s.collectors c' = some st' → c ≠ c' →
    ∀ row ∈ st.rows, ∀ row' ∈ st'.rows, row.id ≠ row'.id

/-- The invariant gives the property. -/
lemma EvidenceSystem.Sound.noDangling {ids : List OrgKey} {s : EvidenceSystem} (h : s.Sound ids) :
    s.NoDangling := by
  intro k blob hblob hlive
  refine (h.stored k blob hblob).resolve_right ?_
  rintro ⟨c, st, hst, hk⟩
  obtain ⟨-, child, hchild, hdeleted⟩ := (h.collectors c st hst).removed k hk
  exact hdeleted (hlive child hchild)

/-- What a map finds after an update. -/
lemma update_eq_some {α : Type} {f : ℕ → Option α} {n m : ℕ} {v : Option α} {a : α}
    (h : Function.update f n v m = some a) : m = n ∧ v = some a ∨ m ≠ n ∧ f m = some a := by
  by_cases hm : m = n
  · subst hm
    exact Or.inl ⟨rfl, by simpa using h⟩
  · rw [Function.update_of_ne hm] at h
    exact Or.inr ⟨hm, h⟩

namespace EvidenceSystem.Sound

variable {ids : List OrgKey} {s : EvidenceSystem}

/-- An upload moves on. -/
lemma setUpload (h : s.Sound ids) (n : ℕ) (v : Option (Upload × Phase))
    (hkeys : ∀ u phase, v = some (u, phase) → Keyed ids u.key u.object)
    (hdiscarding : ∀ u, v = some (u, .discarding) → ∀ k blob,
      s.db.evidenceBlobs.get k = some blob → blob.object ≠ u.object) :
    EvidenceSystem.Sound ids { s with uploads := Function.update s.uploads n v } := by
  refine ⟨h.stored, h.queued, h.organizations, h.blobKeys, h.rowKeys, ?_, ?_, h.collectors,
    h.apart⟩
  · intro m u phase hu
    rcases update_eq_some hu with ⟨-, hv⟩ | ⟨-, hu⟩
    · exact hkeys u phase hv
    · exact h.uploadKeys m u phase hu
  · intro m u hu
    rcases update_eq_some hu with ⟨-, hv⟩ | ⟨-, hu⟩
    · exact hdiscarding u hv
    · exact h.discarding m u hu

/-- Objects come and go, but those that are pointed to stay, unless a collector is about to delete the
pointer. -/
lemma setObjects (h : s.Sound ids) (objects : List StoreKey)
    (hstored : ∀ k blob, s.db.evidenceBlobs.get k = some blob → blob.object ∈ s.objects →
      blob.object ∈ objects ∨ ∃ c st, s.collectors c = some st ∧ k ∈ st.removedBlobs) :
    EvidenceSystem.Sound ids { s with objects } := by
  refine ⟨fun k blob hblob => ?_, h.queued, h.organizations, h.blobKeys, h.rowKeys, h.uploadKeys,
    h.discarding, h.collectors, h.apart⟩
  exact (h.stored k blob hblob).elim (hstored k blob hblob) Or.inr

/-- A collector starts or moves on: it keeps its intentions. -/
lemma setCollector (h : s.Sound ids) (c : ℕ) (st : Collector) (hst : st.Sound s.db)
    (hkept : ∀ old, s.collectors c = some old → old.removedBlobs ⊆ st.removedBlobs)
    (hapart : ∀ c' st', c' ≠ c → s.collectors c' = some st' → ∀ row ∈ st.rows,
      ∀ row' ∈ st'.rows, row.id ≠ row'.id) :
    EvidenceSystem.Sound ids { s with collectors := Function.update s.collectors c (some st) } := by
  refine ⟨fun k blob hblob => ?_, h.queued, h.organizations, h.blobKeys, h.rowKeys, h.uploadKeys,
    h.discarding, fun c' st' hst' => ?_, fun c₁ c₂ st₁ st₂ h₁ h₂ hne => ?_⟩
  · rcases h.stored k blob hblob with hobject | ⟨c', st', hst', hk⟩
    · exact Or.inl hobject
    · by_cases hc : c' = c
      · subst hc
        exact Or.inr ⟨c', st, by simp, hkept st' hst' hk⟩
      · exact Or.inr ⟨c', st', by simpa [Function.update_of_ne hc] using hst', hk⟩
  · rcases update_eq_some hst' with ⟨-, hv⟩ | ⟨-, hst'⟩
    · obtain rfl := Option.some.inj hv
      exact hst
    · exact h.collectors c' st' hst'
  · rcases update_eq_some h₁ with ⟨rfl, hv₁⟩ | ⟨hc₁, hst₁⟩
    · obtain rfl := Option.some.inj hv₁
      rcases update_eq_some h₂ with ⟨rfl, -⟩ | ⟨hc₂, hst₂⟩
      · exact absurd rfl hne
      · exact hapart c₂ st₂ hc₂ hst₂
    · rcases update_eq_some h₂ with ⟨rfl, hv₂⟩ | ⟨hc₂, hst₂⟩
      · obtain rfl := Option.some.inj hv₂
        intro row hrow row' hrow' heq
        exact hapart c₁ st₁ hc₁ hst₁ row' hrow' row hrow heq.symm
      · exact h.apart c₁ c₂ st₁ st₂ hst₁ hst₂ hne

end EvidenceSystem.Sound

/-! ### Uploads -/

section Uploads

variable {env : Env} {now : DateTime} {u : Upload} {stored : Bool} {db db' : Db}

/-- The row that an upload writes. -/
def Upload.blob (u : Upload) (itemId : Str) : EvidenceBlob := ⟨itemId, u.object.1, u.object.2⟩

/-- What an upload that committed has checked and written. -/
structure Published (u : Upload) (stored : Bool) (db db' : Db) : Prop where
  stored : stored = true
  organization : (db.organizations.get u.principal.organizationId).isSome
  organizations : db'.organizations = db.organizations
  children : db'.itemChildren = db.itemChildren
  blobs : ∃ itemId, db'.evidenceBlobs = db.evidenceBlobs.set u.key (u.blob itemId)
  queue : ∃ new, db'.evidenceGc = db.evidenceGc.filter (fun row => !u.cancels row) ++ new ∧
    ∀ row ∈ new, row.key = u.key ∧ row.object ≠ u.object ∧
      ∃ blob, db.evidenceBlobs.get u.key = some blob ∧ row.object = blob.object

variable (env now u) in
/-- The writes of an upload. -/
lemma switchPointer_published (horg : (db.organizations.get u.principal.organizationId).isSome) :
    Published u true db (switchPointer env now u (cancelGcForKey u db)) := by
  simp only [switchPointer, queueReplaced]
  split
  · exact ⟨rfl, horg, rfl, rfl, ⟨_, rfl⟩, [], (List.append_nil _).symm, by simp⟩
  · rename_i blob hmodel
    split_ifs with hsame
    · refine ⟨rfl, horg, rfl, rfl, ⟨_, rfl⟩, _, rfl, fun row hrow => ?_⟩
      obtain rfl := List.mem_singleton.mp hrow
      exact ⟨rfl, (bne_iff_ne.mp hsame : blob.object ≠ u.object), blob, hmodel, rfl⟩
    · exact ⟨rfl, horg, rfl, rfl, ⟨_, rfl⟩, [], (List.append_nil _).symm, by simp⟩

/-- Inversion of an upload that committed. -/
lemma publish_eq_committed (h : publish env now u stored db = .committed db') :
    Published u stored db db' := by
  simp only [publish] at h
  split_ifs at h with horg hdeleted hitem hstored
  rw [Bool.not_eq_true, Bool.not_eq_false'] at hstored
  split at h
  · cases h
  · cases h
    rw [hstored]
    exact switchPointer_published _ _ _ (by simpa [Option.isSome_iff_ne_none] using horg)

/-- An upload that has to discard its candidate found no organization, or a pointer to something
else. -/
lemma publish_eq_refused {error : HttpError}
    (h : publish env now u stored db = .refused error false) :
    db.organizations.get u.principal.organizationId = none ∨
      ∀ blob, db.evidenceBlobs.get u.key = some blob → blob.object ≠ u.object := by
  have hpreserve : ∀ {b : Bool}, b = false → (b = (db.evidenceBlobs.get u.key).any
      fun blob => blob.object == u.object) → ∀ blob, db.evidenceBlobs.get u.key = some blob →
        blob.object ≠ u.object := by
    rintro b rfl hb blob hblob heq
    rw [hblob, Option.any_some, heq, beq_self_eq_true] at hb
    cases hb
  simp only [publish] at h
  split_ifs at h with horg hdeleted hitem hstored
  · exact Or.inl (by simpa using horg)
  · simp only [Publication.refused.injEq] at h
    exact Or.inr (hpreserve rfl h.2.symm)
  · simp only [Publication.refused.injEq] at h
    exact Or.inr (hpreserve rfl h.2.symm)
  · simp only [Publication.refused.injEq] at h
    exact Or.inr (hpreserve rfl h.2.symm)
  · split at h
    · simp only [Publication.refused.injEq] at h
      exact Or.inr (hpreserve rfl h.2.symm)
    · cases h

end Uploads

namespace EvidenceSystem.Sound

variable {ids : List OrgKey} {s : EvidenceSystem}

/-- An upload commits its pointer.

**Proof sketch.** The object exists, and no upload waits to discard it. The rows that are about it are
cancelled; a new row is about the previous object. The collectors have locked neither these rows nor
the organization. -/
lemma publish (h : s.Sound ids) {n : ℕ} {u : Upload} {db : Db}
    (hu : s.uploads n = some (u, .written))
    (hrows : ∀ c st, s.collectors c = some st → ∀ row ∈ st.rows, u.cancels row = false)
    (hpublished : Published u (s.objects.contains u.object) s.db db)
    (horderly : ∀ m u', s.uploads m = some (u', .discarding) → u'.object ≠ u.object) :
    EvidenceSystem.Sound ids { s with db } := by
  obtain ⟨hstored, horg, horganizations, hchildren, ⟨itemId, hblobs⟩, new, hqueue, hnew⟩ :=
    hpublished
  have hobject : u.object ∈ s.objects := by simpa using hstored
  have hkeyed := h.uploadKeys n u _ hu
  have hmetadata : ∀ org doc, evidenceMetadata db org doc = evidenceMetadata s.db org doc := by
    intro org doc
    rw [evidenceMetadata, evidenceMetadata, hchildren]
  refine ⟨?_, ?_, ?_, ?_, ?_, h.uploadKeys, ?_, ?_, h.apart⟩
  · intro k blob hblob
    rw [hblobs] at hblob
    rcases Table.get_set_eq_some hblob with ⟨-, rfl⟩ | ⟨-, hblob⟩
    · exact Or.inl hobject
    · exact h.stored k blob hblob
  · intro row hrow blob hblob hsame
    rw [hmetadata]
    rw [hqueue, List.mem_append] at hrow
    rw [hblobs] at hblob
    rcases Table.get_set_eq_some hblob with ⟨hkey, rfl⟩ | ⟨hkey, hblob⟩
    · rcases hrow with hrow | hrow
      · have hcancels : u.cancels row = true := by
          have horg : row.organizationId = u.principal.organizationId := congrArg Prod.fst hkey
          have hsame' : row.object = u.object := hsame.symm
          simp [Upload.cancels, horg, hsame']
        simp [hcancels] at hrow
      · exact absurd hsame.symm (hnew row hrow).2.1
    · rcases hrow with hrow | hrow
      · exact h.queued row (List.mem_of_mem_filter hrow) blob hblob hsame
      · exact absurd (hnew row hrow).1 hkey
  · intro k blob hblob
    rw [horganizations]
    rw [hblobs] at hblob
    rcases Table.get_set_eq_some hblob with ⟨rfl, -⟩ | ⟨-, hblob⟩
    · exact horg
    · exact h.organizations k blob hblob
  · intro k blob hblob
    rw [hblobs] at hblob
    rcases Table.get_set_eq_some hblob with ⟨rfl, rfl⟩ | ⟨-, hblob⟩
    · exact hkeyed
    · exact h.blobKeys k blob hblob
  · intro row hrow
    rw [hqueue, List.mem_append] at hrow
    rcases hrow with hrow | hrow
    · exact h.rowKeys row (List.mem_of_mem_filter hrow)
    · obtain ⟨hkey, -, blob, hblob, hobject⟩ := hnew row hrow
      rw [hkey, hobject]
      exact h.blobKeys _ blob hblob
  · intro m u' hu' k blob hblob
    rw [hblobs] at hblob
    rcases Table.get_set_eq_some hblob with ⟨-, rfl⟩ | ⟨-, hblob⟩
    · exact (horderly m u' hu').symm
    · exact h.discarding m u' hu' k blob hblob
  · intro c st hst
    obtain ⟨htodo, htouched, hremoved⟩ := h.collectors c st hst
    refine ⟨fun row hrow => ⟨?_, (htodo row hrow).2⟩, htouched, fun k hk => ?_⟩
    · rw [hqueue]
      refine List.mem_append_left _ (List.mem_filter.mpr ⟨(htodo row hrow).1, ?_⟩)
      rw [hrows c st hst row (htodo row hrow).2]
      rfl
    · rw [hmetadata]
      exact hremoved k hk

/-- An upload that has to discard its candidate is not pointed to. -/
lemma refused (h : s.Sound ids) (hids : KeysDistinct ids) {n : ℕ} {u : Upload} {phase : Phase}
    (hu : s.uploads n = some (u, phase))
    (hrefused : s.db.organizations.get u.principal.organizationId = none ∨
      ∀ blob, s.db.evidenceBlobs.get u.key = some blob → blob.object ≠ u.object) :
    ∀ k blob, s.db.evidenceBlobs.get k = some blob → blob.object ≠ u.object := by
  intro k blob hblob hsame
  have hkey : k = u.key :=
    Keyed.eq hids (h.blobKeys k blob hblob) (hsame ▸ h.uploadKeys n u phase hu)
  subst hkey
  rcases hrefused with hnone | hother
  · have horg := h.organizations _ blob hblob
    have hnone' : s.db.organizations.get u.key.1 = none := hnone
    rw [hnone'] at horg
    cases horg
  · exact hother blob hblob hsame

end EvidenceSystem.Sound

/-! ### Collectors -/

/-- When the collector deletes the object of a row, either the evidence does not point to it, or its
metadata is not live. -/
lemma decideRow_eq_reclaim {db : Db} {row : EvidenceObjectGC} {current : Bool}
    (h : decideRow db row = .reclaim current) :
    (current = false → ∀ blob, db.evidenceBlobs.get row.key = some blob →
      blob.object ≠ row.object) ∧
    (current = true → (∃ blob, db.evidenceBlobs.get row.key = some blob ∧
        blob.object = row.object) ∧
      ∀ child, evidenceMetadata db row.organizationId row.documentId = some child →
        child.deletedAt ≠ none) := by
  simp only [decideRow] at h
  split_ifs at h with hpoints hlive hreferenced
  · cases h
    refine ⟨by simp, fun _ => ⟨?_, fun child hchild hnone => hlive ?_⟩⟩
    · rw [Option.any_eq_true] at hpoints
      obtain ⟨blob, hblob, hsame⟩ := hpoints
      exact ⟨blob, hblob, by simpa using hsame⟩
    · rw [hchild, Option.any_some, hnone]
      rfl
  · cases h
    refine ⟨fun _ blob hblob hsame => hpoints ?_, by simp⟩
    rw [hblob, Option.any_some, hsame, beq_self_eq_true]

/-- What a collector writes for a row. -/
lemma Collector.Sound.process {st : Collector} {db : Db} (h : st.Sound db) {row : EvidenceObjectGC}
    {rest : List EvidenceObjectGC} (htodo : st.todo = row :: rest) {decision : RowDecision}
    (hcurrent : decision = .reclaim true → ∃ child,
      evidenceMetadata db row.organizationId row.documentId = some child ∧
        child.deletedAt ≠ none) :
    (st.process row rest decision).Sound db ∧
      (st.process row rest decision).rows = st.rows ∧
      st.removedBlobs ⊆ (st.process row rest decision).removedBlobs ∧
      (st.deletes decision = true → decision = .reclaim true →
        row.key ∈ (st.process row rest decision).removedBlobs) := by
  have hrest : ∀ r ∈ rest, r ∈ db.evidenceGc ∧ r ∈ st.rows :=
    fun r hr => h.todo r (htodo ▸ List.mem_cons_of_mem _ hr)
  have hrow := (h.todo row (htodo ▸ List.mem_cons_self)).2
  have hlocked : ∀ k ∈ st.removedBlobs, k.1 ∈ row.organizationId :: st.locked ∧
      ∃ child, evidenceMetadata db k.1 k.2 = some child ∧ child.deletedAt ≠ none :=
    fun k hk => ⟨List.mem_cons_of_mem _ (h.removed k hk).1, (h.removed k hk).2⟩
  have hmore : ∀ id, (id = row.id ∨ id ∈ st.removedRows) ∨
      id ∈ st.rescheduled.map EvidenceObjectGC.id → ∃ r ∈ st.rows, r.id = id := by
    rintro id ((rfl | hid) | hid)
    · exact ⟨row, hrow, rfl⟩
    · exact h.touched id (Or.inl hid)
    · exact h.touched id (Or.inr hid)
  cases hdry : st.dryRun with
  | true =>
    simp only [Collector.process, Collector.deletes, hdry, ↓reduceIte]
    refine ⟨⟨hrest, h.touched, hlocked⟩, trivial, List.Subset.refl _, ?_⟩
    rintro hdeletes rfl
    cases hdeletes
  | false =>
    cases decision with
    | live =>
      simp only [Collector.process, hdry, Bool.false_eq_true, ↓reduceIte]
      refine ⟨⟨hrest, fun id hid => hmore id ?_, hlocked⟩, trivial, List.Subset.refl _, by simp⟩
      simpa using hid
    | referenced =>
      simp only [Collector.process, hdry, Bool.false_eq_true, ↓reduceIte]
      refine ⟨⟨hrest, fun id hid => hmore id ?_, hlocked⟩, trivial, List.Subset.refl _, by simp⟩
      rcases hid with hid | hid
      · exact Or.inl (Or.inr hid)
      · rw [List.map_cons, List.mem_cons] at hid
        exact hid.imp_left Or.inl
    | reclaim current =>
      simp only [Collector.process, hdry, Bool.false_eq_true, ↓reduceIte]
      cases current with
      | false =>
        refine ⟨⟨hrest, fun id hid => hmore id ?_, hlocked⟩, trivial, List.Subset.refl _, by simp⟩
        simpa using hid
      | true =>
        refine ⟨⟨hrest, fun id hid => hmore id ?_, ?_⟩, trivial, List.subset_cons_self _ _,
          fun _ _ => List.mem_cons_self⟩
        · simpa using hid
        · exact List.forall_mem_cons.mpr ⟨⟨List.mem_cons_self, hcurrent rfl⟩, hlocked⟩

/-- The rows of the view of a collector are rows of the tables, up to their schedule. -/
lemma Collector.mem_view_gc {st : Collector} {db : Db} {row : EvidenceObjectGC}
    (h : row ∈ (st.view db).evidenceGc) :
    ∃ old ∈ db.evidenceGc, row.organizationId = old.organizationId ∧
      row.documentId = old.documentId ∧ row.object = old.object := by
  obtain ⟨old, hold, rfl⟩ := List.mem_map.mp h
  refine ⟨old, List.mem_of_mem_filter hold, ?_⟩
  split <;> exact ⟨rfl, rfl, rfl⟩

/-- A row that the collector has not touched is in its view. -/
lemma Collector.mem_view_of_untouched {st : Collector} {db : Db} {row : EvidenceObjectGC}
    (h : row ∈ db.evidenceGc)
    (huntouched : row.id ∉ st.removedRows ∧ row.id ∉ st.rescheduled.map EvidenceObjectGC.id) :
    row ∈ (st.view db).evidenceGc := by
  refine List.mem_map.mpr ⟨row, List.mem_filter.mpr ⟨h, by simpa using huntouched.1⟩, ?_⟩
  have hnone : (st.rescheduled.find? fun r => r.id == row.id) = none := by
    rw [List.find?_eq_none]
    intro r hr heq
    exact huntouched.2 (List.mem_map.mpr ⟨r, hr, by simpa using heq⟩)
  rw [hnone]

namespace EvidenceSystem.Sound

variable {ids : List OrgKey} {s : EvidenceSystem}

/-- A collector selects its rows. -/
lemma select (h : s.Sound ids) {c : ℕ} (hnew : s.collectors c = none) (cutoff : DateTime)
    (dryRun : Bool) (limit : ℤ) {lockedIds : List ℕ}
    (hlocked : ∀ c' st, s.collectors c' = some st → ∀ row ∈ st.rows, row.id ∈ lockedIds) :
    EvidenceSystem.Sound ids
      { s with
        collectors := Function.update s.collectors c
          (some (Collector.start cutoff dryRun limit lockedIds s.db)) } := by
  have hrows : ∀ row ∈ (Collector.start cutoff dryRun limit lockedIds s.db).rows,
      row ∈ s.db.evidenceGc ∧ row.id ∉ lockedIds := by
    intro row hrow
    have hdue := (List.perm_insertionSort _ _).mem_iff.mp (List.mem_of_mem_take hrow)
    obtain ⟨hmem, hcondition⟩ := List.mem_filter.mp hdue
    rw [Bool.and_eq_true] at hcondition
    exact ⟨hmem, by simpa using hcondition.2⟩
  refine h.setCollector c _ ⟨fun row hrow => ⟨(hrows row hrow).1, hrow⟩, ?_, ?_⟩ ?_ ?_
  · rintro id (hid | hid) <;> cases hid
  · intro k hk
    cases hk
  · intro old hold
    rw [hnew] at hold
    cases hold
  · intro c' st' hc' hst' row hrow row' hrow' heq
    exact (hrows row hrow).2 (heq ▸ hlocked c' st' hst' row' hrow')

/-- A collector comes to a row.

**Proof sketch.** Only the evidence of the row can point to its object. If the transaction sees it
point there, its metadata is there, as the row is queued, and is not live, so it is tombstoned, and
the pointer is marked for deletion; otherwise the pointer was marked before. -/
lemma collect (h : s.Sound ids) (hids : KeysDistinct ids) {c : ℕ} {st : Collector}
    {row : EvidenceObjectGC} {rest : List EvidenceObjectGC} (hst : s.collectors c = some st)
    (htodo : st.todo = row :: rest) :
    EvidenceSystem.Sound ids
      { s with
        objects := if st.deletes (decideRow (st.view s.db) row) then
            s.objects.filter fun o => o != row.object
          else s.objects
        collectors := Function.update s.collectors c
          (some (st.process row rest (decideRow (st.view s.db) row))) } := by
  have hsound := h.collectors c st hst
  have hqueued := (hsound.todo row (htodo ▸ List.mem_cons_self)).1
  have hcurrent : decideRow (st.view s.db) row = .reclaim true → ∃ child,
      evidenceMetadata s.db row.organizationId row.documentId = some child ∧
        child.deletedAt ≠ none := by
    intro hdecision
    obtain ⟨⟨blob, hblob, hsame⟩, hdeleted⟩ := (decideRow_eq_reclaim hdecision).2 rfl
    obtain ⟨child, hchild⟩ := Option.isSome_iff_exists.mp
      (h.queued row hqueued blob (Table.get_without_eq_some.mp hblob).1 hsame)
    exact ⟨child, hchild, hdeleted child hchild⟩
  obtain ⟨hprocessed, hrows, hsubset, hmarked⟩ := hsound.process htodo hcurrent
  have hkept : ∀ old, s.collectors c = some old → old.removedBlobs ⊆
      (st.process row rest (decideRow (st.view s.db) row)).removedBlobs := by
    intro old hold
    obtain rfl := Option.some.inj (hst.symm.trans hold)
    exact hsubset
  have hmoved := h.setCollector c _ hprocessed hkept fun c' st' hc' hst' => by
    rw [hrows]
    exact h.apart c c' st st' hst hst' (Ne.symm hc')
  refine hmoved.setObjects _ fun k blob hblob hobject => ?_
  split_ifs with hdeletes
  · by_cases hsame : blob.object = row.object
    · refine Or.inr ⟨c, _, Function.update_self _ _ _, ?_⟩
      have hkey : k = row.key :=
        Keyed.eq hids (h.blobKeys k blob hblob) (hsame ▸ h.rowKeys row hqueued)
      subst hkey
      by_cases hmarked' : row.key ∈ st.removedBlobs
      · exact hsubset hmarked'
      · have hview : (st.view s.db).evidenceBlobs.get row.key = some blob :=
          Table.get_without_eq_some.mpr ⟨hblob, hmarked'⟩
        cases hdecision : decideRow (st.view s.db) row with
        | live =>
          rw [hdecision] at hdeletes
          cases hdeletes
        | referenced =>
          rw [hdecision] at hdeletes
          cases hdeletes
        | reclaim current =>
          cases current with
          | false => exact absurd hsame ((decideRow_eq_reclaim hdecision).1 rfl blob hview)
          | true =>
            rw [hdecision] at hmarked hdeletes
            exact hmarked hdeletes rfl
    · exact Or.inl (List.mem_filter.mpr ⟨hobject, by simpa using hsame⟩)
  · exact Or.inl hobject

/-- A collector commits.

**Proof sketch.** It deletes the pointers it has marked; the rows it deletes or puts off are not those
of the other collectors. -/
lemma finish (h : s.Sound ids) {c : ℕ} {st : Collector} (hst : s.collectors c = some st) :
    EvidenceSystem.Sound ids
      { s with
        db := st.view s.db
        collectors := Function.update s.collectors c none } := by
  have hothers : ∀ c' st', Function.update s.collectors c none c' = some st' →
      c' ≠ c ∧ s.collectors c' = some st' := by
    intro c' st' hst'
    rcases update_eq_some hst' with ⟨-, hv⟩ | hother
    · cases hv
    · exact hother
  refine ⟨?_, ?_, ?_, ?_, ?_, h.uploadKeys, ?_, ?_, ?_⟩
  · intro k blob hblob
    obtain ⟨hblob, hkept⟩ := Table.get_without_eq_some.mp hblob
    rcases h.stored k blob hblob with hobject | ⟨c', st', hst', hk⟩
    · exact Or.inl hobject
    · by_cases hc : c' = c
      · subst hc
        obtain rfl := Option.some.inj (hst.symm.trans hst')
        exact absurd hk hkept
      · exact Or.inr ⟨c', st', by simpa [Function.update_of_ne hc] using hst', hk⟩
  · intro row hrow blob hblob hsame
    obtain ⟨old, hold, horg, hdocument, hobject⟩ := Collector.mem_view_gc hrow
    have hkey : row.key = old.key := by rw [EvidenceObjectGC.key, horg, hdocument]; rfl
    rw [hkey] at hblob
    rw [horg, hdocument]
    exact h.queued old hold blob (Table.get_without_eq_some.mp hblob).1 (hsame.trans hobject)
  · intro k blob hblob
    exact h.organizations k blob (Table.get_without_eq_some.mp hblob).1
  · intro k blob hblob
    exact h.blobKeys k blob (Table.get_without_eq_some.mp hblob).1
  · intro row hrow
    obtain ⟨old, hold, horg, hdocument, hobject⟩ := Collector.mem_view_gc hrow
    have hkey : row.key = old.key := by rw [EvidenceObjectGC.key, horg, hdocument]; rfl
    rw [hkey, hobject]
    exact h.rowKeys old hold
  · intro m u hu k blob hblob
    exact h.discarding m u hu k blob (Table.get_without_eq_some.mp hblob).1
  · intro c' st' hst'
    obtain ⟨hc, hst'⟩ := hothers c' st' hst'
    obtain ⟨htodo, htouched, hremoved⟩ := h.collectors c' st' hst'
    refine ⟨fun row hrow => ⟨?_, (htodo row hrow).2⟩, htouched, hremoved⟩
    refine Collector.mem_view_of_untouched (htodo row hrow).1 ⟨fun hid => ?_, fun hid => ?_⟩
    · obtain ⟨row', hrow', heq⟩ := (h.collectors c st hst).touched _ (Or.inl hid)
      exact h.apart c c' st st' hst hst' (Ne.symm hc) row' hrow' row (htodo row hrow).2 heq
    · obtain ⟨row', hrow', heq⟩ := (h.collectors c st hst).touched _ (Or.inr hid)
      exact h.apart c c' st st' hst hst' (Ne.symm hc) row' hrow' row (htodo row hrow).2 heq
  · intro c₁ c₂ st₁ st₂ h₁ h₂ hne
    exact h.apart c₁ c₂ st₁ st₂ (hothers c₁ st₁ h₁).2 (hothers c₂ st₂ h₂).2 hne

/-- The tables change by something that keeps the evidence rows, and the metadata of the organizations
that a collector has locked. -/
lemma setTables (h : s.Sound ids) {db : Db} {org : Str} (hkept : EvidenceKept org s.db db)
    (hfree : ∀ c st, s.collectors c = some st → ∀ k : OrgKey, k.1 ∈ st.locked →
      evidenceMetadata db k.1 k.2 = evidenceMetadata s.db k.1 k.2) :
    EvidenceSystem.Sound ids { s with db } := by
  obtain ⟨hblobs, horganizations, -, hpresent, new, hqueue, hnew⟩ := hkept
  refine ⟨?_, ?_, ?_, ?_, ?_, h.uploadKeys, ?_, ?_, h.apart⟩
  · intro k blob hblob
    exact h.stored k blob (hblobs ▸ hblob)
  · intro row hrow blob hblob hsame
    rw [hqueue, List.mem_append] at hrow
    rcases hrow with hrow | hrow
    · exact hpresent _ (h.queued row hrow blob (hblobs ▸ hblob) hsame)
    · obtain ⟨-, -, -, hchild⟩ := hnew row hrow
      exact hchild
  · intro k blob hblob
    exact horganizations _ (h.organizations k blob (hblobs ▸ hblob))
  · intro k blob hblob
    exact h.blobKeys k blob (hblobs ▸ hblob)
  · intro row hrow
    rw [hqueue, List.mem_append] at hrow
    rcases hrow with hrow | hrow
    · exact h.rowKeys row hrow
    · obtain ⟨blob, hblob, hobject, -⟩ := hnew row hrow
      rw [hobject]
      exact h.blobKeys _ blob hblob
  · intro m u hu k blob hblob
    exact h.discarding m u hu k blob (hblobs ▸ hblob)
  · intro c st hst
    obtain ⟨htodo, htouched, hremoved⟩ := h.collectors c st hst
    refine ⟨fun row hrow => ⟨?_, (htodo row hrow).2⟩, htouched, fun k hk => ?_⟩
    · rw [hqueue]
      exact List.mem_append_left _ (htodo row hrow).1
    · obtain ⟨hlocked, child, hchild, hdeleted⟩ := hremoved k hk
      exact ⟨hlocked, child, (hfree c st hst k hlocked).trans hchild, hdeleted⟩

/-- **Step.** Every event that meets the condition keeps the invariant. -/
lemma step (h : s.Sound ids) (hids : KeysDistinct ids) {env : Env} {s' : EvidenceSystem}
    {event : EvidenceEvent} (hstep : EvidenceStep env s event s') (horderly : Orderly ids s event) :
    s'.Sound ids := by
  cases hstep with
  | check hnew hcheck hkey =>
    refine h.setUpload _ _ (fun u phase hv => ?_) fun u hv => ?_
    · cases hv
      exact ⟨horderly, _, hkey⟩
    · cases hv
  | write hu =>
    rename_i n u
    have hwritten := h.setUpload n (some (u, .written))
      (fun u' phase hv => by cases hv; exact h.uploadKeys n u _ hu) (fun u' hv => by cases hv)
    exact hwritten.setObjects _ fun k blob _ hobject => Or.inl (List.mem_cons_of_mem _ hobject)
  | publish now hu hlock hrows hpublish =>
    have hpublished := h.publish hu hrows (publish_eq_committed hpublish) (horderly _ _ hu)
    exact hpublished.setUpload _ none (fun u phase hv => by cases hv) (fun u hv => by cases hv)
  | refuse now hu hlock hrefuse =>
    rename_i n u error preserve
    cases preserve with
    | true => exact h.setUpload n none (fun u phase hv => by cases hv) (fun u hv => by cases hv)
    | false =>
      have hnot := h.refused hids hu (publish_eq_refused hrefuse)
      refine h.setUpload n (some (u, .discarding)) (fun u' phase hv => ?_) fun u' hv => ?_
      · cases hv
        exact h.uploadKeys n u _ hu
      · cases hv
        exact hnot
  | discard hu =>
    rename_i n u
    have hgone := h.setUpload n none (fun u phase hv => by cases hv) (fun u hv => by cases hv)
    refine hgone.setObjects _ fun k blob hblob hobject => Or.inl ?_
    exact List.mem_filter.mpr ⟨hobject, by simpa using h.discarding _ _ hu k blob hblob⟩
  | abandon hu =>
    exact h.setUpload _ none (fun u phase hv => by cases hv) (fun u hv => by cases hv)
  | select cutoff dryRun limit lockedIds hnew hlocked =>
    exact h.select hnew cutoff dryRun limit hlocked
  | collect hst htodo hlock => exact h.collect hids hst htodo
  | finish hst htodo => exact h.finish hst
  | push input hlock hpush =>
    have hkept := push_evidenceKept hpush
    exact h.setTables hkept fun c st hst k hk => hkept.others (k.1, .evidence, k.2)
      fun heq : k.1 = _ => hlock c st hst (heq ▸ hk)
  | other db hblobs hgc hchildren horganizations =>
    have hkept : EvidenceKept [] s.db db := by
      refine ⟨hblobs, horganizations, fun k _ => by rw [hchildren], fun k hk => ?_, [], ?_, by simp⟩
      · rwa [hchildren]
      · rw [hgc, List.append_nil]
    exact h.setTables hkept fun c st _ k _ => by rw [evidenceMetadata, hchildren, evidenceMetadata]

end EvidenceSystem.Sound

/-- No evidence has been uploaded, and nothing is under way. -/
structure EvidenceSystem.Initial (s : EvidenceSystem) : Prop where
  blobs : ∀ k, s.db.evidenceBlobs.get k = none
  queue : s.db.evidenceGc = []
  uploads : ∀ n, s.uploads n = none
  collectors : ∀ c, s.collectors c = none

/-- The invariant holds at first. -/
lemma EvidenceSystem.Initial.sound {s : EvidenceSystem} (h : s.Initial) (ids : List OrgKey) :
    s.Sound ids := by
  obtain ⟨hblobs, hqueue, huploads, hcollectors⟩ := h
  constructor <;> simp [hblobs, hqueue, huploads, hcollectors]

/-- **No dangling pointer.** In every interleaving of uploads, collections and pushes in which no
pointer is committed while an upload that was refused waits to discard the same object, every
committed pointer of evidence that is not tombstoned is to an object that exists. The documents have
distinct object keys. -/
theorem evidencePointers_noDangling (env : Env) (ids : List OrgKey) (hids : KeysDistinct ids)
    (s₀ s : EvidenceSystem) (events : List EvidenceEvent) (hinit : s₀.Initial)
    (htrace : Trace (fun t e t' => EvidenceStep env t e t' ∧ Orderly ids t e) s₀ events s) :
    s.NoDangling := by
  have hsound : s.Sound ids :=
    htrace.inv (hinit.sound ids) fun event _ t t' ht hstep => ht.step hids hstep.1 hstep.2
  exact hsound.noDangling

/-! ### Runs -/

/-- The part of an object key that names the document. -/
def objectKeyHead (organizationId documentId : Str) : Str :=
  Str.ofString "blobs/" ++ textDigest organizationId ++ Str.ofString "/" ++
    textDigest documentId ++ Str.ofString "/"

/-- The state after an upload has discarded its candidate. -/
def discarded (s : EvidenceSystem) (n : ℕ) (u : Upload) : EvidenceSystem :=
  { s with
    objects := s.objects.filter fun o => o != u.object
    uploads := Function.update s.uploads n none }

/-- Discarding an object that evidence without metadata points to leaves the pointer dangling. -/
lemma discarded_dangling {s : EvidenceSystem} {n : ℕ} {u : Upload} {k : OrgKey}
    {blob : EvidenceBlob} (hblob : s.db.evidenceBlobs.get k = some blob)
    (hmetadata : evidenceMetadata s.db k.1 k.2 = none) (hsame : blob.object = u.object) :
    ¬ (discarded s n u).NoDangling := by
  intro hsound
  have hgone := hsound k blob hblob fun child hchild => by
    rw [show evidenceMetadata (discarded s n u).db k.1 k.2 = none from hmetadata] at hchild
    cases hchild
  rw [discarded, List.mem_filter, hsame] at hgone
  simp at hgone

/-- An object key for a digest of one repeated digit. -/
lemma objectKeyFor_replicate (organizationId documentId : Str) {c : CodePoint}
    (hdigit : isHexDigit c = true) (hlower : asciiLower c = c) :
    objectKeyFor organizationId documentId (List.replicate 64 c) =
      .ok (objectKeyHead organizationId documentId ++ List.replicate 64 c) := by
  simp [objectKeyFor, objectKeyHead, hlower, hdigit]

/-- An upload that finds everything in order commits. -/
lemma publish_of_admitted {env : Env} {now : DateTime} {u : Upload} {db : Db}
    (horg : (db.organizations.get u.principal.organizationId).isSome)
    (hmetadata : evidenceMetadata db u.principal.organizationId u.documentId = none)
    (hmodel : ∀ blob, db.evidenceBlobs.get u.key = some blob → blob.itemId = u.itemId)
    (haccess : uploadAccess db u.principal u.itemId = .ok ()) :
    publish env now u true db = .committed (switchPointer env now u (cancelGcForKey u db)) := by
  have hpresent : (db.organizations.get u.principal.organizationId).isNone = false := by
    simpa using horg
  have hmismatch : ((db.evidenceBlobs.get u.key).any fun blob => blob.itemId != u.itemId) =
      false := by
    cases hblob : db.evidenceBlobs.get u.key with
    | none => rfl
    | some blob => simp [hmodel blob hblob]
  have hitem : (db.evidenceBlobs.get u.key).elim u.itemId EvidenceBlob.itemId = u.itemId := by
    cases hblob : db.evidenceBlobs.get u.key with
    | none => rfl
    | some blob => exact hmodel blob hblob
  have haccess' : uploadAccess (cancelGcForKey u db) u.principal u.itemId = .ok () := haccess
  simp only [publish, hpresent, hmetadata, hmismatch, hitem, haccess', Bool.false_eq_true,
    ↓reduceIte, Option.any_none, Bool.not_true]

/-- An upload for another item than that of the evidence is refused. -/
lemma publish_mismatch (env : Env) (now : DateTime) (u : Upload) (stored : Bool) {db : Db}
    {blob : EvidenceBlob} (horg : (db.organizations.get u.principal.organizationId).isSome)
    (hmetadata : evidenceMetadata db u.principal.organizationId u.documentId = none)
    (hmodel : db.evidenceBlobs.get u.key = some blob) (hitem : blob.itemId ≠ u.itemId) :
    publish env now u stored db =
      .refused ⟨409, Str.ofString "evidence ownership mismatch"⟩ (blob.object == u.object) := by
  have hpresent : (db.organizations.get u.principal.organizationId).isNone = false := by
    simpa using horg
  have hmismatch : (blob.itemId != u.itemId) = true := by simpa using hitem
  simp only [publish, hpresent, hmetadata, hmodel, hmismatch, Bool.false_eq_true, ↓reduceIte,
    Option.any_none, Option.any_some]

namespace Sample

/-- A member that may upload evidence for every item. -/
def uploader : Principal := { principal with capabilities := [.itemEvidenceManage] }

/-- The sample organization with two items. -/
def twoItems : Db :=
  runPushes env (setup ++ [input (record .item "j" "5" none
    [("id", .str "j"), ("projectID", .str "p"), ("projectSectorID", .str "ps")])]) db

/-- An upload of a document for an item; the digest of its content repeats a digit. -/
def upload (item : Str) (digit : CodePoint) : Upload :=
  ⟨uploader, "d", item, ("local", objectKeyHead uploader.organizationId "d" ++
    List.replicate 64 digit)⟩

/-- The object keys of different contents differ. -/
lemma upload_object_ne (item item' : Str) {digit digit' : CodePoint} (h : digit ≠ digit') :
    (upload item digit).object ≠ (upload item' digit').object := by
  intro heq
  have hkeys := List.append_cancel_left (congrArg Prod.snd heq)
  exact h (List.replicate_right_injective (n := 64) (by decide) hkeys)

/-- The object of an upload does not depend on its item. -/
lemma upload_object_eq (item item' : Str) (digit : CodePoint) :
    ((upload item digit).blob item).object = (upload item' digit).object := rfl

/-- Evidence of the document can be uploaded for both items. -/
structure Ready (db : Db) : Prop where
  organization : (db.organizations.get uploader.organizationId).isSome
  metadata : evidenceMetadata db uploader.organizationId "d" = none
  first : uploadAccess db uploader "i" = .ok ()
  second : uploadAccess db uploader "j" = .ok ()

/-- The two items can be reached, and there is no evidence. -/
lemma twoItems_ready : Ready twoItems ∧ (∀ k, twoItems.evidenceBlobs.get k = none) ∧
    twoItems.evidenceGc = [] := by
  have h : (twoItems.organizations.get uploader.organizationId).isSome = true ∧
      (evidenceMetadata twoItems uploader.organizationId "d").isNone = true ∧
      (uploadAccess twoItems uploader "i").toOption = some () ∧
      (uploadAccess twoItems uploader "j").toOption = some () ∧
      twoItems.evidenceBlobs.rows.isEmpty = true ∧ twoItems.evidenceGc.isEmpty = true := by
    decide +kernel
  obtain ⟨horg, hmetadata, hfirst, hsecond, hblobs, hqueue⟩ := h
  refine ⟨⟨horg, by simpa using hmetadata, toOption_eq_some hfirst, toOption_eq_some hsecond⟩,
    fun k => ?_, by simpa using hqueue⟩
  rw [Table.get, List.isEmpty_iff.mp hblobs]
  rfl

/-- The tables before any upload. -/
def store (db : Db) : EvidenceSystem := ⟨db, [], fun _ => none, fun _ => none⟩

/-- No evidence has been uploaded. -/
lemma store_initial : (store twoItems).Initial :=
  ⟨twoItems_ready.2.1, twoItems_ready.2.2, fun _ => rfl, fun _ => rfl⟩

/-- The tables after an upload was published. -/
def published (u : Upload) (db : Db) : Db := switchPointer env time u (cancelGcForKey u db)

/-- A published upload writes collection rows and its pointer. -/
lemma published_eq (u : Upload) (db : Db) : ∃ queue lastId,
    published u db =
      { db with
        evidenceGc := queue
        lastGcId := lastId
        evidenceBlobs := db.evidenceBlobs.set u.key
          (u.blob ((db.evidenceBlobs.get u.key).elim u.itemId EvidenceBlob.itemId)) } := by
  simp only [published, switchPointer, queueReplaced]
  split
  · exact ⟨_, _, rfl⟩
  · split_ifs <;> exact ⟨_, _, rfl⟩

/-- A published upload changes what can be reached in no way. -/
lemma published_ready {u : Upload} {db : Db} (h : Ready db) : Ready (published u db) := by
  obtain ⟨queue, lastId, heq⟩ := published_eq u db
  rw [heq]
  exact ⟨h.organization, h.metadata, h.first, h.second⟩

/-- The row of the document after an upload was published. -/
lemma published_get {db : Db} {item : Str} {digit : CodePoint}
    (hmodel : ∀ blob, db.evidenceBlobs.get (uploader.organizationId, Str.ofString "d") =
      some blob → blob.itemId = item) :
    (published (upload item digit) db).evidenceBlobs.get
        (uploader.organizationId, Str.ofString "d") = some ((upload item digit).blob item) := by
  obtain ⟨queue, lastId, heq⟩ := published_eq (upload item digit) db
  have hkey : (upload item digit).key = (uploader.organizationId, Str.ofString "d") := rfl
  have hitem : (db.evidenceBlobs.get (upload item digit).key).elim (upload item digit).itemId
      EvidenceBlob.itemId = item := by
    rw [hkey]
    cases hblob : db.evidenceBlobs.get (uploader.organizationId, Str.ofString "d") with
    | none => rfl
    | some blob => exact hmodel blob hblob
  rw [heq, hitem, hkey]
  exact Table.get_set_self _ _ _

/-- The last step of an upload, when nothing else is under way. -/
lemma publish_step {s : EvidenceSystem} {n : ℕ} {item : Str} {digit : CodePoint}
    (hcollectors : ∀ c, s.collectors c = none)
    (hu : s.uploads n = some (upload item digit, .written))
    (hobject : (upload item digit).object ∈ s.objects) (hready : Ready s.db)
    (hmodel : ∀ blob, s.db.evidenceBlobs.get (upload item digit).key = some blob →
      blob.itemId = item) (haccess : uploadAccess s.db uploader item = .ok ()) :
    EvidenceStep env s (.publish n)
      { s with
        db := published (upload item digit) s.db
        uploads := Function.update s.uploads n none } := by
  refine .publish time hu (fun c st hst => ?_) (fun c st hst => ?_) ?_
  · rw [hcollectors] at hst
    cases hst
  · rw [hcollectors] at hst
    cases hst
  · have hstored : s.objects.contains (upload item digit).object = true := by simpa using hobject
    rw [hstored]
    exact publish_of_admitted hready.organization hready.metadata hmodel haccess

/-- The first half of an upload: it is checked, and its object is written. -/
lemma check_write {s : EvidenceSystem} {n : ℕ} {u : Upload} {sha256 : Str}
    (hnew : s.uploads n = none)
    (hcheck : initialCheck s.db u.principal u.documentId u.itemId = .ok ())
    (hkey : objectKeyFor u.principal.organizationId u.documentId sha256 = .ok u.object.2) :
    Trace (EvidenceStep env) s [.check n u, .write n]
      { s with
        objects := u.object :: s.objects
        uploads := Function.update s.uploads n (some (u, .written)) } := by
  have hchecked : EvidenceStep env s (.check n u) _ := .check hnew hcheck hkey
  have hwritten : EvidenceStep env
      { s with uploads := Function.update s.uploads n (some (u, .checked)) } (.write n) _ :=
    .write (Function.update_self _ _ _)
  rw [Function.update_idem] at hwritten
  exact .cons hchecked (.cons hwritten (.nil _))

/-- The initial check of an upload for a document without evidence, or with evidence of its item. -/
lemma initialCheck_eq_ok {db : Db} {item : Str}
    (hmetadata : evidenceMetadata db uploader.organizationId "d" = none)
    (hmodel : ∀ blob, db.evidenceBlobs.get (uploader.organizationId, "d") = some blob →
      blob.itemId = item) (haccess : uploadAccess db uploader item = .ok ()) :
    initialCheck db uploader "d" item = .ok () := by
  unfold initialCheck
  rw [hmetadata]
  cases hblob : db.evidenceBlobs.get (uploader.organizationId, "d") with
  | none => simpa [raiseIf, ok_bind] using haccess
  | some blob =>
    have hitem := hmodel blob hblob
    simpa [raiseIf, ok_bind, hitem] using haccess

/-- The digits of the two contents. -/
def digits : CodePoint × CodePoint := (CodePoint.ofChar 'a', CodePoint.ofChar 'b')

/-- The object key of an upload is that of its digest. -/
lemma upload_key (item : Str) {digit : CodePoint} (h : digit = digits.1 ∨ digit = digits.2) :
    objectKeyFor (upload item digit).principal.organizationId (upload item digit).documentId
      (List.replicate 64 digit) = .ok (upload item digit).object.2 := by
  rcases h with rfl | rfl
  · exact objectKeyFor_replicate _ _ rfl rfl
  · exact objectKeyFor_replicate _ _ rfl rfl

/-- The only document of the runs. -/
def documents : List OrgKey := [(uploader.organizationId, "d")]

/-- One document has one key. -/
lemma documents_distinct : KeysDistinct documents := by
  intro k hk k' hk' sha sha' key _ _
  rw [List.mem_singleton.mp hk, List.mem_singleton.mp hk']

section Runs

variable {db : Db} (hready : Ready db) (hblobs : ∀ k, db.evidenceBlobs.get k = none)
include hready hblobs

/-- An upload that is checked, written and published. -/
lemma single_run : ∃ events s,
    Trace (fun t e t' => EvidenceStep env t e t' ∧ Orderly documents t e) (store db) events s ∧
      (s.db.evidenceBlobs.get (uploader.organizationId, "d")).isSome := by
  have hnone : ∀ blob, db.evidenceBlobs.get (uploader.organizationId, "d") = some blob →
      blob.itemId = "i" := by
    intro blob hblob
    rw [hblobs] at hblob
    cases hblob
  let u := upload "i" digits.1
  let checked : EvidenceSystem :=
    { store db with uploads := Function.update (store db).uploads 0 (some (u, .checked)) }
  let written : EvidenceSystem :=
    { checked with
      objects := [u.object]
      uploads := Function.update checked.uploads 0 (some (u, .written)) }
  have hcheck : EvidenceStep env (store db) (.check 0 u) checked :=
    .check rfl (initialCheck_eq_ok hready.metadata hnone hready.first)
      (upload_key "i" (Or.inl rfl))
  have hwrite : EvidenceStep env checked (.write 0) written := .write rfl
  have hpublish := publish_step (s := written) (n := 0) (fun _ => rfl) rfl
    (List.mem_singleton_self _) hready hnone hready.first
  have horderly : Orderly documents written (.publish 0) := by
    intro u' phase _ m u'' hm
    rcases update_eq_some hm with ⟨-, hv⟩ | ⟨-, hm⟩
    · cases hv
    · rcases update_eq_some hm with ⟨-, hv⟩ | ⟨-, hm⟩
      · cases hv
      · cases hm
  refine ⟨_, _, .cons ⟨hcheck, List.mem_singleton_self _⟩ (.cons ⟨hwrite, trivial⟩
    (.cons ⟨hpublish, horderly⟩ (.nil _))), ?_⟩
  obtain ⟨itemId, hset⟩ := (switchPointer_published env time u hready.organization).blobs
  have hget : (published u db).evidenceBlobs.get u.key = some (u.blob itemId) := by
    rw [published, hset, Table.get_set_self]
  exact Option.isSome_iff_exists.mpr ⟨_, hget⟩

/-- Three uploads of one document: the first is refused, and discards the object of the third. -/
lemma race_run : ∃ events s, (∀ n u, EvidenceEvent.check n u ∈ events → u.key ∈ documents) ∧
    Trace (EvidenceStep env) (store db) events s ∧ ¬ s.NoDangling := by
  have hnone : ∀ blob item, db.evidenceBlobs.get (uploader.organizationId, "d") = some blob →
      blob.itemId = item := by
    intro blob item hblob
    rw [hblobs] at hblob
    cases hblob
  let s₁ : EvidenceSystem :=
    { store db with
      objects := [(upload "j" digits.1).object]
      uploads := Function.update (store db).uploads 0 (some (upload "j" digits.1, .written)) }
  let s₂ : EvidenceSystem :=
    { s₁ with
      objects := (upload "i" digits.2).object :: s₁.objects
      uploads := Function.update s₁.uploads 1 (some (upload "i" digits.2, .written)) }
  let s₃ : EvidenceSystem :=
    { s₂ with
      db := published (upload "i" digits.2) db
      uploads := Function.update s₂.uploads 1 none }
  let s₄ : EvidenceSystem :=
    { s₃ with
      uploads := Function.update s₃.uploads 0 (some (upload "j" digits.1, .discarding)) }
  let s₅ : EvidenceSystem :=
    { s₄ with
      objects := (upload "i" digits.1).object :: s₄.objects
      uploads := Function.update s₄.uploads 2 (some (upload "i" digits.1, .written)) }
  let s₆ : EvidenceSystem :=
    { s₅ with
      db := published (upload "i" digits.1) s₃.db
      uploads := Function.update s₅.uploads 2 none }
  have hready₃ : Ready s₃.db := published_ready hready
  have hget₃ : s₃.db.evidenceBlobs.get (uploader.organizationId, "d") =
      some ((upload "i" digits.2).blob "i") := published_get fun blob hblob => hnone blob _ hblob
  have hitem₃ : ∀ blob, s₃.db.evidenceBlobs.get (uploader.organizationId, "d") = some blob →
      blob.itemId = "i" := by
    intro blob hblob
    rw [hget₃] at hblob
    cases hblob
    rfl
  have hfirst : Trace (EvidenceStep env) (store db) _ s₁ :=
    check_write (n := 0) rfl (initialCheck_eq_ok hready.metadata (fun b hb => hnone b _ hb)
      hready.second) (upload_key "j" (Or.inl rfl))
  have hsecond : Trace (EvidenceStep env) s₁ _ s₂ :=
    check_write (n := 1) rfl (initialCheck_eq_ok hready.metadata (fun b hb => hnone b _ hb)
      hready.first) (upload_key "i" (Or.inr rfl))
  have hpublish : EvidenceStep env s₂ (.publish 1) s₃ :=
    publish_step (fun _ => rfl) rfl List.mem_cons_self hready (fun b hb => hnone b _ hb)
      hready.first
  have hother : ((upload "i" digits.2).blob "i").object ≠ (upload "j" digits.1).object :=
    upload_object_ne "i" "j" (by decide)
  have hrefused := publish_mismatch env time (upload "j" digits.1)
    (s₃.objects.contains (upload "j" digits.1).object) hready₃.organization hready₃.metadata
    hget₃ (by decide)
  rw [beq_eq_false_iff_ne.mpr hother] at hrefused
  have hrefuse : EvidenceStep env s₃ (.refuse 0) s₄ :=
    .refuse time rfl (fun c st hst => by cases hst) hrefused
  have hthird : Trace (EvidenceStep env) s₄ _ s₅ :=
    check_write (n := 2) rfl (initialCheck_eq_ok hready₃.metadata hitem₃ hready₃.first)
      (upload_key "i" (Or.inl rfl))
  have hagain : EvidenceStep env s₅ (.publish 2) s₆ :=
    publish_step (fun _ => rfl) rfl List.mem_cons_self hready₃ hitem₃ hready₃.first
  have hdiscard : EvidenceStep env s₆ (.discard 0) (discarded s₆ 0 (upload "j" digits.1)) :=
    .discard rfl
  have hrest := Trace.append_iff.mpr ⟨s₅, hthird, .cons hagain (.cons hdiscard (.nil _))⟩
  have htail := Trace.append_iff.mpr ⟨s₂, hsecond, .cons hpublish (.cons hrefuse hrest)⟩
  refine ⟨_, _, ?_, Trace.append_iff.mpr ⟨s₁, hfirst, htail⟩, ?_⟩
  · intro n u hu
    simp only [List.cons_append, List.nil_append, List.mem_cons, EvidenceEvent.check.injEq,
      reduceCtorEq, List.not_mem_nil, or_false, false_or] at hu
    rcases hu with ⟨-, rfl⟩ | ⟨-, rfl⟩ | ⟨-, rfl⟩ <;> exact List.mem_singleton_self _
  · have hready₆ : Ready s₆.db := published_ready hready₃
    refine discarded_dangling (published_get hitem₃) hready₆.metadata ?_
    exact upload_object_eq "i" "j" digits.1

end Runs

end Sample

/-- The run of one upload meets the condition; its pointer is sound. -/
theorem evidencePointers_noDangling_sample :
    ∃ s : EvidenceSystem, (s.db.evidenceBlobs.get (Sample.uploader.organizationId, "d")).isSome ∧
      s.NoDangling := by
  obtain ⟨hready, hblobs, -⟩ := Sample.twoItems_ready
  obtain ⟨events, s, htrace, hblob⟩ := Sample.single_run hready hblobs
  exact ⟨s, hblob, evidencePointers_noDangling Sample.env Sample.documents
    Sample.documents_distinct (Sample.store Sample.twoItems) s events Sample.store_initial htrace⟩

/-- Three uploads of one document. The first, for another item, is written. The second is published,
with another content, so the first is refused and rolls back. The third, with the content of the
first, is published. Then the first discards its object, which is the object of the third. -/
theorem evidencePointers_dangling :
    ∃ events s, (Sample.store Sample.twoItems).Initial ∧ KeysDistinct Sample.documents ∧
      (∀ n u, EvidenceEvent.check n u ∈ events → u.key ∈ Sample.documents) ∧
      Trace (EvidenceStep Sample.env) (Sample.store Sample.twoItems) events s ∧ ¬ s.NoDangling := by
  obtain ⟨hready, hblobs, -⟩ := Sample.twoItems_ready
  obtain ⟨events, s, hkeys, htrace, hdangling⟩ := Sample.race_run hready hblobs
  exact ⟨events, s, Sample.store_initial, Sample.documents_distinct, hkeys, htrace, hdangling⟩

end VitrialSync
