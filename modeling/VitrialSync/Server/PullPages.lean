import VitrialSync.Server.Pull

set_option relaxedAutoImplicit false
set_option autoImplicit false

/-!
# The pages of a pull

A pull consumes a first part of the changes after its cursor and sends the records of those that can
be delivered; what is pending after the returned cursor is the rest. So a client that feeds the
cursor back gets every deliverable change once and in order, and comes to an end, when every
deliverable record fits a page of its own.

## Main definitions

* `VitrialSync.deliverable` — the entity that a change delivers to a principal.
* `VitrialSync.deliveredRecords` — the records of some changes, in order.
* `VitrialSync.FitsEmptyPage` — every deliverable record fits a page of its own.
* `VitrialSync.pullPages` — several pulls, each from the cursor that the last one returned.

## Main results

* `VitrialSync.pullSince_page` — what one pull returns.
* `VitrialSync.pullPages_complete` — repeated pulls deliver everything, once and in order.
-/

namespace VitrialSync

open Python Program

/-! ### What can be delivered -/

/-- The entity that a change delivers to a principal, if it is visible and there is one. -/
def deliverable (db : Db) (principal : Principal) (change : SyncChangeLog) : Option SyncEntity :=
  let visible :=
    if change.entityType = .deliveryExecution then
      deliveryExecutionIsVisible db principal change.entityId.text
    else recordIsVisible db principal change.entityType change.entityId.text
  if visible then
    db.entities.get (principal.organizationId, change.entityType, change.entityId.text)
  else none

/-- The page of some changes delivers what the tables do. -/
lemma pageEntity_eq {db : Db} {principal : Principal} {changes : List SyncChangeLog}
    {change : SyncChangeLog} (h : change ∈ changes) :
    pageEntity (loadPageContext db principal changes) change = deliverable db principal change := by
  have hids := mem_idsOfType h
  have hentity : (loadPageContext db principal changes).entities.get
      (principal.organizationId, change.entityType, change.entityId.text) =
        db.entities.get (principal.organizationId, change.entityType, change.entityId.text) :=
    get_loadKeyed_of_mem (mem_keysOfTypes hids principal.organizationId rfl)
  have hvisible : pageVisible (loadPageContext db principal changes) change =
      if change.entityType = .deliveryExecution then
        deliveryExecutionIsVisible db principal change.entityId.text
      else recordIsVisible db principal change.entityType change.entityId.text := by
    unfold pageVisible
    split_ifs with htype
    · exact resolveDeliveryVisible_eq db principal (htype ▸ hids)
    · exact resolveVisible_eq db principal hids
  simp only [pageEntity, deliverable, hvisible, page_organizationId, hentity]

/-- The changes that deliver an entity, with it. -/
def deliveries (entity : SyncChangeLog → Option SyncEntity) (changes : List SyncChangeLog) :
    List (SyncChangeLog × SyncEntity) :=
  changes.filterMap fun c => (entity c).map fun e => (c, e)

/-- The records of some changes, in order. -/
def deliveredRecords (entity : SyncChangeLog → Option SyncEntity) (changes : List SyncChangeLog) :
    Except Exc (List SyncRecord) :=
  (deliveries entity changes).mapM fun d => pullRecord d.1 d.2

/-- The records of two parts. -/
lemma deliveredRecords_append {entity : SyncChangeLog → Option SyncEntity}
    {first second : List SyncChangeLog} {records records' : List SyncRecord}
    (h : deliveredRecords entity first = .ok records)
    (h' : deliveredRecords entity second = .ok records') :
    deliveredRecords entity (first ++ second) = .ok (records ++ records') := by
  unfold deliveredRecords at h h' ⊢
  rw [deliveries, List.filterMap_append, List.mapM_append]
  rw [deliveries] at h h'
  rw [h, h']
  rfl

/-- A change that delivers nothing adds no record. -/
lemma deliveredRecords_cons_none {entity : SyncChangeLog → Option SyncEntity}
    {change : SyncChangeLog} {changes : List SyncChangeLog} (h : entity change = none) :
    deliveredRecords entity (change :: changes) = deliveredRecords entity changes := by
  simp [deliveredRecords, deliveries, h]

/-- A change that delivers an entity adds its record. -/
lemma deliveredRecords_cons_some {entity : SyncChangeLog → Option SyncEntity}
    {change : SyncChangeLog} {changes : List SyncChangeLog} {e : SyncEntity} {record : SyncRecord}
    {records : List SyncRecord} (h : entity change = some e)
    (hrecord : pullRecord change e = .ok record)
    (hrest : deliveredRecords entity changes = .ok records) :
    deliveredRecords entity (change :: changes) = .ok (record :: records) := by
  simp only [deliveredRecords, deliveries] at hrest
  simp only [deliveredRecords, deliveries, List.filterMap_cons, h, Option.map_some, List.mapM_cons,
    hrecord, hrest]
  rfl

/-- The records depend on what the listed changes deliver. -/
lemma deliveredRecords_congr {entity entity' : SyncChangeLog → Option SyncEntity}
    {changes : List SyncChangeLog} (h : ∀ c ∈ changes, entity c = entity' c) :
    deliveredRecords entity changes = deliveredRecords entity' changes := by
  have heq : deliveries entity changes = deliveries entity' changes :=
    List.filterMap_congr fun c hc => by rw [h c hc]
  rw [deliveredRecords, heq, deliveredRecords]

/-! ### The ceilings -/

/-- The text of a number has a UTF-8 form. -/
lemma encodable_map_ofChar (cs : List Char) : Encodable (cs.map CodePoint.ofChar) := by
  rw [Encodable, List.any_map, List.any_eq_false]
  intro c _
  have hvalid := c.valid
  rw [UInt32.isValidChar, Nat.isValidChar] at hvalid
  change ¬ (decide (0xD800 ≤ c.val.toNat) && decide (c.val.toNat ≤ 0xDFFF)) = true
  simp only [Bool.and_eq_true, decide_eq_true_eq]
  omega

/-- Texts with a UTF-8 form, one after the other. -/
lemma Encodable.append {s t : Str} (hs : Encodable s) (ht : Encodable t) : Encodable (s ++ t) := by
  rw [Encodable, List.any_append, hs, ht]
  rfl

/-- The cursor of a sequence is a valid text. -/
lemma shortText?_cursorText {n : ℕ} (h : n ≤ maxCursorSequence) :
    ∃ t, shortText? (cursorText n) = .ok t ∧ t.text = cursorText n := by
  have hlength : (cursorText n).length ≤ maxSyncIdentifierLength := by
    have hdigits : (Str.ofNat n).length ≤ 19 :=
      Str.length_ofNat_le (by decide) (lt_of_le_of_lt h (by decide))
    have hleading : cursorPrefix.length = 4 := rfl
    rw [cursorText, List.length_append, hleading, maxSyncIdentifierLength]
    omega
  have hencodable : Encodable (cursorText n) :=
    Encodable.append (encodable_map_ofChar _) (encodable_map_ofChar _)
  exact ⟨⟨cursorText n, hlength, hencodable⟩, dif_pos ⟨hlength, hencodable⟩, rfl⟩

/-- A response within the ceilings is valid. -/
lemma serverBatch_eq_ok {n : ℕ} {records : List SyncRecord} (hn : n ≤ maxCursorSequence)
    (hcount : records.length ≤ maxSyncRecords)
    (hbytes : payloadBytes records ≤ maxSyncV1BatchPayloadBytes) :
    ∃ batch, serverBatch n records = .ok batch ∧ batch.records = records ∧
      batch.cursor.map ShortText.text = some (cursorText n) := by
  obtain ⟨t, ht, htext⟩ := shortText?_cursorText hn
  obtain ⟨device, hdevice⟩ : ∃ device, identifier? (Str.ofString "server") = .ok device :=
    ⟨⟨Str.ofString "server", by decide, by decide, by decide⟩, rfl⟩
  refine ⟨⟨device, some t, records, hcount, hbytes⟩, ?_, rfl, by rw [Option.map_some, htext]⟩
  simp only [serverBatch, hdevice, ht, dif_pos hcount, dif_pos hbytes]
  rfl

/-- The payload bytes of one more record. -/
lemma payloadBytes_concat (records : List SyncRecord) (record : SyncRecord) :
    payloadBytes (records ++ [record]) = payloadBytes records + record.payload.length := by
  simp [payloadBytes]

/-- The page check returns, and what it accepts is within the ceilings. -/
lemma pullPageAccepts_spec (records : List SyncRecord) (record : SyncRecord) {sequence : ℕ}
    (hsequence : sequence ≤ maxCursorSequence) :
    ∃ fits, pullPageAccepts records record sequence = .ok fits ∧
      (fits = true → (records ++ [record]).length ≤ maxSyncRecords ∧
        payloadBytes (records ++ [record]) ≤ maxSyncV1BatchPayloadBytes) := by
  unfold pullPageAccepts
  split_ifs with hcount hbytes
  · exact ⟨false, rfl, by simp⟩
  · exact ⟨false, rfl, by simp⟩
  · have hcount' : (records ++ [record]).length ≤ maxSyncRecords := by
      rw [List.length_append, List.length_singleton]
      omega
    have hbytes' : payloadBytes (records ++ [record]) ≤ maxSyncV1BatchPayloadBytes := by
      rw [payloadBytes_concat]
      omega
    obtain ⟨batch, hbatch, -, -⟩ := serverBatch_eq_ok hsequence hcount' hbytes'
    rw [hbatch]
    exact ⟨_, rfl, fun _ => ⟨hcount', hbytes'⟩⟩

/-! ### One page -/

/-- The record of a change fits a page of its own. -/
def FitsAlone (change : SyncChangeLog) (entity : SyncEntity) : Prop :=
  ∃ record, pullRecord change entity = .ok record ∧
    pullPageAccepts [] record change.sequence = .ok true

/-- The loop of a pull consumes a first part of the changes, at least one change when the page is
still empty, and sends the records of what it consumed.

**Proof sketch.** By induction on the changes. A change that delivers nothing is consumed; one whose
record fits is consumed and its record added; at the first that does not fit the loop stops. -/
lemma pullLoop_spec (page : PageContext) {changes : List SyncChangeLog}
    (hsequence : ∀ c ∈ changes, c.sequence ≤ maxCursorSequence)
    (hfits : ∀ c ∈ changes, ∀ e, pageEntity page c = some e → FitsAlone c e)
    (records : List SyncRecord) (hcount : records.length ≤ maxSyncRecords)
    (hbytes : payloadBytes records ≤ maxSyncV1BatchPayloadBytes) (start : ℕ) :
    ∃ consumed rest new, changes = consumed ++ rest ∧
      pullLoop page changes records start =
        .ok (records ++ new, advance SyncChangeLog.sequence start consumed) ∧
      deliveredRecords (pageEntity page) consumed = .ok new ∧
      (records ++ new).length ≤ maxSyncRecords ∧
      payloadBytes (records ++ new) ≤ maxSyncV1BatchPayloadBytes ∧
      (records = [] → changes ≠ [] → consumed ≠ []) := by
  induction changes generalizing records start with
  | nil =>
    refine ⟨[], [], [], rfl, ?_, rfl, by simpa using hcount, by simpa using hbytes, by simp⟩
    simp [pullLoop, advance]
  | cons change changes ih =>
    rw [List.forall_mem_cons] at hsequence hfits
    cases hentity : pageEntity page change with
    | none =>
      obtain ⟨consumed, rest, new, hsplit, hloop, hnew, hcount', hbytes', -⟩ :=
        ih hsequence.2 hfits.2 records hcount hbytes (max start change.sequence)
      refine ⟨change :: consumed, rest, new, by rw [hsplit, List.cons_append], ?_, ?_, hcount',
        hbytes', by simp⟩
      · simp only [pullLoop, hentity, hloop]
        rfl
      · rw [deliveredRecords_cons_none hentity, hnew]
    | some e =>
      obtain ⟨record, hrecord, halone⟩ := hfits.1 e hentity
      obtain ⟨fits, haccepts, hceilings⟩ := pullPageAccepts_spec records record hsequence.1
      cases fits with
      | false =>
        refine ⟨[], change :: changes, [], rfl, ?_, rfl, by simpa using hcount,
          by simpa using hbytes, ?_⟩
        · simp only [pullLoop, hentity, hrecord, haccepts, ok_bind, List.append_nil]
          rfl
        · rintro rfl -
          rw [haccepts] at halone
          cases halone
      | true =>
        obtain ⟨hcount₁, hbytes₁⟩ := hceilings rfl
        obtain ⟨consumed, rest, new, hsplit, hloop, hnew, hcount', hbytes', -⟩ :=
          ih hsequence.2 hfits.2 _ hcount₁ hbytes₁ (max start change.sequence)
        rw [List.append_assoc, List.singleton_append] at hloop hcount' hbytes'
        refine ⟨change :: consumed, rest, record :: new, by rw [hsplit, List.cons_append], ?_,
          deliveredRecords_cons_some hentity hrecord hnew, hcount', hbytes', by simp⟩
        simp only [pullLoop, hentity, hrecord, haccepts, ok_bind, ↓reduceIte, hloop]
        rfl

/-- Every deliverable record of an organization fits a page of its own. -/
def FitsEmptyPage (db : Db) (principal : Principal) : Prop :=
  ∀ c ∈ organizationLog db principal.organizationId, ∀ e, deliverable db principal c = some e →
    FitsAlone c e

section Pages

variable {db : Db} {principal : Principal}

/-- Distinct sequences: the primary key of the change log. -/
def DistinctSequences (db : Db) : Prop := (db.changeLog.map SyncChangeLog.sequence).Nodup

/-- Sequences are big integers of the database. -/
def BigIntSequences (db : Db) : Prop := ∀ c ∈ db.changeLog, c.sequence ≤ maxCursorSequence

/-- The changes of an organization have distinct sequences. -/
lemma DistinctSequences.organizationLog (h : DistinctSequences db) (organizationId : Str) :
    ((organizationLog db organizationId).map SyncChangeLog.sequence).Nodup :=
  (List.filter_sublist.map SyncChangeLog.sequence).nodup h

/-- A pending change is one of the log. -/
lemma mem_pendingChanges {start : ℕ} {c : SyncChangeLog} :
    c ∈ pendingChanges db principal start ↔
      c ∈ organizationLog db principal.organizationId ∧ start < c.sequence := mem_pending

/-- **One page.** A pull from a valid cursor returns; it delivers the records of a first part of the
pending changes, which is not empty when there are any, and leaves the rest pending. -/
theorem pullSince_page (hkeys : DistinctSequences db) (hbig : BigIntSequences db)
    (hfits : FitsEmptyPage db principal) (hsync : principal.holds .sync = true)
    {cursor : Option Str} {start : ℕ} (hstart : startSequence cursor = .ok start) :
    ∃ batch next consumed, pullSince db principal cursor = .ok batch ∧
      batch.cursor.map ShortText.text = some (cursorText next) ∧
      startSequence (batch.cursor.map ShortText.text) = .ok next ∧
      pendingChanges db principal start = consumed ++ pendingChanges db principal next ∧
      next = advance SyncChangeLog.sequence start consumed ∧
      deliveredRecords (deliverable db principal) consumed = .ok batch.records ∧
      (pendingChanges db principal start ≠ [] → consumed ≠ []) := by
  have hmem : ∀ c ∈ scannedChanges db principal start,
      c ∈ organizationLog db principal.organizationId :=
    fun c hc => (mem_pendingChanges.mp (List.mem_of_mem_take hc)).1
  have hsequence : ∀ c ∈ scannedChanges db principal start, c.sequence ≤ maxCursorSequence :=
    fun c hc => hbig c (List.mem_of_mem_filter (hmem c hc))
  obtain ⟨consumed, rest, new, hsplit, hloop, hnew, hcount, hbytes, hprogress⟩ :=
    pullLoop_spec (loadPageContext db principal (scannedChanges db principal start)) hsequence
      (fun c hc e he => hfits c (hmem c hc) e (pageEntity_eq hc ▸ he)) [] (by simp)
      (by simp [payloadBytes]) start
  have hbound : advance SyncChangeLog.sequence start consumed ≤ maxCursorSequence := by
    refine advance_le ?_ fun c hc => hsequence c (hsplit ▸ List.mem_append_left _ hc)
    exact startSequence_le hstart
  obtain ⟨batch, hbatch, hrecords, hcursor⟩ := serverBatch_eq_ok hbound hcount hbytes
  have hpending : pendingChanges db principal start =
      consumed ++ (rest ++ (pendingChanges db principal start).drop maxSyncPullScanChanges) := by
    rw [← List.append_assoc, ← hsplit, scannedChanges, List.take_append_drop]
  have hrest := pending_advance (hkeys.organizationLog principal.organizationId) hpending
  refine ⟨batch, advance SyncChangeLog.sequence start consumed, consumed, ?_, hcursor, ?_, ?_, rfl,
    ?_, ?_⟩
  · simp only [pullSince, hsync, hstart, hloop, ok_bind, Bool.not_true, Bool.false_eq_true,
      ↓reduceIte]
    exact hbatch
  · rw [hcursor]
    exact startSequence_cursorText hbound
  · exact hpending.trans (congrArg (consumed ++ ·) hrest.symm)
  · rw [hrecords, List.nil_append, ← hnew]
    exact deliveredRecords_congr fun c hc =>
      (pageEntity_eq (hsplit ▸ List.mem_append_left _ hc)).symm
  · intro hne
    refine hprogress rfl fun hempty => hne ?_
    rw [scannedChanges, List.take_eq_nil_iff] at hempty
    exact hempty.resolve_left (by decide)

/-! ### All pages -/

/-- Several pulls, each from the cursor that the last one returned; every page stands with the
cursor it was asked for. -/
def pullPages (db : Db) (principal : Principal) :
    ℕ → Option Str → Except Exc (List (Option Str × SyncBatch))
  | 0, _ => .ok []
  | n + 1, cursor => do
    let page ← pullSince db principal cursor
    let pages ← pullPages db principal n (page.cursor.map ShortText.text)
    return (cursor, page) :: pages

/-- A page delivers the records of the changes between its two cursors. -/
def Delivers (db : Db) (principal : Principal) (page : Option Str × SyncBatch) : Prop :=
  ∃ start next consumed, startSequence page.1 = .ok start ∧
    startSequence (page.2.cursor.map ShortText.text) = .ok next ∧
    pendingChanges db principal start = consumed ++ pendingChanges db principal next ∧
    deliveredRecords (deliverable db principal) consumed = .ok page.2.records

/-- A page without records that returns the cursor it was asked for. -/
def IsLastPage (page : Option Str × SyncBatch) : Prop :=
  page.2.cursor.map ShortText.text = page.1 ∧ page.2.records = []

/-- When nothing is pending, a pull returns the cursor in its normal form and no records. -/
lemma pullSince_exhausted (hkeys : DistinctSequences db) (hbig : BigIntSequences db)
    (hfits : FitsEmptyPage db principal) (hsync : principal.holds .sync = true)
    {cursor : Option Str} {start : ℕ} (hstart : startSequence cursor = .ok start)
    (hnone : pendingChanges db principal start = []) :
    ∃ batch, pullSince db principal cursor = .ok batch ∧ Delivers db principal (cursor, batch) ∧
      batch.cursor.map ShortText.text = some (cursorText start) ∧ batch.records = [] := by
  obtain ⟨batch, next, consumed, hpull, hcursor, hnext, hsplit, hadvance, hrecords, -⟩ :=
    pullSince_page hkeys hbig hfits hsync hstart
  obtain ⟨rfl, -⟩ : consumed = [] ∧ pendingChanges db principal next = [] := by
    rw [hnone] at hsplit
    exact List.append_eq_nil_iff.mp hsplit.symm
  obtain rfl : next = start := hadvance
  refine ⟨batch, hpull, ⟨next, next, [], hstart, hnext, hsplit, hrecords⟩, hcursor, ?_⟩
  exact (Except.ok.inj hrecords).symm

/-- Repeated pulls come to an end and deliver everything.

**Proof sketch.** By induction on the number of pending changes, which every page with pending
changes makes smaller (`pullSince_page`). When none is left, one pull writes the cursor in its normal
form and the next one returns it unchanged. -/
lemma pullPages_exhaust (hkeys : DistinctSequences db) (hbig : BigIntSequences db)
    (hfits : FitsEmptyPage db principal) (hsync : principal.holds .sync = true) (k : ℕ) :
    ∀ cursor start, startSequence cursor = .ok start →
      (pendingChanges db principal start).length ≤ k →
      ∃ n pages last, pullPages db principal n cursor = .ok (pages ++ [last]) ∧ IsLastPage last ∧
        (∀ page ∈ pages ++ [last], Delivers db principal page) ∧
        deliveredRecords (deliverable db principal) (pendingChanges db principal start) =
          .ok ((pages ++ [last]).flatMap fun page => page.2.records) := by
  induction k with
  | zero =>
    intro cursor start hstart hlength
    have hnone : pendingChanges db principal start = [] := by simpa using hlength
    obtain ⟨first, hfirst, hdelivers, hcursor, hrecords⟩ :=
      pullSince_exhausted hkeys hbig hfits hsync hstart hnone
    have hagain : startSequence (some (cursorText start)) = .ok start :=
      startSequence_cursorText (startSequence_le hstart)
    obtain ⟨last, hlast, hdelivers', hcursor', hrecords'⟩ :=
      pullSince_exhausted hkeys hbig hfits hsync hagain hnone
    refine ⟨2, [(cursor, first)], (some (cursorText start), last), ?_, ⟨hcursor', hrecords'⟩, ?_,
      ?_⟩
    · simp only [pullPages, hfirst, ok_bind, hcursor, hlast]
      rfl
    · simpa using ⟨hdelivers, hdelivers'⟩
    · simp [hnone, hrecords, hrecords', deliveredRecords, deliveries]
  | succ k ih =>
    intro cursor start hstart hlength
    by_cases hnone : pendingChanges db principal start = []
    · exact ih cursor start hstart (by simp [hnone])
    obtain ⟨batch, next, consumed, hpull, -, hnext, hsplit, -, hrecords, hprogress⟩ :=
      pullSince_page hkeys hbig hfits hsync hstart
    have hshorter : (pendingChanges db principal next).length ≤ k := by
      have hpositive := List.length_pos_of_ne_nil (hprogress hnone)
      rw [hsplit, List.length_append] at hlength
      omega
    obtain ⟨n, pages, last, hpages, hlast, hall, hdelivered⟩ := ih _ next hnext hshorter
    refine ⟨n + 1, (cursor, batch) :: pages, last, ?_, hlast, ?_, ?_⟩
    · simp only [pullPages, hpull, ok_bind, hpages]
      rfl
    · rw [List.cons_append, List.forall_mem_cons]
      exact ⟨⟨start, next, consumed, hstart, hnext, hsplit, hrecords⟩, hall⟩
    · rw [hsplit, deliveredRecords_append hrecords hdelivered, List.cons_append, List.flatMap_cons]

/-- **Completeness and order.** From any valid cursor, repeated pulls of a fixed state come to a page
without records that returns its cursor unchanged. The records of all pages together are those of
the deliverable changes after the cursor, one for each, in increasing order of their sequences; no
page has more than 200 records, and none skips a deliverable change. -/
theorem pullPages_complete (db : Db) (principal : Principal) (hkeys : DistinctSequences db)
    (hbig : BigIntSequences db) (hfits : FitsEmptyPage db principal)
    (hsync : principal.holds .sync = true) (cursor : Option Str) (start : ℕ)
    (hstart : startSequence cursor = .ok start) :
    (∃ n pages last, pullPages db principal n cursor = .ok (pages ++ [last]) ∧ IsLastPage last ∧
      (∀ page ∈ pages ++ [last],
        Delivers db principal page ∧ page.2.records.length ≤ maxSyncRecords) ∧
      deliveredRecords (deliverable db principal) (pendingChanges db principal start) =
        .ok ((pages ++ [last]).flatMap fun page => page.2.records)) ∧
    (∀ change, change ∈ pendingChanges db principal start ↔
      change ∈ organizationLog db principal.organizationId ∧ start < change.sequence) ∧
    (pendingChanges db principal start).Pairwise fun a b => a.sequence < b.sequence := by
  refine ⟨?_, fun change => mem_pendingChanges,
    pairwise_pending (hkeys.organizationLog principal.organizationId) start⟩
  obtain ⟨n, pages, last, hpages, hlast, hall, hdelivered⟩ :=
    pullPages_exhaust hkeys hbig hfits hsync _ cursor start hstart le_rfl
  exact ⟨n, pages, last, hpages, hlast, fun page hpage => ⟨hall page hpage, page.2.records_le⟩,
    hdelivered⟩

end Pages

/-- The sample organization, with its four changes. -/
def Sample.filled : Db := runPushes env setup db

/-- Repeated pulls of the sample organization deliver its four changes. -/
theorem pullPages_complete_sample :
    ∃ n pages last, pullPages Sample.filled Sample.principal n none = .ok (pages ++ [last]) ∧
      IsLastPage last ∧
      deliveredRecords (deliverable Sample.filled Sample.principal)
          (pendingChanges Sample.filled Sample.principal 0) =
        .ok ((pages ++ [last]).flatMap fun page => page.2.records) ∧
      (deliveries (deliverable Sample.filled Sample.principal)
        (pendingChanges Sample.filled Sample.principal 0)).length = 4 := by
  have hkeys : DistinctSequences Sample.filled := by
    unfold DistinctSequences
    decide +kernel
  have hbig : BigIntSequences Sample.filled := by
    unfold BigIntSequences
    decide +kernel
  have hpages : ∀ c ∈ organizationLog Sample.filled Sample.principal.organizationId,
      ((deliverable Sample.filled Sample.principal c).all fun e =>
        (pullRecord c e).toOption.any fun record =>
          (pullPageAccepts [] record c.sequence).toOption == some true) = true := by
    decide +kernel
  have hcount : (deliveries (deliverable Sample.filled Sample.principal)
      (pendingChanges Sample.filled Sample.principal 0)).length = 4 := by
    decide +kernel
  have hfits : FitsEmptyPage Sample.filled Sample.principal := by
    intro c hc e he
    have hpage := hpages c hc
    rw [he, Option.all_some, Option.any_eq_true] at hpage
    obtain ⟨record, hrecord, haccepts⟩ := hpage
    rw [beq_iff_eq] at haccepts
    exact ⟨record, toOption_eq_some hrecord, toOption_eq_some haccepts⟩
  obtain ⟨⟨n, pages, last, hrun, hlast, -, hdelivered⟩, -⟩ :=
    pullPages_complete Sample.filled Sample.principal hkeys hbig hfits rfl none 0 rfl
  exact ⟨n, pages, last, hrun, hlast, hdelivered, hcount⟩

end VitrialSync
