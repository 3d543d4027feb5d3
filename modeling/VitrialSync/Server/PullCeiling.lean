import VitrialSync.Python.NumberText
import VitrialSync.Server.ConcurrentPull

set_option relaxedAutoImplicit false
set_option autoImplicit false

/-!
# The ceiling of a pull response

`pull_page_accepts` measures a page with the sequence of its newest record as cursor. A pull then
goes on past changes that it does not deliver, and the page that it returns carries the sequence of
the last of them, which may have more digits. So a page can be a few bytes longer than what was
measured. It stays below the ceiling exactly when, wherever changes are skipped after a delivered
one, the page still fits under the cursors of the skipped ones.

## Main definitions

* `VitrialSync.pageBytes` — the size of a page by its cursor and its records.
* `VitrialSync.Fits` — a page within the three ceilings.
* `VitrialSync.SkipsLeaveRoom` — skipped changes do not make a page too long.

## Main results

* `VitrialSync.pullSince_ceilings` — the three ceilings of a response.
* `VitrialSync.pullSince_exceeds` — a response above the ceiling.
-/

namespace VitrialSync

open Python Program

/-! ### The size of a page -/

/-- The bytes of a page: those of the frame, of the digits of the cursor, and of the records. -/
def pageBytes (sequence : ℕ) (records : List SyncRecord) : ℕ :=
  50 + (Str.ofNat sequence).length + utf8Length (Json.joinComma (records.map SyncRecord.toJson))

/-- A page within the ceilings: the records, the bytes of their payloads, and the bytes of the whole
page. -/
structure Fits (sequence : ℕ) (records : List SyncRecord) : Prop where
  count : records.length ≤ maxSyncRecords
  payload : payloadBytes records ≤ maxSyncV1BatchPayloadBytes
  bytes : pageBytes sequence records ≤ maxSyncPullResponseBytes

/-- The digits of a number are plain. -/
lemma ofNat_plain (n : ℕ) : ∀ c ∈ Str.ofNat n, Json.IsPlain c ∧ c.val ≤ 0x7e := by
  intro c hc
  rw [(Json.decimalDigits_spec n).2.1] at hc
  obtain ⟨d, -, rfl⟩ := List.mem_map.mp hc
  have hval : (digitChar d).val = 0x30 + d % 10 := rfl
  refine ⟨⟨by omega, ?_, ?_⟩, by omega⟩
  · intro heq
    rw [heq, show (Json.ch '"').val = 0x22 from rfl] at hval
    omega
  · intro heq
    rw [heq, show (Json.ch '\\').val = 0x5c from rfl] at hval
    omega

/-- A text whose characters are all written as they are. -/
lemma plain_of_all {s : Str}
    (h : (s.all fun c => decide (0x20 ≤ c.val ∧ c ≠ Json.ch '"' ∧ c ≠ Json.ch '\\' ∧ c.val ≤ 0x7e)) =
      true) : ∀ c ∈ s, Json.IsPlain c ∧ c.val ≤ 0x7e := by
  intro c hc
  obtain ⟨hlow, hquote, hslash, hhigh⟩ := of_decide_eq_true (List.all_eq_true.mp h c hc)
  exact ⟨⟨hlow, hquote, hslash⟩, hhigh⟩

/-- A cursor as it is written. -/
lemma utf8Length_writeString_cursor (n : ℕ) :
    utf8Length (Json.writeString false (cursorText n)) = 6 + (Str.ofNat n).length := by
  have hplain : ∀ c ∈ cursorText n, Json.IsPlain c ∧ c.val ≤ 0x7e :=
    List.forall_mem_append.mpr ⟨plain_of_all (by decide +kernel), ofNat_plain n⟩
  have hquote : (utf8 (Json.ch '"')).length = 1 := by decide
  have hlength : (cursorText n).length = 4 + (Str.ofNat n).length := List.length_append
  rw [Json.writeString, flatMap_escapeChar_plain hplain, utf8Length_cons, utf8Length_append,
    utf8Length_cons, utf8Length_nil, hquote, utf8Length_ascii fun c hc =>
      Nat.lt_succ_of_le ((hplain c hc).2.trans (by decide)), hlength]
  omega

/-- The size of a valid response. -/
lemma utf8Length_modelDumpJson {sequence : ℕ} {records : List SyncRecord} {batch : SyncBatch}
    (h : serverBatch sequence records = .ok batch) :
    utf8Length (modelDumpJson batch) = pageBytes sequence records := by
  unfold serverBatch at h
  obtain ⟨device, hdevice, h⟩ := bind_eq_ok.mp h
  obtain ⟨cursor, hcursor, h⟩ := bind_eq_ok.mp h
  split_ifs at h
  rw [pure_eq_ok] at h
  have hdeviceText : device.text = Str.ofString "server" := by
    unfold identifier? at hdevice
    split_ifs at hdevice
    cases hdevice
    rfl
  have hcursorText : cursor.text = cursorText sequence := by
    unfold shortText? at hcursor
    split_ifs at hcursor
    cases hcursor
    rfl
  subst h
  have htext : modelDumpJson ⟨device, some cursor, records, ‹_›, ‹_›⟩ =
      Str.ofString "\x7b\"deviceID\":\"server\",\"cursor\":" ++
        (Json.writeString false (cursorText sequence) ++ (Str.ofString ",\"records\":[" ++
          (Json.joinComma (records.map SyncRecord.toJson) ++ Str.ofString "]\x7d"))) := by
    simp only [modelDumpJson, hdeviceText, jsonOption, hcursorText, jsonObject, Json.joinComma,
      jsonField, List.append_assoc, List.cons_append, List.nil_append]
    rfl
  have hfirst : utf8Length (Str.ofString "\x7b\"deviceID\":\"server\",\"cursor\":") = 30 := by
    decide
  have hsecond : utf8Length (Str.ofString ",\"records\":[") = 12 := by decide
  have hthird : utf8Length (Str.ofString "]\x7d") = 2 := by decide
  rw [htext]
  simp only [utf8Length_append, hfirst, hsecond, hthird, utf8Length_writeString_cursor]
  rw [pageBytes]
  omega

/-- A larger number has no fewer digits. -/
lemma length_ofNat_mono {m n : ℕ} (h : m ≤ n) : (Str.ofNat m).length ≤ (Str.ofNat n).length := by
  have hlength : ∀ k, (Str.ofNat k).length = (Nat.toDigits 10 k).length :=
    fun k => List.length_map _
  have hpos : 0 < (Nat.toDigits 10 n).length := Nat.length_toDigits_pos
  rw [hlength, hlength, Nat.length_toDigits_le_iff (by decide) hpos]
  exact lt_of_le_of_lt h ((Nat.length_toDigits_le_iff (by decide) hpos).mp le_rfl)

/-- The records of a page before others. -/
lemma utf8Length_joinComma_append_le (ts us : List Str) :
    utf8Length (Json.joinComma ts) ≤ utf8Length (Json.joinComma (ts ++ us)) := by
  induction ts with
  | nil => exact Nat.zero_le _
  | cons t ts ih =>
    cases ts with
    | nil =>
      cases us with
      | nil => exact le_rfl
      | cons u us =>
        simp only [List.cons_append, List.nil_append, Json.joinComma, utf8Length_append]
        omega
    | cons t' ts =>
      simp only [List.cons_append, Json.joinComma, utf8Length_append, utf8Length_cons] at ih ⊢
      omega

/-- A page with more records and a later cursor is not shorter. -/
lemma pageBytes_mono {m n : ℕ} (h : m ≤ n) (records more : List SyncRecord) :
    pageBytes m records ≤ pageBytes n (records ++ more) := by
  have hdigits := length_ofNat_mono h
  have hrecords := utf8Length_joinComma_append_le (records.map SyncRecord.toJson)
    (more.map SyncRecord.toJson)
  rw [pageBytes, pageBytes, List.map_append]
  omega

/-- A part of a page that fits does so under an earlier cursor. -/
lemma Fits.mono {m n : ℕ} {records more : List SyncRecord} (h : Fits n (records ++ more))
    (hle : m ≤ n) : Fits m records := by
  obtain ⟨hcount, hpayload, hbytes⟩ := h
  refine ⟨?_, ?_, (pageBytes_mono hle records more).trans hbytes⟩
  · rw [List.length_append] at hcount
    omega
  · rw [payloadBytes, List.map_append, List.sum_append] at hpayload
    exact (Nat.le_add_right _ _).trans hpayload

/-- What the page check answers. -/
lemma pullPageAccepts_eq_ok {records : List SyncRecord} {record : SyncRecord} {sequence : ℕ}
    {fits : Bool} (h : pullPageAccepts records record sequence = .ok fits) :
    fits = true ↔ Fits sequence (records ++ [record]) := by
  unfold pullPageAccepts at h
  split_ifs at h with hcount hbytes
  · cases h
    simp only [Bool.false_eq_true, false_iff]
    rintro ⟨hcount', -, -⟩
    rw [List.length_append, List.length_singleton] at hcount'
    omega
  · cases h
    simp only [Bool.false_eq_true, false_iff]
    rintro ⟨-, hbytes', -⟩
    rw [payloadBytes_concat] at hbytes'
    omega
  · obtain ⟨batch, hbatch, h⟩ := bind_eq_ok.mp h
    rw [pure_eq_ok, utf8Length_modelDumpJson hbatch] at h
    rw [← h, decide_eq_true_eq]
    refine ⟨fun hle => ⟨?_, ?_, hle⟩, Fits.bytes⟩
    · rw [List.length_append, List.length_singleton]
      omega
    · rw [payloadBytes_concat]
      omega

/-! ### The loop -/

/-- Changes whose records fit one page are consumed.

**Proof sketch.** By induction on the changes. A record that was refused would not fit, but the page
that ends with it is a part of a page that fits. -/
lemma pullLoop_append {page : PageContext} {changes rest : List SyncChangeLog}
    {records new : List SyncRecord} {start top : ℕ} {records' : List SyncRecord} {last : ℕ}
    (h : pullLoop page (changes ++ rest) records start = .ok (records', last))
    (hnew : deliveredRecords (pageEntity page) changes = .ok new)
    (htop : ∀ c ∈ changes, (pageEntity page c).isSome → c.sequence ≤ top)
    (hfits : Fits top (records ++ new)) :
    pullLoop page rest (records ++ new) (advance SyncChangeLog.sequence start changes) =
      .ok (records', last) := by
  induction changes generalizing records new start with
  | nil =>
    obtain rfl : [] = new := Except.ok.inj hnew
    rw [List.append_nil]
    exact h
  | cons change changes ih =>
    rw [List.forall_mem_cons] at htop
    rw [List.cons_append] at h
    unfold pullLoop at h
    split at h
    · rename_i hentity
      rw [deliveredRecords_cons_none hentity] at hnew
      exact ih h hnew htop.2 hfits
    · rename_i e hentity
      obtain ⟨record, hrecord, h⟩ := bind_eq_ok.mp h
      obtain ⟨fits, haccepts, h⟩ := bind_eq_ok.mp h
      have hcons : ∃ more, new = record :: more ∧
          deliveredRecords (pageEntity page) changes = .ok more := by
        simp only [deliveredRecords, deliveries, List.filterMap_cons, hentity, Option.map_some,
          List.mapM_cons, hrecord, ok_bind] at hnew
        obtain ⟨more, hmore, hnew⟩ := bind_eq_ok.mp hnew
        exact ⟨more, (Except.ok.inj hnew).symm, hmore⟩
      obtain ⟨more, rfl, hmore⟩ := hcons
      have hlist : records ++ record :: more = (records ++ [record]) ++ more := by simp
      rw [hlist] at hfits ⊢
      have htrue := (pullPageAccepts_eq_ok haccepts).mpr (hfits.mono (htop.1 (by simp [hentity])))
      rw [htrue, if_pos rfl] at h
      exact ih h hmore htop.2 hfits

/-- A page that was built so far is the first part of the response. -/
lemma pullLoop_extends {page : PageContext} {changes : List SyncChangeLog}
    {records : List SyncRecord} {start : ℕ} {records' : List SyncRecord} {last : ℕ}
    (h : pullLoop page changes records start = .ok (records', last)) :
    start ≤ last ∧ ∃ new, records' = records ++ new := by
  obtain ⟨consumed, rest, new, -, hlast, hnew, -, -⟩ := pullLoop_eq_ok h
  exact ⟨hlast ▸ le_advance start consumed, new, hnew⟩

/-- Whether a response was built of skipped changes only, or with which change its last record was
added, and which changes were skipped after it.

**Proof sketch.** By induction on the changes. -/
lemma pullLoop_last {page : PageContext} {changes : List SyncChangeLog} {records : List SyncRecord}
    {start : ℕ} {records' : List SyncRecord} {last : ℕ}
    (h : pullLoop page changes records start = .ok (records', last)) :
    records' = records ∨
    ∃ before delivered skipped rest new, changes = before ++ delivered :: (skipped ++ rest) ∧
      (pageEntity page delivered).isSome ∧ (∀ c ∈ skipped, pageEntity page c = none) ∧
      deliveredRecords (pageEntity page) (before ++ [delivered]) = .ok new ∧
      records' = records ++ new ∧ Fits delivered.sequence records' ∧
      last = advance SyncChangeLog.sequence start (before ++ delivered :: skipped) := by
  induction changes generalizing records start with
  | nil =>
    simp only [pullLoop, Except.ok.injEq, Prod.mk.injEq] at h
    exact Or.inl h.1.symm
  | cons change changes ih =>
    unfold pullLoop at h
    split at h
    · rename_i hentity
      refine (ih h).imp_right ?_
      rintro ⟨before, delivered, skipped, rest, new, rfl, hsome, hnone, hnew, hrecords, hfits,
        hlast⟩
      refine ⟨change :: before, delivered, skipped, rest, new, rfl, hsome, hnone, ?_, hrecords,
        hfits, hlast⟩
      rw [List.cons_append, deliveredRecords_cons_none hentity, hnew]
    · rename_i e hentity
      obtain ⟨record, hrecord, h⟩ := bind_eq_ok.mp h
      obtain ⟨fits, haccepts, h⟩ := bind_eq_ok.mp h
      cases fits with
      | false =>
        simp only [Bool.false_eq_true, ↓reduceIte, pure_eq_ok, Prod.mk.injEq] at h
        exact Or.inl h.1.symm
      | true =>
        simp only [↓reduceIte] at h
        have hpage := (pullPageAccepts_eq_ok haccepts).mp rfl
        right
        rcases ih h with hrecords | ⟨before, delivered, skipped, rest, new, rfl, hsome, hnone, hnew,
          hrecords, hfits, hlast⟩
        · -- nothing was added after this record
          obtain ⟨consumed, rest, new, rfl, hlast, hnew, hdelivered, -⟩ := pullLoop_eq_ok h
          have hnil : new = [] := List.append_right_eq_self.mp (hnew.symm.trans hrecords)
          subst hnil
          refine ⟨[], change, consumed, rest, [record], rfl, by simp [hentity], ?_,
            deliveredRecords_cons_some hentity hrecord rfl, hrecords, hrecords ▸ hpage, hlast⟩
          intro c hc
          by_contra hne
          obtain ⟨e', he'⟩ := Option.ne_none_iff_exists'.mp hne
          have hmem : (c, e') ∈ deliveries (pageEntity page) consumed :=
            List.mem_filterMap.mpr ⟨c, hc, by simp [he']⟩
          have hlength := (mapM_eq_ok_iff.mp hdelivered).length_eq
          rw [List.length_nil, List.length_eq_zero_iff] at hlength
          simp [hlength] at hmem
        · refine ⟨change :: before, delivered, skipped, rest, record :: new, rfl, hsome, hnone,
            deliveredRecords_cons_some hentity hrecord hnew, ?_, hfits, hlast⟩
          rw [hrecords, List.append_assoc, List.singleton_append]

/-! ### The ceilings of a response -/

/-- Wherever changes are skipped after a delivered one, the page that ends with the delivered record
fits under the cursors of the skipped ones too. -/
def SkipsLeaveRoom (db : Db) (principal : Principal) (start : ℕ) : Prop :=
  ∀ before delivered skipped last after records,
    scannedChanges db principal start = before ++ delivered :: (skipped ++ last :: after) →
    (deliverable db principal delivered).isSome →
    (∀ c ∈ skipped ++ [last], deliverable db principal c = none) →
    deliveredRecords (deliverable db principal) (before ++ [delivered]) = .ok records →
    Fits delivered.sequence records → Fits last.sequence records

/-- The scanned changes are in order. -/
lemma pairwise_scannedChanges (db : Db) (principal : Principal) (start : ℕ) :
    (scannedChanges db principal start).Pairwise fun a b => a.sequence ≤ b.sequence :=
  (List.pairwise_insertionSort _ _).take

/-- A response to a pull, with the loop that built it. -/
lemma pullSince_loop {db : Db} {principal : Principal} {cursor : Option Str} {start : ℕ}
    {batch : SyncBatch} (hpull : pullSince db principal cursor = .ok batch)
    (hstart : startSequence cursor = .ok start) :
    ∃ records last, pullLoop (loadPageContext db principal (scannedChanges db principal start))
        (scannedChanges db principal start) [] start = .ok (records, last) ∧
      serverBatch last records = .ok batch ∧ batch.records = records ∧
      (Str.ofNat last).length ≤ 252 := by
  unfold pullSince at hpull
  rw [hstart] at hpull
  split_ifs at hpull
  rw [ok_bind] at hpull
  obtain ⟨⟨records, last⟩, hloop, hbatch⟩ := bind_eq_ok.mp hpull
  refine ⟨records, last, hloop, hbatch, ?_⟩
  unfold serverBatch at hbatch
  obtain ⟨device, -, hbatch⟩ := bind_eq_ok.mp hbatch
  obtain ⟨text, htext, hbatch⟩ := bind_eq_ok.mp hbatch
  have hlength : (cursorText last).length ≤ maxSyncIdentifierLength := by
    unfold shortText? at htext
    split_ifs at htext with hcursor
    exact hcursor.1
  have hdigits : (cursorText last).length = 4 + (Str.ofNat last).length := List.length_append
  split_ifs at hbatch
  rw [pure_eq_ok] at hbatch
  subst hbatch
  refine ⟨rfl, ?_⟩
  rw [hdigits, maxSyncIdentifierLength] at hlength
  omega

/-- A change that is not delivered adds nothing. -/
lemma deliveredRecords_of_none {entity : SyncChangeLog → Option SyncEntity}
    {changes : List SyncChangeLog} (h : ∀ c ∈ changes, entity c = none) :
    deliveredRecords entity changes = .ok [] := by
  have hnil : deliveries entity changes = [] :=
    List.filterMap_eq_nil_iff.mpr fun c hc => by rw [h c hc, Option.map_none]
  rw [deliveredRecords, hnil]
  rfl

section Loop

variable {db : Db} {principal : Principal} {start last : ℕ} {records : List SyncRecord}

/-- In a response that fits, the skipped changes left room.

**Proof sketch.** A page that fits under the sequence of its last record is consumed
(`pullLoop_append`), and so are the skipped changes after it; the response only has more records and
a later cursor. -/
lemma skipsLeaveRoom_of_fits
    (hloop : pullLoop (loadPageContext db principal (scannedChanges db principal start))
      (scannedChanges db principal start) [] start = .ok (records, last))
    (hall : Fits last records) : SkipsLeaveRoom db principal start := by
  intro before delivered skipped final after new hscan hsome hnone hnew hfits
  have hlist : before ++ delivered :: (skipped ++ final :: after) =
      (before ++ [delivered]) ++ ((skipped ++ [final]) ++ after) := by simp
  rw [hlist] at hscan
  have hsorted := pairwise_scannedChanges db principal start
  rw [hscan, List.pairwise_append, List.pairwise_append] at hsorted
  have hpage : ∀ c ∈ (before ++ [delivered]) ++ (skipped ++ [final]), pageEntity (loadPageContext db
      principal (scannedChanges db principal start)) c = deliverable db principal c := by
    refine fun c hc => pageEntity_eq ?_
    rw [hscan, ← List.append_assoc]
    exact List.mem_append_left _ hc
  rw [List.forall_mem_append] at hpage
  have htop : ∀ c ∈ before ++ [delivered], c.sequence ≤ delivered.sequence :=
    List.forall_mem_append.mpr
      ⟨fun c hc => hsorted.1.2.2 c hc delivered (List.mem_singleton_self _), by simp⟩
  have hskipped := deliveredRecords_of_none fun c hc => (hpage.2 c hc).trans (hnone c hc)
  have hsplit := hloop
  nth_rewrite 2 [hscan] at hsplit
  have hfirst := pullLoop_append hsplit ((deliveredRecords_congr hpage.1).trans hnew)
    (fun c hc _ => htop c hc) (by simpa using hfits)
  rw [List.nil_append] at hfirst
  have hsecond := pullLoop_append hfirst hskipped
    (fun c hc hvisible => by rw [hpage.2 c hc, hnone c hc] at hvisible; cases hvisible)
    (by simpa using hfits)
  rw [List.append_nil] at hsecond
  obtain ⟨hle, more, rfl⟩ := pullLoop_extends hsecond
  exact hall.mono
    ((key_le_advance (List.mem_append_right _ (List.mem_singleton_self _))).trans hle)

/-- When the skipped changes leave room, a response fits.

**Proof sketch.** The last record was accepted under its own sequence, and when changes were skipped
after it, the cursor is the sequence of the last of them. A page without records is short. -/
lemma fits_of_skipsLeaveRoom
    (hloop : pullLoop (loadPageContext db principal (scannedChanges db principal start))
      (scannedChanges db principal start) [] start = .ok (records, last))
    (hdigits : (Str.ofNat last).length ≤ 252) (hroom : SkipsLeaveRoom db principal start) :
    Fits last records := by
  have hentity : ∀ c ∈ scannedChanges db principal start, pageEntity (loadPageContext db principal
      (scannedChanges db principal start)) c = deliverable db principal c :=
    fun c hc => pageEntity_eq hc
  have hafter : ∀ c ∈ scannedChanges db principal start, start ≤ c.sequence := fun c hc =>
    (mem_pending.mp (List.mem_of_mem_take hc)).2.le
  have hsorted := pairwise_scannedChanges db principal start
  rcases pullLoop_last hloop with rfl | ⟨before, delivered, skipped, rest, new, hscan, hsome, hnone,
    hnew, hpage, hfits, hlast⟩
  · refine ⟨Nat.zero_le _, Nat.zero_le _, ?_⟩
    have hzero : utf8Length (Json.joinComma (List.map SyncRecord.toJson [])) = 0 := rfl
    rw [pageBytes, maxSyncPullResponseBytes]
    omega
  · rw [List.nil_append] at hpage
    subst hpage
    have hconsumed : ∀ c ∈ before ++ delivered :: skipped,
        c ∈ scannedChanges db principal start := by
      intro c hc
      rw [hscan, ← List.cons_append, ← List.append_assoc]
      exact List.mem_append_left _ hc
    rw [hscan, ← List.cons_append, ← List.append_assoc, List.pairwise_append] at hsorted
    rcases List.eq_nil_or_concat skipped with rfl | ⟨skipped, final, rfl⟩
    · rw [advance_concat hsorted.1 (hafter delivered (hconsumed delivered (by simp)))] at hlast
      rw [hlast]
      exact hfits
    · rw [List.concat_eq_append] at hsorted hlast hscan hnone hconsumed
      rw [← List.cons_append, ← List.append_assoc] at hsorted hlast
      rw [advance_concat hsorted.1 (hafter final (hconsumed final (by simp)))] at hlast
      rw [List.append_assoc] at hscan
      rw [hlast]
      refine hroom before delivered skipped final rest records hscan ?_ ?_ ?_ hfits
      · rw [← hentity delivered (hconsumed delivered (by simp))]
        exact hsome
      · intro c hc
        rw [← hentity c (hconsumed c (List.mem_append_right _ (List.mem_cons_of_mem _ hc)))]
        exact hnone c hc
      · rw [← hnew]
        refine deliveredRecords_congr fun c hc => (hentity c (hconsumed c ?_)).symm
        rw [← List.singleton_append, ← List.append_assoc]
        exact List.mem_append_left _ hc

end Loop

/-- **The ceilings of a response.** It is within them exactly when the skipped changes leave room.
-/
theorem pullSince_ceilings (db : Db) (principal : Principal) (cursor : Option Str) (start : ℕ)
    (batch : SyncBatch) (hpull : pullSince db principal cursor = .ok batch)
    (hstart : startSequence cursor = .ok start) :
    (batch.records.length ≤ maxSyncRecords ∧
      payloadBytes batch.records ≤ maxSyncV1BatchPayloadBytes ∧
      utf8Length (modelDumpJson batch) ≤ maxSyncPullResponseBytes) ↔
    SkipsLeaveRoom db principal start := by
  obtain ⟨records, last, hloop, hbatch, hrecords, hdigits⟩ := pullSince_loop hpull hstart
  rw [hrecords, utf8Length_modelDumpJson hbatch]
  constructor
  · rintro ⟨hcount, hpayload, hbytes⟩
    exact skipsLeaveRoom_of_fits hloop ⟨hcount, hpayload, hbytes⟩
  · intro hroom
    obtain ⟨hcount, hpayload, hbytes⟩ := fits_of_skipsLeaveRoom hloop hdigits hroom
    exact ⟨hcount, hpayload, hbytes⟩

namespace Sample

/-- A member whose scope is the customer. -/
def narrow : Principal :=
  { principal with customerIds := ["c"], allCustomers := false, allProjects := false }

/-- A customer in the store. -/
def smallEntity (revision : ℕ) : SyncEntity :=
  ⟨revision, some ⟨bulky 0, by
    obtain ⟨payload, -, hitems⟩ := bulkyRecord_decodes (n := 0) (by decide)
    exact hitems ▸ payload.wellFormed⟩, time, none⟩

/-- A change of a customer. -/
def smallChange (n : ℕ) (customer : String) : SyncChangeLog :=
  { sequence := n
    organizationId := "o"
    entityType := .customer
    entityId := identifier customer
    serverRevision := n
    clientMutationId := none
    operation := .upsert }

/-- The customer of the member's scope was pushed, and then another one. -/
def twoCustomers : Db :=
  { db with
    customers := (db.customers.set ("o", "c") ⟨none⟩).set ("o", "x") ⟨none⟩
    entities := (db.entities.set ("o", .customer, "c") (smallEntity 1)).set ("o", .customer, "x")
      (smallEntity 2)
    changeLog := [smallChange 1 "c", smallChange 2 "x"]
    lastSequence := 2 }

/-- What a pull from the start scans. -/
lemma scannedChanges_twoCustomers :
    scannedChanges twoCustomers narrow 0 = [smallChange 1 "c", smallChange 2 "x"] :=
  rfl

/-- The skipped change leaves room: its sequence has as many digits as that of the delivered one. -/
lemma twoCustomers_room : SkipsLeaveRoom twoCustomers narrow 0 := by
  intro before delivered skipped last after records hscan _ _ _ hfits
  rw [scannedChanges_twoCustomers] at hscan
  have hlength := congrArg List.length hscan
  simp only [List.length_append, List.length_cons, List.length_nil] at hlength
  have hbefore : before = [] := List.eq_nil_of_length_eq_zero (by omega)
  have hskipped : skipped = [] := List.eq_nil_of_length_eq_zero (by omega)
  subst hbefore hskipped
  injection hscan with hdelivered hrest
  injection hrest with hlast
  subst hdelivered hlast
  exact ⟨hfits.count, hfits.payload, hfits.bytes⟩

end Sample

/-- The response with the change of the customer, whose cursor is behind a change that the member
may not see, is within the ceilings. -/
theorem pullSince_ceilings_sample :
    (∃ c ∈ scannedChanges Sample.twoCustomers Sample.narrow 0,
      deliverable Sample.twoCustomers Sample.narrow c = none) ∧
    ∃ batch, pullSince Sample.twoCustomers Sample.narrow none = .ok batch ∧
      batch.cursor.map ShortText.text = some (cursorText 2) ∧
      batch.records.length ≤ maxSyncRecords ∧
      payloadBytes batch.records ≤ maxSyncV1BatchPayloadBytes ∧
      utf8Length (modelDumpJson batch) ≤ maxSyncPullResponseBytes := by
  refine ⟨⟨Sample.smallChange 2 "x", ?_, rfl⟩, ?_⟩
  · rw [Sample.scannedChanges_twoCustomers]
    exact List.mem_cons_of_mem _ List.mem_cons_self
  · have hrun : (pullSince Sample.twoCustomers Sample.narrow none).toOption.map
        (fun batch => batch.cursor.map ShortText.text) = some (some (cursorText 2)) := by
      decide +kernel
    obtain ⟨batch, hbatch, hcursor⟩ := Option.map_eq_some_iff.mp hrun
    have hpull := toOption_eq_some hbatch
    exact ⟨batch, hpull, hcursor, (pullSince_ceilings Sample.twoCustomers Sample.narrow none 0 batch
      hpull rfl).mpr Sample.twoCustomers_room⟩

/-! ### A page that grows -/

namespace Sample

/-- A mutation identifier of a client that fills it with control characters: each is six bytes long
in a response. -/
def crowdedMutation (n : ℕ) : Str :=
  Str.ofString "push-" ++ (Str.ofNat n ++ List.replicate 186 1)

/-- A change of the sample customer. -/
def crowdedChange (n : ℕ) : SyncChangeLog :=
  { sequence := n
    organizationId := "o"
    entityType := .customer
    entityId := identifier "c"
    serverRevision := n
    clientMutationId := (shortText? (crowdedMutation n)).toOption
    operation := .upsert }

/-- A change of a customer outside the scope of the member below. -/
def hiddenChange : SyncChangeLog :=
  { sequence := 100000000
    organizationId := "o"
    entityType := .customer
    entityId := identifier "x"
    serverRevision := 100000000
    clientMutationId := none
    operation := .upsert }

/-- The payload of the customer. -/
def crowdedPayload : Payload :=
  ⟨bulky 13921, by
    obtain ⟨payload, -, hitems⟩ := bulkyRecord_decodes (n := 13921) (by decide)
    exact hitems ▸ payload.wellFormed⟩

/-- The customer. -/
def crowdedEntity : SyncEntity := ⟨113, some crowdedPayload, time, none⟩

/-- The sequences of the changes of the customer, up to the last number with eight digits. -/
def crowdedSequences : List ℕ := List.range' 99999887 113

/-- A customer that was pushed 113 times, and a change of another one. -/
def crowded : Db :=
  { db with
    customers := (db.customers.set ("o", "c") ⟨none⟩).set ("o", "x") ⟨none⟩
    entities := (db.entities.set ("o", .customer, "c") crowdedEntity).set ("o", .customer, "x")
      ⟨100000000, some crowdedPayload, time, none⟩
    changeLog := crowdedSequences.map crowdedChange ++ [hiddenChange]
    lastSequence := 100000000 }

/-- A change of the customer delivers it. -/
lemma deliverable_crowdedChange (n : ℕ) :
    deliverable crowded narrow (crowdedChange n) = some crowdedEntity := rfl

/-- The other change delivers nothing. -/
lemma deliverable_hiddenChange : deliverable crowded narrow hiddenChange = none := rfl

/-- The sequences of the changes of the customer have eight digits. -/
lemma length_crowdedSequences {n : ℕ} (h : n ∈ crowdedSequences) : (Str.ofNat n).length = 8 := by
  rw [crowdedSequences, List.mem_range'_1] at h
  refine le_antisymm ?_ ?_
  · exact (length_ofNat_mono (Nat.le_of_lt_succ h.2)).trans (by decide)
  · exact le_trans (by decide) (length_ofNat_mono h.1)

/-- The size of the mutation identifier as it is written. -/
lemma utf8Length_crowdedMutation {n : ℕ} (h : n ∈ crowdedSequences) :
    utf8Length (Json.writeString false (crowdedMutation n)) = 1131 := by
  have hpush : ∀ c ∈ Str.ofString "push-", Json.IsPlain c ∧ c.val ≤ 0x7e :=
    plain_of_all (by decide +kernel)
  have hplain : ∀ c ∈ Str.ofString "push-" ++ Str.ofNat n, Json.IsPlain c ∧ c.val ≤ 0x7e :=
    List.forall_mem_append.mpr ⟨hpush, ofNat_plain n⟩
  have hascii := utf8Length_ascii fun c hc => Nat.lt_succ_of_le ((hplain c hc).2.trans (by decide))
  have hcontrol : utf8Length (Json.escapeChar false 1) = 6 := by decide
  have hcontrols : ∀ k : ℕ,
      utf8Length ((List.replicate k 1).flatMap (Json.escapeChar false)) = 6 * k := by
    intro k
    induction k with
    | zero => rfl
    | succ k ih =>
      rw [List.replicate_succ, List.flatMap_cons, utf8Length_append, hcontrol, ih]
      omega
  have hquote : (utf8 (Json.ch '"')).length = 1 := by decide
  have hlength : (Str.ofString "push-" ++ Str.ofNat n).length = 5 + (Str.ofNat n).length :=
    List.length_append
  rw [Json.writeString, crowdedMutation, ← List.append_assoc, List.flatMap_append,
    flatMap_escapeChar_plain hplain]
  simp only [utf8Length_cons, utf8Length_append, utf8Length_nil, hquote, hascii, hlength, hcontrols,
    length_crowdedSequences h]

/-- The record of a change of the customer, with its size. -/
lemma pullRecord_crowdedChange {n : ℕ} (h : n ∈ crowdedSequences) :
    ∃ record, pullRecord (crowdedChange n) crowdedEntity = .ok record ∧
      utf8Length record.toJson = 19910 ∧ record.payload.length = 18584 := by
  have hdigits := length_crowdedSequences h
  have hbound : n ≤ maxCursorSequence := by
    rw [crowdedSequences, List.mem_range'_1] at h
    exact (Nat.le_of_lt_succ h.2).trans (by decide)
  have hpush : (Str.ofString "push-").length = 5 := by decide
  have hmutation : (crowdedMutation n).length ≤ maxSyncIdentifierLength ∧
      Encodable (crowdedMutation n) := by
    refine ⟨?_, Encodable.append (encodable_map_ofChar _)
      (Encodable.append (encodable_map_ofChar _) (by decide))⟩
    rw [crowdedMutation, List.length_append, List.length_append, hdigits, List.length_replicate,
      hpush]
    decide
  have hshort : (crowdedChange n).clientMutationId =
      some ⟨crowdedMutation n, hmutation.1, hmutation.2⟩ := by
    simp only [crowdedChange, shortText?, dif_pos hmutation]
    rfl
  have hjson : (entityJson crowdedEntity).length = 13938 := length_dumps_bulky 13921
  have hpayload : (b64encode (asciiBytes (entityJson crowdedEntity))).length = 18584 := by
    rw [length_b64encode, asciiBytes, List.length_map, hjson]
  have hwire : (b64encode (asciiBytes (entityJson crowdedEntity))).length ≤
      maxSyncV1WirePayloadBytes := hpayload.trans_le (by decide)
  obtain ⟨id, hid⟩ := identifier?_server hbound
  have hidText : id.text = Str.ofString "server:" ++ Str.ofNat n := by
    unfold identifier? at hid
    split_ifs at hid
    cases hid
    rfl
  obtain ⟨record, hrecord, hrecordId, hrecordType, hrecordEntity, hupdated, hrecordPayload, hbase,
      hserverRevision, hclient, hdeleted⟩ : ∃ record,
      pullRecord (crowdedChange n) crowdedEntity = .ok record ∧ record.id = id ∧
      record.entityType = .customer ∧ record.entityID = identifier "c" ∧ record.updatedAt = time ∧
      record.payload = b64encode (asciiBytes (entityJson crowdedEntity)) ∧
      record.baseServerRevision = none ∧ record.serverRevision = some 113 ∧
      record.clientMutationID = some ⟨crowdedMutation n, hmutation.1, hmutation.2⟩ ∧
      record.deletedAt = none := by
    have hsequence : (crowdedChange n).sequence = n := rfl
    simp only [pullRecord, hsequence, hid, ok_bind, dif_pos hwire, hshort]
    exact ⟨_, rfl, rfl, rfl, rfl, rfl, rfl, rfl, rfl, rfl, rfl⟩
  refine ⟨record, hrecord, ?_, hrecordPayload ▸ hpayload⟩
  have hserver : ∀ c ∈ Str.ofString "server:" ++ Str.ofNat n, Json.IsPlain c ∧ c.val ≤ 0x7e :=
    List.forall_mem_append.mpr ⟨plain_of_all (by decide +kernel), ofNat_plain n⟩
  have hquote : (utf8 (Json.ch '"')).length = 1 := by decide
  have hidLength : utf8Length (Json.writeString false id.text) = 17 := by
    have hseven : (Str.ofString "server:").length = 7 := by decide
    rw [hidText, Json.writeString, flatMap_escapeChar_plain hserver, utf8Length_cons,
      utf8Length_append, utf8Length_cons, utf8Length_nil, hquote, utf8Length_ascii fun c hc =>
        Nat.lt_succ_of_le ((hserver c hc).2.trans (by decide)), List.length_append, hdigits, hseven]
  have hdata := utf8Length_payload (asciiBytes (entityJson crowdedEntity))
  rw [hpayload] at hdata
  have htime : utf8Length (Json.writeString false time.jsonText) = 22 := by decide
  have hrevision : utf8Length (Str.ofNat 113) = 3 := by decide
  have hentity : utf8Length (Json.writeString false (identifier "c").text) = 3 := by decide
  have htype :
      utf8Length (Json.writeString false (Str.ofString EntityType.customer.name)) = 10 := by
    decide
  have hnull : utf8Length (Str.ofString "null") = 4 := by decide
  have hname : ∀ (name : String) (value : Str), utf8Length (jsonField name value) =
      utf8Length (Json.writeString false (Str.ofString name)) + 1 + utf8Length value := by
    intro name value
    have hcolon : (utf8 (Json.ch ':')).length = 1 := by decide
    rw [jsonField, utf8Length_append, utf8Length_cons, hcolon, Nat.add_assoc]
  have hnames : ["id", "entityType", "entityID", "updatedAt", "payload", "baseServerRevision",
      "serverRevision", "clientMutationID", "deletedAt"].map (fun name =>
        utf8Length (Json.writeString false (Str.ofString name))) =
      [4, 12, 10, 11, 9, 20, 16, 18, 11] := by decide
  simp only [List.map_cons, List.map_nil, List.cons.injEq, and_true] at hnames
  obtain ⟨h₁, h₂, h₃, h₄, h₅, h₆, h₇, h₈, h₉⟩ := hnames
  have hcomma : (utf8 (Json.ch ',')).length = 1 := by decide
  have hopen : (utf8 (Json.ch '{')).length = 1 := by decide
  have hclose : (utf8 (Json.ch '}')).length = 1 := by decide
  simp only [SyncRecord.toJson, jsonObject, Json.joinComma, utf8Length_cons, utf8Length_append,
    utf8Length_nil, hname, h₁, h₂, h₃, h₄, h₅, h₆, h₇, h₈, h₉, hcomma, hopen, hclose, jsonOption,
    hrecordId, hrecordType, hrecordEntity, hupdated, hrecordPayload, hbase, hserverRevision,
    hclient, hdeleted, hidLength, hdata, htime, hrevision, hentity, htype, hnull,
    utf8Length_crowdedMutation h]

/-- The sequences of all changes. -/
lemma crowded_sequences : (crowdedSequences.map crowdedChange ++ [hiddenChange]).map
    SyncChangeLog.sequence = List.range' 99999887 114 := by
  rw [List.map_append, List.map_map, crowdedSequences, List.range'_concat]
  exact congrArg (· ++ [100000000]) (List.map_id _)

/-- The bounds of these sequences. -/
lemma crowded_bounds {c : SyncChangeLog}
    (h : c ∈ crowdedSequences.map crowdedChange ++ [hiddenChange]) :
    0 < c.sequence ∧ c.sequence ≤ maxCursorSequence := by
  have hmem := List.mem_map_of_mem (f := SyncChangeLog.sequence) h
  rw [crowded_sequences, List.mem_range'_1] at hmem
  rw [maxCursorSequence]
  omega

/-- The changes of the organization. -/
lemma organizationLog_crowded : organizationLog crowded narrow.organizationId =
    crowdedSequences.map crowdedChange ++ [hiddenChange] := by
  refine List.filter_eq_self.mpr (List.forall_mem_append.mpr ⟨?_, ?_⟩)
  · simp only [List.forall_mem_map]
    exact fun _ _ => rfl
  · simp only [List.forall_mem_singleton]
    rfl

/-- What a pull from the start scans. -/
lemma scannedChanges_crowded :
    scannedChanges crowded narrow 0 = crowdedSequences.map crowdedChange ++ [hiddenChange] := by
  have hsorted : (crowdedSequences.map crowdedChange ++ [hiddenChange]).Pairwise
      fun a b => a.sequence ≤ b.sequence := by
    rw [← List.pairwise_map (R := (· ≤ ·)), crowded_sequences]
    exact List.pairwise_le_range'
  rw [scannedChanges, pendingChanges, organizationLog_crowded, pending,
    List.filter_eq_self.mpr fun c hc => decide_eq_true (crowded_bounds hc).1,
    List.Pairwise.insertionSort_eq hsorted, List.take_of_length_le]
  simp [crowdedSequences, maxSyncPullScanChanges]

/-- The pull from the start returns. -/
lemma crowded_pull : ∃ batch, pullSince crowded narrow none = .ok batch := by
  have hkeys : DistinctSequences crowded := by
    rw [DistinctSequences]
    exact crowded_sequences ▸ List.nodup_range'
  have hfits : FitsEmptyPage crowded narrow := by
    intro c hc e he
    rw [organizationLog_crowded] at hc
    have hbound := (crowded_bounds hc).2
    rcases List.mem_append.mp hc with hc | hc
    · obtain ⟨n, -, rfl⟩ := List.mem_map.mp hc
      rw [deliverable_crowdedChange] at he
      obtain rfl := Option.some.inj he
      refine fitsAlone_of_length_le ?_ hbound (by decide)
      exact (length_dumps_bulky 13921).trans_le (by decide)
    · rw [List.mem_singleton.mp hc, deliverable_hiddenChange] at he
      cases he
  have hstart : startSequence none = .ok 0 := rfl
  obtain ⟨batch, -, -, hpull, -⟩ :=
    pullSince_page hkeys (fun c hc => (crowded_bounds hc).2) hfits rfl hstart
  exact ⟨batch, hpull⟩

/-- The records of changes of the customer, with their size. -/
lemma deliveredRecords_crowded (ns : List ℕ) (h : ∀ n ∈ ns, n ∈ crowdedSequences) :
    ∃ records, deliveredRecords (deliverable crowded narrow) (ns.map crowdedChange) = .ok records ∧
      records.length = ns.length ∧ payloadBytes records = 18584 * ns.length ∧
      utf8Length (Json.joinComma (records.map SyncRecord.toJson)) = 19911 * ns.length - 1 := by
  induction ns with
  | nil => exact ⟨[], rfl, rfl, rfl, rfl⟩
  | cons n ns ih =>
    rw [List.forall_mem_cons] at h
    obtain ⟨records, hrecords, hlength, hpayload, hbytes⟩ := ih h.2
    obtain ⟨record, hrecord, hsize, hdata⟩ := pullRecord_crowdedChange h.1
    refine ⟨record :: records, deliveredRecords_cons_some (deliverable_crowdedChange n) hrecord
      hrecords, congrArg (· + 1) hlength, ?_, ?_⟩
    · rw [payloadBytes] at hpayload ⊢
      rw [List.map_cons, List.sum_cons, hpayload, hdata, List.length_cons]
      omega
    · have hcomma : (utf8 (Json.ch ',')).length = 1 := by decide
      cases records with
      | nil =>
        rw [List.length_nil] at hlength
        rw [List.map_cons, List.map_nil, Json.joinComma, hsize, List.length_cons, ← hlength]
      | cons other records =>
        rw [List.length_cons] at hlength
        simp only [List.map_cons, Json.joinComma, utf8Length_append, utf8Length_cons, hcomma, hsize,
          List.length_cons] at hbytes ⊢
        omega

/-- The skipped change leaves no room. -/
lemma crowded_no_room : ¬ SkipsLeaveRoom crowded narrow 0 := by
  intro hroom
  obtain ⟨records, hrecords, hlength, hpayload, hbytes⟩ :=
    deliveredRecords_crowded crowdedSequences fun _ h => h
  have hcount : crowdedSequences.length = 113 := List.length_range'
  have hlast : crowdedSequences = List.range' 99999887 112 ++ [99999999] := List.range'_concat
  have hscan := scannedChanges_crowded
  rw [hlast, List.map_append, List.append_assoc] at hscan
  rw [hlast, List.map_append] at hrecords
  rw [hcount] at hlength hpayload hbytes
  have hfits : Fits 99999999 records := by
    refine ⟨hlength.trans_le (by decide), hpayload.trans_le (by decide), ?_⟩
    have hdigits : (Str.ofNat 99999999).length = 8 := by decide
    rw [pageBytes, hbytes, hdigits, maxSyncPullResponseBytes]
  have hlong := (hroom _ (crowdedChange 99999999) [] hiddenChange [] records hscan rfl
    (by simp [deliverable_hiddenChange]) hrecords hfits).bytes
  have hdigits : (Str.ofNat hiddenChange.sequence).length = 9 := by decide
  rw [pageBytes, hbytes, hdigits, maxSyncPullResponseBytes] at hlong
  omega

end Sample

/-- A response above the ceiling: after 113 changes of a customer, whose page has 2250000 bytes with
a cursor of eight digits, a change of another customer is skipped, and its sequence has nine. -/
theorem pullSince_exceeds :
    ∃ db principal cursor batch, pullSince db principal cursor = .ok batch ∧
      maxSyncPullResponseBytes < utf8Length (modelDumpJson batch) := by
  obtain ⟨batch, hpull⟩ := Sample.crowded_pull
  refine ⟨Sample.crowded, Sample.narrow, none, batch, hpull, ?_⟩
  obtain ⟨records, last, hloop, hbatch, hrecords, -⟩ := pullSince_loop hpull rfl
  by_contra hle
  refine Sample.crowded_no_room (skipsLeaveRoom_of_fits hloop ⟨?_, ?_, ?_⟩)
  · exact hrecords ▸ batch.records_le
  · exact hrecords ▸ batch.payload_le
  · rw [← utf8Length_modelDumpJson hbatch]
    exact not_lt.mp hle

end VitrialSync
