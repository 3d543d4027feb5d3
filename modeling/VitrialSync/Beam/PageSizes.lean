import VitrialSync.Beam.FingerprintParity
import VitrialSync.Beam.JsonEncoder
import VitrialSync.Beam.Page
import VitrialSync.Server.PullCeiling

set_option relaxedAutoImplicit false
set_option autoImplicit false

/-!
# The sizes of a page

`VitrialSync.Page` adds up the sizes of the records as it appends them. The sum with the framing is
the size of the whole batch, and that is the length of its JSON text in UTF-8. A page is the longest
part of its candidates that can be delivered within the ceilings: it consumes what can never be
delivered, and ends at the first candidate that does not fit.

## Main definitions

* `VitrialSync.Beam.Page.batchByteSize` — `batch_byte_size/2`.
* `VitrialSync.Beam.Page.batchText` — the text of a `SyncBatch`.
* `VitrialSync.Beam.Page.Fits` — a record that breaks none of the ceilings after others.
* `VitrialSync.Beam.Page.Admissible` — candidates that can be consumed one by one.

## Main results

* `VitrialSync.Beam.Page.responseBytesWith_eq` — the sum is the size of the whole batch.
* `VitrialSync.Beam.Page.batchByteSize_eq` — which is the length of its text.
* `VitrialSync.Beam.Page.assemble_longest` — a page is the longest part that is admissible.
-/

namespace VitrialSync.Beam.Page

open Python Program

/-! ### The size of a batch -/

/-- `batch_byte_size/2`. -/
def batchByteSize (records : List PageRecord) (sequence : ℕ) : Except Raised ℕ := do
  let counts := records.foldl (fun acc record => (acc.1 + recordByteSize record, acc.2 + 1)) (0, 0)
  let cursor ← Cursor.encode sequence
  return utf8Length wirePrefix + escapedByteSize cursor + utf8Length wireMid + counts.1 +
    (counts.2 - 1) + utf8Length wireSuffix

/-- The JSON of a record: every field in the order of its declaration. -/
def recordText (record : PageRecord) : Str :=
  jsonObject
    [jsonField "id" (Json.writeString false record.id),
      jsonField "entityType" (Json.writeString false record.entityType.text),
      jsonField "entityID" (Json.writeString false record.entityId),
      jsonField "updatedAt" (Json.writeString false record.updatedAt),
      jsonField "payload" (Json.writeString false (record.payload.map Byte.toCodePoint)),
      jsonField "baseServerRevision" (jsonOption Str.ofNat record.baseServerRevision),
      jsonField "serverRevision" (jsonOption Str.ofNat record.serverRevision),
      jsonField "clientMutationID"
        (jsonOption (Json.writeString false) record.clientMutationId),
      jsonField "deletedAt" (jsonOption (Json.writeString false) record.deletedAt)]

/-- The JSON of a `SyncBatch` of the server. -/
def batchText (records : List PageRecord) (sequence : ℕ) : Str :=
  jsonObject
    [jsonField "deviceID" (Json.writeString false "server"),
      jsonField "cursor" (Json.writeString false (cursorText sequence)),
      jsonField "records"
        (Json.ch '[' :: (Json.joinComma (records.map recordText) ++ [Json.ch ']']))]

/-! ### The sum is the size -/

/-- The totals of a builder are those of its records. -/
structure Sums (builder : PageBuilder) : Prop where
  recordBytes : builder.recordBytes = (builder.records.map recordByteSize).sum
  payloadBytes : builder.payloadBytes = (builder.records.map fun r => r.payload.length).sum
  count : builder.count = builder.records.length

/-- The totals at the start. -/
lemma Sums.start (startSequence : ℕ) : Sums (.start startSequence) := ⟨rfl, rfl, rfl⟩

/-- A candidate that is consumed changes no total. -/
lemma Sums.consume {builder : PageBuilder} (h : Sums builder) (sequence : ℕ) :
    Sums (Page.consume builder sequence) := ⟨h.recordBytes, h.payloadBytes, h.count⟩

/-- A record is added to the totals. -/
lemma Sums.append {builder : PageBuilder} (h : Sums builder) (record : PageRecord) (sequence : ℕ) :
    Sums (Page.append builder record sequence) := by
  refine ⟨?_, ?_, ?_⟩
  · simp only [Page.append, h.recordBytes, List.map_cons, List.sum_cons]
    exact Nat.add_comm _ _
  · simp only [Page.append, h.payloadBytes, List.map_cons, List.sum_cons]
    exact Nat.add_comm _ _
  · simp only [Page.append, h.count, List.length_cons]

/-- The totals that `batch_byte_size/2` counts. -/
lemma foldl_counts (records : List PageRecord) :
    records.foldl (fun acc record => (acc.1 + recordByteSize record, acc.2 + 1)) (0, 0) =
      ((records.map recordByteSize).sum, records.length) := by
  have hfold : ∀ (records : List PageRecord) (acc : ℕ × ℕ),
      records.foldl (fun acc record => (acc.1 + recordByteSize record, acc.2 + 1)) acc =
        (acc.1 + (records.map recordByteSize).sum, acc.2 + records.length) := by
    intro records
    induction records with
    | nil => exact fun acc => rfl
    | cons record records ih =>
      intro acc
      rw [List.foldl_cons, ih, List.map_cons, List.sum_cons, List.length_cons]
      ext <;> simp <;> omega
  rw [hfold]
  simp

/-- **The running totals give the size of the whole batch.**

**Proof sketch.** The totals of the builder are sums over its records, and a sum does not depend on
the order; between as many records and the new one stand as many commas. -/
theorem responseBytesWith_eq {builder : PageBuilder} (h : Sums builder) (record : PageRecord)
    (sequence : ℕ) : responseBytesWith builder record sequence =
      batchByteSize (builder.records.reverse ++ [record]) sequence := by
  have hsum : ((builder.records.reverse ++ [record]).map recordByteSize).sum =
      builder.recordBytes + recordByteSize record := by
    rw [List.map_append, List.map_reverse, List.sum_append, List.sum_reverse, h.recordBytes,
      List.map_singleton, List.sum_singleton]
  have hcount : (builder.records.reverse ++ [record]).length - 1 = builder.count := by
    rw [List.length_append, List.length_reverse, List.length_singleton, h.count,
      Nat.add_sub_cancel]
  rw [responseBytesWith, batchByteSize]
  simp only [foldl_counts, hsum, hcount]

/-! ### The size is the length -/

/-- The response escapes as JSON does that leaves everything beyond ASCII as it is. -/
lemma escapeChar_raw (c : CodePoint) : escapeChar c = Json.escapeChar false c := by
  have htable : CanonicalJSON.shortEscapes = JSON.escapes := rfl
  cases hlookup : JSON.escapes.lookup c.val with
  | none =>
    simp only [JSON.escapeChar_table, escapeChar, htable, hlookup, CanonicalJSON.escapeUnit_eq]
  | some escaped => simp only [JSON.escapeChar_table, escapeChar, htable, hlookup]

/-- The size of a text between quotes. -/
lemma utf8Length_writeString (s : Str) : utf8Length (Json.writeString false s) = quotedSize s := by
  have hescape : escapeChar = Json.escapeChar false := funext escapeChar_raw
  have hquote : (utf8 (Json.ch '"')).length = 1 := by decide
  rw [Json.writeString, ← hescape, utf8Length_cons, utf8Length_append, utf8Length_cons,
    utf8Length_nil, hquote, quotedSize, escapedByteSize]
  omega

/-- The size of a text or null. -/
lemma utf8Length_optionalString (s : Option Str) :
    utf8Length (jsonOption (Json.writeString false) s) = nullableQuotedSize s := by
  cases s with
  | none => decide
  | some s => exact utf8Length_writeString s

/-- The size of a number or null. -/
lemma utf8Length_optionalNumber (n : Option ℕ) :
    utf8Length (jsonOption Str.ofNat n) = numberSize n := by
  cases n with
  | none => decide
  | some n => rfl

/-- The size of a record. -/
lemma utf8Length_recordText (record : PageRecord) :
    utf8Length (recordText record) = recordByteSize record := by
  have htext : recordText record =
      Str.ofString "\x7b\"id\":" ++ (Json.writeString false record.id ++
      (Str.ofString ",\"entityType\":" ++ (Json.writeString false record.entityType.text ++
      (Str.ofString ",\"entityID\":" ++ (Json.writeString false record.entityId ++
      (Str.ofString ",\"updatedAt\":" ++ (Json.writeString false record.updatedAt ++
      (Str.ofString ",\"payload\":" ++
        (Json.writeString false (record.payload.map Byte.toCodePoint) ++
      (Str.ofString ",\"baseServerRevision\":" ++ (jsonOption Str.ofNat record.baseServerRevision ++
      (Str.ofString ",\"serverRevision\":" ++ (jsonOption Str.ofNat record.serverRevision ++
      (Str.ofString ",\"clientMutationID\":" ++
        (jsonOption (Json.writeString false) record.clientMutationId ++
      (Str.ofString ",\"deletedAt\":" ++ (jsonOption (Json.writeString false) record.deletedAt ++
        Str.ofString "\x7d"))))))))))))))))) := by
    simp only [recordText, jsonObject, Json.joinComma, jsonField, List.append_assoc,
      List.cons_append]
    rfl
  have hid : utf8Length (Str.ofString "\x7b\"id\":") = 6 := by decide
  have htype : utf8Length (Str.ofString ",\"entityType\":") = 14 := by decide
  have hentity : utf8Length (Str.ofString ",\"entityID\":") = 12 := by decide
  have hupdated : utf8Length (Str.ofString ",\"updatedAt\":") = 13 := by decide
  have hpayload : utf8Length (Str.ofString ",\"payload\":") = 11 := by decide
  have hbase : utf8Length (Str.ofString ",\"baseServerRevision\":") = 22 := by decide
  have hserver : utf8Length (Str.ofString ",\"serverRevision\":") = 18 := by decide
  have hmutation : utf8Length (Str.ofString ",\"clientMutationID\":") = 20 := by decide
  have hdeleted : utf8Length (Str.ofString ",\"deletedAt\":") = 13 := by decide
  have hclose : utf8Length (Str.ofString "\x7d") = 1 := by decide
  have hkeys : utf8Length recordKeys = 130 := by decide +kernel
  rw [htext]
  simp only [utf8Length_append, hid, htype, hentity, hupdated, hpayload, hbase, hserver, hmutation,
    hdeleted, hclose, utf8Length_writeString, utf8Length_optionalString, utf8Length_optionalNumber]
  simp only [recordByteSize, hkeys]
  ring

/-- The size of texts between commas. -/
lemma utf8Length_joinComma (ts : List Str) :
    utf8Length (Json.joinComma ts) = (ts.map utf8Length).sum + (ts.length - 1) := by
  have hcomma : (utf8 (Json.ch ',')).length = 1 := by decide
  induction ts with
  | nil => rfl
  | cons t ts ih =>
    cases ts with
    | nil => simp [Json.joinComma]
    | cons u ts =>
      rw [Json.joinComma, utf8Length_append, utf8Length_cons, ih, hcomma]
      · simp only [List.map_cons, List.sum_cons, List.length_cons]
        omega
      · simp

/-- **The size of a batch is the length of its text.** -/
theorem batchByteSize_eq (records : List PageRecord) {sequence : ℕ} (h : sequence ≤ 2 ^ 63 - 1) :
    batchByteSize records sequence = .ok (utf8Length (batchText records sequence)) := by
  have htext : batchText records sequence =
      Str.ofString "\x7b\"deviceID\":\"server\",\"cursor\":" ++
        (Json.writeString false (cursorText sequence) ++ (Str.ofString ",\"records\":[" ++
          (Json.joinComma (records.map recordText) ++ Str.ofString "]\x7d"))) := by
    simp only [batchText, jsonObject, Json.joinComma, jsonField, List.append_assoc,
      List.cons_append, List.nil_append]
    rfl
  have hfirst : utf8Length (Str.ofString "\x7b\"deviceID\":\"server\",\"cursor\":") = 30 := by
    decide
  have hsecond : utf8Length (Str.ofString ",\"records\":[") = 12 := by decide
  have hthird : utf8Length (Str.ofString "]\x7d") = 2 := by decide
  have hstart : utf8Length wirePrefix = 31 := by decide
  have hmid : utf8Length wireMid = 13 := by decide
  have hend : utf8Length wireSuffix = 2 := by decide
  have hsizes : (records.map recordText).map utf8Length = records.map recordByteSize := by
    rw [List.map_map]
    exact List.map_congr_left fun record _ => utf8Length_recordText record
  rw [htext]
  simp only [utf8Length_append, hfirst, hsecond, hthird, utf8Length_writeString,
    utf8Length_joinComma, hsizes, List.length_map]
  rw [batchByteSize, Cursor.encode, if_pos h]
  simp only [ok_bind, foldl_counts, hstart, hmid, hend, quotedSize]
  rw [pure_eq_ok]
  omega

/-! ### The longest part -/

/-- A record that breaks none of the ceilings after others: their number, the bytes of their
payloads, and the bytes of the response. -/
def Fits (records : List PageRecord) (record : PageRecord) (sequence : ℕ) : Prop :=
  records.length + 1 ≤ maxRecords ∧
    (records.map fun r => r.payload.length).sum + record.payload.length ≤ maxBatchPayloadBytes ∧
    ∃ bytes, batchByteSize (records ++ [record]) sequence = .ok bytes ∧ bytes ≤ maxResponseBytes

/-- The records that candidates deliver. -/
def delivered (candidates : List Candidate) : Except Raised (List PageRecord) :=
  (candidates.filter Candidate.deliverable).mapM toRecord

/-- Candidates that can be consumed one by one: each that can be delivered fits after those before
it. -/
def Admissible (candidates : List Candidate) : Prop :=
  ∀ before c after, candidates = before ++ c :: after → c.deliverable = true →
    ∃ records record, delivered before = .ok records ∧ toRecord c = .ok record ∧
      Fits records record c.sequence

section Walk

variable {builder builder' : PageBuilder} {candidate : Candidate} {candidates : List Candidate}
  {records : List PageRecord} {record : PageRecord}

/-- The test of a record is that it fits. -/
lemma accepts_iff (h : Sums builder) {sequence : ℕ} {fits : Bool}
    (htest : accepts builder record sequence = .ok fits) :
    fits = true ↔ Fits builder.records.reverse record sequence := by
  have hpayload : (builder.records.reverse.map fun r => r.payload.length).sum =
      builder.payloadBytes := by
    rw [List.map_reverse, List.sum_reverse, h.payloadBytes]
  unfold accepts at htest
  rw [Fits, List.length_reverse, hpayload, ← responseBytesWith_eq h, ← h.count]
  split_ifs at htest with hcount hbytes
  · cases htest
    refine ⟨(fun h => by cases h), fun h => ?_⟩
    have := h.1
    omega
  · cases htest
    refine ⟨(fun h => by cases h), fun h => ?_⟩
    have := h.2.1
    omega
  · obtain ⟨bytes, hresponse, htest⟩ := bind_eq_ok.mp htest
    rw [pure_eq_ok] at htest
    rw [← htest, decide_eq_true_eq, hresponse]
    constructor
    · exact fun hle => ⟨by omega, by omega, bytes, rfl, hle⟩
    · rintro ⟨-, -, bytes', hsame, hle⟩
      cases hsame
      exact hle

/-- A candidate that can be delivered adds its record. -/
lemma delivered_concat (hdone : delivered candidates = .ok records)
    (hdeliverable : candidate.deliverable = true) (hrecord : toRecord candidate = .ok record) :
    delivered (candidates ++ [candidate]) = .ok (records ++ [record]) := by
  have hone : [candidate].filter Candidate.deliverable = [candidate] := by
    rw [List.filter_cons, if_pos hdeliverable, List.filter_nil]
  rw [delivered] at hdone
  rw [delivered, List.filter_append, hone, List.mapM_append, hdone, ok_bind, List.mapM_cons,
    hrecord]
  rfl

/-- Another one adds nothing. -/
lemma delivered_concat_consumed (hdone : delivered candidates = .ok records)
    (hdeliverable : candidate.deliverable = false) :
    delivered (candidates ++ [candidate]) = .ok records := by
  have hnone : [candidate].filter Candidate.deliverable = [] := by
    rw [List.filter_cons, if_neg (by simp [hdeliverable]), List.filter_nil]
  rw [delivered, List.filter_append, hnone, List.append_nil]
  exact hdone

/-- One more candidate is admissible when it cannot be delivered or fits. -/
lemma Admissible.concat (h : Admissible candidates) (hdone : delivered candidates = .ok records)
    (hfits : candidate.deliverable = true →
      ∃ record, toRecord candidate = .ok record ∧ Fits records record candidate.sequence) :
    Admissible (candidates ++ [candidate]) := by
  intro before c after hsplit hdeliverable
  rcases List.eq_nil_or_concat after with rfl | ⟨after, last, rfl⟩
  · obtain ⟨hbefore, hc⟩ := List.append_inj' hsplit rfl
    cases hc
    obtain ⟨record, hrecord, hfit⟩ := hfits hdeliverable
    exact ⟨records, record, hbefore ▸ hdone, hrecord, hfit⟩
  · rw [List.concat_eq_append, ← List.cons_append, ← List.append_assoc] at hsplit
    exact h before c after (List.append_inj' hsplit rfl).1 hdeliverable

/-- The walk consumes the longest admissible part of the candidates.

**Proof sketch.** By induction on the candidates, for every builder that has come through `done`:
its totals are those of its records, its records are delivered by `done`, and `done` is
admissible. -/
lemma walk_longest {done : List Candidate} (h : walk builder candidates = .ok builder')
    (hsums : Sums builder) (hdone : delivered done = .ok builder.records.reverse)
    (hadmissible : Admissible done) (hstopped : builder.stoppedAt = none) :
    ∃ consumed rest, candidates = consumed ++ rest ∧ Admissible (done ++ consumed) ∧
      delivered (done ++ consumed) = .ok builder'.records.reverse ∧
      builder'.cursorSequence = advance Candidate.sequence builder.cursorSequence consumed ∧
      builder'.stoppedAt = rest.head?.map Candidate.sequence ∧
      ∀ c ∈ rest.head?, c.deliverable = true ∧
        ∃ record, toRecord c = .ok record ∧ ¬ Fits builder'.records.reverse record c.sequence := by
  induction candidates generalizing builder done with
  | nil =>
    cases h
    exact ⟨[], [], rfl, by rwa [List.append_nil], by rwa [List.append_nil], rfl, hstopped,
      fun c hc => by cases hc⟩
  | cons candidate candidates ih =>
    by_cases hdeliverable : candidate.deliverable = true
    · rw [walk_deliverable hdeliverable] at h
      obtain ⟨record, hrecord, h⟩ := bind_eq_ok.mp h
      obtain ⟨fits, htest, h⟩ := bind_eq_ok.mp h
      have hiff := accepts_iff hsums htest
      cases fits with
      | false =>
        cases h
        refine ⟨[], candidate :: candidates, rfl, by rwa [List.append_nil],
          by rwa [List.append_nil], rfl, rfl, fun c hc => ?_⟩
        obtain rfl : candidate = c := Option.some.inj hc
        exact ⟨hdeliverable, record, hrecord, fun hfits => by cases hiff.mpr hfits⟩
      | true =>
        have hnext : (append builder record candidate.sequence).records.reverse =
            builder.records.reverse ++ [record] := List.reverse_cons
        obtain ⟨consumed, rest, hsplit, hall, hrecords, hcursor, hstop, hrest⟩ :=
          ih h (hsums.append record candidate.sequence)
            (hnext ▸ delivered_concat hdone hdeliverable hrecord)
            (hadmissible.concat hdone fun _ => ⟨record, hrecord, hiff.mp rfl⟩) hstopped
        rw [List.append_assoc] at hall hrecords
        exact ⟨candidate :: consumed, rest, by rw [hsplit, List.cons_append], hall, hrecords,
          hcursor, hstop, hrest⟩
    · rw [Bool.not_eq_true] at hdeliverable
      rw [walk_consumed hdeliverable] at h
      obtain ⟨consumed, rest, hsplit, hall, hrecords, hcursor, hstop, hrest⟩ :=
        ih h (hsums.consume candidate.sequence) (delivered_concat_consumed hdone hdeliverable)
          (hadmissible.concat hdone fun htrue => by rw [hdeliverable] at htrue; cases htrue)
          hstopped
      rw [List.append_assoc] at hall hrecords
      exact ⟨candidate :: consumed, rest, by rw [hsplit, List.cons_append], hall, hrecords,
        hcursor, hstop, hrest⟩

/-- The totals of a walk are those of its records. -/
lemma Sums.walk (hsums : Sums builder) (h : Page.walk builder candidates = .ok builder') :
    Sums builder' := by
  induction candidates generalizing builder with
  | nil =>
    cases h
    exact hsums
  | cons candidate candidates ih =>
    by_cases hdeliverable : candidate.deliverable = true
    · rw [walk_deliverable hdeliverable] at h
      obtain ⟨record, -, h⟩ := bind_eq_ok.mp h
      obtain ⟨fits, -, h⟩ := bind_eq_ok.mp h
      cases fits with
      | false =>
        cases h
        exact ⟨hsums.recordBytes, hsums.payloadBytes, hsums.count⟩
      | true => exact ih (hsums.append record candidate.sequence) h
    · rw [Bool.not_eq_true] at hdeliverable
      rw [walk_consumed hdeliverable] at h
      exact ih (hsums.consume candidate.sequence) h

/-- A candidate whose payload is a map, or missing, at a position of a cursor. -/
def Candidate.Typed (c : Candidate) : Prop :=
  (c.payloadJson = .none ∨ ∃ d, c.payloadJson = .dict d) ∧ c.sequence ≤ 2 ^ 63 - 1

/-- The record of a candidate. -/
lemma toRecord_typed (h : candidate.Typed) : ∃ record, toRecord candidate = .ok record := by
  obtain ⟨d, hd⟩ : ∃ d, orEmpty candidate.payloadJson = .dict d := by
    rcases h.1 with hnone | ⟨d, hd⟩
    · exact ⟨[], by rw [hnone]; rfl⟩
    · exact ⟨d, by rw [hd]; rfl⟩
  rw [toRecord, hd]
  exact ⟨_, rfl⟩

/-- The test of a record at a position of a cursor. -/
lemma accepts_typed (builder : PageBuilder) (record : PageRecord) {sequence : ℕ}
    (h : sequence ≤ 2 ^ 63 - 1) : ∃ fits, accepts builder record sequence = .ok fits := by
  unfold accepts
  split_ifs
  · exact ⟨_, rfl⟩
  · exact ⟨_, rfl⟩
  · rw [responseBytesWith, Cursor.encode, if_pos h]
    exact ⟨_, rfl⟩

/-- The walk through such candidates ends. -/
lemma walk_typed (builder : PageBuilder) (h : ∀ c ∈ candidates, c.Typed) :
    ∃ builder', walk builder candidates = .ok builder' := by
  induction candidates generalizing builder with
  | nil => exact ⟨builder, rfl⟩
  | cons candidate candidates ih =>
    rw [List.forall_mem_cons] at h
    by_cases hdeliverable : candidate.deliverable = true
    · obtain ⟨record, hrecord⟩ := toRecord_typed h.1
      obtain ⟨fits, htest⟩ := accepts_typed builder record h.1.2
      rw [walk_deliverable hdeliverable, hrecord, ok_bind, htest, ok_bind]
      cases fits with
      | true => exact ih _ h.2
      | false => exact ⟨_, rfl⟩
    · rw [Bool.not_eq_true] at hdeliverable
      rw [walk_consumed hdeliverable]
      exact ih _ h.2

/-- The cursor after candidates in order. -/
lemma advance_last {startSequence : ℕ}
    (hsorted : candidates.Pairwise fun a b => a.sequence < b.sequence)
    (hstart : ∀ c ∈ candidates, startSequence < c.sequence) :
    advance Candidate.sequence startSequence candidates =
      (candidates.getLast?.map Candidate.sequence).getD startSequence := by
  rcases List.eq_nil_or_concat candidates with rfl | ⟨init, last, rfl⟩
  · rfl
  · rw [List.concat_eq_append] at hsorted hstart ⊢
    rw [advance_concat (hsorted.imp fun h => h.le)
      (hstart last (List.mem_append_right _ (List.mem_singleton_self _))).le]
    simp

/-- What is admissible is no longer than what was consumed before a candidate that does not fit. -/
lemma prefix_of_admissible {consumed rest : List Candidate} (hsplit : candidates = consumed ++ rest)
    (hrecords : delivered consumed = .ok records)
    (hrest : ∀ c ∈ rest.head?, c.deliverable = true ∧
      ∃ record, toRecord c = .ok record ∧ ¬ Fits records record c.sequence)
    {part : List Candidate} (hpart : part <+: candidates) (hadmissible : Admissible part) :
    part <+: consumed := by
  rcases List.prefix_or_prefix_of_prefix hpart ⟨rest, hsplit.symm⟩ with h | ⟨more, rfl⟩
  · exact h
  · cases more with
    | nil => rw [List.append_nil]
    | cons c more =>
      exfalso
      obtain ⟨tail, htail⟩ := hpart
      have hhead : rest.head? = some c := by
        rw [hsplit, List.append_assoc] at htail
        rw [← List.append_cancel_left htail]
        rfl
      obtain ⟨hdeliverable, record, hrecord, hnot⟩ := hrest c hhead
      obtain ⟨records', record', hrecords', hrecord', hfits⟩ :=
        hadmissible consumed c more rfl hdeliverable
      rw [hrecords] at hrecords'
      rw [hrecord] at hrecord'
      cases hrecords'
      cases hrecord'
      exact hnot hfits

end Walk

/-- A numeral determines its number. -/
lemma ofNat_injective : Function.Injective Str.ofNat := by
  intro m n h
  rw [(Json.decimalDigits_spec m).2.1, (Json.decimalDigits_spec n).2.1] at h
  have hvalue : ∀ k, ofDigits ((Json.digitText (Json.decimalDigits k)).map fun c => c.val - 0x30) =
      k := by
    intro k
    have hsame : (Json.digitText (Json.decimalDigits k)).map (fun c => c.val - 0x30) =
        Json.decimalDigits k := by
      rw [Json.digitText, List.map_map]
      refine (List.map_congr_left fun d hd => ?_).trans (List.map_id _)
      have hd := (Json.decimalDigits_spec k).1.2 d hd
      simp only [Function.comp, Json.digitChar_val hd, id_eq]
      omega
    rw [hsame, Json.ofDigits_decimalDigits]
  rw [← hvalue m, ← hvalue n, h]

/-- The records of a page have distinct identifiers. -/
lemma nodup_ids {candidates : List Candidate} {records : List PageRecord}
    (hsorted : candidates.Pairwise fun a b => a.sequence < b.sequence)
    (h : delivered candidates = .ok records) : (records.map PageRecord.id).Nodup := by
  have hid : ∀ {c : Candidate} {record : PageRecord}, toRecord c = .ok record →
      record.id = Str.ofString "server:" ++ Str.ofNat c.sequence := by
    intro c record hrecord
    obtain ⟨payload, -, hrecord⟩ := bind_eq_ok.mp hrecord
    rw [pure_eq_ok] at hrecord
    rw [← hrecord]
  have hids : ∀ {cs : List Candidate} {rs : List PageRecord}, cs.mapM toRecord = .ok rs →
      rs.map PageRecord.id = cs.map fun c => Str.ofString "server:" ++ Str.ofNat c.sequence := by
    intro cs
    induction cs with
    | nil =>
      intro rs hrs
      cases hrs
      rfl
    | cons c cs ih =>
      intro rs hrs
      rw [List.mapM_cons] at hrs
      obtain ⟨record, hrecord, hrs⟩ := bind_eq_ok.mp hrs
      obtain ⟨rest, hrest, hrs⟩ := bind_eq_ok.mp hrs
      rw [pure_eq_ok] at hrs
      rw [← hrs, List.map_cons, List.map_cons, hid hrecord, ih hrest]
  rw [hids h]
  refine (hsorted.filter _).map _ fun a b hlt hsame => ?_
  exact hlt.ne (ofNat_injective (List.append_cancel_left hsame))

/-- **A page is the longest part of its candidates that is admissible.** It delivers those of the
part that can be delivered, each once; its cursor is the position of the last candidate of the part;
and it ends at a candidate only when that one can be delivered and would break a ceiling. The sizes
that are added up on the way are those of the whole batch, and these are the lengths of its text.

**Proof sketch.** The walk consumes an admissible part and stops at a candidate that does not fit
(`walk_longest`), so no longer part is admissible; sizes by `responseBytesWith_eq` and
`batchByteSize_eq`. -/
theorem assemble_longest {startSequence : ℕ} {candidates : List Candidate}
    (hsorted : candidates.Pairwise fun a b => a.sequence < b.sequence)
    (hstart : ∀ c ∈ candidates, startSequence < c.sequence) :
    ((∀ c ∈ candidates, c.Typed) → ∃ page, assemble startSequence candidates = .ok page) ∧
      (∀ page, assemble startSequence candidates = .ok page →
        ∃ consumed rest, candidates = consumed ++ rest ∧ Admissible consumed ∧
          (∀ part, part <+: candidates → Admissible part → part <+: consumed) ∧
          delivered consumed = .ok page.records ∧ (page.records.map PageRecord.id).Nodup ∧
          page.cursorSequence =
            (consumed.getLast?.map Candidate.sequence).getD startSequence ∧
          page.stoppedAt = rest.head?.map Candidate.sequence ∧
          ∀ c ∈ rest.head?, c.deliverable = true ∧
            ∃ record, toRecord c = .ok record ∧ ¬ Fits page.records record c.sequence) ∧
      (∀ part builder, part <+: candidates → walk (.start startSequence) part = .ok builder →
        ∀ record sequence, responseBytesWith builder record sequence =
          batchByteSize (builder.records.reverse ++ [record]) sequence) ∧
      ∀ records sequence, sequence ≤ 2 ^ 63 - 1 →
        batchByteSize records sequence = .ok (utf8Length (batchText records sequence)) := by
  refine ⟨fun htyped => ?_, fun page h => ?_, fun part builder _ h => ?_,
    fun records sequence h => batchByteSize_eq records h⟩
  · obtain ⟨builder, hwalk⟩ := walk_typed (.start startSequence) htyped
    rw [assemble, hwalk]
    exact ⟨_, rfl⟩
  · obtain ⟨builder, hwalk, hpage⟩ := bind_eq_ok.mp h
    rw [pure_eq_ok] at hpage
    obtain ⟨consumed, rest, hsplit, hadmissible, hrecords, hcursor, hstop, hrest⟩ :=
      walk_longest hwalk (.start startSequence) (show delivered [] = .ok [] from rfl)
        (fun before c after hnil => by simp at hnil) rfl
    rw [List.nil_append] at hadmissible hrecords
    have hpart : consumed <+: candidates := ⟨rest, hsplit.symm⟩
    have hsortedPart := hsorted.sublist hpart.sublist
    subst hpage
    refine ⟨consumed, rest, hsplit, hadmissible, fun part => prefix_of_admissible hsplit hrecords
      hrest, hrecords, nodup_ids hsortedPart hrecords, ?_, hstop, hrest⟩
    rw [hcursor]
    exact advance_last hsortedPart fun c hc => hstart c (hpart.subset hc)
  · have hsums := (Sums.start startSequence).walk h
    exact fun record sequence => responseBytesWith_eq hsums record sequence

namespace Sample

/-- A change of a customer. -/
def candidate (sequence : ℕ) (visible : Bool) : Candidate :=
  ⟨sequence, .known .customer, "customer-1", .none, 1, none, "2026-01-01T00:00:00+00:00", none,
    visible, true⟩

end Sample

/-- A page of two changes, of which one is not visible. -/
theorem assemble_longest_pair :
    ∃ page, assemble 2 [Sample.candidate 3 false, Sample.candidate 5 true] = .ok page ∧
      ∃ consumed rest, [Sample.candidate 3 false, Sample.candidate 5 true] = consumed ++ rest ∧
        Admissible consumed ∧ delivered consumed = .ok page.records ∧
        page.cursorSequence = (consumed.getLast?.map Candidate.sequence).getD 2 ∧
        page.stoppedAt = rest.head?.map Candidate.sequence := by
  have hsorted : [Sample.candidate 3 false, Sample.candidate 5 true].Pairwise
      fun a b => a.sequence < b.sequence := by
    simp [Sample.candidate]
  have hstart : ∀ c ∈ [Sample.candidate 3 false, Sample.candidate 5 true], 2 < c.sequence := by
    simp [Sample.candidate]
  have htyped : ∀ c ∈ [Sample.candidate 3 false, Sample.candidate 5 true], c.Typed := by
    simp [Sample.candidate, Candidate.Typed]
  obtain ⟨hreturns, hpage, -⟩ := assemble_longest hsorted hstart
  obtain ⟨page, h⟩ := hreturns htyped
  obtain ⟨consumed, rest, hsplit, hadmissible, -, hrecords, -, hcursor, hstop, -⟩ := hpage page h
  exact ⟨page, h, consumed, rest, hsplit, hadmissible, hrecords, hcursor, hstop⟩

end VitrialSync.Beam.Page
