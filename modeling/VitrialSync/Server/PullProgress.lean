import VitrialSync.Server.PullPages
import VitrialSync.Server.Settlement

set_option relaxedAutoImplicit false
set_option autoImplicit false

/-!
# A pull makes progress

The ceilings of a push count the bytes it received, those of a pull the base64 form of the payload
written again as ASCII JSON. A payload whose ASCII form has at most `maxPullJson` characters fits a
page of its own, whatever the other fields hold; a longer one cannot be sent at all, and then the
pull raises and the cursor never gets past it.

## Main definitions

* `VitrialSync.maxPullJson` — the longest JSON text that a record of a response can hold.
* `VitrialSync.Pullable` — the invariant: stored payloads are short enough, and sequences and
  revisions are counted.

## Main results

* `VitrialSync.fitsAlone_of_length_le` — a payload within the bound fits a page of its own.
* `VitrialSync.runPushes_pull_progress` — in a run of payloads within the bound every pull moves its
  cursor.
* `VitrialSync.pullSince_wedged` — a longer payload that a push accepts makes the pull raise.
-/

namespace VitrialSync

open Python Program

/-! ### Bytes of a response -/

/-- A hexadecimal digit is ASCII. -/
lemma hexDigit_ascii (n : ℕ) : (Json.hexDigit n).val < 0x80 := by
  unfold Json.hexDigit
  split_ifs
  · simp only [digitChar]
    omega
  · dsimp only
    omega

/-- A `\u` escape has six bytes. -/
lemma utf8Length_unitEscape (n : ℕ) : utf8Length (Json.unitEscape n) = 6 := by
  refine (utf8Length_ascii ?_).trans rfl
  intro c hc
  simp only [Json.unitEscape, List.mem_cons, List.not_mem_nil, or_false] at hc
  rcases hc with rfl | rfl | rfl | rfl | rfl | rfl
  · decide
  · decide
  all_goals exact hexDigit_ascii _

/-- A character of a string literal has at most six bytes. -/
lemma utf8Length_escapeChar_le (c : CodePoint) : utf8Length (Json.escapeChar false c) ≤ 6 := by
  have htwo : ∀ d : CodePoint, d.val < 0x80 → utf8Length [Json.ch '\\', d] ≤ 6 := by
    intro d hd
    have hslash : (utf8 (Json.ch '\\')).length = 1 := by decide
    simp [hslash, length_utf8_ascii hd]
  simp only [Json.escapeChar, Bool.false_eq_true, false_and, ↓reduceIte]
  split_ifs
  · exact htwo _ (by decide)
  · exact htwo _ (by decide)
  · exact htwo _ (by decide)
  · exact htwo _ (by decide)
  · exact htwo _ (by decide)
  · exact htwo _ (by decide)
  · exact htwo _ (by decide)
  · exact (utf8Length_unitEscape _).le
  · simpa using (length_utf8_le c).trans (by decide)

/-- A string literal has at most six bytes for every character, and its quotes. -/
lemma utf8Length_writeString_le (s : Str) :
    utf8Length (Json.writeString false s) ≤ 6 * s.length + 2 := by
  have hbody : utf8Length (s.flatMap (Json.escapeChar false)) ≤ 6 * s.length := by
    induction s with
    | nil => simp
    | cons c s ih =>
      have hc := utf8Length_escapeChar_le c
      rw [List.flatMap_cons, utf8Length_append, List.length_cons]
      omega
  have hquote : (utf8 (Json.ch '"')).length = 1 := by decide
  simp only [Json.writeString, utf8Length_cons, utf8Length_append, hquote, utf8Length_nil]
  omega

/-- A plain ASCII character stands for itself. -/
lemma escapeChar_plain {c : CodePoint} (h : Json.IsPlain c) (hdel : c.val ≤ 0x7e) (ascii : Bool) :
    Json.escapeChar ascii c = [c] := by
  obtain ⟨hlow, hquote, hslash⟩ := h
  simp only [Json.escapeChar, hquote, hslash, ↓reduceIte]
  rw [if_neg (by omega), if_neg (by omega), if_neg (by omega), if_neg (by omega),
    if_neg (by omega), if_neg (by omega), if_neg (by omega)]

/-- A literal of plain characters. -/
lemma flatMap_escapeChar_plain {s : Str} (h : ∀ c ∈ s, Json.IsPlain c ∧ c.val ≤ 0x7e) (ascii : Bool) :
    s.flatMap (Json.escapeChar ascii) = s := by
  induction s with
  | nil => rfl
  | cons c s ih =>
    rw [List.forall_mem_cons] at h
    rw [List.flatMap_cons, escapeChar_plain h.1.1 h.1.2 ascii, ih h.2, List.singleton_append]

/-- The base64 alphabet is plain. -/
lemma base64Char_plain (n : ℕ) :
    Json.IsPlain (base64Char n).toCodePoint ∧ (base64Char n).toCodePoint.val ≤ 0x7e := by
  have hplain : ∀ m : ℕ, 0x23 ≤ m → m ≤ 0x7e → m ≠ 0x5c →
      Json.IsPlain (byte m).toCodePoint ∧ (byte m).toCodePoint.val ≤ 0x7e := by
    intro m hlow hhigh hslash
    have hval : (byte m).toCodePoint.val = m := Nat.mod_eq_of_lt (by omega)
    refine ⟨⟨by omega, ?_, ?_⟩, by omega⟩
    · intro heq
      rw [heq] at hval
      have hquote : (Json.ch '"').val = 0x22 := rfl
      omega
    · intro heq
      rw [heq] at hval
      exact hslash hval.symm
  unfold base64Char
  split_ifs with h₁ h₂ h₃ h₄
  · exact hplain _ (by omega) (by omega) (by omega)
  · exact hplain _ (by omega) (by omega) (by omega)
  · exact hplain _ (by omega) (by omega) (by omega)
  · exact hplain _ (by omega) (by omega) (by omega)
  · exact hplain _ (by omega) (by omega) (by omega)

/-- Base64 text is plain.

**Proof sketch.** Along the recursion of `b64encode`: every character is one of the alphabet or the
padding. -/
lemma b64encode_plain (bs : Bytes) :
    ∀ c ∈ (b64encode bs).map Byte.toCodePoint, Json.IsPlain c ∧ c.val ≤ 0x7e := by
  have hpad : Json.IsPlain padByte.toCodePoint ∧ padByte.toCodePoint.val ≤ 0x7e := by
    unfold Json.IsPlain
    decide
  induction bs using b64encode.induct with
  | case1 => simp [b64encode]
  | case2 a =>
    simp only [b64encode, List.map_cons, List.map_nil, List.forall_mem_cons]
    exact ⟨base64Char_plain _, base64Char_plain _, hpad, hpad, by simp⟩
  | case3 a b =>
    simp only [b64encode, List.map_cons, List.map_nil, List.forall_mem_cons]
    exact ⟨base64Char_plain _, base64Char_plain _, base64Char_plain _, hpad, by simp⟩
  | case4 a b c rest ih =>
    simp only [b64encode, List.map_cons, List.forall_mem_cons]
    exact ⟨base64Char_plain _, base64Char_plain _, base64Char_plain _, base64Char_plain _, ih⟩

/-- A base64 payload is written in its own length. -/
lemma utf8Length_payload (bs : Bytes) :
    utf8Length (Json.writeString false ((b64encode bs).map Byte.toCodePoint)) =
      (b64encode bs).length + 2 := by
  have hplain := b64encode_plain bs
  have hascii := utf8Length_ascii fun c hc => Nat.lt_succ_of_le ((hplain c hc).2.trans (by decide))
  have hquote : (utf8 (Json.ch '"')).length = 1 := by decide
  simp only [Json.writeString, flatMap_escapeChar_plain hplain, utf8Length_cons, utf8Length_append,
    hascii, hquote, utf8Length_nil, List.length_map]
  omega

/-- A number of the database has at most nineteen digits. -/
lemma utf8Length_ofNat_le {n : ℕ} (h : n ≤ maxCursorSequence) : utf8Length (Str.ofNat n) ≤ 76 := by
  have hlength : (Str.ofNat n).length ≤ 19 :=
    Str.length_ofNat_le (by decide) (lt_of_le_of_lt h (by decide))
  have hbound : ∀ s : Str, utf8Length s ≤ 4 * s.length := by
    intro s
    induction s with
    | nil => simp
    | cons c s ih =>
      have hc := length_utf8_le c
      rw [utf8Length_cons, List.length_cons]
      omega
  have hn := hbound (Str.ofNat n)
  omega

/-- The members of an object and the commas between them. -/
lemma utf8Length_joinComma_le (ts : List Str) :
    utf8Length (Json.joinComma ts) ≤ (ts.map utf8Length).sum + ts.length := by
  have hcomma : (utf8 (Json.ch ',')).length = 1 := by decide
  induction ts with
  | nil => simp [Json.joinComma]
  | cons t ts ih =>
    cases ts with
    | nil => simp [Json.joinComma]
    | cons u us =>
      simp only [Json.joinComma, utf8Length_append, utf8Length_cons, hcomma, List.map_cons,
        List.sum_cons, List.length_cons] at ih ⊢
      omega

/-- An object is its members, their commas and the braces. -/
lemma utf8Length_jsonObject_le (fields : List Str) :
    utf8Length (jsonObject fields) ≤ (fields.map utf8Length).sum + fields.length + 2 := by
  have hopen : (utf8 (Json.ch '{')).length = 1 := by decide
  have hclose : (utf8 (Json.ch '}')).length = 1 := by decide
  have hjoin := utf8Length_joinComma_le fields
  simp only [jsonObject, utf8Length_cons, utf8Length_append, hopen, hclose, utf8Length_nil]
  omega

/-- A member is its name, a colon and its value. -/
lemma utf8Length_jsonField_le (name : String) (value : Str) :
    utf8Length (jsonField name value) ≤ 6 * name.length + 3 + utf8Length value := by
  have hcolon : (utf8 (Json.ch ':')).length = 1 := by decide
  have hname := utf8Length_writeString_le (Str.ofString name)
  have hlength : (Str.ofString name).length = name.length := by
    rw [Str.ofString, List.length_map, String.length_toList]
  rw [hlength] at hname
  simp only [jsonField, utf8Length_append, utf8Length_cons, hcolon]
  omega

/-- A written text of at most so many characters. -/
lemma utf8Length_writeString_bound {s : Str} {n : ℕ} (h : s.length ≤ n) :
    utf8Length (Json.writeString false s) ≤ 6 * n + 2 :=
  (utf8Length_writeString_le s).trans (by omega)

/-- An optional value is at most as long as `null` or a bound of the value. -/
lemma utf8Length_jsonOption_le {α : Type} {f : α → Str} {n : ℕ} (hn : 4 ≤ n)
    (h : ∀ a, utf8Length (f a) ≤ n) (o : Option α) : utf8Length (jsonOption f o) ≤ n := by
  cases o with
  | none => exact (by decide : utf8Length (Str.ofString "null") ≤ 4).trans hn
  | some a => exact h a

/-- The name of an entity type has at most 21 characters. -/
lemma length_entityType_le (t : EntityType) : (Str.ofString t.name).length ≤ 21 := by
  cases t <;> decide

/-- The framing of a record in a response has a fixed bound. -/
lemma utf8Length_toJson_le {r : SyncRecord} {bs : Bytes} {n : ℕ} (hpayload : r.payload = b64encode bs)
    (hbase : r.baseServerRevision = none) (hrevision : r.serverRevision = some n)
    (hn : n ≤ maxCursorSequence) : utf8Length r.toJson ≤ r.payload.length + 7000 := by
  have hid := utf8Length_writeString_bound r.id.bounded
  have htype := utf8Length_writeString_bound (length_entityType_le r.entityType)
  have hentity := utf8Length_writeString_bound r.entityID.bounded
  have hupdated := utf8Length_writeString_bound r.updatedAt.length_jsonText_le
  have hdata : utf8Length (Json.writeString false (r.payload.map Byte.toCodePoint)) =
      r.payload.length + 2 := by
    rw [hpayload]
    exact utf8Length_payload bs
  have hnull : utf8Length (jsonOption Str.ofNat r.baseServerRevision) = 4 := by
    rw [hbase]
    decide
  have hdigits : utf8Length (jsonOption Str.ofNat r.serverRevision) ≤ 76 := by
    rw [hrevision]
    exact utf8Length_ofNat_le hn
  have hmutation : utf8Length (jsonOption (fun t : ShortText => Json.writeString false t.text)
      r.clientMutationID) ≤ 6 * 256 + 2 :=
    utf8Length_jsonOption_le (by decide) (fun t => utf8Length_writeString_bound t.bounded) _
  have hdeleted : utf8Length (jsonOption (fun t : DateTime => Json.writeString false t.jsonText)
      r.deletedAt) ≤ 6 * 32 + 2 :=
    utf8Length_jsonOption_le (by decide)
      (fun t => utf8Length_writeString_bound t.length_jsonText_le) _
  have hobject := utf8Length_jsonObject_le
    [jsonField "id" (Json.writeString false r.id.text),
      jsonField "entityType" (Json.writeString false (Str.ofString r.entityType.name)),
      jsonField "entityID" (Json.writeString false r.entityID.text),
      jsonField "updatedAt" (Json.writeString false r.updatedAt.jsonText),
      jsonField "payload" (Json.writeString false (r.payload.map Byte.toCodePoint)),
      jsonField "baseServerRevision" (jsonOption Str.ofNat r.baseServerRevision),
      jsonField "serverRevision" (jsonOption Str.ofNat r.serverRevision),
      jsonField "clientMutationID"
        (jsonOption (fun t => Json.writeString false t.text) r.clientMutationID),
      jsonField "deletedAt"
        (jsonOption (fun t => Json.writeString false t.jsonText) r.deletedAt)]
  have hlength : ∀ name : String, name.length ≤ 18 → ∀ value,
      utf8Length (jsonField name value) ≤ 111 + utf8Length value := by
    intro name hname value
    have hfield := utf8Length_jsonField_le name value
    omega
  have h₁ := hlength "id" (by decide) (Json.writeString false r.id.text)
  have h₂ := hlength "entityType" (by decide)
    (Json.writeString false (Str.ofString r.entityType.name))
  have h₃ := hlength "entityID" (by decide) (Json.writeString false r.entityID.text)
  have h₄ := hlength "updatedAt" (by decide) (Json.writeString false r.updatedAt.jsonText)
  have h₅ := hlength "payload" (by decide)
    (Json.writeString false (r.payload.map Byte.toCodePoint))
  have h₆ := hlength "baseServerRevision" (by decide) (jsonOption Str.ofNat r.baseServerRevision)
  have h₇ := hlength "serverRevision" (by decide) (jsonOption Str.ofNat r.serverRevision)
  have h₈ := hlength "clientMutationID" (by decide)
    (jsonOption (fun t => Json.writeString false t.text) r.clientMutationID)
  have h₉ := hlength "deletedAt" (by decide)
    (jsonOption (fun t => Json.writeString false t.jsonText) r.deletedAt)
  simp only [List.map_cons, List.map_nil, List.sum_cons, List.sum_nil, List.length_cons,
    List.length_nil] at hobject
  rw [SyncRecord.toJson]
  rw [maxSyncIdentifierLength] at hid hentity
  omega

/-- A response with one record is within the ceiling. -/
lemma utf8Length_modelDumpJson_le {batch : SyncBatch} {r : SyncRecord} {bs : Bytes} {n : ℕ}
    (hrecords : batch.records = [r]) (hpayload : r.payload = b64encode bs)
    (hbase : r.baseServerRevision = none) (hrevision : r.serverRevision = some n)
    (hn : n ≤ maxCursorSequence) :
    utf8Length (modelDumpJson batch) ≤ maxSyncPullResponseBytes := by
  have hrecord := utf8Length_toJson_le hpayload hbase hrevision hn
  have hdevice := utf8Length_writeString_bound batch.deviceID.bounded
  have hcursor : utf8Length (jsonOption (fun t : ShortText => Json.writeString false t.text)
      batch.cursor) ≤ 6 * 256 + 2 :=
    utf8Length_jsonOption_le (by decide) (fun t => utf8Length_writeString_bound t.bounded) _
  have hopen : (utf8 (Json.ch '[')).length = 1 := by decide
  have hclose : (utf8 (Json.ch ']')).length = 1 := by decide
  have hobject := utf8Length_jsonObject_le
    [jsonField "deviceID" (Json.writeString false batch.deviceID.text),
      jsonField "cursor" (jsonOption (fun t => Json.writeString false t.text) batch.cursor),
      jsonField "records"
        (Json.ch '[' :: (Json.joinComma (batch.records.map SyncRecord.toJson) ++ [Json.ch ']']))]
  have h₁ := utf8Length_jsonField_le "deviceID" (Json.writeString false batch.deviceID.text)
  have h₂ := utf8Length_jsonField_le "cursor"
    (jsonOption (fun t => Json.writeString false t.text) batch.cursor)
  have h₃ := utf8Length_jsonField_le "records"
    (Json.ch '[' :: (Json.joinComma (batch.records.map SyncRecord.toJson) ++ [Json.ch ']']))
  have hlengths : "deviceID".length = 8 ∧ "cursor".length = 6 ∧ "records".length = 7 := by decide
  simp only [List.map_cons, List.map_nil, List.sum_cons, List.sum_nil, List.length_cons,
    List.length_nil] at hobject
  simp only [hrecords, List.map_cons, List.map_nil, Json.joinComma, utf8Length_cons,
    utf8Length_append, hopen, hclose, utf8Length_nil] at h₃ hobject
  have hwire := r.payload_le
  rw [modelDumpJson]
  simp only [hrecords, List.map_cons, List.map_nil, Json.joinComma]
  rw [maxSyncIdentifierLength] at hdevice
  rw [maxSyncV1WirePayloadBytes] at hwire
  rw [maxSyncPullResponseBytes]
  omega

/-! ### One record -/

/-- The longest JSON text that a record of a response can hold: its base64 form has 2100000
characters. -/
def maxPullJson : ℕ := 1575000

/-- The base64 form of a JSON text within the bound is within the wire ceiling, and conversely. -/
lemma length_encoded_le_iff (json : Str) :
    (b64encode (asciiBytes json)).length ≤ maxSyncV1WirePayloadBytes ↔
      json.length ≤ maxPullJson := by
  rw [length_b64encode, asciiBytes, List.length_map, maxSyncV1WirePayloadBytes, maxPullJson]
  omega

/-- The id of a record in a response is valid. -/
lemma identifier?_server {n : ℕ} (h : n ≤ maxCursorSequence) :
    ∃ id, identifier? (Str.ofString "server:" ++ Str.ofNat n) = .ok id := by
  have hdigits : (Str.ofNat n).length ≤ 19 :=
    Str.length_ofNat_le (by decide) (lt_of_le_of_lt h (by decide))
  have hserver : (Str.ofString "server:").length = 7 := rfl
  have hlength : (Str.ofString "server:" ++ Str.ofNat n).length ≤ maxSyncIdentifierLength := by
    rw [List.length_append, hserver, maxSyncIdentifierLength]
    omega
  have hpositive : 1 ≤ (Str.ofString "server:" ++ Str.ofNat n).length := by
    rw [List.length_append, hserver]
    omega
  have hencodable : Encodable (Str.ofString "server:" ++ Str.ofNat n) :=
    Encodable.append (encodable_map_ofChar _) (encodable_map_ofChar _)
  exact ⟨_, dif_pos ⟨hpositive, hlength, hencodable⟩⟩

/-- **A page of its own.** A record whose JSON text is within the bound fits an empty page, whatever
its other fields hold. -/
lemma fitsAlone_of_length_le {change : SyncChangeLog} {entity : SyncEntity}
    (hjson : (entityJson entity).length ≤ maxPullJson)
    (hsequence : change.sequence ≤ maxCursorSequence)
    (hrevision : entity.serverRevision ≤ maxCursorSequence) : FitsAlone change entity := by
  obtain ⟨id, hid⟩ := identifier?_server hsequence
  have hwire := (length_encoded_le_iff (entityJson entity)).mpr hjson
  obtain ⟨record, hrecord, hpayload, hbase, hserver⟩ : ∃ record,
      pullRecord change entity = .ok record ∧
        record.payload = b64encode (asciiBytes (entityJson entity)) ∧
        record.baseServerRevision = none ∧ record.serverRevision = some entity.serverRevision := by
    simp only [pullRecord, hid, ok_bind, dif_pos hwire]
    exact ⟨_, rfl, rfl, rfl, rfl⟩
  refine ⟨record, hrecord, ?_⟩
  have hcount : ([record] : List SyncRecord).length ≤ maxSyncRecords := by
    simp [maxSyncRecords]
  have hbytes : payloadBytes [record] ≤ maxSyncV1BatchPayloadBytes := by
    have hle := record.payload_le
    simpa [payloadBytes, maxSyncV1WirePayloadBytes, maxSyncV1BatchPayloadBytes] using hle
  obtain ⟨batch, hbatch, hrecords, -⟩ := serverBatch_eq_ok hsequence hcount hbytes
  have hresponse := utf8Length_modelDumpJson_le hrecords hpayload hbase hserver hrevision
  have hfirst : ¬ maxSyncRecords ≤ ([] : List SyncRecord).length := by simp [maxSyncRecords]
  have hsecond : ¬ maxSyncV1BatchPayloadBytes <
      payloadBytes [] + record.payload.length := by
    have hle := record.payload_le
    simpa [payloadBytes, maxSyncV1WirePayloadBytes, maxSyncV1BatchPayloadBytes] using hle
  simp only [pullPageAccepts, if_neg hfirst, if_neg hsecond, List.nil_append, hbatch, ok_bind,
    hresponse, decide_true]
  rfl

/-- A record whose JSON text is beyond the bound cannot be sent. -/
lemma pullRecord_of_length_gt {change : SyncChangeLog} {entity : SyncEntity}
    (hjson : maxPullJson < (entityJson entity).length)
    (hsequence : change.sequence ≤ maxCursorSequence) :
    pullRecord change entity =
      .error (.valueError (Str.ofString "Data should have at most 2100000 bytes")) := by
  obtain ⟨id, hid⟩ := identifier?_server hsequence
  have hwire : ¬ (b64encode (asciiBytes (entityJson entity))).length ≤
      maxSyncV1WirePayloadBytes := by
    rw [length_encoded_le_iff]
    omega
  simp only [pullRecord, hid, ok_bind, dif_neg hwire]
  rfl

/-! ### Runs -/

/-- The stored payloads can be sent, the revisions do not exceed the number of changes and neither
do the sequences. -/
structure Pullable (db : Db) : Prop where
  payloads : ∀ k e, db.entities.get k = some e → (entityJson e).length ≤ maxPullJson
  revisions : ∀ k e, db.entities.get k = some e → e.serverRevision ≤ db.lastSequence
  sequences : ∀ c ∈ db.changeLog, c.sequence ≤ db.lastSequence
  distinct : DistinctSequences db

/-- The payload of a fresh upsert has a JSON text within the bound. -/
def RecordStep.Sendable (env : Env) (s : RecordStep) : Prop :=
  s.record.deletedAt = none → s.Unanswered → staleRevision s.record s.current = false →
    ∀ payload, decodePayload env s.record.payload = .ok payload →
      (Json.dumps true (.dict payload.items)).length ≤ maxPullJson

/-- The revision that a step gives exceeds the highest stored one by one. -/
lemma nextRevision_le {db : Db} {n : ℕ}
    (h : ∀ k e, db.entities.get k = some e → e.serverRevision ≤ n) (organizationId : Str) :
    db.nextRevision organizationId ≤ n + 1 := by
  have hfold : ∀ (l : List ℕ) (m : ℕ), m ≤ n → (∀ x ∈ l, x ≤ n) → l.foldl max m ≤ n := by
    intro l
    induction l with
    | nil => exact fun m hm _ => hm
    | cons x l ih =>
      intro m hm hl
      rw [List.forall_mem_cons] at hl
      exact ih _ (max_le hm hl.1) hl.2
  refine Nat.succ_le_succ (hfold _ 0 (Nat.zero_le n) ?_)
  intro x hx
  obtain ⟨row, hrow, rfl⟩ := List.mem_map.mp hx
  exact h row.1 row.2 ((db.entities.mem_rows_iff row.1 row.2).mp (List.mem_of_mem_filter hrow))

/-- **Step.** A step keeps the tables pullable when its payload is within the bound. -/
lemma RecordStep.Valid.pullable {env : Env} {s : RecordStep} (h : s.Valid env)
    (hsendable : s.Sendable env) (hbefore : Pullable s.before.db) : Pullable s.after.db := by
  rcases h.keeps_or_commits with hkeeps | ⟨payload, grant, applied, hcommits⟩
  · obtain ⟨hpayloads, hrevisions, hsequences, hdistinct⟩ := hbefore
    refine ⟨?_, ?_, ?_, ?_⟩
    · rwa [hkeeps.entities]
    · rwa [hkeeps.entities, hkeeps.lastSequence]
    · rwa [hkeeps.changeLog, hkeeps.lastSequence]
    · rwa [DistinctSequences, hkeeps.changeLog]
  refine ⟨?_, ?_, ?_, ?_⟩
  · intro k e he
    rw [hcommits.entities] at he
    rcases Table.get_set_eq_some he with ⟨-, rfl⟩ | ⟨-, he⟩
    · -- a tombstone is sent with an empty object
      by_cases hupsert : s.record.deletedAt = none
      · have hbound := hsendable hupsert hcommits.unanswered hcommits.fresh payload
          hcommits.admitted.decoded
        simpa [entityJson, committedEntity, hupsert] using hbound
      · have hnull : s.record.deletedAt.isNone = false :=
          Bool.eq_false_iff.mpr fun h => hupsert (Option.isNone_iff_eq_none.mp h)
        simp only [entityJson, committedEntity, hnull, Bool.false_eq_true, ↓reduceIte,
          Option.elim_none]
        decide
    · exact hbefore.payloads k e he
  · intro k e he
    rw [hcommits.entities] at he
    rw [hcommits.lastSequence]
    rcases Table.get_set_eq_some he with ⟨-, rfl⟩ | ⟨-, he⟩
    · exact nextRevision_le hbefore.revisions _
    · exact (hbefore.revisions k e he).trans (Nat.le_succ _)
  · intro c hc
    rw [hcommits.changeLog, List.mem_append, List.mem_singleton] at hc
    rw [hcommits.lastSequence]
    rcases hc with hc | rfl
    · exact (hbefore.sequences c hc).trans (Nat.le_succ _)
    · exact le_rfl
  · rw [DistinctSequences, hcommits.changeLog, List.map_append, List.nodup_append]
    refine ⟨hbefore.distinct, by simp, ?_⟩
    intro a ha b hb hab
    obtain ⟨c, hc, rfl⟩ := List.mem_map.mp ha
    obtain rfl : b = s.before.db.lastSequence + 1 := by
      simpa [RecordStep.change] using hb
    have hle := hbefore.sequences c hc
    omega

/-- Everything that can be delivered from a pullable state fits a page of its own. -/
lemma Pullable.fitsEmptyPage {db : Db} (h : Pullable db) (hlast : db.lastSequence ≤ maxCursorSequence)
    (principal : Principal) : FitsEmptyPage db principal := by
  intro c hc e he
  have hget : db.entities.get
      (principal.organizationId, c.entityType, c.entityId.text) = some e := by
    simp only [deliverable] at he
    split_ifs at he
    · exact he
    · exact he
  exact fitsAlone_of_length_le (h.payloads _ e hget)
    ((h.sequences c (List.mem_of_mem_filter hc)).trans hlast) ((h.revisions _ e hget).trans hlast)

/-- **Progress.** In every state reached by pushes whose payloads are within the bound, a pull from a
valid cursor with a change after it returns, and the cursor it returns is greater. The sequences of
the change log are big integers of the database. -/
theorem runPushes_pull_progress (env : Env) (inputs : List PushInput) (db : Db)
    (hdb : Pullable db) (hsendable : ∀ s ∈ runSteps env inputs db, s.Sendable env)
    (hlast : (runPushes env inputs db).lastSequence ≤ maxCursorSequence) (principal : Principal)
    (hsync : principal.holds .sync = true) (cursor : Option Str) (start : ℕ)
    (hstart : startSequence cursor = .ok start)
    (hchange : ∃ c ∈ (runPushes env inputs db).changeLog,
      c.organizationId = principal.organizationId ∧ start < c.sequence) :
    ∃ batch next, pullSince (runPushes env inputs db) principal cursor = .ok batch ∧
      startSequence (batch.cursor.map ShortText.text) = .ok next ∧ start < next := by
  have hpullable : Pullable (runPushes env inputs db) :=
    runPushes_inv hdb fun s hs hbefore => (runSteps_valid hs).1.pullable (hsendable s hs) hbefore
  have hbig : BigIntSequences (runPushes env inputs db) :=
    fun c hc => (hpullable.sequences c hc).trans hlast
  obtain ⟨batch, next, consumed, hpull, -, hnext, hsplit, hadvance, -, hprogress⟩ :=
    pullSince_page hpullable.distinct hbig (hpullable.fitsEmptyPage hlast principal) hsync hstart
  obtain ⟨c, hc, horg, hlt⟩ := hchange
  have hmem : c ∈ pendingChanges (runPushes env inputs db) principal start :=
    mem_pendingChanges.mpr ⟨List.mem_filter.mpr ⟨hc, by simp [horg]⟩, hlt⟩
  have hconsumed := hprogress (List.ne_nil_of_mem hmem)
  refine ⟨batch, next, hpull, hnext, ?_⟩
  obtain ⟨first, hfirst⟩ := List.exists_mem_of_ne_nil _ hconsumed
  have hpending : first ∈ pendingChanges (runPushes env inputs db) principal start := by
    rw [hsplit]
    exact List.mem_append_left _ hfirst
  rw [hadvance]
  exact lt_of_lt_of_le (mem_pendingChanges.mp hpending).2 (key_le_advance hfirst)

/-- The sample organization is pullable before anything was pushed. -/
lemma Sample.db_pullable : Pullable Sample.db := by
  refine ⟨fun k e he => ?_, fun k e he => ?_, fun c hc => ?_, List.nodup_nil⟩
  · cases he
  · cases he
  · cases hc

/-- A pull of the sample organization makes progress. -/
theorem runPushes_pull_progress_sample :
    ∃ batch next, pullSince (runPushes Sample.env Sample.setup Sample.db) Sample.principal none =
        .ok batch ∧
      startSequence (batch.cursor.map ShortText.text) = .ok next ∧ 0 < next := by
  have hsendable : ∀ s ∈ runSteps Sample.env Sample.setup Sample.db,
      ((decodePayload Sample.env s.record.payload).toOption.all fun payload =>
        decide ((Json.dumps true (.dict payload.items)).length ≤ maxPullJson)) = true := by
    decide +kernel
  have hlast : (runPushes Sample.env Sample.setup Sample.db).lastSequence ≤ maxCursorSequence := by
    decide +kernel
  have hchange : (runPushes Sample.env Sample.setup Sample.db).changeLog.any (fun c =>
      decide (c.organizationId = Sample.principal.organizationId) && decide (0 < c.sequence)) =
        true := by
    decide +kernel
  refine runPushes_pull_progress Sample.env _ Sample.db Sample.db_pullable ?_ hlast Sample.principal
    rfl none 0 rfl ?_
  · intro s hs _ _ _ payload hdecoded
    simpa [hdecoded, Except.toOption] using hsendable s hs
  · obtain ⟨c, hc, horg⟩ := List.any_eq_true.mp hchange
    simp only [Bool.and_eq_true, decide_eq_true_eq] at horg
    exact ⟨c, hc, horg⟩

/-! ### A payload that cannot be sent -/

namespace Sample

/-- A customer with a note of so many characters. -/
def bulky (n : ℕ) : Dict := [("id", .str "c"), ("n", .str (List.replicate n (Json.ch 'a')))]

/-- Its JSON text up to the note. -/
def bulkyHead : Str :=
  [Json.ch '{', Json.ch '"', Json.ch 'i', Json.ch 'd', Json.ch '"', Json.ch ':', Json.ch '"',
    Json.ch 'c', Json.ch '"', Json.ch ',', Json.ch '"', Json.ch 'n', Json.ch '"', Json.ch ':',
    Json.ch '"']

/-- The note is plain. -/
lemma note_plain (n : ℕ) :
    ∀ c ∈ List.replicate n (Json.ch 'a'), Json.IsPlain c ∧ c.val ≤ 0x7e := by
  intro c hc
  rw [List.eq_of_mem_replicate hc]
  unfold Json.IsPlain
  decide

/-- The JSON text of the sample customer. -/
lemma dumps_bulky (n : ℕ) :
    Json.dumps true (.dict (bulky n)) =
      bulkyHead ++ (List.replicate n (Json.ch 'a') ++ [Json.ch '"', Json.ch '}']) := by
  have hid : Json.writeString true (Str.ofString "id") =
      [Json.ch '"', Json.ch 'i', Json.ch 'd', Json.ch '"'] := by decide
  have hc : Json.writeString true (Str.ofString "c") =
      [Json.ch '"', Json.ch 'c', Json.ch '"'] := by decide
  have hn : Json.writeString true (Str.ofString "n") =
      [Json.ch '"', Json.ch 'n', Json.ch '"'] := by decide
  have hnote : Json.writeString true (List.replicate n (Json.ch 'a')) =
      Json.ch '"' :: (List.replicate n (Json.ch 'a') ++ [Json.ch '"']) := by
    rw [Json.writeString, flatMap_escapeChar_plain (note_plain n)]
  have hsorted : ∀ a b : Str, Json.sortMembers [(Str.ofString "id", a), (Str.ofString "n", b)] =
      [(Str.ofString "id", a), (Str.ofString "n", b)] := by
    intro a b
    have hle : Str.ofString "id" ≤ Str.ofString "n" := by decide
    simp [Json.sortMembers, List.insertionSort, hle]
  simp [Json.dumps, bulky, Json.dumpsMembers, hsorted, hid, hc, hn, hnote, Json.joinComma,
    bulkyHead]

/-- The length of that text. -/
lemma length_dumps_bulky (n : ℕ) : (Json.dumps true (.dict (bulky n))).length = n + 17 := by
  simp [dumps_bulky, bulkyHead]

/-- That text is ASCII. -/
lemma dumps_bulky_ascii (n : ℕ) : ∀ c ∈ Json.dumps true (.dict (bulky n)), c.val < 0x80 := by
  have hhead : bulkyHead.all (fun c => decide (c.val < 0x80)) = true := by decide
  have htail : [Json.ch '"', Json.ch '}'].all (fun c => decide (c.val < 0x80)) = true := by decide
  intro c hc
  rw [dumps_bulky, List.mem_append, List.mem_append] at hc
  rcases hc with hc | hc | hc
  · exact of_decide_eq_true (List.all_eq_true.mp hhead c hc)
  · exact Nat.lt_succ_of_le ((note_plain n c hc).2.trans (by decide))
  · exact of_decide_eq_true (List.all_eq_true.mp htail c hc)

/-- That text is read back.

**Proof sketch.** The bytes are ASCII, so they are decoded as UTF-8; the reader then goes through
the two members, each of which is a plain string. -/
lemma loads_bulky (n : ℕ) :
    Json.loads (asciiBytes (Json.dumps true (.dict (bulky n)))) = some (.dict (bulky n)) := by
  have hdecode : Json.decodeDetected? (asciiBytes (Json.dumps true (.dict (bulky n)))) =
      some (Json.dumps true (.dict (bulky n))) := by
    rw [← decodeUtf8?_ascii _ (dumps_bulky_ascii n), dumps_bulky]
    rfl
  have hfuel : 2 * (Json.dumps true (.dict (bulky n))).length + 2 = (2 * n + 32) + 4 := by
    rw [length_dumps_bulky]
    omega
  have hskip : Json.skipWs (Json.dumps true (.dict (bulky n))) =
      Json.dumps true (.dict (bulky n)) := by
    rw [dumps_bulky]
    rfl
  have hplain : Json.IsPlain (Json.ch 'i') ∧ Json.IsPlain (Json.ch 'd') ∧
      Json.IsPlain (Json.ch 'c') ∧ Json.IsPlain (Json.ch 'n') := by
    unfold Json.IsPlain
    decide
  obtain ⟨hi, hd, hc, hn⟩ := hplain
  have hid : ∀ r, Json.scanString (Json.ch 'i' :: Json.ch 'd' :: Json.ch '"' :: r) =
      some (Str.ofString "id", r) :=
    Json.scanString_plain (s := [Json.ch 'i', Json.ch 'd']) (by simp [hi, hd])
  have hc : ∀ r, Json.scanString (Json.ch 'c' :: Json.ch '"' :: r) = some (Str.ofString "c", r) :=
    Json.scanString_plain (s := [Json.ch 'c']) (by simp [hc])
  have hn : ∀ r, Json.scanString (Json.ch 'n' :: Json.ch '"' :: r) = some (Str.ofString "n", r) :=
    Json.scanString_plain (s := [Json.ch 'n']) (by simp [hn])
  have hnote := Json.scanString_plain (fun c hc => (note_plain n c hc).1) [Json.ch '}']
  rw [Json.loads, hdecode, Option.bind_some, Json.parseDocument, hfuel, hskip]
  rw [dumps_bulky, bulkyHead]
  simp only [List.cons_append, List.nil_append]
  rw [Json.parseValue_object, (Json.parseMembers_string (hid _) (hc _)).2 _ rfl,
    (Json.parseMembers_string (hn _) hnote).1 _ rfl]
  rfl

/-- The text is no base64, so the payload is the JSON text itself. -/
lemma decodeValue_bulky (n : ℕ) :
    decodeValue (asciiBytes (Json.dumps true (.dict (bulky n)))) = some (.dict (bulky n)) := by
  have hbase64 : b64decode? (asciiBytes (Json.dumps true (.dict (bulky n)))) = none := by
    rw [dumps_bulky]
    exact b64decode?_of_head _ (by decide) (by decide)
  rw [decodeValue, hbase64, loads_bulky]
  rfl

/-- The creation of the sample customer with a long note. -/
def bulkyRecord (n : ℕ) : SyncRecord := record .customer "c" "1" none (bulky n)

/-- The plan of that creation. -/
def bulkyPlan : Ownership.OwnershipPlan :=
  { entityType := .customer, entityId := "c", isCreate := true, deletedAt := none,
    customerId := some "c" }

/-- The payload of the record, as long as it is within the wire ceiling. -/
lemma bulkyRecord_decodes {n : ℕ} (h : n + 17 ≤ maxSyncV1WirePayloadBytes) :
    ∃ payload, decodePayload env (bulkyRecord n).payload = .ok payload ∧
      payload.items = bulky n := by
  have hpayload : (bulkyRecord n).payload = asciiBytes (Json.dumps true (.dict (bulky n))) := by
    refine List.take_of_length_le ?_
    rw [asciiBytes, List.length_map, length_dumps_bulky]
    exact h
  rw [hpayload]
  exact decodePayload_eq_ok (decodeValue_bulky n)

/-- The checks admit the record, whatever the length of the note. -/
lemma bulkyRecord_authorized (n : ℕ) :
    authorize env principal (Working.start db principal) (bulkyRecord n) none (bulky n) =
      .ok (.ownership bulkyPlan) := rfl

/-- The step of the record, when it is pushed alone.

**Proof sketch.** The `try` block admits the record (`bulkyRecord_decodes`,
`bulkyRecord_authorized`), so the loop commits it (`processRecord_of_admitted`). -/
lemma bulky_step {n : ℕ} (h : n + 17 ≤ maxSyncV1WirePayloadBytes) :
    ∃ step change entity, runSteps env [input (bulkyRecord n)] db = [step] ∧
      step.input = input (bulkyRecord n) ∧ step.before.db = db ∧
      step.after.db = runPushes env [input (bulkyRecord n)] db ∧ step.outcome.accepted = true ∧
      step.after.db.changeLog = [change] ∧ change.organizationId = principal.organizationId ∧
      change.sequence = 1 ∧ deliverable step.after.db principal change = some entity ∧
      entityJson entity = Json.dumps true (.dict (bulky n)) := by
  obtain ⟨payload, hdecoded, hitems⟩ := bulkyRecord_decodes h
  have hauthorized := bulkyRecord_authorized n
  rw [← hitems] at hauthorized
  have hm : mutationId? (bulkyRecord n) = some (identifier "1").text := rfl
  have hprocess : processRecord env time principal (identifier "d").text
      (Working.start db principal) (bulkyRecord n) = _ :=
    processRecord_of_admitted hm rfl rfl ⟨hdecoded, hauthorized, rfl⟩
  obtain ⟨hrun, hsteps⟩ : runPushes env [input (bulkyRecord n)] db = _ ∧
      runSteps env [input (bulkyRecord n)] db = _ := runPushes_single rfl rfl rfl hprocess
  refine ⟨_, _, _, hsteps, rfl, rfl, hrun.symm, rfl, rfl, rfl, rfl, rfl, ?_⟩
  rw [← hitems]
  rfl

/-- The state after the push of the record has the customer, one change and the long note. -/
lemma bulky_pushed {n : ℕ} (h : n + 17 ≤ maxSyncV1WirePayloadBytes) :
    ∃ after change entity, runPushes env [input (bulkyRecord n)] db = after ∧
      (∀ s ∈ runSteps env [input (bulkyRecord n)] db, s.outcome.accepted = true) ∧
      after.changeLog = [change] ∧ change.organizationId = principal.organizationId ∧
      change.sequence = 1 ∧ deliverable after principal change = some entity ∧
      entityJson entity = Json.dumps true (.dict (bulky n)) := by
  obtain ⟨step, change, entity, hsteps, -, -, hafter, haccepted, hrest⟩ := bulky_step h
  refine ⟨_, change, entity, rfl, ?_, hafter ▸ hrest⟩
  rw [hsteps]
  simpa using haccepted

end Sample

/-- The first pending change of a state with one change that cannot be sent makes the pull raise. -/
lemma pullSince_eq_error {db : Db} {principal : Principal} {change : SyncChangeLog}
    {entity : SyncEntity} (hsync : principal.holds .sync = true) (hlog : db.changeLog = [change])
    (horg : change.organizationId = principal.organizationId) (hsequence : change.sequence = 1)
    (hentity : deliverable db principal change = some entity)
    (hjson : maxPullJson < (entityJson entity).length) :
    pullSince db principal none =
      .error (.valueError (Str.ofString "Data should have at most 2100000 bytes")) := by
  have hscanned : scannedChanges db principal 0 = [change] := by
    simp [scannedChanges, pendingChanges, pending, organizationLog, hlog, horg, hsequence,
      maxSyncPullScanChanges]
  have hpage : pageEntity (loadPageContext db principal [change]) change = some entity := by
    rw [pageEntity_eq List.mem_cons_self, hentity]
  have hrecord := pullRecord_of_length_gt hjson (hsequence.trans_le (by decide))
  simp only [pullSince, hsync, startSequence, ok_bind, hscanned, pullLoop, hpage, hrecord,
    Bool.not_true, Bool.false_eq_true, ↓reduceIte]
  rfl

/-- A customer with a long note is accepted and stored, but cannot be sent: the pull raises. -/
theorem pullSince_wedged :
    ∃ inputs, (∀ s ∈ runSteps Sample.env inputs Sample.db, s.outcome.accepted = true) ∧
      (∃ c ∈ (runPushes Sample.env inputs Sample.db).changeLog,
        c.organizationId = Sample.principal.organizationId ∧ 0 < c.sequence) ∧
      startSequence none = .ok 0 ∧
      pullSince (runPushes Sample.env inputs Sample.db) Sample.principal none =
        .error (.valueError (Str.ofString "Data should have at most 2100000 bytes")) := by
  obtain ⟨after, change, entity, rfl, haccepted, hlog, horg, hsequence, hentity, hjson⟩ :=
    Sample.bulky_pushed (n := 1600000) (by decide)
  have hlong : maxPullJson < (entityJson entity).length := by
    rw [hjson, Sample.length_dumps_bulky, maxPullJson]
    omega
  refine ⟨_, haccepted, ⟨change, ?_, horg, ?_⟩, rfl,
    pullSince_eq_error rfl hlog horg hsequence hentity hlong⟩
  · rw [hlog]
    exact List.mem_singleton_self change
  · rw [hsequence]
    exact Nat.one_pos

end VitrialSync
