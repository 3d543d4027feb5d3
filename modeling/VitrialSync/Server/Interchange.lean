import VitrialSync.Python.JsonTokens
import VitrialSync.Server.History
import VitrialSync.Server.Pull

set_option relaxedAutoImplicit false
set_option autoImplicit false

/-!
# Stored payloads as JSON texts

A stored payload is written as a JSON text twice: by SQLAlchemy for its `json` column, with the
defaults of `json.dumps`, and by `pull_since`, compact and with sorted keys. The reader of a push
accepts more than JSON: a float may be no number, and a string may hold a high and a low surrogate
side by side, which every JSON text joins. Both texts are documents of RFC 8259 that are read back as
the payload exactly when the pushed payload holds neither.

## Main definitions

* `VitrialSync.columnJson` — the text of the `json` column.
* `VitrialSync.Interchangeable` — no float but numbers, no surrogates side by side.

## Main results

* `VitrialSync.runSteps_interchanges` — every committed record of every run.
-/

namespace VitrialSync

open Python Program

/-- The text of the column `payload_json`, as SQLAlchemy binds it. -/
def columnJson (entity : SyncEntity) : Str :=
  Json.write .plain (.dict (entity.payloadJson.elim [] Payload.items))

/-- Every float is a number, and no string has a high surrogate right before a low one. -/
def Interchangeable (v : Value) : Prop := Json.AllFinite v ∧ ∀ s ∈ v.texts, Json.NoPair s

/-- A decoded payload has no integer of more digits than `json.loads` reads. -/
lemma decodeValue_allShort {raw : Bytes} {v : Value} (h : decodeValue raw = some v) :
    Json.AllShort v := by
  rcases Json.orElse_eq_some h with h | h
  · obtain ⟨decoded, -, hloads⟩ := Option.bind_eq_some_iff.mp h
    exact Json.loads_allShort hloads
  · exact Json.loads_allShort h

/-- The value of a payload that was decoded. -/
lemma decodeValue_of_decodePayload {env : Env} {raw : Bytes} {payload : Payload}
    (h : decodePayload env raw = .ok payload) : decodeValue raw = some (.dict payload.items) := by
  unfold decodePayload at h
  split at h
  · rename_i items hvalue
    cases h
    exact hvalue
  · cases h
  · cases h

/-- A style in ASCII interchanges the values without other floats and pairs of surrogates. -/
lemma interchanges_ascii_iff {style : Json.Style} (hascii : style.ascii = true) {v : Value}
    (hv : v.WellFormed) (hshort : Json.AllShort v) :
    Json.Interchanges v (Json.write style v) ↔ Interchangeable v := by
  rw [Json.interchanges_write_iff style hv hshort, Interchangeable, hascii]
  exact and_congr_right fun _ => forall₂_congr fun s _ => Json.joinPairs_eq_iff s

/-- **Interchange.** In every run, the payload that a committed upsert stores is the pushed one. Its
text for the database and the text that a pull sends are documents of RFC 8259 that are read back as
the payload exactly when every float of the pushed payload is a number and no string of it has a high
surrogate right before a low one.

**Proof sketch.** The reader returns well-formed values whose integers can be read again. Of such a
value a text in ASCII is read back with the pairs of surrogates joined, and has a word with a capital
outside its strings where a float is no number. -/
theorem runSteps_interchanges (env : Env) (inputs : List PushInput) (db : Db) :
    ∀ s ∈ runSteps env inputs db, s.outcome.reason = .committed → s.record.deletedAt = none →
      ∃ payload entity, decodePayload env s.record.payload = .ok payload ∧
        s.after.db.entities.get s.key = some entity ∧ entity.payloadJson = some payload ∧
        (Json.Interchanges (.dict payload.items) (columnJson entity) ∧
            Json.Interchanges (.dict payload.items) (entityJson entity) ↔
          Interchangeable (.dict payload.items)) := by
  intro s hs hreason hupsert
  obtain ⟨payload, grant, applied, hcommits⟩ :=
    (runSteps_valid hs).1.commits_of_reason hreason
  have hdecoded := hcommits.admitted.decoded
  have hshort := decodeValue_allShort (decodeValue_of_decodePayload hdecoded)
  refine ⟨payload, committedEntity s.record payload s.revision, hdecoded, ?_, ?_, ?_⟩
  · rw [hcommits.entities, Table.get_set_self]
  · rw [committedEntity, hupsert]
    rfl
  · have hcolumn : columnJson (committedEntity s.record payload s.revision) =
        Json.write .plain (.dict payload.items) := by
      rw [columnJson, committedEntity, hupsert]
      rfl
    have hpull : entityJson (committedEntity s.record payload s.revision) =
        Json.write (.compact true) (.dict payload.items) := by
      rw [entityJson, committedEntity, hupsert, Json.write_compact]
      rfl
    rw [hcolumn, hpull, interchanges_ascii_iff rfl payload.wellFormed hshort,
      interchanges_ascii_iff rfl payload.wellFormed hshort, and_self]

/-- The payload of the first sample customer. -/
theorem runSteps_interchanges_sample :
    ∃ s ∈ runSteps Sample.env Sample.setup Sample.db, s.outcome.reason = .committed ∧
      s.record.deletedAt = none ∧
      ∃ payload entity, decodePayload Sample.env s.record.payload = .ok payload ∧
        s.after.db.entities.get s.key = some entity ∧ entity.payloadJson = some payload ∧
        (Json.Interchanges (.dict payload.items) (columnJson entity) ∧
            Json.Interchanges (.dict payload.items) (entityJson entity) ↔
          Interchangeable (.dict payload.items)) := by
  have hfirst : (runSteps Sample.env Sample.setup Sample.db).any (fun s =>
      s.outcome.reason == .committed && s.record.deletedAt.isNone) = true := by
    decide +kernel
  obtain ⟨s, hs, hcommitted⟩ := List.any_eq_true.mp hfirst
  simp only [Bool.and_eq_true, beq_iff_eq, Option.isNone_iff_eq_none] at hcommitted
  exact ⟨s, hs, hcommitted.1, hcommitted.2,
    runSteps_interchanges Sample.env Sample.setup Sample.db s hs hcommitted.1 hcommitted.2⟩

/-- The push of a customer with a field that is no number. -/
def Sample.notNumber : List PushInput :=
  [input (record .customer "c" "1" none [("id", .str "c"), ("discount", .float .nan)])]

/-- A customer whose payload has the token `NaN` is accepted, and what a pull sends of it is no
document of RFC 8259. -/
theorem runSteps_not_interchanged :
    ¬ ∀ s ∈ runSteps Sample.env Sample.notNumber Sample.db, s.outcome.reason = .committed →
      s.record.deletedAt = none → ∀ payload entity,
        s.after.db.entities.get s.key = some entity → entity.payloadJson = some payload →
        Json.Interchanges (.dict payload.items) (columnJson entity) ∧
          Json.Interchanges (.dict payload.items) (entityJson entity) := by
  intro h
  have hrun : (runSteps Sample.env Sample.notNumber Sample.db).any (fun s =>
      s.outcome.reason == .committed && s.record.deletedAt.isNone &&
        (s.after.db.entities.get s.key).any fun entity => entity.payloadJson.isSome &&
          entityJson entity == Str.ofString "\x7b\"discount\":NaN,\"id\":\"c\"\x7d") = true := by
    decide +kernel
  obtain ⟨s, hs, hstep⟩ := List.any_eq_true.mp hrun
  rw [Bool.and_eq_true, Bool.and_eq_true, beq_iff_eq, Option.isNone_iff_eq_none] at hstep
  obtain ⟨⟨hreason, hupsert⟩, hstored⟩ := hstep
  cases hentity : s.after.db.entities.get s.key with
  | none =>
    rw [hentity] at hstored
    cases hstored
  | some entity =>
    rw [hentity, Option.any_some, Bool.and_eq_true, beq_iff_eq] at hstored
    obtain ⟨payload, hpayload⟩ := Option.isSome_iff_exists.mp hstored.1
    obtain ⟨-, ⟨w, hdocument⟩, -⟩ := h s hs hreason hupsert payload entity hentity hpayload
    rw [hstored.2] at hdocument
    have hcapital : Json.ch 'N' ∈ Json.bare .outside
        (Str.ofString "\x7b\"discount\":NaN,\"id\":\"c\"\x7d") := by
      decide
    exact (hdocument.chars _ hcapital).1 rfl

end VitrialSync
