import VitrialSync.Server.Settlement

set_option relaxedAutoImplicit false
set_option autoImplicit false

/-!
# Histories of blockers and quotations

A blocker or a quotation stores the list of its events. An update is compared with the stored
payload: its events must extend the stored ones, and the last new event must name the principal.
Both checks look at the stored payload only. A tombstone clears the payload, so that an upsert over
a tombstone starts a new history; and of several appended events only the last is compared with the
principal.

## Main definitions

* `VitrialSync.storedPayload` — the payload of an entity.
* `VitrialSync.RecordStep.MeetsTombstone` — a fresh upsert over a tombstone.
* `VitrialSync.CarriesProvenance` — an event has the five provenance fields of a principal.
* `VitrialSync.RecordStep.Updates`, `VitrialSync.RecordStep.appended` — an update of a known entity,
  and the events it appends.
* `VitrialSync.Entered` — where a stored event comes from.

## Main results

* `VitrialSync.runPushes_history_prefix` — between two times of a run without an upsert over a
  tombstone, the earlier history is a prefix of the later one.
* `VitrialSync.runPushes_provenance` — in a run whose updates append at most one event each, every
  appended event carries the provenance of the principal that submitted it.
-/

namespace VitrialSync

open Python Program

/-! ### Stored histories -/

/-- The payload of an entity. -/
def storedPayload (db : Db) (key : EntityKey) : Option Payload :=
  (db.entities.get key).bind SyncEntity.payloadJson

/-- The events that an entity stores. -/
def storedHistory (db : Db) (key : EntityKey) : List Dict :=
  Lifecycle.historyOf ((storedPayload db key).map Payload.items)

/-- The types whose payloads carry a lifecycle history. -/
def EntityType.HasHistory (t : EntityType) : Prop := t = .blocker ∨ t = .quotation

namespace RecordStep

variable {env : Env} {s : RecordStep} {payload : Payload} {grant : Authorized} {applied : Working}

/-- A committed upsert stores its payload. -/
lemma Commits.storedPayload_self (h : s.Commits env payload grant applied) :
    storedPayload s.after.db s.key = if s.record.deletedAt.isNone then some payload else none := by
  simp only [storedPayload, h.entities, Table.get_set_self, Option.bind_some,
    committedEntity]

/-- A commit leaves the payloads of other entities alone. -/
lemma Commits.storedPayload_of_ne (h : s.Commits env payload grant applied) {key : EntityKey}
    (hkey : key ≠ s.key) :
    storedPayload s.after.db key = storedPayload s.before.db key := by
  simp only [storedPayload, h.entities, Table.get_set_of_ne _ _ hkey]

/-- A payload after a step was stored before it, or the step committed it. -/
lemma Valid.storedPayload_after (h : s.Valid env) {key : EntityKey} {after : Payload}
    (hafter : storedPayload s.after.db key = some after) :
    storedPayload s.before.db key = some after ∨
      (key = s.key ∧ s.record.deletedAt = none ∧
        ∃ grant applied, s.Commits env after grant applied) := by
  rcases h.keeps_or_commits with hkeeps | ⟨payload, grant, applied, hcommits⟩
  · rw [storedPayload, hkeeps.entities] at hafter
    exact Or.inl hafter
  · by_cases hkey : key = s.key
    · subst hkey
      rw [hcommits.storedPayload_self] at hafter
      split_ifs at hafter with hupsert
      obtain rfl := Option.some.inj hafter
      exact Or.inr ⟨rfl, Option.isNone_iff_eq_none.mp hupsert, grant, applied, hcommits⟩
    · rw [hcommits.storedPayload_of_ne hkey] at hafter
      exact Or.inl hafter

/-- A payload before a step is stored after it, or the step committed over it. -/
lemma Valid.storedPayload_before (h : s.Valid env) {key : EntityKey} {before : Payload}
    (hbefore : storedPayload s.before.db key = some before) :
    storedPayload s.after.db key = some before ∨
      (key = s.key ∧ ∃ payload grant applied, s.Commits env payload grant applied) := by
  rcases h.keeps_or_commits with hkeeps | ⟨payload, grant, applied, hcommits⟩
  · rw [storedPayload, hkeeps.entities]
    exact Or.inl hbefore
  · by_cases hkey : key = s.key
    · exact Or.inr ⟨hkey, payload, grant, applied, hcommits⟩
    · rw [hcommits.storedPayload_of_ne hkey]
      exact Or.inl hbefore

/-- A step removes no row of an entity. -/
lemma Valid.row_kept (h : s.Valid env) {key : EntityKey}
    (hrow : (s.before.db.entities.get key).isSome) : (s.after.db.entities.get key).isSome := by
  rcases h.keeps_or_commits with hkeeps | ⟨payload, grant, applied, hcommits⟩
  · rw [hkeeps.entities]
    exact hrow
  · rw [hcommits.entities, Table.get_set]
    split_ifs
    · rfl
    · exact hrow

/-- The payload that a step meets is the stored one. -/
lemma current_payload : s.current.bind SyncEntity.payloadJson =
    storedPayload s.before.db s.key := rfl

/-- A committed upsert of a blocker or a quotation has an accepted history. -/
lemma Commits.acceptedHistory (h : s.Commits env payload grant applied)
    (htype : s.record.entityType.HasHistory) (hupsert : s.record.deletedAt = none) :
    Lifecycle.AcceptedHistory payload.items
      ((storedPayload s.before.db s.key).map Payload.items) s.input.principal := by
  obtain ⟨-, -, ⟨hdelivery, -⟩ | ⟨-, hlifecycle, -⟩⟩ := authorize_eq_ok_iff.mp h.admitted.authorized
  · rcases htype with htype | htype <;> rw [htype] at hdelivery <;> cases hdelivery
  · rw [hupsert] at hlifecycle
    exact Lifecycle.validateLifecycleMutation_spec htype hlifecycle

/-- A fresh upsert of an entity whose row has no payload. -/
structure MeetsTombstone (s : RecordStep) : Prop where
  upsert : s.record.deletedAt = none
  unanswered : s.Unanswered
  fresh : staleRevision s.record s.current = false
  tombstone : ∃ e, s.current = some e ∧ e.payloadJson = none

end RecordStep

/-! ### Immutability -/

/-- The row of an entity is there, and its history, if it has a payload, extends a given one. -/
structure HistoryExtends (key : EntityKey) (history : List Dict) (db : Db) : Prop where
  row : (db.entities.get key).isSome
  extend : ∀ payload, storedPayload db key = some payload →
    IsPrefix history (Lifecycle.historyOf (some payload.items))

/-- **Step.** A step that is not an upsert over a tombstone keeps what the history extends.

**Proof sketch.** A tombstone leaves no payload. An upsert meets a row, and by assumption a payload,
whose history it extends. -/
lemma RecordStep.Valid.historyExtends {env : Env} {s : RecordStep} (h : s.Valid env)
    {key : EntityKey} (htype : key.2.1.HasHistory) {history : List Dict}
    (hno : s.key = key → ¬ s.MeetsTombstone) (hbefore : HistoryExtends key history s.before.db) :
    HistoryExtends key history s.after.db := by
  rcases h.keeps_or_commits with hkeeps | ⟨payload, grant, applied, hcommits⟩
  · refine ⟨by rw [hkeeps.entities]; exact hbefore.row, fun p hp => hbefore.extend p ?_⟩
    rwa [storedPayload, hkeeps.entities] at hp
  by_cases hkey : key = s.key
  · subst hkey
    refine ⟨by rw [hcommits.entities, Table.get_set_self]; rfl, fun p hp => ?_⟩
    rw [hcommits.storedPayload_self] at hp
    split_ifs at hp with hupsert
    rw [Option.isNone_iff_eq_none] at hupsert
    obtain rfl := Option.some.inj hp
    have haccepted := hcommits.acceptedHistory htype hupsert
    obtain ⟨e, he⟩ := Option.isSome_iff_exists.mp hbefore.row
    cases hstored : e.payloadJson with
    | none =>
      exact absurd ⟨hupsert, hcommits.unanswered, hcommits.fresh, e, he, hstored⟩ (hno rfl)
    | some old =>
      have hold : storedPayload s.before.db s.key = some old := by
        rw [storedPayload, he, Option.bind_some, hstored]
      have hextend := haccepted.extend
      rw [hold] at hextend
      exact (hbefore.extend old hold).trans hextend
  · refine ⟨?_, fun p hp => hbefore.extend p ?_⟩
    · rw [hcommits.entities, Table.get_set_of_ne _ _ hkey]
      exact hbefore.row
    · rwa [hcommits.storedPayload_of_ne hkey] at hp

/-- **Immutability of histories.** When a blocker or a quotation has a payload at two times of a
run, and no fresh upsert over its tombstone lies between them, the earlier list of events is a
prefix of the later one. -/
theorem runPushes_history_prefix (env : Env) (first second : List PushInput) (db : Db)
    (key : EntityKey) (htype : key.2.1.HasHistory) (earlier later : Payload)
    (hearlier : storedPayload (runPushes env first db) key = some earlier)
    (hlater : storedPayload (runPushes env (first ++ second) db) key = some later)
    (hno : ∀ s ∈ runSteps env second (runPushes env first db), s.key = key → ¬ s.MeetsTombstone) :
    IsPrefix (Lifecycle.historyOf (some earlier.items)) (Lifecycle.historyOf (some later.items)) := by
  rw [runPushes_append] at hlater
  generalize runPushes env first db = start at hearlier hlater hno
  have hstart : HistoryExtends key (Lifecycle.historyOf (some earlier.items)) start := by
    refine ⟨?_, fun p hp => ?_⟩
    · obtain ⟨e, he, -⟩ := Option.bind_eq_some_iff.mp hearlier
      rw [he]
      rfl
    · obtain rfl := Option.some.inj (hearlier.symm.trans hp)
      exact .refl (Lifecycle.historyOf_wellFormed earlier.wellFormed)
  have hend := runPushes_inv hstart fun s hs hbefore =>
    (runSteps_valid hs).1.historyExtends htype (hno s hs) hbefore
  exact hend.extend later hlater

namespace Sample

/-- The provenance of the sample member. -/
def provenance : Dict :=
  [("actorID", .str "u"), ("organizationID", .str "o"), ("membershipID", .str "m"),
    ("sessionID", .str "s"), ("authorizationRevision", .int 1)]

/-- An event of the sample blocker. -/
def blockerEvent (id kind actor : String) : Value :=
  .dict [("id", .str id), ("kind", .str kind), ("actorID", .str actor), ("blockerID", .str "b"),
    ("itemID", .str "i"), ("organizationID", .str "o"), ("membershipID", .str "m"),
    ("sessionID", .str "s"), ("authorizationRevision", .int 1)]

/-- The sample blocker with given events. -/
def blocker (mutationID : String) (base : Option ℕ) (status : Dict) (events : List Value) :
    PushInput :=
  input (record .blocker "b" mutationID base
    (("id", .str "b") :: ("itemID", .str "i") :: ("description", .str "d") ::
      ("events", .list events) :: status))

/-- The key of the sample blocker. -/
def blockerKey : EntityKey := ("o", .blocker, "b")

/-- The sample blocker is created. -/
def created : List PushInput :=
  setup ++ [blocker "5" none [("status", .str "open")] [blockerEvent "e1" "created" "u"]]

/-- It is resolved: one event is appended. -/
def resolved : List PushInput :=
  [blocker "6" (some 5) [("status", .str "resolved"), ("resolvedAt", .str "t")]
    [blockerEvent "e1" "created" "u", blockerEvent "e2" "resolved" "u"]]

/-- It is deleted, and upserted with another history. -/
def recreated : List PushInput :=
  [input (record .blocker "b" "6" (some 5) [("id", .str "b")] (some time)),
    blocker "7" (some 6) [("status", .str "open")] [blockerEvent "e2" "created" "u"]]

/-- It is resolved and reopened in one update, the first event under another name. -/
def forged : List PushInput :=
  [blocker "6" (some 5) [("status", .str "open")] [blockerEvent "e1" "created" "u",
    blockerEvent "e2" "resolved" "x", blockerEvent "e3" "reopened" "u"]]

end Sample

/-- The deletion clears the stored history, and the next one need not extend it. -/
theorem runPushes_history_not_prefix :
    ∃ earlier later,
      storedPayload (runPushes Sample.env Sample.created Sample.db) Sample.blockerKey =
        some earlier ∧
      storedPayload (runPushes Sample.env (Sample.created ++ Sample.recreated) Sample.db)
        Sample.blockerKey = some later ∧
      ¬ IsPrefix (Lifecycle.historyOf (some earlier.items))
        (Lifecycle.historyOf (some later.items)) := by
  have hrun : ((storedPayload (runPushes Sample.env Sample.created Sample.db)
      Sample.blockerKey).bind fun p =>
        (storedPayload (runPushes Sample.env (Sample.created ++ Sample.recreated) Sample.db)
          Sample.blockerKey).map fun q => decide (IsPrefix (Lifecycle.historyOf (some p.items))
            (Lifecycle.historyOf (some q.items)))) = some false := by
    decide +kernel
  obtain ⟨earlier, hearlier, hrun⟩ := Option.bind_eq_some_iff.mp hrun
  obtain ⟨later, hlater, hnot⟩ := Option.map_eq_some_iff.mp hrun
  exact ⟨earlier, later, hearlier, hlater, of_decide_eq_false hnot⟩

/-- The update that resolves the sample blocker extends its history. -/
theorem runPushes_history_prefix_sample :
    ∃ earlier later,
      storedPayload (runPushes Sample.env Sample.created Sample.db) Sample.blockerKey =
        some earlier ∧
      storedPayload (runPushes Sample.env (Sample.created ++ Sample.resolved) Sample.db)
        Sample.blockerKey = some later ∧
      IsPrefix (Lifecycle.historyOf (some earlier.items))
        (Lifecycle.historyOf (some later.items)) := by
  have hstart : (storedPayload (runPushes Sample.env Sample.created Sample.db)
      Sample.blockerKey).isSome = true := by
    decide +kernel
  have hend : (storedPayload (runPushes Sample.env (Sample.created ++ Sample.resolved) Sample.db)
      Sample.blockerKey).isSome = true := by
    decide +kernel
  have hno : ∀ s ∈ runSteps Sample.env Sample.resolved
      (runPushes Sample.env Sample.created Sample.db),
      (s.current.all fun e => e.payloadJson.isSome) = true := by
    decide +kernel
  obtain ⟨earlier, hearlier⟩ := Option.isSome_iff_exists.mp hstart
  obtain ⟨later, hlater⟩ := Option.isSome_iff_exists.mp hend
  refine ⟨earlier, later, hearlier, hlater, runPushes_history_prefix Sample.env Sample.created
    Sample.resolved Sample.db Sample.blockerKey (Or.inl rfl) earlier later hearlier hlater ?_⟩
  intro s hs _ hmeets
  obtain ⟨e, he, hnone⟩ := hmeets.tombstone
  have hsome := hno s hs
  simp [he, hnone] at hsome

/-! ### Provenance -/

/-- An event carries the provenance of a principal. -/
structure CarriesProvenance (event : Dict) (principal : Principal) : Prop where
  actor : event.get "actorID" = .str principal.userId
  organization : event.get "organizationID" = .str principal.organizationId
  membership : event.get "membershipID" = .str principal.membershipId
  session : event.get "sessionID" = .str principal.sessionId
  revision : event.get "authorizationRevision" = .int principal.authorizationRevision

/-- The names of an event have no white space around them. -/
def Unpadded (event : Dict) : Prop :=
  ∀ key ∈ ["actorID", "organizationID", "membershipID", "sessionID"], ∀ text : Str,
    event.get (Str.ofString key) = .str text → text.strip = text

/-- An event that names the principal without white space around the names carries its
provenance. -/
lemma CarriesProvenance.of_unpadded {event : Dict} {principal : Principal}
    (h : NamesPrincipal event principal) (hu : Unpadded event) :
    CarriesProvenance event principal := by
  have hexact : ∀ key ∈ ["actorID", "organizationID", "membershipID", "sessionID"],
      ∀ name : Str, normalized (event.get (Str.ofString key)) = some name →
        event.get (Str.ofString key) = .str name := by
    intro key hkey name hname
    obtain ⟨text, htext, hstrip, -⟩ := normalized_eq_some.mp hname
    rw [htext, ← hstrip, hu key hkey text htext]
  exact ⟨hexact "actorID" (by simp) _ h.actor, hexact "organizationID" (by simp) _ h.organization,
    hexact "membershipID" (by simp) _ h.membership, hexact "sessionID" (by simp) _ h.session,
    h.revision⟩

/-- An event that passes the exact comparison of `authorize_record` carries the provenance. -/
lemma CarriesProvenance.of_current {event : Dict} {principal : Principal}
    (h : NamesPrincipal event principal)
    (hcurrent : Ownership.requireCurrentProvenance principal event = .ok ()) :
    CarriesProvenance event principal := by
  simp only [Ownership.requireCurrentProvenance, Ownership.requireCurrentField, bind_eq_ok,
    raiseIf_eq_ok, exists_const, Value.ne_str_eq_false_iff] at hcurrent
  obtain ⟨hactor, horganization, hmembership, hsession, -⟩ := hcurrent
  exact ⟨hactor, horganization, hmembership, hsession, h.revision⟩

/-- Provenance survives a rewrite of the event that Python's equality does not see. -/
lemma CarriesProvenance.of_same {event old : Dict} {principal : Principal}
    (h : CarriesProvenance old principal) (hw : Value.WellFormed (.dict event))
    (hrevision : ∃ n, event.get "authorizationRevision" = .int n)
    (hsame : Value.same (.dict event) (.dict old) = true) : CarriesProvenance event principal := by
  have hget : ∀ (key : Str) (text : Str), old.get key = .str text → event.get key = .str text := by
    intro key text hold
    have hkey := Dict.same_get hw.1 hsame key
    rwa [hold, Value.same_str_iff] at hkey
  obtain ⟨n, hn⟩ := hrevision
  have hnumber := Dict.same_get hw.1 hsame "authorizationRevision"
  rw [hn, h.revision, Value.same_int_iff] at hnumber
  exact ⟨hget _ _ h.actor, hget _ _ h.organization, hget _ _ h.membership, hget _ _ h.session,
    by rw [hn, hnumber]⟩

/-- The last event of a payload, as `authorize_record` reads it, is the last of its history. -/
lemma getLast?_historyOf {payload : Dict} {xs : List Value} (hxs : payload.get "events" = .list xs)
    (hw : (Lifecycle.storedEvents? payload).isSome) :
    xs.getLast?.bind Value.dict? = (Lifecycle.historyOf (some payload)).getLast? := by
  simp only [Lifecycle.historyOf, Lifecycle.storedEvents?, hxs, Option.bind_some] at hw ⊢
  cases xs with
  | nil => rfl
  | cons x xs =>
    simp only [Value.truthy, List.isEmpty_cons, Bool.not_false, ↓reduceIte, Value.list?,
      Option.bind_some] at hw ⊢
    obtain ⟨ds, hds⟩ := Option.isSome_iff_exists.mp hw
    rw [hds, Option.getD_some, dicts?_eq_some.mp hds, List.getLast?_map]
    cases ds.getLast? <;> rfl

/-- The latest event of an authorized blocker is the principal's. -/
lemma authorizeBlocker_latest {principal : Principal} {id itemId : Str} {payload : Dict}
    (h : Ownership.authorizeBlocker principal id payload itemId = .ok ())
    (hw : (Lifecycle.storedEvents? payload).isSome) {event : Dict}
    (hlast : (Lifecycle.historyOf (some payload)).getLast? = some event) :
    Ownership.requireCurrentProvenance principal event = .ok () := by
  unfold Ownership.authorizeBlocker at h
  cases hraw : payload.get "events" with
  | list xs =>
    simp only [hraw, Value.list?, bind_eq_ok, getLast?_historyOf hraw hw, hlast] at h
    obtain ⟨-, -, -, -, h⟩ := h
    exact h
  | _ => simp [hraw, Value.list?] at h

/-- The latest event of an authorized quotation is the principal's, when the status records a
transition. -/
lemma authorizeQuotationEvents_latest {principal : Principal} {payload : Dict}
    (h : Ownership.authorizeQuotationEvents principal payload = .ok ())
    (hstatus : (Ownership.quotationEventStatuses.any fun s => (payload.get "status").isStr s) = true)
    (hw : (Lifecycle.storedEvents? payload).isSome) {event : Dict}
    (hlast : (Lifecycle.historyOf (some payload)).getLast? = some event) :
    Ownership.requireCurrentProvenance principal event = .ok () := by
  unfold Ownership.authorizeQuotationEvents at h
  cases hraw : payload.get "events" with
  | list xs =>
    have htruthy : (if (Value.list xs).truthy then Value.list xs else .list []) = .list xs := by
      cases xs <;> rfl
    simp only [hraw, htruthy, Value.list?, bind_eq_ok, hstatus, ↓reduceIte,
      getLast?_historyOf hraw hw, hlast] at h
    obtain ⟨-, -, h⟩ := h
    exact h
  | _ =>
    simp only [Lifecycle.historyOf, Lifecycle.storedEvents?, hraw, Option.bind_some] at hlast
    split_ifs at hlast <;> simp [Value.list?] at hlast

namespace RecordStep

/-- A fresh upsert of a known blocker or quotation. -/
structure Updates (env : Env) (s : RecordStep) (payload : Payload) : Prop where
  history : s.record.entityType.HasHistory
  upsert : s.record.deletedAt = none
  unanswered : s.Unanswered
  fresh : staleRevision s.record s.current = false
  known : s.current.isSome
  decoded : decodePayload env s.record.payload = .ok payload

/-- The events of a payload beyond the stored history. -/
def appended (s : RecordStep) (payload : Payload) : List Dict :=
  (Lifecycle.historyOf (some payload.items)).drop (storedHistory s.before.db s.key).length

/-- At most one event is appended, and the names of an event that goes with the status draft or
ready of a quotation are not padded. -/
structure AppendsOne (s : RecordStep) (payload : Payload) : Prop where
  atMostOne : (s.appended payload).length ≤ 1
  unpadded : s.record.entityType = .quotation →
    (Ownership.quotationEventStatuses.any fun t => (payload.items.get "status").isStr t) = false →
    ∀ event ∈ s.appended payload, Unpadded event

variable {env : Env} {s : RecordStep} {payload : Payload} {grant : Authorized} {applied : Working}

/-- The latest event of a committed blocker is the principal's. -/
lemma Commits.blocker_latest (h : s.Commits env payload grant applied)
    (htype : s.record.entityType = .blocker) (hupsert : s.record.deletedAt = none) {event : Dict}
    (hlast : (Lifecycle.historyOf (some payload.items)).getLast? = some event) :
    Ownership.requireCurrentProvenance s.input.principal event = .ok () := by
  have haccepted := h.acceptedHistory (Or.inl htype) hupsert
  obtain ⟨-, -, ⟨hdelivery, -⟩ | ⟨-, -, plan, hplan, -⟩⟩ :=
    authorize_eq_ok_iff.mp h.admitted.authorized
  · rw [htype] at hdelivery
    cases hdelivery
  · rw [htype, hupsert] at hplan
    simp only [Ownership.authorizeRecord, Ownership.authorizeItemChild, bind_eq_ok] at hplan
    obtain ⟨-, -, -, -, -, -, -, -, -, -, itemId, -, found, -, ⟨⟩, hcontent, -⟩ := hplan
    simp only [Ownership.authorizeItemChildContent, Ownership.itemChildCapability,
      Option.isSome_none, bind_eq_ok] at hcontent
    obtain ⟨-, -, hblocker⟩ := hcontent
    exact authorizeBlocker_latest hblocker haccepted.wellFormed hlast

/-- The latest event of a committed quotation is the principal's, when the status records a
transition. -/
lemma Commits.quotation_latest (h : s.Commits env payload grant applied)
    (htype : s.record.entityType = .quotation) (hupsert : s.record.deletedAt = none)
    (hstatus : (Ownership.quotationEventStatuses.any
      fun t => (payload.items.get "status").isStr t) = true) {event : Dict}
    (hlast : (Lifecycle.historyOf (some payload.items)).getLast? = some event) :
    Ownership.requireCurrentProvenance s.input.principal event = .ok () := by
  have haccepted := h.acceptedHistory (Or.inr htype) hupsert
  obtain ⟨-, -, ⟨hdelivery, -⟩ | ⟨-, -, plan, hplan, -⟩⟩ :=
    authorize_eq_ok_iff.mp h.admitted.authorized
  · rw [htype] at hdelivery
    cases hdelivery
  · rw [htype, hupsert] at hplan
    simp only [Ownership.authorizeRecord, Ownership.authorizeQuotation, Option.isSome_none,
      Bool.false_eq_true, ↓reduceIte, bind_eq_ok] at hplan
    obtain ⟨projectId, -, project, -, ⟨⟩, hcontent, -⟩ := hplan
    simp only [Ownership.authorizeQuotationContent, bind_eq_ok] at hcontent
    obtain ⟨-, -, -, -, -, -, hevents⟩ := hcontent
    exact authorizeQuotationEvents_latest hevents hstatus haccepted.wellFormed hlast

/-- **Step.** An update that appends at most one event appends an event with the provenance of the
principal.

**Proof sketch.** The appended event is the last one. The lifecycle validator compares its names with
the principal's up to white space; `authorize_record` compares the last event of a blocker, and that
of a quotation whose status records a transition, exactly. -/
lemma Commits.appended_provenance (h : s.Commits env payload grant applied)
    (htype : s.record.entityType.HasHistory) (hupsert : s.record.deletedAt = none)
    (hone : s.AppendsOne payload) :
    ∀ event ∈ s.appended payload, CarriesProvenance event s.input.principal := by
  intro event hevent
  have hlast : (s.appended payload).getLast? = some event := by
    match hlist : s.appended payload, hone.atMostOne with
    | [], _ => simp [hlist] at hevent
    | [newest], _ =>
      rw [hlist, List.mem_singleton] at hevent
      rw [hevent]
      rfl
  have hnames := (h.acceptedHistory htype hupsert).newest event hlast
  have hlatest : (Lifecycle.historyOf (some payload.items)).getLast? = some event := by
    rw [appended, List.getLast?_drop] at hlast
    split_ifs at hlast
    exact hlast
  rcases htype with htype | htype
  · exact .of_current hnames (h.blocker_latest htype hupsert hlatest)
  · by_cases hstatus : (Ownership.quotationEventStatuses.any
        fun t => (payload.items.get "status").isStr t) = true
    · exact .of_current hnames (h.quotation_latest htype hupsert hstatus hlatest)
    · exact .of_unpadded hnames (hone.unpadded htype (by simpa using hstatus) event hevent)

end RecordStep

/-- A committed upsert of an entity appends an event at a position of its history: the history that
it meets ends before this position. -/
structure RecordStep.AppendsAt (env : Env) (s : RecordStep) (key : EntityKey) (i : ℕ)
    (event : Dict) : Prop where
  entity : s.key = key
  upsert : s.record.deletedAt = none
  beyond : (storedHistory s.before.db key).length ≤ i
  committed : ∃ payload grant applied, s.Commits env payload grant applied ∧
    (Lifecycle.historyOf (some payload.items))[i]? = some event

/-- Where an event at a position of a stored history comes from: up to Python's equality, it was
there at the start of the run, or it is the event that a step of the run appended at this position,
and that step obeys a law. -/
def Entered (env : Env) (inputs : List PushInput) (db : Db) (key : EntityKey) (i : ℕ) (event : Dict)
    (law : RecordStep → Prop) : Prop :=
  (∃ e₀, (storedHistory db key)[i]? = some e₀ ∧ Value.same (.dict event) (.dict e₀) = true) ∨
    ∃ s ∈ runSteps env inputs db, law s ∧
      ∃ e₀, s.AppendsAt env key i e₀ ∧ Value.same (.dict event) (.dict e₀) = true

/-- An event at a position of a stored history was there at the start of the run, or a step of the
run appended it at this position; if that step was an update, the event carries the provenance of
its principal. -/
def Attributed (env : Env) (inputs : List PushInput) (db : Db) (key : EntityKey) (i : ℕ)
    (event : Dict) : Prop :=
  Entered env inputs db key i event fun s =>
    s.current.isSome → CarriesProvenance event s.input.principal

section Attribution

variable {env : Env} {inputs : List PushInput} {db : Db}

/-- The events of a stored history are well formed. -/
lemma storedHistory_wellFormed {db : Db} {key : EntityKey} {event : Dict}
    (h : event ∈ storedHistory db key) : Value.WellFormed (.dict event) := by
  unfold storedHistory at h
  cases hstored : storedPayload db key with
  | none => simp [hstored, Lifecycle.historyOf] at h
  | some payload =>
    rw [hstored] at h
    exact Lifecycle.historyOf_wellFormed payload.wellFormed event h

/-- **Step.** What holds of the events of a stored history, and is not lost by a rewrite that
Python's equality does not see, holds after a step when it holds of the events that the step appends.

**Proof sketch.** Only an upsert of the entity writes its history. A position of the stored history
holds an event that is the same as the stored one; a position beyond it was appended by the step. -/
lemma RecordStep.Valid.historyKeeps {s : RecordStep} (h : s.Valid env) {key : EntityKey}
    (htype : key.2.1.HasHistory) {Q : ℕ → Dict → Prop}
    (hsame : ∀ i (event old : Dict), Q i old → Value.WellFormed (.dict event) →
      (∃ n, event.get "authorizationRevision" = .int n) →
      Value.same (.dict event) (.dict old) = true → Q i event)
    (happended : ∀ payload grant applied, s.Commits env payload grant applied → s.key = key →
      s.record.deletedAt = none → ∀ i event,
        (Lifecycle.historyOf (some payload.items))[i]? = some event →
        (storedHistory s.before.db key).length ≤ i → Q i event)
    (hbefore : ∀ i event, (storedHistory s.before.db key)[i]? = some event → Q i event) :
    ∀ i event, (storedHistory s.after.db key)[i]? = some event → Q i event := by
  intro i event hevent
  rcases h.keeps_or_commits with hkeeps | ⟨payload, grant, applied, hcommits⟩
  · apply hbefore
    rwa [storedHistory, storedPayload, hkeeps.entities] at hevent
  by_cases hkey : key = s.key
  · subst hkey
    rw [storedHistory, hcommits.storedPayload_self] at hevent
    split_ifs at hevent with hupsert
    · rw [Option.isNone_iff_eq_none] at hupsert
      have haccepted := hcommits.acceptedHistory htype hupsert
      have hmem : event ∈ Lifecycle.historyOf (some payload.items) := List.mem_of_getElem? hevent
      by_cases hi : i < (storedHistory s.before.db s.key).length
      · obtain ⟨old, hold, hequal⟩ := haccepted.extend.getElem? hi hevent
        exact hsame i event old (hbefore i old hold)
          (Lifecycle.historyOf_wellFormed payload.wellFormed event hmem)
          (haccepted.revision event hmem) hequal
      · exact happended payload grant applied hcommits rfl hupsert i event hevent (not_lt.mp hi)
    · simp [Lifecycle.historyOf] at hevent
  · apply hbefore
    rwa [storedHistory, hcommits.storedPayload_of_ne hkey] at hevent

/-- An event at a position beyond the stored history is among the appended ones. -/
lemma RecordStep.mem_appended {s : RecordStep} {payload : Payload} {i : ℕ} {event : Dict}
    (hevent : (Lifecycle.historyOf (some payload.items))[i]? = some event)
    (hi : (storedHistory s.before.db s.key).length ≤ i) : event ∈ s.appended payload := by
  refine List.mem_of_getElem? (i := i - (storedHistory s.before.db s.key).length) ?_
  rw [RecordStep.appended, List.getElem?_drop, Nat.add_sub_cancel' hi]
  exact hevent

/-- **What enters a history.** A law of the steps of a run and of the events that they append, which
a rewrite that Python's equality does not see leaves alone, holds of every stored event and of the
step that appended it.

**Proof sketch.** A step keeps the events that it meets, up to that equality, and what it adds it
appends (`RecordStep.Valid.historyKeeps`). -/
theorem runPushes_entered {key : EntityKey} (htype : key.2.1.HasHistory)
    (law : RecordStep → Dict → Prop)
    (hsame : ∀ s (event old : Dict), law s old → Value.WellFormed (.dict event) →
      (∃ n, event.get "authorizationRevision" = .int n) →
      Value.same (.dict event) (.dict old) = true → law s event)
    (hlaw : ∀ s ∈ runSteps env inputs db, ∀ i event, s.AppendsAt env key i event → law s event) :
    ∀ i event, (storedHistory (runPushes env inputs db) key)[i]? = some event →
      Entered env inputs db key i event fun s => law s event := by
  refine runPushes_inv (I := fun db' => ∀ i event, (storedHistory db' key)[i]? = some event →
    Entered env inputs db key i event fun s => law s event) ?_ fun s hs hbefore => ?_
  · intro i event hevent
    have hw := storedHistory_wellFormed (List.mem_of_getElem? hevent)
    exact Or.inl ⟨event, hevent, Value.same_refl hw⟩
  · refine (runSteps_valid hs).1.historyKeeps htype ?_ ?_ hbefore
    · intro i event old hold hw hrevision hequal
      rcases hold with ⟨e₀, he₀, h₀⟩ | ⟨s', hs', hlaw', e₀, happends, h₀⟩
      · exact Or.inl ⟨e₀, he₀, Value.same_trans hequal h₀⟩
      · exact Or.inr ⟨s', hs', hsame s' event old hlaw' hw hrevision hequal, e₀, happends,
          Value.same_trans hequal h₀⟩
    · intro payload grant applied hcommits hkey hupsert i event hevent hi
      have happends : s.AppendsAt env key i event :=
        ⟨hkey, hupsert, hi, payload, grant, applied, hcommits, hevent⟩
      have hw := Lifecycle.historyOf_wellFormed payload.wellFormed event
        (List.mem_of_getElem? hevent)
      exact Or.inr ⟨s, hs, hlaw s hs i event happends, event, happends, Value.same_refl hw⟩

end Attribution

/-- **Provenance.** In a run whose updates of blockers and quotations append at most one event each,
every event that an accepted update appends carries the provenance of its principal; and every
event of a blocker or a quotation in the state reached was there at the start, or was appended at
its position by a committed step, and then carries the provenance of that step's principal if the
step was an update. -/
theorem runPushes_provenance (env : Env) (inputs : List PushInput) (db : Db)
    (hone : ∀ s ∈ runSteps env inputs db, ∀ payload, s.Updates env payload →
      s.AppendsOne payload) :
    (∀ s ∈ runSteps env inputs db, ∀ payload grant applied, s.Commits env payload grant applied →
      s.Updates env payload →
        ∀ event ∈ s.appended payload, CarriesProvenance event s.input.principal) ∧
    ∀ key : EntityKey, key.2.1.HasHistory → ∀ i event,
      (storedHistory (runPushes env inputs db) key)[i]? = some event →
        Attributed env inputs db key i event := by
  constructor
  · intro s hs payload grant applied hcommits hupdates
    exact hcommits.appended_provenance hupdates.history hupdates.upsert (hone s hs payload hupdates)
  · intro key htype
    refine runPushes_entered htype
      (fun s event => s.current.isSome → CarriesProvenance event s.input.principal)
      (fun s event old hold hw hrevision hsame hknown =>
        (hold hknown).of_same hw hrevision hsame) ?_
    rintro s hs i event ⟨rfl, hupsert, hi, payload, grant, applied, hcommits, hevent⟩ hknown
    have hupdates : s.Updates env payload :=
      ⟨htype, hupsert, hcommits.unanswered, hcommits.fresh, hknown, hcommits.admitted.decoded⟩
    exact hcommits.appended_provenance htype hupsert (hone s hs payload hupdates) event
      (RecordStep.mem_appended hevent hi)

/-- An accepted update of the sample blocker appends an event under another actor's name. -/
theorem runSteps_forged_event :
    ∃ s ∈ runSteps Sample.env (Sample.created ++ Sample.forged) Sample.db,
      s.outcome.accepted = true ∧ s.record.entityType = .blocker ∧ s.current.isSome = true ∧
      ∃ payload, decodePayload Sample.env s.record.payload = .ok payload ∧
        ∃ event ∈ s.appended payload, ¬ CarriesProvenance event s.input.principal := by
  have hrun : ((runSteps Sample.env (Sample.created ++ Sample.forged) Sample.db).any fun s =>
      s.outcome.accepted && decide (s.record.entityType = .blocker) && s.current.isSome &&
        (decodePayload Sample.env s.record.payload).toOption.any fun payload =>
          (s.appended payload).any fun event =>
            !(event.get "actorID").isStr s.input.principal.userId) = true := by
    decide +kernel
  obtain ⟨s, hs, hstep⟩ := List.any_eq_true.mp hrun
  simp only [Bool.and_eq_true, decide_eq_true_eq, Option.any_eq_true, List.any_eq_true,
    Bool.not_eq_true'] at hstep
  obtain ⟨⟨⟨haccepted, htype⟩, hknown⟩, payload, hdecoded, event, hevent, hactor⟩ := hstep
  refine ⟨s, hs, haccepted, htype, hknown, payload, ?_, event, hevent, fun hcarries => ?_⟩
  · cases hresult : decodePayload Sample.env s.record.payload with
    | error e => simp [hresult, Except.toOption] at hdecoded
    | ok p =>
      simp only [hresult, Except.toOption, Option.some.injEq] at hdecoded
      rw [hdecoded]
  · rw [hcarries.actor] at hactor
    simp [Value.isStr, Value.str?] at hactor

/-- The update that resolves the sample blocker appends one event, which is attributed to it. -/
theorem runPushes_provenance_sample :
    ∃ event,
      (storedHistory (runPushes Sample.env (Sample.created ++ Sample.resolved) Sample.db)
        Sample.blockerKey)[1]? = some event ∧
      Attributed Sample.env (Sample.created ++ Sample.resolved) Sample.db Sample.blockerKey 1
        event := by
  have hlen : 1 < (storedHistory (runPushes Sample.env (Sample.created ++ Sample.resolved)
      Sample.db) Sample.blockerKey).length := by
    decide +kernel
  have hone : ∀ s ∈ runSteps Sample.env (Sample.created ++ Sample.resolved) Sample.db,
      s.record.entityType ≠ .quotation ∧ ((decodePayload Sample.env s.record.payload).toOption.all
        fun payload => decide ((s.appended payload).length ≤ 1)) = true := by
    decide +kernel
  refine ⟨_, List.getElem?_eq_getElem hlen, (runPushes_provenance Sample.env
    (Sample.created ++ Sample.resolved) Sample.db fun s hs payload hupdates => ?_).2
      Sample.blockerKey (Or.inl rfl) 1 _ (List.getElem?_eq_getElem hlen)⟩
  obtain ⟨htype, hlength⟩ := hone s hs
  refine ⟨?_, fun hquotation => absurd hquotation htype⟩
  simpa [hupdates.decoded, Except.toOption] using hlength

end VitrialSync
