import VitrialSync.Server.QuotationReplay

set_option relaxedAutoImplicit false
set_option autoImplicit false

/-!
# Quotations over runs

Three laws of a quotation over a run of pushes. Its status follows its events, except that a draft
made from a rejected quotation can take the rejection back without an event: the validator replays
the events and does not look at the stored status. Its content is locked from the moment it was
sent, and kept for good once it is approved or superseded. An approval is recorded by someone who
may approve; a sending is not always recorded by someone who may send, since the capability is
chosen by the status that the quotation ends in.

## Main definitions

* `VitrialSync.FollowsHistory`, `VitrialSync.RejectsSilently` — the status follows the appended
  events; a draft becomes rejected without an event.
* `VitrialSync.QuotationKept` — what a later payload keeps of an earlier one.
* `VitrialSync.Entitled`, `VitrialSync.SendsUnentitled` — the principal may record the appended
  events; it appends a sending that it may not record, and ends in another status.

## Main results

* `VitrialSync.runPushes_quotationStatus` — exactly when an accepted update follows its events.
* `VitrialSync.runPushes_quotationContent` — content, revision and predecessor over runs.
* `VitrialSync.runPushes_quotationEntitled` — exactly when the appended events are entitled.
-/

namespace VitrialSync

open Python Program

section Status

/-! ### Statuses -/

/-- The status of a payload is reached from that of a stored one by the appended events. -/
def FollowsHistory (stored payload : Dict) (appended : List Dict) : Prop :=
  ∃ status status' kinds,
    findName Lifecycle.quotationStatuses (stored.get "status") = some status ∧
    findName Lifecycle.quotationStatuses (payload.get "status") = some status' ∧
    Lifecycle.kindsOf appended = some kinds ∧ Lifecycle.Follows status kinds status'

/-- A draft, or a quotation that is ready, becomes rejected and no event is appended. -/
structure RejectsSilently (stored payload : Dict) (appended : List Dict) : Prop where
  silent : appended = []
  draft : stored.get "status" = .str "draft" ∨ stored.get "status" = .str "ready"
  rejected : payload.get "status" = .str "rejected"

/-- The kinds of a list of events are as many as the events. -/
lemma Lifecycle.kindsOf_eq_nil_iff {events : List Dict} {kinds : List QuotationEventKind}
    (h : kindsOf events = some kinds) : kinds = [] ↔ events = [] := by
  cases events with
  | nil =>
    obtain rfl := Option.some.inj h
    simp
  | cons event events =>
    unfold kindsOf at h
    rw [List.mapM_cons] at h
    obtain ⟨kind, -, h⟩ := Option.bind_eq_some_iff.mp h
    obtain ⟨rest, -, h⟩ := Option.bind_eq_some_iff.mp h
    obtain rfl := Option.some.inj h
    simp

/-- **Step.** A committed update of a quotation follows its events exactly when it does not reject
a draft silently. -/
lemma RecordStep.Commits.followsHistory_iff {env : Env} {s : RecordStep} {payload stored : Payload}
    {grant : Authorized} {applied : Working} (h : s.Commits env payload grant applied)
    (htype : s.record.entityType = .quotation) (hupsert : s.record.deletedAt = none)
    (hstored : storedPayload s.before.db s.key = some stored)
    (hreplayed : QuotationsReplayed s.before.db) :
    FollowsHistory stored.items payload.items (s.appended payload) ↔
      ¬ RejectsSilently stored.items payload.items (s.appended payload) := by
  obtain ⟨status', history, kinds, states, revision, hchecked⟩ := h.quotation htype hupsert
  rw [hstored, Option.map_some] at hchecked
  have hkey : s.key = (s.input.principal.organizationId, .quotation, s.record.entityID.text) := by
    rw [key, htype]
  obtain ⟨status, hstatus⟩ := hreplayed _ _ stored (hkey ▸ hstored)
  obtain ⟨more, hmore, hfollows⟩ := hchecked.follows_iff payload.wellFormed hstatus
  have happended : Lifecycle.kindsOf (s.appended payload) = some more := by
    rw [appended, storedHistory, hstored]
    exact hmore
  have hdraft : stored.items.get "status" = .str "draft" ↔ status = .draft :=
    Lifecycle.eq_status_iff hstatus.spelled .draft
  have hready : stored.items.get "status" = .str "ready" ↔ status = .ready :=
    Lifecycle.eq_status_iff hstatus.spelled .ready
  have hrejected : payload.items.get "status" = .str "rejected" ↔ status' = .rejected :=
    Lifecycle.eq_status_iff hchecked.replayed.spelled .rejected
  have hsilent : RejectsSilently stored.items payload.items (s.appended payload) ↔
      more = [] ∧ status' = .rejected ∧ status ∈ [Lifecycle.QuotationStatus.draft, .ready] := by
    rw [Lifecycle.kindsOf_eq_nil_iff happended, ← hrejected, List.mem_cons, List.mem_singleton,
      ← hdraft, ← hready]
    exact ⟨fun h => ⟨h.silent, h.rejected, h.draft⟩, fun h => ⟨h.1, h.2.2, h.2.1⟩⟩
  rw [hsilent, ← hfollows]
  constructor
  · rintro ⟨first, last, kinds', hfirst, hlast, hkinds, hpath⟩
    obtain rfl := Option.some.inj (hstatus.spelled.symm.trans hfirst)
    obtain rfl := Option.some.inj (hchecked.replayed.spelled.symm.trans hlast)
    obtain rfl := Option.some.inj (happended.symm.trans hkinds)
    exact hpath
  · intro hpath
    exact ⟨status, status', more, hstatus.spelled, hchecked.replayed.spelled, happended, hpath⟩

end Status

/-- **The status of a quotation follows its events.** In every run, an accepted update of a stored
quotation moves its status along the appended events, with free moves before, between and after
them, exactly when it does not make a draft rejected without an event. -/
theorem runPushes_quotationStatus (env : Env) (inputs : List PushInput) (db : Db)
    (hdb : QuotationsReplayed db) :
    ∀ s ∈ runSteps env inputs db, ∀ payload grant applied stored,
      s.Commits env payload grant applied → s.record.entityType = .quotation →
        s.record.deletedAt = none → storedPayload s.before.db s.key = some stored →
          (FollowsHistory stored.items payload.items (s.appended payload) ↔
            ¬ RejectsSilently stored.items payload.items (s.appended payload)) := by
  intro s hs payload grant applied stored hcommits htype hupsert hstored
  have hreplayed := runSteps_inv hdb
    (fun t ht hbefore => (runSteps_valid ht).1.quotationsReplayed hbefore) s hs
  exact hcommits.followsHistory_iff htype hupsert hstored hreplayed

namespace Sample

/-- An event of the sample quotation. -/
def quotationEvent (id kind : String) : Value :=
  .dict (("id", .str id) :: ("kind", .str kind) :: provenance)

/-- The sample quotation. -/
def quotation (mutationID : String) (base : Option ℕ) (status : String) (events : List Value) :
    PushInput :=
  input (record .quotation "q" mutationID base
    [("id", .str "q"), ("projectID", .str "p"), ("customerID", .str "c"), ("status", .str status),
      ("lines", .list [.dict [("itemID", .str "i")]]), ("events", .list events)])

/-- The sample quotation is sent. -/
def sending : List PushInput :=
  setup ++ [quotation "5" none "draft" [],
    quotation "6" (some 5) "sent" [quotationEvent "1" "sent"]]

/-- The sample quotation was rejected, becomes a draft, and is rejected again without an event. -/
def rejectedAgain : List PushInput :=
  let events := [quotationEvent "1" "sent", quotationEvent "2" "rejected"]
  setup ++ [quotation "5" none "rejected" events, quotation "6" (some 5) "draft" events,
    quotation "7" (some 6) "rejected" events]

end Sample

/-- No quotation is stored at the start. -/
lemma Sample.quotationsReplayed : QuotationsReplayed Sample.db := by
  intro org id payload hstored
  cases hstored

/-- The draft that is rejected again without an event does not follow its events. -/
theorem runSteps_quotation_rejected_again :
    ∃ s ∈ runSteps Sample.env Sample.rejectedAgain Sample.db, ∃ payload grant applied stored,
      s.Commits Sample.env payload grant applied ∧ s.record.entityType = .quotation ∧
        s.record.deletedAt = none ∧ storedPayload s.before.db s.key = some stored ∧
        ¬ FollowsHistory stored.items payload.items (s.appended payload) := by
  have hrun : ((runSteps Sample.env Sample.rejectedAgain Sample.db).any fun s =>
      decide (s.outcome.reason = .committed) && decide (s.record.entityType = .quotation) &&
        s.record.deletedAt.isNone && (storedPayload s.before.db s.key).any fun stored =>
          (stored.items.get "status").isStr "draft" &&
            (decodePayload Sample.env s.record.payload).toOption.all fun payload =>
              (s.appended payload).isEmpty && (payload.items.get "status").isStr "rejected") =
      true := by
    decide +kernel
  obtain ⟨s, hs, hstep⟩ := List.any_eq_true.mp hrun
  simp only [Bool.and_eq_true, decide_eq_true_eq, Option.any_eq_true, Value.isStr_iff,
    Option.isNone_iff_eq_none] at hstep
  obtain ⟨⟨⟨hreason, htype⟩, hupsert⟩, stored, hstored, hdraft, hpayload⟩ := hstep
  obtain ⟨payload, grant, applied, hcommits⟩ := (runSteps_valid hs).1.commits_of_reason hreason
  simp only [hcommits.admitted.decoded, Except.toOption, Option.all_some, Bool.and_eq_true,
    List.isEmpty_iff, Value.isStr_iff] at hpayload
  have hreplayed := runSteps_inv Sample.quotationsReplayed
    (fun t ht hbefore => (runSteps_valid ht).1.quotationsReplayed hbefore) s hs
  refine ⟨s, hs, payload, grant, applied, stored, hcommits, htype, hupsert, hstored, ?_⟩
  rw [hcommits.followsHistory_iff htype hupsert hstored hreplayed, not_not]
  exact ⟨hpayload.1, Or.inl hdraft, hpayload.2⟩

/-- The sending of the sample quotation follows its event. -/
theorem runPushes_quotationStatus_sample :
    ∃ s ∈ runSteps Sample.env Sample.sending Sample.db, ∃ payload stored : Payload,
      (s.appended payload).length = 1 ∧
        FollowsHistory stored.items payload.items (s.appended payload) := by
  have hrun : ((runSteps Sample.env Sample.sending Sample.db).any fun s =>
      decide (s.outcome.reason = .committed) && decide (s.record.entityType = .quotation) &&
        s.record.deletedAt.isNone && (storedPayload s.before.db s.key).isSome &&
          (decodePayload Sample.env s.record.payload).toOption.all fun payload =>
            decide ((s.appended payload).length = 1)) = true := by
    decide +kernel
  obtain ⟨s, hs, hstep⟩ := List.any_eq_true.mp hrun
  simp only [Bool.and_eq_true, decide_eq_true_eq, Option.isNone_iff_eq_none,
    Option.isSome_iff_exists] at hstep
  obtain ⟨⟨⟨⟨hreason, htype⟩, hupsert⟩, stored, hstored⟩, hpayload⟩ := hstep
  obtain ⟨payload, grant, applied, hcommits⟩ := (runSteps_valid hs).1.commits_of_reason hreason
  simp only [hcommits.admitted.decoded, Except.toOption, Option.all_some,
    decide_eq_true_eq] at hpayload
  refine ⟨s, hs, payload, stored, hpayload, ?_⟩
  refine (runPushes_quotationStatus Sample.env Sample.sending Sample.db Sample.quotationsReplayed s
    hs payload grant applied stored hcommits htype hupsert hstored).mpr fun hsilent => ?_
  rw [hsilent.silent] at hpayload
  cases hpayload

/-! ### Content -/

/-- What a later payload of a quotation keeps of an earlier one: revision and predecessor, and once
it is approved or superseded also the status and the content. -/
structure QuotationKept (earlier later : Dict) : Prop where
  revision : quotationRevision? later = quotationRevision? earlier
  predecessor : predecessorId later = predecessorId earlier
  final : ∀ status, Lifecycle.Replayed earlier status → status.IsFinal →
    Lifecycle.Replayed later status ∧ Lifecycle.SameContent earlier later

/-- A quotation keeps everything of itself. -/
lemma QuotationKept.refl {payload : Dict} (hw : Value.WellFormed (.dict payload)) :
    QuotationKept payload payload where
  revision := rfl
  predecessor := rfl
  final _ hreplayed _ := ⟨hreplayed, .refl hw⟩

/-- What is kept in turn is kept. -/
lemma QuotationKept.trans {first second third : Dict} (h : QuotationKept first second)
    (h' : QuotationKept second third) : QuotationKept first third where
  revision := h'.revision.trans h.revision
  predecessor := h'.predecessor.trans h.predecessor
  final status hreplayed hfinal := by
    obtain ⟨hsecond, hcontent⟩ := h.final status hreplayed hfinal
    obtain ⟨hthird, hcontent'⟩ := h'.final status hsecond hfinal
    exact ⟨hthird, hcontent.trans hcontent'⟩

/-- The content of a quotation that has left the draft is the same in another payload. -/
def ContentLocked (stored payload : Dict) : Prop :=
  ∀ status ∈ Lifecycle.quotationContentLocked,
    findName Lifecycle.quotationStatuses (stored.get "status") = some status →
      Lifecycle.SameContent stored payload

/-- **Step.** What a committed update of a quotation keeps. -/
lemma RecordStep.Commits.quotationKept {env : Env} {s : RecordStep} {payload stored : Payload}
    {grant : Authorized} {applied : Working} (h : s.Commits env payload grant applied)
    (htype : s.record.entityType = .quotation) (hupsert : s.record.deletedAt = none)
    (hstored : storedPayload s.before.db s.key = some stored) :
    QuotationKept stored.items payload.items ∧ ContentLocked stored.items payload.items := by
  obtain ⟨status', history, kinds, states, revision, hchecked⟩ := h.quotation htype hupsert
  rw [hstored, Option.map_some] at hchecked
  obtain ⟨hrevision, hpredecessor⟩ := requireSameQuotation_spec (hchecked.same stored.items rfl)
  have hlocked : ContentLocked stored.items payload.items :=
    fun status hmem hspelled => hchecked.content_kept hspelled hmem
  refine ⟨⟨?_, hpredecessor.symm, fun status hreplayed hfinal => ⟨?_, ?_⟩⟩, hlocked⟩
  · rw [hrevision, quotationRevision?, hchecked.readRevision]
    rfl
  · have hstatus := hchecked.final_kept payload.wellFormed hreplayed hfinal
    exact hstatus ▸ hchecked.replayed
  · refine hlocked status ?_ hreplayed.spelled
    rcases hfinal with rfl | rfl <;> decide

/-- A quotation is stored with a payload that keeps what is kept of an earlier one. -/
def QuotationStays (org id : Str) (earlier : Payload) (db : Db) : Prop :=
  ∃ later, storedQuotation db org id = some later ∧ QuotationKept earlier.items later.items

/-- **Step.** A step that does not tombstone a quotation keeps it. -/
lemma RecordStep.Valid.quotationStays {env : Env} {s : RecordStep} (h : s.Valid env) {org id : Str}
    {earlier : Payload}
    (hno : s.key = (org, .quotation, id) → s.outcome.reason = .committed →
      s.record.deletedAt = none) (hbefore : QuotationStays org id earlier s.before.db) :
    QuotationStays org id earlier s.after.db := by
  obtain ⟨stored, hstored, hkept⟩ := hbefore
  rcases h.storedPayload_before hstored with hafter | ⟨hkey, payload, grant, applied, hcommits⟩
  · exact ⟨stored, hafter, hkept⟩
  · have hupsert := hno hkey.symm (by rw [hcommits.outcome])
    rw [storedQuotation, hkey] at hstored
    have hupdate := (hcommits.quotationKept (quotation_of_key hkey).2.1 hupsert hstored).1
    refine ⟨payload, ?_, hkept.trans hupdate⟩
    rw [storedQuotation, hkey, hcommits.storedPayload_self, hupsert]
    rfl

/-- **Content is locked over runs.** From a time at which a quotation is stored on, while it is not
tombstoned: every accepted mutation of it is an update of a stored payload with the same revision
and predecessor, and with the same content when the stored status is sent, rejected, approved or
superseded; at the end of the run it is stored with the same revision and predecessor, and if it
was approved or superseded, with the same status and content. -/
theorem runPushes_quotationContent (env : Env) (first second : List PushInput) (db : Db)
    (hdb : QuotationsReplayed db) (org id : Str) (earlier : Payload)
    (hearlier : storedQuotation (runPushes env first db) org id = some earlier)
    (hno : ∀ s ∈ runSteps env second (runPushes env first db), s.key = (org, .quotation, id) →
      s.outcome.reason = .committed → s.record.deletedAt = none) :
    (∀ s ∈ runSteps env second (runPushes env first db), ∀ payload grant applied,
      s.Commits env payload grant applied → s.key = (org, .quotation, id) →
        ∃ stored, storedPayload s.before.db s.key = some stored ∧
          quotationRevision? payload.items = quotationRevision? stored.items ∧
          predecessorId payload.items = predecessorId stored.items ∧
          ContentLocked stored.items payload.items) ∧
    ∃ later, storedQuotation (runPushes env (first ++ second) db) org id = some later ∧
      quotationRevision? later.items = quotationRevision? earlier.items ∧
      predecessorId later.items = predecessorId earlier.items ∧
      ∀ status : Lifecycle.QuotationStatus, status.IsFinal →
        earlier.items.get "status" = .str status.name →
          later.items.get "status" = .str status.name ∧
          Lifecycle.SameContent earlier.items later.items := by
  have hreplayed : QuotationsReplayed (runPushes env first db) :=
    runPushes_inv hdb fun _ hs hbefore => (runSteps_valid hs).1.quotationsReplayed hbefore
  have hstart : QuotationStays org id earlier (runPushes env first db) :=
    ⟨earlier, hearlier, .refl earlier.wellFormed⟩
  have hstep : ∀ s ∈ runSteps env second (runPushes env first db),
      QuotationStays org id earlier s.before.db → QuotationStays org id earlier s.after.db :=
    fun s hs hbefore => (runSteps_valid hs).1.quotationStays (hno s hs) hbefore
  constructor
  · intro s hs payload grant applied hcommits hkey
    obtain ⟨stored, hstored, -⟩ := runSteps_inv hstart hstep s hs
    rw [storedQuotation, ← hkey] at hstored
    have hupsert := hno s hs hkey (by rw [hcommits.outcome])
    obtain ⟨hkept, hlocked⟩ :=
      hcommits.quotationKept (RecordStep.quotation_of_key hkey.symm).2.1 hupsert hstored
    exact ⟨stored, hstored, hkept.revision, hkept.predecessor, hlocked⟩
  · rw [runPushes_append]
    obtain ⟨later, hlater, hkept⟩ := runPushes_inv hstart hstep
    refine ⟨later, hlater, hkept.revision, hkept.predecessor, fun status hfinal hspelled => ?_⟩
    obtain ⟨status', hstatus'⟩ := hreplayed org id earlier hearlier
    obtain rfl := (Lifecycle.eq_status_iff hstatus'.spelled status).mp hspelled
    obtain ⟨hlast, hcontent⟩ := hkept.final status' hstatus' hfinal
    exact ⟨Lifecycle.findName_quotationStatuses.mp hlast.spelled, hcontent⟩

namespace Sample

/-- The sample quotation is approved. -/
def approval (mutationID : String) (base : Option ℕ) : PushInput :=
  quotation mutationID base "approved" [quotationEvent "1" "sent", quotationEvent "2" "approved"]

end Sample

/-- The sample quotation is approved, and pushed once more. -/
theorem runPushes_quotationContent_sample :
    ∃ earlier later,
      storedQuotation (runPushes Sample.env (Sample.sending ++ [Sample.approval "7" (some 6)])
        Sample.db) "o" "q" = some earlier ∧
      storedQuotation (runPushes Sample.env (Sample.sending ++ [Sample.approval "7" (some 6)] ++
        [Sample.approval "8" (some 7)]) Sample.db) "o" "q" = some later ∧
      later.items.get "status" = .str "approved" ∧
      Lifecycle.SameContent earlier.items later.items := by
  have hearlier : ((storedQuotation (runPushes Sample.env
      (Sample.sending ++ [Sample.approval "7" (some 6)]) Sample.db) "o" "q").any fun payload =>
        (payload.items.get "status").isStr "approved") = true := by
    decide +kernel
  have hupserts : ∀ s ∈ runSteps Sample.env [Sample.approval "8" (some 7)] (runPushes Sample.env
      (Sample.sending ++ [Sample.approval "7" (some 6)]) Sample.db),
      s.record.deletedAt.isNone = true := by
    decide +kernel
  obtain ⟨earlier, hstored, hspelled⟩ := (Option.any_eq_true _ _).mp hearlier
  obtain ⟨-, later, hlater, -, -, hfinal⟩ := runPushes_quotationContent Sample.env
    (Sample.sending ++ [Sample.approval "7" (some 6)]) [Sample.approval "8" (some 7)] Sample.db
    Sample.quotationsReplayed "o" "q" earlier hstored
    fun s hs _ _ => Option.isNone_iff_eq_none.mp (hupserts s hs)
  obtain ⟨hstatus, hcontent⟩ := hfinal .approved (Or.inl rfl) ((Value.isStr_iff _ _).mp hspelled)
  exact ⟨earlier, later, hstored, hlater, hstatus, hcontent⟩

/-! ### Capabilities -/

/-- An event of a given kind is among some events. -/
def HasKind (events : List Dict) (kind : String) : Prop :=
  ∃ event ∈ events, event.get "kind" = .str kind

/-- The principal may record the sending and the approval among some events. -/
structure Entitled (principal : Principal) (events : List Dict) : Prop where
  sent : HasKind events "sent" → principal.holds .quotationSend = true
  approved : HasKind events "approved" → principal.holds .quotationApprove = true

/-- A principal that is entitled to some events is entitled to events with kinds among theirs. -/
lemma Entitled.of_kinds {principal : Principal} {events others : List Dict}
    (h : Entitled principal events) (hkinds : ∀ kind, HasKind others kind → HasKind events kind) :
    Entitled principal others :=
  ⟨fun hsent => h.sent (hkinds _ hsent), fun happroved => h.approved (hkinds _ happroved)⟩

/-- A principal that is entitled to some events is entitled to one that is like one of them. -/
lemma Entitled.single {principal : Principal} {events : List Dict} {event e₀ : Dict}
    (h : Entitled principal events) (he₀ : e₀ ∈ events) (hw : Value.WellFormed (.dict event))
    (hsame : Value.same (.dict event) (.dict e₀) = true) : Entitled principal [event] := by
  refine h.of_kinds fun kind hkind => ?_
  obtain ⟨_, hmem, hspelled⟩ := hkind
  obtain rfl := List.mem_singleton.mp hmem
  exact ⟨e₀, he₀, Value.eq_str_of_same (Dict.same_get hw.1 hsame "kind") hspelled⟩

/-- A principal that may not send appends a sending, and the quotation ends in another status. -/
structure SendsUnentitled (principal : Principal) (payload : Dict) (events : List Dict) : Prop where
  sent : HasKind events "sent"
  elsewhere : payload.get "status" ≠ .str "sent"
  lacks : principal.holds .quotationSend = false

namespace Lifecycle

/-- The kind of an event is among the kinds. -/
lemma mem_kindsOf {events : List Dict} {kinds : List QuotationEventKind}
    (h : kindsOf events = some kinds) {event : Dict} (hevent : event ∈ events) :
    ∃ kind ∈ kinds, findName quotationEventKinds (event.get "kind") = some kind := by
  induction events generalizing kinds with
  | nil => cases hevent
  | cons first rest ih =>
    unfold kindsOf at h
    rw [List.mapM_cons] at h
    obtain ⟨kind, hkind, h⟩ := Option.bind_eq_some_iff.mp h
    obtain ⟨kinds', hkinds', h⟩ := Option.bind_eq_some_iff.mp h
    obtain rfl := Option.some.inj h
    rcases List.mem_cons.mp hevent with rfl | hmem
    · exact ⟨kind, List.mem_cons_self, hkind⟩
    · obtain ⟨kind', hkind', hspelled⟩ := ih hkinds' hmem
      exact ⟨kind', List.mem_cons_of_mem _ hkind', hspelled⟩

/-- A replay over an approval ends there. -/
lemma replay_over_approval {kinds : List QuotationEventKind} {states : List QuotationStatus}
    (h : kinds.foldlM replayQuotationEvent [.draft] = .ok states) (happroved : .approved ∈ kinds) :
    states = [.approved] := by
  obtain ⟨before, after, rfl⟩ := List.append_of_mem happroved
  rw [List.foldlM_append, bind_eq_ok] at h
  obtain ⟨ended, hended, h⟩ := h
  obtain ⟨status, rfl⟩ := replay_single hended
  rw [List.foldlM_cons, bind_eq_ok] at h
  obtain ⟨next, hnext, h⟩ := h
  obtain ⟨second, third, -, hmove, rfl⟩ := replay_step hnext
  cases hmove
  exact replay_after_final (Or.inl rfl) h

/-- A quotation with an approval among its events is approved. -/
lemma QuotationChecked.approved_of_event {db : Db} {payload : Dict} {currentPayload : Option Dict}
    {principal : Principal} {id : Str} {status : QuotationStatus} {history : List Dict}
    {kinds : List QuotationEventKind} {states : List QuotationStatus} {revision : ℤ}
    (h : QuotationChecked db payload currentPayload principal id status history kinds states
      revision) (happroved : HasKind (historyOf (some payload)) "approved") :
    status = .approved := by
  obtain ⟨event, hevent, hkind⟩ := happroved
  rw [h.historyOf_eq] at hevent
  obtain ⟨kind, hmem, hspelled⟩ := mem_kindsOf (kindsOf_of_checks h.readKinds) hevent
  have happroval : findName quotationEventKinds (.str (Str.ofString "approved")) =
      some .approved := by decide +kernel
  rw [hkind, happroval, Option.some.injEq] at hspelled
  subst hspelled
  obtain rfl := replay_over_approval h.replay hmem
  have hreachable := h.reachable
  revert hreachable
  cases status <;> decide

end Lifecycle

/-- The principal of a committed quotation holds the capability of its status. -/
lemma RecordStep.Commits.quotation_capability {env : Env} {s : RecordStep} {payload : Payload}
    {grant : Authorized} {applied : Working} (h : s.Commits env payload grant applied)
    (htype : s.record.entityType = .quotation) (hupsert : s.record.deletedAt = none)
    {capability : Capability}
    (hcapability : findName Ownership.quotationCapabilities (payload.items.get "status") =
      some capability) : s.input.principal.holds capability = true := by
  obtain ⟨-, -, ⟨hdelivery, -⟩ | ⟨-, -, plan, hplan, -⟩⟩ :=
    authorize_eq_ok_iff.mp h.admitted.authorized
  · rw [htype] at hdelivery
    cases hdelivery
  · rw [htype, hupsert] at hplan
    simp only [Ownership.authorizeRecord, Ownership.authorizeQuotation, Option.isSome_none,
      Bool.false_eq_true, ↓reduceIte, bind_eq_ok] at hplan
    obtain ⟨projectId, -, project, -, ⟨⟩, hcontent, -⟩ := hplan
    simp only [Ownership.authorizeQuotationContent, Ownership.requireQuotationStatus,
      bind_eq_ok] at hcontent
    obtain ⟨-, -, ⟨⟩, ⟨capability?, hname, hstatus⟩, -⟩ := hcontent
    obtain rfl := hcapability.symm.trans (hashedName_eq_ok hname)
    simp only [Ownership.requireCapability, raiseIf_eq_ok, Bool.not_eq_false'] at hstatus
    exact hstatus

/-- **Step.** The principal of a committed quotation is entitled to the events it appends exactly
when it does not append a sending it may not record and end in another status.

**Proof sketch.** A quotation that ends in status sent needs the capability to send. After an
approval nothing follows, so a quotation with an approval among its events is approved and needs the
capability to approve. -/
lemma RecordStep.Commits.entitled_iff {env : Env} {s : RecordStep} {payload : Payload}
    {grant : Authorized} {applied : Working} (h : s.Commits env payload grant applied)
    (htype : s.record.entityType = .quotation) (hupsert : s.record.deletedAt = none) :
    Entitled s.input.principal (s.appended payload) ↔
      ¬ SendsUnentitled s.input.principal payload.items (s.appended payload) := by
  constructor
  · rintro hentitled ⟨hsent, -, hlacks⟩
    rw [hentitled.sent hsent] at hlacks
    cases hlacks
  · intro hno
    refine ⟨fun hsent => ?_, fun happroved => ?_⟩
    · by_contra hlacks
      have hstatus : payload.items.get "status" = .str "sent" := by
        by_contra helsewhere
        exact hno ⟨hsent, helsewhere, by simpa using hlacks⟩
      exact hlacks (h.quotation_capability htype hupsert (by rw [hstatus]; decide +kernel))
    · obtain ⟨status, history, kinds, states, revision, hchecked⟩ := h.quotation htype hupsert
      obtain ⟨event, hevent, hkind⟩ := happroved
      have hhistory : HasKind (Lifecycle.historyOf (some payload.items)) "approved" :=
        ⟨event, List.mem_of_mem_drop hevent, hkind⟩
      obtain rfl := hchecked.approved_of_event hhistory
      have hstatus : payload.items.get "status" = .str "approved" :=
        Lifecycle.findName_quotationStatuses.mp hchecked.replayed.spelled
      exact h.quotation_capability htype hupsert (by rw [hstatus]; decide +kernel)

/-- An event at a position of a stored history was there at the start of the run, or a step of the
run appended it at this position, whose principal may record a sending or an approval if the event
is one. -/
def EnteredEntitled (env : Env) (inputs : List PushInput) (db : Db) (key : EntityKey) (i : ℕ)
    (event : Dict) : Prop :=
  Entered env inputs db key i event fun s => Entitled s.input.principal [event]

/-- **Entitled events.** In every run, the principal of an accepted quotation is entitled to the
events that it appends exactly when it does not append a sending it may not record and end in
another status. When no accepted quotation of the run does so, every event of every quotation in the
state reached was there at the start, or was appended at its position by a step whose principal is
entitled to it. -/
theorem runPushes_quotationEntitled (env : Env) (inputs : List PushInput) (db : Db) :
    (∀ s ∈ runSteps env inputs db, ∀ payload grant applied, s.Commits env payload grant applied →
      s.record.entityType = .quotation → s.record.deletedAt = none →
        (Entitled s.input.principal (s.appended payload) ↔
          ¬ SendsUnentitled s.input.principal payload.items (s.appended payload))) ∧
    ((∀ s ∈ runSteps env inputs db, ∀ payload grant applied, s.Commits env payload grant applied →
      s.record.entityType = .quotation → s.record.deletedAt = none →
        ¬ SendsUnentitled s.input.principal payload.items (s.appended payload)) →
      ∀ org id i event,
        (storedHistory (runPushes env inputs db) (org, .quotation, id))[i]? = some event →
          EnteredEntitled env inputs db (org, .quotation, id) i event) := by
  refine ⟨fun s _ payload grant applied hcommits htype hupsert =>
    hcommits.entitled_iff htype hupsert, fun hno org id => ?_⟩
  refine runPushes_entered (Or.inr rfl)
    (fun s event => Entitled s.input.principal [event])
    (fun s event old hold hw _ hsame => hold.single (List.mem_singleton_self old) hw hsame) ?_
  rintro s hs i event ⟨hkey, hupsert, hi, payload, grant, applied, hcommits, hevent⟩
  have htype := (RecordStep.quotation_of_key hkey.symm).2.1
  have hentitled := (hcommits.entitled_iff htype hupsert).mpr
    (hno s hs payload grant applied hcommits htype hupsert)
  have hw := Lifecycle.historyOf_wellFormed payload.wellFormed event (List.mem_of_getElem? hevent)
  rw [← hkey] at hi
  exact hentitled.single (RecordStep.mem_appended hevent hi) hw (Value.same_refl hw)

namespace Sample

/-- A member that may create quotations but not send them. -/
def clerk : Principal := { principal with capabilities := [.sync, .quotationCreate] }

/-- The clerk creates a quotation as a draft that was sent and rejected. -/
def sentByClerk : List PushInput :=
  setup ++ [{ quotation "5" none "draft" [quotationEvent "1" "sent",
    quotationEvent "2" "rejected"] with principal := clerk }]

end Sample

/-- The clerk, who may not send, records a sending. -/
theorem runSteps_quotation_sent_unentitled :
    ∃ s ∈ runSteps Sample.env Sample.sentByClerk Sample.db, ∃ payload grant applied,
      s.Commits Sample.env payload grant applied ∧ s.record.entityType = .quotation ∧
        s.record.deletedAt = none ∧ ¬ Entitled s.input.principal (s.appended payload) := by
  have hrun : ((runSteps Sample.env Sample.sentByClerk Sample.db).any fun s =>
      decide (s.outcome.reason = .committed) && decide (s.record.entityType = .quotation) &&
        s.record.deletedAt.isNone && !s.input.principal.holds .quotationSend &&
          (decodePayload Sample.env s.record.payload).toOption.all fun payload =>
            (s.appended payload).any fun event => (event.get "kind").isStr "sent") = true := by
    decide +kernel
  obtain ⟨s, hs, hstep⟩ := List.any_eq_true.mp hrun
  simp only [Bool.and_eq_true, decide_eq_true_eq, Option.isNone_iff_eq_none,
    Bool.not_eq_true'] at hstep
  obtain ⟨⟨⟨⟨hreason, htype⟩, hupsert⟩, hlacks⟩, hpayload⟩ := hstep
  obtain ⟨payload, grant, applied, hcommits⟩ := (runSteps_valid hs).1.commits_of_reason hreason
  simp only [hcommits.admitted.decoded, Except.toOption, Option.all_some, List.any_eq_true,
    Value.isStr_iff] at hpayload
  refine ⟨s, hs, payload, grant, applied, hcommits, htype, hupsert, fun hentitled => ?_⟩
  rw [hentitled.sent hpayload] at hlacks
  cases hlacks

/-- The sample member, who may send, records the sending of the sample quotation. -/
theorem runPushes_quotationEntitled_sample :
    ∃ event, (storedHistory (runPushes Sample.env Sample.sending Sample.db)
        ("o", .quotation, "q"))[0]? = some event ∧
      EnteredEntitled Sample.env Sample.sending Sample.db ("o", .quotation, "q") 0 event := by
  have hlen : 0 < (storedHistory (runPushes Sample.env Sample.sending Sample.db)
      ("o", .quotation, "q")).length := by
    decide +kernel
  have hsend : ∀ s ∈ runSteps Sample.env Sample.sending Sample.db,
      s.input.principal.holds .quotationSend = true := by
    decide +kernel
  refine ⟨_, List.getElem?_eq_getElem hlen, (runPushes_quotationEntitled Sample.env Sample.sending
    Sample.db).2 ?_ "o" "q" 0 _ (List.getElem?_eq_getElem hlen)⟩
  rintro s hs payload grant applied - - - ⟨-, -, hlacks⟩
  rw [hsend s hs] at hlacks
  cases hlacks

end VitrialSync
