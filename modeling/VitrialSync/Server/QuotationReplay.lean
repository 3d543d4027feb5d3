import VitrialSync.Server.Supersession

set_option relaxedAutoImplicit false
set_option autoImplicit false

/-!
# The events of a quotation

A quotation carries its events, and the validator replays them from `draft` as a set of statuses: an
event moves to one status, and some moves need no event. What the replay computes is compared here
with the moves themselves: a status that it finds is reached by the events in order, with free moves
in between. Approval and supersession are final, and the content of a quotation that has left the
draft is locked.

## Main definitions

* `VitrialSync.Lifecycle.FreeMove`, `VitrialSync.Lifecycle.EventMove` — the moves of a quotation.
* `VitrialSync.Lifecycle.Follows` — a status is reached from another one by events in order.
* `VitrialSync.Lifecycle.Replayed` — the status of a quotation is reachable from its events.
* `VitrialSync.QuotationsReplayed` — so it is for every stored quotation.

## Main results

* `VitrialSync.Lifecycle.follows_of_replay` — the replay finds only statuses that are reached.
* `VitrialSync.Lifecycle.QuotationChecked.final_kept` — a final status is kept.
* `VitrialSync.Lifecycle.QuotationChecked.content_kept` — locked content is kept.
-/

namespace VitrialSync

open Python Program

namespace Lifecycle

/-! ### Moves -/

/-- The moves of a quotation that need no event. -/
inductive FreeMove : QuotationStatus → QuotationStatus → Prop
  | finished : FreeMove .draft .ready
  | withdrawn : FreeMove .ready .draft
  | reworked : FreeMove .rejected .draft

/-- The moves that an event records. -/
inductive EventMove : QuotationEventKind → QuotationStatus → QuotationStatus → Prop
  | sent : EventMove .sent .ready .sent
  | approved : EventMove .approved .sent .approved
  | rejected : EventMove .rejected .sent .rejected
  | superseded {status : QuotationStatus} (h : status ∈ [.draft, .ready, .sent, .rejected]) :
      EventMove .superseded status .superseded

/-- A status is reached from another one by events in order, with free moves before, between and
after them. -/
inductive Follows : QuotationStatus → List QuotationEventKind → QuotationStatus → Prop
  | stay (status : QuotationStatus) : Follows status [] status
  | free {first second last : QuotationStatus} {kinds : List QuotationEventKind}
      (hmove : FreeMove first second) (hrest : Follows second kinds last) : Follows first kinds last
  | event {first second last : QuotationStatus} {kind : QuotationEventKind}
      {kinds : List QuotationEventKind} (hmove : EventMove kind first second)
      (hrest : Follows second kinds last) : Follows first (kind :: kinds) last

/-- Free moves before a path. -/
lemma Follows.after_free {first second last : QuotationStatus} {kinds : List QuotationEventKind}
    (h : Follows first [] second) (h' : Follows second kinds last) : Follows first kinds last := by
  generalize hnone : ([] : List QuotationEventKind) = none? at h
  induction h with
  | stay status => exact h'
  | free hmove _ ih => exact .free hmove (ih h' hnone)
  | event hmove _ _ => cases hnone

/-- Without an event a draft stays a draft or gets ready. -/
lemma Follows.of_draft {first last : QuotationStatus} (h : Follows first [] last)
    (hfirst : first ∈ [QuotationStatus.draft, .ready]) :
    last ∈ [QuotationStatus.draft, .ready] := by
  generalize hnone : ([] : List QuotationEventKind) = none? at h
  induction h with
  | stay status => exact hfirst
  | free hmove _ ih =>
    cases hmove with
    | finished => exact ih (by simp) hnone
    | withdrawn => exact ih (by simp) hnone
    | reworked => simp at hfirst
  | event hmove _ _ => cases hnone

/-- The closure of a status holds what free moves reach. -/
lemma follows_of_closure {first last : QuotationStatus}
    (h : (quotationNoEventClosure [first]).contains last = true) : Follows first [] last := by
  have hready : Follows .draft [] .ready := .free .finished (.stay _)
  have hdraft : Follows .ready [] .draft := .free .withdrawn (.stay _)
  have hrework : Follows .rejected [] .draft := .free .reworked (.stay _)
  by_cases hsame : first = last
  · subst hsame
    exact .stay first
  · cases first <;> cases last <;>
      first
      | exact absurd rfl hsame
      | exact hready
      | exact hdraft
      | exact hrework
      | exact hrework.after_free hready
      | exact absurd h (by decide)

/-- One step of the replay: the event moves from a status that free moves reach. -/
lemma replay_step {first : QuotationStatus} {kind : QuotationEventKind}
    {states : List QuotationStatus} (h : replayQuotationEvent [first] kind = .ok states) :
    ∃ second third, Follows first [] second ∧ EventMove kind second third ∧ states = [third] := by
  simp only [replayQuotationEvent] at h
  split_ifs at h with hempty
  obtain rfl := Except.ok.inj h
  cases kind with
  | sent =>
    simp only [applyQuotationEvent] at hempty ⊢
    split_ifs at hempty ⊢ with hreach
    · exact ⟨.ready, .sent, follows_of_closure hreach, .sent, rfl⟩
    · simp at hempty
  | approved =>
    simp only [applyQuotationEvent] at hempty ⊢
    split_ifs at hempty ⊢ with hreach
    · exact ⟨.sent, .approved, follows_of_closure hreach, .approved, rfl⟩
    · simp at hempty
  | rejected =>
    simp only [applyQuotationEvent] at hempty ⊢
    split_ifs at hempty ⊢ with hreach
    · exact ⟨.sent, .rejected, follows_of_closure hreach, .rejected, rfl⟩
    · simp at hempty
  | superseded =>
    simp only [applyQuotationEvent] at hempty ⊢
    split_ifs at hempty ⊢ with hreach
    · obtain ⟨second, hmem, hsecond⟩ := List.any_eq_true.mp hreach
      refine ⟨second, .superseded, follows_of_closure (List.contains_iff_mem.mpr hmem),
        .superseded ?_, rfl⟩
      simpa using hsecond
    · simp at hempty

/-- **Replay.** A status that the replay from one status finds is reached from it by the events.

**Proof sketch.** Induction on the events. One event moves to one status from where the rest is
replayed (`replay_step`); after the last one the closure holds what free moves reach. -/
lemma follows_of_replay {kinds : List QuotationEventKind} {first last : QuotationStatus}
    {states : List QuotationStatus} (h : kinds.foldlM replayQuotationEvent [first] = .ok states)
    (hlast : (quotationNoEventClosure states).contains last = true) : Follows first kinds last := by
  induction kinds generalizing first with
  | nil =>
    rw [List.foldlM_nil, pure_eq_ok] at h
    subst h
    exact follows_of_closure hlast
  | cons kind kinds ih =>
    rw [List.foldlM_cons, bind_eq_ok] at h
    obtain ⟨next, hnext, hrest⟩ := h
    obtain ⟨second, third, hfree, hmove, rfl⟩ := replay_step hnext
    exact hfree.after_free (.event hmove (ih hrest))

/-- A replay ends in one status. -/
lemma replay_single {kinds : List QuotationEventKind} {first : QuotationStatus}
    {states : List QuotationStatus} (h : kinds.foldlM replayQuotationEvent [first] = .ok states) :
    ∃ status, states = [status] := by
  refine foldlM_inv (P := fun states => ∃ status, states = [status]) ?_ ⟨first, rfl⟩ h
  rintro _ kind next ⟨status, rfl⟩ hnext
  obtain ⟨-, third, -, -, rfl⟩ := replay_step hnext
  exact ⟨third, rfl⟩

/-- The status of a stored quotation serves as well as the status that its events end in, as the
start of further events. -/
lemma replay_from_stored {ended status : QuotationStatus} {kind : QuotationEventKind}
    (h : (quotationNoEventClosure [ended]).contains status = true) :
    replayQuotationEvent [status] kind = replayQuotationEvent [ended] kind := by
  have happly : applyQuotationEvent [status] kind = applyQuotationEvent [ended] kind := by
    revert h
    cases ended <;> cases status <;> first | decide | (cases kind <;> decide)
  rw [replayQuotationEvent, replayQuotationEvent, happly]

/-! ### Kinds of events -/

/-- The kinds of a list of events. -/
def kindsOf (history : List Dict) : Option (List QuotationEventKind) :=
  history.mapM fun event => findName quotationEventKinds (event.get "kind")

/-- The kinds that the checks read. -/
lemma kindsOf_of_checks {principal : Principal} {history : List Dict}
    {kinds : List QuotationEventKind}
    (h : history.mapM (checkQuotationEvent principal) = .ok kinds) :
    kindsOf history = some kinds := by
  induction history generalizing kinds with
  | nil =>
    rw [List.mapM_nil, pure_eq_ok] at h
    subst h
    rfl
  | cons event history ih =>
    simp only [List.mapM_cons, bind_eq_ok, pure_eq_ok] at h
    obtain ⟨kind, hkind, kinds', hkinds, rfl⟩ := h
    have hname : findName quotationEventKinds (event.get "kind") = some kind := by
      simp only [checkQuotationEvent, bind_eq_ok] at hkind
      obtain ⟨kind?, hname, hkind⟩ := hkind
      replace hname := hashedName_eq_ok hname
      cases kind? with
      | none => cases hkind
      | some k =>
        simp only [bind_eq_ok, pure_eq_ok] at hkind
        obtain ⟨-, -, rfl⟩ := hkind
        exact hname
    have hrest := ih hkinds
    unfold kindsOf at hrest ⊢
    rw [List.mapM_cons, hname, hrest]
    rfl

/-- Equal events have the same kinds. -/
lemma kindsOf_congr {new old : List Dict} (hw : ∀ event ∈ new, Value.WellFormed (.dict event))
    (hsame : SameEvents old new) : kindsOf new = kindsOf old := by
  induction new generalizing old with
  | nil =>
    cases old with
    | nil => rfl
    | cons y ys => simp [SameEvents, Value.sameList] at hsame
  | cons x xs ih =>
    cases old with
    | nil => simp [SameEvents, Value.sameList] at hsame
    | cons y ys =>
      simp only [SameEvents, List.map_cons, Value.sameList, Bool.and_eq_true] at hsame
      have hkind : findName quotationEventKinds (x.get "kind") =
          findName quotationEventKinds (y.get "kind") := by
        have hget := Dict.same_get (hw x List.mem_cons_self).1 hsame.1 "kind"
        simp only [findName, Value.isStr_congr hget]
      have hrest := ih (fun event he => hw event (List.mem_cons_of_mem _ he)) hsame.2
      unfold kindsOf at hrest ⊢
      rw [List.mapM_cons, List.mapM_cons, hkind, hrest]

/-- The kinds of a history that extends another one, with those of the events it adds. -/
lemma kindsOf_extended {old new : List Dict} {kinds kinds' : List QuotationEventKind}
    (hw : ∀ event ∈ new, Value.WellFormed (.dict event)) (hextend : IsPrefix old new)
    (hold : kindsOf old = some kinds) (hnew : kindsOf new = some kinds') :
    ∃ more, kindsOf (new.drop old.length) = some more ∧ kinds' = kinds ++ more := by
  have hleading : kindsOf (new.take old.length) = some kinds := by
    rw [kindsOf_congr (fun event he => hw event (List.mem_of_mem_take he)) hextend.2, hold]
  unfold kindsOf at hleading hnew ⊢
  rw [← List.take_append_drop old.length new, List.mapM_append, hleading] at hnew
  rw [Option.bind_eq_bind, Option.bind_some] at hnew
  obtain ⟨more, hmore, hkinds⟩ := Option.bind_eq_some_iff.mp hnew
  exact ⟨more, hmore, (Option.some.inj hkinds).symm⟩

/-! ### Final statuses -/

/-- The statuses that nothing follows. -/
def QuotationStatus.IsFinal (status : QuotationStatus) : Prop :=
  status = .approved ∨ status = .superseded

/-- A replay from which a final status is reachable has ended in it. -/
lemma replay_final {kinds : List QuotationEventKind} {states : List QuotationStatus}
    {status : QuotationStatus} (hfinal : status.IsFinal)
    (h : kinds.foldlM replayQuotationEvent [.draft] = .ok states)
    (hreachable : (quotationNoEventClosure states).contains status = true) :
    states = [status] := by
  obtain ⟨ended, rfl⟩ := replay_single h
  revert hreachable
  rcases hfinal with rfl | rfl <;> cases ended <;> decide

/-- Nothing follows a final status. -/
lemma replay_after_final {kinds : List QuotationEventKind} {states : List QuotationStatus}
    {status : QuotationStatus} (hfinal : status.IsFinal)
    (h : kinds.foldlM replayQuotationEvent [status] = .ok states) : states = [status] := by
  cases kinds with
  | nil =>
    rw [List.foldlM_nil, pure_eq_ok] at h
    exact h.symm
  | cons kind kinds =>
    rw [List.foldlM_cons, bind_eq_ok] at h
    obtain ⟨next, hnext, -⟩ := h
    rcases hfinal with rfl | rfl <;> cases kind <;> cases hnext

/-- The text of a status. -/
def QuotationStatus.name : QuotationStatus → String
  | .draft => "draft"
  | .ready => "ready"
  | .sent => "sent"
  | .approved => "approved"
  | .rejected => "rejected"
  | .superseded => "superseded"

/-- The vocabulary finds every status under its name, and no other text. -/
lemma findName_quotationStatuses {v : Value} {status : QuotationStatus} :
    findName quotationStatuses v = some status ↔ v = .str status.name := by
  constructor
  · intro h
    obtain ⟨name, hmem, rfl⟩ := findName_eq_some h
    have hnames : ∀ entry ∈ quotationStatuses, entry.1 = entry.2.name := by decide
    exact congrArg (fun name : String => Value.str name) (hnames _ hmem)
  · rintro rfl
    cases status <;> decide +kernel

/-- The status that a value spells. -/
lemma eq_status_iff {v : Value} {status : QuotationStatus}
    (h : findName quotationStatuses v = some status) (other : QuotationStatus) :
    v = .str other.name ↔ status = other := by
  rw [← findName_quotationStatuses, h, Option.some.injEq]

/-- A quotation whose status is reachable from its events. -/
structure Replayed (payload : Dict) (status : QuotationStatus) : Prop where
  spelled : findName quotationStatuses (payload.get "status") = some status
  replay : ∃ kinds states, kindsOf (historyOf (some payload)) = some kinds ∧
    kinds.foldlM replayQuotationEvent [.draft] = .ok states ∧
    (quotationNoEventClosure states).contains status = true

variable {db : Db} {payload : Dict} {currentPayload : Option Dict} {principal : Principal} {id : Str}
  {status : QuotationStatus} {history : List Dict} {kinds : List QuotationEventKind}
  {states : List QuotationStatus} {revision : ℤ}

/-- The events of a payload that the checks have read. -/
lemma QuotationChecked.historyOf_eq (h : QuotationChecked db payload currentPayload principal id
    status history kinds states revision) : historyOf (some payload) = history := by
  rw [historyOf, Option.bind_some, storedEvents?_of_events h.readEvents, Option.getD_some]

/-- What the checks establish of every quotation. -/
lemma QuotationChecked.replayed (h : QuotationChecked db payload currentPayload principal id status
    history kinds states revision) : Replayed payload status := by
  refine ⟨?_, kinds, states, ?_, h.replay, h.reachable⟩
  · exact hashedName_eq_ok h.spelled
  · rw [h.historyOf_eq]
    exact kindsOf_of_checks h.readKinds

/-- **Updates.** The events that an update appends are replayed from the status in which the stored
ones end, and the stored status is reachable from there.

**Proof sketch.** The stored events are a prefix of the new ones, so the replay of the new ones is
that of the stored ones and then that of the appended ones. -/
lemma QuotationChecked.updated {stored : Dict} {before : QuotationStatus}
    (h : QuotationChecked db payload (some stored) principal id status history kinds states revision)
    (hw : Value.WellFormed (.dict payload)) (hstored : Replayed stored before) :
    ∃ ended more, (quotationNoEventClosure [ended]).contains before = true ∧
      kindsOf ((historyOf (some payload)).drop (historyOf (some stored)).length) = some more ∧
      more.foldlM replayQuotationEvent [ended] = .ok states ∧
      (before.IsFinal → ended = before) := by
  obtain ⟨kinds₀, states₀, hkinds₀, hreplay₀, hreachable₀⟩ := hstored.replay
  obtain ⟨ended, rfl⟩ := replay_single hreplay₀
  obtain ⟨appended, hleading, -⟩ := h.extended
  obtain ⟨more, hmore, rfl⟩ := kindsOf_extended (h.historyOf_eq ▸ historyOf_wellFormed hw)
    (requireImmutablePrefix_spec hleading).1 hkinds₀ (kindsOf_of_checks h.readKinds)
  have hreplay := h.replay
  rw [List.foldlM_append, hreplay₀] at hreplay
  refine ⟨ended, more, hreachable₀, ?_, hreplay, fun hfinal => ?_⟩
  · rw [h.historyOf_eq]
    exact hmore
  · exact List.singleton_inj.mp (replay_final hfinal hreplay₀ hreachable₀)

/-- **Final statuses.** An update of an approved or superseded quotation keeps the status.

**Proof sketch.** The stored events end in the final status, and no event follows it; so the new
ones end there, from where no other status is reachable. -/
lemma QuotationChecked.final_kept {stored : Dict} {before : QuotationStatus}
    (h : QuotationChecked db payload (some stored) principal id status history kinds states revision)
    (hw : Value.WellFormed (.dict payload)) (hstored : Replayed stored before)
    (hfinal : before.IsFinal) : status = before := by
  obtain ⟨ended, more, -, -, hreplay, hended⟩ := h.updated hw hstored
  obtain rfl := hended hfinal
  obtain rfl := replay_after_final hfinal hreplay
  have hreachable := h.reachable
  revert hreachable
  rcases hfinal with rfl | rfl <;> cases status <;> decide

/-- **Statuses.** The status of an update is reached from the stored one by the appended events,
unless a draft takes back the status of a rejected quotation without an event.

**Proof sketch.** The first appended event moves from the stored status exactly as it moves from the
status in which the stored events end (`replay_from_stored`). Without an appended event the two
differ when the stored events end in a rejection and the stored status is a draft: the replay still
reaches the rejection, and free moves do not. -/
lemma QuotationChecked.follows_iff {stored : Dict} {before : QuotationStatus}
    (h : QuotationChecked db payload (some stored) principal id status history kinds states revision)
    (hw : Value.WellFormed (.dict payload)) (hstored : Replayed stored before) :
    ∃ more, kindsOf ((historyOf (some payload)).drop (historyOf (some stored)).length) =
        some more ∧
      (Follows before more status ↔
        ¬ (more = [] ∧ status = .rejected ∧ before ∈ [QuotationStatus.draft, .ready])) := by
  obtain ⟨ended, more, hbefore, hmore, hreplay, -⟩ := h.updated hw hstored
  refine ⟨more, hmore, ?_, ?_⟩
  · rintro hfollows ⟨rfl, rfl, hdraft⟩
    have hlast := hfollows.of_draft hdraft
    simp at hlast
  · intro hno
    cases more with
    | nil =>
      rw [List.foldlM_nil, pure_eq_ok] at hreplay
      subst hreplay
      have hreachable := h.reachable
      refine follows_of_closure ?_
      revert hno hbefore hreachable
      cases ended <;> cases before <;> cases status <;> decide
    | cons kind more =>
      rw [List.foldlM_cons, ← replay_from_stored hbefore, ← List.foldlM_cons] at hreplay
      exact follows_of_replay hreplay h.reachable

/-! ### Locked content -/

/-- The commercial content has the fields that are not of the lifecycle. -/
lemma get_commercialContent (payload : Dict) {key : Str}
    (hkey : quotationLifecycleKeys.contains key = false) :
    (commercialContent payload).get key = payload.get key := by
  suffices hlookup : (commercialContent payload).lookup key = payload.lookup key by
    rw [Dict.get, Dict.get, hlookup]
  unfold commercialContent
  induction payload with
  | nil => rfl
  | cons e payload ih =>
    obtain ⟨k, v⟩ := e
    by_cases hk : key = k
    · subst hk
      rw [List.filter_cons_of_pos (by rw [hkey]; rfl), List.lookup_cons_self, List.lookup_cons_self]
    · have hne : (key == k) = false := beq_eq_false_iff_ne.mpr hk
      rw [List.filter_cons]
      split_ifs
      · rw [List.lookup_cons, List.lookup_cons, hne, ih]
      · rw [List.lookup_cons, hne, ih]

/-- The commercial content of a quotation is equal to that of another one, as Python compares. -/
def SameContent (earlier later : Dict) : Prop :=
  Value.same (.dict (commercialContent earlier)) (.dict (commercialContent later)) = true

/-- The commercial content of a well-formed quotation is well formed. -/
lemma commercialContent_wellFormed {payload : Dict} (hw : Value.WellFormed (.dict payload)) :
    Value.WellFormed (.dict (commercialContent payload)) := by
  refine ⟨hw.1.sublist (List.filter_sublist.map _), ?_⟩
  rw [Value.wellFormedItems_iff]
  intro e he
  exact (Value.wellFormedItems_iff payload).mp hw.2 e (List.mem_of_mem_filter he)

/-- A quotation has the content of itself. -/
lemma SameContent.refl {payload : Dict} (hw : Value.WellFormed (.dict payload)) :
    SameContent payload payload :=
  Value.same_refl (commercialContent_wellFormed hw)

/-- Content that is kept in turn is kept. -/
lemma SameContent.trans {first second third : Dict} (h : SameContent first second)
    (h' : SameContent second third) : SameContent first third :=
  Value.same_trans h h'

/-- A field that is not of the lifecycle is equal in equal contents. -/
lemma SameContent.get {earlier later : Dict} (h : SameContent earlier later)
    (hw : Value.WellFormed (.dict earlier)) {key : Str}
    (hkey : quotationLifecycleKeys.contains key = false) :
    Value.same (earlier.get key) (later.get key) = true := by
  have hget := Dict.same_get (commercialContent_wellFormed hw).1 h key
  rwa [get_commercialContent _ hkey, get_commercialContent _ hkey] at hget

/-- **Content is locked.** An update of a quotation that was sent, rejected, approved or superseded
has the same commercial content. -/
lemma QuotationChecked.content_kept {stored : Dict} {before : QuotationStatus}
    (h : QuotationChecked db payload (some stored) principal id status history kinds states revision)
    (hspelled : findName quotationStatuses (stored.get "status") = some before)
    (hlocked : before ∈ quotationContentLocked) : SameContent stored payload := by
  have hsame := h.same stored rfl
  simp only [requireSameQuotation, bind_eq_ok, raiseIf_eq_ok, exists_const] at hsame
  obtain ⟨-, -, -, -, status?, hname, hcontent⟩ := hsame
  obtain rfl := hspelled.symm.trans (hashedName_eq_ok hname)
  simp only [raiseIf_eq_ok, List.contains_iff_mem.mpr hlocked, Bool.true_and, Value.ne,
    Bool.not_eq_false'] at hcontent
  exact Value.same_of_eq hcontent

end Lifecycle

/-! ### Stored quotations -/

/-- The status of every stored quotation is reachable from its events. -/
def QuotationsReplayed (db : Db) : Prop :=
  ∀ org id payload, storedQuotation db org id = some payload →
    ∃ status, Lifecycle.Replayed payload.items status

/-- **Step.** A step keeps the statuses of quotations reachable. -/
lemma RecordStep.Valid.quotationsReplayed {env : Env} {s : RecordStep} (h : s.Valid env)
    (hbefore : QuotationsReplayed s.before.db) : QuotationsReplayed s.after.db := by
  intro org id after hafter
  rcases h.storedPayload_after hafter with hstored | ⟨hkey, hupsert, grant, applied, hcommits⟩
  · exact hbefore org id after hstored
  · obtain ⟨-, htype, -⟩ := quotation_of_key hkey
    obtain ⟨status, history, kinds, states, revision, hchecked⟩ :=
      hcommits.quotation htype hupsert
    exact ⟨status, hchecked.replayed⟩

end VitrialSync
