import VitrialSync.Server.History

set_option relaxedAutoImplicit false
set_option autoImplicit false

/-!
# A delivery advances one step at a time

The status of a delivery is where the chain of its events ends. An update appends at most one event
to the stored chain, and its status is then the stored one or the next. A create replays whatever
chain the payload brings, so that a delivery can start in a later status; in a run whose creates
bring one event, the status of a delivery has been reached by as many accepted mutations as it has
predecessors.

## Main definitions

* `VitrialSync.Delivery.chainOf` — the events of a delivery.
* `VitrialSync.Delivery.Chain` — a payload whose status is where its chain of events ends.
* `VitrialSync.Delivery.Advances` — what an update may do.
* `VitrialSync.DeliveriesPaced` — the status of every delivery is covered by accepted mutations.

## Main results

* `VitrialSync.Delivery.validate_advances` — what the validator establishes of an update.
* `VitrialSync.runPushes_delivery` — in a run whose creates bring one event, every delivery
  advances one step at a time from the start.
-/

namespace VitrialSync

open Python Program

namespace Delivery

/-! ### Chains of events -/

/-- The events of a delivery. -/
def chainOf (payload : Dict) : List Dict := ((payload.get "events").list?.bind dicts?).getD []

/-- A payload whose status is where its chain of events ends. -/
structure Chain (payload : Dict) (status : DeliveryStatus) : Prop where
  spelled : payload.get "status" = .str status.name
  nonempty : chainOf payload ≠ []
  replay : replayEvents (chainOf payload) = .ok status

/-- The events that the validator replays. -/
lemma chainOf_of_events {payload : Dict} {history : List Dict} (h : events payload = .ok history) :
    chainOf payload = history ∧ history ≠ [] := by
  unfold events at h
  unfold chainOf
  cases hraw : payload.get "events" with
  | list xs =>
    simp only [hraw, Value.list?] at h
    split_ifs at h with hempty
    cases hds : dicts? xs with
    | none => simp [hds] at h
    | some ds =>
      simp only [hds, Except.ok.injEq] at h
      refine ⟨by simp [Value.list?, hds, h], ?_⟩
      rintro rfl
      subst h
      rw [dicts?_eq_some] at hds
      simp [hds] at hempty
  | _ => simp [hraw, Value.list?] at h

/-- The events of a well-formed delivery are well formed. -/
lemma chainOf_wellFormed {payload : Dict} (h : Value.WellFormed (.dict payload)) :
    ∀ event ∈ chainOf payload, Value.WellFormed (.dict event) := by
  intro event hevent
  have hraw := h.get "events"
  unfold chainOf at hevent
  generalize payload.get "events" = raw at hevent hraw
  cases raw with
  | list xs => exact wellFormed_of_dicts? hraw hevent
  | _ => simp [Value.list?] at hevent

/-- A status that a value spells. -/
lemma findName_deliveryStatuses {v : Value} {status : DeliveryStatus}
    (h : findName deliveryStatuses v = some status) : v = .str status.name := by
  obtain ⟨name, hmem, rfl⟩ := findName_eq_some h
  have hnames : ∀ entry ∈ deliveryStatuses, entry.1 = entry.2.name := by decide
  exact congrArg (fun name : String => Value.str name) (hnames _ hmem)

/-- What one event of the chain establishes. -/
lemma replayEvent_eq_ok {state status : DeliveryStatus} {event : Dict}
    (h : replayEvent state event = .ok status) :
    event.get "fromStatus" = .str state.name ∧ event.get "toStatus" = .str status.name ∧
      (status = state ∨ state.next = some status) := by
  unfold replayEvent at h
  split at h
  · cases h
  · rename_i toStatus hto
    simp only [bind_eq_ok, raiseIf_eq_ok, pure_eq_ok, exists_const, Bool.not_eq_false',
      Value.isStr_iff] at h
    obtain ⟨hfrom, hmove, rfl⟩ := h
    refine ⟨hfrom, findName_deliveryStatuses hto, ?_⟩
    by_cases hnext : state.next = some toStatus
    · exact Or.inr hnext
    · simp only [Bool.and_eq_false_iff, bne_eq_false_iff_eq, Bool.not_eq_false',
        Bool.and_eq_true, beq_iff_eq] at hmove
      rcases hmove with hmove | hmove
      · exact absurd hmove.symm hnext
      · exact Or.inl hmove.2

/-- The replay reads only texts, on which Python's equality is equality. -/
lemma replayEvent_congr {event old : Dict} (hw : Value.WellFormed (.dict event))
    (hsame : Value.same (.dict event) (.dict old) = true) (state : DeliveryStatus) :
    replayEvent state event = replayEvent state old := by
  have hisStr : ∀ (key s : Str), (event.get key).isStr s = (old.get key).isStr s := by
    intro key s
    exact Value.isStr_congr (Dict.same_get hw.1 hsame key) s
  have hto : findName deliveryStatuses (event.get "toStatus") =
      findName deliveryStatuses (old.get "toStatus") := by
    simp only [findName, hisStr]
  simp only [replayEvent, hto, hisStr]

/-- The replay of a whole chain. -/
lemma replayEvents_congr {new old : List Dict}
    (hw : ∀ event ∈ new, Value.WellFormed (.dict event)) (hsame : SameEvents old new) :
    replayEvents new = replayEvents old := by
  have hfold : ∀ (xs ys : List Dict) (state : DeliveryStatus),
      (∀ event ∈ xs, Value.WellFormed (.dict event)) → SameEvents ys xs →
        xs.foldlM replayEvent state = ys.foldlM replayEvent state := by
    intro xs
    induction xs with
    | nil =>
      intro ys state _ h
      cases ys with
      | nil => rfl
      | cons y ys => simp [SameEvents, Value.sameList] at h
    | cons x xs ih =>
      intro ys state hx h
      cases ys with
      | nil => simp [SameEvents, Value.sameList] at h
      | cons y ys =>
        simp only [SameEvents, List.map_cons, Value.sameList, Bool.and_eq_true] at h
        rw [List.foldlM_cons, List.foldlM_cons,
          replayEvent_congr (hx x List.mem_cons_self) h.1]
        exact bind_congr fun state' =>
          ih ys state' (fun event he => hx event (List.mem_cons_of_mem _ he)) h.2
  cases new with
  | nil =>
    cases old with
    | nil => rfl
    | cons y ys => simp [SameEvents, Value.sameList] at hsame
  | cons x xs =>
    cases old with
    | nil => simp [SameEvents, Value.sameList] at hsame
    | cons y ys =>
      simp only [SameEvents, List.map_cons, Value.sameList, Bool.and_eq_true] at hsame
      have hwx := hw x List.mem_cons_self
      have hto : (x.get "toStatus").isStr "engineeringReview" =
          (y.get "toStatus").isStr "engineeringReview" :=
        Value.isStr_congr (Dict.same_get hwx.1 hsame.1 _) _
      have hfrom : (x.get "fromStatus").isNone = (y.get "fromStatus").isNone :=
        Value.isNone_congr (Dict.same_get hwx.1 hsame.1 _)
      simp only [replayEvents, hto, hfrom]
      rw [hfold xs ys _ (fun event he => hw event (List.mem_cons_of_mem _ he)) hsame.2]

/-- The replay of a chain with one more event. -/
lemma replayEvents_append {history : List Dict} (hne : history ≠ []) (event : Dict) :
    replayEvents (history ++ [event]) =
      replayEvents history >>= fun state => replayEvent state event := by
  cases history with
  | nil => exact absurd rfl hne
  | cons first rest =>
    simp only [List.cons_append, replayEvents, List.foldlM_append, List.foldlM_cons,
      List.foldlM_nil, bind_assoc, bind_pure]

/-! ### Updates -/

/-- What an update may do to a stored delivery: nothing that is protected, or one event that starts
at the stored status and ends there or at the next. -/
inductive Advances (stored payload : Dict) : Prop
  | unchanged (hlength : (chainOf payload).length = (chainOf stored).length)
      (hprotected : ∀ key ∈ protectedKeys, (stored.get key).ne (payload.get key) = false)
  | appended (newest : Dict) (status status' : DeliveryStatus)
      (hdrop : (chainOf payload).drop (chainOf stored).length = [newest])
      (hstored : stored.get "status" = .str status.name)
      (hfrom : newest.get "fromStatus" = .str status.name)
      (hto : newest.get "toStatus" = .str status'.name)
      (hmove : status' = status ∨ status.next = some status')
      (hstatus : payload.get "status" = .str status'.name)

/-- The vocabulary finds every status under its name. -/
lemma findName_name (status : DeliveryStatus) :
    findName deliveryStatuses (.str status.name) = some status := by
  cases status <;> decide +kernel

/-- Statuses with the same name are equal. -/
lemma DeliveryStatus.name_injective {s t : DeliveryStatus}
    (h : Value.str s.name = .str t.name) : s = t := by
  have hfind := findName_name s
  rw [h, findName_name] at hfind
  exact (Option.some.inj hfind).symm

/-- What the validator establishes of every payload, and against a stored one. -/
lemma validateDeliveryExecutionPayload_spec {payload : Dict} {currentPayload : Option Dict}
    {principal : Principal} {id : Str}
    (h : validateDeliveryExecutionPayload payload currentPayload principal id = .ok ()) :
    ∃ status, Chain payload status ∧ ∀ stored, currentPayload = some stored →
      (∀ key ∈ immutableHandoffKeys, (stored.get key).ne (payload.get key) = false) ∧
      requireExtendedHistory payload stored principal (chainOf payload) = .ok () := by
  simp only [validateDeliveryExecutionPayload, bind_eq_ok] at h
  obtain ⟨-, -, h⟩ := h
  split at h
  · cases h
  · rename_i status hstatus
    simp only [bind_eq_ok, raiseIf_eq_ok, bne_eq_false_iff_eq] at h
    obtain ⟨history, hevents, -, -, -, -, state, hreplay, -, rfl, -, -, -, -, -, -, h⟩ := h
    obtain ⟨rfl, hne⟩ := chainOf_of_events hevents
    refine ⟨state, ⟨findName_deliveryStatuses hstatus, hne, hreplay⟩, ?_⟩
    rintro stored rfl
    simp only [requireSameDelivery, bind_eq_ok] at h
    obtain ⟨⟨⟩, hkeys, h⟩ := h
    exact ⟨fun key hkey => raiseIf_eq_ok.mp (forM_eq_ok.mp hkeys key hkey), h⟩

/-- **Updates.** An accepted update of a delivery whose stored status is where its chain ends
changes nothing that is protected or appends one event, and the new status is where the new chain
ends, at most one rank higher.

**Proof sketch.** The stored chain is a prefix of the new one up to Python's equality, which the
replay does not see; so the replay of the prefix ends in the stored status, and the appended event
starts there. -/
theorem validate_advances {stored payload : Dict} {principal : Principal} {id : Str}
    {status : DeliveryStatus} (hw : Value.WellFormed (.dict payload))
    (h : validateDeliveryExecutionPayload payload (some stored) principal id = .ok ())
    (hstored : Chain stored status) :
    Advances stored payload ∧ ∃ status', Chain payload status' ∧
      status'.rank ≤ status.rank + 1 := by
  obtain ⟨status', hchain, hextended⟩ := validateDeliveryExecutionPayload_spec h
  replace hextended := (hextended stored rfl).2
  unfold requireExtendedHistory at hextended
  split at hextended
  · cases hextended
  · rename_i current hcurrent
    have hchainOf : chainOf stored = current := by rw [chainOf, hcurrent]; rfl
    simp only [bind_eq_ok, raiseIf_eq_ok, decide_eq_false_iff_not, not_lt, exists_const,
      Bool.not_eq_false'] at hextended
    obtain ⟨hlength, hstarts, hextended⟩ := hextended
    split at hextended
    · rename_i hdrop
      simp only [raiseIf_eq_ok, List.any_eq_false] at hextended
      have hprotected : ∀ key ∈ protectedKeys, (stored.get key).ne (payload.get key) = false :=
        fun key hkey => Bool.eq_false_iff.mpr (hextended key hkey)
      have hkept := hprotected "status" (by decide)
      rw [hstored.spelled, Value.ne, Bool.not_eq_false'] at hkept
      have hspelled : payload.get "status" = .str status.name :=
        (Value.isStr_iff _ _).mp (by
          rw [← Value.isStr_congr (Value.same_of_eq hkept) status.name]
          exact (Value.isStr_iff _ _).mpr rfl)
      obtain rfl := DeliveryStatus.name_injective (hchain.spelled.symm.trans hspelled)
      refine ⟨.unchanged ?_ hprotected, status', hchain, Nat.le_succ _⟩
      rw [hchainOf]
      exact le_antisymm (List.drop_eq_nil_iff.mp hdrop) hlength
    · rename_i newest hdrop
      have hsplit : chainOf payload = (chainOf payload).take current.length ++ [newest] := by
        rw [← hdrop, List.take_append_drop]
      have hwchain : ∀ event ∈ (chainOf payload).take current.length,
          Value.WellFormed (.dict event) :=
        fun event he => chainOf_wellFormed hw event (List.mem_of_mem_take he)
      have hreplayPrefix : replayEvents ((chainOf payload).take current.length) = .ok status := by
        rw [replayEvents_congr hwchain hstarts, ← hchainOf, hstored.replay]
      have hne : (chainOf payload).take current.length ≠ [] := by
        rw [ne_eq, List.take_eq_nil_iff, not_or, List.length_eq_zero_iff, ← hchainOf]
        exact ⟨hstored.nonempty, hchain.nonempty⟩
      have hreplay := hchain.replay
      rw [hsplit, replayEvents_append hne, hreplayPrefix] at hreplay
      obtain ⟨hfrom, hto, hmove⟩ := replayEvent_eq_ok hreplay
      refine ⟨.appended newest status status' (by rw [hchainOf]; exact hdrop) hstored.spelled hfrom
        hto hmove hchain.spelled, status', hchain, ?_⟩
      rcases hmove with rfl | hnext
      · exact Nat.le_succ _
      · exact (DeliveryStatus.rank_next hnext).le
    · cases hextended

end Delivery

/-! ### Runs -/

/-- The number of accepted mutations of an entity. -/
def acceptedMutations (db : Db) (key : EntityKey) : ℕ :=
  (db.changeLog.filter fun c => (c.organizationId, c.entityType, c.entityId.text) == key).length

/-- The status of every stored delivery is where its chain ends, and it has been through more
accepted mutations than its status has predecessors. -/
def DeliveriesPaced (db : Db) : Prop :=
  ∀ org id payload, storedPayload db (org, .deliveryExecution, id) = some payload →
    ∃ status, Delivery.Chain payload.items status ∧
      status.rank < acceptedMutations db (org, .deliveryExecution, id)

namespace RecordStep

/-- A fresh create of a delivery brings one event. -/
def StartsOnce (env : Env) (s : RecordStep) : Prop :=
  s.record.entityType = .deliveryExecution → s.Unanswered →
    staleRevision s.record s.current = false → s.current = none →
      ∀ payload, decodePayload env s.record.payload = .ok payload →
        (Delivery.chainOf payload.items).length = 1

variable {env : Env} {s : RecordStep} {payload : Payload} {grant : Authorized} {applied : Working}

/-- The checks on a committed delivery: it is no tombstone, it is new or continues an active
payload, and the validator accepted it. -/
lemma Commits.delivery (h : s.Commits env payload grant applied)
    (htype : s.record.entityType = .deliveryExecution) :
    s.record.deletedAt = none ∧
      ((s.current = none ∧ Delivery.validateDeliveryExecutionPayload payload.items none
          s.input.principal s.record.entityID.text = .ok ()) ∨
        ∃ stored, storedPayload s.before.db s.key = some stored ∧
          Delivery.validateDeliveryExecutionPayload payload.items (some stored.items)
            s.input.principal s.record.entityID.text = .ok ()) := by
  obtain ⟨-, -, ⟨-, projectId, hauth, -⟩ | ⟨hnot, -⟩⟩ :=
    authorize_eq_ok_iff.mp h.admitted.authorized
  · simp only [Delivery.authorizeDeliveryExecution, bind_eq_ok, raiseIf_eq_ok] at hauth
    obtain ⟨-, -, -, hupsert, currentPayload, hcontinuity, ⟨⟩, hvalidate, -⟩ := hauth
    refine ⟨by simpa using hupsert, ?_⟩
    change Delivery.continuity _ s.current = _ at hcontinuity
    unfold Delivery.continuity at hcontinuity
    split at hcontinuity
    · rename_i revision stored updatedAt hcurrent
      split at hcontinuity
      · cases hcontinuity
      · simp only [bind_eq_ok, raiseIf_eq_ok, pure_eq_ok] at hcontinuity
        obtain ⟨-, -, rfl⟩ := hcontinuity
        refine Or.inr ⟨stored, ?_, hvalidate⟩
        rw [← current_payload, hcurrent]
        rfl
    · cases hcontinuity
    · rename_i hcurrent
      simp only [bind_eq_ok, raiseIf_eq_ok, pure_eq_ok] at hcontinuity
      obtain ⟨-, -, rfl⟩ := hcontinuity
      exact Or.inl ⟨hcurrent, hvalidate⟩
  · exact absurd htype hnot

/-- The record of a step at the key of a delivery is a delivery. -/
lemma entityType_of_key {org id : Str} (h : (org, EntityType.deliveryExecution, id) = s.key) :
    s.record.entityType = .deliveryExecution := by
  rw [key, Prod.mk.injEq, Prod.mk.injEq] at h
  exact h.2.1.symm

/-- What is checked of every delivery holds of a delivery that a step stores. -/
lemma Valid.delivery_after (h : s.Valid env) {P : Dict → Prop}
    (hP : ∀ {d current principal id},
      Delivery.validateDeliveryExecutionPayload d current principal id = .ok () → P d)
    {org id : Str} {after : Payload}
    (hafter : storedPayload s.after.db (org, .deliveryExecution, id) = some after)
    (hbefore : storedPayload s.before.db (org, .deliveryExecution, id) = some after →
      P after.items) : P after.items := by
  rcases h.storedPayload_after hafter with hstored | ⟨hkey, -, grant, applied, hcommits⟩
  · exact hbefore hstored
  · obtain ⟨-, ⟨-, hvalidate⟩ | ⟨stored, -, hvalidate⟩⟩ :=
      hcommits.delivery (entityType_of_key hkey)
    · exact hP hvalidate
    · exact hP hvalidate

/-- A commit is one more accepted mutation of its entity. -/
lemma Commits.acceptedMutations_self (h : s.Commits env payload grant applied) :
    acceptedMutations s.after.db s.key = acceptedMutations s.before.db s.key + 1 := by
  simp [acceptedMutations, h.changeLog, change, key]

/-- A commit is no mutation of another entity. -/
lemma Commits.acceptedMutations_of_ne (h : s.Commits env payload grant applied) {k : EntityKey}
    (hk : k ≠ s.key) : acceptedMutations s.after.db k = acceptedMutations s.before.db k := by
  have hchange : ((s.change.organizationId, s.change.entityType, s.change.entityId.text) == k) =
      false := beq_eq_false_iff_ne.mpr fun heq => hk heq.symm
  simp [acceptedMutations, h.changeLog, hchange]

/-- A created delivery that brings one event starts in engineering review. -/
lemma Commits.starts (h : s.Commits env payload grant applied)
    (htype : s.record.entityType = .deliveryExecution) (honce : s.StartsOnce env)
    (hnew : s.current = none) :
    Delivery.Chain payload.items .engineeringReview ∧
      (Delivery.chainOf payload.items).length = 1 := by
  have hlength := honce htype h.unanswered h.fresh hnew payload h.admitted.decoded
  obtain ⟨-, ⟨-, hvalidate⟩ | ⟨stored, hstored, -⟩⟩ := h.delivery htype
  · obtain ⟨status, hchain, -⟩ := Delivery.validateDeliveryExecutionPayload_spec hvalidate
    refine ⟨?_, hlength⟩
    obtain ⟨first, hfirst⟩ := List.length_eq_one_iff.mp hlength
    have hreplay := hchain.replay
    simp only [hfirst, Delivery.replayEvents, bind_eq_ok, List.foldlM_nil, pure_eq_ok] at hreplay
    obtain ⟨-, -, rfl⟩ := hreplay
    exact hchain
  · rw [← current_payload, hnew] at hstored
    cases hstored

/-- **Step.** A step keeps the deliveries paced when a create brings one event.

**Proof sketch.** A create starts at rank 0 with its first mutation; an update adds a mutation and at
most one rank. -/
lemma Valid.deliveriesPaced (h : s.Valid env) (honce : s.StartsOnce env)
    (hbefore : DeliveriesPaced s.before.db) : DeliveriesPaced s.after.db := by
  intro org id after hafter
  rcases h.keeps_or_commits with hkeeps | ⟨payload, grant, applied, hcommits⟩
  · rw [storedPayload, hkeeps.entities] at hafter
    rw [acceptedMutations, hkeeps.changeLog]
    exact hbefore org id after hafter
  by_cases hkey : (org, EntityType.deliveryExecution, id) = s.key
  · have htype := entityType_of_key hkey
    rw [hkey, hcommits.storedPayload_self] at hafter
    split_ifs at hafter
    obtain rfl := Option.some.inj hafter
    rw [hkey, hcommits.acceptedMutations_self]
    obtain ⟨-, ⟨hnew, -⟩ | ⟨stored, hstored, hvalidate⟩⟩ := hcommits.delivery htype
    · exact ⟨.engineeringReview, (hcommits.starts htype honce hnew).1, Nat.succ_pos _⟩
    · rw [← hkey] at hstored ⊢
      obtain ⟨status, hchain, hrank⟩ := hbefore org id stored hstored
      obtain ⟨-, status', hchain', hrank'⟩ :=
        Delivery.validate_advances payload.wellFormed hvalidate hchain
      exact ⟨status', hchain', lt_of_le_of_lt hrank' (Nat.succ_lt_succ hrank)⟩
  · rw [hcommits.storedPayload_of_ne hkey] at hafter
    rw [hcommits.acceptedMutations_of_ne hkey]
    exact hbefore org id after hafter

end RecordStep

/-- **Deliveries advance one step at a time.** In a run whose creates of deliveries bring one event,
every create stores engineering review with that event; every later accepted mutation changes
nothing that is protected or appends one event that starts at the stored status and ends there or
at the next; and every delivery has been through more accepted mutations than its status has
predecessors. -/
theorem runPushes_delivery (env : Env) (inputs : List PushInput) (db : Db)
    (hdb : DeliveriesPaced db) (honce : ∀ s ∈ runSteps env inputs db, s.StartsOnce env) :
    (∀ s ∈ runSteps env inputs db, ∀ payload grant applied, s.Commits env payload grant applied →
      s.record.entityType = .deliveryExecution →
        (s.current = none → Delivery.Chain payload.items .engineeringReview ∧
          (Delivery.chainOf payload.items).length = 1) ∧
        (s.current ≠ none → ∃ stored, storedPayload s.before.db s.key = some stored ∧
          Delivery.Advances stored.items payload.items)) ∧
    DeliveriesPaced (runPushes env inputs db) := by
  have hstep : ∀ s ∈ runSteps env inputs db, DeliveriesPaced s.before.db →
      DeliveriesPaced s.after.db :=
    fun s hs hbefore => (runSteps_valid hs).1.deliveriesPaced (honce s hs) hbefore
  refine ⟨?_, runPushes_inv hdb hstep⟩
  intro s hs payload grant applied hcommits htype
  refine ⟨hcommits.starts htype (honce s hs), fun hknown => ?_⟩
  obtain ⟨-, ⟨hnew, -⟩ | ⟨stored, hstored, hvalidate⟩⟩ := hcommits.delivery htype
  · exact absurd hnew hknown
  · have hkey : s.key = (s.input.principal.organizationId, .deliveryExecution,
        s.record.entityID.text) := by rw [RecordStep.key, htype]
    obtain ⟨status, hchain, -⟩ := runSteps_inv hdb hstep s hs _ _ stored (hkey ▸ hstored)
    exact ⟨stored, hstored,
      (Delivery.validate_advances payload.wellFormed hvalidate hchain).1⟩

namespace Sample

/-- An approved quotation of the sample project. -/
def approved : List PushInput :=
  setup ++ [input (record .quotation "q" "5" none
    [("id", .str "q"), ("projectID", .str "p"), ("customerID", .str "c"),
      ("status", .str "approved"), ("lines", .list [.dict [("itemID", .str "i"),
        ("totalPrice", .int 1)]]),
      ("events", .list [.dict (("id", .str "1") :: ("kind", .str "sent") :: provenance),
        .dict (("id", .str "2") :: ("kind", .str "approved") :: provenance)])])]

/-- An event of the sample delivery. -/
def deliveryEvent (id : String) (fromStatus : Value) (toStatus : String) : Value :=
  .dict (("id", .str id) :: ("fromStatus", fromStatus) :: ("toStatus", .str toStatus) ::
    ("occurredAt", .str id) :: provenance)

/-- The first event of the sample delivery. -/
def opened : Value := deliveryEvent "1" .none "engineeringReview"

/-- Its second event. -/
def reviewed : Value := deliveryEvent "2" (.str "engineeringReview") "materialsRequired"

/-- The sample delivery. -/
def delivery (mutationID : String) (base : Option ℕ) (status updatedAt : String)
    (events : List Value) : PushInput :=
  input (record .deliveryExecution "v" mutationID base
    [("id", .str "v"), ("status", .str status), ("startedAt", .str "1"),
      ("updatedAt", .str updatedAt), ("projectID", .str "p"), ("customerID", .str "c"),
      ("quotationID", .str "q"), ("quotationRevision", .int 1), ("quotedTotal", .int 1),
      ("events", .list events)])

/-- It is created with two events. -/
def jumped : List PushInput :=
  approved ++ [delivery "6" none "materialsRequired" "2" [opened, reviewed]]

/-- It is created with one event, and a second one is appended. -/
def stepped : List PushInput :=
  approved ++ [delivery "6" none "engineeringReview" "1" [opened],
    delivery "7" (some 6) "materialsRequired" "2" [opened, reviewed]]

end Sample

/-- A delivery that is created with two events starts in a later status, with one accepted
mutation. -/
theorem runSteps_delivery_jumps :
    ∃ s ∈ runSteps Sample.env Sample.jumped Sample.db,
      s.outcome.accepted = true ∧ s.record.entityType = .deliveryExecution ∧ s.current = none ∧
        ∃ stored, storedPayload s.after.db s.key = some stored ∧
          stored.items.get "status" = .str "materialsRequired" ∧
          (Delivery.chainOf stored.items).length = 2 ∧ acceptedMutations s.after.db s.key = 1 := by
  have hrun : ((runSteps Sample.env Sample.jumped Sample.db).any fun s =>
      s.outcome.accepted && decide (s.record.entityType = .deliveryExecution) &&
        s.current.isNone && (storedPayload s.after.db s.key).any fun stored =>
          (stored.items.get "status").isStr "materialsRequired" &&
            decide ((Delivery.chainOf stored.items).length = 2) &&
            decide (acceptedMutations s.after.db s.key = 1)) = true := by
    decide +kernel
  obtain ⟨s, hs, hstep⟩ := List.any_eq_true.mp hrun
  simp only [Bool.and_eq_true, decide_eq_true_eq, Option.any_eq_true, Value.isStr_iff,
    Option.isNone_iff_eq_none] at hstep
  obtain ⟨⟨⟨haccepted, htype⟩, hnew⟩, stored, hstored, ⟨hstatus, hlength⟩, hcount⟩ := hstep
  exact ⟨s, hs, haccepted, htype, hnew, stored, hstored, hstatus, hlength, hcount⟩

/-- A delivery that is created with one event keeps its pace. -/
theorem runPushes_delivery_sample :
    DeliveriesPaced (runPushes Sample.env Sample.stepped Sample.db) := by
  have honce : ∀ s ∈ runSteps Sample.env Sample.stepped Sample.db,
      (decide (s.record.entityType = .deliveryExecution) && s.current.isNone) = true →
        ((decodePayload Sample.env s.record.payload).toOption.all fun payload =>
          decide ((Delivery.chainOf payload.items).length = 1)) = true := by
    decide +kernel
  refine (runPushes_delivery Sample.env _ Sample.db ?_ ?_).2
  · intro org id payload hstored
    cases hstored
  · intro s hs htype _ _ hnew payload hdecoded
    simpa [hdecoded, Except.toOption] using honce s hs (by simp [htype, hnew])

end VitrialSync
