import VitrialSync.Server.ScopeConfinement

set_option relaxedAutoImplicit false
set_option autoImplicit false

/-!
# References between the children of an item

A measurement and a requirement list evidence of their item, a configuration lists requirements and
blockers of its item, and the completion and the closeout of a delivery list evidence of items of
its project. A list is checked when its payload is written; what keeps it whole afterwards is a
guard on the tombstones of what it lists. The guard on the tombstone of an evidence record looks
into measurements and requirements. It does not look into deliveries, and the tombstone of a
requirement or a blocker has no guard.

## Main definitions

* `VitrialSync.LivePayload` — the payload of an entity without a tombstone.
* `VitrialSync.SidecarsWhole`, `VitrialSync.DeliveriesWhole` — what is listed is live.
* `VitrialSync.RecordStep.Unlisted` — a tombstone of nothing that is listed without a guard.

## Main results

* `VitrialSync.RecordStep.Valid.sidecarsWhole`, `VitrialSync.RecordStep.Valid.deliveriesWhole` —
  steps.
* `VitrialSync.runPushes_referencesWhole` — runs without a tombstone of what is listed.
-/

namespace VitrialSync

open Python Program

/-! ### What is listed -/

/-- The payload of an entity that is stored without a tombstone. -/
def LivePayload (db : Db) (key : EntityKey) (payload : Payload) : Prop :=
  ∃ entity, db.entities.get key = some entity ∧ entity.deletedAt = none ∧
    entity.payloadJson = some payload

/-- The types of the item children whose lists are to stay whole; a configuration version is
history, and its lists are not. -/
def EntityType.listsSidecars : EntityType → Bool
  | .measurement | .customerRequirement | .configuration => true
  | _ => false

/-- The fields of a delivery that list evidence. -/
def evidenceFields : List Str :=
  [Str.ofString "installationCompletion", Str.ofString "deliveryCloseout"]

/-- Whatever a live item child lists is a live child of its item. -/
def SidecarsWhole (db : Db) : Prop :=
  ∀ org entityType id payload, entityType.listsSidecars = true →
    LivePayload db (org, entityType, id) payload →
      ∀ kind child, ListsChild entityType payload.items kind child →
        ∃ row, db.itemChildren.get (org, entityType, id) = some row ∧
          db.canonical.LiveChild (org, kind, child) row.itemId

/-- Whatever the completion or the closeout of a stored delivery lists is live evidence of an item
of its project. -/
def DeliveriesWhole (db : Db) : Prop :=
  ∀ org id payload, storedPayload db (org, .deliveryExecution, id) = some payload →
    ∀ key ∈ evidenceFields, ∀ itemId documentId,
      ListsEvidence payload.items key itemId documentId →
        db.canonical.LiveChild (org, .evidence, documentId) itemId ∧
          ∃ projectId,
            db.canonical.projectOf (org, .deliveryExecution, id) = some projectId ∧
            db.canonical.projectOf (org, .item, itemId) = some projectId

/-- A fresh tombstone that is authorized is of no requirement or blocker that a live configuration
lists, and of no evidence that a stored delivery lists. -/
def RecordStep.Unlisted (env : Env) (s : RecordStep) : Prop :=
  s.record.deletedAt ≠ none → s.Unanswered → staleRevision s.record s.current = false →
    ∀ payload grant, decodePayload env s.record.payload = .ok payload →
      authorize env s.input.principal s.before s.record s.current payload.items = .ok grant →
        (∀ id listing, LivePayload s.before.db
            (s.input.principal.organizationId, .configuration, id) listing →
          ¬ ListsChild .configuration listing.items s.record.entityType s.record.entityID.text) ∧
        (s.record.entityType = .evidence → ∀ id delivery, storedPayload s.before.db
            (s.input.principal.organizationId, .deliveryExecution, id) = some delivery →
          ∀ key ∈ evidenceFields, ∀ itemId,
            ¬ ListsEvidence delivery.items key itemId s.record.entityID.text)

/-- The configuration lists requirements and blockers only. -/
lemma ListsChild.kind {entityType kind : EntityType} {payload : Dict} {child : Str}
    (h : ListsChild entityType payload kind child) (htype : entityType.listsSidecars = true) :
    (kind = .evidence ∧ entityType ≠ .configuration ∧
        (Ownership.listsReference payload "evidenceReferences" child ||
          Ownership.listsReference payload "evidenceReferenceIDs" child) = true) ∨
      entityType = .configuration := by
  obtain ⟨refs, hrefs, hchild⟩ := h
  have hlisted : ∀ key : String, payload.get key = .list refs →
      Ownership.listsReference payload key child = true := by
    intro key hkey
    rw [Ownership.listsReference, hkey]
    simp only [Value.list?, Option.any_some, List.any_eq_true]
    exact ⟨_, hchild, (Value.isStr_iff _ _).mpr rfl⟩
  cases entityType with
  | measurement =>
    obtain ⟨rfl, hlist⟩ := Prod.mk.inj (List.mem_singleton.mp hrefs)
    exact Or.inl ⟨rfl, by decide, by rw [hlisted _ hlist.symm]; rfl⟩
  | customerRequirement =>
    obtain ⟨rfl, hlist⟩ := Prod.mk.inj (List.mem_singleton.mp hrefs)
    exact Or.inl ⟨rfl, by decide, by rw [hlisted _ hlist.symm, Bool.or_true]⟩
  | configuration => exact Or.inr rfl
  | _ => cases htype

/-- A field that equals another lists what that lists. -/
lemma ListsEvidence.of_same {payload stored : Dict} {field itemId documentId : Str}
    (hpayload : Value.WellFormed (.dict payload))
    (hsame : Value.same (payload.get field) (stored.get field) = true)
    (h : ListsEvidence payload field itemId documentId) :
    ListsEvidence stored field itemId documentId := by
  obtain ⟨d, refs, ref, hd, hrefs, href, hitemId, hdocumentId⟩ := h
  have hwd : Value.WellFormed (.dict d) := hd ▸ hpayload.get field
  have hwrefs : Value.WellFormed (.list refs) := hrefs ▸ hwd.get "evidenceReferences"
  have hwref : Value.WellFormed (.dict ref) := (Value.wellFormedList_iff refs).mp hwrefs _ href
  rw [hd] at hsame
  obtain ⟨d', hd', hsame⟩ := Value.dict_of_same hsame
  have hlists := Dict.same_get hwd.1 hsame "evidenceReferences"
  rw [hrefs] at hlists
  obtain ⟨refs', hrefs', hlists⟩ := Value.list_of_same hlists
  obtain ⟨i, hi⟩ := List.mem_iff_getElem?.mp href
  obtain ⟨v, hv, hsame'⟩ := sameList_getElem? hlists hi
  obtain ⟨ref', rfl, hsame'⟩ := Value.dict_of_same hsame'
  refine ⟨d', refs', ref', hd', hrefs', List.mem_iff_getElem?.mpr ⟨i, hv⟩, ?_, ?_⟩
  · exact normalized_of_same (Dict.same_get hwref.1 hsame' "itemID") hitemId
  · exact normalized_of_same (Dict.same_get hwref.1 hsame' "documentID") hdocumentId

/-- The authority over item children. -/
lemma Ownership.authorizeRecord_itemChild {env : Env} {db : Db} {principal : Principal}
    {scope : EffectiveScope} {entityType : EntityType} {id : Str} {payload : Dict}
    {deletedAt : Option DateTime} {known : Bool} (htype : entityType.isItemChild = true) :
    authorizeRecord env db principal scope entityType id payload deletedAt known =
      authorizeItemChild env db principal scope entityType id payload deletedAt known := by
  revert htype
  cases entityType <;> simp [EntityType.isItemChild, authorizeRecord]

/-! ### Live children stay live -/

/-- The test whether a child of an item is live. -/
lemma liveChild_iff (db : Db) (key : EntityKey) (itemId : Str) :
    db.canonical.LiveChild key itemId ↔ (db.itemChildren.get key).any
      (fun row => row.deletedAt.isNone && row.itemId == itemId) = true := by
  simp only [Canonical.LiveChild, Db.canonical, Option.any_eq_true, Bool.and_eq_true,
    Option.isNone_iff_eq_none, beq_iff_eq]

namespace RecordStep

variable {env : Env} {s : RecordStep} {payload : Payload} {grant : Authorized} {applied : Working}

/-- A step without a commit leaves the item children alone. -/
lemma Valid.itemChildren_of_keeps (h : s.Valid env) (hkeeps : s.Keeps) :
    s.after.db.itemChildren = s.before.db.itemChildren := by
  obtain ⟨input, before, record, after, outcome⟩ := s
  have hsettles := h.settles
  dsimp only at hsettles
  cases hsettles with
  | unnamed hm => rfl
  | answered hm hp => rfl
  | stale hm hp hs => rfl
  | refused hm hp hs ha hc =>
    rename_i mutationId e w'
    rcases attempt_eq_error ha with rfl | ⟨payload, grant, -, hauth, happly⟩
    · rfl
    · have happlication := apply_application input.principal record before grant
      rw [happly] at happlication
      change w'.db.itemChildren = before.db.itemChildren
      generalize happlied : (Except.error e, w') = applied at happlication
      cases happlication with
      | raised e' =>
        obtain ⟨-, rfl⟩ := Prod.mk.inj happlied
        rfl
      | written c => cases (Prod.mk.inj happlied).1
      | customer plan hgrant htype hnew =>
        have hcanonical := (grantCreatedScope_frame input.principal (some plan.entityId) none
          (Ownership.withCustomer input.principal plan before)).2.1
        rw [← happlied] at hcanonical
        exact congrArg Canonical.itemChildren hcanonical
      | project plan customerId hgrant htype hnew =>
        have hcanonical := (grantCreatedScope_frame input.principal none (some plan.entityId)
          (Ownership.withProject input.principal plan customerId before)).2.1
        rw [← happlied] at hcanonical
        exact congrArg Canonical.itemChildren hcanonical
  | committed hm hp hs ha => exact absurd rfl hkeeps.reason

/-- A live child stays live unless the step commits its tombstone. -/
lemma Valid.liveChild (h : s.Valid env) {key : EntityKey} {itemId : Str}
    (hlive : s.before.db.canonical.LiveChild key itemId)
    (hno : ∀ payload grant applied, s.Commits env payload grant applied → s.key = key →
      s.record.deletedAt = none) :
    s.after.db.canonical.LiveChild key itemId := by
  obtain ⟨row, hrow, hdeleted, hitem⟩ := hlive
  rcases h.keeps_or_commits with hkeeps | ⟨payload, grant, applied, hcommits⟩
  · refine ⟨row, ?_, hdeleted, hitem⟩
    change s.after.db.itemChildren.get key = some row
    rw [h.itemChildren_of_keeps hkeeps]
    exact hrow
  · obtain ⟨row', hrow', hsame⟩ := h.linksKept.itemChildren key row hrow
    refine ⟨row', hrow', ?_, hsame.trans hitem⟩
    have hwrite := h.canonicalWrite
    generalize hafter : s.after.db.canonical = c' at hwrite hrow'
    by_cases hkey : s.key = key
    · have hupsert := hno payload grant applied hcommits hkey
      subst hkey
      cases hwrite with
      | itemChild itemId' _ _ =>
        obtain rfl := Option.some.inj ((Table.get_set_self _ _ _).symm.trans hrow')
        exact hupsert
      | _ =>
        obtain rfl := Option.some.inj (hrow.symm.trans hrow')
        exact hdeleted
    · cases hwrite with
      | itemChild itemId' _ _ =>
        change (s.before.db.canonical.itemChildren.set s.key _).get key = some row' at hrow'
        rw [Table.get_set_of_ne _ _ (Ne.symm hkey)] at hrow'
        obtain rfl := Option.some.inj (hrow.symm.trans hrow')
        exact hdeleted
      | _ =>
        obtain rfl := Option.some.inj (hrow.symm.trans hrow')
        exact hdeleted

/-- What a committed item child went through. -/
lemma Commits.itemChild (h : s.Commits env payload grant applied)
    (htype : s.record.entityType.isItemChild = true) :
    ∃ itemId found row,
      Ownership.itemForScope s.before.db s.input.principal s.before.scope itemId = .ok found ∧
      s.after.db.itemChildren.get s.key = some row ∧ row.itemId = itemId ∧
      Ownership.authorizeItemChildContent env s.before.db s.input.principal s.record.entityType
        s.record.entityID.text payload.items s.record.deletedAt.isSome itemId found.1 = .ok () := by
  have happlied := h.admitted.applied
  have hafter : s.after.db.itemChildren = applied.db.itemChildren :=
    congrArg Canonical.itemChildren h.canonical
  obtain ⟨-, -, ⟨hdelivery, -⟩ | ⟨-, -, plan, hplan, rfl⟩⟩ :=
    authorize_eq_ok_iff.mp h.admitted.authorized
  · rw [hdelivery] at htype
    cases htype
  · rw [Ownership.authorizeRecord_itemChild htype] at hplan
    obtain ⟨itemId, found, row, hfound, hrow, hitem, -, hcontent⟩ :=
      Ownership.authorizeItemChild_spec htype hplan happlied
    exact ⟨itemId, found, row, hfound, by rw [hafter]; exact hrow, hitem, hcontent⟩

/-- The guard on the tombstone of an evidence record: no live measurement or requirement lists
it. -/
lemma Commits.evidence_unlisted (h : s.Commits env payload grant applied)
    (htype : s.record.entityType = .evidence) (hdeleted : s.record.deletedAt ≠ none)
    {entityType : EntityType} {id : Str} {listing : Payload}
    (hlister : entityType = .measurement ∨ entityType = .customerRequirement)
    (hlive : LivePayload s.before.db (s.input.principal.organizationId, entityType, id) listing) :
    (Ownership.listsReference listing.items "evidenceReferences" s.record.entityID.text ||
      Ownership.listsReference listing.items "evidenceReferenceIDs" s.record.entityID.text) =
        false := by
  obtain ⟨itemId, found, row, -, -, -, hcontent⟩ := h.itemChild (by rw [htype]; rfl)
  rw [htype, Option.isSome_iff_ne_none.mpr hdeleted] at hcontent
  simp only [Ownership.authorizeItemChildContent, Ownership.itemChildCapability, bind_eq_ok,
    Ownership.ensureEvidenceDeleteSafe, raiseIf_eq_ok, Table.any_eq_false_iff] at hcontent
  obtain ⟨-, -, hguard⟩ := hcontent
  obtain ⟨entity, hentity, hactive, hpayload⟩ := hlive
  have hrow := hguard _ entity hentity
  rw [hactive, hpayload] at hrow
  rcases hlister with rfl | rfl <;> simpa using hrow

/-- **Step.** A step that tombstones nothing that a configuration lists keeps the lists of the item
children whole.

**Proof sketch.** The list of the payload that the step stores was checked. Another list stays: what
it lists stays live, unless the step tombstones it, which the guard forbids for evidence and the
condition for requirements and blockers. -/
theorem Valid.sidecarsWhole (h : s.Valid env) (hunlisted : s.Unlisted env)
    (hbefore : SidecarsWhole s.before.db) : SidecarsWhole s.after.db := by
  intro org entityType id listing htype hlive kind child hlists
  by_cases hself : ∃ payload grant applied, s.Commits env payload grant applied ∧
      (org, entityType, id) = s.key
  · obtain ⟨payload, grant, applied, hcommits, hkey⟩ := hself
    obtain ⟨entity, hentity, hactive, hpayload⟩ := hlive
    rw [hcommits.entities, hkey, Table.get_set_self] at hentity
    obtain rfl := Option.some.inj hentity
    have hupsert : s.record.deletedAt = none := Option.map_eq_none_iff.mp hactive
    obtain rfl : payload = listing := by
      simpa [committedEntity, hupsert] using hpayload
    simp only [key, Prod.mk.injEq] at hkey
    obtain ⟨rfl, rfl, rfl⟩ := hkey
    have hitemChild : s.record.entityType.isItemChild = true := by
      revert htype
      cases s.record.entityType <;> decide
    obtain ⟨itemId, found, row, hfound, hrow, rfl, hcontent⟩ := hcommits.itemChild hitemChild
    rw [hupsert] at hcontent
    have hchild := Ownership.authorizeItemChildContent_children hcontent hlists
    exact ⟨row, hrow, h.liveChild hchild fun _ _ _ _ _ => hupsert⟩
  · -- the entity is not written
    have hstored : LivePayload s.before.db (org, entityType, id) listing := by
      obtain ⟨entity, hentity, hrest⟩ := hlive
      refine ⟨entity, ?_, hrest⟩
      rcases h.keeps_or_commits with hkeeps | ⟨payload, grant, applied, hcommits⟩
      · rwa [hkeeps.entities] at hentity
      · have hne : (org, entityType, id) ≠ s.key :=
          fun hkey => hself ⟨payload, grant, applied, hcommits, hkey⟩
        rwa [hcommits.entities, Table.get_set_of_ne _ _ hne] at hentity
    obtain ⟨row, hrow, hchild⟩ := hbefore org entityType id listing htype hstored kind child hlists
    obtain ⟨row', hrow', hitem⟩ := h.linksKept.itemChildren _ row hrow
    refine ⟨row', hrow', ?_⟩
    rw [hitem]
    refine h.liveChild hchild fun payload grant applied hcommits hkey => ?_
    simp only [key, Prod.mk.injEq] at hkey
    obtain ⟨rfl, rfl, rfl⟩ := hkey
    by_contra hdeleted
    rcases hlists.kind htype with ⟨hevidence, hnot, hlisted⟩ | rfl
    · have hlister : entityType = .measurement ∨ entityType = .customerRequirement := by
        revert htype hnot
        cases entityType <;> decide
      rw [hcommits.evidence_unlisted hevidence hdeleted hlister hstored] at hlisted
      cases hlisted
    · exact (hunlisted hdeleted hcommits.unanswered hcommits.fresh payload grant
        hcommits.admitted.decoded hcommits.admitted.authorized).1 id listing hstored hlists

/-- What a committed delivery went through. -/
lemma Commits.deliveryEvidence (h : s.Commits env payload grant applied)
    (htype : s.record.entityType = .deliveryExecution) :
    ∃ projectId, s.after.db.canonical.projectOf s.key = some projectId ∧
      Delivery.Installation.validateInstallationEvidenceAuthority s.before.db s.input.principal
        payload.items ((storedPayload s.before.db s.key).map Payload.items) projectId = .ok () := by
  have happlied := h.admitted.applied
  rw [h.canonical, ← current_payload]
  obtain ⟨-, -, ⟨-, projectId, hauth, rfl⟩ | ⟨hnot, -⟩⟩ :=
    authorize_eq_ok_iff.mp h.admitted.authorized
  · obtain ⟨-, -, currentPayload, -, -, hcontinuity, -, hevidence, -⟩ :=
      (Delivery.authorizeDeliveryExecution_authorized hauth).rest
    rw [Delivery.continuity_eq_ok hcontinuity] at hevidence
    obtain ⟨row, hrow, hprojectId⟩ := Delivery.applyDeliveryExecutionOwnership_row happlied
    refine ⟨projectId, ?_, hevidence⟩
    rw [key, htype]
    exact Option.map_eq_some_iff.mpr ⟨row, hrow, hprojectId⟩
  · exact absurd htype hnot

/-- **Step.** A step that tombstones no evidence of a delivery keeps the evidence of the deliveries
whole.

**Proof sketch.** A new completion or closeout was checked. One that equals the stored one lists
what that lists, and what a stored delivery lists stays live in its project. -/
theorem Valid.deliveriesWhole (h : s.Valid env) (hunlisted : s.Unlisted env)
    (hbefore : DeliveriesWhole s.before.db) : DeliveriesWhole s.after.db := by
  -- what a stored delivery lists stays
  have hkept : ∀ org id stored, storedPayload s.before.db (org, .deliveryExecution, id) =
      some stored → ∀ field ∈ evidenceFields, ∀ itemId documentId,
        ListsEvidence stored.items field itemId documentId →
          s.after.db.canonical.LiveChild (org, .evidence, documentId) itemId ∧
            ∃ projectId,
              s.after.db.canonical.projectOf (org, .deliveryExecution, id) = some projectId ∧
              s.after.db.canonical.projectOf (org, .item, itemId) = some projectId := by
    intro org id stored hstored field hfield itemId documentId hlists
    obtain ⟨hlive, projectId, hdelivery, hitem⟩ :=
      hbefore org id stored hstored field hfield itemId documentId hlists
    refine ⟨h.liveChild hlive fun payload grant applied hcommits hkey => ?_, projectId,
      h.linksKept.projectOf hdelivery, h.linksKept.projectOf hitem⟩
    simp only [key, Prod.mk.injEq] at hkey
    obtain ⟨rfl, htype, rfl⟩ := hkey
    by_contra hdeleted
    exact (hunlisted hdeleted hcommits.unanswered hcommits.fresh payload grant
      hcommits.admitted.decoded hcommits.admitted.authorized).2 htype id stored hstored field hfield
      itemId hlists
  intro org id after hafter field hfield itemId documentId hlists
  rcases h.storedPayload_after hafter with hstored | ⟨hkey, hupsert, grant, applied, hcommits⟩
  · exact hkept org id after hstored field hfield itemId documentId hlists
  · have htype : s.record.entityType = .deliveryExecution :=
      (congrArg (fun k : EntityKey => k.2.1) hkey).symm
    obtain ⟨projectId, hproject, hevidence⟩ := hcommits.deliveryEvidence htype
    have horg : org = s.input.principal.organizationId := congrArg Prod.fst hkey
    cases hchanged : (after.items.get field).ne
        ((((storedPayload s.before.db s.key).map Payload.items).getD []).get field) with
    | true =>
      obtain ⟨hitem, hlive⟩ :=
        Delivery.Installation.evidence_checked hevidence hfield hchanged hlists
      rw [← horg] at hitem hlive
      refine ⟨h.liveChild hlive fun _ _ _ _ hkey' => ?_, projectId, by rwa [hkey],
        h.linksKept.projectOf hitem⟩
      rw [← hkey] at hkey'
      cases (Prod.mk.inj (Prod.mk.inj hkey').2).1
    | false =>
      -- the field equals the stored one
      have hsame : Value.same (after.items.get field)
          ((((storedPayload s.before.db s.key).map Payload.items).getD []).get field) = true := by
        rw [Value.ne, Bool.not_eq_false'] at hchanged
        exact Value.same_of_eq hchanged
      have hlists' := hlists.of_same after.wellFormed hsame
      cases hstored : storedPayload s.before.db s.key with
      | none =>
        rw [hstored] at hlists'
        obtain ⟨d, refs, ref, hd, -⟩ := hlists'
        cases hd
      | some stored =>
        rw [hstored] at hlists'
        rw [← hkey] at hstored
        exact hkept org id stored hstored field hfield itemId documentId hlists'

end RecordStep

/-! ### Runs -/

/-- **References between the children of an item.** After a run whose tombstones are of no
requirement or blocker that a live configuration lists and of no evidence that a stored delivery
lists, everything that a live measurement, requirement or configuration lists is a live child of its
item, and everything that a delivery lists is live evidence of an item of its project. -/
theorem runPushes_referencesWhole (env : Env) (inputs : List PushInput) (db : Db)
    (hsidecars : SidecarsWhole db) (hdeliveries : DeliveriesWhole db)
    (hunlisted : ∀ s ∈ runSteps env inputs db, s.Unlisted env) :
    SidecarsWhole (runPushes env inputs db) ∧ DeliveriesWhole (runPushes env inputs db) := by
  refine ⟨runPushes_inv hsidecars fun s hs hbefore => ?_,
    runPushes_inv hdeliveries fun s hs hbefore => ?_⟩
  · exact (runSteps_valid hs).1.sidecarsWhole (hunlisted s hs) hbefore
  · exact (runSteps_valid hs).1.deliveriesWhole (hunlisted s hs) hbefore

namespace Sample

/-- A configuration lists the sample blocker. -/
def blockerListed : List PushInput := created ++ [blocked]

/-- The sample blocker is deleted. -/
def blockerDeleted : List PushInput :=
  [input (record .blocker "b" "7" (some 5) [("id", .str "b")] (some time))]

end Sample

/-- What the configuration of the sample item lists is live. -/
theorem runPushes_referencesWhole_sample :
    SidecarsWhole (runPushes Sample.env Sample.blockerListed Sample.db) ∧
      (runPushes Sample.env Sample.blockerListed Sample.db).canonical.LiveChild Sample.blockerKey "i" := by
  have hupserts : ∀ s ∈ runSteps Sample.env Sample.blockerListed Sample.db, s.record.deletedAt = none := by
    decide +kernel
  have hlive : ((runPushes Sample.env Sample.blockerListed Sample.db).itemChildren.get
      Sample.blockerKey).any (fun row => row.deletedAt.isNone && row.itemId == Str.ofString "i") =
      true := by
    decide +kernel
  refine ⟨(runPushes_referencesWhole Sample.env Sample.blockerListed Sample.db ?_ ?_ ?_).1, ?_⟩
  · rintro org entityType id payload htype ⟨entity, hentity, -⟩
    cases hentity
  · intro org id payload hstored
    cases hstored
  · intro s hs hdeleted
    exact absurd (hupserts s hs) hdeleted
  · exact (liveChild_iff _ _ _).mpr hlive

/-- The tombstone of a blocker is accepted while a live configuration lists the blocker. -/
theorem runPushes_blocker_dangles :
    ¬ SidecarsWhole (runPushes Sample.env (Sample.blockerListed ++ Sample.blockerDeleted) Sample.db) := by
  have hrun : (((runPushes Sample.env (Sample.blockerListed ++ Sample.blockerDeleted)
      Sample.db).entities.get Sample.configurationKey).any fun entity =>
        entity.deletedAt.isNone && entity.payloadJson.any fun payload =>
          ((payload.items.get "blockerIDs").list?.getD []).any (·.isStr "b")) = true := by
    decide +kernel
  have hdeleted : ((runPushes Sample.env (Sample.blockerListed ++ Sample.blockerDeleted)
      Sample.db).itemChildren.get Sample.blockerKey).any (fun row => row.deletedAt.isNone) =
      false := by
    decide +kernel
  obtain ⟨entity, hentity, hactive⟩ := (Option.any_eq_true _ _).mp hrun
  rw [Bool.and_eq_true, Option.isNone_iff_eq_none, Option.any_eq_true] at hactive
  obtain ⟨hactive, payload, hpayload, hblockers⟩ := hactive
  intro hwhole
  obtain ⟨row, -, hlive⟩ := hwhole "o" .configuration "k" payload rfl
    ⟨entity, hentity, hactive, hpayload⟩ .blocker "b" (listsBlocker_of_any hblockers)
  obtain ⟨child, hchild, hrow⟩ := (Option.any_eq_true _ _).mp ((liveChild_iff _ _ _).mp hlive)
  rw [Bool.and_eq_true] at hrow
  rw [Sample.blockerKey, hchild, Option.any_some, hrow.1] at hdeleted
  cases hdeleted

end VitrialSync
