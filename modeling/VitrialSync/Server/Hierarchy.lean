import VitrialSync.Server.Writes

set_option relaxedAutoImplicit false
set_option autoImplicit false

/-!
# The tombstone hierarchy

Customers own projects, projects own sectors, items, quotations and deliveries, items own their
children. An active row is one without a tombstone. Below the project the hierarchy is kept by
every push: an active row has an active parent. At the customer level it is kept except for one
write, an upsert that revives a tombstoned project under a customer that is no longer active.

## Main definitions

* `VitrialSync.Canonical.Nested` — every active row below a project has active parents.
* `VitrialSync.Canonical.CustomersActive` — every active project has an active customer.
* `VitrialSync.RecordStep.RevivesOrphan` — the write that breaks the customer level.

## Main results

* `VitrialSync.runPushes_nested` — the hierarchy below the project holds in every reachable state.
* `VitrialSync.runPushes_customersActive` — the customer level holds exactly as long as no orphan is
  revived.
-/

namespace VitrialSync

open Python Program

/-! ### Below the project -/

/-- Every active sector, item, quotation and delivery has an active project, the sector of an
active item is an active one of the same project, and every active item child has an active
item. -/
structure Canonical.Nested (c : Canonical) : Prop where
  projectSector : ∀ org id row, c.projectSectors.get (org, id) = some row → row.deletedAt = none →
    c.ActiveProject org row.projectId
  item : ∀ org id row, c.items.get (org, id) = some row → row.deletedAt = none →
    c.ActiveProject org row.projectId ∧
      ∃ sectorId, row.projectSectorId = some sectorId ∧ c.ActiveSectorIn org sectorId row.projectId
  projectChild : ∀ org entityType id row, c.projectChildren.get (org, entityType, id) = some row →
    row.deletedAt = none → c.ActiveProject org row.projectId
  itemChild : ∀ org entityType id row, c.itemChildren.get (org, entityType, id) = some row →
    row.deletedAt = none → c.ActiveItem org row.itemId

section Nested

variable {org id : Str} {entityType : EntityType} {deletedAt : Option DateTime} {c : Canonical}

/-- A write of a project row keeps the nesting. -/
lemma Canonical.Nested.setProject (hc : c.Nested) {row : CanonicalProject}
    (hbare : row.deletedAt ≠ none → c.ProjectBare org id) :
    Canonical.Nested { c with projects := c.projects.set (org, id) row } := by
  -- a tombstone of the project contradicts an active child of it
  have hactive : ∀ o p, c.ActiveProject o p → (row.deletedAt ≠ none → (o, p) ≠ (org, id)) →
      Canonical.ActiveProject { c with projects := c.projects.set (org, id) row } o p :=
    fun o p hp hne => Table.exists_get_set hp fun heq => by_contra fun hdeleted => hne hdeleted heq
  refine ⟨?_, ?_, ?_, hc.itemChild⟩
  · intro o k sector hget hlive
    refine hactive _ _ (hc.projectSector o k sector hget hlive) fun hdeleted heq => ?_
    obtain ⟨rfl, rfl⟩ := Prod.mk.inj heq
    exact (hbare hdeleted).sectors k sector hget rfl hlive
  · intro o k item hget hlive
    refine ⟨hactive _ _ (hc.item o k item hget hlive).1 fun hdeleted heq => ?_,
      (hc.item o k item hget hlive).2⟩
    obtain ⟨rfl, rfl⟩ := Prod.mk.inj heq
    exact (hbare hdeleted).items k item hget rfl hlive
  · intro o t k child hget hlive
    refine hactive _ _ (hc.projectChild o t k child hget hlive) fun hdeleted heq => ?_
    obtain ⟨rfl, rfl⟩ := Prod.mk.inj heq
    exact (hbare hdeleted).children t k child hget rfl hlive

/-- A write of a sector row keeps the nesting. -/
lemma Canonical.Nested.setProjectSector (hc : c.Nested) {row : CanonicalProjectSector}
    (hparent : c.ActiveProject org row.projectId)
    (hold : ∀ old, c.projectSectors.get (org, id) = some old → old.projectId = row.projectId)
    (hbare : row.deletedAt ≠ none → ∀ k i, c.items.get (org, k) = some i →
      i.projectSectorId = some id → i.deletedAt ≠ none) :
    Canonical.Nested { c with projectSectors := c.projectSectors.set (org, id) row } := by
  refine ⟨?_, ?_, hc.projectChild, hc.itemChild⟩
  · intro o k sector hget hlive
    rcases Table.get_set_eq_some hget with ⟨heq, rfl⟩ | ⟨-, hget⟩
    · obtain ⟨rfl, rfl⟩ := Prod.mk.inj heq
      exact hparent
    · exact hc.projectSector o k sector hget hlive
  · intro o k item hget hlive
    obtain ⟨hproject, sectorId, hsome, hsector⟩ := hc.item o k item hget hlive
    refine ⟨hproject, sectorId, hsome, Table.exists_get_set hsector fun heq => ?_⟩
    obtain ⟨rfl, rfl⟩ := Prod.mk.inj heq
    obtain ⟨old, hgetOld, -, hsame⟩ := hsector
    refine ⟨by_contra fun hdeleted => hbare hdeleted k item hget hsome hlive, ?_⟩
    rw [← hold old hgetOld, hsame]

/-- A write of an item row keeps the nesting. -/
lemma Canonical.Nested.setItem (hc : c.Nested) {sectorId : Str} {row : CanonicalItem}
    (hparent : c.ActiveProject org row.projectId) (hsome : row.projectSectorId = some sectorId)
    (hsector : c.ActiveSectorIn org sectorId row.projectId)
    (hbare : row.deletedAt ≠ none → ∀ t k i, c.itemChildren.get (org, t, k) = some i →
      i.itemId = id → i.deletedAt ≠ none) :
    Canonical.Nested { c with items := c.items.set (org, id) row } := by
  refine ⟨hc.projectSector, ?_, hc.projectChild, ?_⟩
  · intro o k item hget hlive
    rcases Table.get_set_eq_some hget with ⟨heq, rfl⟩ | ⟨-, hget⟩
    · obtain ⟨rfl, rfl⟩ := Prod.mk.inj heq
      exact ⟨hparent, sectorId, hsome, hsector⟩
    · exact hc.item o k item hget hlive
  · intro o t k child hget hlive
    refine Table.exists_get_set (hc.itemChild o t k child hget hlive) fun heq => ?_
    obtain ⟨rfl, rfl⟩ := Prod.mk.inj heq
    exact by_contra fun hdeleted => hbare hdeleted t k child hget rfl hlive

/-- **Step.** A canonical write keeps the nesting.

**Proof sketch.** A write of a row checks the parents of that row, and a tombstone checks that no
active child is left; rows of other keys are untouched. -/
theorem CanonicalWrite.nested {c' : Canonical}
    (h : CanonicalWrite org entityType id deletedAt c c') (hc : c.Nested) : c'.Nested := by
  cases h with
  | kept => exact hc
  | customer htype hbare => exact ⟨hc.projectSector, hc.item, hc.projectChild, hc.itemChild⟩
  | project customerId htype hnew hold hbare => exact hc.setProject hbare
  | projectSector projectId sectorId htype hparent hold hbare =>
    exact hc.setProjectSector hparent hold hbare
  | item projectId sectorId htype hparent hsector hbare =>
    exact hc.setItem hparent rfl hsector hbare
  | projectChild projectId htype hparent =>
    refine ⟨hc.projectSector, hc.item, ?_, hc.itemChild⟩
    intro o t k child hget hlive
    rcases Table.get_set_eq_some hget with ⟨heq, rfl⟩ | ⟨-, hget⟩
    · obtain ⟨rfl, -⟩ := Prod.mk.inj heq
      exact hparent
    · exact hc.projectChild o t k child hget hlive
  | itemChild itemId htype hparent =>
    refine ⟨hc.projectSector, hc.item, hc.projectChild, ?_⟩
    intro o t k child hget hlive
    rcases Table.get_set_eq_some hget with ⟨heq, rfl⟩ | ⟨-, hget⟩
    · obtain ⟨rfl, -⟩ := Prod.mk.inj heq
      exact hparent
    · exact hc.itemChild o t k child hget hlive

end Nested

/-- **Tombstone hierarchy below the project.** In every state reached by pushes from a nested one,
every active sector, item, quotation and delivery has an active project, the sector of an active
item is active and in the item's project, and every active item child has an active item. -/
theorem runPushes_nested (env : Env) (inputs : List PushInput) (db : Db)
    (hdb : db.canonical.Nested) : (runPushes env inputs db).canonical.Nested :=
  runPushes_inv (I := fun db => db.canonical.Nested) hdb fun _ hs hbefore =>
    (runSteps_valid hs).1.canonicalWrite.nested hbefore

/-- The sample records and a tombstone of the item. -/
def Sample.hierarchy : List PushInput :=
  setup ++ [input (record .item "i" "5" (some 4) [("id", .str "i")] (some time))]

/-- The sample organization is nested at the start, and so it is after the sample requests, the
last of which is accepted. -/
theorem runPushes_nested_sample :
    (runPushes Sample.env Sample.hierarchy Sample.db).canonical.Nested ∧
      (runPushes Sample.env Sample.hierarchy Sample.db).lastSequence = 5 :=
  ⟨runPushes_nested Sample.env Sample.hierarchy Sample.db
    ⟨fun _ _ _ h => (nomatch h), fun _ _ _ h => (nomatch h), fun _ _ _ _ h => (nomatch h),
      fun _ _ _ _ h => (nomatch h)⟩, by decide +kernel⟩

/-! ### The customer level -/

/-- Every active project has an active customer. -/
def Canonical.CustomersActive (c : Canonical) : Prop :=
  ∀ org id row, c.projects.get (org, id) = some row → row.deletedAt = none →
    c.ActiveCustomer org row.customerId

/-- A record revives an orphan: it is a fresh upsert of a tombstoned project whose customer is not
active, by a principal that may edit the project, and its payload names the project and does not
change its customer. -/
structure RecordStep.RevivesOrphan (env : Env) (s : RecordStep) (row : CanonicalProject)
    (payload : Payload) : Prop where
  entityType : s.record.entityType = .project
  upsert : s.record.deletedAt = none
  unanswered : s.Unanswered
  fresh : staleRevision s.record s.current = false
  stored : s.before.db.projects.get
    (s.input.principal.organizationId, s.record.entityID.text) = some row
  tombstoned : row.deletedAt ≠ none
  orphaned : ¬ s.before.db.canonical.ActiveCustomer s.input.principal.organizationId row.customerId
  capability : s.input.principal.holds .projectEdit = true
  inScope : s.before.scope.canAccessProject s.record.entityID.text row.customerId = true
  decoded : decodePayload env s.record.payload = .ok payload
  identity : Ownership.requireIdentity payload.items s.record.entityID.text false = .ok ()
  parent : Ownership.requireSameParent payload.items "customerID" row.customerId
    "Project Customer ownership is immutable" = .ok ()

section CustomersActive

variable {env : Env} {s : RecordStep}

/-- The checks on an upsert of a known project. -/
lemma authorizeProject_known {db : Db} {principal : Principal} {scope : EffectiveScope} {id : Str}
    {payload : Dict} (known : Bool) {row : CanonicalProject} {plan : Ownership.OwnershipPlan}
    (hstored : db.projects.get (principal.organizationId, id) = some row) :
    Ownership.authorizeProject db principal scope id payload none known = .ok plan ↔
      principal.holds .projectEdit = true ∧ scope.canAccessProject id row.customerId = true ∧
      Ownership.requireIdentity payload id false = .ok () ∧
      Ownership.requireSameParent payload "customerID" row.customerId
        "Project Customer ownership is immutable" = .ok () ∧
      plan = { entityType := .project, entityId := id, isCreate := false, deletedAt := none,
               customerId := some row.customerId, projectId := some id } := by
  simp only [Ownership.authorizeProject, hstored, Ownership.requireCapability, bind_eq_ok,
    raiseIf_eq_ok, pure_eq_ok, Option.isSome_none, Bool.false_eq_true, ↓reduceIte,
    Bool.not_eq_false', exists_and_left, exists_const, true_and]
  constructor
  · rintro ⟨hcapability, hscope, ⟨⟩, hidentity, ⟨⟩, hparent, rfl⟩
    exact ⟨hcapability, hscope, hidentity, hparent, rfl⟩
  · rintro ⟨hcapability, hscope, hidentity, hparent, rfl⟩
    exact ⟨hcapability, hscope, (), hidentity, (), hparent, rfl⟩

variable (env) in
/-- The checks on an upsert of a project. -/
lemma authorize_project {w : Working} {principal : Principal} {record : SyncRecord}
    {current : Option SyncEntity} {payload : Dict} {grant : Authorized}
    (htype : record.entityType = .project) (hupsert : record.deletedAt = none) :
    authorize env principal w record current payload = .ok grant ↔
      ∃ plan, Ownership.authorizeProject w.db principal w.scope record.entityID.text payload none
        current.isSome = .ok plan ∧ grant = .ownership plan := by
  rw [authorize_owner (Or.inr htype), htype, hupsert]
  rfl

/-- A revival is committed and leaves an active project without active customer. -/
lemma RecordStep.RevivesOrphan.not_customersActive {row : CanonicalProject} {payload : Payload}
    (h : s.Valid env) (hr : s.RevivesOrphan env row payload) :
    ¬ s.after.db.canonical.CustomersActive := by
  obtain ⟨htype, hupsert, hunanswered, hfresh, hstored, -, horphaned, hcapability, hscope, hdecoded,
    hidentity, hparent⟩ := hr
  have hplan := (authorizeProject_known s.current.isSome hstored).mpr
    ⟨hcapability, hscope, hidentity, hparent, rfl⟩
  have hauth := (authorize_project env htype hupsert).mpr ⟨_, hplan, rfl⟩
  have happly : (Authorized.ownership
      { entityType := .project, entityId := s.record.entityID.text, isCreate := false,
        deletedAt := none, customerId := some row.customerId,
        projectId := some s.record.entityID.text }).apply s.input.principal s.record s.before =
      (.ok (), { s.before with
        db := { s.before.db with
          projects := s.before.db.projects.set
            (s.input.principal.organizationId, s.record.entityID.text)
            { row with deletedAt := none } } }) := by
    simp only [Authorized.apply, Ownership.applyOwnershipPlan, Ownership.applyProject, hstored,
      ne_eq, not_true_eq_false, ↓reduceIte]
  intro hafter
  rw [(h.of_admitted hunanswered hfresh ⟨hdecoded, hauth, happly⟩).2] at hafter
  exact horphaned (hafter s.input.principal.organizationId s.record.entityID.text
    { row with deletedAt := none } (Table.get_set_self _ _ _) rfl)

/-- A step that makes a tombstoned project of an inactive customer active revives an orphan. -/
lemma exists_revivesOrphan {row : CanonicalProject} (h : s.Valid env)
    (htype : s.record.entityType = .project) (hupsert : s.record.deletedAt = none)
    (hstored : s.before.db.projects.get
      (s.input.principal.organizationId, s.record.entityID.text) = some row)
    (htombstoned : row.deletedAt ≠ none)
    (horphaned : ¬ s.before.db.canonical.ActiveCustomer s.input.principal.organizationId
      row.customerId)
    (hchanged : s.after.db.canonical ≠ s.before.db.canonical) :
    ∃ payload, s.RevivesOrphan env row payload := by
  rcases h.canonical with heq | ⟨payload, grant, hdecoded, hunanswered, hfresh, hauth, -⟩
  · exact absurd heq hchanged
  · obtain ⟨plan, hplan, -⟩ := (authorize_project env htype hupsert).mp hauth
    obtain ⟨hcapability, hscope, hidentity, hparent, -⟩ := (authorizeProject_known _ hstored).mp hplan
    exact ⟨payload, htype, hupsert, hunanswered, hfresh, hstored, htombstoned, horphaned,
      hcapability, hscope, hdecoded, hidentity, hparent⟩

/-- **Step.** A step keeps the customer level exactly when it revives no orphan.

**Proof sketch.** By cases over the canonical writes. A tombstone of a customer checks that it has
no active project. A new project checks its customer. A known project keeps its customer, which
was active if the project was; the remaining case is an upsert of a tombstoned project. -/
theorem RecordStep.Valid.customersActive_iff (h : s.Valid env)
    (hbefore : s.before.db.canonical.CustomersActive) :
    s.after.db.canonical.CustomersActive ↔
      ∀ row payload, ¬ s.RevivesOrphan env row payload := by
  refine ⟨fun hafter row payload hr => hr.not_customersActive h hafter, fun hno => ?_⟩
  have hwrite := h.canonicalWrite
  generalize hc : s.after.db.canonical = c' at hwrite ⊢
  cases hwrite with
  | kept => exact hbefore
  | customer htype hbare =>
    intro org id row hget hlive
    refine Table.exists_get_set (hbefore org id row hget hlive) fun heq => ?_
    obtain ⟨rfl, hid⟩ := Prod.mk.inj heq
    exact by_contra fun hdeleted => hbare hdeleted id row hget hid hlive
  | project customerId htype hnew hold hbare =>
    intro org id row hget hlive
    rcases Table.get_set_eq_some hget with ⟨heq, rfl⟩ | ⟨-, hget⟩
    · obtain ⟨rfl, rfl⟩ := Prod.mk.inj heq
      cases hstored : s.before.db.projects.get
          (s.input.principal.organizationId, s.record.entityID.text) with
      | none => exact hnew hstored
      | some old =>
        obtain rfl := hold old hstored
        by_cases hold_live : old.deletedAt = none
        · exact hbefore _ _ old hstored hold_live
        · by_contra hinactive
          have hchanged : s.after.db.canonical ≠ s.before.db.canonical := by
            intro heq
            have hsame : s.before.db.projects.get
                (s.input.principal.organizationId, s.record.entityID.text) =
                  some ⟨old.customerId, s.record.deletedAt⟩ := by
              have hprojects := congrArg Canonical.projects (heq.symm.trans hc)
              change s.before.db.projects = _ at hprojects
              rw [hprojects]
              exact Table.get_set_self _ _ _
            rw [hstored, Option.some.injEq] at hsame
            exact hold_live (by rw [hsame]; exact hlive)
          obtain ⟨payload, hr⟩ :=
            exists_revivesOrphan h htype hlive hstored hold_live hinactive hchanged
          exact hno old payload hr
    · exact hbefore org id row hget hlive
  | projectSector | item | projectChild | itemChild => exact hbefore

end CustomersActive

/-- **Tombstone hierarchy at the customer level.** A run of pushes keeps an active customer for
every active project, after each of its records, exactly when none of them revives an orphan; then
also the state it ends in has this property. -/
theorem runPushes_customersActive (env : Env) (inputs : List PushInput) (db : Db)
    (hdb : db.canonical.CustomersActive) :
    ((∀ s ∈ runSteps env inputs db, s.after.db.canonical.CustomersActive) ↔
      ∀ s ∈ runSteps env inputs db, ∀ row payload, ¬ s.RevivesOrphan env row payload) ∧
    ((∀ s ∈ runSteps env inputs db, ∀ row payload, ¬ s.RevivesOrphan env row payload) →
      (runPushes env inputs db).canonical.CustomersActive) := by
  have hstep : (∀ s ∈ runSteps env inputs db, ∀ row payload, ¬ s.RevivesOrphan env row payload) →
      ∀ s ∈ runSteps env inputs db, s.before.db.canonical.CustomersActive →
        s.after.db.canonical.CustomersActive :=
    fun hno s hs hbefore =>
      ((runSteps_valid hs).1.customersActive_iff hbefore).mpr (hno s hs)
  refine ⟨⟨fun hafter s hs row payload hr => ?_, fun hno s hs => ?_⟩, fun hno => ?_⟩
  · exact hr.not_customersActive (runSteps_valid hs).1 (hafter s hs)
  · exact hstep hno s hs
      (runSteps_inv (I := fun db => db.canonical.CustomersActive) hdb (hstep hno) s hs)
  · exact runPushes_inv (I := fun db => db.canonical.CustomersActive) hdb (hstep hno)

/-- A customer and a project, the tombstones of both, and an upsert of the project. -/
def Sample.revival : List PushInput :=
  [input (record .customer "c" "1" none [("id", .str "c")]),
    input (record .project "p" "2" none [("id", .str "p"), ("customerID", .str "c")]),
    input (record .project "p" "3" (some 2) [("id", .str "p")] (some time)),
    input (record .customer "c" "4" (some 1) [("id", .str "c")] (some time)),
    input (record .project "p" "5" (some 3) [("id", .str "p")])]

/-- The upsert is accepted and leaves an active project under a tombstoned customer. -/
theorem runPushes_not_customersActive :
    Sample.db.canonical.CustomersActive ∧
      ¬ (runPushes Sample.env Sample.revival Sample.db).canonical.CustomersActive := by
  refine ⟨fun _ _ _ h => (nomatch h), ?_⟩
  have hproject : ((runPushes Sample.env Sample.revival Sample.db).projects.get
      (Str.ofString "o", Str.ofString "p")).map
        (fun row => (row.customerId, row.deletedAt.isNone)) = some (Str.ofString "c", true) := by
    decide +kernel
  have hcustomer : ((runPushes Sample.env Sample.revival Sample.db).customers.get
      (Str.ofString "o", Str.ofString "c")).any (fun row => row.deletedAt.isNone) = false := by
    decide +kernel
  generalize runPushes Sample.env Sample.revival Sample.db = db at hproject hcustomer
  intro h
  obtain ⟨row, hget, hrow⟩ := Option.map_eq_some_iff.mp hproject
  obtain ⟨hparent, hlive⟩ := Prod.mk.inj hrow
  obtain ⟨customer, hfound, hactive⟩ := h _ _ row hget (Option.isNone_iff_eq_none.mp hlive)
  change db.customers.get _ = _ at hfound
  rw [hparent] at hfound
  simp [hfound, hactive] at hcustomer

/-- The requests up to the tombstones revive no orphan, so that the customer level holds. -/
theorem runPushes_customersActive_sample :
    (runPushes Sample.env (Sample.revival.take 4) Sample.db).canonical.CustomersActive := by
  have hdb : Sample.db.canonical.CustomersActive := fun _ _ _ h => nomatch h
  have hno : ∀ s ∈ runSteps Sample.env (Sample.revival.take 4) Sample.db,
      (s.before.db.projects.get (s.input.principal.organizationId, s.record.entityID.text)).any
        (fun row => row.deletedAt.isSome) = false := by
    decide +kernel
  refine (runPushes_customersActive Sample.env (Sample.revival.take 4) Sample.db hdb).2
    fun s hs row payload hr => hr.tombstoned ?_
  simpa [hr.stored] using hno s hs

end VitrialSync
