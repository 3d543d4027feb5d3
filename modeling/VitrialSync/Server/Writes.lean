import VitrialSync.Server.Settlement

set_option relaxedAutoImplicit false
set_option autoImplicit false

/-!
# What a step writes to the canonical tables

Authorization looks up the parents of a record and its active children, application writes one row.
`CanonicalWrite` puts the two together: the row that is written, with what authorization
established of it. Every invariant of the canonical tables is proved by cases over it.

A write is described as the application leaves it, also when the application raised after it: the
row of a new customer or project stays in the session when its creator turns out to have no active
membership.

## Main definitions

* `VitrialSync.Canonical.ActiveCustomer`, `VitrialSync.Canonical.ActiveProject`,
  `VitrialSync.Canonical.ActiveSectorIn`, `VitrialSync.Canonical.ActiveItem` — canonical rows
  without a tombstone.
* `VitrialSync.CanonicalWrite` — the writes.

## Main results

* `VitrialSync.RecordStep.Valid.canonicalWrite` — every step of a push is one of these writes.
-/

namespace VitrialSync

open Python Program

namespace Canonical

/-- A canonical customer without a tombstone. -/
def ActiveCustomer (c : Canonical) (org id : Str) : Prop :=
  ∃ row, c.customers.get (org, id) = some row ∧ row.deletedAt = none

/-- A canonical project without a tombstone. -/
def ActiveProject (c : Canonical) (org id : Str) : Prop :=
  ∃ row, c.projects.get (org, id) = some row ∧ row.deletedAt = none

/-- A canonical sector of a project without a tombstone. -/
def ActiveSectorIn (c : Canonical) (org id projectId : Str) : Prop :=
  ∃ row, c.projectSectors.get (org, id) = some row ∧ row.deletedAt = none ∧
    row.projectId = projectId

/-- A canonical item without a tombstone. -/
def ActiveItem (c : Canonical) (org id : Str) : Prop :=
  ∃ row, c.items.get (org, id) = some row ∧ row.deletedAt = none

/-- A project without active sectors, items and children. -/
structure ProjectBare (c : Canonical) (org id : Str) : Prop where
  sectors : ∀ k row, c.projectSectors.get (org, k) = some row → row.projectId = id →
    row.deletedAt ≠ none
  items : ∀ k row, c.items.get (org, k) = some row → row.projectId = id → row.deletedAt ≠ none
  children : ∀ t k row, c.projectChildren.get (org, t, k) = some row → row.projectId = id →
    row.deletedAt ≠ none

end Canonical

/-- The writes to the canonical tables of an organization for a record of a given type, id and
tombstone, with what authorization established of the row. -/
inductive CanonicalWrite (org : Str) (entityType : EntityType) (id : Str)
    (deletedAt : Option DateTime) (c : Canonical) : Canonical → Prop
  | kept : CanonicalWrite org entityType id deletedAt c c
  /-- A tombstoned customer has no active project. -/
  | customer (htype : entityType = .customer)
      (hbare : deletedAt ≠ none → ∀ k p, c.projects.get (org, k) = some p → p.customerId = id →
        p.deletedAt ≠ none) :
      CanonicalWrite org entityType id deletedAt c
        { c with customers := c.customers.set (org, id) ⟨deletedAt⟩ }
  /-- The customer of a new project is active; the customer of a known one is not looked up. -/
  | project (customerId : Str) (htype : entityType = .project)
      (hnew : c.projects.get (org, id) = none → c.ActiveCustomer org customerId)
      (hold : ∀ old, c.projects.get (org, id) = some old → old.customerId = customerId)
      (hbare : deletedAt ≠ none → c.ProjectBare org id) :
      CanonicalWrite org entityType id deletedAt c
        { c with projects := c.projects.set (org, id) ⟨customerId, deletedAt⟩ }
  /-- The project of a sector is active, and a tombstoned sector has no active item. -/
  | projectSector (projectId sectorId : Str) (htype : entityType = .projectSector)
      (hparent : c.ActiveProject org projectId)
      (hold : ∀ old, c.projectSectors.get (org, id) = some old → old.projectId = projectId)
      (hbare : deletedAt ≠ none → ∀ k i, c.items.get (org, k) = some i →
        i.projectSectorId = some id → i.deletedAt ≠ none) :
      CanonicalWrite org entityType id deletedAt c
        { c with
          projectSectors := c.projectSectors.set (org, id) ⟨projectId, sectorId, deletedAt⟩ }
  /-- The project and the sector of an item are active, and a tombstoned item has no active
  child. -/
  | item (projectId projectSectorId : Str) (htype : entityType = .item)
      (hparent : c.ActiveProject org projectId)
      (hsector : c.ActiveSectorIn org projectSectorId projectId)
      (hbare : deletedAt ≠ none → ∀ t k i, c.itemChildren.get (org, t, k) = some i →
        i.itemId = id → i.deletedAt ≠ none) :
      CanonicalWrite org entityType id deletedAt c
        { c with items := c.items.set (org, id) ⟨projectId, some projectSectorId, deletedAt⟩ }
  /-- The project of a quotation or a delivery is active. -/
  | projectChild (projectId : Str) (htype : entityType.isProjectChild = true)
      (hparent : c.ActiveProject org projectId) :
      CanonicalWrite org entityType id deletedAt c
        { c with
          projectChildren := c.projectChildren.set (org, entityType, id) ⟨projectId, deletedAt⟩ }
  /-- The item of an item child is active. -/
  | itemChild (itemId : Str) (htype : entityType.isItemChild = true)
      (hparent : c.ActiveItem org itemId) :
      CanonicalWrite org entityType id deletedAt c
        { c with itemChildren := c.itemChildren.set (org, entityType, id) ⟨itemId, deletedAt⟩ }

namespace Ownership

section Parents

variable {db : Db} {principal : Principal} {scope : EffectiveScope}

/-- The project that a scope check returns is canonical and active. -/
lemma projectForScope_eq_ok {projectId : Str} {project : CanonicalProject}
    (h : projectForScope db principal scope projectId = .ok project) :
    db.projects.get (principal.organizationId, projectId) = some project ∧
      project.deletedAt = none := by
  unfold projectForScope at h
  split at h
  · cases h
  · rename_i row hget
    simp only [bind_eq_ok, raiseIf_eq_ok, pure_eq_ok] at h
    obtain ⟨-, hactive, -, -, rfl⟩ := h
    exact ⟨hget, by simpa using hactive⟩

/-- A project in scope is active. -/
lemma activeProject_of_scope {projectId : Str} {project : CanonicalProject}
    (h : projectForScope db principal scope projectId = .ok project) :
    db.canonical.ActiveProject principal.organizationId projectId :=
  ⟨project, (projectForScope_eq_ok h).1, (projectForScope_eq_ok h).2⟩

/-- The test of a sector. -/
lemma sectorActiveIn_iff {projectSectorId projectId : Str} :
    sectorActiveIn db principal projectSectorId projectId = true ↔
      db.canonical.ActiveSectorIn principal.organizationId projectSectorId projectId := by
  simp only [sectorActiveIn, Option.any_eq_true, Bool.and_eq_true, Option.isNone_iff_eq_none,
    beq_iff_eq, Canonical.ActiveSectorIn, Db.canonical]

/-- The item that a scope check returns is canonical and active. -/
lemma itemForScope_eq_ok {itemId : Str} {found : CanonicalItem × CanonicalProject}
    (h : itemForScope db principal scope itemId = .ok found) :
    db.items.get (principal.organizationId, itemId) = some found.1 ∧
      found.1.deletedAt = none := by
  unfold itemForScope at h
  split at h
  · cases h
  · rename_i row hget
    simp only [bind_eq_ok, raiseIf_eq_ok, pure_eq_ok] at h
    obtain ⟨-, hactive, -, -, project, -, -, -, rfl⟩ := h
    exact ⟨hget, by simpa using hactive⟩

/-- An item in scope is active. -/
lemma activeItem_of_scope {itemId : Str} {found : CanonicalItem × CanonicalProject}
    (h : itemForScope db principal scope itemId = .ok found) :
    db.canonical.ActiveItem principal.organizationId itemId :=
  ⟨found.1, (itemForScope_eq_ok h).1, (itemForScope_eq_ok h).2⟩

/-- The guard of a customer's tombstone. -/
lemma ensureCustomerDeleteSafe_eq_ok {customerId : Str}
    (h : ensureCustomerDeleteSafe db principal customerId = .ok ()) :
    ∀ k p, db.projects.get (principal.organizationId, k) = some p → p.customerId = customerId →
      p.deletedAt ≠ none := by
  simp only [ensureCustomerDeleteSafe, raiseIf_eq_ok, Table.any_eq_false_iff] at h
  rintro k p hget rfl hdeleted
  simpa [hdeleted] using h _ p hget

/-- The guard of a project's tombstone. -/
lemma ensureProjectDeleteSafe_eq_ok {projectId : Str}
    (h : ensureProjectDeleteSafe db principal projectId = .ok ()) :
    db.canonical.ProjectBare principal.organizationId projectId := by
  simp only [ensureProjectDeleteSafe, raiseIf_eq_ok, Bool.or_eq_false_iff,
    Table.any_eq_false_iff] at h
  obtain ⟨⟨hsectors, hitems⟩, hchildren⟩ := h
  refine ⟨?_, ?_, ?_⟩
  · rintro k row hget rfl hdeleted
    simpa [hdeleted] using hsectors _ row hget
  · rintro k row hget rfl hdeleted
    simpa [hdeleted] using hitems _ row hget
  · rintro t k row hget rfl hdeleted
    simpa [hdeleted] using hchildren _ row hget

/-- The guard of a sector's tombstone. -/
lemma ensureProjectSectorDeleteSafe_eq_ok {projectSectorId : Str}
    (h : ensureProjectSectorDeleteSafe db principal projectSectorId = .ok ()) :
    ∀ k i, db.items.get (principal.organizationId, k) = some i →
      i.projectSectorId = some projectSectorId → i.deletedAt ≠ none := by
  simp only [ensureProjectSectorDeleteSafe, raiseIf_eq_ok, Table.any_eq_false_iff] at h
  intro k i hget hsector hdeleted
  simpa [hdeleted, hsector] using h _ i hget

/-- The two guards of an item's tombstone: one for audit events, one for the other children. -/
lemma ensureItemDeleteSafe_eq_ok {itemId : Str}
    (haudit : itemHasImmutableAuditHistory db principal.organizationId itemId = false)
    (h : ensureItemDeleteSafe db principal itemId = .ok ()) :
    ∀ t k i, db.itemChildren.get (principal.organizationId, t, k) = some i → i.itemId = itemId →
      i.deletedAt ≠ none := by
  simp only [ensureItemDeleteSafe, raiseIf_eq_ok, Table.any_eq_false_iff] at h
  simp only [itemHasImmutableAuditHistory, Table.any_eq_false_iff] at haudit
  rintro t k i hget rfl hdeleted
  by_cases ht : t = .itemAuditEvent
  · subst ht
    simpa [hdeleted] using haudit _ i hget
  · simpa [hdeleted, ht] using h _ i hget

end Parents

section Writes

variable {env : Env} {principal : Principal} {w : Working} {id : Str} {payload : Dict}
  {deletedAt : Option DateTime} {known : Bool} {plan : OwnershipPlan}

/-- Customers. -/
lemma authorizeCustomer_write
    (h : authorizeCustomer w.db principal w.scope id payload deletedAt known = .ok plan) :
    CanonicalWrite principal.organizationId .customer id deletedAt w.db.canonical
      (applyOwnershipPlan principal plan w).2.db.canonical := by
  unfold authorizeCustomer at h
  dsimp only at h
  split at h
  · rename_i hget
    simp only [bind_eq_ok, raiseIf_eq_ok, pure_eq_ok] at h
    obtain ⟨-, -, -, hdeleting, -, -, -, -, rfl⟩ := h
    simp only [applyOwnershipPlan, applyCustomer, hget, (grantCreatedScope_frame _ _ _ _).2.1]
    refine .customer rfl fun hdeleted => ?_
    exact absurd (by simpa using hdeleting) hdeleted
  · rename_i row hget
    simp only [bind_eq_ok, ite_bind_eq_ok, raiseIf_eq_ok, pure_eq_ok] at h
    obtain ⟨-, -, -, -, -, -, _, hsafe, rfl⟩ := h
    simp only [applyOwnershipPlan, applyCustomer, hget]
    refine .customer rfl fun hdeleted => ?_
    rw [if_pos (Option.isSome_iff_ne_none.mpr hdeleted)] at hsafe
    exact ensureCustomerDeleteSafe_eq_ok hsafe

/-- Projects. -/
lemma authorizeProject_write
    (h : authorizeProject w.db principal w.scope id payload deletedAt known = .ok plan) :
    CanonicalWrite principal.organizationId .project id deletedAt w.db.canonical
      (applyOwnershipPlan principal plan w).2.db.canonical := by
  unfold authorizeProject at h
  dsimp only at h
  split at h
  · rename_i hget
    simp only [bind_eq_ok, raiseIf_eq_ok, pure_eq_ok] at h
    obtain ⟨-, -, -, hdeleting, -, -, -, -, customerId, -, -, hcustomer, -, -, rfl⟩ := h
    simp only [applyOwnershipPlan, applyProject, hget, (grantCreatedScope_frame _ _ _ _).2.1]
    refine .project customerId rfl (fun _ => ?_) (fun old hold => ?_) fun hdeleted => ?_
    · simpa [Canonical.ActiveCustomer, Db.canonical, Option.any_eq_true] using hcustomer
    · exact absurd (hget.symm.trans hold) (by simp)
    · exact absurd (by simpa using hdeleting) hdeleted
  · rename_i row hget
    simp only [bind_eq_ok, ite_bind_eq_ok, raiseIf_eq_ok, pure_eq_ok] at h
    obtain ⟨-, -, -, -, -, -, -, -, _, hsafe, rfl⟩ := h
    simp only [applyOwnershipPlan, applyProject, hget, ne_eq, not_true_eq_false, ↓reduceIte]
    refine .project row.customerId rfl (fun hnone => ?_) (fun old hold => ?_) fun hdeleted => ?_
    · exact absurd (hget.symm.trans hnone) (by simp)
    · rw [Option.some.inj (hget.symm.trans hold)]
    · rw [if_pos (Option.isSome_iff_ne_none.mpr hdeleted)] at hsafe
      exact ensureProjectDeleteSafe_eq_ok hsafe

/-- Project sectors. -/
lemma authorizeProjectSector_write
    (h : authorizeProjectSector w.db principal w.scope id payload deletedAt known = .ok plan) :
    CanonicalWrite principal.organizationId .projectSector id deletedAt w.db.canonical
      (applyOwnershipPlan principal plan w).2.db.canonical := by
  unfold authorizeProjectSector at h
  dsimp only at h
  split at h
  · rename_i hget
    simp only [bind_eq_ok, raiseIf_eq_ok, pure_eq_ok] at h
    obtain ⟨-, -, -, hdeleting, -, -, -, -, projectId, -, sectorId, -, project, hproject, rfl⟩ := h
    simp only [applyOwnershipPlan, applyProjectSector, hget]
    refine .projectSector projectId sectorId rfl (activeProject_of_scope hproject)
      (fun old hold => ?_) fun hdeleted => ?_
    · exact absurd (hget.symm.trans hold) (by simp)
    · exact absurd (by simpa using hdeleting) hdeleted
  · rename_i row hget
    simp only [bind_eq_ok, ite_bind_eq_ok, pure_eq_ok] at h
    obtain ⟨-, -, project, hproject, -, -, -, -, -, -, _, hsafe, rfl⟩ := h
    simp only [applyOwnershipPlan, applyProjectSector, hget, ne_eq, not_true_eq_false, or_self,
      ↓reduceIte]
    refine .projectSector row.projectId row.sectorId rfl (activeProject_of_scope hproject)
      (fun old hold => ?_) fun hdeleted => ?_
    · rw [Option.some.inj (hget.symm.trans hold)]
    · rw [if_pos (Option.isSome_iff_ne_none.mpr hdeleted)] at hsafe
      exact ensureProjectSectorDeleteSafe_eq_ok hsafe

/-- Items. -/
lemma authorizeItem_write
    (haudit : deletedAt.isSome →
      itemHasImmutableAuditHistory w.db principal.organizationId id = false)
    (h : authorizeItem w.db principal w.scope id payload deletedAt known = .ok plan) :
    CanonicalWrite principal.organizationId .item id deletedAt w.db.canonical
      (applyOwnershipPlan principal plan w).2.db.canonical := by
  unfold authorizeItem at h
  dsimp only at h
  split at h
  · rename_i hget
    simp only [bind_eq_ok, raiseIf_eq_ok, pure_eq_ok] at h
    obtain ⟨-, -, -, hdeleting, -, -, -, -, projectId, -, sectorId, -, project, hproject, -,
      hsector, rfl⟩ := h
    simp only [applyOwnershipPlan, applyItem, hget]
    refine .item projectId sectorId rfl (activeProject_of_scope hproject)
      (sectorActiveIn_iff.mp (by simpa using hsector)) fun hdeleted => ?_
    exact absurd (by simpa using hdeleting) hdeleted
  · rename_i row hget
    simp only [bind_eq_ok, ite_bind_eq_ok, raiseIf_eq_ok, pure_eq_ok] at h
    obtain ⟨-, -, -, hlacks, project, hproject, -, hsector, -, -, -, -, -, -, _, hsafe, rfl⟩ := h
    obtain ⟨projectId, sector?, oldDeletedAt⟩ := row
    cases sector? with
    | none => simp [lacksSector] at hlacks
    | some sectorId =>
      simp only [applyOwnershipPlan, applyItem, hget, ne_eq, not_true_eq_false, or_self,
        ↓reduceIte]
      refine .item projectId sectorId rfl (activeProject_of_scope hproject)
        (sectorActiveIn_iff.mp (by simpa using hsector)) fun hdeleted => ?_
      have hsome := Option.isSome_iff_ne_none.mpr hdeleted
      rw [if_pos hsome] at hsafe
      exact ensureItemDeleteSafe_eq_ok (haudit hsome) hsafe

/-- The application to an item child. -/
lemma applyOwnershipPlan_itemChild {entityType : EntityType}
    (htype : entityType.isItemChild = true) (hplan : plan.entityType = entityType) :
    applyOwnershipPlan principal plan w = applyItemChild principal plan w := by
  subst hplan
  cases ht : plan.entityType <;> simp [ht, EntityType.isItemChild, applyOwnershipPlan] at htype ⊢

/-- Item children. -/
lemma authorizeItemChild_write {entityType : EntityType} (htype : entityType.isItemChild = true)
    (h : authorizeItemChild env w.db principal w.scope entityType id payload deletedAt known =
      .ok plan) :
    CanonicalWrite principal.organizationId entityType id deletedAt w.db.canonical
      (applyOwnershipPlan principal plan w).2.db.canonical := by
  simp only [authorizeItemChild, bind_eq_ok, raiseIf_eq_ok, pure_eq_ok] at h
  obtain ⟨-, -, -, -, -, -, -, -, -, -, itemId, -, found, hfound, -, -, rfl⟩ := h
  rw [applyOwnershipPlan_itemChild htype rfl]
  simp only [applyItemChild]
  split
  · exact .itemChild itemId htype (activeItem_of_scope hfound)
  · rename_i row hrow
    split_ifs with hsame
    · exact .kept
    · obtain rfl : row.itemId = itemId := by simpa using hsame
      exact .itemChild row.itemId htype (activeItem_of_scope hfound)

/-- Quotations. -/
lemma authorizeQuotation_write
    (h : authorizeQuotation env w.db principal w.scope id payload deletedAt known = .ok plan) :
    CanonicalWrite principal.organizationId .quotation id deletedAt w.db.canonical
      (applyOwnershipPlan principal plan w).2.db.canonical := by
  simp only [authorizeQuotation, bind_eq_ok, ite_bind_eq_ok, pure_eq_ok] at h
  obtain ⟨projectId, -, project, hproject, -, -, rfl⟩ := h
  have hparent := activeProject_of_scope hproject
  simp only [applyOwnershipPlan, applyProjectChild]
  split
  · exact .projectChild projectId rfl hparent
  · rename_i row hrow
    split_ifs with hsame
    · exact .kept
    · obtain rfl : row.projectId = projectId := by simpa using hsame
      exact .projectChild row.projectId rfl hparent

end Writes

/-- **Authorized writes.** What `authorize_record` lets through is one of the canonical writes.

**Proof sketch.** One lemma for each branch of `authorize_record`. -/
theorem authorizeRecord_write {env : Env} {principal : Principal} {w : Working}
    {entityType : EntityType} {id : Str} {payload : Dict} {deletedAt : Option DateTime}
    {known : Bool} {plan : OwnershipPlan}
    (haudit : entityType = .item → deletedAt.isSome →
      itemHasImmutableAuditHistory w.db principal.organizationId id = false)
    (h : authorizeRecord env w.db principal w.scope entityType id payload deletedAt known =
      .ok plan) :
    CanonicalWrite principal.organizationId entityType id deletedAt w.db.canonical
      (applyOwnershipPlan principal plan w).2.db.canonical := by
  cases entityType with
  | customer => exact authorizeCustomer_write h
  | project => exact authorizeProject_write h
  | projectSector => exact authorizeProjectSector_write h
  | item => exact authorizeItem_write (haudit rfl) h
  | quotation => exact authorizeQuotation_write h
  | deliveryExecution => cases h
  | _ => exact authorizeItemChild_write rfl h

/-- A plan is for the record it was made for. -/
lemma authorizeRecord_plan {env : Env} {db : Db} {principal : Principal} {scope : EffectiveScope}
    {entityType : EntityType} {id : Str} {payload : Dict} {deletedAt : Option DateTime}
    {known : Bool} {plan : OwnershipPlan}
    (h : authorizeRecord env db principal scope entityType id payload deletedAt known = .ok plan) :
    plan.entityType = entityType ∧ plan.entityId = id := by
  have hchild : ∀ t, authorizeItemChild env db principal scope t id payload deletedAt known =
      .ok plan → plan.entityType = t ∧ plan.entityId = id := by
    intro t h
    simp only [authorizeItemChild, bind_eq_ok, pure_eq_ok] at h
    grind
  cases entityType with
  | customer =>
    simp only [authorizeRecord, authorizeCustomer] at h
    split at h <;> simp only [bind_eq_ok, ite_bind_eq_ok, pure_eq_ok] at h <;> grind
  | project =>
    simp only [authorizeRecord, authorizeProject] at h
    split at h <;> simp only [bind_eq_ok, ite_bind_eq_ok, pure_eq_ok] at h <;> grind
  | projectSector =>
    simp only [authorizeRecord, authorizeProjectSector] at h
    split at h <;> simp only [bind_eq_ok, ite_bind_eq_ok, pure_eq_ok] at h <;> grind
  | item =>
    simp only [authorizeRecord, authorizeItem] at h
    split at h <;> simp only [bind_eq_ok, ite_bind_eq_ok, pure_eq_ok] at h <;> grind
  | quotation =>
    simp only [authorizeRecord, authorizeQuotation, bind_eq_ok, ite_bind_eq_ok, pure_eq_ok] at h
    grind
  | deliveryExecution => cases h
  | _ => exact hchild _ h

end Ownership

namespace Delivery

/-- The project of an authorized delivery is active. -/
lemma requireProject_eq_ok {db : Db} {principal : Principal} {scope : EffectiveScope}
    {projectId customerId : Str} (h : requireProject db principal scope projectId customerId = .ok ()) :
    db.canonical.ActiveProject principal.organizationId projectId := by
  unfold requireProject at h
  split at h
  · cases h
  · rename_i row hget
    simp only [bind_eq_ok, raiseIf_eq_ok] at h
    exact ⟨row, hget, by simpa using h.choose_spec.1⟩

/-- An authorized delivery is no tombstone and belongs to an active project. -/
lemma authorizeDeliveryExecution_project {db : Db} {principal : Principal}
    {scope : EffectiveScope} {id : Str} {payload : Dict} {deletedAt : Option DateTime}
    {current : Option SyncEntity} {projectId : Str}
    (h : authorizeDeliveryExecution db principal scope id payload deletedAt current =
      .ok projectId) :
    deletedAt = none ∧ db.canonical.ActiveProject principal.organizationId projectId := by
  simp only [authorizeDeliveryExecution, bind_eq_ok, raiseIf_eq_ok] at h
  obtain ⟨-, -, -, hdeleted, currentPayload, -, -, -, h⟩ := h
  split at h
  · simp only [bind_eq_ok, raiseIf_eq_ok, pure_eq_ok] at h
    obtain ⟨_, hproject, -, -, -, -, -, -, rfl⟩ := h
    exact ⟨by simpa using hdeleted, requireProject_eq_ok hproject⟩
  · cases h

/-- Deliveries. -/
lemma authorizeDeliveryExecution_write {principal : Principal} {w : Working} {id : Str}
    {payload : Dict} {deletedAt : Option DateTime} {current : Option SyncEntity} {projectId : Str}
    (h : authorizeDeliveryExecution w.db principal w.scope id payload deletedAt current =
      .ok projectId) :
    CanonicalWrite principal.organizationId .deliveryExecution id deletedAt w.db.canonical
      (applyDeliveryExecutionOwnership principal id projectId w).2.db.canonical := by
  obtain ⟨rfl, hparent⟩ := authorizeDeliveryExecution_project h
  simp only [applyDeliveryExecutionOwnership]
  split
  · exact .projectChild projectId rfl hparent
  · split_ifs <;> exact .kept

end Delivery

/-- The checks on a customer or a project are those of `authorize_record`. -/
lemma authorize_owner {env : Env} {principal : Principal} {w : Working} {record : SyncRecord}
    {current : Option SyncEntity} {payload : Dict} {grant : Authorized}
    (htype : record.entityType = .customer ∨ record.entityType = .project) :
    authorize env principal w record current payload = .ok grant ↔
      ∃ plan, Ownership.authorizeRecord env w.db principal w.scope record.entityType
        record.entityID.text payload record.deletedAt current.isSome = .ok plan ∧
        grant = .ownership plan := by
  have hcontract : requireAssemblyContract env record.entityType payload = .ok () := by
    rcases htype with htype | htype <;> rw [htype] <;> rfl
  have hlifecycle : Lifecycle.validateLifecycleMutation w.db principal record.entityType
      record.entityID.text payload record.deletedAt current = .ok () := by
    rcases htype with htype | htype <;>
      simp only [Lifecycle.validateLifecycleMutation, htype, ite_self]
  have hitem : record.entityType ≠ .item := by rcases htype with htype | htype <;> simp [htype]
  have hdelivery : record.entityType ≠ .deliveryExecution := by
    rcases htype with htype | htype <;> simp [htype]
  rw [authorize_eq_ok_iff]
  constructor
  · rintro ⟨-, -, ⟨hcontra, -⟩ | ⟨-, -, hplan⟩⟩
    · exact absurd hcontra hdelivery
    · exact hplan
  · intro hplan
    exact ⟨hcontract, fun h => absurd h hitem, Or.inr ⟨hdelivery, hlifecycle, hplan⟩⟩

/-- An ownership plan comes from `authorize_record`. -/
lemma authorize_plan {env : Env} {principal : Principal} {w : Working} {record : SyncRecord}
    {current : Option SyncEntity} {payload : Dict} {plan : Ownership.OwnershipPlan}
    (h : authorize env principal w record current payload = .ok (.ownership plan)) :
    Ownership.authorizeRecord env w.db principal w.scope record.entityType record.entityID.text
      payload record.deletedAt current.isSome = .ok plan := by
  obtain ⟨-, -, ⟨-, projectId, -, hgrant⟩ | ⟨-, -, plan', hplan, hgrant⟩⟩ := authorize_eq_ok_iff.mp h
  · cases hgrant
  · obtain rfl := Authorized.ownership.inj hgrant
    exact hplan

/-- What the `try` block lets through is one of the canonical writes. -/
lemma authorize_write {env : Env} {principal : Principal} {w : Working} {record : SyncRecord}
    {current : Option SyncEntity} {payload : Dict} {grant : Authorized}
    (h : authorize env principal w record current payload = .ok grant) :
    CanonicalWrite principal.organizationId record.entityType record.entityID.text record.deletedAt
      w.db.canonical (grant.apply principal record w).2.db.canonical := by
  obtain ⟨-, haudit, ⟨htype, projectId, hauth, rfl⟩ | ⟨-, -, plan, hplan, rfl⟩⟩ :=
    authorize_eq_ok_iff.mp h
  · rw [htype]
    exact Delivery.authorizeDeliveryExecution_write hauth
  · exact Ownership.authorizeRecord_write haudit hplan

/-- **Steps.** Every step of a push writes at most one canonical row of the principal's
organization, in one of the listed ways. -/
theorem RecordStep.Valid.canonicalWrite {env : Env} {s : RecordStep} (h : s.Valid env) :
    CanonicalWrite s.input.principal.organizationId s.record.entityType s.record.entityID.text
      s.record.deletedAt s.before.db.canonical s.after.db.canonical := by
  rcases h.canonical with heq | ⟨payload, grant, -, -, -, hauth, heq⟩
  · rw [heq]
    exact .kept
  · rw [heq]
    exact authorize_write hauth

end VitrialSync
