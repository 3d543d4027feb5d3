import VitrialSync.Server.OwnershipLinks

set_option relaxedAutoImplicit false
set_option autoImplicit false

/-!
# Confinement to a scope

A principal writes inside its scope of customers and projects, and inside what its batch has
created so far: the scope of a batch grows with every customer and project whose row it adds. Every
record that a batch commits belongs, through the canonical parents of its row, to a customer and a
project of that scope; and what the payload refers to belongs to the same project.

A record that is answered from an earlier mutation is not authorized again, whoever repeats it.

## Main definitions

* `VitrialSync.Canonical.projectOf`, `VitrialSync.Canonical.customerOf` — where an entity belongs.
* `VitrialSync.CustomerConfined`, `VitrialSync.ProjectConfined` — in the scope of a principal, or
  created in the batch.
* `VitrialSync.References` — the entities that a payload is validated against.
* `VitrialSync.EntitiesOwned` — every stored entity has a canonical row.

## Main results

* `VitrialSync.Confined`, `VitrialSync.pushSteps_confined` — confinement of the records of a batch.
-/

namespace VitrialSync

open Python Program

/-! ### Where an entity belongs -/

/-- The project of an entity, through its canonical parents. -/
def Canonical.projectOf (c : Canonical) (key : EntityKey) : Option Str :=
  match key with
  | (_, .customer, _) => none
  | (org, .project, id) => (c.projects.get (org, id)).map fun _ => id
  | (org, .projectSector, id) => (c.projectSectors.get (org, id)).map fun row => row.projectId
  | (org, .item, id) => (c.items.get (org, id)).map fun row => row.projectId
  | (_, .quotation, _) | (_, .deliveryExecution, _) =>
    (c.projectChildren.get key).map fun row => row.projectId
  | (org, _, _) => (c.itemChildren.get key).bind fun row =>
    (c.items.get (org, row.itemId)).map fun item => item.projectId

/-- The customer of an entity, through its canonical parents. -/
def Canonical.customerOf (c : Canonical) (key : EntityKey) : Option Str :=
  match key with
  | (org, .customer, id) => (c.customers.get (org, id)).map fun _ => id
  | (org, _, _) => (c.projectOf key).bind fun projectId =>
    (c.projects.get (org, projectId)).map fun row => row.customerId

/-- The project of an item child. -/
lemma Canonical.projectOf_itemChild {entityType : EntityType}
    (htype : entityType.isItemChild = true) (c : Canonical) (org id : Str) :
    c.projectOf (org, entityType, id) = (c.itemChildren.get (org, entityType, id)).bind fun row =>
      (c.items.get (org, row.itemId)).map fun item => item.projectId := by
  revert htype
  cases entityType <;> simp [EntityType.isItemChild, Canonical.projectOf]

/-- The customer of an entity below a project. -/
lemma Canonical.customerOf_eq {c : Canonical} {org id projectId : Str} {entityType : EntityType}
    {row : CanonicalProject} (htype : entityType ≠ .customer)
    (hproject : c.projectOf (org, entityType, id) = some projectId)
    (hrow : c.projects.get (org, projectId) = some row) :
    c.customerOf (org, entityType, id) = some row.customerId := by
  have hcustomer : c.customerOf (org, entityType, id) =
      (c.projectOf (org, entityType, id)).bind fun projectId =>
        (c.projects.get (org, projectId)).map fun row => row.customerId := by
    revert htype
    cases entityType <;> simp [Canonical.customerOf]
  rw [hcustomer, hproject, Option.bind_some, hrow]
  rfl

/-- Entities stay in their project. -/
lemma Canonical.LinksKept.projectOf {c c' : Canonical} (h : c.LinksKept c') {key : EntityKey}
    {projectId : Str} (hproject : c.projectOf key = some projectId) :
    c'.projectOf key = some projectId := by
  obtain ⟨org, entityType, id⟩ := key
  cases entityType with
  | customer => cases hproject
  | project =>
    obtain ⟨row, hrow, rfl⟩ := Option.map_eq_some_iff.mp hproject
    obtain ⟨row', hrow', -⟩ := h.projects _ _ hrow
    exact Option.map_eq_some_iff.mpr ⟨row', hrow', rfl⟩
  | projectSector =>
    obtain ⟨row, hrow, rfl⟩ := Option.map_eq_some_iff.mp hproject
    obtain ⟨row', hrow', hread⟩ := h.projectSectors _ _ hrow
    exact Option.map_eq_some_iff.mpr ⟨row', hrow', (Prod.mk.inj hread).1⟩
  | item =>
    obtain ⟨row, hrow, rfl⟩ := Option.map_eq_some_iff.mp hproject
    obtain ⟨row', hrow', hread⟩ := h.items _ _ hrow
    exact Option.map_eq_some_iff.mpr ⟨row', hrow', (Prod.mk.inj hread).1⟩
  | quotation | deliveryExecution =>
    obtain ⟨row, hrow, rfl⟩ := Option.map_eq_some_iff.mp hproject
    obtain ⟨row', hrow', hread⟩ := h.projectChildren _ _ hrow
    exact Option.map_eq_some_iff.mpr ⟨row', hrow', hread⟩
  | _ =>
    obtain ⟨row, hrow, hitem⟩ := Option.bind_eq_some_iff.mp hproject
    obtain ⟨item, hget, rfl⟩ := Option.map_eq_some_iff.mp hitem
    obtain ⟨row', hrow', hread⟩ := h.itemChildren _ _ hrow
    obtain ⟨item', hget', hread'⟩ := h.items _ _ hget
    refine Option.bind_eq_some_iff.mpr ⟨row', hrow', ?_⟩
    rw [hread]
    exact Option.map_eq_some_iff.mpr ⟨item', hget', (Prod.mk.inj hread').1⟩

/-! ### The row of an applied record -/

namespace Ownership

variable {principal : Principal} {plan : OwnershipPlan} {w applied : Working}

/-- The row of an applied customer. -/
lemma applyCustomer_row (h : applyCustomer principal plan w = (.ok (), applied)) :
    (applied.db.customers.get (principal.organizationId, plan.entityId)).isSome := by
  unfold applyCustomer at h
  dsimp only at h
  split at h
  · have hframe := (grantCreatedScope_frame principal (some plan.entityId) none
      (withCustomer principal plan w)).2.1
    rw [h] at hframe
    have hcustomers : applied.db.customers = (withCustomer principal plan w).db.customers :=
      congrArg Canonical.customers hframe
    rw [hcustomers, withCustomer, Table.get_set_self]
    rfl
  · obtain rfl := (Prod.mk.inj h).2
    rw [Table.get_set_self]
    rfl

/-- The row of an applied project has the customer of the plan. -/
lemma applyProject_row (h : applyProject principal plan w = (.ok (), applied)) :
    ∃ row, applied.db.projects.get (principal.organizationId, plan.entityId) = some row ∧
      plan.customerId = some row.customerId := by
  unfold applyProject at h
  dsimp only at h
  split at h
  · cases (Prod.mk.inj h).1
  · rename_i customerId hcustomerId
    split at h
    · have hframe := (grantCreatedScope_frame principal none (some plan.entityId)
        (withProject principal plan customerId w)).2.1
      rw [h] at hframe
      have hprojects : applied.db.projects =
          (withProject principal plan customerId w).db.projects :=
        congrArg Canonical.projects hframe
      rw [hprojects]
      exact ⟨_, Table.get_set_self _ _ _, hcustomerId⟩
    · split_ifs at h with hsame
      · cases (Prod.mk.inj h).1
      · obtain rfl := (Prod.mk.inj h).2
        refine ⟨_, Table.get_set_self _ _ _, hcustomerId.trans ?_⟩
        rw [not_not.mp hsame]

/-- The row of an applied project sector has the project of the plan. -/
lemma applyProjectSector_row (h : applyProjectSector principal plan w = (.ok (), applied)) :
    ∃ row, applied.db.projectSectors.get (principal.organizationId, plan.entityId) = some row ∧
      plan.projectId = some row.projectId := by
  unfold applyProjectSector at h
  dsimp only at h
  split at h
  · rename_i projectId sectorId hprojectId hsectorId
    split at h
    · obtain rfl := (Prod.mk.inj h).2
      exact ⟨_, Table.get_set_self _ _ _, hprojectId⟩
    · split_ifs at h with hsame
      · cases (Prod.mk.inj h).1
      · obtain rfl := (Prod.mk.inj h).2
        rw [not_or, not_not, not_not] at hsame
        exact ⟨_, Table.get_set_self _ _ _, hprojectId.trans (by rw [hsame.1])⟩
  · cases (Prod.mk.inj h).1

/-- The row of an applied item has the project of the plan. -/
lemma applyItem_row (h : applyItem principal plan w = (.ok (), applied)) :
    ∃ row, applied.db.items.get (principal.organizationId, plan.entityId) = some row ∧
      plan.projectId = some row.projectId := by
  unfold applyItem at h
  dsimp only at h
  split at h
  · rename_i projectId sectorId hprojectId hsectorId
    split at h
    · obtain rfl := (Prod.mk.inj h).2
      exact ⟨_, Table.get_set_self _ _ _, hprojectId⟩
    · split_ifs at h with hsame
      · cases (Prod.mk.inj h).1
      · obtain rfl := (Prod.mk.inj h).2
        rw [not_or, not_not, not_not] at hsame
        exact ⟨_, Table.get_set_self _ _ _, hprojectId.trans (by rw [hsame.1])⟩
  · cases (Prod.mk.inj h).1

/-- The row of an applied project child has the project of the plan. -/
lemma applyProjectChild_row (h : applyProjectChild principal plan w = (.ok (), applied)) :
    ∃ row, applied.db.projectChildren.get
        (principal.organizationId, plan.entityType, plan.entityId) = some row ∧
      plan.projectId = some row.projectId := by
  unfold applyProjectChild at h
  dsimp only at h
  split at h
  · cases (Prod.mk.inj h).1
  · rename_i projectId hprojectId
    split at h
    · obtain rfl := (Prod.mk.inj h).2
      exact ⟨_, Table.get_set_self _ _ _, hprojectId⟩
    · split_ifs at h with hsame
      · cases (Prod.mk.inj h).1
      · obtain rfl := (Prod.mk.inj h).2
        exact ⟨_, Table.get_set_self _ _ _, hprojectId.trans (by rw [not_not.mp hsame])⟩

/-- The row of an applied item child has the item of the plan. -/
lemma applyItemChild_row (h : applyItemChild principal plan w = (.ok (), applied)) :
    ∃ row, applied.db.itemChildren.get
        (principal.organizationId, plan.entityType, plan.entityId) = some row ∧
      plan.itemId = some row.itemId := by
  unfold applyItemChild at h
  dsimp only at h
  split at h
  · cases (Prod.mk.inj h).1
  · rename_i itemId hitemId
    split at h
    · obtain rfl := (Prod.mk.inj h).2
      exact ⟨_, Table.get_set_self _ _ _, hitemId⟩
    · split_ifs at h with hsame
      · cases (Prod.mk.inj h).1
      · obtain rfl := (Prod.mk.inj h).2
        exact ⟨_, Table.get_set_self _ _ _, hitemId.trans (by rw [not_not.mp hsame])⟩

end Ownership

/-! ### The scope of a batch -/

/-- A customer in the scope of a principal, or created since the batch started. -/
def CustomerConfined (principal : Principal) (start : Db) (c : Canonical) (id : Str) : Prop :=
  (EffectiveScope.fromPrincipal principal).canAccessCustomer id = true ∨
    start.customers.get (principal.organizationId, id) = none ∧
      (c.customers.get (principal.organizationId, id)).isSome

/-- A project in the scope of a principal, or created since the batch started. -/
def ProjectConfined (principal : Principal) (start : Db) (c : Canonical) (id : Str) : Prop :=
  (principal.allProjects = true ∨ id ∈ principal.projectIds) ∨
    start.projects.get (principal.organizationId, id) = none ∧
      (c.projects.get (principal.organizationId, id)).isSome

/-- The scope of a batch has grown by what the batch created, and no row that was there at the
start is lost. -/
structure ScopeGrown (principal : Principal) (start : Db) (w : Working) : Prop where
  kept : start.canonical.LinksKept w.db.canonical
  customers : ∀ id, w.scope.canAccessCustomer id = true →
    CustomerConfined principal start w.db.canonical id
  projects : ∀ id, (w.scope.allProjects = true ∨ id ∈ w.scope.projectIds) →
    ProjectConfined principal start w.db.canonical id

/-- Confinement lasts while rows are kept. -/
lemma CustomerConfined.mono {principal : Principal} {start : Db} {c c' : Canonical} {id : Str}
    (h : CustomerConfined principal start c id) (hkept : c.LinksKept c') :
    CustomerConfined principal start c' id := by
  refine h.imp_right fun hnew => ⟨hnew.1, ?_⟩
  obtain ⟨row, hrow⟩ := Option.isSome_iff_exists.mp hnew.2
  obtain ⟨row', hrow', -⟩ := hkept.customers _ _ hrow
  rw [hrow']
  rfl

/-- Confinement lasts while rows are kept. -/
lemma ProjectConfined.mono {principal : Principal} {start : Db} {c c' : Canonical} {id : Str}
    (h : ProjectConfined principal start c id) (hkept : c.LinksKept c') :
    ProjectConfined principal start c' id := by
  refine h.imp_right fun hnew => ⟨hnew.1, ?_⟩
  obtain ⟨row, hrow⟩ := Option.isSome_iff_exists.mp hnew.2
  obtain ⟨row', hrow', -⟩ := hkept.projects _ _ hrow
  rw [hrow']
  rfl

/-- The ways the scope of a batch grows: not at all, by a customer without a row, or by a project
without a row. -/
inductive ScopeStep (org : Str) (entityType : EntityType) (id : Str) (w w' : Working) : Prop
  | kept (hscope : w'.scope = w.scope)
  | customer (htype : entityType = .customer) (hnew : w.db.customers.get (org, id) = none)
      (hrow : (w'.db.customers.get (org, id)).isSome) (hscope : w'.scope = w.scope.addCustomer id)
  | project (htype : entityType = .project) (hnew : w.db.projects.get (org, id) = none)
      (hrow : (w'.db.projects.get (org, id)).isSome) (hscope : w'.scope = w.scope.addProject id)

/-- The application of an authorization grows the scope by the customer or the project that it
creates, whether or not it raises. -/
lemma applied_scope {env : Env} {principal : Principal} {record : SyncRecord} {w : Working}
    {current : Option SyncEntity} {payload : Dict} {grant : Authorized}
    (h : authorize env principal w record current payload = .ok grant) :
    ScopeStep principal.organizationId record.entityType record.entityID.text w
      (grant.apply principal record w).2 := by
  have hplan : ∀ plan, grant = .ownership plan →
      plan.entityType = record.entityType ∧ plan.entityId = record.entityID.text := by
    rintro plan rfl
    exact Ownership.authorizeRecord_plan (authorize_plan h)
  have happlication := apply_application principal record w grant
  generalize grant.apply principal record w = applied at happlication ⊢
  cases happlication with
  | raised e => exact .kept rfl
  | written c => exact .kept rfl
  | customer plan hgrant htype hnew =>
    obtain ⟨htype', hid⟩ := hplan plan hgrant
    rw [hid] at hnew
    obtain ⟨-, hcanonical, hscope⟩ := grantCreatedScope_frame principal (some plan.entityId) none
      (Ownership.withCustomer principal plan w)
    refine .customer (htype'.symm.trans htype) hnew ?_ (hscope.trans (by rw [← hid]; rfl))
    have hcustomers := congrArg Canonical.customers hcanonical
    dsimp only [Db.canonical] at hcustomers
    rw [hcustomers, ← hid, Ownership.withCustomer, Table.get_set_self]
    rfl
  | project plan customerId hgrant htype hnew =>
    obtain ⟨htype', hid⟩ := hplan plan hgrant
    rw [hid] at hnew
    obtain ⟨-, hcanonical, hscope⟩ := grantCreatedScope_frame principal none (some plan.entityId)
      (Ownership.withProject principal plan customerId w)
    refine .project (htype'.symm.trans htype) hnew ?_ (hscope.trans (by rw [← hid]; rfl))
    have hprojects := congrArg Canonical.projects hcanonical
    dsimp only [Db.canonical] at hprojects
    rw [hprojects, ← hid, Ownership.withProject, Table.get_set_self]
    rfl

/-- Only the scope and the canonical tables matter. -/
lemma ScopeStep.congr {org id : Str} {entityType : EntityType} {w w₁ w' : Working}
    (h : ScopeStep org entityType id w w₁) (hscope : w'.scope = w₁.scope)
    (hcanonical : w'.db.canonical = w₁.db.canonical) : ScopeStep org entityType id w w' := by
  have hcustomers : w'.db.customers = w₁.db.customers := congrArg Canonical.customers hcanonical
  have hprojects : w'.db.projects = w₁.db.projects := congrArg Canonical.projects hcanonical
  cases h with
  | kept hscope' => exact .kept (hscope.trans hscope')
  | customer htype hnew hrow hscope' =>
    exact .customer htype hnew (by rwa [hcustomers]) (hscope.trans hscope')
  | project htype hnew hrow hscope' =>
    exact .project htype hnew (by rwa [hprojects]) (hscope.trans hscope')

/-- **Step.** The scope grows by what a step creates. -/
lemma RecordStep.Valid.scopeStep {env : Env} {s : RecordStep} (h : s.Valid env) :
    ScopeStep s.input.principal.organizationId s.record.entityType s.record.entityID.text s.before
      s.after := by
  obtain ⟨input, before, record, after, outcome⟩ := s
  have hsettles := h.settles
  dsimp only at hsettles
  cases hsettles with
  | unnamed hm => exact .kept rfl
  | answered hm hp => exact .kept rfl
  | stale hm hp hs => exact .kept rfl
  | refused hm hp hs ha hc =>
    rename_i mutationId e w'
    rcases attempt_eq_error ha with rfl | ⟨payload, grant, -, hauth, happly⟩
    · exact .kept rfl
    · have hstep := applied_scope hauth
      rw [happly] at hstep
      exact hstep.congr rfl rfl
  | committed hm hp hs ha =>
    rename_i mutationId payload w'
    obtain ⟨grant, applied, hadmitted, rfl⟩ := attempt_eq_ok ha
    have hstep := applied_scope hadmitted.authorized
    rw [hadmitted.applied] at hstep
    exact hstep.congr (queueEvidenceGc_scope env input.now input.principal record applied)
      (queueEvidenceGc_frame env input.now input.principal record applied).2

/-- What the batch has not seen at its start is new. -/
lemma ScopeGrown.customer_new {principal : Principal} {start : Db} {w : Working}
    (h : ScopeGrown principal start w) {id : Str}
    (hnew : w.db.customers.get (principal.organizationId, id) = none) :
    start.customers.get (principal.organizationId, id) = none := by
  rw [Option.eq_none_iff_forall_ne_some]
  intro row hrow
  obtain ⟨row', hrow', -⟩ := h.kept.customers _ row hrow
  cases hnew.symm.trans hrow'

/-- What the batch has not seen at its start is new. -/
lemma ScopeGrown.project_new {principal : Principal} {start : Db} {w : Working}
    (h : ScopeGrown principal start w) {id : Str}
    (hnew : w.db.projects.get (principal.organizationId, id) = none) :
    start.projects.get (principal.organizationId, id) = none := by
  rw [Option.eq_none_iff_forall_ne_some]
  intro row hrow
  obtain ⟨row', hrow', -⟩ := h.kept.projects _ row hrow
  cases hnew.symm.trans hrow'

/-- **Step.** A step of a batch keeps the scope within what the batch created. -/
lemma RecordStep.Valid.scopeGrown {env : Env} {s : RecordStep} (h : s.Valid env) {start : Db}
    (hbefore : ScopeGrown s.input.principal start s.before) :
    ScopeGrown s.input.principal start s.after := by
  have hkept := h.linksKept
  have hcustomers := fun id hid => (hbefore.customers id hid).mono hkept
  have hprojects := fun id hid => (hbefore.projects id hid).mono hkept
  refine ⟨hbefore.kept.trans hkept, fun id hid => ?_, fun id hid => ?_⟩
  · cases h.scopeStep with
    | kept hscope | project _ _ _ hscope =>
      rw [hscope] at hid
      exact hcustomers id hid
    | customer htype hnew hrow hscope =>
      rw [hscope] at hid
      simp only [EffectiveScope.canAccessCustomer, EffectiveScope.addCustomer, Bool.or_eq_true,
        List.contains_iff_mem, List.mem_insert_iff] at hid
      rcases hid with hall | rfl | hmem
      · exact hcustomers id (by simp [EffectiveScope.canAccessCustomer, hall])
      · exact Or.inr ⟨hbefore.customer_new hnew, hrow⟩
      · exact hcustomers id (by simp [EffectiveScope.canAccessCustomer, hmem])
  · cases h.scopeStep with
    | kept hscope | customer _ _ _ hscope =>
      rw [hscope] at hid
      exact hprojects id hid
    | project htype hnew hrow hscope =>
      rw [hscope] at hid
      simp only [EffectiveScope.addProject, List.mem_insert_iff] at hid
      rcases hid with hall | rfl | hmem
      · exact hprojects id (Or.inl hall)
      · exact Or.inr ⟨hbefore.project_new hnew, hrow⟩
      · exact hprojects id (Or.inr hmem)

/-- The scope of a batch at each of its records. -/
lemma pushSteps_scopeGrown {env : Env} {db : Db} {input : PushInput} :
    ∀ s ∈ pushSteps env db input, ScopeGrown input.principal db s.before := by
  refine pushSteps_workingInv ⟨.refl _, fun id hid => Or.inl hid, fun id hid => Or.inl hid⟩ ?_
  intro s hs hbefore
  obtain ⟨hvalid, rfl⟩ := pushSteps_valid hs
  exact hvalid.scopeGrown hbefore

/-! ### Committed records -/

/-- A project that the batch may access. -/
def Accessible (principal : Principal) (w : Working) (projectId : Str) : Prop :=
  ∃ row, w.db.projects.get (principal.organizationId, projectId) = some row ∧
    w.scope.canAccessProject projectId row.customerId = true

/-- An entity belongs to a customer, and unless it is a customer to a project, that the principal
may access or the batch created. -/
structure Confined (principal : Principal) (start : Db) (c : Canonical) (key : EntityKey) :
    Prop where
  customer : ∃ customerId, c.customerOf key = some customerId ∧
    CustomerConfined principal start c customerId
  project : key.2.1 ≠ .customer → ∃ projectId, c.projectOf key = some projectId ∧
    ProjectConfined principal start c projectId

section Confined

variable {env : Env} {principal : Principal} {w applied : Working} {start : Db} {id : Str}
  {entityType : EntityType}

/-- The project that a scope check returns is accessible. -/
lemma Ownership.accessible_of_scope {projectId : Str} {project : CanonicalProject}
    (h : projectForScope w.db principal w.scope projectId = .ok project) :
    Accessible principal w projectId := by
  unfold projectForScope at h
  split at h
  · cases h
  · rename_i row hget
    simp only [bind_eq_ok, raiseIf_eq_ok, Bool.not_eq_false'] at h
    obtain ⟨-, -, -, haccess, -⟩ := h
    exact ⟨row, hget, haccess⟩

/-- The item that a scope check returns is in an accessible project. -/
lemma Ownership.accessible_of_itemScope {itemId : Str} {found : CanonicalItem × CanonicalProject}
    (h : itemForScope w.db principal w.scope itemId = .ok found) :
    w.db.canonical.projectOf (principal.organizationId, .item, itemId) = some found.1.projectId ∧
      Accessible principal w found.1.projectId := by
  unfold itemForScope at h
  split at h
  · cases h
  · rename_i row hget
    simp only [bind_eq_ok, raiseIf_eq_ok, pure_eq_ok] at h
    obtain ⟨-, -, -, -, project, hproject, -, -, rfl⟩ := h
    exact ⟨Option.map_eq_some_iff.mpr ⟨row, hget, rfl⟩, Ownership.accessible_of_scope hproject⟩

/-- What belongs to an accessible project is confined. -/
lemma confined_of_accessible {c : Canonical} {projectId : Str}
    (hgrown : ScopeGrown principal start w) (hkept : w.db.canonical.LinksKept c)
    (htype : entityType ≠ .customer)
    (haccess : Accessible principal w projectId)
    (hproject : c.projectOf (principal.organizationId, entityType, id) = some projectId) :
    Confined principal start c (principal.organizationId, entityType, id) := by
  obtain ⟨row, hrow, haccess⟩ := haccess
  rw [EffectiveScope.canAccessProject, Bool.and_eq_true, Bool.or_eq_true,
    List.contains_iff_mem] at haccess
  obtain ⟨row', hrow', hread⟩ := hkept.projects _ _ hrow
  refine ⟨⟨row.customerId, ?_, (hgrown.customers _ haccess.1).mono hkept⟩,
    fun _ => ⟨projectId, hproject, (hgrown.projects _ haccess.2).mono hkept⟩⟩
  rw [Canonical.customerOf_eq htype hproject hrow', hread]

/-- Customers. -/
lemma Ownership.authorizeCustomer_confined {payload : Dict} {deletedAt : Option DateTime}
    {known : Bool} {plan : OwnershipPlan} (hgrown : ScopeGrown principal start w)
    (h : authorizeCustomer w.db principal w.scope id payload deletedAt known = .ok plan)
    (happly : applyOwnershipPlan principal plan w = (.ok (), applied))
    (hkept : w.db.canonical.LinksKept applied.db.canonical) :
    Confined principal start applied.db.canonical (principal.organizationId, .customer, id) := by
  have hrow : (applied.db.customers.get (principal.organizationId, id)).isSome ∧
      (w.db.customers.get (principal.organizationId, id) ≠ none →
        w.scope.canAccessCustomer id = true) := by
    unfold authorizeCustomer at h
    dsimp only at h
    split at h
    · rename_i hget
      simp only [bind_eq_ok, pure_eq_ok] at h
      obtain ⟨-, -, -, -, -, -, -, -, rfl⟩ := h
      exact ⟨applyCustomer_row happly, fun hne => absurd hget hne⟩
    · simp only [bind_eq_ok, ite_bind_eq_ok, raiseIf_eq_ok, pure_eq_ok, Bool.not_eq_false'] at h
      obtain ⟨-, -, -, haccess, -, -, -, -, rfl⟩ := h
      exact ⟨applyCustomer_row happly, fun _ => haccess⟩
  obtain ⟨row, hget⟩ := Option.isSome_iff_exists.mp hrow.1
  refine ⟨⟨id, Option.map_eq_some_iff.mpr ⟨row, hget, rfl⟩, ?_⟩, fun hne => absurd rfl hne⟩
  by_cases hnew : w.db.customers.get (principal.organizationId, id) = none
  · exact Or.inr ⟨hgrown.customer_new hnew, hrow.1⟩
  · exact (hgrown.customers id (hrow.2 hnew)).mono hkept

/-- Projects. -/
lemma Ownership.authorizeProject_confined {payload : Dict} {deletedAt : Option DateTime}
    {known : Bool} {plan : OwnershipPlan} (hgrown : ScopeGrown principal start w)
    (h : authorizeProject w.db principal w.scope id payload deletedAt known = .ok plan)
    (happly : applyOwnershipPlan principal plan w = (.ok (), applied))
    (hkept : w.db.canonical.LinksKept applied.db.canonical) :
    Confined principal start applied.db.canonical (principal.organizationId, .project, id) := by
  unfold authorizeProject at h
  dsimp only at h
  split at h
  · rename_i hget
    simp only [bind_eq_ok, raiseIf_eq_ok, pure_eq_ok, Bool.not_eq_false'] at h
    obtain ⟨-, -, -, -, -, -, -, -, customerId, -, -, -, -, haccess, rfl⟩ := h
    simp only [applyOwnershipPlan] at happly
    obtain ⟨row, hrow, hcustomer⟩ := applyProject_row happly
    have hproject : applied.db.canonical.projectOf (principal.organizationId, .project, id) =
        some id := Option.map_eq_some_iff.mpr ⟨row, hrow, rfl⟩
    refine ⟨⟨customerId, ?_, (hgrown.customers _ haccess).mono hkept⟩,
      fun _ => ⟨id, hproject, Or.inr ⟨hgrown.project_new hget, ?_⟩⟩⟩
    · rw [Canonical.customerOf_eq (by decide) hproject hrow]
      exact hcustomer.symm
    · change (applied.db.projects.get _).isSome = true
      rw [hrow]
      rfl
  · rename_i row hget
    simp only [bind_eq_ok, ite_bind_eq_ok, raiseIf_eq_ok, pure_eq_ok, Bool.not_eq_false'] at h
    obtain ⟨-, -, -, haccess, -, -, -, -, _, -, rfl⟩ := h
    simp only [applyOwnershipPlan] at happly
    obtain ⟨row', hrow', -⟩ := applyProject_row happly
    exact confined_of_accessible hgrown hkept (by decide) ⟨row, hget, haccess⟩
      (Option.map_eq_some_iff.mpr ⟨row', hrow', rfl⟩)

/-- Project sectors. -/
lemma Ownership.authorizeProjectSector_confined {payload : Dict} {deletedAt : Option DateTime}
    {known : Bool} {plan : OwnershipPlan} (hgrown : ScopeGrown principal start w)
    (h : authorizeProjectSector w.db principal w.scope id payload deletedAt known = .ok plan)
    (happly : applyOwnershipPlan principal plan w = (.ok (), applied))
    (hkept : w.db.canonical.LinksKept applied.db.canonical) :
    Confined principal start applied.db.canonical
      (principal.organizationId, .projectSector, id) := by
  obtain ⟨projectId, project, hproject, rfl, hplan⟩ : ∃ projectId project,
      projectForScope w.db principal w.scope projectId = .ok project ∧ plan.entityId = id ∧
        plan.entityType = .projectSector ∧ plan.projectId = some projectId := by
    unfold authorizeProjectSector at h
    dsimp only at h
    split at h
    · simp only [bind_eq_ok, pure_eq_ok] at h
      obtain ⟨-, -, -, -, -, -, -, -, projectId, -, sectorId, -, project, hproject, rfl⟩ := h
      exact ⟨projectId, project, hproject, rfl, rfl, rfl⟩
    · rename_i row hget
      simp only [bind_eq_ok, ite_bind_eq_ok, pure_eq_ok] at h
      obtain ⟨-, -, project, hproject, -, -, -, -, -, -, _, -, rfl⟩ := h
      exact ⟨row.projectId, project, hproject, rfl, rfl, rfl⟩
  simp only [applyOwnershipPlan, hplan.1] at happly
  obtain ⟨row, hrow, hprojectId⟩ := applyProjectSector_row happly
  obtain rfl := Option.some.inj (hplan.2.symm.trans hprojectId)
  exact confined_of_accessible hgrown hkept (by decide) (accessible_of_scope hproject)
    (Option.map_eq_some_iff.mpr ⟨row, hrow, rfl⟩)

/-- Items. -/
lemma Ownership.authorizeItem_confined {payload : Dict} {deletedAt : Option DateTime}
    {known : Bool} {plan : OwnershipPlan} (hgrown : ScopeGrown principal start w)
    (h : authorizeItem w.db principal w.scope id payload deletedAt known = .ok plan)
    (happly : applyOwnershipPlan principal plan w = (.ok (), applied))
    (hkept : w.db.canonical.LinksKept applied.db.canonical) :
    Confined principal start applied.db.canonical (principal.organizationId, .item, id) := by
  obtain ⟨projectId, project, hproject, rfl, hplan⟩ : ∃ projectId project,
      projectForScope w.db principal w.scope projectId = .ok project ∧ plan.entityId = id ∧
        plan.entityType = .item ∧ plan.projectId = some projectId := by
    unfold authorizeItem at h
    dsimp only at h
    split at h
    · simp only [bind_eq_ok, pure_eq_ok] at h
      obtain ⟨-, -, -, -, -, -, -, -, projectId, -, sectorId, -, project, hproject, -, -, rfl⟩ := h
      exact ⟨projectId, project, hproject, rfl, rfl, rfl⟩
    · rename_i row hget
      simp only [bind_eq_ok, ite_bind_eq_ok, pure_eq_ok] at h
      obtain ⟨-, -, -, -, project, hproject, -, -, -, -, -, -, -, -, _, -, rfl⟩ := h
      exact ⟨row.projectId, project, hproject, rfl, rfl, rfl⟩
  simp only [applyOwnershipPlan, hplan.1] at happly
  obtain ⟨row, hrow, hprojectId⟩ := applyItem_row happly
  obtain rfl := Option.some.inj (hplan.2.symm.trans hprojectId)
  exact confined_of_accessible hgrown hkept (by decide) (accessible_of_scope hproject)
    (Option.map_eq_some_iff.mpr ⟨row, hrow, rfl⟩)

/-- Quotations: the project of the row is the one whose scope was checked, and the content was
checked for it. -/
lemma Ownership.authorizeQuotation_spec {payload : Dict} {deletedAt : Option DateTime}
    {known : Bool} {plan : OwnershipPlan}
    (h : authorizeQuotation env w.db principal w.scope id payload deletedAt known = .ok plan)
    (happly : applyOwnershipPlan principal plan w = (.ok (), applied)) :
    ∃ projectId project, projectForScope w.db principal w.scope projectId = .ok project ∧
      applied.db.canonical.projectOf (principal.organizationId, .quotation, id) = some projectId ∧
      (deletedAt = none → authorizeQuotationContent env w.db principal w.scope payload projectId
        project = .ok ()) := by
  simp only [authorizeQuotation, bind_eq_ok, ite_bind_eq_ok, pure_eq_ok] at h
  obtain ⟨projectId, -, project, hproject, _, hcontent, rfl⟩ := h
  simp only [applyOwnershipPlan] at happly
  obtain ⟨row, hrow, hprojectId⟩ := applyProjectChild_row happly
  obtain rfl := Option.some.inj hprojectId
  refine ⟨row.projectId, project, hproject, Option.map_eq_some_iff.mpr ⟨row, hrow, rfl⟩, ?_⟩
  rintro rfl
  simpa using hcontent

/-- Item children: the item of the row is the one whose scope was checked, and the content was
checked for it. -/
lemma Ownership.authorizeItemChild_spec (htype : entityType.isItemChild = true) {payload : Dict}
    {deletedAt : Option DateTime} {known : Bool} {plan : OwnershipPlan}
    (h : authorizeItemChild env w.db principal w.scope entityType id payload deletedAt known =
      .ok plan)
    (happly : applyOwnershipPlan principal plan w = (.ok (), applied)) :
    ∃ itemId found row, itemForScope w.db principal w.scope itemId = .ok found ∧
      applied.db.itemChildren.get (principal.organizationId, entityType, id) = some row ∧
      row.itemId = itemId ∧
      (entityType.isAppendOnly = true →
        itemOfNewChild w.db principal entityType id payload = .ok itemId) ∧
      authorizeItemChildContent env w.db principal entityType id payload deletedAt.isSome itemId
        found.1 = .ok () := by
  simp only [authorizeItemChild, bind_eq_ok, raiseIf_eq_ok, pure_eq_ok] at h
  obtain ⟨-, hnew, -, -, -, -, -, -, -, -, itemId, hitem, found, hfound, ⟨⟩, hcontent, rfl⟩ := h
  rw [applyOwnershipPlan_itemChild htype rfl] at happly
  obtain ⟨row, hrow, hitemId⟩ := applyItemChild_row happly
  refine ⟨itemId, found, row, hfound, hrow, (Option.some.inj hitemId).symm, fun happend => ?_,
    hcontent⟩
  rw [happend, Bool.true_and, Bool.or_eq_false_iff, Option.isSome_eq_false_iff,
    Option.isNone_iff_eq_none] at hnew
  rw [hnew.1] at hitem
  exact hitem

end Confined

/-! ### References -/

/-- The fields of an item child that list other children of its item, with their types. -/
def childLists (entityType : EntityType) (payload : Dict) : List (EntityType × Value) :=
  let ofConfiguration (configuration : Dict) : List (EntityType × Value) :=
    [(.customerRequirement, configuration.get "customerRequirements"),
      (.blocker, configuration.get "blockerIDs")]
  match entityType with
  | .measurement => [(.evidence, payload.get "evidenceReferences")]
  | .customerRequirement => [(.evidence, payload.get "evidenceReferenceIDs")]
  | .configuration => ofConfiguration payload
  | .configurationVersion => ofConfiguration ((payload.get "configuration").dict?.getD [])
  | _ => []

/-- An item child lists another child of its item. -/
def ListsChild (entityType : EntityType) (payload : Dict) (kind : EntityType) (id : Str) : Prop :=
  ∃ refs, (kind, Value.list refs) ∈ childLists entityType payload ∧ Value.str id ∈ refs

/-- The test whether a configuration lists a blocker. -/
lemma listsBlocker_of_any {payload : Dict} {id : Str}
    (h : ((payload.get "blockerIDs").list?.getD []).any (·.isStr id) = true) :
    ListsChild .configuration payload .blocker id := by
  obtain ⟨ref, hmem, href⟩ := List.any_eq_true.mp h
  rw [(Value.isStr_iff _ _).mp href] at hmem
  cases hget : payload.get "blockerIDs" with
  | list refs =>
    rw [hget] at hmem
    exact ⟨refs, by simp [childLists, hget], hmem⟩
  | _ =>
    rw [hget] at hmem
    cases hmem

/-- A line of a quotation. -/
def HasLine (payload line : Dict) : Prop :=
  ∃ lines, payload.get "lines" = .list lines ∧ Value.dict line ∈ lines

/-- The completion or the closeout of a delivery lists a document of an item. -/
def ListsEvidence (payload : Dict) (key : Str) (itemId documentId : Str) : Prop :=
  ∃ (d : Dict) (refs : List Value) (ref : Dict), payload.get key = .dict d ∧
    d.get "evidenceReferences" = .list refs ∧ Value.dict ref ∈ refs ∧
    normalized (ref.get "itemID") = some itemId ∧
    normalized (ref.get "documentID") = some documentId

/-- The entities that a payload is validated against: the children that an item child lists, the
configuration of a version, the items and designs of the lines of a quotation, the quotation of a
delivery, and the evidence of its completion and closeout when these are new. -/
inductive References (org : Str) (stored : Option Dict) (payload : Dict) :
    EntityType → EntityKey → Prop
  | child {entityType kind : EntityType} {id : Str} (h : ListsChild entityType payload kind id) :
      References org stored payload entityType (org, kind, id)
  | base {id : Str}
      (hid : normalized (((payload.get "configuration").dict?.getD []).get "id") = some id) :
      References org stored payload .configurationVersion (org, .configuration, id)
  | line {line : Dict} {id : Str} (hline : HasLine payload line)
      (hid : normalized (line.get "itemID") = some id) :
      References org stored payload .quotation (org, .item, id)
  | design {line : Dict} {id : Str} (hline : HasLine payload line)
      (hdesign : line.get "designSnapshot" ≠ .none)
      (hid : normalized (line.get "configurationVersionID") = some id) :
      References org stored payload .quotation (org, .configurationVersion, id)
  | quotation {id : Str} (hid : normalized (payload.get "quotationID") = some id) :
      References org stored payload .deliveryExecution (org, .quotation, id)
  | item {key itemId documentId : Str}
      (hkey : key ∈ [Str.ofString "installationCompletion", Str.ofString "deliveryCloseout"])
      (hchanged : (payload.get key).ne ((stored.getD []).get key) = true)
      (hlists : ListsEvidence payload key itemId documentId) :
      References org stored payload .deliveryExecution (org, .item, itemId)
  | evidence {key itemId documentId : Str}
      (hkey : key ∈ [Str.ofString "installationCompletion", Str.ofString "deliveryCloseout"])
      (hchanged : (payload.get key).ne ((stored.getD []).get key) = true)
      (hlists : ListsEvidence payload key itemId documentId) :
      References org stored payload .deliveryExecution (org, .evidence, documentId)

/-- A child of an item without a tombstone. -/
def Canonical.LiveChild (c : Canonical) (key : EntityKey) (itemId : Str) : Prop :=
  ∃ row, c.itemChildren.get key = some row ∧ row.deletedAt = none ∧ row.itemId = itemId

namespace Ownership

variable {env : Env} {db : Db} {principal : Principal} {payload : Dict} {itemId : Str}

/-- The references that were checked are live children of the item. -/
lemma requireItemReferences_spec {kind : EntityType} {refs : List Value}
    (h : requireItemReferences db principal itemId kind refs = .ok ()) {id : Str}
    (hid : Value.str id ∈ refs) :
    db.canonical.LiveChild (principal.organizationId, kind, id) itemId := by
  have hcheck := forM_eq_ok.mp h _ hid
  simp only [Value.str?, bind_eq_ok, raiseIf_eq_ok, Bool.not_eq_false', Option.any_eq_true,
    beq_iff_eq, activeItemChild, Option.filter_eq_some_iff, Option.isNone_iff_eq_none] at hcheck
  obtain ⟨-, -, row, ⟨hrow, hlive⟩, hitem⟩ := hcheck
  exact ⟨row, hrow, hlive, hitem⟩

/-- The lists of a configuration were checked. -/
lemma authorizeConfiguration_children {entityType : EntityType} {id : Str} {configuration : Dict}
    (h : authorizeConfiguration env db principal entityType id payload itemId = .ok ())
    (hconfiguration : (if entityType = .configuration then some payload
      else (payload.get "configuration").dict?) = some configuration)
    {kind : EntityType} {refs : List Value}
    (hrefs : (kind, Value.list refs) ∈
      [(EntityType.customerRequirement, configuration.get "customerRequirements"),
        (.blocker, configuration.get "blockerIDs")]) :
    requireItemReferences db principal itemId kind refs = .ok () := by
  simp only [authorizeConfiguration, hconfiguration, bind_eq_ok] at h
  obtain ⟨-, -, h⟩ := h
  split at h
  · rename_i requirements blockers hrequirements hblockers
    simp only [bind_eq_ok] at h
    obtain ⟨⟨⟩, hfirst, ⟨⟩, hsecond, -⟩ := h
    simp only [List.mem_cons, Prod.mk.injEq, List.not_mem_nil, or_false] at hrefs
    rcases hrefs with ⟨rfl, hlist⟩ | ⟨rfl, hlist⟩
    · rw [Value.list?_getOr _ hlist.symm] at hrequirements
      rw [Option.some.inj hrequirements]
      exact hfirst
    · rw [Value.list?_getOr _ hlist.symm] at hblockers
      rw [Option.some.inj hblockers]
      exact hsecond
  · cases h

/-- The children that a committed item child lists are live children of its item. -/
lemma authorizeItemChildContent_children {entityType : EntityType} {id : Str} {item : CanonicalItem}
    (h : authorizeItemChildContent env db principal entityType id payload false itemId item =
      .ok ())
    {kind : EntityType} {child : Str} (hlists : ListsChild entityType payload kind child) :
    db.canonical.LiveChild (principal.organizationId, kind, child) itemId := by
  obtain ⟨refs, hrefs, hchild⟩ := hlists
  refine requireItemReferences_spec ?_ hchild
  cases entityType with
  | measurement | customerRequirement =>
    simp only [authorizeItemChildContent, itemChildCapability, bind_eq_ok] at h
    obtain ⟨-, -, h⟩ := h
    obtain ⟨rfl, hlist⟩ := Prod.mk.inj (List.mem_singleton.mp hrefs)
    simpa only [authorizeEvidenceReferences, Value.list?_getOr _ hlist.symm] using h
  | configuration =>
    simp only [authorizeItemChildContent, itemChildCapability, bind_eq_ok] at h
    exact authorizeConfiguration_children h.choose_spec.2 rfl hrefs
  | configurationVersion =>
    simp only [authorizeItemChildContent, itemChildCapability, bind_eq_ok] at h
    cases hconfiguration : (payload.get "configuration").dict? with
    | none => simp [authorizeConfiguration, hconfiguration] at h
    | some configuration =>
      simp only [childLists, hconfiguration, Option.getD_some] at hrefs
      exact authorizeConfiguration_children h.choose_spec.2 hconfiguration hrefs
  | _ => cases hrefs

end Ownership

/-! ### Stored entities have rows -/

/-- Every stored entity, tombstones included, has a canonical row. -/
def EntitiesOwned (db : Db) : Prop :=
  ∀ key, (db.entities.get key).isSome → (db.canonical.links key).isSome

/-- The application of an ownership plan leaves a row. -/
lemma Ownership.applyOwnershipPlan_row {principal : Principal} {plan : OwnershipPlan}
    {w applied : Working} (h : applyOwnershipPlan principal plan w = (.ok (), applied)) :
    (applied.db.canonical.links
      (principal.organizationId, plan.entityType, plan.entityId)).isSome := by
  obtain ⟨entityType, entityId, isCreate, deletedAt, customerId, projectId, sectorId, sector,
    itemId⟩ := plan
  cases entityType with
  | customer =>
    rw [Canonical.links, Option.isSome_map]
    exact applyCustomer_row h
  | project =>
    obtain ⟨row, hrow, -⟩ := applyProject_row h
    exact Option.isSome_iff_exists.mpr ⟨_, Option.map_eq_some_iff.mpr ⟨row, hrow, rfl⟩⟩
  | projectSector =>
    obtain ⟨row, hrow, -⟩ := applyProjectSector_row h
    exact Option.isSome_iff_exists.mpr ⟨_, Option.map_eq_some_iff.mpr ⟨row, hrow, rfl⟩⟩
  | item =>
    obtain ⟨row, hrow, -⟩ := applyItem_row h
    exact Option.isSome_iff_exists.mpr ⟨_, Option.map_eq_some_iff.mpr ⟨row, hrow, rfl⟩⟩
  | quotation | deliveryExecution =>
    obtain ⟨row, hrow, -⟩ := applyProjectChild_row h
    exact Option.isSome_iff_exists.mpr ⟨_, Option.map_eq_some_iff.mpr ⟨row, hrow, rfl⟩⟩
  | _ =>
    obtain ⟨row, hrow, -⟩ := applyItemChild_row h
    exact Option.isSome_iff_exists.mpr ⟨_, Option.map_eq_some_iff.mpr ⟨row, hrow, rfl⟩⟩

/-- The row of an applied delivery has the authorized project. -/
lemma Delivery.applyDeliveryExecutionOwnership_row {principal : Principal} {id projectId : Str}
    {w applied : Working}
    (h : applyDeliveryExecutionOwnership principal id projectId w = (.ok (), applied)) :
    ∃ row, applied.db.projectChildren.get (principal.organizationId, .deliveryExecution, id) =
      some row ∧ row.projectId = projectId := by
  simp only [applyDeliveryExecutionOwnership] at h
  split at h
  · obtain rfl := (Prod.mk.inj h).2
    exact ⟨_, Table.get_set_self _ _ _, rfl⟩
  · rename_i child hchild
    split_ifs at h with hdeleted hsame
    · cases (Prod.mk.inj h).1
    · cases (Prod.mk.inj h).1
    · obtain rfl := (Prod.mk.inj h).2
      exact ⟨child, hchild, not_not.mp hsame⟩

/-- An admitted record has a row. -/
lemma Admitted.row {env : Env} {principal : Principal} {w applied : Working} {record : SyncRecord}
    {payload : Payload} {grant : Authorized}
    (h : Admitted env principal w record payload grant applied) :
    (applied.db.canonical.links
      (principal.organizationId, record.entityType, record.entityID.text)).isSome := by
  have hauthorized := h.authorized
  have happlied := h.applied
  cases grant with
  | ownership plan =>
    obtain ⟨htype, hid⟩ := Ownership.authorizeRecord_plan (authorize_plan hauthorized)
    rw [← htype, ← hid]
    exact Ownership.applyOwnershipPlan_row happlied
  | delivery projectId =>
    obtain ⟨-, -, ⟨htype, -⟩ | ⟨-, -, plan, -, hgrant⟩⟩ := authorize_eq_ok_iff.mp hauthorized
    · obtain ⟨row, hrow, -⟩ := Delivery.applyDeliveryExecutionOwnership_row happlied
      rw [htype]
      exact Option.isSome_iff_exists.mpr ⟨_, Option.map_eq_some_iff.mpr ⟨row, hrow, rfl⟩⟩
    · cases hgrant

/-- **Step.** A step keeps the stored entities owned. -/
lemma RecordStep.Valid.entitiesOwned {env : Env} {s : RecordStep} (h : s.Valid env)
    (hbefore : EntitiesOwned s.before.db) : EntitiesOwned s.after.db := by
  intro key hkey
  have hold : (s.before.db.entities.get key).isSome → (s.after.db.canonical.links key).isSome := by
    intro hsome
    obtain ⟨links, hlinks⟩ := Option.isSome_iff_exists.mp (hbefore key hsome)
    rw [h.linksKept.links hlinks]
    rfl
  rcases h.keeps_or_commits with hkeeps | ⟨payload, grant, applied, hcommits⟩
  · rw [hkeeps.entities] at hkey
    exact hold hkey
  · by_cases hself : key = s.key
    · rw [hself, hcommits.canonical]
      exact hcommits.admitted.row
    · rw [hcommits.entities, Table.get_set_of_ne _ _ hself] at hkey
      exact hold hkey

/-! ### What a payload refers to -/

/-- A stored payload names the links of its row. -/
lemma LinksAgree.of_stored {db : Db} (hagree : LinksAgree db) (howned : EntitiesOwned db)
    {key : EntityKey} {entity : SyncEntity} {payload : Payload}
    (hentity : db.entities.get key = some entity) (hpayload : entity.payloadJson = some payload) :
    ∃ links, db.canonical.links key = some links ∧
      List.Forall₂ NamesLink (parentFields key.2.1 payload.items) links := by
  have hsome : (db.entities.get key).isSome := by
    rw [hentity]
    rfl
  obtain ⟨links, hlinks⟩ := Option.isSome_iff_exists.mp (howned key hsome)
  refine ⟨links, hlinks, (hagree key links hlinks).2 payload ?_⟩
  rw [storedPayload, hentity]
  exact hpayload

section Lines

variable {env : Env} {principal : Principal} {w : Working} {payload line : Dict}
  {projectId id : Str} {project : CanonicalProject}

/-- The lines of a quotation were checked. -/
lemma Ownership.authorizeQuotationContent_line
    (h : authorizeQuotationContent env w.db principal w.scope payload projectId project = .ok ())
    (hline : HasLine payload line) :
    authorizeQuotationLine env w.db principal w.scope projectId (.dict line) = .ok () := by
  obtain ⟨lines, hlines, hmem⟩ := hline
  simp only [authorizeQuotationContent, bind_eq_ok, authorizeQuotationLines,
    Value.list?_getOr _ hlines] at h
  obtain ⟨-, -, -, -, ⟨⟩, ⟨⟨⟩, -, hchecked⟩, -⟩ := h
  exact forM_eq_ok.mp hchecked _ hmem

/-- The item of a line is in the project of the quotation, and the design was checked. -/
lemma Ownership.authorizeQuotationLine_spec
    (h : authorizeQuotationLine env w.db principal w.scope projectId (.dict line) = .ok ()) :
    ∃ itemId, normalized (line.get "itemID") = some itemId ∧
      w.db.canonical.projectOf (principal.organizationId, .item, itemId) = some projectId ∧
      (line.get "designSnapshot" ≠ .none → ∃ versionId revision version updatedAt,
        normalized (line.get "configurationVersionID") = some versionId ∧
        w.db.entities.get (principal.organizationId, .configurationVersion, versionId) =
          some ⟨revision, some version, updatedAt, none⟩ ∧
        authorizeLineDesign env w.db principal line version = .ok ()) := by
  simp only [authorizeQuotationLine, Value.dict?, bind_eq_ok, raiseIf_eq_ok, bne_eq_false_iff_eq,
    exists_const] at h
  obtain ⟨itemId, hitemId, found, hfound, hproject, h⟩ := h
  obtain ⟨hprojectOf, -⟩ := accessible_of_itemScope hfound
  refine ⟨itemId, value_eq_ok hitemId, hproject ▸ hprojectOf, fun hdesign => ?_⟩
  have hsome : (line.get "designSnapshot").isNone = false := by
    revert hdesign
    cases line.get "designSnapshot" <;> simp [Value.isNone]
  rw [hsome] at h
  simp only [Bool.false_eq_true, ↓reduceIte, bind_eq_ok] at h
  obtain ⟨versionId, hversionId, h⟩ := h
  split at h
  · rename_i revision version updatedAt hentity
    exact ⟨versionId, revision, version, updatedAt, value_eq_ok hversionId, hentity, h⟩
  · cases h

/-- The configuration of a design that was checked has the item of the line. -/
lemma Assembly.validateQuotationDesign_item {version configuration : Dict}
    (h : validateQuotationDesignAgainstConfigurationVersion env line version = .ok ())
    (hdesign : line.get "designSnapshot" ≠ .none)
    (hconfiguration : (version.get "configuration").dict? = some configuration) :
    ∃ text, line.get "itemID" = .str text ∧ configuration.get "itemID" = .str text := by
  simp only [validateQuotationDesignAgainstConfigurationVersion, bind_eq_ok] at h
  obtain ⟨snapshot, hsnapshot, h⟩ := h
  cases snapshot with
  | none =>
    unfold validateQuotationLineDesignSnapshot at hsnapshot
    split at hsnapshot
    · rename_i hnone
      exact absurd hnone hdesign
    · simp only [bind_eq_ok, pure_eq_ok, reduceCtorEq, and_false, exists_false] at hsnapshot
    · cases hsnapshot
  | some snapshot =>
    simp only [hconfiguration] at h
    split at h
    · rename_i envelopeId configuration' hid hconfiguration'
      obtain rfl := Option.some.inj hconfiguration'
      simp only [bind_eq_ok] at h
      obtain ⟨-, -, canonical, -, h⟩ := h
      split at h
      · cases h
      · simp only [bind_eq_ok, raiseIf_eq_ok, Bool.not_eq_false'] at h
        obtain ⟨-, hitem, -⟩ := h
        obtain ⟨text, htext, hsame⟩ := (Option.any_eq_true _ _).mp hitem
        refine ⟨text, ?_, (Value.isStr_iff _ _).mp hsame⟩
        exact (Value.isStr_iff _ _).mp (by rw [Value.isStr, htext]; exact beq_self_eq_true _)
    · cases h

/-- The configuration of a checked design has the item of the line. -/
lemma Ownership.authorizeLineDesign_item {version : Payload}
    (h : authorizeLineDesign env w.db principal line version = .ok ())
    (hdesign : line.get "designSnapshot" ≠ .none) :
    ∃ (configuration : Dict) (text : Str),
      (version.items.get "configuration").dict? = some configuration ∧
        line.get "itemID" = .str text ∧ configuration.get "itemID" = .str text := by
  unfold authorizeLineDesign at h
  dsimp only at h
  split at h
  · cases h
  · split at h
    · cases h
    · rename_i configuration hconfiguration
      simp only [bind_eq_ok] at h
      obtain ⟨-, -, hvalid⟩ := h
      obtain ⟨text, hline, hitem⟩ := Assembly.validateQuotationDesign_item hvalid hdesign
        hconfiguration
      exact ⟨configuration, text, hconfiguration, hline, hitem⟩

/-- The design of a line belongs to the project of the quotation. -/
lemma Ownership.authorizeQuotationLine_design (hagree : LinksAgree w.db)
    (howned : EntitiesOwned w.db)
    (h : authorizeQuotationLine env w.db principal w.scope projectId (.dict line) = .ok ())
    (hdesign : line.get "designSnapshot" ≠ .none)
    (hid : normalized (line.get "configurationVersionID") = some id) :
    w.db.canonical.projectOf (principal.organizationId, .configurationVersion, id) =
      some projectId := by
  obtain ⟨itemId, hitemId, hproject, hversion⟩ := authorizeQuotationLine_spec h
  obtain ⟨versionId, revision, version, updatedAt, hversionId, hentity, hchecked⟩ :=
    hversion hdesign
  obtain rfl := Option.some.inj (hid.symm.trans hversionId)
  obtain ⟨configuration, text, hconfiguration, hline, hitem⟩ :=
    authorizeLineDesign_item hchecked hdesign
  obtain ⟨links, hlinks, hnames⟩ := hagree.of_stored howned hentity rfl
  obtain ⟨row, hrow, rfl⟩ := Option.map_eq_some_iff.mp hlinks
  -- the version names the item of the line, and so does its row
  have hrowItem : row.itemId = itemId := by
    simp only [parentFields, hconfiguration, Option.getD_some] at hnames
    cases hnames with
    | cons hname _ =>
      obtain ⟨raw, hraw, hstrip, -⟩ := normalized_eq_some.mp hitemId
      obtain rfl := Value.str.inj (hline.symm.trans hraw)
      rw [Option.some.inj (hname text hitem), hstrip]
  rw [Canonical.projectOf_itemChild rfl, hrow, Option.bind_some, hrowItem]
  exact hproject

end Lines

/-- The quotation of a delivery belongs to its project. -/
lemma Delivery.requireQuotation_project {db : Db} {principal : Principal} {payload : Dict}
    {projectId customerId quotationId : Str} (hagree : LinksAgree db) (howned : EntitiesOwned db)
    (h : requireQuotation db principal payload projectId customerId quotationId = .ok ())
    (hstripped : projectId.strip = projectId) :
    db.canonical.projectOf (principal.organizationId, .quotation, quotationId) =
      some projectId := by
  unfold requireQuotation at h
  split at h
  · rename_i revision quotation updatedAt hentity
    simp only [bind_eq_ok, raiseIf_eq_ok, Bool.or_eq_false_iff, Bool.not_eq_false'] at h
    obtain ⟨-, -, -, ⟨hproject, -⟩, -⟩ := h
    obtain ⟨links, hlinks, hnames⟩ := hagree.of_stored howned hentity rfl
    obtain ⟨row, hrow, rfl⟩ := Option.map_eq_some_iff.mp hlinks
    cases hnames with
    | cons hname _ =>
      have hlink := hname projectId ((Value.isStr_iff _ _).mp hproject)
      rw [hstripped] at hlink
      rw [← Option.some.inj hlink]
      exact Option.map_eq_some_iff.mpr ⟨row, hrow, rfl⟩
  · cases h

namespace Delivery.Installation

variable {db : Db} {principal : Principal} {payload : Dict} {stored : Option Dict} {projectId : Str}

/-- The evidence of a new record is live and of an item of the project. -/
lemma requireRecordEvidence_spec {key label malformed : String} {itemId documentId : Str}
    (h : requireRecordEvidence db principal payload stored projectId key label malformed = .ok ())
    (hchanged : (payload.get key).ne ((stored.getD []).get key) = true)
    (hlists : ListsEvidence payload key itemId documentId) :
    db.canonical.projectOf (principal.organizationId, .item, itemId) = some projectId ∧
      db.canonical.LiveChild (principal.organizationId, .evidence, documentId) itemId := by
  obtain ⟨d, refs, ref, hd, hrefs, href, hitemId, hdocumentId⟩ := hlists
  have hcurrent : (stored.elim .none fun stored => stored.get key) = (stored.getD []).get key := by
    cases stored <;> rfl
  rw [hd] at hchanged
  simp only [requireRecordEvidence, hcurrent, hd, hchanged, Value.isNone, Value.dict?,
    Value.list?_getOr _ hrefs, Option.getD_some, Bool.not_true, Bool.or_self, Bool.false_eq_true,
    ↓reduceIte] at h
  have hchecked := forM_eq_ok.mp h _ href
  simp only [checkEvidence, Value.dict?, hitemId, hdocumentId, bind_eq_ok, raiseIf_eq_ok,
    Bool.not_eq_false', Option.any_eq_true, Bool.and_eq_true, Option.isNone_iff_eq_none,
    beq_iff_eq] at hchecked
  obtain ⟨-, ⟨item, hitem, -, hproject⟩, evidence, hevidence, hlive, hof⟩ := hchecked
  exact ⟨Option.map_eq_some_iff.mpr ⟨item, hitem, hproject⟩, evidence, hevidence, hlive, hof⟩

/-- The evidence of a new completion or closeout is live and of an item of the project. -/
lemma evidence_checked
    (h : validateInstallationEvidenceAuthority db principal payload stored projectId = .ok ())
    {key itemId documentId : Str}
    (hkey : key ∈ [Str.ofString "installationCompletion", Str.ofString "deliveryCloseout"])
    (hchanged : (payload.get key).ne ((stored.getD []).get key) = true)
    (hlists : ListsEvidence payload key itemId documentId) :
    db.canonical.projectOf (principal.organizationId, .item, itemId) = some projectId ∧
      db.canonical.LiveChild (principal.organizationId, .evidence, documentId) itemId := by
  simp only [validateInstallationEvidenceAuthority, bind_eq_ok] at h
  obtain ⟨⟨⟩, hcompletion, hcloseout⟩ := h
  simp only [List.mem_cons, List.not_mem_nil, or_false] at hkey
  rcases hkey with rfl | rfl
  · exact requireRecordEvidence_spec hcompletion hchanged hlists
  · exact requireRecordEvidence_spec hcloseout hchanged hlists

end Delivery.Installation

/-- A live child belongs to the project of its item. -/
lemma Canonical.LiveChild.projectOf {c : Canonical} {org id itemId projectId : Str}
    {kind : EntityType} (h : c.LiveChild (org, kind, id) itemId) (hkind : kind.isItemChild = true)
    (hproject : c.projectOf (org, .item, itemId) = some projectId) :
    c.projectOf (org, kind, id) = some projectId := by
  obtain ⟨row, hrow, -, rfl⟩ := h
  rw [Canonical.projectOf_itemChild hkind, hrow, Option.bind_some]
  exact hproject

/-- A new version is of a live configuration of its item. -/
lemma Ownership.itemOfNewChild_base {db : Db} {principal : Principal} {id itemId base : Str}
    {payload : Dict}
    (h : itemOfNewChild db principal .configurationVersion id payload = .ok itemId)
    (hbase : normalized (((payload.get "configuration").dict?.getD []).get "id") = some base) :
    db.canonical.LiveChild (principal.organizationId, .configuration, base) itemId := by
  simp only [itemOfNewChild, ↓reduceIte] at h
  split at h
  · cases h
  · rename_i configuration hconfiguration
    simp only [bind_eq_ok] at h
    obtain ⟨item, -, configurationId, hid, h⟩ := h
    rw [hconfiguration, Option.getD_some, value_eq_ok hid] at hbase
    obtain rfl := Option.some.inj hbase
    split at h
    · cases h
    · simp only [bind_eq_ok, raiseIf_eq_ok, Bool.not_eq_false', Option.any_eq_true, beq_iff_eq,
        activeItemChild, Option.filter_eq_some_iff, Option.isNone_iff_eq_none, pure_eq_ok] at h
      obtain ⟨-, -, -, -, -, ⟨row, ⟨hrow, hlive⟩, hitem⟩, rfl⟩ := h
      exact ⟨row, hrow, hlive, hitem⟩

/-- The types of the children that an item child lists. -/
lemma ListsChild.isItemChild {entityType kind : EntityType} {payload : Dict} {id : Str}
    (h : ListsChild entityType payload kind id) : kind.isItemChild = true := by
  obtain ⟨refs, hrefs, -⟩ := h
  cases entityType <;>
    simp only [childLists, List.mem_cons, Prod.mk.injEq, List.not_mem_nil, or_false] at hrefs <;>
    grind [EntityType.isItemChild]

/-- The project that the authority over deliveries checked is accessible. -/
lemma Delivery.accessible_of_requireProject {principal : Principal} {w : Working}
    {projectId customerId : Str}
    (h : requireProject w.db principal w.scope projectId customerId = .ok ()) :
    Accessible principal w projectId := by
  unfold requireProject at h
  split at h
  · cases h
  · rename_i row hget
    simp only [bind_eq_ok, raiseIf_eq_ok, Bool.not_eq_false'] at h
    obtain ⟨-, -, -, -, haccess⟩ := h
    exact ⟨row, hget, haccess⟩

/-- The payload that a delivery is compared with is the stored one. -/
lemma Delivery.continuity_eq_ok {child : Option CanonicalProjectChild} {current : Option SyncEntity}
    {currentPayload : Option Dict} (h : continuity child current = .ok currentPayload) :
    currentPayload = (current.bind SyncEntity.payloadJson).map Payload.items := by
  unfold continuity at h
  split at h
  · split at h
    · cases h
    · simp only [bind_eq_ok, pure_eq_ok] at h
      obtain ⟨-, -, rfl⟩ := h
      rfl
  · cases h
  · simp only [bind_eq_ok, pure_eq_ok] at h
    obtain ⟨-, -, rfl⟩ := h
    rfl

/-! ### Records -/

/-- What the payload of an entity refers to belongs to the project of the entity. -/
def ReferencesConfined (c : Canonical) (stored : Option Dict) (payload : Dict) (key : EntityKey) :
    Prop :=
  ∀ ref, References key.1 stored payload key.2.1 ref → c.projectOf ref = c.projectOf key

section Records

variable {env : Env} {principal : Principal} {w applied : Working} {start : Db} {id : Str}
  {entityType : EntityType} {payload : Dict} {plan : Ownership.OwnershipPlan}

/-- The references of a quotation. -/
lemma Ownership.authorizeQuotation_references (hagree : LinksAgree w.db)
    (howned : EntitiesOwned w.db) {known : Bool}
    (h : authorizeQuotation env w.db principal w.scope id payload none known = .ok plan)
    (happly : applyOwnershipPlan principal plan w = (.ok (), applied))
    (hkept : w.db.canonical.LinksKept applied.db.canonical) (stored : Option Dict) :
    ReferencesConfined applied.db.canonical stored payload
      (principal.organizationId, .quotation, id) := by
  obtain ⟨projectId, project, -, hproject, hcontent⟩ := authorizeQuotation_spec h happly
  have hline : ∀ line, HasLine payload line → _ := fun _ hmem =>
    authorizeQuotationContent_line (hcontent rfl) hmem
  intro ref href
  rw [hproject]
  apply hkept.projectOf
  cases href with
  | child hlists =>
    obtain ⟨refs, hrefs, -⟩ := hlists
    cases hrefs
  | line hmem hid =>
    obtain ⟨itemId, hitemId, hitem, -⟩ := authorizeQuotationLine_spec (hline _ hmem)
    obtain rfl := Option.some.inj (hid.symm.trans hitemId)
    exact hitem
  | design hmem hdesign hid =>
    exact authorizeQuotationLine_design hagree howned (hline _ hmem) hdesign hid

/-- The references of an item child. -/
lemma Ownership.authorizeItemChild_references (htype : entityType.isItemChild = true)
    {known : Bool}
    (h : authorizeItemChild env w.db principal w.scope entityType id payload none known = .ok plan)
    (happly : applyOwnershipPlan principal plan w = (.ok (), applied))
    (hkept : w.db.canonical.LinksKept applied.db.canonical) (stored : Option Dict) :
    ReferencesConfined applied.db.canonical stored payload
      (principal.organizationId, entityType, id) := by
  obtain ⟨itemId, found, row, hfound, hrow, rfl, hbase, hcontent⟩ :=
    authorizeItemChild_spec htype h happly
  obtain ⟨hitem, -⟩ := accessible_of_itemScope hfound
  have hself : applied.db.canonical.projectOf (principal.organizationId, entityType, id) =
      some found.1.projectId := by
    rw [Canonical.projectOf_itemChild htype]
    exact Option.bind_eq_some_iff.mpr ⟨row, hrow, hkept.projectOf hitem⟩
  intro ref href
  rw [hself]
  apply hkept.projectOf
  cases href with
  | child hlists =>
    exact (authorizeItemChildContent_children hcontent hlists).projectOf hlists.isItemChild hitem
  | base hid => exact (itemOfNewChild_base (hbase rfl) hid).projectOf rfl hitem
  | _ => cases htype

/-- The references of a delivery. -/
lemma Delivery.Authorized.references {current : Option SyncEntity} {projectId : Str}
    (h : Delivery.Authorized w.db principal w.scope id payload current projectId)
    (hagree : LinksAgree w.db) (howned : EntitiesOwned w.db)
    (happly : applyDeliveryExecutionOwnership principal id projectId w = (.ok (), applied))
    (hkept : w.db.canonical.LinksKept applied.db.canonical) :
    ReferencesConfined applied.db.canonical
      ((current.bind SyncEntity.payloadJson).map Payload.items) payload
      (principal.organizationId, .deliveryExecution, id) := by
  obtain ⟨customerId, quotationId, currentPayload, -, hquotationId, hcontinuity, -, hevidence,
    hquotation⟩ := h.rest
  obtain rfl := continuity_eq_ok hcontinuity
  obtain ⟨row, hrow, hprojectId⟩ := applyDeliveryExecutionOwnership_row happly
  have hself : applied.db.canonical.projectOf (principal.organizationId, .deliveryExecution, id) =
      some projectId := Option.map_eq_some_iff.mpr ⟨row, hrow, hprojectId⟩
  intro ref href
  rw [hself]
  apply hkept.projectOf
  cases href with
  | child hlists =>
    obtain ⟨refs, hrefs, -⟩ := hlists
    cases hrefs
  | quotation hid =>
    obtain rfl := Option.some.inj (hid.symm.trans hquotationId)
    exact requireQuotation_project hagree howned hquotation
      (Ownership.agrees_of_normalized h.project).2
  | item hkey hchanged hlists =>
    exact (Installation.evidence_checked hevidence hkey hchanged hlists).1
  | evidence hkey hchanged hlists =>
    obtain ⟨hitem, hlive⟩ := Installation.evidence_checked hevidence hkey hchanged hlists
    exact hlive.projectOf rfl hitem

/-- What ownership lets through is confined. -/
lemma Ownership.authorizeRecord_confined {deletedAt : Option DateTime} {known : Bool}
    (hgrown : ScopeGrown principal start w)
    (h : authorizeRecord env w.db principal w.scope entityType id payload deletedAt known =
      .ok plan)
    (happly : applyOwnershipPlan principal plan w = (.ok (), applied))
    (hkept : w.db.canonical.LinksKept applied.db.canonical) :
    Confined principal start applied.db.canonical (principal.organizationId, entityType, id) := by
  cases entityType with
  | customer => exact authorizeCustomer_confined hgrown h happly hkept
  | project => exact authorizeProject_confined hgrown h happly hkept
  | projectSector => exact authorizeProjectSector_confined hgrown h happly hkept
  | item => exact authorizeItem_confined hgrown h happly hkept
  | quotation =>
    obtain ⟨projectId, project, hscope, hproject, -⟩ := authorizeQuotation_spec h happly
    exact confined_of_accessible hgrown hkept (by decide) (accessible_of_scope hscope) hproject
  | deliveryExecution => cases h
  | _ =>
    obtain ⟨itemId, found, row, hfound, hrow, rfl, -⟩ := authorizeItemChild_spec rfl h happly
    obtain ⟨hitem, haccess⟩ := accessible_of_itemScope hfound
    refine confined_of_accessible hgrown hkept (by decide) haccess ?_
    exact Option.bind_eq_some_iff.mpr ⟨row, hrow, hkept.projectOf hitem⟩

/-- The references of what ownership lets through. -/
lemma Ownership.authorizeRecord_references {known : Bool} (hagree : LinksAgree w.db)
    (howned : EntitiesOwned w.db)
    (h : authorizeRecord env w.db principal w.scope entityType id payload none known = .ok plan)
    (happly : applyOwnershipPlan principal plan w = (.ok (), applied))
    (hkept : w.db.canonical.LinksKept applied.db.canonical) (stored : Option Dict) :
    ReferencesConfined applied.db.canonical stored payload
      (principal.organizationId, entityType, id) := by
  cases entityType with
  | quotation => exact authorizeQuotation_references hagree howned h happly hkept stored
  | deliveryExecution => cases h
  | customer | project | projectSector | item =>
    intro ref href
    obtain ⟨refs, hrefs, -⟩ := href
    cases hrefs
  | _ => exact authorizeItemChild_references rfl h happly hkept stored

end Records

namespace RecordStep

variable {env : Env} {s : RecordStep} {payload : Payload} {grant : Authorized} {applied : Working}

/-- A committed record keeps the rows and their links. -/
lemma Commits.applied_linksKept (h : s.Commits env payload grant applied) :
    s.before.db.canonical.LinksKept applied.db.canonical := by
  have hkept := VitrialSync.applied_linksKept s.input.principal s.record s.before grant
  rwa [h.admitted.applied] at hkept

/-- **Step.** A committed record is confined. -/
lemma Commits.confined (h : s.Commits env payload grant applied) {start : Db}
    (hgrown : ScopeGrown s.input.principal start s.before) :
    Confined s.input.principal start s.after.db.canonical s.key := by
  have hkept := h.applied_linksKept
  have happlied := h.admitted.applied
  rw [h.canonical]
  obtain ⟨-, -, ⟨htype, projectId, hauth, rfl⟩ | ⟨-, -, plan, hplan, rfl⟩⟩ :=
    authorize_eq_ok_iff.mp h.admitted.authorized
  · obtain ⟨customerId, -, -, -, -, -, hproject, -⟩ :=
      (Delivery.authorizeDeliveryExecution_authorized hauth).rest
    obtain ⟨row, hrow, hprojectId⟩ := Delivery.applyDeliveryExecutionOwnership_row happlied
    rw [key, htype]
    exact confined_of_accessible hgrown hkept (by decide)
      (Delivery.accessible_of_requireProject hproject)
      (Option.map_eq_some_iff.mpr ⟨row, hrow, hprojectId⟩)
  · exact Ownership.authorizeRecord_confined hgrown hplan happlied hkept

/-- **Step.** The references of a committed upsert are confined. -/
lemma Commits.referencesConfined (h : s.Commits env payload grant applied)
    (hagree : LinksAgree s.before.db) (howned : EntitiesOwned s.before.db)
    (hupsert : s.record.deletedAt = none) :
    ReferencesConfined s.after.db.canonical
      ((storedPayload s.before.db s.key).map Payload.items) payload.items s.key := by
  have hkept := h.applied_linksKept
  have happlied := h.admitted.applied
  rw [h.canonical, ← current_payload]
  obtain ⟨-, -, ⟨htype, projectId, hauth, rfl⟩ | ⟨-, -, plan, hplan, rfl⟩⟩ :=
    authorize_eq_ok_iff.mp h.admitted.authorized
  · rw [key, htype]
    exact (Delivery.authorizeDeliveryExecution_authorized hauth).references hagree howned happlied
      hkept
  · rw [hupsert] at hplan
    exact Ownership.authorizeRecord_references hagree howned hplan happlied hkept _

end RecordStep

/-- **Scope confinement of writes.** From any state, every record that a batch commits belongs to a
customer, and unless it is a customer to a project, that is in the scope of the principal or that
this record or an earlier one of the batch created. From a state in which the stored entities have
rows and name the parents of these, the empty one for one, and after any pushes, whatever a
committed upsert refers to belongs to its project.

**Proof sketch.** At each record the scope is that of the principal and what the batch created
(`pushSteps_scopeGrown`); every path of the authority ends in a check of it. -/
theorem pushSteps_confined (env : Env) (inputs : List PushInput) (db : Db) (input : PushInput) :
    ∀ s ∈ pushSteps env (runPushes env inputs db) input, ∀ payload grant applied,
      s.Commits env payload grant applied →
        Confined input.principal (runPushes env inputs db) s.after.db.canonical s.key ∧
        (LinksAgree db → EntitiesOwned db → s.record.deletedAt = none →
          ReferencesConfined s.after.db.canonical
            ((storedPayload s.before.db s.key).map Payload.items) payload.items s.key) := by
  intro s hs payload grant applied hcommits
  obtain ⟨hvalid, hinput⟩ := pushSteps_valid hs
  have hgrown := pushSteps_scopeGrown s hs
  refine ⟨?_, fun hagree howned hupsert => ?_⟩
  · rw [← hinput] at hgrown ⊢
    exact hcommits.confined hgrown
  · -- both invariants hold before the batch, and before each of its records
    have hstart : LinksAgree (runPushes env inputs db) ∧ EntitiesOwned (runPushes env inputs db) :=
      ⟨runPushes_inv hagree fun t ht h => (runSteps_valid ht).1.linksAgree h,
        runPushes_inv howned fun t ht h => (runSteps_valid ht).1.entitiesOwned h⟩
    have hbefore : LinksAgree s.before.db ∧ EntitiesOwned s.before.db := by
      refine pushSteps_workingInv (I := fun w => LinksAgree w.db ∧ EntitiesOwned w.db) hstart ?_ s
        hs
      intro t ht h
      have hvalid := (pushSteps_valid ht).1
      exact ⟨hvalid.linksAgree h.1, hvalid.entitiesOwned h.2⟩
    exact hcommits.referencesConfined hbefore.1 hbefore.2 hupsert

namespace Sample

/-- The key of the sample configuration. -/
def configurationKey : EntityKey := ("o", .configuration, "k")

/-- A configuration of the sample item that lists the sample blocker. -/
def blocked : PushInput :=
  input (record .configuration "k" "6" none
    [("id", .str "k"), ("itemID", .str "i"), ("status", .str "draft"),
      ("customerRequirements", .list []), ("blockerIDs", .list [.str "b"])])

/-- Another member, without any scope. -/
def outsider : Principal :=
  { principal with
    userId := "v"
    membershipId := "n"
    sessionId := "t"
    capabilities := [.sync]
    allCustomers := false
    allProjects := false }

/-- It repeats the record that created the sample customer. -/
def repeated : PushInput :=
  { input (record .customer "c" "1" none [("id", .str "c")]) with principal := outsider }

end Sample

/-- A configuration and the blocker that it lists belong to one project. -/
theorem pushSteps_confined_sample :
    ∃ s ∈ pushSteps Sample.env (runPushes Sample.env Sample.created Sample.db) Sample.blocked,
      s.after.db.canonical.projectOf Sample.blockerKey = s.after.db.canonical.projectOf s.key := by
  have hrun : ((pushSteps Sample.env (runPushes Sample.env Sample.created Sample.db)
      Sample.blocked).any fun s => decide (s.outcome.reason = .committed) &&
        decide (s.key = Sample.configurationKey) && decide (s.record.deletedAt = none) &&
        (decodePayload Sample.env s.record.payload).toOption.all fun payload =>
          ((payload.items.get "blockerIDs").list?.getD []).any (·.isStr "b")) = true := by
    decide +kernel
  obtain ⟨s, hs, hstep⟩ := List.any_eq_true.mp hrun
  simp only [Bool.and_eq_true, decide_eq_true_eq] at hstep
  obtain ⟨⟨⟨hreason, hkey⟩, hupsert⟩, hblockers⟩ := hstep
  obtain ⟨payload, grant, applied, hcommits⟩ := (pushSteps_valid hs).1.commits_of_reason hreason
  simp only [hcommits.admitted.decoded, Except.toOption, Option.all_some] at hblockers
  have hlists := listsBlocker_of_any hblockers
  have hagree : LinksAgree Sample.db := by
    rintro ⟨org, entityType, id⟩ links hlinks
    cases entityType <;> cases hlinks
  have howned : EntitiesOwned Sample.db := fun key hkey => by cases hkey
  have hconfined := (pushSteps_confined Sample.env Sample.created Sample.db Sample.blocked s hs
    payload grant applied hcommits).2 hagree howned hupsert
  rw [hkey] at hconfined
  exact ⟨s, hs, by rw [hkey]; exact hconfined _ (.child hlists)⟩

/-- A record is answered from an earlier mutation to whoever repeats it: its customer is neither in
the scope of the member nor created in the batch. -/
theorem pushSteps_not_confined :
    ∃ s ∈ pushSteps Sample.env (runPushes Sample.env Sample.setup Sample.db) Sample.repeated,
      s.outcome.accepted = true ∧
        ¬ Confined Sample.outsider (runPushes Sample.env Sample.setup Sample.db)
          s.after.db.canonical s.key := by
  have hrun : ((pushSteps Sample.env (runPushes Sample.env Sample.setup Sample.db)
      Sample.repeated).any fun s => s.outcome.accepted &&
        decide (s.after.db.canonical.customerOf s.key = some (Str.ofString "c"))) = true := by
    decide +kernel
  have hstart : ((runPushes Sample.env Sample.setup Sample.db).customers.get
      ("o", "c")).isSome = true := by
    decide +kernel
  obtain ⟨s, hs, hstep⟩ := List.any_eq_true.mp hrun
  rw [Bool.and_eq_true, decide_eq_true_eq] at hstep
  refine ⟨s, hs, hstep.1, fun hconfined => ?_⟩
  obtain ⟨customerId, hcustomer, hscope | ⟨hnew, -⟩⟩ := hconfined.customer
  · obtain rfl := Option.some.inj (hstep.2.symm.trans hcustomer)
    cases hscope
  · obtain rfl := Option.some.inj (hstep.2.symm.trans hcustomer)
    change (runPushes Sample.env Sample.setup Sample.db).customers.get ("o", "c") = none at hnew
    rw [hnew] at hstart
    cases hstart

end VitrialSync
