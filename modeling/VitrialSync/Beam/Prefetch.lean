import VitrialSync.Program.Index
import VitrialSync.Beam.Parity
import VitrialSync.Server.Visibility

set_option relaxedAutoImplicit false
set_option autoImplicit false

/-!
# Visibility of a page on the BEAM

`VitrialSync.Prefetch`: the rows of a loaded world that the visibility of the changes of a page can
depend on, and the visibility from these rows. The page is compared with the reference, which looks
up the rows of one record after another.

## Main definitions

* `VitrialSync.Beam.Prefetch.loadPageContext` — `load_page_context/3`.
* `VitrialSync.Beam.Prefetch.resolveVisible`, `VitrialSync.Beam.Prefetch.resolveDeliveryVisible` —
  `resolve_visible/3` and `resolve_delivery_visible/2`.
* `VitrialSync.Beam.SameRows` — a world and the tables hold the same rows of an organization.

## Main results

* `VitrialSync.Beam.Prefetch.resolve_eq_reference` — on every change of the page, both servers give
  the same answer.
-/

namespace VitrialSync.Beam

open Python Program

/-! ### The page -/

namespace Prefetch

/-- The type and the id of a change. -/
abbrev Change := EntityKind × Str

/-- `%Context{}`. -/
structure Context where
  organizationId : Str
  scope : EffectiveScope
  customers : Table Str Customer
  projects : Table Str Project
  sectors : Table Str ProjectSector
  items : Table Str Item
  projectChildren : Table Change ProjectChild
  itemChildren : Table Change ItemChild
  entities : Table Change StoredEntity

/-- `@project_child_types`. -/
def projectChildTypes : List EntityKind := [.known .quotation, .known .deliveryExecution]

/-- `@item_child_types`. -/
def itemChildTypes : List EntityKind :=
  [.known .measurement, .known .evidence, .known .customerRequirement, .known .configuration,
    .known .configurationVersion, .known .blocker, .known .itemAuditEvent]

/-- `group_by_type/1`. -/
def groupByType (changes : List Change) : Table EntityKind (List Str) := groupBy changes

/-- `entity_pairs/1`. -/
def entityPairs (byType : Table EntityKind (List Str)) : List Change :=
  pairsWhere byType fun _ => true

/-- `type_and_id_pairs/2`. -/
def typeAndIdPairs (byType : Table EntityKind (List Str)) (types : List EntityKind) :
    List Change :=
  pairsWhere byType types.contains

/-- The key of a project child. -/
def childKey (row : ProjectChild) : Change := (row.entityType, row.entityId)

/-- The key of an item child. -/
def itemChildKey (row : ItemChild) : Change := (row.entityType, row.entityId)

/-- The key of an entity. -/
def entityKey (row : StoredEntity) : Change := (row.entityType, row.entityId)

/-- `load_page_context/3`. The sets of wanted keys are lists. -/
def loadPageContext (principal : Principal) (changes : List Change) (world : World) : Context :=
  let byType := groupByType changes
  let entities := index world.entities (entityPairs byType) entityKey
  let customers := index world.customers (members byType (.known .customer)) Customer.customerId
  let projectChildren :=
    index world.projectChildren (typeAndIdPairs byType projectChildTypes) childKey
  let itemChildren := index world.itemChildren (typeAndIdPairs byType itemChildTypes) itemChildKey
  let sectors := index world.projectSectors (members byType (.known .projectSector))
    ProjectSector.projectSectorId
  -- an item's project is only known once its row is loaded
  let reachableItemIds :=
    members byType (.known .item) ++ itemChildren.rows.map fun row => row.2.itemId
  let items := index world.items reachableItemIds Item.itemId
  let wantedProjects :=
    members byType (.known .project) ++ (projectChildren.rows.map fun row => row.2.projectId) ++
      (sectors.rows.map fun row => row.2.projectId) ++ items.rows.map fun row => row.2.projectId
  let projects := index world.projects wantedProjects Project.projectId
  { organizationId := principal.organizationId
    scope := EffectiveScope.fromPrincipal principal
    customers, projects, sectors, items, projectChildren, itemChildren, entities }

/-- The last step of every branch: the project is there and can be accessed. -/
def Context.reaches (ctx : Context) (projectId : Str) : Bool :=
  (ctx.projects.get projectId).any fun project =>
    ctx.scope.canAccessProject project.projectId project.customerId

/-- `resolve_visible/3`. -/
def resolveVisible (ctx : Context) (entityType : EntityKind) (entityId : Str) : Bool :=
  if entityType == .known .customer then
    (ctx.customers.get entityId).any fun customer =>
      ctx.scope.canAccessCustomer customer.customerId
  else if entityType == .known .project then ctx.reaches entityId
  else if entityType == .known .projectSector then
    (ctx.sectors.get entityId).any fun sector => ctx.reaches sector.projectId
  else if entityType == .known .item then
    (ctx.items.get entityId).any fun item => ctx.reaches item.projectId
  else if projectChildTypes.contains entityType then
    (ctx.projectChildren.get (entityType, entityId)).any fun child => ctx.reaches child.projectId
  else if itemChildTypes.contains entityType then
    (ctx.itemChildren.get (entityType, entityId)).any fun child =>
      (ctx.items.get child.itemId).any fun item => ctx.reaches item.projectId
  else false

/-- The part of `resolve_delivery_visible/2` that follows the payload. -/
def deliveryReachable (ctx : Context) (entityId : Str) : Bool :=
  (ctx.projectChildren.get (.known .deliveryExecution, entityId)).any fun child =>
    child.deletedAt.isNone && (ctx.projects.get child.projectId).any fun project =>
      project.deletedAt.isNone && ctx.scope.canAccessProject project.projectId project.customerId

/-- `resolve_delivery_visible/2`. -/
def resolveDeliveryVisible (ctx : Context) (entityId : Str) : Except Fault Bool :=
  match ctx.entities.get (.known .deliveryExecution, entityId) with
  | none => .ok false
  | some entity =>
    if entity.deletedAt.isSome then .ok false
    else do
      match ← payloadObject (some entity) with
      | none => return false
      | some _ => return deliveryReachable ctx entityId

end Prefetch

/-! ### The same rows -/

/-- No two rows of a table have the same key. -/
structure UniqueKeys (world : World) : Prop where
  customers : (world.customers.map Customer.customerId).Nodup
  projects : (world.projects.map Project.projectId).Nodup
  projectSectors : (world.projectSectors.map ProjectSector.projectSectorId).Nodup
  items : (world.items.map Item.itemId).Nodup
  projectChildren : (world.projectChildren.map Prefetch.childKey).Nodup
  itemChildren : (world.itemChildren.map Prefetch.itemChildKey).Nodup
  entities : (world.entities.map Prefetch.entityKey).Nodup

/-- A world and the tables hold the same rows of an organization. -/
structure SameRows (world : World) (db : Db) (organizationId : Str) : Prop
    extends Mirrors world db organizationId where
  customer : ∀ id, (world.customer id).isSome = (db.customers.get (organizationId, id)).isSome
  projectSector : ∀ id, (world.projectSector id).map ProjectSector.projectId =
    (db.projectSectors.get (organizationId, id)).map CanonicalProjectSector.projectId

/-- `record_is_visible` of the reference; for any other type its last line is reached. -/
def recordIsVisible (db : Db) (principal : Principal) (entityType : EntityKind)
    (entityId : Str) : Bool :=
  match entityType with
  | .known type => VitrialSync.recordIsVisible db principal type entityId
  | .other _ => false

namespace Prefetch

/-! ### The rows of the page -/

section Page

variable {world : World} {changes : List Change} (principal : Principal)

/-- The id of a change is wanted under its type. -/
lemma mem_byType {type : EntityKind} {id : Str} (h : (type, id) ∈ changes) :
    id ∈ members (groupByType changes) type :=
  mem_groupBy.mpr h

/-- The change is among those of the types that it has. -/
lemma mem_typeAndIdPairs {types : List EntityKind} {type : EntityKind} {id : Str}
    (h : (type, id) ∈ changes) (htype : type ∈ types) :
    (type, id) ∈ typeAndIdPairs (groupByType changes) types :=
  mem_pairsWhere.mpr ⟨by simpa using htype, h⟩

/-- Rows that are found by a pair of type and id. -/
lemma find_pair {ρ : Type} {rows : List ρ} {type : ρ → EntityKind} {id : ρ → Str}
    (k : EntityKind × Str) :
    (rows.find? fun row => (type row, id row) == k) =
      rows.find? fun row => type row == k.1 && id row == k.2 := by
  congr 1

/-- A project that the page wants. -/
lemma page_project (hu : UniqueKeys world) {id : Str}
    (h : id ∈ members (groupByType changes) (.known .project) ∨
      (∃ row ∈ (loadPageContext principal changes world).projectChildren.rows,
        row.2.projectId = id) ∨
      (∃ row ∈ (loadPageContext principal changes world).sectors.rows, row.2.projectId = id) ∨
      ∃ row ∈ (loadPageContext principal changes world).items.rows, row.2.projectId = id) :
    (loadPageContext principal changes world).projects.get id = world.project id := by
  refine get_index_of_mem hu.projects ?_
  rw [List.mem_append, List.mem_append, List.mem_append, List.mem_map, List.mem_map, List.mem_map]
  rcases h with h | h | h | h
  · exact Or.inl (Or.inl (Or.inl h))
  · exact Or.inl (Or.inl (Or.inr h))
  · exact Or.inl (Or.inr h)
  · exact Or.inr h

/-- A sector of the page, and the project of its row. -/
lemma page_sector (hu : UniqueKeys world) {id : Str} (h : (.known .projectSector, id) ∈ changes) :
    (loadPageContext principal changes world).sectors.get id = world.projectSector id ∧
      ∀ sector, world.projectSector id = some sector →
        (loadPageContext principal changes world).projects.get sector.projectId =
          world.project sector.projectId := by
  refine ⟨get_index_of_mem hu.projectSectors (mem_byType h), fun sector hsector => ?_⟩
  exact page_project principal hu
    (Or.inr (Or.inr (Or.inl ⟨_, mem_rows_index hu.projectSectors (mem_byType h) hsector, rfl⟩)))

/-- An item that the page wants, and the project of its row. -/
lemma page_item (hu : UniqueKeys world) {id : Str}
    (h : id ∈ members (groupByType changes) (.known .item) ∨
      ∃ row ∈ (loadPageContext principal changes world).itemChildren.rows, row.2.itemId = id) :
    (loadPageContext principal changes world).items.get id = world.item id ∧
      ∀ item, world.item id = some item →
        (loadPageContext principal changes world).projects.get item.projectId =
          world.project item.projectId := by
  have hmem : id ∈ members (groupByType changes) (.known .item) ++
      (loadPageContext principal changes world).itemChildren.rows.map fun row => row.2.itemId := by
    rw [List.mem_append, List.mem_map]
    exact h
  refine ⟨get_index_of_mem hu.items hmem, fun item hitem => ?_⟩
  exact page_project principal hu
    (Or.inr (Or.inr (Or.inr ⟨_, mem_rows_index hu.items hmem hitem, rfl⟩)))

/-- A project child of the page, and the project of its row. -/
lemma page_projectChild (hu : UniqueKeys world) {type : EntityKind} {id : Str}
    (h : (type, id) ∈ changes) (htype : type ∈ projectChildTypes) :
    (loadPageContext principal changes world).projectChildren.get (type, id) =
        world.projectChild type id ∧
      ∀ child, world.projectChild type id = some child →
        (loadPageContext principal changes world).projects.get child.projectId =
          world.project child.projectId := by
  have hmem := mem_typeAndIdPairs h htype
  refine ⟨(get_index_of_mem hu.projectChildren hmem).trans (find_pair (type, id)),
    fun child hchild => ?_⟩
  exact page_project principal hu (Or.inr (Or.inl
    ⟨_, mem_rows_index hu.projectChildren hmem ((find_pair (type, id)).trans hchild), rfl⟩))

/-- An item child of the page, its item and the project of that. -/
lemma page_itemChild (hu : UniqueKeys world) {type : EntityKind} {id : Str}
    (h : (type, id) ∈ changes) (htype : type ∈ itemChildTypes) :
    (loadPageContext principal changes world).itemChildren.get (type, id) =
        world.itemChild type id ∧
      ∀ child, world.itemChild type id = some child →
        (loadPageContext principal changes world).items.get child.itemId =
            world.item child.itemId ∧
          ∀ item, world.item child.itemId = some item →
            (loadPageContext principal changes world).projects.get item.projectId =
              world.project item.projectId := by
  have hmem := mem_typeAndIdPairs h htype
  refine ⟨(get_index_of_mem hu.itemChildren hmem).trans (find_pair (type, id)),
    fun child hchild => ?_⟩
  exact page_item principal hu (Or.inr
    ⟨_, mem_rows_index hu.itemChildren hmem ((find_pair (type, id)).trans hchild), rfl⟩)

/-- An entity of the page. -/
lemma page_entity (hu : UniqueKeys world) {type : EntityKind} {id : Str}
    (h : (type, id) ∈ changes) :
    (loadPageContext principal changes world).entities.get (type, id) = world.entity type id :=
  (get_index_of_mem hu.entities (mem_pairsWhere.mpr ⟨rfl, h⟩)).trans (find_pair (type, id))

end Page

/-! ### The reference on the same rows -/

section Reference

variable {world : World} {db : Db} {principal : Principal} {changes : List Change}

/-- Rows that agree in what is read of them pass the same test. -/
lemma any_congr {α β γ : Type} {row : Option α} {row' : Option β} {f : α → γ} {g : β → γ}
    (h : row.map f = row'.map g) {p : α → Bool} {q : γ → Bool}
    (hp : ∀ a, row = some a → p a = q (f a)) : row.any p = row'.any fun b => q (g b) := by
  cases row with
  | none =>
    cases row' with
    | none => rfl
    | some b => cases h
  | some a =>
    cases row' with
    | none => cases h
    | some b =>
      rw [Option.map_some, Option.map_some, Option.some.injEq] at h
      rw [Option.any_some, Option.any_some, hp a rfl, h]

/-- The project with an id is reached on the page if it is reachable for the reference. -/
lemma reaches_eq (hrows : SameRows world db principal.organizationId) {id : Str}
    (hproject : (loadPageContext principal changes world).projects.get id = world.project id) :
    (loadPageContext principal changes world).reaches id =
      projectReachable (EffectiveScope.fromPrincipal principal) id
        (db.projects.get (principal.organizationId, id)) := by
  rw [Context.reaches, hproject,
    any_congr (q := fun r => (EffectiveScope.fromPrincipal principal).canAccessProject id r.1)
      (hrows.project id)]
  · cases db.projects.get (principal.organizationId, id) <;> rfl
  · intro project hfound
    have hid : project.projectId = id := by simpa using List.find?_some hfound
    rw [hid]
    rfl

/-- Resolution of a project child. -/
lemma resolveVisible_projectChild (hu : UniqueKeys world)
    (hrows : SameRows world db principal.organizationId) {type : EntityType} {id : Str}
    (h : (.known type, id) ∈ changes) (htype : type.isProjectChild = true) :
    resolveVisible (loadPageContext principal changes world) (.known type) id =
      VitrialSync.recordIsVisible db principal type id := by
  have hmem : EntityKind.known type ∈ projectChildTypes := by
    cases type <;> first | exact absurd htype (by decide) | decide
  obtain ⟨hchild, hproject⟩ := page_projectChild principal hu h hmem
  have hresolve : resolveVisible (loadPageContext principal changes world) (.known type) id =
      (world.projectChild (.known type) id).any fun child =>
        (loadPageContext principal changes world).reaches child.projectId := by
    rw [← hchild]
    cases type <;> first | exact absurd htype (by decide) | rfl
  have hreference : VitrialSync.recordIsVisible db principal type id =
      (db.projectChildren.get (principal.organizationId, type, id)).any fun child =>
        projectReachable (EffectiveScope.fromPrincipal principal) child.projectId
          (db.projects.get (principal.organizationId, child.projectId)) := by
    cases type <;> try exact absurd htype (by decide)
    all_goals
      rw [VitrialSync.recordIsVisible]
      cases db.projectChildren.get (principal.organizationId, _, id) <;> rfl
  rw [hresolve, hreference, any_congr (hrows.projectChild type id)
    (q := fun r => projectReachable (EffectiveScope.fromPrincipal principal) r.1
      (db.projects.get (principal.organizationId, r.1)))]
  exact fun child hfound => reaches_eq hrows (hproject child hfound)

/-- Resolution of an item child. -/
lemma resolveVisible_itemChild (hu : UniqueKeys world)
    (hrows : SameRows world db principal.organizationId) {type : EntityType} {id : Str}
    (h : (.known type, id) ∈ changes) (htype : type.isItemChild = true) :
    resolveVisible (loadPageContext principal changes world) (.known type) id =
      VitrialSync.recordIsVisible db principal type id := by
  have hmem : EntityKind.known type ∈ itemChildTypes := by
    cases type <;> first | exact absurd htype (by decide) | decide
  obtain ⟨hchild, hitem⟩ := page_itemChild principal hu h hmem
  have hresolve : resolveVisible (loadPageContext principal changes world) (.known type) id =
      (world.itemChild (.known type) id).any fun child =>
        ((loadPageContext principal changes world).items.get child.itemId).any fun item =>
          (loadPageContext principal changes world).reaches item.projectId := by
    rw [← hchild]
    cases type <;> first | exact absurd htype (by decide) | rfl
  have hreference : VitrialSync.recordIsVisible db principal type id =
      (db.itemChildren.get (principal.organizationId, type, id)).any fun child =>
        (db.items.get (principal.organizationId, child.itemId)).any fun item =>
          projectReachable (EffectiveScope.fromPrincipal principal) item.projectId
            (db.projects.get (principal.organizationId, item.projectId)) := by
    cases type <;> try exact absurd htype (by decide)
    all_goals
      simp only [VitrialSync.recordIsVisible]
      cases db.itemChildren.get (principal.organizationId, _, id) with
      | none => rfl
      | some child =>
        simp only [Option.any_some]
        cases db.items.get (principal.organizationId, child.itemId) <;> rfl
  rw [hresolve, hreference, any_congr (hrows.itemChild type id)
    (q := fun r => (db.items.get (principal.organizationId, r.1)).any fun item =>
      projectReachable (EffectiveScope.fromPrincipal principal) item.projectId
        (db.projects.get (principal.organizationId, item.projectId)))]
  intro child hfound
  obtain ⟨hitems, hprojects⟩ := hitem child hfound
  rw [hitems, any_congr (hrows.item child.itemId)
    (q := fun r => projectReachable (EffectiveScope.fromPrincipal principal) r.1
      (db.projects.get (principal.organizationId, r.1)))]
  exact fun item hitemFound => reaches_eq hrows (hprojects item hitemFound)

/-- Resolution of a member of the hierarchy. -/
lemma resolveVisible_hierarchy (hu : UniqueKeys world)
    (hrows : SameRows world db principal.organizationId) {type : EntityType} {id : Str}
    (h : (.known type, id) ∈ changes)
    (htype : type ∈ [EntityType.customer, .project, .projectSector, .item]) :
    resolveVisible (loadPageContext principal changes world) (.known type) id =
      VitrialSync.recordIsVisible db principal type id := by
  simp only [List.mem_cons, List.not_mem_nil, or_false] at htype
  rcases htype with rfl | rfl | rfl | rfl
  · have hcustomer : (loadPageContext principal changes world).customers.get id =
        world.customer id := get_index_of_mem hu.customers (mem_byType h)
    change ((loadPageContext principal changes world).customers.get id).any _ =
      ((db.customers.get (principal.organizationId, id)).isSome && _)
    rw [hcustomer, ← hrows.customer id]
    cases hfound : world.customer id with
    | none => rfl
    | some customer =>
      have hid : customer.customerId = id := by simpa using List.find?_some hfound
      rw [Option.any_some, Option.isSome_some, Bool.true_and, hid]
      rfl
  · exact reaches_eq hrows (page_project principal hu (Or.inl (mem_byType h)))
  · obtain ⟨hsector, hproject⟩ := page_sector principal hu h
    change ((loadPageContext principal changes world).sectors.get id).any _ = _
    rw [hsector, any_congr (hrows.projectSector id)
      (q := fun r => projectReachable (EffectiveScope.fromPrincipal principal) r
        (db.projects.get (principal.organizationId, r)))
      fun sector hfound => reaches_eq hrows (hproject sector hfound)]
    rw [VitrialSync.recordIsVisible]
    cases db.projectSectors.get (principal.organizationId, id) <;> rfl
  · obtain ⟨hitem, hproject⟩ := page_item principal hu (Or.inl (mem_byType h))
    change ((loadPageContext principal changes world).items.get id).any _ = _
    rw [hitem, any_congr (hrows.item id)
      (q := fun r => projectReachable (EffectiveScope.fromPrincipal principal) r.1
        (db.projects.get (principal.organizationId, r.1)))
      fun item hfound => reaches_eq hrows (hproject item hfound)]
    rw [VitrialSync.recordIsVisible]
    cases db.items.get (principal.organizationId, id) <;> rfl

/-- Resolution of a change of the page, of any type. -/
lemma resolveVisible_eq_reference (hu : UniqueKeys world)
    (hrows : SameRows world db principal.organizationId) {type : EntityKind} {id : Str}
    (h : (type, id) ∈ changes) :
    resolveVisible (loadPageContext principal changes world) type id =
      recordIsVisible db principal type id := by
  cases type with
  | other name => rfl
  | known type =>
    by_cases hproject : type.isProjectChild = true
    · exact resolveVisible_projectChild hu hrows h hproject
    by_cases hitem : type.isItemChild = true
    · exact resolveVisible_itemChild hu hrows h hitem
    refine resolveVisible_hierarchy hu hrows h ?_
    revert hproject hitem
    cases type <;> decide

/-- The tests of a delivery that follow its payload. -/
lemma deliveryReachable_eq (hu : UniqueKeys world)
    (hrows : SameRows world db principal.organizationId) {id : Str}
    (h : (.known .deliveryExecution, id) ∈ changes) :
    deliveryReachable (loadPageContext principal changes world) id =
      (db.projectChildren.get (principal.organizationId, .deliveryExecution, id)).any fun child =>
        !child.deletedAt.isSome &&
          (db.projects.get (principal.organizationId, child.projectId)).any fun project =>
            !project.deletedAt.isSome && (EffectiveScope.fromPrincipal principal).canAccessProject
              child.projectId project.customerId := by
  obtain ⟨hchild, hproject⟩ := page_projectChild principal hu h (by decide)
  rw [deliveryReachable, hchild, any_congr (hrows.projectChild .deliveryExecution id)
    (q := fun r => !r.2 && (db.projects.get (principal.organizationId, r.1)).any fun project =>
      !project.deletedAt.isSome && (EffectiveScope.fromPrincipal principal).canAccessProject r.1
        project.customerId)]
  intro child hfound
  rw [hproject child hfound, any_congr (hrows.project child.projectId)
    (q := fun r => !r.2 &&
      (EffectiveScope.fromPrincipal principal).canAccessProject child.projectId r.1)]
  · rw [Option.not_isSome]
  · intro project hfound
    have hid : project.projectId = child.projectId := by simpa using List.find?_some hfound
    rw [hid, Option.not_isSome]
    rfl

/-- Resolution of a delivery of the page.

**Proof sketch.** The entity is the same on both sides, so that its payload is an object for both or
for neither; what follows are the same tests of the same rows. -/
lemma resolveDeliveryVisible_eq_reference (hu : UniqueKeys world)
    (hrows : SameRows world db principal.organizationId) {id : Str}
    (h : (.known .deliveryExecution, id) ∈ changes) :
    resolveDeliveryVisible (loadPageContext principal changes world) id =
      .ok (deliveryExecutionIsVisible db principal id) := by
  have hentity := hrows.entity .deliveryExecution id
  rw [resolveDeliveryVisible, page_entity principal hu h, deliveryReachable_eq hu hrows h]
  simp only [deliveryExecutionIsVisible]
  generalize world.entity (.known .deliveryExecution) id = current at hentity ⊢
  generalize db.entities.get (principal.organizationId, .deliveryExecution, id) = stored at hentity ⊢
  cases hentity with
  | absent => rfl
  | @stored entity row payload deleted =>
    simp only [StoredEntity.deletedAt, payloadObject, deleted]
    cases row.deletedAt with
    | some deletion => rfl
    | none =>
      cases hobject : entity.payload.object? with
      | none =>
        rw [hobject, Option.map_none] at payload
        rw [Option.map_eq_none_iff.mp payload.symm]
        rfl
      | some object =>
        rw [hobject, Option.map_some] at payload
        obtain ⟨payloadJson, hpayload, -⟩ := Option.map_eq_some_iff.mp payload.symm
        rw [hpayload]
        cases db.projectChildren.get (principal.organizationId, .deliveryExecution, id) with
        | none => rfl
        | some child =>
          obtain ⟨projectId, deletedAt⟩ := child
          cases deletedAt with
          | some deletion => rfl
          | none =>
            simp only [Option.any_some]
            cases db.projects.get (principal.organizationId, projectId) with
            | none => rfl
            | some project =>
              obtain ⟨customerId, deletedAt⟩ := project
              cases deletedAt <;> rfl

/-- **Page visibility.** For every world with unique keys, every principal and every list of changes,
the rows that the page loads decide for each of its changes what the reference decides on the same
rows, one record at a time. -/
theorem resolve_eq_reference (hu : UniqueKeys world)
    (hrows : SameRows world db principal.organizationId) (changes : List Change) :
    ∀ type id, (type, id) ∈ changes →
      resolveVisible (loadPageContext principal changes world) type id =
          recordIsVisible db principal type id ∧
        (type = .known .deliveryExecution →
          resolveDeliveryVisible (loadPageContext principal changes world) id =
            .ok (deliveryExecutionIsVisible db principal id)) := by
  intro type id h
  refine ⟨resolveVisible_eq_reference hu hrows h, ?_⟩
  rintro rfl
  exact resolveDeliveryVisible_eq_reference hu hrows h

end Reference

end Prefetch

/-! ### Samples -/

namespace Sample

/-- A world with a live project and a quotation of it that is a tombstone. -/
def pageWorld : World :=
  { World.empty with
    projects := [⟨"p", "c", none, true⟩]
    projectChildren := [⟨.known .quotation, "q", "p", some "2026-01-01", true⟩] }

/-- The tables with the same rows. -/
def pageTables : Db :=
  { VitrialSync.Sample.db with
    projects := Table.empty.set ("o", "p") ⟨"c", none⟩
    projectChildren := Table.empty.set ("o", .quotation, "q") ⟨"p", some VitrialSync.Sample.time⟩ }

/-- No key occurs twice. -/
lemma pageWorld_unique : UniqueKeys pageWorld where
  customers := List.nodup_nil
  projects := List.nodup_singleton _
  projectSectors := List.nodup_nil
  items := List.nodup_nil
  projectChildren := List.nodup_singleton _
  itemChildren := List.nodup_nil
  entities := List.nodup_nil

/-- The rows are the same. -/
lemma pageWorld_rows : SameRows pageWorld pageTables VitrialSync.Sample.principal.organizationId where
  entity := fun _ _ => .absent
  project := by
    intro id
    by_cases h : id = Str.ofString "p"
    · obtain rfl := h
      rfl
    · rw [pageTables, Table.get_set_of_ne _ _ fun heq => h (Prod.mk.inj heq).2]
      have hport : pageWorld.project id = none := by
        simpa [pageWorld, World.project] using Ne.symm h
      rw [hport]
      rfl
  item := fun _ => rfl
  itemChild := fun _ _ => rfl
  projectChild := by
    intro type id
    by_cases h : type = .quotation ∧ id = Str.ofString "q"
    · obtain ⟨rfl, rfl⟩ := h
      rfl
    · rw [pageTables, Table.get_set_of_ne]
      · have hport : pageWorld.projectChild (.known type) id = none := by
          simp only [pageWorld, World.projectChild, List.find?_eq_none, List.mem_singleton,
            forall_eq, Bool.and_eq_true, beq_iff_eq, EntityKind.known.injEq]
          exact fun hkey => h ⟨hkey.1.symm, hkey.2.symm⟩
        rw [hport]
        rfl
      · intro heq
        simp only [Prod.mk.injEq] at heq
        exact h heq.2
  customer := fun _ => rfl
  projectSector := fun _ => rfl

end Sample

namespace Prefetch

/-- The servers agree on a page with the tombstone, and on one with a delivery that is not there. -/
theorem resolve_eq_reference_sample :
    resolveVisible (loadPageContext VitrialSync.Sample.principal
        [(.known .quotation, "q"), (.other "note", "q")] Sample.pageWorld) (.known .quotation) "q" =
      recordIsVisible Sample.pageTables VitrialSync.Sample.principal (.known .quotation) "q" ∧
    resolveDeliveryVisible (loadPageContext VitrialSync.Sample.principal
        [(.known .deliveryExecution, "q")] Sample.pageWorld) "q" =
      .ok (deliveryExecutionIsVisible Sample.pageTables VitrialSync.Sample.principal "q") := by
  constructor
  · exact (resolve_eq_reference Sample.pageWorld_unique Sample.pageWorld_rows _ _ _
      List.mem_cons_self).1
  · exact (resolve_eq_reference Sample.pageWorld_unique Sample.pageWorld_rows _ _ _
      (List.mem_singleton_self _)).2 rfl

end Prefetch

end VitrialSync.Beam
