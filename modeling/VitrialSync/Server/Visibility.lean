import Mathlib.Data.List.Dedup
import VitrialSync.Server.Push

set_option relaxedAutoImplicit false
set_option autoImplicit false

/-!
# Visibility of changes

Whether a principal may read a record in a pull: per record, as `record_is_visible` of
`app/ownership.py` and `delivery_execution_is_visible` of `app/delivery_execution.py` decide it, and
for a whole page, as `app/pull_prefetch.py` does. The page loads the rows of its changes in a fixed
number of queries, each of which collects its keys from the rows loaded before it.

## Main definitions

* `VitrialSync.recordIsVisible`, `VitrialSync.deliveryExecutionIsVisible` — visibility of one record.
* `VitrialSync.loadKeyed` — `_load_keyed`.
* `VitrialSync.PageContext`, `VitrialSync.loadPageContext` — the rows of a page.
* `VitrialSync.resolveVisible`, `VitrialSync.resolveDeliveryVisible` — visibility from these rows.

## Main results

* `VitrialSync.get_loadKeyed` — a batched load is a restriction of the table.
* `VitrialSync.resolve_eq_isVisible` — the two notions agree on every change of the page.
-/

namespace VitrialSync

open Python Program

/-! ### One record -/

/-- The last two lines of every branch: the project of a record is reachable. -/
def projectReachable (scope : EffectiveScope) (projectId : Str) :
    Option CanonicalProject → Bool
  | none => false
  | some project => scope.canAccessProject projectId project.customerId

/-- `record_is_visible`. -/
def recordIsVisible (db : Db) (principal : Principal) (entityType : EntityType) (entityId : Str) :
    Bool :=
  let org := principal.organizationId
  let scope := EffectiveScope.fromPrincipal principal
  let reachable (projectId : Str) : Bool :=
    projectReachable scope projectId (db.projects.get (org, projectId))
  match entityType with
  | .customer => (db.customers.get (org, entityId)).isSome && scope.canAccessCustomer entityId
  | .project => reachable entityId
  | .projectSector =>
    match db.projectSectors.get (org, entityId) with
    | none => false
    | some sector => reachable sector.projectId
  | .item =>
    match db.items.get (org, entityId) with
    | none => false
    | some item => reachable item.projectId
  | .quotation | .deliveryExecution =>
    match db.projectChildren.get (org, entityType, entityId) with
    | none => false
    | some child => reachable child.projectId
  | _ =>
    match db.itemChildren.get (org, entityType, entityId) with
    | none => false
    | some child =>
      match db.items.get (org, child.itemId) with
      | none => false
      | some item => reachable item.projectId

/-- `delivery_execution_is_visible`. -/
def deliveryExecutionIsVisible (db : Db) (principal : Principal) (entityId : Str) : Bool :=
  let org := principal.organizationId
  match db.entities.get (org, .deliveryExecution, entityId) with
  | none => false
  | some entity =>
    if entity.deletedAt.isSome || entity.payloadJson.isNone then false
    else
      match db.projectChildren.get (org, .deliveryExecution, entityId) with
      | none => false
      | some child =>
        if child.deletedAt.isSome then false
        else
          match db.projects.get (org, child.projectId) with
          | none => false
          | some project =>
            if project.deletedAt.isSome then false
            else
              (EffectiveScope.fromPrincipal principal).canAccessProject child.projectId
                project.customerId

/-! ### Batched loads -/

/-- `MAX_BATCH`. -/
def maxBatch : ℕ := 2000

section Load

variable {κ ν : Type}

/-- `_chunks`. -/
def chunks (values : List κ) (size : ℕ) : List (List κ) :=
  (List.range ((values.length + size - 1) / size)).map fun i => (values.drop (i * size)).take size

/-- The chunks hold the values. -/
lemma mem_flatten_chunks (values : List κ) {size : ℕ} (hsize : 0 < size) (x : κ) :
    x ∈ (chunks values size).flatten ↔ x ∈ values := by
  simp only [chunks, List.mem_flatten, List.mem_map, List.mem_range, exists_exists_and_eq_and]
  constructor
  · rintro ⟨i, -, hx⟩
    exact List.mem_of_mem_drop (List.mem_of_mem_take hx)
  · intro hx
    obtain ⟨j, hj, rfl⟩ := List.mem_iff_getElem.mp hx
    -- the value at `j` is in chunk `j / size`, at `j % size`
    have hdiv := Nat.div_add_mod' j size
    have hmod := Nat.mod_lt j hsize
    refine ⟨j / size, ?_, List.mem_iff_getElem.mpr ⟨j % size, ?_, ?_⟩⟩
    · rw [Nat.div_lt_iff_lt_mul hsize]
      have hlast := Nat.div_add_mod' (values.length + size - 1) size
      have hmod' := Nat.mod_lt (values.length + size - 1) hsize
      omega
    · rw [List.length_take, List.length_drop]
      omega
    · rw [List.getElem_take, List.getElem_drop]
      congr 1

variable [BEq κ] [LawfulBEq κ]

/-- The rows of one chunk, added to those loaded before it. -/
def loadChunk (table out : Table κ ν) (chunk : List κ) : Table κ ν :=
  (table.rows.filter fun row => chunk.contains row.1).foldl (fun out row => out.set row.1 row.2) out

/-- `_load_keyed`: one query for each chunk of the keys. -/
def loadKeyed (table : Table κ ν) (keys : List κ) : Table κ ν :=
  (chunks keys maxBatch).foldl (loadChunk table) .empty

/-- Rows of a table, added to another one. -/
lemma get_foldl_set (table : Table κ ν) {rows : List (κ × ν)}
    (hrows : ∀ row ∈ rows, table.get row.1 = some row.2) (out : Table κ ν) (k : κ) :
    (rows.foldl (fun out row => out.set row.1 row.2) out).get k =
      if k ∈ rows.map Prod.fst then table.get k else out.get k := by
  induction rows generalizing out with
  | nil => simp
  | cons row rows ih =>
    rw [List.forall_mem_cons] at hrows
    rw [List.foldl_cons, ih hrows.2]
    by_cases hk : k ∈ rows.map Prod.fst
    · rw [if_pos hk, if_pos (by rw [List.map_cons]; exact List.mem_cons_of_mem _ hk)]
    · rw [if_neg hk, Table.get_set]
      by_cases hrow : k = row.1
      · subst hrow
        simp [hrows.1]
      · simp only [beq_iff_eq, hrow, ↓reduceIte, List.map_cons, List.mem_cons, hk, or_self]

/-- One chunk of a batched load. -/
lemma get_loadChunk (table out : Table κ ν) (chunk : List κ) (k : κ) :
    (loadChunk table out chunk).get k =
      if k ∈ chunk then (table.get k).or (out.get k) else out.get k := by
  have hrows : ∀ row ∈ table.rows.filter fun row => chunk.contains row.1,
      table.get row.1 = some row.2 := by
    intro row hrow
    exact (table.mem_rows_iff row.1 row.2).mp (List.mem_of_mem_filter hrow)
  have hkeys : k ∈ (table.rows.filter fun row => chunk.contains row.1).map Prod.fst ↔
      k ∈ chunk ∧ (table.get k).isSome := by
    simp only [List.mem_map, List.mem_filter, Prod.exists, exists_and_right, exists_eq_right,
      List.contains_iff_mem, Table.mem_rows_iff, Option.isSome_iff_exists]
    tauto
  rw [loadChunk, get_foldl_set table hrows]
  by_cases hk : k ∈ chunk
  · rw [if_pos hk]
    cases hget : table.get k with
    | none => rw [if_neg (by simp only [hkeys, hget]; simp), Option.none_or]
    | some v => rw [if_pos (hkeys.mpr ⟨hk, by simp [hget]⟩), Option.some_or]
  · rw [if_neg hk, if_neg fun h => hk (hkeys.mp h).1]

/-- Several chunks of a batched load. -/
lemma get_foldl_loadChunk (table : Table κ ν) (cs : List (List κ)) (out : Table κ ν) (k : κ) :
    (cs.foldl (loadChunk table) out).get k =
      if k ∈ cs.flatten then (table.get k).or (out.get k) else out.get k := by
  induction cs generalizing out with
  | nil => simp
  | cons c cs ih =>
    rw [List.foldl_cons, ih, get_loadChunk, List.flatten_cons]
    cases hget : table.get k with
    | none => simp
    | some v =>
      by_cases hc : k ∈ c
      · simp [hc]
      · simp [hc]

/-- **Batched load.** The result has the rows of the table under the given keys. -/
theorem get_loadKeyed (table : Table κ ν) (keys : List κ) (k : κ) :
    (loadKeyed table keys).get k = if k ∈ keys then table.get k else none := by
  have hbatch : 0 < maxBatch := by decide
  rw [loadKeyed, get_foldl_loadChunk]
  by_cases hk : k ∈ keys
  · rw [if_pos ((mem_flatten_chunks keys hbatch k).mpr hk), if_pos hk, Table.get_empty,
      Option.or_none]
  · rw [if_neg fun h => hk ((mem_flatten_chunks keys hbatch k).mp h), if_neg hk, Table.get_empty]

/-- A key that was asked for has its row. -/
lemma get_loadKeyed_of_mem {table : Table κ ν} {keys : List κ} {k : κ} (h : k ∈ keys) :
    (loadKeyed table keys).get k = table.get k := by
  rw [get_loadKeyed, if_pos h]

/-- A row that was loaded is a row of the table. -/
lemma mem_rows_loadKeyed {table : Table κ ν} {keys : List κ} {k : κ} {v : ν} (hk : k ∈ keys)
    (hv : table.get k = some v) : (k, v) ∈ (loadKeyed table keys).rows := by
  rw [Table.mem_rows_iff, get_loadKeyed_of_mem hk, hv]

end Load

/-! ### A page -/

/-- `PageContext`. The maps keep the organization in their keys. -/
structure PageContext where
  organizationId : Str
  scope : EffectiveScope
  customers : Table OrgKey CanonicalCustomer
  projects : Table OrgKey CanonicalProject
  sectors : Table OrgKey CanonicalProjectSector
  items : Table OrgKey CanonicalItem
  projectChildren : Table EntityKey CanonicalProjectChild
  itemChildren : Table EntityKey CanonicalItemChild
  entities : Table EntityKey SyncEntity

/-- `by_type.get(t, [])`: the ids of the changes of a type. -/
def idsOfType (changes : List SyncChangeLog) (entityType : EntityType) : List Str :=
  (changes.filter fun c => c.entityType == entityType).map fun c => c.entityId.text

/-- The keys of the changes whose type satisfies a condition, type by type. -/
def keysOfTypes (org : Str) (changes : List SyncChangeLog) (p : EntityType → Bool) :
    List EntityKey :=
  (((changes.map SyncChangeLog.entityType).dedup).filter p).flatMap fun t =>
    (idsOfType changes t).map fun id => (org, t, id)

/-- `load_page_context`. -/
def loadPageContext (db : Db) (principal : Principal) (changes : List SyncChangeLog) :
    PageContext :=
  let org := principal.organizationId
  let orgKeys (ids : List Str) : List OrgKey := ids.map fun id => (org, id)
  let entities := loadKeyed db.entities (keysOfTypes org changes fun _ => true)
  let customers := loadKeyed db.customers (orgKeys (idsOfType changes .customer))
  let projectChildren :=
    loadKeyed db.projectChildren (keysOfTypes org changes EntityType.isProjectChild)
  let itemChildren := loadKeyed db.itemChildren (keysOfTypes org changes EntityType.isItemChild)
  let sectors := loadKeyed db.projectSectors (orgKeys (idsOfType changes .projectSector))
  let reachableItemIds :=
    (idsOfType changes .item ++ itemChildren.rows.map fun row => row.2.itemId).dedup
  let items := loadKeyed db.items (orgKeys reachableItemIds)
  let wantedProjects :=
    (idsOfType changes .project ++ (projectChildren.rows.map fun row => row.2.projectId) ++
      (sectors.rows.map fun row => row.2.projectId) ++
      items.rows.map fun row => row.2.projectId).dedup
  let projects := loadKeyed db.projects (orgKeys wantedProjects)
  { organizationId := org
    scope := EffectiveScope.fromPrincipal principal
    customers, projects, sectors, items, projectChildren, itemChildren, entities }

/-- `resolve_visible`. -/
def resolveVisible (ctx : PageContext) (entityType : EntityType) (entityId : Str) : Bool :=
  let org := ctx.organizationId
  let reachable (projectId : Str) : Bool :=
    projectReachable ctx.scope projectId (ctx.projects.get (org, projectId))
  match entityType with
  | .customer => (ctx.customers.get (org, entityId)).isSome && ctx.scope.canAccessCustomer entityId
  | .project => reachable entityId
  | .projectSector =>
    match ctx.sectors.get (org, entityId) with
    | none => false
    | some sector => reachable sector.projectId
  | .item =>
    match ctx.items.get (org, entityId) with
    | none => false
    | some item => reachable item.projectId
  | .quotation | .deliveryExecution =>
    match ctx.projectChildren.get (org, entityType, entityId) with
    | none => false
    | some child => reachable child.projectId
  | _ =>
    match ctx.itemChildren.get (org, entityType, entityId) with
    | none => false
    | some child =>
      match ctx.items.get (org, child.itemId) with
      | none => false
      | some item => reachable item.projectId

/-- `resolve_delivery_visible`. -/
def resolveDeliveryVisible (ctx : PageContext) (entityId : Str) : Bool :=
  let org := ctx.organizationId
  match ctx.entities.get (org, .deliveryExecution, entityId) with
  | none => false
  | some entity =>
    if entity.deletedAt.isSome || entity.payloadJson.isNone then false
    else
      match ctx.projectChildren.get (org, .deliveryExecution, entityId) with
      | none => false
      | some child =>
        if child.deletedAt.isSome then false
        else
          match ctx.projects.get (org, child.projectId) with
          | none => false
          | some project =>
            if project.deletedAt.isSome then false
            else ctx.scope.canAccessProject child.projectId project.customerId

/-! ### The page has the rows that matter -/

section Page

variable {changes : List SyncChangeLog}

/-- The id of a change is among the ids of its type. -/
lemma mem_idsOfType {change : SyncChangeLog} (h : change ∈ changes) :
    change.entityId.text ∈ idsOfType changes change.entityType :=
  List.mem_map_of_mem (List.mem_filter.mpr ⟨h, by simp⟩)

/-- The key of an id is among the keys of its type. -/
lemma mem_keysOfTypes {t : EntityType} {id : Str} (h : id ∈ idsOfType changes t) (org : Str)
    {p : EntityType → Bool} (hp : p t = true) : (org, t, id) ∈ keysOfTypes org changes p := by
  obtain ⟨change, hchange, rfl⟩ := List.mem_map.mp h
  obtain ⟨hmem, htype⟩ := List.mem_filter.mp hchange
  obtain rfl : change.entityType = t := by simpa using htype
  refine List.mem_flatMap.mpr ⟨change.entityType, ?_, List.mem_map_of_mem (mem_idsOfType hmem)⟩
  exact List.mem_filter.mpr ⟨List.mem_dedup.mpr (List.mem_map_of_mem hmem), hp⟩

variable (db : Db) (principal : Principal)

/-- The project of a project id that the page wants. -/
lemma page_projects {id : Str}
    (h : id ∈ idsOfType changes .project ∨
      (∃ row ∈ (loadPageContext db principal changes).projectChildren.rows,
        row.2.projectId = id) ∨
      (∃ row ∈ (loadPageContext db principal changes).sectors.rows, row.2.projectId = id) ∨
      ∃ row ∈ (loadPageContext db principal changes).items.rows, row.2.projectId = id) :
    (loadPageContext db principal changes).projects.get (principal.organizationId, id) =
      db.projects.get (principal.organizationId, id) := by
  refine get_loadKeyed_of_mem (List.mem_map_of_mem (List.mem_dedup.mpr ?_))
  rw [List.mem_append, List.mem_append, List.mem_append, List.mem_map, List.mem_map, List.mem_map]
  rcases h with h | h | h | h
  · exact Or.inl (Or.inl (Or.inl h))
  · exact Or.inl (Or.inl (Or.inr h))
  · exact Or.inl (Or.inr h)
  · exact Or.inr h

/-- An item that the page wants, and the project of its row. -/
lemma page_items {id : Str}
    (h : id ∈ idsOfType changes .item ∨
      ∃ row ∈ (loadPageContext db principal changes).itemChildren.rows, row.2.itemId = id) :
    (loadPageContext db principal changes).items.get (principal.organizationId, id) =
        db.items.get (principal.organizationId, id) ∧
      ∀ item, db.items.get (principal.organizationId, id) = some item →
        (loadPageContext db principal changes).projects.get
            (principal.organizationId, item.projectId) =
          db.projects.get (principal.organizationId, item.projectId) := by
  have hmem : (principal.organizationId, id) ∈
      ((idsOfType changes .item ++
        ((loadPageContext db principal changes).itemChildren.rows.map
          fun row => row.2.itemId)).dedup).map fun id => (principal.organizationId, id) := by
    refine List.mem_map_of_mem (List.mem_dedup.mpr ?_)
    rw [List.mem_append, List.mem_map]
    exact h
  refine ⟨get_loadKeyed_of_mem hmem, fun item hitem => page_projects db principal ?_⟩
  exact Or.inr (Or.inr (Or.inr ⟨_, mem_rows_loadKeyed hmem hitem, rfl⟩))

/-- A project child of the page, and the project of its row. -/
lemma page_projectChildren {t : EntityType} {id : Str} (h : id ∈ idsOfType changes t)
    (ht : t.isProjectChild = true) :
    (loadPageContext db principal changes).projectChildren.get
          (principal.organizationId, t, id) =
        db.projectChildren.get (principal.organizationId, t, id) ∧
      ∀ child, db.projectChildren.get (principal.organizationId, t, id) = some child →
        (loadPageContext db principal changes).projects.get
            (principal.organizationId, child.projectId) =
          db.projects.get (principal.organizationId, child.projectId) := by
  have hmem := mem_keysOfTypes h principal.organizationId ht
  refine ⟨get_loadKeyed_of_mem hmem, fun child hchild => page_projects db principal ?_⟩
  exact Or.inr (Or.inl ⟨_, mem_rows_loadKeyed hmem hchild, rfl⟩)

/-- A sector of the page, and the project of its row. -/
lemma page_sectors {id : Str} (h : id ∈ idsOfType changes .projectSector) :
    (loadPageContext db principal changes).sectors.get (principal.organizationId, id) =
        db.projectSectors.get (principal.organizationId, id) ∧
      ∀ sector, db.projectSectors.get (principal.organizationId, id) = some sector →
        (loadPageContext db principal changes).projects.get
            (principal.organizationId, sector.projectId) =
          db.projects.get (principal.organizationId, sector.projectId) := by
  have hmem : (principal.organizationId, id) ∈
      (idsOfType changes .projectSector).map fun id => (principal.organizationId, id) :=
    List.mem_map_of_mem h
  refine ⟨get_loadKeyed_of_mem hmem, fun sector hsector => page_projects db principal ?_⟩
  exact Or.inr (Or.inr (Or.inl ⟨_, mem_rows_loadKeyed hmem hsector, rfl⟩))

/-- An item child of the page, its item and the project of that. -/
lemma page_itemChildren {t : EntityType} {id : Str} (h : id ∈ idsOfType changes t)
    (ht : t.isItemChild = true) :
    (loadPageContext db principal changes).itemChildren.get (principal.organizationId, t, id) =
        db.itemChildren.get (principal.organizationId, t, id) ∧
      ∀ child, db.itemChildren.get (principal.organizationId, t, id) = some child →
        (loadPageContext db principal changes).items.get
            (principal.organizationId, child.itemId) =
          db.items.get (principal.organizationId, child.itemId) ∧
        ∀ item, db.items.get (principal.organizationId, child.itemId) = some item →
          (loadPageContext db principal changes).projects.get
              (principal.organizationId, item.projectId) =
            db.projects.get (principal.organizationId, item.projectId) := by
  have hmem := mem_keysOfTypes h principal.organizationId ht
  refine ⟨get_loadKeyed_of_mem hmem, fun child hchild => page_items db principal ?_⟩
  exact Or.inr ⟨_, mem_rows_loadKeyed hmem hchild, rfl⟩

/-- The organization and the scope of a page are those of the principal. -/
lemma page_organizationId :
    (loadPageContext db principal changes).organizationId = principal.organizationId := rfl

/-- The scope of a page. -/
lemma page_scope :
    (loadPageContext db principal changes).scope = EffectiveScope.fromPrincipal principal := rfl

/-- Resolution of a project child from the page. -/
lemma resolveVisible_projectChild {t : EntityType} {id : Str} (h : id ∈ idsOfType changes t)
    (ht : t.isProjectChild = true) :
    resolveVisible (loadPageContext db principal changes) t id =
      recordIsVisible db principal t id := by
  obtain ⟨hchild, hproject⟩ := page_projectChildren db principal h ht
  -- the two types share one branch on either side
  cases t <;> try cases ht
  all_goals
    simp only [resolveVisible, recordIsVisible, page_organizationId, page_scope, hchild]
    split
    · rfl
    · rename_i child hrow
      rw [hproject child hrow]

/-- Resolution of an item child from the page. -/
lemma resolveVisible_itemChild {t : EntityType} {id : Str} (h : id ∈ idsOfType changes t)
    (ht : t.isItemChild = true) :
    resolveVisible (loadPageContext db principal changes) t id =
      recordIsVisible db principal t id := by
  obtain ⟨hchild, hitem⟩ := page_itemChildren db principal h ht
  -- the seven types share one branch on either side
  cases t <;> try cases ht
  all_goals
    simp only [resolveVisible, recordIsVisible, page_organizationId, page_scope, hchild]
    split
    · rfl
    · rename_i child hrow
      obtain ⟨hitems, hprojects⟩ := hitem child hrow
      rw [hitems]
      split
      · rfl
      · rename_i item hrow'
        rw [hprojects item hrow']

/-- Resolution from the page is visibility of the record, for every entity type. -/
lemma resolveVisible_eq {t : EntityType} {id : Str} (h : id ∈ idsOfType changes t) :
    resolveVisible (loadPageContext db principal changes) t id =
      recordIsVisible db principal t id := by
  by_cases hproject : t.isProjectChild = true
  · exact resolveVisible_projectChild db principal h hproject
  by_cases hitem : t.isItemChild = true
  · exact resolveVisible_itemChild db principal h hitem
  cases t with
  | customer =>
    have hcustomer : (loadPageContext db principal changes).customers.get
        (principal.organizationId, id) = db.customers.get (principal.organizationId, id) :=
      get_loadKeyed_of_mem (List.mem_map_of_mem h)
    simp only [resolveVisible, recordIsVisible, page_organizationId, page_scope, hcustomer]
  | project =>
    simp only [resolveVisible, recordIsVisible, page_organizationId, page_scope,
      page_projects db principal (Or.inl h)]
  | projectSector =>
    obtain ⟨hsector, hprojects⟩ := page_sectors db principal h
    simp only [resolveVisible, recordIsVisible, page_organizationId, page_scope, hsector]
    split
    · rfl
    · rename_i sector hrow
      rw [hprojects sector hrow]
  | item =>
    obtain ⟨hitems, hprojects⟩ := page_items db principal (Or.inl h)
    simp only [resolveVisible, recordIsVisible, page_organizationId, page_scope, hitems]
    split
    · rfl
    · rename_i item hrow
      rw [hprojects item hrow]
  | quotation => exact absurd rfl hproject
  | deliveryExecution => exact absurd rfl hproject
  | _ => exact absurd rfl hitem

/-- Resolution of a delivery from the page. -/
lemma resolveDeliveryVisible_eq {id : Str} (h : id ∈ idsOfType changes .deliveryExecution) :
    resolveDeliveryVisible (loadPageContext db principal changes) id =
      deliveryExecutionIsVisible db principal id := by
  have hentity : (loadPageContext db principal changes).entities.get
      (principal.organizationId, .deliveryExecution, id) =
        db.entities.get (principal.organizationId, .deliveryExecution, id) :=
    get_loadKeyed_of_mem (mem_keysOfTypes h principal.organizationId rfl)
  obtain ⟨hchild, hproject⟩ := page_projectChildren db principal h rfl
  simp only [resolveDeliveryVisible, deliveryExecutionIsVisible, page_organizationId, page_scope,
    hentity, hchild]
  split
  · rfl
  · split_ifs
    · rfl
    · split
      · rfl
      · rename_i child hrow
        rw [hproject child hrow]

/-- **Batched visibility is per-record visibility.** For every page and every change on it, the
rows that the page loaded decide what the tables decide. -/
theorem resolve_eq_isVisible (db : Db) (principal : Principal) (changes : List SyncChangeLog) :
    ∀ change ∈ changes,
      resolveVisible (loadPageContext db principal changes) change.entityType
          change.entityId.text =
        recordIsVisible db principal change.entityType change.entityId.text ∧
      (change.entityType = .deliveryExecution →
        resolveDeliveryVisible (loadPageContext db principal changes) change.entityId.text =
          deliveryExecutionIsVisible db principal change.entityId.text) := by
  intro change hchange
  have hids := mem_idsOfType hchange
  refine ⟨resolveVisible_eq db principal hids, fun htype => ?_⟩
  rw [htype] at hids
  exact resolveDeliveryVisible_eq db principal hids

end Page

/-- Every change of the sample organization is visible to its member, on the page of all of them. -/
theorem resolve_eq_isVisible_sample :
    ¬ ∃ change ∈ (runPushes Sample.env Sample.setup Sample.db).changeLog,
      resolveVisible (loadPageContext (runPushes Sample.env Sample.setup Sample.db)
        Sample.principal (runPushes Sample.env Sample.setup Sample.db).changeLog)
        change.entityType change.entityId.text = false := by
  have hvisible : ∀ change ∈ (runPushes Sample.env Sample.setup Sample.db).changeLog,
      recordIsVisible (runPushes Sample.env Sample.setup Sample.db) Sample.principal
        change.entityType change.entityId.text = true := by
    decide +kernel
  rintro ⟨change, hchange, hhidden⟩
  rw [(resolve_eq_isVisible _ Sample.principal _ change hchange).1,
    hvisible change hchange] at hhidden
  cases hhidden

end VitrialSync
