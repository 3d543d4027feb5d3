import VitrialSync.Beam.Runs

set_option relaxedAutoImplicit false
set_option autoImplicit false

/-!
# The tombstone hierarchy on the BEAM

Customers own projects, projects own sectors, items, quotations and deliveries, items own their
children; an active row is one without a tombstone. The checks look up when a row is written and
down when it is deleted, and every row that a record writes restores the whole hierarchy, an upsert
that revives a tombstoned row included: a tombstoned project is not revived at all.

## Main definitions

* `VitrialSync.Beam.World.Nested` — every active row has active parents.
* `VitrialSync.Beam.Sound` — a row that keeps this when it is written.

## Main results

* `VitrialSync.Beam.applyUpsert_nested` — a sound row keeps the hierarchy.
* `VitrialSync.Beam.authority_sound` — the row of an admitted record is sound.
* `VitrialSync.Beam.Batch.batches_nested` — the hierarchy is kept by every admitted record, and so it
  holds after every sequence of batches.
-/

namespace VitrialSync.Beam

open Python Program
open Batch (upsertBy applyUpsert applyCanonicalEffects putProjectChild)

/-! ### The hierarchy -/

namespace World

variable (w : World)

/-- An active customer. -/
def ActiveCustomer (customerId : Str) : Prop :=
  ∃ row, w.customer customerId = some row ∧ row.deletedAt = none

/-- An active project. -/
def ActiveProject (projectId : Str) : Prop :=
  ∃ row, w.project projectId = some row ∧ row.deletedAt = none

/-- An active sector of a project. -/
def ActiveSectorIn (sectorId projectId : Str) : Prop :=
  ∃ row, w.projectSector sectorId = some row ∧ row.deletedAt = none ∧ row.projectId = projectId

/-- An active item. -/
def ActiveItem (itemId : Str) : Prop := ∃ row, w.item itemId = some row ∧ row.deletedAt = none

/-- Every active project has an active customer, every active sector, item, quotation and delivery
has an active project, the sector of an active item is an active one of the item's project, and
every active item child has an active item. -/
structure Nested : Prop where
  project : ∀ id row, w.project id = some row → row.deletedAt = none →
    w.ActiveCustomer row.customerId
  projectSector : ∀ id row, w.projectSector id = some row → row.deletedAt = none →
    w.ActiveProject row.projectId
  item : ∀ id row, w.item id = some row → row.deletedAt = none →
    w.ActiveProject row.projectId ∧
      ∃ sectorId, row.projectSectorId = some sectorId ∧ w.ActiveSectorIn sectorId row.projectId
  projectChild : ∀ entityType id row, w.projectChild entityType id = some row →
    row.deletedAt = none → w.ActiveProject row.projectId
  itemChild : ∀ entityType id row, w.itemChild entityType id = some row → row.deletedAt = none →
    w.ActiveItem row.itemId

end World

/-! ### Lookups after a write -/

/-- What is found under a key after a row is written. -/
lemma find?_upsertBy {ρ κ : Type} [DecidableEq κ] {key : ρ → κ} {p : ρ → Bool} {k : κ}
    (hp : ∀ r, p r = true ↔ key r = k) (rows : List ρ) (row : ρ) :
    (upsertBy key rows row).find? p = if key row = k then some row else rows.find? p := by
  rw [upsertBy, List.find?_cons]
  by_cases hk : key row = k
  · rw [(hp row).mpr hk, if_pos hk]
  · rw [Bool.eq_false_of_not_eq_true (mt (hp row).mp hk), if_neg hk, List.find?_filter]
    refine congrArg rows.find? (funext fun r => ?_)
    rw [Bool.eq_iff_iff, decide_eq_true_eq, decide_eq_true_eq, hp r]
    constructor
    · exact fun h => h.2
    · rintro rfl
      exact ⟨fun h => hk h.symm, rfl⟩

section Lookup

variable (w : World)

/-- A customer after a row is written. -/
lemma customer_upsert (row : Customer) (id : Str) :
    (applyUpsert w (.customer row)).customer id =
      if row.customerId = id then some row else w.customer id :=
  find?_upsertBy (fun _ => beq_iff_eq) _ _

/-- A project after a row is written. -/
lemma project_upsert (row : Project) (id : Str) :
    (applyUpsert w (.project row)).project id =
      if row.projectId = id then some row else w.project id :=
  find?_upsertBy (fun _ => beq_iff_eq) _ _

/-- A sector after a row is written. -/
lemma projectSector_upsert (row : ProjectSector) (id : Str) :
    (applyUpsert w (.projectSector row)).projectSector id =
      if row.projectSectorId = id then some row else w.projectSector id :=
  find?_upsertBy (fun _ => beq_iff_eq) _ _

/-- An item after a row is written. -/
lemma item_upsert (row : Item) (id : Str) :
    (applyUpsert w (.item row)).item id = if row.itemId = id then some row else w.item id :=
  find?_upsertBy (fun _ => beq_iff_eq) _ _

/-- A child of a project after a row is written. -/
lemma projectChild_upsert (row : ProjectChild) (entityType : EntityKind) (id : Str) :
    (applyUpsert w (.projectChild row)).projectChild entityType id =
      if (row.entityType, row.entityId) = (entityType, id) then some row
      else w.projectChild entityType id :=
  find?_upsertBy (by simp) _ _

/-- A child of an item after a row is written. -/
lemma itemChild_upsert (row : ItemChild) (entityType : EntityKind) (id : Str) :
    (applyUpsert w (.itemChild row)).itemChild entityType id =
      if (row.entityType, row.entityId) = (entityType, id) then some row
      else w.itemChild entityType id :=
  find?_upsertBy (by simp) _ _

end Lookup

/-! ### Sound rows -/

/-- A row that keeps the hierarchy when it is written: its parents are active, and a tombstone
leaves no active child. -/
def Sound (w : World) : Ownership.Upsert → Prop
  | .customer row => row.deletedAt ≠ none → w.customerHasLiveProjects row.customerId = false
  | .project row =>
    w.ActiveCustomer row.customerId ∧
      (row.deletedAt ≠ none → w.projectHasLiveChildren row.projectId = false)
  | .projectSector row =>
    w.ActiveProject row.projectId ∧
      (∀ old, w.projectSector row.projectSectorId = some old → old.projectId = row.projectId) ∧
      (row.deletedAt ≠ none → w.projectSectorHasLiveItems row.projectSectorId = false)
  | .item row =>
    w.ActiveProject row.projectId ∧
      (∃ sectorId, row.projectSectorId = some sectorId ∧
        w.ActiveSectorIn sectorId row.projectId) ∧
      (row.deletedAt ≠ none → w.itemHasLiveSidecars row.itemId = false ∧
        w.itemHasLiveAuditHistory row.itemId = false)
  | .projectChild row => w.ActiveProject row.projectId
  | .itemChild row => w.ActiveItem row.itemId

section Write

variable {w : World}

/-- A row is found under its key, so it is one of the rows. -/
lemma mem_of_find {ρ : Type} {rows : List ρ} {p : ρ → Bool} {row : ρ}
    (h : rows.find? p = some row) : row ∈ rows ∧ p row = true :=
  ⟨List.mem_of_find?_eq_some h, List.find?_some h⟩

/-- A customer without active projects is the customer of none. -/
lemma noLiveProjects {customerId id : Str} {row : Project}
    (h : w.customerHasLiveProjects customerId = false) (hrow : w.project id = some row)
    (hlive : row.deletedAt = none) : row.customerId ≠ customerId := by
  have hall := List.any_eq_false.mp h row (mem_of_find hrow).1
  simpa [hlive] using hall

/-- A project without active children is the project of none. -/
lemma noLiveChildren {projectId : Str} (h : w.projectHasLiveChildren projectId = false) :
    (∀ id row, w.projectSector id = some row → row.deletedAt = none →
        row.projectId ≠ projectId) ∧
      (∀ id row, w.item id = some row → row.deletedAt = none → row.projectId ≠ projectId) ∧
      ∀ entityType id row, w.projectChild entityType id = some row → row.deletedAt = none →
        row.projectId ≠ projectId := by
  simp only [World.projectHasLiveChildren, Bool.or_eq_false_iff] at h
  refine ⟨?_, ?_, ?_⟩
  · intro id row hrow hlive
    simpa [hlive] using List.any_eq_false.mp h.1.1 row (mem_of_find hrow).1
  · intro id row hrow hlive
    simpa [hlive] using List.any_eq_false.mp h.1.2 row (mem_of_find hrow).1
  · intro entityType id row hrow hlive
    simpa [hlive] using List.any_eq_false.mp h.2 row (mem_of_find hrow).1

/-- A sector without active items is the sector of none. -/
lemma noLiveItems {sectorId id : Str} {row : Item}
    (h : w.projectSectorHasLiveItems sectorId = false) (hrow : w.item id = some row)
    (hlive : row.deletedAt = none) : row.projectSectorId ≠ some sectorId := by
  have hall := List.any_eq_false.mp h row (mem_of_find hrow).1
  simpa [hlive] using hall

/-- An item without active sidecars and audit events is the item of no active child. -/
lemma noLiveItemChildren {itemId id : Str} {entityType : EntityKind} {row : ItemChild}
    (hsidecars : w.itemHasLiveSidecars itemId = false)
    (haudit : w.itemHasLiveAuditHistory itemId = false)
    (hrow : w.itemChild entityType id = some row) (hlive : row.deletedAt = none) :
    row.itemId ≠ itemId := by
  have hmem := (mem_of_find hrow).1
  have hother := List.any_eq_false.mp hsidecars row hmem
  have hevent := List.any_eq_false.mp haudit row hmem
  by_cases htype : row.entityType = .known .itemAuditEvent
  · simpa [hlive, htype] using hevent
  · simpa [hlive, htype] using hother

/-- A customer row keeps the hierarchy. -/
lemma World.Nested.customer {row : Customer} (hw : w.Nested) (h : Sound w (.customer row)) :
    (applyUpsert w (.customer row)).Nested := by
  refine ⟨?_, hw.projectSector, hw.item, hw.projectChild, hw.itemChild⟩
  intro id project hproject hlive
  obtain ⟨customer, hcustomer, hactive⟩ := hw.project id project hproject hlive
  unfold World.ActiveCustomer
  rw [customer_upsert]
  by_cases hkey : row.customerId = project.customerId
  · rw [if_pos hkey]
    refine ⟨row, rfl, by_contra fun hdeleted => ?_⟩
    exact noLiveProjects (h hdeleted) hproject hlive hkey.symm
  · rw [if_neg hkey]
    exact ⟨customer, hcustomer, hactive⟩

/-- A project row keeps the hierarchy. -/
lemma World.Nested.setProject {row : Project} (hw : w.Nested) (h : Sound w (.project row)) :
    (applyUpsert w (.project row)).Nested := by
  -- a tombstone of the project contradicts an active child of it
  have hactive : ∀ id, w.ActiveProject id → (row.deletedAt ≠ none → id ≠ row.projectId) →
      (applyUpsert w (.project row)).ActiveProject id := by
    intro id hid hne
    unfold World.ActiveProject
    rw [project_upsert]
    by_cases hkey : row.projectId = id
    · rw [if_pos hkey]
      exact ⟨row, rfl, by_contra fun hdeleted => hne hdeleted hkey.symm⟩
    · rw [if_neg hkey]
      exact hid
  refine ⟨?_, ?_, ?_, ?_, hw.itemChild⟩
  · intro id project hproject hlive
    rw [project_upsert] at hproject
    split_ifs at hproject with hkey
    · obtain rfl := Option.some.inj hproject
      exact h.1
    · exact hw.project id project hproject hlive
  · intro id sector hsector hlive
    exact hactive _ (hw.projectSector id sector hsector hlive) fun hdeleted =>
      (noLiveChildren (h.2 hdeleted)).1 id sector hsector hlive
  · intro id item hitem hlive
    exact ⟨hactive _ (hw.item id item hitem hlive).1 fun hdeleted =>
      (noLiveChildren (h.2 hdeleted)).2.1 id item hitem hlive, (hw.item id item hitem hlive).2⟩
  · intro entityType id child hchild hlive
    exact hactive _ (hw.projectChild entityType id child hchild hlive) fun hdeleted =>
      (noLiveChildren (h.2 hdeleted)).2.2 entityType id child hchild hlive

/-- A sector row keeps the hierarchy. -/
lemma World.Nested.setProjectSector {row : ProjectSector} (hw : w.Nested)
    (h : Sound w (.projectSector row)) : (applyUpsert w (.projectSector row)).Nested := by
  obtain ⟨hparent, hsame, hbare⟩ := h
  refine ⟨hw.project, ?_, ?_, hw.projectChild, hw.itemChild⟩
  · intro id sector hsector hlive
    rw [projectSector_upsert] at hsector
    split_ifs at hsector with hkey
    · obtain rfl := Option.some.inj hsector
      exact hparent
    · exact hw.projectSector id sector hsector hlive
  · intro id item hitem hlive
    obtain ⟨hproject, sectorId, hsectorId, old, hold, hactive, hproj⟩ := hw.item id item hitem hlive
    refine ⟨hproject, sectorId, hsectorId, ?_⟩
    unfold World.ActiveSectorIn
    rw [projectSector_upsert]
    by_cases hkey : row.projectSectorId = sectorId
    · rw [if_pos hkey]
      refine ⟨row, rfl, by_contra fun hdeleted => ?_, ?_⟩
      · exact noLiveItems (hbare hdeleted) hitem hlive (hkey ▸ hsectorId)
      · rw [← hsame old (hkey ▸ hold), hproj]
    · rw [if_neg hkey]
      exact ⟨old, hold, hactive, hproj⟩

/-- An item row keeps the hierarchy. -/
lemma World.Nested.setItem {row : Item} (hw : w.Nested) (h : Sound w (.item row)) :
    (applyUpsert w (.item row)).Nested := by
  obtain ⟨hparent, hsector, hbare⟩ := h
  refine ⟨hw.project, hw.projectSector, ?_, hw.projectChild, ?_⟩
  · intro id item hitem hlive
    rw [item_upsert] at hitem
    split_ifs at hitem with hkey
    · obtain rfl := Option.some.inj hitem
      exact ⟨hparent, hsector⟩
    · exact hw.item id item hitem hlive
  · intro entityType id child hchild hlive
    obtain ⟨item, hitem, hactive⟩ := hw.itemChild entityType id child hchild hlive
    unfold World.ActiveItem
    rw [item_upsert]
    by_cases hkey : row.itemId = child.itemId
    · rw [if_pos hkey]
      refine ⟨row, rfl, by_contra fun hdeleted => ?_⟩
      obtain ⟨hsidecars, haudit⟩ := hbare hdeleted
      exact noLiveItemChildren hsidecars haudit hchild hlive hkey.symm
    · rw [if_neg hkey]
      exact ⟨item, hitem, hactive⟩

/-- **Step.** A sound row keeps the hierarchy.

**Proof sketch.** A case for each table. Rows of other keys are untouched; the written row has its
parents by soundness, and its children are tombstoned when it is. -/
theorem applyUpsert_nested {upsert : Ownership.Upsert} (hw : w.Nested) (h : Sound w upsert) :
    (applyUpsert w upsert).Nested := by
  cases upsert with
  | customer row => exact hw.customer h
  | project row => exact hw.setProject h
  | projectSector row => exact hw.setProjectSector h
  | item row => exact hw.setItem h
  | projectChild row =>
    refine ⟨hw.project, hw.projectSector, hw.item, ?_, hw.itemChild⟩
    intro entityType id child hchild hlive
    rw [projectChild_upsert] at hchild
    split_ifs at hchild with hkey
    · obtain rfl := Option.some.inj hchild
      exact h
    · exact hw.projectChild entityType id child hchild hlive
  | itemChild row =>
    refine ⟨hw.project, hw.projectSector, hw.item, hw.projectChild, ?_⟩
    intro entityType id child hchild hlive
    rw [itemChild_upsert] at hchild
    split_ifs at hchild with hkey
    · obtain rfl := Option.some.inj hchild
      exact h
    · exact hw.itemChild entityType id child hchild hlive

end Write

/-! ### What the checks establish -/

namespace Ownership

section Parents

variable {world : World} {scope : EffectiveScope}

/-- A row is found under its own key. -/
lemma customer_id {id : Str} {row : Customer} (h : world.customer id = some row) :
    row.customerId = id := beq_iff_eq.mp (mem_of_find h).2

/-- A project is found under its own id. -/
lemma project_id {id : Str} {row : Project} (h : world.project id = some row) :
    row.projectId = id := beq_iff_eq.mp (mem_of_find h).2

/-- A sector is found under its own id. -/
lemma sector_id {id : Str} {row : ProjectSector} (h : world.projectSector id = some row) :
    row.projectSectorId = id := beq_iff_eq.mp (mem_of_find h).2

/-- An item is found under its own id. -/
lemma item_id {id : Str} {row : Item} (h : world.item id = some row) : row.itemId = id :=
  beq_iff_eq.mp (mem_of_find h).2

/-- The project for a scope is an active one. -/
lemma projectForScope_ok {projectId : Str} {project : Project}
    (h : projectForScope world scope projectId = .ok project) :
    world.project projectId = some project ∧ project.deletedAt = none := by
  unfold projectForScope at h
  split at h
  · cases h
  · rename_i row hrow
    split at h
    · cases h
      obtain ⟨hfind, hactive⟩ := Option.filter_eq_some_iff.mp hrow
      exact ⟨hfind, (matchesLive_iff.mp hactive).2⟩
    · cases h

/-- The project for a scope is active. -/
lemma activeProject_ok {projectId : Str} {project : Project}
    (h : projectForScope world scope projectId = .ok project) : world.ActiveProject projectId :=
  ⟨project, projectForScope_ok h⟩

/-- A sector that belongs to a project is an active one of it. -/
lemma sectorOfProject_ok {sectorId : Option Str} {projectId : Str} {message : String}
    {sector : ProjectSector}
    (h : sectorOfProject world sectorId projectId message = .ok sector) :
    ∃ id, sectorId = some id ∧ world.projectSector id = some sector ∧ sector.deletedAt = none ∧
      sector.projectId = projectId := by
  unfold sectorOfProject at h
  split at h
  · rename_i row hrow
    cases h
    obtain ⟨hfind, hactive⟩ := Option.filter_eq_some_iff.mp hrow
    obtain ⟨id, rfl, hsector⟩ := Option.bind_eq_some_iff.mp hfind
    rw [Bool.and_eq_true, beq_iff_eq, matchesLive_iff] at hactive
    exact ⟨id, rfl, hsector, hactive.1.2, hactive.2⟩
  · cases h

/-- The sector of an item that went through. -/
lemma itemSector_ok {item : Item} {sectorId : Option Str} (h : itemSector item = .ok sectorId) :
    item.projectSectorId = sectorId := by
  unfold itemSector at h
  split at h
  · exact absurd h refuse_ne_ok
  · exact Except.ok.inj h

/-- The item for a scope is an active one. -/
lemma itemForScope_ok {itemId : Str} {found : Item × Project}
    (h : itemForScope world scope itemId = .ok found) : world.ActiveItem itemId := by
  unfold itemForScope at h
  split at h
  · cases h
  · rename_i row hrow
    obtain ⟨hfind, hactive⟩ := Option.filter_eq_some_iff.mp hrow
    exact ⟨row, hfind, (matchesLive_iff.mp hactive).2⟩

/-- A row that is new is not deleted at once. -/
lemma absentCanonical_ok {label : String} {genericExists : Bool} {deletedAt : Option Str} {u : Unit}
    (h : absentCanonical label genericExists deletedAt.isSome = .ok u) : deletedAt = none := by
  unfold absentCanonical at h
  split at h
  · cases h
  · rw [refuseIf_eq_ok] at h
    simpa using h

end Parents

section Plans

variable {entityId : Str} {payload : Dict} {deletedAt : Option Str} {principal : Principal}
  {scope : EffectiveScope} {genericExists : Bool} {world : World} {plan : Plan}

/-- A plan for a customer: a tombstone leaves no active project. -/
lemma authorizeCustomer_ok
    (h : authorizeCustomer entityId payload deletedAt principal scope genericExists world =
      .ok plan) :
    plan.entityType = .known .customer ∧ Sound world
      (.customer { customerId := plan.entityId, deletedAt := plan.deletedAt }) := by
  unfold authorizeCustomer at h
  split at h
  · simp only [bind_eq_ok, pure_eq_ok] at h
    obtain ⟨_, habsent, -, -, -, -, rfl⟩ := h
    exact ⟨rfl, fun hdeleted => absurd (absentCanonical_ok habsent) hdeleted⟩
  · rename_i canonical hcanonical
    simp only [bind_eq_ok, refuseIf_eq_ok, pure_eq_ok] at h
    obtain ⟨-, -, -, -, -, -, _, hbare, rfl⟩ := h
    refine ⟨rfl, fun hdeleted => ?_⟩
    rw [Option.isSome_iff_ne_none.mpr hdeleted, Bool.true_and, customer_id hcanonical] at hbare
    exact hbare

/-- A plan for a project: its customer is active, by the check of a creation or by the hierarchy. -/
lemma authorizeProject_ok (hw : world.Nested)
    (h : authorizeProject entityId payload deletedAt principal scope genericExists world =
      .ok plan) :
    plan.entityType = .known .project ∧
      Sound world (.project { projectId := plan.entityId, customerId := plan.customerId.getD [],
                              deletedAt := plan.deletedAt }) := by
  unfold authorizeProject at h
  split at h
  · simp only [bind_eq_ok, refuseIf_eq_ok, pure_eq_ok] at h
    obtain ⟨_, habsent, -, -, -, -, customerId, -, _, hactive, -, -, rfl⟩ := h
    refine ⟨rfl, ?_, fun hdeleted => absurd (absentCanonical_ok habsent) hdeleted⟩
    rw [Bool.not_eq_false', Option.any_eq_true] at hactive
    obtain ⟨customer, hcustomer, hlive⟩ := hactive
    exact ⟨customer, hcustomer, (matchesLive_iff.mp hlive).2⟩
  · rename_i canonical hcanonical
    simp only [bind_eq_ok, refuseIf_eq_ok, pure_eq_ok] at h
    obtain ⟨-, -, project, hproject, -, -, -, -, _, hbare, rfl⟩ := h
    have hid := project_id hcanonical
    rw [hid] at hproject
    obtain ⟨hfind, hlive⟩ := projectForScope_ok hproject
    obtain rfl := Option.some.inj (hcanonical.symm.trans hfind)
    have hcustomer : world.ActiveCustomer canonical.customerId :=
      hw.project _ canonical hcanonical hlive
    refine ⟨rfl, hcustomer, fun hdeleted => ?_⟩
    rw [Option.isSome_iff_ne_none.mpr hdeleted, Bool.true_and, hid] at hbare
    exact hbare

/-- A plan for a sector: its project is active and stays its project. -/
lemma authorizeProjectSector_ok
    (h : authorizeProjectSector entityId payload deletedAt principal scope genericExists world =
      .ok plan) :
    plan.entityType = .known .projectSector ∧ ∀ projectId sectorId,
      plan.projectId = some projectId →
        Sound world (.projectSector { projectSectorId := plan.entityId, projectId, sectorId,
                                      deletedAt := plan.deletedAt }) := by
  unfold authorizeProjectSector at h
  split at h
  · rename_i hnew
    simp only [bind_eq_ok, pure_eq_ok] at h
    obtain ⟨_, habsent, -, -, -, -, projectId, -, sectorId, -, project, hproject, rfl⟩ := h
    refine ⟨rfl, ?_⟩
    rintro _ _ ⟨⟩
    have hactive := activeProject_ok hproject
    rw [← project_id (projectForScope_ok hproject).1] at hactive
    refine ⟨hactive, ?_, fun hdeleted => absurd (absentCanonical_ok habsent) hdeleted⟩
    intro old hold
    rw [hnew] at hold
    cases hold
  · rename_i canonical hcanonical
    simp only [bind_eq_ok, refuseIf_eq_ok, pure_eq_ok] at h
    obtain ⟨-, -, project, hproject, -, -, -, -, -, -, _, hbare, rfl⟩ := h
    have hid := sector_id hcanonical
    refine ⟨rfl, ?_⟩
    rintro _ _ ⟨⟩
    refine ⟨activeProject_ok hproject, ?_, fun hdeleted => ?_⟩
    · intro old hold
      rw [show canonical = old from Option.some.inj (hcanonical.symm.trans (hid ▸ hold))]
    · rw [Option.isSome_iff_ne_none.mpr hdeleted, Bool.true_and, hid] at hbare
      exact hbare

/-- A plan for an item: its project and its sector are active. -/
lemma authorizeItem_ok
    (h : authorizeItem entityId payload deletedAt principal scope genericExists world = .ok plan)
    (haudit : deletedAt ≠ none → world.itemHasLiveAuditHistory entityId = false) :
    plan.entityType = .known .item ∧ ∀ projectId sectorId, plan.projectId = some projectId →
      plan.projectSectorId = some sectorId →
        Sound world (.item { itemId := plan.entityId, projectId, projectSectorId := some sectorId,
                             deletedAt := plan.deletedAt }) := by
  unfold authorizeItem at h
  split at h
  · simp only [bind_eq_ok, pure_eq_ok] at h
    obtain ⟨_, habsent, -, -, -, -, projectId, -, sectorId, -, project, hproject, sector, hsector,
      rfl⟩ := h
    refine ⟨rfl, ?_⟩
    rintro _ _ ⟨⟩ ⟨⟩
    have hid := project_id (projectForScope_ok hproject).1
    obtain ⟨_, ⟨⟩, hfind, hlive, hsame⟩ := sectorOfProject_ok hsector
    refine ⟨hid ▸ activeProject_ok hproject, ⟨_, rfl, sector, ?_, hlive, hid ▸ hsame⟩, fun hdeleted =>
      absurd (absentCanonical_ok habsent) hdeleted⟩
    rw [sector_id hfind, hfind]
  · rename_i canonical hcanonical
    simp only [bind_eq_ok, refuseIf_eq_ok, pure_eq_ok] at h
    obtain ⟨-, -, sectorId, hsectorId, project, hproject, sector, hsector, -, -, -, -, -, -, _,
      hbare, rfl⟩ := h
    have hid := item_id hcanonical
    refine ⟨rfl, ?_⟩
    rintro _ _ ⟨⟩ hsome
    obtain ⟨id, rfl, hfound⟩ := sectorOfProject_ok hsector
    obtain rfl := Option.some.inj ((itemSector_ok hsectorId).symm.trans hsome)
    refine ⟨activeProject_ok hproject, ⟨_, rfl, sector, hfound⟩, fun hdeleted => ?_⟩
    rw [Option.isSome_iff_ne_none.mpr hdeleted, Bool.true_and, hid] at hbare
    exact ⟨hbare, haudit hdeleted⟩

/-- A plan for a child of an item: the item is active. -/
lemma authorizeItemChild_ok {type : EntityType}
    (h : authorizeItemChild type entityId payload deletedAt principal scope genericExists world =
      .ok plan) :
    plan.entityType = .known type ∧ ∀ itemId, plan.itemId = some itemId →
      world.ActiveItem itemId := by
  simp only [authorizeItemChild, bind_eq_ok, pure_eq_ok] at h
  obtain ⟨-, -, -, -, -, -, itemId, -, found, hfound, -, -, -, -, -, -, -, -, rfl⟩ := h
  refine ⟨rfl, ?_⟩
  rintro _ ⟨⟩
  exact itemForScope_ok hfound

/-- A plan for a quotation: its project is active. -/
lemma authorizeQuotation_ok
    (h : authorizeQuotation entityId payload deletedAt principal scope genericExists world =
      .ok plan) :
    plan.entityType = .known .quotation ∧ ∀ projectId, plan.projectId = some projectId →
      world.ActiveProject projectId := by
  simp only [authorizeQuotation, bind_eq_ok, pure_eq_ok] at h
  obtain ⟨projectId, -, project, hproject, -, -, rfl⟩ := h
  refine ⟨rfl, ?_⟩
  rintro _ ⟨⟩
  exact project_id (projectForScope_ok hproject).1 ▸ activeProject_ok hproject

variable {applied : Applied}

/-- The row of a project child that a plan leads to. -/
lemma applyProjectChild_ok (h : applyProjectChild plan world = .ok applied) :
    ∃ projectId, plan.projectId = some projectId ∧
      applied.upserts =
        [.projectChild { entityType := plan.entityType, entityId := plan.entityId, projectId,
                         deletedAt := plan.deletedAt }] := by
  simp only [applyProjectChild, bind_eq_ok, pure_eq_ok] at h
  obtain ⟨projectId, hprojectId, -, -, -, -, rfl⟩ := h
  unfold requirePlanField at hprojectId
  split at hprojectId
  · rename_i found hfound
    cases hprojectId
    exact ⟨_, hfound, rfl⟩
  · cases hprojectId

/-- The row of an item child that a plan leads to. -/
lemma applyItemChild_ok (h : applyItemChild plan world = .ok applied) :
    ∃ itemId, plan.itemId = some itemId ∧
      applied.upserts =
        [.itemChild { entityType := plan.entityType, entityId := plan.entityId, itemId,
                      deletedAt := plan.deletedAt }] := by
  simp only [applyItemChild, bind_eq_ok, pure_eq_ok] at h
  obtain ⟨-, -, itemId, hitemId, -, -, -, -, rfl⟩ := h
  unfold requirePlanField at hitemId
  split at hitemId
  · rename_i found hfound
    cases hitemId
    exact ⟨_, hfound, rfl⟩
  · cases hitemId

/-- A field that a plan has. -/
lemma requirePlanField_ok {field : Option Str} {message : String} {v : Str}
    (h : requirePlanField field message = .ok v) : field = some v := by
  unfold requirePlanField at h
  split at h
  · cases h
    rfl
  · cases h

/-- The row that an authorized plan leads to is sound.

**Proof sketch.** A case for each type of record: the plan has what the authorization established,
and `apply_plan/3` puts it into one row. -/
theorem authorize_sound {entityType : EntityKind} (hw : world.Nested)
    (h : authorize entityType entityId payload deletedAt principal scope genericExists world =
      .ok plan)
    (haudit : entityType = .known .item → deletedAt ≠ none →
      world.itemHasLiveAuditHistory entityId = false)
    (happlied : applyPlan plan world principal = .ok applied) :
    ∃ upsert, applied.upserts = [upsert] ∧ Sound world upsert := by
  unfold authorize at h
  split at h
  · obtain ⟨htype, hsound⟩ := authorizeCustomer_ok h
    simp only [applyPlan, htype, bind_eq_ok, pure_eq_ok] at happlied
    obtain ⟨granted, -, rfl⟩ := happlied
    exact ⟨_, rfl, hsound⟩
  · obtain ⟨htype, hsound⟩ := authorizeProject_ok hw h
    simp only [applyPlan, htype, bind_eq_ok, pure_eq_ok] at happlied
    obtain ⟨granted, -, rfl⟩ := happlied
    exact ⟨_, rfl, hsound⟩
  · obtain ⟨htype, hsound⟩ := authorizeProjectSector_ok h
    simp only [applyPlan, htype, bind_eq_ok, pure_eq_ok] at happlied
    obtain ⟨projectId, hprojectId, sectorId, -, -, -, rfl⟩ := happlied
    exact ⟨_, rfl, hsound projectId sectorId (requirePlanField_ok hprojectId)⟩
  · obtain ⟨htype, hsound⟩ := authorizeItem_ok h (haudit rfl)
    simp only [applyPlan, htype, bind_eq_ok, pure_eq_ok] at happlied
    obtain ⟨projectId, hprojectId, sectorId, hsectorId, -, -, rfl⟩ := happlied
    exact ⟨_, rfl, hsound projectId sectorId (requirePlanField_ok hprojectId)
      (requirePlanField_ok hsectorId)⟩
  · obtain ⟨htype, hsound⟩ := authorizeQuotation_ok h
    simp only [applyPlan, htype] at happlied
    obtain ⟨projectId, hprojectId, hupserts⟩ := applyProjectChild_ok happlied
    exact ⟨_, hupserts, hsound projectId hprojectId⟩
  · rename_i type _ _ _ _ _
    split at h
    · rename_i hchild
      obtain ⟨htype, hsound⟩ := authorizeItemChild_ok h
      have hplan : applyPlan plan world principal = applyItemChild plan world := by
        unfold applyPlan
        rw [htype]
        cases type <;> first | rfl | cases hchild
      rw [hplan] at happlied
      obtain ⟨itemId, hitemId, hupserts⟩ := applyItemChild_ok happlied
      exact ⟨_, hupserts, hsound itemId hitemId⟩
    · exact absurd h refuse_ne_ok
  · exact absurd h refuse_ne_ok

end Plans

end Ownership

/-! ### Admitted records -/

section Admitted

variable {record : Record} {payload : Object} {current : Option StoredEntity}
  {principal : Principal} {scope : EffectiveScope} {world : World}

/-- An accepted step has no refusal. -/
lemma coded_eq_ok {α : Type} {code : Reason} {x : Except Fault α} {a : α} :
    coded code x = .ok a ↔ x = .ok a := mapError_eq_ok

/-- The project of an authorized delivery is active. -/
lemma Delivery.authorize_active {entityId : Str} {items : Dict} {deletedAt : Option Str}
    {projectId : Str}
    (h : Delivery.authorize entityId items deletedAt current principal scope world =
      .ok projectId) : world.ActiveProject projectId := by
  simp only [Delivery.authorize, bind_eq_ok, pure_eq_ok] at h
  obtain ⟨-, -, -, -, -, -, -, -, ⟨found, customerId⟩, -, _, hproject, -, -, -, -, -, -, rfl⟩ := h
  unfold Delivery.requireActiveProject at hproject
  split at hproject
  · cases hproject
  · rename_i project hfound
    simp only [bind_eq_ok, refuseIf_eq_ok] at hproject
    have hlive := hproject.choose_spec.1
    rw [Bool.not_eq_false', matchesLive_iff] at hlive
    exact ⟨project, hfound, hlive.2⟩

/-- The row of a delivery has its project. -/
lemma Delivery.applyOwnership_ok {entityId projectId : Str} {child : ProjectChild}
    (h : Delivery.applyOwnership entityId projectId world = .ok child) :
    child = { entityType := .known .deliveryExecution, entityId, projectId,
              deletedAt := none } := by
  simp only [Delivery.applyOwnership, bind_eq_ok] at h
  obtain ⟨stored, -, h⟩ := h
  split at h
  · exact (Except.ok.inj h).symm
  · split_ifs at h
    · cases h
    · cases h
    · exact (Except.ok.inj h).symm

/-- The rows that the authority of a record leads to. -/
def Authorized.upserts : Authorized → List Ownership.Upsert
  | .generic _ ownership => ownership.upserts
  | .delivery child => [.projectChild child]

/-- The canonical effects are the writes of these rows. -/
lemma applyCanonicalEffects_eq (w : World) (authorized : Authorized) :
    applyCanonicalEffects w authorized = authorized.upserts.foldl applyUpsert w := by
  cases authorized <;> rfl

/-- The item of a deletion that the guard let through has no active audit history. -/
lemma itemDeleteGuard_ok {u : Unit} (h : itemDeleteGuard record world = .ok u)
    (htype : record.entityType = .known .item) (hdeleted : record.deletedAt ≠ none) :
    world.itemHasLiveAuditHistory record.entityId = false := by
  rw [itemDeleteGuard, raiseIf_eq_ok, htype, Record.tombstone,
    Option.isSome_iff_ne_none.mpr hdeleted] at h
  simpa using h

/-- **The row of an admitted record is sound.** -/
theorem authority_sound {admitted : Admitted} (hw : world.Nested)
    (h : Authority.decide record payload current principal scope world = .ok admitted) :
    ∃ upsert, admitted.authorized.upserts = [upsert] ∧ Sound world upsert := by
  simp only [Authority.decide, bind_eq_ok, pure_eq_ok] at h
  obtain ⟨_, hguard, -, -, authorized, hauthority, rfl⟩ := h
  unfold Authority.authority at hauthority
  split_ifs at hauthority
  · simp only [Authority.deliveryAuthority, coded_eq_ok, bind_eq_ok, pure_eq_ok] at hauthority
    obtain ⟨projectId, hproject, child, hchild, rfl⟩ := hauthority
    rw [Delivery.applyOwnership_ok hchild]
    exact ⟨_, rfl, Delivery.authorize_active hproject⟩
  · simp only [Authority.genericAuthority, coded_eq_ok, bind_eq_ok, pure_eq_ok] at hauthority
    obtain ⟨plan, hplan, applied, happlied, rfl⟩ := hauthority
    exact Ownership.authorize_sound hw hplan (itemDeleteGuard_ok hguard) happlied

end Admitted

namespace Batch

/-! ### Batches -/

/-- The hierarchy is read from the canonical rows alone. -/
lemma nested_of_rows {w w' : World} (hw : w.Nested) (hcustomers : w'.customers = w.customers)
    (hprojects : w'.projects = w.projects) (hsectors : w'.projectSectors = w.projectSectors)
    (hitems : w'.items = w.items) (hprojectChildren : w'.projectChildren = w.projectChildren)
    (hitemChildren : w'.itemChildren = w.itemChildren) : w'.Nested := by
  obtain ⟨hproject, hsector, hitem, hprojectChild, hitemChild⟩ := hw
  constructor
  all_goals
    simpa only [World.ActiveCustomer, World.ActiveProject, World.ActiveSectorIn, World.ActiveItem,
      World.customer, World.project, World.projectSector, World.item, World.projectChild,
      World.itemChild, hcustomers, hprojects, hsectors, hitems, hprojectChildren, hitemChildren]

/-- The world of a commit: the canonical effects, and a membership that a grant may widen. -/
lemma commit_world (record : Record) (principal : Principal) (s : State) (admitted : Admitted)
    (fingerprint : Str) :
    ∃ membership, (commit record principal s admitted fingerprint).store.world =
      { applyCanonicalEffects
          { s.store.world with
            entities := upsertBy entityKey s.store.world.entities
              (.map (entityRow record principal admitted.payload (nextRevision s))) }
          admitted.authorized with
        membership } := by
  simp only [commit, addEffects, widenWorkingScope]
  cases admitted.authorized with
  | generic plan ownership =>
    rw [applyGrant]
    split <;> exact ⟨_, rfl⟩
  | delivery child => exact ⟨_, rfl⟩

/-- A record that the authority admits keeps the hierarchy when its rows are threaded.

**Proof sketch.** The one row that it writes is sound for the world it was decided on. -/
theorem commit_nested {record : Record} {payload : Object} {principal : Principal} {s : State}
    {admitted : Admitted} (fingerprint : Str) (hw : s.store.world.Nested)
    (h : Authority.decide record payload (currentEntity s.store record) principal s.scope
      s.store.world = .ok admitted) :
    (commit record principal s admitted fingerprint).store.world.Nested := by
  obtain ⟨upsert, hupserts, hsound⟩ := authority_sound hw h
  obtain ⟨membership, hworld⟩ := commit_world record principal s admitted fingerprint
  have hwritten := applyUpsert_nested hw hsound
  rw [hworld, applyCanonicalEffects_eq, hupserts]
  refine nested_of_rows hwritten ?_ ?_ ?_ ?_ ?_ ?_ <;> cases upsert <;> rfl

/-- A committed record was admitted by the authority. -/
lemma authority_of_admitted {principal : Principal} {s : State} {record : Record}
    {admitted : Admitted} (h : decideRecord s record principal = .ok (.admitted admitted)) :
    ∃ payload, Payload.decode record.payload = .ok payload ∧
      Authority.decide record payload (currentEntity s.store record) principal s.scope
        s.store.world = .ok admitted := by
  rcases decideRecord_cases h with ⟨outcome, hdecision, -, -⟩ |
    ⟨-, -, ⟨code, revision, hdecision⟩ | ⟨payload, hdecode, hauthority⟩⟩
  · cases hdecision
  · cases hdecision
  · refine ⟨payload, hdecode, ?_⟩
    unfold Admission.Decision.ofAuthority at hauthority
    split at hauthority
    · rename_i effects heffects
      cases hauthority
      exact heffects
    · cases hauthority
    · cases hauthority

/-- A step of the walk keeps the hierarchy. -/
lemma walkRecord_nested {principal : Principal} {s s' : State} {record : Record} {index : ℕ}
    (hw : s.store.world.Nested) (h : walkRecord principal s (record, index) = .ok s') :
    s'.store.world.Nested := by
  obtain ⟨outcome, t, hsettles, rfl⟩ := settles_of_walkRecord h
  cases hsettles with
  | quiet _ _ _ => exact hw
  | refused _ _ _ _ _ => exact hw
  | accepted fingerprint admitted _ _ hdecide =>
    obtain ⟨payload, -, hauthority⟩ := authority_of_admitted hdecide
    exact commit_nested fingerprint hw hauthority

/-- A world without canonical rows. -/
def Bare (w : World) : Prop :=
  w.customers = [] ∧ w.projects = [] ∧ w.projectSectors = [] ∧ w.items = [] ∧
    w.projectChildren = [] ∧ w.itemChildren = []

/-- Where there are no rows the hierarchy holds. -/
lemma Bare.nested {w : World} (h : Bare w) : w.Nested := by
  obtain ⟨hcustomers, hprojects, hsectors, hitems, hprojectChildren, hitemChildren⟩ := h
  constructor <;>
    simp [World.project, World.projectSector, World.item, World.projectChild, World.itemChild,
      hprojects, hsectors, hitems, hprojectChildren, hitemChildren]

/-- **The tombstone hierarchy.** Every record that the authority admits, threaded by the walk, keeps
the hierarchy of any world, and so it holds after every sequence of batches that starts without
canonical rows.

**Proof sketch.** An accepted record is committed, which is `commit_nested`. The run by its
invariant: a step by `walkRecord_nested`, and loading leaves the canonical rows. -/
theorem batches_nested :
    (∀ (principal : Principal) (s s' : State) (record : Record) (index : ℕ) (payload : Object)
        (admitted : Admitted), s.store.world.Nested →
      Authority.decide record payload (currentEntity s.store record) principal s.scope
          s.store.world = .ok admitted →
        accept s index record principal admitted = .ok s' → s'.store.world.Nested) ∧
      ∀ (inputs : List BatchInput) (store : Store), Bare store.world →
        (runBatches inputs store).world.Nested := by
  constructor
  · intro principal s s' record index payload admitted hw hdecide haccept
    rw [accept_eq] at haccept
    cases hfingerprint : record.fingerprint with
    | error e =>
      rw [hfingerprint] at haccept
      cases haccept
    | ok fingerprint =>
      rw [hfingerprint] at haccept
      cases haccept
      exact commit_nested fingerprint hw hdecide
  · intro inputs store hbare
    refine runBatches_inv (I := fun store => store.world.Nested) ?_ ?_ inputs hbare.nested
    · intro principal s record index s' hs hstep
      exact walkRecord_nested hs hstep
    · intro s hs
      exact nested_of_rows hs rfl rfl rfl rfl rfl rfl

/-- A customer that is admitted into an empty organization, and a batch with a project, a sector and
an item below it. -/
theorem batches_nested_setup :
    (∃ payload admitted, Authority.decide Sample.customer payload none VitrialSync.Sample.principal
        (.fromPrincipal VitrialSync.Sample.principal) Sample.world = .ok admitted ∧
        ∀ s', accept (.start none VitrialSync.Sample.principal Sample.store) 0 Sample.customer
          VitrialSync.Sample.principal admitted = .ok s' → s'.store.world.Nested) ∧
      (runBatches [⟨VitrialSync.Sample.principal, none, Sample.setup⟩]
        Sample.store).world.items.length = 1 ∧
      (runBatches [⟨VitrialSync.Sample.principal, none, Sample.setup⟩] Sample.store).world.Nested := by
  have hbare : Bare Sample.world := ⟨rfl, rfl, rfl, rfl, rfl, rfl⟩
  refine ⟨?_, by decide +kernel, batches_nested.2 _ _ hbare⟩
  have hdecide : ((Payload.decode Sample.customer.payload).toOption.bind fun payload =>
      (Authority.decide Sample.customer payload none VitrialSync.Sample.principal
        (.fromPrincipal VitrialSync.Sample.principal) Sample.world).toOption).isSome = true := by
    decide +kernel
  obtain ⟨admitted, hadmitted⟩ := Option.isSome_iff_exists.mp hdecide
  obtain ⟨payload, -, hadmitted⟩ := Option.bind_eq_some_iff.mp hadmitted
  refine ⟨payload, admitted, toOption_eq_some hadmitted, fun s' haccept => ?_⟩
  exact batches_nested.1 VitrialSync.Sample.principal
    (.start none VitrialSync.Sample.principal Sample.store) s' Sample.customer 0 payload admitted
    hbare.nested (toOption_eq_some hadmitted) haccept

end Batch

end VitrialSync.Beam
