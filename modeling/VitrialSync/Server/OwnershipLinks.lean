import VitrialSync.Server.History
import VitrialSync.Server.Writes

set_option relaxedAutoImplicit false
set_option autoImplicit false

/-!
# Ownership links

A canonical row is created with the parents that its first payload names, stripped of white space
around them. From then on the row keeps them: an update, a tombstone or an upsert over a tombstone
changes the tombstone column only, and a payload that names a parent names the canonical one.

## Main definitions

* `VitrialSync.Canonical.LinksKept` — rows and their parent links are kept.
* `VitrialSync.Canonical.links` — the parent links of the row of an entity.
* `VitrialSync.parentFields` — the fields of a payload that name the parents.
* `VitrialSync.LinksAgree` — stored payloads name the canonical parents.

## Main results

* `VitrialSync.RecordStep.Valid.linksKept`, `VitrialSync.RecordStep.Valid.linksAgree` — steps.
* `VitrialSync.runPushes_links` — links over runs of pushes.
-/

namespace VitrialSync

open Python Program

/-! ### Links are kept -/

/-- Every row of the canonical tables is kept with its links. -/
structure Canonical.LinksKept (c c' : Canonical) : Prop where
  customers : c.customers.Keeps (fun _ => ()) c'.customers
  projects : c.projects.Keeps CanonicalProject.customerId c'.projects
  projectSectors : c.projectSectors.Keeps (fun row => (row.projectId, row.sectorId))
    c'.projectSectors
  items : c.items.Keeps (fun row => (row.projectId, row.projectSectorId)) c'.items
  projectChildren : c.projectChildren.Keeps CanonicalProjectChild.projectId c'.projectChildren
  itemChildren : c.itemChildren.Keeps CanonicalItemChild.itemId c'.itemChildren

namespace Canonical.LinksKept

/-- Nothing has changed. -/
lemma refl (c : Canonical) : c.LinksKept c :=
  ⟨.refl _, .refl _, .refl _, .refl _, .refl _, .refl _⟩

/-- Kept in turn. -/
lemma trans {c₁ c₂ c₃ : Canonical} (h : c₁.LinksKept c₂) (h' : c₂.LinksKept c₃) :
    c₁.LinksKept c₃ :=
  ⟨h.customers.trans h'.customers, h.projects.trans h'.projects,
    h.projectSectors.trans h'.projectSectors, h.items.trans h'.items,
    h.projectChildren.trans h'.projectChildren, h.itemChildren.trans h'.itemChildren⟩

end Canonical.LinksKept

namespace Ownership

variable (principal : Principal) (plan : OwnershipPlan) (w : Working)

/-- The application to a customer. -/
lemma applyCustomer_linksKept :
    w.db.canonical.LinksKept (applyCustomer principal plan w).2.db.canonical := by
  unfold applyCustomer
  dsimp only
  split
  · rename_i hnew
    rw [(grantCreatedScope_frame _ _ _ _).2.1]
    exact { Canonical.LinksKept.refl _ with customers := Table.keeps_set_new _ hnew }
  · rename_i model hmodel
    exact { Canonical.LinksKept.refl _ with customers := Table.keeps_set_old hmodel rfl }

/-- The application to a project. -/
lemma applyProject_linksKept :
    w.db.canonical.LinksKept (applyProject principal plan w).2.db.canonical := by
  unfold applyProject
  dsimp only
  split
  · exact .refl _
  · split
    · rename_i hnew
      rw [(grantCreatedScope_frame _ _ _ _).2.1]
      exact { Canonical.LinksKept.refl _ with projects := Table.keeps_set_new _ hnew }
    · rename_i model hmodel
      split_ifs
      · exact .refl _
      · exact { Canonical.LinksKept.refl _ with projects := Table.keeps_set_old hmodel rfl }

/-- The application to a project sector. -/
lemma applyProjectSector_linksKept :
    w.db.canonical.LinksKept (applyProjectSector principal plan w).2.db.canonical := by
  unfold applyProjectSector
  dsimp only
  split
  · split
    · rename_i hnew
      exact { Canonical.LinksKept.refl _ with projectSectors := Table.keeps_set_new _ hnew }
    · rename_i model hmodel
      split_ifs
      · exact .refl _
      · exact { Canonical.LinksKept.refl _ with projectSectors := Table.keeps_set_old hmodel rfl }
  · exact .refl _

/-- The application to an item. -/
lemma applyItem_linksKept :
    w.db.canonical.LinksKept (applyItem principal plan w).2.db.canonical := by
  unfold applyItem
  dsimp only
  split
  · split
    · rename_i hnew
      exact { Canonical.LinksKept.refl _ with items := Table.keeps_set_new _ hnew }
    · rename_i model hmodel
      split_ifs
      · exact .refl _
      · exact { Canonical.LinksKept.refl _ with items := Table.keeps_set_old hmodel rfl }
  · exact .refl _

/-- The application to a project child. -/
lemma applyProjectChild_linksKept :
    w.db.canonical.LinksKept (applyProjectChild principal plan w).2.db.canonical := by
  unfold applyProjectChild
  dsimp only
  split
  · exact .refl _
  · split
    · rename_i hnew
      exact { Canonical.LinksKept.refl _ with projectChildren := Table.keeps_set_new _ hnew }
    · rename_i model hmodel
      split_ifs
      · exact .refl _
      · exact { Canonical.LinksKept.refl _ with projectChildren := Table.keeps_set_old hmodel rfl }

/-- The application to an item child. -/
lemma applyItemChild_linksKept :
    w.db.canonical.LinksKept (applyItemChild principal plan w).2.db.canonical := by
  unfold applyItemChild
  dsimp only
  split
  · exact .refl _
  · split
    · rename_i hnew
      exact { Canonical.LinksKept.refl _ with itemChildren := Table.keeps_set_new _ hnew }
    · rename_i model hmodel
      split_ifs
      · exact .refl _
      · exact { Canonical.LinksKept.refl _ with itemChildren := Table.keeps_set_old hmodel rfl }

end Ownership

/-- The application of an authorization keeps the links, whether or not it raises. -/
lemma applied_linksKept (principal : Principal) (record : SyncRecord) (w : Working)
    (grant : Authorized) :
    w.db.canonical.LinksKept (grant.apply principal record w).2.db.canonical := by
  cases grant with
  | ownership plan =>
    simp only [Authorized.apply, Ownership.applyOwnershipPlan]
    split
    · exact Ownership.applyCustomer_linksKept principal plan w
    · exact Ownership.applyProject_linksKept principal plan w
    · exact Ownership.applyProjectSector_linksKept principal plan w
    · exact Ownership.applyItem_linksKept principal plan w
    · exact Ownership.applyProjectChild_linksKept principal plan w
    · exact Ownership.applyProjectChild_linksKept principal plan w
    · exact Ownership.applyItemChild_linksKept principal plan w
  | delivery projectId =>
    simp only [Authorized.apply, Delivery.applyDeliveryExecutionOwnership]
    split
    · rename_i hnew
      exact { Canonical.LinksKept.refl _ with projectChildren := Table.keeps_set_new _ hnew }
    · split_ifs <;> exact .refl _

/-- **Step.** A step keeps rows and links. -/
lemma RecordStep.Valid.linksKept {env : Env} {s : RecordStep} (h : s.Valid env) :
    s.before.db.canonical.LinksKept s.after.db.canonical := by
  rcases h.canonical with heq | ⟨payload, grant, -, -, -, -, heq⟩
  · rw [heq]
    exact .refl _
  · rw [heq]
    exact applied_linksKept _ _ _ _

/-! ### Payloads name the canonical parents -/

/-- The links of the row of an entity to its parents, in the order of `parentFields`. -/
def Canonical.links (c : Canonical) (key : EntityKey) : Option (List (Option Str)) :=
  match key with
  | (org, .customer, id) => (c.customers.get (org, id)).map fun _ => []
  | (org, .project, id) => (c.projects.get (org, id)).map fun row => [some row.customerId]
  | (org, .projectSector, id) =>
    (c.projectSectors.get (org, id)).map fun row => [some row.projectId, some row.sectorId]
  | (org, .item, id) =>
    (c.items.get (org, id)).map fun row => [some row.projectId, row.projectSectorId]
  | (_, .quotation, _) | (_, .deliveryExecution, _) =>
    (c.projectChildren.get key).map fun row => [some row.projectId]
  | _ => (c.itemChildren.get key).map fun row => [some row.itemId]

/-- The fields of a payload that name the parents of its entity; a configuration version names its
item in its configuration. -/
def parentFields (entityType : EntityType) (payload : Dict) : List Value :=
  match entityType with
  | .customer => []
  | .project => [payload.get "customerID"]
  | .projectSector => [payload.get "projectID", payload.get "sectorID"]
  | .item => [payload.get "projectID", payload.get "projectSectorID"]
  | .quotation | .deliveryExecution => [payload.get "projectID"]
  | .configurationVersion => [((payload.get "configuration").dict?.getD []).get "itemID"]
  | _ => [payload.get "itemID"]

/-- A field names a parent: when it is a string, its stripped text is the link. -/
def NamesLink (v : Value) (link : Option Str) : Prop :=
  ∀ text, v = .str text → link = some text.strip

/-- Links without white space around them. -/
def Stripped (links : List (Option Str)) : Prop := ∀ link, some link ∈ links → link.strip = link

/-- The links of every canonical row are stripped, and the payload that is stored of the entity
names them. -/
def LinksAgree (db : Db) : Prop :=
  ∀ key links, db.canonical.links key = some links → Stripped links ∧
    ∀ payload, storedPayload db key = some payload →
      List.Forall₂ NamesLink (parentFields key.2.1 payload.items) links

/-- What authorization and application establish of the links of an entity: a stored entity has a
row, and the links of its row are stripped and named by the payload. -/
structure Linked (c c' : Canonical) (key : EntityKey) (payload : Dict) (known : Bool) : Prop where
  known : c.links key = none → known = false
  agree : ∀ links, c'.links key = some links → Stripped links ∧
    List.Forall₂ NamesLink (parentFields key.2.1 payload) links

namespace Ownership

/-- A required name is the stripped text of its field. -/
lemma value_eq_ok {payload : Dict} {key : String} {text : Str}
    (h : value payload key = .ok text) : normalized (payload.get key) = some text := by
  unfold value at h
  split at h
  · rename_i found hfound
    rw [hfound, Except.ok.inj h]
  · cases h

/-- A field agrees with its normalized text, which is stripped. -/
lemma agrees_of_normalized {v : Value} {text : Str} (h : normalized v = some text) :
    NamesLink v (some text) ∧ text.strip = text := by
  obtain ⟨raw, rfl, rfl, -⟩ := normalized_eq_some.mp h
  refine ⟨fun other hother => ?_, raw.strip_strip⟩
  obtain rfl := Value.str.inj hother
  rfl

/-- A field that repeats a link agrees with it. -/
lemma agrees_of_repeated {v : Value} {link : Str} (hlink : link.strip = link)
    (h : (!v.isNone && !v.isStr link) = false) : NamesLink v (some link) := by
  rintro text rfl
  have htext : (Value.str text).isStr link = true := by simpa [Value.isNone] using h
  obtain rfl := Value.str.inj ((Value.isStr_iff _ _).mp htext)
  rw [hlink]

/-- One stripped link that a field agrees with. -/
lemma links_single {v : Value} {link : Str} (h : NamesLink v (some link) ∧ link.strip = link) :
    Stripped [some link] ∧ List.Forall₂ NamesLink [v] [some link] := by
  refine ⟨fun other hother => ?_, .cons h.1 .nil⟩
  obtain rfl := Option.some.inj (List.mem_singleton.mp hother)
  exact h.2

/-- Two stripped links that two fields agree with. -/
lemma links_pair {v v' : Value} {link link' : Str} (h : NamesLink v (some link) ∧ link.strip = link)
    (h' : NamesLink v' (some link') ∧ link'.strip = link') :
    Stripped [some link, some link'] ∧
      List.Forall₂ NamesLink [v, v'] [some link, some link'] := by
  refine ⟨fun other hother => ?_, .cons h.1 (.cons h'.1 .nil)⟩
  rcases List.mem_cons.mp hother with heq | hother
  · obtain rfl := Option.some.inj heq
    exact h.2
  · obtain rfl := Option.some.inj (List.mem_singleton.mp hother)
    exact h'.2

section Links

variable {env : Env} {principal : Principal} {w : Working} {id : Str} {payload : Dict}
  {deletedAt : Option DateTime} {known : Bool} {plan : OwnershipPlan}

/-- Customers have no parents. -/
lemma authorizeCustomer_links
    (h : authorizeCustomer w.db principal w.scope id payload deletedAt known = .ok plan) :
    Linked w.db.canonical (applyOwnershipPlan principal plan w).2.db.canonical
      (principal.organizationId, .customer, id) payload known := by
  constructor
  · intro hnone
    unfold authorizeCustomer at h
    simp only [Canonical.links, Option.map_eq_none_iff] at hnone
    have hget : w.db.customers.get (principal.organizationId, id) = none := hnone
    simp only [hget, bind_eq_ok, raiseIf_eq_ok] at h
    exact h.choose_spec.1
  · intro links hlinks
    obtain ⟨row, -, rfl⟩ := Option.map_eq_some_iff.mp hlinks
    refine ⟨fun link hlink => ?_, .nil⟩
    cases hlink

/-- Projects name their customer. -/
lemma authorizeProject_links
    (h : authorizeProject w.db principal w.scope id payload deletedAt known = .ok plan)
    (hstripped : ∀ row, w.db.projects.get (principal.organizationId, id) = some row →
      row.customerId.strip = row.customerId) :
    Linked w.db.canonical (applyOwnershipPlan principal plan w).2.db.canonical
      (principal.organizationId, .project, id) payload known := by
  unfold authorizeProject at h
  dsimp only at h
  split at h
  · rename_i hget
    simp only [bind_eq_ok, raiseIf_eq_ok, pure_eq_ok] at h
    obtain ⟨-, hknown, -, -, -, -, -, -, customerId, hcustomer, -, -, -, -, rfl⟩ := h
    refine ⟨fun _ => hknown, fun links hlinks => ?_⟩
    simp only [applyOwnershipPlan, applyProject, hget,
      (grantCreatedScope_frame _ _ _ _).2.1] at hlinks
    simp only [withProject, Db.canonical, Canonical.links, Table.get_set_self, Option.map_some,
      Option.some.injEq] at hlinks
    rw [← hlinks]
    exact links_single (agrees_of_normalized (value_eq_ok hcustomer))
  · rename_i row hget
    simp only [bind_eq_ok, ite_bind_eq_ok, raiseIf_eq_ok, requireSameParent, pure_eq_ok] at h
    obtain ⟨-, -, -, -, -, -, -, hsame, _, -, rfl⟩ := h
    constructor
    · intro hnone
      simp [Canonical.links, Db.canonical, hget] at hnone
    · intro links hlinks
      simp only [applyOwnershipPlan, applyProject, hget, ne_eq, not_true_eq_false, ↓reduceIte,
        Db.canonical, Canonical.links, Table.get_set_self, Option.map_some,
        Option.some.injEq] at hlinks
      rw [← hlinks]
      have hlink := hstripped row hget
      exact links_single ⟨agrees_of_repeated hlink hsame, hlink⟩

/-- Project sectors name their project and their sector. -/
lemma authorizeProjectSector_links
    (h : authorizeProjectSector w.db principal w.scope id payload deletedAt known = .ok plan)
    (hstripped : ∀ row, w.db.projectSectors.get (principal.organizationId, id) = some row →
      row.projectId.strip = row.projectId ∧ row.sectorId.strip = row.sectorId) :
    Linked w.db.canonical (applyOwnershipPlan principal plan w).2.db.canonical
      (principal.organizationId, .projectSector, id) payload known := by
  unfold authorizeProjectSector at h
  dsimp only at h
  split at h
  · rename_i hget
    simp only [bind_eq_ok, raiseIf_eq_ok, pure_eq_ok] at h
    obtain ⟨-, hknown, -, -, -, -, -, -, projectId, hproject, sectorId, hsector, project, -,
      rfl⟩ := h
    refine ⟨fun _ => hknown, fun links hlinks => ?_⟩
    simp only [applyOwnershipPlan, applyProjectSector, hget, Db.canonical, Canonical.links,
      Table.get_set_self, Option.map_some, Option.some.injEq] at hlinks
    rw [← hlinks]
    exact links_pair (agrees_of_normalized (value_eq_ok hproject))
      (agrees_of_normalized (value_eq_ok hsector))
  · rename_i row hget
    simp only [bind_eq_ok, ite_bind_eq_ok, requireSameParent, raiseIf_eq_ok, pure_eq_ok] at h
    obtain ⟨-, -, project, -, -, -, -, hproject, -, hsector, _, -, rfl⟩ := h
    constructor
    · intro hnone
      simp [Canonical.links, Db.canonical, hget] at hnone
    · intro links hlinks
      simp only [applyOwnershipPlan, applyProjectSector, hget, ne_eq, not_true_eq_false, or_self,
        ↓reduceIte, Db.canonical, Canonical.links, Table.get_set_self, Option.map_some,
        Option.some.injEq] at hlinks
      rw [← hlinks]
      obtain ⟨hlink, hlink'⟩ := hstripped row hget
      exact links_pair ⟨agrees_of_repeated hlink hproject, hlink⟩
        ⟨agrees_of_repeated hlink' hsector, hlink'⟩

/-- Items name their project and their sector. -/
lemma authorizeItem_links
    (h : authorizeItem w.db principal w.scope id payload deletedAt known = .ok plan)
    (hstripped : ∀ row, w.db.items.get (principal.organizationId, id) = some row →
      row.projectId.strip = row.projectId ∧
        ∀ sectorId, row.projectSectorId = some sectorId → sectorId.strip = sectorId) :
    Linked w.db.canonical (applyOwnershipPlan principal plan w).2.db.canonical
      (principal.organizationId, .item, id) payload known := by
  unfold authorizeItem at h
  dsimp only at h
  split at h
  · rename_i hget
    simp only [bind_eq_ok, raiseIf_eq_ok, pure_eq_ok] at h
    obtain ⟨-, hknown, -, -, -, -, -, -, projectId, hproject, sectorId, hsector, project, -, -, -,
      rfl⟩ := h
    refine ⟨fun _ => hknown, fun links hlinks => ?_⟩
    simp only [applyOwnershipPlan, applyItem, hget, Db.canonical, Canonical.links,
      Table.get_set_self, Option.map_some, Option.some.injEq] at hlinks
    rw [← hlinks]
    exact links_pair (agrees_of_normalized (value_eq_ok hproject))
      (agrees_of_normalized (value_eq_ok hsector))
  · rename_i row hget
    simp only [bind_eq_ok, ite_bind_eq_ok, requireSameParent, raiseIf_eq_ok, pure_eq_ok] at h
    obtain ⟨-, -, -, hlacks, project, -, -, -, -, -, -, hproject, -, hsector, _, -, rfl⟩ := h
    constructor
    · intro hnone
      simp [Canonical.links, Db.canonical, hget] at hnone
    · intro links hlinks
      obtain ⟨hlink, hlink'⟩ := hstripped row hget
      obtain ⟨projectId, sector?, oldDeletedAt⟩ := row
      cases sector? with
      | none => simp [lacksSector] at hlacks
      | some sectorId =>
        simp only [applyOwnershipPlan, applyItem, hget, ne_eq, not_true_eq_false, or_self,
          ↓reduceIte, Db.canonical, Canonical.links, Table.get_set_self, Option.map_some,
          Option.some.injEq] at hlinks
        rw [← hlinks]
        exact links_pair ⟨agrees_of_repeated hlink hproject, hlink⟩
          ⟨agrees_of_repeated (hlink' sectorId rfl) hsector, hlink' sectorId rfl⟩

/-- The other item children name their item. -/
lemma parentFields_itemChild {entityType : EntityType} (htype : entityType.isItemChild = true)
    (hversion : entityType ≠ .configurationVersion) :
    parentFields entityType payload = [payload.get "itemID"] := by
  revert htype hversion
  cases entityType <;> simp [EntityType.isItemChild, parentFields]

/-- The item of a child, new or known, is the one that its payload names. -/
lemma itemOfChild_agrees {entityType : EntityType} {child : Option CanonicalItemChild}
    {itemId : Str} (htype : entityType.isItemChild = true)
    (h : itemOfChild w.db principal entityType id payload child = .ok itemId)
    (hstripped : ∀ row, child = some row → row.itemId.strip = row.itemId) :
    Stripped [some itemId] ∧
      List.Forall₂ NamesLink (parentFields entityType payload) [some itemId] := by
  cases child with
  | none =>
    simp only [itemOfChild, itemOfNewChild] at h
    split_ifs at h with hversion
    · subst hversion
      split at h
      · cases h
      · rename_i configuration hconfiguration
        simp only [bind_eq_ok] at h
        obtain ⟨item, hitem, configurationId, -, h⟩ := h
        split at h
        · cases h
        · simp only [bind_eq_ok, pure_eq_ok] at h
          obtain ⟨-, -, -, -, -, -, rfl⟩ := h
          rw [parentFields, hconfiguration, Option.getD_some]
          exact links_single (agrees_of_normalized (value_eq_ok hitem))
    · rw [parentFields_itemChild htype hversion]
      exact links_single (agrees_of_normalized (value_eq_ok h))
  | some row =>
    simp only [itemOfChild, itemOfKnownChild, bind_eq_ok, raiseIf_eq_ok, pure_eq_ok] at h
    obtain ⟨-, hsame, rfl⟩ := h
    have hlink := hstripped row rfl
    split_ifs at hsame with hversion
    · subst hversion
      refine links_single ⟨?_, hlink⟩
      cases hconfiguration : (payload.get "configuration").dict? with
      | none =>
        rintro text htext
        cases htext
      | some configuration =>
        rw [hconfiguration] at hsame
        exact agrees_of_repeated hlink hsame
    · rw [parentFields_itemChild htype hversion]
      exact links_single ⟨agrees_of_repeated hlink hsame, hlink⟩

/-- The links of an item child. -/
lemma links_itemChild {entityType : EntityType} (htype : entityType.isItemChild = true)
    (c : Canonical) (org k : Str) :
    c.links (org, entityType, k) =
      (c.itemChildren.get (org, entityType, k)).map fun row => [some row.itemId] := by
  revert htype
  cases entityType <;> simp [EntityType.isItemChild, Canonical.links]

/-- Item children name their item. -/
lemma authorizeItemChild_links {entityType : EntityType} (htype : entityType.isItemChild = true)
    (h : authorizeItemChild env w.db principal w.scope entityType id payload deletedAt known =
      .ok plan)
    (hstripped : ∀ row, w.db.itemChildren.get (principal.organizationId, entityType, id) =
      some row → row.itemId.strip = row.itemId) :
    Linked w.db.canonical (applyOwnershipPlan principal plan w).2.db.canonical
      (principal.organizationId, entityType, id) payload known := by
  simp only [authorizeItemChild, bind_eq_ok, raiseIf_eq_ok, pure_eq_ok] at h
  obtain ⟨-, -, -, -, -, hknown, -, -, -, -, itemId, hitem, found, -, -, -, rfl⟩ := h
  have hagree := itemOfChild_agrees htype hitem hstripped
  rw [applyOwnershipPlan_itemChild htype rfl]
  constructor
  · intro hnone
    rw [links_itemChild htype, Option.map_eq_none_iff] at hnone
    have hget : w.db.itemChildren.get (principal.organizationId, entityType, id) = none := hnone
    simpa [hget] using hknown
  · intro links hlinks
    rw [links_itemChild htype] at hlinks
    obtain ⟨row, hrow, rfl⟩ := Option.map_eq_some_iff.mp hlinks
    have hitemId : row.itemId = itemId := by
      simp only [applyItemChild] at hrow
      split at hrow
      · have hget := (Table.get_set_self _ _ _).symm.trans hrow
        rw [← Option.some.inj hget]
      · rename_i model hmodel
        split_ifs at hrow with hsame
        · simp only [itemOfChild, hmodel, itemOfKnownChild, bind_eq_ok, pure_eq_ok] at hitem
          exact absurd hitem.choose_spec.2 hsame
        · have hget := (Table.get_set_self _ _ _).symm.trans hrow
          rw [← Option.some.inj hget]
          simpa using hsame
    rw [hitemId]
    exact hagree

/-- Quotations name their project. -/
lemma authorizeQuotation_links
    (h : authorizeQuotation env w.db principal w.scope id payload deletedAt known = .ok plan)
    (hstripped : ∀ row, w.db.projectChildren.get (principal.organizationId, .quotation, id) =
      some row → row.projectId.strip = row.projectId) :
    Linked w.db.canonical (applyOwnershipPlan principal plan w).2.db.canonical
      (principal.organizationId, .quotation, id) payload known := by
  simp only [authorizeQuotation, bind_eq_ok, ite_bind_eq_ok, pure_eq_ok] at h
  obtain ⟨projectId, hproject, project, -, -, -, rfl⟩ := h
  cases hget : w.db.projectChildren.get (principal.organizationId, EntityType.quotation, id) with
  | none =>
    simp only [hget, projectOfQuotation, bind_eq_ok, raiseIf_eq_ok] at hproject
    obtain ⟨-, hknown, -, -, -, -, hvalue⟩ := hproject
    refine ⟨fun _ => hknown, fun links hlinks => ?_⟩
    simp only [applyOwnershipPlan, applyProjectChild, hget, Db.canonical, Canonical.links,
      Table.get_set_self, Option.map_some, Option.some.injEq] at hlinks
    rw [← hlinks]
    exact links_single (agrees_of_normalized (value_eq_ok hvalue))
  | some row =>
    simp only [hget, projectOfQuotation, bind_eq_ok, requireSameParent, raiseIf_eq_ok,
      pure_eq_ok] at hproject
    obtain ⟨-, -, -, hsame, rfl⟩ := hproject
    constructor
    · intro hnone
      simp [Canonical.links, Db.canonical, hget] at hnone
    · intro links hlinks
      simp only [applyOwnershipPlan, applyProjectChild, hget, ne_eq, not_true_eq_false, ↓reduceIte,
        Db.canonical, Canonical.links, Table.get_set_self, Option.map_some,
        Option.some.injEq] at hlinks
      rw [← hlinks]
      have hlink := hstripped row hget
      exact links_single ⟨agrees_of_repeated hlink hsame, hlink⟩

end Links

end Ownership

namespace Delivery

/-- What the authority over deliveries checks of a payload. -/
structure Authorized (db : Db) (principal : Principal) (scope : EffectiveScope) (id : Str)
    (payload : Dict) (current : Option SyncEntity) (projectId : Str) : Prop where
  project : normalized (payload.get "projectID") = some projectId
  child : ∀ row, db.projectChildren.get (principal.organizationId, .deliveryExecution, id) =
    some row → row.projectId = projectId
  known : db.projectChildren.get (principal.organizationId, .deliveryExecution, id) = none →
    current = none
  rest : ∃ customerId quotationId currentPayload,
    normalized (payload.get "customerID") = some customerId ∧
    normalized (payload.get "quotationID") = some quotationId ∧
    continuity (db.projectChildren.get (principal.organizationId, .deliveryExecution, id)) current =
      .ok currentPayload ∧
    requireProject db principal scope projectId customerId = .ok () ∧
    Installation.validateInstallationEvidenceAuthority db principal payload currentPayload
      projectId = .ok () ∧
    requireQuotation db principal payload projectId customerId quotationId = .ok ()

/-- Inversion of the authority over deliveries. -/
lemma authorizeDeliveryExecution_authorized {db : Db} {principal : Principal}
    {scope : EffectiveScope} {id : Str} {payload : Dict} {deletedAt : Option DateTime}
    {current : Option SyncEntity} {projectId : Str}
    (h : authorizeDeliveryExecution db principal scope id payload deletedAt current =
      .ok projectId) :
    Authorized db principal scope id payload current projectId := by
  simp only [authorizeDeliveryExecution, bind_eq_ok, raiseIf_eq_ok] at h
  obtain ⟨-, -, -, -, currentPayload, hcontinuity, -, -, h⟩ := h
  split at h
  · rename_i customerId quotationId hprojectId hcustomerId hquotationId
    simp only [bind_eq_ok, mapError_eq_ok, raiseIf_eq_ok, pure_eq_ok] at h
    obtain ⟨⟨⟩, hproject, ⟨⟩, hevidence, ⟨⟩, hquotation, -, hchild, rfl⟩ := h
    refine ⟨hprojectId, fun row hrow => ?_, fun hnone => ?_, customerId, quotationId,
      currentPayload, hcustomerId, hquotationId, hcontinuity, hproject, hevidence, hquotation⟩
    · simpa [hrow] using hchild
    · rw [hnone] at hcontinuity
      cases current with
      | none => rfl
      | some row =>
        obtain ⟨revision, payload, updatedAt, deleted⟩ := row
        cases payload <;> cases deleted <;> cases hcontinuity
  · cases h

/-- Deliveries name their project. -/
lemma authorizeDeliveryExecution_links {principal : Principal} {w : Working} {id : Str}
    {payload : Dict} {deletedAt : Option DateTime} {current : Option SyncEntity} {projectId : Str}
    (h : authorizeDeliveryExecution w.db principal w.scope id payload deletedAt current =
      .ok projectId) :
    Linked w.db.canonical (applyDeliveryExecutionOwnership principal id projectId w).2.db.canonical
      (principal.organizationId, .deliveryExecution, id) payload current.isSome := by
  have hauthorized := authorizeDeliveryExecution_authorized h
  constructor
  · intro hnone
    rw [hauthorized.known (Option.map_eq_none_iff.mp hnone)]
    rfl
  · intro links hlinks
    obtain ⟨row, hrow, rfl⟩ := Option.map_eq_some_iff.mp hlinks
    have hprojectId : row.projectId = projectId := by
      simp only [applyDeliveryExecutionOwnership] at hrow
      split at hrow
      · have hget := (Table.get_set_self _ _ _).symm.trans hrow
        rw [← Option.some.inj hget]
      · rename_i child hchild
        have hget : w.db.projectChildren.get
            (principal.organizationId, EntityType.deliveryExecution, id) = some row := by
          split_ifs at hrow <;> exact hrow
        exact hauthorized.child row hget
    rw [hprojectId]
    exact Ownership.links_single (Ownership.agrees_of_normalized hauthorized.project)

end Delivery

/-! ### Steps and runs -/

/-- A write leaves the links of the other entities alone. -/
lemma CanonicalWrite.links_of_ne {org id : Str} {entityType : EntityType}
    {deletedAt : Option DateTime} {c c' : Canonical}
    (h : CanonicalWrite org entityType id deletedAt c c') {key : EntityKey}
    (hkey : key ≠ (org, entityType, id)) : c'.links key = c.links key := by
  obtain ⟨o, t, k⟩ := key
  have hne : t = entityType → (o, k) ≠ (org, id) := by
    rintro rfl heq
    simp only [Prod.mk.injEq] at heq
    exact hkey (by rw [heq.1, heq.2])
  cases h with
  | kept => rfl
  | customer htype | project _ htype | projectSector _ _ htype | item _ _ htype =>
    subst htype
    cases t <;>
      first
        | rfl
        | simp only [Canonical.links, Table.get_set_of_ne _ _ (hne rfl)]
  | projectChild _ htype =>
    cases t <;> simp only [Canonical.links, Table.get_set_of_ne _ _ hkey]
  | itemChild _ htype =>
    cases t <;> simp only [Canonical.links, Table.get_set_of_ne _ _ hkey]

/-- The links of an entity are kept. -/
lemma Canonical.LinksKept.links {c c' : Canonical} (h : c.LinksKept c') {key : EntityKey}
    {links : List (Option Str)} (hlinks : c.links key = some links) :
    c'.links key = some links := by
  obtain ⟨org, entityType, id⟩ := key
  cases entityType with
  | customer =>
    obtain ⟨row, hrow, rfl⟩ := Option.map_eq_some_iff.mp hlinks
    obtain ⟨row', hrow', -⟩ := h.customers _ _ hrow
    exact Option.map_eq_some_iff.mpr ⟨row', hrow', rfl⟩
  | project =>
    obtain ⟨row, hrow, rfl⟩ := Option.map_eq_some_iff.mp hlinks
    obtain ⟨row', hrow', hread⟩ := h.projects _ _ hrow
    exact Option.map_eq_some_iff.mpr ⟨row', hrow', by rw [hread]⟩
  | projectSector =>
    obtain ⟨row, hrow, rfl⟩ := Option.map_eq_some_iff.mp hlinks
    obtain ⟨row', hrow', hread⟩ := h.projectSectors _ _ hrow
    obtain ⟨hproject, hsector⟩ := Prod.mk.inj hread
    exact Option.map_eq_some_iff.mpr ⟨row', hrow', by rw [hproject, hsector]⟩
  | item =>
    obtain ⟨row, hrow, rfl⟩ := Option.map_eq_some_iff.mp hlinks
    obtain ⟨row', hrow', hread⟩ := h.items _ _ hrow
    obtain ⟨hproject, hsector⟩ := Prod.mk.inj hread
    exact Option.map_eq_some_iff.mpr ⟨row', hrow', by rw [hproject, hsector]⟩
  | quotation | deliveryExecution =>
    obtain ⟨row, hrow, rfl⟩ := Option.map_eq_some_iff.mp hlinks
    obtain ⟨row', hrow', hread⟩ := h.projectChildren _ _ hrow
    exact Option.map_eq_some_iff.mpr ⟨row', hrow', by rw [hread]⟩
  | _ =>
    obtain ⟨row, hrow, rfl⟩ := Option.map_eq_some_iff.mp hlinks
    obtain ⟨row', hrow', hread⟩ := h.itemChildren _ _ hrow
    exact Option.map_eq_some_iff.mpr ⟨row', hrow', by rw [hread]⟩

/-- What the `try` block lets through is linked as its payload says. -/
lemma authorize_links {env : Env} {principal : Principal} {w : Working} {record : SyncRecord}
    {current : Option SyncEntity} {payload : Dict} {grant : Authorized}
    (h : authorize env principal w record current payload = .ok grant)
    (hstripped : ∀ links, w.db.canonical.links
      (principal.organizationId, record.entityType, record.entityID.text) = some links →
        Stripped links) :
    Linked w.db.canonical (grant.apply principal record w).2.db.canonical
      (principal.organizationId, record.entityType, record.entityID.text) payload
      current.isSome := by
  obtain ⟨-, -, ⟨htype, projectId, hauth, rfl⟩ | ⟨-, -, plan, hplan, rfl⟩⟩ :=
    authorize_eq_ok_iff.mp h
  · rw [htype]
    exact Delivery.authorizeDeliveryExecution_links hauth
  · generalize record.entityType = entityType at hplan hstripped ⊢
    have hstrippedAt := fun {links} hlinks => hstripped links hlinks
    cases entityType with
    | customer => exact Ownership.authorizeCustomer_links hplan
    | project =>
      refine Ownership.authorizeProject_links hplan fun row hrow => ?_
      exact hstrippedAt (Option.map_eq_some_iff.mpr ⟨row, hrow, rfl⟩) _ (by simp)
    | projectSector =>
      refine Ownership.authorizeProjectSector_links hplan fun row hrow => ?_
      have hlinks := hstrippedAt (Option.map_eq_some_iff.mpr ⟨row, hrow, rfl⟩)
      exact ⟨hlinks _ (by simp), hlinks _ (by simp)⟩
    | item =>
      refine Ownership.authorizeItem_links hplan fun row hrow => ?_
      have hlinks := hstrippedAt (Option.map_eq_some_iff.mpr ⟨row, hrow, rfl⟩)
      exact ⟨hlinks _ (by simp), fun sectorId hsector => hlinks _ (by simp [hsector])⟩
    | quotation =>
      refine Ownership.authorizeQuotation_links hplan fun row hrow => ?_
      exact hstrippedAt (Option.map_eq_some_iff.mpr ⟨row, hrow, rfl⟩) _ (by simp)
    | deliveryExecution => cases hplan
    | _ =>
      refine Ownership.authorizeItemChild_links rfl hplan fun row hrow => ?_
      exact hstrippedAt (Option.map_eq_some_iff.mpr ⟨row, hrow, rfl⟩) _ (by simp)

/-- **Step.** A step keeps the stored payloads in agreement with the links.

**Proof sketch.** Another entity keeps its row and its payload. The entity of the record has the
links that its payload names when the step commits; when it does not, a row that was there keeps its
links, and a new row belongs to an entity that is not stored. -/
theorem RecordStep.Valid.linksAgree {env : Env} {s : RecordStep} (h : s.Valid env)
    (hbefore : LinksAgree s.before.db) : LinksAgree s.after.db := by
  intro key links hlinks
  by_cases hkey : key = s.key
  · subst hkey
    have hstripped := fun links' hlinks' => (hbefore s.key links' hlinks').1
    rcases h.keeps_or_commits with hkeeps | ⟨payload, grant, applied, hcommits⟩
    · have hentities : storedPayload s.after.db s.key = storedPayload s.before.db s.key := by
        rw [storedPayload, storedPayload, hkeeps.entities]
      rw [hentities]
      cases hlinks' : s.before.db.canonical.links s.key with
      | some links' =>
        obtain rfl := Option.some.inj ((h.linksKept.links hlinks').symm.trans hlinks)
        exact hbefore s.key links' hlinks'
      | none =>
        -- the row is new: the record was refused after its row was added
        rcases h.canonical with heq | ⟨payload, grant, -, -, -, hauth, heq⟩
        · rw [heq, hlinks'] at hlinks
          cases hlinks
        · have hlinked := authorize_links hauth hstripped
          rw [heq] at hlinks
          refine ⟨(hlinked.agree links hlinks).1, fun stored hstored => ?_⟩
          have hnew := hlinked.known hlinks'
          rw [Option.isSome_eq_false_iff, Option.isNone_iff_eq_none] at hnew
          rw [← current_payload, hnew] at hstored
          cases hstored
    · have hlinked := authorize_links hcommits.admitted.authorized hstripped
      rw [hcommits.admitted.applied] at hlinked
      rw [hcommits.canonical] at hlinks
      obtain ⟨hstripped', hagree⟩ := hlinked.agree links hlinks
      refine ⟨hstripped', fun stored hstored => ?_⟩
      rw [hcommits.storedPayload_self] at hstored
      split_ifs at hstored
      obtain rfl := Option.some.inj hstored
      exact hagree
  · rw [h.canonicalWrite.links_of_ne hkey] at hlinks
    obtain ⟨hstripped, hagree⟩ := hbefore key links hlinks
    refine ⟨hstripped, fun payload hstored => ?_⟩
    rcases h.storedPayload_after hstored with hstored | ⟨hself, -⟩
    · exact hagree payload hstored
    · exact absurd hself hkey

/-- **Ownership links never move.** A run of pushes keeps every canonical row with its parent links,
from any state; and it keeps the stored payloads in agreement with them, so that a payload that
names a parent names the canonical one. -/
theorem runPushes_links (env : Env) (inputs : List PushInput) (db : Db) :
    db.canonical.LinksKept (runPushes env inputs db).canonical ∧
      (LinksAgree db → LinksAgree (runPushes env inputs db)) := by
  constructor
  · refine runPushes_inv (I := fun later => db.canonical.LinksKept later.canonical) (.refl _) ?_
    intro s hs hkept
    exact hkept.trans (runSteps_valid hs).1.linksKept
  · intro hdb
    exact runPushes_inv hdb fun s hs hbefore => (runSteps_valid hs).1.linksAgree hbefore

/-- The sample item names its project and its sector, and so do its links. -/
theorem runPushes_links_sample :
    LinksAgree (runPushes Sample.env Sample.setup Sample.db) ∧
      (runPushes Sample.env Sample.setup Sample.db).canonical.links ("o", .item, "i") =
        some [some (Str.ofString "p"), some (Str.ofString "ps")] := by
  have hdb : LinksAgree Sample.db := by
    rintro ⟨org, entityType, id⟩ links hlinks
    cases entityType <;> cases hlinks
  refine ⟨(runPushes_links Sample.env Sample.setup Sample.db).2 hdb, ?_⟩
  decide +kernel

end VitrialSync
