import VitrialSync.Beam.PartialWrites
import VitrialSync.Beam.PullService

set_option relaxedAutoImplicit false
set_option autoImplicit false

/-!
# Two tenants

Two databases with the same rows of one organization. A pull of that organization returns the same
page on both. A push does the same on both if the tables that are selected without an organization
hold the same rows: a row of another organization is found by its id like one of the principal's own.

## Main definitions

* `VitrialSync.Beam.SameTenant` — the rows of an organization are the same in two databases, up to
  the sequences of its changes.
* `VitrialSync.Beam.SameShared` — what is selected without an organization is the same, too.
* `VitrialSync.Beam.Statement.IsOf` — a statement writes a row of an organization.

## Main results

* `VitrialSync.Beam.store_isolated` — the two databases are loaded into one store.
* `VitrialSync.Beam.apply_isolated` — a statement of the organization does the same to both.
* `VitrialSync.Beam.tenants_isolated` — so do a push and a pull.
-/

namespace VitrialSync.Beam

open Python Program
open Batch

/-! ### The rows of an organization -/

/-- The rows of an organization are the same in two databases, up to the sequences of its changes. -/
structure SameTenant (organizationId : Str) (d₁ d₂ : Database) : Prop where
  organization : d₁.organizations.get organizationId = d₂.organizations.get organizationId
  memberships : ∀ id row, row.organizationId = organizationId →
    (d₁.memberships.get id = some row ↔ d₂.memberships.get id = some row)
  customers : ∀ id, d₁.customers.get (organizationId, id) = d₂.customers.get (organizationId, id)
  projects : ∀ id, d₁.projects.get (organizationId, id) = d₂.projects.get (organizationId, id)
  projectSectors : ∀ id,
    d₁.projectSectors.get (organizationId, id) = d₂.projectSectors.get (organizationId, id)
  items : ∀ id, d₁.items.get (organizationId, id) = d₂.items.get (organizationId, id)
  projectChildren : ∀ type id, d₁.projectChildren.get (organizationId, type, id) =
    d₂.projectChildren.get (organizationId, type, id)
  itemChildren : ∀ type id,
    d₁.itemChildren.get (organizationId, type, id) = d₂.itemChildren.get (organizationId, type, id)
  entities : ∀ type id,
    d₁.entities.get (organizationId, type, id) = d₂.entities.get (organizationId, type, id)
  mutations : ∀ id, d₁.mutations.get (organizationId, id) = d₂.mutations.get (organizationId, id)
  fingerprints : ∀ id,
    d₁.fingerprints.get (organizationId, id) = d₂.fingerprints.get (organizationId, id)
  changeLog : (d₁.changeLog.filter fun c => c.row.organizationId == organizationId).map Change.row =
    (d₂.changeLog.filter fun c => c.row.organizationId == organizationId).map Change.row
  evidenceGc : (d₁.evidenceGc.filter fun r => r.organizationId == organizationId) =
    d₂.evidenceGc.filter fun r => r.organizationId == organizationId

/-- The changes of an organization have the same sequences in two databases. -/
def SameSequences (organizationId : Str) (d₁ d₂ : Database) : Prop :=
  (d₁.changeLog.filter fun c => c.row.organizationId == organizationId).map Change.sequence =
    (d₂.changeLog.filter fun c => c.row.organizationId == organizationId).map Change.sequence

/-- What is selected without an organization is the same in two databases. -/
structure SameShared (d₁ d₂ : Database) : Prop where
  customers : d₁.customerRows = d₂.customerRows
  projects : d₁.projectRows = d₂.projectRows
  projectSectors : d₁.projectSectorRows = d₂.projectSectorRows
  items : d₁.itemRows = d₂.itemRows
  projectChildren : d₁.projectChildRows = d₂.projectChildRows
  itemChildren : d₁.itemChildRows = d₂.itemChildRows
  evidenceBlobs : d₁.evidenceBlobRows = d₂.evidenceBlobRows

/-! ### What is loaded -/

section Load

variable {d₁ d₂ : Database} {organizationId : Str}

/-- A row of the memberships that is found in one database is found in the other. -/
lemma membership_found {organizationId : Str} (h : ∀ id row, row.organizationId = organizationId →
    d₁.memberships.get id = some row → d₂.memberships.get id = some row)
    (hfound : (d₁.membershipRows.find? fun row =>
      row.organizationId == organizationId && row.userId == seedUserId).isSome = true) :
    (d₂.membershipRows.find? fun row =>
      row.organizationId == organizationId && row.userId == seedUserId).isSome = true := by
  rw [List.find?_isSome] at hfound ⊢
  obtain ⟨row, hrow, htest⟩ := hfound
  obtain ⟨⟨id, _⟩, hmem, rfl⟩ := List.mem_map.mp hrow
  have horganization := htest
  rw [Bool.and_eq_true, beq_iff_eq] at horganization
  have hget := h id _ horganization.1 ((Table.mem_rows_iff _ _ _).mp hmem)
  exact ⟨_, List.mem_map_of_mem ((Table.mem_rows_iff _ _ _).mpr hget), htest⟩

/-- So the two databases have the same membership. -/
lemma membershipStruct_isolated (h : SameTenant organizationId d₁ d₂) :
    membershipStruct d₁.membershipRows organizationId =
      membershipStruct d₂.membershipRows organizationId := by
  have hforth := membership_found fun id row hrow => (h.memberships id row hrow).mp
  have hback := membership_found fun id row hrow => (h.memberships id row hrow).mpr
  unfold membershipStruct
  generalize d₁.membershipRows.find? _ = found₁ at hforth hback ⊢
  generalize d₂.membershipRows.find? _ = found₂ at hforth hback ⊢
  cases found₁ with
  | none =>
    cases found₂ with
    | none => rfl
    | some row => exact absurd (hback rfl) Bool.false_ne_true
  | some row =>
    cases found₂ with
    | none => exact absurd (hforth rfl) Bool.false_ne_true
    | some row' => rfl

/-- Databases with the same rows are loaded into one store. -/
theorem store_isolated (h : SameTenant organizationId d₁ d₂)
    (hsequences : SameSequences organizationId d₁ d₂) (hshared : SameShared d₁ d₂)
    (records : List Record) :
    (load d₁ records organizationId).store organizationId =
      (load d₂ records organizationId).store organizationId := by
  have htables : loadedTables d₁ organizationId = loadedTables d₂ organizationId := by
    simp only [loadedTables, Database.organizationStruct, h.organization, hshared.customers,
      hshared.projects, hshared.projectSectors, hshared.items, hshared.projectChildren,
      hshared.itemChildren, hshared.evidenceBlobs]
  have hmax : d₁.maxSequence organizationId = d₂.maxSequence organizationId := by
    rw [Database.maxSequence, Database.maxSequence]
    exact congrArg (List.foldl max 0) hsequences
  simp only [load_eq, Loaded.store, h.mutations, h.fingerprints, htables, hmax,
    membershipStruct_isolated h]

end Load

/-! ### What is written -/

/-- A statement writes a row of an organization; no grant is one. -/
def Statement.IsOf (organizationId : Str) : Statement → Prop
  | mutationInsert row => row.organizationId = organizationId
  | fingerprintInsert row => row.organizationId = organizationId
  | entityUpsert key _ => key.1 = organizationId
  | changelogInsert row => row.organizationId = organizationId
  | membershipGrant _ _ => False
  | evidenceGcInsert row => row.organizationId = organizationId
  | organizationRevisionUpdate _ id => id = organizationId

section Apply

variable {d₁ d₂ : Database} {organizationId : Str}

/-- Two results are alike if the one gives the other and both are refused together. -/
lemma rel_of_some {α β : Type} {R : α → β → Prop} {a : Option α} {b : Option β}
    (hsome : ∀ x, a = some x → ∃ y, b = some y ∧ R x y) (hnone : ∀ y, b = some y → a ≠ none) :
    Option.Rel R a b := by
  cases a with
  | none =>
    cases b with
    | none => exact .none
    | some y => exact absurd rfl (hnone y rfl)
  | some x =>
    obtain ⟨y, rfl, hxy⟩ := hsome x rfl
    exact .some hxy

/-- A statement of an organization does the same to its rows in both databases, or is refused by
both. -/
theorem apply_isolated {x : Statement} (hx : x.IsOf organizationId)
    (h : SameTenant organizationId d₁ d₂) :
    Option.Rel (SameTenant organizationId) (x.apply d₁) (x.apply d₂) := by
  cases x with
  | mutationInsert row =>
    obtain rfl := hx
    refine rel_of_some (fun d hd => ?_) fun d hd hnone => ?_
    · obtain ⟨id, hid, hdevice, hnew, rfl⟩ := Statement.mutationInsert_eq_some.mp hd
      rw [h.mutations] at hnew
      refine ⟨_, Statement.mutationInsert_eq_some.mpr ⟨id, hid, hdevice, hnew, rfl⟩,
        { h with mutations := fun key => ?_ }⟩
      simp only [Table.get_set, h.mutations]
    · obtain ⟨id, hid, hdevice, hnew, -⟩ := Statement.mutationInsert_eq_some.mp hd
      rw [← h.mutations] at hnew
      cases hnone.symm.trans (Statement.mutationInsert_eq_some.mpr ⟨id, hid, hdevice, hnew, rfl⟩)
  | fingerprintInsert row =>
    obtain rfl := hx
    refine rel_of_some (fun d hd => ?_) fun d hd hnone => ?_
    · obtain ⟨id, hid, hnew, rfl⟩ := Statement.fingerprintInsert_eq_some.mp hd
      rw [h.fingerprints] at hnew
      refine ⟨_, Statement.fingerprintInsert_eq_some.mpr ⟨id, hid, hnew, rfl⟩,
        { h with fingerprints := fun key => ?_ }⟩
      simp only [Table.get_set, h.fingerprints]
    · obtain ⟨id, hid, hnew, -⟩ := Statement.fingerprintInsert_eq_some.mp hd
      rw [← h.fingerprints] at hnew
      cases hnone.symm.trans (Statement.fingerprintInsert_eq_some.mpr ⟨id, hid, hnew, rfl⟩)
  | entityUpsert key columns =>
    refine .some { h with entities := fun type id => ?_ }
    simp only [Table.get_set, h.entities]
  | changelogInsert row =>
    refine .some { h with changeLog := ?_ }
    simp only [List.filter_append, List.map_append, h.changeLog]
    by_cases hrow : row.organizationId == organizationId <;> simp [hrow]
  | membershipGrant grant membershipId => exact hx.elim
  | evidenceGcInsert row =>
    refine .some { h with evidenceGc := ?_ }
    simp only [List.filter_append, h.evidenceGc]
  | organizationRevisionUpdate revision id =>
    obtain rfl := hx
    have horganization := h.organization
    cases hrow : d₁.organizations.get id with
    | none =>
      rw [hrow] at horganization
      simp only [Statement.apply, hrow, ← horganization]
      exact .some h
    | some row =>
      rw [hrow] at horganization
      simp only [Statement.apply, hrow, ← horganization]
      refine .some { h with organization := ?_ }
      simp only [Table.get_set_self]

/-- So do the statements one after another, under the same faults. -/
lemma applyEffects_isolated {statements : List Statement}
    (hof : ∀ x ∈ statements, x.IsOf organizationId) (fate : ℕ → Fate)
    (h : SameTenant organizationId d₁ d₂) :
    (applyEffects fate statements d₁).1 = (applyEffects fate statements d₂).1 ∧
      SameTenant organizationId (applyEffects fate statements d₁).2
        (applyEffects fate statements d₂).2 := by
  induction statements generalizing fate d₁ d₂ with
  | nil => exact ⟨rfl, h⟩
  | cons x statements ih =>
    rw [List.forall_mem_cons] at hof
    have hrel := apply_isolated hof.1 h
    rw [applyEffects, applyEffects]
    generalize x.apply d₁ = r₁ at hrel ⊢
    generalize x.apply d₂ = r₂ at hrel ⊢
    cases hrel with
    | none => cases fate 0 <;> exact ⟨rfl, h⟩
    | some hafter =>
      cases fate 0 with
      | served => exact ih hof.2 _ hafter
      | refused => exact ⟨rfl, h⟩
      | lost => exact ⟨rfl, hafter⟩

end Apply

/-! ### Pushes and pulls -/

section Tenants

variable {p : Push} {d d₁ d₂ : Database} {store : Store} {s : State} {list : List Statement}

/-- The upserts of an organization's entities. -/
lemma upserts_isOf {organizationId : Str} {rows : List EntityRow} {upserts : List Statement}
    (h : rows.mapM Writes.entityUpsert = .ok upserts)
    (hrows : ∀ row ∈ rows, row.organizationId = organizationId) :
    ∀ x ∈ upserts, x.IsOf organizationId := by
  intro x hx
  obtain ⟨row, hmem, hrow⟩ := mapM_eq_ok_mem_right h x hx
  simp only [Writes.entityUpsert, bind_eq_ok, pure_eq_ok] at hrow
  obtain ⟨_, -, _, -, _, -, rfl⟩ := hrow
  exact hrows row hmem

/-- Every statement of a push writes a row of its organization. -/
lemma Walks.isOf (h : Walks p d store s)
    (hstatements : p.statements (runOf p.records s) = .ok list) :
    ∀ x ∈ list, x.IsOf p.principal.organizationId := by
  have hrecorded := h.recorded
  obtain ⟨upserts, hupserts, rfl⟩ := h.statements_eq hstatements
  simp only [List.forall_mem_append, List.forall_mem_map]
  refine ⟨hrecorded.mutations, hrecorded.fingerprintRows,
    upserts_isOf hupserts hrecorded.entities, hrecorded.changes, fun _ _ => rfl, ?_⟩
  unfold Writes.revisionUpdate
  split_ifs <;> simp [Statement.IsOf]

/-- Two answers are the same, or they are of the same run, with the highest sequence of their
database. -/
def SameAnswer (p : Push) (d₁ d₂ : Database) (a₁ a₂ : Answer) : Prop :=
  a₁ = a₂ ∨ ∃ run, a₁ = p.answer run d₁ ∧ a₂ = p.answer run d₂

/-- **Pushes of a tenant.** On databases with the same rows of its organization, and the same rows in
the tables that are selected without one, a push decides the same, writes the same rows and gives the
same answer, under the same faults. -/
theorem push_isolated (h : SameTenant p.principal.organizationId d₁ d₂)
    (hsequences : SameSequences p.principal.organizationId d₁ d₂) (hshared : SameShared d₁ d₂)
    (faults : Faults) :
    p.decide (p.load d₁) = p.decide (p.load d₂) ∧
      SameTenant p.principal.organizationId (p.run faults d₁).2 (p.run faults d₂).2 ∧
        SameAnswer p (p.run faults d₁).2 (p.run faults d₂).2 (p.run faults d₁).1
          (p.run faults d₂).1 := by
  have hdecide : p.decide (p.load d₁) = p.decide (p.load d₂) := by
    rw [Push.decide, Push.load, store_isolated h hsequences hshared, ← Push.load, ← Push.decide]
  refine ⟨hdecide, ?_⟩
  unfold Push.run
  split_ifs with hloading
  · exact ⟨h, Or.inl rfl⟩
  · rw [hdecide]
    cases hdecided : p.decide (p.load d₂) with
    | error exception => exact ⟨h, Or.inl rfl⟩
    | ok decided =>
      cases decided with
      | error denial => exact ⟨h, Or.inl rfl⟩
      | ok run =>
        obtain ⟨store, s, hwalks, rfl⟩ := walks_of_decide hdecided
        simp only [Push.write]
        split_ifs with hconnecting
        · exact ⟨h, Or.inl rfl⟩
        · cases hstatements : p.statements (runOf p.records s) with
          | error exception => exact ⟨h, Or.inl rfl⟩
          | ok list =>
            obtain ⟨hserved, hafter⟩ :=
              applyEffects_isolated (hwalks.isOf hstatements) faults.fate h
            simp only [hserved]
            split_ifs
            · exact ⟨hafter, Or.inr ⟨_, rfl, rfl⟩⟩
            · exact ⟨hafter, Or.inl rfl⟩

/-- **Pulls of a tenant.** On databases with the same changes of an organization, a pull returns the
same page and cursor. -/
theorem pull_isolated {principal : Principal} {createdAt : Change → Str}
    (hsequences : SameSequences principal.organizationId d₁ d₂) (start : ℕ) :
    PullService.pull createdAt d₁ start principal =
      PullService.pull createdAt d₂ start principal := by
  have hscanned : ∀ d : Database,
      (PullService.syncChangeLog d principal.organizationId start).map Change.sequence =
        (pending id ((d.changeLog.filter fun c =>
          c.row.organizationId == principal.organizationId).map Change.sequence) start).take
            Page.maxScanChanges := by
    intro d
    rw [PullService.syncChangeLog, pending_map, List.map_take]
    rfl
  rw [PullService.pull_eq, PullService.pull_eq, advance_eq_foldl, advance_eq_foldl, hscanned,
    hscanned, hsequences]

/-- A grant of a push is for the membership of its principal. -/
lemma Push.grant_own {run : Run} {statements : List Statement}
    (hstatements : p.statements run = .ok statements) {grant : Ownership.Grant} {membershipId : Str}
    (hmem : .membershipGrant grant membershipId ∈ statements) :
    membershipId = p.principal.membershipId := by
  obtain ⟨upserts, hupserts, hrest⟩ := bind_eq_ok.mp hstatements
  obtain ⟨grants, hgrants, hlist⟩ := bind_eq_ok.mp hrest
  cases hlist
  have hupsert : .membershipGrant grant membershipId ∉ upserts := by
    intro hmem
    obtain ⟨key, columns, hx⟩ := upsert_of_mem hupserts _ hmem
    cases hx
  simp only [List.mem_append, List.mem_map, reduceCtorEq, and_false, exists_false, false_or,
    hupsert, Writes.evidenceGcInsert, Writes.revisionUpdate] at hmem
  rcases hmem with hmem | hmem
  · obtain ⟨grant', -, hgrant⟩ := mapM_eq_ok_mem_right hgrants _ hmem
    simp only [Writes.membershipGrant, bind_eq_ok, pure_eq_ok, Statement.membershipGrant.injEq]
      at hgrant
    obtain ⟨-, -, -, -, -, hid⟩ := hgrant
    exact hid.symm
  · split_ifs at hmem
    · cases List.mem_singleton.mp hmem
    · cases hmem

/-- A statement changes no membership but the one that it grants to. -/
lemma Statement.apply_memberships {x : Statement} {d d' : Database} (happly : x.apply d = some d')
    {id : Str} (hid : ∀ grant, x ≠ .membershipGrant grant id) :
    d'.memberships.get id = d.memberships.get id := by
  cases x with
  | mutationInsert row =>
    obtain ⟨_, -, -, -, rfl⟩ := Statement.mutationInsert_eq_some.mp happly
    rfl
  | fingerprintInsert row =>
    obtain ⟨_, -, -, rfl⟩ := Statement.fingerprintInsert_eq_some.mp happly
    rfl
  | membershipGrant grant membershipId =>
    have hne : id ≠ membershipId := by
      rintro rfl
      exact hid grant rfl
    simp only [Statement.apply] at happly
    split at happly <;> cases happly
    · rfl
    · exact Table.get_set_of_ne _ _ hne
  | organizationRevisionUpdate revision organizationId =>
    simp only [Statement.apply] at happly
    split at happly <;> cases happly <;> rfl
  | entityUpsert _ _ | changelogInsert _ | evidenceGcInsert _ =>
    cases happly
    rfl

/-- So do the statements that are executed. -/
lemma applyEffects_memberships {statements : List Statement} {id : Str}
    (hid : ∀ grant, .membershipGrant grant id ∉ statements) (fate : ℕ → Fate) (d : Database) :
    (applyEffects fate statements d).2.memberships.get id = d.memberships.get id := by
  induction statements generalizing fate d with
  | nil => rfl
  | cons x rest ih =>
    have hrest : ∀ grant, .membershipGrant grant id ∉ rest := fun grant hmem =>
      hid grant (List.mem_cons_of_mem _ hmem)
    unfold applyEffects
    cases happly : x.apply d with
    | none => cases fate 0 <;> rfl
    | some d' =>
      have hhead : d'.memberships.get id = d.memberships.get id :=
        Statement.apply_memberships happly fun grant hx => hid grant (hx ▸ List.mem_cons_self)
      cases fate 0 with
      | served => exact (ih hrest _ d').trans hhead
      | refused => rfl
      | lost => exact hhead

/-- **Tenants.** On databases with the same rows of an organization, a pull of its principals does
the same; and so does a push, if the tables that are selected without an organization hold the same
rows. Whatever a push has decided, it changes no membership but the principal's own.

**Proof sketch.** The pull is `pull_isolated` and the push `push_isolated`; a grant of a push names
the membership of its principal (`Push.grant_own`). -/
theorem tenants_isolated (h : SameTenant p.principal.organizationId d₁ d₂)
    (hsequences : SameSequences p.principal.organizationId d₁ d₂) :
    (SameShared d₁ d₂ → ∀ faults, p.decide (p.load d₁) = p.decide (p.load d₂) ∧
      SameTenant p.principal.organizationId (p.run faults d₁).2 (p.run faults d₂).2 ∧
        SameAnswer p (p.run faults d₁).2 (p.run faults d₂).2 (p.run faults d₁).1
          (p.run faults d₂).1) ∧
      (∀ createdAt start, PullService.pull createdAt d₁ start p.principal =
        PullService.pull createdAt d₂ start p.principal) ∧
      ∀ faults run d id, id ≠ p.principal.membershipId →
        (p.write faults run d).2.memberships.get id = d.memberships.get id := by
  refine ⟨push_isolated h hsequences, fun _ => pull_isolated hsequences, ?_⟩
  intro faults run d id hid
  unfold Push.write
  split_ifs with hconnecting
  · rfl
  · cases hstatements : p.statements run with
    | error exception => rfl
    | ok statements =>
      have hkept : (applyEffects faults.fate statements d).2.memberships.get id =
          d.memberships.get id :=
        applyEffects_memberships (fun _ hmem => hid (p.grant_own hstatements hmem)) _ _
      dsimp only
      split_ifs
      · exact hkept
      · exact hkept

end Tenants

/-! ### Samples -/

namespace Sample

/-- The database with a customer of another organization. -/
def withCustomer : Database :=
  { database with customers := database.customers.set ("x", "f") ⟨none⟩ }

/-- The database with a mutation id of another organization. -/
def withFingerprint : Database :=
  { database with fingerprints := database.fingerprints.set ("x", "1") "digest" }

/-- A push of the other organization's customer by a member who may not create customers. -/
def foreignPush : Push :=
  { push [record .customer "f" "1" none [("id", .str "f")]] with
    principal := { VitrialSync.Sample.principal with capabilities := [.sync, .customerEdit] } }

/-- The keys of two organizations. -/
lemma key_ne (id id' : Str) :
    (VitrialSync.Sample.principal.organizationId, id) ≠ (Str.ofString "x", id') := by
  have horganization : VitrialSync.Sample.principal.organizationId ≠ Str.ofString "x" := by decide
  exact fun h => horganization (Prod.ext_iff.mp h).1

/-- The other organization's customer is no row of the sample organization. -/
lemma withCustomer_same :
    SameTenant VitrialSync.Sample.principal.organizationId database withCustomer :=
  ⟨rfl, fun _ _ _ => Iff.rfl, fun id => (Table.get_set_of_ne _ _ (key_ne id "f")).symm,
    fun _ => rfl, fun _ => rfl, fun _ => rfl, fun _ _ => rfl, fun _ _ => rfl, fun _ _ => rfl,
    fun _ => rfl, fun _ => rfl, rfl, rfl⟩

/-- Its mutation id is not, either. -/
lemma withFingerprint_same :
    SameTenant VitrialSync.Sample.principal.organizationId database withFingerprint :=
  ⟨rfl, fun _ _ _ => Iff.rfl, fun _ => rfl, fun _ => rfl, fun _ => rfl, fun _ => rfl,
    fun _ _ => rfl, fun _ _ => rfl, fun _ _ => rfl, fun _ => rfl,
    fun id => (Table.get_set_of_ne _ _ (key_ne id "1")).symm, rfl, rfl⟩

end Sample

/-- The mutation id of another organization changes nothing. -/
theorem tenants_isolated_fingerprint :
    ((Sample.push [Sample.customer]).decide ((Sample.push [Sample.customer]).load Sample.database) =
      (Sample.push [Sample.customer]).decide
        ((Sample.push [Sample.customer]).load Sample.withFingerprint)) ∧
      SameTenant VitrialSync.Sample.principal.organizationId
        ((Sample.push [Sample.customer]).run .none Sample.database).2
          ((Sample.push [Sample.customer]).run .none Sample.withFingerprint).2 := by
  obtain ⟨hpush, -, -⟩ := tenants_isolated (p := Sample.push [Sample.customer])
    Sample.withFingerprint_same rfl
  have hsame := hpush ⟨rfl, rfl, rfl, rfl, rfl, rfl, rfl⟩ .none
  exact ⟨hsame.1, hsame.2.1⟩

/-- A customer that the member may not create is accepted if it is one of another organization. -/
theorem not_isolated_customer :
    SameTenant VitrialSync.Sample.principal.organizationId Sample.database Sample.withCustomer ∧
      SameSequences VitrialSync.Sample.principal.organizationId Sample.database
        Sample.withCustomer ∧
      ∃ run run', (Sample.foreignPush.run .none Sample.database).1 =
          .pushed run ∧
        (Sample.foreignPush.run .none Sample.withCustomer).1 = .pushed run' ∧
          run.effects.entityUpserts.length = 0 ∧ run'.effects.entityUpserts.length = 1 := by
  have hrefused : (Sample.foreignPush.run .none Sample.database).1.run?.map
      (fun run => run.effects.entityUpserts.length) = some 0 := by
    decide +kernel
  have haccepted : (Sample.foreignPush.run .none Sample.withCustomer).1.run?.map
      (fun run => run.effects.entityUpserts.length) = some 1 := by
    decide +kernel
  obtain ⟨run, d, hrun, hlength⟩ := pushed_of_run? hrefused
  obtain ⟨run', d', hrun', hlength'⟩ := pushed_of_run? haccepted
  exact ⟨Sample.withCustomer_same, rfl, run, run', congrArg Prod.fst hrun, congrArg Prod.fst hrun',
    hlength, hlength'⟩

end VitrialSync.Beam
