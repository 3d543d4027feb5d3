import VitrialSync.Beam.Persistence

set_option relaxedAutoImplicit false
set_option autoImplicit false

/-!
# Pushes that stop

The statements of a push are transactions of their own, so a fault between two of them leaves a part
of the batch in the database. A push is all or nothing exactly where the fault comes before the
first statement or after the last insert.

## Main definitions

* `VitrialSync.Beam.executed` — how many statements were executed before the push stopped.
* `VitrialSync.Beam.AllOrNothing` — the database is as it was, or every statement was executed.
* `VitrialSync.Beam.StopsAtAnEnd` — the push stops before the first statement or after the last
  insert.

## Main results

* `VitrialSync.Beam.allOrNothing_iff` — the two agree.
-/

namespace VitrialSync.Beam

open Python Program
open Batch

/-! ### Where a push stops -/

/-- The number of statements that are executed before one is not answered. -/
def executed (fate : ℕ → Fate) : List Statement → Database → ℕ
  | [], _ => 0
  | statement :: rest, d =>
    match fate 0, statement.apply d with
    | .served, some d' => executed (fun k => fate (k + 1)) rest d' + 1
    | .lost, some _ => 1
    | _, _ => 0

/-- The statements that were executed lead to the database after the push. -/
lemma applyAll_executed (fate : ℕ → Fate) (statements : List Statement) (d : Database) :
    applyAll (statements.take (executed fate statements d)) d =
      some (applyEffects fate statements d).2 := by
  induction statements generalizing fate d with
  | nil => rfl
  | cons statement rest ih =>
    rw [executed, applyEffects]
    cases hfate : fate 0 with
    | served =>
      cases hstatement : statement.apply d with
      | none => rfl
      | some d₁ => exact applyAll_cons.mpr ⟨d₁, hstatement, ih _ d₁⟩
    | refused => rfl
    | lost =>
      cases hstatement : statement.apply d with
      | none => rfl
      | some d₁ => exact applyAll_cons.mpr ⟨d₁, hstatement, by simp⟩

/-! ### The statements of a push -/

section Statements

variable {p : Push} {d : Database} {store : Store} {s : State} {list : List Statement}

/-- The statements of a push: the inserts and upserts up to the changes, the inserts for the
deletions, and the revision of the organization. -/
lemma Walks.statements_eq (h : Walks p d store s)
    (hstatements : p.statements (runOf p.records s) = .ok list) :
    ∃ upserts, s.effects.entityUpserts.mapM Writes.entityUpsert = .ok upserts ∧
      list = s.effects.mutationRows.map .mutationInsert ++
        (s.effects.fingerprintRows.map .fingerprintInsert ++ (upserts ++
          (s.effects.changelogRows.map .changelogInsert ++
            (s.effects.evidenceGcRows.map
              (Writes.evidenceGcInsert p.principal.organizationId p.now) ++
                Writes.revisionUpdate s.effects.organizationAuthorizationRevision
                  p.principal.organizationId)))) := by
  obtain ⟨upserts, hupserts, hrest⟩ := bind_eq_ok.mp hstatements
  obtain ⟨grants, hgrants, hrest⟩ := bind_eq_ok.mp hrest
  refine ⟨upserts, hupserts, ?_⟩
  simp only [runOf, h.recorded.grants, List.mapM_nil, pure_eq_ok] at hgrants
  subst hgrants
  cases hrest
  simp only [runOf, List.nil_append]

/-- A push without mutations has no insert. -/
lemma Walks.noInsert (h : Walks p d store s)
    (hstatements : p.statements (runOf p.records s) = .ok list)
    (hnone : s.effects.mutationRows = []) : ∀ x ∈ list, x.isInsert = false := by
  have hrecorded := h.recorded
  have hfingerprints : s.effects.fingerprintRows = [] := by
    have hids := hrecorded.ids
    rwa [hnone, List.map_nil, List.map_eq_nil_iff] at hids
  have hempty : s.effects.entityUpserts = [] := by
    have hposted := hrecorded.posted
    rw [hnone, List.length_nil, Nat.le_zero, List.length_eq_zero_iff] at hposted
    exact hposted
  obtain ⟨-, -, -, hchanges, hgc⟩ := hrecorded.untouched hempty
  obtain ⟨upserts, hupserts, rfl⟩ := h.statements_eq hstatements
  rw [hempty] at hupserts
  cases hupserts
  rw [hnone, hfingerprints, hchanges, hgc]
  intro x hx
  simp only [List.map_nil, List.nil_append, Writes.revisionUpdate] at hx
  split_ifs at hx
  · cases List.mem_singleton.mp hx
    rfl
  · cases hx

/-- A push with mutations begins with an insert. -/
lemma Walks.head (h : Walks p d store s)
    (hstatements : p.statements (runOf p.records s) = .ok list)
    (hsome : s.effects.mutationRows ≠ []) :
    ∃ x rest, list = x :: rest ∧ x.isInsert = true := by
  obtain ⟨upserts, -, rfl⟩ := h.statements_eq hstatements
  obtain ⟨row, rows, hrows⟩ := List.exists_cons_of_ne_nil hsome
  rw [hrows]
  exact ⟨_, _, rfl, rfl⟩

/-- What is left of the statements of a push after the last insert is the update of the revision.

**Proof sketch.** Each upsert of an entity is followed by the insert of a change, so none of them is
left; no statement grants anything. -/
lemma Walks.rest (h : Walks p d store s)
    (hstatements : p.statements (runOf p.records s) = .ok list) {n : ℕ}
    (hrest : ∀ x ∈ list.drop n, x.isInsert = false) :
    ∀ x ∈ list.drop n, x ∈ Writes.revisionUpdate s.effects.organizationAuthorizationRevision
      p.principal.organizationId := by
  obtain ⟨upserts, hupserts, rfl⟩ := h.statements_eq hstatements
  have hlength : upserts.length = s.effects.changelogRows.length := by
    have hledger := (bookkept_walk h.walked).ledger
    rw [← (mapM_eq_ok_iff.mp hupserts).length_eq, hledger.entities, hledger.changes]
  -- a list of inserts that is followed by others is not reached
  have hinserts : ∀ {ρ : Type} (f : ρ → Statement) (rows : List ρ) (tail : List Statement) (m : ℕ),
      (∀ row, (f row).isInsert = true) →
        (∀ x ∈ (rows.map f ++ tail).drop m, x.isInsert = false) →
          (rows.map f ++ tail).drop m = tail.drop (m - rows.length) ∧
            ∀ x ∈ tail.drop (m - rows.length), x.isInsert = false := by
    intro ρ f rows tail m hf hm
    rw [List.drop_append, List.length_map] at hm ⊢
    rw [List.forall_mem_append] at hm
    have hnil : (rows.map f).drop m = [] := by
      rw [← List.map_drop, List.map_eq_nil_iff, List.eq_nil_iff_forall_not_mem]
      intro row hrow
      have hrow' := hm.1 (f row) (by rw [← List.map_drop]; exact List.mem_map_of_mem hrow)
      rw [hf row] at hrow'
      cases hrow'
    exact ⟨by rw [hnil, List.nil_append], hm.2⟩
  obtain ⟨hmutations, hrest⟩ := hinserts _ _ _ _ (fun _ => rfl) hrest
  obtain ⟨hfingerprints, hrest⟩ := hinserts _ _ _ _ (fun _ => rfl) hrest
  rw [hmutations, hfingerprints]
  generalize n - s.effects.mutationRows.length - s.effects.fingerprintRows.length = m at hrest ⊢
  rw [List.drop_append] at hrest ⊢
  rw [List.forall_mem_append] at hrest
  have hupsertsDone : upserts.drop m = [] := by
    by_contra hne
    have hm : m < upserts.length := by
      by_contra hge
      exact hne (List.drop_eq_nil_of_le (not_lt.mp hge))
    have hchanges : s.effects.changelogRows ≠ [] := by
      rw [← List.length_pos_iff, ← hlength]
      omega
    obtain ⟨change, rows, hrows⟩ := List.exists_cons_of_ne_nil hchanges
    rw [hrows, Nat.sub_eq_zero_of_le hm.le, List.drop_zero, List.map_cons] at hrest
    exact Bool.noConfusion (hrest.2 (.changelogInsert change) List.mem_cons_self)
  obtain ⟨hchanges, hrest⟩ := hinserts _ _ _ _ (fun _ => rfl) hrest.2
  obtain ⟨hgc, -⟩ := hinserts _ _ _ _ (fun _ => rfl) hrest
  rw [hupsertsDone, List.nil_append, hchanges, hgc]
  exact fun x hx => List.mem_of_mem_drop hx

/-- The upserts of a push are upserts. -/
lemma upsert_of_mem {rows : List EntityRow} {upserts : List Statement}
    (h : rows.mapM Writes.entityUpsert = .ok upserts) :
    ∀ x ∈ upserts, ∃ key columns, x = .entityUpsert key columns := by
  intro x hx
  obtain ⟨row, -, hrow⟩ := mapM_eq_ok_mem_right h x hx
  simp only [Writes.entityUpsert, bind_eq_ok, pure_eq_ok] at hrow
  obtain ⟨_, -, _, -, _, -, rfl⟩ := hrow
  exact ⟨_, _, rfl⟩

/-- The only revision that a push writes is that of its effects, for its organization. -/
lemma Walks.revision_of_mem (h : Walks p d store s)
    (hstatements : p.statements (runOf p.records s) = .ok list) {revision : ℤ}
    {organizationId : Str} (hmem : .organizationRevisionUpdate revision organizationId ∈ list) :
    revision = s.effects.organizationAuthorizationRevision ∧
      organizationId = p.principal.organizationId := by
  obtain ⟨upserts, hupserts, rfl⟩ := h.statements_eq hstatements
  have hupsert : .organizationRevisionUpdate revision organizationId ∉ upserts := by
    intro hmem
    obtain ⟨key, columns, hx⟩ := upsert_of_mem hupserts _ hmem
    cases hx
  simp only [List.mem_append, List.mem_map, reduceCtorEq, and_false, exists_false, false_or,
    hupsert, Writes.evidenceGcInsert, Writes.revisionUpdate] at hmem
  split_ifs at hmem
  · cases List.mem_singleton.mp hmem
    exact ⟨rfl, rfl⟩
  · cases hmem

/-- A push grants nothing. -/
lemma Walks.grant_notMem (h : Walks p d store s)
    (hstatements : p.statements (runOf p.records s) = .ok list) (grant : Ownership.Grant)
    (membershipId : Str) : .membershipGrant grant membershipId ∉ list := by
  obtain ⟨upserts, hupserts, rfl⟩ := h.statements_eq hstatements
  intro hmem
  have hupsert : .membershipGrant grant membershipId ∉ upserts := by
    intro hmem
    obtain ⟨key, columns, hx⟩ := upsert_of_mem hupserts _ hmem
    cases hx
  simp only [List.mem_append, List.mem_map, reduceCtorEq, and_false, exists_false, false_or,
    hupsert, Writes.evidenceGcInsert, Writes.revisionUpdate] at hmem
  split_ifs at hmem
  · cases List.mem_singleton.mp hmem
  · cases hmem

/-- The organizations and the memberships of two databases are the same. -/
def SameMembers (d₁ d₂ : Database) : Prop :=
  d₁.organizations = d₂.organizations ∧ d₁.memberships = d₂.memberships

/-- A statement of a push leaves the organizations and the memberships as they were loaded. -/
lemma Walks.apply_members (h : Walks p d store s)
    (hstatements : p.statements (runOf p.records s) = .ok list) {x : Statement} (hx : x ∈ list)
    {d₁ d₂ : Database} (hd : SameMembers d₁ d) (happly : x.apply d₁ = some d₂) :
    SameMembers d₂ d := by
  cases x with
  | mutationInsert row =>
    obtain ⟨_, -, -, -, rfl⟩ := Statement.mutationInsert_eq_some.mp happly
    exact hd
  | fingerprintInsert row =>
    obtain ⟨_, -, -, rfl⟩ := Statement.fingerprintInsert_eq_some.mp happly
    exact hd
  | entityUpsert key columns =>
    cases happly
    exact hd
  | changelogInsert row =>
    cases happly
    exact hd
  | membershipGrant grant membershipId => exact absurd hx (h.grant_notMem hstatements _ _)
  | evidenceGcInsert row =>
    cases happly
    exact hd
  | organizationRevisionUpdate revision id =>
    obtain ⟨rfl, rfl⟩ := h.revision_of_mem hstatements hx
    have hidle := Statement.organizationRevisionUpdate_idle (d := d₁) (hd.1 ▸ h.revision)
    cases happly.symm.trans hidle
    exact hd

/-- So do all of them. -/
lemma Walks.applyAll_members (h : Walks p d store s)
    (hstatements : p.statements (runOf p.records s) = .ok list) {part : List Statement}
    (hpart : ∀ x ∈ part, x ∈ list) {d₁ d₂ : Database} (hd : SameMembers d₁ d)
    (happly : applyAll part d₁ = some d₂) : SameMembers d₂ d := by
  induction part generalizing d₁ with
  | nil =>
    cases happly
    exact hd
  | cons x part ih =>
    rw [List.forall_mem_cons] at hpart
    obtain ⟨d', hhead, hrest⟩ := applyAll_cons.mp happly
    exact ih hpart.2 (h.apply_members hstatements hpart.1 hd hhead) hrest

end Statements

/-! ### All or nothing -/

/-- After the push the database is as it was, or every statement of the push was executed. -/
def AllOrNothing (faults : Faults) (p : Push) (d : Database) : Prop :=
  (p.run faults d).2 = d ∨ ∃ run statements, p.decide (p.load d) = .ok (.ok run) ∧
    p.statements run = .ok statements ∧ applyAll statements d = some (p.run faults d).2

/-- The push sends no statement, or it stops before the first one is executed, or when no insert is
left. -/
def StopsAtAnEnd (faults : Faults) (p : Push) (d : Database) : Prop :=
  faults.loading = false → faults.connecting = false → ∀ run statements,
    p.decide (p.load d) = .ok (.ok run) → p.statements run = .ok statements →
      executed faults.fate statements d = 0 ∨
        ∀ x ∈ statements.drop (executed faults.fate statements d), x.isInsert = false

/-- A push that sends its statements leaves what they do. -/
lemma run_database {faults : Faults} {p : Push} {d : Database} {run : Batch.Run}
    {statements : List Statement} (hloading : faults.loading = false)
    (hconnecting : faults.connecting = false) (hdecide : p.decide (p.load d) = .ok (.ok run))
    (hstatements : p.statements run = .ok statements) :
    (p.run faults d).2 = (applyEffects faults.fate statements d).2 := by
  rw [Push.run, hloading, if_neg Bool.false_ne_true, hdecide]
  simp only [Push.write, hconnecting, hstatements, Bool.false_eq_true, ↓reduceIte]
  split_ifs <;> rfl

/-- A push that sends no statement leaves the database. -/
lemma run_unsent {faults : Faults} {p : Push} {d : Database}
    (h : ¬∃ run statements, faults.loading = false ∧ faults.connecting = false ∧
      p.decide (p.load d) = .ok (.ok run) ∧ p.statements run = .ok statements) :
    (p.run faults d).2 = d := by
  unfold Push.run
  split_ifs with hloading
  · rfl
  · split
    · rfl
    · rfl
    · rename_i run hdecide
      unfold Push.write
      split_ifs with hconnecting
      · rfl
      · split
        · rfl
        · rename_i statements hstatements
          exact absurd ⟨run, statements, Bool.eq_false_of_not_eq_true hloading,
            Bool.eq_false_of_not_eq_true hconnecting, hdecide, hstatements⟩ h

/-- **All or nothing.** A push leaves the database as it was or with all of its rows exactly if no
fault stops it between its first statement and its last insert.

**Proof sketch.** The first statement of a push that writes is an insert, and every insert is seen in
the size of the database: a part of the statements that has some but not all of the inserts leads
neither to the old size nor to that of the whole. What is left after the last insert is the update
of the organization's revision, which is as it was loaded. -/
theorem allOrNothing_iff (faults : Faults) (p : Push) (d : Database) :
    AllOrNothing faults p d ↔ StopsAtAnEnd faults p d := by
  by_cases hsent : ∃ run statements, faults.loading = false ∧ faults.connecting = false ∧
      p.decide (p.load d) = .ok (.ok run) ∧ p.statements run = .ok statements
  · obtain ⟨run, statements, hloading, hconnecting, hdecide, hstatements⟩ := hsent
    obtain ⟨store, s, hwalks, rfl⟩ := walks_of_decide hdecide
    have hafter := run_database hloading hconnecting hdecide hstatements
    have hexecuted := applyAll_executed faults.fate statements d
    rw [← hafter] at hexecuted
    have hstops : StopsAtAnEnd faults p d ↔ executed faults.fate statements d = 0 ∨
        ∀ x ∈ statements.drop (executed faults.fate statements d), x.isInsert = false := by
      constructor
      · exact fun h => h hloading hconnecting _ _ hdecide hstatements
      · intro h _ _ run' statements' hdecide' hstatements'
        cases hdecide.symm.trans hdecide'
        cases hstatements.symm.trans hstatements'
        exact h
    rw [hstops]
    generalize executed faults.fate statements d = n at hexecuted ⊢
    have hsize := size_applyAll hexecuted
    constructor
    · rintro (hsame | ⟨run', statements', hdecide', hstatements', hall⟩)
      · -- no insert was executed
        rw [hsame] at hsize
        by_cases hsome : s.effects.mutationRows = []
        · exact Or.inr fun x hx =>
            hwalks.noInsert hstatements hsome x (List.mem_of_mem_drop hx)
        · obtain ⟨x, rest, rfl, hx⟩ := hwalks.head hstatements hsome
          cases n with
          | zero => exact Or.inl rfl
          | succ n =>
            rw [List.take_succ_cons, List.countP_cons, if_pos hx] at hsize
            omega
      · -- every insert was executed
        cases hdecide.symm.trans hdecide'
        cases hstatements.symm.trans hstatements'
        have hwhole := size_applyAll hall
        rw [← List.take_append_drop n statements, List.countP_append] at hwhole
        have hnone : (statements.drop n).countP Statement.isInsert = 0 := by omega
        exact Or.inr fun x hx => by simpa using List.countP_eq_zero.mp hnone x hx
    · rintro (rfl | hrest)
      · exact Or.inl (Option.some.inj hexecuted).symm
      · refine Or.inr ⟨_, _, hdecide, hstatements, ?_⟩
        rw [← List.take_append_drop n statements]
        refine applyAll_append.mpr ⟨_, hexecuted, applyAll_idle fun x hx => ?_⟩
        refine Statement.revisionUpdate_idle ?_ x (hwalks.rest hstatements hrest x hx)
        rw [(hwalks.applyAll_members hstatements (fun y hy => List.mem_of_mem_take hy) ⟨rfl, rfl⟩
          hexecuted).1]
        exact hwalks.revision
  · refine iff_of_true (Or.inl (run_unsent hsent)) ?_
    intro hloading hconnecting run statements hdecide hstatements
    exact absurd ⟨run, statements, hloading, hconnecting, hdecide, hstatements⟩ hsent

/-- A fault at the second statement. -/
def Sample.faults : Faults := ⟨false, false, fun k => if k = 1 then .refused else .served, false⟩

/-- A push that stops at its second statement leaves the row of a mutation without its
fingerprint. -/
theorem not_allOrNothing_second :
    ¬AllOrNothing Sample.faults (Sample.push [Sample.staleCustomer]) Sample.database := by
  have hsize : ((Sample.push [Sample.staleCustomer]).run Sample.faults Sample.database).2.size = 1 :=
    by decide +kernel
  have hcount : ((((Sample.push [Sample.staleCustomer]).decide
      ((Sample.push [Sample.staleCustomer]).load Sample.database)).toOption.bind
        Except.toOption).bind fun run =>
          ((Sample.push [Sample.staleCustomer]).statements run).toOption).map
            (List.countP Statement.isInsert) = some 2 := by
    decide +kernel
  rintro (hsame | ⟨run, statements, hdecide, hstatements, hall⟩)
  · rw [hsame] at hsize
    cases hsize
  · -- both inserts would be seen in the size
    have hwhole := size_applyAll hall
    simp only [hdecide, hstatements, Except.toOption, Option.bind_some, Option.map_some,
      Option.some.injEq] at hcount
    rw [hsize, hcount] at hwhole
    cases hwhole

end VitrialSync.Beam
