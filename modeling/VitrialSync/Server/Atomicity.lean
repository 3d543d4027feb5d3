import VitrialSync.Server.Writes

set_option relaxedAutoImplicit false
set_option autoImplicit false

/-!
# Atomicity of a rejection

A rejected record should leave nothing behind but its mutation row and its fingerprint. Every check
of the `try` block comes before every write, except one: a new customer or project is added, and
the scope of the batch grows, before `_grant_created_scope` looks at the creator's membership. When
the membership is no longer active, the record is rejected and the row and the scope stay.

## Main definitions

* `VitrialSync.RecordStep.Atomic` — the only trace of the record is its mutation.
* `VitrialSync.RecordStep.CreatesOwner` — a record that reaches `_grant_created_scope`.

## Main results

* `VitrialSync.pushSteps_atomic_iff` — the rejections of a batch are atomic exactly when the
  creator's membership is canonical or no record creates an owner.
-/

namespace VitrialSync

open Python Program

/-! ### Statements -/

namespace RecordStep

/-- The step changes nothing, or adds one mutation row with its fingerprint. -/
def Atomic (s : RecordStep) : Prop :=
  s.after = s.before ∨ ∃ mutationId revision, mutationId? s.record = some mutationId ∧
    s.after =
      { s.before with
        db := recordMutation s.input.principal s.input.batch.deviceID.text mutationId s.record
          .rejected revision s.before.db }

/-- A customer that the organization does not know, by a principal that may create customers. -/
structure NewCustomer (s : RecordStep) : Prop where
  entityType : s.record.entityType = .customer
  unknown : s.before.db.customers.get
    (s.input.principal.organizationId, s.record.entityID.text) = none
  capability : s.input.principal.holds .customerCreate = true

/-- A project that the organization does not know, of an active customer in scope, by a principal
that may create projects. -/
structure NewProject (s : RecordStep) (payload : Payload) (customerId : Str) : Prop where
  entityType : s.record.entityType = .project
  unknown : s.before.db.projects.get
    (s.input.principal.organizationId, s.record.entityID.text) = none
  capability : s.input.principal.holds .projectCreate = true
  customer : Ownership.value payload.items "customerID" = .ok customerId
  active : s.before.db.canonical.ActiveCustomer s.input.principal.organizationId customerId
  inScope : s.before.scope.canAccessCustomer customerId = true

/-- A fresh upsert that creates a customer or a project, with a payload that names it. -/
structure CreatesOwner (env : Env) (s : RecordStep) (payload : Payload) : Prop where
  upsert : s.record.deletedAt = none
  unanswered : s.Unanswered
  fresh : staleRevision s.record s.current = false
  unknown : s.current = none
  decoded : decodePayload env s.record.payload = .ok payload
  identity : Ownership.requireIdentity payload.items s.record.entityID.text false = .ok ()
  owner : s.NewCustomer ∨ ∃ customerId, s.NewProject payload customerId

end RecordStep

/-- An atomic step leaves the canonical tables, the entities, the change log, the memberships, the
organizations and the scope as they were. -/
lemma RecordStep.Atomic.frame {s : RecordStep} (h : s.Atomic) :
    s.after.db.canonical = s.before.db.canonical ∧
      s.after.db.entities = s.before.db.entities ∧
      s.after.db.changeLog = s.before.db.changeLog ∧
      s.after.db.memberships = s.before.db.memberships ∧
      s.after.db.organizations = s.before.db.organizations ∧ s.after.scope = s.before.scope := by
  rcases h with heq | ⟨mutationId, revision, -, heq⟩ <;> rw [heq] <;>
    exact ⟨rfl, rfl, rfl, rfl, rfl, rfl⟩

/-! ### The grant -/

section Grant

variable {principal : Principal} {customerId projectId : Option Str} {w : Working}

/-- A grant raises exactly when the creator's membership is not canonical. -/
lemma grantCreatedScope_eq_ok_iff :
    (Ownership.grantCreatedScope principal customerId projectId w).1 = .ok () ↔
      Ownership.creatorCanonical w.db principal = true := by
  unfold Ownership.grantCreatedScope
  cases hm : w.db.memberships.get principal.membershipId with
  | none => simp [Ownership.creatorCanonical, hm]
  | some m =>
    cases ho : w.db.organizations.get principal.organizationId with
    | none => simp [Ownership.creatorCanonical, hm, ho]
    | some o =>
      dsimp only
      split_ifs with hc <;> simp [hc]

/-- A grant that raises writes nothing. -/
lemma grantCreatedScope_of_not_canonical
    (h : Ownership.creatorCanonical w.db principal = false) :
    Ownership.grantCreatedScope principal customerId projectId w =
      (.error (Ownership.rejected "creator membership is not canonical and active"), w) := by
  unfold Ownership.grantCreatedScope
  split
  · simp [h]
  · rfl

/-- A grant keeps the creator's membership canonical, or not. -/
lemma grantCreatedScope_creatorCanonical :
    Ownership.creatorCanonical
      (Ownership.grantCreatedScope principal customerId projectId w).2.db principal =
        Ownership.creatorCanonical w.db principal := by
  unfold Ownership.grantCreatedScope
  split
  · rename_i m o hm ho
    split_ifs
    · simp only [Ownership.creatorCanonical, Table.get_set_self, hm, ho]
      rfl
    · rfl
    · rfl
  · rfl

end Grant

/-- Application of an authorization keeps the creator's membership canonical, or not. -/
lemma applied_creatorCanonical (principal : Principal) (record : SyncRecord) (w : Working)
    (grant : Authorized) :
    Ownership.creatorCanonical (grant.apply principal record w).2.db principal =
      Ownership.creatorCanonical w.db principal := by
  have h := apply_application principal record w grant
  generalize grant.apply principal record w = applied at h ⊢
  cases h with
  | raised e => rfl
  | written c => rfl
  | customer plan hgrant htype hnew => exact grantCreatedScope_creatorCanonical
  | project plan customerId hgrant htype hnew => exact grantCreatedScope_creatorCanonical

section Steps

variable {env : Env} {s : RecordStep}

/-- The plan of a new customer. -/
def newCustomerPlan (id : Str) (deletedAt : Option DateTime) : Ownership.OwnershipPlan :=
  { entityType := .customer, entityId := id, isCreate := true, deletedAt, customerId := some id }

/-- The plan of a new project. -/
def newProjectPlan (id customerId : Str) (deletedAt : Option DateTime) : Ownership.OwnershipPlan :=
  { entityType := .project, entityId := id, isCreate := true, deletedAt,
    customerId := some customerId, projectId := some id }

/-- The checks on a new customer. -/
lemma authorizeCustomer_new {db : Db} {principal : Principal} (scope : EffectiveScope) {id : Str}
    {payload : Dict} {deletedAt : Option DateTime} {known : Bool} {plan : Ownership.OwnershipPlan}
    (hnew : db.customers.get (principal.organizationId, id) = none) :
    Ownership.authorizeCustomer db principal scope id payload deletedAt known = .ok plan ↔
      known = false ∧ deletedAt = none ∧ principal.holds .customerCreate = true ∧
      Ownership.requireIdentity payload id false = .ok () ∧ plan = newCustomerPlan id deletedAt := by
  simp only [Ownership.authorizeCustomer, hnew, Ownership.requireCapability, bind_eq_ok,
    raiseIf_eq_ok, pure_eq_ok, Bool.not_eq_false', exists_const, Option.isSome_eq_false_iff,
    Option.isNone_iff_eq_none]
  constructor
  · rintro ⟨hknown, hupsert, hcapability, ⟨⟩, hidentity, rfl⟩
    exact ⟨hknown, hupsert, hcapability, hidentity, rfl⟩
  · rintro ⟨hknown, hupsert, hcapability, hidentity, rfl⟩
    exact ⟨hknown, hupsert, hcapability, (), hidentity, rfl⟩

/-- The checks on a new project. -/
lemma authorizeProject_new {db : Db} {principal : Principal} (scope : EffectiveScope) {id : Str}
    {payload : Dict} {deletedAt : Option DateTime} {known : Bool} {plan : Ownership.OwnershipPlan}
    (hnew : db.projects.get (principal.organizationId, id) = none) :
    Ownership.authorizeProject db principal scope id payload deletedAt known = .ok plan ↔
      known = false ∧ deletedAt = none ∧ principal.holds .projectCreate = true ∧
      Ownership.requireIdentity payload id false = .ok () ∧
      ∃ customerId, Ownership.value payload "customerID" = .ok customerId ∧
        db.canonical.ActiveCustomer principal.organizationId customerId ∧
        scope.canAccessCustomer customerId = true ∧
        plan = newProjectPlan id customerId deletedAt := by
  simp only [Ownership.authorizeProject, hnew, Ownership.requireCapability, bind_eq_ok,
    raiseIf_eq_ok, pure_eq_ok, Bool.not_eq_false', exists_const, Option.isSome_eq_false_iff,
    Option.isNone_iff_eq_none, Option.any_eq_true, Canonical.ActiveCustomer, Db.canonical]
  constructor
  · rintro ⟨hknown, hupsert, hcapability, ⟨⟩, hidentity, customerId, hvalue, hactive, hscope, rfl⟩
    exact ⟨hknown, hupsert, hcapability, hidentity, customerId, hvalue, hactive, hscope, rfl⟩
  · rintro ⟨hknown, hupsert, hcapability, hidentity, customerId, hvalue, hactive, hscope, rfl⟩
    exact ⟨hknown, hupsert, hcapability, (), hidentity, customerId, hvalue, hactive, hscope, rfl⟩

/-- A record whose application raised after a write creates an owner, and the creator's membership
is not canonical. -/
lemma createsOwner_of_apply_error {payload : Payload} {grant : Authorized} {e : Exc} {w' : Working}
    (hunanswered : s.Unanswered) (hfresh : staleRevision s.record s.current = false)
    (hdecoded : decodePayload env s.record.payload = .ok payload)
    (hauth : authorize env s.input.principal s.before s.record s.current payload.items = .ok grant)
    (happly : grant.apply s.input.principal s.record s.before = (.error e, w')) :
    w' = s.before ∨ (s.CreatesOwner env payload ∧
      Ownership.creatorCanonical s.before.db s.input.principal = false) := by
  have hraised : ∀ (customerId projectId : Option Str) (w : Working),
      Ownership.grantCreatedScope s.input.principal customerId projectId w = (.error e, w') →
      Ownership.creatorCanonical w.db s.input.principal =
        Ownership.creatorCanonical s.before.db s.input.principal →
      Ownership.creatorCanonical s.before.db s.input.principal = false := by
    intro customerId projectId w hgrant hsame
    rw [← hsame, ← Bool.not_eq_true, ← grantCreatedScope_eq_ok_iff, hgrant]
    simp
  have happlication := apply_application s.input.principal s.record s.before grant
  generalize hr : grant.apply s.input.principal s.record s.before = r at happlication
  rw [happly] at hr
  cases happlication with
  | raised e' => exact Or.inl (Prod.mk.inj hr).2
  | written c => exact absurd (Prod.mk.inj hr).1 (by simp)
  | customer plan hgrant htype hnew =>
    subst hgrant
    have hrecord := authorize_plan hauth
    obtain ⟨hplanType, hplanId⟩ := Ownership.authorizeRecord_plan hrecord
    have hcustomer : s.record.entityType = .customer := hplanType.symm.trans htype
    rw [hplanId] at hnew
    rw [hcustomer] at hrecord
    obtain ⟨hknown, hupsert, hcapability, hidentity, -⟩ := (authorizeCustomer_new _ hnew).mp hrecord
    exact Or.inr ⟨⟨hupsert, hunanswered, hfresh, by simpa using hknown, hdecoded, hidentity,
      Or.inl ⟨hcustomer, hnew, hcapability⟩⟩, hraised _ _ _ hr.symm rfl⟩
  | project plan customerId hgrant htype hnew =>
    subst hgrant
    have hrecord := authorize_plan hauth
    obtain ⟨hplanType, hplanId⟩ := Ownership.authorizeRecord_plan hrecord
    have hproject : s.record.entityType = .project := hplanType.symm.trans htype
    rw [hplanId] at hnew
    rw [hproject] at hrecord
    obtain ⟨hknown, hupsert, hcapability, hidentity, parent, hvalue, hactive, hscope, -⟩ :=
      (authorizeProject_new _ hnew).mp hrecord
    exact Or.inr ⟨⟨hupsert, hunanswered, hfresh, by simpa using hknown, hdecoded, hidentity,
      Or.inr ⟨parent, hproject, hnew, hcapability, hvalue, hactive, hscope⟩⟩,
      hraised _ _ _ hr.symm rfl⟩

/-- A rejection is atomic unless it creates an owner whose creator's membership is not canonical.

**Proof sketch.** By the ways a record is settled: only the application of an authorization writes
before it raises. -/
lemma RecordStep.Valid.atomic_or_createsOwner (h : s.Valid env)
    (hrejected : s.outcome.accepted = false) :
    s.Atomic ∨ ∃ payload, s.CreatesOwner env payload ∧
      Ownership.creatorCanonical s.before.db s.input.principal = false := by
  have hsettles := h.settles
  obtain ⟨input, before, record, after, outcome⟩ := s
  dsimp only at hsettles hrejected
  cases hsettles with
  | unnamed hm => exact Or.inl (Or.inl rfl)
  | answered hm hp => exact Or.inl (Or.inl rfl)
  | stale hm hp hs => exact Or.inl (Or.inr ⟨_, _, hm, rfl⟩)
  | refused hm hp hs ha hc =>
    rcases attempt_eq_error ha with rfl | ⟨payload, grant, hdecoded, hauth, happly⟩
    · exact Or.inl (Or.inr ⟨_, _, hm, rfl⟩)
    · rcases createsOwner_of_apply_error (s := ⟨input, before, record, _, _⟩) ⟨_, hm, hp⟩ hs
        hdecoded hauth happly with rfl | hcreates
      · exact Or.inl (Or.inr ⟨_, _, hm, rfl⟩)
      · exact Or.inr ⟨payload, hcreates⟩
  | committed hm hp hs ha => simp at hrejected

/-- An application that raised leaves its canonical writes behind. -/
lemma RecordStep.Valid.of_apply_error (h : s.Valid env) (hunanswered : s.Unanswered)
    (hfresh : staleRevision s.record s.current = false) {payload : Payload} {grant : Authorized}
    {message : Str} {w' : Working} (hdecoded : decodePayload env s.record.payload = .ok payload)
    (hauth : authorize env s.input.principal s.before s.record s.current payload.items = .ok grant)
    (happly : grant.apply s.input.principal s.record s.before =
      (.error (.authorizationRejected message), w')) :
    s.outcome.accepted = false ∧ s.after.db.canonical = w'.db.canonical := by
  obtain ⟨mutationId, hm, hp⟩ := hunanswered
  simp only [RecordStep.current, currentEntity] at hfresh hauth
  simp only [RecordStep.Valid, processRecord, hm, hp, hfresh, Bool.false_eq_true, ↓reduceIte,
    attempt, hdecoded, hauth, happly, Exc.caught, Except.ok.injEq, Prod.mk.injEq] at h
  rw [← h.1, ← h.2]
  exact ⟨rfl, rfl⟩

/-- A record that creates an owner whose creator's membership is not canonical is rejected and
leaves the owner behind. -/
lemma RecordStep.CreatesOwner.not_atomic {payload : Payload} (h : s.Valid env)
    (hcreates : s.CreatesOwner env payload)
    (hcreator : Ownership.creatorCanonical s.before.db s.input.principal = false) :
    s.outcome.accepted = false ∧ ¬ s.Atomic := by
  obtain ⟨hupsert, hunanswered, hfresh, hunknown, hdecoded, hidentity, howner⟩ := hcreates
  have hknown : s.current.isSome = false := by rw [hunknown]; rfl
  -- what is common to the two kinds of owners: the grant raises, the row is there
  have hleak : ∀ (t : EntityType) (plan : Ownership.OwnershipPlan) (w' : Working),
      s.record.entityType = t → (t = .customer ∨ t = .project) →
      Ownership.authorizeRecord env s.before.db s.input.principal s.before.scope t
        s.record.entityID.text payload.items s.record.deletedAt s.current.isSome = .ok plan →
      Ownership.applyOwnershipPlan s.input.principal plan s.before =
        (.error (Ownership.rejected "creator membership is not canonical and active"), w') →
      w'.db.canonical ≠ s.before.db.canonical → s.outcome.accepted = false ∧ ¬ s.Atomic := by
    rintro t plan w' rfl htype hplan happly hchanged
    have hauth := (authorize_owner htype).mpr ⟨plan, hplan, rfl⟩
    obtain ⟨hrejected, hcanonical⟩ := h.of_apply_error hunanswered hfresh hdecoded hauth happly
    exact ⟨hrejected, fun hatomic => hchanged (hcanonical.symm.trans hatomic.frame.1)⟩
  rcases howner with ⟨htype, hnew, hcapability⟩ |
    ⟨customerId, htype, hnew, hcapability, hvalue, hactive, hscope⟩
  · have hplan := (authorizeCustomer_new s.before.scope hnew).mpr
      ⟨hknown, hupsert, hcapability, hidentity, rfl⟩
    refine hleak .customer _ (Ownership.withCustomer s.input.principal
      (newCustomerPlan s.record.entityID.text s.record.deletedAt) s.before) htype (Or.inl rfl)
      hplan ?_ ?_
    · simp only [Ownership.applyOwnershipPlan, Ownership.applyCustomer, newCustomerPlan, hnew]
      exact grantCreatedScope_of_not_canonical hcreator
    · intro hcanonical
      exact Table.set_ne_of_get_eq_none _ hnew (congrArg Canonical.customers hcanonical)
  · have hplan := (authorizeProject_new s.before.scope hnew).mpr
      ⟨hknown, hupsert, hcapability, hidentity, customerId, hvalue, hactive, hscope, rfl⟩
    refine hleak .project _ (Ownership.withProject s.input.principal
      (newProjectPlan s.record.entityID.text customerId s.record.deletedAt) customerId s.before)
      htype (Or.inr rfl) hplan ?_ ?_
    · simp only [Ownership.applyOwnershipPlan, Ownership.applyProject, newProjectPlan, hnew]
      exact grantCreatedScope_of_not_canonical hcreator
    · intro hcanonical
      exact Table.set_ne_of_get_eq_none _ hnew (congrArg Canonical.projects hcanonical)

/-- A step keeps the creator's membership canonical, or not. -/
lemma RecordStep.Valid.creatorCanonical (h : s.Valid env) :
    Ownership.creatorCanonical s.after.db s.input.principal =
      Ownership.creatorCanonical s.before.db s.input.principal := by
  have hsettles := h.settles
  obtain ⟨input, before, record, after, outcome⟩ := s
  dsimp only at hsettles
  cases hsettles with
  | unnamed hm => rfl
  | answered hm hp => rfl
  | stale hm hp hs => rfl
  | refused hm hp hs ha hc =>
    rcases attempt_eq_error ha with rfl | ⟨payload, grant, -, -, happly⟩
    · rfl
    · have hkept := applied_creatorCanonical input.principal record before grant
      rw [happly] at hkept
      exact hkept
  | committed hm hp hs ha =>
    obtain ⟨grant, applied, hadmitted, rfl⟩ := attempt_eq_ok ha
    have hkept := applied_creatorCanonical input.principal record before grant
    rw [hadmitted.applied] at hkept
    rw [← hkept]
    change Ownership.creatorCanonical
      (queueEvidenceGc env input.now input.principal record applied).db input.principal = _
    unfold queueEvidenceGc
    split_ifs
    · split <;> rfl
    · rfl

end Steps

/-- **Atomicity of rejections.** The rejected records of a batch leave nothing behind but their
mutation rows exactly when the creator's membership is active and its own, or no record of the
batch creates a customer or a project.

**Proof sketch.** The membership stays as canonical as it was throughout the batch
(`RecordStep.Valid.creatorCanonical`); then one step at a time, by
`RecordStep.Valid.atomic_or_createsOwner` and `RecordStep.CreatesOwner.not_atomic`. -/
theorem pushSteps_atomic_iff (env : Env) (db : Db) (input : PushInput) :
    (∀ s ∈ pushSteps env db input, s.outcome.accepted = false → s.Atomic) ↔
      Ownership.creatorCanonical db input.principal = true ∨
        ∀ s ∈ pushSteps env db input, ∀ payload, ¬ s.CreatesOwner env payload := by
  have hcreator : ∀ s ∈ pushSteps env db input,
      Ownership.creatorCanonical s.before.db input.principal =
        Ownership.creatorCanonical db input.principal := by
    refine pushSteps_inv (I := fun db' => Ownership.creatorCanonical db' input.principal =
      Ownership.creatorCanonical db input.principal) rfl fun s hs hbefore => ?_
    obtain ⟨hvalid, hinput⟩ := pushSteps_valid hs
    have hkept := hvalid.creatorCanonical
    rw [hinput] at hkept
    exact hkept.trans hbefore
  constructor
  · intro hatomic
    by_cases hcanonical : Ownership.creatorCanonical db input.principal = true
    · exact Or.inl hcanonical
    · refine Or.inr fun s hs payload hcreates => ?_
      obtain ⟨hvalid, hinput⟩ := pushSteps_valid hs
      have hfalse : Ownership.creatorCanonical s.before.db s.input.principal = false := by
        rw [hinput, hcreator s hs]
        simpa using hcanonical
      obtain ⟨hrejected, hnot⟩ := hcreates.not_atomic hvalid hfalse
      exact hnot (hatomic s hs hrejected)
  · intro hcondition s hs hrejected
    obtain ⟨hvalid, hinput⟩ := pushSteps_valid hs
    rcases hvalid.atomic_or_createsOwner hrejected with hatomic | ⟨payload, hcreates, hfalse⟩
    · exact hatomic
    · rcases hcondition with hcanonical | hno
      · rw [hinput, hcreator s hs, hcanonical] at hfalse
        cases hfalse
      · exact absurd hcreates (hno s hs payload)

/-- The sample organization after the member's membership was deactivated. -/
def Sample.departed : Db :=
  { Sample.db with memberships := Table.empty.set "m" ⟨"o", "u", false, true, true, [], []⟩ }

/-- A new customer of that member is rejected, and stays in the canonical tables. -/
theorem pushSteps_not_atomic :
    ∃ s ∈ pushSteps Sample.env Sample.departed
        (Sample.input (Sample.record .customer "c" "1" none [("id", .str "c")])),
      s.outcome.accepted = false ∧ ¬ s.Atomic := by
  have hrun : ((pushSteps Sample.env Sample.departed
      (Sample.input (Sample.record .customer "c" "1" none [("id", .str "c")]))).map fun s =>
        (s.outcome.accepted, (s.before.db.customers.get (Str.ofString "o", Str.ofString "c")).isSome,
          (s.after.db.customers.get (Str.ofString "o", Str.ofString "c")).isSome)) =
      [(false, false, true)] := by
    decide +kernel
  obtain ⟨s, hsteps, hs⟩ := List.map_eq_singleton_iff.mp hrun
  simp only [Prod.mk.injEq] at hs
  refine ⟨s, by simp [hsteps], hs.1, fun hatomic => ?_⟩
  have hcustomers : s.after.db.customers = s.before.db.customers :=
    congrArg Canonical.customers hatomic.frame.1
  rw [hcustomers, hs.2.1] at hs
  simp at hs

end VitrialSync
