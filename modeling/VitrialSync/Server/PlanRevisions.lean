import VitrialSync.Server.DeliveryFreeze

set_option relaxedAutoImplicit false
set_option autoImplicit false

/-!
# Revisions of the delivery plans

Five plans of a delivery are revised during its life, each in statuses of its own. A plan changes
only in an update that stays in such a status; the update then appends one event, the plan carries
the next revision and the names of who pushed it, and no other plan changes. So the revision of a
plan counts the updates that changed it.

## Main definitions

* `VitrialSync.Delivery.Plan` — the five plans, with their keys and the statuses they are revised
  in.
* `VitrialSync.Delivery.Timely` — no plan is there before its time.
* `VitrialSync.Delivery.Revises` — what an update that changes a plan looks like.
* `VitrialSync.revisionAt`, `VitrialSync.planChanged` — the revision of a stored plan, and the
  steps that change it.

## Main results

* `VitrialSync.Delivery.validate_revises` — an accepted update that changes a plan revises it.
* `VitrialSync.runPushes_planRevisions` — revisions over runs of pushes.
-/

namespace VitrialSync

open Python Program

namespace Delivery

/-! ### The plans -/

/-- The plans that are revised. -/
inductive Plan where
  | materials
  | procurement
  | production
  | schedule
  | completion
  deriving DecidableEq

/-- The field of a plan. -/
def Plan.key : Plan → String
  | materials => "materialsPlan"
  | procurement => "procurementPlan"
  | production => "productionPlan"
  | schedule => "installationSchedule"
  | completion => "installationCompletion"

/-- The statuses in which a plan is revised. -/
def Plan.openIn : Plan → DeliveryStatus → Prop
  | materials, status => status = .materialsRequired
  | procurement, status => status = .procurement
  | production, status => status = .production
  | schedule, status => status = .readyForInstallation ∨ status = .scheduled
  | completion, status => status = .scheduled

/-- The status from which on a plan may be there. -/
def Plan.opens : Plan → DeliveryStatus
  | materials => .materialsRequired
  | procurement => .procurement
  | production => .production
  | schedule => .readyForInstallation
  | completion => .scheduled

/-- A delivery has no plan before its time, and every plan has a revision. -/
structure Timely (payload : Dict) (status : DeliveryStatus) : Prop
    extends Chain payload status where
  absent : ∀ plan : Plan, status.rank < plan.opens.rank → payload.get plan.key = .none
  shaped : ∀ plan : Plan, payload.get plan.key = .none ∨
    ∃ (d : Dict) (n : ℤ), payload.get plan.key = .dict d ∧ d.get "revision" = .int n

/-- The revision of a plan, zero when there is none. -/
def revisionOf (payload : Dict) (plan : Plan) : ℤ :=
  match planAt payload plan.key with
  | some d => planRevision d
  | none => 0

/-- A plan differs between two payloads, as Python compares. -/
def Changes (stored payload : Dict) (plan : Plan) : Prop :=
  (stored.get plan.key).ne (payload.get plan.key) = true

/-- The revision that a changed plan carries: one more than the stored one, or one. -/
def NextRevision (d : Dict) (current : Value) : Prop :=
  (current = .none ∧ d.get "revision" = .int 1) ∨
    ∃ (old : Dict) (n : ℤ), current = .dict old ∧ old.get "revision" = .int n ∧
      d.get "revision" = .int (n + 1)

/-- An update that changes a plan: the plan is the next revision, as recent as the delivery and in
the name of the principal; one event is appended, in the name of the principal; and no other plan
changes. -/
structure Revises (stored payload : Dict) (principal : Principal) (plan : Plan) : Prop where
  revision : ∃ d : Dict, payload.get plan.key = .dict d ∧ NextRevision d (stored.get plan.key) ∧
    Value.same (d.get "updatedAt") (payload.get "updatedAt") = true ∧ NamesPrincipal d principal
  event : ∃ newest, (chainOf payload).drop (chainOf stored).length = [newest] ∧
    NamesPrincipal newest principal
  others : ∀ other, other ≠ plan → ¬ Changes stored payload other

/-! ### Before their time -/

section Absent

variable {payload : Dict} {currentPayload : Option Dict} {principal : Principal}
  {status : DeliveryStatus}

/-- No materials during engineering review. -/
lemma validateMaterialsHandoff_absent
    (h : validateMaterialsHandoff payload currentPayload principal status = .ok ())
    (hrank : status.rank < DeliveryStatus.materialsRequired.rank) :
    payload.get "materialsPlan" = .none := by
  have hstatus : status = .engineeringReview := by
    revert hrank
    cases status <;> decide
  subst hstatus
  simp only [validateMaterialsHandoff, bind_eq_ok, raiseIf_eq_ok, exists_const, beq_self_eq_true,
    Bool.true_and, Option.isSome_eq_false_iff, Option.isNone_iff_eq_none] at h
  obtain ⟨plan, hplan, rfl, -⟩ := h
  exact (validateMaterialsPlan_spec hplan).1

/-- No procurement before its status. -/
lemma validateProcurementHandoff_absent
    (h : validateProcurementHandoff payload currentPayload principal status = .ok ())
    (hrank : status.rank < DeliveryStatus.procurement.rank) :
    payload.get "procurementPlan" = .none := by
  have hstatus : beforeProcurement status = true := by
    revert hrank
    cases status <;> decide
  simp only [validateProcurementHandoff, bind_eq_ok, raiseIf_eq_ok, exists_const, hstatus,
    Bool.true_and, Option.isSome_eq_false_iff, Option.isNone_iff_eq_none] at h
  obtain ⟨_, _, plan, hplan, rfl, _⟩ := h
  exact (validateProcurementPlan_spec hplan).1

/-- No production before its status. -/
lemma Production.validateProductionHandoff_absent
    (h : Production.validateProductionHandoff payload currentPayload principal status = .ok ())
    (hrank : status.rank < DeliveryStatus.production.rank) :
    payload.get "productionPlan" = .none := by
  have hstatus : Production.early status = true := by
    revert hrank
    cases status <;> decide
  simp only [Production.validateProductionHandoff, bind_eq_ok, raiseIf_eq_ok, exists_const, hstatus,
    Bool.true_and, Option.isSome_eq_false_iff, Option.isNone_iff_eq_none] at h
  obtain ⟨plan, hplan, rfl, -⟩ := h
  exact (Production.validatePlan_spec hplan).1

/-- No schedule and no completion before their statuses. -/
lemma Installation.requireStatusRecords_absent {r : Records}
    (h : requireStatusRecords status r = .ok ()) :
    (status.rank < DeliveryStatus.readyForInstallation.rank → r.schedule = none) ∧
      (status.rank < DeliveryStatus.scheduled.rank → r.completion = none) := by
  simp only [requireStatusRecords, bind_eq_ok, raiseIf_eq_ok, exists_const] at h
  obtain ⟨hschedule, -, hcompletion, -⟩ := h
  constructor
  · intro hrank
    have hstatus : beforeInstallation status = true := by
      revert hrank
      cases status <;> decide
    rw [hstatus, Bool.true_and, Option.isSome_eq_false_iff, Option.isNone_iff_eq_none] at hschedule
    exact hschedule
  · intro hrank
    have hstatus : (beforeInstallation status || status == .readyForInstallation) = true := by
      revert hrank
      cases status <;> decide
    rw [hstatus, Bool.true_and, Option.isSome_eq_false_iff,
      Option.isNone_iff_eq_none] at hcompletion
    exact hcompletion

/-- A validated plan is absent or has a revision. -/
lemma shaped_of_spec {key : Str} {plan : Option Dict} (hget : payload.get key = planValue plan)
    (hspec : ∀ d, plan = some d → ∃ n : ℤ, Dict.get d "revision" = .int n) :
    payload.get key = .none ∨
      ∃ (d : Dict) (n : ℤ), payload.get key = .dict d ∧ d.get "revision" = .int n := by
  cases plan with
  | none => exact Or.inl hget
  | some d =>
    obtain ⟨n, hn⟩ := hspec d rfl
    exact Or.inr ⟨d, n, hget, hn⟩

/-- What the validator accepts has no plan before its time. -/
lemma validateDeliveryExecutionPayload_timely {id : Str}
    (h : validateDeliveryExecutionPayload payload currentPayload principal id = .ok ()) :
    ∃ status, Timely payload status := by
  obtain ⟨status, hchain, -⟩ := validateDeliveryExecutionPayload_spec h
  obtain ⟨h₁, h₂, h₃, h₄⟩ := validateDeliveryExecutionPayload_handoffs h hchain
  obtain ⟨materials, hgetM, hspecM, -⟩ := validateMaterialsHandoff_spec h₁
  obtain ⟨_, procurement, _, hgetP, hspecP, -⟩ := validateProcurementHandoff_spec h₂
  obtain ⟨production, hgetW, hspecW, -⟩ := Production.validateProductionHandoff_spec h₃
  obtain ⟨r, hof, hlinked, hrecords, -⟩ := Installation.validateInstallationHandoff_spec h₄
  obtain ⟨hschedule, hcompletion⟩ := Installation.requireStatusRecords_absent hrecords
  refine ⟨status, hchain, fun plan hrank => ?_, fun plan => ?_⟩
  · cases plan with
    | materials => exact validateMaterialsHandoff_absent h₁ hrank
    | procurement => exact validateProcurementHandoff_absent h₂ hrank
    | production => exact Production.validateProductionHandoff_absent h₃ hrank
    | schedule =>
      rw [Plan.key, hof.schedule, hschedule hrank]
      rfl
    | completion =>
      rw [Plan.key, hof.completion, hcompletion hrank]
      rfl
  · cases plan with
    | materials => exact shaped_of_spec hgetM fun d hd => (hspecM d hd).revision
    | procurement => exact shaped_of_spec hgetP fun d hd => (hspecP d hd).1
    | production => exact shaped_of_spec hgetW fun d hd => (hspecW d hd).1
    | schedule => exact shaped_of_spec hof.schedule fun d hd => (hlinked.schedule d hd).1
    | completion => exact shaped_of_spec hof.completion fun d hd => (hlinked.completion d hd).2.1

end Absent

/-! ### One update -/

section Update

variable {payload stored : Dict} {principal : Principal} {status status' : DeliveryStatus}
  {plan current : Option Dict}

/-- The checks on a changed plan: it is there, it has the next revision, it is as recent as the
payload and names the principal. -/
def Accepts (payload : Dict) (principal : Principal) (plan current : Option Dict) : Prop :=
  ∃ d : Dict, plan = some d ∧ planRevision d = (current.map fun c => planRevision c + 1).getD 1 ∧
    (d.get "updatedAt").ne (payload.get "updatedAt") = false ∧ NamesPrincipal d principal

/-- What the check of the revision establishes. -/
lemma requireNextRevision_spec {raise : Str → Exc} {revisionText updatedText : String} {d : Dict}
    (h : requireNextRevision raise revisionText updatedText d current payload = .ok ()) :
    planRevision d = (current.map fun c => planRevision c + 1).getD 1 ∧
      (d.get "updatedAt").ne (payload.get "updatedAt") = false := by
  simp only [requireNextRevision, bind_eq_ok, raiseIf_eq_ok, exists_const,
    bne_eq_false_iff_eq] at h
  obtain ⟨hrevision, hupdated⟩ := h
  refine ⟨hrevision.trans ?_, hupdated⟩
  cases current <;> rfl

/-- Two absent plans do not differ. -/
lemma not_changed_of_absent (hplan : plan.isSome = false) (hcurrent : current = none)
    (hchanged : (planValue plan).ne (planValue current) = true) : False := by
  rw [Option.isSome_eq_false_iff, Option.isNone_iff_eq_none] at hplan
  rw [hplan, hcurrent] at hchanged
  cases hchanged

/-- The materials change in their own status, and then the change was checked. -/
lemma requireMaterialsHandoff_changed
    (h : requireMaterialsHandoff payload principal status' plan current (some status) = .ok ())
    (habsent : status.rank < DeliveryStatus.materialsRequired.rank → current = none)
    (hmove : status' = status ∨ status.next = some status')
    (hchanged : (planValue plan).ne (planValue current) = true) :
    status = .materialsRequired ∧ status' = status ∧ Accepts payload principal plan current := by
  cases status with
  | engineeringReview =>
    simp only [requireMaterialsHandoff, Option.any_some, materialsFrozen, Bool.false_eq_true,
      ↓reduceIte, raiseIf_eq_ok] at h
    exact (not_changed_of_absent h (habsent (by decide)) hchanged).elim
  | materialsRequired =>
    simp only [requireMaterialsHandoff, Option.any_some, materialsFrozen, Bool.false_eq_true,
      ↓reduceIte, Option.some.injEq, reduceCtorEq, ne_eq, not_true_eq_false, hchanged] at h
    rcases hmove with rfl | hnext
    · simp only [reduceCtorEq, ↓reduceIte, not_true_eq_false, or_self] at h
      cases plan with
      | none => cases h
      | some d =>
        simp only [bind_eq_ok] at h
        obtain ⟨⟨⟩, hnext, hprovenance⟩ := h
        obtain ⟨hrevision, hupdated⟩ := requireNextRevision_spec hnext
        exact ⟨rfl, rfl, d, rfl, hrevision, hupdated, requireProvenance_current hprovenance⟩
    · obtain rfl := Option.some.inj hnext
      simp only [↓reduceIte, bind_eq_ok, raiseIf_eq_ok, exists_const, reduceCtorEq, and_false] at h
  | _ =>
    simp only [requireMaterialsHandoff, Option.any_some, materialsFrozen, ↓reduceIte, raiseIf_eq_ok,
      hchanged, reduceCtorEq] at h

/-- The procurement changes in its own status, and then the change was checked. -/
lemma requireProcurementHandoff_changed
    (h : requireProcurementHandoff payload principal status' plan current (some status) = .ok ())
    (habsent : status.rank < DeliveryStatus.procurement.rank → current = none)
    (hmove : status' = status ∨ status.next = some status')
    (hchanged : (planValue plan).ne (planValue current) = true) :
    status = .procurement ∧ status' = status ∧ Accepts payload principal plan current := by
  cases status with
  | engineeringReview | materialsRequired =>
    simp only [requireProcurementHandoff, Option.any_some, procurementFrozen, beforeProcurement,
      Bool.false_eq_true, ↓reduceIte, raiseIf_eq_ok] at h
    exact (not_changed_of_absent h (habsent (by decide)) hchanged).elim
  | procurement =>
    simp only [requireProcurementHandoff, Option.any_some, procurementFrozen, beforeProcurement,
      Bool.false_eq_true, ↓reduceIte, ne_eq, not_true_eq_false, hchanged] at h
    rcases hmove with rfl | hnext
    · simp only [reduceCtorEq, ↓reduceIte, not_true_eq_false, or_self] at h
      cases plan with
      | none => cases h
      | some d =>
        simp only [bind_eq_ok] at h
        obtain ⟨⟨⟩, hnext, hprovenance⟩ := h
        obtain ⟨hrevision, hupdated⟩ := requireNextRevision_spec hnext
        exact ⟨rfl, rfl, d, rfl, hrevision, hupdated, requireProvenance_current hprovenance⟩
    · obtain rfl := Option.some.inj hnext
      simp only [↓reduceIte, bind_eq_ok, raiseIf_eq_ok, exists_const, reduceCtorEq, false_and,
        and_false] at h
  | _ =>
    simp only [requireProcurementHandoff, Option.any_some, procurementFrozen, ↓reduceIte,
      raiseIf_eq_ok, hchanged, reduceCtorEq] at h

/-- The production changes in its own status, and then the change was checked. -/
lemma Production.requireHandoff_changed
    (h : Production.requireHandoff payload principal status' plan current (some status) = .ok ())
    (habsent : status.rank < DeliveryStatus.production.rank → current = none)
    (hmove : status' = status ∨ status.next = some status')
    (hchanged : (planValue plan).ne (planValue current) = true) :
    status = .production ∧ status' = status ∧ Accepts payload principal plan current := by
  cases status with
  | engineeringReview | materialsRequired | procurement =>
    simp only [Production.requireHandoff, Option.any_some, Production.frozen, Production.early,
      Bool.false_eq_true, ↓reduceIte, raiseIf_eq_ok] at h
    exact (not_changed_of_absent h (habsent (by decide)) hchanged).elim
  | production =>
    simp only [Production.requireHandoff, Option.any_some, Production.frozen, Production.early,
      Bool.false_eq_true, ↓reduceIte, ne_eq, not_true_eq_false, hchanged] at h
    rcases hmove with rfl | hnext
    · simp only [reduceCtorEq, ↓reduceIte, not_true_eq_false, or_self] at h
      cases plan with
      | none => cases h
      | some d =>
        simp only [bind_eq_ok] at h
        obtain ⟨⟨⟩, hnext, hprovenance⟩ := h
        obtain ⟨hrevision, hupdated⟩ := requireNextRevision_spec hnext
        exact ⟨rfl, rfl, d, rfl, hrevision, hupdated, requireProvenance_current hprovenance⟩
    · obtain rfl := Option.some.inj hnext
      simp only [↓reduceIte, bind_eq_ok, raiseIf_eq_ok, exists_const, reduceCtorEq, false_and,
        and_false] at h
  | _ =>
    simp only [Production.requireHandoff, Option.any_some, Production.frozen, ↓reduceIte,
      raiseIf_eq_ok, hchanged, reduceCtorEq] at h

namespace Installation

variable {r kept : Records}

/-- What the check of a changed schedule establishes. -/
lemma requireScheduleRevision_spec
    (h : requireScheduleRevision payload principal plan current = .ok ()) :
    Accepts payload principal plan current := by
  cases plan with
  | none => cases h
  | some d =>
    simp only [requireScheduleRevision, bind_eq_ok] at h
    obtain ⟨⟨⟩, hnext, ⟨⟩, -, hprovenance⟩ := h
    obtain ⟨hrevision, hupdated⟩ := requireNextRevision_spec hnext
    exact ⟨d, rfl, hrevision, hupdated, requireProvenance_current hprovenance⟩

/-- The schedule changes in its own statuses, the completion does not change with it, and the change
was checked. -/
lemma requireHandoff_scheduleChanged
    (h : requireHandoff payload principal status' r kept (some status) = .ok ())
    (habsent : status.rank < DeliveryStatus.readyForInstallation.rank → kept.schedule = none)
    (habsent' : status.rank < DeliveryStatus.scheduled.rank → kept.completion = none)
    (hmove : status' = status ∨ status.next = some status')
    (hchanged : recordChanged r.schedule kept.schedule = true) :
    (status = .readyForInstallation ∨ status = .scheduled) ∧ status' = status ∧
      recordChanged r.completion kept.completion = false ∧
      Accepts payload principal r.schedule kept.schedule := by
  cases status with
  | engineeringReview | materialsRequired | procurement | production =>
    simp only [requireHandoff, bind_eq_ok, raiseIf_eq_ok, exists_const] at h
    exact (not_changed_of_absent h.1 (habsent (by decide)) hchanged).elim
  | readyForInstallation =>
    simp only [requireHandoff, handoffFromReady, bind_eq_ok, raiseIf_eq_ok, exists_const] at h
    obtain ⟨hcompletion, h⟩ := h
    rw [Option.isSome_eq_false_iff, Option.isNone_iff_eq_none] at hcompletion
    rcases hmove with rfl | hnext
    · simp only [reduceCtorEq, ↓reduceIte, ne_eq, not_true_eq_false, hchanged, or_self] at h
      refine ⟨Or.inl rfl, rfl, ?_, requireScheduleRevision_spec h⟩
      rw [hcompletion, habsent' (by decide)]
      rfl
    · obtain rfl := Option.some.inj hnext
      simp only [↓reduceIte, bind_eq_ok, raiseIf_eq_ok, exists_const, hchanged, reduceCtorEq,
        and_false] at h
  | scheduled =>
    simp only [requireHandoff, handoffFromScheduled] at h
    rcases hmove with rfl | hnext
    · simp only [reduceCtorEq, ↓reduceIte, ne_eq, not_true_eq_false, hchanged, Bool.true_and,
        bind_eq_ok, raiseIf_eq_ok, exists_const] at h
      obtain ⟨hcompletion, -, h⟩ := h
      exact ⟨Or.inr rfl, rfl, hcompletion, requireScheduleRevision_spec h⟩
    · obtain rfl := Option.some.inj hnext
      simp only [↓reduceIte, bind_eq_ok, raiseIf_eq_ok, exists_const, hchanged, reduceCtorEq,
        false_and, and_false] at h
  | installed | complete =>
    have hfrozen := ((requireHandoff_frozen h).1 (by decide)).1
    rw [hchanged] at hfrozen
    cases hfrozen

/-- The completion changes while the delivery is scheduled, the schedule does not change with it,
and the change was checked. -/
lemma requireHandoff_completionChanged
    (h : requireHandoff payload principal status' r kept (some status) = .ok ())
    (habsent : status.rank < DeliveryStatus.scheduled.rank → kept.completion = none)
    (hmove : status' = status ∨ status.next = some status')
    (hchanged : recordChanged r.completion kept.completion = true) :
    status = .scheduled ∧ status' = status ∧ recordChanged r.schedule kept.schedule = false ∧
      Accepts payload principal r.completion kept.completion := by
  cases status with
  | engineeringReview | materialsRequired | procurement | production =>
    simp only [requireHandoff, bind_eq_ok, raiseIf_eq_ok, exists_const] at h
    exact (not_changed_of_absent h.2 (habsent (by decide)) hchanged).elim
  | readyForInstallation =>
    simp only [requireHandoff, handoffFromReady, bind_eq_ok, raiseIf_eq_ok, exists_const] at h
    exact (not_changed_of_absent h.1 (habsent (by decide)) hchanged).elim
  | scheduled =>
    simp only [requireHandoff, handoffFromScheduled] at h
    rcases hmove with rfl | hnext
    · simp only [reduceCtorEq, ↓reduceIte, ne_eq, not_true_eq_false, hchanged, Bool.and_true,
        bind_eq_ok, raiseIf_eq_ok, exists_const] at h
      obtain ⟨hschedule, h⟩ := h
      rw [hschedule] at h
      cases hr : r.completion with
      | none =>
        rw [hr] at h
        cases h
      | some d =>
        simp only [hr, Bool.false_eq_true, ↓reduceIte, bind_eq_ok] at h
        obtain ⟨⟨⟩, hnext, hprovenance⟩ := h
        obtain ⟨hrevision, hupdated⟩ := requireNextRevision_spec hnext
        exact ⟨rfl, rfl, hschedule, d, rfl, hrevision, hupdated,
          requireProvenance_current hprovenance⟩
    · obtain rfl := Option.some.inj hnext
      simp only [↓reduceIte, bind_eq_ok, raiseIf_eq_ok, exists_const, hchanged, reduceCtorEq,
        and_false] at h
  | installed | complete =>
    have hfrozen := ((requireHandoff_frozen h).1 (by decide)).2
    rw [hchanged] at hfrozen
    cases hfrozen

end Installation

/-- The change of a plan, as the handoffs see it. -/
lemma changed_of_changes {key : Str} (hw : Value.WellFormed (.dict payload))
    (hw' : Value.WellFormed (.dict stored)) (hget : payload.get key = planValue plan)
    (hget' : stored.get key = planValue current)
    (h : (stored.get key).ne (payload.get key) = true) :
    (planValue plan).ne (planValue current) = true := by
  by_contra hsame
  have hunchanged := unchanged_of_plans hw hw' hget hget' (Bool.eq_false_iff.mpr hsame)
  have heq : (stored.get key).eq (payload.get key) =
      Value.same (stored.get key) (payload.get key) := by
    rw [hget']
    cases current <;> rfl
  rw [Value.ne, heq, hunchanged] at h
  cases h

/-- The plan that a handoff compares is absent where the stored one is. -/
lemma current_eq_none {key : Str} (hget : stored.get key = planValue current)
    (habsent : stored.get key = .none) : current = none := by
  rw [habsent] at hget
  cases current with
  | none => rfl
  | some d => cases hget

/-- An accepted update that changes a plan stays in a status of the plan, and the change was
checked; schedule and completion do not change together. -/
lemma validate_changed {id : Str} (hw : Value.WellFormed (.dict payload))
    (hw' : Value.WellFormed (.dict stored))
    (h : validateDeliveryExecutionPayload payload (some stored) principal id = .ok ())
    (hstored : Timely stored status) (hchain : Chain payload status')
    (hmove : status' = status ∨ status.next = some status') {p : Plan}
    (hchanges : Changes stored payload p) :
    p.openIn status ∧ (∃ plan current, payload.get p.key = planValue plan ∧
      stored.get p.key = planValue current ∧ Accepts payload principal plan current) ∧
      (p = .schedule → ¬ Changes stored payload .completion) := by
  obtain ⟨h₁, h₂, h₃, h₄⟩ := validateDeliveryExecutionPayload_handoffs h hchain
  cases p with
  | materials =>
    obtain ⟨plan, hget, -, -, hcompare⟩ := validateMaterialsHandoff_spec h₁
    obtain ⟨current, s, hget', hs, hhandoff⟩ := hcompare stored rfl
    obtain rfl := Except.ok.inj (hstored.hashedName.symm.trans hs)
    obtain ⟨hopen, -, haccepts⟩ := requireMaterialsHandoff_changed hhandoff
      (fun hrank => current_eq_none hget' (hstored.absent .materials hrank)) hmove
      (changed_of_changes hw hw' hget hget' hchanges)
    exact ⟨hopen, ⟨plan, current, hget, hget', haccepts⟩, Plan.noConfusion⟩
  | procurement =>
    obtain ⟨-, plan, -, hget, -, -, hcompare⟩ := validateProcurementHandoff_spec h₂
    obtain ⟨current, s, hget', hs, hhandoff⟩ := hcompare stored rfl
    obtain rfl := Except.ok.inj (hstored.hashedName.symm.trans hs)
    obtain ⟨hopen, -, haccepts⟩ := requireProcurementHandoff_changed hhandoff
      (fun hrank => current_eq_none hget' (hstored.absent .procurement hrank)) hmove
      (changed_of_changes hw hw' hget hget' hchanges)
    exact ⟨hopen, ⟨plan, current, hget, hget', haccepts⟩, Plan.noConfusion⟩
  | production =>
    obtain ⟨plan, hget, -, -, hcompare⟩ := Production.validateProductionHandoff_spec h₃
    obtain ⟨current, s, hget', hs, hhandoff⟩ := hcompare stored rfl
    obtain rfl := Except.ok.inj (hstored.hashedName.symm.trans hs)
    obtain ⟨hopen, -, haccepts⟩ := Production.requireHandoff_changed hhandoff
      (fun hrank => current_eq_none hget' (hstored.absent .production hrank)) hmove
      (changed_of_changes hw hw' hget hget' hchanges)
    exact ⟨hopen, ⟨plan, current, hget, hget', haccepts⟩, Plan.noConfusion⟩
  | schedule =>
    obtain ⟨r, hof, -, -, hcompare⟩ := Installation.validateInstallationHandoff_spec h₄
    obtain ⟨-, kept, s, hof', hs, hhandoff⟩ := hcompare stored rfl
    obtain rfl := Except.ok.inj (hstored.hashedName.symm.trans hs)
    obtain ⟨hopen, -, hcompletion, haccepts⟩ := Installation.requireHandoff_scheduleChanged hhandoff
      (fun hrank => current_eq_none hof'.schedule (hstored.absent .schedule hrank))
      (fun hrank => current_eq_none hof'.completion (hstored.absent .completion hrank)) hmove
      (changed_of_changes hw hw' hof.schedule hof'.schedule hchanges)
    refine ⟨hopen, ⟨r.schedule, kept.schedule, hof.schedule, hof'.schedule, haccepts⟩, ?_⟩
    intro _ hboth
    exact Bool.false_ne_true (hcompletion.symm.trans
      (changed_of_changes hw hw' hof.completion hof'.completion hboth))
  | completion =>
    obtain ⟨r, hof, -, -, hcompare⟩ := Installation.validateInstallationHandoff_spec h₄
    obtain ⟨-, kept, s, hof', hs, hhandoff⟩ := hcompare stored rfl
    obtain rfl := Except.ok.inj (hstored.hashedName.symm.trans hs)
    obtain ⟨hopen, -, -, haccepts⟩ := Installation.requireHandoff_completionChanged hhandoff
      (fun hrank => current_eq_none hof'.completion (hstored.absent .completion hrank)) hmove
      (changed_of_changes hw hw' hof.completion hof'.completion hchanges)
    exact ⟨hopen, ⟨r.completion, kept.completion, hof.completion, hof'.completion, haccepts⟩,
      Plan.noConfusion⟩

/-- Two plans that are open in one status are the schedule and the completion. -/
lemma Plan.openIn_both {p q : Plan} (hp : p.openIn status) (hq : q.openIn status) (hne : p ≠ q) :
    (p = .schedule ∧ q = .completion) ∨ (p = .completion ∧ q = .schedule) := by
  cases p <;> cases q <;> simp_all [Plan.openIn]

/-- The revision that the check accepted, as the field of the plan. -/
lemma Accepts.nextRevision {key : Str} {d : Dict} (h : Accepts payload principal (some d) current)
    (hget : stored.get key = planValue current)
    (hrevision : ∃ n : ℤ, d.get "revision" = .int n)
    (hcurrent : stored.get key = .none ∨
      ∃ (d : Dict) (n : ℤ), stored.get key = .dict d ∧ d.get "revision" = .int n) :
    NextRevision d (stored.get key) := by
  obtain ⟨d', hd', hnext, -⟩ := h
  obtain rfl := Option.some.inj hd'
  obtain ⟨n, hn⟩ := hrevision
  rw [planRevision, hn] at hnext
  rcases hcurrent with hnone | ⟨old, m, hold, hm⟩
  · obtain rfl := current_eq_none hget hnone
    exact Or.inl ⟨hnone, hn.trans (congrArg Value.int hnext)⟩
  · rw [hold] at hget
    cases current with
    | none => cases hget
    | some c =>
      obtain rfl := Value.dict.inj hget
      rw [Option.map_some, planRevision, hm] at hnext
      exact Or.inr ⟨old, m, hold, hm, hn.trans (congrArg Value.int hnext)⟩

/-- The event that an update appends names the principal. -/
lemma requireExtendedHistory_newest {history : List Dict} {newest : Dict}
    (h : requireExtendedHistory payload stored principal history = .ok ())
    (hdrop : history.drop (chainOf stored).length = [newest]) :
    NamesPrincipal newest principal := by
  unfold requireExtendedHistory at h
  split at h
  · cases h
  · rename_i current hcurrent
    have hchain : chainOf stored = current := by rw [chainOf, hcurrent]; rfl
    rw [← hchain] at h
    simp only [bind_eq_ok, raiseIf_eq_ok, exists_const, hdrop, requireAppendedEvent] at h
    obtain ⟨-, -, -, -, -, -, -, -, -, -, -, -, hprovenance⟩ := h
    exact requireProvenance_current hprovenance

/-- **Updates.** An accepted update that changes a plan of a delivery revises it.

**Proof sketch.** A plan changes only in an update that stays in a status of the plan; there its
handoff checks revision, time and names. Statuses of different plans are different, but for the
schedule and the completion, which their handoff keeps from changing together. -/
theorem validate_revises {id : Str} (hw : Value.WellFormed (.dict payload))
    (hw' : Value.WellFormed (.dict stored))
    (h : validateDeliveryExecutionPayload payload (some stored) principal id = .ok ())
    (hstored : Timely stored status) {p : Plan} (hchanges : Changes stored payload p) :
    Revises stored payload principal p := by
  obtain ⟨hadvances, -⟩ := validate_advances hw h hstored.toChain
  cases hadvances with
  | unchanged hlength hprotected =>
    have hkept := hprotected p.key (by cases p <;> decide)
    exact absurd hchanges (by rw [Changes, hkept]; exact Bool.false_ne_true)
  | appended newest s s' hdrop hspelled hfrom hto hmove hspelled' =>
    obtain ⟨status', htimely⟩ := validateDeliveryExecutionPayload_timely h
    obtain rfl := DeliveryStatus.name_injective (hstored.spelled.symm.trans hspelled)
    obtain rfl := DeliveryStatus.name_injective (htimely.spelled.symm.trans hspelled')
    have hchanged := fun {q : Plan} (hq : Changes stored payload q) =>
      validate_changed hw hw' h hstored htimely.toChain hmove hq
    obtain ⟨hopen, ⟨plan, current, hget, hget', haccepts⟩, hexclusive⟩ := hchanged hchanges
    refine ⟨?_, ⟨newest, hdrop, ?_⟩, ?_⟩
    · have hchecked := haccepts
      obtain ⟨d, rfl, -, hupdated, hnames⟩ := hchecked
      refine ⟨d, hget, ?_, ?_, hnames⟩
      · refine haccepts.nextRevision hget' ?_ (hstored.shaped p)
        rcases htimely.shaped p with hnone | ⟨d', n, hd', hn⟩
        · rw [hnone] at hget
          cases hget
        · obtain rfl := Value.dict.inj (hd'.symm.trans hget)
          exact ⟨n, hn⟩
      · rw [Value.ne, Bool.not_eq_false'] at hupdated
        exact Value.same_of_eq hupdated
    · obtain ⟨-, -, hextended⟩ := validateDeliveryExecutionPayload_spec h
      exact requireExtendedHistory_newest (hextended stored rfl).2 hdrop
    · intro other hother hboth
      obtain ⟨hopen', -, hexclusive'⟩ := hchanged hboth
      rcases Plan.openIn_both hopen' hopen hother with ⟨hp, hq⟩ | ⟨hp, hq⟩
      · exact hexclusive' hp (hq ▸ hchanges)
      · exact hexclusive hq (hp ▸ hboth)

end Update

end Delivery

/-! ### Runs -/

/-- No stored delivery has a plan before its time. -/
def DeliveriesTimely (db : Db) : Prop :=
  ∀ org id payload, storedPayload db (org, .deliveryExecution, id) = some payload →
    ∃ status, Delivery.Timely payload.items status

/-- The revision of a plan of a stored delivery, zero when there is none. -/
def revisionAt (db : Db) (key : EntityKey) (plan : Delivery.Plan) : ℤ :=
  ((storedPayload db key).map fun payload => Delivery.revisionOf payload.items plan).getD 0

/-- A step is an accepted mutation of a delivery that changes a plan. -/
def planChanged (key : EntityKey) (plan : Delivery.Plan) (s : RecordStep) : Bool :=
  decide (s.key = key) && decide (s.outcome.reason = .committed) &&
    match storedPayload s.before.db key, storedPayload s.after.db key with
    | some stored, some payload => (stored.items.get plan.key).ne (payload.items.get plan.key)
    | _, _ => false

/-- The next revision is one more. -/
lemma Delivery.Revises.revisionOf {stored payload : Dict} {principal : Principal}
    {plan : Delivery.Plan} (h : Delivery.Revises stored payload principal plan) :
    Delivery.revisionOf payload plan = Delivery.revisionOf stored plan + 1 := by
  obtain ⟨d, hd, hrevision, -⟩ := h.revision
  rcases hrevision with ⟨hnone, hone⟩ | ⟨old, n, hold, hn, hnext⟩
  · simp [Delivery.revisionOf, Delivery.planAt, hd, hnone, Value.dict?, Delivery.planRevision, hone,
      Value.properInt?]
  · simp [Delivery.revisionOf, Delivery.planAt, hd, hold, Value.dict?, Delivery.planRevision, hn,
      hnext, Value.properInt?]

/-- A plan that does not change keeps its revision. -/
lemma Delivery.Timely.revisionOf {stored payload : Dict} {status status' : Delivery.DeliveryStatus}
    (h : Delivery.Timely stored status) (h' : Delivery.Timely payload status')
    (hw : Value.WellFormed (.dict stored)) {plan : Delivery.Plan}
    (hsame : ¬ Delivery.Changes stored payload plan) :
    Delivery.revisionOf payload plan = Delivery.revisionOf stored plan := by
  have hsame : Value.same (stored.get plan.key) (payload.get plan.key) = true := by
    rw [Delivery.Changes, Bool.not_eq_true, Value.ne, Bool.not_eq_false'] at hsame
    exact Value.same_of_eq hsame
  rcases h.shaped plan with hnone | ⟨d, n, hd, hn⟩ <;>
    rcases h'.shaped plan with hnone' | ⟨d', n', hd', hn'⟩
  · simp only [Delivery.revisionOf, Delivery.planAt, hnone, hnone']
  · rw [hnone, hd'] at hsame
    cases hsame
  · rw [hd, hnone'] at hsame
    cases hsame
  · have hwd := hw.get plan.key
    rw [hd, hd'] at hsame
    rw [hd] at hwd
    have hrevision := Dict.same_get hwd.1 hsame "revision"
    rw [hn, hn', Value.same_int_iff] at hrevision
    simp only [Delivery.revisionOf, Delivery.planAt, hd, hd', Value.dict?, Delivery.planRevision,
      hn, hn', hrevision]

/-- A plan is no change of itself. -/
lemma Delivery.Timely.not_changes {stored : Dict} {status : Delivery.DeliveryStatus}
    (h : Delivery.Timely stored status) (hw : Value.WellFormed (.dict stored))
    (plan : Delivery.Plan) : ¬ Delivery.Changes stored stored plan := by
  have hsame := Value.same_refl (hw.get plan.key)
  rw [Delivery.Changes, Bool.not_eq_true, Value.ne, Bool.not_eq_false']
  rcases h.shaped plan with hnone | ⟨d, n, hd, -⟩
  · rw [hnone]
    rfl
  · rw [hd] at hsame ⊢
    exact hsame

namespace RecordStep

variable {env : Env} {s : RecordStep} {payload stored : Payload} {grant : Authorized}
  {applied : Working}

/-- **Step.** A step keeps the deliveries timely: a delivery that it stores was validated. -/
lemma Valid.deliveriesTimely (h : s.Valid env) (hbefore : DeliveriesTimely s.before.db) :
    DeliveriesTimely s.after.db := by
  intro org id after hafter
  exact h.delivery_after (P := fun d => ∃ status, Delivery.Timely d status)
    Delivery.validateDeliveryExecutionPayload_timely hafter (hbefore org id after)

/-- A committed update of a stored delivery was validated against it. -/
lemma Commits.deliveryUpdate (h : s.Commits env payload grant applied)
    (htype : s.record.entityType = .deliveryExecution)
    (hstored : storedPayload s.before.db s.key = some stored) :
    s.record.deletedAt = none ∧
      Delivery.validateDeliveryExecutionPayload payload.items (some stored.items) s.input.principal
        s.record.entityID.text = .ok () := by
  obtain ⟨hupsert, ⟨hnew, -⟩ | ⟨stored', hstored', hvalidate⟩⟩ := h.delivery htype
  · rw [← current_payload, hnew] at hstored
    cases hstored
  · obtain rfl := Option.some.inj (hstored.symm.trans hstored')
    exact ⟨hupsert, hvalidate⟩

/-- **Step.** An accepted update that changes a plan revises it. -/
lemma Commits.revises (h : s.Commits env payload grant applied) {org id : Str}
    (hkey : (org, .deliveryExecution, id) = s.key)
    (hstored : storedPayload s.before.db s.key = some stored)
    (hbefore : DeliveriesTimely s.before.db) {plan : Delivery.Plan}
    (hchanges : Delivery.Changes stored.items payload.items plan) :
    Delivery.Revises stored.items payload.items s.input.principal plan := by
  obtain ⟨-, hvalidate⟩ := h.deliveryUpdate (entityType_of_key hkey) hstored
  obtain ⟨status, htimely⟩ := hbefore org id stored (hkey ▸ hstored)
  exact Delivery.validate_revises payload.wellFormed stored.wellFormed hvalidate htimely hchanges

/-- **Step.** A step over a stored delivery keeps it stored, and raises the revision of a plan by
one exactly when it is an accepted mutation that changes the plan. -/
lemma Valid.revisionAt (h : s.Valid env) {org id : Str} (hbefore : DeliveriesTimely s.before.db)
    (hstored : (storedPayload s.before.db (org, .deliveryExecution, id)).isSome)
    (plan : Delivery.Plan) :
    (storedPayload s.after.db (org, .deliveryExecution, id)).isSome ∧
      revisionAt s.after.db (org, .deliveryExecution, id) plan =
        revisionAt s.before.db (org, .deliveryExecution, id) plan +
          if planChanged (org, .deliveryExecution, id) plan s then 1 else 0 := by
  obtain ⟨stored, hstored⟩ := Option.isSome_iff_exists.mp hstored
  obtain ⟨status, htimely⟩ := hbefore org id stored hstored
  rcases h.storedPayload_before hstored with hafter | ⟨hkey, payload, grant, applied, hcommits⟩
  · have hsame := htimely.not_changes stored.wellFormed plan
    rw [Delivery.Changes, Bool.not_eq_true] at hsame
    simp [VitrialSync.revisionAt, planChanged, hstored, hafter, hsame]
  · obtain ⟨hupsert, hvalidate⟩ :=
      hcommits.deliveryUpdate (entityType_of_key hkey) (hkey ▸ hstored)
    obtain ⟨status', htimely'⟩ := Delivery.validateDeliveryExecutionPayload_timely hvalidate
    have hafter : storedPayload s.after.db (org, .deliveryExecution, id) = some payload := by
      rw [hkey, hcommits.storedPayload_self, hupsert]
      rfl
    have hreason : s.outcome.reason = .committed := by rw [hcommits.outcome]
    have hchanged : planChanged (org, .deliveryExecution, id) plan s =
        (stored.items.get plan.key).ne (payload.items.get plan.key) := by
      simp [planChanged, hkey.symm, hreason, hstored, hafter]
    refine ⟨by rw [hafter]; rfl, ?_⟩
    rw [hchanged]
    simp only [VitrialSync.revisionAt, hstored, hafter, Option.map_some, Option.getD_some]
    split_ifs with hchanges
    · exact (hcommits.revises hkey (hkey ▸ hstored) hbefore hchanges).revisionOf
    · rw [add_zero]
      exact htimely.revisionOf htimely' stored.wellFormed hchanges

end RecordStep

/-- **Revisions of delivery plans.** In every run, an accepted update that changes a plan of a
delivery gives it the next revision and the names of the principal, with one event in the same
names, and changes no other plan. From any step on after which the delivery is stored, its creation
for one, the revision of a plan grows by the number of accepted mutations that change the plan.

**Proof sketch.** The first part is `Delivery.validate_revises` at every step. For the second, the
settled records lead from state to state, and each raises the revision by one or not at all. -/
theorem runPushes_planRevisions (env : Env) (inputs : List PushInput) (db : Db)
    (hdb : DeliveriesTimely db) (org id : Str) :
    (∀ s ∈ runSteps env inputs db, (org, .deliveryExecution, id) = s.key →
      ∀ payload grant applied stored, s.Commits env payload grant applied →
        storedPayload s.before.db s.key = some stored →
          ∀ plan, Delivery.Changes stored.items payload.items plan →
            Delivery.Revises stored.items payload.items s.input.principal plan) ∧
    ∀ first s rest, runSteps env inputs db = first ++ s :: rest →
      ∀ created, storedPayload s.after.db (org, .deliveryExecution, id) = some created →
        ∃ later, storedPayload (runPushes env inputs db) (org, .deliveryExecution, id) =
            some later ∧
          ∀ plan, Delivery.revisionOf later.items plan = Delivery.revisionOf created.items plan +
            rest.countP (planChanged (org, .deliveryExecution, id) plan) := by
  have htimely : ∀ s ∈ runSteps env inputs db, DeliveriesTimely s.before.db :=
    runSteps_inv hdb fun t ht hbefore => (runSteps_valid ht).1.deliveriesTimely hbefore
  constructor
  · intro s hs hkey payload grant applied stored hcommits hstored plan hchanges
    exact hcommits.revises hkey hstored (htimely s hs) hchanges
  · intro first s rest hsteps created hcreated
    have hlinks := runSteps_links env inputs db
    rw [hsteps, links_append] at hlinks
    obtain ⟨_, -, -, hrest⟩ := hlinks
    have hstep : ∀ plan, ∀ t ∈ rest,
        (storedPayload t.before.db (org, .deliveryExecution, id)).isSome →
          (storedPayload t.after.db (org, .deliveryExecution, id)).isSome ∧
            revisionAt t.after.db (org, .deliveryExecution, id) plan =
              revisionAt t.before.db (org, .deliveryExecution, id) plan +
                if planChanged (org, .deliveryExecution, id) plan t then 1 else 0 := by
      intro plan t ht hstored
      have hmem : t ∈ runSteps env inputs db := by
        rw [hsteps]
        exact List.mem_append_right _ (List.mem_cons_of_mem _ ht)
      exact (runSteps_valid hmem).1.revisionAt (htimely t hmem) hstored plan
    have hstart : (storedPayload s.after.db (org, .deliveryExecution, id)).isSome := by
      rw [hcreated]
      rfl
    have hend := hrest.inv (I := fun db => (storedPayload db (org, .deliveryExecution, id)).isSome)
      hstart fun t ht hstored => (hstep .materials t ht hstored).1
    obtain ⟨later, hlater⟩ := Option.isSome_iff_exists.mp hend
    refine ⟨later, hlater, fun plan => ?_⟩
    have hcount := hrest.count
      (I := fun db => (storedPayload db (org, .deliveryExecution, id)).isSome)
      (m := fun db => revisionAt db (org, .deliveryExecution, id) plan) hstart (hstep plan)
    simpa only [revisionAt, hlater, hcreated, Option.map_some, Option.getD_some] using hcount

namespace Sample

/-- The update of the procurement of the sample delivery, with white space around an actor. -/
def padded : List PushInput :=
  let plan := procurementPlan 2 "4" [("status", .str "available")]
  short ++ [procured "7" (some 6) "4"
    [opened, reviewed, listed, deliveryEvent "4" (.str "procurement") "procurement"]
    (.dict ((plan.dict?.getD []).set "actorID" (.str " u ")))]

end Sample

/-- The names of a changed plan need not be those of the principal to the letter: white space around
them is not compared. -/
theorem runSteps_plan_padded :
    ∃ s ∈ runSteps Sample.env Sample.padded Sample.db, ∃ payload grant applied stored,
      s.Commits Sample.env payload grant applied ∧ s.key = Sample.deliveryKey ∧
        storedPayload s.before.db s.key = some stored ∧
        Delivery.Changes stored.items payload.items .procurement ∧
        ¬ ∃ d : Dict, payload.items.get "procurementPlan" = .dict d ∧
          d.get "actorID" = .str s.input.principal.userId := by
  have hrun : ((runSteps Sample.env Sample.padded Sample.db).any fun s =>
      decide (s.outcome.reason = .committed) && decide (s.key = Sample.deliveryKey) &&
        (storedPayload s.before.db s.key).any fun stored =>
          (decodePayload Sample.env s.record.payload).toOption.all fun payload =>
            (stored.items.get "procurementPlan").ne (payload.items.get "procurementPlan") &&
              !(((payload.items.get "procurementPlan").dict?.getD []).get "actorID").isStr
                s.input.principal.userId) = true := by
    decide +kernel
  obtain ⟨s, hs, hstep⟩ := List.any_eq_true.mp hrun
  simp only [Bool.and_eq_true, decide_eq_true_eq, Option.any_eq_true] at hstep
  obtain ⟨⟨hreason, hkey⟩, stored, hstored, hpayload⟩ := hstep
  obtain ⟨payload, grant, applied, hcommits⟩ := (runSteps_valid hs).1.commits_of_reason hreason
  simp only [hcommits.admitted.decoded, Except.toOption, Option.all_some, Bool.and_eq_true,
    Bool.not_eq_true'] at hpayload
  refine ⟨s, hs, payload, grant, applied, stored, hcommits, hkey, hstored, hpayload.1, ?_⟩
  rintro ⟨d, hd, hactor⟩
  have hpadded := hpayload.2
  rw [hd, Value.dict?, Option.getD_some, (Value.isStr_iff _ _).mpr hactor] at hpadded
  cases hpadded

/-- The update of the procurement of the sample delivery revises it. -/
theorem runPushes_planRevisions_sample :
    ∃ s ∈ runSteps Sample.env (Sample.short ++ Sample.supplied) Sample.db,
      ∃ payload stored : Payload,
        Delivery.Revises stored.items payload.items s.input.principal .procurement := by
  have hrun : ((runSteps Sample.env (Sample.short ++ Sample.supplied) Sample.db).any fun s =>
      decide (s.outcome.reason = .committed) && decide (s.key = Sample.deliveryKey) &&
        (storedPayload s.before.db s.key).any fun stored =>
          (decodePayload Sample.env s.record.payload).toOption.all fun payload =>
            (stored.items.get "procurementPlan").ne (payload.items.get "procurementPlan")) =
      true := by
    decide +kernel
  obtain ⟨s, hs, hstep⟩ := List.any_eq_true.mp hrun
  simp only [Bool.and_eq_true, decide_eq_true_eq, Option.any_eq_true] at hstep
  obtain ⟨⟨hreason, hkey⟩, stored, hstored, hchanges⟩ := hstep
  obtain ⟨payload, grant, applied, hcommits⟩ := (runSteps_valid hs).1.commits_of_reason hreason
  simp only [hcommits.admitted.decoded, Except.toOption, Option.all_some] at hchanges
  have hdb : DeliveriesTimely Sample.db := by
    intro org id payload hstored
    cases hstored
  exact ⟨s, hs, payload, stored, (runPushes_planRevisions Sample.env _ Sample.db hdb "o" "v").1 s hs
    hkey.symm payload grant applied stored hcommits hstored .procurement hchanges⟩

end VitrialSync
