import VitrialSync.Server.DeliveryPlans

set_option relaxedAutoImplicit false
set_option autoImplicit false

/-!
# What a delivery keeps

The events of a delivery only grow, its handoff fields never change, and each plan is frozen from
the status after the one it is written in. An update is checked against the stored payload only;
since Python's equality is transitive and the status never goes back, what one update keeps, a
whole run keeps.

## Main definitions

* `VitrialSync.Delivery.Unchanged` — a field is equal in two payloads, as Python compares.
* `VitrialSync.Delivery.Frozen` — what a later payload of a delivery keeps of an earlier one.

## Main results

* `VitrialSync.Delivery.Frozen.trans` — what is kept in turn is kept.
* `VitrialSync.Delivery.validate_frozen` — an accepted update keeps what is frozen.
* `VitrialSync.runPushes_deliveryFrozen` — so does every run of pushes.
-/

namespace VitrialSync

open Python Program

namespace Delivery

/-! ### Frozen fields -/

/-- A field of two payloads is equal, as Python compares. -/
def Unchanged (earlier later : Dict) (key : Str) : Prop :=
  Value.same (earlier.get key) (later.get key) = true

/-- A well-formed payload is unchanged from itself. -/
lemma Unchanged.refl {payload : Dict} (hw : Value.WellFormed (.dict payload)) (key : Str) :
    Unchanged payload payload key :=
  Value.same_refl (hw.get key)

/-- Unchanged in turn. -/
lemma Unchanged.trans {first second third : Dict} {key : Str} (h : Unchanged first second key)
    (h' : Unchanged second third key) : Unchanged first third key :=
  Value.same_trans h h'

/-- What a later payload of a delivery, in a later status, keeps of an earlier one: the events, the
handoff fields, and every plan whose time is over. -/
structure Frozen (earlier later : Dict) (status status' : DeliveryStatus) : Prop where
  events : IsPrefix (chainOf earlier) (chainOf later)
  handoff : ∀ key ∈ immutableHandoffKeys, Unchanged earlier later key
  rank : status.rank ≤ status'.rank
  materials : DeliveryStatus.procurement.rank ≤ status.rank →
    Unchanged earlier later "materialsPlan"
  procurement : DeliveryStatus.production.rank ≤ status.rank →
    Unchanged earlier later "procurementPlan"
  production : DeliveryStatus.readyForInstallation.rank ≤ status.rank →
    Unchanged earlier later "productionPlan"
  completed : DeliveryStatus.scheduled.rank ≤ status.rank →
    earlier.get "installationCompletion" ≠ .none →
      Unchanged earlier later "installationSchedule" ∧ later.get "installationCompletion" ≠ .none
  installed : DeliveryStatus.installed.rank ≤ status.rank →
    Unchanged earlier later "installationSchedule" ∧
      Unchanged earlier later "installationCompletion"
  closed : DeliveryStatus.complete.rank ≤ status.rank → Unchanged earlier later "deliveryCloseout"

/-- A payload keeps everything of itself. -/
lemma Frozen.refl {payload : Dict} (hw : Value.WellFormed (.dict payload))
    (status : DeliveryStatus) : Frozen payload payload status status where
  events := .refl (chainOf_wellFormed hw)
  handoff key _ := .refl hw key
  rank := le_rfl
  materials _ := .refl hw _
  procurement _ := .refl hw _
  production _ := .refl hw _
  completed _ hsome := ⟨.refl hw _, hsome⟩
  installed _ := ⟨.refl hw _, .refl hw _⟩
  closed _ := .refl hw _

/-- What is kept in turn is kept: the status never goes back, so that what is frozen stays so. -/
lemma Frozen.trans {first second third : Dict} {s₁ s₂ s₃ : DeliveryStatus}
    (h : Frozen first second s₁ s₂) (h' : Frozen second third s₂ s₃) : Frozen first third s₁ s₃ where
  events := h.events.trans h'.events
  handoff key hkey := (h.handoff key hkey).trans (h'.handoff key hkey)
  rank := h.rank.trans h'.rank
  materials hrank := (h.materials hrank).trans (h'.materials (hrank.trans h.rank))
  procurement hrank := (h.procurement hrank).trans (h'.procurement (hrank.trans h.rank))
  production hrank := (h.production hrank).trans (h'.production (hrank.trans h.rank))
  completed hrank hsome := by
    obtain ⟨hschedule, hsome'⟩ := h.completed hrank hsome
    obtain ⟨hschedule', hsome''⟩ := h'.completed (hrank.trans h.rank) hsome'
    exact ⟨hschedule.trans hschedule', hsome''⟩
  installed hrank := by
    obtain ⟨hschedule, hcompletion⟩ := h.installed hrank
    obtain ⟨hschedule', hcompletion'⟩ := h'.installed (hrank.trans h.rank)
    exact ⟨hschedule.trans hschedule', hcompletion.trans hcompletion'⟩
  closed hrank := (h.closed hrank).trans (h'.closed (hrank.trans h.rank))

/-! ### One update -/

section Update

variable {payload stored : Dict} {principal : Principal} {status status' : DeliveryStatus}

/-- The status of a stored delivery, as the handoffs read it. -/
lemma Chain.hashedName (h : Chain stored status) :
    hashedName deliveryStatuses (stored.get "status") = .ok (some status) := by
  rw [h.spelled, VitrialSync.hashedName, findName_name]
  rfl

/-- A plan that the handoff found equal to the stored one is unchanged. -/
lemma unchanged_of_plans {key : Str} {plan currentPlan : Option Dict}
    (hw : Value.WellFormed (.dict payload)) (hw' : Value.WellFormed (.dict stored))
    (hget : payload.get key = planValue plan) (hget' : stored.get key = planValue currentPlan)
    (h : (planValue plan).ne (planValue currentPlan) = false) : Unchanged stored payload key := by
  rw [← hget, ← hget', Value.ne, Bool.not_eq_false'] at h
  exact Value.same_symm (hw.get key) (hw'.get key) (Value.same_of_eq h)

/-- An update extends the stored events. -/
lemma requireExtendedHistory_prefix {history : List Dict}
    (h : requireExtendedHistory payload stored principal history = .ok ()) :
    IsPrefix (chainOf stored) history := by
  unfold requireExtendedHistory at h
  split at h
  · cases h
  · rename_i current hcurrent
    simp only [bind_eq_ok, raiseIf_eq_ok, decide_eq_false_iff_not, not_lt, exists_const,
      Bool.not_eq_false'] at h
    have hchain : chainOf stored = current := by rw [chainOf, hcurrent]; rfl
    rw [hchain]
    exact isPrefix_of_startsWith h.1 h.2.1

/-- An update does not go back. -/
lemma Advances.rank_le (h : Advances stored payload) (hstored : Chain stored status)
    (hpayload : Chain payload status') : status.rank ≤ status'.rank := by
  cases h with
  | unchanged hlength hprotected =>
    have hkept := hprotected "status" (by decide)
    rw [hpayload.spelled, Value.ne_str_eq_false_iff, hstored.spelled] at hkept
    exact (congrArg DeliveryStatus.rank (DeliveryStatus.name_injective hkept)).le
  | appended newest s s' hdrop hspelled hfrom hto hmove hspelled' =>
    obtain rfl := DeliveryStatus.name_injective (hstored.spelled.symm.trans hspelled)
    obtain rfl := DeliveryStatus.name_injective (hpayload.spelled.symm.trans hspelled')
    rcases hmove with rfl | hnext
    · exact le_rfl
    · rw [DeliveryStatus.rank_next hnext]
      exact Nat.le_succ _

/-- The branches of the installation handoff that freeze the records. -/
lemma Installation.requireHandoff_frozen {r current : Installation.Records}
    (h : Installation.requireHandoff payload principal status' r current (some status) = .ok ()) :
    (DeliveryStatus.installed.rank ≤ status.rank →
      Installation.recordChanged r.schedule current.schedule = false ∧
        Installation.recordChanged r.completion current.completion = false) ∧
    (DeliveryStatus.complete.rank ≤ status.rank →
      Installation.recordChanged r.closeout current.closeout = false) := by
  cases status with
  | complete =>
    simp only [Installation.requireHandoff, Installation.requireInstalledFrozen, bind_eq_ok,
      raiseIf_eq_ok, exists_const] at h
    exact ⟨fun _ => h.1, fun _ => h.2⟩
  | installed =>
    simp only [Installation.requireHandoff, Installation.handoffFromInstalled,
      Installation.requireInstalledFrozen, bind_eq_ok, raiseIf_eq_ok, exists_const] at h
    exact ⟨fun _ => h.1, fun hrank => absurd hrank (by decide)⟩
  | _ => exact ⟨fun hrank => absurd hrank (by decide), fun hrank => absurd hrank (by decide)⟩

/-- A recorded completion is not cleared.

**Proof sketch.** From installed on the status needs a completion. Otherwise the delivery stays
scheduled, where a cleared completion is a changed one, which the handoff refuses. -/
lemma Installation.completion_kept {r current : Installation.Records}
    (hrecords : Installation.requireStatusRecords status' r = .ok ())
    (h : Installation.requireHandoff payload principal status' r current (some status) = .ok ())
    (hscheduled : DeliveryStatus.scheduled.rank ≤ status.rank) (hrank : status.rank ≤ status'.rank)
    {c : Dict} (hc : current.completion = some c) : ∃ d, r.completion = some d := by
  by_cases hinstalled : DeliveryStatus.installed.rank ≤ status'.rank
  · exact (Installation.requireStatusRecords_spec hrecords).2.1 hinstalled
  · have hbetween : status = .scheduled ∧ status' = .scheduled := by
      revert hscheduled hrank hinstalled
      cases status <;> cases status' <;> decide
    obtain ⟨rfl, rfl⟩ := hbetween
    cases hr : r.completion with
    | some d => exact ⟨d, rfl⟩
    | none =>
      have hchanged : Installation.recordChanged r.completion current.completion = true := by
        rw [hr, hc]
        rfl
      simp only [Installation.requireHandoff, Installation.handoffFromScheduled, reduceCtorEq,
        ↓reduceIte, ne_eq, not_true_eq_false, bind_eq_ok, raiseIf_eq_ok, exists_const, hchanged,
        Bool.and_true] at h
      obtain ⟨hschedule, h⟩ := h
      rw [hschedule, hr] at h
      cases h

/-- The schedule of a delivery that is scheduled and completed. -/
lemma Installation.requireScheduleFreeze_spec {schedule : Option Dict}
    (h : Installation.requireScheduleFreeze (some stored) principal schedule = .ok ())
    (hstatus : stored.get "status" = .str DeliveryStatus.scheduled.name)
    (hcompletion : stored.get "installationCompletion" ≠ .none) :
    ∃ current, stored.get "installationSchedule" = planValue current ∧
      Installation.recordChanged schedule current = false := by
  have hnone : (stored.get "installationCompletion").isNone = false := by
    revert hcompletion
    cases stored.get "installationCompletion" <;> simp [Value.isNone]
  have hcondition : ((stored.get "status").isStr "scheduled" &&
      !(stored.get "installationCompletion").isNone) = true := by
    rw [hnone, Bool.not_false, Bool.and_true, Value.isStr_iff]
    exact hstatus
  simp only [Installation.requireScheduleFreeze, hcondition, ↓reduceIte, bind_eq_ok,
    raiseIf_eq_ok] at h
  obtain ⟨current, hcurrent, hchanged⟩ := h
  exact ⟨current, (Installation.validateSchedule_spec hcurrent).1, hchanged⟩

/-- **Updates.** An accepted update keeps what is frozen.

**Proof sketch.** Each handoff compares its plan with the stored one and raises on a difference when
the stored status is past the plan. A schedule with a completion is compared before the completion
is looked at, whatever the new status is. -/
theorem validate_frozen {id : Str} (hw : Value.WellFormed (.dict payload))
    (hw' : Value.WellFormed (.dict stored))
    (h : validateDeliveryExecutionPayload payload (some stored) principal id = .ok ())
    (hstored : Chain stored status) :
    ∃ status', Chain payload status' ∧ Frozen stored payload status status' := by
  obtain ⟨hadvances, status', hchain, -⟩ := validate_advances hw h hstored
  have hrank := hadvances.rank_le hstored hchain
  obtain ⟨-, -, hsame⟩ := validateDeliveryExecutionPayload_spec h
  obtain ⟨hkeys, hextended⟩ := hsame stored rfl
  obtain ⟨h₁, h₂, h₃, h₄⟩ := validateDeliveryExecutionPayload_handoffs h hchain
  obtain ⟨materials, hgetM, -, -, hcompareM⟩ := validateMaterialsHandoff_spec h₁
  obtain ⟨-, procurement, -, hgetP, -, -, hcompareP⟩ := validateProcurementHandoff_spec h₂
  obtain ⟨production, hgetW, -, -, hcompareW⟩ := Production.validateProductionHandoff_spec h₃
  obtain ⟨r, hof, -, hrecords, hcompare⟩ := Installation.validateInstallationHandoff_spec h₄
  obtain ⟨materials', s₁, hgetM', hs₁, hhandoffM⟩ := hcompareM stored rfl
  obtain ⟨procurement', s₂, hgetP', hs₂, hhandoffP⟩ := hcompareP stored rfl
  obtain ⟨production', s₃, hgetW', hs₃, hhandoffW⟩ := hcompareW stored rfl
  obtain ⟨hfreeze, current, s₄, hof', hs₄, hhandoff⟩ := hcompare stored rfl
  rw [hstored.hashedName, Except.ok.injEq] at hs₁ hs₂ hs₃ hs₄
  subst hs₁ hs₂ hs₃ hs₄
  obtain ⟨hinstalled, hclosed⟩ := Installation.requireHandoff_frozen hhandoff
  have hschedule : ∀ {current}, stored.get "installationSchedule" = planValue current →
      Installation.recordChanged r.schedule current = false →
        Unchanged stored payload "installationSchedule" :=
    fun hget hchanged => unchanged_of_plans hw hw' hof.schedule hget hchanged
  refine ⟨status', hchain, ?_, ?_, hrank, ?_, ?_, ?_, ?_, ?_, ?_⟩
  · exact requireExtendedHistory_prefix hextended
  · intro key hkey
    have hkept := hkeys key hkey
    rw [Value.ne, Bool.not_eq_false'] at hkept
    exact Value.same_of_eq hkept
  · rw [← materialsFrozen_iff]
    intro hfrozen
    simp only [requireMaterialsHandoff, Option.any_some, hfrozen, ↓reduceIte,
      raiseIf_eq_ok] at hhandoffM
    exact unchanged_of_plans hw hw' hgetM hgetM' hhandoffM
  · rw [← procurementFrozen_iff]
    intro hfrozen
    simp only [requireProcurementHandoff, Option.any_some, hfrozen, ↓reduceIte,
      raiseIf_eq_ok] at hhandoffP
    exact unchanged_of_plans hw hw' hgetP hgetP' hhandoffP
  · rw [← Production.frozen_iff]
    intro hfrozen
    simp only [Production.requireHandoff, Option.any_some, hfrozen, ↓reduceIte,
      raiseIf_eq_ok] at hhandoffW
    exact unchanged_of_plans hw hw' hgetW hgetW' hhandoffW
  · intro hscheduled hcompleted
    obtain ⟨c, hc⟩ : ∃ c, current.completion = some c := by
      refine Option.ne_none_iff_exists'.mp fun hnone => hcompleted ?_
      rw [hof'.completion, hnone]
      rfl
    constructor
    · -- from installed on the schedule is frozen anyway
      by_cases hrank' : DeliveryStatus.installed.rank ≤ status.rank
      · exact hschedule hof'.schedule (hinstalled hrank').1
      · have hstatus : status = .scheduled := by
          revert hscheduled hrank'
          cases status <;> decide
        subst hstatus
        obtain ⟨schedule, hget, hchanged⟩ :=
          Installation.requireScheduleFreeze_spec hfreeze hstored.spelled hcompleted
        exact hschedule hget hchanged
    · obtain ⟨d, hd⟩ := Installation.completion_kept hrecords hhandoff hscheduled hrank hc
      rw [hof.completion, hd]
      exact Value.noConfusion
  · intro hrank'
    obtain ⟨hs, hc⟩ := hinstalled hrank'
    exact ⟨hschedule hof'.schedule hs,
      unchanged_of_plans hw hw' hof.completion hof'.completion hc⟩
  · intro hrank'
    exact unchanged_of_plans hw hw' hof.closeout hof'.closeout (hclosed hrank')

end Update

end Delivery

/-! ### Runs -/

/-- The status of every stored delivery is where its events end. -/
def DeliveriesChained (db : Db) : Prop :=
  ∀ org id payload, storedPayload db (org, .deliveryExecution, id) = some payload →
    ∃ status, Delivery.Chain payload.items status

/-- A delivery is stored with a payload that keeps what is frozen of an earlier one. -/
def DeliveryKept (key : EntityKey) (earlier : Payload) (status : Delivery.DeliveryStatus)
    (db : Db) : Prop :=
  ∃ later status', storedPayload db key = some later ∧ Delivery.Chain later.items status' ∧
    Delivery.Frozen earlier.items later.items status status'

/-- **Step.** A step keeps the statuses where the events end. -/
lemma RecordStep.Valid.deliveriesChained {env : Env} {s : RecordStep} (h : s.Valid env)
    (hbefore : DeliveriesChained s.before.db) : DeliveriesChained s.after.db := by
  intro org id after hafter
  refine h.delivery_after (P := fun d => ∃ status, Delivery.Chain d status) ?_ hafter
    (hbefore org id after)
  intro d current principal id' hvalidate
  obtain ⟨status, hchain, -⟩ := Delivery.validateDeliveryExecutionPayload_spec hvalidate
  exact ⟨status, hchain⟩

/-- **Step.** A step keeps what is frozen of a delivery: it stores no tombstone over it, and an
update was checked against what is stored. -/
lemma RecordStep.Valid.deliveryKept {env : Env} {s : RecordStep} (h : s.Valid env) {org id : Str}
    {earlier : Payload} {status : Delivery.DeliveryStatus}
    (hbefore : DeliveryKept (org, .deliveryExecution, id) earlier status s.before.db) :
    DeliveryKept (org, .deliveryExecution, id) earlier status s.after.db := by
  obtain ⟨stored, status', hstored, hchain, hfrozen⟩ := hbefore
  rcases h.storedPayload_before hstored with hafter | ⟨hkey, payload, grant, applied, hcommits⟩
  · exact ⟨stored, status', hafter, hchain, hfrozen⟩
  · obtain ⟨hupsert, ⟨hnew, -⟩ | ⟨stored', hstored', hvalidate⟩⟩ :=
      hcommits.delivery (entityType_of_key hkey)
    · rw [hkey, ← current_payload, hnew] at hstored
      cases hstored
    · rw [hkey] at hstored
      obtain rfl := Option.some.inj (hstored.symm.trans hstored')
      obtain ⟨status'', hchain', hfrozen'⟩ :=
        Delivery.validate_frozen payload.wellFormed stored.wellFormed hvalidate hchain
      refine ⟨payload, status'', ?_, hchain', hfrozen.trans hfrozen'⟩
      rw [hkey, hcommits.storedPayload_self, hupsert]
      rfl

/-- **Deliveries are frozen over runs.** A delivery that is stored at one time of a run is stored at
every later time, with events that extend the earlier ones, the same handoff fields, a status of at
least the same rank, and every plan that was frozen unchanged. -/
theorem runPushes_deliveryFrozen (env : Env) (first second : List PushInput) (db : Db)
    (hdb : DeliveriesChained db) (org id : Str) (earlier : Payload)
    (hearlier : storedPayload (runPushes env first db) (org, .deliveryExecution, id) =
      some earlier) :
    ∃ later status status',
      storedPayload (runPushes env (first ++ second) db) (org, .deliveryExecution, id) =
        some later ∧
      Delivery.Chain earlier.items status ∧ Delivery.Chain later.items status' ∧
      Delivery.Frozen earlier.items later.items status status' := by
  have hfirst : DeliveriesChained (runPushes env first db) :=
    runPushes_inv hdb fun _ hs hbefore => (runSteps_valid hs).1.deliveriesChained hbefore
  obtain ⟨status, hchain⟩ := hfirst org id earlier hearlier
  have hstart : DeliveryKept (org, .deliveryExecution, id) earlier status
      (runPushes env first db) :=
    ⟨earlier, status, hearlier, hchain, .refl earlier.wellFormed status⟩
  rw [runPushes_append]
  obtain ⟨later, status', hlater, hchain', hfrozen⟩ := runPushes_inv hstart
    fun _ hs hbefore => (runSteps_valid hs).1.deliveryKept hbefore
  exact ⟨later, status, status', hlater, hchain, hchain', hfrozen⟩

namespace Sample

/-- The material of the short sample delivery becomes available. -/
def supplied : List PushInput :=
  [procured "7" (some 6) "4"
    [opened, reviewed, listed, deliveryEvent "4" (.str "procurement") "procurement"]
    (procurementPlan 2 "4" [("status", .str "available")])]

end Sample

/-- The update of the procurement of a delivery keeps its materials. -/
theorem runPushes_deliveryFrozen_sample :
    ∃ earlier later, storedPayload (runPushes Sample.env Sample.short Sample.db)
        Sample.deliveryKey = some earlier ∧
      storedPayload (runPushes Sample.env (Sample.short ++ Sample.supplied) Sample.db)
        Sample.deliveryKey = some later ∧
      (Delivery.chainOf later.items).length = 4 ∧
      Delivery.Unchanged earlier.items later.items "materialsPlan" := by
  have hearlier : ((storedPayload (runPushes Sample.env Sample.short Sample.db)
      Sample.deliveryKey).any fun payload =>
        (payload.items.get "status").isStr "procurement") = true := by
    decide +kernel
  have hlater : ((storedPayload (runPushes Sample.env (Sample.short ++ Sample.supplied) Sample.db)
      Sample.deliveryKey).all fun payload =>
        decide ((Delivery.chainOf payload.items).length = 4)) = true := by
    decide +kernel
  obtain ⟨earlier, hstored, hspelled⟩ := (Option.any_eq_true _ _).mp hearlier
  have hdb : DeliveriesChained Sample.db := by
    intro org id payload hstored
    cases hstored
  obtain ⟨later, status, status', hstored', hchain, -, hfrozen⟩ :=
    runPushes_deliveryFrozen Sample.env Sample.short Sample.supplied Sample.db hdb "o" "v" earlier
      hstored
  have hprocurement : status = .procurement := Delivery.DeliveryStatus.name_injective
    (hchain.spelled.symm.trans ((Value.isStr_iff _ _).mp hspelled))
  refine ⟨earlier, later, hstored, hstored', ?_, hfrozen.materials (by rw [hprocurement])⟩
  rw [Sample.deliveryKey, hstored'] at hlater
  exact of_decide_eq_true hlater

end VitrialSync
