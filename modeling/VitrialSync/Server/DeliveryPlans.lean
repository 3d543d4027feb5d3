import VitrialSync.Server.DeliverySteps

set_option relaxedAutoImplicit false
set_option autoImplicit false

/-!
# The plans of a delivery agree with each other

A delivery collects five plans on its way: materials, procurement, production, the installation
schedule with its completion, and the closeout. Each plan after the first names the revision of the
one before. The validator checks the whole chain of a payload whether or not a payload is stored, so
that every stored delivery is consistent.

## Main definitions

* `VitrialSync.Delivery.RefersTo` — a plan names the revision of another one.
* `VitrialSync.Delivery.Procures` — a procurement plan covers the materials of a materials plan.
* `VitrialSync.Delivery.Consistent` — a payload whose plans agree with each other and its status.

## Main results

* `VitrialSync.Delivery.validateDeliveryExecutionPayload_consistent` — what the validator accepts
  is consistent.
* `VitrialSync.runPushes_deliveriesConsistent` — every stored delivery is consistent.
-/

namespace VitrialSync

open Python Program

namespace Delivery

/-! ### Plans -/

/-- The plan under a key of a payload. -/
def planAt (payload : Dict) (key : Str) : Option Dict := (payload.get key).dict?

/-- The entries of a plan under a key. -/
def entries (plan : Dict) (key : Str) : List Value := (plan.get key).list?.getD []

/-- The normalized id of an entry under a key. -/
def entryId (key : Str) (entry : Value) : Option Str :=
  entry.dict?.bind fun d => normalized (d.get key)

/-- A plan names the revision of another one. -/
def RefersTo (plan : Dict) (key : Str) (other : Dict) : Prop :=
  ∃ n : ℤ, plan.get key = .int n ∧ other.get "revision" = .int n

/-- Every entry has an id, and no two have the same one. -/
def DistinctIds (xs : List Value) (key : Str) : Prop :=
  (∀ entry ∈ xs, (entryId key entry).isSome) ∧ (xs.map (entryId key)).Nodup

/-- Every entry has the given status. -/
def AllIn (xs : List Value) (status : Str) : Prop :=
  ∀ entry ∈ xs, ∃ d : Dict, entry = .dict d ∧ d.get "status" = .str status

/-- A shortage is positive and at most the quantity of its material. -/
def ShortageOf (requirement material : Dict) : Prop :=
  ∃ shortage quantity, (requirement.get "shortageQuantity").toDecimal? = some shortage ∧
    (material.get "quantity").toDecimal? = some quantity ∧
    Decimal.zero.lt shortage = .ok true ∧ shortage.le quantity = .ok true

/-- A procurement plan covers the materials of a materials plan: each is named once, and shortages
are within what is required. -/
structure Procures (plan materials : Dict) : Prop where
  refers : RefersTo plan "materialsPlanRevision" materials
  distinct : DistinctIds (entries plan "requirements") "requirementID"
  named : ((entries plan "requirements").map (entryId "requirementID")).Perm
    ((entries materials "requirements").map (entryId "id"))
  shortages : ∀ requirement, .dict requirement ∈ entries plan "requirements" →
    requirement.get "status" = .str "shortage" →
      ∃ material, .dict material ∈ entries materials "requirements" ∧
        normalized (material.get "id") = normalized (requirement.get "requirementID") ∧
        ShortageOf requirement material

/-- The plans of a delivery. -/
def planKeys : List Str :=
  ["materialsPlan", "procurementPlan", "productionPlan", "installationSchedule",
    "installationCompletion", "deliveryCloseout"]

/-- A payload whose plans agree with each other and with its status, which is where its events
end. -/
structure Consistent (payload : Dict) (status : DeliveryStatus) : Prop where
  chain : Chain payload status
  shaped : ∀ key ∈ planKeys, payload.get key = .none ∨ ∃ plan, payload.get key = .dict plan
  procurement : ∀ plan, planAt payload "procurementPlan" = some plan →
    ∃ materials, planAt payload "materialsPlan" = some materials ∧ Procures plan materials
  production : ∀ plan, planAt payload "productionPlan" = some plan →
    ∃ procurement, planAt payload "procurementPlan" = some procurement ∧
      RefersTo plan "procurementPlanRevision" procurement
  schedule : ∀ plan, planAt payload "installationSchedule" = some plan →
    ∃ production, planAt payload "productionPlan" = some production ∧
      RefersTo plan "productionPlanRevision" production
  completion : ∀ plan, planAt payload "installationCompletion" = some plan →
    ∃ schedule, planAt payload "installationSchedule" = some schedule ∧
      RefersTo plan "installationScheduleRevision" schedule
  closeout : ∀ plan, planAt payload "deliveryCloseout" = some plan →
    ∃ completion, planAt payload "installationCompletion" = some completion ∧
      RefersTo plan "installationCompletionRevision" completion
  fromProcurement : DeliveryStatus.procurement.rank ≤ status.rank →
    ∃ plan, planAt payload "materialsPlan" = some plan
  fromProduction : DeliveryStatus.production.rank ≤ status.rank →
    ∃ plan, planAt payload "procurementPlan" = some plan ∧
      AllIn (entries plan "requirements") "available"
  fromReady : DeliveryStatus.readyForInstallation.rank ≤ status.rank →
    ∃ plan, planAt payload "productionPlan" = some plan ∧ AllIn (entries plan "steps") "complete"
  fromScheduled : DeliveryStatus.scheduled.rank ≤ status.rank →
    ∃ plan, planAt payload "installationSchedule" = some plan
  fromInstalled : DeliveryStatus.installed.rank ≤ status.rank →
    ∃ plan, planAt payload "installationCompletion" = some plan ∧
      entries plan "evidenceReferences" ≠ []
  inComplete : (∃ plan, planAt payload "deliveryCloseout" = some plan) ↔ status = .complete

/-! ### The validators of the plans -/

/-- A plan that was validated is the value under its key. -/
lemma planAt_of_get {payload : Dict} {key : Str} {plan : Option Dict}
    (h : payload.get key = planValue plan) : planAt payload key = plan := by
  rw [planAt, h]
  cases plan <;> rfl

/-- A value that holds a plan or nothing. -/
lemma shaped_of_get {payload : Dict} {key : Str} {plan : Option Dict}
    (h : payload.get key = planValue plan) :
    payload.get key = .none ∨ ∃ plan, payload.get key = .dict plan := by
  cases plan with
  | none => exact Or.inl h
  | some plan => exact Or.inr ⟨plan, h⟩

/-- A revision that passes its check is an integer. -/
lemma int_of_revision? {v : Value} (h : (revision? v).isNone = false) : ∃ n : ℤ, v = .int n := by
  cases v with
  | int n => exact ⟨n, rfl⟩
  | _ => simp [revision?, Value.properInt?] at h

/-- A revision that matches that of a plan refers to it. -/
lemma refersTo_of_matches {plan other : Dict} {key : Str} {n : ℤ}
    (h : revisionMatches (plan.get key) (other.get "revision") = true)
    (hrevision : other.get "revision" = .int n) : RefersTo plan key other := by
  simp only [revisionMatches, Option.any_eq_true, revision?, Option.filter_eq_some_iff] at h
  obtain ⟨m, ⟨hint, -⟩, hmatch⟩ := h
  have hm : plan.get key = .int m := by
    cases hv : plan.get key <;> rw [hv] at hint <;> cases hint
    rfl
  rw [hrevision, Value.ne, Bool.not_not] at hmatch
  have hmn := (Value.same_int_iff m n).mp (Value.same_of_eq hmatch)
  exact ⟨n, hmn ▸ hm, hrevision⟩

/-- The ids that a loop over the entries has collected. -/
lemma distinctIds_of_foldlM {key : Str} {f : List Str → Value → Except Exc (List Str)}
    (hf : ∀ seen entry seen', f seen entry = .ok seen' →
      ∃ k, entryId key entry = some k ∧ k ∉ seen ∧ seen' = k :: seen)
    {xs : List Value} {seen : List Str} (h : xs.foldlM f [] = .ok seen) :
    DistinctIds xs key ∧ ∀ k, k ∈ seen ↔ some k ∈ xs.map (entryId key) := by
  obtain ⟨ids, hids, hseen, hnodup⟩ := foldlM_distinct hf h
  have hdistinct : ids.Nodup := by
    have hn := hnodup List.nodup_nil
    rw [hseen, List.append_nil, List.nodup_reverse] at hn
    exact hn
  refine ⟨⟨fun entry hentry => ?_, ?_⟩, fun k => ?_⟩
  · have hmem : entryId key entry ∈ ids.map some := hids ▸ List.mem_map_of_mem hentry
    obtain ⟨k, -, hk⟩ := List.mem_map.mp hmem
    rw [← hk]
    rfl
  · rw [hids]
    exact hdistinct.map (Option.some_injective _)
  · rw [hids, hseen, List.append_nil, List.mem_reverse]
    simp

/-- What the loop over materials collects. -/
lemma checkMaterial_spec {seen seen' : List Str} {entry : Value}
    (h : checkMaterial seen entry = .ok seen') :
    ∃ k, entryId "id" entry = some k ∧ k ∉ seen ∧ seen' = k :: seen := by
  unfold checkMaterial at h
  split at h
  · cases h
  · rename_i requirement hentry
    split at h
    · cases h
    · rename_i k hid
      simp only [bind_eq_ok, raiseIf_eq_ok, pure_eq_ok, exists_const] at h
      obtain ⟨hnew, -, -, -, -, -, -, -, -, rfl⟩ := h
      refine ⟨k, ?_, by simpa using hnew, rfl⟩
      rw [entryId, hentry, Option.bind_some, hid]

/-- A materials plan with a revision and distinct materials. -/
structure MaterialsPlan (plan : Dict) : Prop where
  revision : ∃ n : ℤ, plan.get "revision" = .int n
  distinct : DistinctIds (entries plan "requirements") "id"

/-- What the check of a materials plan establishes. -/
lemma validateMaterialsPlan_spec {v : Value} {principal : Principal} {plan : Option Dict}
    (h : validateMaterialsPlan v principal = .ok plan) :
    v = planValue plan ∧ ∀ d, plan = some d → MaterialsPlan d := by
  unfold validateMaterialsPlan at h
  split at h
  · rw [Except.ok.injEq] at h
    subst h
    exact ⟨rfl, fun d hd => by cases hd⟩
  · rename_i d
    simp only [bind_eq_ok, raiseIf_eq_ok, exists_const] at h
    obtain ⟨hrevision, -, h⟩ := h
    split at h
    · cases h
    · rename_i requirements hrequirements
      simp only [bind_eq_ok, raiseIf_eq_ok, pure_eq_ok, exists_const] at h
      obtain ⟨-, seen, hloop, -, -, rfl⟩ := h
      refine ⟨rfl, fun d' hd' => ?_⟩
      obtain rfl := Option.some.inj hd'
      refine ⟨int_of_revision? hrevision, ?_⟩
      rw [entries, hrequirements, Option.getD_some]
      exact (distinctIds_of_foldlM (fun _ _ _ => checkMaterial_spec) hloop).1
  · cases h

/-- What the loop over procurement requirements collects and checks. -/
lemma checkRequirement_spec {materials : List (Str × Dict)} {seen seen' : List Str} {entry : Value}
    (h : checkRequirement materials seen entry = .ok seen') :
    ∃ k, entryId "requirementID" entry = some k ∧ k ∉ seen ∧ seen' = k :: seen ∧
      ∃ requirement material, entry = .dict requirement ∧ materials.lookup k = some material ∧
        checkRequirementFields requirement material = .ok () := by
  unfold checkRequirement at h
  split at h
  · cases h
  · rename_i requirement hentry
    split at h
    · cases h
    · rename_i k hid
      simp only [bind_eq_ok, raiseIf_eq_ok, exists_const] at h
      obtain ⟨hnew, h⟩ := h
      split at h
      · cases h
      · rename_i material hlookup
        simp only [bind_eq_ok, pure_eq_ok] at h
        obtain ⟨_, hfields, rfl⟩ := h
        refine ⟨k, ?_, by simpa using hnew, rfl, requirement, material, ?_, hlookup, hfields⟩
        · rw [entryId, hentry, Option.bind_some, hid]
        · cases entry <;> cases hentry
          rfl

/-- The fields of a requirement that is a shortage. -/
lemma shortageOf_of_fields {requirement material : Dict}
    (h : checkRequirementFields requirement material = .ok ())
    (hstatus : requirement.get "status" = .str "shortage") : ShortageOf requirement material := by
  have hname : hashedName requirementStatuses (.str "shortage") = .ok (some .shortage) := by
    decide +kernel
  rw [checkRequirementFields, hstatus, hname] at h
  simp only [bind_eq_ok, raiseIf_eq_ok, exists_const, ok_bind, checkShortage, ↓reduceIte,
    decimal_eq_ok, signalling_eq_ok] at h
  obtain ⟨-, -, -, shortage, hshortage, quantity, hquantity, notPositive, hpositive, hlarge⟩ := h
  refine ⟨shortage, quantity, hshortage, hquantity, ?_⟩
  cases notPositive with
  | true => simp at hlarge
  | false =>
    simp only [Bool.false_eq_true, ↓reduceIte, bind_eq_ok, signalling_eq_ok,
      raiseIf_eq_ok] at hlarge
    obtain ⟨tooLarge, hlt, rfl⟩ := hlarge
    exact ⟨Decimal.lt_of_le hpositive, Decimal.le_of_lt hlt⟩

/-- The ids under which the materials of a plan are found. -/
lemma keys_materialById (plan : Dict) :
    keys (materialById plan) =
      (entries plan "requirements").reverse.filterMap (entryId "id") := by
  rw [keys, materialById, List.map_filterMap, entries]
  refine List.filterMap_congr fun entry _ => ?_
  rw [entryId]
  cases entry.dict? with
  | none => rfl
  | some d =>
    simp only [Option.bind_some, Option.map_map]
    cases normalized (d.get "id") <;> rfl

/-- A material that is found under an id is a material of the plan with that id. -/
lemma mem_of_materialById {plan material : Dict} {k : Str}
    (h : (materialById plan).lookup k = some material) :
    .dict material ∈ entries plan "requirements" ∧ normalized (material.get "id") = some k := by
  have hmem := mem_of_lookup h
  rw [materialById, List.mem_filterMap] at hmem
  obtain ⟨entry, hentry, hfound⟩ := hmem
  obtain ⟨d, hd, hid⟩ := Option.bind_eq_some_iff.mp hfound
  obtain ⟨k', hk', hpair⟩ := Option.map_eq_some_iff.mp hid
  obtain ⟨rfl, rfl⟩ := Prod.mk.inj hpair
  have heq : entry = .dict d := by
    cases entry <;> cases hd
    rfl
  exact ⟨heq ▸ List.mem_reverse.mp hentry, hk'⟩

/-- What the check of a procurement plan establishes.

**Proof sketch.** The loop collects the ids of the requirements, each once and each of a material;
the two tests after it compare the collected ids with those of the materials both ways. Two
lists without repetitions and with the same elements are permutations of each other. -/
lemma validateProcurementPlan_spec {v : Value} {materialsPlan : Option Dict}
    {principal : Principal} {plan : Option Dict}
    (h : validateProcurementPlan v materialsPlan principal = .ok plan) :
    v = planValue plan ∧ ∀ d, plan = some d → (∃ n : ℤ, Dict.get d "revision" = .int n) ∧
      ∃ m, materialsPlan = some m ∧ (MaterialsPlan m → Procures d m) := by
  unfold validateProcurementPlan at h
  split at h
  · rw [Except.ok.injEq] at h
    subst h
    exact ⟨rfl, fun d hd => by cases hd⟩
  · rename_i d
    split at h
    · cases h
    · rename_i m
      simp only [bind_eq_ok, raiseIf_eq_ok, exists_const, Bool.not_eq_false'] at h
      obtain ⟨hrevision, hmatches, -, h⟩ := h
      split at h
      · cases h
      · rename_i requirements hrequirements
        simp only [bind_eq_ok, raiseIf_eq_ok, pure_eq_ok, exists_const] at h
        obtain ⟨-, seen, hloop, hmissing, hunknown, -, -, rfl⟩ := h
        refine ⟨rfl, fun d' hd' => ?_⟩
        obtain rfl := Option.some.inj hd'
        refine ⟨int_of_revision? hrevision, m, rfl, fun hm => ?_⟩
        have hentries : entries d "requirements" = requirements := by
          rw [entries, hrequirements, Option.getD_some]
        obtain ⟨n, hn⟩ := hm.revision
        obtain ⟨hdistinct, hseen⟩ := distinctIds_of_foldlM (fun _ _ _ hcheck => by
          obtain ⟨k, hk, hnew, hcons, -⟩ := checkRequirement_spec hcheck
          exact ⟨k, hk, hnew, hcons⟩) hloop
        refine ⟨refersTo_of_matches hmatches hn, hentries ▸ hdistinct, ?_, ?_⟩
        · rw [hentries]
          refine (List.perm_ext_iff_of_nodup hdistinct.2 hm.distinct.2).mpr fun o => ?_
          have hkeys : ∀ k, k ∈ keys (materialById m) ↔
              some k ∈ (entries m "requirements").map (entryId "id") := by
            intro k
            rw [keys_materialById, List.mem_filterMap, List.mem_map]
            simp only [List.mem_reverse]
          rw [List.any_eq_false] at hmissing hunknown
          constructor
          · intro ho
            obtain ⟨entry, hentry, rfl⟩ := List.mem_map.mp ho
            obtain ⟨k, hk⟩ := Option.isSome_iff_exists.mp (hdistinct.1 entry hentry)
            rw [hk] at ho ⊢
            have hmem := hunknown k ((hseen k).mpr ho)
            exact (hkeys k).mp (by simpa using hmem)
          · intro ho
            obtain ⟨entry, hentry, rfl⟩ := List.mem_map.mp ho
            obtain ⟨k, hk⟩ := Option.isSome_iff_exists.mp (hm.distinct.1 entry hentry)
            rw [hk] at ho ⊢
            have hmem := hmissing k ((hkeys k).mpr ho)
            exact (hseen k).mp (by simpa using hmem)
        · intro requirement hmem hstatus
          rw [hentries] at hmem
          obtain ⟨c, c', hcheck⟩ := foldlM_eq_ok_mem hloop _ hmem
          obtain ⟨k, hk, -, -, requirement', material, heq, hlookup, hfields⟩ :=
            checkRequirement_spec hcheck
          obtain rfl := Value.dict.inj heq
          obtain ⟨hmaterial, hid⟩ := mem_of_materialById hlookup
          refine ⟨material, hmaterial, ?_, shortageOf_of_fields hfields hstatus⟩
          rw [hid]
          exact hk.symm
  · cases h

/-- Entries that pass the test for a status have it. -/
lemma allIn_of_any {xs : List Value} {status : Str}
    (h : (xs.any fun entry => !(((entry.dict?.getD []).get "status").isStr status)) = false) :
    AllIn xs status := by
  intro entry hentry
  have hstatus := List.any_eq_false.mp h entry hentry
  rw [Bool.not_eq_true, Bool.not_eq_false', Value.isStr_iff] at hstatus
  cases entry with
  | dict d => exact ⟨d, rfl, hstatus⟩
  | _ => cases hstatus

/-- What the check of a production plan establishes. -/
lemma Production.validatePlan_spec {v procurementPlan : Value} {principal : Principal}
    {plan : Option Dict} (h : Production.validatePlan v procurementPlan principal = .ok plan) :
    v = planValue plan ∧ ∀ d, plan = some d → (∃ n : ℤ, Dict.get d "revision" = .int n) ∧
      ∃ procurement : Dict, procurementPlan = .dict procurement ∧
        revisionMatches (Dict.get d "procurementPlanRevision") (procurement.get "revision") =
          true := by
  unfold Production.validatePlan at h
  split at h
  · rw [Except.ok.injEq] at h
    subst h
    exact ⟨rfl, fun d hd => by cases hd⟩
  · rename_i d
    split at h
    · cases h
    · rename_i procurement hprocurement
      simp only [bind_eq_ok, raiseIf_eq_ok, exists_const, Bool.not_eq_false'] at h
      obtain ⟨hrevision, hmatches, -, h⟩ := h
      split at h
      · cases h
      · simp only [bind_eq_ok, raiseIf_eq_ok, pure_eq_ok, exists_const] at h
        obtain ⟨-, -, -, -, -, rfl⟩ := h
        refine ⟨rfl, fun d' hd' => ?_⟩
        obtain rfl := Option.some.inj hd'
        refine ⟨int_of_revision? hrevision, procurement, ?_, hmatches⟩
        cases procurementPlan <;> cases hprocurement
        rfl
  · cases h

namespace Installation

/-- What the check of a schedule establishes. -/
lemma validateSchedule_spec {v productionPlan : Value} {principal : Principal}
    {plan : Option Dict} (h : validateSchedule v productionPlan principal = .ok plan) :
    v = planValue plan ∧ ∀ d, plan = some d → (∃ n : ℤ, Dict.get d "revision" = .int n) ∧
      ∃ production : Dict, productionPlan = .dict production ∧
        revisionMatches (Dict.get d "productionPlanRevision") (production.get "revision") =
          true := by
  unfold validateSchedule at h
  split at h
  · rw [Except.ok.injEq] at h
    subst h
    exact ⟨rfl, fun d hd => by cases hd⟩
  · rename_i d
    split at h
    · cases h
    · rename_i production hproduction
      simp only [bind_eq_ok, raiseIf_eq_ok, pure_eq_ok, exists_const, Bool.not_eq_false'] at h
      obtain ⟨-, hrevision, hmatches, -, -, -, -, -, -, -, rfl⟩ := h
      refine ⟨rfl, fun d' hd' => ?_⟩
      obtain rfl := Option.some.inj hd'
      refine ⟨int_of_revision? hrevision, production, ?_, hmatches⟩
      cases productionPlan <;> cases hproduction
      rfl
  · cases h

/-- The references of a record that needs one. -/
lemma validatedReferences_ne_nil {plan : Dict} {label : String} {refs : List Value}
    (h : validatedReferences (plan.get "evidenceReferences") label true = .ok refs) :
    entries plan "evidenceReferences" ≠ [] := by
  unfold validatedReferences at h
  cases hxs : (plan.get "evidenceReferences").list? with
  | none => simp [hxs] at h
  | some xs =>
    simp only [hxs, bind_eq_ok, raiseIf_eq_ok, exists_const, Bool.true_and] at h
    rw [entries, hxs, Option.getD_some]
    rintro rfl
    simp at h

/-- What the check of a completion establishes. -/
lemma validateCompletion_spec {v : Value} {schedule : Option Dict} {principal : Principal}
    {plan : Option Dict} (h : validateCompletion v schedule principal = .ok plan) :
    v = planValue plan ∧ ∀ d, plan = some d → (∃ n : ℤ, Dict.get d "revision" = .int n) ∧
      entries d "evidenceReferences" ≠ [] ∧ ∃ s, schedule = some s ∧
        revisionMatches (Dict.get d "installationScheduleRevision") (s.get "revision") = true := by
  unfold validateCompletion at h
  split at h
  · rw [Except.ok.injEq] at h
    subst h
    exact ⟨rfl, fun d hd => by cases hd⟩
  · rename_i d
    split at h
    · cases h
    · rename_i s
      simp only [bind_eq_ok, raiseIf_eq_ok, pure_eq_ok, exists_const, Bool.not_eq_false'] at h
      obtain ⟨hrevision, hmatches, -, -, -, refs, hrefs, -, -, rfl⟩ := h
      refine ⟨rfl, fun d' hd' => ?_⟩
      obtain rfl := Option.some.inj hd'
      exact ⟨int_of_revision? hrevision, validatedReferences_ne_nil hrefs, s, rfl, hmatches⟩
  · cases h

/-- What the check of a closeout establishes. -/
lemma validateCloseout_spec {v : Value} {completion : Option Dict} {principal : Principal}
    {plan : Option Dict} (h : validateCloseout v completion principal = .ok plan) :
    v = planValue plan ∧ ∀ d, plan = some d → ∃ c, completion = some c ∧ ∃ n : ℤ,
      Dict.get d "installationCompletionRevision" = .int n ∧
        Value.same (.int n) (c.get "revision") = true := by
  unfold validateCloseout at h
  split at h
  · rw [Except.ok.injEq] at h
    subst h
    exact ⟨rfl, fun d hd => by cases hd⟩
  · rename_i d
    split at h
    · cases h
    · rename_i c
      simp only [bind_eq_ok, raiseIf_eq_ok, pure_eq_ok, exists_const, Bool.not_eq_false',
        Option.any_eq_true] at h
      obtain ⟨-, ⟨n, hn, hmatches⟩, -, -, -, refs, -, -, -, -, rfl⟩ := h
      refine ⟨rfl, fun d' hd' => ?_⟩
      obtain rfl := Option.some.inj hd'
      refine ⟨c, rfl, n, ?_, ?_⟩
      · cases hv : Dict.get d "installationCompletionRevision" <;> rw [hv] at hn <;> cases hn
        rfl
      · rw [Value.ne, Bool.not_not] at hmatches
        exact Value.same_of_eq hmatches
  · cases h

end Installation

/-! ### The handoffs -/

/-- What the handoff of the materials establishes: of the payload, and against a stored one. -/
lemma validateMaterialsHandoff_spec {payload : Dict} {currentPayload : Option Dict}
    {principal : Principal} {status : DeliveryStatus}
    (h : validateMaterialsHandoff payload currentPayload principal status = .ok ()) :
    ∃ plan, payload.get "materialsPlan" = planValue plan ∧ (∀ d, plan = some d → MaterialsPlan d) ∧
      (materialsFrozen status = true → plan.isSome) ∧
      ∀ stored, currentPayload = some stored → ∃ currentPlan currentStatus,
        stored.get "materialsPlan" = planValue currentPlan ∧
        hashedName deliveryStatuses (stored.get "status") = .ok currentStatus ∧
        requireMaterialsHandoff payload principal status plan currentPlan currentStatus =
          .ok () := by
  simp only [validateMaterialsHandoff, bind_eq_ok, raiseIf_eq_ok, exists_const] at h
  obtain ⟨plan, hplan, -, hrequired, h⟩ := h
  obtain ⟨hget, hspec⟩ := validateMaterialsPlan_spec hplan
  refine ⟨plan, hget, hspec, fun hfrozen => ?_, ?_⟩
  · rw [hfrozen, Bool.true_and] at hrequired
    cases plan with
    | none => cases hrequired
    | some d => rfl
  · rintro stored rfl
    simp only [bind_eq_ok] at h
    obtain ⟨currentPlan, hcurrent, currentStatus, hstatus, hhandoff⟩ := h
    exact ⟨currentPlan, currentStatus, (validateMaterialsPlan_spec hcurrent).1, hstatus, hhandoff⟩

/-- What readiness for production establishes. -/
lemma requireProductionReady_spec {plan : Option Dict} (h : requireProductionReady plan = .ok ()) :
    ∃ d, plan = some d ∧ AllIn (entries d "requirements") "available" := by
  cases plan with
  | none => cases h
  | some d =>
    rw [requireProductionReady, raiseIf_eq_ok] at h
    exact ⟨d, rfl, allIn_of_any h⟩

/-- What the handoff of the procurement establishes: of the payload, and against a stored one. -/
lemma validateProcurementHandoff_spec {payload : Dict} {currentPayload : Option Dict}
    {principal : Principal} {status : DeliveryStatus}
    (h : validateProcurementHandoff payload currentPayload principal status = .ok ()) :
    ∃ materials plan, payload.get "materialsPlan" = planValue materials ∧
      payload.get "procurementPlan" = planValue plan ∧
      (∀ d, plan = some d → (∃ n : ℤ, Dict.get d "revision" = .int n) ∧
        ∃ m, materials = some m ∧ Procures d m) ∧
      (procurementFrozen status = true →
        ∃ d, plan = some d ∧ AllIn (entries d "requirements") "available") ∧
      ∀ stored, currentPayload = some stored → ∃ currentPlan currentStatus,
        stored.get "procurementPlan" = planValue currentPlan ∧
        hashedName deliveryStatuses (stored.get "status") = .ok currentStatus ∧
        requireProcurementHandoff payload principal status plan currentPlan currentStatus =
          .ok () := by
  simp only [validateProcurementHandoff, bind_eq_ok, raiseIf_eq_ok, exists_const,
    ite_bind_eq_ok] at h
  obtain ⟨materials, hmaterials, plan, hplan, -, _, hready, h⟩ := h
  obtain ⟨hgetMaterials, hspecMaterials⟩ := validateMaterialsPlan_spec hmaterials
  obtain ⟨hget, hspec⟩ := validateProcurementPlan_spec hplan
  refine ⟨materials, plan, hgetMaterials, hget, fun d hd => ?_, fun hfrozen => ?_, ?_⟩
  · obtain ⟨hrevision, m, hm, hprocures⟩ := hspec d hd
    exact ⟨hrevision, m, hm, hprocures (hspecMaterials m hm)⟩
  · rw [if_pos hfrozen] at hready
    exact requireProductionReady_spec hready
  · rintro stored rfl
    simp only [bind_eq_ok] at h
    obtain ⟨currentMaterials, -, currentPlan, hcurrent, currentStatus, hstatus, hhandoff⟩ := h
    exact ⟨currentPlan, currentStatus, (validateProcurementPlan_spec hcurrent).1, hstatus,
      hhandoff⟩

/-- What readiness for installation establishes. -/
lemma Production.requireInstallationReady_spec {plan : Option Dict}
    (h : Production.requireInstallationReady plan = .ok ()) :
    ∃ d, plan = some d ∧ AllIn (entries d "steps") "complete" := by
  cases plan with
  | none => cases h
  | some d =>
    rw [Production.requireInstallationReady, raiseIf_eq_ok] at h
    exact ⟨d, rfl, allIn_of_any h⟩

/-- What the handoff of the production establishes: of the payload, and against a stored one. -/
lemma Production.validateProductionHandoff_spec {payload : Dict} {currentPayload : Option Dict}
    {principal : Principal} {status : DeliveryStatus}
    (h : Production.validateProductionHandoff payload currentPayload principal status = .ok ()) :
    ∃ plan, payload.get "productionPlan" = planValue plan ∧
      (∀ d, plan = some d → (∃ n : ℤ, Dict.get d "revision" = .int n) ∧
        ∃ procurement : Dict, payload.get "procurementPlan" = .dict procurement ∧
          revisionMatches (Dict.get d "procurementPlanRevision") (procurement.get "revision") =
            true) ∧
      (Production.frozen status = true →
        ∃ d, plan = some d ∧ AllIn (entries d "steps") "complete") ∧
      ∀ stored, currentPayload = some stored → ∃ currentPlan currentStatus,
        stored.get "productionPlan" = planValue currentPlan ∧
        hashedName deliveryStatuses (stored.get "status") = .ok currentStatus ∧
        Production.requireHandoff payload principal status plan currentPlan currentStatus =
          .ok () := by
  simp only [Production.validateProductionHandoff, bind_eq_ok, raiseIf_eq_ok, exists_const,
    ite_bind_eq_ok] at h
  obtain ⟨plan, hplan, -, _, hready, h⟩ := h
  obtain ⟨hget, hspec⟩ := Production.validatePlan_spec hplan
  refine ⟨plan, hget, hspec, fun hfrozen => ?_, ?_⟩
  · rw [if_pos hfrozen] at hready
    exact Production.requireInstallationReady_spec hready
  · rintro stored rfl
    simp only [bind_eq_ok] at h
    obtain ⟨currentPlan, hcurrent, currentStatus, hstatus, hhandoff⟩ := h
    exact ⟨currentPlan, currentStatus, (Production.validatePlan_spec hcurrent).1, hstatus, hhandoff⟩

namespace Installation

/-- The records are those of a payload. -/
structure Records.Of (r : Records) (payload : Dict) : Prop where
  schedule : payload.get "installationSchedule" = planValue r.schedule
  completion : payload.get "installationCompletion" = planValue r.completion
  closeout : payload.get "deliveryCloseout" = planValue r.closeout

/-- The records of a payload name the revisions of the plans before them. -/
structure Records.Linked (r : Records) (payload : Dict) : Prop where
  schedule : ∀ d, r.schedule = some d → (∃ n : ℤ, Dict.get d "revision" = .int n) ∧
    ∃ production : Dict, payload.get "productionPlan" = .dict production ∧
      revisionMatches (Dict.get d "productionPlanRevision") (production.get "revision") = true
  completion : ∀ d, r.completion = some d → entries d "evidenceReferences" ≠ [] ∧
    (∃ n : ℤ, Dict.get d "revision" = .int n) ∧
      ∃ s, r.schedule = some s ∧ RefersTo d "installationScheduleRevision" s
  closeout : ∀ d, r.closeout = some d →
    ∃ c, r.completion = some c ∧ RefersTo d "installationCompletionRevision" c

/-- What the handoff of the installation establishes: of the payload, and against a stored one. -/
lemma validateInstallationHandoff_spec {payload : Dict} {currentPayload : Option Dict}
    {principal : Principal} {status : DeliveryStatus}
    (h : validateInstallationHandoff payload currentPayload principal status = .ok ()) :
    ∃ r : Records, r.Of payload ∧ r.Linked payload ∧ requireStatusRecords status r = .ok () ∧
      ∀ stored, currentPayload = some stored →
        requireScheduleFreeze (some stored) principal r.schedule = .ok () ∧
        ∃ (current : Records) (currentStatus : Option DeliveryStatus), current.Of stored ∧
          hashedName deliveryStatuses (stored.get "status") = .ok currentStatus ∧
          requireHandoff payload principal status r current currentStatus = .ok () := by
  simp only [validateInstallationHandoff, bind_eq_ok] at h
  obtain ⟨schedule, hschedule, ⟨⟩, hfreeze, completion, hcompletion, closeout, hcloseout, ⟨⟩,
    hrecords, h⟩ := h
  obtain ⟨hget₁, hspec₁⟩ := validateSchedule_spec hschedule
  obtain ⟨hget₂, hspec₂⟩ := validateCompletion_spec hcompletion
  obtain ⟨hget₃, hspec₃⟩ := validateCloseout_spec hcloseout
  refine ⟨⟨schedule, completion, closeout⟩, ⟨hget₁, hget₂, hget₃⟩, ⟨hspec₁, ?_, ?_⟩, hrecords, ?_⟩
  · intro d hd
    obtain ⟨hrevision, hrefs, s, hs, hmatches⟩ := hspec₂ d hd
    obtain ⟨⟨n, hn⟩, -⟩ := hspec₁ s hs
    exact ⟨hrefs, hrevision, s, hs, refersTo_of_matches hmatches hn⟩
  · intro d hd
    obtain ⟨c, hc, n, hn, hsame⟩ := hspec₃ d hd
    obtain ⟨⟨m, hm⟩, -⟩ := hspec₂ c hc
    rw [hm, Value.same_int_iff] at hsame
    exact ⟨c, hc, m, hsame ▸ hn, hm⟩
  · rintro stored rfl
    simp only [bind_eq_ok] at h
    obtain ⟨schedule', hschedule', completion', hcompletion', closeout', hcloseout', currentStatus,
      hstatus, hhandoff⟩ := h
    exact ⟨hfreeze, ⟨schedule', completion', closeout'⟩, currentStatus,
      ⟨(validateSchedule_spec hschedule').1, (validateCompletion_spec hcompletion').1,
        (validateCloseout_spec hcloseout').1⟩, hstatus, hhandoff⟩

end Installation

/-! ### The payload -/

/-- What the validator establishes of the handoffs. -/
lemma validateDeliveryExecutionPayload_handoffs {payload : Dict} {currentPayload : Option Dict}
    {principal : Principal} {id : Str} {status : DeliveryStatus}
    (h : validateDeliveryExecutionPayload payload currentPayload principal id = .ok ())
    (hchain : Chain payload status) :
    validateMaterialsHandoff payload currentPayload principal status = .ok () ∧
      validateProcurementHandoff payload currentPayload principal status = .ok () ∧
      Production.validateProductionHandoff payload currentPayload principal status = .ok () ∧
      Installation.validateInstallationHandoff payload currentPayload principal status =
        .ok () := by
  simp only [validateDeliveryExecutionPayload, bind_eq_ok] at h
  obtain ⟨-, -, h⟩ := h
  split at h
  · cases h
  · rename_i status' hstatus
    have hname := findName_deliveryStatuses hstatus
    obtain rfl := DeliveryStatus.name_injective (hchain.spelled.symm.trans hname)
    simp only [bind_eq_ok, validateHandoffs, mapError_eq_ok] at h
    obtain ⟨-, -, -, -, -, -, -, -, -, -, -, -, -, -, ⟨⟩, ⟨⟨⟩, hmaterials, ⟨⟩, hprocurement, ⟨⟩,
      hproduction, hinstallation⟩, -⟩ := h
    exact ⟨hmaterials, hprocurement, hproduction, hinstallation⟩

/-- The statuses from procurement on. -/
lemma materialsFrozen_iff (status : DeliveryStatus) :
    materialsFrozen status = true ↔ DeliveryStatus.procurement.rank ≤ status.rank := by
  cases status <;> decide

/-- The statuses from production on. -/
lemma procurementFrozen_iff (status : DeliveryStatus) :
    procurementFrozen status = true ↔ DeliveryStatus.production.rank ≤ status.rank := by
  cases status <;> decide

/-- The statuses from readiness for installation on. -/
lemma Production.frozen_iff (status : DeliveryStatus) :
    Production.frozen status = true ↔ DeliveryStatus.readyForInstallation.rank ≤ status.rank := by
  cases status <;> decide

/-- The statuses from scheduled on. -/
lemma Installation.needsSchedule_iff (status : DeliveryStatus) :
    Installation.needsSchedule status = true ↔ DeliveryStatus.scheduled.rank ≤ status.rank := by
  cases status <;> decide

/-- The statuses from installed on. -/
lemma Installation.needsCompletion_iff (status : DeliveryStatus) :
    Installation.needsCompletion status = true ↔ DeliveryStatus.installed.rank ≤ status.rank := by
  cases status <;> decide

/-- What each status requires of the installation records. -/
lemma Installation.requireStatusRecords_spec {status : DeliveryStatus} {r : Records}
    (h : requireStatusRecords status r = .ok ()) :
    (DeliveryStatus.scheduled.rank ≤ status.rank → ∃ d, r.schedule = some d) ∧
      (DeliveryStatus.installed.rank ≤ status.rank → ∃ d, r.completion = some d) ∧
      ((∃ d, r.closeout = some d) ↔ status = .complete) := by
  simp only [requireStatusRecords, bind_eq_ok, raiseIf_eq_ok, exists_const,
    Bool.and_eq_false_iff] at h
  obtain ⟨-, hschedule, -, hcompletion, hearly, hlate⟩ := h
  rw [← needsSchedule_iff, ← needsCompletion_iff]
  refine ⟨fun hneeds => ?_, fun hneeds => ?_, ?_⟩
  · rcases hschedule with hno | hsome
    · exact absurd hneeds (by rw [hno]; exact Bool.false_ne_true)
    · simpa [Option.isSome_iff_exists] using hsome
  · rcases hcompletion with hno | hsome
    · exact absurd hneeds (by rw [hno]; exact Bool.false_ne_true)
    · simpa [Option.isSome_iff_exists] using hsome
  · constructor
    · rintro ⟨d, hd⟩
      rcases hearly with hcomplete | hnone
      · simpa using hcomplete
      · simp [hd] at hnone
    · rintro rfl
      rcases hlate with hno | hsome
      · simp at hno
      · simpa [Option.isSome_iff_exists] using hsome

/-- **Consistency of payloads.** What the validator accepts is consistent.

**Proof sketch.** Each handoff checks its plan against the plan before it in the same payload, and
that the status has the plans it needs; the stored payload plays no part in these checks. -/
theorem validateDeliveryExecutionPayload_consistent {payload : Dict}
    {currentPayload : Option Dict} {principal : Principal} {id : Str}
    (h : validateDeliveryExecutionPayload payload currentPayload principal id = .ok ()) :
    ∃ status, Consistent payload status := by
  obtain ⟨status, hchain, -⟩ := validateDeliveryExecutionPayload_spec h
  obtain ⟨h₁, h₂, h₃, h₄⟩ := validateDeliveryExecutionPayload_handoffs h hchain
  obtain ⟨materials, hgetM, -, hneedsM, -⟩ := validateMaterialsHandoff_spec h₁
  obtain ⟨materials', procurement, hgetM', hgetP, hspecP, hneedsP, -⟩ :=
    validateProcurementHandoff_spec h₂
  obtain ⟨production, hgetW, hspecW, hneedsW, -⟩ := Production.validateProductionHandoff_spec h₃
  obtain ⟨r, hof, hlinked, hrecords, -⟩ := Installation.validateInstallationHandoff_spec h₄
  obtain ⟨hneedsS, hneedsC, hcloseout⟩ := Installation.requireStatusRecords_spec hrecords
  have hatM := planAt_of_get hgetM
  have hatM' := planAt_of_get hgetM'
  have hatP := planAt_of_get hgetP
  have hatW := planAt_of_get hgetW
  have hatS := planAt_of_get hof.schedule
  have hatC := planAt_of_get hof.completion
  have hatO := planAt_of_get hof.closeout
  refine ⟨status, hchain, ?_, ?_, ?_, ?_, ?_, ?_, ?_, ?_, ?_, ?_, ?_, ?_⟩
  · simp only [planKeys, List.forall_mem_cons]
    exact ⟨shaped_of_get hgetM, shaped_of_get hgetP, shaped_of_get hgetW,
      shaped_of_get hof.schedule, shaped_of_get hof.completion, shaped_of_get hof.closeout,
      fun key hkey => by cases hkey⟩
  · intro plan hplan
    rw [hatP] at hplan
    obtain ⟨-, m, hm, hprocures⟩ := hspecP plan hplan
    exact ⟨m, hatM'.trans hm, hprocures⟩
  · intro plan hplan
    rw [hatW] at hplan
    obtain ⟨-, d, hd, hmatches⟩ := hspecW plan hplan
    have hat : planAt payload "procurementPlan" = some d := by rw [planAt, hd]; rfl
    obtain ⟨⟨n, hn⟩, -⟩ := hspecP d (hatP.symm.trans hat)
    exact ⟨d, hat, refersTo_of_matches hmatches hn⟩
  · intro plan hplan
    rw [hatS] at hplan
    obtain ⟨-, d, hd, hmatches⟩ := hlinked.schedule plan hplan
    have hat : planAt payload "productionPlan" = some d := by rw [planAt, hd]; rfl
    obtain ⟨⟨n, hn⟩, -⟩ := hspecW d (hatW.symm.trans hat)
    exact ⟨d, hat, refersTo_of_matches hmatches hn⟩
  · intro plan hplan
    rw [hatC] at hplan
    obtain ⟨-, -, s, hs, hrefers⟩ := hlinked.completion plan hplan
    exact ⟨s, hatS.trans hs, hrefers⟩
  · intro plan hplan
    rw [hatO] at hplan
    obtain ⟨c, hc, hrefers⟩ := hlinked.closeout plan hplan
    exact ⟨c, hatC.trans hc, hrefers⟩
  · rw [← materialsFrozen_iff]
    intro hfrozen
    obtain ⟨d, hd⟩ := Option.isSome_iff_exists.mp (hneedsM hfrozen)
    exact ⟨d, hatM.trans hd⟩
  · rw [← procurementFrozen_iff]
    intro hfrozen
    obtain ⟨d, hd, hready⟩ := hneedsP hfrozen
    exact ⟨d, hatP.trans hd, hready⟩
  · rw [← Production.frozen_iff]
    intro hfrozen
    obtain ⟨d, hd, hready⟩ := hneedsW hfrozen
    exact ⟨d, hatW.trans hd, hready⟩
  · intro hrank
    obtain ⟨d, hd⟩ := hneedsS hrank
    exact ⟨d, hatS.trans hd⟩
  · intro hrank
    obtain ⟨d, hd⟩ := hneedsC hrank
    exact ⟨d, hatC.trans hd, (hlinked.completion d hd).1⟩
  · rw [hatO]
    exact hcloseout

end Delivery

/-! ### Runs -/

/-- Every stored delivery is consistent. -/
def DeliveriesConsistent (db : Db) : Prop :=
  ∀ org id payload, storedPayload db (org, .deliveryExecution, id) = some payload →
    ∃ status, Delivery.Consistent payload.items status

/-- **Step.** A step keeps the deliveries consistent: a delivery that it stores was validated. -/
lemma RecordStep.Valid.deliveriesConsistent {env : Env} {s : RecordStep} (h : s.Valid env)
    (hbefore : DeliveriesConsistent s.before.db) : DeliveriesConsistent s.after.db := by
  intro org id after hafter
  exact h.delivery_after (P := fun d => ∃ status, Delivery.Consistent d status)
    Delivery.validateDeliveryExecutionPayload_consistent hafter (hbefore org id after)

/-- **Stored deliveries are consistent.** In every state that a run of pushes reaches, the status of
every stored delivery is where its events end, its plans name each other's revisions, procurement
covers the materials, and the plans that the status needs are there. -/
theorem runPushes_deliveriesConsistent (env : Env) (inputs : List PushInput) (db : Db)
    (hdb : DeliveriesConsistent db) : DeliveriesConsistent (runPushes env inputs db) :=
  runPushes_inv hdb fun _ hs hbefore => (runSteps_valid hs).1.deliveriesConsistent hbefore

namespace Sample

/-- The key of the sample delivery. -/
def deliveryKey : EntityKey := ("o", .deliveryExecution, "v")

/-- The materials of the sample delivery. -/
def materialsPlan : Value :=
  .dict (("revision", .int 1) :: ("updatedAt", .str "2") ::
    ("requirements", .list [.dict [("id", .str "x"), ("description", .str "glass"),
      ("unit", .str "pane"), ("quantity", .int 3)]]) :: provenance)

/-- A procurement plan for them, with one requirement. -/
def procurementPlan (revision : ℤ) (updatedAt : String) (requirement : Dict) : Value :=
  .dict (("revision", .int revision) :: ("materialsPlanRevision", .int 1) ::
    ("updatedAt", .str updatedAt) ::
    ("requirements", .list [.dict (("requirementID", .str " x ") :: requirement)]) :: provenance)

/-- The sample delivery in procurement. -/
def procured (mutationID : String) (base : Option ℕ) (updatedAt : String) (events : List Value)
    (plan : Value) : PushInput :=
  input (record .deliveryExecution "v" mutationID base
    [("id", .str "v"), ("status", .str "procurement"), ("startedAt", .str "1"),
      ("updatedAt", .str updatedAt), ("projectID", .str "p"), ("customerID", .str "c"),
      ("quotationID", .str "q"), ("quotationRevision", .int 1), ("quotedTotal", .int 1),
      ("materialsPlan", materialsPlan), ("procurementPlan", plan), ("events", .list events)])

/-- The third event of the sample delivery. -/
def listed : Value := deliveryEvent "3" (.str "materialsRequired") "procurement"

/-- It is created with a shortage. -/
def short : List PushInput :=
  approved ++ [procured "6" none "3" [opened, reviewed, listed]
    (procurementPlan 1 "3" [("status", .str "shortage"), ("shortageQuantity", .str "2.5")])]

end Sample

/-- A delivery that is created in procurement with a shortage is consistent. -/
theorem runPushes_deliveriesConsistent_sample :
    DeliveriesConsistent (runPushes Sample.env Sample.short Sample.db) ∧
      ∃ payload, storedPayload (runPushes Sample.env Sample.short Sample.db) Sample.deliveryKey =
        some payload ∧ (Delivery.planAt payload.items "procurementPlan").isSome := by
  have hstored : ((storedPayload (runPushes Sample.env Sample.short Sample.db)
      Sample.deliveryKey).any fun payload =>
        (Delivery.planAt payload.items "procurementPlan").isSome) = true := by
    decide +kernel
  refine ⟨runPushes_deliveriesConsistent Sample.env Sample.short Sample.db ?_,
    (Option.any_eq_true _ _).mp hstored⟩
  intro org id payload hstored
  cases hstored

end VitrialSync
