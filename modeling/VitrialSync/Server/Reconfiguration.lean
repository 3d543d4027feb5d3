import VitrialSync.Server.History

set_option relaxedAutoImplicit false
set_option autoImplicit false

/-!
# The capability gate of configurations

A configuration becomes complete with the capability to finalize and leaves that status with the
capability to reopen. The previous status is looked up by the `id` of the payload as it stands,
while the identity check compares the stripped `id` with the entity; for an `id` with white space
around it the lookup finds nothing, and a complete configuration can be reopened without the
capability.

## Main definitions

* `VitrialSync.Payload.IsComplete` — the status of a payload is `complete`.
* `VitrialSync.RecordStep.Gated` — the gate, for one step.

## Main results

* `VitrialSync.runSteps_gated` — every step of a run whose configurations carry their `id` without
  white space around it is gated.
-/

namespace VitrialSync

open Python Program

/-- The status of a payload is `complete`. -/
def Payload.IsComplete (payload : Payload) : Prop :=
  payload.items.get "status" = .str (Str.ofString "complete")

namespace RecordStep

/-- A step that takes its entity out of `complete` needs the capability to reopen, and one that
makes it complete the capability to finalize. -/
structure Gated (s : RecordStep) : Prop where
  reopen : ∀ before after, storedPayload s.before.db s.key = some before → before.IsComplete →
    storedPayload s.after.db s.key = some after → ¬ after.IsComplete →
      s.input.principal.holds .itemConfigurationReopen = true
  finalize : ∀ after, (∀ before, storedPayload s.before.db s.key = some before →
      ¬ before.IsComplete) →
    storedPayload s.after.db s.key = some after → after.IsComplete →
      s.input.principal.holds .itemConfigurationFinalize = true

/-- The `id` of the payload of a fresh upsert has no white space around it. -/
def ExactId (env : Env) (s : RecordStep) : Prop :=
  s.record.deletedAt = none → s.Unanswered → staleRevision s.record s.current = false →
    ∀ payload, decodePayload env s.record.payload = .ok payload →
      ∀ id : Str, payload.items.get "id" = .str id → id.strip = id

variable {env : Env} {s : RecordStep} {payload : Payload} {grant : Authorized} {applied : Working}

/-- The checks on a committed configuration: its stripped `id` is the entity, and the change of
its status is covered by a capability. -/
lemma Commits.configuration (h : s.Commits env payload grant applied)
    (htype : s.record.entityType = .configuration) (hupsert : s.record.deletedAt = none) :
    Ownership.requireIdentity payload.items s.record.entityID.text false = .ok () ∧
      Ownership.requireCompletionCapability s.input.principal
        ((payload.items.get "status").isStr "complete")
        ((Ownership.previousConfiguration s.before.db s.input.principal payload.items
          s.record.entityID.text).any fun current =>
            (current.items.get "status").isStr "complete") = .ok () := by
  obtain ⟨-, -, ⟨hdelivery, -⟩ | ⟨-, -, plan, hplan, -⟩⟩ :=
    authorize_eq_ok_iff.mp h.admitted.authorized
  · rw [htype] at hdelivery
    cases hdelivery
  · rw [htype, hupsert] at hplan
    simp only [Ownership.authorizeRecord, Ownership.authorizeItemChild, bind_eq_ok] at hplan
    obtain ⟨-, -, -, -, -, -, -, -, ⟨⟩, hidentity, itemId, -, found, -, ⟨⟩, hcontent, -⟩ := hplan
    refine ⟨hidentity, ?_⟩
    simp only [Ownership.authorizeItemChildContent, Ownership.itemChildCapability,
      Option.isSome_none, bind_eq_ok, Ownership.authorizeConfiguration, ↓reduceIte] at hcontent
    obtain ⟨-, -, ⟨⟩, hcompletion, -⟩ := hcontent
    exact hcompletion

/-- The payload of an accepted upsert names its entity, up to white space. -/
lemma requireIdentity_eq_ok {payload : Dict} {entityId : Str}
    (h : Ownership.requireIdentity payload entityId false = .ok ()) :
    ∃ id : Str, payload.get "id" = .str id ∧ id.strip = entityId := by
  simp only [Ownership.requireIdentity, raiseIf_eq_ok, Bool.false_and, Bool.not_false,
    Bool.true_and, Bool.not_eq_false', Option.any_eq_true, beq_iff_eq] at h
  obtain ⟨id, hid, hstrip⟩ := h
  refine ⟨id, ?_, hstrip⟩
  cases hv : payload.get "id" <;> simp [hv, Value.str?] at hid
  rw [hid]

/-- With the exact `id`, the previous configuration is the stored one. -/
lemma previousConfiguration_exact {db : Db} {principal : Principal} {payload : Dict} {id : Str}
    (h : payload.get "id" = .str id) :
    Ownership.previousConfiguration db principal payload id =
      storedPayload db (principal.organizationId, .configuration, id) := by
  have hlookup : payload.getOr "id" (.str id) = .str id := by
    unfold Dict.getOr
    unfold Dict.get at h
    cases hl : payload.lookup (Str.ofString "id") with
    | none => rfl
    | some v => simpa [hl] using h
  simp only [Ownership.previousConfiguration, hlookup, Value.str?, Option.bind_some]
  rfl

/-- **Step.** A configuration whose payload carries its exact `id` is gated. -/
lemma Valid.gated (h : s.Valid env) (htype : s.record.entityType = .configuration)
    (hexact : s.ExactId env) : s.Gated := by
  rcases h.keeps_or_commits with hkeeps | ⟨payload, grant, applied, hcommits⟩
  · have hsame : storedPayload s.after.db s.key = storedPayload s.before.db s.key := by
      rw [storedPayload, storedPayload, hkeeps.entities]
    constructor
    · intro before after hbefore hcomplete hafter hnot
      rw [hsame, hbefore] at hafter
      exact absurd hcomplete (Option.some.inj hafter ▸ hnot)
    · intro after hnever hafter hcomplete
      exact absurd hcomplete (hnever after (hsame ▸ hafter))
  have hafter : ∀ after, storedPayload s.after.db s.key = some after →
      s.record.deletedAt = none ∧ after = payload := by
    intro after hafter
    rw [hcommits.storedPayload_self] at hafter
    split_ifs at hafter with hupsert
    exact ⟨Option.isNone_iff_eq_none.mp hupsert, (Option.some.inj hafter).symm⟩
  have hcheck : s.record.deletedAt = none →
      Ownership.requireCompletionCapability s.input.principal
        ((payload.items.get "status").isStr "complete")
        ((storedPayload s.before.db s.key).any fun current =>
          (current.items.get "status").isStr "complete") = .ok () := by
    intro hupsert
    obtain ⟨hidentity, hcompletion⟩ := hcommits.configuration htype hupsert
    obtain ⟨id, hid, hstrip⟩ := requireIdentity_eq_ok hidentity
    have hunpadded := hexact hupsert hcommits.unanswered hcommits.fresh payload
      hcommits.admitted.decoded id hid
    obtain rfl : id = s.record.entityID.text := hunpadded.symm.trans hstrip
    rw [previousConfiguration_exact hid] at hcompletion
    rwa [key, htype]
  constructor
  · intro before after hbefore hcomplete hstored hnot
    obtain ⟨hupsert, rfl⟩ := hafter after hstored
    have hcapability := hcheck hupsert
    have hwas : (before.items.get "status").isStr "complete" = true :=
      (Value.isStr_iff _ _).mpr hcomplete
    have his : (after.items.get "status").isStr "complete" = false :=
      Bool.eq_false_iff.mpr fun h => hnot ((Value.isStr_iff _ _).mp h)
    simpa [Ownership.requireCompletionCapability, hbefore, hwas, his,
      Ownership.requireCapability] using hcapability
  · intro after hnever hstored hcomplete
    obtain ⟨hupsert, rfl⟩ := hafter after hstored
    have hcapability := hcheck hupsert
    have hwas : ((storedPayload s.before.db s.key).any fun current =>
        (current.items.get "status").isStr "complete") = false := by
      refine Bool.eq_false_iff.mpr fun h => ?_
      obtain ⟨before, hbefore, hwas⟩ := (Option.any_eq_true _ _).mp h
      exact hnever before hbefore ((Value.isStr_iff _ _).mp hwas)
    have his : (after.items.get "status").isStr "complete" = true :=
      (Value.isStr_iff _ _).mpr hcomplete
    simpa [Ownership.requireCompletionCapability, hwas, his, Ownership.requireCapability] using
      hcapability

end RecordStep

/-- **The gate of configurations.** In every run whose fresh upserts of configurations carry an `id`
without white space around it, every step on a configuration is gated. -/
theorem runSteps_gated (env : Env) (inputs : List PushInput) (db : Db)
    (hexact : ∀ s ∈ runSteps env inputs db, s.record.entityType = .configuration →
      s.ExactId env) :
    ∀ s ∈ runSteps env inputs db, s.record.entityType = .configuration → s.Gated :=
  fun s hs htype => (runSteps_valid hs).1.gated htype (hexact s hs htype)

/-- The sample configuration. -/
def Sample.configuration (mutationID : String) (base : Option ℕ) (id status : String) : PushInput :=
  input (record .configuration "k" mutationID base
    [("id", .str id), ("itemID", .str "i"), ("status", .str status)])

/-- It is completed. -/
def Sample.completed : List PushInput := setup ++ [configuration "5" none "k" "complete"]

/-- An `id` with white space around it takes the sample configuration out of `complete`, by a
principal that may not reopen it. -/
theorem runSteps_not_gated :
    ∃ s ∈ runSteps Sample.env
        (Sample.completed ++ [Sample.configuration "6" (some 5) " k " "draft"]) Sample.db,
      s.outcome.accepted = true ∧ s.record.entityType = .configuration ∧ ¬ s.Gated := by
  have hrun : ((runSteps Sample.env (Sample.completed ++
      [Sample.configuration "6" (some 5) " k " "draft"]) Sample.db).any fun s =>
        s.outcome.accepted && decide (s.record.entityType = .configuration) &&
          !s.input.principal.holds .itemConfigurationReopen &&
          (storedPayload s.before.db s.key).any (fun p =>
            (p.items.get "status").isStr "complete") &&
          (storedPayload s.after.db s.key).any fun p =>
            !(p.items.get "status").isStr "complete") = true := by
    decide +kernel
  obtain ⟨s, hs, hstep⟩ := List.any_eq_true.mp hrun
  simp only [Bool.and_eq_true, decide_eq_true_eq, Option.any_eq_true, Bool.not_eq_true',
    Value.isStr_iff] at hstep
  obtain ⟨⟨⟨⟨haccepted, htype⟩, hlacks⟩, before, hbefore, hcomplete⟩, after, hafter, hnot⟩ := hstep
  refine ⟨s, hs, haccepted, htype, fun hgated => ?_⟩
  have hreopen := hgated.reopen before after hbefore hcomplete hafter fun h => by
    rw [(Value.isStr_iff _ _).mpr h] at hnot
    cases hnot
  rw [hreopen] at hlacks
  cases hlacks

/-- With the exact `id` every step on the sample configuration is gated. -/
theorem runSteps_gated_sample :
    ¬ ∃ s ∈ runSteps Sample.env
        (Sample.completed ++ [Sample.configuration "6" (some 5) "k" "draft"]) Sample.db,
      s.record.entityType = .configuration ∧ ¬ s.Gated := by
  have hexact : ∀ s ∈ runSteps Sample.env
      (Sample.completed ++ [Sample.configuration "6" (some 5) "k" "draft"]) Sample.db,
      ((decodePayload Sample.env s.record.payload).toOption.all fun payload =>
        (payload.items.get "id").str?.all fun id => id.strip == id) = true := by
    decide +kernel
  rintro ⟨t, ht, htype, hnot⟩
  refine hnot (runSteps_gated Sample.env _ Sample.db (fun s hs _ _ _ _ payload hdecoded id hid => ?_)
    t ht htype)
  simpa [hdecoded, Except.toOption, hid, Value.str?] using hexact s hs

end VitrialSync
