import VitrialSync.Program.Graded
import VitrialSync.Server.History

set_option relaxedAutoImplicit false
set_option autoImplicit false

/-!
# Replacement quotations

A quotation of revision `r > 1` names the quotation it replaces, which had revision `r - 1` when the
replacement was created. Revision and predecessor of a stored quotation never change in an update.
A tombstone drops both, and an upsert over the tombstone chooses them anew, so that quotations can
replace each other in a circle; they cannot when such an upsert keeps the revision that its
successors count on.

## Main definitions

* `VitrialSync.Supersedes` — a stored quotation names a stored predecessor.
* `VitrialSync.QuotationsContiguous` — every stored quotation is one revision above its predecessor.
* `VitrialSync.RecordStep.KeepsSuccessors` — an upsert over a tombstone is one revision below the
  quotations that name it.

## Main results

* `VitrialSync.QuotationsContiguous.chain` — along predecessors the revisions go down by one, and
  no quotation comes back.
* `VitrialSync.runPushes_supersession` — so it is after every run whose upserts over tombstones keep
  their successors.
-/

namespace VitrialSync

open Python Program

/-! ### Supersession -/

/-- The revision of a quotation, one when it has none. -/
def quotationRevision? (payload : Dict) : Option ℤ := (Lifecycle.quotationRevision payload).toOption

/-- The quotation that a quotation replaces. -/
def predecessorId (payload : Dict) : Option Str := normalized (payload.get "supersedesQuotationID")

/-- The payload of a quotation. -/
def storedQuotation (db : Db) (org id : Str) : Option Payload :=
  storedPayload db (org, .quotation, id)

/-- A stored quotation names a stored predecessor. -/
def Supersedes (db : Db) (org : Str) (id predecessor : Str) : Prop :=
  (∃ payload, storedQuotation db org id = some payload ∧
    predecessorId payload.items = some predecessor) ∧
  ∃ payload, storedQuotation db org predecessor = some payload

/-- The revision of a stored quotation. -/
def storedRevision (db : Db) (org id : Str) : ℤ :=
  ((storedQuotation db org id).bind fun payload => quotationRevision? payload.items).getD 0

/-- A quotation with its revision: the first has no predecessor, a later one has a predecessor with
a row, which has the revision before when it has a payload. -/
structure Contiguous (db : Db) (org : Str) (payload : Dict) (revision : ℤ) : Prop where
  numbered : quotationRevision? payload = some revision
  positive : 1 ≤ revision
  first : revision = 1 → predecessorId payload = none
  later : 1 < revision → ∃ predecessor, predecessorId payload = some predecessor ∧
    (db.entities.get (org, .quotation, predecessor)).isSome
  before : ∀ predecessor stored, predecessorId payload = some predecessor →
    storedQuotation db org predecessor = some stored →
      quotationRevision? stored.items = some (revision - 1)

/-- Every stored quotation is one revision above its predecessor. -/
def QuotationsContiguous (db : Db) : Prop :=
  ∀ org id payload, storedQuotation db org id = some payload →
    ∃ revision, Contiguous db org payload.items revision

namespace QuotationsContiguous

variable {db : Db} {org : Str}

/-- The revision of a stored quotation. -/
lemma storedRevision_eq {id : Str} {payload : Payload} {revision : ℤ}
    (hstored : storedQuotation db org id = some payload)
    (hrevision : quotationRevision? payload.items = some revision) :
    storedRevision db org id = revision := by
  rw [storedRevision, hstored, Option.bind_some, hrevision, Option.getD_some]

/-- Along predecessors the revision goes down by one. -/
lemma graded (h : QuotationsContiguous db) (org : Str) :
    Graded (Supersedes db org) (storedRevision db org) := by
  rintro id predecessor ⟨⟨payload, hpayload, hnames⟩, stored, hstored⟩
  obtain ⟨revision, hrevision⟩ := h org id payload hpayload
  rw [storedRevision_eq hpayload hrevision.numbered,
    storedRevision_eq hstored (hrevision.before predecessor stored hnames hstored)]

/-- A stored quotation has a positive revision. -/
lemma positive (h : QuotationsContiguous db) {id : Str} {payload : Payload}
    (hstored : storedQuotation db org id = some payload) : 1 ≤ storedRevision db org id := by
  obtain ⟨revision, hrevision⟩ := h org id payload hstored
  rw [storedRevision_eq hstored hrevision.numbered]
  exact hrevision.positive

/-- **Chains.** Following the predecessors of a quotation, the revisions go down by one and no
quotation comes back; there is no endless chain. -/
lemma chain (h : QuotationsContiguous db) (org : Str) :
    (∀ id ids, (id :: ids).IsChain (Supersedes db org) → (id :: ids).Nodup ∧
      ∀ (i : ℕ) b, (id :: ids)[i]? = some b →
        storedRevision db org b = storedRevision db org id - i) ∧
    WellFounded fun predecessor id => Supersedes db org id predecessor := by
  refine ⟨fun id ids hchain => ⟨?_, fun i b hi => ?_⟩, ?_⟩
  · exact (h.graded org).nodup_of_chain hchain
  · exact (h.graded org).rank_of_chain hchain hi
  · refine (h.graded org).wellFounded fun id predecessor hid => ?_
    obtain ⟨-, stored, hstored⟩ := hid
    have hpositive := h.positive hstored
    omega

end QuotationsContiguous

/-! ### One step -/

section Step

variable {env : Env} {s : RecordStep} {payload : Payload} {grant : Authorized} {applied : Working}

/-- The revision of an update is that of the stored quotation, and so is its predecessor. -/
lemma requireSameQuotation_spec {payload stored : Dict} {revision : ℤ} {supersedes : Option Str}
    (h : Lifecycle.requireSameQuotation payload stored revision supersedes = .ok ()) :
    quotationRevision? stored = some revision ∧ predecessorId stored = supersedes := by
  simp only [Lifecycle.requireSameQuotation, bind_eq_ok, raiseIf_eq_ok, bne_eq_false_iff_eq,
    exists_const] at h
  obtain ⟨current, hcurrent, rfl, hsupersedes, -⟩ := h
  rw [quotationRevision?, hcurrent]
  exact ⟨rfl, hsupersedes⟩

/-- A quotation that is created names an active predecessor one revision below it, and not itself,
or it is the first and names none. -/
lemma requirePredecessor_spec {db : Db} {principal : Principal} {payload : Dict} {id : Str}
    {revision : ℤ} {supersedes : Option Str}
    (h : Lifecycle.requirePredecessor db principal payload id revision supersedes = .ok ()) :
    (revision = 1 ∧ supersedes = none) ∨
      ∃ predecessor stored, supersedes = some predecessor ∧ predecessor ≠ id ∧
        storedQuotation db principal.organizationId predecessor = some stored ∧
        quotationRevision? stored.items = some (revision - 1) := by
  unfold Lifecycle.requirePredecessor at h
  split_ifs at h with hfirst
  · rw [raiseIf_eq_ok] at h
    exact Or.inl ⟨hfirst, by simpa using h⟩
  · split at h
    · cases h
    · rename_i predecessor
      simp only [bind_eq_ok, raiseIf_eq_ok, exists_const, beq_eq_false_iff_ne] at h
      obtain ⟨hother, h⟩ := h
      split at h
      · rename_i revision' stored updatedAt hrow
        simp only [bind_eq_ok, raiseIf_eq_ok, exists_const, bne_eq_false_iff_eq] at h
        obtain ⟨-, -, before, hbefore, rfl⟩ := h
        refine Or.inr ⟨predecessor, stored, rfl, hother, ?_, ?_⟩
        · rw [storedQuotation, storedPayload, hrow]
          rfl
        · rw [quotationRevision?, hbefore]
          rfl
      · cases h

/-- The record of a step at the key of a quotation is that quotation. -/
lemma RecordStep.quotation_of_key {org id : Str} (h : (org, EntityType.quotation, id) = s.key) :
    org = s.input.principal.organizationId ∧ s.record.entityType = .quotation ∧
      id = s.record.entityID.text := by
  rw [key, Prod.mk.injEq, Prod.mk.injEq] at h
  exact ⟨h.1, h.2.1.symm, h.2.2⟩

/-- The checks on a committed upsert of a quotation. -/
lemma RecordStep.Commits.quotation (h : s.Commits env payload grant applied)
    (htype : s.record.entityType = .quotation) (hupsert : s.record.deletedAt = none) :
    ∃ status history kinds states revision, Lifecycle.QuotationChecked s.before.db payload.items
      ((storedPayload s.before.db s.key).map Payload.items) s.input.principal
      s.record.entityID.text status history kinds states revision := by
  obtain ⟨-, -, ⟨hdelivery, -⟩ | ⟨-, hlifecycle, -⟩⟩ := authorize_eq_ok_iff.mp h.admitted.authorized
  · rw [htype] at hdelivery
    cases hdelivery
  · rw [hupsert, htype] at hlifecycle
    exact Lifecycle.validateQuotationLifecycle_checked hlifecycle

/-- A fresh upsert over the tombstone of a quotation is one revision below the quotations that name
it. -/
def RecordStep.KeepsSuccessors (env : Env) (s : RecordStep) : Prop :=
  s.record.entityType = .quotation → s.MeetsTombstone →
    ∀ payload revision, decodePayload env s.record.payload = .ok payload →
      quotationRevision? payload.items = some revision →
        ∀ id successor, storedQuotation s.before.db s.input.principal.organizationId id =
            some successor →
          predecessorId successor.items = some s.record.entityID.text →
            quotationRevision? successor.items = some (revision + 1)

/-- A revision that was read is positive. -/
lemma one_le_quotationRevision {payload : Dict} {revision : ℤ}
    (h : Lifecycle.quotationRevision payload = .ok revision) : 1 ≤ revision := by
  simp only [Lifecycle.quotationRevision, Lifecycle.quotationRevisionOr] at h
  split_ifs at h
  · rw [Except.ok.injEq] at h
    omega
  · split at h
    · split_ifs at h with hlow
      rw [Except.ok.injEq] at h
      omega
    · cases h

/-- What a committed upsert of a quotation meets: it is contiguous, it does not name itself, and the
quotations that name it are one revision above.

**Proof sketch.** An update keeps revision and predecessor of a contiguous quotation. A create names
an active predecessor one revision below; nothing names it when it has no row yet, and over a
tombstone the condition speaks of what names it. -/
lemma RecordStep.Commits.contiguous (h : s.Commits env payload grant applied)
    (htype : s.record.entityType = .quotation) (hupsert : s.record.deletedAt = none)
    (hkeeps : s.KeepsSuccessors env) (hbefore : QuotationsContiguous s.before.db) :
    ∃ revision, Contiguous s.before.db s.input.principal.organizationId payload.items revision ∧
      predecessorId payload.items ≠ some s.record.entityID.text ∧
      ∀ id successor, storedQuotation s.before.db s.input.principal.organizationId id =
          some successor →
        predecessorId successor.items = some s.record.entityID.text →
          quotationRevision? successor.items = some (revision + 1) := by
  obtain ⟨status, history, kinds, states, revision, hchecked⟩ := h.quotation htype hupsert
  have hnumbered : quotationRevision? payload.items = some revision := by
    rw [quotationRevision?, hchecked.readRevision]
    rfl
  have hkey : s.key = (s.input.principal.organizationId, .quotation, s.record.entityID.text) := by
    rw [key, htype]
  refine ⟨revision, ?_⟩
  cases hstored : storedPayload s.before.db s.key with
  | some stored =>
    obtain ⟨hrevision, hpredecessor⟩ := requireSameQuotation_spec
      (hchecked.same stored.items (by rw [hstored]; rfl))
    replace hpredecessor : predecessorId payload.items = predecessorId stored.items :=
      hpredecessor.symm
    rw [hkey] at hstored
    obtain ⟨revision', hcontiguous⟩ := hbefore _ _ stored hstored
    obtain rfl := Option.some.inj (hrevision.symm.trans hcontiguous.numbered)
    refine ⟨⟨hnumbered, hcontiguous.positive, ?_, ?_, ?_⟩, ?_, ?_⟩
    · rw [hpredecessor]
      exact hcontiguous.first
    · rw [hpredecessor]
      exact hcontiguous.later
    · rw [hpredecessor]
      exact hcontiguous.before
    · rw [hpredecessor]
      intro hself
      have hown := hcontiguous.before _ stored hself hstored
      rw [hrevision, Option.some.injEq] at hown
      omega
    · intro id successor hsuccessor hnames
      obtain ⟨r, hr⟩ := hbefore _ _ successor hsuccessor
      have hown := hr.before _ stored hnames hstored
      rw [hrevision, Option.some.injEq] at hown
      rw [hr.numbered, hown, sub_add_cancel]
  | none =>
    have hpositive := one_le_quotationRevision hchecked.readRevision
    have hcreate := requirePredecessor_spec (hchecked.predecessor (by rw [hstored]; rfl))
    change (_ ∧ predecessorId payload.items = none) ∨
      ∃ predecessor stored, predecessorId payload.items = some predecessor ∧ _ at hcreate
    refine ⟨⟨hnumbered, hpositive, ?_, ?_, ?_⟩, ?_, ?_⟩
    · intro hfirst
      rcases hcreate with ⟨-, hnone⟩ | ⟨predecessor, old, -, -, hold, hrevision⟩
      · exact hnone
      · obtain ⟨r, hr⟩ := hbefore _ _ old hold
        have hr' := Option.some.inj (hr.numbered.symm.trans hrevision)
        have hpos := hr.positive
        omega
    · intro hlater
      rcases hcreate with ⟨hfirst, -⟩ | ⟨predecessor, old, hnames, -, hold, -⟩
      · omega
      · refine ⟨predecessor, hnames, ?_⟩
        obtain ⟨e, he, -⟩ := Option.bind_eq_some_iff.mp hold
        rw [he]
        rfl
    · intro predecessor old hnames hold
      rcases hcreate with ⟨-, hnone⟩ | ⟨predecessor', old', hnames', -, hold', hrevision⟩
      · rw [hnone] at hnames
        cases hnames
      · obtain rfl := Option.some.inj (hnames.symm.trans hnames')
        obtain rfl := Option.some.inj (hold.symm.trans hold')
        exact hrevision
    · rcases hcreate with ⟨-, hnone⟩ | ⟨predecessor, old, hnames, hother, -⟩
      · rw [hnone]
        exact (Option.some_ne_none _).symm
      · rw [hnames]
        exact fun heq => hother (Option.some.inj heq)
    · intro id successor hsuccessor hnames
      cases hcurrent : s.current with
      | none =>
        -- a quotation that is named has a row
        obtain ⟨r, hr⟩ := hbefore _ _ successor hsuccessor
        by_cases hfirst : r = 1
        · rw [hr.first hfirst] at hnames
          cases hnames
        · obtain ⟨predecessor, hnames', hrow⟩ := hr.later (lt_of_le_of_ne hr.positive (Ne.symm hfirst))
          obtain rfl := Option.some.inj (hnames.symm.trans hnames')
          rw [← hkey] at hrow
          change (s.current).isSome = true at hrow
          rw [hcurrent] at hrow
          cases hrow
      | some e =>
        have htombstone : e.payloadJson = none := by
          rw [← current_payload, hcurrent] at hstored
          exact hstored
        exact hkeeps htype ⟨hupsert, h.unanswered, h.fresh, e, hcurrent, htombstone⟩ payload
          revision h.admitted.decoded hnumbered id successor hsuccessor hnames

/-- **Step.** A step whose upsert over a tombstone keeps the successors keeps the quotations
contiguous. -/
lemma RecordStep.Valid.quotationsContiguous (h : s.Valid env) (hkeeps : s.KeepsSuccessors env)
    (hbefore : QuotationsContiguous s.before.db) : QuotationsContiguous s.after.db := by
  intro org id after hafter
  rcases h.storedPayload_after hafter with hstored | ⟨hkey, hupsert, grant, applied, hcommits⟩
  · obtain ⟨revision, hr⟩ := hbefore org id after hstored
    refine ⟨revision, hr.numbered, hr.positive, hr.first, fun hlater => ?_, ?_⟩
    · obtain ⟨predecessor, hnames, hrow⟩ := hr.later hlater
      exact ⟨predecessor, hnames, h.row_kept hrow⟩
    · intro predecessor stored hnames hpredecessor
      rcases h.storedPayload_after hpredecessor with hold | ⟨hkey, hupsert, grant, applied, hcommits⟩
      · exact hr.before predecessor stored hnames hold
      · -- the step has rewritten the predecessor
        obtain ⟨rfl, htype, rfl⟩ := quotation_of_key hkey
        obtain ⟨revision', hr', -, hsuccessors⟩ :=
          hcommits.contiguous htype hupsert hkeeps hbefore
        have hown := hsuccessors id after hstored hnames
        rw [hr.numbered, Option.some.injEq] at hown
        rw [hr'.numbered, hown, add_sub_cancel_right]
  · obtain ⟨rfl, htype, rfl⟩ := quotation_of_key hkey
    obtain ⟨revision, hr, hself, -⟩ := hcommits.contiguous htype hupsert hkeeps hbefore
    refine ⟨revision, hr.numbered, hr.positive, hr.first, fun hlater => ?_, ?_⟩
    · obtain ⟨predecessor, hnames, hrow⟩ := hr.later hlater
      exact ⟨predecessor, hnames, h.row_kept hrow⟩
    · intro predecessor stored hnames hpredecessor
      rcases h.storedPayload_after hpredecessor with hold | ⟨hkey', -⟩
      · exact hr.before predecessor stored hnames hold
      · obtain ⟨-, -, rfl⟩ := quotation_of_key hkey'
        exact absurd hnames hself

end Step

/-! ### Runs -/

/-- **Supersession is well founded.** After a run whose upserts over tombstones keep their
successors: a stored quotation has a positive revision, it names a predecessor exactly when the
revision is above one, following stored predecessors the revisions go down by one and no quotation
comes back, and there is no endless chain. -/
theorem runPushes_supersession (env : Env) (inputs : List PushInput) (db : Db)
    (hdb : QuotationsContiguous db)
    (hkeeps : ∀ s ∈ runSteps env inputs db, s.KeepsSuccessors env) (org : Str) :
    (∀ id payload, storedQuotation (runPushes env inputs db) org id = some payload →
      quotationRevision? payload.items = some (storedRevision (runPushes env inputs db) org id) ∧
      1 ≤ storedRevision (runPushes env inputs db) org id ∧
      ((predecessorId payload.items).isSome ↔
        1 < storedRevision (runPushes env inputs db) org id)) ∧
    (∀ id ids, (id :: ids).IsChain (Supersedes (runPushes env inputs db) org) →
      (id :: ids).Nodup ∧ ∀ (i : ℕ) b, (id :: ids)[i]? = some b →
        storedRevision (runPushes env inputs db) org b =
          storedRevision (runPushes env inputs db) org id - i) ∧
    WellFounded fun predecessor id => Supersedes (runPushes env inputs db) org id predecessor := by
  have hfinal : QuotationsContiguous (runPushes env inputs db) :=
    runPushes_inv hdb fun s hs hbefore =>
      (runSteps_valid hs).1.quotationsContiguous (hkeeps s hs) hbefore
  refine ⟨fun id payload hstored => ?_, hfinal.chain org⟩
  obtain ⟨revision, hr⟩ := hfinal org id payload hstored
  rw [QuotationsContiguous.storedRevision_eq hstored hr.numbered]
  refine ⟨hr.numbered, hr.positive, fun hnames => ?_, fun hlater => ?_⟩
  · refine lt_of_le_of_ne hr.positive fun hfirst => ?_
    rw [hr.first hfirst.symm] at hnames
    cases hnames
  · obtain ⟨predecessor, hnames, -⟩ := hr.later hlater
    rw [hnames]
    rfl

namespace Sample

/-- A draft quotation of the sample project. -/
def draft (id mutationID : String) (base : Option ℕ) (revision : ℤ) (supersedes : Value) :
    PushInput :=
  input (record .quotation id mutationID base
    [("id", .str id), ("projectID", .str "p"), ("customerID", .str "c"), ("status", .str "draft"),
      ("revision", .int revision), ("supersedesQuotationID", supersedes),
      ("lines", .list [.dict [("itemID", .str "i")]])])

/-- A quotation and its replacement. -/
def replaced : List PushInput :=
  setup ++ [draft "q" "5" none 1 .none, draft "r" "6" none 2 (.str "q")]

/-- The first is tombstoned, and comes back as the replacement of its replacement. -/
def circular : List PushInput :=
  replaced ++ [input (record .quotation "q" "7" (some 5) [] (some time)),
    draft "q" "8" (some 7) 3 (.str "r")]

end Sample

/-- A quotation that is tombstoned and pushed again with a later revision replaces its own
replacement. -/
theorem runPushes_supersession_circular :
    Supersedes (runPushes Sample.env Sample.circular Sample.db) "o" "q" "r" ∧
      Supersedes (runPushes Sample.env Sample.circular Sample.db) "o" "r" "q" := by
  have hrun : ((storedQuotation (runPushes Sample.env Sample.circular Sample.db) "o" "q").any
      fun payload => predecessorId payload.items == some "r") = true ∧
    ((storedQuotation (runPushes Sample.env Sample.circular Sample.db) "o" "r").any
      fun payload => predecessorId payload.items == some "q") = true := by
    decide +kernel
  simp only [Option.any_eq_true, beq_iff_eq] at hrun
  obtain ⟨⟨q, hq, hnamesQ⟩, r, hr, hnamesR⟩ := hrun
  exact ⟨⟨⟨q, hq, hnamesQ⟩, r, hr⟩, ⟨r, hr, hnamesR⟩, q, hq⟩

/-- A quotation and its replacement: the chain of the replacement. -/
theorem runPushes_supersession_sample :
    Supersedes (runPushes Sample.env Sample.replaced Sample.db) "o" "r" "q" ∧
      storedRevision (runPushes Sample.env Sample.replaced Sample.db) "o" "q" =
        storedRevision (runPushes Sample.env Sample.replaced Sample.db) "o" "r" - 1 := by
  have hrun : ((storedQuotation (runPushes Sample.env Sample.replaced Sample.db) "o" "r").any
      fun payload => predecessorId payload.items == some "q") = true ∧
    (storedQuotation (runPushes Sample.env Sample.replaced Sample.db) "o" "q").isSome = true := by
    decide +kernel
  have hrows : ∀ s ∈ runSteps Sample.env Sample.replaced Sample.db, s.current.isNone = true := by
    decide +kernel
  simp only [Option.any_eq_true, beq_iff_eq, Option.isSome_iff_exists] at hrun
  obtain ⟨⟨r, hr, hnames⟩, q, hq⟩ := hrun
  have hsupersedes : Supersedes (runPushes Sample.env Sample.replaced Sample.db) "o" "r" "q" :=
    ⟨⟨r, hr, hnames⟩, q, hq⟩
  refine ⟨hsupersedes, ?_⟩
  have hsupersession := runPushes_supersession Sample.env Sample.replaced Sample.db ?_ ?_ "o"
  · have hchain : ["r", "q"].IsChain
        (Supersedes (runPushes Sample.env Sample.replaced Sample.db) "o") :=
      .cons_cons hsupersedes (.singleton _)
    exact (hsupersession.2.1 "r" ["q"] hchain).2 1 "q" rfl
  · intro org id payload hstored
    cases hstored
  · rintro s hs - ⟨-, -, -, e, hcurrent, -⟩
    have hnone := hrows s hs
    rw [hcurrent] at hnone
    cases hnone

end VitrialSync
