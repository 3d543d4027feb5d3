import VitrialSync.Python.DecimalSum
import VitrialSync.Server.DeliverySteps
import VitrialSync.Server.QuotationReplay

set_option relaxedAutoImplicit false
set_option autoImplicit false

/-!
# Deliveries and their quotations

A delivery repeats the commercial terms of the approved quotation it was raised against, and a push
of the delivery compares them. Afterwards the quotation can only be pushed with the same commercial
content and stays approved. Two ways remain to pull it away from under the delivery: its tombstone,
which asks for no delivery, and line totals that Python calls equal while their decimals differ.

## Main definitions

* `VitrialSync.Agrees` — a delivery repeats the terms of an approved quotation.
* `VitrialSync.DeliveriesAgree` — every stored delivery agrees with the active quotation it names.
* `VitrialSync.RecordStep.KeepsQuoted` — the quotation of a delivery is not tombstoned, and its
  lines keep their totals as decimals.

## Main results

* `VitrialSync.quotationTotal_congr` — the total of a quotation depends on the values of its lines.
* `VitrialSync.runPushes_deliveriesAgree` — deliveries agree with their quotations after every run
  that keeps these.
-/

namespace VitrialSync

open Python Program

/-! ### Totals -/

/-- The total of a line as a decimal. -/
def linePrice (line : Value) : Option Decimal :=
  line.dict?.bind fun d => (d.get "totalPrice").toDecimal?

/-- The totals of two lines have the same value as decimals. -/
def SamePrice (line line' : Value) : Prop :=
  ∃ a b, linePrice line = some a ∧ linePrice line' = some b ∧ a.SameValue b

/-- The lines of a quotation. -/
def quotationLines (quote : Dict) : List Value := (quote.get "lines").list?.getD []

/-- The lines of two quotations have totals of the same values. -/
def SamePrices (quote quote' : Dict) : Prop :=
  List.Forall₂ SamePrice (quotationLines quote) (quotationLines quote')

/-- The iterations of the loop of `_quotation_total` that return. -/
lemma addLineTotal_eq_ok {total sum : Decimal} {line : Value} :
    Delivery.addLineTotal total line = .ok sum ↔
      ∃ price, linePrice line = some price ∧ total.add price = .ok sum := by
  cases line with
  | dict d => simp [Delivery.addLineTotal, linePrice, Value.dict?, bind_eq_ok]
  | _ => simp [Delivery.addLineTotal, linePrice, Value.dict?]

/-- The loop over lines with totals of the same values. -/
lemma foldlM_addLineTotal_congr {lines lines' : List Value}
    (h : List.Forall₂ SamePrice lines lines') {total total' sum : Decimal}
    (htotal : total.SameValue total') (hsum : lines.foldlM Delivery.addLineTotal total = .ok sum) :
    ∃ sum', lines'.foldlM Delivery.addLineTotal total' = .ok sum' ∧ sum.SameValue sum' := by
  induction h generalizing total total' with
  | nil =>
    rw [List.foldlM_nil, pure_eq_ok] at hsum
    subst hsum
    exact ⟨total', rfl, htotal⟩
  | cons hline _ ih =>
    rw [List.foldlM_cons, bind_eq_ok] at hsum
    obtain ⟨next, hnext, hrest⟩ := hsum
    obtain ⟨price, hprice, hadd⟩ := addLineTotal_eq_ok.mp hnext
    obtain ⟨a, b, ha, hb, hvalue⟩ := hline
    obtain rfl := Option.some.inj (hprice.symm.trans ha)
    obtain ⟨next', hadd', hnext'⟩ := Decimal.add_congr htotal hvalue hadd
    obtain ⟨sum', hsum', hsame⟩ := ih hnext' hrest
    refine ⟨sum', ?_, hsame⟩
    rw [List.foldlM_cons, addLineTotal_eq_ok.mpr ⟨b, hb, hadd'⟩]
    exact hsum'

/-- **Totals.** Quotations whose lines have totals of the same values have totals of the same
value. -/
theorem quotationTotal_congr {quote quote' : Dict} (h : SamePrices quote quote') {total : Decimal}
    (htotal : Delivery.quotationTotal quote = .ok total) :
    ∃ total', Delivery.quotationTotal quote' = .ok total' ∧ total.SameValue total' := by
  unfold Delivery.quotationTotal at htotal ⊢
  unfold SamePrices quotationLines at h
  cases hlines : (quote.get "lines").list? with
  | none => simp [hlines] at htotal
  | some lines =>
    simp only [hlines, bind_eq_ok, raiseIf_eq_ok, exists_const] at htotal
    rw [hlines, Option.getD_some] at h
    obtain ⟨hne, hsum⟩ := htotal
    cases hlines' : (quote'.get "lines").list? with
    | none =>
      rw [hlines', Option.getD_none, List.forall₂_nil_right_iff] at h
      simp [h] at hne
    | some lines' =>
      rw [hlines', Option.getD_some] at h
      have hne' : lines'.isEmpty = false := by
        cases h with
        | nil => simp at hne
        | cons _ _ => rfl
      have hzero : Decimal.zero.SameValue Decimal.zero := Decimal.sameValue_finite.mpr rfl
      obtain ⟨total', htotal', hsame⟩ := foldlM_addLineTotal_congr h hzero hsum
      refine ⟨total', ?_, hsame⟩
      simp only [hne', raiseIf, Bool.false_eq_true, ↓reduceIte]
      exact htotal'

/-! ### Agreement -/

/-- A delivery repeats the terms of an approved quotation. The ids of project and customer are
compared without the white space around them. -/
structure Agrees (delivery quote : Dict) : Prop where
  approved : quote.get "status" = .str "approved"
  project : ∃ id, normalized (delivery.get "projectID") = some id ∧ quote.get "projectID" = .str id
  customer : ∃ id, normalized (delivery.get "customerID") = some id ∧
    quote.get "customerID" = .str id
  number : Value.same (delivery.get "quotationNumber") (quote.get "number") = true
  revision : ∃ n, quotationRevision? quote = some n ∧
    Value.same (delivery.get "quotationRevision") (.int n) = true
  currency : Value.same (delivery.get "currencyCode") (quote.get "currencyCode") = true
  pricing : Value.same (delivery.get "pricingVersion") (quote.get "pricingVersion") = true
  total : ∃ quoted sum, (delivery.get "quotedTotal").toDecimal? = some quoted ∧
    Delivery.quotationTotal quote = .ok sum ∧ quoted.SameValue sum

/-- The quotation that a delivery names is active, and the delivery agrees with it. -/
def Quoted (db : Db) (org : Str) (delivery : Dict) : Prop :=
  ∃ id entity quote, normalized (delivery.get "quotationID") = some id ∧
    db.entities.get (org, .quotation, id) = some entity ∧ entity.deletedAt = none ∧
    entity.payloadJson = some quote ∧ Agrees delivery quote.items

/-- Every stored delivery agrees with the active quotation it names. -/
def DeliveriesAgree (db : Db) : Prop :=
  ∀ org id payload, storedPayload db (org, .deliveryExecution, id) = some payload →
    Quoted db org payload.items

/-- A field that the check found equal is the same. -/
lemma same_of_field {payload : Dict} {key : String} {expected : Value}
    (h : Delivery.requireQuotationField payload key expected = .ok ()) :
    Value.same (payload.get key) expected = true := by
  rw [Delivery.requireQuotationField, raiseIf_eq_ok, Value.ne, Bool.not_eq_false'] at h
  exact Value.same_of_eq h

/-- The revisions that the two modules read are the same. -/
lemma quotationRevision?_of_delivery {quote : Dict} {n : ℤ}
    (h : Delivery.quotationRevision quote = .ok n) : quotationRevision? quote = some n := by
  simp only [Delivery.quotationRevision, quotationRevision?, Lifecycle.quotationRevision,
    Lifecycle.quotationRevisionOr] at h ⊢
  split_ifs at h ⊢
  · exact congrArg some (Except.ok.inj h)
  · split at h
    · split_ifs at h
      rename_i hint hlow
      simp only [hlow, ↓reduceIte]
      exact congrArg some (Except.ok.inj h)
    · cases h

/-- What the checks against the quotation establish. -/
lemma requireQuotation_spec {db : Db} {principal : Principal} {payload : Dict}
    {projectId customerId quotationId : Str}
    (hproject : normalized (payload.get "projectID") = some projectId)
    (hcustomer : normalized (payload.get "customerID") = some customerId)
    (hquotation : normalized (payload.get "quotationID") = some quotationId)
    (h : Delivery.requireQuotation db principal payload projectId customerId quotationId =
      .ok ()) : Quoted db principal.organizationId payload := by
  unfold Delivery.requireQuotation at h
  split at h
  · rename_i revision quote updatedAt hrow
    simp only [bind_eq_ok, raiseIf_eq_ok, exists_const, Bool.not_eq_false', Value.isStr_iff,
      Bool.or_eq_false_iff, Delivery.decimal_eq_ok, Delivery.signalling_eq_ok] at h
    obtain ⟨hstatus, ⟨hp, hc⟩, -, n, hn, ⟨⟩, hnumber, ⟨⟩, hrevision, ⟨⟩, hcurrency, ⟨⟩, hpricing,
      quoted, hquoted, sum, hsum, differs, hdiffers, rfl⟩ := h
    exact ⟨quotationId, _, quote, hquotation, hrow, rfl, rfl, hstatus, ⟨_, hproject, hp⟩,
      ⟨_, hcustomer, hc⟩, same_of_field hnumber, ⟨n, quotationRevision?_of_delivery hn,
        same_of_field hrevision⟩, same_of_field hcurrency, same_of_field hpricing,
      quoted, sum, hquoted, hsum, hdiffers⟩
  · cases h

/-- An update of an approved quotation whose lines keep their totals agrees with what the stored
one agreed with. -/
lemma Agrees.of_update {db : Db} {delivery stored payload : Dict} {principal : Principal} {id : Str}
    {status : Lifecycle.QuotationStatus} {history : List Dict}
    {kinds : List Lifecycle.QuotationEventKind} {states : List Lifecycle.QuotationStatus}
    {revision : ℤ} (h : Agrees delivery stored)
    (hchecked : Lifecycle.QuotationChecked db payload (some stored) principal id status history
      kinds states revision)
    (hw : Value.WellFormed (.dict payload)) (hw' : Value.WellFormed (.dict stored))
    (hreplayed : Lifecycle.Replayed stored .approved) (hprices : SamePrices stored payload) :
    Agrees delivery payload := by
  have hkept : ∀ {key : Str}, Lifecycle.quotationLifecycleKeys.contains key = false →
      Value.same (stored.get key) (payload.get key) = true :=
    fun hkey => (hchecked.content_kept hreplayed.spelled (by decide)).get hw' hkey
  have hstatus : status = .approved := hchecked.final_kept hw hreplayed (Or.inl rfl)
  have hspelled := hchecked.replayed.spelled
  rw [hstatus] at hspelled
  have happroved : payload.get "status" = .str "approved" := Lifecycle.findName_quotationStatuses.mp hspelled
  obtain ⟨n, hn, hrevision⟩ := h.revision
  obtain ⟨hn', -⟩ := requireSameQuotation_spec (hchecked.same stored rfl)
  obtain rfl := Option.some.inj (hn.symm.trans hn')
  obtain ⟨p, hp, hp'⟩ := h.project
  obtain ⟨c, hc, hc'⟩ := h.customer
  obtain ⟨quoted, sum, hquoted, hsum, hsame⟩ := h.total
  obtain ⟨sum', hsum', hsame'⟩ := quotationTotal_congr hprices hsum
  refine ⟨?_, ⟨p, hp, Value.eq_str_of_same (hkept (by decide)) hp'⟩,
    ⟨c, hc, Value.eq_str_of_same (hkept (by decide)) hc'⟩, Value.same_trans h.number (hkept (by decide)),
    ⟨n, ?_, hrevision⟩, Value.same_trans h.currency (hkept (by decide)),
    Value.same_trans h.pricing (hkept (by decide)), quoted, sum', hquoted, hsum',
    hsame.trans hsame'⟩
  · exact happroved
  · rw [quotationRevision?, hchecked.readRevision]
    rfl

/-! ### Steps -/

section Step

variable {env : Env} {s : RecordStep} {payload : Payload} {grant : Authorized} {applied : Working}

/-- A committed delivery agrees with the active quotation it names. -/
lemma RecordStep.Commits.quoted (h : s.Commits env payload grant applied)
    (htype : s.record.entityType = .deliveryExecution) :
    Quoted s.before.db s.input.principal.organizationId payload.items := by
  obtain ⟨-, -, ⟨-, projectId, hauth, -⟩ | ⟨hnot, -⟩⟩ :=
    authorize_eq_ok_iff.mp h.admitted.authorized
  · simp only [Delivery.authorizeDeliveryExecution, bind_eq_ok] at hauth
    obtain ⟨-, -, -, -, currentPayload, -, -, -, hauth⟩ := hauth
    split at hauth
    · rename_i projectId' customerId quotationId hproject hcustomer hquotation
      simp only [bind_eq_ok] at hauth
      obtain ⟨-, -, -, -, ⟨⟩, hquote, -⟩ := hauth
      exact requireQuotation_spec hproject hcustomer hquotation hquote
    · cases hauth
  · exact absurd htype hnot

/-- A fresh quotation record that is authorized while a stored delivery names the quotation is no
tombstone, and its lines have the totals of the stored ones as decimals. -/
def RecordStep.KeepsQuoted (env : Env) (s : RecordStep) : Prop :=
  s.record.entityType = .quotation → s.Unanswered →
    staleRevision s.record s.current = false →
      ∀ payload grant, decodePayload env s.record.payload = .ok payload →
        authorize env s.input.principal s.before s.record s.current payload.items = .ok grant →
          ∀ id delivery, storedPayload s.before.db
              (s.input.principal.organizationId, .deliveryExecution, id) = some delivery →
            normalized (delivery.items.get "quotationID") = some s.record.entityID.text →
              s.record.deletedAt = none ∧
                ∀ stored, storedPayload s.before.db s.key = some stored →
                  SamePrices stored.items payload.items

/-- A quotation that agrees with a delivery is approved by its events. -/
lemma Agrees.replayed {delivery quote : Dict} (h : Agrees delivery quote)
    {status : Lifecycle.QuotationStatus} (hreplayed : Lifecycle.Replayed quote status) :
    status = .approved := by
  have happroved : findName Lifecycle.quotationStatuses (quote.get "status") = some .approved :=
    Lifecycle.findName_quotationStatuses.mpr h.approved
  exact Option.some.inj (hreplayed.spelled.symm.trans happroved)

/-- **Step.** A step that keeps the quotation of a delivery leaves the delivery in agreement.

**Proof sketch.** Only a quotation record at the key the delivery names touches the quotation. It is
no tombstone; the stored quotation is approved by its events, so the record is approved and has the
stored commercial content, and the totals of its lines have the stored values. -/
lemma RecordStep.Valid.quoted (h : s.Valid env) (hkeeps : s.KeepsQuoted env)
    (hreplayed : QuotationsReplayed s.before.db) {org id : Str} {delivery : Payload}
    (hstored : storedPayload s.before.db (org, .deliveryExecution, id) = some delivery)
    (hbefore : Quoted s.before.db org delivery.items) : Quoted s.after.db org delivery.items := by
  obtain ⟨quotationId, entity, quote, hnames, hrow, hactive, hquote, hagrees⟩ := hbefore
  rcases h.keeps_or_commits with hsame | ⟨payload, grant, applied, hcommits⟩
  · rw [← hsame.entities] at hrow
    exact ⟨quotationId, entity, quote, hnames, hrow, hactive, hquote, hagrees⟩
  by_cases hkey : (org, EntityType.quotation, quotationId) = s.key
  · have hold : storedPayload s.before.db s.key = some quote := by
      rw [← hkey, storedPayload, hrow, Option.bind_some, hquote]
    obtain ⟨status, hstatus⟩ := hreplayed org quotationId quote (by
      rw [storedQuotation, hkey, hold])
    obtain rfl := hagrees.replayed hstatus
    obtain ⟨rfl, htype, rfl⟩ := quotation_of_key hkey
    obtain ⟨hupsert, hprices⟩ := hkeeps htype hcommits.unanswered hcommits.fresh payload grant
      hcommits.admitted.decoded hcommits.admitted.authorized id delivery hstored hnames
    obtain ⟨status', history, kinds, states, revision, hchecked⟩ :=
      hcommits.quotation htype hupsert
    rw [hold, Option.map_some] at hchecked
    refine ⟨_, committedEntity s.record payload s.revision, payload, hnames, ?_, ?_, ?_,
      hagrees.of_update hchecked payload.wellFormed quote.wellFormed hstatus (hprices quote hold)⟩
    · rw [hkey, hcommits.entities, Table.get_set_self]
    · rw [committedEntity, hupsert]
      rfl
    · rw [committedEntity, hupsert]
      rfl
  · refine ⟨quotationId, entity, quote, hnames, ?_, hactive, hquote, hagrees⟩
    rw [hcommits.entities, Table.get_set_of_ne _ _ hkey, hrow]

/-- **Step.** A step that keeps the quotations of deliveries keeps the deliveries in agreement. -/
lemma RecordStep.Valid.deliveriesAgree (h : s.Valid env) (hkeeps : s.KeepsQuoted env)
    (hreplayed : QuotationsReplayed s.before.db) (hbefore : DeliveriesAgree s.before.db) :
    DeliveriesAgree s.after.db := by
  intro org id after hafter
  rcases h.storedPayload_after hafter with hstored | ⟨hkey, -, grant, applied, hcommits⟩
  · exact h.quoted hkeeps hreplayed hstored (hbefore org id after hstored)
  · -- the step has stored the delivery; it leaves the rows of quotations alone
    have htype := entityType_of_key hkey
    obtain ⟨quotationId, entity, quote, hnames, hrow, hrest⟩ := hcommits.quoted htype
    have horg : org = s.input.principal.organizationId := congrArg Prod.fst hkey
    refine ⟨quotationId, entity, quote, hnames, ?_, hrest⟩
    have hother : (org, EntityType.quotation, quotationId) ≠ s.key := by
      intro heq
      rw [(quotation_of_key heq).2.1] at htype
      cases htype
    rw [hcommits.entities, Table.get_set_of_ne _ _ hother, horg, hrow]

end Step

/-! ### Runs -/

/-- **Deliveries agree with their quotations.** After a run that tombstones no quotation of a stored
delivery and keeps the totals of its lines as decimals, every stored delivery names an active
approved quotation and repeats its terms and its total. -/
theorem runPushes_deliveriesAgree (env : Env) (inputs : List PushInput) (db : Db)
    (hdb : DeliveriesAgree db) (hreplayed : QuotationsReplayed db)
    (hkeeps : ∀ s ∈ runSteps env inputs db, s.KeepsQuoted env) :
    DeliveriesAgree (runPushes env inputs db) := by
  have hboth : QuotationsReplayed (runPushes env inputs db) ∧
      DeliveriesAgree (runPushes env inputs db) := by
    refine runPushes_inv (I := fun db => QuotationsReplayed db ∧ DeliveriesAgree db)
      ⟨hreplayed, hdb⟩ fun s hs hbefore => ?_
    have hvalid := (runSteps_valid hs).1
    exact ⟨hvalid.quotationsReplayed hbefore.1,
      hvalid.deliveriesAgree (hkeeps s hs) hbefore.1 hbefore.2⟩
  exact hboth.2

namespace Sample

/-- The quotation of the sample delivery is deleted. -/
def withdrawn : List PushInput :=
  approved ++ [delivery "6" none "engineeringReview" "1" [opened],
    input (record .quotation "q" "7" (some 5) [] (some time))]

end Sample

/-- The tombstone of a quotation is accepted while a delivery names it. -/
theorem runPushes_deliveriesAgree_withdrawn :
    ¬ DeliveriesAgree (runPushes Sample.env Sample.withdrawn Sample.db) := by
  have hrun : ((storedPayload (runPushes Sample.env Sample.withdrawn Sample.db)
      ("o", .deliveryExecution, "v")).any fun payload =>
        normalized (payload.items.get "quotationID") == some (Str.ofString "q")) = true ∧
    ((runPushes Sample.env Sample.withdrawn Sample.db).entities.get
      ("o", .quotation, "q")).all (fun e => e.deletedAt.isSome) = true := by
    decide +kernel
  obtain ⟨hdelivery, hdeleted⟩ := hrun
  obtain ⟨payload, hstored, hnames⟩ := (Option.any_eq_true _ _).mp hdelivery
  intro hagree
  obtain ⟨id, entity, quote, hid, hrow, hactive, -⟩ := hagree "o" "v" payload hstored
  rw [eq_of_beq hnames, Option.some.injEq] at hid
  rw [← hid] at hrow
  rw [hrow, Option.all_some, hactive] at hdeleted
  cases hdeleted

/-- The sample delivery agrees with its quotation while it advances. -/
theorem runPushes_deliveriesAgree_sample :
    DeliveriesAgree (runPushes Sample.env Sample.stepped Sample.db) := by
  have hquotations : ∀ s ∈ runSteps Sample.env Sample.stepped Sample.db,
      s.record.entityType = .quotation →
        (s.before.db.entities.any fun key _ => key.2.1 == .deliveryExecution) = false := by
    decide +kernel
  refine runPushes_deliveriesAgree Sample.env Sample.stepped Sample.db ?_ ?_ ?_
  · intro org id payload hstored
    cases hstored
  · intro org id payload hstored
    cases hstored
  · intro s hs htype _ _ payload grant _ _ id delivery hstored
    obtain ⟨entity, hrow, -⟩ := Option.bind_eq_some_iff.mp hstored
    have hnone := (Table.any_eq_false_iff _ _).mp (hquotations s hs htype) _ _ hrow
    cases hnone

end VitrialSync
