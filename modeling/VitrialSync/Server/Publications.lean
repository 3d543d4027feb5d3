import VitrialSync.Program.Transaction
import VitrialSync.Server.Ownership

set_option relaxedAutoImplicit false
set_option autoImplicit false

/-!
# Reference publications

The write path of `app/reference_data.py`: an organization publishes catalogs, compatibility rules
and price books, each under an identifier of its own, and a publication may supersede an earlier
one. The baseline publications are inserted by the first call that misses them. Every request is a
session of `Program.Transaction`, next to any others. What is current is decided by dates alone.

The content of a publication is held as its JSON form.

## Main definitions

* `VitrialSync.Publications.insertPublication` — `_insert_publication`.
* `VitrialSync.Publications.ensureBaselinePublications` — `ensure_baseline_publications`.
* `VitrialSync.Publications.Operation.session` — the operations on publications.
* `VitrialSync.Publications.pickCurrent` — what `_current_publications` makes of its rows.

## Main results

* `VitrialSync.Publications.Operation.session_sound` — a publication is inserted only after one that
  it supersedes.
-/

namespace VitrialSync.Publications

open Python Program

/-! ### Requests and rows -/

/-- `ReferencePublicationCreate`; the payload is `request.payload.model_dump(mode="json")`. -/
structure ReferencePublicationCreate where
  publicationID : Identifier
  kind : PublicationKind
  versionID : Identifier
  effectiveFrom : DateTime
  effectiveUntil : Option DateTime
  supersedesPublicationID : Option ShortText
  payload : Dict

/-- A row of `reference_publications`. -/
structure PublicationRow where
  organizationId : Str
  publicationId : Str
  kind : PublicationKind
  versionId : Str
  effectiveFrom : DateTime
  effectiveUntil : Option DateTime
  supersedesPublicationId : Option Str
  payloadJson : Dict
  contentSha256 : Str
  publishedByUserId : Str
  publishedAt : DateTime

/-- The primary key and `uq_reference_publication_org_kind_version`: two rows that cannot both be in
the table. -/
def Conflict (a b : PublicationRow) : Prop :=
  a.organizationId = b.organizationId ∧
    (a.publicationId = b.publicationId ∨ a.kind = b.kind ∧ a.versionId = b.versionId)

instance : DecidableRel Conflict := fun a b => by unfold Conflict; infer_instance

/-- What a request can end in. -/
inductive PublicationError where
  | publicationConflict (message : Str)
  | publicationNotFound (publicationId : Str)
  | permissionError (message : Str)
  | integrityError
  /-- `TypeError`: a naive date-time is compared with an aware one. -/
  | typeError
  /-- `UnicodeEncodeError`. -/
  | unicodeError
  deriving DecidableEq

/-- A part of a request: a session that can raise. -/
abbrev Publishing (ρ : Type) := ExceptT PublicationError (Session PublicationRow DateTime) ρ

/-- `db.scalars(select(ReferencePublication).where(p))`. -/
def selectRows (p : PublicationRow → Bool) : Publishing (List PublicationRow) :=
  ExceptT.mk (.select p fun rows => .done (.ok rows))

/-- `db.add(model)` and `db.flush()`. -/
def addRow (row : DateTime → PublicationRow) : Publishing PublicationRow :=
  ExceptT.mk (.insert row (fun model => .done (.ok model)) (.done (.error .integrityError)))

/-- `db.commit()`. -/
def commitRows : Publishing Unit := ExceptT.mk (.commit (.done (.ok ())))

/-- `db.get(ReferencePublication, (organization_id, publication_id))`. -/
def getRow (organizationId publicationId : Str) : Publishing (Option PublicationRow) := do
  return (← selectRows fun r =>
    r.organizationId == organizationId && r.publicationId == publicationId).head?

/-! ### Inserting a publication -/

/-- `_canonical_material`. -/
def canonicalMaterial (request : ReferencePublicationCreate) : Option Bytes :=
  encodeUtf8? (Json.dumps false (.dict
    [("publicationID", .str request.publicationID.text),
      ("kind", .str (Str.ofString request.kind.name)),
      ("versionID", .str request.versionID.text),
      ("effectiveFrom", .str request.effectiveFrom.jsonText),
      ("effectiveUntil", request.effectiveUntil.elim .none fun t => .str t.jsonText),
      ("supersedesPublicationID", request.supersedesPublicationID.elim .none fun s => .str s.text),
      ("payload", .dict request.payload)]))

/-- `publication_sha256`. -/
def publicationSha256 (request : ReferencePublicationCreate) : Publishing Str :=
  match canonicalMaterial request with
  | none => throw .unicodeError
  | some material => return Sha256.hexdigest material

/-- `PublicationConflict(message)`. -/
def conflict (message : String) : PublicationError := .publicationConflict (Str.ofString message)

/-- The check of the period. -/
def requirePeriod (request : ReferencePublicationCreate) : Publishing Unit :=
  match request.effectiveUntil with
  | none => return ()
  | some effectiveUntil =>
    if effectiveUntil.offset.isSome != request.effectiveFrom.offset.isSome then throw .typeError
    else if effectiveUntil.notAfter request.effectiveFrom then
      throw (conflict "effectiveUntil must be later than effectiveFrom")
    else return ()

/-- The check of the superseded publication. -/
def requirePredecessor (organizationId : Str) (request : ReferencePublicationCreate) :
    Publishing Unit :=
  match request.supersedesPublicationID with
  | none => return ()
  | some supersedes => do
    match ← getRow organizationId supersedes.text with
    | none => throw (conflict "supersedesPublicationID does not exist")
    | some predecessor =>
      if predecessor.kind ≠ request.kind then
        throw (conflict "a publication may supersede only the same reference-data kind")

/-- The check of the version. -/
def requireVersionFree (organizationId : Str) (request : ReferencePublicationCreate) :
    Publishing Unit := do
  let versionOwner := (← selectRows fun r => r.organizationId == organizationId &&
    r.kind == request.kind && r.versionId == request.versionID.text).head?
  if versionOwner.isSome then
    throw (conflict "versionID is already published for this reference-data kind")

/-- The row of a new publication. -/
def newRow (organizationId : Str) (request : ReferencePublicationCreate) (digest : Str)
    (publishedByUserId : Str) (publishedAt : DateTime) : PublicationRow :=
  { organizationId
    publicationId := request.publicationID.text
    kind := request.kind
    versionId := request.versionID.text
    effectiveFrom := request.effectiveFrom
    effectiveUntil := request.effectiveUntil
    supersedesPublicationId := request.supersedesPublicationID.map ShortText.text
    payloadJson := request.payload
    contentSha256 := digest
    publishedByUserId
    publishedAt }

/-- `_insert_publication`. -/
def insertPublication (organizationId : Str) (request : ReferencePublicationCreate)
    (publishedByUserId : Str) : Publishing PublicationRow := do
  requirePeriod request
  let digest ← publicationSha256 request
  match ← getRow organizationId request.publicationID.text with
  | some existing =>
    if existing.contentSha256 = digest then return existing
    else throw (conflict "publicationID is immutable and already refers to different content")
  | none =>
    requireVersionFree organizationId request
    requirePredecessor organizationId request
    addRow (newRow organizationId request digest publishedByUserId)

/-! ### The baselines -/

/-- The contents of the bundled publications. -/
structure BaselinePayloads where
  (catalog catalogV2 rules priceBook : Dict)

/-- `BASELINE_EFFECTIVE_FROM`. -/
def baselineEffectiveFrom : DateTime := ⟨2026, 1, 1, 0, 0, 0, 0, some 0, DateTime.InRange.newYear⟩

/-- `APPLICATION_CATALOG_EFFECTIVE_FROM`. -/
def applicationCatalogEffectiveFrom : DateTime :=
  ⟨2026, 9, 10, 0, 0, 0, 0, some 0, by constructor <;> simp⟩

/-- `BASELINE_PUBLICATIONS`. -/
def baselinePublications (payloads : BaselinePayloads) : List ReferencePublicationCreate :=
  [{ publicationID := ⟨"catalog-bundled-v1", by decide, by decide, by decide⟩
     kind := .catalog
     versionID := ⟨"configurator-catalog-v1", by decide, by decide, by decide⟩
     effectiveFrom := baselineEffectiveFrom
     effectiveUntil := none
     supersedesPublicationID := none
     payload := payloads.catalog },
    { publicationID := ⟨"catalog-bundled-v2", by decide, by decide, by decide⟩
      kind := .catalog
      versionID := ⟨"configurator-catalog-v2", by decide, by decide, by decide⟩
      effectiveFrom := applicationCatalogEffectiveFrom
      effectiveUntil := none
      supersedesPublicationID := some ⟨"catalog-bundled-v1", by decide, by decide⟩
      payload := payloads.catalogV2 },
    { publicationID := ⟨"compatibility-rules-bundled-v1", by decide, by decide, by decide⟩
      kind := .compatibilityRules
      versionID := ⟨"configurator-rules-v1", by decide, by decide, by decide⟩
      effectiveFrom := baselineEffectiveFrom
      effectiveUntil := none
      supersedesPublicationID := none
      payload := payloads.rules },
    { publicationID := ⟨"price-book-unconfigured-v1", by decide, by decide, by decide⟩
      kind := .priceBook
      versionID := ⟨"price-book-unconfigured-v1", by decide, by decide, by decide⟩
      effectiveFrom := baselineEffectiveFrom
      effectiveUntil := none
      supersedesPublicationID := none
      payload := payloads.priceBook }]

/-- `_seed_baseline_publications`. -/
def seedBaselinePublications (baselines : List ReferencePublicationCreate) (organizationId : Str) :
    Publishing Bool := do
  let created ← baselines.foldlM (fun created request => do
    match ← getRow organizationId request.publicationID.text with
    | some _ => return created
    | none =>
      let _ ← insertPublication organizationId request (Str.ofString "system:baseline")
      return true) false
  if created then commitRows
  return created

/-- `BASELINE_SEED_ATTEMPTS`. -/
def baselineSeedAttempts : ℕ := 2

/-- `_ensure_baseline_publications`, with the attempts that are left. A lost race is tried again. -/
def ensureBaselinePublications (baselines : List ReferencePublicationCreate)
    (organizationId : Str) : ℕ → Publishing Unit
  | 0 => return ()
  | left + 1 => ExceptT.mk do
    match ← (seedBaselinePublications baselines organizationId).run with
    | .ok _ => return .ok ()
    | .error .integrityError =>
      .rollback (if left = 0 then .done (.error .integrityError)
        else (ensureBaselinePublications baselines organizationId left).run)
    | .error e => return .error e

/-! ### The operations -/

/-- `_require_manage_capability`. -/
def requireManageCapability (principal : Principal) (kind : PublicationKind) : Publishing Unit :=
  let required : Capability := if kind = .priceBook then .pricingManage else .catalogManage
  if principal.holds required then return ()
  else throw (.permissionError (Str.ofString (required.name ++ " capability required")))

/-- `publish_reference`. -/
def publishReference (baselines : List ReferencePublicationCreate) (principal : Principal)
    (request : ReferencePublicationCreate) : Publishing PublicationRow := do
  requireManageCapability principal request.kind
  ensureBaselinePublications baselines principal.organizationId baselineSeedAttempts
  let model ← insertPublication principal.organizationId request principal.userId
  commitRows
  return model

/-- `get_publication`. -/
def getPublication (baselines : List ReferencePublicationCreate) (organizationId : Str)
    (publicationId : Str) : Publishing PublicationRow := do
  ensureBaselinePublications baselines organizationId baselineSeedAttempts
  match ← getRow organizationId publicationId with
  | none => throw (.publicationNotFound publicationId)
  | some model => return model

/-- The order of a query: `kind`, then `effective_from` and `published_at` from the latest. -/
def Precedes (a b : PublicationRow) : Prop :=
  a.kind.name < b.kind.name ∨ a.kind = b.kind ∧
    (b.effectiveFrom.notAfter a.effectiveFrom = true ∧
      (a.effectiveFrom.notAfter b.effectiveFrom = true →
        b.publishedAt.notAfter a.publishedAt = true))

instance : DecidableRel Precedes := fun a b => by unfold Precedes; infer_instance

/-- `order_by` of the queries for several publications. -/
def ordered (rows : List PublicationRow) : List PublicationRow := rows.insertionSort Precedes

/-- `list_publications`. -/
def listPublications (baselines : List ReferencePublicationCreate) (organizationId : Str)
    (kind : Option PublicationKind) : Publishing (List PublicationRow) := do
  ensureBaselinePublications baselines organizationId baselineSeedAttempts
  return ordered (← selectRows fun r =>
    r.organizationId == organizationId && kind.all (r.kind == ·))

/-- A publication is effective at an instant. -/
def PublicationRow.effectiveAt (r : PublicationRow) (moment : DateTime) : Bool :=
  r.effectiveFrom.notAfter moment && r.effectiveUntil.all fun t => !t.notAfter moment

/-- The loop of `_current_publications`: the first row of every kind is selected. -/
def selectFirst (rows : List PublicationRow) : List PublicationRow :=
  rows.foldl (fun selected r =>
    if selected.any (·.kind == r.kind) then selected else selected ++ [r]) []

/-- The publications that `_current_publications` returns for its rows. -/
def pickCurrent (rows : List PublicationRow) : List PublicationRow :=
  (selectFirst (ordered rows)).insertionSort fun a b => a.kind.name ≤ b.kind.name

/-- `current_publications`. -/
def currentPublications (baselines : List ReferencePublicationCreate) (organizationId : Str)
    (moment : DateTime) : Publishing (List PublicationRow) := do
  ensureBaselinePublications baselines organizationId baselineSeedAttempts
  return pickCurrent (← selectRows fun r =>
    r.organizationId == organizationId && r.effectiveAt moment)

/-- The operations on publications. -/
inductive Operation where
  | publish (principal : Principal) (request : ReferencePublicationCreate)
  | get (organizationId publicationId : Str)
  | list (organizationId : Str) (kind : Option PublicationKind)
  | current (organizationId : Str) (moment : DateTime)
  /-- `ensure_baseline_publications_for_organization`, which a bootstrap calls. -/
  | seed (organizationId : Str)

/-- The session of an operation. -/
def Operation.session (payloads : BaselinePayloads) :
    Operation → Session PublicationRow DateTime (Except PublicationError (List PublicationRow))
  | publish principal request =>
    (do return [← publishReference (baselinePublications payloads) principal request] :
      Publishing (List PublicationRow)).run
  | get organizationId publicationId =>
    (do return [← getPublication (baselinePublications payloads) organizationId publicationId] :
      Publishing (List PublicationRow)).run
  | list organizationId kind =>
    (listPublications (baselinePublications payloads) organizationId kind).run
  | current organizationId moment =>
    (currentPublications (baselinePublications payloads) organizationId moment).run
  | seed organizationId =>
    (do
      ensureBaselinePublications (baselinePublications payloads) organizationId baselineSeedAttempts
      return [] : Publishing (List PublicationRow)).run

/-! ### What a session inserts -/

/-- The publication that a row supersedes is among some rows, and is of the same kind. -/
def PredecessorSeen (seen : List PublicationRow) (a : PublicationRow) : Prop :=
  ∀ p ∈ a.supersedesPublicationId, ∃ r ∈ seen,
    r.organizationId = a.organizationId ∧ r.publicationId = p ∧ r.kind = a.kind

/-- A part of a request inserts a publication only after the one that it supersedes was seen. -/
structure Orderly {ρ : Type} (x : Publishing ρ) : Prop where
  sound : ∀ seen, x.run.Sound PredecessorSeen seen fun _ _ => True

namespace Orderly

variable {ρ σ : Type}

/-- A part that does nothing. -/
lemma pure (a : ρ) : Orderly (pure a : Publishing ρ) := ⟨fun _ => trivial⟩

/-- A part that raises. -/
lemma throw (e : PublicationError) : Orderly (throw e : Publishing ρ) := ⟨fun _ => trivial⟩

/-- A query. -/
lemma select (p : PublicationRow → Bool) : Orderly (selectRows p) := ⟨fun _ _ _ => trivial⟩

/-- A commit. -/
lemma commit : Orderly commitRows := ⟨fun _ => trivial⟩

/-- Two parts. -/
lemma bind {x : Publishing ρ} {f : ρ → Publishing σ} (hx : Orderly x) (hf : ∀ a, Orderly (f a)) :
    Orderly (x >>= f) := by
  refine ⟨fun seen => Session.Sound.bindE ((hx.sound seen).imp fun seen' r _ => ?_)⟩
  cases r with
  | ok a => exact (hf a).sound seen'
  | error e => trivial

/-- A conditional. -/
lemma ite {c : Prop} [Decidable c] {x y : Publishing ρ} (hx : Orderly x) (hy : Orderly y) :
    Orderly (if c then x else y) := by
  split
  · exact hx
  · exact hy

/-- A query for one row. -/
lemma getRow (organizationId publicationId : Str) : Orderly (getRow organizationId publicationId) :=
  (select _).bind fun _ => .pure _

/-- A loop. -/
lemma foldlM {f : ρ → σ → Publishing ρ} (hf : ∀ a b, Orderly (f a b)) (bs : List σ) (a : ρ) :
    Orderly (bs.foldlM f a) := by
  induction bs generalizing a with
  | nil => exact .pure a
  | cons b bs ih =>
    rw [List.foldlM_cons]
    exact (hf a b).bind ih

end Orderly

/-- A query for one row returns what it saw. -/
lemma getRow_sound (organizationId publicationId : Str) (seen : List PublicationRow) :
    (getRow organizationId publicationId).run.Sound PredecessorSeen seen fun seen' result =>
      ∃ found, result = .ok found ∧ ∀ r ∈ found,
        r ∈ seen' ∧ r.organizationId = organizationId ∧ r.publicationId = publicationId := by
  refine Session.Sound.bindE fun rows hrows => ⟨rows.head?, rfl, fun r hr => ?_⟩
  have hmem : r ∈ rows := List.mem_of_mem_head? hr
  have hkey := hrows r hmem
  rw [Bool.and_eq_true, beq_iff_eq, beq_iff_eq] at hkey
  exact ⟨List.mem_append_left _ hmem, hkey⟩

/-- When the check of the predecessor returned, it was seen. -/
lemma requirePredecessor_sound (organizationId : Str) (request : ReferencePublicationCreate)
    (seen : List PublicationRow) :
    (requirePredecessor organizationId request).run.Sound PredecessorSeen seen fun seen' result =>
      result = .ok () → ∀ digest user t,
        PredecessorSeen seen' (newRow organizationId request digest user t) := by
  unfold requirePredecessor
  cases hsupersedes : request.supersedesPublicationID with
  | none =>
    intro _ digest user t p hp
    simp [newRow, hsupersedes] at hp
  | some supersedes =>
    refine Session.Sound.bindE ((getRow_sound organizationId supersedes.text seen).imp ?_)
    rintro seen' _ ⟨found, rfl, hfound⟩
    cases found with
    | none => exact fun h => by cases h
    | some predecessor =>
      obtain ⟨hmem, horg, hid⟩ := hfound predecessor rfl
      by_cases hkind : predecessor.kind ≠ request.kind
      · dsimp only
        rw [if_pos hkind]
        exact fun h => by cases h
      · dsimp only
        rw [if_neg hkind]
        intro _ digest user t p hp
        have htext : supersedes.text = p := by simpa [newRow, hsupersedes] using hp
        exact ⟨predecessor, hmem, horg, hid.trans htext, not_not.mp hkind⟩

/-- The insert of a publication. -/
lemma insertPublication_orderly (organizationId : Str) (request : ReferencePublicationCreate)
    (publishedByUserId : Str) :
    Orderly (insertPublication organizationId request publishedByUserId) := by
  have hperiod : Orderly (requirePeriod request) := by
    unfold requirePeriod
    split
    · exact .pure _
    · exact .ite (.throw _) (.ite (.throw _) (.pure _))
  have hdigest : Orderly (publicationSha256 request) := by
    unfold publicationSha256
    split
    · exact .throw _
    · exact .pure _
  have hversion : Orderly (requireVersionFree organizationId request) :=
    (Orderly.select _).bind fun _ => .ite (.throw _) (.pure _)
  refine hperiod.bind fun _ => hdigest.bind fun digest => (Orderly.getRow _ _).bind fun found => ?_
  cases found with
  | some existing =>
    dsimp only
    split
    · exact .pure _
    · exact .throw _
  | none =>
    refine hversion.bind fun _ => ⟨fun seen => ?_⟩
    refine Session.Sound.bindE ((requirePredecessor_sound organizationId request seen).imp ?_)
    intro seen' result hresult
    cases result with
    | error e => trivial
    | ok u => exact ⟨fun t => ⟨hresult rfl digest publishedByUserId t, trivial⟩, trivial⟩

/-- The insert of the baselines. -/
lemma ensureBaselinePublications_orderly (baselines : List ReferencePublicationCreate)
    (organizationId : Str) (left : ℕ) :
    Orderly (ensureBaselinePublications baselines organizationId left) := by
  have hseed : Orderly (seedBaselinePublications baselines organizationId) := by
    refine (Orderly.foldlM (fun created request => ?_) baselines false).bind fun created =>
      Orderly.ite (Orderly.commit.bind fun _ => .pure _) (.pure _)
    refine (Orderly.getRow _ _).bind fun found => ?_
    cases found with
    | some existing => exact .pure _
    | none => exact (insertPublication_orderly _ _ _).bind fun _ => .pure _
  induction left with
  | zero => exact .pure _
  | succ left ih =>
    refine ⟨fun seen => Session.Sound.bind ((hseed.sound seen).imp fun seen' result _ => ?_)⟩
    match result with
    | .ok _ => trivial
    | .error .integrityError =>
      by_cases hleft : left = 0
      · simp only [hleft]
        trivial
      · simp only [if_neg hleft]
        exact ih.sound []
    | .error (.publicationConflict _) => trivial
    | .error (.publicationNotFound _) => trivial
    | .error (.permissionError _) => trivial
    | .error .typeError => trivial
    | .error .unicodeError => trivial

/-- **Every operation** inserts a publication only after the one that it supersedes was seen. -/
theorem Operation.session_sound (payloads : BaselinePayloads) (operation : Operation) :
    (operation.session payloads).Sound PredecessorSeen [] fun _ _ => True := by
  have hensure : ∀ organizationId, Orderly (ensureBaselinePublications
      (baselinePublications payloads) organizationId baselineSeedAttempts) :=
    fun _ => ensureBaselinePublications_orderly _ _ _
  have hcases : ∃ x : Publishing (List PublicationRow),
      operation.session payloads = x.run ∧ Orderly x := by
    cases operation with
    | publish principal request =>
      refine ⟨_, rfl, Orderly.bind ?_ fun _ => .pure _⟩
      have hmanage : Orderly (requireManageCapability principal request.kind) :=
        .ite (.pure _) (.throw _)
      exact hmanage.bind fun _ => (hensure _).bind fun _ =>
        (insertPublication_orderly _ _ _).bind fun _ => Orderly.commit.bind fun _ => .pure _
    | get organizationId publicationId =>
      refine ⟨_, rfl, Orderly.bind ?_ fun _ => .pure _⟩
      refine (hensure _).bind fun _ => (Orderly.getRow _ _).bind fun found => ?_
      cases found with
      | none => exact .throw _
      | some model => exact .pure _
    | list organizationId kind =>
      exact ⟨_, rfl, (hensure _).bind fun _ => (Orderly.select _).bind fun _ => .pure _⟩
    | current organizationId moment =>
      exact ⟨_, rfl, (hensure _).bind fun _ => (Orderly.select _).bind fun _ => .pure _⟩
    | seed organizationId => exact ⟨_, rfl, (hensure _).bind fun _ => .pure _⟩
  obtain ⟨x, hx, horderly⟩ := hcases
  rw [hx]
  exact horderly.sound []

end VitrialSync.Publications
