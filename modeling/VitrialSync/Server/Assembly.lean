import VitrialSync.Python.Json
import VitrialSync.Python.Hash
import VitrialSync.Server.Schema

set_option relaxedAutoImplicit false
set_option autoImplicit false

/-!
# The assembly contract

The assembly snapshots that configurations and quotation lines may embed
(`app/assembly_contract.py`). Parsing a raw object into the typed models, with the bounds of the
single fields, is pydantic's work and enters as the parameter `Env`; the validators that the
service adds to the models, and everything it does with the parsed snapshots, are modelled here.

## Main definitions

* `VitrialSync.Env` — field validation of pydantic, the message of `json.loads`, and the settings.
* `VitrialSync.Assembly.AssemblySnapshotV1`, `VitrialSync.Assembly.QuotationAssemblyDesignSnapshotV1`
  — the parsed models, with the fields that the service reads.
* `VitrialSync.Assembly.validateConfigurationAssembly` — `validate_configuration_assembly`.
* `VitrialSync.Assembly.assemblyBomSha256` — `assembly_bom_sha256`.
* `VitrialSync.Assembly.validateAssemblyContractMutation` —
  `validate_assembly_contract_mutation`.
* `VitrialSync.Assembly.validateQuotationDesignAgainstConfigurationVersion` —
  `validate_quotation_design_against_configuration_version`.
-/

namespace VitrialSync

open Python Program

namespace Assembly

/-! ### Models -/

/-- `AssemblySectionType`. -/
inductive SectionType where
  | fixed
  | sliding
  | projected
  | swing
  | other
  deriving DecidableEq

/-- The wire name of a section type. -/
def SectionType.name : SectionType → String
  | fixed => "fixed"
  | sliding => "sliding"
  | projected => "projected"
  | swing => "swing"
  | other => "other"

/-- `AssemblyOperation`, when there is one. -/
inductive SectionOperation where
  | left
  | right
  | inward
  | outward
  deriving DecidableEq

/-- The wire name of an operation. -/
def SectionOperation.name : SectionOperation → String
  | left => "left"
  | right => "right"
  | inward => "inward"
  | outward => "outward"

/-- `BOMUnit`. -/
inductive BomUnit where
  | m2
  | m
  | each
  deriving DecidableEq

/-- The wire name of a unit. -/
def BomUnit.name : BomUnit → String
  | m2 => "m2"
  | m => "m"
  | each => "each"

/-- `AssemblyOverall`; the unit is always `"mm"`. -/
structure AssemblyOverall where
  (width height : Binary64)

/-- `AssemblyNormalizedFrame`. -/
structure AssemblyNormalizedFrame where
  (x y width height : Binary64)

/-- `AssemblySectionSnapshot`. -/
structure AssemblySectionSnapshot where
  id : Str
  sectionType : SectionType
  operation : Option SectionOperation
  frame : AssemblyNormalizedFrame

/-- `AssemblyReferenceDataPins`. -/
structure AssemblyReferenceDataPins where
  catalogVersionID : Str
  catalogContentSHA256 : Str
  compatibilityRulesVersionID : Str
  compatibilityRulesContentSHA256 : Str
  priceBookVersionID : Str
  priceBookContentSHA256 : Str
  deriving DecidableEq

/-- `AssemblyBOMLine`. -/
structure AssemblyBOMLine where
  id : Str
  role : Str
  referenceEntryIDs : List Str
  sourceRuleID : Str
  sourceSectionID : Option Str
  quantity : Binary64
  unit : BomUnit
  wasteQuantity : Binary64

/-- `AssemblyBOMSnapshot`; the schema is always `"vitrial.bom.v1"`. -/
structure AssemblyBOMSnapshot where
  engineVersion : Str
  configurationID : Str
  configurationVersion : ℤ
  calculationBasis : Str
  lines : List AssemblyBOMLine

/-- `AssemblyRenderSection`. -/
structure AssemblyRenderSection where
  sectionID : Str
  sectionType : SectionType
  operation : Option SectionOperation
  frame : AssemblyNormalizedFrame

/-- `AssemblyRenderDescriptor`. -/
structure AssemblyRenderDescriptor where
  configurationID : Str
  configurationVersion : ℤ
  (overallWidthMM overallHeightMM : Binary64)
  sections : List AssemblyRenderSection

/-- `AssemblySnapshotV1`. -/
structure AssemblySnapshotV1 where
  templateID : Str
  templateVersion : ℤ
  overall : AssemblyOverall
  sections : List AssemblySectionSnapshot
  referenceData : AssemblyReferenceDataPins
  bom : AssemblyBOMSnapshot
  renderDescriptor : AssemblyRenderDescriptor

/-- `QuotationAssemblyDesignSnapshotV1`. -/
structure QuotationAssemblyDesignSnapshotV1 where
  templateID : Str
  templateVersion : ℤ
  configurationVersionID : Str
  overall : AssemblyOverall
  sectionSummary : List Dict
  renderDescriptor : AssemblyRenderDescriptor
  bomSHA256 : Str
  referenceData : AssemblyReferenceDataPins

/-- Equality of frames. -/
def AssemblyNormalizedFrame.eq (a b : AssemblyNormalizedFrame) : Bool :=
  a.x.eq b.x && a.y.eq b.y && a.width.eq b.width && a.height.eq b.height

/-- Equality of overall dimensions. -/
def AssemblyOverall.eq (a b : AssemblyOverall) : Bool :=
  a.width.eq b.width && a.height.eq b.height

/-- Equality of rendered sections. -/
def AssemblyRenderSection.eq (a b : AssemblyRenderSection) : Bool :=
  a.sectionID == b.sectionID && a.sectionType == b.sectionType && a.operation == b.operation &&
    a.frame.eq b.frame

/-- Equality of lists of rendered sections. -/
def renderSectionsEq : List AssemblyRenderSection → List AssemblyRenderSection → Bool
  | [], [] => true
  | a :: as, b :: bs => a.eq b && renderSectionsEq as bs
  | _, _ => false

/-- Equality of render descriptors. -/
def AssemblyRenderDescriptor.eq (a b : AssemblyRenderDescriptor) : Bool :=
  a.configurationID == b.configurationID && a.configurationVersion == b.configurationVersion &&
    a.overallWidthMM.eq b.overallWidthMM && a.overallHeightMM.eq b.overallHeightMM &&
    renderSectionsEq a.sections b.sections

end Assembly

/-- What the service takes from outside: pydantic's validation of the fields of the two assembly
models (with the text of its error), the text of the exception `json.loads` raises, and the
setting `evidence_gc_grace_seconds`. -/
structure Env where
  assemblyFields : Dict → Except Str Assembly.AssemblySnapshotV1
  designFields : Dict → Except Str Assembly.QuotationAssemblyDesignSnapshotV1
  loadsError : Bytes → Str
  evidenceGcGraceSeconds : ℤ

namespace Assembly

/-- `raise ValueError(message)`. -/
def invalid (message : String) : Exc := .valueError message

/-! ### Validators of the models -/

/-- `_FRAME_TOLERANCE`. -/
def frameTolerance : Binary64 := Binary64.ofRat false (1 / 1000000)

/-- The float `1.0`. -/
def one : Binary64 := Binary64.ofInt 1

/-- `abs(a - b) > _FRAME_TOLERANCE`. -/
def differs (a b : Binary64) : Bool := frameTolerance.lt (a.sub b).abs

/-- `frame_must_fit_opening`. -/
def frameMustFitOpening (f : AssemblyNormalizedFrame) : Except Exc Unit := do
  raiseIf ((one.add frameTolerance).lt (f.x.add f.width))
    (invalid "normalized frame exceeds opening width")
  raiseIf ((one.add frameTolerance).lt (f.y.add f.height))
    (invalid "normalized frame exceeds opening height")

/-- The loop over the sections in `validate_consistent_projection`: one planar band without gaps.
`cursor` is where the previous section ended. -/
def requirePlanarBand : (sections : List AssemblySectionSnapshot) → (cursor : Binary64) →
    Except Exc Unit
  | [], cursor =>
    raiseIf (differs cursor one) (invalid "v1 planar sections must fill the opening width")
  | s :: rest, cursor => do
    raiseIf (frameTolerance.lt s.frame.y.abs) (invalid "v1 planar section y must be zero")
    raiseIf (differs s.frame.height one)
      (invalid "v1 planar sections must span the opening height")
    raiseIf (differs s.frame.x cursor)
      (invalid "v1 planar sections must be contiguous without gaps or overlap")
    requirePlanarBand rest (s.frame.x.add s.frame.width)

/-- `render_by_id[id]`: the last rendered section with the id. -/
def renderById (r : AssemblyRenderDescriptor) (id : Str) : Option AssemblyRenderSection :=
  r.sections.reverse.find? fun s => s.sectionID == id

/-- `set(xs) == set(ys)`. -/
def sameSet (xs ys : List Str) : Bool := xs.all ys.contains && ys.all xs.contains

/-- `validate_consistent_projection`. -/
def validateConsistentProjection (a : AssemblySnapshotV1) : Except Exc Unit := do
  let sectionIds := a.sections.map AssemblySectionSnapshot.id
  raiseIf (!decide sectionIds.Nodup) (invalid "assembly section ids must be unique")
  requirePlanarBand a.sections (Binary64.ofInt 0)
  raiseIf (a.renderDescriptor.configurationID != a.bom.configurationID)
    (invalid "render descriptor and BOM configuration identity disagree")
  raiseIf (a.renderDescriptor.configurationVersion != a.bom.configurationVersion)
    (invalid "render descriptor and BOM configuration version disagree")
  raiseIf (differs a.renderDescriptor.overallWidthMM a.overall.width)
    (invalid "render descriptor width does not match assembly")
  raiseIf (differs a.renderDescriptor.overallHeightMM a.overall.height)
    (invalid "render descriptor height does not match assembly")
  raiseIf (!sameSet (a.renderDescriptor.sections.map AssemblyRenderSection.sectionID) sectionIds)
    (invalid "render descriptor section identity does not match assembly")
  a.sections.forM fun s =>
    raiseIf (!(renderById a.renderDescriptor s.id).any fun r =>
        r.sectionType == s.sectionType && r.operation == s.operation && r.frame.eq s.frame)
      (invalid "render descriptor section diverges from canonical assembly")
  a.bom.lines.forM fun l =>
    raiseIf (l.sourceSectionID.any fun s => !sectionIds.contains s)
      (invalid "BOM line sourceSectionID is not part of the assembly")

/-- `AssemblySnapshotV1.model_validate`: the fields, the frames inside them, and the validator of
the model. -/
def AssemblySnapshotV1.modelValidate (env : Env) (raw : Dict) :
    Except Exc AssemblySnapshotV1 := do
  let snapshot ← (env.assemblyFields raw).mapError Exc.valueError
  snapshot.sections.forM fun s => frameMustFitOpening s.frame
  snapshot.renderDescriptor.sections.forM fun s => frameMustFitOpening s.frame
  validateConsistentProjection snapshot
  return snapshot

/-- `f"{configurationID}#v{configurationVersion}"`. -/
def versionedId (configurationID : Str) (version : ℤ) : Str :=
  configurationID ++ Str.ofString "#v" ++ Str.ofInt version

/-- `validate_render_identity`. -/
def validateRenderIdentity (d : QuotationAssemblyDesignSnapshotV1) : Except Exc Unit := do
  raiseIf (d.configurationVersionID !=
      versionedId d.renderDescriptor.configurationID d.renderDescriptor.configurationVersion)
    (invalid "quotation designSnapshot configurationVersionID does not match render descriptor")
  raiseIf (differs d.renderDescriptor.overallWidthMM d.overall.width)
    (invalid "quotation designSnapshot width does not match render descriptor")
  raiseIf (differs d.renderDescriptor.overallHeightMM d.overall.height)
    (invalid "quotation designSnapshot height does not match render descriptor")

/-- `QuotationAssemblyDesignSnapshotV1.model_validate`. -/
def QuotationAssemblyDesignSnapshotV1.modelValidate (env : Env) (raw : Dict) :
    Except Exc QuotationAssemblyDesignSnapshotV1 := do
  let snapshot ← (env.designFields raw).mapError Exc.valueError
  snapshot.renderDescriptor.sections.forM fun s => frameMustFitOpening s.frame
  validateRenderIdentity snapshot
  return snapshot

/-! ### The digest of a bill of materials -/

/-- `f"{x:.6f}"` of a finite float. -/
def fixed6 (x : Binary64) : Str :=
  let n := Binary64.roundHalfEven (x.abs.toRat * 1000000)
  Str.ofString (if x.sign then "-" else "") ++ Str.ofNat (n / 1000000) ++ Str.ofString "." ++
    DateTime.padded 6 (n % 1000000)

/-- `_bom_digest_decimal6`. -/
def bomDigestDecimal6 (value : Binary64) : Except Exc Str := do
  raiseIf (!value.isFinite) (invalid "BOM digest input contains a non-finite numeric value")
  return fixed6 (if value.eq (Binary64.ofInt 0) then Binary64.ofInt 0 else value)

/-- A member of the digest material. -/
def member (key : String) (v : Value) : Str × Value := (Str.ofString key, v)

/-- The digest material of one line. -/
def bomLineMaterial (l : AssemblyBOMLine) : Except Exc Value := do
  let quantity ← bomDigestDecimal6 l.quantity
  let wasteQuantity ← bomDigestDecimal6 l.wasteQuantity
  return .dict
    [member "id" (.str l.id), member "role" (.str l.role),
      member "referenceEntryIDs" (.list (l.referenceEntryIDs.map .str)),
      member "sourceRuleID" (.str l.sourceRuleID),
      member "sourceSectionID" (.str (l.sourceSectionID.getD [])),
      member "quantity" (.str quantity), member "unit" (.str l.unit.name),
      member "wasteQuantity" (.str wasteQuantity)]

/-- `canonical_bom_digest_material`. -/
def canonicalBomDigestMaterial (bom : AssemblyBOMSnapshot) : Except Exc Bytes := do
  let lines ← bom.lines.mapM bomLineMaterial
  let material := Value.dict
    [member "schema" (.str "vitrial.bom-digest.v1"), member "bomSchema" (.str "vitrial.bom.v1"),
      member "engineVersion" (.str bom.engineVersion),
      member "configurationID" (.str bom.configurationID),
      member "configurationVersion" (.int bom.configurationVersion),
      member "calculationBasis" (.str bom.calculationBasis), member "lines" (.list lines)]
  match encodeUtf8? (Json.dumps false material) with
  | some bytes => .ok bytes
  | none => .error (invalid "surrogates not allowed")

/-- `assembly_bom_sha256`. -/
def assemblyBomSha256 (bom : AssemblyBOMSnapshot) : Except Exc Str := do
  return Sha256.hexdigest (← canonicalBomDigestMaterial bom)

/-! ### Payload checks -/

/-- `validate_configuration_assembly`. -/
def validateConfigurationAssembly (env : Env) (payload : Dict) :
    Except Exc (Option AssemblySnapshotV1) :=
  match payload.get "assembly" with
  | .none => .ok none
  | .dict raw => do
    let snapshot ← AssemblySnapshotV1.modelValidate env raw
    match (payload.get "id").str? with
    | none => .ok ()
    | some id => do
      raiseIf (snapshot.renderDescriptor.configurationID != id)
        (invalid "render descriptor configurationID does not match Configuration")
      raiseIf (snapshot.bom.configurationID != id)
        (invalid "BOM configurationID does not match Configuration")
    match (payload.get "version").properInt? with
    | none => .ok ()
    | some version => do
      raiseIf (snapshot.renderDescriptor.configurationVersion != version)
        (invalid "render descriptor configurationVersion does not match Configuration")
      raiseIf (snapshot.bom.configurationVersion != version)
        (invalid "BOM configurationVersion does not match Configuration")
    return some snapshot
  | _ => .error (invalid "configuration assembly payload must be an object")

/-- `validate_quotation_line_design_snapshot`. -/
def validateQuotationLineDesignSnapshot (env : Env) (line : Dict) :
    Except Exc (Option QuotationAssemblyDesignSnapshotV1) :=
  match line.get "designSnapshot" with
  | .none => .ok none
  | .dict raw => do
    let snapshot ← QuotationAssemblyDesignSnapshotV1.modelValidate env raw
    raiseIf ((line.get "configurationVersionID").str?.any
        fun id => snapshot.configurationVersionID != id)
      (invalid "quotation designSnapshot configurationVersionID does not match quotation line")
    return some snapshot
  | _ => .error (invalid "quotation line designSnapshot must be an object")

/-- The envelope check of a configuration version: `id` is `f"{configuration id}#v{version}"`. -/
def envelopeMatches (payload configuration : Dict) : Bool :=
  match (payload.get "id").str?, (configuration.get "id").str?,
    (configuration.get "version").properInt? with
  | some envelopeId, some configurationId, some version =>
    envelopeId == versionedId configurationId version
  | _, _, _ => false

/-- The check of one quotation line; `index` is its position. -/
def validateQuotationLine (env : Env) (indexed : Value × ℕ) : Except Exc Unit :=
  match indexed.1 with
  | .dict line =>
    if Dict.contains line "designSnapshot" then
      match validateQuotationLineDesignSnapshot env line with
      | .error (.valueError message) =>
        .error (.valueError (Str.ofString "quotation line " ++ Str.ofNat (indexed.2 + 1) ++
          Str.ofString " assembly design is invalid: " ++ message))
      | .error e => .error e
      | .ok _ => .ok ()
    else .ok ()
  | _ => .ok ()

/-- `validate_assembly_contract_mutation`. -/
def validateAssemblyContractMutation (env : Env) (entityType : EntityType) (payload : Dict) :
    Except Exc Unit :=
  match entityType with
  | .configuration =>
    if payload.contains "assembly" then do
      let _ ← validateConfigurationAssembly env payload
    else .ok ()
  | .configurationVersion =>
    match payload.get "configuration" with
    | .dict configuration =>
      if Dict.contains configuration "assembly" then do
        match ← validateConfigurationAssembly env configuration with
        | none => .ok ()
        | some _ =>
          raiseIf (!envelopeMatches payload configuration)
            (invalid ("configuration_version envelope does not match nested Configuration " ++
              "identity/version"))
      else .ok ()
    | _ => .ok ()
  | .quotation =>
    match payload.get "lines" with
    | .list lines => lines.zipIdx.forM (validateQuotationLine env)
    | _ => .ok ()
  | _ => .ok ()

/-- One entry of a section summary, as it is compared. -/
def summaryEntry (sectionType operation : Value) : Value :=
  .dict [member "sectionType" sectionType, member "operation" operation]

/-- The section summary of a canonical snapshot. -/
def expectedSummary (a : AssemblySnapshotV1) : Value :=
  .list (a.sections.map fun s => summaryEntry (.str s.sectionType.name)
    (match s.operation with
      | some o => .str o.name
      | none => .none))

/-- The section summary of a design snapshot. -/
def actualSummary (d : QuotationAssemblyDesignSnapshotV1) : Value :=
  .list (d.sectionSummary.map fun e => summaryEntry (e.get "sectionType") (e.get "operation"))

/-- `validate_quotation_design_against_configuration_version`. -/
def validateQuotationDesignAgainstConfigurationVersion (env : Env)
    (line configurationVersionPayload : Dict) : Except Exc Unit := do
  match ← validateQuotationLineDesignSnapshot env line with
  | none => .ok ()
  | some snapshot =>
    match (configurationVersionPayload.get "id").str?,
      (configurationVersionPayload.get "configuration").dict? with
    | some envelopeId, some configuration => do
      raiseIf (snapshot.configurationVersionID != envelopeId)
        (invalid "quotation designSnapshot does not reference canonical ConfigurationVersion")
      match ← validateConfigurationAssembly env configuration with
      | none => .error (invalid "canonical ConfigurationVersion has no frozen assembly snapshot")
      | some canonical => do
        raiseIf (!(line.get "itemID").str?.any fun id => (configuration.get "itemID").isStr id)
          (invalid "quotation designSnapshot ConfigurationVersion belongs to another Item")
        raiseIf (snapshot.templateID != canonical.templateID ||
            snapshot.templateVersion != canonical.templateVersion)
          (invalid "quotation designSnapshot template differs from canonical ConfigurationVersion")
        raiseIf (!snapshot.overall.eq canonical.overall)
          (invalid
            "quotation designSnapshot dimensions differ from canonical ConfigurationVersion")
        raiseIf (snapshot.referenceData != canonical.referenceData)
          (invalid ("quotation designSnapshot reference provenance differs from canonical " ++
            "ConfigurationVersion"))
        raiseIf (!snapshot.renderDescriptor.eq canonical.renderDescriptor)
          (invalid ("quotation designSnapshot render descriptor differs from canonical " ++
            "ConfigurationVersion"))
        let expectedBomSha256 ← assemblyBomSha256 canonical.bom
        raiseIf (snapshot.bomSHA256 != expectedBomSha256)
          (invalid
            "quotation designSnapshot BOM digest differs from canonical ConfigurationVersion")
        raiseIf ((actualSummary snapshot).ne (expectedSummary canonical))
          (invalid ("quotation designSnapshot section summary differs from canonical " ++
            "ConfigurationVersion"))
    | _, _ => .error (invalid "canonical configuration_version payload is malformed")

end Assembly

end VitrialSync
