import VitrialSync.Beam.Batch
import VitrialSync.Server.Assembly

set_option relaxedAutoImplicit false
set_option autoImplicit false

/-!
# The design of a quotation line

A quotation line may carry the design that was sold, as a snapshot that names the configuration
version it was taken from. This file says when such a snapshot is bound to a canonical version,
and which of the accepted quotations carry bound snapshots only.

## Main definitions

* `VitrialSync.Beam.Ownership.Bound` — a snapshot agrees with the live version of its item that it
  names, the digest of the bill of materials included.
* `VitrialSync.Beam.Ownership.DesignsBound` — every snapshot of a quotation is bound.
* `VitrialSync.Beam.Ownership.BindingsRun` — the condition under which it is so.

## Main results

* `VitrialSync.Beam.Ownership.bindDesignSnapshot_ok_iff` — what `bind_design_snapshot/4` compares.
* `VitrialSync.Beam.Ownership.authorize_designsBound_iff` — the snapshots of an accepted quotation
  are bound if and only if no binding is skipped and the digests agree.
-/

namespace VitrialSync.Beam

open Python Program Assembly

namespace Ownership

/-! ### Bound designs -/

/-- The version with the given id is live, and freezes an assembly in a configuration. -/
structure Frozen (world : World) (versionId : Str) (configuration assembly : Dict) : Prop where
  live : ∃ row payload, world.entity (.known .configurationVersion) versionId =
    some (.struct row) ∧ row.deletedAt = none ∧ row.payload.object? = some payload ∧
      payload.items.get "configuration" = .dict configuration
  assembly : configuration.get "assembly" = .dict assembly

/-- What the sections of an assembly and the section summary of a snapshot have in common. -/
def SectionsAgree (snapshot assembly : Dict) : Prop :=
  ∃ expected actual, (listWrap (assembly.get "sections")).mapM sectionSummary = .ok expected ∧
    (listWrap (snapshot.get "sectionSummary")).mapM sectionSummary = .ok actual ∧
    listEq actual expected = true

/-- A snapshot of a line agrees with a frozen assembly in everything but the bill of materials. -/
structure Agrees (line snapshot configuration assembly : Dict) : Prop where
  item : ∃ itemId, line.get "itemID" = .str itemId ∧ configuration.get "itemID" = .str itemId
  fields : ∀ label ∈ snapshotFields, pyEq (assembly.get label) (snapshot.get label) = true
  sections : SectionsAgree snapshot assembly

/-- The digest of the bill of materials that an assembly freezes, as the reference computes it. -/
def frozenBomSha256 (env : Env) (assembly : Dict) : Option Str :=
  (AssemblySnapshotV1.modelValidate env assembly >>= fun snapshot =>
    assemblyBomSha256 snapshot.bom).toOption

/-- A snapshot names the digest of the bill of materials of an assembly. -/
def DigestAgrees (env : Env) (snapshot assembly : Dict) : Prop :=
  ∃ digest, frozenBomSha256 env assembly = some digest ∧ snapshot.get "bomSHA256" = .str digest

/-- A snapshot of a line is bound: it names a live version of the item of the line, and agrees with
what this version freezes. -/
def Bound (env : Env) (world : World) (line snapshot : Dict) : Prop :=
  ∃ versionId configuration assembly,
    snapshot.get "configurationVersionID" = .str versionId ∧
    Frozen world versionId configuration assembly ∧
    Agrees line snapshot configuration assembly ∧ DigestAgrees env snapshot assembly

/-- The design of a line of a quotation. -/
structure HasDesign (payload line : Dict) (design : Value) : Prop where
  listed : ∃ lines, payload.get "lines" = .list lines ∧ .dict line ∈ lines
  carried : line.get "designSnapshot" = design
  present : design ≠ .none

/-- Every design of a quotation is a bound snapshot. -/
def DesignsBound (env : Env) (world : World) (payload : Dict) : Prop :=
  ∀ line design, HasDesign payload line design →
    ∃ snapshot, design = .dict snapshot ∧ Bound env world line snapshot

/-- The version that the binding of a snapshot goes to: the one that the line names, or else the
one that the snapshot names. -/
def namedVersion (line snapshot : Dict) : Option Str :=
  (line.get "configurationVersionID").str? <|> (snapshot.get "configurationVersionID").str?

/-- The binding of a snapshot is not skipped, or would go through, and the snapshot names the digest
of the bill of materials of its version. -/
def BindingRuns (env : Env) (world : World) (line snapshot : Dict) : Prop :=
  ∃ versionId configuration assembly, namedVersion line snapshot = some versionId ∧
    ((line.get "configurationVersionID").str? = none →
      bindDesignSnapshot snapshot versionId line world = .ok ()) ∧
    Frozen world versionId configuration assembly ∧ DigestAgrees env snapshot assembly

/-- It is so for every snapshot of a quotation. -/
def BindingsRun (env : Env) (world : World) (payload : Dict) : Prop :=
  ∀ line snapshot, HasDesign payload line (.dict snapshot) → BindingRuns env world line snapshot

/-! ### The binding -/

section Binding

variable {env : Env} {world : World} {line snapshot : Dict} {versionId : Str}

/-- A live version with a frozen assembly is what the first checks of the binding find. -/
lemma frozen_iff {configuration assembly : Dict} :
    Frozen world versionId configuration assembly ↔
      ∃ canonical, canonicalConfigurationVersion world versionId = .ok canonical ∧
        frozenAssembly canonical = .ok (configuration, assembly) := by
  constructor
  · rintro ⟨⟨row, payload, hrow, hlive, hobject, hconfiguration⟩, hassembly⟩
    refine ⟨payload.items, ?_, ?_⟩
    · simp [canonicalConfigurationVersion, hrow, activeStruct, hlive, hobject]
    · simp [frozenAssembly, hconfiguration, hassembly, Value.dict?]
  · rintro ⟨canonical, hcanonical, hfrozen⟩
    unfold canonicalConfigurationVersion at hcanonical
    split at hcanonical
    case h_2 => exact absurd hcanonical refuse_ne_ok
    case h_1 payload hpayload =>
      obtain rfl := Except.ok.inj hcanonical
      obtain ⟨row, hrow, hobject⟩ := Option.bind_eq_some_iff.mp hpayload
      unfold activeStruct at hrow
      split at hrow
      case h_2 => cases hrow
      case h_1 e he =>
        split at hrow
        case isFalse => cases hrow
        case isTrue hlive =>
          obtain rfl := Option.some.inj hrow
          unfold frozenAssembly at hfrozen
          split at hfrozen
          case h_1 => exact absurd hfrozen refuse_ne_ok
          case h_2 found hfound =>
            split at hfrozen
            case h_2 => exact absurd hfrozen refuse_ne_ok
            case h_1 frozen hassembly =>
              obtain ⟨rfl, rfl⟩ := Prod.mk.inj (Except.ok.inj hfrozen)
              exact ⟨⟨_, payload, he, Option.isNone_iff_eq_none.mp hlive, hobject,
                Value.dict?_eq_some.mp hfound⟩, Value.dict?_eq_some.mp hassembly⟩

/-- The item of the configuration is the one of the line. -/
lemma snapshotItemMatches_ok {configuration : Dict} {u : Unit} :
    snapshotItemMatches configuration line = .ok u ↔
      ∃ itemId, line.get "itemID" = .str itemId ∧ configuration.get "itemID" = .str itemId := by
  rw [snapshotItemMatches, refuseIf_eq_ok, Bool.not_eq_false', Option.any_eq_true]
  simp only [Value.str?_eq_some, Value.isStr_iff]

/-- The fields agree. -/
lemma snapshotFieldsMatch_ok {assembly : Dict} {u : Unit} :
    snapshotFieldsMatch snapshot assembly = .ok u ↔
      ∀ label ∈ snapshotFields, pyEq (assembly.get label) (snapshot.get label) = true := by
  cases u
  simp only [snapshotFieldsMatch, forM_eq_ok, refuseIf_eq_ok, Bool.not_eq_false']

/-- The summaries agree. -/
lemma sectionSummaryMatches_ok {assembly : Dict} {u : Unit} :
    sectionSummaryMatches snapshot assembly = .ok u ↔ SectionsAgree snapshot assembly := by
  simp only [sectionSummaryMatches, bind_eq_ok, refuseIf_eq_ok, Bool.not_eq_false']
  constructor
  · rintro ⟨expected, hexpected, actual, hactual, heq⟩
    exact ⟨expected, actual, hexpected, hactual, heq⟩
  · rintro ⟨expected, actual, hexpected, hactual, heq⟩
    exact ⟨expected, hexpected, actual, hactual, heq⟩

/-- **The binding.** It goes through if and only if the snapshot names the version and agrees with
what the version freezes. The digest of the bill of materials is not looked at. -/
theorem bindDesignSnapshot_ok_iff :
    bindDesignSnapshot snapshot versionId line world = .ok () ↔
      snapshot.get "configurationVersionID" = .str versionId ∧
        ∃ configuration assembly, Frozen world versionId configuration assembly ∧
          Agrees line snapshot configuration assembly := by
  simp only [bindDesignSnapshot, bind_eq_ok, refuseIf_eq_ok, Bool.not_eq_false', Value.isStr_iff,
    Prod.exists, frozen_iff, snapshotItemMatches_ok, snapshotFieldsMatch_ok,
    sectionSummaryMatches_ok]
  constructor
  · rintro ⟨canonical, hcanonical, _, hnames, configuration, assembly, hfrozen, _, hitem, _,
      hfields, hsections⟩
    exact ⟨hnames, configuration, assembly, ⟨canonical, hcanonical, hfrozen⟩,
      ⟨hitem, hfields, hsections⟩⟩
  · rintro ⟨hnames, configuration, assembly, ⟨canonical, hcanonical, hfrozen⟩, hagrees⟩
    exact ⟨canonical, hcanonical, (), hnames, configuration, assembly, hfrozen, (), hagrees.item,
      (), hagrees.fields, hagrees.sections⟩

/-- What a version freezes is determined. -/
lemma Frozen.unique {configuration assembly configuration' assembly' : Dict}
    (h : Frozen world versionId configuration assembly)
    (h' : Frozen world versionId configuration' assembly') :
    configuration = configuration' ∧ assembly = assembly' := by
  obtain ⟨canonical, hcanonical, hfrozen⟩ := frozen_iff.mp h
  obtain ⟨canonical', hcanonical', hfrozen'⟩ := frozen_iff.mp h'
  obtain rfl := Except.ok.inj (hcanonical.symm.trans hcanonical')
  exact Prod.mk.inj (Except.ok.inj (hfrozen.symm.trans hfrozen'))

/-- A bound snapshot is one that passes the binding to the version it names, and names the digest
of its bill of materials. -/
lemma bound_iff :
    Bound env world line snapshot ↔ ∃ versionId configuration assembly,
      bindDesignSnapshot snapshot versionId line world = .ok () ∧
        Frozen world versionId configuration assembly ∧ DigestAgrees env snapshot assembly := by
  constructor
  · rintro ⟨versionId, configuration, assembly, hnames, hfrozen, hagrees, hdigest⟩
    exact ⟨versionId, configuration, assembly,
      bindDesignSnapshot_ok_iff.mpr ⟨hnames, configuration, assembly, hfrozen, hagrees⟩,
      hfrozen, hdigest⟩
  · rintro ⟨versionId, configuration, assembly, hbind, hfrozen, hdigest⟩
    obtain ⟨hnames, configuration', assembly', hfrozen', hagrees⟩ :=
      bindDesignSnapshot_ok_iff.mp hbind
    obtain ⟨rfl, rfl⟩ := hfrozen.unique hfrozen'
    exact ⟨versionId, configuration, assembly, hnames, hfrozen, hagrees, hdigest⟩

/-- A line that went through is bound if and only if its binding runs.

**Proof sketch.** Where the line names a version the binding went through, and the snapshot names
the same version; where it does not, nothing is known of the snapshot, and the condition is what
the skipped binding would have checked. -/
lemma bound_iff_bindingRuns (hline : designSnapshot line world = .ok ())
    (hdesign : line.get "designSnapshot" = .dict snapshot) :
    Bound env world line snapshot ↔ BindingRuns env world line snapshot := by
  rw [bound_iff]
  cases hversion : (line.get "configurationVersionID").str? with
  | none =>
    constructor
    · rintro ⟨versionId, configuration, assembly, hbind, hfrozen, hdigest⟩
      have hnames := (bindDesignSnapshot_ok_iff.mp hbind).1
      refine ⟨versionId, configuration, assembly, ?_, fun _ => hbind, hfrozen, hdigest⟩
      rw [namedVersion, hversion, hnames]
      rfl
    · rintro ⟨versionId, configuration, assembly, -, hbind, hfrozen, hdigest⟩
      exact ⟨versionId, configuration, assembly, hbind hversion, hfrozen, hdigest⟩
  | some versionId =>
    have hbind : bindDesignSnapshot snapshot versionId line world = .ok () := by
      simpa only [designSnapshot, hdesign, hversion] using hline
    have hnamed : namedVersion line snapshot = some versionId := by
      rw [namedVersion, hversion]
      rfl
    constructor
    · rintro ⟨versionId', configuration, assembly, hbind', hfrozen, hdigest⟩
      have hnames := (bindDesignSnapshot_ok_iff.mp hbind).1
      obtain rfl := Value.str.inj (hnames.symm.trans (bindDesignSnapshot_ok_iff.mp hbind').1)
      refine ⟨versionId, configuration, assembly, hnamed, fun hnone => ?_, hfrozen, hdigest⟩
      rw [hversion] at hnone
      cases hnone
    · rintro ⟨versionId', configuration, assembly, hnamed', -, hfrozen, hdigest⟩
      obtain rfl := Option.some.inj (hnamed.symm.trans hnamed')
      exact ⟨versionId, configuration, assembly, hbind, hfrozen, hdigest⟩

end Binding

/-! ### Accepted quotations -/

section Accepted

variable {world : World} {principal : Principal} {scope : EffectiveScope} {genericExists : Bool}
  {entityId : Str} {payload line : Dict} {design : Value} {plan : Plan}

/-- The design of a line of an accepted quotation went through. -/
lemma designSnapshot_of_authorize
    (h : authorize (.known .quotation) entityId payload none principal scope genericExists world =
      .ok plan) (hdesign : HasDesign payload line design) :
    designSnapshot line world = .ok () := by
  simp only [authorize, authorizeQuotation, bind_eq_ok, pure_eq_ok, quotationBody] at h
  obtain ⟨_, -, project, -, _, hbody, -⟩ := h
  simp only [Option.isSome_none, Bool.false_eq_true, ↓reduceIte, bind_eq_ok] at hbody
  obtain ⟨_, -, _, -, _, hlines, -⟩ := hbody
  obtain ⟨lines, hpayload, hmem⟩ := hdesign.listed
  simp only [quotationLines, Value.list?_getOr _ hpayload] at hlines
  split at hlines
  case isTrue => exact absurd hlines refuse_ne_ok
  case isFalse =>
    have hline := forM_eq_ok.mp hlines (.dict line) hmem
    simp only [quotationLine, Value.dict?, bind_eq_ok] at hline
    obtain ⟨_, -, found, -, _, -, hsnapshot⟩ := hline
    exact hsnapshot

/-- A design that went through is an object. -/
lemma snapshot_of_designSnapshot (h : designSnapshot line world = .ok ())
    (hdesign : line.get "designSnapshot" = design) (hpresent : design ≠ .none) :
    ∃ snapshot, design = .dict snapshot := by
  unfold designSnapshot at h
  split at h
  case h_1 hnone => exact absurd (hdesign.symm.trans hnone) hpresent
  case h_2 snapshot hsnapshot => exact ⟨snapshot, hdesign.symm.trans hsnapshot⟩
  case h_3 => exact absurd h refuse_ne_ok

/-- **The binding of designs.** The designs of a quotation that is accepted are bound if and only if
no line leaves the binding out that it would not pass, and every snapshot names the digest of the
bill of materials that its version freezes. A tombstone stores no payload, and its lines are not
read.

**Proof sketch.** Every line with a design went through, so that the design is a snapshot; line by
line this is `bound_iff_bindingRuns`. -/
theorem authorize_designsBound_iff (env : Env)
    (h : authorize (.known .quotation) entityId payload none principal scope genericExists world =
      .ok plan) :
    DesignsBound env world payload ↔ BindingsRun env world payload := by
  constructor
  · intro hbound line snapshot hdesign
    obtain ⟨snapshot', hsnapshot, hline⟩ := hbound line _ hdesign
    obtain rfl := Value.dict.inj hsnapshot
    exact (bound_iff_bindingRuns (designSnapshot_of_authorize h hdesign) hdesign.carried).mp hline
  · intro hruns line design hdesign
    have hline := designSnapshot_of_authorize h hdesign
    obtain ⟨snapshot, rfl⟩ := snapshot_of_designSnapshot hline hdesign.carried hdesign.present
    exact ⟨snapshot, rfl, (bound_iff_bindingRuns hline hdesign.carried).mpr
      (hruns line snapshot hdesign)⟩

end Accepted

end Ownership

namespace Sample

/-- The sample organization with one item. -/
def itemWorld : World :=
  { world with
    customers := [⟨"c", none, true⟩]
    projects := [⟨"p", "c", none, true⟩]
    projectSectors := [⟨"ps", "p", "x", none, true⟩]
    items := [⟨"i", "p", some "ps", none, true⟩] }

/-- A line of the item with an empty design, that names no configuration version. -/
def unboundLine : Dict := [("itemID", .str "i"), ("designSnapshot", .dict [])]

/-- A draft with this line. -/
def unboundQuotation : Dict :=
  [("id", .str "q"), ("projectID", .str "p"), ("customerID", .str "c"), ("status", .str "draft"),
    ("lines", .list [.dict unboundLine])]

end Sample

namespace Ownership

/-- The quotation is accepted. -/
lemma unboundQuotation_authorized :
    ∃ plan, authorize (.known .quotation) "q" Sample.unboundQuotation none
      VitrialSync.Sample.principal (EffectiveScope.fromPrincipal VitrialSync.Sample.principal)
      false Sample.itemWorld = .ok plan := by
  have h : (authorize (.known .quotation) "q" Sample.unboundQuotation none
      VitrialSync.Sample.principal (EffectiveScope.fromPrincipal VitrialSync.Sample.principal)
      false Sample.itemWorld).toOption.isSome = true := by
    decide +kernel
  obtain ⟨plan, hplan⟩ := Option.isSome_iff_exists.mp h
  exact ⟨plan, toOption_eq_some hplan⟩

/-- Its line carries the empty design. -/
lemma unboundQuotation_design :
    HasDesign Sample.unboundQuotation Sample.unboundLine (.dict []) where
  listed := ⟨[.dict Sample.unboundLine], rfl, List.mem_singleton_self _⟩
  carried := rfl
  present := Value.noConfusion

/-- The empty design is not bound: it names no version. -/
lemma unboundQuotation_unbound (env : Env) :
    ¬ DesignsBound env Sample.itemWorld Sample.unboundQuotation := by
  intro hbound
  obtain ⟨snapshot, hsnapshot, versionId, configuration, assembly, hnames, -⟩ :=
    hbound _ _ unboundQuotation_design
  obtain rfl := Value.dict.inj hsnapshot
  cases hnames

/-- A quotation with a design that is bound to nothing is accepted. -/
theorem authorize_unbound :
    ∃ plan, authorize (.known .quotation) "q" Sample.unboundQuotation none
        VitrialSync.Sample.principal (EffectiveScope.fromPrincipal VitrialSync.Sample.principal)
        false Sample.itemWorld = .ok plan ∧
      ∀ env, ¬ DesignsBound env Sample.itemWorld Sample.unboundQuotation := by
  obtain ⟨plan, hplan⟩ := unboundQuotation_authorized
  exact ⟨plan, hplan, unboundQuotation_unbound⟩

/-- Its binding does not run. -/
theorem authorize_designsBound_iff_unbound :
    ¬ ∃ env, BindingsRun env Sample.itemWorld Sample.unboundQuotation := by
  rintro ⟨env, hruns⟩
  obtain ⟨plan, hplan⟩ := unboundQuotation_authorized
  exact unboundQuotation_unbound env ((authorize_designsBound_iff env hplan).mpr hruns)

end Ownership

end VitrialSync.Beam
