import VitrialSync.Server.Assembly

set_option relaxedAutoImplicit false
set_option autoImplicit false

/-!
# The render descriptor of an assembly

An assembly lists its sections twice: as they are ordered, and as they are rendered. Validation
looks the rendered sections up by their ids, in a dictionary that keeps the last of those with one
id. So it finds every section rendered, and every rendered id a section, but a second rendered
section with the id of another is not seen.

## Main definitions

* `VitrialSync.Assembly.MirrorsSections` — the descriptor renders each section once, as it is.

## Main results

* `VitrialSync.Assembly.validateConsistentProjection_spec` — what validation establishes of the
  descriptor.
* `VitrialSync.Assembly.accepted_mirrors_iff` — the descriptor of an accepted assembly mirrors the
  sections exactly when it lists as many.
-/

namespace VitrialSync.Assembly

open Python Program

/-! ### What the validation establishes -/

/-- The ids of the sections. -/
def sectionIds (a : AssemblySnapshotV1) : List Str := a.sections.map AssemblySectionSnapshot.id

/-- The ids of the rendered sections. -/
def renderedIds (a : AssemblySnapshotV1) : List Str :=
  a.renderDescriptor.sections.map AssemblyRenderSection.sectionID

/-- A rendered section agrees with a section. -/
def Agrees (r : AssemblyRenderSection) (s : AssemblySectionSnapshot) : Prop :=
  r.sectionType = s.sectionType ∧ r.operation = s.operation ∧ r.frame.eq s.frame = true

/-- The descriptor renders the sections: it is a permutation of them by their ids, no id is there
twice, and entries with one id agree. -/
structure MirrorsSections (a : AssemblySnapshotV1) : Prop where
  perm : (renderedIds a).Perm (sectionIds a)
  nodup : (sectionIds a).Nodup
  rendered_nodup : (renderedIds a).Nodup
  agrees : ∀ r ∈ a.renderDescriptor.sections, ∀ s ∈ a.sections, r.sectionID = s.id → Agrees r s

/-- What validation establishes of the sections and the descriptor: the ids of the sections are
distinct, the descriptor has the same ids, and the last rendered section with the id of a section
agrees with it. -/
structure DescriptorChecked (a : AssemblySnapshotV1) : Prop where
  nodup : (sectionIds a).Nodup
  mem_iff : ∀ id, id ∈ renderedIds a ↔ id ∈ sectionIds a
  rendered : ∀ s ∈ a.sections, ∃ r, renderById a.renderDescriptor s.id = some r ∧ Agrees r s

/-- Two lists make the same set. -/
lemma sameSet_iff {xs ys : List Str} : sameSet xs ys = true ↔ ∀ id, id ∈ xs ↔ id ∈ ys := by
  simp only [sameSet, Bool.and_eq_true, List.all_eq_true, List.contains_iff_mem]
  exact ⟨fun h id => ⟨h.1 id, h.2 id⟩, fun h => ⟨fun id => (h id).mp, fun id => (h id).mpr⟩⟩

/-- What validation establishes of the descriptor. -/
lemma validateConsistentProjection_spec {a : AssemblySnapshotV1}
    (h : validateConsistentProjection a = .ok ()) : DescriptorChecked a := by
  simp only [validateConsistentProjection, bind_eq_ok, raiseIf_eq_ok, exists_const,
    Bool.not_eq_false', decide_eq_true_eq] at h
  obtain ⟨hnodup, -, -, -, -, -, -, hset, ⟨⟩, hrendered, -⟩ := h
  refine ⟨hnodup, sameSet_iff.mp hset, fun s hs => ?_⟩
  have hfound := raiseIf_eq_ok.mp (forM_eq_ok.mp hrendered s hs)
  rw [Bool.not_eq_false'] at hfound
  cases hr : renderById a.renderDescriptor s.id with
  | none => simp [hr] at hfound
  | some r =>
    simp only [hr, Option.any_some, Bool.and_eq_true, beq_iff_eq] at hfound
    exact ⟨r, rfl, hfound.1.1, hfound.1.2, hfound.2⟩

/-- Lookup by a rendered id that is there once. -/
lemma renderById_of_nodup {r : AssemblyRenderDescriptor}
    (hnodup : (r.sections.map AssemblyRenderSection.sectionID).Nodup) {s : AssemblyRenderSection}
    (hs : s ∈ r.sections) : renderById r s.sectionID = some s := by
  rw [renderById]
  have hnodup' : (r.sections.reverse.map AssemblyRenderSection.sectionID).Nodup := by
    rw [List.map_reverse]
    exact List.nodup_reverse.mpr hnodup
  have hs' : s ∈ r.sections.reverse := List.mem_reverse.mpr hs
  generalize r.sections.reverse = sections at hnodup' hs'
  induction sections with
  | nil => simp at hs'
  | cons t sections ih =>
    rw [List.map_cons, List.nodup_cons] at hnodup'
    rw [List.find?_cons]
    by_cases ht : t.sectionID = s.sectionID
    · rcases List.mem_cons.mp hs' with rfl | hmem
      · simp
      · exact absurd (List.mem_map.mpr ⟨s, hmem, ht.symm⟩) hnodup'.1
    · rw [show (t.sectionID == s.sectionID) = false from beq_false_of_ne ht]
      refine ih hnodup'.2 ((List.mem_cons.mp hs').resolve_left ?_)
      rintro rfl
      exact ht rfl

/-- **The descriptor of an accepted assembly mirrors the sections exactly when it lists as many.**

**Proof sketch.** The ids of the descriptor are those of the sections, which are distinct. If there
are as many, they are distinct too, so the dictionary that validation builds forgets none of
them. -/
theorem accepted_mirrors_iff {env : Env} {raw : Dict} {a : AssemblySnapshotV1}
    (h : AssemblySnapshotV1.modelValidate env raw = .ok a) :
    MirrorsSections a ↔ a.renderDescriptor.sections.length = a.sections.length := by
  simp only [AssemblySnapshotV1.modelValidate, bind_eq_ok, pure_eq_ok] at h
  obtain ⟨snapshot, -, -, -, -, -, ⟨⟩, hchecked, rfl⟩ := h
  obtain ⟨hnodup, hmem, hrendered⟩ := validateConsistentProjection_spec hchecked
  constructor
  · intro hmirrors
    simpa [renderedIds, sectionIds] using hmirrors.perm.length_eq
  · intro hlength
    have hsubperm : (sectionIds snapshot).Subperm (renderedIds snapshot) :=
      List.subperm_of_subset hnodup fun id hid => (hmem id).mpr hid
    have hperm : (renderedIds snapshot).Perm (sectionIds snapshot) := by
      refine (hsubperm.perm_of_length_le ?_).symm
      simp [renderedIds, sectionIds, hlength]
    have hrenderedNodup : (renderedIds snapshot).Nodup := hperm.nodup_iff.mpr hnodup
    refine ⟨hperm, hnodup, hrenderedNodup, fun r hr s hs hid => ?_⟩
    obtain ⟨found, hfound, hagrees⟩ := hrendered s hs
    rw [← hid, renderById_of_nodup hrenderedNodup hr] at hfound
    exact Option.some.inj hfound ▸ hagrees

namespace Sample

/-- The left or the right half of the opening. -/
def half (right : Bool) : AssemblyNormalizedFrame :=
  ⟨if right then Binary64.ofRat false (1 / 2) else Binary64.ofInt 0, Binary64.ofInt 0,
    Binary64.ofRat false (1 / 2), one⟩

/-- A fixed section on the left and a sliding one on the right. -/
def sections : List AssemblySectionSnapshot :=
  [⟨"s1", .fixed, none, half false⟩, ⟨"s2", .sliding, some .left, half true⟩]

/-- The sections as they are rendered. -/
def rendered : List AssemblyRenderSection :=
  [⟨"s2", .sliding, some .left, half true⟩, ⟨"s1", .fixed, none, half false⟩]

/-- A first rendered section that has the id of another and agrees with nothing. -/
def shadowed : AssemblyRenderSection := ⟨"s1", .swing, some .outward, half true⟩

/-- A digest of the reference data. -/
def digest : Str := List.replicate 64 (CodePoint.ofChar 'a')

/-- An assembly of the two sections. -/
def assembly (rendered : List AssemblyRenderSection) : AssemblySnapshotV1 where
  templateID := "t"
  templateVersion := 1
  overall := ⟨one, one⟩
  sections := sections
  referenceData := ⟨"c", digest, "r", digest, "p", digest⟩
  bom := ⟨"e", "k", 1, "b", []⟩
  renderDescriptor := ⟨"k", 1, one, one, rendered⟩

/-- The items of a frame. -/
def frameItems (f : AssemblyNormalizedFrame) : Value :=
  .dict [("x", .float f.x), ("y", .float f.y), ("width", .float f.width),
    ("height", .float f.height)]

/-- The items that a section and a rendered section have, with the key of the id. -/
def partItems (key : String) (id : Str) (sectionType : SectionType)
    (operation : Option SectionOperation) (frame : AssemblyNormalizedFrame) : Dict :=
  [(key, .str id), ("sectionType", .str sectionType.name),
    ("operation", operation.elim .none fun o => .str o.name), ("frame", frameItems frame)]

/-- The size of a section, or of the opening. -/
def sizeItems : Dict := [("widthMM", .float one), ("heightMM", .float one)]

/-- The dictionary of the assembly, as a client sends it. -/
def raw (rendered : List AssemblyRenderSection) : Dict :=
  [("templateID", .str "t"), ("templateVersion", .int 1), ("measurementID", .str "m"),
    ("overall", .dict [("width", .float one), ("height", .float one)]),
    ("sections", .list (sections.map fun s =>
      .dict (partItems "id" s.id s.sectionType s.operation s.frame ++ sizeItems))),
    ("referenceData", .dict [("catalogVersionID", .str "c"), ("catalogContentSHA256", .str digest),
      ("compatibilityRulesVersionID", .str "r"), ("compatibilityRulesContentSHA256", .str digest),
      ("priceBookVersionID", .str "p"), ("priceBookContentSHA256", .str digest)]),
    ("bom", .dict [("engineVersion", .str "e"), ("configurationID", .str "k"),
      ("configurationVersion", .int 1), ("calculationBasis", .str "b")]),
    ("renderDescriptor", .dict [("configurationID", .str "k"), ("configurationVersion", .int 1),
      ("overall", .dict sizeItems),
      ("sections", .list (rendered.map fun r =>
        .dict (partItems "sectionID" r.sectionID r.sectionType r.operation r.frame)))])]

/-- Field validation that reads the dictionaries of the two assemblies below. -/
def env : Env where
  assemblyFields := fun given =>
    match [rendered, shadowed :: rendered].find? fun r => (Value.dict given).eq (.dict (raw r)) with
    | some r => .ok (assembly r)
    | none => .error "validation error"
  designFields := fun _ => .error "validation error"
  loadsError := fun _ => []
  evidenceGcGraceSeconds := 0

/-- An assembly whose dictionary is read, and that the validators let through, is accepted. -/
lemma accepted_of_fields {rendered : List AssemblyRenderSection}
    (hfields : env.assemblyFields (raw rendered) = .ok (assembly rendered))
    (hsections : (assembly rendered).sections.forM (fun s => frameMustFitOpening s.frame) = .ok ())
    (hrendered : rendered.forM (fun s => frameMustFitOpening s.frame) = .ok ())
    (hchecked : validateConsistentProjection (assembly rendered) = .ok ()) :
    AssemblySnapshotV1.modelValidate env (raw rendered) = .ok (assembly rendered) := by
  have hdescriptor : (assembly rendered).renderDescriptor.sections = rendered := rfl
  simp only [AssemblySnapshotV1.modelValidate, hfields, Except.mapError, ok_bind, hchecked,
    hsections, hdescriptor, hrendered, pure, Except.pure]

/-- The dictionary of the assembly whose descriptor lists its sections is read. -/
lemma fields_rendered : env.assemblyFields (raw rendered) = .ok (assembly rendered) := by
  have hfirst : (Value.dict (raw rendered)).eq (.dict (raw rendered)) = true := by decide +kernel
  simp only [env, List.find?_cons, hfirst]

/-- So is that of the one with the shadowed section. -/
lemma fields_shadowed : env.assemblyFields (raw (shadowed :: rendered)) =
    .ok (assembly (shadowed :: rendered)) := by
  have hfirst : (Value.dict (raw (shadowed :: rendered))).eq (.dict (raw rendered)) = false := by
    decide +kernel
  have hsecond : (Value.dict (raw (shadowed :: rendered))).eq
      (.dict (raw (shadowed :: rendered))) = true := by decide +kernel
  simp only [env, List.find?_cons, hfirst, hsecond]

/-- The assembly whose descriptor lists its sections is accepted. -/
lemma accepted : AssemblySnapshotV1.modelValidate env (raw rendered) = .ok (assembly rendered) :=
  accepted_of_fields fields_rendered (by decide +kernel) (by decide +kernel) (by decide +kernel)

/-- So is the one with the shadowed section. -/
lemma accepted_shadowed : AssemblySnapshotV1.modelValidate env (raw (shadowed :: rendered)) =
    .ok (assembly (shadowed :: rendered)) :=
  accepted_of_fields fields_shadowed (by decide +kernel) (by decide +kernel) (by decide +kernel)

end Sample

/-- The sample assembly is mirrored, as it lists two sections twice. -/
theorem accepted_mirrors_iff_sample :
    MirrorsSections (Sample.assembly Sample.rendered) ↔
      (Sample.assembly Sample.rendered).renderDescriptor.sections.length =
        (Sample.assembly Sample.rendered).sections.length :=
  accepted_mirrors_iff Sample.accepted

/-- With the shadowed section the assembly is accepted all the same: an id is rendered twice, and
the first of the two has another type, operation and frame than its section. -/
theorem not_mirrors_shadowed :
    AssemblySnapshotV1.modelValidate Sample.env (Sample.raw (Sample.shadowed :: Sample.rendered)) =
        .ok (Sample.assembly (Sample.shadowed :: Sample.rendered)) ∧
      ¬ MirrorsSections (Sample.assembly (Sample.shadowed :: Sample.rendered)) := by
  refine ⟨Sample.accepted_shadowed, fun h => ?_⟩
  exact absurd h.rendered_nodup (by decide +kernel)

end VitrialSync.Assembly
