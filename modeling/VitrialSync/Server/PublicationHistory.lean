import Mathlib.Data.Prod.Lex
import Mathlib.Data.String.Basic
import VitrialSync.Server.Publications
import VitrialSync.Server.Push

set_option relaxedAutoImplicit false
set_option autoImplicit false

/-!
# The history of publications

Any number of requests publish, read and seed at the same time. The table of publications only
grows. A publication that supersedes another one was inserted after it, so supersession has no
cycles, and a design that pins publications keeps its pins.

What is current at an instant is the publication that took effect last, and among those the one that
was published last. Supersession does not enter: a correction that is dated back, or that has ended,
does not withdraw what it supersedes.

## Main definitions

* `VitrialSync.Publications.PublicationStep` — the system of the requests.
* `VitrialSync.Publications.publicationTable` — the publications as the pin check reads them.
* `VitrialSync.Publications.Supersedes` — one publication supersedes another.

## Main results

* `VitrialSync.Publications.publications_forest` — rows stay, versions are unique, supersession is a
  forest, and accepted pins stay accepted.
* `VitrialSync.Publications.currentPublications_latest` — no publication of the kind that is
  effective took effect after the current one.
* `VitrialSync.Publications.currentPublications_superseded` — a current publication that is
  superseded by an effective one.
-/

namespace VitrialSync.Publications

open Python Program

/-! ### The system -/

/-- The table of publications and the open requests; a request is named by a number. -/
abbrev PublicationTables :=
  Tables ℕ PublicationRow DateTime (Except PublicationError (List PublicationRow))

/-- The steps of the requests on publications. -/
def PublicationStep (payloads : BaselinePayloads) :
    PublicationTables → ℕ → PublicationTables → Prop :=
  TxnStep Conflict fun session => ∃ operation : Operation, session = operation.session payloads

/-- No publications and no requests. -/
def noPublications : PublicationTables := .quiet []

/-- The first publication supersedes the second. -/
def Supersedes (rows : List PublicationRow) (a b : PublicationRow) : Prop :=
  a ∈ rows ∧ b ∈ rows ∧ a.organizationId = b.organizationId ∧
    a.supersedesPublicationId = some b.publicationId

/-- Conflicts are mutual. -/
lemma Conflict.symm (a b : PublicationRow) (h : Conflict a b) : Conflict b a :=
  ⟨h.1.symm, h.2.imp Eq.symm fun h => ⟨h.1.symm, h.2.symm⟩⟩

/-- A predecessor that was seen stays seen. -/
lemma predecessorSeen_mono (seen seen' : List PublicationRow) (a : PublicationRow)
    (hsubset : seen ⊆ seen') (h : PredecessorSeen seen a) : PredecessorSeen seen' a := by
  intro p hp
  obtain ⟨r, hr, hrest⟩ := h p hp
  exact ⟨r, hsubset hr, hrest⟩

/-- Every reachable state is lawful. -/
lemma lawful_of_publications {payloads : BaselinePayloads} {events : List ℕ}
    {s : PublicationTables}
    (h : Trace (PublicationStep payloads) noPublications events s) :
    s.Lawful Conflict PredecessorSeen := by
  refine lawful_of_trace Conflict.symm predecessorSeen_mono ?_ h
    (Tables.Lawful.quiet List.Pairwise.nil ?_)
  · rintro session ⟨operation, rfl⟩
    exact operation.session_sound payloads
  · intro before a after hsplit
    cases before <;> cases hsplit

/-! ### The forest -/

section Rows

variable {rows : List PublicationRow}

/-- The identifiers of an organization are distinct. -/
lemma nodup_ids (h : rows.Pairwise fun a b => ¬ Conflict a b) :
    (rows.map fun r => (r.organizationId, r.publicationId)).Nodup := by
  refine List.pairwise_map.mpr (h.imp fun {a b} hab heq => hab ?_)
  exact ⟨congrArg Prod.fst heq, Or.inl (congrArg Prod.snd heq)⟩

/-- The versions of a kind are distinct. -/
lemma nodup_versions (h : rows.Pairwise fun a b => ¬ Conflict a b) :
    (rows.map fun r => (r.organizationId, r.kind, r.versionId)).Nodup := by
  refine List.pairwise_map.mpr (h.imp fun {a b} hab heq => hab ?_)
  rw [Prod.mk.injEq, Prod.mk.injEq] at heq
  exact ⟨heq.1, Or.inr heq.2⟩

/-- A superseded publication is of the same kind and stands before the one that supersedes it.

**Proof sketch.** The predecessor that was seen has the same identifier, so it is the same row. -/
lemma Supersedes.before (hids : (rows.map fun r => (r.organizationId, r.publicationId)).Nodup)
    (hjustified : Justified PredecessorSeen rows) {a b : PublicationRow} (h : Supersedes rows a b) :
    a.kind = b.kind ∧ ∃ before after, rows = before ++ a :: after ∧ b ∈ before := by
  obtain ⟨ha, hb, horg, hsupersedes⟩ := h
  obtain ⟨before, after, hsplit⟩ := List.append_of_mem ha
  obtain ⟨r, hr, hrorg, hrid, hrkind⟩ := hjustified before a after hsplit _ hsupersedes
  have hmem : r ∈ rows := by
    rw [hsplit]
    exact List.mem_append_left _ hr
  obtain rfl : r = b := List.inj_on_of_nodup_map hids hmem hb (by simp [hrorg, hrid, horg])
  exact ⟨hrkind.symm, before, after, hsplit, hr⟩

/-- Supersession has no cycles.

**Proof sketch.** Along it the place of the row in the table goes down. -/
lemma Supersedes.acyclic (hids : (rows.map fun r => (r.organizationId, r.publicationId)).Nodup)
    (hjustified : Justified PredecessorSeen rows) (a : PublicationRow) :
    ¬ Relation.TransGen (Supersedes rows) a a := by
  let key : PublicationRow → Str × Str := fun r => (r.organizationId, r.publicationId)
  let place : PublicationRow → ℕ := fun r => (rows.map key).idxOf (key r)
  have hstep : ∀ a b, Supersedes rows a b → place b < place a := by
    intro a b hab
    obtain ⟨-, before, after, hsplit, hb⟩ := hab.before hids hjustified
    have hids' := hids
    rw [hsplit, List.map_append, List.map_cons, List.nodup_append] at hids'
    have hnot : key a ∉ before.map key := fun h => hids'.2.2 _ h _ List.mem_cons_self rfl
    have hplaceb : place b = (before.map key).idxOf (key b) := by
      simp only [place, hsplit, List.map_append]
      exact List.idxOf_append_of_mem (List.mem_map_of_mem hb)
    have hplacea : place a = (before.map key).length := by
      simp only [place, hsplit, List.map_append, List.map_cons]
      rw [List.idxOf_append_of_notMem hnot, List.idxOf_cons_self, Nat.add_zero]
    rw [hplacea, hplaceb]
    exact List.idxOf_lt_length_of_mem (List.mem_map_of_mem hb)
  have hchain : ∀ a b, Relation.TransGen (Supersedes rows) a b → place b < place a := by
    intro a b hab
    induction hab with
    | single h => exact hstep _ _ h
    | tail _ h ih => exact (hstep _ _ h).trans ih
  exact fun h => lt_irrefl _ (hchain a a h)

end Rows

/-! ### Pins -/

/-- The publications as `_require_canonical_assembly_reference_pins` reads them: the digest of every
kind and version. -/
def publicationTable (rows : List PublicationRow) :
    Table (Str × PublicationKind × Str) ReferencePublication :=
  rows.foldl (fun table r => table.set (r.organizationId, r.kind, r.versionId) ⟨r.contentSha256⟩)
    .empty

/-- The digest of a version that was published. -/
lemma publicationTable_get {rows : List PublicationRow}
    (hversions : (rows.map fun r => (r.organizationId, r.kind, r.versionId)).Nodup)
    (k : Str × PublicationKind × Str) (p : ReferencePublication) :
    (publicationTable rows).get k = some p ↔
      ∃ r ∈ rows, (r.organizationId, r.kind, r.versionId) = k ∧ p = ⟨r.contentSha256⟩ := by
  induction rows using List.reverseRecOn with
  | nil => simp [publicationTable, Table.get_empty]
  | append_singleton rows r ih =>
    rw [List.map_append, List.nodup_append] at hversions
    have hset : publicationTable (rows ++ [r]) = (publicationTable rows).set
        (r.organizationId, r.kind, r.versionId) ⟨r.contentSha256⟩ := by
      rw [publicationTable, List.foldl_append]
      rfl
    rw [hset, Table.get_set]
    by_cases hk : k = (r.organizationId, r.kind, r.versionId)
    · subst hk
      rw [if_pos (beq_self_eq_true _)]
      constructor
      · rintro ⟨⟩
        exact ⟨r, by simp, rfl, rfl⟩
      · rintro ⟨r', hr', hkey, rfl⟩
        rcases List.mem_append.mp hr' with hr' | hr'
        · exact absurd hkey (hversions.2.2 _ (List.mem_map_of_mem hr') _ (by simp))
        · rw [List.mem_singleton.mp hr']
    · rw [if_neg (by simpa using hk), ih hversions.1]
      refine exists_congr fun r' => ⟨?_, ?_⟩
      · rintro ⟨hr', h⟩
        exact ⟨List.mem_append_left _ hr', h⟩
      · rintro ⟨hr', hkey, hp⟩
        rcases List.mem_append.mp hr' with hr' | hr'
        · exact ⟨hr', hkey, hp⟩
        · rw [List.mem_singleton.mp hr'] at hkey
          exact absurd hkey.symm hk

/-- Published digests stay. -/
lemma publicationTable_stays {rows rows' : List PublicationRow} (hstays : rows <+: rows')
    (hversions : (rows'.map fun r => (r.organizationId, r.kind, r.versionId)).Nodup)
    {k : Str × PublicationKind × Str} {p : ReferencePublication}
    (h : (publicationTable rows).get k = some p) : (publicationTable rows').get k = some p := by
  have hversions' := (hstays.sublist.map
    fun r : PublicationRow => (r.organizationId, r.kind, r.versionId)).nodup hversions
  obtain ⟨r, hr, hkey, hp⟩ := (publicationTable_get hversions' k p).mp h
  exact (publicationTable_get hversions k p).mpr ⟨r, hstays.subset hr, hkey, hp⟩

/-- A pin check that accepted accepts where the publications that it found are still there.

**Proof sketch.** It looks up three versions and compares their digests. -/
lemma pins_mono {env : Env} {db db' : Db} {principal : Principal} {configuration : Dict}
    (hkeep : ∀ k p, db.publications.get k = some p → db'.publications.get k = some p)
    (h : Ownership.requireCanonicalAssemblyReferencePins env db principal configuration = .ok ()) :
    Ownership.requireCanonicalAssemblyReferencePins env db' principal configuration = .ok () := by
  unfold Ownership.requireCanonicalAssemblyReferencePins at h ⊢
  split at h
  · cases h
  · cases h
  · rfl
  · rename_i snapshot hsnapshot
    refine forM_eq_ok.mpr fun entry hentry => ?_
    have hfound := forM_eq_ok.mp h entry hentry
    cases hget : db.publications.get (principal.organizationId, entry.1, entry.2.1) with
    | none =>
      simp only [hget] at hfound
      cases hfound
    | some row =>
      simp only [hget] at hfound
      simp only [hkeep _ _ hget]
      exact hfound

/-! ### A sample run -/

namespace Sample

/-- Baselines without content. -/
def payloads : BaselinePayloads := ⟨[], [], [], []⟩

/-- A member who manages catalogs. -/
def publisher : Principal := { VitrialSync.Sample.principal with capabilities := [.catalogManage] }

/-- The first day of a month. -/
def firstOf (year month : ℕ) (h : 1 ≤ year ∧ year ≤ 9999 ∧ 1 ≤ month ∧ month ≤ 12) : DateTime :=
  ⟨year, month, 1, 0, 0, 0, 0, some 0,
    ⟨⟨h.1, h.2.1⟩, h.2.2, by decide, by decide, by decide, by decide, by decide, by simp⟩⟩

/-- A catalog for 2027. -/
def catalog : ReferencePublicationCreate :=
  { publicationID := ⟨"catalog-2027", by decide, by decide, by decide⟩
    kind := .catalog
    versionID := ⟨"2027", by decide, by decide, by decide⟩
    effectiveFrom := firstOf 2027 1 (by decide)
    effectiveUntil := none
    supersedesPublicationID := none
    payload := [] }

/-- Its correction, dated back by a month. -/
def correction : ReferencePublicationCreate :=
  { publicationID := ⟨"catalog-2027-corrected", by decide, by decide, by decide⟩
    kind := .catalog
    versionID := ⟨"2027-corrected", by decide, by decide, by decide⟩
    effectiveFrom := firstOf 2026 12 (by decide)
    effectiveUntil := none
    supersedesPublicationID := some ⟨"catalog-2027", by decide, by decide⟩
    payload := [] }

/-- The rows that are committed after some requests, one after the other. -/
def run (requests : List Operation) (committed : List PublicationRow) : List PublicationRow :=
  (requests.map (Operation.session payloads)).foldl
    (fun rows session => (session.runAlone Conflict VitrialSync.Sample.time rows []).2) committed

/-- The rows after a bootstrap. -/
def seeded : List PublicationRow := run [.seed publisher.organizationId] []

/-- The rows after the catalog and its correction were published. -/
def rows : List PublicationRow :=
  run [.publish publisher catalog, .publish publisher correction] seeded

/-- The requests are a run of the system. -/
lemma run_trace (requests : List Operation) (committed : List PublicationRow) :
    ∃ events, Trace (PublicationStep payloads) (Tables.quiet committed) events
      (Tables.quiet (run requests committed)) := by
  refine runAlone_traces VitrialSync.Sample.time 0 _ ?_ committed
  rw [List.forall_mem_map]
  exact fun operation _ => ⟨operation, rfl⟩

/-- The bootstrap. -/
lemma seeded_trace :
    ∃ events, Trace (PublicationStep payloads) noPublications events (Tables.quiet seeded) :=
  run_trace _ _

/-- The two publications. -/
lemma rows_trace :
    ∃ events, Trace (PublicationStep payloads) (Tables.quiet seeded) events (Tables.quiet rows) :=
  run_trace _ _

end Sample

/-! ### Every run -/

/-- **Reference publications are an immutable forest.** In every run of requests from an empty
table, and from any moment of it to a later one: the committed rows stay, unchanged and in order;
the identifiers of an organization, and the versions of each of its kinds, are distinct; a
superseded publication is of the same kind, and supersession has no cycles; and a configuration
whose pins are accepted stays accepted, whatever the other tables hold. -/
theorem publications_forest (payloads : BaselinePayloads) (past future : List ℕ)
    (s s' : PublicationTables)
    (hpast : Trace (PublicationStep payloads) noPublications past s)
    (hfuture : Trace (PublicationStep payloads) s future s') :
    s.committed <+: s'.committed ∧
    (s'.committed.map fun r => (r.organizationId, r.publicationId)).Nodup ∧
    (s'.committed.map fun r => (r.organizationId, r.kind, r.versionId)).Nodup ∧
    (∀ a ∈ s'.committed, ∀ p ∈ a.supersedesPublicationId, ∃ b, Supersedes s'.committed a b ∧
      b.publicationId = p ∧ a.kind = b.kind) ∧
    (∀ a, ¬ Relation.TransGen (Supersedes s'.committed) a a) ∧
    ∀ env db db' principal configuration, db.publications = publicationTable s.committed →
      db'.publications = publicationTable s'.committed →
      Ownership.requireCanonicalAssemblyReferencePins env db principal configuration = .ok () →
      Ownership.requireCanonicalAssemblyReferencePins env db' principal configuration = .ok () := by
  have hlawful := lawful_of_publications (Trace.append_iff.mpr ⟨s, hpast, hfuture⟩)
  have hstays := committed_stays hfuture
  have hids := nodup_ids hlawful.distinct
  have hversions := nodup_versions hlawful.distinct
  refine ⟨hstays, hids, hversions, ?_, Supersedes.acyclic hids hlawful.justified, ?_⟩
  · intro a ha p hp
    obtain ⟨before, after, hsplit⟩ := List.append_of_mem ha
    obtain ⟨b, hb, horg, hid, hkind⟩ := hlawful.justified before a after hsplit p hp
    have hmem : b ∈ s'.committed := by
      rw [hsplit]
      exact List.mem_append_left _ hb
    exact ⟨b, ⟨ha, hmem, horg.symm, hid ▸ hp⟩, hid, hkind.symm⟩
  · intro env db db' principal configuration hdb hdb' h
    refine pins_mono (fun k p hget => ?_) h
    rw [hdb] at hget
    rw [hdb']
    exact publicationTable_stays hstays hversions hget

/-- A bootstrap, and then the publication of a catalog and of its correction. -/
theorem publications_forest_sample :
    Sample.seeded.length = 4 ∧ Sample.rows.length = 6 ∧ Sample.seeded <+: Sample.rows ∧
      ∀ a, ¬ Relation.TransGen (Supersedes Sample.rows) a a := by
  obtain ⟨past, hpast⟩ := Sample.seeded_trace
  obtain ⟨future, hfuture⟩ := Sample.rows_trace
  have hforest := publications_forest Sample.payloads past future (Tables.quiet Sample.seeded)
    (Tables.quiet Sample.rows) hpast hfuture
  simp only [Tables.quiet_committed] at hforest
  have hseeded : Sample.seeded.length = 4 := by decide +kernel
  have hrows : Sample.rows.length = 6 := by decide +kernel
  exact ⟨hseeded, hrows, hforest.1, hforest.2.2.2.2.1⟩

/-! ### What is current -/

/-- An instant, as it is compared. -/
def moment (t : DateTime) : ℕ ×ₗ ℕ := toLex (t.seconds, t.microsecond)

/-- The order of instants. -/
lemma notAfter_iff (t t' : DateTime) : t.notAfter t' = true ↔ moment t ≤ moment t' := by
  rw [moment, moment, Prod.Lex.toLex_le_toLex, DateTime.notAfter, Bool.or_eq_true, Bool.and_eq_true,
    decide_eq_true_eq, beq_iff_eq, decide_eq_true_eq]

/-- What the order of a query compares: the kind, and the two dates from the latest. -/
def sortKey (r : PublicationRow) : String ×ₗ (ℕ ×ₗ ℕ)ᵒᵈ ×ₗ (ℕ ×ₗ ℕ)ᵒᵈ :=
  toLex (r.kind.name,
    toLex (OrderDual.toDual (moment r.effectiveFrom), OrderDual.toDual (moment r.publishedAt)))

/-- Kinds are told apart by their names. -/
lemma kind_name_inj {k k' : PublicationKind} : k.name = k'.name ↔ k = k' := by
  cases k <;> cases k' <;> decide

/-- The order of a query. -/
lemma precedes_iff (a b : PublicationRow) : Precedes a b ↔ sortKey a ≤ sortKey b := by
  rw [sortKey, sortKey, Prod.Lex.toLex_le_toLex, Prod.Lex.toLex_le_toLex', kind_name_inj, Precedes,
    notAfter_iff, notAfter_iff, notAfter_iff]
  refine or_congr_right (and_congr_right fun _ => and_congr_right fun hle => ?_)
  rw [OrderDual.toDual_inj, OrderDual.toDual_le_toDual]
  exact ⟨fun h heq => h heq.le, fun h hge => h (le_antisymm hge hle)⟩

/-- The order of a query is total. -/
instance : Std.Total Precedes :=
  ⟨fun a b => by rw [precedes_iff, precedes_iff]; exact le_total (sortKey a) (sortKey b)⟩

/-- The order of a query is transitive. -/
instance : IsTrans PublicationRow Precedes :=
  ⟨fun a b c => by
    rw [precedes_iff, precedes_iff, precedes_iff]
    exact le_trans⟩

/-- One more row. -/
lemma selectFirst_concat (rows : List PublicationRow) (a : PublicationRow) :
    selectFirst (rows ++ [a]) =
      if (selectFirst rows).any (·.kind == a.kind) then selectFirst rows
      else selectFirst rows ++ [a] := by
  rw [selectFirst, List.foldl_append]
  rfl

/-- Every kind among the rows is selected. -/
lemma exists_mem_selectFirst {rows : List PublicationRow} {b : PublicationRow} (hb : b ∈ rows) :
    ∃ c ∈ selectFirst rows, c.kind = b.kind := by
  induction rows using List.reverseRecOn with
  | nil => cases hb
  | append_singleton rows a ih =>
    rw [selectFirst_concat]
    rcases List.mem_append.mp hb with hb | hb
    · obtain ⟨c, hc, hkind⟩ := ih hb
      split
      · exact ⟨c, hc, hkind⟩
      · exact ⟨c, List.mem_append_left _ hc, hkind⟩
    · rw [List.mem_singleton.mp hb]
      split
      · rename_i hany
        obtain ⟨c, hc, hkind⟩ := List.any_eq_true.mp hany
        exact ⟨c, hc, beq_iff_eq.mp hkind⟩
      · exact ⟨a, List.mem_append_right _ (List.mem_singleton_self a), rfl⟩

/-- A selected row is the first of its kind.

**Proof sketch.** By induction on the rows from the last one: a row is added only when no row of its
kind was selected. -/
lemma mem_selectFirst {rows : List PublicationRow} {r : PublicationRow}
    (h : r ∈ selectFirst rows) :
    ∃ before after, rows = before ++ r :: after ∧ ∀ b ∈ before, b.kind ≠ r.kind := by
  induction rows using List.reverseRecOn with
  | nil => cases h
  | append_singleton rows a ih =>
    have hold : r ∈ selectFirst rows →
        ∃ before after, rows ++ [a] = before ++ r :: after ∧ ∀ b ∈ before, b.kind ≠ r.kind := by
      intro hr
      obtain ⟨before, after, hsplit, hbefore⟩ := ih hr
      exact ⟨before, after ++ [a], by rw [hsplit, List.append_assoc, List.cons_append], hbefore⟩
    rw [selectFirst_concat] at h
    split at h
    · exact hold h
    · rename_i hnone
      rcases List.mem_append.mp h with h | h
      · exact hold h
      · rw [List.mem_singleton.mp h]
        refine ⟨rows, [], rfl, fun b hb hkind => hnone ?_⟩
        obtain ⟨c, hc, hck⟩ := exists_mem_selectFirst hb
        exact List.any_eq_true.mpr ⟨c, hc, by simp [hck, hkind]⟩

/-- A current publication is one of the rows, and comes before the other rows of its kind. -/
lemma mem_pickCurrent {rows : List PublicationRow} {r : PublicationRow} (h : r ∈ pickCurrent rows) :
    r ∈ rows ∧ ∀ other ∈ rows, other.kind = r.kind → Precedes r other := by
  rw [pickCurrent, (List.perm_insertionSort _ _).mem_iff] at h
  obtain ⟨before, after, hsplit, hbefore⟩ := mem_selectFirst h
  have hmem : ∀ b, b ∈ rows ↔ b ∈ before ++ r :: after := fun b => by
    rw [← hsplit, ordered, (List.perm_insertionSort _ _).mem_iff]
  have hsorted := List.pairwise_insertionSort Precedes rows
  rw [← ordered, hsplit, List.pairwise_append, List.pairwise_cons] at hsorted
  refine ⟨(hmem r).mpr (by simp), fun other hother hkind => ?_⟩
  rcases List.mem_append.mp ((hmem other).mp hother) with hother | hother
  · exact absurd hkind (hbefore other hother)
  · rcases List.mem_cons.mp hother with rfl | hother
    · exact (Std.Total.total (r := Precedes) other other).elim id id
    · exact hsorted.2.1.1 other hother

/-- **What is current.** In every reachable state, a publication that is returned as current at an
instant is effective then, and every publication of its organization and kind that is effective then
took effect no later than it, or at the same time and was published no later. The publications that
supersede it are of its kind, so this is so for them too.

**Proof sketch.** The rows are sorted, and the first of a kind is returned. -/
theorem currentPublications_latest (payloads : BaselinePayloads) (events : List ℕ)
    (s : PublicationTables)
    (htrace : Trace (PublicationStep payloads) noPublications events s) (organizationId : Str)
    (time : DateTime) (answer : List PublicationRow)
    (hanswer : answer.Perm (s.committed.filter fun r =>
      r.organizationId == organizationId && r.effectiveAt time))
    (current : PublicationRow) (hcurrent : current ∈ pickCurrent answer) :
    current ∈ s.committed ∧ current.organizationId = organizationId ∧
    current.effectiveAt time = true ∧
    (∀ other ∈ s.committed, other.organizationId = organizationId → other.kind = current.kind →
      other.effectiveAt time = true →
      other.effectiveFrom.notAfter current.effectiveFrom = true ∧
      (current.effectiveFrom.notAfter other.effectiveFrom = true →
        other.publishedAt.notAfter current.publishedAt = true)) ∧
    ∀ other, Supersedes s.committed other current → other.kind = current.kind := by
  have hlawful := lawful_of_publications htrace
  obtain ⟨hmem, hfirst⟩ := mem_pickCurrent hcurrent
  rw [hanswer.mem_iff, List.mem_filter, Bool.and_eq_true, beq_iff_eq] at hmem
  obtain ⟨hcommitted, horg, heffective⟩ := hmem
  refine ⟨hcommitted, horg, heffective, fun other hother hother_org hkind hother_effective => ?_,
    fun other h => (h.before (nodup_ids hlawful.distinct) hlawful.justified).1⟩
  have hanswered : other ∈ answer := by
    rw [hanswer.mem_iff, List.mem_filter, Bool.and_eq_true, beq_iff_eq]
    exact ⟨hother, hother_org, hother_effective⟩
  rcases hfirst other hanswered hkind with hname | ⟨-, hdates⟩
  · rw [hkind] at hname
    exact absurd hname (lt_irrefl _)
  · exact hdates

namespace Sample

/-- The rows of the sample run that are effective in February 2027. -/
def effective : List PublicationRow :=
  rows.filter fun r => r.organizationId == publisher.organizationId &&
    r.effectiveAt (firstOf 2027 2 (by decide))

/-- The sample run, from the start. -/
lemma whole_trace :
    ∃ events, Trace (PublicationStep payloads) noPublications events (Tables.quiet rows) := by
  obtain ⟨past, hpast⟩ := seeded_trace
  obtain ⟨future, hfuture⟩ := rows_trace
  exact ⟨past ++ future, Trace.append_iff.mpr ⟨_, hpast, hfuture⟩⟩

/-- A current publication that an effective one supersedes. -/
lemma superseded : ∃ current ∈ pickCurrent effective, ∃ other ∈ rows,
    other.organizationId = current.organizationId ∧
    other.supersedesPublicationId = some current.publicationId ∧
    other.effectiveAt (firstOf 2027 2 (by decide)) = true := by
  have hany : (pickCurrent effective).any (fun current => rows.any fun other =>
      other.organizationId == current.organizationId &&
        (other.supersedesPublicationId == some current.publicationId &&
          other.effectiveAt (firstOf 2027 2 (by decide)))) = true := by
    decide +kernel
  obtain ⟨current, hcurrent, hany⟩ := List.any_eq_true.mp hany
  obtain ⟨other, hother, hall⟩ := List.any_eq_true.mp hany
  rw [Bool.and_eq_true, Bool.and_eq_true, beq_iff_eq, beq_iff_eq] at hall
  exact ⟨current, hcurrent, other, hother, hall⟩

end Sample

/-- In the sample run three publications are current in February 2027, and each of them took effect
last of those of its kind. -/
theorem currentPublications_latest_sample :
    (pickCurrent Sample.effective).length = 3 ∧
    ∀ current ∈ pickCurrent Sample.effective, ∀ other ∈ Sample.rows,
      other.organizationId = Sample.publisher.organizationId → other.kind = current.kind →
      other.effectiveAt (Sample.firstOf 2027 2 (by decide)) = true →
      other.effectiveFrom.notAfter current.effectiveFrom = true := by
  obtain ⟨events, htrace⟩ := Sample.whole_trace
  have hlength : (pickCurrent Sample.effective).length = 3 := by decide +kernel
  refine ⟨hlength, fun current hcurrent other hother horg hkind heffective => ?_⟩
  have hanswer : Sample.effective.Perm
      ((Tables.quiet Sample.rows : PublicationTables).committed.filter fun r =>
        r.organizationId == Sample.publisher.organizationId &&
          r.effectiveAt (Sample.firstOf 2027 2 (by decide))) := by
    rw [Tables.quiet_committed, Sample.effective]
  have hlatest := (currentPublications_latest Sample.payloads events (Tables.quiet Sample.rows)
    htrace Sample.publisher.organizationId (Sample.firstOf 2027 2 (by decide)) Sample.effective
    hanswer current hcurrent).2.2.2.1
  simp only [Tables.quiet_committed] at hlatest
  exact (hlatest other hother horg hkind heffective).1

/-- The catalog of 2027 is current in February 2027, although its correction took effect in December
2026 and supersedes it. -/
theorem currentPublications_superseded :
    ∃ rows time current other,
      (∃ events,
        Trace (PublicationStep Sample.payloads) noPublications events (Tables.quiet rows)) ∧
      current ∈ pickCurrent (rows.filter fun r =>
        r.organizationId == Sample.publisher.organizationId && r.effectiveAt time) ∧
      Supersedes rows other current ∧ other.effectiveAt time = true := by
  obtain ⟨current, hcurrent, other, hother, horg, hsupersedes, heffective⟩ := Sample.superseded
  have hmem := (mem_pickCurrent hcurrent).1
  rw [Sample.effective] at hcurrent hmem
  have hrow : current ∈ Sample.rows := List.mem_of_mem_filter hmem
  exact ⟨Sample.rows, Sample.firstOf 2027 2 (by decide), current, other, Sample.whole_trace,
    hcurrent, ⟨hother, hrow, horg, hsupersedes⟩, heffective⟩

end VitrialSync.Publications
