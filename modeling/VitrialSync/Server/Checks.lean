import VitrialSync.Server.Database

set_option relaxedAutoImplicit false
set_option autoImplicit false

/-!
# Checks shared by the history validators

Blockers, quotations and delivery executions carry an append-only list of events, and the plans of
a delivery carry the same provenance fields as an event. The validators of the service have their
own copies of these checks, which differ in the exception class and in the text of the message;
here each check is written once, with these as parameters.

## Main definitions

* `VitrialSync.requireProvenance` — the five provenance fields of an event or a plan.
* `VitrialSync.requireUniqueIds` — the `id` of every entry is present and occurs once.
* `VitrialSync.dicts?` — `all(isinstance(e, dict) for e in xs)`, with the dictionaries.
* `VitrialSync.startsWith` — `proposed[: len(current)] == current`.
* `VitrialSync.IsPrefix` — the events of one payload begin those of another.

## Main results

* `VitrialSync.requireProvenance_current` — what the check of the current actor establishes.
* `VitrialSync.IsPrefix.trans` — histories that extend each other in turn.
-/

namespace VitrialSync

open Python Program

/-! ### Provenance -/

/-- The texts of a provenance check. -/
structure ProvenanceTexts where
  incomplete : String
  organization : String
  mismatch : String

/-- `_require_connected_provenance` and its siblings: actor, organization, membership and session
are names, the authorization revision is a nonnegative integer, the organization is the
principal's, and for the current actor so are all the others. -/
def requireProvenance (raise : Str → Exc) (texts : ProvenanceTexts) (value : Dict)
    (principal : Principal) (currentActor : Bool) : Except Exc Unit := do
  let actorId := normalized (value.get "actorID")
  let organizationId := normalized (value.get "organizationID")
  let membershipId := normalized (value.get "membershipID")
  let sessionId := normalized (value.get "sessionID")
  let revision := (value.get "authorizationRevision").properInt?
  raiseIf (actorId.isNone || organizationId.isNone || membershipId.isNone || sessionId.isNone ||
    !revision.any (0 ≤ ·)) (raise texts.incomplete)
  raiseIf (organizationId != some principal.organizationId) (raise texts.organization)
  raiseIf (currentActor && (actorId != some principal.userId ||
    membershipId != some principal.membershipId || sessionId != some principal.sessionId ||
    revision != some principal.authorizationRevision)) (raise texts.mismatch)

/-- The provenance of an entry is the principal's, up to white space around the names. -/
structure NamesPrincipal (value : Dict) (principal : Principal) : Prop where
  actor : normalized (value.get "actorID") = some principal.userId
  organization : normalized (value.get "organizationID") = some principal.organizationId
  membership : normalized (value.get "membershipID") = some principal.membershipId
  session : normalized (value.get "sessionID") = some principal.sessionId
  revision : value.get "authorizationRevision" = .int principal.authorizationRevision

/-- The check of the current actor establishes that the entry names the principal. -/
lemma requireProvenance_current {raise : Str → Exc} {texts : ProvenanceTexts} {value : Dict}
    {principal : Principal} (h : requireProvenance raise texts value principal true = .ok ()) :
    NamesPrincipal value principal := by
  simp only [requireProvenance, bind_eq_ok, raiseIf_eq_ok, Bool.true_and, Bool.or_eq_false_iff,
    bne_eq_false_iff_eq] at h
  obtain ⟨-, -, -, horg, ⟨⟨hactor, hmembership⟩, hsession⟩, hrevision⟩ := h
  have hint : value.get "authorizationRevision" = .int principal.authorizationRevision := by
    cases hv : value.get "authorizationRevision" <;> simp [hv, Value.properInt?] at hrevision ⊢
    exact hrevision
  exact ⟨hactor, horg, hmembership, hsession, hint⟩

/-- The check of any entry establishes that its authorization revision is an integer. -/
lemma requireProvenance_revision {raise : Str → Exc} {texts : ProvenanceTexts} {value : Dict}
    {principal : Principal} {currentActor : Bool}
    (h : requireProvenance raise texts value principal currentActor = .ok ()) :
    ∃ n, value.get "authorizationRevision" = .int n := by
  simp only [requireProvenance, bind_eq_ok, raiseIf_eq_ok, Bool.or_eq_false_iff,
    Bool.not_eq_false'] at h
  obtain ⟨-, ⟨-, hrevision⟩, -⟩ := h
  cases hv : value.get "authorizationRevision" <;> simp [hv, Value.properInt?] at hrevision ⊢

/-! ### Lists of dictionaries -/

/-- `all(isinstance(e, dict) for e in xs)`, with the dictionaries. -/
def dicts? : List Value → Option (List Dict)
  | [] => some []
  | x :: xs =>
    match x.dict?, dicts? xs with
    | some d, some ds => some (d :: ds)
    | _, _ => none

/-- The dictionaries of a list are its elements. -/
lemma dicts?_eq_some {xs : List Value} {ds : List Dict} :
    dicts? xs = some ds ↔ xs = ds.map .dict := by
  induction xs generalizing ds with
  | nil => cases ds <;> simp [dicts?]
  | cons x xs ih =>
    cases x with
    | dict d =>
      cases hxs : dicts? xs with
      | none =>
        simp only [dicts?, Value.dict?, hxs, reduceCtorEq, false_iff]
        intro h
        cases ds with
        | nil => simp at h
        | cons e es =>
          simp only [List.map_cons, List.cons.injEq] at h
          simp [ih.mpr h.2] at hxs
      | some es =>
        simp only [dicts?, Value.dict?, hxs, Option.some.injEq]
        have hes := ih.mp hxs
        constructor
        · rintro rfl
          simp [hes]
        · intro h
          cases ds with
          | nil => simp at h
          | cons e es' =>
            simp only [List.map_cons, List.cons.injEq, Value.dict.injEq] at h
            have hes' : dicts? xs = some es' := ih.mpr h.2
            rw [hxs, Option.some.injEq] at hes'
            rw [h.1, hes']
    | _ =>
      simp only [dicts?, Value.dict?, reduceCtorEq, false_iff]
      intro h
      cases ds <;> simp at h

/-- The dictionaries of a well-formed list are well formed. -/
lemma wellFormed_of_dicts? {xs : List Value} (h : Value.WellFormed (.list xs)) {d : Dict}
    (hd : d ∈ (dicts? xs).getD []) : Value.WellFormed (.dict d) := by
  cases hds : dicts? xs with
  | none => simp [hds] at hd
  | some ds =>
    rw [hds, Option.getD_some] at hd
    rw [dicts?_eq_some.mp hds] at h
    exact (Value.wellFormedList_iff _).mp h _ (List.mem_map_of_mem hd)

/-- `_require_unique_event_ids` and its siblings: every entry has an `id` under the given key, and
no id occurs twice. `seen` are the ids of the entries before. -/
def requireUniqueIds (key : String) (missing repeated : Exc) :
    (entries : List Dict) → (seen : List Str) → Except Exc Unit
  | [], _ => .ok ()
  | entry :: entries, seen =>
    match normalized (entry.get key) with
    | none => .error missing
    | some id =>
      if seen.contains id then .error repeated
      else requireUniqueIds key missing repeated entries (id :: seen)

/-! ### Prefixes of a history -/

/-- `proposed[: len(current)] == current`, on lists of events. -/
def startsWith (proposed current : List Dict) : Bool :=
  Value.sameList ((proposed.take current.length).map .dict) (current.map .dict)

/-- Two values are equal as list elements, read from the older to the newer one. -/
def SameEvents (xs ys : List Dict) : Prop :=
  Value.sameList (ys.map .dict) (xs.map .dict) = true

/-- The first list of events is a prefix of the second, up to Python's equality of events. -/
def IsPrefix (xs ys : List Dict) : Prop :=
  xs.length ≤ ys.length ∧ SameEvents xs (ys.take xs.length)

instance (xs ys : List Dict) : Decidable (IsPrefix xs ys) :=
  inferInstanceAs (Decidable (_ ∧ _ = true))

/-- Taking elements commutes with elementwise equality. -/
lemma sameList_take {xs ys : List Value} (h : Value.sameList xs ys = true) (n : ℕ) :
    Value.sameList (xs.take n) (ys.take n) = true := by
  induction xs generalizing ys n with
  | nil =>
    cases ys with
    | nil => simp [Value.sameList]
    | cons y ys => simp [Value.sameList] at h
  | cons x xs ih =>
    cases ys with
    | nil => simp [Value.sameList] at h
    | cons y ys =>
      cases n with
      | zero => simp [Value.sameList]
      | succ n =>
        simp only [Value.sameList, Bool.and_eq_true, List.take_succ_cons] at h ⊢
        exact ⟨h.1, ih h.2 n⟩

/-- Elementwise equal lists have the same elements at every position. -/
lemma sameList_getElem? {xs ys : List Value} (h : Value.sameList xs ys = true) {i : ℕ} {x : Value}
    (hx : xs[i]? = some x) : ∃ y, ys[i]? = some y ∧ Value.same x y = true := by
  induction xs generalizing ys i with
  | nil => simp at hx
  | cons x' xs ih =>
    cases ys with
    | nil => simp [Value.sameList] at h
    | cons y ys =>
      simp only [Value.sameList, Bool.and_eq_true] at h
      cases i with
      | zero =>
        simp only [List.getElem?_cons_zero, Option.some.injEq] at hx ⊢
        exact ⟨y, rfl, hx ▸ h.1⟩
      | succ i =>
        simp only [List.getElem?_cons_succ] at hx ⊢
        exact ih h.2 hx

/-- An event of the longer history at a position of the shorter one. -/
lemma IsPrefix.getElem? {xs ys : List Dict} (h : IsPrefix xs ys) {i : ℕ} (hi : i < xs.length)
    {y : Dict} (hy : ys[i]? = some y) :
    ∃ x, xs[i]? = some x ∧ Value.same (.dict y) (.dict x) = true := by
  have htake : ((ys.take xs.length).map Value.dict)[i]? = some (.dict y) := by
    rw [List.getElem?_map, List.getElem?_take_of_lt hi, hy]
    rfl
  obtain ⟨v, hv, hsame⟩ := sameList_getElem? h.2 htake
  rw [List.getElem?_map, Option.map_eq_some_iff] at hv
  obtain ⟨x, hx, rfl⟩ := hv
  exact ⟨x, hx, hsame⟩

/-- Histories that extend each other in turn: the first one is a prefix of the last. -/
lemma IsPrefix.trans {xs ys zs : List Dict} (hxy : IsPrefix xs ys) (hyz : IsPrefix ys zs) :
    IsPrefix xs zs := by
  refine ⟨hxy.1.trans hyz.1, ?_⟩
  have hcut := sameList_take hyz.2 xs.length
  rw [← List.map_take, ← List.map_take, List.take_take, Nat.min_eq_left hxy.1] at hcut
  exact Value.sameList_trans hcut hxy.2

/-- A history of well-formed events is a prefix of itself. -/
lemma IsPrefix.refl {xs : List Dict} (h : ∀ d ∈ xs, Value.WellFormed (.dict d)) :
    IsPrefix xs xs := by
  refine ⟨le_rfl, ?_⟩
  rw [SameEvents, List.take_length]
  refine Value.sameList_refl ((Value.wellFormedList_iff _).mpr fun v hv => ?_)
  obtain ⟨d, hd, rfl⟩ := List.mem_map.mp hv
  exact h d hd

/-- The empty history is a prefix of every history. -/
lemma IsPrefix.nil (xs : List Dict) : IsPrefix [] xs := ⟨Nat.zero_le _, rfl⟩

/-- The prefix test of the source. -/
lemma isPrefix_of_startsWith {proposed current : List Dict}
    (hlen : current.length ≤ proposed.length) (h : startsWith proposed current = true) :
    IsPrefix current proposed :=
  ⟨hlen, h⟩

end VitrialSync
