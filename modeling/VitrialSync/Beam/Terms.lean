import VitrialSync.Server.Checks
import VitrialSync.Python.JsonWriter

set_option relaxedAutoImplicit false
set_option autoImplicit false

/-!
# Decoded JSON on the BEAM

The Elixir service under `src/beam` ports the push to the BEAM. Its decoded JSON is made of the
same data as the values of `json.loads`, so the model has one type for both: a term is a value
without a NaN or an infinity, which no float of this runtime is, and a binary is its sequence of
code points. This file has `VitrialSync.Value`, the module through which the port compares terms
the way Python does.

A check of the port returns `:ok` or `{:error, message}`, and it may raise. Both end a `with`
chain, but only the message is turned into a rejection, so the model keeps them apart.

## Main definitions

* `VitrialSync.Beam.Fault` — a refusal with its message, or a raised exception.
* `VitrialSync.Beam.Term`, `VitrialSync.Beam.Object` — decoded terms and objects.
* `VitrialSync.Beam.normalized` — `Value.normalized/1`.
* `VitrialSync.Beam.pyEq` — `Value.py_eq?/2`.
* `VitrialSync.Beam.member` — `Value.member?/2` on a set of strings.
* `VitrialSync.Beam.termEq` — the operator `==`.
* `VitrialSync.Beam.eventList` — `Value.event_list/2`.

## Main results

* `VitrialSync.Beam.pyEq_eq_same` — the comparison is Python's.
* `VitrialSync.Beam.normalized_eq` — on a text that both runtimes trim alike, so is the name that is
  read from it.
-/

namespace VitrialSync.Beam

open Python Program

/-! ### Faults -/

/-- The exceptions that the code runs into. -/
inductive Raised where
  | functionClauseError
  | caseClauseError
  | withClauseError
  | badMapError
  | keyError
  | undefinedFunctionError
  | arithmeticError
  | argumentError
  | protocolUndefinedError
  deriving DecidableEq

/-- What ends a check early: the `{:error, message}` it returns, or an exception. -/
inductive Fault where
  | refused (message : String)
  | raised (exception : Raised)
  deriving DecidableEq

/-- `{:error, message}`. -/
def refuse {α : Type} (message : String) : Except Fault α := .error (.refused message)

/-- `if c, do: {:error, message}, else: :ok`. -/
def refuseIf (c : Bool) (message : String) : Except Fault Unit := raiseIf c (.refused message)

/-- A check that went through had a false condition. -/
@[simp]
lemma refuseIf_eq_ok {c : Bool} {message : String} {u : Unit} :
    refuseIf c message = .ok u ↔ c = false := by
  simp [refuseIf]

/-- A refusal is no result. -/
@[simp]
lemma refuse_ne_ok {α : Type} {message : String} {a : α} : refuse message ≠ .ok a := by
  simp [refuse]

/-! ### Terms -/

/-- A decoded JSON term. -/
structure Term where
  value : Value
  wellFormed : value.WellFormed
  finite : Json.AllFinite value

/-- A decoded JSON object. -/
structure Object where
  items : Dict
  wellFormed : Value.WellFormed (.dict items)
  finite : Json.AllFinite (.dict items)

/-- `is_map(term)`, with the object. -/
def Term.object? : Term → Option Object
  | ⟨.dict d, hw, hf⟩ => some ⟨d, hw, hf⟩
  | _ => none

/-- An object as a term. -/
def Object.term (o : Object) : Term := ⟨.dict o.items, o.wellFormed, o.finite⟩

/-- The value of a term that is an object. -/
lemma Term.value_of_object? {t : Term} {o : Object} (h : t.object? = some o) :
    t.value = .dict o.items := by
  unfold Term.object? at h
  split at h
  · cases h
    rfl
  · cases h

/-- An object is read back from its term. -/
@[simp]
lemma Object.object?_term (o : Object) : o.term.object? = some o := rfl

/-- A field of an object is no NaN. -/
lemma Object.get_ne_nan (o : Object) (k : Str) : o.items.get k ≠ .float .nan := by
  intro h
  have hleaf : Value.float .nan ∈ (Value.dict o.items).leaves := by
    rw [Value.leaves, Value.mem_leavesOfItems]
    cases hlookup : o.items.lookup k with
    | none => simp [Dict.get, hlookup] at h
    | some v =>
      rw [Dict.get, hlookup, Option.getD_some] at h
      exact ⟨(k, v), mem_of_lookup hlookup, by simp [h, Value.leaves]⟩
  cases o.finite _ hleaf

/-- `Map.get(term, key)`, which raises on a term that is no map. -/
def mapGet (v : Value) (key : Str) : Except Fault Value :=
  match v.dict? with
  | some d => .ok (d.get key)
  | none => .error (.raised .badMapError)

/-! ### Names -/

/-- The white space that `String.trim/1` removes: the Unicode property `White_Space`. -/
def isWhiteSpace (c : CodePoint) : Bool :=
  let n := c.val
  (0x9 ≤ n && n ≤ 0xd) || n == 0x20 || n == 0x85 || n == 0xa0 || n == 0x1680 ||
    (0x2000 ≤ n && n ≤ 0x200a) || n == 0x2028 || n == 0x2029 || n == 0x202f || n == 0x205f ||
    n == 0x3000

/-- `String.trim/1`. -/
def trim (s : Str) : Str := (s.dropWhile isWhiteSpace).rdropWhile isWhiteSpace

/-- `Value.normalized/1`. -/
def normalized (v : Value) : Option Str :=
  match v with
  | .str s => if (trim s).isEmpty then none else some (trim s)
  | _ => none

/-- Python's `strip` and `String.trim/1` remove the same of a text. They differ on the information
separators U+001C to U+001F, which have no `White_Space`. -/
def TrimsAlike (v : Value) : Prop := ∀ s, v = .str s → trim s = s.strip

instance (v : Value) : Decidable (TrimsAlike v) :=
  match v with
  | .str s => decidable_of_iff (trim s = s.strip) (by simp [TrimsAlike])
  | .none | .bool _ | .int _ | .float _ | .list _ | .dict _ => isTrue (by simp [TrimsAlike])

/-- On such a text both servers read the same name. -/
lemma normalized_eq {v : Value} (h : TrimsAlike v) : normalized v = VitrialSync.normalized v := by
  cases v with
  | str s => rw [normalized, VitrialSync.normalized, h s rfl]
  | _ => rfl

/-! ### Comparison -/

/-- `numeric/1` of a number or a boolean. The runtime compares an integer and a float exactly. -/
def numeric? : Value → Option Value.Number
  | .bool b => some (.fin (if b then 1 else 0))
  | .int n => some (.fin n)
  | .float x => some (Value.Number.ofFloat x)
  | _ => none

/-- `py_eq?/2` on two terms that are neither lists nor objects. -/
def scalarEq (v w : Value) : Bool :=
  match numeric? v, numeric? w with
  | some x, some y => x == y
  | _, _ =>
    match v, w with
    | .str s, .str t => s == t
    | .none, .none => true
    | _, _ => false

mutual

/-- `Value.py_eq?/2`. -/
def pyEq : Value → Value → Bool
  | .list xs, w =>
    match w with
    | .list ys => listEq xs ys
    | _ => false
  | .dict d, w =>
    match w with
    | .dict d' => d.length == d'.length && objectEq d d'
    | _ => false
  | v, w => scalarEq v w

/-- `list_eq?/2`. -/
def listEq : List Value → List Value → Bool
  | [], [] => true
  | x :: xs, y :: ys => pyEq x y && listEq xs ys
  | _, _ => false

/-- The comparison of the members in `object_eq?/2`. -/
def objectEq : List (Str × Value) → List (Str × Value) → Bool
  | [], _ => true
  | (k, v) :: d, d' =>
    (match d'.lookup k with
      | some w => pyEq v w
      | none => false) && objectEq d d'

end

/-- The scalars are compared as Python compares them. -/
lemma pyEq_scalar {v : Value} (hv : v.scalar?.isSome = true) (w : Value) :
    pyEq v w = v.same w := by
  have hscalar : pyEq v w = scalarEq v w := by
    cases v <;> simp [Value.scalar?, pyEq] at hv ⊢
  rw [hscalar, Bool.eq_iff_iff, Value.same_iff_of_scalar hv]
  cases v <;> cases w <;> simp [scalarEq, numeric?, Value.scalar?] at hv ⊢

mutual

/-- `py_eq?/2` is Python's equality.

**Proof sketch.** Induction on the first term: scalars by `pyEq_scalar`, containers elementwise,
by the same recursion on both sides. -/
theorem pyEq_eq_same : ∀ v w : Value, pyEq v w = v.same w
  | .list xs, w => by
    cases w with
    | list ys => simpa only [pyEq, Value.same] using listEq_eq_sameList xs ys
    | _ => rfl
  | .dict d, w => by
    cases w with
    | dict d' => simp only [pyEq, Value.same, objectEq_eq_sameItems d d']
    | _ => rfl
  | .none, w => pyEq_scalar rfl w
  | .bool _, w => pyEq_scalar rfl w
  | .int _, w => pyEq_scalar rfl w
  | .float _, w => pyEq_scalar rfl w
  | .str _, w => pyEq_scalar rfl w

theorem listEq_eq_sameList : ∀ xs ys : List Value, listEq xs ys = Value.sameList xs ys
  | [], ys => by cases ys <;> rfl
  | x :: xs, ys => by
    cases ys with
    | nil => rfl
    | cons y ys =>
      rw [listEq, Value.sameList, pyEq_eq_same x y, listEq_eq_sameList xs ys]

theorem objectEq_eq_sameItems : ∀ d d' : List (Str × Value), objectEq d d' = Value.sameItems d d'
  | [], _ => rfl
  | (k, v) :: d, d' => by
    rw [objectEq, Value.sameItems, objectEq_eq_sameItems d d']
    cases d'.lookup k with
    | none => rfl
    | some w => simp only [pyEq_eq_same v w]

end

/-- `Value.py_ne?/2`. -/
def pyNe (v w : Value) : Bool := !pyEq v w

/-- On a term that is no NaN it is Python's `!=`. -/
lemma pyNe_eq_ne {v : Value} (hv : v ≠ .float .nan) (w : Value) : pyNe v w = v.ne w := by
  have heq : v.eq w = v.same w := by
    unfold Value.eq
    split
    · exact absurd rfl hv
    · rfl
  rw [pyNe, pyEq_eq_same, Value.ne, heq]

/-- `Value.member?/2` on a set of strings. -/
def member (v : Value) (names : List String) : Bool :=
  names.any fun name => pyEq (.str (Str.ofString name)) v

/-- A term is a member when it spells a name of the set. -/
lemma member_eq_any (v : Value) (names : List String) :
    member v names = names.any fun name => v.isStr name := by
  refine congrArg names.any (funext fun name => ?_)
  rw [Bool.eq_iff_iff, pyEq_eq_same, Value.isStr_iff, Value.same_iff_of_scalar rfl]
  cases v <;> simp [Value.scalar?, eq_comm]

/-- Membership in the names of a vocabulary is a lookup that finds an entry. -/
lemma member_eq_findName {α : Type} (vocabulary : List (String × α)) (v : Value) :
    member v (vocabulary.map Prod.fst) = (findName vocabulary v).isSome := by
  rw [member_eq_any, findName, Option.isSome_map, List.any_map]
  induction vocabulary with
  | nil => rfl
  | cons entry vocabulary ih =>
    rw [List.any_cons, List.find?_cons, Function.comp_apply, ih]
    cases v.isStr entry.1 <;> rfl

/-! ### The operator `==` -/

mutual

/-- `v == w` on terms: numbers by value, booleans only with themselves. -/
def termEq : Value → Value → Bool
  | .list xs, w =>
    match w with
    | .list ys => termListEq xs ys
    | _ => false
  | .dict d, w =>
    match w with
    | .dict d' => d.length == d'.length && termItemsEq d d'
    | _ => false
  | .bool b, w =>
    match w with
    | .bool c => b == c
    | _ => false
  | v, w =>
    match w with
    | .bool _ => false
    | w => scalarEq v w

/-- `==` on lists. -/
def termListEq : List Value → List Value → Bool
  | [], [] => true
  | x :: xs, y :: ys => termEq x y && termListEq xs ys
  | _, _ => false

/-- `==` on the members of two maps of one size. -/
def termItemsEq : List (Str × Value) → List (Str × Value) → Bool
  | [], _ => true
  | (k, v) :: d, d' =>
    (match d'.lookup k with
      | some w => termEq v w
      | none => false) && termItemsEq d d'

end

/-! ### Enumeration -/

/-- The members of a term that the code reads with `Map.get/2`, which raises on what is no map. -/
def asMap (v : Value) : Except Fault Dict :=
  match v.dict? with
  | some d => .ok d
  | none => .error (.raised .badMapError)

/-- `term || []`. -/
def orEmptyList : Value → Value
  | .none => .list []
  | .bool false => .list []
  | v => v

/-- `List.wrap/1`. -/
def listWrap : Value → List Value
  | .none => []
  | .list xs => xs
  | v => [v]

/-- The elements that a function of `Enum` goes over. A pair of a map is no object; here it stands
as a list. -/
def enumerate : Value → Except Fault (List Value)
  | .list xs => .ok xs
  | .dict d => .ok (d.map fun (k, v) => .list [.str k, v])
  | _ => .error (.raised .protocolUndefinedError)

/-! ### Event histories -/

/-- What is wrong with an event history. -/
inductive HistoryFault where
  | required
  | malformed

/-- `Value.event_list/2`. -/
def eventList (value : Value) (required : Bool) : Except HistoryFault (List Dict) :=
  if value.isNone && !required then .ok []
  else
    match value.list? with
    | none => .error .required
    | some xs =>
      if required && xs.isEmpty then .error .required
      else
        match dicts? xs with
        | none => .error .malformed
        | some ds => .ok ds

end VitrialSync.Beam
