import VitrialSync.Program.Table
import VitrialSync.Python.Binary64

set_option relaxedAutoImplicit false
set_option autoImplicit false

/-!
# Python values made of JSON data

The values `json.loads` builds: `None`, booleans, integers of any size, floats, strings, lists and
dictionaries. A dictionary is its list of items in insertion order; `Value.WellFormed` says that
no dictionary inside a value has a key twice, which is what a real `dict` guarantees.

Equality needs two relations. Inside a container CPython compares elements by identity first, and
every NaN that `json.loads` returns is the same object, so the element relation `Value.same`
relates NaN to itself; the operator `==` on two values, `Value.eq`, does not. `True == 1` and
`1 == 1.0` hold in both, and dictionaries are compared without regard to order.

## Main definitions

* `Python.Value`, `Python.Dict` — values and the items of a dictionary.
* `Python.Dict.get`, `Python.Dict.getOr`, `Python.Dict.contains`, `Python.Dict.set` — `d.get(k)`,
  `d.get(k, default)`, `k in d` and `d[k] = v`.
* `Python.Value.same`, `Python.Value.eq` — element equality and `==`.
* `Python.Value.WellFormed` — distinct keys, hereditarily.

## Main results

* `Python.Value.same_trans`, `Python.Value.same_refl`, `Python.Value.same_symm` — element equality
  is transitive, and reflexive and symmetric on well-formed values.
* `Python.Dict.same_get` — equal dictionaries answer `get` with equal values.
-/

namespace Python

/-- A value of the JSON fragment of Python. -/
inductive Value where
  | none
  | bool (b : Bool)
  | int (n : ℤ)
  | float (x : Binary64)
  | str (s : Str)
  | list (xs : List Value)
  | dict (items : List (Str × Value))

/-- The items of a dictionary in insertion order. -/
abbrev Dict := List (Str × Value)

/-! ### Dictionaries -/

namespace Dict

/-- `d.get(k)`: the value of the key, `None` when it is absent. -/
def get (d : Dict) (k : Str) : Value := (d.lookup k).getD .none

/-- `d.get(k, default)`. -/
def getOr (d : Dict) (k : Str) (default : Value) : Value := (d.lookup k).getD default

/-- `k in d`. -/
def contains (d : Dict) (k : Str) : Bool := (d.lookup k).isSome

/-- The keys in insertion order. -/
def keys (d : Dict) : List Str := Program.keys d

/-- `d[k] = v`: the value is replaced in place, a new key goes last. -/
def set (d : Dict) (k : Str) (v : Value) : Dict := Program.assign d k v

end Dict

/-! ### Types, truth and hashing -/

namespace Value

/-- `isinstance(v, str)`, with the string. -/
def str? : Value → Option Str
  | str s => some s
  | _ => Option.none

/-- `isinstance(v, int) and not isinstance(v, bool)`, with the number. -/
def properInt? : Value → Option ℤ
  | int n => some n
  | _ => Option.none

/-- `isinstance(v, list)`, with the elements. -/
def list? : Value → Option (List Value)
  | list xs => some xs
  | _ => Option.none

/-- `isinstance(v, dict)`, with the items. -/
def dict? : Value → Option Dict
  | dict d => some d
  | _ => Option.none

/-- `v is None`. -/
def isNone : Value → Bool
  | none => true
  | _ => false

/-- `bool(v)`. -/
def truthy : Value → Bool
  | none => false
  | bool b => b
  | int n => n != 0
  | float x => !(x.eq (Binary64.ofInt 0))
  | str s => !s.isEmpty
  | list xs => !xs.isEmpty
  | dict d => !d.isEmpty

/-- Whether `hash(v)` is defined: membership in a `set` or a `dict` raises `TypeError` for lists
and dictionaries. -/
def hashable : Value → Bool
  | list _ => false
  | dict _ => false
  | _ => true

/-! ### Equality -/

/-- A numeric value as Python compares it: exactly, across `bool`, `int` and `float`. -/
inductive Number where
  | fin (q : ℚ)
  | inf (neg : Bool)
  | nan
  deriving DecidableEq

/-- The number of a float. -/
def Number.ofFloat : Binary64 → Number
  | .nan => nan
  | .inf neg => inf neg
  | .finite neg m e h => fin (Binary64.finite neg m e h).toRat

/-- What decides equality of a value that is not a container. -/
inductive Scalar where
  | none
  | num (x : Number)
  | str (s : Str)
  deriving DecidableEq

/-- The scalar of a value that is not a container. -/
def scalar? : Value → Option Scalar
  | none => some .none
  | bool b => some (.num (.fin (if b then 1 else 0)))
  | int n => some (.num (.fin n))
  | float x => some (.num (Number.ofFloat x))
  | str s => some (.str s)
  | list _ => Option.none
  | dict _ => Option.none

mutual

/-- Equality of container elements: identity or `==`. The NaN of `json.loads` is one object and
so is the same as itself. -/
def same : Value → Value → Bool
  | list xs, w =>
    match w with
    | list ys => sameList xs ys
    | _ => false
  | dict d, w =>
    match w with
    | dict d' => d.length == d'.length && sameItems d d'
    | _ => false
  | v, w => v.scalar?.isSome && v.scalar? == w.scalar?

/-- Elementwise equality of lists. -/
def sameList : List Value → List Value → Bool
  | [], [] => true
  | x :: xs, y :: ys => same x y && sameList xs ys
  | _, _ => false

/-- Every item of the first dictionary is in the second one. -/
def sameItems : List (Str × Value) → List (Str × Value) → Bool
  | [], _ => true
  | (k, v) :: d, d' =>
    (match d'.lookup k with
      | some w => same v w
      | Option.none => false) && sameItems d d'

end

/-- `v == w`: as for elements, but a bare NaN differs from itself. -/
def eq (v w : Value) : Bool :=
  match v with
  | float .nan => false
  | _ => same v w

/-- `v != w`. -/
def ne (v w : Value) : Bool := !eq v w

/-- `v == "…"` for a string: only that string is equal to it. -/
def isStr (v : Value) (s : Str) : Bool := v.str? == some s

/-! ### Well-formed values -/

mutual

/-- No dictionary inside the value has a key twice. -/
def WellFormed : Value → Prop
  | list xs => WellFormedList xs
  | dict d => (Dict.keys d).Nodup ∧ WellFormedItems d
  | _ => True

/-- Every element is well formed. -/
def WellFormedList : List Value → Prop
  | [] => True
  | x :: xs => WellFormed x ∧ WellFormedList xs

/-- Every value of the items is well formed. -/
def WellFormedItems : List (Str × Value) → Prop
  | [] => True
  | (_, v) :: d => WellFormed v ∧ WellFormedItems d

end

/-- The elements of a well-formed list are well formed. -/
lemma wellFormedList_iff (xs : List Value) : WellFormedList xs ↔ ∀ x ∈ xs, WellFormed x := by
  induction xs with
  | nil => simp [WellFormedList]
  | cons x xs ih => simp [WellFormedList, ih]

/-- The values of well-formed items are well formed. -/
lemma wellFormedItems_iff (d : Dict) : WellFormedItems d ↔ ∀ e ∈ d, WellFormed e.2 := by
  induction d with
  | nil => simp [WellFormedItems]
  | cons e d ih => simp [WellFormedItems, ih]

/-- The empty dictionary is well formed. -/
lemma WellFormed.empty : WellFormed (dict []) := by
  simp [WellFormed, WellFormedItems, Dict.keys, Program.keys]

/-- A value read from a well-formed dictionary is well formed. -/
lemma WellFormed.get {d : Dict} (h : WellFormed (dict d)) (k : Str) : WellFormed (d.get k) := by
  unfold Dict.get
  cases hl : d.lookup k with
  | none => simp [WellFormed]
  | some v =>
    have hm := Program.mem_of_lookup hl
    simp only [WellFormed, wellFormedItems_iff] at h
    exact h.2 _ hm

/-- Assigning a well-formed value keeps a dictionary well formed. -/
lemma WellFormed.set {d : Dict} (h : WellFormed (dict d)) (k : Str) {v : Value}
    (hv : WellFormed v) : WellFormed (dict (d.set k v)) := by
  simp only [WellFormed, wellFormedItems_iff] at h ⊢
  refine ⟨Program.nodup_keys_assign d k v h.1, fun e he => ?_⟩
  rcases Program.mem_assign he with rfl | hmem
  · exact hv
  · exact h.2 e hmem

/-! ### Laws of equality -/

/-- Dictionary inclusion, item by item. -/
lemma sameItems_iff (d d' : Dict) :
    sameItems d d' = true ↔ ∀ e ∈ d, ∃ w, d'.lookup e.1 = some w ∧ same e.2 w = true := by
  induction d with
  | nil => simp [sameItems]
  | cons e d ih =>
    obtain ⟨k, v⟩ := e
    simp only [sameItems, Bool.and_eq_true, ih, List.forall_mem_cons]
    cases hl : d'.lookup k <;> simp

/-- Values that are not containers are the same exactly when their scalars agree. -/
lemma same_iff_of_scalar {a : Value} (ha : a.scalar?.isSome = true) (b : Value) :
    same a b = true ↔ a.scalar? = b.scalar? := by
  cases a <;> simp [same, scalar?] at ha ⊢

/-- Transitivity at a value that is not a container. -/
lemma same_trans_scalar {a b c : Value} (ha : a.scalar?.isSome = true) (hab : same a b = true)
    (hbc : same b c = true) : same a c = true := by
  rw [same_iff_of_scalar ha] at hab ⊢
  rw [same_iff_of_scalar (hab ▸ ha)] at hbc
  exact hab.trans hbc

/-- Symmetry at a value that is not a container. -/
lemma same_symm_scalar {a b : Value} (ha : a.scalar?.isSome = true) (hab : same a b = true) :
    same b a = true := by
  rw [same_iff_of_scalar ha] at hab
  rw [same_iff_of_scalar (hab ▸ ha)]
  exact hab.symm

mutual

/-- Element equality is transitive.

**Proof sketch.** Induction on the first value. Scalars are compared through `scalar?`; lists
elementwise; for dictionaries the item of the second one that matches an item of the first is
itself matched in the third, and the lengths agree. -/
theorem same_trans : ∀ {a b c : Value}, same a b = true → same b c = true → same a c = true
  | list xs, b, c, hab, hbc => by
    cases b with
    | list ys =>
      cases c with
      | list zs =>
        simp only [same] at hab hbc ⊢
        exact sameList_trans hab hbc
      | _ => simp [same] at hbc
    | _ => simp [same] at hab
  | dict d, b, c, hab, hbc => by
    cases b with
    | dict d' =>
      cases c with
      | dict d'' =>
        simp only [same, Bool.and_eq_true, beq_iff_eq] at hab hbc ⊢
        exact ⟨hab.1.trans hbc.1, sameItems_trans hab.2 hbc.2⟩
      | _ => simp [same] at hbc
    | _ => simp [same] at hab
  | none, _, _, hab, hbc => same_trans_scalar (by simp [scalar?]) hab hbc
  | bool _, _, _, hab, hbc => same_trans_scalar (by simp [scalar?]) hab hbc
  | int _, _, _, hab, hbc => same_trans_scalar (by simp [scalar?]) hab hbc
  | float _, _, _, hab, hbc => same_trans_scalar (by simp [scalar?]) hab hbc
  | str _, _, _, hab, hbc => same_trans_scalar (by simp [scalar?]) hab hbc

theorem sameList_trans : ∀ {xs ys zs : List Value}, sameList xs ys = true →
    sameList ys zs = true → sameList xs zs = true
  | [], ys, zs, hxy, hyz => by
    cases ys with
    | nil => exact hyz
    | cons y ys => simp [sameList] at hxy
  | x :: xs, ys, zs, hxy, hyz => by
    cases ys with
    | nil => simp [sameList] at hxy
    | cons y ys =>
      cases zs with
      | nil => simp [sameList] at hyz
      | cons z zs =>
        simp only [sameList, Bool.and_eq_true] at hxy hyz ⊢
        exact ⟨same_trans hxy.1 hyz.1, sameList_trans hxy.2 hyz.2⟩

theorem sameItems_trans : ∀ {d d' d'' : List (Str × Value)}, sameItems d d' = true →
    sameItems d' d'' = true → sameItems d d'' = true
  | [], _, _, _, _ => by simp [sameItems]
  | (k, v) :: d, d', d'', h, h' => by
    simp only [sameItems, Bool.and_eq_true] at h ⊢
    cases hl : d'.lookup k with
    | none => simp [hl] at h
    | some w =>
      obtain ⟨u, hu, hwu⟩ := (sameItems_iff d' d'').mp h' _ (Program.mem_of_lookup hl)
      simp only [hl] at h
      rw [hu]
      exact ⟨same_trans h.1 hwu, sameItems_trans h.2 h'⟩

end

mutual

/-- Element equality is reflexive on well-formed values, the NaN included. -/
theorem same_refl : ∀ {a : Value}, WellFormed a → same a a = true
  | list xs, h => by
    simp only [WellFormed] at h
    simpa only [same] using sameList_refl h
  | dict d, h => by
    simp only [WellFormed] at h
    simp only [same, beq_self_eq_true, Bool.true_and]
    exact sameItems_refl h.2 fun e he => Program.lookup_of_mem h.1 he
  | none, _ => by simp [same, scalar?]
  | bool _, _ => by simp [same, scalar?]
  | int _, _ => by simp [same, scalar?]
  | float _, _ => by simp [same, scalar?]
  | str _, _ => by simp [same, scalar?]

theorem sameList_refl : ∀ {xs : List Value}, WellFormedList xs → sameList xs xs = true
  | [], _ => by simp [sameList]
  | x :: xs, h => by
    simp only [WellFormedList] at h
    simp only [sameList, Bool.and_eq_true]
    exact ⟨same_refl h.1, sameList_refl h.2⟩

theorem sameItems_refl : ∀ {d d' : List (Str × Value)}, WellFormedItems d →
    (∀ e ∈ d, d'.lookup e.1 = some e.2) → sameItems d d' = true
  | [], _, _, _ => by simp [sameItems]
  | (k, v) :: d, d', h, hd => by
    simp only [WellFormedItems] at h
    have hk : d'.lookup k = some v := hd (k, v) List.mem_cons_self
    simp only [sameItems, hk, Bool.and_eq_true]
    exact ⟨same_refl h.1, sameItems_refl h.2 fun e he => hd e (List.mem_cons_of_mem _ he)⟩

end

/-- `==` implies element equality. -/
lemma same_of_eq {v w : Value} (h : eq v w = true) : same v w = true := by
  unfold eq at h
  split at h
  · cases h
  · exact h

/-- A value that is the same as a string is that string. -/
lemma same_str_iff (v : Value) (s : Str) : same v (str s) = true ↔ v = str s := by
  cases v <;> simp [same, scalar?]

/-- The same integers are equal. -/
lemma same_int_iff (m n : ℤ) : same (int m) (int n) = true ↔ m = n := by
  simp [same, scalar?]

/-- `v != "…"` fails for that string only. -/
lemma ne_str_eq_false_iff (v : Value) (s : Str) : v.ne (str s) = false ↔ v = str s := by
  rw [ne, Bool.not_eq_false']
  constructor
  · exact fun h => (same_str_iff v s).mp (same_of_eq h)
  · rintro rfl
    exact (same_str_iff _ s).mpr rfl

/-- The string test by constructor. -/
@[simp]
lemma isStr_iff (v : Value) (s : Str) : v.isStr s = true ↔ v = str s := by
  cases v <;> simp [isStr, str?]

/-- The text of a value that is one. -/
lemma str?_eq_some {v : Value} {s : Str} : v.str? = some s ↔ v = str s := by
  cases v <;> simp [str?]

/-- The elements of a value that is a list. -/
lemma list?_eq_some {v : Value} {xs : List Value} : v.list? = some xs ↔ v = list xs := by
  cases v <;> simp [list?]

/-- The items of a value that is a dictionary. -/
lemma dict?_eq_some {v : Value} {d : Dict} : v.dict? = some d ↔ v = dict d := by
  cases v <;> simp [dict?]

/-- A field that is a list is that list, whatever the default. -/
lemma list?_getOr {d : Dict} {key : Str} {xs : List Value} (default : Value)
    (h : d.get key = .list xs) : (d.getOr key default).list? = some xs := by
  unfold Dict.get at h
  unfold Dict.getOr
  cases hlookup : d.lookup key with
  | none =>
    rw [hlookup] at h
    cases h
  | some v =>
    rw [hlookup, Option.getD_some] at h
    rw [Option.getD_some, h]
    rfl

/-- Values that are the same pass the same string tests. -/
lemma isStr_congr {v w : Value} (h : same v w = true) (s : Str) : v.isStr s = w.isStr s := by
  rw [Bool.eq_iff_iff, isStr_iff, isStr_iff]
  constructor
  · rintro rfl
    rw [same_iff_of_scalar (by rfl)] at h
    cases w <;> simp_all [scalar?]
  · rintro rfl
    exact (same_str_iff v s).mp h

/-- A value equal to a text is that text. -/
lemma eq_str_of_same {v w : Value} {s : Str} (h : same v w = true) (hv : v = str s) :
    w = str s := by
  rw [← isStr_iff, ← isStr_congr h, isStr_iff]
  exact hv

/-- What is the same as a dictionary is a dictionary. -/
lemma dict_of_same {d : Dict} {w : Value} (h : same (dict d) w = true) :
    ∃ d', w = dict d' ∧ same (dict d) (dict d') = true := by
  cases w with
  | dict d' => exact ⟨d', rfl, h⟩
  | _ => cases h

/-- What is the same as a list is a list with the same elements. -/
lemma list_of_same {xs : List Value} {w : Value} (h : same (list xs) w = true) :
    ∃ ys, w = list ys ∧ sameList xs ys = true := by
  cases w with
  | list ys => exact ⟨ys, rfl, h⟩
  | _ => cases h

/-- Values that are the same are both `None` or both not. -/
lemma isNone_congr {v w : Value} (h : same v w = true) : v.isNone = w.isNone := by
  cases v <;> cases w <;> simp_all [same, scalar?, isNone]

end Value

/-- Equal dictionaries with distinct keys on the left have the same keys: those of the first are
distinct and all among those of the second, which are as many. -/
lemma Dict.keys_perm_of_same {d d' : Dict} (hd : (Dict.keys d).Nodup)
    (h : Value.same (.dict d) (.dict d') = true) : (Dict.keys d).Perm (Dict.keys d') := by
  simp only [Value.same, Bool.and_eq_true, beq_iff_eq] at h
  have hitems := (Value.sameItems_iff d d').mp h.2
  have hsub : Dict.keys d ⊆ Dict.keys d' := by
    intro j hj
    obtain ⟨e, he, rfl⟩ := List.mem_map.mp hj
    obtain ⟨w, hw, _⟩ := hitems e he
    exact Program.mem_keys_of_lookup hw
  refine (List.subperm_of_subset hd hsub).perm_of_length_le ?_
  simp [Dict.keys, Program.keys, h.1]

/-- Equal dictionaries with distinct keys on the left answer `get` with equal values.

**Proof sketch.** A key of the first dictionary is matched by definition. A key absent there is
absent in the second, which has the same keys. -/
theorem Dict.same_get {d d' : Dict} (hd : (Dict.keys d).Nodup)
    (h : Value.same (.dict d) (.dict d') = true) (k : Str) :
    Value.same (d.get k) (d'.get k) = true := by
  have hperm := Dict.keys_perm_of_same hd h
  simp only [Value.same, Bool.and_eq_true, beq_iff_eq] at h
  unfold Dict.get
  cases hl : d.lookup k with
  | some v =>
    obtain ⟨w, hw, hvw⟩ := (Value.sameItems_iff d d').mp h.2 _ (Program.mem_of_lookup hl)
    simp only at hw hvw
    simpa [hw] using hvw
  | none =>
    have hl' : d'.lookup k = Option.none := by
      rw [Program.lookup_eq_none_iff] at hl ⊢
      exact fun hm => hl (hperm.mem_iff.mpr hm)
    simp [hl', Value.same, Value.scalar?]

namespace Value

mutual

/-- Element equality is symmetric on well-formed values.

**Proof sketch.** Induction on the first value. An item of the second dictionary has its key in the
first one, which has the same keys, and the item found there is matched by it. -/
theorem same_symm : ∀ {a b : Value}, WellFormed a → WellFormed b → same a b = true →
    same b a = true
  | list xs, b, ha, hb, hab => by
    cases b with
    | list ys =>
      simp only [WellFormed] at ha hb
      simp only [same] at hab ⊢
      exact sameList_symm ha hb hab
    | _ => simp [same] at hab
  | dict d, b, ha, hb, hab => by
    cases b with
    | dict d' =>
      have hperm := Dict.keys_perm_of_same ha.1 hab
      simp only [same, Bool.and_eq_true, beq_iff_eq] at hab ⊢
      refine ⟨hab.1.symm, (sameItems_iff d' d).mpr fun e he => ?_⟩
      have hkey : e.1 ∈ Dict.keys d := hperm.mem_iff.mpr (List.mem_map_of_mem he)
      obtain ⟨v, hv⟩ : ∃ v, d.lookup e.1 = some v :=
        Option.ne_none_iff_exists'.mp fun hl => (Program.lookup_eq_none_iff _ _).mp hl hkey
      obtain ⟨w, hw, hvw⟩ := (sameItems_iff d d').mp hab.2 _ (Program.mem_of_lookup hv)
      simp only [Program.lookup_of_mem hb.1 he, Option.some.injEq] at hw
      subst hw
      have hwf := (wellFormedItems_iff d').mp hb.2 e he
      exact ⟨v, hv, sameItem_symm ha.2 _ (Program.mem_of_lookup hv) hwf hvw⟩
    | _ => simp [same] at hab
  | none, _, _, _, hab => same_symm_scalar (by simp [scalar?]) hab
  | bool _, _, _, _, hab => same_symm_scalar (by simp [scalar?]) hab
  | int _, _, _, _, hab => same_symm_scalar (by simp [scalar?]) hab
  | float _, _, _, _, hab => same_symm_scalar (by simp [scalar?]) hab
  | str _, _, _, _, hab => same_symm_scalar (by simp [scalar?]) hab

theorem sameList_symm : ∀ {xs ys : List Value}, WellFormedList xs → WellFormedList ys →
    sameList xs ys = true → sameList ys xs = true
  | [], ys, _, _, h => by
    cases ys with
    | nil => exact h
    | cons y ys => simp [sameList] at h
  | x :: xs, ys, hx, hy, h => by
    cases ys with
    | nil => simp [sameList] at h
    | cons y ys =>
      simp only [WellFormedList] at hx hy
      simp only [sameList, Bool.and_eq_true] at h ⊢
      exact ⟨same_symm hx.1 hy.1 h.1, sameList_symm hx.2 hy.2 h.2⟩

theorem sameItem_symm : ∀ {d : List (Str × Value)}, WellFormedItems d → ∀ e ∈ d, ∀ {w : Value},
    WellFormed w → same e.2 w = true → same w e.2 = true
  | [], _, e, he, _, _, _ => by cases he
  | (k, v) :: d, hd, e, he, w, hw, h => by
    simp only [WellFormedItems] at hd
    rcases List.mem_cons.mp he with rfl | he
    · exact same_symm hd.1 hw h
    · exact sameItem_symm hd.2 e he hw h

end

end Value

end Python
