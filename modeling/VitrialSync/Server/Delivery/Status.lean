import VitrialSync.Server.Checks

set_option relaxedAutoImplicit false
set_option autoImplicit false

/-!
# Delivery statuses and plan revisions

The status vocabulary of a delivery execution with its transitions, and the checks that the plan
validators of the three delivery modules share.

## Main definitions

* `VitrialSync.Delivery.DeliveryStatus`, `VitrialSync.Delivery.DeliveryStatus.next` —
  `DELIVERY_STATUSES` and `DELIVERY_TRANSITIONS`.
* `VitrialSync.Delivery.DeliveryStatus.revisable` — the statuses with a self-transition.
* `VitrialSync.Delivery.requireNextRevision` — a changed plan advances its revision by one.
-/

namespace VitrialSync.Delivery

open Python Program

/-- A delivery status. -/
inductive DeliveryStatus where
  | engineeringReview
  | materialsRequired
  | procurement
  | production
  | readyForInstallation
  | scheduled
  | installed
  | complete
  deriving DecidableEq

namespace DeliveryStatus

/-- The wire name of a status. -/
def name : DeliveryStatus → String
  | engineeringReview => "engineeringReview"
  | materialsRequired => "materialsRequired"
  | procurement => "procurement"
  | production => "production"
  | readyForInstallation => "readyForInstallation"
  | scheduled => "scheduled"
  | installed => "installed"
  | complete => "complete"

/-- The position of a status on the way to completion. -/
def rank : DeliveryStatus → ℕ
  | engineeringReview => 0
  | materialsRequired => 1
  | procurement => 2
  | production => 3
  | readyForInstallation => 4
  | scheduled => 5
  | installed => 6
  | complete => 7

/-- `DELIVERY_TRANSITIONS.get(status)`. -/
def next : DeliveryStatus → Option DeliveryStatus
  | engineeringReview => some materialsRequired
  | materialsRequired => some procurement
  | procurement => some production
  | production => some readyForInstallation
  | readyForInstallation => some scheduled
  | scheduled => some installed
  | installed => some complete
  | complete => none

/-- The statuses in which an event may stay: a plan of the status is revised. -/
def revisable : DeliveryStatus → Bool
  | materialsRequired | procurement | production | readyForInstallation | scheduled => true
  | _ => false

/-- A transition advances the rank by one. -/
lemma rank_next {s t : DeliveryStatus} (h : s.next = some t) : t.rank = s.rank + 1 := by
  cases s <;> simp only [next, Option.some.injEq, reduceCtorEq] at h <;> subst h <;> rfl

end DeliveryStatus

/-- `DELIVERY_STATUSES`. -/
def deliveryStatuses : List (String × DeliveryStatus) :=
  [("engineeringReview", .engineeringReview), ("materialsRequired", .materialsRequired),
    ("procurement", .procurement), ("production", .production),
    ("readyForInstallation", .readyForInstallation), ("scheduled", .scheduled),
    ("installed", .installed), ("complete", .complete)]

/-! ### Plans -/

/-- A plan that may be absent, as a value. -/
def planValue : Option Dict → Value
  | some d => .dict d
  | none => .none

/-- `isinstance(v, int) and not isinstance(v, bool) and v >= 1`, with the number. -/
def revision? (v : Value) : Option ℤ := v.properInt?.filter (1 ≤ ·)

/-- `plan["revision"]` of a validated plan. -/
def planRevision (plan : Dict) : ℤ := (plan.get "revision").properInt?.getD 0

/-- A revision that refers to another plan is that plan's revision. -/
def revisionMatches (v expected : Value) : Bool :=
  (revision? v).any fun n => !(Value.int n).ne expected

/-- A changed plan has revision one, or one more than the stored plan, and is as recent as the
delivery. -/
def requireNextRevision (raise : Str → Exc) (revisionText updatedText : String) (plan : Dict)
    (current : Option Dict) (payload : Dict) : Except Exc Unit := do
  let expected :=
    match current with
    | none => 1
    | some c => planRevision c + 1
  raiseIf (planRevision plan != expected) (raise revisionText)
  raiseIf ((plan.get "updatedAt").ne (payload.get "updatedAt")) (raise updatedText)

/-- `note is not None and not isinstance(note, str)`. -/
def noteInvalid (v : Value) : Bool := !v.isNone && v.str?.isNone

end VitrialSync.Delivery
