import Mathlib.Logic.Function.Basic
import Py20305.Client.State

/-!
Event states, records and the event store (`events/state_machine.py`).

Tasks hold on to record objects across their awaits while the store forgets
them and may store another object under the same mRID, so a record is an object
with an identity (`Ref`) and the store maps mRIDs to objects.
-/

namespace Py20305

/-- `EventState`. -/
inductive EventState where
  | scheduled | active | completed | cancelled | superseded
  deriving DecidableEq, Repr

/-- The states no event is meant to leave. -/
def EventState.isTerminal : EventState → Bool
  | scheduled | active => false
  | completed | cancelled | superseded => true

@[simp] theorem EventState.isTerminal_false {st : EventState} :
    st.isTerminal = false ↔ st = .scheduled ∨ st = .active := by
  cases st <;> simp [isTerminal]

/-- `EventRecord`. Its sets are lists without order: every reader asks for
membership, or enumerates them in an order of its own. The two sets kept for
the audit trail alone are left out. -/
structure EventRecord where
  mrid : Mrid
  derc : Dercontrol
  programHref : Href
  primacy : Nat
  state : EventState
  start : Int
  duration : Int
  serverStatusTime : Int
  creationTime : Int := 0
  supersededDevices : List Href := []
  supersededModes : Dict Href (Finset Mode) := Dict.empty
  rejectedDevices : List Href := []
  appliedDevices : List Href := []
  optedOut : Bool := false

namespace EventRecord

/-- `EventRecord.end`. -/
def «end» (record : EventRecord) : Int := record.start + record.duration

/-- The modes other events took over on a device. -/
def modesTaken (record : EventRecord) (d : Href) : Finset Mode := record.supersededModes.getD d ∅

/-- A record still to be filled in. -/
def blank : EventRecord where
  mrid := 0
  derc := { mrid := 0, start := 0, duration := 0, randomizeStart := none, randomizeDuration := none,
            eventStatus := none, creationTime := none, base := ⟨∅⟩, responseRequired := none,
            replyTo := none }
  programHref := ""
  primacy := 0
  state := .cancelled
  start := 0
  duration := 0
  serverStatusTime := 0

end EventRecord

/-- The identity of a record object. -/
abbrev Ref := Nat

/-- `EventStore`, with the record objects made so far; those below `next` have
been. -/
structure EventStore where
  object : Ref → EventRecord := fun _ => .blank
  next : Ref := 0
  events : Dict Mrid Ref := Dict.empty

namespace EventStore

/-- `EventStore.get`. -/
def get? (store : EventStore) (mrid : Mrid) : Option Ref := store.events.get? mrid

/-- Make a record object and `upsert` it. -/
def upsert (store : EventStore) (record : EventRecord) : EventStore where
  object := Function.update store.object store.next record
  next := store.next + 1
  events := store.events.set record.mrid store.next

/-- Change one record object in place. -/
def update (store : EventStore) (r : Ref) (change : EventRecord → EventRecord) : EventStore :=
  { store with object := Function.update store.object r (change (store.object r)) }

/-- `EventStore.by_state`. -/
def byState (store : EventStore) (st : EventState) : List Ref :=
  store.events.values.filter fun r => (store.object r).state = st

/-- `EventStore.all_active_states`. -/
def allActiveStates (store : EventStore) : List Ref :=
  store.events.values.filter fun r => !(store.object r).state.isTerminal

/-- `EventStore.prune_expired`, with its grace of 60 s. -/
def pruneExpired (store : EventStore) (now : Int) : EventStore :=
  { store with events := store.events.filter fun _ r => !((store.object r).end + 60 < now) }

/-- `r` is stored under its own mRID. -/
def Stored (store : EventStore) (r : Ref) : Prop := ∃ mrid, store.get? mrid = some r

theorem mem_byState {store : EventStore} {st : EventState} {r : Ref} :
    r ∈ store.byState st ↔ store.Stored r ∧ (store.object r).state = st := by
  simp [byState, Stored, get?, Dict.mem_values_iff]

theorem mem_allActiveStates {store : EventStore} {r : Ref} :
    r ∈ store.allActiveStates ↔ store.Stored r ∧ (store.object r).state.isTerminal = false := by
  simp [allActiveStates, Stored, get?, Dict.mem_values_iff]

@[simp] theorem object_update_self (store : EventStore) (r : Ref)
    (change : EventRecord → EventRecord) :
    (store.update r change).object r = change (store.object r) := by
  simp [update]

theorem object_update_ne (store : EventStore) {r q : Ref} (change : EventRecord → EventRecord)
    (other : q ≠ r) : (store.update r change).object q = store.object q := by
  simp [update, other]

@[simp] theorem events_update (store : EventStore) (r : Ref) (change : EventRecord → EventRecord) :
    (store.update r change).events = store.events := rfl

@[simp] theorem next_update (store : EventStore) (r : Ref) (change : EventRecord → EventRecord) :
    (store.update r change).next = store.next := rfl

@[simp] theorem get?_update (store : EventStore) (r : Ref) (change : EventRecord → EventRecord)
    (mrid : Mrid) : (store.update r change).get? mrid = store.get? mrid := rfl

theorem get?_pruneExpired {store : EventStore} {now : Int} {mrid : Mrid} {r : Ref}
    (found : (store.pruneExpired now).get? mrid = some r) : store.get? mrid = some r := by
  simp only [get?, pruneExpired, Dict.get?_filter] at found
  exact (Option.filter_eq_some_iff.mp found).1

end EventStore

end Py20305
