import Mathlib.Algebra.Order.Ring.Rat
import Mathlib.Data.List.Infix
import Mathlib.Data.List.Perm.Basic
import Py20305.Lib.Machine

/-!
`QueuedObserver` (`observers.py`).

Threads that offer records, the delivery thread and a thread that closes, an operation at a step.
A `close` that runs out of time sets a flag, which the thread reads between two records; a thread
that waits on the empty queue by then waits for good (`good_iff`). A target that raises what the
guard lets through ends the thread, and what is on the queue is neither delivered nor counted.

Left out: what the thread and the log records are called, and how a failure is logged.
-/

namespace Py20305.Queued

/-! ### The observer -/

inductive Item (ρ : Type) where
  | record (r : ρ)
  /-- `_STOP`. -/
  | stop
  deriving DecidableEq

/-- What the target does with a record. -/
inductive Outcome where
  | returned
  | raised
  /-- It raises what is no `Exception`, which the guard lets through. -/
  | fatal
  deriving DecidableEq

/-- Where the delivery thread is. -/
inductive Thread (ρ : Type) where
  /-- It is about to read `_abandon`. -/
  | checking
  | getting
  | delivering (r : ρ)
  /-- In `_discard_queued`. -/
  | discarding
  /-- It has removed a record and is about to count it. -/
  | counting (r : ρ)
  | ended
  deriving DecidableEq

/-- Where the thread that closes is. -/
inductive Closer where
  | idle
  /-- In `_put_stop`, about to ask whether the thread is alive. -/
  | asking
  /-- About to read the clock. -/
  | timing
  /-- In `put`, which gives up at this time. -/
  | putting (upTo : ℚ)
  | joining
  /-- The join is over, and it asks again whether the thread is alive. -/
  | joined
  /-- About to set `_abandon`. -/
  | abandoning
  | returned
  /-- The target closed, and a thread cannot join itself. -/
  | raised
  deriving DecidableEq

/-- The observer with its threads. The last four tell what happened: the records offered, those put
on the queue, those handed to the target and those counted in `dropped`. -/
structure Observer (ρ : Type) where
  maxsize : Nat
  positive : 1 ≤ maxsize
  queue : List (Item ρ)
  closed : Bool
  abandon : Bool
  dropped : Nat
  failures : Nat
  thread : Thread ρ
  closer : Closer
  deadline : Option ℚ
  /-- It is the target that closes. -/
  own : Bool
  clock : ℚ
  offered : List ρ
  accepted : List ρ
  handed : List ρ
  lost : List ρ

/-- `_CLOSE_POLL`. -/
def closePoll : ℚ := 0.05

/-- The records on a queue. -/
def records {ρ : Type} : List (Item ρ) → List ρ
  | [] => []
  | .record r :: rest => r :: records rest
  | .stop :: rest => records rest

namespace Observer

variable {ρ : Type}

def fresh (maxsize : Nat) (positive : 1 ≤ maxsize) : Observer ρ where
  maxsize := maxsize
  positive := positive
  queue := []
  closed := false
  abandon := false
  dropped := 0
  failures := 0
  thread := .checking
  closer := .idle
  deadline := none
  own := false
  clock := 0
  offered := []
  accepted := []
  handed := []
  lost := []

/-- `__init__`. -/
def create (maxsize : ℤ) : Except String (Observer ρ) :=
  if small : maxsize < 1 then .error "maxsize must be at least 1"
  else .ok (fresh maxsize.toNat (by omega))

variable (s : Observer ρ)

def isFull : Bool := s.maxsize ≤ s.queue.length

/-- `is_alive`. -/
def isAlive : Bool :=
  match s.thread with
  | .ended => false
  | _ => true

/-- Count a record in `dropped`. -/
def drop (r : ρ) : Observer ρ := { s with dropped := s.dropped + 1, lost := s.lost ++ [r] }

/-- `__call__`. -/
def call (r : ρ) : Observer ρ :=
  let offers := { s with offered := s.offered ++ [r] }
  if s.closed then offers.drop r
  else if s.isFull then offers.drop r
  else { offers with queue := s.queue ++ [.record r], accepted := s.accepted ++ [r] }

/-- `close`, up to `_put_stop`. -/
def close (timeout : Option ℚ) (own : Bool) : Observer ρ :=
  if s.closed then s
  else { s with
    closed := true
    deadline := timeout.map fun seconds => s.clock + seconds
    own := own
    closer := .asking }

def isClosing : Bool :=
  match s.closer with
  | .idle | .returned | .raised => false
  | _ => true

/-- How long `put` waits for room. -/
def wait : ℚ :=
  match s.deadline with
  | none => closePoll
  | some deadline => min closePoll (deadline - s.clock)

/-- The next step of the thread that closes. -/
def closing : Option (Observer ρ) :=
  match s.closer with
  | .asking => some { s with closer := if s.isAlive then .timing else .joining }
  | .timing =>
      some { s with closer := if s.wait ≤ 0 then .abandoning else .putting (s.clock + s.wait) }
  | .putting upTo =>
      if s.isFull then
        if upTo ≤ s.clock then some { s with closer := .asking } else none
      else some { s with queue := s.queue ++ [.stop], closer := .joining }
  | .joining =>
      if s.own then some { s with closer := .raised }
      else if s.isAlive && !s.deadline.any fun deadline => deadline ≤ s.clock then none
      else some { s with closer := .joined }
  | .joined => some { s with closer := if s.isAlive then .abandoning else .returned }
  | .abandoning => some { s with abandon := true, closer := .returned }
  | .idle | .returned | .raised => none

/-- The next step of the delivery thread, outside the target: `_run` and `_discard_queued`. -/
def runs : Option (Observer ρ) :=
  match s.thread with
  | .checking => some { s with thread := if s.abandon then .discarding else .getting }
  | .getting =>
      match s.queue with
      | [] => none
      | .stop :: rest => some { s with queue := rest, thread := .ended }
      | .record r :: rest =>
          some { s with queue := rest, thread := .delivering r, handed := s.handed ++ [r] }
  | .discarding =>
      match s.queue with
      | [] => some { s with thread := .ended }
      | .stop :: rest => some { s with queue := rest }
      | .record r :: rest => some { s with queue := rest, thread := .counting r }
  | .counting r => some { s.drop r with thread := .discarding }
  | .delivering _ | .ended => none

/-- The target is done with the record: `ObserverGuard.deliver`. -/
def delivered (outcome : Outcome) : Option (Observer ρ) :=
  match s.thread with
  | .delivering _ =>
      if s.own && s.isClosing then none
      else match outcome with
        | .returned => some { s with thread := .checking }
        | .raised => some { s with thread := .checking, failures := s.failures + 1 }
        | .fatal => some { s with thread := .ended }
  | _ => none

def isDelivering : Bool :=
  match s.thread with
  | .delivering _ => true
  | _ => false

end Observer

inductive Step (ρ : Type) where
  | call (r : ρ)
  /-- A thread closes, or the target does (`own`). -/
  | close (timeout : Option ℚ) (own : Bool)
  | closing
  | runs
  | delivered (outcome : Outcome)
  | passes (seconds : ℚ)

/-- The observer as a machine. -/
def observer (ρ : Type) : Machine where
  State := Observer ρ
  Label := Step ρ
  step
    | .call r, s => some (s.call r)
    | .close timeout own, s =>
        if own && !s.isDelivering then none else some (s.close timeout own)
    | .closing, s => s.closing
    | .runs, s => s.runs
    | .delivered outcome, s => s.delivered outcome
    | .passes seconds, s => if 0 ≤ seconds then some { s with clock := s.clock + seconds } else none

/-! ### Records that are accounted for, and threads that can stop -/

namespace Observer

variable {ρ : Type} (s : Observer ρ)

/-- Every record offered was handed to the target once, in the order accepted, or counted once. -/
structure Accounts : Prop where
  inOrder : s.handed <+: s.accepted
  once : (s.handed ++ s.lost).Perm s.offered
  counted : s.dropped = s.lost.length

/-- `close` is over, and the thread waits on the empty queue. -/
def Stranded : Prop :=
  (s.closer = .returned ∨ s.closer = .raised) ∧ s.thread = .getting ∧ s.queue = []

def Good : Prop := (s.thread = .ended → s.Accounts) ∧ ¬s.Stranded

end Observer

/-- The target lets nothing through with records on the queue, nothing is queued for a thread that
has ended, and `close` does not give up while the thread waits on the empty queue. -/
def Minds {ρ : Type} (s : Observer ρ) : Step ρ → Prop
  | .call _ => s.thread = .ended → s.closed = true ∨ s.isFull = true
  | .closing => s.closer = .abandoning → s.thread = .getting → s.queue ≠ []
  | .delivered outcome => outcome = .fatal → records s.queue = []
  | _ => True

instance decidableMinds {ρ : Type} [DecidableEq ρ] (s : Observer ρ) (l : Step ρ) :
    Decidable (Minds s l) := by
  cases l <;> unfold Minds <;> infer_instance

instance {ρ : Type} [DecidableEq ρ] (s : (observer ρ).State) (l : (observer ρ).Label) :
    Decidable (Minds s l) :=
  decidableMinds s l

/-! ### What every step keeps -/

/-- Nothing but markers comes after a marker. -/
def StopLast {ρ : Type} : List (Item ρ) → Prop
  | [] => True
  | .record _ :: rest => StopLast rest
  | .stop :: rest => records rest = []

namespace Thread

variable {ρ : Type}

/-- It delivers what is queued. -/
def IsServing : Thread ρ → Prop
  | .checking | .getting | .delivering _ => True
  | .discarding | .counting _ | .ended => False

/-- It discards what is queued. -/
def IsDiscarding : Thread ρ → Prop
  | .discarding | .counting _ => True
  | .checking | .getting | .delivering _ | .ended => False

/-- What it has removed and not counted. -/
def inHand : Thread ρ → List ρ
  | .counting r => [r]
  | .checking | .getting | .delivering _ | .discarding | .ended => []

end Thread

/-- Where the records are. -/
structure Ledger {ρ : Type} (s : Observer ρ) : Prop where
  order : s.thread.IsServing → s.handed ++ records s.queue = s.accepted
  early : s.handed <+: s.accepted
  once : (s.handed ++ s.lost ++ (s.thread.inHand ++ records s.queue)).Perm s.offered
  counted : s.dropped = s.lost.length
  spent : s.thread = .ended → records s.queue = []

/-- What the marker and the flags tell of the two threads. -/
structure Signals {ρ : Type} (s : Observer ρ) : Prop where
  marked : StopLast s.queue ∧ (.stop ∈ s.queue → s.closed = true)
  opened : s.closed = false → s.closer = .idle
  comes : s.closer = .joining ∨ s.closer = .joined ∨ s.closer = .raised →
    s.thread = .ended ∨ .stop ∈ s.queue
  unset : s.closer ≠ .returned → s.abandon = false
  gone : s.closer = .returned → s.abandon = true ∨ s.thread = .ended
  waits : s.closer = .returned → s.thread = .getting → s.queue ≠ []
  discards : s.thread.IsDiscarding → s.abandon = true

section Queues

variable {ρ : Type} {queue : List (Item ρ)}

@[simp] theorem records_append (first second : List (Item ρ)) :
    records (first ++ second) = records first ++ records second := by
  induction first with
  | nil => rfl
  | cons item rest ih =>
      cases item with
      | record r => simp only [List.cons_append, records, ih]
      | stop => simpa only [List.cons_append, records] using ih

theorem StopLast.of_records_nil (empty : records queue = []) : StopLast queue := by
  induction queue with
  | nil => trivial
  | cons item rest ih =>
      cases item with
      | record r => cases empty
      | stop => exact empty

theorem StopLast.tail {item : Item ρ} (last : StopLast (item :: queue)) : StopLast queue := by
  cases item with
  | record r => exact last
  | stop => exact .of_records_nil last

theorem StopLast.push_stop (last : StopLast queue) : StopLast (queue ++ [.stop]) := by
  induction queue with
  | nil => rfl
  | cons item rest ih =>
      cases item with
      | record r => exact ih last
      | stop =>
          have empty : records rest = [] := last
          show records (rest ++ [Item.stop]) = []
          simp [empty, records]

theorem StopLast.push_record (unmarked : .stop ∉ queue) (r : ρ) : StopLast (queue ++ [.record r]) := by
  induction queue with
  | nil => trivial
  | cons item rest ih =>
      cases item with
      | record q => exact ih fun later => unmarked (List.mem_cons_of_mem _ later)
      | stop => exact absurd List.mem_cons_self unmarked

end Queues

section Steps

variable {ρ : Type} {s t : Observer ρ}

theorem Ledger.accounts (ledger : Ledger s) (ended : s.thread = .ended) : s.Accounts where
  inOrder := ledger.early
  once := by simpa [ledger.spent ended, ended, Thread.inHand] using ledger.once
  counted := ledger.counted

theorem Ledger.refuses (ledger : Ledger s) (r : ρ) :
    Ledger ({ s with offered := s.offered ++ [r] }.drop r) where
  order := ledger.order
  early := ledger.early
  once := by
    have moved : (s.handed ++ (s.lost ++ [r]) ++ (s.thread.inHand ++ records s.queue)).Perm
        (s.handed ++ s.lost ++ (s.thread.inHand ++ records s.queue) ++ [r]) := by
      rw [← List.append_assoc s.handed, List.append_assoc (s.handed ++ s.lost),
        List.append_assoc (s.handed ++ s.lost)]
      exact List.perm_append_comm.append_left _
    exact moved.trans (ledger.once.append_right [r])
  counted := by simp [Observer.drop, ledger.counted]
  spent := ledger.spent

theorem Ledger.call (ledger : Ledger s) (r : ρ)
    (minds : Minds s (.call r)) : Ledger (s.call r) := by
  unfold Observer.call
  split
  · exact ledger.refuses r
  · rename_i opened
    split
    · exact ledger.refuses r
    · rename_i room
      have alive : s.thread ≠ .ended := fun ended => (minds ended).elim opened room
      exact {
        order := fun serving => by
          show s.handed ++ records (s.queue ++ [Item.record r]) = s.accepted ++ [r]
          rw [records_append, ← List.append_assoc, ledger.order serving]
          rfl
        early := ledger.early.trans (List.prefix_append _ _)
        once := by
          show (s.handed ++ s.lost ++ (s.thread.inHand ++ records (s.queue ++ [Item.record r]))).Perm
            (s.offered ++ [r])
          rw [records_append, ← List.append_assoc, ← List.append_assoc]
          exact (by simpa using ledger.once : (s.handed ++ s.lost ++ s.thread.inHand ++
            records s.queue).Perm s.offered).append_right [r]
        counted := ledger.counted
        spent := fun ended => absurd ended alive }

theorem Signals.call (signals : Signals s) (r : ρ) : Signals (s.call r) := by
  unfold Observer.call
  split
  · exact ⟨signals.marked, signals.opened, signals.comes, signals.unset, signals.gone,
      signals.waits, signals.discards⟩
  · rename_i opened
    have idle : s.closer = .idle := signals.opened (by simpa using opened)
    split
    · exact ⟨signals.marked, signals.opened, signals.comes, signals.unset, signals.gone,
        signals.waits, signals.discards⟩
    · have unmarked : Item.stop ∉ s.queue := fun marked => opened (signals.marked.2 marked)
      exact {
        marked := ⟨.push_record unmarked r, fun marked => by
          rcases List.mem_append.mp marked with before | new
          · exact absurd before unmarked
          · simp at new⟩
        opened := signals.opened
        comes := fun late => by simp [idle] at late
        unset := signals.unset
        gone := fun returned => by simp [idle] at returned
        waits := fun _ _ => by simp
        discards := signals.discards }

theorem Signals.close (signals : Signals s) (timeout : Option ℚ) (own : Bool) :
    Signals (s.close timeout own) := by
  unfold Observer.close
  split
  · exact signals
  · rename_i opened
    have idle : s.closer = .idle := signals.opened (by simpa using opened)
    exact {
      marked := ⟨signals.marked.1, fun _ => rfl⟩
      opened := fun closed => by cases closed
      comes := fun late => by simp at late
      unset := fun _ => signals.unset (by simp [idle])
      gone := fun returned => by cases returned
      waits := fun returned => by cases returned
      discards := signals.discards }

/-- The closing thread moves, and leaves the queue as it is. -/
theorem Signals.moves (signals : Signals s) {closer : Closer} (closing : s.closer ≠ .idle)
    (before : s.closer ≠ .returned) (later : closer ≠ .returned)
    (comes : closer = .joining ∨ closer = .joined ∨ closer = .raised →
      s.thread = .ended ∨ .stop ∈ s.queue) : Signals { s with closer := closer } where
  marked := signals.marked
  opened closed := absurd (signals.opened closed) closing
  comes := comes
  unset _ := signals.unset before
  gone returned := absurd returned later
  waits returned := absurd returned later
  discards := signals.discards

theorem isAlive_eq_false (dead : s.isAlive = false) : s.thread = .ended := by
  unfold Observer.isAlive at dead
  split at dead
  · assumption
  · cases dead

theorem Signals.closing (signals : Signals s) (minds : Minds s .closing)
    (stepped : s.closing = some t) : Signals t := by
  unfold Observer.closing at stepped
  split at stepped
  case h_1 phase =>
    cases stepped
    refine signals.moves (by simp [phase]) (by simp [phase]) (by split <;> simp) fun late => ?_
    split at late
    · simp at late
    · rename_i dead
      exact .inl (isAlive_eq_false (by simpa using dead))
  case h_2 phase =>
    cases stepped
    refine signals.moves (by simp [phase]) (by simp [phase]) (by split <;> simp) fun late => ?_
    split at late <;> simp at late
  case h_3 upTo phase =>
    split at stepped
    · split at stepped
      · cases stepped
        exact signals.moves (by simp [phase]) (by simp [phase]) (by simp) fun late => by
          simp at late
      · cases stepped
    · cases stepped
      have closed : s.closed = true := by
        by_contra opened
        simpa [phase] using signals.opened (by simpa using opened)
      exact {
        marked := ⟨signals.marked.1.push_stop, fun _ => closed⟩
        opened := fun opened => by simp [closed] at opened
        comes := fun _ => .inr (by simp)
        unset := fun _ => signals.unset (by simp [phase])
        gone := fun returned => by cases returned
        waits := fun returned => by cases returned
        discards := signals.discards }
  case h_4 phase =>
    have queued := signals.comes (.inl phase)
    split at stepped
    · cases stepped
      exact signals.moves (by simp [phase]) (by simp [phase]) (by simp) fun _ => queued
    · split at stepped
      · cases stepped
      · cases stepped
        exact signals.moves (by simp [phase]) (by simp [phase]) (by simp) fun _ => queued
  case h_5 phase =>
    cases stepped
    split
    · exact signals.moves (by simp [phase]) (by simp [phase]) (by simp) fun late => by
        simp at late
    · rename_i dead
      have ended : s.thread = .ended := isAlive_eq_false (by simpa using dead)
      exact {
        marked := signals.marked
        opened := fun opened => by simpa [phase] using signals.opened opened
        comes := fun _ => .inl ended
        unset := fun early => absurd rfl early
        gone := fun _ => .inr ended
        waits := fun _ getting => by simp [ended] at getting
        discards := signals.discards }
  case h_6 phase =>
    cases stepped
    exact {
      marked := signals.marked
      opened := fun opened => by simpa [phase] using signals.opened opened
      comes := fun late => by simp at late
      unset := fun early => absurd rfl early
      gone := fun _ => .inl rfl
      waits := fun _ getting => minds phase getting
      discards := fun _ => rfl }
  all_goals cases stepped

theorem Ledger.closing (ledger : Ledger s) (stepped : s.closing = some t) : Ledger t := by
  have marks : Ledger { s with queue := s.queue ++ [.stop], closer := .joining } := by
    have same : records (s.queue ++ [Item.stop]) = records s.queue := by simp [records]
    exact ⟨fun serving => same ▸ ledger.order serving, ledger.early, same.symm ▸ ledger.once,
      ledger.counted, fun ended => same ▸ ledger.spent ended⟩
  have keeps (closer : Closer) (abandon : Bool) :
      Ledger { s with closer := closer, abandon := abandon } :=
    ⟨ledger.order, ledger.early, ledger.once, ledger.counted, ledger.spent⟩
  unfold Observer.closing at stepped
  split at stepped
  case h_1 => cases stepped; exact keeps _ _
  case h_2 => cases stepped; exact keeps _ _
  case h_3 =>
    split at stepped
    · split at stepped
      · cases stepped; exact keeps _ _
      · cases stepped
    · cases stepped; exact marks
  case h_4 =>
    split at stepped
    · cases stepped; exact keeps _ _
    · split at stepped
      · cases stepped
      · cases stepped; exact keeps _ _
  case h_5 => cases stepped; exact keeps _ _
  case h_6 => cases stepped; exact keeps _ _
  all_goals cases stepped

/-- A thread that discards was told to, and the closing thread has returned. -/
theorem Signals.returned (signals : Signals s) (discards : s.thread.IsDiscarding) :
    s.closer = .returned := by
  by_contra early
  simpa [signals.unset early] using signals.discards discards

/-- The delivery thread goes on, with what is left of the queue. -/
theorem Signals.goes (signals : Signals s) {thread : Thread ρ} {queue : List (Item ρ)}
    (handed lost : List ρ) (dropped failures : Nat) (alive : s.thread ≠ .ended)
    (left : StopLast queue ∧ (.stop ∈ queue → .stop ∈ s.queue))
    (comes : s.closer ≠ .returned → .stop ∈ s.queue → thread = .ended ∨ .stop ∈ queue)
    (waits : s.abandon = true → thread ≠ .getting)
    (discards : thread.IsDiscarding → s.abandon = true) :
    Signals { s with thread, queue, handed, lost, dropped, failures } where
  marked := ⟨left.1, fun marked => signals.marked.2 (left.2 marked)⟩
  opened := signals.opened
  comes := fun (late : s.closer = .joining ∨ s.closer = .joined ∨ s.closer = .raised) => by
    have early : s.closer ≠ .returned := by
      rcases late with phase | phase | phase <;> simp [phase]
    exact comes early ((signals.comes late).resolve_left alive)
  unset := signals.unset
  gone returned := .inl ((signals.gone returned).resolve_right alive)
  waits returned getting :=
    absurd getting (waits ((signals.gone returned).resolve_right alive))
  discards := discards

theorem Signals.runs (signals : Signals s) (stepped : s.runs = some t) : Signals t := by
  have marked := signals.marked.1
  unfold Observer.runs at stepped
  split at stepped
  case h_1 phase =>
    cases stepped
    refine signals.goes _ _ _ _ (by simp [phase]) ⟨marked, id⟩ (fun _ => .inr) (fun told => ?_)
      fun discards => ?_
    · simp [told]
    · by_contra untold
      simp [untold, Thread.IsDiscarding] at discards
  case h_2 phase =>
    split at stepped
    · cases stepped
    · rename_i rest queued
      cases stepped
      rw [queued] at marked
      exact signals.goes _ _ _ _ (by simp [phase])
        ⟨marked.tail, fun more => queued ▸ List.mem_cons_of_mem _ more⟩ (fun _ _ => .inl rfl)
        (fun _ => by simp) fun discards => discards.elim
    · rename_i r rest queued
      cases stepped
      rw [queued] at marked
      exact signals.goes _ _ _ _ (by simp [phase])
        ⟨marked.tail, fun more => queued ▸ List.mem_cons_of_mem _ more⟩
        (fun _ more => .inr (by simpa [queued] using more)) (fun _ => by simp)
        fun discards => discards.elim
  case h_3 phase =>
    have discarding : s.thread.IsDiscarding := by simp [phase, Thread.IsDiscarding]
    have returned := signals.returned discarding
    split at stepped
    · cases stepped
      exact signals.goes _ _ _ _ (by simp [phase]) ⟨marked, id⟩ (fun _ _ => .inl rfl)
        (fun _ => by simp) fun discards => discards.elim
    all_goals
      rename_i queued
      cases stepped
      rw [queued] at marked
      exact signals.goes _ _ _ _ (by simp [phase])
        ⟨marked.tail, fun more => queued ▸ List.mem_cons_of_mem _ more⟩
        (fun early => absurd returned early) (fun _ => by simp [phase])
        fun _ => signals.discards discarding
  case h_4 phase =>
    have discarding : s.thread.IsDiscarding := by simp [phase, Thread.IsDiscarding]
    cases stepped
    exact signals.goes _ _ _ _ (by simp [phase]) ⟨marked, id⟩ (fun _ => .inr)
      (fun _ => by simp) fun _ => signals.discards discarding
  all_goals cases stepped

theorem Ledger.runs (ledger : Ledger s) (signals : Signals s) (stepped : s.runs = some t) :
    Ledger t := by
  have once := ledger.once
  unfold Observer.runs at stepped
  split at stepped
  case h_1 phase =>
    cases stepped
    rw [phase] at once
    refine ⟨fun _ => ledger.order (by simp [phase, Thread.IsServing]), ledger.early, ?_,
      ledger.counted, fun ended => ?_⟩
    · show (s.handed ++ s.lost ++ (Thread.inHand (if s.abandon then _ else _) ++ _)).Perm _
      split <;> exact once
    · revert ended
      show (if s.abandon then _ else _) = _ → _
      split <;> exact fun ended => by cases ended
  case h_2 phase =>
    have order := ledger.order (by simp [phase, Thread.IsServing])
    rw [phase] at once
    split at stepped
    · cases stepped
    · rename_i rest queued
      cases stepped
      have empty : records rest = [] := by simpa [queued, StopLast] using signals.marked.1
      rw [queued] at once
      exact ⟨fun serving => serving.elim, ledger.early, once, ledger.counted, fun _ => empty⟩
    · rename_i r rest queued
      cases stepped
      rw [queued] at once order
      have handed : s.handed ++ [r] ++ records rest = s.accepted := by simpa [records] using order
      refine ⟨fun _ => handed, ⟨_, handed⟩, ?_, ledger.counted, fun ended => by cases ended⟩
      refine List.Perm.trans ?_ once
      show (s.handed ++ [r] ++ s.lost ++ ([] ++ records rest)).Perm
        (s.handed ++ s.lost ++ ([] ++ r :: records rest))
      simp only [List.nil_append, List.append_assoc, List.cons_append]
      exact (List.perm_middle.symm).append_left _
  case h_3 phase =>
    rw [phase] at once
    split at stepped
    · rename_i queued
      cases stepped
      exact ⟨fun serving => serving.elim, ledger.early, once, ledger.counted, fun _ => by
        simp [queued, records]⟩
    · rename_i rest queued
      cases stepped
      rw [queued] at once
      exact ⟨fun serving => by simp [phase, Thread.IsServing] at serving, ledger.early,
        by simpa [phase, records] using once, ledger.counted, fun ended => by simp [phase] at ended⟩
    · rename_i r rest queued
      cases stepped
      rw [queued] at once
      exact ⟨fun serving => serving.elim, ledger.early, once, ledger.counted,
        fun ended => by cases ended⟩
  case h_4 r phase =>
    cases stepped
    rw [phase] at once
    refine ⟨fun serving => serving.elim, ledger.early, ?_, by simp [Observer.drop, ledger.counted],
      fun ended => by cases ended⟩
    show (s.handed ++ (s.lost ++ [r]) ++ ([] ++ records s.queue)).Perm s.offered
    simpa [Thread.inHand] using once
  all_goals cases stepped

theorem Signals.delivered (signals : Signals s) {outcome : Outcome}
    (stepped : s.delivered outcome = some t) : Signals t := by
  have marked := signals.marked.1
  unfold Observer.delivered at stepped
  split at stepped
  · rename_i r phase
    split at stepped
    · cases stepped
    · split at stepped
      all_goals
        cases stepped
        exact signals.goes _ _ _ _ (by simp [phase]) ⟨marked, id⟩ (fun _ => .inr)
          (fun _ => by simp) fun discards => discards.elim
  · cases stepped

theorem Ledger.delivered (ledger : Ledger s) {outcome : Outcome}
    (minds : Minds s (.delivered outcome)) (stepped : s.delivered outcome = some t) : Ledger t := by
  have once := ledger.once
  unfold Observer.delivered at stepped
  split at stepped
  · rename_i r phase
    have order := ledger.order (by simp [phase, Thread.IsServing])
    rw [phase] at once
    split at stepped
    · cases stepped
    · split at stepped
      · cases stepped
        exact ⟨fun _ => order, ledger.early, once, ledger.counted, fun ended => by cases ended⟩
      · cases stepped
        exact ⟨fun _ => order, ledger.early, once, ledger.counted, fun ended => by cases ended⟩
      · cases stepped
        exact ⟨fun serving => serving.elim, ledger.early, once, ledger.counted, fun _ => minds rfl⟩
  · cases stepped

theorem keeps_step {l : Step ρ} (stepped : (observer ρ).step l s = some t) (minds : Minds s l)
    (kept : Ledger s ∧ Signals s) : Ledger t ∧ Signals t := by
  obtain ⟨ledger, signals⟩ := kept
  cases l with
  | call r =>
      cases stepped
      exact ⟨ledger.call r minds, signals.call r⟩
  | close timeout own =>
      simp only [observer] at stepped
      split at stepped
      · cases stepped
      · cases stepped
        refine ⟨?_, signals.close timeout own⟩
        unfold Observer.close
        split
        · exact ledger
        · exact ⟨ledger.order, ledger.early, ledger.once, ledger.counted, ledger.spent⟩
  | closing => exact ⟨ledger.closing stepped, signals.closing minds stepped⟩
  | runs => exact ⟨ledger.runs signals stepped, signals.runs stepped⟩
  | delivered outcome => exact ⟨ledger.delivered minds stepped, signals.delivered stepped⟩
  | passes seconds =>
      simp only [observer] at stepped
      split at stepped
      · cases stepped
        exact ⟨⟨ledger.order, ledger.early, ledger.once, ledger.counted, ledger.spent⟩,
          ⟨signals.marked, signals.opened, signals.comes, signals.unset, signals.gone,
            signals.waits, signals.discards⟩⟩
      · cases stepped

theorem kept_create {maxsize : ℤ} (created : Observer.create maxsize = .ok s) :
    Ledger s ∧ Signals s := by
  unfold Observer.create at created
  split at created
  · cases created
  · cases created
    exact ⟨⟨fun _ => rfl, List.prefix_rfl, .nil, rfl, fun _ => rfl⟩,
      ⟨⟨trivial, (fun marked => by cases marked)⟩, fun _ => rfl, (fun late => by simp [Observer.fresh] at late),
        fun _ => rfl, (fun returned => by cases returned), (fun returned => by cases returned),
        fun discards => discards.elim⟩⟩

theorem kept_run {maxsize : ℤ} (created : Observer.create maxsize = .ok s)
    (run : (observer ρ).Run (fun s l _ => Minds s l) s t) : Ledger t ∧ Signals t :=
  run.keeps (P := fun (s : Observer ρ) => Ledger s ∧ Signals s)
    (fun _ _ _ stepped minds kept => keeps_step stepped minds kept) (kept_create created)

theorem good_of_kept (kept : Ledger s ∧ Signals s) : s.Good := by
  refine ⟨kept.1.accounts, fun ⟨stopped, getting, empty⟩ => ?_⟩
  rcases stopped with returned | raised
  · exact kept.2.waits returned getting empty
  · simpa [getting, empty] using kept.2.comes (.inr (.inr raised))

/-- A step that does not mind this goes wrong at once. -/
theorem minds_of_good {l : Step ρ} (ledger : Ledger s)
    (stepped : (observer ρ).step l s = some t) (good : t.Good) : Minds s l := by
  cases l with
  | call r =>
      intro ended
      by_contra accepting
      obtain ⟨opened, room⟩ := not_or.mp accepting
      cases stepped
      have once := (good.1 (by simp [Observer.call, opened, room, ended])).once.length_eq
      have before := (ledger.accounts ended).once.length_eq
      simp [Observer.call, opened, room] at once before
      omega
  | closing =>
      intro phase getting empty
      simp only [observer, Observer.closing, phase] at stepped
      cases stepped
      exact good.2 ⟨.inl rfl, getting, empty⟩
  | delivered outcome =>
      intro fatal
      subst fatal
      simp only [observer, Observer.delivered] at stepped
      split at stepped
      · rename_i r phase
        split at stepped
        · cases stepped
        · cases stepped
          have once := (good.1 rfl).once.length_eq
          have before := ledger.once.length_eq
          rw [phase] at before
          simp only [Thread.inHand, List.length_append, List.nil_append] at once before
          exact List.eq_nil_of_length_eq_zero (by omega)
      · cases stepped
  | close timeout own => trivial
  | runs => trivial
  | passes seconds => trivial

end Steps

/-- As long as every step minds, the records are accounted for and the thread can stop; the first
step that does not mind ends that. -/
theorem good_iff {ρ : Type} {maxsize : ℤ} {first s : Observer ρ}
    (created : Observer.create maxsize = .ok first)
    (run : (observer ρ).Run (fun s l _ => Minds s l) first s) :
    s.Good ∧ ∀ l t, (observer ρ).step l s = some t → (t.Good ↔ Minds s l) := by
  have kept := kept_run created run
  refine ⟨good_of_kept kept, fun l t stepped => ⟨minds_of_good kept.1 stepped, fun minds => ?_⟩⟩
  exact good_of_kept (keeps_step stepped minds kept)

/-- The observer is closed while the first record is with the target, which takes longer than the
close waits for it: of the records after it, the one on the queue is discarded and the one that
comes later is turned away. -/
def closedDown : Option (Observer String) :=
  (observer String).execMeeting (fun s l _ => Minds s l) (.fresh 2 (by decide))
    [.call "GET /tm", .runs, .runs, .call "GET /derp", .close (some 1) false, .call "GET /mup",
      .closing, .closing, .closing, .passes 1, .closing, .closing, .closing, .delivered .raised,
      .runs, .runs, .runs, .runs, .runs]

theorem good_delivering : ∃ s, closedDown = some s ∧
    (s.thread = .ended ∧ s.closer = .returned ∧ s.handed = ["GET /tm"] ∧
      s.lost = ["GET /mup", "GET /derp"]) ∧
    s.Good ∧ ∀ l t, (observer String).step l s = some t → (t.Good ↔ Minds s l) := by
  have ended : closedDown.map (fun s => (s.thread, s.closer, s.handed, s.lost)) =
      some (.ended, .returned, ["GET /tm"], ["GET /mup", "GET /derp"]) := by decide +kernel
  obtain ⟨s, run, facts⟩ := Option.map_eq_some_iff.mp ended
  simp only [Prod.mk.injEq] at facts
  have created : Observer.create 2 = .ok (.fresh 2 (by decide) : Observer String) := rfl
  exact ⟨s, run, facts, good_iff created (Machine.run_of_meeting _ run)⟩

/-- `close(0)` on an observer with nothing to do. -/
theorem stranded : ∃ first s : Observer String, Observer.create 10000 = .ok first ∧
    (observer String).Run Machine.Free first s ∧ s.Stranded ∧ ¬s.Good := by
  let s : Observer String := { Observer.fresh 10000 (by decide) with
    thread := .getting, closed := true, abandon := true, deadline := some 0, closer := .returned }
  have run : (observer String).Run Machine.Free (.fresh 10000 (by decide)) s := by
    refine Machine.run_of_exec [.runs, .close (some 0) false, .closing, .closing, .closing] ?_
    simp [Machine.exec, observer, Observer.fresh, Observer.runs, Observer.close, Observer.closing,
      Observer.isAlive, Observer.wait, s]
  have waits : s.Stranded := ⟨.inl rfl, rfl, rfl⟩
  exact ⟨_, s, rfl, run, waits, fun good => good.2 waits⟩


end Py20305.Queued
