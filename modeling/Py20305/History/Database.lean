import Mathlib.Algebra.Order.Ring.Rat
import Mathlib.Data.List.Perm.Basic
import Mathlib.Tactic.Linarith
import Py20305.Lib.Dict
import Py20305.Lib.Machine

/-!
`HistoryDatabase` (`history/database.py`).

Threads that queue batches, the writer thread, threads that read or prune, and one that closes, each
an operation at a step: a batch is run, and a statement read, under the database's lock. What SQLite
does with a statement is a parameter.

A read gets what the first batches made of the tables, run in the order of their numbers, and waits
for those that were there before it (`reads_in_order`); the writer gets to them by itself
(`reads_get_on`). No batch is lost from sight (`batches_accounted`), but one that is queued while the
database is closed may be accepted and never run (`ends_having_run`).

Left out: the file and its modes, `register_table` after the start, and the log. Adding to a count
is one step, and so is what `drain` reads first.
-/

namespace Py20305.HistoryDatabase

/-- `MAX_PENDING_WRITES`. -/
def maxPendingWrites : Nat := 10000

/-- `PRUNE_INTERVAL_SECONDS`. -/
def pruneIntervalSeconds : ℚ := 3600

/-- `CLOSE_TIMEOUT_SECONDS`. -/
def closeTimeoutSeconds : ℚ := 10

/-- `DRAIN_TIMEOUT_SECONDS`. -/
def drainTimeoutSeconds : ℚ := 10

/-- The types of what the database holds, of a row, of a question and of its answer. -/
structure Kinds where
  Contents : Type
  Row : Type
  Query : Type
  Answer : Type

/-- What SQLite does. A statement that raises gives nothing, and is rolled back. -/
structure Sqlite (K : Kinds) where
  /-- `BEGIN`, the statement for each row, `COMMIT`. -/
  execute : String → List K.Row → K.Contents → Option K.Contents
  /-- `DELETE` what has an earlier time in the column. -/
  delete : String → String → ℚ → K.Contents → Option K.Contents
  select : K.Query → K.Contents → K.Answer
  /-- The answer that has no rows. -/
  nothing : K.Answer

/-- The arguments of `queue_batch`. -/
structure Batch (K : Kinds) where
  table : String
  sql : String
  rows : List K.Row

/-! ### Statements -/

/-- What runs under the database's lock changes. -/
structure Store (K : Kinds) where
  contents : K.Contents
  lastPrune : ℚ := 0
  writeFailures : Dict String Nat := .empty

section Statements

variable {K : Kinds} (sqlite : Sqlite K) (aged : List (String × String)) (retention : ℚ)

/-- `_failed`. -/
def Store.failed (s : Store K) (table : String) : Store K :=
  { s with writeFailures := s.writeFailures.set table (s.writeFailures.getD table 0 + 1) }

/-- One table in `_prune`. -/
def Store.pruneTable (cutoff : ℚ) (s : Store K) (table : String × String) : Store K :=
  match sqlite.delete table.1 table.2 cutoff s.contents with
  | none => s.failed table.1
  | some contents => { s with contents := contents }

/-- `_prune`. -/
def Store.prune (s : Store K) (now : ℚ) : Store K :=
  aged.foldl (Store.pruneTable sqlite (now - retention)) { s with lastPrune := now }

/-- `_prune_if_due`. -/
def Store.pruneIfDue (s : Store K) (now : ℚ) : Store K :=
  if pruneIntervalSeconds ≤ now - s.lastPrune then s.prune sqlite aged retention now else s

/-- A batch in the loop of `_write_queued`. -/
def Store.runBatch (s : Store K) (batch : Batch K) (now : ℚ) : Store K :=
  match sqlite.execute batch.sql batch.rows s.contents with
  | none => s.failed batch.table
  | some contents => { s with contents := contents }.pruneIfDue sqlite aged retention now

/-- What is done under the lock. -/
inductive Act (K : Kinds) where
  | batch (batch : Batch K) (now : ℚ)
  | prune (now : ℚ)

def Store.act (s : Store K) : Act K → Store K
  | .batch batch now => s.runBatch sqlite aged retention batch now
  | .prune now => s.prune sqlite aged retention now

end Statements

/-- The batches that were run. -/
def batches {K : Kinds} : List (Act K) → List (Batch K)
  | [] => []
  | .batch batch _ :: rest => batch :: batches rest
  | .prune _ :: rest => batches rest

/-! ### Threads -/

/-- Where the writer thread is. -/
inductive Writer (K : Kinds) where
  | getting
  /-- It has taken an item off the queue: a batch, or the `None` of `close`. -/
  | holding (item : Option (Batch K))
  | ended

/-- What a thread does once it is done waiting. -/
inductive Request (K : Kinds) where
  | query (query : K.Query)
  | prune (now : Option ℚ)

/-- A thread in `drain`, with the batches it waits for. -/
structure Reader (K : Kinds) where
  request : Request K
  target : Nat
  deadline : ℚ

/-- Where the thread that closes is. -/
inductive Closer where
  | idle
  /-- In `put`, which gives up at this time. -/
  | putting (deadline : ℚ)
  /-- In `join`. -/
  | joining (deadline : ℚ)
  | returned
  deriving DecidableEq

/-- What `query_through` returned, with what it waited for and until when. -/
structure Answered (K : Kinds) where
  query : K.Query
  target : Nat
  deadline : ℚ
  time : ℚ
  rows : K.Answer
  number : Nat
  /-- It found the database closed. -/
  shut : Bool

/-- The database with its threads. The last ones tell what happened: the calls, and those that found
the database closed or the queue full, the batches accepted, what was done under the lock, what was
answered, and how many batches there were when `None` was put on the queue. -/
structure Database (K : Kinds) where
  store : Store K
  queue : List (Option (Batch K)) := []
  queued : Nat := 0
  written : Nat := 0
  dropped : Dict String Nat := .empty
  closed : Bool := false
  connected : Bool := true
  clock : ℚ := 0
  writer : Writer K := .getting
  closer : Closer := .idle
  /-- Calls of `queue_batch` that have found the database open. -/
  calling : List (Batch K) := []
  readers : List (Reader K) := []
  called : List (Batch K) := []
  refused : List (Batch K) := []
  lost : List (Batch K) := []
  accepted : List (Batch K) := []
  history : List (Act K) := []
  answered : List (Answered K) := []
  stopped : Option (Nat × List (Batch K)) := none

namespace Database

variable {K : Kinds} (sqlite : Sqlite K) (aged : List (String × String)) (retention : ℚ)
variable (s : Database K)

/-- `queue_batch` reads `_closed`. -/
def calls (batch : Batch K) : Database K :=
  if s.closed then
    { s with called := s.called ++ [batch], refused := s.refused ++ [batch] }
  else { s with called := s.called ++ [batch], calling := s.calling ++ [batch] }

/-- The rest of `queue_batch`. -/
def puts (batch : Batch K) (others : List (Batch K)) : Database K :=
  if s.queue.length < maxPendingWrites then
    { s with
      calling := others
      queue := s.queue ++ [some batch]
      queued := s.queued + 1
      accepted := s.accepted ++ [batch] }
  else { s with
    calling := others
    dropped := s.dropped.set batch.table (s.dropped.getD batch.table 0 + 1)
    lost := s.lost ++ [batch] }

/-- The writer runs the batch that it holds. -/
def runs (batch : Batch K) (now : ℚ) : Database K :=
  { s with
    store := s.store.act sqlite aged retention (.batch batch now)
    history := s.history ++ [.batch batch now]
    written := s.written + 1
    writer := .getting }

/-- A thread that is done waiting in `drain` goes on. -/
def answers (r : Reader K) (others : List (Reader K)) (now : ℚ) : Database K :=
  match r.request with
  | .query query =>
      let rows := if s.closed then sqlite.nothing else sqlite.select query s.store.contents
      { s with
        readers := others
        answered :=
          s.answered ++ [⟨query, r.target, r.deadline, s.clock, rows, s.written, s.closed⟩] }
  | .prune given =>
      if s.closed then { s with readers := others }
      else { s with
        readers := others
        store := s.store.act sqlite aged retention (.prune (given.getD now))
        history := s.history ++ [.prune (given.getD now)] }

def writerEnded : Bool :=
  match s.writer with
  | .ended => true
  | _ => false

/-- The thread in `drain` may go on: what it waits for has run, the writer is gone, or its time is
up. -/
def Done (r : Reader K) : Prop :=
  r.target ≤ s.written ∨ s.writerEnded = true ∨ r.deadline ≤ s.clock

instance (r : Reader K) : Decidable (s.Done r) :=
  inferInstanceAs (Decidable (_ ∨ _ ∨ _))

end Database

inductive Step (K : Kinds) where
  | passes (time : ℚ)
  | calls (batch : Batch K)
  | puts (place : Nat)
  | takes
  | runs (now : ℚ)
  | exits
  | asks (request : Request K)
  | answers (place : Nat) (now : ℚ)
  | closes
  | putsStop
  | givesUp
  | joins

/-- What a step does, where it can be taken. -/
def step {K : Kinds} (sqlite : Sqlite K) (aged : List (String × String)) (retention : ℚ) :
    Step K → Database K → Option (Database K)
  | .passes time, s => if 0 ≤ time then some { s with clock := s.clock + time } else none
  | .calls batch, s => some (s.calls batch)
  | .puts place, s =>
      s.calling[place]?.map fun batch => s.puts batch (s.calling.eraseIdx place)
  | .takes, s =>
      match s.writer, s.queue with
      | .getting, item :: rest => some { s with queue := rest, writer := .holding item }
      | _, _ => none
  | .runs now, s =>
      match s.writer with
      | .holding (some batch) => some (s.runs sqlite aged retention batch now)
      | _ => none
  | .exits, s =>
      match s.writer with
      | .holding none => some { s with writer := .ended }
      | _ => none
  | .asks request, s =>
      some { s with
        readers := s.readers ++ [⟨request, s.queued, s.clock + drainTimeoutSeconds⟩] }
  | .answers place now, s =>
      match s.readers[place]? with
      | none => none
      | some r =>
          if s.Done r then some (s.answers sqlite aged retention r (s.readers.eraseIdx place) now)
          else none
  | .closes, s =>
      if s.closed then some s
      else some { s with closed := true, closer := .putting (s.clock + closeTimeoutSeconds) }
  | .putsStop, s =>
      match s.closer with
      | .putting _ =>
          if s.queue.length < maxPendingWrites then
            some { s with
              queue := s.queue ++ [none]
              closer := .joining (s.clock + closeTimeoutSeconds)
              stopped := some (s.queued, s.calling) }
          else none
      | _ => none
  | .givesUp, s =>
      match s.closer with
      | .putting deadline =>
          if deadline ≤ s.clock then
            some { s with closer := .joining (s.clock + closeTimeoutSeconds) }
          else none
      | _ => none
  | .joins, s =>
      match s.closer with
      | .joining deadline =>
          if s.writerEnded then some { s with connected := false, closer := .returned }
          else if deadline ≤ s.clock then some { s with closer := .returned }
          else none
      | _ => none

/-- The database, with what SQLite does, the tables that are pruned and the retention period. -/
def machine {K : Kinds} (sqlite : Sqlite K) (aged : List (String × String)) (retention : ℚ) :
    Machine := ⟨Database K, Step K, step sqlite aged retention⟩

/-- A database that was just opened, with what is in its file. -/
def fresh {K : Kinds} (store : Store K) : Database K := { store := store }

/-- The states of a database that was opened so. -/
def Reached {K : Kinds} (sqlite : Sqlite K) (aged : List (String × String)) (retention : ℚ)
    (store : Store K) (s : Database K) : Prop :=
  (machine sqlite aged retention).Run Machine.Free (fresh store) s

/-! ### What one step does -/

/-- What a step does. -/
inductive Does {K : Kinds} (sqlite : Sqlite K) (aged : List (String × String)) (retention : ℚ)
    (s : Database K) : Database K → Prop where
  | passes (time : ℚ) (forward : 0 ≤ time) :
      Does sqlite aged retention s { s with clock := s.clock + time }
  | stays : Does sqlite aged retention s s
  | calls (batch : Batch K) : Does sqlite aged retention s (s.calls batch)
  | puts (place : Nat) (batch : Batch K) (listed : s.calling[place]? = some batch) :
      Does sqlite aged retention s (s.puts batch (s.calling.eraseIdx place))
  | takes (item : Option (Batch K)) (rest : List (Option (Batch K)))
      (gets : s.writer = .getting) (first : s.queue = item :: rest) :
      Does sqlite aged retention s { s with queue := rest, writer := .holding item }
  | runs (batch : Batch K) (now : ℚ) (holds : s.writer = .holding (some batch)) :
      Does sqlite aged retention s (s.runs sqlite aged retention batch now)
  | exits (holds : s.writer = .holding none) :
      Does sqlite aged retention s { s with writer := .ended }
  | asks (request : Request K) : Does sqlite aged retention s { s with
      readers := s.readers ++ [⟨request, s.queued, s.clock + drainTimeoutSeconds⟩] }
  | answers (place : Nat) (r : Reader K) (now : ℚ) (listed : s.readers[place]? = some r)
      (done : s.Done r) : Does sqlite aged retention s
        (s.answers sqlite aged retention r (s.readers.eraseIdx place) now)
  | closes (still : s.closed = false) : Does sqlite aged retention s
      { s with closed := true, closer := .putting (s.clock + closeTimeoutSeconds) }
  | putsStop (deadline : ℚ) (puts : s.closer = .putting deadline)
      (room : s.queue.length < maxPendingWrites) : Does sqlite aged retention s { s with
        queue := s.queue ++ [none]
        closer := .joining (s.clock + closeTimeoutSeconds)
        stopped := some (s.queued, s.calling) }
  | givesUp (deadline : ℚ) (puts : s.closer = .putting deadline) : Does sqlite aged retention s
      { s with closer := .joining (s.clock + closeTimeoutSeconds) }
  | joins (deadline : ℚ) (joining : s.closer = .joining deadline)
      (ended : s.writerEnded = true) : Does sqlite aged retention s
        { s with connected := false, closer := .returned }
  | leaves (deadline : ℚ) (joining : s.closer = .joining deadline) :
      Does sqlite aged retention s { s with closer := .returned }

theorem does_of_step {K : Kinds} {sqlite : Sqlite K} {aged : List (String × String)}
    {retention : ℚ} {s t : Database K} {l : Step K}
    (stepped : step sqlite aged retention l s = some t) : Does sqlite aged retention s t := by
  cases l with
  | passes time =>
      obtain ⟨forward, same⟩ := Option.ite_none_right_eq_some.mp stepped
      cases same
      exact .passes time forward
  | calls batch =>
      cases stepped
      exact .calls batch
  | puts place =>
      obtain ⟨batch, listed, rfl⟩ := Option.map_eq_some_iff.mp stepped
      exact .puts place batch listed
  | takes =>
      simp only [step] at stepped
      split at stepped
      · rename_i item rest gets first
        cases stepped
        exact .takes item rest gets first
      · cases stepped
  | runs now =>
      simp only [step] at stepped
      split at stepped
      · rename_i batch holds
        cases stepped
        exact .runs batch now holds
      · cases stepped
  | exits =>
      simp only [step] at stepped
      split at stepped
      · rename_i holds
        cases stepped
        exact .exits holds
      · cases stepped
  | asks request =>
      cases stepped
      exact .asks request
  | answers place now =>
      simp only [step] at stepped
      split at stepped
      · cases stepped
      · rename_i r listed
        obtain ⟨done, same⟩ := Option.ite_none_right_eq_some.mp stepped
        cases same
        exact .answers place r now listed done
  | closes =>
      simp only [step] at stepped
      split at stepped
      · cases stepped
        exact .stays
      · rename_i still
        cases stepped
        exact .closes (by simpa using still)
  | putsStop =>
      simp only [step] at stepped
      split at stepped
      · rename_i deadline puts
        obtain ⟨room, same⟩ := Option.ite_none_right_eq_some.mp stepped
        cases same
        exact .putsStop deadline puts room
      · cases stepped
  | givesUp =>
      simp only [step] at stepped
      split at stepped
      · rename_i deadline puts
        obtain ⟨-, same⟩ := Option.ite_none_right_eq_some.mp stepped
        cases same
        exact .givesUp deadline puts
      · cases stepped
  | joins =>
      simp only [step] at stepped
      split at stepped
      · rename_i deadline joining
        split at stepped
        · rename_i ended
          cases stepped
          exact .joins deadline joining ended
        · obtain ⟨-, same⟩ := Option.ite_none_right_eq_some.mp stepped
          cases same
          exact .leaves deadline joining
      · cases stepped

/-! ### What holds in every state -/

/-- The batch that the writer holds. -/
def Writer.held {K : Kinds} : Writer K → List (Batch K)
  | .holding (some batch) => [batch]
  | _ => []

/-- The batches on a queue. -/
def waiting {K : Kinds} (queue : List (Option (Batch K))) : List (Batch K) := queue.filterMap id

section Batches

variable {K : Kinds}

@[simp] theorem batches_append (first second : List (Act K)) :
    batches (first ++ second) = batches first ++ batches second := by
  induction first with
  | nil => rfl
  | cons act rest ih =>
      cases act with
      | batch batch now => simp [batches, ih]
      | prune now => simpa [batches] using ih

@[simp] theorem waiting_append (first second : List (Option (Batch K))) :
    waiting (first ++ second) = waiting first ++ waiting second := List.filterMap_append

@[simp] theorem waiting_some (batch : Batch K) : waiting [some batch] = [batch] := rfl

@[simp] theorem waiting_none : waiting ([none] : List (Option (Batch K))) = [] := rfl

end Batches

theorem perm_eraseIdx {α : Type} {items : List α} {place : Nat} {a : α}
    (listed : items[place]? = some a) : ([a] ++ items.eraseIdx place).Perm items := by
  obtain ⟨inside, rfl⟩ := List.getElem?_eq_some_iff.mp listed
  exact List.getElem_cons_eraseIdx_perm inside

/-- Where the batches are that were accepted, and what has become of the tables. -/
structure Sound {K : Kinds} (sqlite : Sqlite K) (aged : List (String × String)) (retention : ℚ)
    (store : Store K) (s : Database K) : Prop where
  order : s.accepted = batches s.history ++ (s.writer.held ++ waiting s.queue)
  queued : s.queued = s.accepted.length
  written : s.written = (batches s.history).length
  store : s.store = s.history.foldl (Store.act sqlite aged retention) store
  full : s.queue.length ≤ maxPendingWrites
  targets : ∀ r ∈ s.readers, r.target ≤ s.queued
  called : s.called.Perm (s.calling ++ s.refused ++ s.lost ++ s.accepted)
  dropped : ∀ table, s.dropped.getD table 0 = s.lost.countP fun batch => batch.table = table

section Soundness

variable {K : Kinds} {sqlite : Sqlite K} {aged : List (String × String)} {retention : ℚ}
variable {store : Store K} {s t : Database K}

theorem sound_fresh (store : Store K) : Sound sqlite aged retention store (fresh store) where
  order := rfl
  queued := rfl
  written := rfl
  store := rfl
  full := Nat.zero_le _
  targets := by simp [fresh]
  called := .refl _
  dropped _ := rfl

theorem Sound.calls (sound : Sound sqlite aged retention store s) (batch : Batch K) :
    Sound sqlite aged retention store (s.calls batch) := by
  classical
  have same := List.perm_iff_count.mp sound.called
  unfold Database.calls
  split
  · refine { sound with called := List.perm_iff_count.mpr fun b => ?_ }
    have count := same b
    simp only [List.count_append] at count ⊢
    omega
  · refine { sound with called := List.perm_iff_count.mpr fun b => ?_ }
    have count := same b
    simp only [List.count_append] at count ⊢
    omega

theorem Sound.puts (sound : Sound sqlite aged retention store s) {place : Nat} {batch : Batch K}
    (listed : s.calling[place]? = some batch) :
    Sound sqlite aged retention store (s.puts batch (s.calling.eraseIdx place)) := by
  classical
  have same := List.perm_iff_count.mp sound.called
  have left := List.perm_iff_count.mp (perm_eraseIdx listed)
  unfold Database.puts
  split
  · rename_i room
    exact { sound with
      order := by simp [sound.order]
      queued := by simp [sound.queued]
      full := by simpa using Nat.succ_le_of_lt room
      targets := fun r there => (sound.targets r there).trans (Nat.le_succ _)
      called := List.perm_iff_count.mpr fun b => by
        have count := same b
        have taken := left b
        simp only [List.count_append] at count taken ⊢
        omega }
  · exact { sound with
      called := List.perm_iff_count.mpr fun b => by
        have count := same b
        have taken := left b
        simp only [List.count_append] at count taken ⊢
        omega
      dropped := fun table => by
        have count := sound.dropped
        simp only [Dict.getD, Dict.get?_set, List.countP_append] at count ⊢
        by_cases here : table = batch.table
        · subst here
          simp [← count]
        · have other : ¬ batch.table = table := fun same => here same.symm
          simp [here, other, ← count] }

theorem Sound.answers (sound : Sound sqlite aged retention store s) (place : Nat) (r : Reader K)
    (now : ℚ) :
    Sound sqlite aged retention store
      (s.answers sqlite aged retention r (s.readers.eraseIdx place) now) := by
  have targets : ∀ r ∈ s.readers.eraseIdx place, r.target ≤ s.queued := fun r there =>
    sound.targets r (List.mem_of_mem_eraseIdx there)
  unfold Database.answers
  split
  · exact { sound with targets := targets }
  · split
    · exact { sound with targets := targets }
    · exact { sound with
        order := by simpa [batches] using sound.order
        written := by simpa [batches] using sound.written
        store := by simp [sound.store]
        targets := targets }

theorem Sound.runs (sound : Sound sqlite aged retention store s) {batch : Batch K}
    (holds : s.writer = .holding (some batch)) (now : ℚ) :
    Sound sqlite aged retention store (s.runs sqlite aged retention batch now) := by
  have order := sound.order
  rw [holds] at order
  exact { sound with
    order := by simpa [Database.runs, batches, Writer.held] using order
    written := by simp [Database.runs, batches, sound.written]
    store := by simp [Database.runs, sound.store] }

theorem Sound.takes (sound : Sound sqlite aged retention store s) {item : Option (Batch K)}
    {rest : List (Option (Batch K))} (gets : s.writer = .getting) (first : s.queue = item :: rest) :
    Sound sqlite aged retention store { s with queue := rest, writer := .holding item } := by
  have order := sound.order
  have full := sound.full
  rw [gets, first] at order
  rw [first] at full
  refine { sound with order := ?_, full := Nat.le_of_succ_le full }
  cases item <;> simpa [Writer.held, waiting] using order

theorem Sound.step (sound : Sound sqlite aged retention store s)
    (does : Does sqlite aged retention s t) : Sound sqlite aged retention store t := by
  cases does with
  | passes time forward => exact { sound with }
  | stays => exact sound
  | calls batch => exact sound.calls batch
  | puts place batch listed => exact sound.puts listed
  | takes item rest gets first => exact sound.takes gets first
  | runs batch now holds => exact sound.runs holds now
  | exits holds =>
      have order := sound.order
      rw [holds] at order
      exact { sound with order := order }
  | asks request =>
      refine { sound with targets := fun r there => ?_ }
      rcases List.mem_append.mp there with old | new
      · exact sound.targets r old
      · rw [List.mem_singleton.mp new]
  | answers place r now listed done => exact sound.answers place r now
  | closes still => exact { sound with }
  | putsStop deadline puts room =>
      exact { sound with
        order := by simpa using sound.order
        full := by simpa using Nat.succ_le_of_lt room }
  | givesUp deadline puts => exact { sound with }
  | joins deadline joining ended => exact { sound with }
  | leaves deadline joining => exact { sound with }

end Soundness

/-! ### Closing -/

/-- Where the `None` of `close` is, that the batches before it number `n`. -/
def Marked {K : Kinds} (s : Database K) (n : Nat) : Prop :=
  (∃ before after, s.queue = before ++ none :: after ∧ none ∉ before ∧ none ∉ after ∧
    s.writer ≠ .holding none ∧ s.writerEnded = false ∧
    s.written + s.writer.held.length + (waiting before).length = n) ∨
  none ∉ s.queue ∧ (s.writer = .holding none ∨ s.writerEnded = true) ∧ s.written = n

/-- What every step keeps of closing. -/
structure Closing {K : Kinds} (s : Database K) : Prop where
  still : s.closed = false → s.closer = .idle
  unstopped : (s.closer = .idle ∨ ∃ deadline, s.closer = .putting deadline) → s.stopped = none
  running : s.stopped = none → none ∉ s.queue ∧ s.writer ≠ .holding none ∧ s.writerEnded = false
  marked : ∀ n pending, s.stopped = some (n, pending) → s.closed = true ∧ Marked s n
  late : ∀ n pending, s.stopped = some (n, pending) → n ≤ s.accepted.length ∧
    ∃ gone, (s.accepted.drop n ++ gone ++ s.calling).Perm pending
  connected : s.connected = false → s.writerEnded = true

section Closings

variable {K : Kinds} {sqlite : Sqlite K} {aged : List (String × String)} {retention : ℚ}
variable {store : Store K} {s t : Database K}

theorem closing_fresh (store : Store K) : Closing (fresh store) where
  still _ := rfl
  unstopped _ := rfl
  running _ := ⟨List.not_mem_nil, by simp [fresh], rfl⟩
  marked := by simp [fresh]
  late := by simp [fresh]
  connected := by simp [fresh]

theorem Closing.calls (closing : Closing s) (batch : Batch K) : Closing (s.calls batch) := by
  unfold Database.calls
  split
  · exact { closing with }
  · rename_i open_
    have none_ : s.stopped = none := closing.unstopped (.inl (closing.still (by simpa using open_)))
    exact { closing with
      late := fun n pending marked => by
        rw [none_] at marked
        cases marked }

theorem Closing.puts (closing : Closing s) {place : Nat} {batch : Batch K}
    (listed : s.calling[place]? = some batch) :
    Closing (s.puts batch (s.calling.eraseIdx place)) := by
  classical
  have left := List.perm_iff_count.mp (perm_eraseIdx listed)
  unfold Database.puts
  split
  · exact { closing with
      running := fun none_ => by
        obtain ⟨clear, writer⟩ := closing.running none_
        exact ⟨by simpa using clear, writer⟩
      marked := fun n pending marked => by
        obtain ⟨closed, place⟩ := closing.marked n pending marked
        refine ⟨closed, ?_⟩
        rcases place with ⟨before, after, queue, first, last, rest⟩ | ⟨clear, rest⟩
        · exact .inl ⟨before, after ++ [some batch], by simp [queue], first, by simpa using last,
            rest⟩
        · exact .inr ⟨by simpa using clear, rest⟩
      late := fun n pending marked => by
        obtain ⟨few, gone, same⟩ := closing.late n pending marked
        refine ⟨few.trans (by simp), gone, List.perm_iff_count.mpr fun b => ?_⟩
        have count := List.perm_iff_count.mp same b
        have taken := left b
        rw [List.drop_append_of_le_length few]
        simp only [List.count_append] at count taken ⊢
        omega }
  · exact { closing with
      late := fun n pending marked => by
        obtain ⟨few, gone, same⟩ := closing.late n pending marked
        refine ⟨few, gone ++ [batch], List.perm_iff_count.mpr fun b => ?_⟩
        have count := List.perm_iff_count.mp same b
        have taken := left b
        simp only [List.count_append] at count taken ⊢
        omega }

theorem Closing.takes (closing : Closing s) {item : Option (Batch K)}
    {rest : List (Option (Batch K))} (gets : s.writer = .getting) (first : s.queue = item :: rest) :
    Closing { s with queue := rest, writer := .holding item } := by
  have alive : s.writerEnded = false := by simp [Database.writerEnded, gets]
  refine { closing with
    running := fun none_ => ?_
    marked := fun n pending marked => ?_
    connected := fun off => ?_ }
  · obtain ⟨clear, -, -⟩ := closing.running none_
    rw [first, List.mem_cons, not_or] at clear
    refine ⟨clear.2, fun same => clear.1 ?_, rfl⟩
    cases same
    rfl
  · obtain ⟨closed, place⟩ := closing.marked n pending marked
    refine ⟨closed, ?_⟩
    rcases place with ⟨before, after, queue, early, last, -, -, count⟩ | ⟨-, done, -⟩
    · rw [first] at queue
      rw [gets] at count
      cases before with
      | nil =>
          cases queue
          exact .inr ⟨last, .inl rfl, by simpa [Writer.held, waiting] using count⟩
      | cons head before =>
          cases queue
          cases item with
          | none => exact absurd List.mem_cons_self early
          | some batch =>
              refine .inl ⟨before, after, rfl, fun there => early (List.mem_cons_of_mem _ there),
                last, by simp, rfl, ?_⟩
              simp only [Writer.held, waiting, List.length_nil, List.filterMap_cons, id_eq,
                List.length_cons] at count ⊢
              omega
    · rw [gets, alive] at done
      rcases done with done | done <;> cases done
  · rw [closing.connected off] at alive
    cases alive

theorem Closing.runs (closing : Closing s) {batch : Batch K}
    (holds : s.writer = .holding (some batch)) (now : ℚ) :
    Closing (s.runs sqlite aged retention batch now) := by
  have alive : s.writerEnded = false := by simp [Database.writerEnded, holds]
  refine { closing with
    running := fun none_ => ?_
    marked := fun n pending marked => ?_
    connected := fun off => ?_ }
  · exact ⟨(closing.running none_).1, by simp [Database.runs], rfl⟩
  · obtain ⟨closed, place⟩ := closing.marked n pending marked
    refine ⟨closed, ?_⟩
    rcases place with ⟨before, after, queue, early, last, -, -, count⟩ | ⟨-, done, -⟩
    · refine .inl ⟨before, after, queue, early, last, by simp [Database.runs], rfl, ?_⟩
      simp only [holds, Writer.held, List.length_singleton] at count
      simp only [Database.runs, Writer.held, List.length_nil]
      omega
    · rw [holds, alive] at done
      rcases done with done | done <;> cases done
  · rw [closing.connected off] at alive
    cases alive

theorem Closing.exits (closing : Closing s) (holds : s.writer = .holding none) :
    Closing { s with writer := .ended } := by
  refine { closing with
    running := fun none_ => ?_
    marked := fun n pending marked => ?_
    connected := fun _ => rfl }
  · exact absurd holds (closing.running none_).2.1
  · obtain ⟨closed, place⟩ := closing.marked n pending marked
    refine ⟨closed, ?_⟩
    rcases place with ⟨-, -, -, -, -, other, -⟩ | ⟨clear, -, count⟩
    · exact absurd holds other
    · exact .inr ⟨clear, .inr rfl, count⟩

theorem Closing.putsStop (closing : Closing s) (sound : Sound sqlite aged retention store s)
    {deadline : ℚ} (puts : s.closer = .putting deadline) : Closing { s with
      queue := s.queue ++ [none]
      closer := .joining (s.clock + closeTimeoutSeconds)
      stopped := some (s.queued, s.calling) } := by
  obtain ⟨clear, running, alive⟩ := closing.running (closing.unstopped (.inr ⟨deadline, puts⟩))
  have closed : s.closed = true := by
    by_contra open_
    rw [closing.still (by simpa using open_)] at puts
    cases puts
  refine { closing with
    still := fun off => absurd (closed.symm.trans off) (by decide)
    unstopped := fun before => by rcases before with before | ⟨_, before⟩ <;> cases before
    running := fun none_ => by cases none_
    marked := fun n pending marked => ?_
    late := fun n pending marked => ?_ }
  · cases marked
    refine ⟨closed, .inl ⟨s.queue, [], rfl, clear, List.not_mem_nil, running, alive, ?_⟩⟩
    rw [sound.queued, sound.order, sound.written, List.length_append, List.length_append,
      Nat.add_assoc]
  · cases marked
    rw [sound.queued]
    exact ⟨le_rfl, [], by simp⟩

theorem Closing.step (closing : Closing s) (sound : Sound sqlite aged retention store s)
    (does : Does sqlite aged retention s t) : Closing t := by
  cases does with
  | passes time forward => exact { closing with }
  | stays => exact closing
  | calls batch => exact closing.calls batch
  | puts place batch listed => exact closing.puts listed
  | takes item rest gets first => exact closing.takes gets first
  | runs batch now holds => exact closing.runs holds now
  | exits holds => exact closing.exits holds
  | asks request => exact { closing with }
  | answers place r now listed done =>
      unfold Database.answers
      split
      · exact { closing with }
      · split <;> exact { closing with }
  | closes still =>
      have none_ := closing.unstopped (.inl (closing.still still))
      exact { closing with
        still := fun off => absurd off (by simp)
        unstopped := fun _ => none_
        marked := fun n pending marked => by
          rw [none_] at marked
          cases marked }
  | putsStop deadline puts room => exact closing.putsStop sound puts
  | givesUp deadline puts =>
      exact { closing with
        still := fun off => by rw [closing.still off] at puts; cases puts
        unstopped := fun before => by rcases before with before | ⟨_, before⟩ <;> cases before }
  | joins deadline joining ended =>
      exact { closing with
        still := fun off => by rw [closing.still off] at joining; cases joining
        unstopped := fun before => by rcases before with before | ⟨_, before⟩ <;> cases before
        connected := fun _ => ended }
  | leaves deadline joining =>
      exact { closing with
        still := fun off => by rw [closing.still off] at joining; cases joining
        unstopped := fun before => by rcases before with before | ⟨_, before⟩ <;> cases before }

theorem Reached.both (reached : Reached sqlite aged retention store s) :
    Sound sqlite aged retention store s ∧ Closing s := by
  refine Machine.Run.keeps (P := fun s : Database K => Sound sqlite aged retention store s ∧
    Closing s) (fun _ _ _ stepped _ both => ?_) reached ⟨sound_fresh store, closing_fresh store⟩
  exact ⟨both.1.step (does_of_step stepped), both.2.step both.1 (does_of_step stepped)⟩

end Closings

/-! ### A table of events -/

/-- One table, whose rows have a time and a number. -/
abbrev siteKinds : Kinds := ⟨List (ℚ × Nat), ℚ × Nat, Unit, List (ℚ × Nat)⟩

def siteInsert : String := "INSERT INTO events VALUES (?, ?)"

def siteAged : List (String × String) := [("events", "time")]

def siteRetention : ℚ := 34560000

def siteSqlite : Sqlite siteKinds where
  execute sql rows contents := if sql = siteInsert then some (contents ++ rows) else none
  delete table column cutoff contents :=
    if (table, column) ∈ siteAged then some (contents.filter fun row => cutoff ≤ row.1) else none
  select _ contents := contents
  nothing := []

def siteStore : Store siteKinds := { contents := [(0, 1)] }

def siteBatch (number : Nat) : Batch siteKinds := ⟨"events", siteInsert, [(40000000, number)]⟩

/-- A batch is queued and a read begins. -/
def siteAsking : List (Step siteKinds) := [.calls (siteBatch 2), .puts 0, .asks (.query ())]

/-- The read gets its answer; then the database is closed while a batch is on its way. -/
def siteClosing : List (Step siteKinds) :=
  siteAsking ++ [.takes, .runs 40000000, .answers 0 0, .calls (siteBatch 3), .closes, .putsStop,
    .puts 0, .takes, .exits, .joins]

def siteMachine : Machine := machine siteSqlite siteAged siteRetention

theorem site_asks : ∃ t r, Reached siteSqlite siteAged siteRetention siteStore t ∧
    r ∈ t.readers ∧ ¬ t.Done r := by
  refine ⟨_, ⟨.query (), 1, 0 + drainTimeoutSeconds⟩,
    Machine.run_of_exec (M := siteMachine) siteAsking rfl, List.mem_singleton_self _, ?_⟩
  decide +kernel

theorem site_closes : ∃ t, Reached siteSqlite siteAged siteRetention siteStore t ∧
    t.connected = false ∧ t.accepted = [siteBatch 2, siteBatch 3] ∧
    t.answered.map (·.rows) = [[(40000000, 2)]] ∧ t.answered.map (·.shut) = [false] ∧
    batches t.history = [siteBatch 2] := by
  refine ⟨_, Machine.run_of_exec (M := siteMachine) siteClosing rfl, rfl, rfl,
    ?_, rfl, rfl⟩
  decide +kernel

/-! ### Reads -/

/-- A read got what the first batches made of the tables, and waited for those it had to. -/
structure InOrder {K : Kinds} (sqlite : Sqlite K) (aged : List (String × String)) (retention : ℚ)
    (store : Store K) (s : Database K) (a : Answered K) : Prop where
  known : a.number ≤ s.accepted.length
  waited : a.target ≤ a.number ∨ a.deadline ≤ a.time
  rows : ∃ acts, acts <+: s.history ∧ batches acts = s.accepted.take a.number ∧
    a.rows = sqlite.select a.query (acts.foldl (Store.act sqlite aged retention) store).contents

section Reads

variable {K : Kinds} {sqlite : Sqlite K} {aged : List (String × String)} {retention : ℚ}
variable {store : Store K} {s t : Database K}

/-- What is accepted and done under the lock only grows. -/
structure Grows (s t : Database K) : Prop where
  accepted : s.accepted <+: t.accepted
  history : s.history <+: t.history
  written : s.written ≤ t.written

theorem grows_of_does (does : Does sqlite aged retention s t) : Grows s t := by
  have same : Grows s s := ⟨List.prefix_refl _, List.prefix_refl _, le_rfl⟩
  cases does with
  | calls batch =>
      unfold Database.calls
      split <;> exact { same with }
  | puts place batch listed =>
      unfold Database.puts
      split
      · exact { same with accepted := List.prefix_append _ _ }
      · exact { same with }
  | runs batch now holds =>
      exact { same with history := List.prefix_append _ _, written := Nat.le_succ _ }
  | answers place r now listed done =>
      unfold Database.answers
      split
      · exact { same with }
      · split
        · exact { same with }
        · exact { same with history := List.prefix_append _ _ }
  | _ => exact { same with }

theorem InOrder.grows {a : Answered K} (inOrder : InOrder sqlite aged retention store s a)
    (grows : Grows s t) : InOrder sqlite aged retention store t a := by
  obtain ⟨acts, before, ran, rows⟩ := inOrder.rows
  obtain ⟨more, whole⟩ := grows.accepted
  refine ⟨inOrder.known.trans grows.accepted.length_le, inOrder.waited, acts,
    before.trans grows.history, ?_, rows⟩
  rw [ran, ← whole, List.take_append_of_le_length inOrder.known]

/-- What every step keeps of the answers. -/
structure Answers (sqlite : Sqlite K) (aged : List (String × String)) (retention : ℚ)
    (store : Store K) (s : Database K) : Prop where
  inOrder : ∀ a ∈ s.answered, a.shut = false → InOrder sqlite aged retention store s a
  past : ∀ a ∈ s.answered, a.number ≤ s.written
  sorted : s.answered.Pairwise fun a b => a.number ≤ b.number

theorem Answers.grows (answers : Answers sqlite aged retention store s) (grows : Grows s t)
    (same : t.answered = s.answered) : Answers sqlite aged retention store t where
  inOrder a there open_ := (answers.inOrder a (same ▸ there) open_).grows grows
  past a there := (answers.past a (same ▸ there)).trans grows.written
  sorted := same ▸ answers.sorted

/-- The writer is not gone while the database is open. -/
theorem Closing.alive (closing : Closing s) (open_ : s.closed = false) : s.writerEnded = false :=
  (closing.running (closing.unstopped (.inl (closing.still open_)))).2.2

theorem batches_eq_take (sound : Sound sqlite aged retention store s) :
    batches s.history = s.accepted.take s.written := by
  rw [sound.order, sound.written, List.take_left]

theorem written_le (sound : Sound sqlite aged retention store s) :
    s.written ≤ s.accepted.length := by
  rw [sound.order, sound.written, List.length_append]
  exact Nat.le_add_right _ _

theorem Answers.answers (answers : Answers sqlite aged retention store s)
    (sound : Sound sqlite aged retention store s) (closing : Closing s) {place : Nat}
    {r : Reader K} {now : ℚ} (listed : s.readers[place]? = some r) (done : s.Done r) :
    Answers sqlite aged retention store
      (s.answers sqlite aged retention r (s.readers.eraseIdx place) now) := by
  have answered : Does sqlite aged retention s
      (s.answers sqlite aged retention r (s.readers.eraseIdx place) now) :=
    .answers place r now listed done
  have grown := grows_of_does answered
  unfold Database.answers at grown ⊢
  split
  · rename_i query request
    simp only [request] at grown
    refine ⟨fun a there open_ => ?_, fun a there => ?_, ?_⟩
    · rcases List.mem_append.mp there with old | new
      · exact (answers.inOrder a old open_).grows grown
      · obtain rfl := List.mem_singleton.mp new
        simp only at open_
        refine ⟨written_le sound, ?_, s.history, List.prefix_refl _, batches_eq_take sound, ?_⟩
        · rcases done with run | ended | late
          · exact .inl run
          · rw [closing.alive open_] at ended
            cases ended
          · exact .inr late
        · simp only [open_, Bool.false_eq_true, if_false, sound.store]
    · rcases List.mem_append.mp there with old | new
      · exact answers.past a old
      · rw [List.mem_singleton.mp new]
    · refine List.pairwise_append.mpr ⟨answers.sorted, List.pairwise_singleton _ _,
        fun a old b new => ?_⟩
      rw [List.mem_singleton.mp new]
      exact answers.past a old
  · rename_i given request
    simp only [request] at grown
    refine answers.grows grown ?_
    split <;> rfl

theorem Answers.step (answers : Answers sqlite aged retention store s)
    (sound : Sound sqlite aged retention store s) (closing : Closing s)
    (does : Does sqlite aged retention s t) : Answers sqlite aged retention store t := by
  have grown := grows_of_does does
  cases does with
  | answers place r now listed done => exact answers.answers sound closing listed done
  | calls batch =>
      refine answers.grows grown ?_
      unfold Database.calls
      split <;> rfl
  | puts place batch listed =>
      refine answers.grows grown ?_
      unfold Database.puts
      split <;> rfl
  | _ => exact answers.grows grown rfl

end Reads

/-- Every read that found the database open got what a number of batches made of the tables, those
with the first numbers and in their order, with what was pruned in between. Unless it ran out of
time, these include all that were accepted before it began; and a later read gets no fewer. -/
theorem reads_in_order {K : Kinds} {sqlite : Sqlite K} {aged : List (String × String)}
    {retention : ℚ} {store : Store K} {s : Database K}
    (reached : Reached sqlite aged retention store s) :
    (∀ a ∈ s.answered, a.shut = false → InOrder sqlite aged retention store s a) ∧
      s.answered.Pairwise fun a b => a.number ≤ b.number := by
  have all : (Sound sqlite aged retention store s ∧ Closing s) ∧
      Answers sqlite aged retention store s := by
    refine Machine.Run.keeps (P := fun s : Database K =>
      (Sound sqlite aged retention store s ∧ Closing s) ∧ Answers sqlite aged retention store s)
      (fun _ _ _ stepped _ all => ?_) reached
      ⟨⟨sound_fresh store, closing_fresh store⟩, by simp [fresh], by simp [fresh], by simp [fresh]⟩
    have does := does_of_step stepped
    exact ⟨⟨all.1.1.step does, all.1.2.step all.1.1 does⟩, all.2.step all.1.1 all.1.2 does⟩
  exact ⟨all.2.inOrder, all.2.sorted⟩

theorem reads_in_order_site : ∃ t, t.answered.map (·.rows) = [[(40000000, 2)]] ∧
    t.answered.map (·.shut) = [false] ∧
    ∀ a ∈ t.answered, a.shut = false →
      InOrder siteSqlite siteAged siteRetention siteStore t a := by
  obtain ⟨t, reached, -, -, rows, open_, -⟩ := site_closes
  exact ⟨t, rows, open_, (reads_in_order reached).1⟩

/-! ### The writer goes on -/

/-- The steps of the writer thread, where the clock shows `now`. -/
inductive WritersOwn {K : Kinds} (now : ℚ) : Step K → Prop where
  | takes : WritersOwn now .takes
  | runs : WritersOwn now (.runs now)
  | exits : WritersOwn now .exits

section Progress

variable {K : Kinds} {sqlite : Sqlite K} {aged : List (String × String)} {retention : ℚ}
variable {store : Store K} {s : Database K}

/-- A step of the writer, taken first. -/
theorem takes_own {now : ℚ} {t : Database K} {l : Step K}
    (stepped : step sqlite aged retention l s = some t) (own : WritersOwn now l) :
    (machine sqlite aged retention).Run (fun _ l _ => WritersOwn now l) s t :=
  .step (M := machine sqlite aged retention) l
    (.refl (M := machine sqlite aged retention) s) stepped own

/-- How many steps of the writer are left, at most. -/
def left (s : Database K) : Nat := 2 * s.queue.length + match s.writer with
  | .holding _ => 1
  | _ => 0

/-- Alone, the writer gets to every batch, or to the `None`. -/
theorem writer_gets_on (now : ℚ) (sound : Sound sqlite aged retention store s) {target : Nat}
    (known : target ≤ s.queued) : ∃ t,
      (machine sqlite aged retention).Run (fun _ l _ => WritersOwn now l) s t ∧
      t.readers = s.readers ∧ (target ≤ t.written ∨ t.writerEnded = true) := by
  induction steps : left s using Nat.strong_induction_on generalizing s with
  | _ n ih =>
      subst steps
      have here : (machine sqlite aged retention).Run (fun _ l _ => WritersOwn now l) s s :=
        Machine.Run.refl (M := machine sqlite aged retention) s
      cases writer : s.writer with
      | ended => exact ⟨s, here, rfl, .inr (by simp [Database.writerEnded, writer])⟩
      | holding item =>
          cases item with
          | none =>
              have stepped : step sqlite aged retention .exits s =
                  some { s with writer := .ended } := by
                simp only [step, writer]
              exact ⟨{ s with writer := .ended }, takes_own stepped .exits, rfl, .inr rfl⟩
          | some batch =>
              obtain ⟨t, later, same, far⟩ := ih _ (by simp [left, Database.runs, writer])
                (sound.runs writer now) known rfl
              have stepped : step sqlite aged retention (.runs now) s =
                  some (s.runs sqlite aged retention batch now) := by
                simp only [step, writer]
              exact ⟨t, (takes_own stepped .runs).trans later, same, far⟩
      | getting =>
          cases queue : s.queue with
          | nil =>
              refine ⟨s, here, rfl, .inl (known.trans_eq ?_)⟩
              rw [sound.queued, sound.order, sound.written, writer, queue]
              simp [Writer.held, waiting]
          | cons item rest =>
              obtain ⟨t, later, same, far⟩ := ih _ (by simp [left, writer, queue]; omega)
                (sound.takes writer queue) known rfl
              have stepped : step sqlite aged retention .takes s =
                  some { s with queue := rest, writer := .holding item } := by
                simp only [step, writer, queue]
              exact ⟨t, (takes_own stepped .takes).trans later, same, far⟩

end Progress

/-- From wherever the threads are, a read needs no other thread than the writer to go on. What a
thread does while it holds the lock is one step here. -/
theorem reads_get_on {K : Kinds} {sqlite : Sqlite K} {aged : List (String × String)}
    {retention : ℚ} {store : Store K} {s : Database K}
    (reached : Reached sqlite aged retention store s) {r : Reader K} (listed : r ∈ s.readers)
    (now : ℚ) : ∃ t, (machine sqlite aged retention).Run (fun _ l _ => WritersOwn now l) s t ∧
      r ∈ t.readers ∧ t.Done r := by
  have sound := reached.both.1
  obtain ⟨t, run, same, far⟩ := writer_gets_on now sound (sound.targets r listed)
  exact ⟨t, run, same ▸ listed, far.imp_right .inl⟩

theorem reads_get_on_site : ∃ (s t : Database siteKinds) (r : Reader siteKinds), ¬ s.Done r ∧
    siteMachine.Run (fun _ l _ => WritersOwn 0 l) s t ∧ r ∈ t.readers ∧ t.Done r := by
  obtain ⟨s, r, reached, listed, waits⟩ := site_asks
  obtain ⟨t, run, still, done⟩ := reads_get_on reached listed 0
  exact ⟨s, t, r, waits, run, still, done⟩

/-! ### What becomes of the batches -/

/-- Every batch that `queue_batch` was called with is in one place: the call has not come to the
queue, it found the database closed, it found the queue full and was counted for its table, or the
batch was run, is held by the writer, or waits. The queue stays bounded. What is done under the lock
is one step, and so is the count of a dropped batch, which is added without it: each table has one
producer at a time. -/
theorem batches_accounted {K : Kinds} {sqlite : Sqlite K} {aged : List (String × String)}
    {retention : ℚ} {store : Store K} {s : Database K}
    (reached : Reached sqlite aged retention store s) :
    s.called.Perm (s.calling ++ s.refused ++ s.lost ++
      (batches s.history ++ (s.writer.held ++ waiting s.queue))) ∧
    (∀ table, s.dropped.getD table 0 = s.lost.countP fun batch => batch.table = table) ∧
    s.queue.length ≤ maxPendingWrites ∧
    s.store = s.history.foldl (Store.act sqlite aged retention) store := by
  have sound := reached.both.1
  exact ⟨sound.order ▸ sound.called, sound.dropped, sound.full, sound.store⟩

theorem batches_accounted_site : ∃ t : Database siteKinds, t.accepted = [siteBatch 2, siteBatch 3] ∧
    t.called.Perm (t.calling ++ t.refused ++ t.lost ++
      (batches t.history ++ (t.writer.held ++ waiting t.queue))) := by
  obtain ⟨t, reached, -, accepted, -⟩ := site_closes
  exact ⟨t, accepted, (batches_accounted reached).1⟩

section Ends

variable {K : Kinds} {sqlite : Sqlite K} {aged : List (String × String)} {retention : ℚ}
variable {store : Store K} {s t : Database K}

/-- What does not change any more. -/
structure Ended (sqlite : Sqlite K) (s t : Database K) : Prop where
  ended : t.writerEnded = true
  closed : t.closed = true
  history : t.history = s.history
  store : t.store = s.store
  answered : ∃ more, t.answered = s.answered ++ more ∧
    ∀ a ∈ more, a.shut = true ∧ a.rows = sqlite.nothing

theorem Ended.step {u : Database K} (after : Ended sqlite s t)
    (does : Does sqlite aged retention t u) : Ended sqlite s u := by
  have gone {item : Option (Batch K)} (holds : t.writer = .holding item) : False := by
    have ended := after.ended
    simp [Database.writerEnded, holds] at ended
  cases does with
  | calls batch =>
      unfold Database.calls
      split <;> exact { after with }
  | puts place batch listed =>
      unfold Database.puts
      split <;> exact { after with }
  | takes item rest gets first =>
      have ended := after.ended
      simp [Database.writerEnded, gets] at ended
  | runs batch now holds => exact (gone holds).elim
  | exits holds => exact (gone holds).elim
  | closes still => exact absurd (after.closed.symm.trans still) (by decide)
  | answers place r now listed done =>
      unfold Database.answers
      split
      · obtain ⟨more, whole, shut⟩ := after.answered
        refine { after with
          answered := ⟨more ++ [_], by simp only [whole, List.append_assoc]; rfl, ?_⟩ }
        intro a there
        rcases List.mem_append.mp there with old | new
        · exact shut a old
        · rw [List.mem_singleton.mp new]
          exact ⟨after.closed, if_pos after.closed⟩
      · rw [if_pos after.closed]
        exact { after with }
  | _ => exact { after with }

end Ends

/-- When the writer thread has ended, or the connection is closed, the batches that have run are
those that were accepted before the `None` of `close`. Those accepted after it were in a call of
`queue_batch` that had found the database open; they are never run. From then on no statement runs,
and a read gets no rows. -/
theorem ends_having_run {K : Kinds} {sqlite : Sqlite K} {aged : List (String × String)}
    {retention : ℚ} {store : Store K} {s : Database K}
    (reached : Reached sqlite aged retention store s)
    (finished : s.writerEnded = true ∨ s.connected = false) :
    (∃ n calling, s.stopped = some (n, calling) ∧ batches s.history = s.accepted.take n ∧
      (s.accepted.drop n).Subperm calling) ∧
    ∀ t, (machine sqlite aged retention).Run Machine.Free s t → t.history = s.history ∧
      t.store = s.store ∧ ∃ more, t.answered = s.answered ++ more ∧
        ∀ a ∈ more, a.shut = true ∧ a.rows = sqlite.nothing := by
  obtain ⟨sound, closing⟩ := reached.both
  have ended : s.writerEnded = true := finished.elim id closing.connected
  cases stopped : s.stopped with
  | none =>
      rw [(closing.running stopped).2.2] at ended
      cases ended
  | some stop =>
      obtain ⟨n, calling⟩ := stop
      obtain ⟨closed, place⟩ := closing.marked n calling stopped
      obtain ⟨few, gone, same⟩ := closing.late n calling stopped
      refine ⟨⟨n, calling, rfl, ?_, ?_⟩, fun t run => ?_⟩
      · rcases place with ⟨-, -, -, -, -, -, alive, -⟩ | ⟨-, -, count⟩
        · rw [alive] at ended
          cases ended
        · rw [batches_eq_take sound, count]
      · refine List.Subperm.trans ?_ same.subperm
        rw [List.append_assoc]
        exact (List.sublist_append_left _ _).subperm
      · have still : Ended sqlite s t := Machine.Run.keeps
          (fun _ _ _ stepped _ after => after.step (does_of_step stepped)) run
          ⟨ended, closed, rfl, rfl, [], (List.append_nil _).symm, by simp⟩
        exact ⟨still.history, still.store, still.answered⟩

/-- Here one batch was accepted too late. -/
theorem ends_having_run_site : ∃ (t : Database siteKinds) (n : Nat)
    (calling : List (Batch siteKinds)), t.accepted = [siteBatch 2, siteBatch 3] ∧
    batches t.history = [siteBatch 2] ∧ t.stopped = some (n, calling) ∧
    batches t.history = t.accepted.take n ∧ (t.accepted.drop n).Subperm calling := by
  obtain ⟨t, reached, off, accepted, -, -, ran⟩ := site_closes
  obtain ⟨⟨n, calling, stopped, whole, late⟩, -⟩ := ends_having_run reached (.inr off)
  exact ⟨t, n, calling, accepted, ran, stopped, whole, late⟩

end Py20305.HistoryDatabase
