import Mathlib.Data.List.Forall2
import Py20305.History.Database
import Py20305.History.Energy
import Py20305.History.Query

/-!
The threads and the database of the interval history.

The interval history takes its database one operation at a time: a batch is queued, the writer takes
it, runs it, and a read sees the table (`Intervals.Database`). As long as the database is open the
threads of `HistoryDatabase` do nothing else, whatever they have in between (`threads_refine`), and
the interval history asks for nothing else (`queries_refine`).

A prune that a caller asks for is left out: it is asked for when the history is opened.
-/

namespace Py20305.Intervals

/-! ### One operation at a time -/

/-- The database of one table, with the reads of it: the number of the last batch and the table. -/
structure Tabled where
  db : Database
  reads : List (ℕ × Dict Key Sums) := []

inductive TableStep where
  | queues (rows : List Row)
  | takes
  | runs (fails : Bool) (cutoff : Option ℚ)
  | reads

def Tabled.step (d : Tabled) : TableStep → Tabled
  | .queues rows => { d with db := (d.db.queueBatch rows).2 }
  | .takes => { d with db := d.db.take }
  | .runs fails cutoff => { d with db := d.db.runBatch fails cutoff }
  | .reads => { d with reads := d.reads ++ [(d.db.written, d.db.table)] }

def tableMachine : Machine := ⟨Tabled, TableStep, fun l d => some (d.step l)⟩

theorem Tabled.runs_step (d : Tabled) (l : TableStep) :
    tableMachine.Run Machine.Free d (d.step l) :=
  .step (M := tableMachine) l (.refl (M := tableMachine) d) rfl trivial

section History

variable {s : Settings} {h h' : History} {reads : List (ℕ × Dict Key Sums)}

theorem write_refines (same : h'.db = h.db) (done : List (Key × Bucket)) :
    tableMachine.Run Machine.Free ⟨h.db, reads⟩ ⟨(h'.write done).db, reads⟩ := by
  by_cases nothing : done = []
  · subst nothing
    rw [← same]
    exact .refl (M := tableMachine) _
  · rw [db_write h' done nothing, same]
    exact Tabled.runs_step ⟨h.db, reads⟩ (.queues (done.map Bucket.row))

theorem step_refines (x : Step) (open_ : x ≠ .close) :
    tableMachine.Run Machine.Free ⟨h.db, reads⟩ ⟨(h.step s x).db, reads⟩ := by
  have same : tableMachine.Run Machine.Free ⟨h.db, reads⟩ ⟨h.db, reads⟩ :=
    .refl (M := tableMachine) _
  cases x with
  | observe lfdi t w var =>
      simp only [History.step, History.observe]
      split
      · exact same
      · simp only [History.flushBefore]
        refine write_refines (h := h) ?_ _
        rfl
  | observeAvailability lfdi t wAvail => exact same
  | interrupt lfdi => exact same
  | flush =>
      simp only [History.step, History.flush]
      refine write_refines (h := h) ?_ _
      rfl
  | queueOther => exact Tabled.runs_step ⟨h.db, reads⟩ (.queues [])
  | take => exact Tabled.runs_step ⟨h.db, reads⟩ .takes
  | runBatch fails cutoff => exact Tabled.runs_step ⟨h.db, reads⟩ (.runs fails cutoff)
  | close => exact absurd rfl open_

/-- What a call has read is what the table held at a read. -/
def ReadOf (reads : List (ℕ × Dict Key Sums)) (c : Call) : Prop :=
  ∀ q rest rows whole through, c.rest = q :: rest → c.stage = .read rows whole through →
    ∃ table, (through, table) ∈ reads ∧ rows = q.rows table

theorem ReadOf.of_stage {c : Call} (other : ∀ rows whole through, c.stage ≠ .read rows whole through) :
    ReadOf reads c :=
  fun _ _ rows whole through _ stage => absurd stage (other rows whole through)

end History

/-- A query waits for the interval of a device, which was flushed before, and reads it; another
reading comes in meanwhile. -/
def flushedBefore : List Label :=
  [.history (.observe "a1" 0 (.int 5) .missing), .history (.observe "a1" 60 (.int 7) .missing),
    .history .flush, .copy (.query (some "a1") none none 5), .drain, .history .take,
    .history (.observe "a1" 120 (.int 9) .missing), .history (.runBatch false none), .read]

def Stage.through? : Stage → Option ℕ
  | .read _ _ through => some through
  | _ => none

instance (s : Settings) (w : (queries s).State) (l : (queries s).Label) (t : (queries s).State) :
    Decidable (Machine.Into (fun w : World => w.history.db.closed = false) w l t) :=
  inferInstanceAs (Decidable ((World.history t).db.closed = false))

end Py20305.Intervals

namespace Py20305.HistoryDatabase

open Intervals (Key Row Sums upsert Tabled TableStep tableMachine)

/-- What SQLite does with a table of intervals: a batch adds its rows, or those of another table, and
a deletion takes out what starts before its time. -/
structure Keeps {K : Kinds} (sqlite : Sqlite K) (view : K.Contents → Dict Key Sums)
    (rowsOf : Batch K → List Row) (table : String × String) : Prop where
  execute : ∀ (batch : Batch K) contents after,
    sqlite.execute batch.sql batch.rows contents = some after →
      view after = (rowsOf batch).foldl upsert (view contents)
  delete : ∀ (named : String × String) cutoff contents after,
    sqlite.delete named.1 named.2 cutoff contents = some after →
      view after = if named = table then (view contents).filter fun k _ => decide (cutoff ≤ k.2)
        else view contents

def Request.isQuery {K : Kinds} : Request K → Bool
  | .query _ => true
  | .prune _ => false

/-- The database is open, and no thread is about to prune it. -/
def Open {K : Kinds} (s : Database K) : Prop :=
  s.closed = false ∧ ∀ r ∈ s.readers, r.request.isQuery = true

instance decidableOpen {K : Kinds} (s : Database K) : Decidable (Open s) :=
  inferInstanceAs (Decidable (_ ∧ _))

section Refinement

variable {K : Kinds} {sqlite : Sqlite K} {aged : List (String × String)} {retention : ℚ}
variable {view : K.Contents → Dict Key Sums} {rowsOf : Batch K → List Row}
variable {table : String × String} {store : Store K} {s t : Database K} {d : Tabled}

theorem filter_twice (rows : Dict Key Sums) (p : Key → Sums → Bool) :
    (rows.filter p).filter p = rows.filter p :=
  Dict.eq_of_entries (by simp [Dict.filter])

/-- A prune takes out what is too old, unless the statement for the table failed. -/
theorem view_prune (keeps : Keeps sqlite view rowsOf table) (cutoff : ℚ) (s : Store K) :
    view (aged.foldl (Store.pruneTable sqlite cutoff) s).contents = view s.contents ∨
      view (aged.foldl (Store.pruneTable sqlite cutoff) s).contents =
        (view s.contents).filter fun k _ => decide (cutoff ≤ k.2) := by
  induction aged generalizing s with
  | nil => exact .inl rfl
  | cons named rest ih =>
      rw [List.foldl_cons]
      cases deleted : sqlite.delete named.1 named.2 cutoff s.contents with
      | none =>
          have same : s.pruneTable sqlite cutoff named = s.failed named.1 := by
            rw [Store.pruneTable, deleted]
          rw [same]
          exact ih (s.failed named.1)
      | some after =>
          have same : s.pruneTable sqlite cutoff named = { s with contents := after } := by
            rw [Store.pruneTable, deleted]
          have seen := keeps.delete named cutoff s.contents after deleted
          rw [same]
          split at seen
          · have later := ih { s with contents := after }
            simp only [seen, filter_twice, or_self] at later
            exact .inr later
          · simpa only [seen] using ih { s with contents := after }

/-- A batch that the writer runs is run in one of the ways that `Intervals.Database` allows. -/
theorem view_runBatch (aged : List (String × String)) (retention : ℚ)
    (keeps : Keeps sqlite view rowsOf table) (s : Store K) (batch : Batch K) (now : ℚ) :
    ∃ fails cutoff, ∀ db : Intervals.Database, db.written < db.taken →
      db.accepted[db.written]? = some (rowsOf batch) → db.table = view s.contents →
      (db.runBatch fails cutoff).table =
        view (s.runBatch sqlite aged retention batch now).contents := by
  cases executed : sqlite.execute batch.sql batch.rows s.contents with
  | none =>
      refine ⟨true, none, fun db running listed same => ?_⟩
      rw [Store.runBatch, executed, Intervals.Database.runBatch, if_pos running]
      exact same
  | some after =>
      have added := keeps.execute batch s.contents after executed
      have pruned : view (Store.pruneIfDue sqlite aged retention { s with contents := after }
            now).contents = view after ∨
          view (Store.pruneIfDue sqlite aged retention { s with contents := after }
            now).contents = (view after).filter fun k _ => decide (now - retention ≤ k.2) := by
        unfold Store.pruneIfDue
        split
        · exact view_prune keeps (now - retention) { s with contents := after, lastPrune := now }
        · exact .inl rfl
      rcases pruned with pruned | pruned
      · refine ⟨false, none, fun db running listed same => ?_⟩
        rw [Store.runBatch, executed, Intervals.Database.runBatch, if_pos running]
        simp only [listed, same, Option.getD_some, pruned, added, Bool.false_eq_true, if_false]
      · refine ⟨false, some (now - retention), fun db running listed same => ?_⟩
        rw [Store.runBatch, executed, Intervals.Database.runBatch, if_pos running]
        simp only [listed, same, Option.getD_some, pruned, added, Bool.false_eq_true, if_false]

/-- The table taken one operation at a time, where the threads are. -/
structure Shows (sqlite : Sqlite K) (view : K.Contents → Dict Key Sums)
    (rowsOf : Batch K → List Row) (s : Database K) (d : Tabled) : Prop where
  closed : d.db.closed = false
  accepted : d.db.accepted = s.accepted.map rowsOf
  taken : d.db.taken = s.written + s.writer.held.length
  written : d.db.written = s.written
  refused : d.db.refused = s.lost.flatMap rowsOf
  table : d.db.table = view s.store.contents
  reads : List.Forall₂ (fun a read => a.number = read.1 ∧ ∃ contents, view contents = read.2 ∧
    a.rows = sqlite.select a.query contents) s.answered d.reads

/-- While the database is open no `None` is on its way. -/
theorem Closing.clear (closing : Closing s) (closed : s.closed = false) :
    s.closer = .idle ∧ none ∉ s.queue ∧ s.writer ≠ .holding none := by
  have idle := closing.still closed
  obtain ⟨clear, writer, -⟩ := closing.running (closing.unstopped (.inl idle))
  exact ⟨idle, clear, writer⟩

theorem length_waiting {queue : List (Option (Batch K))} (clear : none ∉ queue) :
    (waiting queue).length = queue.length := by
  induction queue with
  | nil => rfl
  | cons item rest ih =>
      rw [List.mem_cons, not_or] at clear
      cases item with
      | none => exact absurd rfl clear.1
      | some batch => simpa [waiting] using ih clear.2

/-- As many batches wait as the threads have on their queue. -/
theorem Shows.room (shows : Shows sqlite view rowsOf s d)
    (sound : Sound sqlite aged retention store s) (clear : none ∉ s.queue) :
    d.db.queued - d.db.taken = s.queue.length := by
  rw [Intervals.Database.queued, shows.accepted, shows.taken, List.length_map, sound.order,
    sound.written, List.length_append, List.length_append, length_waiting clear]
  omega

theorem Shows.puts (shows : Shows sqlite view rowsOf s d)
    (sound : Sound sqlite aged retention store s) (clear : none ∉ s.queue) (batch : Batch K)
    (others : List (Batch K)) :
    Shows sqlite view rowsOf (s.puts batch others) (d.step (.queues (rowsOf batch))) := by
  have room := shows.room sound clear
  have bound : Intervals.maxPendingWrites = maxPendingWrites := rfl
  unfold Database.puts
  simp only [Tabled.step, Intervals.Database.queueBatch, shows.closed, Bool.false_eq_true, if_false,
    room, bound]
  split
  · exact { shows with closed := rfl, accepted := by simp [shows.accepted] }
  · exact { shows with closed := rfl, refused := by simp [shows.refused] }

theorem Shows.takes (shows : Shows sqlite view rowsOf s d)
    (sound : Sound sqlite aged retention store s) {batch : Batch K}
    {rest : List (Option (Batch K))} (gets : s.writer = .getting)
    (first : s.queue = some batch :: rest) :
    Shows sqlite view rowsOf { s with queue := rest, writer := .holding (some batch) }
      (d.step .takes) := by
  have taken : d.db.taken = d.db.written := by
    rw [shows.taken, shows.written, gets]
    rfl
  have more : d.db.taken < d.db.queued := by
    rw [taken, shows.written, Intervals.Database.queued, shows.accepted, List.length_map,
      sound.order, sound.written, first]
    simp [waiting]
  simp only [Tabled.step, Intervals.Database.take, if_pos (And.intro taken more)]
  exact { shows with
    taken := by simp only [taken, shows.written, Writer.held, List.length_singleton] }

theorem Shows.runs (keeps : Keeps sqlite view rowsOf table) (shows : Shows sqlite view rowsOf s d)
    (sound : Sound sqlite aged retention store s) {batch : Batch K}
    (holds : s.writer = .holding (some batch)) (now : ℚ) : ∃ l,
    Shows sqlite view rowsOf (s.runs sqlite aged retention batch now) (d.step l) := by
  obtain ⟨fails, cutoff, runs⟩ :=
    view_runBatch aged retention keeps s.store batch now
  have running : d.db.written < d.db.taken := by
    rw [shows.written, shows.taken, holds]
    exact Nat.lt_succ_self _
  have listed : d.db.accepted[d.db.written]? = some (rowsOf batch) := by
    rw [shows.accepted, shows.written, List.getElem?_map, sound.order, sound.written, holds]
    simp [Writer.held]
  refine ⟨.runs fails cutoff, ?_⟩
  have table := runs d.db running listed shows.table
  have rest : (d.db.runBatch fails cutoff).closed = false ∧
      (d.db.runBatch fails cutoff).accepted = d.db.accepted ∧
      (d.db.runBatch fails cutoff).taken = d.db.taken ∧
      (d.db.runBatch fails cutoff).written = d.db.written + 1 ∧
      (d.db.runBatch fails cutoff).refused = d.db.refused := by
    rw [Intervals.Database.runBatch, if_pos running]
    exact ⟨shows.closed, rfl, rfl, rfl, rfl⟩
  exact {
    closed := rest.1
    accepted := rest.2.1.trans shows.accepted
    taken := by
      rw [Tabled.step, rest.2.2.1, shows.taken, holds]
      rfl
    written := by
      rw [Tabled.step, rest.2.2.2.1, shows.written]
      rfl
    refused := rest.2.2.2.2.trans shows.refused
    table := table
    reads := shows.reads }

theorem Shows.answers (shows : Shows sqlite view rowsOf s d) (closed : s.closed = false)
    {r : Reader K} (asks : r.request.isQuery = true) (others : List (Reader K)) (now : ℚ) :
    Shows sqlite view rowsOf (s.answers sqlite aged retention r others now) (d.step .reads) := by
  unfold Database.answers
  split
  · refine { shows with reads := List.rel_append shows.reads (.cons ⟨?_, ?_⟩ .nil) }
    · exact shows.written.symm
    · refine ⟨s.store.contents, shows.table.symm, ?_⟩
      simp only [closed, Bool.false_eq_true, if_false]
  · rename_i given request
    rw [request] at asks
    cases asks

/-- A step of the threads is a step of the table, or none. -/
theorem Shows.step (keeps : Keeps sqlite view rowsOf table) (shows : Shows sqlite view rowsOf s d)
    (sound : Sound sqlite aged retention store s) (closing : Closing s) (before : Open s)
    (does : Does sqlite aged retention s t) (after : Open t) :
    ∃ e, tableMachine.Run Machine.Free d e ∧ Shows sqlite view rowsOf t e := by
  obtain ⟨idle, clear, writer⟩ := closing.clear before.1
  have same : tableMachine.Run Machine.Free d d := .refl (M := tableMachine) d
  cases does with
  | calls batch =>
      refine ⟨d, same, ?_⟩
      unfold Database.calls
      split <;> exact { shows with }
  | puts place batch listed =>
      exact ⟨_, d.runs_step _, shows.puts sound clear batch (s.calling.eraseIdx place)⟩
  | takes item rest gets first =>
      cases item with
      | none => exact absurd (first ▸ List.mem_cons_self) clear
      | some batch => exact ⟨_, d.runs_step _, shows.takes sound gets first⟩
  | runs batch now holds =>
      obtain ⟨l, runs⟩ := shows.runs keeps sound holds now
      exact ⟨_, d.runs_step l, runs⟩
  | exits holds => exact absurd holds writer
  | answers place r now listed done =>
      have asks := before.2 r (List.mem_of_getElem? listed)
      exact ⟨_, d.runs_step _, shows.answers before.1 asks (s.readers.eraseIdx place) now⟩
  | closes still => exact absurd after.1 (by simp)
  | putsStop deadline puts room =>
      rw [idle] at puts
      cases puts
  | givesUp deadline puts =>
      rw [idle] at puts
      cases puts
  | joins deadline joining ended =>
      rw [idle] at joining
      cases joining
  | leaves deadline joining =>
      rw [idle] at joining
      cases joining
  | _ => exact ⟨d, same, { shows with }⟩

end Refinement

/-! ### A table of intervals -/

abbrev tableKinds : Kinds := ⟨Dict Key Sums, Row, Unit, Dict Key Sums⟩

/-- `DEVICE_TABLE`, with its time column. -/
def deviceTable : String × String := ("device_intervals", "start")

def upsertSql : String := "INSERT INTO device_intervals VALUES (?, ?, ?) ON CONFLICT DO UPDATE"

def tableSqlite : Sqlite tableKinds where
  execute sql rows contents := if sql = upsertSql then some (rows.foldl upsert contents) else none
  delete named column cutoff contents :=
    if (named, column) = deviceTable then
      some (contents.filter fun k _ => decide (cutoff ≤ k.2))
    else none
  select _ contents := contents
  nothing := .empty

theorem tableSqlite_keeps : Keeps tableSqlite id Batch.rows deviceTable where
  execute batch contents after executed := by
    obtain ⟨-, same⟩ := Option.ite_none_right_eq_some.mp executed
    exact (Option.some.inj same).symm
  delete named cutoff contents after deleted := by
    obtain ⟨is, same⟩ := Option.ite_none_right_eq_some.mp deleted
    rw [if_pos is]
    exact (Option.some.inj same).symm

def tableBatch (start : ℚ) : Batch tableKinds :=
  ⟨"device_intervals", upsertSql, [(("ab", start), { coveredSeconds := 300, samples := 1 })]⟩

/-- A batch of another table comes in while a read waits; the read gets the first batch only. -/
def tableReading : List (Step tableKinds) :=
  [.calls (tableBatch 40000000), .puts 0, .asks (.query ()), .takes, .runs 40000000,
    .calls ⟨"events", "INSERT", []⟩, .puts 0, .answers 0 0, .takes, .runs 40000000]

theorem table_reads : ∃ s, (machine tableSqlite [deviceTable] 34560000).Run (Machine.Into Open)
      (fresh { contents := .empty }) s ∧ s.written = 2 ∧ s.answered.map (·.number) = [1] :=
  ⟨_, @Machine.run_of_meeting (machine tableSqlite [deviceTable] 34560000) (Machine.Into Open) _ _
    (fun _ _ t => decidableOpen t) tableReading rfl, rfl, rfl⟩

/-- As long as the database is open and nobody asks for a prune, whatever the threads do is what the
table does one operation at a time: the same batches are accepted, run and dropped, and every read
gets what the table held at some point, with the number of the batch before it. -/
theorem threads_refine {K : Kinds} {sqlite : Sqlite K} {aged : List (String × String)}
    {retention : ℚ} {view : K.Contents → Dict Key Sums} {rowsOf : Batch K → List Row}
    {table : String × String} {store : Store K} {s : Database K}
    (keeps : Keeps sqlite view rowsOf table)
    (run : (machine sqlite aged retention).Run (Machine.Into Open) (fresh store) s) :
    ∃ d, tableMachine.Run Machine.Free ⟨{ table := view store.contents }, []⟩ d ∧
      Shows sqlite view rowsOf s d := by
  have all : (Sound sqlite aged retention store s ∧ Closing s ∧ Open s) ∧
      ∃ d, tableMachine.Run Machine.Free ⟨{ table := view store.contents }, []⟩ d ∧
        Shows sqlite view rowsOf s d := by
    refine Machine.Run.keeps (P := fun s : Database K =>
      (Sound sqlite aged retention store s ∧ Closing s ∧ Open s) ∧
        ∃ d, tableMachine.Run Machine.Free ⟨{ table := view store.contents }, []⟩ d ∧
          Shows sqlite view rowsOf s d) (fun l s t stepped after all => ?_) run
      ⟨⟨sound_fresh store, closing_fresh store, rfl, by simp [fresh]⟩, _,
        .refl (M := tableMachine) _, rfl, rfl, rfl, rfl, rfl, rfl, .nil⟩
    obtain ⟨⟨sound, closing, before⟩, d, earlier, shows⟩ := all
    have does := does_of_step stepped
    obtain ⟨e, later, shown⟩ := shows.step keeps sound closing before does after
    exact ⟨⟨sound.step does, closing.step sound does, after⟩, e, earlier.trans later, shown⟩
  exact all.2

theorem threads_refine_device : ∃ s d, s.written = 2 ∧ s.answered.map (·.number) = [1] ∧
    tableMachine.Run Machine.Free ⟨{}, []⟩ d ∧ Shows tableSqlite id Batch.rows s d := by
  obtain ⟨s, run, written, numbers⟩ := table_reads
  obtain ⟨d, steps, shows⟩ := threads_refine tableSqlite_keeps run
  exact ⟨s, d, written, numbers, steps, shows⟩

end Py20305.HistoryDatabase
