import Mathlib.Data.Prod.Lex
import Mathlib.Data.String.Basic
import Py20305.History.Intervals
import Py20305.Lib.Machine

/-!
Interval queries against recorders and the writer thread.

A query copies the unfinished intervals, waits for the batches queued by then, reads
the database and adds the copies the read does not include. Each of these is a step of
its own, and the recorders and the writer take theirs in between.
-/

namespace Py20305.Intervals

/-! ### Calls -/

/-- The rows a read asks for: its clauses and its limit. -/
structure Selection where
  keep : Key → Bool
  limit : Option ℕ

/-- The order of the rows of a query: by start, then by LFDI. -/
def rowOrder (a b : Row) : Bool := decide (toLex (a.1.2, a.1.1) ≤ toLex (b.1.2, b.1.1))

/-- The rows a read returns. -/
def Selection.rows (q : Selection) (table : Dict Key Sums) : List Row :=
  let rows := table.entries.filter fun r => q.keep r.1
  match q.limit with
  | none => rows
  | some n => (rows.mergeSort rowOrder).take n

/-- What is asked of the history: `query` with its filters, or `_at`. -/
inductive Request where
  | query (lfdi : Option String) (since until_ : Option ℚ) (limit : ℤ)
  | starts (wanted : List ℚ) (lfdi : Option String)
  deriving DecidableEq

/-- A device clause. -/
def onlyDevice (lfdi : Option String) (k : Key) : Bool :=
  match lfdi with
  | none => true
  | some l => decide (k.1 = l.toLower)

/-- The intervals a call asks for. -/
def Request.keep (s : Settings) : Request → Key → Bool
  | .query lfdi since until_ _, k =>
      onlyDevice lfdi k && (since.all fun t => decide (s.floor t ≤ k.2)) &&
        until_.all fun t => decide (k.2 < t)
  | .starts wanted lfdi, k => onlyDevice lfdi k && decide (k.2 ∈ wanted)

/-- `_BATCH`. -/
def batchSize : ℕ := 500

/-- The list in slices of `size`, for at most so many slices. -/
def slices {α : Type} (size : ℕ) : ℕ → List α → List (List α)
  | 0, _ => []
  | turns + 1, xs =>
      if xs.isEmpty then [] else xs.take size :: slices size turns (xs.drop size)

/-- How many rows a call is limited to, where it is. -/
def Request.limit : Request → Option ℕ
  | .query _ _ _ limit => some (max 1 limit).toNat
  | .starts _ _ => none

/-- The reads a call makes, one after the other. -/
def Request.reads (s : Settings) : Request → List Selection
  | .query lfdi since until_ limit =>
      [⟨(Request.query lfdi since until_ limit).keep s, (Request.query lfdi since until_ limit).limit⟩]
  | .starts wanted lfdi =>
      let ordered := wanted.dedup.mergeSort fun a b => decide (a ≤ b)
      (slices batchSize ordered.length ordered).map fun batch =>
        ⟨fun k => onlyDevice lfdi k && decide (k.2 ∈ batch), none⟩

/-- A row as it is returned. -/
structure Presented where
  lfdi : String
  start : ℚ
  stop : ℚ
  seconds : ℕ
  coveredSeconds : ℚ
  samples : ℕ
  wAvg : Option ℚ
  wMin : Option ℚ
  wMax : Option ℚ
  whPositive : ℚ
  whNegative : ℚ
  varAvg : Option ℚ
  varhPositive : ℚ
  varhNegative : ℚ
  wAvailAvg : Option ℚ
  whCurtailed : Option ℚ
  deriving DecidableEq

/-- `a / b`, where `b` is not zero. -/
def over? (a b : ℚ) : Option ℚ := if b = 0 then none else some (a / b)

def present (s : Settings) (row : Row) : Presented where
  lfdi := row.1.1
  start := row.1.2
  stop := row.1.2 + s.intervalSeconds
  seconds := s.intervalSeconds
  coveredSeconds := row.2.coveredSeconds
  samples := row.2.samples
  wAvg := over? (row.2.wsPositive + row.2.wsNegative) row.2.coveredSeconds
  wMin := row.2.wMin
  wMax := row.2.wMax
  whPositive := row.2.wsPositive / 3600
  whNegative := row.2.wsNegative / 3600
  varAvg := over? (row.2.varsPositive + row.2.varsNegative) row.2.varSeconds
  varhPositive := row.2.varsPositive / 3600
  varhNegative := row.2.varsNegative / 3600
  wAvailAvg := over? row.2.availWs row.2.availSeconds
  whCurtailed := if row.2.curtailSeconds = 0 then none else some (row.2.curtailedWs / 3600)

/-- What a call returns, of the rows its reads and copies came to. -/
def Request.answer (s : Settings) (request : Request) (rows : List Row) : List Presented :=
  match request.limit with
  | some m => ((rows.mergeSort rowOrder).take m).map (present s)
  | none => rows.map (present s)

/-- `_pending`: copy the unfinished intervals that are asked for, each with its bucket. -/
def History.pending (h : History) (keep : Key → Bool) : List (Key × Bucket) :=
  h.openBuckets.filter fun e => keep e.1

/-- A copied bucket that was not written in a batch the read includes. -/
def History.lacks (h : History) (through : ℕ) (e : Key × Bucket) : Bool :=
  match h.batches.get? (e.1, e.2.opened) with
  | none => true
  | some n => decide (through < n)

def History.unwritten (h : History) (copies : List (Key × Bucket)) (through : ℕ) :
    List (Key × Bucket) :=
  copies.filter (h.lacks through)

/-- Rows keyed by device and start. -/
def keyedRows (rows : List Row) : Dict Key Sums :=
  rows.foldl (fun d r => d.set r.1 r.2) Dict.empty

/-- `_merge`: the rows, and the copies they lack. -/
def History.merge (h : History) (rows : List Row) (copies : List (Key × Bucket))
    (through : ℕ) : List Row :=
  ((h.unwritten copies through).foldl (fun d e => upsert d (e.1, e.2.sums))
    (keyedRows rows)).entries

/-! ### Interleavings -/

/-- Where a call is with the read at work. -/
inductive Stage where
  | copied
  | waiting (target : ℕ)
  | read (rows whole : List Row) (through : ℕ)

structure Call where
  request : Request
  copies : List (Key × Bucket)
  /-- How much had been recorded when the copies were taken. -/
  mark : ℕ
  /-- The reads still to be made, the one at work first. -/
  rest : List Selection
  stage : Stage
  out : List Row
  /-- What the rows would be were no read limited. -/
  whole : List Row

structure World where
  history : History
  /-- Everything recorded, in order. -/
  log : List Row
  call : Option Call

inductive Label where
  | history (x : Step)
  | copy (request : Request)
  | drain
  | read
  | merge

/-- The next step of a call: set what to wait for, read, merge. -/
def Call.drain (c : Call) (h : History) : Option Call :=
  match c.rest, c.stage with
  | _ :: _, .copied => some { c with stage := .waiting h.db.queued }
  | _, _ => none

def Call.read (c : Call) (h : History) : Option Call :=
  match c.rest, c.stage with
  | q :: _, .waiting target =>
      if target ≤ h.db.written then
        let table := if h.db.closed then Dict.empty else h.db.table
        some { c with
          stage := .read (q.rows table) ({ q with limit := none }.rows table) h.db.written }
      else none
  | _, _ => none

def Call.merge (c : Call) (h : History) : Option Call :=
  match c.rest, c.stage with
  | q :: rest, .read rows whole through =>
      let copies := c.copies.filter fun e => q.keep e.1
      some { c with
        rest := rest
        stage := .copied
        out := c.out ++ h.merge rows copies through
        whole := c.whole ++ h.merge whole copies through }
  | _, _ => none

/-- The recorders, the writer and one call, taking turns. -/
def queries (s : Settings) : Machine where
  State := World
  Label := Label
  step
    | .history x, w =>
        some { w with history := w.history.step s x, log := w.log ++ w.history.recorded s x }
    | .copy request, w =>
        match w.call with
        | some _ => none
        | none =>
            some { w with
              call := some
                { request := request
                  copies := w.history.pending (request.keep s)
                  mark := w.log.length
                  rest := request.reads s
                  stage := .copied
                  out := []
                  whole := [] } }
    | .drain, w =>
        (w.call.bind fun c => c.drain w.history).map fun c => { w with call := some c }
    | .read, w => (w.call.bind fun c => c.read w.history).map fun c => { w with call := some c }
    | .merge, w =>
        (w.call.bind fun c => c.merge w.history).map fun c => { w with call := some c }

/-- No batch fails, and nothing is pruned or closed. -/
def Label.lossless : Label → Bool
  | .history (.runBatch fails cutoff) => !fails && cutoff.isNone
  | .history .close => false
  | _ => true

/-- No batch fails or is dropped, and nothing is pruned. -/
def Lossless (_ : World) (l : Label) (w : World) : Prop :=
  l.lossless = true ∧ w.history.db.refused = []

instance (s : Settings) (t : (queries s).State) (l : (queries s).Label)
    (w : (queries s).State) : Decidable (Lossless t l w) :=
  inferInstanceAs (Decidable (_ ∧ _))

/-- A history whose table was stored before it began. -/
def World.start (stored : Dict Key Sums) : World where
  history := { db := { table := stored } }
  log := stored.entries
  call := none

end Py20305.Intervals
