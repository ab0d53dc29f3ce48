import Mathlib.Tactic.Linarith
import Mathlib.Algebra.Order.Field.Rat
import Mathlib.Data.Rat.Cast.Order
import Py20305.Lib.Dict
import Py20305.Lib.Machine

/-!
The server timebase (`client/timebase.py`).

Observations of Time resources, reads and steps of the two local clocks come in any order. Main
results: a read does not use an older observation than it has to (`resolve_fresh`), answers with
the server's time while the wall clock is not stepped (`serverNow_steady`), warns at most once of a
scope that has gone stale (`warns_once`), and where it reads from does not depend on the wall clock
(`wall_irrelevant`).

Left out: the texts of the warnings, and the rounding in them and in the snapshot.
-/

namespace Py20305.Timebase

/-! ### Observations -/

structure TimeObservation where
  offset : ℚ
  receiptEpoch : ℚ
  quality : Int
  href : String
  receiptMonotonic : Option ℚ := none
  deriving DecidableEq, Repr

/-- `time.monotonic()` and `time.time()`. -/
structure Clocks where
  monotonic : ℚ := 0
  wall : ℚ := 0
  deriving DecidableEq, Repr

/-- `_age_seconds`. -/
def ageSeconds (clocks : Clocks) (obs : TimeObservation) : ℚ :=
  match obs.receiptMonotonic with
  | some receipt => max 0 (clocks.monotonic - receipt)
  | none => max 0 (clocks.wall - obs.receiptEpoch)

/-- `_is_newer`. -/
def isNewer (candidate other : TimeObservation) : Bool :=
  match candidate.receiptMonotonic, other.receiptMonotonic with
  | some c, some o => decide (o < c)
  | _, _ => decide (other.receiptEpoch < candidate.receiptEpoch)

def fsaStaleFloorSeconds : ℚ := 3600

def fsaStalePollMultiple : Int := 3

structure ServerTimebase where
  enabled : Bool := true
  driftWarnSeconds : Int := 30
  fsaStaleOverride : Option ℚ := none
  fsaStaleDerived : ℚ := fsaStaleFloorSeconds
  global : Option TimeObservation := none
  perFsa : Dict String TimeObservation := .empty
  reportedStale : List String := []

/-- What is reported. -/
inductive Warning where
  | drift (scope : String) (offset : ℚ) (quality : Int) (href : String)
  | stale (fsaHref : String) (age threshold : ℚ) (href : String)
  deriving DecidableEq, Repr

namespace ServerTimebase

variable (tb : ServerTimebase) (clocks : Clocks)

def fsaStaleSeconds : ℚ := tb.fsaStaleOverride.getD tb.fsaStaleDerived

def noteTimePollRate (pollRateSeconds : Option Int) : ServerTimebase :=
  match pollRateSeconds with
  | some rate =>
      if 0 < rate then
        { tb with fsaStaleDerived := max fsaStaleFloorSeconds (fsaStalePollMultiple * rate) }
      else tb
  | none => tb

def forgetFsa (fsaHref : String) : ServerTimebase :=
  { tb with
    perFsa := tb.perFsa.erase fsaHref
    reportedStale := tb.reportedStale.filter (· ≠ fsaHref) }

/-- The observation made of what a Time resource says now. -/
def observation (serverTime : Int) (quality : Int) (href : String) : TimeObservation where
  offset := serverTime - clocks.wall
  receiptEpoch := clocks.wall
  quality := quality
  href := href
  receiptMonotonic := some clocks.monotonic

/-- What is kept of an observation. -/
def keep (fsaHref : Option String) (obs : TimeObservation) : ServerTimebase :=
  match fsaHref with
  | none => { tb with global := some obs }
  | some href =>
      { tb with
        perFsa := tb.perFsa.set href obs
        reportedStale := tb.reportedStale.filter (· ≠ href) }

/-- `fsa_href or "global"`. -/
def driftScope : Option String → String
  | none => "global"
  | some href => if href = "" then "global" else href

/-- The warning of a clock that drifts. -/
def driftWarning (fsaHref : Option String) (obs : TimeObservation) : Option Warning :=
  if 0 < tb.driftWarnSeconds ∧ (tb.driftWarnSeconds : ℚ) ≤ |obs.offset| then
    some (.drift (driftScope fsaHref) obs.offset obs.quality obs.href)
  else none

/-- `_yields_to_global`. -/
def yieldsToGlobal (own : TimeObservation) : Bool :=
  match tb.global with
  | none => false
  | some other => tb.fsaStaleSeconds < ageSeconds clocks own && isNewer other own

/-- `_report_stale_fallback`. -/
def reportStaleFallback (fsaHref : String) (own : TimeObservation) :
    ServerTimebase × Option Warning :=
  if fsaHref ∈ tb.reportedStale then (tb, none)
  else
    ({ tb with reportedStale := fsaHref :: tb.reportedStale },
      some (.stale fsaHref (ageSeconds clocks own) tb.fsaStaleSeconds own.href))

/-- `_resolve`: the observation a scope reads, and what is reported. -/
def resolve (fsaHref : Option String) :
    Option TimeObservation × ServerTimebase × Option Warning :=
  match fsaHref with
  | none => (tb.global, tb, none)
  | some href =>
      match tb.perFsa.get? href with
      | none => (tb.global, tb, none)
      | some own =>
          if !tb.yieldsToGlobal clocks own then (some own, tb, none)
          else (tb.global, tb.reportStaleFallback clocks href own)

/-- `server_now`. -/
def serverNow (fsaHref : Option String) : Option ℚ :=
  (tb.resolve clocks fsaHref).1.map fun obs => clocks.wall + obs.offset

/-- `offset`. -/
def offset (fsaHref : Option String) : ℚ :=
  if !tb.enabled then 0
  else ((tb.resolve clocks fsaHref).1.map TimeObservation.offset).getD 0

/-- `now`. -/
def now (fsaHref : Option String) : ℚ := clocks.wall + tb.offset clocks fsaHref

/-- The observation of a scope itself. -/
def scope : Option String → Option TimeObservation
  | none => tb.global
  | some href => tb.perFsa.get? href

end ServerTimebase

/-! ### Runs -/

/-- What has happened. -/
inductive Entry where
  /-- An observation, with the server's time and the monotonic time. -/
  | observed (fsaHref : Option String) (serverTime : Int) (at_ : ℚ)
  | forgot (fsaHref : String)
  | warned (warning : Warning)
  /-- A read of a scope: its own observation, and the one that was used. -/
  | read (fsaHref : Option String) (own used : Option TimeObservation)

structure World where
  timebase : ServerTimebase
  clocks : Clocks
  /-- What has happened, the newest first. -/
  log : List Entry := []

inductive Step where
  /-- `observe`. -/
  | observe (serverTime : Int) (fsaHref : Option String) (quality : Int) (href : String)
  | noteTimePollRate (pollRateSeconds : Option Int)
  | forgetFsa (fsaHref : String)
  /-- `offset`, and `now`. -/
  | offset (fsaHref : Option String)
  | serverNow (fsaHref : Option String)
  /-- Time passes, and the wall clock is wherever it is. -/
  | tick (elapsed wall : ℚ)
  deriving DecidableEq, Repr

namespace World

variable (w : World)

def warn (warning : Option Warning) : World :=
  { w with log := warning.toList.map Entry.warned ++ w.log }

/-- A scope is read. -/
def read (fsaHref : Option String) : World :=
  let (used, timebase, warning) := w.timebase.resolve w.clocks fsaHref
  let after := { w with timebase := timebase }.warn warning
  { after with log := .read fsaHref (w.timebase.scope fsaHref) used :: after.log }

def observe (serverTime : Int) (fsaHref : Option String) (quality : Int) (href : String) : World :=
  let obs := ServerTimebase.observation w.clocks serverTime quality href
  { w with
    timebase := w.timebase.keep fsaHref obs
    log := .observed fsaHref serverTime w.clocks.monotonic :: w.log }.warn
      (w.timebase.driftWarning fsaHref obs)

end World

/-- The timebase as a machine. -/
def machine : Machine where
  State := World
  Label := Step
  step
    | .observe serverTime fsaHref quality href, w =>
        some (w.observe serverTime fsaHref quality href)
    | .noteTimePollRate rate, w =>
        some { w with timebase := w.timebase.noteTimePollRate rate }
    | .forgetFsa fsaHref, w =>
        some { w with
          timebase := w.timebase.forgetFsa fsaHref
          log := .forgot fsaHref :: w.log }
    | .offset fsaHref, w => some (if w.timebase.enabled then w.read fsaHref else w)
    | .serverNow fsaHref, w => some (w.read fsaHref)
    | .tick elapsed wall, w =>
        if 0 ≤ elapsed then
          some { w with clocks := ⟨w.clocks.monotonic + elapsed, wall⟩ }
        else none

/-- A timebase that has just been made. -/
structure Fresh (w : World) : Prop where
  global : w.timebase.global = none
  perFsa : w.timebase.perFsa = .empty
  reportedStale : w.timebase.reportedStale = []
  log : w.log = []

/-! ### What the log says -/

/-- The last observation of a scope that has not been forgotten: the server's time, and the
monotonic time then. -/
def lastObserved (fsaHref : Option String) : List Entry → Option (Int × ℚ)
  | [] => none
  | .observed scope serverTime at_ :: earlier =>
      if scope = fsaHref then some (serverTime, at_) else lastObserved fsaHref earlier
  | .forgot scope :: earlier =>
      if some scope = fsaHref then none else lastObserved fsaHref earlier
  | .warned _ :: earlier => lastObserved fsaHref earlier
  | .read _ _ _ :: earlier => lastObserved fsaHref earlier

/-- The warnings that a scope is stale, since it was last observed or forgotten. -/
def warnings (fsaHref : String) : List Entry → Nat
  | [] => 0
  | .observed scope _ _ :: earlier =>
      if scope = some fsaHref then 0 else warnings fsaHref earlier
  | .forgot scope :: earlier => if scope = fsaHref then 0 else warnings fsaHref earlier
  | .warned (.stale scope _ _ _) :: earlier =>
      warnings fsaHref earlier + if scope = fsaHref then 1 else 0
  | .warned (.drift _ _ _ _) :: earlier => warnings fsaHref earlier
  | .read _ _ _ :: earlier => warnings fsaHref earlier

/-- Of each scope there is one warning from one observation to the next, and no read uses another
observation than the scope's own before it. -/
def Told : List Entry → Prop
  | [] => True
  | .warned (.stale scope _ _ _) :: earlier => warnings scope earlier = 0 ∧ Told earlier
  | .warned (.drift _ _ _ _) :: earlier => Told earlier
  | .read (some scope) own used :: earlier =>
      (own ≠ none → used ≠ own → warnings scope earlier = 1) ∧ Told earlier
  | .read none _ _ :: earlier => Told earlier
  | .observed _ _ _ :: earlier => Told earlier
  | .forgot _ :: earlier => Told earlier

/-- The timebase holds what the log says. -/
structure Kept (w : World) : Prop where
  held : ∀ scope, (w.timebase.scope scope).map (fun o => (o.offset + o.receiptEpoch,
    o.receiptMonotonic)) = (lastObserved scope w.log).map fun x => ((x.1 : ℚ), some x.2)
  past : ∀ scope x, lastObserved scope w.log = some x → x.2 ≤ w.clocks.monotonic
  counts : ∀ scope, warnings scope w.log = if scope ∈ w.timebase.reportedStale then 1 else 0
  told : Told w.log

section Steps

variable {w v : World}

theorem Fresh.kept (fresh : Fresh w) : Kept w := by
  refine ⟨fun scope => ?_, fun scope x => ?_, fun scope => ?_, ?_⟩
  · rw [fresh.log]
    cases scope with
    | none => rw [ServerTimebase.scope, fresh.global]; rfl
    | some href => rw [ServerTimebase.scope, fresh.perFsa]; rfl
  · rw [fresh.log]
    exact fun found => by cases found
  · rw [fresh.log, fresh.reportedStale]
    rfl
  · rw [fresh.log]
    trivial

theorem scope_keep (tb : ServerTimebase) (fsaHref scope : Option String) (obs : TimeObservation) :
    (tb.keep fsaHref obs).scope scope =
      if fsaHref = scope then some obs else tb.scope scope := by
  cases fsaHref with
  | none =>
      cases scope with
      | none => rfl
      | some s => rfl
  | some href =>
      cases scope with
      | none => rfl
      | some s =>
          rw [ServerTimebase.keep, ServerTimebase.scope, Dict.get?_set]
          by_cases same : s = href
          · simp [same]
          · rw [if_neg same, if_neg fun equal => same (Option.some.inj equal).symm]
            rfl

theorem scope_forgetFsa (tb : ServerTimebase) (href : String) (scope : Option String) :
    (tb.forgetFsa href).scope scope = if some href = scope then none else tb.scope scope := by
  cases scope with
  | none => rfl
  | some s =>
      rw [ServerTimebase.forgetFsa, ServerTimebase.scope, Dict.get?_erase]
      by_cases same : s = href
      · simp [same]
      · rw [if_neg same, if_neg fun equal => same (Option.some.inj equal).symm]
        rfl

/-- A warning that the clock drifts does not matter. -/
theorem Kept.driftWarned (kept : Kept w) (tb : ServerTimebase) (fsaHref : Option String)
    (obs : TimeObservation) : Kept (w.warn (tb.driftWarning fsaHref obs)) := by
  unfold ServerTimebase.driftWarning
  split
  · exact ⟨kept.held, kept.past, kept.counts, kept.told⟩
  · exact kept

theorem Kept.observe (kept : Kept w) (serverTime : Int) (fsaHref : Option String) (quality : Int)
    (href : String) : Kept (w.observe serverTime fsaHref quality href) := by
  refine Kept.driftWarned ⟨fun scope => ?_, fun scope x found => ?_, fun scope => ?_, ?_⟩ _ _ _
  · rw [scope_keep, lastObserved]
    split
    · simp [ServerTimebase.observation]
    · exact kept.held scope
  · rw [lastObserved] at found
    split at found
    · cases found
      exact le_rfl
    · exact kept.past scope x found
  · rw [warnings]
    have before := kept.counts scope
    cases fsaHref with
    | none =>
        rw [if_neg (by simp)]
        exact before
    | some renewed =>
        by_cases same : renewed = scope
        · subst same
          simp [ServerTimebase.keep]
        · rw [if_neg fun equal => same (Option.some.inj equal), before]
          simp [ServerTimebase.keep, Ne.symm same]
  · exact kept.told

theorem Kept.forgetFsa (kept : Kept w) (href : String) :
    Kept { w with timebase := w.timebase.forgetFsa href, log := .forgot href :: w.log } := by
  refine ⟨fun scope => ?_, fun scope x found => ?_, fun scope => ?_, kept.told⟩
  · rw [scope_forgetFsa, lastObserved]
    split
    · rfl
    · exact kept.held scope
  · rw [lastObserved] at found
    split at found
    · cases found
    · exact kept.past scope x found
  · rw [warnings]
    by_cases same : href = scope
    · subst same
      simp [ServerTimebase.forgetFsa]
    · rw [if_neg same, kept.counts scope]
      simp [ServerTimebase.forgetFsa, Ne.symm same]

/-- A scope reads its own observation if it has one, else the global one; or its own has gone stale,
and it falls back. -/
theorem resolve_cases (tb : ServerTimebase) (clocks : Clocks) (scope : Option String) :
    (tb.resolve clocks scope = ((tb.scope scope).or tb.global, tb, none) ∧
      ∀ href own, scope = some href → tb.scope scope = some own →
        tb.yieldsToGlobal clocks own = false) ∨
    ∃ href own, scope = some href ∧ tb.scope scope = some own ∧
      tb.yieldsToGlobal clocks own = true ∧
      tb.resolve clocks scope = (tb.global, tb.reportStaleFallback clocks href own) := by
  cases scope with
  | none =>
      refine .inl ⟨?_, fun _ _ none_ => by cases none_⟩
      rw [ServerTimebase.resolve, ServerTimebase.scope, Option.or_self]
  | some href =>
      rw [ServerTimebase.resolve, ServerTimebase.scope]
      cases found : tb.perFsa.get? href with
      | none => exact .inl ⟨by rw [Option.none_or], fun _ _ _ some_ => by cases some_⟩
      | some own =>
          cases yields : tb.yieldsToGlobal clocks own with
          | false =>
              refine .inl ⟨by simp [yields], ?_⟩
              rintro _ _ - ⟨rfl⟩
              exact yields
          | true => exact .inr ⟨href, own, rfl, rfl, yields, by simp [yields]⟩

/-- An observation that yields is not the global one. -/
theorem global_ne_of_yields {tb : ServerTimebase} {clocks : Clocks} {own : TimeObservation}
    (yields : tb.yieldsToGlobal clocks own = true) : ∃ other, tb.global = some other ∧
      isNewer other own = true ∧ tb.fsaStaleSeconds < ageSeconds clocks own := by
  unfold ServerTimebase.yieldsToGlobal at yields
  split at yields
  · cases yields
  · rename_i other found
    simp only [Bool.and_eq_true, decide_eq_true_eq] at yields
    exact ⟨other, found, yields.2, yields.1⟩

theorem scope_reportStaleFallback (tb : ServerTimebase) (clocks : Clocks) (href : String)
    (own : TimeObservation) (scope : Option String) :
    (tb.reportStaleFallback clocks href own).1.scope scope = tb.scope scope := by
  unfold ServerTimebase.reportStaleFallback
  split
  · rfl
  · cases scope <;> rfl

theorem Kept.read (kept : Kept w) (scope : Option String) : Kept (w.read scope) := by
  unfold World.read
  rcases resolve_cases w.timebase w.clocks scope with ⟨resolved, -⟩ |
    ⟨href, own, rfl, found, yields, resolved⟩
  · rw [resolved]
    refine ⟨kept.held, kept.past, kept.counts, ?_⟩
    cases scope with
    | none => exact kept.told
    | some href =>
        refine ⟨fun some_ other => absurd ?_ other, kept.told⟩
        obtain ⟨own, found⟩ := Option.ne_none_iff_exists'.mp some_
        rw [found, Option.some_or]
  · by_cases reported : href ∈ w.timebase.reportedStale
    · rw [resolved, ServerTimebase.reportStaleFallback, if_pos reported]
      refine ⟨kept.held, kept.past, kept.counts, fun _ _ => ?_, kept.told⟩
      exact (kept.counts href).trans (if_pos reported)
    · have none_ : warnings href w.log = 0 := (kept.counts href).trans (if_neg reported)
      rw [resolved, ServerTimebase.reportStaleFallback, if_neg reported]
      refine ⟨fun scope => ?_, kept.past, fun scope => ?_, fun _ _ => ?_, none_, kept.told⟩
      · refine Eq.trans ?_ (kept.held scope)
        cases scope <;> rfl
      · change warnings scope w.log + _ = _
        rw [kept.counts scope]
        by_cases same : href = scope
        · subst same
          simp [reported, World.warn]
        · simp [same, Ne.symm same, World.warn]
      · change warnings href w.log + _ = 1
        rw [none_, if_pos rfl]

theorem kept_step {l : Step} (kept : Kept w) (stepped : machine.step l w = some v) : Kept v := by
  cases l with
  | observe serverTime fsaHref quality href =>
      cases stepped
      exact kept.observe serverTime fsaHref quality href
  | noteTimePollRate rate =>
      cases stepped
      have same (scope : Option String) :
          (w.timebase.noteTimePollRate rate).scope scope = w.timebase.scope scope ∧
          (w.timebase.noteTimePollRate rate).reportedStale = w.timebase.reportedStale := by
        unfold ServerTimebase.noteTimePollRate
        cases rate with
        | none => exact ⟨rfl, rfl⟩
        | some r =>
            dsimp only
            split
            · cases scope <;> exact ⟨rfl, rfl⟩
            · exact ⟨rfl, rfl⟩
      refine ⟨fun scope => ?_, kept.past, fun scope => ?_, kept.told⟩
      · dsimp only
        rw [(same scope).1]
        exact kept.held scope
      · dsimp only
        rw [(same none).2]
        exact kept.counts scope
  | forgetFsa fsaHref =>
      cases stepped
      exact kept.forgetFsa fsaHref
  | offset fsaHref =>
      cases stepped
      by_cases follows : w.timebase.enabled = true
      · rw [if_pos follows]
        exact kept.read fsaHref
      · rw [if_neg follows]
        exact kept
  | serverNow fsaHref =>
      cases stepped
      exact kept.read fsaHref
  | tick elapsed wall =>
      simp only [machine] at stepped
      split at stepped
      · rename_i forward
        cases stepped
        exact ⟨kept.held, fun scope x found =>
          (kept.past scope x found).trans (le_add_of_nonneg_right forward), kept.counts, kept.told⟩
      · cases stepped

end Steps

/-- The states of a timebase. -/
def Reached (w v : World) : Prop := Fresh w ∧ machine.Run Machine.Free w v

theorem Reached.kept {w v : World} (reached : Reached w v) : Kept v :=
  Machine.Run.keeps (fun _ _ _ stepped _ kept => kept_step kept stepped) reached.2 reached.1.kept

def start : World := { timebase := {}, clocks := {} }

theorem start_fresh : Fresh start := ⟨rfl, rfl, rfl, rfl⟩

/-- A scope that is not observed again for more than an hour, and read twice. -/
def leftBehind : List Step :=
  [.observe 1000 (some "/fsa/1") 4 "/fsa/1/tm", .tick 4000 4000, .observe 5003 none 4 "/tm",
    .tick 10 4010, .serverNow (some "/fsa/1"), .offset (some "/fsa/1")]

section Reads

variable {w v : World} {scope : Option String} {o : TimeObservation}

/-- An observation that is held is in the log. -/
theorem Kept.receipt (kept : Kept v) (held : v.timebase.scope scope = some o) :
    ∃ serverTime at_, lastObserved scope v.log = some (serverTime, at_) ∧
      o.offset + o.receiptEpoch = serverTime ∧ o.receiptMonotonic = some at_ := by
  have same := kept.held scope
  rw [held, Option.map_some] at same
  obtain ⟨x, found, equal⟩ := Option.map_eq_some_iff.mp same.symm
  obtain ⟨time, receipt⟩ := Prod.mk.inj equal
  exact ⟨x.1, x.2, found, time.symm, receipt.symm⟩

theorem Kept.scope_eq_none (kept : Kept v) (scope : Option String) :
    v.timebase.scope scope = none ↔ lastObserved scope v.log = none := by
  have same := kept.held scope
  rw [← Option.map_eq_none_iff, same, Option.map_eq_none_iff]

/-- An observation that does not yield is not older than it may be. -/
theorem age_le_of_not_yields {g : TimeObservation} (kept : Kept v)
    (held : v.timebase.scope scope = some o) (global : v.timebase.global = some g)
    (stays : v.timebase.yieldsToGlobal v.clocks o = false) :
    ageSeconds v.clocks o ≤ max v.timebase.fsaStaleSeconds (ageSeconds v.clocks g) := by
  obtain ⟨-, at_, -, -, receipt⟩ := kept.receipt held
  obtain ⟨-, at', -, -, receipt'⟩ := kept.receipt (show v.timebase.scope none = some g from global)
  rw [ServerTimebase.yieldsToGlobal, global] at stays
  by_cases old : v.timebase.fsaStaleSeconds < ageSeconds v.clocks o
  · have notNewer : isNewer g o = false := by simpa [old] using stays
    rw [isNewer, receipt, receipt'] at notNewer
    have before : at' ≤ at_ := by simpa using notNewer
    rw [ageSeconds, ageSeconds, receipt, receipt']
    exact le_max_of_le_right (max_le_max_left 0 (sub_le_sub_left before _))
  · exact le_max_of_le_left (not_lt.mp old)

end Reads

/-- What a scope reads, in every state that can be reached: something if it or the global scope has
been observed, its own observation as long as that is not older than the threshold, and never
anything older than the threshold and the global observation both. -/
theorem resolve_fresh {w v : World} (reached : Reached w v) (scope : Option String) :
    ((v.timebase.resolve v.clocks scope).1 = none ↔
      lastObserved scope v.log = none ∧ lastObserved none v.log = none) ∧
    (∀ own, v.timebase.scope scope = some own →
      ageSeconds v.clocks own ≤ v.timebase.fsaStaleSeconds →
      (v.timebase.resolve v.clocks scope).1 = some own) ∧
    ∀ o g, (v.timebase.resolve v.clocks scope).1 = some o → v.timebase.global = some g →
      ageSeconds v.clocks o ≤ max v.timebase.fsaStaleSeconds (ageSeconds v.clocks g) := by
  have kept := reached.kept
  have global_none : v.timebase.global = none ↔ lastObserved none v.log = none :=
    kept.scope_eq_none none
  rcases resolve_cases v.timebase v.clocks scope with ⟨resolved, stays⟩ |
    ⟨href, own, rfl, found, yields, resolved⟩
  · rw [resolved]
    refine ⟨?_, fun own found _ => ?_, fun o g used global => ?_⟩
    · rw [Option.or_eq_none_iff, kept.scope_eq_none scope, global_none]
    · rw [found, Option.some_or]
    · cases found : v.timebase.scope scope with
      | none =>
          rw [found, Option.none_or, global] at used
          obtain rfl := Option.some.inj used
          exact le_max_right _ _
      | some own =>
          rw [found, Option.some_or] at used
          obtain rfl := Option.some.inj used
          cases scope with
          | none =>
              obtain rfl := Option.some.inj (found.symm.trans global)
              exact le_max_right _ _
          | some href => exact age_le_of_not_yields kept found global (stays href own rfl found)
  · obtain ⟨other, global, -, old⟩ := global_ne_of_yields yields
    rw [resolved]
    refine ⟨?_, fun own' found' young => ?_, fun o g used global' => ?_⟩
    · rw [← kept.scope_eq_none (some href), ← global_none, found, global]
      simp
    · obtain rfl := Option.some.inj (found'.symm.trans found)
      exact absurd young (not_le.mpr old)
    · obtain rfl := Option.some.inj (used.symm.trans global')
      exact le_max_right _ _

theorem resolve_fresh_leftBehind : ∃ v, machine.exec start leftBehind = some v ∧
    ((v.timebase.resolve v.clocks (some "/fsa/1")).1 = none ↔
      lastObserved (some "/fsa/1") v.log = none ∧ lastObserved none v.log = none) :=
  ⟨_, rfl, (resolve_fresh ⟨start_fresh, Machine.run_of_exec leftBehind rfl⟩ (some "/fsa/1")).1⟩

/-! ### A wall clock that is not stepped -/

section Steady

variable {w v : World} {l : Step} {scope : Option String} {o : TimeObservation}

/-- Both clocks go on alike. -/
def Steady (w : World) (_ : Step) (v : World) : Prop :=
  v.clocks.wall - w.clocks.wall = v.clocks.monotonic - w.clocks.monotonic

theorem scope_read (w : World) (fsaHref scope : Option String) :
    (w.read fsaHref).timebase.scope scope = w.timebase.scope scope ∧
      (w.read fsaHref).clocks = w.clocks := by
  unfold World.read
  rcases resolve_cases w.timebase w.clocks fsaHref with ⟨resolved, -⟩ |
    ⟨href, own, -, -, -, resolved⟩
  · rw [resolved]
    exact ⟨rfl, rfl⟩
  · rw [resolved]
    exact ⟨scope_reportStaleFallback _ _ _ _ _, rfl⟩

/-- An observation that is held was held before, or has just been made. -/
theorem scope_step (stepped : machine.step l w = some v) (held : v.timebase.scope scope = some o) :
    w.timebase.scope scope = some o ∨
      o.receiptEpoch = w.clocks.wall ∧ o.receiptMonotonic = some w.clocks.monotonic ∧
        v.clocks = w.clocks := by
  cases l with
  | observe serverTime fsaHref quality href =>
      cases stepped
      change (w.timebase.keep fsaHref _).scope scope = some o at held
      rw [scope_keep] at held
      split at held
      · obtain rfl := Option.some.inj held
        exact .inr ⟨rfl, rfl, rfl⟩
      · exact .inl held
  | noteTimePollRate rate =>
      cases stepped
      refine .inl (Eq.trans ?_ held)
      unfold ServerTimebase.noteTimePollRate
      cases rate with
      | none => rfl
      | some r =>
          dsimp only
          split
          · cases scope <;> rfl
          · rfl
  | forgetFsa fsaHref =>
      cases stepped
      change (w.timebase.forgetFsa fsaHref).scope scope = some o at held
      rw [scope_forgetFsa] at held
      split at held
      · cases held
      · exact .inl held
  | offset fsaHref =>
      cases stepped
      by_cases follows : w.timebase.enabled = true
      · rw [if_pos follows, (scope_read w fsaHref scope).1] at held
        exact .inl held
      · rw [if_neg follows] at held
        exact .inl held
  | serverNow fsaHref =>
      cases stepped
      rw [(scope_read w fsaHref scope).1] at held
      exact .inl held
  | tick elapsed wall =>
      simp only [machine] at stepped
      split at stepped
      · cases stepped
        exact .inl held
      · cases stepped

/-- The wall clock has gone as far as the monotonic clock since each observation. -/
def Aligned (w : World) : Prop :=
  ∀ scope o at_, w.timebase.scope scope = some o → o.receiptMonotonic = some at_ →
    w.clocks.wall - o.receiptEpoch = w.clocks.monotonic - at_

theorem aligned_step (aligned : Aligned w) (stepped : machine.step l w = some v)
    (steady : Steady w l v) : Aligned v := by
  intro scope o at_ held receipt
  rcases scope_step stepped held with before | ⟨epoch, now, same⟩
  · have start := aligned scope o at_ before receipt
    unfold Steady at steady
    linarith
  · obtain rfl := Option.some.inj (now.symm.trans receipt)
    rw [epoch, same]
    simp

end Steady

/-- While the wall clock is not stepped, whatever it shows, the client answers with the server's own
time: what the Time resource said, and the time since. -/
theorem serverNow_steady {w v : World} (fresh : Fresh w) (run : machine.Run Steady w v)
    (scope : Option String) (t : ℚ) (answer : v.timebase.serverNow v.clocks scope = some t) :
    ∃ source serverTime at_, (source = scope ∨ source = none) ∧
      lastObserved source v.log = some (serverTime, at_) ∧
      t = serverTime + (v.clocks.monotonic - at_) := by
  have reached : Reached w v := ⟨fresh, Machine.Run.weaken (fun _ => trivial) run⟩
  have aligned : Aligned v := by
    refine Machine.Run.keeps (fun _ _ _ stepped steady before => aligned_step before stepped steady)
      run fun scope o at_ held => ?_
    have none_ := fresh.kept.scope_eq_none scope
    rw [fresh.log] at none_
    rw [none_.mpr rfl] at held
    cases held
  obtain ⟨o, used, rfl⟩ := Option.map_eq_some_iff.mp answer
  obtain ⟨source, named, held⟩ : ∃ source, (source = scope ∨ source = none) ∧
      v.timebase.scope source = some o := by
    rcases resolve_cases v.timebase v.clocks scope with ⟨resolved, -⟩ |
      ⟨href, own, -, -, -, resolved⟩
    · rw [resolved] at used
      rcases Option.or_eq_some_iff.mp used with own | ⟨-, global⟩
      · exact ⟨scope, .inl rfl, own⟩
      · exact ⟨none, .inr rfl, global⟩
    · rw [resolved] at used
      exact ⟨none, .inr rfl, used⟩
  obtain ⟨serverTime, at_, found, time, receipt⟩ := reached.kept.receipt held
  refine ⟨source, serverTime, at_, named, found, ?_⟩
  have since := aligned source o at_ held receipt
  linarith

/-- A client whose clock is five seconds behind, half a minute after it was told. -/
theorem serverNow_steady_behind : ∃ v source serverTime at_,
    machine.exec start [.observe 5 none 4 "/tm", .tick 30 30] = some v ∧
    (source = none ∨ source = none) ∧ lastObserved source v.log = some (serverTime, at_) ∧
    30 + 5 = serverTime + (v.clocks.monotonic - at_) := by
  obtain ⟨v, executed, steady⟩ : ∃ v,
      machine.exec start [.observe 5 none 4 "/tm", .tick 30 30] = some v ∧
      machine.Run Steady start v := by
    refine ⟨_, rfl, .step (M := machine) (.tick 30 30)
      (.step (M := machine) (.observe 5 none 4 "/tm") (.refl _) rfl ?_) rfl ?_⟩
    · rfl
    · norm_num [Steady, World.observe, World.warn, start]
  have answer : v.timebase.serverNow v.clocks none = some (30 + 5) := by
    cases executed
    decide +kernel
  obtain ⟨source, serverTime, at_, rest⟩ := serverNow_steady start_fresh steady none _ answer
  exact ⟨v, source, serverTime, at_, executed, rest⟩

/-! ### A wall clock that is -/

/-- What is said of an observation but for the wall clock. -/
def TimeObservation.provenance (o : TimeObservation) : Int × String × Option ℚ :=
  (o.quality, o.href, o.receiptMonotonic)

/-- The warnings of stale scopes. -/
def staleWarnings : List Entry → List Warning
  | [] => []
  | .warned (.stale scope age threshold href) :: earlier =>
      .stale scope age threshold href :: staleWarnings earlier
  | .warned (.drift _ _ _ _) :: earlier => staleWarnings earlier
  | .observed _ _ _ :: earlier => staleWarnings earlier
  | .forgot _ :: earlier => staleWarnings earlier
  | .read _ _ _ :: earlier => staleWarnings earlier

/-- A step but for where the wall clock goes. -/
def Step.unstepped : Step → Step
  | .tick elapsed _ => .tick elapsed 0
  | other => other

/-- Two timebases that differ in the wall clock only. -/
structure Alike (w w' : World) : Prop where
  enabled : w.timebase.enabled = w'.timebase.enabled
  override : w.timebase.fsaStaleOverride = w'.timebase.fsaStaleOverride
  derived : w.timebase.fsaStaleDerived = w'.timebase.fsaStaleDerived
  reported : w.timebase.reportedStale = w'.timebase.reportedStale
  monotonic : w.clocks.monotonic = w'.clocks.monotonic
  scope : ∀ scope, (w.timebase.scope scope).map TimeObservation.provenance =
    (w'.timebase.scope scope).map TimeObservation.provenance
  timed : ∀ scope o, w.timebase.scope scope = some o → o.receiptMonotonic ≠ none
  warned : staleWarnings w.log = staleWarnings w'.log

section Wall

variable {w w' v v' : World} {scope : Option String} {o o' : TimeObservation}

theorem ageSeconds_alike (same : o.provenance = o'.provenance) (timed : o.receiptMonotonic ≠ none)
    {clocks clocks' : Clocks} (monotonic : clocks.monotonic = clocks'.monotonic) :
    ageSeconds clocks o = ageSeconds clocks' o' := by
  obtain ⟨at_, receipt⟩ := Option.ne_none_iff_exists'.mp timed
  obtain ⟨-, same⟩ := Prod.mk.inj same
  obtain ⟨-, same⟩ := Prod.mk.inj same
  rw [ageSeconds, ageSeconds, ← same, receipt, monotonic]

theorem isNewer_alike {p p' : TimeObservation} (same : o.provenance = o'.provenance)
    (timed : o.receiptMonotonic ≠ none) (same' : p.provenance = p'.provenance)
    (timed' : p.receiptMonotonic ≠ none) : isNewer o p = isNewer o' p' := by
  obtain ⟨at_, receipt⟩ := Option.ne_none_iff_exists'.mp timed
  obtain ⟨at', receipt'⟩ := Option.ne_none_iff_exists'.mp timed'
  obtain ⟨-, same⟩ := Prod.mk.inj same
  obtain ⟨-, same⟩ := Prod.mk.inj same
  obtain ⟨-, same'⟩ := Prod.mk.inj same'
  obtain ⟨-, same'⟩ := Prod.mk.inj same'
  rw [isNewer, isNewer, ← same, ← same', receipt, receipt']

theorem Alike.held (alike : Alike w w') (held : w.timebase.scope scope = some o) :
    ∃ o', w'.timebase.scope scope = some o' ∧ o.provenance = o'.provenance := by
  have same := alike.scope scope
  rw [held, Option.map_some] at same
  obtain ⟨o', held', equal⟩ := Option.map_eq_some_iff.mp same.symm
  exact ⟨o', held', equal.symm⟩

theorem Alike.not_held (alike : Alike w w') (held : w.timebase.scope scope = none) :
    w'.timebase.scope scope = none := by
  have same := alike.scope scope
  rw [held, Option.map_none] at same
  exact Option.map_eq_none_iff.mp same.symm

theorem Alike.threshold (alike : Alike w w') :
    w.timebase.fsaStaleSeconds = w'.timebase.fsaStaleSeconds := by
  rw [ServerTimebase.fsaStaleSeconds, ServerTimebase.fsaStaleSeconds, alike.override,
    alike.derived]

theorem Alike.yields (alike : Alike w w') (held : w.timebase.scope scope = some o)
    (same : o.provenance = o'.provenance) : w.timebase.yieldsToGlobal w.clocks o =
      w'.timebase.yieldsToGlobal w'.clocks o' := by
  rw [ServerTimebase.yieldsToGlobal, ServerTimebase.yieldsToGlobal]
  cases global : w.timebase.global with
  | none =>
      have global' : w'.timebase.global = none :=
        alike.not_held (show w.timebase.scope none = none from global)
      rw [global']
  | some g =>
      have found : w.timebase.scope none = some g := global
      obtain ⟨g', found', equal⟩ := alike.held found
      have global' : w'.timebase.global = some g' := found'
      rw [global', alike.threshold, ageSeconds_alike same (alike.timed _ _ held) alike.monotonic]
      dsimp only
      rw [isNewer_alike equal (alike.timed _ _ found) same (alike.timed _ _ held)]

/-- Both read alike, and report alike. -/
theorem Alike.resolve (alike : Alike w w') (scope : Option String) :
    ((w.timebase.resolve w.clocks scope).1.map TimeObservation.provenance =
      (w'.timebase.resolve w'.clocks scope).1.map TimeObservation.provenance) ∧
    ((w.timebase.resolve w.clocks scope).2.1.reportedStale =
      (w'.timebase.resolve w'.clocks scope).2.1.reportedStale) ∧
    (w.timebase.resolve w.clocks scope).2.2 = (w'.timebase.resolve w'.clocks scope).2.2 := by
  have global := alike.scope none
  rcases resolve_cases w.timebase w.clocks scope with ⟨resolved, stays⟩ |
    ⟨href, own, rfl, found, yields, resolved⟩
  · rcases resolve_cases w'.timebase w'.clocks scope with ⟨resolved', -⟩ |
      ⟨href, own', rfl, found', yields', -⟩
    · rw [resolved, resolved']
      refine ⟨?_, alike.reported, rfl⟩
      cases found : w.timebase.scope scope with
      | none =>
          rw [alike.not_held found, Option.none_or, Option.none_or]
          exact global
      | some own =>
          obtain ⟨own', found', same⟩ := alike.held found
          rw [found', Option.some_or, Option.some_or, Option.map_some, Option.map_some, same]
    · cases found : w.timebase.scope (some href) with
      | none =>
          rw [alike.not_held found] at found'
          cases found'
      | some own =>
          obtain ⟨own'', found'', same⟩ := alike.held found
          obtain rfl := Option.some.inj (found'.symm.trans found'')
          rw [← alike.yields found same, stays href own rfl found] at yields'
          cases yields'
  · obtain ⟨own', found', same⟩ := alike.held found
    have yields' := (alike.yields found same).symm.trans yields
    rcases resolve_cases w'.timebase w'.clocks (some href) with ⟨-, stays⟩ |
      ⟨href', own'', named, found'', -, resolved'⟩
    · rw [stays href own' rfl found'] at yields'
      cases yields'
    · obtain rfl := Option.some.inj named
      obtain rfl := Option.some.inj (found'.symm.trans found'')
      obtain ⟨-, place⟩ := Prod.mk.inj same
      obtain ⟨place, -⟩ := Prod.mk.inj place
      rw [resolved, resolved', ServerTimebase.reportStaleFallback,
        ServerTimebase.reportStaleFallback, alike.reported, alike.threshold, place,
        ageSeconds_alike same (alike.timed _ _ found) alike.monotonic]
      refine ⟨global, ?_⟩
      split
      · exact ⟨alike.reported, rfl⟩
      · exact ⟨rfl, rfl⟩

theorem staleWarnings_read (w : World) (fsaHref : Option String) :
    staleWarnings (w.read fsaHref).log =
      staleWarnings ((w.timebase.resolve w.clocks fsaHref).2.2.toList.map Entry.warned) ++
        staleWarnings w.log := by
  unfold World.read
  rcases resolve_cases w.timebase w.clocks fsaHref with ⟨resolved, -⟩ |
    ⟨href, own, -, -, -, resolved⟩
  · rw [resolved]
    rfl
  · rw [resolved]
    by_cases reported : href ∈ w.timebase.reportedStale
    · rw [ServerTimebase.reportStaleFallback, if_pos reported]
      rfl
    · rw [ServerTimebase.reportStaleFallback, if_neg reported]
      rfl

/-- A read leaves the settings as they are. -/
theorem settings_read (w : World) (fsaHref : Option String) :
    (w.read fsaHref).timebase.enabled = w.timebase.enabled ∧
    (w.read fsaHref).timebase.fsaStaleOverride = w.timebase.fsaStaleOverride ∧
    (w.read fsaHref).timebase.fsaStaleDerived = w.timebase.fsaStaleDerived ∧
    (w.read fsaHref).timebase.reportedStale =
      (w.timebase.resolve w.clocks fsaHref).2.1.reportedStale := by
  unfold World.read
  rcases resolve_cases w.timebase w.clocks fsaHref with ⟨resolved, -⟩ |
    ⟨href, own, -, -, -, resolved⟩
  · rw [resolved]
    exact ⟨rfl, rfl, rfl, rfl⟩
  · rw [resolved]
    by_cases reported : href ∈ w.timebase.reportedStale
    · rw [ServerTimebase.reportStaleFallback, if_pos reported]
      exact ⟨rfl, rfl, rfl, rfl⟩
    · rw [ServerTimebase.reportStaleFallback, if_neg reported]
      exact ⟨rfl, rfl, rfl, rfl⟩

theorem Alike.read (alike : Alike w w') (fsaHref : Option String) :
    Alike (w.read fsaHref) (w'.read fsaHref) := by
  obtain ⟨-, reported, warned⟩ := alike.resolve fsaHref
  obtain ⟨enabled, override, derived, stale⟩ := settings_read w fsaHref
  obtain ⟨enabled', override', derived', stale'⟩ := settings_read w' fsaHref
  refine ⟨?_, ?_, ?_, ?_, ?_, fun scope => ?_, fun scope o held => ?_, ?_⟩
  · rw [enabled, enabled', alike.enabled]
  · rw [override, override', alike.override]
  · rw [derived, derived', alike.derived]
  · rw [stale, stale', reported]
  · rw [(scope_read w fsaHref none).2, (scope_read w' fsaHref none).2, alike.monotonic]
  · rw [(scope_read w fsaHref scope).1, (scope_read w' fsaHref scope).1, alike.scope]
  · rw [(scope_read w fsaHref scope).1] at held
    exact alike.timed scope o held
  · rw [staleWarnings_read, staleWarnings_read, warned, alike.warned]

theorem staleWarnings_drift (tb : ServerTimebase) (fsaHref : Option String) (w : World) :
    staleWarnings (w.warn (tb.driftWarning fsaHref o)).log = staleWarnings w.log := by
  unfold ServerTimebase.driftWarning
  split <;> rfl

theorem Alike.observe (alike : Alike w w') (serverTime : Int) (fsaHref : Option String)
    (quality : Int) (href : String) :
    Alike (w.observe serverTime fsaHref quality href)
      (w'.observe serverTime fsaHref quality href) := by
  have settings (tb : ServerTimebase) (obs : TimeObservation) :
      (tb.keep fsaHref obs).enabled = tb.enabled ∧
      (tb.keep fsaHref obs).fsaStaleOverride = tb.fsaStaleOverride ∧
      (tb.keep fsaHref obs).fsaStaleDerived = tb.fsaStaleDerived ∧
      (tb.keep fsaHref obs).reportedStale =
        tb.reportedStale.filter fun f => fsaHref ≠ some f := by
    cases fsaHref with
    | none => simp [ServerTimebase.keep]
    | some f =>
        refine ⟨rfl, rfl, rfl, ?_⟩
        rw [ServerTimebase.keep]
        exact List.filter_congr fun g _ => by simp [eq_comm]
  let obs := ServerTimebase.observation w.clocks serverTime quality href
  let obs' := ServerTimebase.observation w'.clocks serverTime quality href
  obtain ⟨enabled, override, derived, reported⟩ := settings w.timebase obs
  obtain ⟨enabled', override', derived', reported'⟩ := settings w'.timebase obs'
  have same : obs.provenance = obs'.provenance := by
    simp [obs, obs', TimeObservation.provenance, ServerTimebase.observation, alike.monotonic]
  have scopes (scope : Option String) :
      (w.observe serverTime fsaHref quality href).timebase.scope scope =
        (w.timebase.keep fsaHref obs).scope scope := rfl
  have scopes' (scope : Option String) :
      (w'.observe serverTime fsaHref quality href).timebase.scope scope =
        (w'.timebase.keep fsaHref obs').scope scope := rfl
  refine ⟨?_, ?_, ?_, ?_, alike.monotonic, fun scope => ?_, fun scope o held => ?_, ?_⟩
  · exact enabled.trans (alike.enabled.trans enabled'.symm)
  · exact override.trans (alike.override.trans override'.symm)
  · exact derived.trans (alike.derived.trans derived'.symm)
  · refine reported.trans (Eq.trans ?_ reported'.symm)
    rw [alike.reported]
  · rw [scopes, scopes', scope_keep, scope_keep]
    split
    · rw [Option.map_some, Option.map_some, same]
    · exact alike.scope scope
  · rw [scopes, scope_keep] at held
    split at held
    · obtain rfl := Option.some.inj held
      simp [obs, ServerTimebase.observation]
    · exact alike.timed scope o held
  · rw [World.observe, World.observe, staleWarnings_drift, staleWarnings_drift]
    exact alike.warned

theorem alike_step {l l' : Step} (alike : Alike w w') (same : l.unstepped = l'.unstepped)
    (stepped : machine.step l w = some v) (stepped' : machine.step l' w' = some v') :
    Alike v v' := by
  have equal (tick : ∀ elapsed wall, l ≠ .tick elapsed wall) : l = l' := by
    cases l with
    | tick elapsed wall => exact absurd rfl (tick elapsed wall)
    | _ =>
        cases l' with
        | tick elapsed wall => cases same
        | _ => exact same
  cases l with
  | observe serverTime fsaHref quality href =>
      obtain rfl := equal (by simp)
      cases stepped
      cases stepped'
      exact alike.observe serverTime fsaHref quality href
  | noteTimePollRate rate =>
      obtain rfl := equal (by simp)
      cases stepped
      cases stepped'
      cases rate with
      | none => exact alike
      | some r =>
          by_cases fast : 0 < r
          · have derived (tb : ServerTimebase) : tb.noteTimePollRate (some r) = { tb with
                fsaStaleDerived := max fsaStaleFloorSeconds (fsaStalePollMultiple * r) } :=
              if_pos fast
            rw [derived, derived]
            exact ⟨alike.enabled, alike.override, rfl, alike.reported, alike.monotonic,
              alike.scope, alike.timed, alike.warned⟩
          · have kept (tb : ServerTimebase) : tb.noteTimePollRate (some r) = tb := if_neg fast
            rw [kept, kept]
            exact alike
  | forgetFsa fsaHref =>
      obtain rfl := equal (by simp)
      cases stepped
      cases stepped'
      refine ⟨alike.enabled, alike.override, alike.derived, ?_, alike.monotonic, fun scope => ?_,
        fun scope o held => ?_, alike.warned⟩
      · simp only [ServerTimebase.forgetFsa, alike.reported]
      · dsimp only
        rw [scope_forgetFsa, scope_forgetFsa]
        split
        · rfl
        · exact alike.scope scope
      · dsimp only at held
        rw [scope_forgetFsa] at held
        split at held
        · cases held
        · exact alike.timed scope o held
  | offset fsaHref =>
      obtain rfl := equal (by simp)
      cases stepped
      cases stepped'
      rw [← alike.enabled]
      by_cases follows : w.timebase.enabled = true
      · rw [if_pos follows, if_pos follows]
        exact alike.read fsaHref
      · rw [if_neg follows, if_neg follows]
        exact alike
  | serverNow fsaHref =>
      obtain rfl := equal (by simp)
      cases stepped
      cases stepped'
      exact alike.read fsaHref
  | tick elapsed wall =>
      cases l' with
      | tick elapsed' wall' =>
          obtain ⟨rfl, -⟩ := Step.tick.inj same
          simp only [machine] at stepped stepped'
          split at stepped
          · rename_i forward
            rw [if_pos forward] at stepped'
            cases stepped
            cases stepped'
            exact ⟨alike.enabled, alike.override, alike.derived, alike.reported,
              congrArg (· + elapsed) alike.monotonic, alike.scope, alike.timed, alike.warned⟩
          · cases stepped
      | _ => cases same

end Wall

/-- Two timebases with the same settings that live through the same, but for the wall clock: steps
of the wall clock, forward or back, change nothing in which observation a scope reads, nor in which
scopes are warned of, when and with what age. -/
theorem wall_irrelevant {w w' v v' : World} (fresh : Fresh w) (fresh' : Fresh w')
    (settings : w.timebase.enabled = w'.timebase.enabled ∧
      w.timebase.fsaStaleOverride = w'.timebase.fsaStaleOverride ∧
      w.timebase.fsaStaleDerived = w'.timebase.fsaStaleDerived)
    (monotonic : w.clocks.monotonic = w'.clocks.monotonic) (ls ls' : List Step)
    (same : ls.map Step.unstepped = ls'.map Step.unstepped)
    (executed : machine.exec w ls = some v) (executed' : machine.exec w' ls' = some v') :
    (∀ scope, (v.timebase.resolve v.clocks scope).1.map TimeObservation.provenance =
      (v'.timebase.resolve v'.clocks scope).1.map TimeObservation.provenance) ∧
    staleWarnings v.log = staleWarnings v'.log := by
  have none_ {u : World} (fresh : Fresh u) (scope : Option String) :
      u.timebase.scope scope = none := by
    rw [fresh.kept.scope_eq_none, fresh.log]
    rfl
  have start : Alike w w' := by
    refine ⟨settings.1, settings.2.1, settings.2.2, ?_, monotonic, fun scope => ?_,
      fun scope o held => ?_, ?_⟩
    · rw [fresh.reportedStale, fresh'.reportedStale]
    · rw [none_ fresh, none_ fresh']
    · rw [none_ fresh] at held
      cases held
    · rw [fresh.log, fresh'.log]
  have alike : Alike v v' := by
    clear fresh fresh' settings monotonic
    induction ls generalizing w w' ls' with
    | nil =>
        cases ls' with
        | nil =>
            cases executed
            cases executed'
            exact start
        | cons l' ls' => cases same
    | cons l ls ih =>
        cases ls' with
        | nil => cases same
        | cons l' ls' =>
            obtain ⟨first, rest⟩ := List.cons.inj same
            obtain ⟨u, stepped, later⟩ := Option.bind_eq_some_iff.mp executed
            obtain ⟨u', stepped', later'⟩ := Option.bind_eq_some_iff.mp executed'
            exact ih ls' rest later later' (alike_step start first stepped stepped')
  exact ⟨fun scope => (alike.resolve scope).1, alike.warned⟩

/-- The same, with the wall clock set back by an hour. -/
def setBack : List Step :=
  [.observe 1000 (some "/fsa/1") 4 "/fsa/1/tm", .tick 4000 400, .observe 5003 none 4 "/tm",
    .tick 10 410, .serverNow (some "/fsa/1"), .offset (some "/fsa/1")]

theorem wall_irrelevant_setBack : ∃ v v',
    machine.exec start leftBehind = some v ∧ machine.exec start setBack = some v' ∧
    staleWarnings v.log = staleWarnings v'.log :=
  ⟨_, _, rfl, rfl,
    (wall_irrelevant start_fresh start_fresh ⟨rfl, rfl, rfl⟩ rfl leftBehind setBack rfl rfl rfl).2⟩

end Py20305.Timebase
