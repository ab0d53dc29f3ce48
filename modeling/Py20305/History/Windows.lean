import Mathlib.Algebra.Order.Ring.Rat
import Mathlib.Data.List.Dedup
import Mathlib.Tactic.Linarith
import Py20305.Sep.Resources

/-!
The event history (`history/events.py`): the audit records of events as they are
stored, one summary an event, and the times under control that a baseline leaves out.

A summary has one window, from the last move into active to the first terminal
record. `windows_cover_iff` says when this is all the time the trail says the event
was active: when it became active once.

Left out: records of the other kinds, posted responses and the control on an event's
first record, which no window depends on.
-/

namespace Py20305.EventHistory

/-! ### Records -/

/-- The states of `event_transition`. -/
inductive TrailState where
  | scheduled | active | completed | cancelled | superseded | optedOut | expired | skipped
  deriving DecidableEq, Repr

/-- `TERMINAL_STATES`. -/
def TrailState.isTerminal : TrailState → Bool
  | scheduled | active => false
  | completed | cancelled | superseded | optedOut | expired | skipped => true

/-- A `der_event` record, as `event_transition` builds it. Its time is in seconds since
1970; the source reads the time 0 as none, and no record has it. -/
structure AuditRecord where
  «at» : ℚ
  timed : «at» ≠ 0
  eventMrid : Mrid
  programHref : Href
  fromState : Option TrailState
  toState : TrailState
  effectiveStart : ℚ
  effectiveDuration : ℚ
  primacy : Nat
  lfdis : List Lfdi
  appliedLfdis : Option (List Lfdi) := none
  rejectedLfdis : Option (List Lfdi) := none
  supersededBy : Option Mrid := none

namespace AuditRecord

/-- The column `effective_end`. -/
def effectiveEnd (r : AuditRecord) : ℚ := r.effectiveStart + r.effectiveDuration

/-- A move into active. An active -> active record notes a partial supersession. -/
def isStart (r : AuditRecord) : Bool :=
  decide (r.toState = .active) && decide (r.fromState ≠ some .active)

/-- A record the trail ends in. -/
def isEnd (r : AuditRecord) : Bool := r.toState.isTerminal

theorem isEnd_of_isStart {r : AuditRecord} (starts : r.isStart = true) : r.isEnd = false := by
  simp only [isStart, Bool.and_eq_true, decide_eq_true_eq] at starts
  rw [isEnd, starts.1]
  rfl

end AuditRecord

/-- The stored records, in the order of their ids, and the clock of the history. -/
structure History where
  stored : List AuditRecord
  clock : ℚ

/-! ### Summaries -/

/-- What `summarize` says of one event. -/
structure Summary where
  eventMrid : Mrid
  programHref : Href
  primacy : Nat
  state : TrailState
  firstSeenAt : ℚ
  effectiveStart : ℚ
  effectiveDuration : ℚ
  effectiveEnd : ℚ
  activeAt : Option ℚ
  endedAt : Option ℚ
  ranSeconds : Option ℚ
  lfdis : List Lfdi
  appliedLfdis : List Lfdi
  rejectedLfdis : List Lfdi
  supersededBy : Option Mrid
  transitions : List (ℚ × Option TrailState × TrailState)

/-- `summarize`, of a trail that is not empty. -/
def summarize (trail : List AuditRecord) (some_ : trail ≠ []) (now : ℚ) : Summary :=
  let first := trail.head some_
  let last := trail.getLast some_
  let active := trail.reverse.find? (·.isStart)
  let ended := trail.find? (·.isEnd)
  let activeAt := active.map (·.at)
  let endedAt := ended.map (·.at)
  { eventMrid := first.eventMrid
    programHref := last.programHref
    primacy := last.primacy
    state := last.toState
    firstSeenAt := first.at
    effectiveStart := last.effectiveStart
    effectiveDuration := last.effectiveDuration
    effectiveEnd := last.effectiveEnd
    activeAt := activeAt
    endedAt := endedAt
    ranSeconds := activeAt.map fun a =>
      max 0 (endedAt.getD (min now last.effectiveEnd) - a)
    lfdis := last.lfdis
    appliedLfdis := (active.bind (·.appliedLfdis)).getD []
    rejectedLfdis := (active.bind (·.rejectedLfdis)).getD []
    supersededBy := trail.findSome? (·.supersededBy)
    transitions := trail.map fun r => (r.at, r.fromState, r.toState) }

namespace History

variable (h : History)

/-- `records` of one event: oldest first, and at most `limit` of them. -/
def records (mrid : Mrid) (limit : ℤ) : List AuditRecord :=
  ((h.stored.filter fun r => r.eventMrid = mrid).mergeSort fun a b => a.at ≤ b.at).take
    (max 1 limit).toNat

/-- `event`. -/
def event (mrid : Mrid) : Option Summary :=
  let trail := h.records mrid 1000
  if some_ : trail ≠ [] then some (summarize trail some_ h.clock) else none

/-- The records whose effective window overlaps `[since, until)`. -/
def overlapping (since until_ : Option ℚ) (programHref : Option Href) : List AuditRecord :=
  h.stored.filter fun r => since.all (· < r.effectiveEnd) && until_.all (r.effectiveStart < ·) &&
    programHref.all (· = r.programHref)

/-- The latest effective start of an event's records among the given ones. -/
def latestStart (rows : List AuditRecord) (mrid : Mrid) : ℚ :=
  ((rows.filter fun r => r.eventMrid = mrid).map (·.effectiveStart)).max?.getD 0

/-- The events of the given records, newest first. -/
def newestFirst (rows : List AuditRecord) : List Mrid :=
  ((rows.map (·.eventMrid)).dedup).mergeSort fun a b => latestStart rows b ≤ latestStart rows a

/-- `events`. -/
def events (since until_ : Option ℚ) (programHref : Option Href) (limit : ℤ) : List Summary :=
  ((newestFirst (h.overlapping since until_ programHref)).take (max 1 limit).toNat).filterMap h.event

/-- The limit of `control_windows`. -/
def windowsLimit : ℤ := 100000

/-- The window `control_windows` gives a summary. -/
def windowIn (summary : Summary) : Option (ℚ × ℚ) :=
  summary.activeAt.map fun activeAt =>
    (activeAt, (summary.endedAt.filter (· ≠ 0)).getD summary.effectiveEnd)

/-- `control_windows`. -/
def controlWindows (since until_ : ℚ) : List (ℚ × ℚ) :=
  (h.events (some since) (some until_) none windowsLimit).filterMap windowIn

end History

/-- Whether a day is left out of the comparison (`_comparison_days`). -/
def excludes (excluded : List (ℚ × ℚ)) (dayStart dayEnd : ℚ) : Bool :=
  excluded.any fun w => decide (w.1 < dayEnd) && decide (dayStart < w.2)

/-! ### What a trail says -/

/-- When the activity a move into active begins ends: at the next terminal record, or at the
end of the event. -/
def endOf (trail after : List AuditRecord) : ℚ :=
  match after.find? (·.isEnd) with
  | some r => r.at
  | none => (trail.getLast?.map (·.effectiveEnd)).getD 0

/-- The trail says that the event is active at `t`. -/
def ActiveAt (trail : List AuditRecord) (t : ℚ) : Prop :=
  ∃ before m after, trail = before ++ m :: after ∧ m.isStart = true ∧ m.at ≤ t ∧
    t < endOf trail after

/-- The event became active once: a move into active with some time of activity is not after a
terminal record, and no later move is at another time. -/
def ActiveOnce (trail : List AuditRecord) : Prop :=
  ∀ before m after, trail = before ++ m :: after → m.isStart = true → m.at < endOf trail after →
    (∀ r ∈ before, r.isEnd = false) ∧ ∀ r ∈ after, r.isStart = true → r.at = m.at

/-- The one window of a trail: from its last move into active to its first terminal record, or
to the end of the event. -/
def windowOf (trail : List AuditRecord) : Option (ℚ × ℚ) :=
  (trail.reverse.find? (·.isStart)).map fun m => (m.at, endOf trail trail)

/-- `t` is in one of the windows. -/
def Covered (windows : List (ℚ × ℚ)) (t : ℚ) : Prop := ∃ w ∈ windows, w.1 ≤ t ∧ t < w.2

section Trail

variable {trail : List AuditRecord}

/-- A terminal record of the part before does not count for what comes after. -/
theorem endOf_append {before after : List AuditRecord} {m : AuditRecord}
    (none_before : ∀ r ∈ before, r.isEnd = false) (starts : m.isStart = true) :
    endOf trail (before ++ m :: after) = endOf trail after := by
  have skipped : (before ++ m :: after).find? (·.isEnd) = after.find? (·.isEnd) := by
    rw [List.find?_append, List.find?_eq_none.mpr fun r listed => by simp [none_before r listed],
      Option.none_or, List.find?_cons_of_neg (by simp [AuditRecord.isEnd_of_isStart starts])]
  rw [endOf, endOf, skipped]

variable (dated : trail.Pairwise fun a b => a.at ≤ b.at)

include dated

/-- The last move into active has the latest time. -/
theorem windowOf_of_start {m : AuditRecord} (listed : m ∈ trail) (starts : m.isStart = true) :
    ∃ last ∈ trail, last.isStart = true ∧ (∀ r ∈ trail, r.isStart = true → r.at ≤ last.at) ∧
      windowOf trail = some (last.at, endOf trail trail) := by
  cases found : trail.reverse.find? (·.isStart) with
  | none =>
      rw [List.find?_eq_none] at found
      exact absurd starts (by simpa using found m (List.mem_reverse.mpr listed))
  | some last =>
      obtain ⟨is, later, earlier, split_, none_later⟩ := List.find?_eq_some_iff_append.mp found
      have order : (later ++ last :: earlier).Pairwise fun a b => b.at ≤ a.at := by
        rw [← split_, List.pairwise_reverse]
        exact dated
      refine ⟨last, List.mem_reverse.mp (List.mem_of_find?_eq_some found), is,
        fun r member starts' => ?_, by rw [windowOf, found, Option.map_some]⟩
      rw [← List.mem_reverse, split_] at member
      rcases List.mem_append.mp member with after | rest
      · exact absurd starts' (by simpa using none_later r after)
      · rcases List.mem_cons.mp rest with rfl | before
        · exact le_rfl
        · exact (List.pairwise_cons.mp (List.pairwise_append.mp order).2.1).1 r before

/-- The first terminal record has the earliest time. -/
theorem endOf_le {r : AuditRecord} (listed : r ∈ trail) (ends : r.isEnd = true) :
    endOf trail trail ≤ r.at := by
  unfold endOf
  cases found : trail.find? (·.isEnd) with
  | none =>
      rw [List.find?_eq_none] at found
      exact absurd ends (found r listed)
  | some first =>
      obtain ⟨-, before, after, rfl, none_before⟩ := List.find?_eq_some_iff_append.mp found
      rcases List.mem_append.mp listed with early | rest
      · exact absurd ends (by simpa using none_before r early)
      · rcases List.mem_cons.mp rest with rfl | late
        · exact le_rfl
        · exact (List.pairwise_cons.mp (List.pairwise_append.mp dated).2.1).1 r late

/-- The window of a trail holds all its activity exactly if the event became active once. -/
theorem window_covers_iff :
    (∀ t, ActiveAt trail t → ∃ w, windowOf trail = some w ∧ w.1 ≤ t ∧ t < w.2) ↔
      ActiveOnce trail := by
  constructor
  · rintro covers before m after rfl starts lasts
    obtain ⟨w, window, begun, before_end⟩ := covers m.at ⟨before, m, after, rfl, starts, le_rfl, lasts⟩
    obtain ⟨last, -, -, latest, window'⟩ :=
      windowOf_of_start dated (List.mem_append_right before List.mem_cons_self) starts
    rw [window', Option.some.injEq] at window
    subst window
    obtain ⟨-, ordered, across⟩ := List.pairwise_append.mp dated
    refine ⟨fun r early => ?_, fun r late starts' => ?_⟩
    · -- The window would end at `r`, so before `m`.
      by_contra ends
      rw [Bool.not_eq_false] at ends
      have stops := endOf_le dated (List.mem_append_left _ early) ends
      have earlier := across r early m List.mem_cons_self
      exact absurd (before_end.trans_le (stops.trans earlier)) (lt_irrefl _)
    · have upper := latest r (List.mem_append_right before (List.mem_cons_of_mem m late)) starts'
      exact le_antisymm (upper.trans begun) ((List.pairwise_cons.mp ordered).1 r late)
  · rintro once t ⟨before, m, after, rfl, starts, begun, before_end⟩
    obtain ⟨no_end, same_time⟩ := once before m after rfl starts (begun.trans_lt before_end)
    obtain ⟨last, listed, starts', -, window⟩ :=
      windowOf_of_start dated (List.mem_append_right before List.mem_cons_self) starts
    have last_le : last.at ≤ m.at := by
      rcases List.mem_append.mp listed with early | rest
      · exact (List.pairwise_append.mp dated).2.2 last early m List.mem_cons_self
      · rcases List.mem_cons.mp rest with rfl | late
        · exact le_rfl
        · exact (same_time last late starts').le
    refine ⟨_, window, last_le.trans begun, ?_⟩
    rw [endOf_append no_end starts]
    exact before_end

end Trail

/-! ### What the history returns -/

section Returned

variable {h : History} {mrid : Mrid} {trail : List AuditRecord}

/-- The history holds the trail of the event. -/
def History.Holds (h : History) (mrid : Mrid) (trail : List AuditRecord) : Prop :=
  (h.stored.filter fun r => r.eventMrid = mrid) = trail

/-- A trail in order of time, and not too long, is read back as it is. -/
theorem records_eq (holds : h.Holds mrid trail) (dated : trail.Pairwise fun a b => a.at ≤ b.at)
    (short : trail.length ≤ 1000) : h.records mrid 1000 = trail := by
  rw [History.records, show h.stored.filter (fun r => r.eventMrid = mrid) = trail from holds,
    List.mergeSort_of_pairwise (dated.imp fun {a b} le => decide_eq_true le)]
  exact List.take_of_length_le short

/-- The window of an event is that of its trail. -/
theorem event_window (holds : h.Holds mrid trail) (dated : trail.Pairwise fun a b => a.at ≤ b.at)
    (short : trail.length ≤ 1000) : (h.event mrid).bind History.windowIn = windowOf trail := by
  rw [History.event]
  simp only [records_eq holds dated short]
  split
  · rename_i some_
    have ended : ((trail.find? (·.isEnd)).map (·.at)).filter (· ≠ 0) =
        (trail.find? (·.isEnd)).map (·.at) := by
      cases trail.find? (·.isEnd) with
      | none => rfl
      | some r => simp [Option.filter, r.timed]
    have stops : ((trail.find? (·.isEnd)).map (·.at)).getD (trail.getLast some_).effectiveEnd =
        endOf trail trail := by
      rw [endOf, List.getLast?_eq_some_getLast some_]
      cases trail.find? (·.isEnd) with
      | none => rfl
      | some r => rfl
    simp only [Option.bind_some, History.windowIn, summarize, ended, stops, windowOf, Option.map_map]
    rfl
  · rename_i empty
    rw [not_not] at empty
    rw [empty]
    rfl

theorem mem_newestFirst {rows : List AuditRecord} :
    mrid ∈ History.newestFirst rows ↔ ∃ r ∈ rows, r.eventMrid = mrid := by
  rw [History.newestFirst, List.mem_mergeSort, List.mem_dedup, List.mem_map]

theorem newestFirst_length_le (rows : List AuditRecord) :
    (History.newestFirst rows).length ≤ rows.length := by
  rw [History.newestFirst, List.length_mergeSort]
  exact (List.dedup_sublist _).length_le.trans_eq (List.length_map _)

/-- No event is cut off where no more than the limit overlap the range. -/
theorem mem_controlWindows {since until_ : ℚ}
    (few : (History.newestFirst (h.overlapping (some since) (some until_) none)).length ≤ 100000)
    (w : ℚ × ℚ) : w ∈ h.controlWindows since until_ ↔
      ∃ mrid, (∃ r ∈ h.overlapping (some since) (some until_) none, r.eventMrid = mrid) ∧
        (h.event mrid).bind History.windowIn = some w := by
  have all : (History.newestFirst (h.overlapping (some since) (some until_) none)).take
      (max 1 History.windowsLimit).toNat =
        History.newestFirst (h.overlapping (some since) (some until_) none) :=
    List.take_of_length_le few
  simp only [History.controlWindows, History.events, all, List.mem_filterMap, mem_newestFirst]
  constructor
  · rintro ⟨summary, ⟨mrid, listed, found⟩, window⟩
    exact ⟨mrid, listed, by rw [found, Option.bind_some, window]⟩
  · rintro ⟨mrid, listed, window⟩
    obtain ⟨summary, found, window⟩ := Option.bind_eq_some_iff.mp window
    exact ⟨summary, ⟨mrid, listed, found⟩, window⟩

theorem mem_overlapping {since until_ : ℚ} {r : AuditRecord} :
    r ∈ h.overlapping (some since) (some until_) none ↔
      r ∈ h.stored ∧ since < r.effectiveEnd ∧ r.effectiveStart < until_ := by
  simp [History.overlapping]

/-- A history of one event alone returns the window of its trail, if any. -/
theorem windowOf_alone (own : ∀ r ∈ trail, r.eventMrid = mrid)
    (dated : trail.Pairwise fun a b => a.at ≤ b.at) (short : trail.length ≤ 1000) {now since until_ : ℚ}
    {w : ℚ × ℚ} (returned : w ∈ (⟨trail, now⟩ : History).controlWindows since until_) :
    windowOf trail = some w := by
  have holds : (⟨trail, now⟩ : History).Holds mrid trail :=
    List.filter_eq_self.mpr fun r listed => by simp [own r listed]
  have few : (History.newestFirst ((⟨trail, now⟩ : History).overlapping (some since)
      (some until_) none)).length ≤ 100000 :=
    (newestFirst_length_le _).trans ((List.length_filter_le _ _).trans (short.trans (by decide)))
  obtain ⟨_, ⟨r, overlaps, rfl⟩, window⟩ := (mem_controlWindows few w).mp returned
  rwa [own r (mem_overlapping.mp overlaps).1, event_window holds dated short] at window

/-- A day with a covered instant is left out. -/
theorem excludes_of_covered {windows : List (ℚ × ℚ)} {t dayStart dayEnd : ℚ}
    (covered : Covered windows t) (inside : dayStart ≤ t ∧ t < dayEnd) :
    excludes windows dayStart dayEnd = true := by
  obtain ⟨w, listed, begun, before_end⟩ := covered
  refine List.any_eq_true.mpr ⟨w, listed, ?_⟩
  simp [begun.trans_lt inside.2, inside.1.trans_lt before_end]

end Returned

/-- The windows of every history that holds the trail, besides any other events, cover the times
it says the event was active, in every range that the event's effective window overlaps,
and a baseline leaves out their days, exactly if the event became active once. -/
theorem windows_cover_iff (mrid : Mrid) (trail : List AuditRecord)
    (own : ∀ r ∈ trail, r.eventMrid = mrid) (dated : trail.Pairwise fun a b => a.at ≤ b.at)
    (short : trail.length ≤ 1000) :
    (∀ (h : History) (since until_ : ℚ), h.Holds mrid trail →
        (History.newestFirst (h.overlapping (some since) (some until_) none)).length ≤ 100000 →
        (∃ r ∈ trail, since < r.effectiveEnd ∧ r.effectiveStart < until_) →
        ∀ t, since ≤ t → t < until_ → ActiveAt trail t →
          Covered (h.controlWindows since until_) t ∧
            ∀ dayStart dayEnd, dayStart ≤ t ∧ t < dayEnd →
              excludes (h.controlWindows since until_) dayStart dayEnd = true) ↔
      ActiveOnce trail := by
  rw [← window_covers_iff dated]
  constructor
  · intro covers t active
    obtain ⟨before, m, after, split_, -⟩ := id active
    have listed : m ∈ trail := split_ ▸ List.mem_append_right before List.mem_cons_self
    -- The history of this event alone, in a range wide enough.
    have holds : (⟨trail, 0⟩ : History).Holds mrid trail :=
      List.filter_eq_self.mpr fun r listed => by simp [own r listed]
    have few : (History.newestFirst ((⟨trail, 0⟩ : History).overlapping
        (some (min t m.effectiveEnd - 1)) (some (max t m.effectiveStart + 1)) none)).length ≤ 100000 :=
      (newestFirst_length_le _).trans ((List.length_filter_le _ _).trans (short.trans (by decide)))
    obtain ⟨⟨w, returned, inside⟩, -⟩ := covers ⟨trail, 0⟩ (min t m.effectiveEnd - 1)
      (max t m.effectiveStart + 1) holds few
      ⟨m, listed, by linarith [min_le_right t m.effectiveEnd],
        by linarith [le_max_right t m.effectiveStart]⟩ t
      (by linarith [min_le_left t m.effectiveEnd]) (by linarith [le_max_left t m.effectiveStart])
      active
    exact ⟨w, windowOf_alone own dated short returned, inside⟩
  · intro covers h since until_ holds few ⟨r, listed, overlaps⟩ t _ _ active
    obtain ⟨w, window, begun, before_end⟩ := covers t active
    have stored : r ∈ h.stored := by
      rw [← holds] at listed
      exact (List.mem_filter.mp listed).1
    have covered : Covered (h.controlWindows since until_) t :=
      ⟨w, (mem_controlWindows few w).mpr ⟨mrid, ⟨r, mem_overlapping.mpr ⟨stored, overlaps⟩,
        own r listed⟩, by rw [event_window holds dated short, window]⟩, begun, before_end⟩
    exact ⟨covered, fun dayStart dayEnd inside => excludes_of_covered covered inside⟩

/-! ### Trails of the processor -/

/-- The moves the processor records. `none` is an event first seen, which after a restart it is
again. -/
def recordsMove : Option TrailState → TrailState → Bool
  | none, to_ => to_ ∉ [.completed, .superseded]
  | some .scheduled, to_ => to_ ∈ [.scheduled, .active, .cancelled, .superseded, .optedOut]
  | some .active, to_ => to_ ∈ [.active, .completed, .cancelled, .superseded, .optedOut]
  | some .optedOut, to_ => to_ ∈ [.optedOut, .active, .completed, .cancelled, .superseded]
  | some _, _ => false

/-- Each record is a move of the processor, from where the trail was or, after a restart, from
the beginning. -/
def Follows (trail : List AuditRecord) : Prop :=
  (∀ r ∈ trail, recordsMove r.fromState r.toState = true) ∧
    trail.IsChain fun r next => next.fromState = none ∨ next.fromState = some r.toState

instance (trail : List AuditRecord) : Decidable (Follows trail) := by
  unfold Follows; infer_instance

/-- A move of event 1, whose effective window is `[5, 105)`. -/
def moveAt (time : ℚ) (timed : time ≠ 0) (from_ : Option TrailState) (to_ : TrailState) :
    AuditRecord where
  «at» := time
  timed := timed
  eventMrid := 1
  programHref := "/derp/1"
  fromState := from_
  toState := to_
  effectiveStart := 5
  effectiveDuration := 100
  primacy := 1
  lfdis := []

/-- Scheduled, run, partly superseded and completed. -/
def plainTrail : List AuditRecord :=
  [moveAt 1 (by decide) none .scheduled, moveAt 5 (by decide) (some .scheduled) .active,
    moveAt 50 (by decide) (some .active) .active, moveAt 105 (by decide) (some .active) .completed]

theorem plainTrail_once : ActiveOnce plainTrail := by
  intro before m after split_ starts _
  -- Only the second record moves it into active.
  obtain rfl | ⟨a, rfl⟩ | ⟨a, b, rest, rfl⟩ : before = [] ∨ (∃ a, before = [a]) ∨
      ∃ a b rest, before = a :: b :: rest := by
    rcases before with _ | ⟨a, _ | ⟨b, rest⟩⟩ <;> simp
  · cases split_
    exact absurd starts (by decide)
  · cases split_
    decide
  · have late : ∀ r ∈ plainTrail.drop 2, r.isStart = false := by decide
    have listed : m ∈ plainTrail.drop 2 := by
      rw [split_]
      exact List.mem_append_right rest List.mem_cons_self
    rw [late m listed] at starts
    cases starts

/-- Its window holds a time of its activity. -/
theorem plainTrail_covered : Covered ((⟨plainTrail, 0⟩ : History).controlWindows 0 200) 60 :=
  ((windows_cover_iff 1 plainTrail (by decide) (by decide +kernel) (by decide)).mpr plainTrail_once
    ⟨plainTrail, 0⟩ 0 200 rfl
    ((newestFirst_length_le _).trans ((List.length_filter_le _ _).trans (by decide)))
    ⟨_, List.mem_cons_self, by decide +kernel, by decide +kernel⟩ 60 (by norm_num) (by norm_num)
    ⟨[_], _, _, rfl, by decide +kernel⟩).1

/-- A restart while the event runs. -/
def restartedTrail : List AuditRecord :=
  [moveAt 10 (by decide) none .active, moveAt 50 (by decide) none .active,
    moveAt 105 (by decide) (some .active) .completed]

/-- A restart after the event was opted out of. -/
def optedOutTrail : List AuditRecord :=
  [moveAt 10 (by decide) none .active, moveAt 20 (by decide) (some .active) .optedOut,
    moveAt 50 (by decide) none .active, moveAt 105 (by decide) (some .active) .completed]

/-- The time before the restart is in no window; after an opt-out neither period is. -/
theorem restartedTrail_uncovered :
    (Follows restartedTrail ∧ ActiveAt restartedTrail 20 ∧
        ¬ Covered ((⟨restartedTrail, 0⟩ : History).controlWindows 0 200) 20) ∧
      Follows optedOutTrail ∧
        (ActiveAt optedOutTrail 15 ∧
          ¬ Covered ((⟨optedOutTrail, 0⟩ : History).controlWindows 0 200) 15) ∧
        ActiveAt optedOutTrail 60 ∧
          ¬ Covered ((⟨optedOutTrail, 0⟩ : History).controlWindows 0 200) 60 := by
  have uncovered : ∀ (trail : List AuditRecord) (a b t : ℚ), (∀ r ∈ trail, r.eventMrid = 1) →
      (trail.Pairwise fun a b => a.at ≤ b.at) → trail.length ≤ 1000 →
      windowOf trail = some (a, b) → ¬ (a ≤ t ∧ t < b) →
      ¬ Covered ((⟨trail, 0⟩ : History).controlWindows 0 200) t := by
    rintro trail a b t own dated short window outside ⟨w, returned, inside⟩
    cases window.symm.trans (windowOf_alone own dated short returned)
    exact outside inside
  refine ⟨⟨by decide +kernel, ⟨[], _, _, rfl, by decide +kernel⟩, ?_⟩, by decide +kernel,
    ⟨⟨[], _, _, rfl, by decide +kernel⟩, ?_⟩, ⟨[_, _], _, _, rfl, by decide +kernel⟩, ?_⟩
  · exact uncovered restartedTrail 50 105 20 (by decide) (by decide +kernel) (by decide)
      (by decide +kernel) (by decide +kernel)
  · exact uncovered optedOutTrail 50 20 15 (by decide) (by decide +kernel) (by decide)
      (by decide +kernel) (by decide +kernel)
  · exact uncovered optedOutTrail 50 20 60 (by decide) (by decide +kernel) (by decide)
      (by decide +kernel) (by decide +kernel)

end Py20305.EventHistory
