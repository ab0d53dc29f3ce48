import Py20305.Events.System

/-!
The devices as the processor leaves them: for each target and mode, who wrote
it last.

The model is read off the dispatcher calls, each taken to have succeeded. A
control and a default write the modes that have a connector method; a
withdrawal disables the modes it names, those kept at an event's end excepted;
a clear disables every mode.
-/

namespace Py20305

/-- Who wrote a mode last. -/
inductive Writer where
  | event (mrid : Mrid)
  | default (mrid : Mrid)
  | disabled
  deriving DecidableEq, Repr

/-- What a call does to one mode of one target. -/
def Call.writes (t : Target) (m : Mode) : Call → Option Writer
  | control u mrid base => if u = t ∧ m ∈ translatedModes base then some (.event mrid) else none
  | defaultControl u dderc _ =>
      if u = t ∧ m ∈ translatedModes dderc.base then some (.default dderc.mrid) else none
  | disableModes u modes _ =>
      if u = t ∧ m ∈ modes ∧ m.isWithdrawable = true then some .disabled else none
  | clearControl u _ => if u = t ∧ m.hasElement = true then some .disabled else none

/-- The last writer after a list of calls, from `w` on. -/
def writerAfter (t : Target) (m : Mode) (w : Option Writer) (calls : List Call) : Option Writer :=
  calls.foldl (fun w call => (call.writes t m).or w) w

/-- The last writer of a mode of a target. -/
def World.lastWriter (w : World) (t : Target) (m : Mode) : Option Writer :=
  writerAfter t m none (w.issued.map (·.call))

/-- The last entry of a log that writes a mode of a target, `last` being the one
before it. -/
def lastWriteIn (t : Target) (m : Mode) (last : Option Issued) (log : List Issued) :
    Option Issued :=
  log.foldl (fun last e => if (e.call.writes t m).isSome then some e else last) last

/-- The call that wrote a mode of a target last, with the state it was made in. -/
def World.lastWrite (w : World) (t : Target) (m : Mode) : Option Issued :=
  lastWriteIn t m none w.issued

theorem lastWriteIn_append (t : Target) (m : Mode) (last : Option Issued) (xs ys : List Issued) :
    lastWriteIn t m last (xs ++ ys) = lastWriteIn t m (lastWriteIn t m last xs) ys := by
  simp [lastWriteIn]

/-- Either nothing in the log writes the mode, or one of its entries did last. -/
theorem lastWriteIn_cases (t : Target) (m : Mode) (last : Option Issued) (log : List Issued) :
    (lastWriteIn t m last log = last ∧ ∀ e ∈ log, (e.call.writes t m).isSome = false) ∨
      ∃ e ∈ log, lastWriteIn t m last log = some e ∧ (e.call.writes t m).isSome = true := by
  induction log generalizing last with
  | nil => exact .inl ⟨rfl, fun e member => nomatch member⟩
  | cons e rest ih =>
      rw [lastWriteIn, List.foldl_cons]
      rcases ih (if (e.call.writes t m).isSome then some e else last) with ⟨same, none_⟩ | found
      · by_cases writes : (e.call.writes t m).isSome = true
        · refine .inr ⟨e, List.mem_cons_self, ?_, writes⟩
          rw [if_pos writes] at same ⊢
          exact same
        · refine .inl ⟨?_, fun e' member => ?_⟩
          · rw [if_neg writes] at same ⊢
            exact same
          · rcases List.mem_cons.mp member with rfl | later
            · simpa using writes
            · exact none_ e' later
      · obtain ⟨e', member, last_, writes⟩ := found
        exact .inr ⟨e', List.mem_cons_of_mem _ member, last_, writes⟩

/-- Who wrote last is who made the last write. -/
theorem lastWriter_eq_lastWrite (w : World) (t : Target) (m : Mode) :
    w.lastWriter t m = (w.lastWrite t m).bind fun e => e.call.writes t m := by
  have each : ∀ (log : List Issued) (last : Option Issued),
      writerAfter t m (last.bind fun e => e.call.writes t m) (log.map (·.call)) =
        (lastWriteIn t m last log).bind fun e => e.call.writes t m := by
    intro log
    induction log with
    | nil => exact fun last => rfl
    | cons e rest ih =>
        intro last
        rw [List.map_cons, writerAfter, List.foldl_cons, lastWriteIn, List.foldl_cons]
        have step : (e.call.writes t m).or (last.bind fun e => e.call.writes t m) =
            (if (e.call.writes t m).isSome then some e else last).bind
              fun e => e.call.writes t m := by
          cases writes : e.call.writes t m <;> simp [writes]
        rw [step]
        exact ih _
  exact each w.issued none

/-- The modes an event answers for at its end: those the tracker knows and the
end does not keep. -/
def Mode.isReleasable (m : Mode) : Bool := m.isTracked && !m.keptAtEventEnd

end Py20305
