import Py20305.Events.Responses
import Py20305.Sep.Resources

/-!
`_apply_control_to_connector` (`connectors/dispatcher.py`): a control goes to a device mode by
mode, in the order of `translate_controls`, and stops at the first mode whose write raises.

Each write is awaited, so anything can happen between two modes: `Applying.next` is one round
of the loop. The rounds of one control that is left alone are the loop (`settle_eq_apply`).

Left out: the parameters of a mode, and the records and reports made of its write.
-/

namespace Py20305.Connectors

/-- `CONTROL_ELEMENTS + DOE_ELEMENTS`. -/
def translationOrder : List Mode :=
  [.opModConnect, .opModEnergize, .opModDeltaVar, .opModDeltaW, .opModFixedPfabsorbW,
    .opModFixedPfinjectW, .opModFixedV, .opModFixedVar, .opModFixedW, .opModFreqDroop,
    .opModFreqWatt, .opModGridConnectPermit, .opModHfrtmayTrip, .opModHfrtmustTrip,
    .opModHvrtmayTrip, .opModHvrtmomentaryCessation, .opModHvrtmustTrip, .opModIslandPermit,
    .opModLfrtmayTrip, .opModLfrtmustTrip, .opModLvrtmayTrip, .opModLvrtmomentaryCessation,
    .opModLvrtmustTrip, .opModMaxLimPctVaabsorb, .opModMaxLimPctVainject,
    .opModMaxLimPctVarAbsorb, .opModMaxLimPctVarInject, .opModMaxLimPctWabsorb,
    .opModMaxLimVarAbsorb, .opModMaxLimVarInject, .opModMaxLimW, .opModMaxLimWabsorb,
    .opModMaxLimWinject, .opModTargetV, .opModTargetVar, .opModTargetW, .opModVoltVar,
    .opModVoltWatt, .opModWattPf, .opModWattVar, .opModExpLimW, .opModImpLimW, .opModGenLimW,
    .opModLoadLimW]

/-- `translate_controls`. -/
def translateControls (base : DercontrolBase) : List Mode :=
  translationOrder.filter (· ∈ base.present)

/-- What becomes of one mode on a device. -/
inductive Fate where
  | applied
  /-- The connector has no method for it. -/
  | unsupported
  /-- The gate does not let it through. -/
  | refused
  | failed (f : DispatchFailure)
  deriving DecidableEq

/-- A control on its way to a device. -/
structure Applying where
  todo : List Mode
  refused : Bool := false
  /-- How it settled, if it has. -/
  outcome : Option (Option DispatchFailure) := none

namespace Applying

/-- One round of the loop, or its end. -/
def next (a : Applying) (fate : Fate) : Applying :=
  match a.todo, fate with
  | [], _ => { a with outcome := some (if a.refused then some .commandNotPermitted else none) }
  | _ :: rest, .applied => { a with todo := rest }
  | _ :: rest, .unsupported => { a with todo := rest }
  | _ :: rest, .refused => { a with todo := rest, refused := true }
  | _ :: _, .failed f => { a with outcome := some (some f) }

/-- The mode a round writes, if it writes one. -/
def written (a : Applying) (fate : Fate) : Option Mode :=
  if fate = .applied then a.todo.head? else none

/-- A round leaves no mode to be written that was not to be written before it. -/
theorem todo_next_subset (a : Applying) (fate : Fate) : (a.next fate).todo ⊆ a.todo := by
  unfold next
  split
  · exact fun _ member => member
  all_goals
    rename_i found
    simp only [found]
  · exact List.subset_cons_self ..
  · exact List.subset_cons_self ..
  · exact List.subset_cons_self ..
  · exact fun _ member => member

theorem mem_todo_of_written {a : Applying} {fate : Fate} {m : Mode}
    (writes : a.written fate = some m) : m ∈ a.todo := by
  unfold written at writes
  split at writes
  · exact List.mem_of_mem_head? writes
  · cases writes

/-- A failed write ends it, whatever was left to do. -/
theorem settled_next_failed (a : Applying) (f : DispatchFailure) :
    (a.next (.failed f)).outcome.isSome = true := by
  cases found : a.todo <;> simp [next, found]

/-- The rounds of a control, as long as it has not settled. -/
def settle (fates : Mode → Fate) : Nat → Applying → List Mode × Applying
  | 0, a => ([], a)
  | rounds + 1, a =>
      if a.outcome.isSome then ([], a)
      else
        let fate := (a.todo.head?.map fates).getD .applied
        let (written, last) := settle fates rounds (a.next fate)
        ((a.written fate).toList ++ written, last)

end Applying

/-- The loop of `_apply_control_to_connector`: the modes written, and how it ended. -/
def applyControlToConnector (fates : Mode → Fate) :
    List Mode → Bool → List Mode × Option DispatchFailure
  | [], refused => ([], if refused then some .commandNotPermitted else none)
  | m :: rest, refused =>
      match fates m with
      | .applied =>
          (m :: (applyControlToConnector fates rest refused).1,
            (applyControlToConnector fates rest refused).2)
      | .unsupported => applyControlToConnector fates rest refused
      | .refused => applyControlToConnector fates rest true
      | .failed f => ([], some f)

/-- The rounds of a control that is left alone write what the loop writes, and it settles as the
loop ends. -/
theorem settle_eq_apply (fates : Mode → Fate) (modes : List Mode) (refused : Bool) {rounds : Nat}
    (enough : modes.length < rounds) :
    (Applying.settle fates rounds ⟨modes, refused, none⟩).1 =
        (applyControlToConnector fates modes refused).1 ∧
      (Applying.settle fates rounds ⟨modes, refused, none⟩).2.outcome =
        some (applyControlToConnector fates modes refused).2 := by
  have stays : ∀ (n : Nat) (a : Applying), a.outcome.isSome = true →
      Applying.settle fates n a = ([], a) := by
    intro n a settled
    cases n with
    | zero => rfl
    | succ n => rw [Applying.settle, if_pos settled]
  induction modes generalizing refused rounds with
  | nil =>
      obtain ⟨n, rfl⟩ := Nat.exists_eq_succ_of_ne_zero (Nat.ne_of_gt enough)
      simp [Applying.settle, Applying.next, Applying.written, stays, applyControlToConnector]
  | cons m rest ih =>
      obtain ⟨n, rfl⟩ := Nat.exists_eq_succ_of_ne_zero (Nat.ne_zero_of_lt enough)
      have later : rest.length < n := by simpa using enough
      rw [Applying.settle, applyControlToConnector]
      cases fate : fates m with
      | applied =>
          obtain ⟨written, ended⟩ := ih refused later
          simp [Applying.next, Applying.written, fate, written, ended]
      | unsupported =>
          obtain ⟨written, ended⟩ := ih refused later
          simp [Applying.next, Applying.written, fate, written, ended]
      | refused =>
          obtain ⟨written, ended⟩ := ih true later
          simp [Applying.next, Applying.written, fate, written, ended]
      | failed f => simp [Applying.next, Applying.written, fate, stays]

end Py20305.Connectors
