import Py20305.Lib.ThreadHop
import Py20305.SunSpec.Controls

/-!
Calls of a SunSpec connector (`SunSpecModbusConnector.fetch_*` and `update_*`).

Each awaits its core on a thread, under the connector's lock. A caller that is cancelled while the
thread is busy gives the lock up, and the next call's core runs beside it (`oneCore_iff`).

Left out: a second event loop, for which the connector makes itself another lock, and what a core
returns or raises.
-/

namespace Py20305.SunSpec

open ThreadHop

/-! ### The connector -/

inductive Fetch where
  | monitoring
  | nameplate
  | status
  | configuration

/-- What a thread does. -/
inductive CoreWork where
  | fetch (what : Fetch)
  | update (call : CoreCall)

inductive CallStep where
  | fetch (what : Fetch)
  | update (call : CoreCall)
  /-- The next waiter of the lock goes on. -/
  | granted
  /-- A thread begins a call's core. -/
  | starts (i : Nat)
  | finishes (i : Nat)
  | returns (i : Nat)
  | cancel (i : Nat)
  | unwind (i : Nat)

abbrev Calls := Hops CoreWork Unit

/-- The calls of a connector as a machine. -/
def calls : Machine where
  State := Calls
  Label := CallStep
  step
    | .fetch what, s => some (s.call (.fetch what) true)
    | .update call, s => some (s.call (.update call) true)
    | .granted, s => s.granted true
    | .starts i, s => s.starts i
    | .finishes i, s => s.finishes i ()
    | .returns i, s => (s.returns i).map Prod.fst
    | .cancel i, s => s.cancel i
    | .unwind i, s => s.unwind i

def Calls.fresh : Calls := Hops.fresh (.fetch .monitoring)

/-- A cancelled caller does not unwind while a thread runs its core. -/
def Attending (s : Calls) : CallStep → Prop
  | .unwind i => ¬s.Attends i
  | _ => True

instance decidableAttending (s : Calls) (l : CallStep) : Decidable (Attending s l) := by
  cases l <;> unfold Attending <;> infer_instance

instance (s : calls.State) (l : calls.Label) : Decidable (Attending s l) := decidableAttending s l

/-! ### One core at a time -/

section Steps

variable {s t : Calls}

theorem attended_step {l : CallStep} (stepped : calls.step l s = some t) (minds : Attending s l)
    (kept : s.Sound ∧ s.Attended) : t.Sound ∧ t.Attended := by
  obtain ⟨sound, attended⟩ := kept
  cases l with
  | fetch what => cases stepped; exact ⟨sound.call _ _, attended.call _ _⟩
  | update call => cases stepped; exact ⟨sound.call _ _, attended.call _ _⟩
  | granted => exact ⟨sound.granted stepped, attended.granted sound stepped⟩
  | starts i => exact ⟨sound.starts stepped, attended.starts stepped⟩
  | finishes i => exact ⟨sound.finishes stepped, attended.finishes stepped⟩
  | returns i =>
      obtain ⟨⟨v, r⟩, returned, rfl⟩ := Option.map_eq_some_iff.mp stepped
      exact ⟨sound.returns returned, attended.returns returned⟩
  | cancel i => exact ⟨sound.cancel stepped, attended.cancel stepped⟩
  | unwind i => exact ⟨sound.unwind stepped, attended.unwind stepped minds⟩

theorem attended_run (run : calls.Run (fun s l _ => Attending s l) s t)
    (kept : s.Sound ∧ s.Attended) : t.Sound ∧ t.Attended :=
  run.keeps (P := fun (s : Calls) => s.Sound ∧ s.Attended)
    (fun _ _ _ stepped minds kept => attended_step stepped minds kept) kept

/-- A caller unwinds while its thread runs, and the next call's core runs beside it. -/
theorem overlaps_of_unwind {i : Nat} (sound : s.Sound) (attends : s.Attends i)
    (stepped : calls.step (.unwind i) s = some t) :
    ∃ u, calls.Run (fun s l _ => Attending s l) t u ∧ ¬u.Exclusive := by
  have after : t.Sound := sound.unwind stepped
  obtain ⟨free, running, -⟩ := attends.unwind stepped
  rcases after.second_runs free running (.fetch .monitoring) with
    ⟨-, v, starts, overlaps⟩ | ⟨j, m, v, granted, starts, overlaps⟩
  · exact ⟨v, .step (.starts t.next) (.step (.fetch .monitoring) (.refl _) rfl trivial) starts
      trivial, overlaps⟩
  · exact ⟨v, .step (.starts j) (.step .granted (.refl _) granted trivial) starts trivial, overlaps⟩

end Steps

/-- As long as no caller unwinds while a thread runs its core, one core runs at a time; once one
does, two may. -/
theorem oneCore_iff {s : Calls} (run : calls.Run (fun s l _ => Attending s l) .fresh s) :
    s.Exclusive ∧ ∀ l t, calls.step l s = some t →
      ((∀ u, calls.Run (fun s l _ => Attending s l) t u → u.Exclusive) ↔ Attending s l) := by
  have kept := attended_run run ⟨sound_fresh _, attended_fresh _⟩
  refine ⟨kept.2.exclusive kept.1, fun l t stepped => ⟨fun always => ?_, fun minds u later => ?_⟩⟩
  · cases l with
    | unwind i =>
        intro attends
        obtain ⟨u, later, overlaps⟩ := overlaps_of_unwind kept.1 attends stepped
        exact overlaps (always u later)
    | fetch what => trivial
    | update call => trivial
    | granted => trivial
    | starts i => trivial
    | finishes i => trivial
    | returns i => trivial
    | cancel i => trivial
  · obtain ⟨sound, attended⟩ := attended_run later (attended_step stepped minds kept)
    exact attended.exclusive sound

end Py20305.SunSpec
