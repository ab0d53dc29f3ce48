import Mathlib.Logic.Function.Basic

/-!
Machines: a state and labelled steps.

`Machine.step` is executable. A `Run` is a sequence of steps that meet a
condition; what every step keeps holds along it (`Run.keeps`), and a list of
labels that executes is one (`run_of_exec`).
-/

/-- What a labelled step does, where it can be taken. -/
structure Machine where
  State : Type
  Label : Type
  step : Label → State → Option State

namespace Machine

variable {M : Machine} {ok : M.State → M.Label → M.State → Prop} {s t u : M.State}

/-- Runs whose steps all meet `ok`, a condition on the state before the step, the
step and the state after it. -/
inductive Run (M : Machine) (ok : M.State → M.Label → M.State → Prop) :
    M.State → M.State → Prop where
  | refl (s : M.State) : Run M ok s s
  | step {s t u : M.State} (l : M.Label) : Run M ok s t → M.step l t = some u → ok t l u →
      Run M ok s u

/-- Runs of any steps. -/
def Free (_ : M.State) (_ : M.Label) (_ : M.State) : Prop := True

/-- Steps into states that meet `P`. -/
def Into (P : M.State → Prop) (_ : M.State) (_ : M.Label) (t : M.State) : Prop := P t

/-- What every step keeps holds along a run. -/
theorem Run.keeps {P : M.State → Prop}
    (steps : ∀ l t u, M.step l t = some u → ok t l u → P t → P u) (run : M.Run ok s t)
    (holds : P s) : P t := by
  induction run with
  | refl => exact holds
  | step l _ stepped met ih => exact steps l _ _ stepped met ih

theorem Run.trans (first : M.Run ok s t) (second : M.Run ok t u) : M.Run ok s u := by
  induction second with
  | refl => exact first
  | step l _ stepped met ih => exact .step l ih stepped met

theorem Run.weaken {ok' : M.State → M.Label → M.State → Prop}
    (weaker : ∀ {s l t}, ok s l t → ok' s l t) (run : M.Run ok s t) : M.Run ok' s t := by
  induction run with
  | refl => exact .refl _
  | step l _ stepped met ih => exact .step l ih stepped (weaker met)

/-- Take the steps one after the other. -/
def exec (M : Machine) (s : M.State) : List M.Label → Option M.State
  | [] => some s
  | l :: rest => (M.step l s).bind fun t => exec M t rest

/-- A list of labels that executes is a run of steps with these labels. -/
theorem run_of_labels {allowed : M.Label → Prop} (ls : List M.Label)
    (executed : M.exec s ls = some t) (each : ∀ l ∈ ls, allowed l) :
    M.Run (fun _ l _ => allowed l) s t := by
  induction ls generalizing s with
  | nil =>
      cases executed
      exact .refl _
  | cons l rest ih =>
      obtain ⟨mid, stepped, later⟩ := Option.bind_eq_some_iff.mp executed
      have first : M.Run (fun _ l _ => allowed l) s mid :=
        .step l (.refl _) stepped (each l List.mem_cons_self)
      exact first.trans (ih later fun l' listed => each l' (List.mem_cons_of_mem _ listed))

/-- Take the steps one after the other, as long as each meets `ok`. -/
def execMeeting (M : Machine) (ok : M.State → M.Label → M.State → Prop)
    [∀ s l t, Decidable (ok s l t)] (s : M.State) : List M.Label → Option M.State
  | [] => some s
  | l :: rest =>
      (M.step l s).bind fun t => if ok s l t then execMeeting M ok t rest else none

/-- A list of labels that executes so is a run of steps that meet `ok`. -/
theorem run_of_meeting [∀ s l t, Decidable (ok s l t)] (ls : List M.Label)
    (executed : M.execMeeting ok s ls = some t) : M.Run ok s t := by
  induction ls generalizing s with
  | nil =>
      cases executed
      exact .refl _
  | cons l rest ih =>
      obtain ⟨mid, stepped, later⟩ := Option.bind_eq_some_iff.mp executed
      split at later
      · rename_i met
        exact (Run.step l (.refl _) stepped met).trans (ih later)
      · cases later

theorem run_of_exec (ls : List M.Label) (executed : M.exec s ls = some t) : M.Run Free s t :=
  run_of_labels ls executed fun _ _ => trivial

end Machine
