import Mathlib.Data.List.Basic
import Mathlib.Tactic.TypeStar

/-!
Code that raises.

A `Raising` computation returns or raises, and what it changed before it raised stays
changed. `Ends c s Q E` is its weakest precondition: run from `s` it returns as `Q` says
or raises as `E` says. The `ends_` rules take composed code apart, one equivalence for
each combinator, so that a proof about a function never unfolds them; a call of another
function is replaced by what is known of it (`Ends.mono`).
-/

/-- Code over a state that returns or raises. -/
def Raising (ε σ α : Type) : Type := σ → Except ε α × σ

namespace Raising

variable {ε σ τ α β ι : Type}

/-- Raise. -/
def raise (e : ε) : Raising ε σ α := fun s => (.error e, s)

/-- The state. -/
def read : Raising ε σ σ := fun s => (.ok s, s)

/-- Change the state. -/
def change (f : σ → σ) : Raising ε σ Unit := fun s => (.ok (), f s)

instance : Monad (Raising ε σ) where
  pure a s := (.ok a, s)
  bind c f s :=
    match c s with
    | (.ok a, t) => f a t
    | (.error e, t) => (.error e, t)

instance : LawfulMonad (Raising ε σ) :=
  LawfulMonad.mk' (Raising ε σ)
    (fun {_} c => by
      funext s
      change (match c s with | (.ok a, t) => (.ok a, t) | (.error e, t) => (.error e, t)) = c s
      rcases c s with ⟨e | a, t⟩ <;> rfl)
    (fun _ _ => rfl)
    fun {_ _ _} c f g => by
      funext s
      change (match (match c s with | (.ok a, t) => f a t | (.error e, t) => (.error e, t)) with
        | (.ok b, u) => g b u
        | (.error e, u) => (.error e, u)) = match c s with
          | (.ok a, t) => (f a >>= g) t
          | (.error e, t) => (.error e, t)
      rcases c s with ⟨e | a, t⟩ <;> rfl

/-- Run `handler` where the code raises. -/
def except (c : Raising ε σ α) (handler : ε → Raising ε σ α) : Raising ε σ α := fun s =>
  match c s with
  | (.ok a, t) => (.ok a, t)
  | (.error e, t) => handler e t

/-- Code over a part of the state. -/
def within (get : τ → σ) (set : τ → σ → τ) (c : Raising ε σ α) : Raising ε τ α := fun t =>
  ((c (get t)).1, set t (c (get t)).2)

/-- Do something for each item of a list, one after the other. -/
def each : List ι → (ι → Raising ε σ Unit) → Raising ε σ Unit
  | [], _ => pure ()
  | i :: rest, f => do
      f i
      each rest f

/-- The code returns `a` and leaves `t`. -/
def Returns (c : Raising ε σ α) (s : σ) (a : α) (t : σ) : Prop := c s = (.ok a, t)

/-- The code raises `e` and leaves `t`. -/
def Raises (c : Raising ε σ α) (s : σ) (e : ε) (t : σ) : Prop := c s = (.error e, t)

/-- The code returns as `Q` says, or raises as `E` says. -/
def Ends (c : Raising ε σ α) (s : σ) (Q : α → σ → Prop) (E : ε → σ → Prop) : Prop :=
  match c s with
  | (.ok a, t) => Q a t
  | (.error e, t) => E e t

variable {c : Raising ε σ α} {f : α → Raising ε σ β} {s t : σ} {a : α} {e : ε}

theorem ends_iff {Q : α → σ → Prop} {E : ε → σ → Prop} : c.Ends s Q E ↔
    (∀ a t, c.Returns s a t → Q a t) ∧ ∀ e t, c.Raises s e t → E e t := by
  unfold Ends Returns Raises
  rcases c s with ⟨e | a, t⟩
  · constructor
    · intro ends
      refine ⟨nofun, fun e' t' raises => ?_⟩
      cases raises
      exact ends
    · exact fun both => both.2 e t rfl
  · constructor
    · intro ends
      refine ⟨fun a' t' returns => ?_, nofun⟩
      cases returns
      exact ends
    · exact fun both => both.1 a t rfl

theorem Ends.returns {Q : α → σ → Prop} {E : ε → σ → Prop} (ends : c.Ends s Q E)
    (returns : c.Returns s a t) : Q a t := (ends_iff.mp ends).1 a t returns

theorem Ends.raises {Q : α → σ → Prop} {E : ε → σ → Prop} (ends : c.Ends s Q E)
    (raises : c.Raises s e t) : E e t := (ends_iff.mp ends).2 e t raises

/-- Of what is known of a call, what is needed of it follows. -/
theorem Ends.mono {Q Q' : α → σ → Prop} {E E' : ε → σ → Prop} (ends : c.Ends s Q E)
    (returns : ∀ a t, Q a t → Q' a t) (raises : ∀ e t, E e t → E' e t) : c.Ends s Q' E' :=
  ends_iff.mpr ⟨fun a t returned => returns a t (ends.returns returned),
    fun e t raised => raises e t (ends.raises raised)⟩

theorem Ends.and {Q Q' : α → σ → Prop} {E E' : ε → σ → Prop} (ends : c.Ends s Q E)
    (ends' : c.Ends s Q' E') :
    c.Ends s (fun a t => Q a t ∧ Q' a t) fun e t => E e t ∧ E' e t :=
  ends_iff.mpr ⟨fun _ _ returned => ⟨ends.returns returned, ends'.returns returned⟩,
    fun _ _ raised => ⟨ends.raises raised, ends'.raises raised⟩⟩

/-- What holds of a state however the code ends holds of the state it leaves. -/
theorem Ends.leaves {P : σ → Prop} (ends : c.Ends s (fun _ t => P t) fun _ t => P t) :
    P (c s).2 := by
  unfold Ends at ends
  rcases found : c s with ⟨e | a, t⟩
  · rwa [found] at ends
  · rwa [found] at ends

theorem returns_or_raises (c : Raising ε σ α) (s : σ) :
    (∃ a t, c.Returns s a t) ∨ ∃ e t, c.Raises s e t := by
  rcases found : c s with ⟨e | a, t⟩
  · exact .inr ⟨e, t, found⟩
  · exact .inl ⟨a, t, found⟩

theorem Returns.bind_apply (returns : c.Returns s a t) : (c >>= f) s = f a t := by
  change (match c s with | (.ok a, t) => f a t | (.error e, t) => (.error e, t)) = _
  rw [show c s = (.ok a, t) from returns]

theorem Raises.bind (raises : c.Raises s e t) : (c >>= f).Raises s e t := by
  change (match c s with | (.ok a, t) => f a t | (.error e, t) => (.error e, t)) = _
  rw [show c s = (.error e, t) from raises]

/-! ### The rules -/

section Rules

variable {Q : α → σ → Prop} {E : ε → σ → Prop} {R : β → σ → Prop}

@[simp] theorem ends_pure_iff : (pure a : Raising ε σ α).Ends s Q E ↔ Q a s := Iff.rfl

@[simp] theorem ends_raise_iff : (raise e : Raising ε σ α).Ends s Q E ↔ E e s := Iff.rfl

@[simp] theorem ends_read_iff {Q : σ → σ → Prop} :
    (read : Raising ε σ σ).Ends s Q E ↔ Q s s := Iff.rfl

@[simp] theorem ends_change_iff {g : σ → σ} {Q : Unit → σ → Prop} :
    (change g : Raising ε σ Unit).Ends s Q E ↔ Q () (g s) := Iff.rfl

@[simp] theorem ends_bind_iff :
    (c >>= f).Ends s R E ↔ c.Ends s (fun a t => (f a).Ends t R E) E := by
  unfold Ends
  change (match (match c s with | (.ok a, t) => f a t | (.error e, t) => (.error e, t)) with
    | (.ok b, u) => R b u
    | (.error e, u) => E e u) ↔ _
  rcases c s with ⟨e | a, t⟩ <;> exact Iff.rfl

@[simp] theorem ends_except_iff {handler : ε → Raising ε σ α} :
    (c.except handler).Ends s Q E ↔ c.Ends s Q fun e t => (handler e).Ends t Q E := by
  unfold Ends Raising.except
  rcases c s with ⟨e | a, t⟩ <;> exact Iff.rfl

@[simp] theorem ends_within_iff {get : τ → σ} {set : τ → σ → τ} {v : τ} {Q : α → τ → Prop}
    {E : ε → τ → Prop} : (within get set c).Ends v Q E ↔
      c.Ends (get v) (fun a t => Q a (set v t)) fun e t => E e (set v t) := by
  unfold Ends within
  rcases c (get v) with ⟨e | a, t⟩ <;> exact Iff.rfl

theorem ends_ite_iff {P : Prop} [Decidable P] {d : Raising ε σ α} :
    (if P then c else d).Ends s Q E ↔ (P → c.Ends s Q E) ∧ (¬ P → d.Ends s Q E) := by
  by_cases holds : P <;> simp [holds]

@[simp] theorem ends_each_nil_iff {g : ι → Raising ε σ Unit} {Q : Unit → σ → Prop} :
    (each [] g).Ends s Q E ↔ Q () s := Iff.rfl

@[simp] theorem ends_each_cons_iff {i : ι} {rest : List ι} {g : ι → Raising ε σ Unit}
    {Q : Unit → σ → Prop} :
    (each (i :: rest) g).Ends s Q E ↔ (g i).Ends s (fun _ t => (each rest g).Ends t Q E) E :=
  ends_bind_iff

end Rules

end Raising
