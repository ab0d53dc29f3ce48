import Mathlib

/-!
Offers that are taken unless something better is on record.

A ledger remembers, for each key, the rank and the tag of the offer last taken
under it. An offer is admitted if no other key has a better rank on record and
its own key has a worse one, or the same with another tag. Whatever becomes of
an offer, those that come after it under other keys are admitted as if it were
not there, but for those of a worse rank (`admits_take`).
-/

namespace Offers

variable {κ ρ τ : Type} [DecidableEq κ] [LinearOrder ρ]

/-- What is offered under a key; the lower rank is the better one. -/
structure Offer (κ ρ τ : Type) where
  key : κ
  rank : ρ
  tag : τ

/-- The rank and the tag last taken under each key. -/
abbrev Ledger (κ ρ τ : Type) := κ → Option (ρ × τ)

namespace Ledger

/-- Nothing on record stands against the offer. -/
structure Admits (l : Ledger κ ρ τ) (o : Offer κ ρ τ) : Prop where
  others : ∀ k e, k ≠ o.key → l k = some e → o.rank ≤ e.1
  own : ∀ e, l o.key = some e → o.rank < e.1 ∨ o.rank = e.1 ∧ o.tag ≠ e.2

open scoped Classical in
/-- Put an offer on record if it is admitted. -/
noncomputable def take (l : Ledger κ ρ τ) (o : Offer κ ρ τ) : Ledger κ ρ τ :=
  if l.Admits o then Function.update l o.key (some (o.rank, o.tag)) else l

variable {l : Ledger κ ρ τ} {o first : Offer κ ρ τ}

theorem take_of_admits (admitted : l.Admits o) :
    l.take o = Function.update l o.key (some (o.rank, o.tag)) := if_pos admitted

theorem take_of_not_admits (rejected : ¬ l.Admits o) : l.take o = l := if_neg rejected

omit [DecidableEq κ] in
/-- What is taken is at least as good as what it replaces. -/
theorem Admits.rank_le (admitted : l.Admits o) {e : ρ × τ} (found : l o.key = some e) :
    o.rank ≤ e.1 := by
  rcases admitted.own e found with better | ⟨same, _⟩
  · exact le_of_lt better
  · exact le_of_eq same

omit [DecidableEq κ] in
/-- An offer of another key that is admitted is no worse than one that is rejected. -/
theorem Admits.le_of_not_admits (admitted : l.Admits o) (rejected : ¬ l.Admits first)
    (other : o.key ≠ first.key) : o.rank ≤ first.rank := by
  by_contra worse
  apply rejected
  constructor
  · intro k e k_ne found
    by_cases own : k = o.key
    · subst own
      exact (le_of_lt (not_le.mp worse)).trans (admitted.rank_le found)
    · exact (le_of_lt (not_le.mp worse)).trans (admitted.others k e own found)
  · intro e found
    exact Or.inl (lt_of_lt_of_le (not_le.mp worse) (admitted.others _ e (Ne.symm other) found))

/-- After another offer, an offer is admitted if it was and is no worse. -/
theorem admits_take (other : o.key ≠ first.key) :
    (l.take first).Admits o ↔ l.Admits o ∧ o.rank ≤ first.rank := by
  by_cases admitted : l.Admits first
  · rw [take_of_admits admitted]
    constructor
    · intro after
      have le_first : o.rank ≤ first.rank :=
        after.others first.key (first.rank, first.tag) (Ne.symm other) (Function.update_self ..)
      refine ⟨⟨fun k e k_ne found => ?_, fun e found => ?_⟩, le_first⟩
      · by_cases here : k = first.key
        · subst here
          exact le_first.trans (admitted.rank_le found)
        · exact after.others k e k_ne (by rw [Function.update_of_ne here, found])
      · exact after.own e (by rw [Function.update_of_ne other, found])
    · rintro ⟨before, le_first⟩
      constructor
      · intro k e k_ne found
        by_cases here : k = first.key
        · subst here
          rw [Function.update_self, Option.some.injEq] at found
          subst found
          exact le_first
        · rw [Function.update_of_ne here] at found
          exact before.others k e k_ne found
      · intro e found
        rw [Function.update_of_ne other] at found
        exact before.own e found
  · rw [take_of_not_admits admitted]
    constructor
    · intro before
      exact ⟨before, before.le_of_not_admits admitted other⟩
    · exact And.left

end Ledger

end Offers
