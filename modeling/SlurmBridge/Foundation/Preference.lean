/- source: none
   digest: Running minima that use a sentinel for "none yet", the best element of a set under
     a rank with ties broken by the order, and cleaning overlapping sets down to their best. -/

import Mathlib.Data.Prod.Lex
import Mathlib.Order.Lattice
import Mathlib.Tactic.Common

set_option autoImplicit false

namespace SlurmBridge.Foundation.Preference

section
variable {ι : Type*} [LinearOrder ι]

/-- Lower a running minimum to a new element; the sentinel stands for no element yet. -/
def lower (none current i : ι) : ι := if current = none ∨ i < current then i else current

/-- The running minimum of the elements with a property. -/
def Tracks (none : ι) (holds : ι → Prop) (current : ι) : Prop :=
  (current = none → ∀ i, ¬ holds i) ∧ (current ≠ none → holds current ∧ ∀ i, holds i → current ≤ i)

variable {none current i : ι} {holds : ι → Prop}

theorem tracks_start (none : ι) : Tracks none (fun _ => False) none :=
  ⟨fun _ _ => not_false, fun absurd => (absurd rfl).elim⟩

theorem Tracks.congr {holds' : ι → Prop} (tracks : Tracks none holds current)
    (same : ∀ i, holds i ↔ holds' i) : Tracks none holds' current := by
  have equal : holds = holds' := funext fun i => propext (same i)
  exact equal ▸ tracks

theorem Tracks.add (tracks : Tracks none holds current) (proper : i ≠ none) :
    Tracks none (fun j => holds j ∨ j = i) (lower none current i) := by
  unfold lower
  split
  · rename_i lowered
    refine ⟨fun absurd => (proper absurd).elim, fun _ => ⟨.inr rfl, ?_⟩⟩
    rintro j (old | rfl)
    · rcases lowered with empty | below
      · exact (tracks.1 empty j old).elim
      · by_cases empty : current = none
        · exact (tracks.1 empty j old).elim
        · exact below.le.trans ((tracks.2 empty).2 j old)
    · exact le_rfl
  · rename_i kept
    rw [not_or, not_lt] at kept
    refine ⟨fun absurd => (kept.1 absurd).elim, fun _ => ⟨.inl (tracks.2 kept.1).1, ?_⟩⟩
    rintro j (old | rfl)
    · exact (tracks.2 kept.1).2 j old
    · exact kept.2

end

section
variable {ι κ : Type*} [LinearOrder ι]

/-- The element of least rank; among those the least one. -/
def IsBest (rank : ι → ℕ) (s : Set ι) (a : ι) : Prop :=
  a ∈ s ∧ ∀ b ∈ s, rank a < rank b ∨ (rank a = rank b ∧ a ≤ b)

variable {rank rank' : ι → ℕ} {s t : Set ι} {a b : ι}

theorem IsBest.unique (first : IsBest rank s a) (second : IsBest rank s b) : a = b := by
  rcases first.2 b second.1 with below | ⟨same, le⟩ <;>
    rcases second.2 a first.1 with below' | ⟨same', le'⟩
  · omega
  · omega
  · omega
  · exact le_antisymm le le'

/-- The best element of a set is the best of every subset that contains it, also if the
ranks of the other elements get worse. -/
theorem IsBest.subset (best : IsBest rank s a) (member : a ∈ t) (sub : t ⊆ s)
    (same : rank' a = rank a) (worse : ∀ b ∈ t, rank b ≤ rank' b) : IsBest rank' t a := by
  refine ⟨member, fun b hb => ?_⟩
  have bound := worse b hb
  rcases best.2 b (sub hb) with below | ⟨equal, le⟩
  · exact .inl (by omega)
  · rcases Nat.lt_or_ge (rank' a) (rank' b) with lt | ge
    · exact .inl lt
    · exact .inr ⟨by omega, le⟩

/-- Overlapping sets agree on their best elements: a set's best element is also the best of
every other set that contains it. -/
def Coordinated (rank : κ → ι → ℕ) (sets : κ → Set ι) (keys : Set κ) : Prop :=
  ∀ k ∈ keys, ∀ j ∈ keys, ∀ a, IsBest (rank k) (sets k) a → a ∈ sets j → IsBest (rank j) (sets j) a

end

end SlurmBridge.Foundation.Preference
