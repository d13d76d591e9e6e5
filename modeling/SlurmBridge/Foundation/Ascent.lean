/- source: none
   digest: Walks along a partial parent function, where they end and how long they need to be. -/

import Mathlib.Data.Finset.Card
import Mathlib.Data.Nat.Find

set_option autoImplicit false

namespace SlurmBridge.Foundation.Ascent

variable {α : Type} (up : α → Option α)

def ascend : Nat → α → Option α
  | 0, a => some a
  | n + 1, a => (up a).bind (ascend n)

variable {up} {a b r r' : α} {m n : Nat}

theorem ascend_add (m n : Nat) (a : α) : ascend up (m + n) a = (ascend up m a).bind (ascend up n) := by
  induction m generalizing a with
  | zero => rw [Nat.zero_add]; rfl
  | succ m ih =>
    rw [Nat.succ_add]
    change (up a).bind (ascend up (m + n)) = ((up a).bind (ascend up m)).bind (ascend up n)
    cases up a with
    | none => rfl
    | some b => exact ih b

theorem ascend_trans (lower : ascend up m a = some b) (upper : ascend up n b = some r) :
    ascend up (m + n) a = some r := by
  rw [ascend_add, lower]
  exact upper

theorem ascend_rest (long : ascend up n a = some r) (short : ascend up m a = some b) (le : m ≤ n) :
    ascend up (n - m) b = some r := by
  rw [← Nat.add_sub_cancel' le, ascend_add, short] at long
  exact long

theorem ascend_of_top (top : up a = none) (walk : ascend up n a = some r) : r = a := by
  cases n with
  | zero => exact (Option.some.inj walk).symm
  | succ n =>
    change (up a).bind _ = _ at walk
    rw [top] at walk
    cases walk

/-- From each point at most one top is above. -/
theorem top_unique (walk : ascend up m a = some r) (walk' : ascend up n a = some r') (top : up r = none)
    (top' : up r' = none) : r = r' := by
  rcases Nat.le_total m n with le | le
  · exact (ascend_of_top top (ascend_rest walk' walk le)).symm
  · exact ascend_of_top top' (ascend_rest walk walk' le)

/-- The points of a shortest walk are different, so that it has fewer steps than there are points. -/
theorem ascend_bounded [DecidableEq α] {points : Finset α} (inside : ∀ a b, up a = some b → a ∈ points)
    (target : r ∈ points) (walk : ascend up n a = some r) :
    ∃ m < points.card, ascend up m a = some r := by
  have reached : ∃ m, ascend up m a = some r := ⟨n, walk⟩
  let m := Nat.find reached
  have shortest : ascend up m a = some r := Nat.find_spec reached
  -- The walk passes a point at each of its steps.
  have passes : ∀ i ≤ m, ∃ b, ascend up i a = some b := by
    intro i le
    rw [← Nat.add_sub_cancel' le, ascend_add] at shortest
    exact ⟨_, (Option.bind_eq_some_iff.mp shortest).choose_spec.1⟩
  refine ⟨m, ?_, shortest⟩
  have distinct : Set.InjOn (fun i => (ascend up i a).getD a) (Finset.range (m + 1)) := by
    have earlier : ∀ i j, i < j → j ≤ m → (ascend up i a).getD a ≠ (ascend up j a).getD a := by
      intro i j before le same
      obtain ⟨b, at_i⟩ := passes i (by omega)
      obtain ⟨c, at_j⟩ := passes j le
      rw [at_i, at_j] at same
      obtain rfl : b = c := same
      -- Without the part between the two, the walk is shorter.
      exact Nat.find_min reached (show i + (m - j) < m by omega)
        (ascend_trans at_i (ascend_rest shortest at_j le))
    intro i low j low' same
    simp only [Finset.coe_range, Set.mem_Iio] at low low'
    rcases Nat.lt_trichotomy i j with before | equal | after
    · exact absurd same (earlier i j before (by omega))
    · exact equal
    · exact absurd same.symm (earlier j i after (by omega))
  have within : ∀ i ∈ Finset.range (m + 1), (ascend up i a).getD a ∈ points := by
    intro i low
    rw [Finset.mem_range] at low
    obtain ⟨b, at_i⟩ := passes i (by omega)
    rw [at_i, Option.getD_some]
    have onward := ascend_rest shortest at_i (by omega)
    cases left : m - i with
    | zero =>
      rw [left] at onward
      exact Option.some.inj onward ▸ target
    | succ k =>
      rw [left] at onward
      obtain ⟨c, step, -⟩ := Option.bind_eq_some_iff.mp onward
      exact inside b c step
  have card := Finset.card_le_card_of_injOn _ within distinct
  rw [Finset.card_range] at card
  exact card

end SlurmBridge.Foundation.Ascent
