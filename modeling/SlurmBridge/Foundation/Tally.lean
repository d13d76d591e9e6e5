/- source: none
   digest: Sums over the values of a finite map, and how they change with its entries. -/

import Mathlib.Algebra.GroupWithZero.Nat
import Mathlib.Data.List.AList
import Mathlib.Algebra.BigOperators.Group.List.Basic

set_option autoImplicit false

namespace SlurmBridge.Foundation.Tally

open List

variable {α β : Type}

def tally (weight : β → Nat) (m : AList (fun _ : α => β)) : Nat :=
  (m.entries.map fun entry => weight entry.2).sum

theorem tally_erase [DecidableEq α] (weight : β → Nat) (m : AList (fun _ : α => β)) (k : α) :
    tally weight (m.erase k) + (m.lookup k).elim 0 weight = tally weight m := by
  by_cases inside : k ∈ m.entries.keys
  · obtain ⟨v, l₁, l₂, fresh, whole, rest⟩ := exists_of_kerase inside
    have found : m.lookup k = some v := by
      refine AList.mem_lookup_iff.mpr ?_
      rw [whole]
      exact mem_append_right _ mem_cons_self
    have erased : (m.erase k).entries = l₁ ++ l₂ := rest
    simp only [tally, found, erased, whole, Option.elim_some, map_append, map_cons,
      sum_append, sum_cons]
    omega
  · have erased : (m.erase k).entries = m.entries := kerase_of_notMem_keys inside
    have absent : m.lookup k = none := AList.lookup_eq_none.mpr inside
    simp [tally, erased, absent]

theorem tally_insert [DecidableEq α] (weight : β → Nat) (m : AList (fun _ : α => β)) (k : α) (v : β) :
    tally weight (m.insert k v) = weight v + tally weight (m.erase k) := by
  rfl

theorem tally_one (m : AList (fun _ : α => β)) : tally (fun _ => 1) m = m.keys.length := by
  simp [tally, AList.keys, List.keys]

theorem length_keys_erase [DecidableEq α] (m : AList (fun _ : α => β)) (k : α) :
    (m.erase k).keys.length + (if k ∈ m then 1 else 0) = m.keys.length := by
  have split := tally_erase (fun _ => 1) m k
  rw [tally_one, tally_one] at split
  by_cases inside : k ∈ m
  · obtain ⟨v, found⟩ := Option.isSome_iff_exists.mp (AList.lookup_isSome.mpr inside)
    simpa [found, inside] using split
  · simpa [AList.lookup_eq_none.mpr inside, inside] using split

theorem length_keys_insert [DecidableEq α] (m : AList (fun _ : α => β)) (k : α) (v : β) :
    (m.insert k v).keys.length = if k ∈ m then m.keys.length else m.keys.length + 1 := by
  have erased := length_keys_erase m k
  have inserted := tally_insert (fun _ => 1) m k v
  rw [tally_one, tally_one] at inserted
  by_cases inside : k ∈ m
  · rw [if_pos inside] at erased ⊢
    omega
  · rw [if_neg inside] at erased ⊢
    omega

theorem tally_pos [DecidableEq α] {weight : β → Nat} {m : AList (fun _ : α => β)} :
    0 < tally weight m ↔ ∃ k v, m.lookup k = some v ∧ 0 < weight v := by
  constructor
  · intro positive
    obtain ⟨n, member, nonzero⟩ : ∃ n ∈ m.entries.map fun entry => weight entry.2, n ≠ 0 := by
      by_contra none
      push Not at none
      exact absurd (sum_eq_zero none) (Nat.pos_iff_ne_zero.mp positive)
    obtain ⟨⟨k, v⟩, inside, rfl⟩ := mem_map.mp member
    exact ⟨k, v, AList.mem_lookup_iff.mpr inside, Nat.pos_of_ne_zero nonzero⟩
  · rintro ⟨k, v, found, positive⟩
    have split := tally_erase weight m k
    rw [found, Option.elim_some] at split
    omega

end SlurmBridge.Foundation.Tally
