/- source: none
   digest: Elements of a finite pool are given to keys, each to one key at most. -/

import Mathlib.Data.Finmap
import Mathlib.Data.Finset.Card

set_option autoImplicit false

namespace SlurmBridge.Foundation.Allotment

open Finset

variable {K V : Type} [DecidableEq K]

/-- What the keys have is taken from the pool, and the rest of the pool is free. -/
structure Allots (pool free : Finset V) (given : Finmap (fun _ : K => V)) : Prop where
  injective : ∀ k k' v, given.lookup k = some v → given.lookup k' = some v → k = k'
  inside : ∀ k v, given.lookup k = some v → v ∈ pool
  mem_free : ∀ v, v ∈ free ↔ v ∈ pool ∧ ∀ k, given.lookup k ≠ some v

variable {pool free : Finset V} {given : Finmap (fun _ : K => V)}

theorem allots_start (pool : Finset V) : Allots pool pool (∅ : Finmap (fun _ : K => V)) where
  injective := fun _ _ _ found => by simp at found
  inside := fun _ _ found => by simp at found
  mem_free := fun _ => by simp

theorem lookup_insert_iff (given : Finmap (fun _ : K => V)) (k k' : K) (v v' : V) (new : given.lookup k = none) :
    (given.insert k v).lookup k' = some v' ↔ (k' = k ∧ v' = v) ∨ given.lookup k' = some v' := by
  by_cases same : k' = k
  · subst same
    rw [Finmap.lookup_insert, new]
    simp [eq_comm]
  · rw [Finmap.lookup_insert_of_ne _ same]
    simp [same]

theorem Allots.give [DecidableEq V] {k : K} {v : V} (allots : Allots pool free given) (new : given.lookup k = none)
    (available : v ∈ free) : Allots pool (free.erase v) (given.insert k v) where
  injective := by
    have untaken := ((allots.mem_free v).mp available).2
    intro k₁ k₂ w first second
    rw [lookup_insert_iff _ _ _ _ _ new] at first second
    rcases first with ⟨rfl, rfl⟩ | first <;> rcases second with ⟨rfl, same⟩ | second
    · rfl
    · exact absurd second (untaken k₂)
    · exact absurd (same ▸ first) (untaken k₁)
    · exact allots.injective k₁ k₂ w first second
  inside := by
    intro k' w found
    rcases (lookup_insert_iff _ _ _ _ _ new).mp found with ⟨rfl, rfl⟩ | found
    · exact ((allots.mem_free w).mp available).1
    · exact allots.inside k' w found
  mem_free := by
    intro w
    rw [mem_erase, allots.mem_free]
    constructor
    · rintro ⟨other, among, untaken⟩
      refine ⟨among, fun k' found => ?_⟩
      rcases (lookup_insert_iff _ _ _ _ _ new).mp found with ⟨-, same⟩ | found
      · exact other same
      · exact untaken k' found
    · rintro ⟨among, untaken⟩
      refine ⟨?_, among, fun k' found => untaken k' ((lookup_insert_iff _ _ _ _ _ new).mpr (.inr found))⟩
      rintro rfl
      exact untaken k (Finmap.lookup_insert _)

/-- Everything that is not free is given to one key. -/
theorem Allots.card (allots : Allots pool free given) : free.card + given.keys.card = pool.card := by
  classical
  -- The keys stand for the elements that they have.
  have taken : given.keys.card = (pool \ free).card := by
    refine card_bij (fun k inside => (given.lookup k).get (Finmap.lookup_isSome.mpr inside)) ?_ ?_ ?_
    · intro k inside
      have found := (Option.some_get (Finmap.lookup_isSome.mpr inside)).symm
      refine mem_sdiff.mpr ⟨allots.inside k _ found, fun isFree => ?_⟩
      exact ((allots.mem_free _).mp isFree).2 k found
    · intro k inside k' inside' same
      have found := (Option.some_get (Finmap.lookup_isSome.mpr inside)).symm
      have found' := (Option.some_get (Finmap.lookup_isSome.mpr inside')).symm
      exact allots.injective k k' _ found (same ▸ found')
    · intro v among
      obtain ⟨among, isTaken⟩ := mem_sdiff.mp among
      rw [allots.mem_free, not_and, not_forall] at isTaken
      obtain ⟨k, found⟩ := isTaken among
      rw [not_not] at found
      refine ⟨k, Finmap.mem_of_lookup_eq_some found, ?_⟩
      simp [found]
  have within : free ⊆ pool := fun v isFree => ((allots.mem_free v).mp isFree).1
  rw [taken, card_sdiff_of_subset within]
  have bound := card_le_card within
  omega

/-- Two allotments of the same elements to the same keys leave the same elements free. -/
theorem Allots.free_unique {free' : Finset V} (allots : Allots pool free given) (allots' : Allots pool free' given) :
    free = free' := by
  ext v
  rw [allots.mem_free, allots'.mem_free]

end SlurmBridge.Foundation.Allotment
