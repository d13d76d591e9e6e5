/- source: none
   digest: Finite maps combined key by key, and sums over the entries of a finite map. -/

import Mathlib.Data.List.AList
import Mathlib.Data.List.Induction
import Mathlib.Data.Option.Basic

set_option autoImplicit false

namespace SlurmBridge.Foundation.Merging

open List

variable {κ β : Type} [DecidableEq κ]

/-- Enter the entries of a map into another one.  A function combines the values of a common key. -/
def mergeWith (f : β → β → β) (map new : AList (fun _ : κ => β)) : AList (fun _ : κ => β) :=
  new.entries.foldl (fun acc e => acc.insert e.1 ((acc.lookup e.1).elim e.2 (f · e.2))) map

/-- A merged map has at each key what the two maps have there. -/
theorem lookup_mergeWith (f : β → β → β) (map new : AList (fun _ : κ => β)) (k : κ) :
    (mergeWith f map new).lookup k = Option.merge f (map.lookup k) (new.lookup k) := by
  obtain ⟨entries, distinct⟩ := new
  unfold mergeWith
  change _ = Option.merge f (map.lookup k) (entries.dlookup k)
  induction entries generalizing map with
  | nil => cases found : map.lookup k <;> simp [Option.merge, found]
  | cons e entries ih =>
    obtain ⟨name, value⟩ := e
    have rest := nodupKeys_cons.mp distinct
    rw [foldl_cons, ih _ rest.2]
    by_cases same : k = name
    · subst same
      -- The key does not occur again.
      rw [dlookup_cons_eq, dlookup_eq_none.mpr rest.1, AList.lookup_insert]
      cases map.lookup k <;> rfl
    · rw [AList.lookup_insert_ne same, dlookup_cons_ne _ _ same]

/-- Entries that agree on common keys can be entered in any order. -/
theorem lookup_foldl_insert {α : Type} {key : α → κ} {val : α → β} {l : List α}
    (agree : ∀ a ∈ l, ∀ b ∈ l, key a = key b → val a = val b) {k : κ} {v : β} :
    (l.foldl (fun map a => map.insert (key a) (val a)) (∅ : AList (fun _ : κ => β))).lookup k = some v ↔
      ∃ a ∈ l, key a = k ∧ val a = v := by
  -- Induction from the end of the list: the last entry of a key is what is found.
  induction l using List.reverseRecOn with
  | nil => simp
  | append_singleton l a ih =>
    have before := ih fun a ha b hb => agree a (mem_append_left _ ha) b (mem_append_left _ hb)
    rw [foldl_append, foldl_cons, foldl_nil]
    by_cases same : key a = k
    · subst same
      rw [AList.lookup_insert]
      constructor
      · intro found
        exact ⟨a, by simp, rfl, Option.some.inj found⟩
      · rintro ⟨b, inside, sameKey, rfl⟩
        exact congrArg some (agree a (by simp) b inside sameKey.symm)
    · rw [AList.lookup_insert_ne (Ne.symm same), before]
      constructor
      · rintro ⟨b, inside, found⟩
        exact ⟨b, mem_append_left _ inside, found⟩
      · rintro ⟨b, inside, sameKey, found⟩
        rcases mem_append.mp inside with inside | last
        · exact ⟨b, inside, sameKey, found⟩
        · obtain rfl := mem_singleton.mp last
          exact absurd sameKey same

end SlurmBridge.Foundation.Merging
