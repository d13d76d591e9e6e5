/- source: none
   digest: Sorting makes the order of a list irrelevant if the order separates its elements. -/

import Mathlib.Data.List.Sort

set_option autoImplicit false

namespace SlurmBridge.Foundation.Sorting

variable {α κ : Type} {l l' : List α}

theorem insertionSort_eq_of_perm {r : α → α → Prop} [DecidableRel r] [Std.Total r] [IsTrans α r]
    (separates : ∀ a ∈ l, ∀ b ∈ l, r a b → r b a → a = b) (perm : l.Perm l') :
    l.insertionSort r = l'.insertionSort r := by
  have sorted := List.perm_insertionSort r l
  have sorted' := List.perm_insertionSort r l'
  refine List.Perm.eq_of_pairwise ?_ (List.pairwise_insertionSort _ l) (List.pairwise_insertionSort _ l')
    (sorted.trans (perm.trans sorted'.symm))
  intro a b inside inside' before after
  exact separates a (sorted.subset inside) b (perm.symm.subset (sorted'.subset inside')) before after

variable [LinearOrder κ]

theorem insertionSort_eq_iff {l l' : List κ} : l.insertionSort (· ≤ ·) = l'.insertionSort (· ≤ ·) ↔ l.Perm l' := by
  constructor
  · intro same
    have sorted := (List.perm_insertionSort (· ≤ ·) l).symm
    exact sorted.trans (same ▸ List.perm_insertionSort (· ≤ ·) l')
  · exact insertionSort_eq_of_perm fun _ _ _ _ => le_antisymm

variable (key : α → κ)

instance total_key : Std.Total fun a b : α => key a ≤ key b := ⟨fun a b => le_total (key a) (key b)⟩

instance trans_key : IsTrans α fun a b : α => key a ≤ key b := ⟨fun _ _ _ => le_trans⟩

theorem sortByKey_eq_of_perm (distinct : (l.map key).Nodup) (perm : l.Perm l') :
    (l.insertionSort fun a b => key a ≤ key b) = l'.insertionSort fun a b => key a ≤ key b :=
  insertionSort_eq_of_perm (fun _ inside _ inside' before after =>
    List.inj_on_of_nodup_map distinct inside inside' (le_antisymm before after)) perm

end SlurmBridge.Foundation.Sorting
