/- source: none
   digest: Items that are published under a key in generations: which of them a newer generation
     replaces, and that the others depend neither on the order nor on the replaced ones. -/

import Mathlib.Data.List.MinMax
import Mathlib.Data.List.Perm.Basic

set_option autoImplicit false

namespace SlurmBridge.Foundation.Generations

open List

variable {α κ γ : Type} [LinearOrder γ] (key : α → κ) (gen : α → γ)

/-- Some item of the list has the same key and a newer generation. -/
def Outdated (l : List α) (a : α) : Prop := ∃ b ∈ l, key b = key a ∧ gen a < gen b

instance [DecidableEq κ] (l : List α) (a : α) : Decidable (Outdated key gen l a) :=
  inferInstanceAs (Decidable (∃ b ∈ l, _ ∧ _))

/-- The items of the newest generation of each key. -/
def current [DecidableEq κ] (l : List α) : List α := l.filter fun a => ¬Outdated key gen l a

def newest [DecidableEq κ] (k : κ) (l : List α) : List α := l.filter fun a => key a = k ∧ ¬Outdated key gen l a

/-- A list with the same items in any order, some outdated ones left out. -/
def Trimmed (l l' : List α) : Prop := ∃ removed, l.Perm (l' ++ removed) ∧ ∀ a ∈ removed, Outdated key gen l a

variable {key gen} {l l' : List α} {a b : α}

theorem Outdated.mono (outdated : Outdated key gen l a) (subset : l ⊆ l') : Outdated key gen l' a := by
  obtain ⟨b, inside, same, newer⟩ := outdated
  exact ⟨b, subset inside, same, newer⟩

theorem exists_newest [DecidableEq κ] (key : α → κ) (gen : α → γ) (inside : a ∈ l) :
    ∃ b ∈ l, ¬Outdated key gen l b ∧ key b = key a ∧ gen a ≤ gen b := by
  have own : a ∈ l.filter fun b => key b = key a := mem_filter.mpr ⟨inside, decide_eq_true rfl⟩
  obtain ⟨b, newest⟩ : ∃ b, b ∈ List.argmax gen (l.filter fun b => key b = key a) := by
    refine Option.ne_none_iff_exists'.mp ?_
    rw [Ne, argmax_eq_none]
    exact ne_nil_of_mem own
  obtain ⟨among, same⟩ := mem_filter.mp (argmax_mem newest)
  refine ⟨b, among, ?_, of_decide_eq_true same, le_of_mem_argmax own newest⟩
  rintro ⟨c, inside', same', newer⟩
  have listed : c ∈ l.filter fun b => key b = key a :=
    mem_filter.mpr ⟨inside', decide_eq_true (same'.trans (of_decide_eq_true same))⟩
  exact absurd (le_of_mem_argmax listed newest) (not_le.mpr newer)

private theorem outdated_append_singleton :
    Outdated key gen (l ++ [a]) b ↔ Outdated key gen l b ∨ key a = key b ∧ gen b < gen a := by
  simp only [Outdated, mem_append, mem_singleton, or_and_right, exists_or, exists_eq_left]

section
variable [DecidableEq κ] {k : κ}

theorem mem_newest : a ∈ newest key gen k l ↔ a ∈ l ∧ key a = k ∧ ¬Outdated key gen l a := by simp [newest]

theorem le_of_mem_newest (inside : a ∈ newest key gen k l) (inside' : b ∈ l) (own : key b = k) : gen b ≤ gen a := by
  obtain ⟨-, same, current⟩ := mem_newest.mp inside
  by_contra newer
  exact current ⟨b, inside', own.trans same.symm, not_le.mp newer⟩

theorem gen_eq_of_mem_newest (inside : a ∈ newest key gen k l) (inside' : b ∈ newest key gen k l) : gen a = gen b :=
  le_antisymm (le_of_mem_newest inside' (mem_newest.mp inside).1 (mem_newest.mp inside).2.1)
    (le_of_mem_newest inside (mem_newest.mp inside').1 (mem_newest.mp inside').2.1)

private theorem newest_append_singleton : newest key gen k (l ++ [a]) =
    (newest key gen k l).filter (fun b => ¬(key a = key b ∧ gen b < gen a)) ++
      if key a = k ∧ ¬Outdated key gen l a then [a] else [] := by
  unfold newest
  rw [filter_append, filter_filter]
  congr 1
  · refine filter_congr fun b _ => ?_
    simp only [outdated_append_singleton]
    by_cases old : Outdated key gen l b <;> simp [old, Bool.and_comm]
  · by_cases own : key a = k <;> by_cases old : Outdated key gen l a <;>
      simp [outdated_append_singleton, own, old]

theorem newest_append_other (other : key a ≠ k) : newest key gen k (l ++ [a]) = newest key gen k l := by
  rw [newest_append_singleton, if_neg fun own => other own.1, append_nil, filter_eq_self]
  intro b inside
  exact decide_eq_true fun newer => other (newer.1.trans (mem_newest.mp inside).2.1)

theorem newest_append_newer (own : key a = k) (newer : ∀ b ∈ newest key gen k l, gen b < gen a) :
    newest key gen k (l ++ [a]) = [a] := by
  have current : ¬Outdated key gen l a := by
    rintro ⟨b, inside, same, above⟩
    obtain ⟨c, inside', current, same', above'⟩ := exists_newest key gen inside
    have below := newer c (mem_newest.mpr ⟨inside', (same'.trans same).trans own, current⟩)
    exact absurd (above.trans_le above') below.not_gt
  rw [newest_append_singleton, if_pos ⟨own, current⟩]
  have none : (newest key gen k l).filter (fun b => decide ¬(key a = key b ∧ gen b < gen a)) = [] := by
    rw [filter_eq_nil_iff]
    intro b inside
    simp [own, (mem_newest.mp inside).2.1, newer b inside]
  rw [none, nil_append]

private theorem newest_append_kept (below : ∀ b ∈ newest key gen k l, gen a ≤ gen b) :
    (newest key gen k l).filter (fun b => decide ¬(key a = key b ∧ gen b < gen a)) = newest key gen k l := by
  rw [filter_eq_self]
  intro b inside
  exact decide_eq_true fun newer => absurd newer.2 (below b inside).not_gt

theorem newest_append_older (own : key a = k) (inside : b ∈ newest key gen k l) (older : gen a < gen b) :
    newest key gen k (l ++ [a]) = newest key gen k l := by
  obtain ⟨member, same, -⟩ := mem_newest.mp inside
  rw [newest_append_singleton, newest_append_kept fun c inside' => (gen_eq_of_mem_newest inside' inside).symm ▸ older.le,
    if_neg fun current => current.2 ⟨b, member, same.trans own.symm, older⟩, append_nil]

theorem newest_append_same (own : key a = k) (inside : b ∈ newest key gen k l) (same : gen a = gen b) :
    newest key gen k (l ++ [a]) = newest key gen k l ++ [a] := by
  have current : ¬Outdated key gen l a := by
    rintro ⟨c, member, key, above⟩
    have below := le_of_mem_newest inside member (key.trans own)
    exact absurd (same ▸ above) below.not_gt
  rw [newest_append_singleton, newest_append_kept fun c inside' => (same.trans (gen_eq_of_mem_newest inside inside')).le,
    if_pos ⟨own, current⟩]

theorem newest_filter {p : α → Bool} (holds : ∀ a, key a = k → p a = true) : newest key gen k (l.filter p) = newest key gen k l := by
  unfold newest
  rw [filter_filter]
  refine filter_congr fun a _ => ?_
  by_cases own : key a = k
  · have same : Outdated key gen (l.filter p) a ↔ Outdated key gen l a := by
      refine ⟨fun outdated => outdated.mono (filter_subset_self l), ?_⟩
      rintro ⟨b, inside, same, newer⟩
      exact ⟨b, mem_filter.mpr ⟨inside, holds b (same.trans own)⟩, same, newer⟩
    simp [own, holds a own, same]
  · simp [own]

end

namespace Trimmed

theorem subset (trimmed : Trimmed key gen l l') : l' ⊆ l := by
  obtain ⟨removed, perm, -⟩ := trimmed
  exact fun a inside => perm.symm.subset (mem_append_left _ inside)

theorem mem (trimmed : Trimmed key gen l l') (inside : a ∈ l) (newest : ¬Outdated key gen l a) : a ∈ l' := by
  obtain ⟨removed, perm, outdated⟩ := trimmed
  exact (mem_append.mp (perm.subset inside)).resolve_right fun gone => newest (outdated a gone)

theorem filter {p : α → Bool} (respects : ∀ a b, key a = key b → p a = p b) (trimmed : Trimmed key gen l l') :
    Trimmed key gen (l.filter p) (l'.filter p) := by
  obtain ⟨removed, perm, outdated⟩ := trimmed
  refine ⟨removed.filter p, filter_append .. ▸ perm.filter p, fun a inside => ?_⟩
  obtain ⟨gone, kept⟩ := mem_filter.mp inside
  obtain ⟨b, listed, same, newer⟩ := outdated a gone
  exact ⟨b, mem_filter.mpr ⟨listed, (respects b a same).trans kept⟩, same, newer⟩

variable [DecidableEq κ]

/-- What is outdated does not depend on what was left out. -/
theorem outdated_iff (trimmed : Trimmed key gen l l') : Outdated key gen l' a ↔ Outdated key gen l a := by
  refine ⟨fun outdated => outdated.mono trimmed.subset, ?_⟩
  rintro ⟨b, inside, same, newer⟩
  obtain ⟨c, inside', newest, same', above⟩ := exists_newest key gen inside
  exact ⟨c, trimmed.mem inside' newest, same'.trans same, lt_of_lt_of_le newer above⟩

theorem current_perm (trimmed : Trimmed key gen l l') : (current key gen l).Perm (current key gen l') := by
  obtain ⟨removed, perm, outdated⟩ := id trimmed
  have none : removed.filter (fun a => decide ¬Outdated key gen l a) = [] := by
    rw [filter_eq_nil_iff]
    intro a gone
    simpa using outdated a gone
  have kept := perm.filter fun a => decide ¬Outdated key gen l a
  rw [filter_append, none, append_nil] at kept
  unfold current
  simpa only [trimmed.outdated_iff] using kept

theorem newest_perm (trimmed : Trimmed key gen l l') (k : κ) : (newest key gen k l).Perm (newest key gen k l') := by
  have kept := trimmed.current_perm.filter fun a => decide (key a = k)
  unfold Generations.current at kept
  simpa [newest] using kept

end Trimmed

end SlurmBridge.Foundation.Generations
