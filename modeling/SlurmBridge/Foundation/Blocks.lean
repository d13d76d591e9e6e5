/- source: none
   digest: Blocks of given sizes laid out one after the other, when two layouts give
     their common blocks the same offsets, and sorted lists as layouts of equal blocks. -/

import Mathlib.Algebra.GroupWithZero.Nat
import Mathlib.Data.List.Basic
import Mathlib.Data.List.Infix
import Mathlib.Data.List.Sort
import Mathlib.Tactic.Common

set_option autoImplicit false

namespace SlurmBridge.Foundation.Blocks

open List

variable {α : Type} (size : α → Nat)

section
variable [DecidableEq α]

/-- Where a block starts: after all blocks before its first occurrence. -/
def offset (block : α) : List α → Nat
  | [] => 0
  | first :: rest => if first = block then 0 else size first + offset block rest

variable {size}

theorem offset_cons_self (block : α) (rest : List α) : offset size block (block :: rest) = 0 := by
  simp [offset]

variable {block : α}

theorem offset_cons_ne {first : α} (rest : List α) (differs : first ≠ block) :
    offset size block (first :: rest) = size first + offset size block rest := by
  simp [offset, differs]

variable {blocks : List α}

theorem offset_append (rest : List α) (member : block ∈ blocks) :
    offset size block (blocks ++ rest) = offset size block blocks := by
  induction blocks with
  | nil => cases member
  | cons first blocks ih =>
    by_cases found : first = block
    · subst found
      rw [cons_append, offset_cons_self, offset_cons_self]
    · have later : block ∈ blocks := mem_of_ne_of_mem (Ne.symm found) member
      rw [cons_append, offset_cons_ne _ found, offset_cons_ne _ found, ih later]

theorem offset_append_of_not_mem (rest : List α) (absent : block ∉ blocks) :
    offset size block (blocks ++ rest) = (blocks.map size).sum + offset size block rest := by
  induction blocks with
  | nil => simp
  | cons first blocks ih =>
    obtain ⟨differs, later⟩ := not_or.mp (mem_cons.not.mp absent)
    rw [cons_append, offset_cons_ne _ (Ne.symm differs), ih later, map_cons, sum_cons]
    omega

variable {kind : α → Bool}

theorem offset_filter_snoc_self (kept : kind block = true) (absent : block ∉ blocks) :
    offset size block ((blocks ++ [block]).filter kind) = ((blocks.filter kind).map size).sum := by
  have outside : block ∉ blocks.filter kind := fun member => absent (mem_filter.mp member).1
  rw [filter_append, offset_append_of_not_mem _ outside, filter_cons_of_pos kept,
    offset_cons_self, Nat.add_zero]

theorem offset_filter_snoc_of_mem (last : α) (kept : kind block = true) (member : block ∈ blocks) :
    offset size block ((blocks ++ [last]).filter kind) = offset size block (blocks.filter kind) := by
  rw [filter_append, offset_append _ (mem_filter.mpr ⟨member, kept⟩)]

theorem offset_filter_pos (positive : 0 < size block) (blocks : List α) :
    offset size block (blocks.filter (0 < size ·)) = offset size block blocks := by
  induction blocks with
  | nil => rfl
  | cons first blocks ih =>
    by_cases found : first = block
    · subst found
      rw [filter_cons_of_pos (by simpa using positive), offset_cons_self, offset_cons_self]
    · by_cases empty : 0 < size first
      · rw [filter_cons_of_pos (by simpa using empty), offset_cons_ne _ found, offset_cons_ne _ found, ih]
      · rw [filter_cons_of_neg (by simpa using empty), offset_cons_ne _ found, ih]
        omega

/-- Two layouts of non-empty blocks give the blocks of the first one the same offsets exactly
if the second one begins with the first. -/
theorem offsets_agree_iff {layout : List α} (nodup : blocks.Nodup) (covered : blocks ⊆ layout)
    (positive : ∀ block ∈ layout, 0 < size block) :
    (∀ block ∈ blocks, offset size block layout = offset size block blocks) ↔ blocks <+: layout := by
  constructor
  · intro agree
    -- Induction on the blocks: the first one has offset zero, so nothing stands before it.
    induction blocks generalizing layout with
    | nil => exact nil_prefix
    | cons first blocks ih =>
      have start := agree first (by simp)
      rw [offset_cons_self] at start
      cases layout with
      | nil => exact absurd (covered (mem_cons_self)) (by simp)
      | cons head layout =>
        have same : head = first := by
          by_contra differs
          rw [offset_cons_ne _ differs] at start
          have := positive head (by simp)
          omega
        subst same
        obtain ⟨fresh, nodup'⟩ := nodup_cons.mp nodup
        have differs : ∀ block ∈ blocks, head ≠ block := by
          rintro block member rfl
          exact fresh member
        refine cons_prefix_cons.mpr ⟨rfl, ih nodup' ?_ (forall_mem_cons.mp positive).2 ?_⟩
        · intro block member
          exact mem_of_ne_of_mem (differs block member).symm (covered (mem_cons_of_mem head member))
        · intro block member
          have equal := agree block (mem_cons_of_mem head member)
          rw [offset_cons_ne _ (differs block member), offset_cons_ne _ (differs block member)] at equal
          omega
  · rintro ⟨rest, rfl⟩ block member
    exact offset_append rest member

theorem offset_add_size_le (member : block ∈ blocks) :
    offset size block blocks + size block ≤ (blocks.map size).sum := by
  induction blocks with
  | nil => cases member
  | cons first blocks ih =>
    rw [map_cons, sum_cons]
    by_cases found : first = block
    · subst found
      rw [offset_cons_self]
      omega
    · rw [offset_cons_ne _ found]
      have later := ih (mem_of_ne_of_mem (Ne.symm found) member)
      omega

/-- Renaming the blocks of a layout does not move them, if none gets the name of another. -/
theorem offset_map {β : Type} [DecidableEq β] {size' : β → Nat} (f : α → β) (block : α)
    (distinct : ∀ other ∈ blocks, f other = f block → other = block)
    (sizes : ∀ other ∈ blocks, size' (f other) = size other) :
    offset size' (f block) (blocks.map f) = offset size block blocks := by
  induction blocks with
  | nil => rfl
  | cons first blocks ih =>
    obtain ⟨distinctFirst, distinctRest⟩ := forall_mem_cons.mp distinct
    obtain ⟨sizeFirst, sizesRest⟩ := forall_mem_cons.mp sizes
    by_cases found : first = block
    · subst found
      rw [map_cons, offset_cons_self, offset_cons_self]
    · rw [map_cons, offset_cons_ne _ fun same => found (distinctFirst same),
        offset_cons_ne _ found, sizeFirst, ih distinctRest sizesRest]

end

/-- The block at each position. -/
def layout (blocks : List α) : List α := blocks.flatMap fun block => .replicate (size block) block

variable {size} {block : α} {blocks : List α}

theorem layout_cons (first : α) (blocks : List α) :
    layout size (first :: blocks) = .replicate (size first) first ++ layout size blocks :=
  flatMap_cons

theorem layout_append (blocks rest : List α) :
    layout size (blocks ++ rest) = layout size blocks ++ layout size rest := by
  simp [layout]

theorem length_layout (blocks : List α) : (layout size blocks).length = (blocks.map size).sum := by
  simp [layout, length_flatMap]

theorem mem_layout : block ∈ layout size blocks ↔ block ∈ blocks ∧ 0 < size block := by
  simp only [layout, mem_flatMap, mem_replicate]
  constructor
  · rintro ⟨other, member, some, rfl⟩
    exact ⟨member, Nat.pos_of_ne_zero some⟩
  · rintro ⟨member, some⟩
    exact ⟨block, member, some.ne', rfl⟩

theorem layout_filter_pos (blocks : List α) :
    layout size (blocks.filter (0 < size ·)) = layout size blocks := by
  induction blocks with
  | nil => rfl
  | cons first blocks ih =>
    by_cases some : 0 < size first
    · rw [filter_cons_of_pos (by simpa using some), layout_cons, layout_cons, ih]
    · rw [filter_cons_of_neg (by simpa using some), layout_cons, ih]
      simp [Nat.eq_zero_of_not_pos some]

section
variable {β : Type} {items : α → List β}

variable (items) in
/-- The items of all blocks, each with its block, in order. -/
def contents (blocks : List α) : List (α × β) :=
  blocks.flatMap fun block => (items block).map (block, ·)

theorem length_contents (blocks : List α) :
    (contents items blocks).length = (blocks.map fun block => (items block).length).sum := by
  simp [contents, length_flatMap]

theorem contents_filter (kind : α → Bool) (blocks : List α) :
    (contents items blocks).filter (fun entry => kind entry.1) = contents items (blocks.filter kind) := by
  induction blocks with
  | nil => rfl
  | cons first blocks ih =>
    have split : ∀ rest, contents items (first :: rest) = (items first).map (first, ·) ++ contents items rest :=
      fun _ => flatMap_cons
    rw [split, filter_append, ih, filter_map]
    cases kept : kind first with
    | true => rw [filter_cons_of_pos kept, split, filter_eq_self.mpr (by simp [kept])]
    | false =>
      rw [filter_cons_of_neg (by simp [kept]), filter_eq_nil_iff.mpr (by simp [kept])]
      rfl

theorem contents_getElem? [DecidableEq α] {item : β} (nodup : blocks.Nodup) {i : Nat} :
    (contents items blocks)[i]? = some (block, item) ↔
      block ∈ blocks ∧ offset (fun b => (items b).length) block blocks ≤ i ∧
        (items block)[i - offset (fun b => (items b).length) block blocks]? = some item := by
  induction blocks generalizing i with
  | nil => simp [contents]
  | cons first blocks ih =>
    obtain ⟨fresh, nodup'⟩ := nodup_cons.mp nodup
    have split : contents items (first :: blocks) =
        (items first).map (first, ·) ++ contents items blocks := flatMap_cons
    rw [split, getElem?_append, length_map]
    by_cases found : first = block
    · subst found
      rw [offset_cons_self]
      split
      · simp
      · rename_i beyond
        have none : (items first)[i]? = none := getElem?_eq_none (by omega)
        rw [ih nodup']
        simp [fresh, none]
    · rw [offset_cons_ne _ found]
      have other : block ∈ first :: blocks ↔ block ∈ blocks := by simp [Ne.symm found]
      split
      · have early : ¬((items first).length + offset (fun b => (items b).length) block blocks ≤ i) := by
          omega
        simp [found, early]
      · rw [ih nodup', other, Nat.sub_sub]
        refine and_congr_right fun _ => and_congr_left fun _ => ?_
        omega

/-- The positions of a block that occurs once are those after its offset. -/
theorem layout_getElem? [DecidableEq α] (nodup : blocks.Nodup) {i : Nat} :
    (layout size blocks)[i]? = some block ↔
      block ∈ blocks ∧ offset size block blocks ≤ i ∧ i < offset size block blocks + size block := by
  have blank : layout size blocks = (contents (fun block => replicate (size block) ()) blocks).map Prod.fst := by
    simp [layout, contents, map_flatMap]
  rw [blank, getElem?_map]
  simp only [Option.map_eq_some_iff, Prod.exists, contents_getElem? nodup, length_replicate, getElem?_replicate,
    Option.ite_none_right_eq_some]
  constructor
  · rintro ⟨_, _, ⟨member, after, inside, -⟩, rfl⟩
    exact ⟨member, after, (Nat.sub_lt_iff_lt_add' after).mp inside⟩
  · rintro ⟨member, after, before⟩
    exact ⟨block, (), ⟨member, after, (Nat.sub_lt_iff_lt_add' after).mpr before, trivial⟩, rfl⟩

end

section
variable {β : Type} {count : Nat}

/-- With blocks of one size the position tells the block by division. -/
theorem layout_const_getElem? (positive : 0 < count) (blocks : List β) (i : Nat) :
    (layout (fun _ => count) blocks)[i]? = blocks[i / count]? := by
  induction blocks generalizing i with
  | nil => simp [layout]
  | cons first blocks ih =>
    rw [layout_cons, getElem?_append, length_replicate]
    split
    · rename_i early
      simp [early, Nat.div_eq_of_lt early]
    · rename_i late
      have next : i / count = (i - count) / count + 1 :=
        Nat.div_eq_sub_div positive (Nat.not_lt.mp late)
      rw [ih, next, getElem?_cons_succ]

theorem length_layout_const (blocks : List β) :
    (layout (fun _ => count) blocks).length = blocks.length * count := by
  rw [length_layout, map_const', sum_replicate_nat]

variable {blocks : List β}

theorem count_layout [DecidableEq β] {size : β → Nat} {block : β} (nodup : blocks.Nodup) :
    (layout size blocks).count block = if block ∈ blocks then size block else 0 := by
  induction blocks with
  | nil => simp [layout]
  | cons first blocks ih =>
    obtain ⟨fresh, nodup'⟩ := nodup_cons.mp nodup
    rw [layout_cons, count_append, ih nodup', count_replicate]
    by_cases found : first = block
    · subst found
      simp [fresh]
    · simp [found, Ne.symm found]

theorem pairwise_layout {size : β → Nat} {r : β → β → Prop} (reflexive : ∀ a, r a a)
    (sorted : blocks.Pairwise r) : (layout size blocks).Pairwise r := by
  induction blocks with
  | nil => simp [layout]
  | cons first blocks ih =>
    obtain ⟨before, later⟩ := pairwise_cons.mp sorted
    rw [layout_cons, pairwise_append]
    refine ⟨pairwise_replicate.mpr (.inr (reflexive first)), ih later, ?_⟩
    intro a inFirst b inLater
    rw [eq_of_mem_replicate inFirst]
    exact before b (mem_layout.mp inLater).1

/-- A list sorted by a key in which every block occurs equally often is the layout of the
blocks in the order of the key. -/
theorem eq_layout_of_sorted [DecidableEq β] {γ : Type} [PartialOrder γ] {key : β → γ}
    (injective : key.Injective) {l : List β} (sorted : l.Pairwise (key · ≤ key ·))
    (increasing : blocks.Pairwise (key · < key ·)) (known : ∀ block ∈ l, block ∈ blocks)
    (counts : ∀ block ∈ blocks, l.count block = count) : l = layout (fun _ => count) blocks := by
  have nodup : blocks.Nodup := increasing.imp fun below same => below.ne (congrArg key same)
  have perm : l.Perm (layout (fun _ => count) blocks) := by
    rw [perm_iff_count]
    intro block
    rw [count_layout nodup]
    split
    · rename_i member
      exact counts block member
    · rename_i foreign
      exact count_eq_zero_of_not_mem fun member => foreign (known block member)
  have ordered : (layout (fun _ => count) blocks).Pairwise (key · ≤ key ·) :=
    pairwise_layout (fun _ => le_rfl) (increasing.imp fun below => below.le)
  exact perm.eq_of_pairwise (fun _ _ _ _ below above => injective (below.antisymm above)) sorted ordered

theorem mem_interval_iff {k i : Nat} (positive : 0 < count) :
    i ∈ List.range' (k * count) count ↔ i / count = k := by
  rw [mem_range'_1, Nat.div_eq_iff positive]
  omega

/-- Intervals of one length, one after the other, make up one interval. -/
theorem flatMap_intervals {items : β → List Nat}
    (each : ∀ k block, blocks[k]? = some block → items block = List.range' (k * count) count) :
    blocks.flatMap items = List.range (blocks.length * count) := by
  induction blocks using List.reverseRecOn with
  | nil => simp
  | append_singleton blocks last ih =>
    have earlier : ∀ k block, blocks[k]? = some block → items block = List.range' (k * count) count := by
      intro k block place
      have below := (List.getElem?_eq_some_iff.mp place).1
      exact each k block (by rw [getElem?_append_left below, place])
    have final := each blocks.length last (by simp)
    have append := range'_append_1 (s := 0) (m := blocks.length * count) (n := count)
    rw [flatMap_append, ih earlier, flatMap_singleton, final, length_append,
      length_singleton, Nat.succ_mul]
    simpa [range_eq_range'] using append

end

end SlurmBridge.Foundation.Blocks
