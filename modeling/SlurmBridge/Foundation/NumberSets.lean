/- source: none
   digest: Finite sets of natural numbers as strictly increasing lists, and their
     canonical text as comma-separated runs. -/

import Mathlib.Data.List.Sort
import Mathlib.Data.List.Dedup
import Mathlib.Data.List.Induction
import SlurmBridge.Foundation.Text

set_option autoImplicit false

namespace SlurmBridge.Foundation.NumberSets

open Foundation.Text List

/-- A finite set of natural numbers.  The list is strictly increasing, so equal sets are
equal values. -/
structure NumberSet where
  list : List Nat
  increasing : list.Pairwise (· < ·)
  deriving DecidableEq

namespace NumberSet

instance : Membership Nat NumberSet := ⟨fun s n => n ∈ s.list⟩

instance (n : Nat) (s : NumberSet) : Decidable (n ∈ s) := inferInstanceAs (Decidable (n ∈ s.list))

variable {n : Nat} {s : NumberSet}

theorem mem_def : n ∈ s ↔ n ∈ s.list := Iff.rfl

variable {t : NumberSet}

@[ext] theorem ext (same : ∀ n, n ∈ s ↔ n ∈ t) : s = t := by
  obtain ⟨l, increasing⟩ := s
  obtain ⟨l', increasing'⟩ := t
  have equal : l = l' := increasing.eq_of_mem_iff increasing' same
  subst equal
  rfl

def size (s : NumberSet) : Nat := s.list.length

def ofList (l : List Nat) : NumberSet where
  list := l.dedup.insertionSort (· ≤ ·)
  increasing := by
    have nodup : (l.dedup.insertionSort (· ≤ ·)).Nodup :=
      (perm_insertionSort _ _).nodup_iff.mpr l.nodup_dedup
    exact (pairwise_insertionSort (· ≤ ·) l.dedup).imp₂
      (fun _ _ below differ => lt_of_le_of_ne below differ) nodup

@[simp] theorem mem_ofList {l : List Nat} : n ∈ ofList l ↔ n ∈ l := by
  rw [mem_def, ofList, (perm_insertionSort _ _).mem_iff, mem_dedup]

def filter (p : Nat → Bool) (s : NumberSet) : NumberSet :=
  ⟨s.list.filter p, s.increasing.filter p⟩

@[simp] theorem mem_filter {p : Nat → Bool} : n ∈ s.filter p ↔ n ∈ s ∧ p n = true := List.mem_filter

def inter (s t : NumberSet) : NumberSet := s.filter (· ∈ t)

def diff (s t : NumberSet) : NumberSet := s.filter (· ∉ t)

@[simp] theorem mem_inter : n ∈ s.inter t ↔ n ∈ s ∧ n ∈ t := by
  simp [inter]

@[simp] theorem mem_diff : n ∈ s.diff t ↔ n ∈ s ∧ n ∉ t := by
  simp [diff]

theorem size_inter_add_size_diff (s t : NumberSet) : (s.inter t).size + (s.diff t).size = s.size := by
  have total := length_eq_length_filter_add (l := s.list) (fun n => decide (n ∈ t))
  simp only [size, inter, diff, filter, decide_not]
  exact total.symm

def Disjoint (s t : NumberSet) : Prop := ∀ n ∈ s, n ∉ t

end NumberSet

section
variable {α : Type} (part : α → NumberSet)

/-- Give an owner what is left of its part.  An owner for whom nothing is left gets no share. -/
def takeShare (state : List (α × NumberSet) × NumberSet) (owner : α) : List (α × NumberSet) × NumberSet :=
  let share := (part owner).inter state.2
  if share.list = [] then state else (state.1 ++ [(owner, share)], state.2.diff share)

def distribute (owners : List α) (s : NumberSet) : List (α × NumberSet) × NumberSet :=
  owners.foldl (takeShare part) ([], s)

/-- A distribution cuts the set into non-empty disjoint shares, each within its owner's
part, and a remainder. -/
structure Distributed (owners : List α) (s : NumberSet) (result : List (α × NumberSet) × NumberSet) : Prop where
  owners : (result.1.map Prod.fst).Sublist owners
  nonempty : ∀ share ∈ result.1, share.2.list ≠ []
  within : ∀ share ∈ result.1, ∀ n ∈ share.2, n ∈ part share.1
  disjoint : (result.1.map Prod.snd).Pairwise NumberSet.Disjoint
  covers : ∀ n, n ∈ s ↔ n ∈ result.2 ∨ ∃ share ∈ result.1, n ∈ share.2
  remainder : ∀ n ∈ result.2, ∀ share ∈ result.1, n ∉ share.2
  sizes : (result.1.map (·.2.size)).sum + result.2.size = s.size

variable {part}

private theorem distributed_takeShare {owners : List α} {s : NumberSet}
    {state : List (α × NumberSet) × NumberSet} (now : Distributed part owners s state) (owner : α) :
    Distributed part (owners ++ [owner]) s (takeShare part state owner) := by
  obtain ⟨shares, left⟩ := state
  unfold takeShare
  simp only
  split
  · exact { now with owners := now.owners.trans (sublist_append_left _ _) }
  · rename_i some
    have inShare : ∀ n, n ∈ (part owner).inter left ↔ n ∈ part owner ∧ n ∈ left :=
      fun n => NumberSet.mem_inter
    have total := NumberSet.size_inter_add_size_diff left ((part owner).inter left)
    have sameShare : left.inter ((part owner).inter left) = (part owner).inter left := by
      ext n
      simp only [NumberSet.mem_inter]
      tauto
    rw [sameShare] at total
    exact {
      owners := by simpa using now.owners.append (List.Sublist.refl [owner])
      nonempty := by simpa [or_imp, forall_and, some] using now.nonempty
      within := forall_mem_append.mpr
        ⟨now.within, forall_mem_singleton.mpr fun n inside => ((inShare n).mp inside).1⟩
      disjoint := by
        simp only [map_append, map_singleton, pairwise_append]
        refine ⟨now.disjoint, pairwise_singleton _ _, ?_⟩
        intro old member new last n inOld inNew
        obtain ⟨share, inShares, rfl⟩ := mem_map.mp member
        rw [mem_singleton.mp last] at inNew
        exact now.remainder n ((inShare n).mp inNew).2 share inShares inOld
      covers := by
        intro n
        rw [now.covers n]
        simp only [mem_append, mem_singleton, or_and_right, exists_or, exists_eq_left,
          NumberSet.mem_diff, NumberSet.mem_inter]
        by_cases own : n ∈ part owner <;> by_cases inLeft : n ∈ left <;> simp [own, inLeft]
      remainder := by
        intro n inside share member
        obtain ⟨inLeft, outside⟩ := NumberSet.mem_diff.mp inside
        rcases mem_append.mp member with old | new
        · exact now.remainder n inLeft share old
        · rw [mem_singleton.mp new]
          exact outside
      sizes := by
        have sizes : (shares.map (·.2.size)).sum + left.size = s.size := now.sizes
        simp only [map_append, map_singleton, sum_append, sum_singleton]
        omega }

theorem distributed (owners : List α) (s : NumberSet) :
    Distributed part owners s (distribute part owners s) := by
  induction owners using List.reverseRecOn with
  | nil =>
    exact ⟨.slnil, by simp [distribute], by simp [distribute], by simp [distribute],
      by simp [distribute], by simp [distribute], by simp [distribute]⟩
  | append_singleton owners owner ih =>
    rw [distribute, foldl_append]
    exact distributed_takeShare ih owner

/-- A distribution depends on the owners through their parts only. -/
theorem distribute_map {β : Type} (view : α → β) (part' : β → NumberSet)
    (same : ∀ owner, part' (view owner) = part owner) (owners : List α) (s : NumberSet) :
    distribute part' (owners.map view) s =
      ((distribute part owners s).1.map (fun share => (view share.1, share.2)),
        (distribute part owners s).2) := by
  induction owners using List.reverseRecOn with
  | nil => rfl
  | append_singleton owners owner ih =>
    simp only [distribute] at ih
    simp only [distribute, map_append, map_singleton, foldl_append,
      foldl_cons, foldl_nil, ih, takeShare, same]
    split <;> simp

end

/-- The maximal runs of consecutive numbers of an increasing list, each with its first and
last number. -/
def runs : List Nat → List (Nat × Nat)
  | [] => []
  | n :: rest =>
    match runs rest with
    | [] => [(n, n)]
    | (first, last) :: later =>
      if n + 1 = first then (n, last) :: later else (n, n) :: (first, last) :: later

/-- The numbers from the first to the last of a run. -/
def spread (run : Nat × Nat) : List Nat := List.range' run.1 (run.2 + 1 - run.1)

theorem spread_self (n : Nat) : spread (n, n) = [n] := by
  simp [spread]

private theorem spread_extend {n last : Nat} (ordered : n + 1 ≤ last) :
    spread (n, last) = n :: spread (n + 1, last) := by
  have length : last + 1 - n = (last + 1 - (n + 1)) + 1 := by omega
  simp only [spread, length, range'_succ]

variable {l : List Nat}

private theorem ordered_of_mem_runs : ∀ run ∈ runs l, run.1 ≤ run.2 := by
  induction l with
  | nil => simp [runs]
  | cons n rest ih =>
    simp only [runs]
    split
    · simp
    · rename_i first last later found
      rw [found] at ih
      have head := ih (first, last) (by simp)
      split
      · rename_i next
        intro run member
        rcases mem_cons.mp member with rfl | tail
        · simp only at head ⊢
          omega
        · exact ih run (mem_cons_of_mem _ tail)
      · intro run member
        rcases mem_cons.mp member with rfl | tail
        · exact le_rfl
        · exact ih run tail

theorem flatMap_spread_runs (l : List Nat) : (runs l).flatMap spread = l := by
  induction l with
  | nil => rfl
  | cons n rest ih =>
    simp only [runs]
    split
    · rename_i none
      rw [none] at ih
      simpa [spread_self] using ih
    · rename_i first last later found
      have ordered := ordered_of_mem_runs (l := rest) (first, last) (by simp [found])
      rw [found, flatMap_cons] at ih
      split
      · rename_i next
        subst next
        rw [flatMap_cons, spread_extend ordered, cons_append, ih]
      · rw [flatMap_cons, flatMap_cons, spread_self, ih]
        rfl

theorem runs_injective {l' : List Nat} (same : runs l = runs l') : l = l' := by
  rw [← flatMap_spread_runs l, same, flatMap_spread_runs]

def runText (run : Nat × Nat) : String :=
  if run.1 = run.2 then numeral run.1
  else numeral run.1 ++ String.singleton '-' ++ numeral run.2

private theorem cut_runText (run : Nat × Nat) : cut '-' (runText run) =
      if run.1 = run.2 then (numeral run.1, "", false) else (numeral run.1, numeral run.2, true) := by
  have free := not_mem_numeral (c := '-') (by decide) run.1
  unfold runText
  split
  · exact cut_free free
  · exact cut_separated free

theorem runText_injective {run run' : Nat × Nat} (same : runText run = runText run') : run = run' := by
  have cuts := congrArg (cut '-') same
  rw [cut_runText, cut_runText] at cuts
  split at cuts <;> split at cuts <;> simp only [Prod.mk.injEq] at cuts
  · rename_i single single'
    have first := numeral_injective cuts.1
    exact Prod.ext first (by rw [← single, ← single', first])
  · simp at cuts
  · simp at cuts
  · exact Prod.ext (numeral_injective cuts.1) (numeral_injective cuts.2.1)

private theorem comma_free_runText (run : Nat × Nat) : ',' ∉ (runText run).toList := by
  have digits := fun n => not_mem_numeral (c := ',') (by decide) n
  unfold runText
  split
  · exact digits _
  · simp [digits]

private theorem runText_ne_empty (run : Nat × Nat) : runText run ≠ "" := by
  intro empty
  have first : numeral run.1 ≠ "" := by
    intro empty
    have parsed := parseNumeral_numeral (Nat.lt_succ_self run.1)
    simp [empty, parseNumeral] at parsed
  unfold runText at empty
  split at empty
  · exact first empty
  · simp at empty

/-- The canonical text of a set: its maximal runs, in order, separated by commas. -/
def NumberSet.text (s : NumberSet) : String := (String.singleton ',').intercalate ((runs s.list).map runText)

/-- Equal canonical texts are texts of equal sets. -/
theorem NumberSet.text_injective {s t : NumberSet} (same : s.text = t.text) : s = t := by
  -- Only the empty set has the empty text; every other text splits into its runs.
  have parts : ∀ u : NumberSet, runs u.list ≠ [] →
      split ',' u.text = (runs u.list).map runText := by
    intro u some
    refine split_intercalate ',' (by simpa using some) ?_
    simp only [mem_map, forall_exists_index, and_imp, forall_apply_eq_imp_iff₂]
    exact fun run _ => comma_free_runText run
  have empty : ∀ u : NumberSet, u.text = "" → runs u.list = [] := by
    intro u blank
    rcases intercalate_eq_empty ',' blank with none | blankPart
    · simpa using none
    · obtain ⟨run, -, text⟩ := map_eq_singleton_iff.mp blankPart
      exact absurd text (runText_ne_empty run)
  have equal : runs s.list = runs t.list := by
    by_cases none : runs s.list = []
    · have blank : t.text = "" := by rw [← same, NumberSet.text, none]; rfl
      rw [none, empty t blank]
    · have other : runs t.list ≠ [] := by
        intro none'
        exact none (empty s (by rw [same, NumberSet.text, none']; rfl))
      have pieces := congrArg (split ',') same
      rw [parts s none, parts t other] at pieces
      exact map_injective_iff.mpr (fun _ _ same => runText_injective same) pieces
  have lists := runs_injective equal
  exact NumberSet.ext (fun n => by rw [NumberSet.mem_def, NumberSet.mem_def, lists])

end SlurmBridge.Foundation.NumberSets
