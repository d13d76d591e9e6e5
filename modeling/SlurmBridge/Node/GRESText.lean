/- source: internal/controller/node/slurmcontrol/slurmcontrol.go
   digest: GRES texts are compared up to the order of their entries, blanks and socket suffixes. -/

import SlurmBridge.Node.Configuration
import SlurmBridge.Foundation.Sorting

set_option autoImplicit false

namespace SlurmBridge.Node.GRESText

open Foundation.Checked Foundation.Sorting Foundation.Text Node.Configuration List

section

def stripSuffixes : Nat → String → Option String
  | 0, _ => none
  | rounds + 1, gres =>
    match cut '(' gres with
    | (_, _, false) => some gres
    | (before, rest, true) => stripSuffixes rounds (before ++ (cut ')' rest).2.1)

variable {plain inside rest l : List Char}

theorem dropParenthesised_append (free : '(' ∉ plain) :
    dropParenthesised false (plain ++ rest) = plain ++ dropParenthesised false rest := by
  induction plain with
  | nil => rfl
  | cons c plain ih =>
    obtain ⟨differs, free'⟩ := not_or.mp (mem_cons.not.mp free)
    rw [cons_append, dropParenthesised, if_neg (Ne.symm differs), ih free', cons_append]

theorem dropParenthesised_free (free : '(' ∉ l) : dropParenthesised false l = l := by
  have whole : dropParenthesised false (l ++ []) = _ := dropParenthesised_append free
  simpa [dropParenthesised] using whole

theorem dropParenthesised_true :
    dropParenthesised true l = dropParenthesised false (l.dropWhile (· != ')')).tail := by
  induction l with
  | nil => rfl
  | cons c l ih =>
    by_cases closes : c = ')'
    · simp [dropParenthesised, closes]
    · simp [dropParenthesised, closes, ih]

private theorem cut_rest {sep : Char} {s : String} : (cut sep s).2.1.toList = (s.toList.dropWhile (· != sep)).tail := by
  unfold cut
  split
  · next none => rw [none, tail_nil, String.toList_empty]
  · next found => rw [found, tail_cons, String.toList_ofList]

theorem stripSuffixes_ends {rounds : Nat} {gres : String} (enough : gres.toList.count '(' < rounds) :
    stripSuffixes rounds gres = some (.ofList (dropParenthesised false gres.toList)) := by
  induction rounds generalizing gres with
  | zero => omega
  | succ rounds ih =>
    rcases cut_cases '(' gres with ⟨free, whole⟩ | ⟨before, after, rfl, free, pieces⟩
    · rw [stripSuffixes, whole, dropParenthesised_free free, String.ofList_toList]
    · have fewer : (after.toList.dropWhile (· != ')')).tail.count '(' ≤ after.toList.count '(' :=
        ((tail_sublist _).trans (dropWhile_sublist _)).count_le _
      have later := @ih (before ++ (cut ')' after).2.1) (by simp [cut_rest] at enough ⊢; omega)
      rw [stripSuffixes, pieces]
      simp only [later, String.toList_append, cut_rest]
      rw [dropParenthesised_append free, ← dropParenthesised_true, append_assoc, dropParenthesised_append free]
      simp [dropParenthesised]

end

section

/-- An entry as it may be written: after blanks, and with suffixes in parentheses. -/
structure Spelled where
  blanks : String
  entry : String
  suffixes : List String
  blank : ∀ c ∈ blanks.toList, isSpace c = true
  plain : ∀ c ∈ entry.toList, c ≠ ',' ∧ c ≠ '('
  trimmed : trimSpace entry = entry
  closed : ∀ text ∈ suffixes, ')' ∉ text.toList

def Spelled.text (s : Spelled) : String :=
  s.blanks ++ s.entry ++ .ofList (s.suffixes.flatMap fun text => '(' :: (text.toList ++ [')']))

/-- A GRES text with the given entries. -/
def rendered (entries : List Spelled) : String := ",".intercalate (entries.map (·.text))

variable {s : Spelled} {entries entries' : List Spelled} {rest : List Char}

private theorem dropParenthesised_suffixes {suffixes : List String} (closed : ∀ text ∈ suffixes, ')' ∉ text.toList) :
    dropParenthesised false ((suffixes.flatMap fun text => '(' :: (text.toList ++ [')'])) ++ rest) =
      dropParenthesised false rest := by
  induction suffixes with
  | nil => rfl
  | cons text suffixes ih =>
    obtain ⟨closedHead, closedTail⟩ := forall_mem_cons.mp closed
    have ends : ∀ c ∈ text.toList, (c != ')') = true := fun c inside => bne_iff_ne.mpr fun same => closedHead (same ▸ inside)
    simp only [flatMap_cons, cons_append, dropParenthesised, if_true, dropParenthesised_true,
      append_assoc, dropWhile_append_of_pos ends]
    simpa using ih closedTail

private theorem Spelled.free (s : Spelled) : ∀ c ∈ (s.blanks ++ s.entry).toList, c ≠ ',' ∧ c ≠ '(' := by
  intro c inside
  rw [String.toList_append, mem_append] at inside
  rcases inside with blank | named
  · have space := s.blank c blank
    constructor <;> (rintro rfl; exact absurd space (by decide))
  · exact s.plain c named

private theorem dropParenthesised_text :
    dropParenthesised false (s.text.toList ++ rest) = (s.blanks ++ s.entry).toList ++ dropParenthesised false rest := by
  have free : '(' ∉ (s.blanks ++ s.entry).toList := fun inside => (s.free _ inside).2 rfl
  rw [Spelled.text, String.toList_append, append_assoc, dropParenthesised_append free, String.toList_ofList,
    dropParenthesised_suffixes s.closed]

private theorem dropParenthesised_rendered : dropParenthesised false (rendered entries).toList =
    (",".intercalate (entries.map fun s => s.blanks ++ s.entry)).toList := by
  rw [rendered, String.toList_intercalate, String.toList_intercalate]
  induction entries with
  | nil => rfl
  | cons s entries ih =>
    cases entries with
    | nil =>
      have single : dropParenthesised false (s.text.toList ++ []) = _ := dropParenthesised_text
      simpa [List.intercalate, dropParenthesised] using single
    | cons s' entries =>
      simp only [map_cons, intercalate_cons_cons] at ih ⊢
      rw [append_assoc, dropParenthesised_text, dropParenthesised_append (by decide), ih, append_assoc]

private theorem trimSpace_blanks : trimSpace (s.blanks ++ s.entry) = s.entry := by
  conv_rhs => rw [← s.trimmed]
  rw [trimSpace, trimSpace, String.toList_append, dropWhile_append_of_pos s.blank]

theorem gresEntries_rendered (some : entries ≠ []) : gresEntries (rendered entries) = entries.map (·.entry) := by
  have pieces : split ',' (",".intercalate (entries.map fun s => s.blanks ++ s.entry)) =
      entries.map fun s => s.blanks ++ s.entry := by
    refine split_intercalate ',' (by simpa using some) ?_
    intro piece member inside
    obtain ⟨s, -, rfl⟩ := mem_map.mp member
    exact (s.free _ inside).1 rfl
  rw [gresEntries, dropParenthesised_rendered, String.ofList_toList, pieces, map_map]
  exact map_congr_left fun s _ => trimSpace_blanks

theorem gresEqual_iff {a b : String} : gresEqual a b = true ↔ (gresEntries a).Perm (gresEntries b) := by
  rw [gresEqual, decide_eq_true_eq, insertionSort_eq_iff]

private theorem gresEntries_empty : gresEntries (rendered []) = [""] := by decide +kernel

private theorem not_mem_map (some : ∀ s ∈ entries, s.entry ≠ "") : "" ∉ entries.map (·.entry) := by
  intro inside
  obtain ⟨s, member, empty⟩ := mem_map.mp inside
  exact some s member empty

theorem gresEqual_rendered_iff (some : ∀ s ∈ entries, s.entry ≠ "") (some' : ∀ s ∈ entries', s.entry ≠ "") :
    gresEqual (rendered entries) (rendered entries') = true ↔
      (entries.map (·.entry)).Perm (entries'.map (·.entry)) := by
  rw [gresEqual_iff]
  by_cases none : entries = []
  · subst none
    by_cases none' : entries' = []
    · simp [none']
    · rw [gresEntries_empty, gresEntries_rendered none']
      refine iff_of_false (fun perm => ?_) (fun perm => none' (by simpa using perm.symm.eq_nil))
      exact not_mem_map some' (perm.subset (mem_singleton_self ""))
  · rw [gresEntries_rendered none]
    by_cases none' : entries' = []
    · subst none'
      refine iff_of_false (fun perm => ?_) (fun perm => none (by simpa using perm.eq_nil))
      exact not_mem_map some (perm.symm.subset (mem_singleton_self ""))
    · rw [gresEntries_rendered none']

theorem validateHybridNodeGRES_rendered_iff {nodeName : String} {desired : NodeGRESConfig}
    (plain : desired.gres = ",".intercalate (entries'.map (·.entry))) (some' : ∀ s ∈ entries', s.entry ≠ "") :
    validateHybridNodeGRES nodeName (rendered entries) desired = .ok () ↔
      ∀ entry ∈ entries'.map (·.entry), entry ∈ entries.map (·.entry) := by
  rw [validateHybridNodeGRES, require_eq_ok, plain]
  have named := not_mem_map some'
  by_cases none' : entries' = []
  · simp [none']
  have pieces : split ',' (",".intercalate (entries'.map (·.entry))) = entries'.map (·.entry) := by
    refine split_intercalate ',' (by simpa using none') ?_
    intro entry member inside
    obtain ⟨s, -, rfl⟩ := mem_map.mp member
    exact (s.plain _ inside).1 rfl
  have written : ",".intercalate (entries'.map (·.entry)) ≠ "" := by
    intro empty
    rcases intercalate_eq_empty ',' empty with h | h
    · exact none' (by simpa using h)
    · simp [h] at named
  rw [or_iff_right written, pieces]
  by_cases none : entries = []
  · subst none
    rw [gresEntries_empty]
    refine forall₂_congr fun entry member => iff_of_false (fun same => ?_) (by simp)
    exact named (mem_singleton.mp same ▸ member)
  · rw [gresEntries_rendered none]

/-- GRES texts are compared up to order, blanks and suffixes, hybrid nodes need every entry, and the loop over
the suffixes ends on every text. -/
theorem gres_comparison_exact (entries entries' : List Spelled) (some : ∀ s ∈ entries, s.entry ≠ "")
    (some' : ∀ s ∈ entries', s.entry ≠ "") :
    (gresEqual (rendered entries) (rendered entries') = true ↔
      (entries.map (·.entry)).Perm (entries'.map (·.entry))) ∧
    (∀ nodeName desired, desired.gres = ",".intercalate (entries'.map (·.entry)) →
      (validateHybridNodeGRES nodeName (rendered entries) desired = .ok () ↔
        ∀ entry ∈ entries'.map (·.entry), entry ∈ entries.map (·.entry))) ∧
    ∀ gres, ∃ rounds, stripSuffixes rounds gres = .some (.ofList (dropParenthesised false gres.toList)) := by
  refine ⟨gresEqual_rendered_iff some some', ?_, ?_⟩
  · intro nodeName desired plain
    exact validateHybridNodeGRES_rendered_iff plain some'
  · intro gres
    exact ⟨_, stripSuffixes_ends (Nat.lt_succ_self _)⟩

/-- Two orders of the same entries, one of them with blanks and a suffix. -/
theorem gres_comparison_of_sockets : gresEqual "gpu:a100:4(S:0,2), nic:1" "nic:1,gpu:a100:4" = true := by
  let gpu : Spelled := ⟨"", "gpu:a100:4", ["S:0,2"], all_eq_true.mp (by decide),
    forall_iff_forall_mem.mp (by decide), by decide +kernel, by decide⟩
  let nic : Spelled := ⟨" ", "nic:1", [], all_eq_true.mp (by decide),
    forall_iff_forall_mem.mp (by decide), by decide +kernel, by decide⟩
  let nic' : Spelled := ⟨"", "nic:1", [], all_eq_true.mp (by decide),
    forall_iff_forall_mem.mp (by decide), by decide +kernel, by decide⟩
  let gpu' : Spelled := ⟨"", "gpu:a100:4", [], all_eq_true.mp (by decide),
    forall_iff_forall_mem.mp (by decide), by decide +kernel, by decide⟩
  have same := (gres_comparison_exact [gpu, nic] [nic', gpu'] (by decide) (by decide)).1.mpr (by decide)
  exact same

end

end SlurmBridge.Node.GRESText
