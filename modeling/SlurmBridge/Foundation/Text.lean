/- source: none
   digest: Separator-free segments, cutting, joining and splitting text at a
     separator, and decimal numerals with their parser. -/

import Mathlib.Data.List.TakeWhile
import Mathlib.Data.Nat.Digits.Defs
import Mathlib.Tactic.Common

set_option autoImplicit false

namespace SlurmBridge.Foundation.Text

open List

/-- A piece of text that can stand between slashes and between commas. -/
structure Segment where
  text : String
  noSlash : '/' ∉ text.toList
  noComma : ',' ∉ text.toList
  deriving DecidableEq

instance : Coe Segment String := ⟨Segment.text⟩

def Segment.of (text : String) (plain : text.toList.all (fun c => c != '/' && c != ',') = true) : Segment where
  text := text
  noSlash inside := by simpa using all_eq_true.mp plain _ inside
  noComma inside := by simpa using all_eq_true.mp plain _ inside

theorem Segment.text_injective {a b : Segment} (equal : a.text = b.text) : a = b := by
  cases a
  cases b
  simp_all

/-- The text before and after the first separator, and whether there is one. -/
def cut (sep : Char) (s : String) : String × String × Bool :=
  match s.toList.dropWhile (· != sep) with
  | [] => (s, "", false)
  | _ :: after => (.ofList (s.toList.takeWhile (· != sep)), .ofList after, true)

/-- The pieces between separators.  Text without a separator is a single piece. -/
def split (sep : Char) (s : String) : List String :=
  (s.toList.splitOn sep).map String.ofList

/-- What follows a given beginning. -/
def after? (lead s : String) : Option String :=
  if lead.toList <+: s.toList then some (.ofList (s.toList.drop lead.toList.length)) else none

variable {s : String}

theorem after?_eq_some {lead rest : String} : after? lead s = some rest ↔ s = lead ++ rest := by
  unfold after?
  constructor
  · intro found
    split at found
    · rename_i begins
      obtain ⟨tail, same⟩ := begins
      obtain rfl := Option.some.inj found
      rw [← String.toList_inj, String.toList_append, String.toList_ofList, ← same, drop_left]
    · cases found
  · rintro rfl
    rw [if_pos (by simp), String.toList_append, drop_left, String.ofList_toList]

variable {sep : Char}

private theorem ne_separator {a : List Char} (free : sep ∉ a) : ∀ c ∈ a, (c != sep) = true := by
  intro c hc
  simp only [bne_iff_ne, ne_eq]
  rintro rfl
  exact free hc

variable {a : String}

theorem cut_separated {b : String} (free : sep ∉ a.toList) :
    cut sep (a ++ String.singleton sep ++ b) = (a, b, true) := by
  simp [cut, dropWhile_append_of_pos (ne_separator free), takeWhile_append_of_pos (ne_separator free)]

theorem cut_free (free : sep ∉ a.toList) : cut sep a = (a, "", false) := by
  have rest : a.toList.dropWhile (· != sep) = [] :=
    dropWhile_eq_nil_iff.mpr (ne_separator free)
  simp only [cut, rest]

theorem cut_cases (sep : Char) (s : String) : (sep ∉ s.toList ∧ cut sep s = (s, "", false)) ∨
    ∃ a b : String, s = a ++ String.singleton sep ++ b ∧ sep ∉ a.toList ∧ cut sep s = (a, b, true) := by
  by_cases found : sep ∈ s.toList
  · obtain ⟨before, after, split, free⟩ := eq_append_cons_of_mem found
    have pieces : s = .ofList before ++ String.singleton sep ++ .ofList after := by
      rw [← String.toList_inj, split]
      simp
    have free' : sep ∉ (String.ofList before).toList := by simpa using free
    exact .inr ⟨_, _, pieces, free', pieces ▸ cut_separated free'⟩
  · exact .inl ⟨found, cut_free found⟩

variable {parts : List String}

/-- Joining separator-free pieces and splitting again gives the pieces back. -/
theorem split_intercalate (sep : Char) (nonempty : parts ≠ []) (free : ∀ part ∈ parts, sep ∉ part.toList) :
    split sep ((String.singleton sep).intercalate parts) = parts := by
  have pieces : ∀ piece ∈ parts.map String.toList, sep ∉ piece := by
    simpa using free
  rw [split, String.toList_intercalate, String.toList_singleton,
    splitOn_intercalate sep pieces (by simpa using nonempty)]
  simp

theorem intercalate_split (sep : Char) (s : String) : (String.singleton sep).intercalate (split sep s) = s := by
  apply String.toList_injective
  rw [String.toList_intercalate, split, map_map]
  simp [Function.comp_def, intercalate_splitOn]

theorem intercalate_eq_empty (sep : Char) (empty : (String.singleton sep).intercalate parts = "") :
    parts = [] ∨ parts = [""] := by
  match parts with
  | [] => exact .inl rfl
  | [part] => simp_all
  | part :: part' :: rest =>
    have spread := congrArg String.toList empty
    simp [String.toList_intercalate] at spread

theorem not_mem_intercalate {c : Char} (differs : c ≠ sep) (free : ∀ part ∈ parts, c ∉ part.toList) :
    c ∉ ((String.singleton sep).intercalate parts).toList := by
  rw [String.toList_intercalate, String.toList_singleton]
  induction parts with
  | nil => simp
  | cons part parts ih =>
    obtain ⟨freeHead, freeTail⟩ := forall_mem_cons.mp free
    cases parts with
    | nil => simpa [List.intercalate] using freeHead
    | cons part' parts =>
      simpa [freeHead, differs] using ih freeTail

theorem intercalate_flatten (sep : String) {groups : List (List String)} (some : ∀ group ∈ groups, group ≠ []) :
    sep.intercalate (groups.map sep.intercalate) = sep.intercalate groups.flatten := by
  induction groups with
  | nil => rfl
  | cons group groups ih =>
    obtain ⟨someHead, someTail⟩ := forall_mem_cons.mp some
    cases groups with
    | nil => simp
    | cons group' groups =>
      have later : (group' :: groups).flatten ≠ [] := by
        simp [(forall_mem_cons.mp someTail).1]
      rw [flatten_cons, String.intercalate_append_of_ne_nil someHead later, ← ih someTail]
      simp

def numeral (n : Nat) : String := .ofList (Nat.toDigits 10 n)

/-- Parse an unsigned decimal numeral below a bound: at least one digit, no sign,
no other character. -/
def parseNumeral (bound : Nat) (s : String) : Option Nat :=
  if s.toList ≠ [] ∧ s.toList.all Char.isDigit ∧ Nat.ofDigitChars 10 s.toList 0 < bound then
    some (Nat.ofDigitChars 10 s.toList 0)
  else
    none

def parseInt32 (s : String) : Option Int :=
  match s.toList with
  | '-' :: digits => (parseNumeral (2 ^ 31 + 1) (.ofList digits)).map fun n => -(n : Int)
  | '+' :: digits => (parseNumeral (2 ^ 31) (.ofList digits)).map fun n => (n : Int)
  | _ => (parseNumeral (2 ^ 31) s).map fun n => (n : Int)

variable {bound n : Nat}

theorem parseNumeral_lt (parsed : parseNumeral bound s = some n) : n < bound := by
  unfold parseNumeral at parsed
  split at parsed
  · rename_i valid
    exact Option.some.inj parsed ▸ valid.2.2
  · cases parsed

theorem parseNumeral_digits (parsed : parseNumeral bound s = some n) :
    s.toList ≠ [] ∧ ∀ c ∈ s.toList, c.isDigit = true := by
  unfold parseNumeral at parsed
  split at parsed
  · rename_i valid
    exact ⟨valid.1, all_eq_true.mp valid.2.1⟩
  · cases parsed

theorem parseInt32_lt {n : Int} (parsed : parseInt32 s = some n) : n < 2 ^ 31 := by
  unfold parseInt32 at parsed
  split at parsed
  all_goals
    obtain ⟨_, read, rfl⟩ := Option.map_eq_some_iff.mp parsed
    obtain ⟨m, numeral, same⟩ := Option.bind_eq_some_iff.mp read
    have := parseNumeral_lt numeral
    have := Option.some.inj same
    omega

theorem parseNumeral_numeral (below : n < bound) : parseNumeral bound (numeral n) = some n := by
  have digits : (Nat.toDigits 10 n).all Char.isDigit = true := by
    rw [all_eq_true]
    intro c hc
    exact Nat.isDigit_of_mem_toDigits (by omega) (by omega) hc
  simp [parseNumeral, numeral, Nat.ofDigitChars_ten_toDigits, digits, below]

theorem numeral_injective {m : Nat} (same : numeral n = numeral m) : n = m := by
  have parsed := congrArg (parseNumeral (max n m + 1)) same
  rw [parseNumeral_numeral (by omega), parseNumeral_numeral (by omega)] at parsed
  exact Option.some.inj parsed

variable {c : Char}

theorem isDigit_of_mem_numeral (member : c ∈ (numeral n).toList) : c.isDigit = true := by
  rw [numeral, String.toList_ofList] at member
  exact Nat.isDigit_of_mem_toDigits (by omega) (by omega) member

theorem not_mem_numeral (nondigit : c.isDigit = false) (n : Nat) : c ∉ (numeral n).toList := by
  intro member
  simp [isDigit_of_mem_numeral member] at nondigit

end SlurmBridge.Foundation.Text
