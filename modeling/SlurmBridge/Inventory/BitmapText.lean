/- source: internal/utils/bitmaputil/bitmaputil.go
   digest: Bitmaps of 64-bit blocks, their hexadecimal texts and their CPUs, compared through the number
     that each of them denotes. -/

import SlurmBridge.Inventory.CPUMap

set_option autoImplicit false

namespace SlurmBridge.Inventory.BitmapText

open Foundation.Checked Foundation.NumberSets Inventory.Devices
open Inventory.Allocation (hexDigit decodeHex)
open List Nat

abbrev Blocks := List (BitVec 64)

def bit (bm : Blocks) (i : Nat) : Bool := (bm.getD (i / 64) 0).getLsbD (i % 64)

/-- The bitmap grows up to the block of the bit. -/
def setBit (bm : Blocks) (x : Nat) : Blocks :=
  (bm ++ List.replicate (x / 64 + 1 - bm.length) 0).modify (x / 64) (· ||| BitVec.twoPow 64 (x % 64))

def new (idx : List Nat) : Blocks := idx.foldl (fun bm i => setBit bm (i % 2 ^ 32)) []

def words : Nat → List Nat → Blocks
  | 0, _ => []
  | n + 1, buffer => BitVec.ofNat 64 (Nat.ofDigits 256 (buffer.take 8)) :: words n (buffer.drop 8)

def fromBytes (buffer : List Nat) : Blocks :=
  let padded := buffer ++ List.replicate ((8 - buffer.length % 8) % 8) 0
  words (padded.length / 8) padded

def newFrom (s : String) : Except String Blocks := (Allocation.newFrom s).map fromBytes

/-- Sixteen digits for each block, the highest first. -/
def blockDigits (bm : Blocks) : List Char :=
  bm.foldl (fun s b => (Nat.toDigits 16 b.toNat).leftpad 16 '0' ++ s) []

def text (bm : Blocks) : String := "0x" ++ .ofList ((blockDigits bm).dropWhile (· == '0'))

def toCPUSet (bm : Blocks) : CPUSet :=
  .ofList (((List.range (64 * bm.length)).filter (bit bm)).map (· % 2 ^ 32))

def value (bm : Blocks) : Nat := Nat.ofDigits (2 ^ 64) (bm.map BitVec.toNat)

/-- The number that hexadecimal digits denote, the highest digit first. -/
def denoted (digits : List Char) : Nat := Nat.ofDigits 16 (digits.map fun c => (hexDigit c).getD 0).reverse

def IsHex (digits : List Char) : Prop := ∀ c ∈ digits, (hexDigit c).isSome = true

section
variable {bm : Blocks} {i : Nat}

theorem testBit_ofDigits {w : Nat} (positive : 0 < w) {l : List Nat} (small : ∀ d ∈ l, d < 2 ^ w) (i : Nat) :
    (l.getD (i / w) 0).testBit (i % w) = (Nat.ofDigits (2 ^ w) l).testBit i := by
  induction l generalizing i with
  | nil => simp
  | cons d l ih =>
    obtain ⟨first, rest⟩ := forall_mem_cons.mp small
    rw [ofDigits_cons, add_comm, testBit_two_pow_mul_add _ first]
    split
    · next low =>
      rw [div_eq_of_lt low, mod_eq_of_lt low]
      rfl
    · next high =>
      have above : w ≤ i := not_lt.mp high
      rw [← ih rest, div_eq_sub_div positive above, mod_eq_sub_mod above]
      rfl

theorem bit_eq_testBit : bit bm i = (value bm).testBit i := by
  have small : ∀ d ∈ bm.map BitVec.toNat, d < 2 ^ 64 := by
    intro d inside
    obtain ⟨b, -, rfl⟩ := mem_map.mp inside
    exact b.isLt
  rw [value, ← testBit_ofDigits (by decide) small, bit, ← BitVec.testBit_toNat]
  simp only [getD_eq_getElem?_getD, getElem?_map]
  cases bm[i / 64]? <;> rfl

theorem bit_setBit {x : Nat} : bit (setBit bm x) i = (decide (x = i) || bit bm i) := by
  have padded : ∀ k, (bm ++ List.replicate k 0).getD (i / 64) 0 = bm.getD (i / 64) 0 := by
    intro k
    simp only [getD_eq_getElem?_getD, getElem?_append, getElem?_replicate]
    split
    · rfl
    · next beyond =>
      rw [getElem?_eq_none (not_lt.mp beyond)]
      split <;> rfl
  have grown : x / 64 < (bm ++ List.replicate (x / 64 + 1 - bm.length) 0).length := by
    rw [length_append, length_replicate]
    omega
  rw [bit, bit, setBit, ← padded (x / 64 + 1 - bm.length)]
  simp only [getD_eq_getElem?_getD, getElem?_modify]
  by_cases same : x / 64 = i / 64
  · have low : x % 64 = i % 64 ↔ x = i := by omega
    have small : x % 64 < 64 := mod_lt _ (by decide)
    rw [← same, getElem?_eq_getElem grown]
    simp [low, small, Bool.or_comm]
  · have differs : x ≠ i := fun equal => same (equal ▸ rfl)
    simp [same, differs]

theorem bit_new {idx : List Nat} : bit (new idx) i = true ↔ ∃ x ∈ idx, x % 2 ^ 32 = i := by
  induction idx using List.reverseRecOn with
  | nil => simp [new, bit]
  | append_singleton idx x ih =>
    rw [new, foldl_append, foldl_cons, foldl_nil, ← new, bit_setBit, Bool.or_eq_true, ih]
    simp [or_comm, or_and_right, exists_or]

theorem lt_of_bit (set : bit bm i = true) : i < 64 * bm.length := by
  by_contra beyond
  rw [bit, getD_eq_getElem?_getD, getElem?_eq_none (by omega)] at set
  simp at set

theorem mem_toCPUSet {cpu : Nat} : cpu ∈ toCPUSet bm ↔ ∃ i, bit bm i = true ∧ i % 2 ^ 32 = cpu := by
  simp only [toCPUSet, NumberSet.mem_ofList, mem_map, mem_filter, mem_range]
  exact exists_congr fun i => and_congr_left fun _ => and_iff_right_of_imp lt_of_bit

end

section
variable {buffer : List Nat}

private theorem value_words {n : Nat} (whole : buffer.length = 8 * n) (small : ∀ b ∈ buffer, b < 256) :
    value (words n buffer) = Nat.ofDigits 256 buffer := by
  induction n generalizing buffer with
  | zero =>
    rw [length_eq_zero_iff.mp whole]
    rfl
  | succ n ih =>
    have eight : (buffer.take 8).length = 8 := by
      rw [length_take]
      omega
    have low : Nat.ofDigits 256 (buffer.take 8) < 2 ^ 64 := by
      have below : ∀ b ∈ buffer.take 8, b < 256 := fun b inside => small b (mem_of_mem_take inside)
      simpa [eight] using ofDigits_lt_base_pow_length (by decide) below
    have rest : value (words n (buffer.drop 8)) = Nat.ofDigits 256 (buffer.drop 8) := by
      refine ih ?_ fun b inside => small b (mem_of_mem_drop inside)
      rw [length_drop]
      omega
    rw [words, value, map_cons, ofDigits_cons, ← value, rest, BitVec.toNat_ofNat, mod_eq_of_lt low]
    conv_rhs => rw [← take_append_drop 8 buffer, ofDigits_append, eight]
    rfl

theorem value_fromBytes (small : ∀ b ∈ buffer, b < 256) : value (fromBytes buffer) = Nat.ofDigits 256 buffer := by
  rw [fromBytes, value_words, ofDigits_append_replicate_zero]
  · rw [length_append, length_replicate]
    omega
  · refine forall_mem_append.mpr ⟨small, fun b zero => ?_⟩
    rw [eq_of_mem_replicate zero]
    decide

theorem mem_bits_iff (small : ∀ b ∈ buffer, b < 256) {i : Nat} :
    i ∈ Allocation.Bitmap.bits buffer ↔ bit (fromBytes buffer) i = true := by
  rw [CPUMap.mem_bits, bit_eq_testBit, value_fromBytes small, testBit_ofDigits (by decide) small]
  rfl

end

section
variable {digits : List Char}

private theorem hexDigit_lt {c : Char} {d : Nat} (read : hexDigit c = some d) : d < 16 := by
  unfold hexDigit at read
  split_ifs at read with numeric lower upper
  all_goals
    cases read
    simp only [Char.le_def, UInt32.le_iff_toNat_le, Char.toNat] at *
    simp at *
    omega

private theorem hexDigit_digitChar : ∀ d < 16, hexDigit (Nat.digitChar d) = some d := by
  decide

theorem denoted_append {low : List Char} :
    denoted (digits ++ low) = denoted low + 16 ^ low.length * denoted digits := by
  rw [denoted, map_append, reverse_append, ofDigits_append, length_reverse, length_map]
  rfl

theorem denoted_zeros (k : Nat) : denoted (List.replicate k '0' ++ digits) = denoted digits := by
  rw [denoted, map_append, reverse_append, map_replicate, reverse_replicate]
  exact ofDigits_append_replicate_zero _

private theorem exists_zeros (digits : List Char) :
    ∃ k, digits = List.replicate k '0' ++ digits.dropWhile (· == '0') := by
  have zeros : digits.takeWhile (· == '0') = List.replicate (digits.takeWhile (· == '0')).length '0' := by
    refine eq_replicate_of_mem fun c inside => ?_
    simpa using mem_takeWhile_imp inside
  exact ⟨_, zeros ▸ takeWhile_append_dropWhile.symm⟩

theorem isHex_zeros (hex : IsHex digits) (k : Nat) : IsHex (List.replicate k '0' ++ digits) := by
  refine forall_mem_append.mpr ⟨fun c zero => ?_, hex⟩
  rw [eq_of_mem_replicate zero]
  rfl

theorem toDigits_spec (n : Nat) : IsHex (Nat.toDigits 16 n) ∧ denoted (Nat.toDigits 16 n) = n := by
  induction n using Nat.strong_induction_on with
  | _ n ih =>
    rw [toDigits_eq_if (by decide)]
    split
    · next small =>
      have read := hexDigit_digitChar n small
      simp [IsHex, denoted, read]
    · next large =>
      obtain ⟨hex, same⟩ := ih (n / 16) (by omega)
      have read := hexDigit_digitChar (n % 16) (by omega)
      constructor
      · exact forall_mem_snoc hex (by rw [read]; rfl)
      · have last : denoted [Nat.digitChar (n % 16)] = n % 16 := by simp [denoted, read]
        rw [denoted_append, same, last, length_singleton]
        omega

theorem blockDigits_spec (bm : Blocks) : IsHex (blockDigits bm) ∧ (blockDigits bm).length = 16 * bm.length ∧
    denoted (blockDigits bm) = value bm := by
  induction bm using List.reverseRecOn with
  | nil => exact ⟨nofun, rfl, rfl⟩
  | append_singleton bm b ih =>
    obtain ⟨hex, length, same⟩ := ih
    obtain ⟨hex', same'⟩ := toDigits_spec b.toNat
    have short : (Nat.toDigits 16 b.toNat).length ≤ 16 :=
      (length_toDigits_le_iff (by decide) (by decide)).mpr b.isLt
    rw [blockDigits, foldl_append, foldl_cons, foldl_nil, ← blockDigits]
    refine ⟨?_, ?_, ?_⟩
    · exact forall_mem_append.mpr ⟨isHex_zeros hex' _, hex⟩
    · rw [length_append, length, length_leftpad, length_append, length_singleton]
      omega
    · rw [denoted_append, List.leftpad, denoted_zeros, same, same', length, value, value, map_append,
        ofDigits_append, length_map, map_singleton, ofDigits_singleton, pow_mul]
      rfl

private theorem decodeHex_spec : ∀ {digits : List Char}, IsHex digits → digits.length % 2 = 0 → ∃ bytes,
    decodeHex digits = some bytes ∧ 2 * bytes.length = digits.length ∧ (∀ b ∈ bytes, b < 256) ∧
      Nat.ofDigits 256 bytes.reverse = denoted digits
  | [], _, _ => ⟨[], rfl, rfl, nofun, rfl⟩
  | [_], _, even => absurd even (by simp)
  | high :: low :: rest, hex, even => by
    obtain ⟨hexHigh, hexLow, hexRest⟩ : _ ∧ _ ∧ IsHex rest := by simpa [IsHex] using hex
    obtain ⟨h, readHigh⟩ := Option.isSome_iff_exists.mp hexHigh
    obtain ⟨l, readLow⟩ := Option.isSome_iff_exists.mp hexLow
    obtain ⟨bytes, decoded, length, small, same⟩ := decodeHex_spec hexRest (by simp at even; omega)
    have := hexDigit_lt readHigh
    have := hexDigit_lt readLow
    refine ⟨(16 * h + l) :: bytes, ?_, ?_, ?_, ?_⟩
    · simp [decodeHex, readHigh, readLow, decoded]
    · simp only [length_cons]
      omega
    · rw [forall_mem_cons]
      exact ⟨by omega, small⟩
    · have pair : denoted [high, low] = 16 * h + l := by
        simp [denoted, readHigh, readLow, ofDigits_cons, add_comm]
      rw [ofDigits_reverse_cons, same, show high :: low :: rest = [high, low] ++ rest from rfl, denoted_append, pair,
        ← length, pow_mul]
      rfl

private theorem newFrom_bytes {s : String} {bytes : List Nat} (hex : IsHex digits)
    (written : s.toList = digits ∨ s.toList = '0' :: 'x' :: digits)
    (decoded : decodeHex (if digits.length % 2 ≠ 0 then '0' :: digits else digits) = some bytes) :
    Allocation.newFrom s = .ok bytes.reverse := by
  unfold Allocation.newFrom
  dsimp only
  split
  · next rest marked =>
    rcases written with bare | marked'
    · exact absurd (hex 'x' (by simp [← bare, marked])) (by decide)
    · cases marked.symm.trans marked'
      rw [decoded]
      rfl
  · next unmarked =>
    rcases written with bare | marked
    · rw [bare, decoded]
      rfl
    · exact absurd marked (unmarked _)

/-- Hexadecimal digits, with or without mark, are read as the number that they denote. -/
theorem newFrom_denoted {s : String} (hex : IsHex digits)
    (written : s.toList = digits ∨ s.toList = '0' :: 'x' :: digits) :
    ∃ bm, newFrom s = .ok bm ∧ value bm = denoted digits := by
  obtain ⟨k, padded, even⟩ : ∃ k, (if digits.length % 2 ≠ 0 then '0' :: digits else digits) =
      List.replicate k '0' ++ digits ∧ (List.replicate k '0' ++ digits).length % 2 = 0 := by
    split
    · next odd =>
      refine ⟨1, rfl, ?_⟩
      rw [length_append, length_replicate]
      omega
    · next even => exact ⟨0, rfl, by simpa using even⟩
  obtain ⟨bytes, decoded, -, small, same⟩ := decodeHex_spec (isHex_zeros hex k) even
  refine ⟨fromBytes bytes.reverse, ?_, ?_⟩
  · rw [newFrom, newFrom_bytes hex written (padded ▸ decoded)]
    rfl
  · rw [value_fromBytes fun b inside => small b (mem_reverse.mp inside), same, denoted_zeros]

end

/-- A text is read as the bits of its number: the text of a bitmap gives its bits back, and that of CPUs the
CPUs; leading zeros and the prefix of a text do not matter. -/
theorem bitmap_text_round_trip :
    (∀ bm : Blocks, ∃ bm', newFrom (text bm) = .ok bm' ∧ ∀ i, bit bm' i = bit bm i) ∧
    (∀ S : CPUSet, (∀ cpu ∈ S, cpu < 2 ^ 32) → ∀ idx : List Nat, (∀ cpu, cpu ∈ idx ↔ cpu ∈ S) →
      ∃ bm, newFrom (text (new idx)) = .ok bm ∧ toCPUSet bm = S) ∧
    ∀ s : String, IsHex s.toList → ∀ k, ∀ lead ∈ ["", "0x"],
      ∃ bm, newFrom (lead ++ (.ofList (List.replicate k '0') ++ s)) = .ok bm ∧
        ∀ i, bit bm i = (denoted s.toList).testBit i := by
  have round : ∀ bm : Blocks, ∃ bm', newFrom (text bm) = .ok bm' ∧ ∀ i, bit bm' i = bit bm i := by
    intro bm
    obtain ⟨hex, -, same⟩ := blockDigits_spec bm
    obtain ⟨k, split⟩ := exists_zeros (blockDigits bm)
    have marked : (text bm).toList = '0' :: 'x' :: (blockDigits bm).dropWhile (· == '0') := by simp [text]
    rw [split] at hex
    obtain ⟨bm', read, number⟩ := newFrom_denoted (fun c inside => hex c (mem_append_right _ inside)) (.inr marked)
    refine ⟨bm', read, fun i => ?_⟩
    rw [bit_eq_testBit, bit_eq_testBit, number, ← denoted_zeros k, ← split, same]
  refine ⟨round, ?_, ?_⟩
  · intro S small idx listed
    obtain ⟨bm, read, same⟩ := round (new idx)
    refine ⟨bm, read, NumberSet.ext fun cpu => ?_⟩
    simp only [mem_toCPUSet, same, bit_new, listed]
    constructor
    · rintro ⟨_, ⟨x, inside, rfl⟩, rfl⟩
      rwa [Nat.mod_mod, Nat.mod_eq_of_lt (small x inside)]
    · intro inside
      have below := Nat.mod_eq_of_lt (small cpu inside)
      exact ⟨cpu, ⟨cpu, inside, below⟩, below⟩
  · intro s hex k lead either
    have written : (lead ++ (.ofList (List.replicate k '0') ++ s)).toList = List.replicate k '0' ++ s.toList ∨
        (lead ++ (.ofList (List.replicate k '0') ++ s)).toList = '0' :: 'x' :: (List.replicate k '0' ++ s.toList) := by
      rw [String.toList_append, String.toList_append, String.toList_ofList]
      rcases mem_cons.mp either with rfl | marked
      · exact .inl rfl
      · exact .inr (mem_singleton.mp marked ▸ rfl)
    obtain ⟨bm, read, number⟩ := newFrom_denoted (isHex_zeros hex k) written
    refine ⟨bm, read, fun i => ?_⟩
    rw [bit_eq_testBit, number, denoted_zeros]

end SlurmBridge.Inventory.BitmapText
