/- source: internal/nodeinfo/cpumap.go, nodeinfo.go (NUMACores), internal/utils/bitmaputil
   digest: The two directions between machine CPUs and Slurm's abstract cores, and the
     cores of each NUMA node. -/

import SlurmBridge.Inventory.Allocation

set_option autoImplicit false

namespace SlurmBridge.Inventory.CPUMap

open Foundation.NumberSets Inventory.Devices Inventory.Topology Inventory.Allocation List

def setBit (bitmap : Bitmap) (bit : Nat) : Bitmap :=
  let grown := bitmap ++ List.replicate (8 * (bit / 64 + 1) - bitmap.length) 0
  grown.modify (bit / 8) (· ||| 2 ^ (bit % 8))

/-- The bitmap of the given bits, each taken modulo the size of its index type. -/
def newBitmap (bits : List Nat) : Bitmap := bits.foldl (fun bitmap bit => setBit bitmap (bit % 2 ^ 32)) []

def machineToAbstract (cores : List CPUSet) : AList (fun _ : Nat => Nat) :=
  cores.zipIdx.foldl (fun map (core, index) => core.list.foldl (fun map cpu => map.insert cpu index) map) ∅

/-- The abstract cores of a machine CPU set.  CPUs without a core are ignored. -/
def toAbstractCPUs (n : NodeInfo) (cpus : CPUSet) : Bitmap :=
  newBitmap (cpus.list.filterMap (machineToAbstract n.abstractToMachine).lookup)

def enterCore (index : AList (fun _ : Nat => Nat)) (cores : List Nat) (cpu : Nat) : List Nat :=
  match index.lookup cpu with
  | some core => if core ∈ cores then cores else cores ++ [core]
  | none => cores

def enterNUMACores (index : AList (fun _ : Nat => Nat)) (cores : AList (fun _ : Nat => List Nat)) (device : Device) :
    Option (AList (fun _ : Nat => List Nat)) := do
  let node ← (cpuDeviceGroupOf device).numaNode
  let cpus ← (parseCPUSet (attributeText device attributeCPUIDs)).toOption
  let listed := cpus.list.foldl (enterCore index) ((cores.lookup node).getD [])
  -- A node gets an entry with its first core only.
  return if listed = [] then cores else cores.insert node (listed.insertionSort (· ≤ ·))

/-- The Slurm cores of each NUMA node, visiting the devices in the given order.  There are
none unless the inventory is grouped by NUMA node. -/
def numaCores (n : NodeInfo) (order : List Device) : Option (AList (fun _ : Nat => List Nat)) :=
  if order = [] then none
  else if ∃ device ∈ order, (cpuDeviceGroupOf device).numaNode = none then none
  else order.foldlM (enterNUMACores (machineToAbstract n.abstractToMachine)) ∅

section
variable {bitmap : Bitmap} {bit other : Nat}

theorem mem_bits : bit ∈ bitmap.bits ↔ (bitmap.getD (bit / 8) 0).testBit (bit % 8) = true := by
  simp only [Bitmap.bits, mem_flatMap, mem_map, mem_filter, mem_range,
    Prod.exists, mem_zipIdx_iff_getElem?]
  constructor
  · rintro ⟨byte, position, found, low, ⟨small, set⟩, rfl⟩
    have div : (8 * position + low) / 8 = position := by omega
    have mod : (8 * position + low) % 8 = low := by omega
    rw [div, mod, getD_eq_getElem?_getD, found]
    exact set
  · intro set
    rw [getD_eq_getElem?_getD] at set
    cases found : bitmap[bit / 8]? with
    | none => simp [found] at set
    | some byte =>
      rw [found] at set
      exact ⟨byte, bit / 8, found, bit % 8, ⟨by omega, set⟩, by omega⟩

theorem bits_increasing (bitmap : Bitmap) : bitmap.bits.Pairwise (· < ·) := by
  induction bitmap using List.reverseRecOn with
  | nil => simp [Bitmap.bits]
  | append_singleton bitmap byte ih =>
    have split : Bitmap.bits (bitmap ++ [byte]) = Bitmap.bits bitmap ++
        ((List.range 8).filter byte.testBit).map (8 * bitmap.length + ·) := by
      simp [Bitmap.bits, zipIdx_append]
    rw [split, pairwise_append]
    refine ⟨ih, ?_, ?_⟩
    · rw [pairwise_map]
      refine (pairwise_lt_range.filter _).imp fun below => ?_
      omega
    · intro a inOld b inNew
      obtain ⟨low, -, rfl⟩ := mem_map.mp inNew
      have set := mem_bits.mp inOld
      by_contra late
      rw [getD_eq_getElem?_getD, getElem?_eq_none (by omega)] at set
      simp at set

theorem bits_ext {bitmap' : Bitmap} (same : ∀ bit, bit ∈ bitmap.bits ↔ bit ∈ bitmap'.bits) :
    bitmap.bits = bitmap'.bits :=
  (bits_increasing bitmap).eq_of_mem_iff (bits_increasing bitmap') same

private theorem getD_append_zeros (count position : Nat) :
    (bitmap ++ List.replicate count 0).getD position 0 = bitmap.getD position 0 := by
  simp only [getD_eq_getElem?_getD, getElem?_append, getElem?_replicate]
  split
  · rfl
  · rename_i beyond
    rw [getElem?_eq_none (Nat.not_lt.mp beyond)]
    split <;> rfl

theorem mem_bits_setBit : other ∈ (setBit bitmap bit).bits ↔ other = bit ∨ other ∈ bitmap.bits := by
  have padded : other ∈ bitmap.bits ↔
      other ∈ Bitmap.bits (bitmap ++ List.replicate (8 * (bit / 64 + 1) - bitmap.length) 0) := by
    rw [mem_bits, mem_bits, getD_append_zeros]
  rw [padded, setBit]
  generalize size : bitmap ++ List.replicate (8 * (bit / 64 + 1) - bitmap.length) 0 = grown
  have inside : bit / 8 < grown.length := by
    rw [← size, length_append, length_replicate]
    omega
  rw [mem_bits, mem_bits, getD_eq_getElem?_getD, getD_eq_getElem?_getD, getElem?_modify]
  by_cases same : bit / 8 = other / 8
  · have low : other = bit ↔ bit % 8 = other % 8 := by omega
    rw [← same, getElem?_eq_getElem inside]
    simp [Nat.testBit_or, Nat.testBit_two_pow, low, or_comm]
  · have differ : other ≠ bit := by
      rintro rfl
      exact same rfl
    simp [same, differ]

theorem mem_bits_newBitmap {bits : List Nat} : other ∈ (newBitmap bits).bits ↔ ∃ bit ∈ bits, bit % 2 ^ 32 = other := by
  induction bits using List.reverseRecOn with
  | nil => simp [newBitmap, Bitmap.bits]
  | append_singleton bits bit ih =>
    rw [newBitmap, foldl_append, foldl_cons, foldl_nil, mem_bits_setBit, ← newBitmap, ih]
    simp only [mem_append, mem_singleton, or_and_right, exists_or, exists_eq_left]
    rw [or_comm, eq_comm]

end

private theorem lookup_insertAll {cpus : List Nat} {map : AList (fun _ : Nat => Nat)} {index cpu : Nat} :
    (cpus.foldl (fun map cpu => map.insert cpu index) map).lookup cpu =
      if cpu ∈ cpus then some index else map.lookup cpu := by
  induction cpus generalizing map with
  | nil => simp
  | cons first cpus ih =>
    rw [foldl_cons, ih]
    by_cases own : cpu = first
    · subst own
      simp
    · simp [own, AList.lookup_insert_ne own]

theorem lookup_machineToAbstract {cores : List CPUSet} (disjoint : cores.Pairwise NumberSet.Disjoint) {cpu i : Nat} :
    (machineToAbstract cores).lookup cpu = some i ↔ ∃ core, cores[i]? = some core ∧ cpu ∈ core := by
  induction cores using List.reverseRecOn with
  | nil => simp [machineToAbstract]
  | append_singleton cores last ih =>
    obtain ⟨earlier, -, apart⟩ := pairwise_append.mp disjoint
    have step : (machineToAbstract (cores ++ [last])).lookup cpu =
        if cpu ∈ last then some cores.length else (machineToAbstract cores).lookup cpu := by
      simp only [machineToAbstract, zipIdx_append, foldl_append, zipIdx_singleton,
        foldl_cons, foldl_nil, lookup_insertAll, Nat.zero_add]
      rfl
    rw [step]
    split
    · rename_i own
      rw [Option.some_inj]
      constructor
      · rintro rfl
        exact ⟨last, by simp, own⟩
      · rintro ⟨core, found, inside⟩
        rw [getElem?_append] at found
        split at found
        · exact absurd own (apart core (mem_of_getElem? found) last (by simp) cpu inside)
        · have := (List.getElem?_eq_some_iff.mp found).1
          simp at this
          omega
    · rename_i foreign
      rw [ih earlier]
      refine exists_congr fun core => and_congr_left fun inside => ?_
      rw [getElem?_append]
      split
      · rfl
      · rename_i beyond
        rw [getElem?_eq_none (by omega)]
        constructor
        · rintro ⟨⟩
        · intro found
          have : core = last := by simpa using mem_of_getElem? found
          exact absurd (this ▸ inside) foreign

theorem length_le_of_disjoint {cores : List CPUSet} {bound : Nat} (disjoint : cores.Pairwise NumberSet.Disjoint)
    (nonempty : ∀ core ∈ cores, core.list ≠ []) (below : ∀ core ∈ cores, ∀ cpu ∈ core, cpu < bound) :
    cores.length ≤ bound := by
  have firsts : ∀ core ∈ cores, core.list.headD 0 ∈ core := by
    intro core member
    obtain ⟨first, rest, same⟩ := exists_cons_of_ne_nil (nonempty core member)
    simp [NumberSet.mem_def, same]
  have distinct : (cores.map (·.list.headD 0)).Nodup := by
    rw [List.Nodup, pairwise_map]
    refine disjoint.imp_of_mem ?_
    intro core other member otherMember apart same
    exact apart _ (firsts core member) (same ▸ firsts other otherMember)
  have within : cores.map (·.list.headD 0) ⊆ List.range bound := by
    intro first member
    obtain ⟨core, inside, rfl⟩ := mem_map.mp member
    exact mem_range.mpr (below core inside _ (firsts core inside))
  simpa using (subperm_of_subset distinct within).length_le

section
variable {nodeName : String} {slices : List ResourceSlice} {n : NodeInfo}

theorem mem_infos (accepted : Accepted nodeName slices n) {info : CPUInfo} :
    info ∈ n.infos ↔ ∃ device ∈ n.cpuDevices, info ∈ cpuInfosOf device := by
  rw [accepted.infos.mem_iff, mem_flatMap]

theorem mem_cores (accepted : Accepted nodeName slices n) {core : CPUSet} :
    core ∈ n.abstractToMachine ↔ ∃ info ∈ n.infos, core = findCoreSiblings n.infos info := by
  rw [accepted.cores, (abstractCores_spec n.infos).2]
  refine exists_congr fun info => and_congr_right fun member => ?_
  -- Grouped devices have no efficiency cores.
  have standard : info.coreType ≠ .efficiency := by
    obtain ⟨device, -, inside⟩ := (mem_infos accepted).mp member
    obtain ⟨cpu, -, rfl⟩ := mem_map.mp inside
    simp
  simp [standard]

theorem self_mem_findCoreSiblings {infos : List CPUInfo} {info : CPUInfo} (member : info ∈ infos) :
    info.cpuID ∈ findCoreSiblings infos info :=
  mem_findCoreSiblings.mpr ⟨info, member, rfl, rfl, rfl⟩

section
variable (accepted : Accepted nodeName slices n)

include accepted

theorem core_nonempty : ∀ core ∈ n.abstractToMachine, core.list ≠ []:= by
  intro core member
  obtain ⟨info, inside, rfl⟩ := (mem_cores accepted).mp member
  exact ne_nil_of_mem (self_mem_findCoreSiblings inside)

theorem cores_disjoint : n.abstractToMachine.Pairwise NumberSet.Disjoint:= by
  refine accepted.nodup_cores.pairwise_of_forall_ne ?_
  intro core member other otherMember differ cpu inside inside'
  exact differ (accepted.core_unique member otherMember inside inside')

theorem cores_cover {cpu : Nat} :
    (∃ core ∈ n.abstractToMachine, cpu ∈ core) ↔ ∃ device ∈ n.cpuDevices, cpu ∈ listedCPUs device := by
  constructor
  · rintro ⟨core, member, inside⟩
    obtain ⟨first, -, rfl⟩ := (mem_cores accepted).mp member
    obtain ⟨info, known, rfl, -, -⟩ := mem_findCoreSiblings.mp inside
    obtain ⟨device, own, expanded⟩ := (mem_infos accepted).mp known
    obtain ⟨cpu, listed, rfl⟩ := mem_map.mp expanded
    exact ⟨device, own, listed⟩
  · rintro ⟨device, own, listed⟩
    have known := (mem_infos accepted).mpr ⟨device, own, mem_map_of_mem listed⟩
    exact ⟨_, (mem_cores accepted).mpr ⟨_, known, rfl⟩, self_mem_findCoreSiblings known⟩

theorem listed_lt {device : Device} (own : device ∈ n.cpuDevices) : ∀ cpu ∈ listedCPUs device, cpu < 2 ^ 31:=
  parseCPUSet_lt (accepted.expanded device own).listed

theorem length_cores_le : n.abstractToMachine.length ≤ 2 ^ 31 := by
  refine length_le_of_disjoint (cores_disjoint accepted) (core_nonempty accepted) ?_
  intro core member cpu inside
  obtain ⟨device, own, listed⟩ := (cores_cover accepted).mp ⟨core, member, inside⟩
  exact listed_lt accepted own cpu listed

theorem mem_toAbstractCPUs {cpus : CPUSet} {i : Nat} : i ∈ (toAbstractCPUs n cpus).bits ↔
      ∃ core, n.abstractToMachine[i]? = some core ∧ ∃ cpu ∈ cpus, cpu ∈ core := by
  have index : ∀ {cpu j : Nat}, (machineToAbstract n.abstractToMachine).lookup cpu = some j ↔
      ∃ core, n.abstractToMachine[j]? = some core ∧ cpu ∈ core :=
    lookup_machineToAbstract (cores_disjoint accepted)
  rw [toAbstractCPUs, mem_bits_newBitmap]
  constructor
  · rintro ⟨j, member, rfl⟩
    obtain ⟨cpu, inside, found⟩ := mem_filterMap.mp member
    obtain ⟨core, place, own⟩ := index.mp found
    -- The index fits its machine type.
    have small : j < 2 ^ 32 := by
      have := (List.getElem?_eq_some_iff.mp place).1
      have := length_cores_le accepted
      omega
    rw [Nat.mod_eq_of_lt small]
    exact ⟨core, place, cpu, inside, own⟩
  · rintro ⟨core, place, cpu, inside, own⟩
    have small : i < 2 ^ 32 := by
      have := (List.getElem?_eq_some_iff.mp place).1
      have := length_cores_le accepted
      omega
    exact ⟨i, mem_filterMap.mpr ⟨cpu, inside, index.mpr ⟨core, place, own⟩⟩, Nat.mod_eq_of_lt small⟩

theorem toAbstractCPUs_toMachineCPUs {bitmap : Bitmap}
    (inRange : ∀ bit ∈ bitmap.bits, bit < n.abstractToMachine.length) :
    (toAbstractCPUs n (toMachineCPUs n bitmap)).bits = bitmap.bits := by
  refine bits_ext fun bit => ?_
  rw [mem_toAbstractCPUs accepted]
  constructor
  · rintro ⟨core, place, cpu, inside, own⟩
    obtain ⟨bit', set, core', place', own'⟩ := mem_toMachineCPUs.mp inside
    have same : core = core' :=
      accepted.core_unique (mem_of_getElem? place) (mem_of_getElem? place') own own'
    subst same
    have sameBit : bit = bit' :=
      (List.getElem?_inj (List.getElem?_eq_some_iff.mp place).1 accepted.nodup_cores).mp (place.trans place'.symm)
    exact sameBit ▸ set
  · intro set
    have place := getElem?_eq_getElem (inRange bit set)
    obtain ⟨cpu, own⟩ := exists_mem_of_ne_nil _ (core_nonempty accepted _ (mem_of_getElem? place))
    exact ⟨_, place, cpu, mem_toMachineCPUs.mpr ⟨bit, set, _, place, own⟩, own⟩

end

def IsUnion (cores : List CPUSet) (cpus : CPUSet) : Prop :=
  ∃ chosen : List CPUSet, chosen ⊆ cores ∧ ∀ cpu, cpu ∈ cpus ↔ ∃ core ∈ chosen, cpu ∈ core

/-- The smallest union of cores that contains a CPU set. -/
structure SmallestUnion (cores : List CPUSet) (cpus union : CPUSet) : Prop where
  isUnion : IsUnion cores union
  contains : ∀ cpu ∈ cpus, cpu ∈ union
  least : ∀ other, IsUnion cores other → (∀ cpu ∈ cpus, cpu ∈ other) → ∀ cpu ∈ union, cpu ∈ other

theorem toMachineCPUs_toAbstractCPUs (accepted : Accepted nodeName slices n) {cpus : CPUSet}
    (listed : ∀ cpu ∈ cpus, ∃ device ∈ n.cpuDevices, cpu ∈ listedCPUs device) :
    SmallestUnion n.abstractToMachine cpus (toMachineCPUs n (toAbstractCPUs n cpus)) := by
  have filled : ∀ cpu, cpu ∈ toMachineCPUs n (toAbstractCPUs n cpus) ↔
      ∃ core ∈ n.abstractToMachine, (∃ other ∈ cpus, other ∈ core) ∧ cpu ∈ core := by
    intro cpu
    simp only [mem_toMachineCPUs, mem_toAbstractCPUs accepted]
    constructor
    · rintro ⟨i, ⟨core, place, touched⟩, core', place', own⟩
      obtain rfl := Option.some.inj (place.symm.trans place')
      exact ⟨core, mem_of_getElem? place, touched, own⟩
    · rintro ⟨core, member, touched, own⟩
      obtain ⟨i, place⟩ := mem_iff_getElem?.mp member
      exact ⟨i, ⟨core, place, touched⟩, core, place, own⟩
  refine ⟨?_, ?_, ?_⟩
  · refine ⟨n.abstractToMachine.filter fun core => ∃ other ∈ cpus.list, other ∈ core,
      filter_subset_self _, fun cpu => ?_⟩
    rw [filled]
    simp only [mem_filter, decide_eq_true_eq, and_assoc, NumberSet.mem_def]
  · intro cpu inside
    obtain ⟨core, member, own⟩ := (cores_cover accepted).mpr (listed cpu inside)
    exact (filled cpu).mpr ⟨core, member, ⟨cpu, inside, own⟩, own⟩
  · rintro other ⟨chosen, known, whole⟩ contained cpu inside
    obtain ⟨core, member, ⟨first, inCPUs, inCore⟩, own⟩ := (filled cpu).mp inside
    obtain ⟨core', inChosen, inCore'⟩ := (whole first).mp (contained first inCPUs)
    have same := accepted.core_unique member (known inChosen) inCore inCore'
    exact (whole cpu).mpr ⟨core', inChosen, same ▸ own⟩

end

end SlurmBridge.Inventory.CPUMap
