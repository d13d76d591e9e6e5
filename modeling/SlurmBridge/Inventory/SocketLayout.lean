/- source: internal/nodeinfo/cpumap.go, fingerprint.go (Geometry), nodeinfo.go (NUMACores)
   digest: The CPU map of a node is a bijection in which every device owns one interval of
     abstract cores, in the order of the devices. -/

import Mathlib.Data.Prod.Lex
import SlurmBridge.Foundation.Blocks
import SlurmBridge.Inventory.CPUMap

set_option autoImplicit false

namespace SlurmBridge.Inventory.SocketLayout

open Foundation.Blocks Foundation.Checked Foundation.NumberSets Inventory.Devices Inventory.Topology
open Inventory.Allocation Inventory.CPUMap List

def groupKey (group : CPUDeviceGroup) : Nat ×ₗ Nat := toLex (group.socket, numaKey group.numaNode)

theorem groupKey_injective : Function.Injective groupKey := by
  rintro ⟨socket, node⟩ ⟨socket', node'⟩ same
  simp only [groupKey, EmbeddingLike.apply_eq_iff_eq, Prod.mk.injEq] at same
  obtain ⟨rfl, sameNode⟩ := same
  cases node <;> cases node' <;> simp_all [numaKey]

theorem groupKey_le {group group' : CPUDeviceGroup} {tie : Prop}
    (before : group.socket < group'.socket ∨ group.socket = group'.socket ∧
      (numaKey group.numaNode < numaKey group'.numaNode ∨
        numaKey group.numaNode = numaKey group'.numaNode ∧ tie)) :
    groupKey group ≤ groupKey group' := by
  rw [groupKey, groupKey, Prod.Lex.toLex_le_toLex]
  rcases before with socket | ⟨socket, node | ⟨node, -⟩⟩
  · exact .inl socket
  · exact .inr ⟨socket, node.le⟩
  · exact .inr ⟨socket, node.le⟩

section
variable {info info' : CPUInfo} {device device' : Device}

theorem deviceGroup_of_mem (inside : info ∈ cpuInfosOf device) :
    info.deviceGroup = cpuDeviceGroupOf device := by
  obtain ⟨cpu, -, rfl⟩ := mem_map.mp inside
  rfl

theorem cpuID_listed (inside : info ∈ cpuInfosOf device) : info.cpuID ∈ listedCPUs device := by
  obtain ⟨cpu, listed, rfl⟩ := mem_map.mp inside
  exact listed

theorem coreID_listed (inside : info ∈ cpuInfosOf device) : info.coreID ∈ listedCPUs device := by
  obtain ⟨cpu, listed, rfl⟩ := mem_map.mp inside
  cases siblingOf device cpu with
  | none => exact listed
  | some sibling =>
    simp only [coreOf]
    split
    · rename_i paired
      rcases min_choice cpu sibling with own | other
      · rw [own]
        exact listed
      · rw [other]
        exact paired
    · exact listed

variable {nodeName : String} {slices : List ResourceSlice} {n : NodeInfo}

section
variable (accepted : Accepted nodeName slices n)

include accepted

theorem device_unique (own : device ∈ n.cpuDevices)
    (own' : device' ∈ n.cpuDevices) {cpu : Nat} (listed : cpu ∈ listedCPUs device)
    (listed' : cpu ∈ listedCPUs device') : device = device' := by
  have known := (mem_infos accepted).mpr ⟨device, own, mem_map_of_mem listed⟩
  have known' := (mem_infos accepted).mpr ⟨device', own', mem_map_of_mem listed'⟩
  have same := inj_on_of_nodup_map accepted.ids known known' rfl
  exact inj_on_of_nodup_map accepted.names own own' (congrArg CPUInfo.name same)

theorem device_of_core (own : device ∈ n.cpuDevices)
    (inside : info ∈ cpuInfosOf device) (known : info' ∈ n.infos) (core : info'.coreID = info.coreID) :
    info' ∈ cpuInfosOf device := by
  obtain ⟨device', own', inside'⟩ := (mem_infos accepted).mp known
  have listed := coreID_listed inside
  rw [← core] at listed
  exact device_unique accepted own' own (coreID_listed inside') listed ▸ inside'

theorem cpuInfo_of_mem (known : info ∈ n.infos) : n.cpuInfo info.cpuID = some info:= by
  rw [NodeInfo.cpuInfo]
  cases found : n.infos.find? (·.cpuID = info.cpuID) with
  | none => simpa using find?_eq_none.mp found info known
  | some other =>
    have same : other.cpuID = info.cpuID := by simpa using find?_some found
    rw [inj_on_of_nodup_map accepted.ids (mem_of_find?_eq_some found) known same]

theorem coreGroup_findCoreSiblings (known : info ∈ n.infos) :
    n.coreGroup (findCoreSiblings n.infos info) = some info.deviceGroup := by
  obtain ⟨first, rest, listed⟩ := exists_cons_of_ne_nil (ne_nil_of_mem (self_mem_findCoreSiblings known))
  have inside : first ∈ findCoreSiblings n.infos info := by simp [NumberSet.mem_def, listed]
  obtain ⟨other, otherKnown, rfl, -, core⟩ := mem_findCoreSiblings.mp inside
  obtain ⟨device, own, expanded⟩ := (mem_infos accepted).mp known
  have expanded' := device_of_core accepted own expanded otherKnown core
  simp [NodeInfo.coreGroup, listed, cpuInfo_of_mem accepted otherKnown, deviceGroup_of_mem expanded,
    deviceGroup_of_mem expanded']

end

end

theorem abstractCores_firsts (infos : List CPUInfo) :
    ∃ firsts : List CPUInfo, firsts.Sublist infos ∧ abstractCores infos = firsts.map (findCoreSiblings infos) := by
  have loop : ∀ visited : List CPUInfo, ∃ firsts : List CPUInfo, firsts.Sublist visited ∧
      visited.foldl (fun cores info =>
        if info.coreType = .efficiency then cores
        else if findCoreSiblings infos info ∈ cores then cores
        else cores ++ [findCoreSiblings infos info]) [] = firsts.map (findCoreSiblings infos) := by
    intro visited
    induction visited using List.reverseRecOn with
    | nil => exact ⟨[], .refl _, rfl⟩
    | append_singleton visited info ih =>
      obtain ⟨firsts, sublist, cores⟩ := ih
      rw [foldl_append, foldl_cons, foldl_nil, cores]
      split
      · exact ⟨firsts, sublist.trans (sublist_append_left _ _), rfl⟩
      · split
        · exact ⟨firsts, sublist.trans (sublist_append_left _ _), rfl⟩
        · exact ⟨firsts ++ [info], sublist.append (.refl _), by simp⟩
  exact loop infos

theorem geometry_ok {n : NodeInfo} {sockets perSocket threads : Nat} (some : n.abstractToMachine ≠ [])
    (measured : n.geometry = .ok (sockets, perSocket, threads)) :
    sockets = (n.cpuDevices.map cpuDeviceGroupOf).dedup.length ∧ ∀ group ∈ n.abstractToMachine.map n.coreGroup,
        (n.abstractToMachine.map n.coreGroup).count group = perSocket := by
  unfold NodeInfo.geometry at measured
  split at measured
  · contradiction
  · obtain ⟨_, -, rest⟩ := bind_eq_ok.mp measured
    obtain ⟨_, uniform, rest⟩ := bind_eq_ok.mp rest
    obtain ⟨_, matching, result⟩ := bind_eq_ok.mp rest
    simp only [require_eq_ok] at uniform matching
    obtain ⟨rfl, rfl, -⟩ := result
    refine ⟨matching, fun group member => ?_⟩
    exact uniform _ (mem_map_of_mem (mem_dedup.mpr member))

section
variable {nodeName : String} {slices : List ResourceSlice} {n : NodeInfo} {sockets perSocket threads : Nat}

theorem sortedCPUDevices_perm (n : NodeInfo) : n.sortedCPUDevices.Perm n.cpuDevices :=
  perm_insertionSort _ _

theorem sortedGroups_increasing (accepted : Accepted nodeName slices n) :
    (n.sortedCPUDevices.map cpuDeviceGroupOf).Pairwise (groupKey · < groupKey ·) := by
  have groups : (n.sortedCPUDevices.map cpuDeviceGroupOf).Nodup :=
    (((sortedCPUDevices_perm n).map _).nodup_iff).mpr accepted.groups
  have distinct : n.sortedCPUDevices.Pairwise
      (fun a b => cpuDeviceGroupOf a ≠ cpuDeviceGroupOf b) := pairwise_map.mp groups
  have sorted : n.sortedCPUDevices.Pairwise deviceBefore := pairwise_insertionSort _ _
  rw [pairwise_map]
  refine sorted.imp₂ (fun a b before differ => ?_) distinct
  exact lt_of_le_of_ne (groupKey_le before) fun same => differ (groupKey_injective same)

theorem group_mem_of_device (accepted : Accepted nodeName slices n) {device : Device} (own : device ∈ n.cpuDevices) :
    some (cpuDeviceGroupOf device) ∈ n.abstractToMachine.map n.coreGroup := by
  obtain ⟨cpu, listed⟩ := exists_mem_of_ne_nil _ (accepted.expanded device own).nonempty
  have known := (mem_infos accepted).mpr ⟨device, own, mem_map_of_mem listed⟩
  have core := (mem_cores accepted).mpr ⟨_, known, rfl⟩
  have group := coreGroup_findCoreSiblings accepted known
  exact mem_map.mpr ⟨_, core, group⟩

/-- The abstract cores, each represented by a CPU: first the cores of the first device, and
so on, with the same number for each device. -/
structure Laid (n : NodeInfo) (perSocket : Nat) (firsts : List CPUInfo) : Prop where
  known : ∀ info ∈ firsts, info ∈ n.infos
  cores : n.abstractToMachine = firsts.map (findCoreSiblings n.infos)
  layout : firsts.map CPUInfo.deviceGroup =
    layout (fun _ => perSocket) (n.sortedCPUDevices.map cpuDeviceGroupOf)

theorem exists_laid (accepted : Accepted nodeName slices n) (some : n.cpuDevices ≠ [])
    (measured : n.geometry = .ok (sockets, perSocket, threads)) : ∃ firsts, Laid n perSocket firsts := by
  obtain ⟨firsts, sublist, coresEq⟩ := abstractCores_firsts n.infos
  have coresEq := accepted.cores.trans coresEq
  have known : ∀ info ∈ firsts, info ∈ n.infos := fun _ member => sublist.subset member
  obtain ⟨-, uniform⟩ := geometry_ok (fun none => some (accepted.cores_eq_nil_iff.mp none)) measured
  have groups : n.abstractToMachine.map n.coreGroup = (firsts.map CPUInfo.deviceGroup).map Option.some := by
    rw [coresEq, map_map, map_map]
    exact map_congr_left fun info member => coreGroup_findCoreSiblings accepted (known info member)
  refine ⟨firsts, known, coresEq, eq_layout_of_sorted groupKey_injective ?_ (sortedGroups_increasing accepted) ?_ ?_⟩
  · rw [pairwise_map]
    exact (accepted.sorted.sublist sublist).imp fun before => groupKey_le before
  · intro group member
    obtain ⟨info, inside, rfl⟩ := mem_map.mp member
    obtain ⟨device, own, expanded⟩ := (mem_infos accepted).mp (known info inside)
    rw [deviceGroup_of_mem expanded]
    exact mem_map_of_mem ((sortedCPUDevices_perm n).mem_iff.mpr own)
  · intro group member
    obtain ⟨device, own, rfl⟩ := mem_map.mp member
    have count := uniform _ (group_mem_of_device accepted ((sortedCPUDevices_perm n).mem_iff.mp own))
    rwa [groups, count_map_of_injective _ _ (Option.some_injective _)] at count

variable {firsts : List CPUInfo}

theorem Laid.positive (accepted : Accepted nodeName slices n) (laid : Laid n perSocket firsts)
    (some : n.cpuDevices ≠ []) : 0 < perSocket := by
  have cores : n.abstractToMachine ≠ [] := fun none => some (accepted.cores_eq_nil_iff.mp none)
  rw [laid.cores, Ne, map_eq_nil_iff] at cores
  obtain ⟨info, inside⟩ := exists_mem_of_ne_nil _ cores
  have member := mem_map_of_mem (f := CPUInfo.deviceGroup) inside
  rw [laid.layout, mem_layout] at member
  exact member.2

theorem Laid.length (laid : Laid n perSocket firsts) :
    n.abstractToMachine.length = n.cpuDevices.length * perSocket := by
  have lengths := congrArg List.length laid.layout
  rw [length_layout_const, length_map, length_map, (sortedCPUDevices_perm n).length_eq] at lengths
  rw [laid.cores, length_map, lengths]

theorem Laid.device (accepted : Accepted nodeName slices n) (laid : Laid n perSocket firsts)
    (positive : 0 < perSocket) {i : Nat} {core : CPUSet} (place : n.abstractToMachine[i]? = some core) :
    ∃ device, n.sortedCPUDevices[i / perSocket]? = some device ∧ ∀ cpu ∈ core, cpu ∈ listedCPUs device := by
  rw [laid.cores, getElem?_map] at place
  obtain ⟨info, first, rfl⟩ := Option.map_eq_some_iff.mp place
  have group := congrArg (·[i]?) laid.layout
  simp only [layout_const_getElem? positive, getElem?_map, first, Option.map_some] at group
  obtain ⟨device, found, sameGroup⟩ := Option.map_eq_some_iff.mp group.symm
  refine ⟨device, found, fun cpu inside => ?_⟩
  obtain ⟨owner, own, expanded⟩ := (mem_infos accepted).mp (laid.known info (mem_of_getElem? first))
  have member : device ∈ n.cpuDevices := (sortedCPUDevices_perm n).subset (mem_of_getElem? found)
  have same : owner = device :=
    inj_on_of_nodup_map accepted.groups own member ((deviceGroup_of_mem expanded).symm.trans sameGroup.symm)
  subst same
  obtain ⟨sibling, known, rfl, -, coreID⟩ := mem_findCoreSiblings.mp inside
  exact cpuID_listed (device_of_core accepted own expanded known coreID)

theorem Laid.interval (accepted : Accepted nodeName slices n) (laid : Laid n perSocket firsts)
    (positive : 0 < perSocket) {k : Nat} {device : Device} (found : n.sortedCPUDevices[k]? = some device)
    (i : Nat) : (∃ cpu ∈ listedCPUs device, (machineToAbstract n.abstractToMachine).lookup cpu = some i) ↔
      i ∈ List.range' (k * perSocket) perSocket := by
  have sorted := sortedCPUDevices_perm n
  have nodup : n.sortedCPUDevices.Nodup := sorted.nodup_iff.mpr (List.Nodup.of_map _ accepted.names)
  have own : device ∈ n.cpuDevices := sorted.subset (mem_of_getElem? found)
  rw [mem_interval_iff positive]
  simp only [lookup_machineToAbstract (cores_disjoint accepted)]
  constructor
  · rintro ⟨cpu, listed, core, place, inside⟩
    obtain ⟨device', found', within⟩ := laid.device accepted positive place
    have own' : device' ∈ n.cpuDevices := sorted.subset (mem_of_getElem? found')
    have same := device_unique accepted own' own (within cpu inside) listed
    subst same
    exact (List.getElem?_inj (List.getElem?_eq_some_iff.mp found').1 nodup).mp (found'.trans found.symm)
  · rintro rfl
    have inRange : i < n.abstractToMachine.length := by
      have below := (List.getElem?_eq_some_iff.mp found).1
      rw [sorted.length_eq, Nat.div_lt_iff_lt_mul positive] at below
      rw [laid.length]
      exact below
    have place := getElem?_eq_getElem inRange
    obtain ⟨cpu, inside⟩ := exists_mem_of_ne_nil _ (core_nonempty accepted _ (mem_of_getElem? place))
    obtain ⟨device', found', within⟩ := laid.device accepted positive place
    obtain rfl := Option.some.inj (found.symm.trans found')
    exact ⟨cpu, within cpu inside, _, place, inside⟩

end

section
variable {nodeName : String} {slices : List ResourceSlice} {n : NodeInfo} {perSocket : Nat}
  {firsts : List CPUInfo}

theorem enterCores_spec {index : AList (fun _ : Nat => Nat)} {cores : List Nat} (nodup : cores.Nodup) (cpus : List Nat) :
    (cpus.foldl (enterCore index) cores).Nodup ∧ ∀ core, core ∈ cpus.foldl (enterCore index) cores ↔
      core ∈ cores ∨ ∃ cpu ∈ cpus, index.lookup cpu = some core := by
  induction cpus generalizing cores with
  | nil => simp [nodup]
  | cons cpu cpus ih =>
    have step : (enterCore index cores cpu).Nodup ∧ ∀ core, core ∈ enterCore index cores cpu ↔
        core ∈ cores ∨ index.lookup cpu = some core := by
      unfold enterCore
      split
      · rename_i own found
        split
        · rename_i present
          exact ⟨nodup, by simp [found]; grind⟩
        · rename_i fresh
          exact ⟨by simp [nodup_append, nodup]; grind, by simp [found, eq_comm]⟩
      · rename_i missing
        exact ⟨nodup, by simp [missing]⟩
    obtain ⟨nodup', members⟩ := ih step.1
    refine ⟨nodup', fun core => ?_⟩
    rw [foldl_cons, members, step.2]
    simp [or_assoc]

def coresOf (n : NodeInfo) (perSocket : Nat) (device : Device) : List Nat :=
  List.range' (n.sortedCPUDevices.idxOf device * perSocket) perSocket

theorem enterNUMACores_eq (accepted : Accepted nodeName slices n) (laid : Laid n perSocket firsts)
    (positive : 0 < perSocket) {device : Device} (own : device ∈ n.cpuDevices) {node : Nat}
    (numa : (cpuDeviceGroupOf device).numaNode = some node) {cores : AList (fun _ : Nat => List Nat)}
    (fresh : cores.lookup node = none) :
    enterNUMACores (machineToAbstract n.abstractToMachine) cores device =
      some (cores.insert node (coresOf n perSocket device)) := by
  have inSorted : device ∈ n.sortedCPUDevices := (sortedCPUDevices_perm n).mem_iff.mpr own
  have found : n.sortedCPUDevices[n.sortedCPUDevices.idxOf device]? = some device :=
    getElem?_idxOf inSorted
  have listed : (parseCPUSet (attributeText device attributeCPUIDs)).toOption =
      some (listedCPUs device) := by
    rw [(accepted.expanded device own).listed]
    rfl
  generalize entered : (listedCPUs device).list.foldl
    (enterCore (machineToAbstract n.abstractToMachine)) [] = entering
  obtain ⟨nodup, members⟩ : entering.Nodup ∧ ∀ core, core ∈ entering ↔ core ∈ coresOf n perSocket device := by
    obtain ⟨nodup, members⟩ := @enterCores_spec (machineToAbstract n.abstractToMachine) []
      nodup_nil (listedCPUs device).list
    rw [entered] at nodup members
    refine ⟨nodup, fun core => ?_⟩
    rw [members, coresOf, ← laid.interval accepted positive found]
    simp [NumberSet.mem_def]
  have perm : entering.Perm (coresOf n perSocket device) :=
    (perm_ext_iff_of_nodup nodup nodup_range').mpr members
  have sorted : entering.insertionSort (· ≤ ·) = coresOf n perSocket device :=
    ((perm_insertionSort _ _).trans perm).eq_of_pairwise' (pairwise_insertionSort _ _) (pairwise_le_range' 1)
  have nonempty : entering ≠ [] := by
    rintro rfl
    have none := perm.length_eq
    rw [coresOf, length_range', length_nil] at none
    omega
  simp [enterNUMACores, numa, listed, fresh, entered, nonempty, sorted]

theorem numaNodes_nodup (accepted : Accepted nodeName slices n)
    (grouped : ∀ device ∈ n.cpuDevices, (cpuDeviceGroupOf device).numaNode ≠ none) :
    (n.cpuDevices.map fun device => (cpuDeviceGroupOf device).numaNode).Nodup := by
  refine (nodup_map_iff_inj_on (List.Nodup.of_map _ accepted.names)).mpr ?_
  intro device own device' own' same
  refine inj_on_of_nodup_map accepted.groups own own' ?_
  have socket := accepted.grouped.oneSocket _ (mem_map_of_mem own) _ (mem_map_of_mem own')
    (grouped device own) same
  generalize cpuDeviceGroupOf device = group at same socket
  generalize cpuDeviceGroupOf device' = group' at same socket
  cases group
  cases group'
  simp_all

theorem numaCores_loop (accepted : Accepted nodeName slices n) (laid : Laid n perSocket firsts)
    (positive : 0 < perSocket) {visited : List Device} (own : ∀ device ∈ visited, device ∈ n.cpuDevices)
    (grouped : ∀ device ∈ visited, (cpuDeviceGroupOf device).numaNode ≠ none)
    (distinct : (visited.map fun device => (cpuDeviceGroupOf device).numaNode).Nodup) :
    ∃ cores, visited.foldlM (enterNUMACores (machineToAbstract n.abstractToMachine)) ∅ = some cores ∧
      ∀ node numbers, cores.lookup node = some numbers ↔ ∃ device ∈ visited,
        (cpuDeviceGroupOf device).numaNode = some node ∧ numbers = coresOf n perSocket device := by
  induction visited using List.reverseRecOn with
  | nil => exact ⟨∅, rfl, by simp⟩
  | append_singleton visited device ih =>
    simp only [mem_append, mem_singleton, or_imp, forall_and, forall_eq] at own grouped
    rw [map_append, map_singleton, nodup_append] at distinct
    obtain ⟨cores, loop, entries⟩ := ih own.1 grouped.1 distinct.1
    obtain ⟨node, numa⟩ := Option.ne_none_iff_exists'.mp grouped.2
    have otherNode : ∀ other ∈ visited, (cpuDeviceGroupOf other).numaNode ≠ some node := by
      intro other member same
      exact distinct.2.2 _ (mem_map_of_mem member) _ (mem_singleton.mpr rfl) (same.trans numa.symm)
    have fresh : cores.lookup node = none := by
      rw [Option.eq_none_iff_forall_ne_some]
      intro numbers found
      obtain ⟨other, member, same, -⟩ := (entries node numbers).mp found
      exact otherNode other member same
    refine ⟨cores.insert node (coresOf n perSocket device), ?_, fun other numbers => ?_⟩
    · rw [foldlM_append, loop]
      simp [enterNUMACores_eq accepted laid positive own.2 numa fresh]
    · simp only [mem_append, mem_singleton, or_and_right, exists_or, exists_eq_left, numa]
      by_cases same : other = node
      · subst same
        rw [AList.lookup_insert, ← entries, fresh]
        simp [eq_comm]
      · rw [AList.lookup_insert_ne same, entries]
        simp [Ne.symm same]

end

def numaNodes (n : NodeInfo) : List Nat :=
  n.sortedCPUDevices.filterMap fun device => (cpuDeviceGroupOf device).numaNode

/-- The NUMA nodes own consecutive intervals of one length that cover all cores. -/
structure Intervals (sockets perSocket : Nat) (nodes : List Nat)
    (cores : AList (fun _ : Nat => List Nat)) : Prop where
  distinct : nodes.Nodup
  count : nodes.length = sockets
  keys : ∀ node, node ∈ cores ↔ node ∈ nodes
  interval : ∀ k node, nodes[k]? = some node → cores.lookup node = some (List.range' (k * perSocket) perSocket)
  covering : nodes.flatMap (fun node => (cores.lookup node).getD []) = List.range (sockets * perSocket)

/-- The sets of the map are the cores of the listed CPUs, and both directions invert each
other as far as CPUs of one core can be told apart. -/
structure Bijective (n : NodeInfo) : Prop where
  nonempty : ∀ core ∈ n.abstractToMachine, core.list ≠ []
  disjoint : n.abstractToMachine.Pairwise NumberSet.Disjoint
  covers : ∀ cpu, (∃ core ∈ n.abstractToMachine, cpu ∈ core) ↔ ∃ device ∈ n.cpuDevices, cpu ∈ listedCPUs device
  inverse : ∀ cpu i, (machineToAbstract n.abstractToMachine).lookup cpu = some i ↔
    ∃ core, n.abstractToMachine[i]? = some core ∧ cpu ∈ core
  abstract_machine : ∀ bitmap : Bitmap, (∀ bit ∈ bitmap.bits, bit < n.abstractToMachine.length) →
    (toAbstractCPUs n (toMachineCPUs n bitmap)).bits = bitmap.bits
  machine_abstract : ∀ cpus : CPUSet, (∀ cpu ∈ cpus, ∃ device ∈ n.cpuDevices, cpu ∈ listedCPUs device) →
    SmallestUnion n.abstractToMachine cpus (toMachineCPUs n (toAbstractCPUs n cpus))

/-- Every device owns an interval of cores, in the order of socket and NUMA node.  The map
of NUMA cores does not depend on the order in which the devices are visited. -/
structure Contiguous (n : NodeInfo) (sockets perSocket : Nat) : Prop where
  devices : n.sortedCPUDevices.Perm n.cpuDevices
  ordered : (n.sortedCPUDevices.map cpuDeviceGroupOf).Pairwise (groupKey · < groupKey ·)
  count : n.sortedCPUDevices.length = sockets
  positive : 0 < perSocket
  length : n.abstractToMachine.length = sockets * perSocket
  device : ∀ i core, n.abstractToMachine[i]? = some core →
    ∃ device, n.sortedCPUDevices[i / perSocket]? = some device ∧ ∀ cpu ∈ core, cpu ∈ listedCPUs device
  numa : (∀ device ∈ n.cpuDevices, (cpuDeviceGroupOf device).numaNode ≠ none) →
    ∀ order : List Device, order.Perm n.cpuDevices → ∃ cores, numaCores n order = some cores ∧
      Intervals sockets perSocket (numaNodes n) cores

section
variable {nodeName : String} {slices : List ResourceSlice} {n : NodeInfo} {sockets perSocket threads : Nat}
  {firsts : List CPUInfo}

theorem bijective (accepted : Accepted nodeName slices n) : Bijective n where
  nonempty := core_nonempty accepted
  disjoint := cores_disjoint accepted
  covers := fun _ => cores_cover accepted
  inverse := fun _ _ => lookup_machineToAbstract (cores_disjoint accepted)
  abstract_machine := fun _ => toAbstractCPUs_toMachineCPUs accepted
  machine_abstract := fun _ => toMachineCPUs_toAbstractCPUs accepted

theorem map_some_numaNodes (grouped : ∀ device ∈ n.cpuDevices, (cpuDeviceGroupOf device).numaNode ≠ none) :
    (numaNodes n).map some = n.sortedCPUDevices.map fun device => (cpuDeviceGroupOf device).numaNode := by
  rw [numaNodes, map_filterMap]
  refine (filterMap_congr fun device member => ?_).trans (congrFun filterMap_eq_map _)
  obtain ⟨node, numa⟩ := Option.ne_none_iff_exists'.mp
    (grouped device ((sortedCPUDevices_perm n).subset member))
  simp [numa]

theorem intervals (accepted : Accepted nodeName slices n) (laid : Laid n perSocket firsts)
    (nonempty : n.cpuDevices ≠ [])
    (grouped : ∀ device ∈ n.cpuDevices, (cpuDeviceGroupOf device).numaNode ≠ none)
    {order : List Device} (perm : order.Perm n.cpuDevices) : ∃ cores, numaCores n order = some cores ∧
      Intervals n.cpuDevices.length perSocket (numaNodes n) cores := by
  have sorted := sortedCPUDevices_perm n
  have nodup : n.sortedCPUDevices.Nodup := sorted.nodup_iff.mpr (List.Nodup.of_map _ accepted.names)
  have nodes := map_some_numaNodes grouped
  have distinct := numaNodes_nodup accepted grouped
  obtain ⟨cores, loop, entries⟩ := numaCores_loop accepted laid (laid.positive accepted nonempty)
    (fun device member => perm.subset member)
    (fun device member => grouped device (perm.subset member)) (((perm.map _).nodup_iff).mpr distinct)
  have count : (numaNodes n).length = n.cpuDevices.length := by
    simpa [sorted.length_eq] using congrArg List.length nodes
  have interval : ∀ k node, (numaNodes n)[k]? = some node →
      cores.lookup node = some (List.range' (k * perSocket) perSocket) := by
    intro k node place
    have numa := congrArg (·[k]?) nodes
    simp only [getElem?_map, place, Option.map_some] at numa
    obtain ⟨device, found, own⟩ := Option.map_eq_some_iff.mp numa.symm
    have member : device ∈ order :=
      perm.mem_iff.mpr (sorted.subset (mem_of_getElem? found))
    have position : n.sortedCPUDevices.idxOf device = k := by
      obtain ⟨inside, rfl⟩ := List.getElem?_eq_some_iff.mp found
      exact List.Nodup.idxOf_getElem nodup k inside
    exact (entries _ _).mpr ⟨device, member, own, by rw [coresOf, position]⟩
  refine ⟨cores, ?_, ?_, count, ?_, interval, ?_⟩
  · have start : order ≠ [] := fun none => nonempty (perm.symm.trans (.of_eq none)).eq_nil
    have all : ¬ ∃ device ∈ order, (cpuDeviceGroupOf device).numaNode = none := by
      rintro ⟨device, member, none⟩
      exact grouped device (perm.subset member) none
    rw [numaCores, if_neg start, if_neg all, loop]
  · refine List.Nodup.of_map some ?_
    rw [nodes]
    exact ((sorted.map _).nodup_iff).mpr distinct
  · intro node
    rw [← AList.lookup_isSome, Option.isSome_iff_exists]
    constructor
    · rintro ⟨numbers, found⟩
      obtain ⟨device, member, own, -⟩ := (entries node numbers).mp found
      exact mem_filterMap.mpr ⟨device, sorted.mem_iff.mpr (perm.subset member), own⟩
    · intro member
      obtain ⟨k, place⟩ := mem_iff_getElem?.mp member
      exact ⟨_, interval k node place⟩
  · rw [← count]
    refine flatMap_intervals fun k node place => ?_
    rw [interval k node place, Option.getD_some]

theorem contiguous (accepted : Accepted nodeName slices n) (some : n.cpuDevices ≠ [])
    (measured : n.geometry = .ok (sockets, perSocket, threads)) : Contiguous n sockets perSocket := by
  obtain ⟨firsts, laid⟩ := exists_laid accepted some measured
  have positive := laid.positive accepted some
  have count : sockets = n.cpuDevices.length := by
    rw [(geometry_ok (fun none => some (accepted.cores_eq_nil_iff.mp none)) measured).1,
      accepted.groups.dedup, length_map]
  subst count
  exact {
    devices := sortedCPUDevices_perm n
    ordered := sortedGroups_increasing accepted
    count := (sortedCPUDevices_perm n).length_eq
    positive
    length := laid.length
    device := fun _ _ => laid.device accepted positive
    numa := fun grouped _ perm => intervals accepted laid some grouped perm }

/-- The CPU map of a node with CPU devices is a bijection with contiguous sockets. -/
theorem cpu_map_bijective (built : newNodeInfoFromResourceSlices nodeName slices = .ok n)
    (some : n.cpuDevices ≠ []) : Bijective n ∧ ∃ sockets perSocket threads,
      n.geometry = .ok (sockets, perSocket, threads) ∧ Contiguous n sockets perSocket := by
  have accepted := newNodeInfoFromResourceSlices_ok built
  obtain ⟨⟨sockets, perSocket, threads⟩, measured⟩ := accepted.geometry
  exact ⟨bijective accepted, sockets, perSocket, threads, measured, contiguous accepted some measured⟩

end

def numaDevice (name : String) (socket node : Int) (cpuIDs layout : String) (count : Nat) : Device :=
  let device := socketDevice name socket cpuIDs layout count
  { device with attributes := device.attributes.insert attributeNUMANodeID { intValue := some node } }

def twoDomains : ResourceSlice :=
  { twoSockets with devices :=
      [numaDevice "numa1" 0 1 "4-7" "4-7>2" 4, numaDevice "numa0" 0 0 "0-3" "0-3>2" 4] }

theorem cpu_map_bijective_twoDomains :
    ∃ n, newNodeInfoFromResourceSlices "node" [twoDomains] = .ok n ∧
      (n.cpuDevices ≠ [] ∧ ∀ device ∈ n.cpuDevices, (cpuDeviceGroupOf device).numaNode ≠ none) ∧
      Bijective n ∧ ∃ sockets perSocket threads,
        n.geometry = .ok (sockets, perSocket, threads) ∧ Contiguous n sockets perSocket := by
  obtain ⟨_, run⟩ := exists_ok
    (x := newNodeInfoFromResourceSlices "node" [twoDomains] >>= fun n =>
      require (n.cpuDevices ≠ [] ∧
        ∀ device ∈ n.cpuDevices, (cpuDeviceGroupOf device).numaNode ≠ none) "") (by decide +kernel)
  obtain ⟨n, built, checked⟩ := bind_eq_ok.mp run
  simp only [require_eq_ok] at checked
  exact ⟨n, built, checked, cpu_map_bijective built checked.1⟩

end SlurmBridge.Inventory.SocketLayout
