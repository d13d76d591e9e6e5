/- source: internal/nodeinfo/allocation.go, cpumap.go, internal/utils/bitmaputil
   digest: From a Slurm core bitmap to device requests: every CPU of the bitmap is granted
     once, through the device that owns it. -/

import SlurmBridge.Inventory.Topology

set_option autoImplicit false

namespace SlurmBridge.Inventory.Allocation

open Foundation.Checked Foundation.NumberSets Foundation.Text Inventory.Devices Inventory.Topology List
open Function

/-- A bitmap as its bytes, the lowest first. -/
abbrev Bitmap := List Nat

def Bitmap.bits (bitmap : Bitmap) : List Nat :=
  bitmap.zipIdx.flatMap fun (byte, position) =>
    ((List.range 8).filter byte.testBit).map (8 * position + ·)

def hexDigit (c : Char) : Option Nat :=
  if '0' ≤ c ∧ c ≤ '9' then some (c.toNat - '0'.toNat)
  else if 'a' ≤ c ∧ c ≤ 'f' then some (c.toNat - 'a'.toNat + 10)
  else if 'A' ≤ c ∧ c ≤ 'F' then some (c.toNat - 'A'.toNat + 10)
  else none

def decodeHex : List Char → Option (List Nat)
  | [] => some []
  | [_] => none
  | high :: low :: rest => do
      let high ← hexDigit high
      let low ← hexDigit low
      return (16 * high + low) :: (← decodeHex rest)

/-- Read a bitmap from hexadecimal digits, the highest first. -/
def newFrom (s : String) : Except String Bitmap := do
  let digits := match s.toList with
    | '0' :: 'x' :: digits => digits
    | digits => digits
  let digits := if digits.length % 2 ≠ 0 then '0' :: digits else digits
  let bytes ← present "encoding/hex: invalid byte" (decodeHex digits)
  return bytes.reverse

/-- The machine CPUs of the cores in a bitmap.  Bits beyond the cores are ignored. -/
def toMachineCPUs (n : NodeInfo) (bitmap : Bitmap) : CPUSet :=
  .ofList (bitmap.bits.flatMap fun bit => (n.abstractToMachine[bit]?.map (·.list)).getD [])

structure NodeResources where
  coreBitmap : String
  socketsPerNode : Int
  coresPerSocket : Int

/-- A selector is an expression, or of a kind other than CEL. -/
structure DeviceClass where
  config : List String
  selectors : List (Option String)

/-- What the allocation reads besides its arguments: device classes, the CEL compiler and
the name-based UUIDs. -/
structure Environment where
  deviceClass : String → Except String DeviceClass
  compile : String → Except String (Finmap (fun _ : String => DeviceAttribute) →
    Finmap (fun _ : String => DeviceCapacity) → Option Bool → Except String Bool)
  newSHA1 : String → String

structure DeviceRequest where
  name : String
  deviceClassName : String
  expression : String
  capacity : Quantity
  deriving DecidableEq

structure DeviceRequestAllocationResult where
  request : String
  driver : String
  pool : String
  device : String
  shareID : String
  consumedCapacity : Quantity
  deriving DecidableEq

structure DeviceClaimConfiguration where
  requests : List String
  driver : String
  apiVersion : String
  cpuset : String
  deriving DecidableEq

structure CPUAllocation where
  requests : List DeviceRequest := []
  results : List DeviceRequestAllocationResult := []
  config : List DeviceClaimConfiguration := []
  cpuCount : Nat
  deriving DecidableEq

def cpuDeviceRequest (group : CPUDeviceGroup) : String × String :=
  match group.numaNode with
  | none => ("cpu-socket-" ++ numeral group.socket,
      "device.driver == 'dra.cpu' && device.attributes['dra.cpu'].socketID == " ++ numeral group.socket)
  | some node => ("cpu-numa-" ++ numeral node,
      "device.driver == 'dra.cpu' && device.attributes['dra.cpu'].numaNodeID == " ++ numeral node)

def cpuQuantity (count : Nat) : Quantity := ⟨count, .decimalSI⟩

/-- Every selector of the class has to match the device. -/
def matchSelector (env : Environment) (className : String) (device : Device) :
    Option String → Except String Unit
  | none => throw "CPU DeviceClass has an unsupported selector"
  | some expression => do
      let compiled ← env.compile expression
      let matched ← compiled device.attributes device.capacity device.allowMultipleAllocations
      require (matched = true) ("CPU device " ++ device.name.quote ++
        " does not match CPU DeviceClass " ++ className.quote)

structure Purpose where
  env : Environment
  className : String
  allocationKey : String

def requestFor (purpose : Purpose) (device : Device) (set : CPUSet) : DeviceRequest :=
  let (name, expression) := cpuDeviceRequest (cpuDeviceGroupOf device)
  ⟨name, purpose.className, expression, cpuQuantity set.size⟩

def resultFor (purpose : Purpose) (pool : String) (device : Device) (set : CPUSet) :
    DeviceRequestAllocationResult :=
  ⟨(cpuDeviceRequest (cpuDeviceGroupOf device)).1, draDriverCpu, pool, device.name,
    purpose.env.newSHA1 (purpose.allocationKey ++ "/" ++ draDriverCpu ++ "/" ++ pool ++ "/" ++
      device.name), cpuQuantity set.size⟩

def configFor (device : Device) (set : CPUSet) : DeviceClaimConfiguration :=
  ⟨[(cpuDeviceRequest (cpuDeviceGroupOf device)).1], draDriverCpu, "v1alpha1", set.text⟩

def CPUAllocation.grant (allocation : CPUAllocation) (purpose : Purpose) (pool : String)
    (device : Device) (set : CPUSet) : CPUAllocation :=
  { allocation with
    requests := allocation.requests ++ [requestFor purpose device set]
    results := allocation.results ++ [resultFor purpose pool device set]
    config := allocation.config ++ [configFor device set] }

/-- Allocate what is left of the CPUs on one device. -/
def allocateDevice (purpose : Purpose) (pool : String) (selectors : List (Option String))
    (state : CPUSet × CPUAllocation) (device : Device) :
    Except String (CPUSet × CPUAllocation) :=
  let set := (listedCPUs device).inter state.1
  if set.list = [] then
    pure state
  else do
    selectors.forM (matchSelector purpose.env purpose.className device)
    require (set.size ≤ ((device.capacity.lookup capacityCPU).map (·.value.value)).getD 0)
      ("CPU allocation exceeds " ++ CPUDeviceGroup.toText (cpuDeviceGroupOf device) ++ " capacity")
    return (state.1.diff set, state.2.grant purpose pool device set)

/-- Turn Slurm's core bitmap into device requests and their results. -/
def allocateCPUs (n : NodeInfo) (purpose : Purpose) (resources : Option NodeResources) :
    Except String CPUAllocation := do
  let resources ← present "missing Slurm CPU allocation bitmap" (resources.filter (·.coreBitmap ≠ ""))
  require (purpose.allocationKey ≠ "") "missing CPU allocation identity"
  let deviceClass ← relabel ("get CPU DeviceClass " ++ purpose.className.quote ++ ": " ++ ·)
    (purpose.env.deviceClass purpose.className)
  require (deviceClass.config = []) "CPU DeviceClass configuration is unsupported"
  let (sockets, cores, _) ← n.geometry
  require (sockets ≠ 0) "no applied grouped CPU inventory"
  require ((resources.socketsPerNode = 0 ∨ resources.socketsPerNode = sockets) ∧
      (resources.coresPerSocket = 0 ∨ resources.coresPerSocket = cores))
    "allocated Slurm geometry differs from applied CPU mapping"
  let bitmap ← newFrom resources.coreBitmap
  require (∀ bit ∈ bitmap.bits, bit < n.abstractToMachine.length)
    "allocated Slurm bitmap contains a core outside the applied CPU mapping"
  let cpus := toMachineCPUs n bitmap
  require (cpus.list ≠ []) "empty Slurm CPU allocation"
  -- The CPU lists of all devices are read before any of them is used.
  let _ ← n.cpuDevices.mapM fun device =>
    relabel ("CPU device " ++ device.name.quote ++ ": " ++ ·)
      (parseCPUSet (attributeText device attributeCPUIDs))
  let (unassigned, allocation) ← n.sortedCPUDevices.foldlM
    (allocateDevice purpose n.pool deviceClass.selectors) (cpus, { cpuCount := cpus.size })
  require (unassigned.list = []) ("CPUs " ++ unassigned.text ++ " have no applied device")
  return allocation

def allocationOf (purpose : Purpose) (pool : String) (count : Nat)
    (shares : List (Device × CPUSet)) : CPUAllocation where
  requests := shares.map fun share => requestFor purpose share.1 share.2
  results := shares.map fun share => resultFor purpose pool share.1 share.2
  config := shares.map fun share => configFor share.1 share.2
  cpuCount := count

def splitCPUs (n : NodeInfo) (bitmap : Bitmap) : List (Device × CPUSet) × CPUSet :=
  distribute listedCPUs n.sortedCPUDevices (toMachineCPUs n bitmap)

variable {purpose : Purpose} {allocation : CPUAllocation}

private theorem allocateDevices_ok {pool : String} {count : Nat} {selectors : List (Option String)}
    {devices : List Device} {cpus left : CPUSet}
    (loop : devices.foldlM (allocateDevice purpose pool selectors) (cpus, { cpuCount := count }) = .ok (left, allocation)) :
    left = (distribute listedCPUs devices cpus).2 ∧
      allocation = allocationOf purpose pool count (distribute listedCPUs devices cpus).1 := by
  have invariant : (left, allocation) = ((distribute listedCPUs devices cpus).2,
      allocationOf purpose pool count (distribute listedCPUs devices cpus).1) := by
    refine foldlM_ok (fun visited state => state = ((distribute listedCPUs visited cpus).2,
      allocationOf purpose pool count (distribute listedCPUs visited cpus).1)) ?_ rfl loop
    rintro visited device state next rfl step
    have last : distribute listedCPUs (visited ++ [device]) cpus =
        takeShare listedCPUs (distribute listedCPUs visited cpus) device := by
      simp [distribute]
    rw [last, takeShare]
    unfold allocateDevice at step
    simp only at step ⊢
    split at step
    · rename_i empty
      simp only [pure_eq_ok] at step
      rw [if_pos empty, ← step]
    · rename_i some
      obtain ⟨_, -, rest⟩ := bind_eq_ok.mp step
      obtain ⟨_, -, same⟩ := bind_eq_ok.mp rest
      simp only [pure_eq_ok] at same
      rw [if_neg some, ← same]
      simp [allocationOf, CPUAllocation.grant]
  exact ⟨congrArg Prod.fst invariant, congrArg Prod.snd invariant⟩

variable {n : NodeInfo}

theorem allocateCPUs_ok {resources : Option NodeResources}
    (granted : allocateCPUs n purpose resources = .ok allocation) :
    ∃ allocated bitmap, resources = some allocated ∧ newFrom allocated.coreBitmap = .ok bitmap ∧
      (splitCPUs n bitmap).2.list = [] ∧
      allocation = allocationOf purpose n.pool (toMachineCPUs n bitmap).size (splitCPUs n bitmap).1 := by
  obtain ⟨allocated, given, rest⟩ := bind_eq_ok.mp granted
  obtain ⟨_, -, rest⟩ := bind_eq_ok.mp rest
  obtain ⟨deviceClass, -, rest⟩ := bind_eq_ok.mp rest
  obtain ⟨_, -, rest⟩ := bind_eq_ok.mp rest
  obtain ⟨⟨sockets, cores, threads⟩, -, rest⟩ := bind_eq_ok.mp rest
  obtain ⟨_, -, rest⟩ := bind_eq_ok.mp rest
  obtain ⟨_, -, rest⟩ := bind_eq_ok.mp rest
  obtain ⟨bitmap, decoded, rest⟩ := bind_eq_ok.mp rest
  obtain ⟨_, -, rest⟩ := bind_eq_ok.mp rest
  obtain ⟨_, -, rest⟩ := bind_eq_ok.mp rest
  obtain ⟨_, -, rest⟩ := bind_eq_ok.mp rest
  obtain ⟨⟨left, result⟩, loop, rest⟩ := bind_eq_ok.mp rest
  obtain ⟨_, complete, same⟩ := bind_eq_ok.mp rest
  simp only [present_eq_ok, Option.filter_eq_some_iff] at given
  simp only [require_eq_ok] at complete
  simp only [pure_eq_ok] at same
  obtain ⟨leftEq, resultEq⟩ := allocateDevices_ok loop
  refine ⟨allocated, bitmap, given.1, decoded, ?_, ?_⟩
  · rw [splitCPUs, ← leftEq]
    exact complete
  · rw [← same, resultEq]
    rfl

theorem mem_toMachineCPUs {bitmap : Bitmap} {cpu : Nat} : cpu ∈ toMachineCPUs n bitmap ↔
      ∃ bit ∈ bitmap.bits, ∃ core, n.abstractToMachine[bit]? = some core ∧ cpu ∈ core := by
  simp only [toMachineCPUs, NumberSet.mem_ofList, mem_flatMap]
  refine exists_congr fun bit => and_congr_right fun _ => ?_
  cases n.abstractToMachine[bit]? with
  | none => simp
  | some core => simp [NumberSet.mem_def]

section
variable {nodeName : String} {slices : List ResourceSlice} {n : NodeInfo}

theorem toMachineCPUs_disjoint (accepted : Accepted nodeName slices n) {bitmap bitmap' : Bitmap}
    (apart : ∀ bit ∈ bitmap.bits, bit ∉ bitmap'.bits) :
    (toMachineCPUs n bitmap).Disjoint (toMachineCPUs n bitmap') := by
  intro cpu inside inside'
  obtain ⟨bit, set, core, found, member⟩ := mem_toMachineCPUs.mp inside
  obtain ⟨bit', set', core', found', member'⟩ := mem_toMachineCPUs.mp inside'
  have same : core = core' :=
    accepted.core_unique (mem_of_getElem? found) (mem_of_getElem? found') member member'
  subst same
  have sameBit : bit = bit' :=
    (List.getElem?_inj (List.getElem?_eq_some_iff.mp found).1 accepted.nodup_cores).mp (found.trans found'.symm)
  exact apart bit set (sameBit ▸ set')

private theorem requestName_injective (accepted : Accepted nodeName slices n) {a b : Device}
    (memberA : a ∈ n.cpuDevices) (memberB : b ∈ n.cpuDevices)
    (same : (cpuDeviceRequest (cpuDeviceGroupOf a)).1 = (cpuDeviceRequest (cpuDeviceGroupOf b)).1) :
    a = b := by
  refine inj_on_of_nodup_map accepted.groups memberA memberB ?_
  have inA := mem_map_of_mem (f := cpuDeviceGroupOf) memberA
  have inB := mem_map_of_mem (f := cpuDeviceGroupOf) memberB
  generalize cpuDeviceGroupOf a = groupA at *
  generalize cpuDeviceGroupOf b = groupB at *
  obtain ⟨socketA, numaA⟩ := groupA
  obtain ⟨socketB, numaB⟩ := groupB
  have uniform := accepted.grouped.uniform
  cases numaA with
  | none =>
    cases numaB with
    | none =>
      simp only [cpuDeviceRequest, String.append_right_inj] at same
      rw [numeral_injective same]
    | some nodeB =>
      -- Sockets and NUMA nodes are never mixed.
      rcases uniform with sockets | numas
      · cases sockets _ inB
      · exact absurd rfl (numas _ inA)
  | some nodeA =>
    cases numaB with
    | none =>
      rcases uniform with sockets | numas
      · cases sockets _ inA
      · exact absurd rfl (numas _ inB)
    | some nodeB =>
      simp only [cpuDeviceRequest, String.append_right_inj] at same
      have sameNode := numeral_injective same
      subst sameNode
      have sameSocket := accepted.grouped.oneSocket _ inA _ inB (by simp) rfl
      simpa using sameSocket

/-- An allocation that grants the CPUs of `cpus`, each once and through a device that lists
it.  `sets` are the CPU sets of its requests, in order. -/
structure Isolated (n : NodeInfo) (cpus : CPUSet) (allocation : CPUAllocation) (sets : List CPUSet) : Prop where
  requestNames : (allocation.requests.map (·.name)).Nodup
  resultRequests : allocation.results.map (·.request) = allocation.requests.map (·.name)
  configRequests : allocation.config.map (·.requests) = allocation.requests.map ([·.name])
  devices : (allocation.results.map (·.device)).Nodup
  texts : allocation.config.map (·.cpuset) = sets.map NumberSet.text
  nonempty : ∀ set ∈ sets, set.list ≠ []
  disjoint : sets.Pairwise NumberSet.Disjoint
  contained : List.Forall₂ (fun result set => ∃ device ∈ n.cpuDevices,
    device.name = result.device ∧ ∀ cpu ∈ set, cpu ∈ listedCPUs device) allocation.results sets
  union : ∀ cpu, cpu ∈ cpus ↔ ∃ set ∈ sets, cpu ∈ set
  consumed : allocation.results.map (·.consumedCapacity) = sets.map (cpuQuantity ·.size)
  count : allocation.cpuCount = (sets.map (·.size)).sum

/-- Every successful allocation isolates the CPUs of its bitmap, and bitmaps without a
common bit never lead to a common CPU. -/
theorem cpus_isolated (built : newNodeInfoFromResourceSlices nodeName slices = .ok n) :
    (∀ purpose resources allocation, allocateCPUs n purpose resources = .ok allocation →
      ∃ allocated bitmap sets, resources = some allocated ∧
        newFrom allocated.coreBitmap = .ok bitmap ∧
        Isolated n (toMachineCPUs n bitmap) allocation sets) ∧
    ∀ bitmap bitmap' : Bitmap, (∀ bit ∈ bitmap.bits, bit ∉ bitmap'.bits) →
      (toMachineCPUs n bitmap).Disjoint (toMachineCPUs n bitmap') := by
  have accepted := newNodeInfoFromResourceSlices_ok built
  refine ⟨?_, fun _ _ apart => toMachineCPUs_disjoint accepted apart⟩
  intro purpose resources allocation granted
  obtain ⟨allocated, bitmap, given, decoded, complete, rfl⟩ := allocateCPUs_ok granted
  refine ⟨allocated, bitmap, (splitCPUs n bitmap).1.map Prod.snd, given, decoded, ?_⟩
  have split : Distributed listedCPUs n.sortedCPUDevices (toMachineCPUs n bitmap)
    (splitCPUs n bitmap) := distributed _ _
  have sorted : n.sortedCPUDevices.Perm n.cpuDevices := perm_insertionSort _ _
  have owner : ∀ share ∈ (splitCPUs n bitmap).1, share.1 ∈ n.cpuDevices := fun share member =>
    sorted.subset (split.owners.subset (mem_map_of_mem member))
  have names : ((splitCPUs n bitmap).1.map (·.1.name)).Nodup := by
    have all := ((sorted.map (·.name)).nodup_iff).mpr accepted.names
    simpa [map_map, comp_def] using (split.owners.map (·.name)).nodup all
  have owners : ((splitCPUs n bitmap).1.map Prod.fst).Nodup := by
    refine List.Nodup.of_map (·.name) ?_
    simpa [map_map, comp_def] using names
  exact {
    requestNames := by
      simp only [allocationOf, map_map]
      refine (nodup_map_iff_inj_on (List.Nodup.of_map _ names)).mpr ?_
      intro share member share' member' same
      refine inj_on_of_nodup_map owners member member' ?_
      exact requestName_injective accepted (owner share member) (owner share' member') same
    resultRequests := by simp [allocationOf, requestFor, resultFor, comp_def]
    configRequests := by simp [allocationOf, requestFor, configFor, comp_def]
    devices := by simpa [allocationOf, resultFor, comp_def] using names
    texts := by simp [allocationOf, configFor, comp_def]
    nonempty := by
      intro set member
      obtain ⟨share, inSplit, rfl⟩ := mem_map.mp member
      exact split.nonempty share inSplit
    disjoint := split.disjoint
    contained := by
      simp only [allocationOf, forall₂_map_left_iff, forall₂_map_right_iff,
        forall₂_same]
      exact fun share member => ⟨share.1, owner share member, rfl, split.within share member⟩
    union := by
      intro cpu
      rw [split.covers cpu, NumberSet.mem_def, complete]
      simp only [not_mem_nil, false_or, mem_map, exists_exists_and_eq_and]
    consumed := by simp [allocationOf, resultFor, comp_def]
    count := by
      have sizes := split.sizes
      simp only [NumberSet.size, complete, length_nil, Nat.add_zero] at sizes
      simp [allocationOf, ← sizes, NumberSet.size, comp_def] }

end

def socketDevice (name : String) (socket : Int) (cpuIDs layout : String) (count : Nat) : Device where
  name
  attributes := [⟨attributeSocketID, { intValue := some socket }⟩,
    ⟨attributeSMTEnabled, { boolValue := some true }⟩,
    ⟨attributeCPUIDs, { stringValue := some cpuIDs }⟩,
    ⟨attributeSMTLayout, { stringValue := some layout }⟩].toFinmap
  capacity := Finmap.singleton capacityCPU ⟨cpuQuantity count, none⟩
  allowMultipleAllocations := some true
  remaining := ""

def twoSockets : ResourceSlice where
  name := "slice"
  driver := draDriverCpu
  nodeName := some "node"
  nodeSelector := none
  allNodes := none
  perDeviceNodeSelection := none
  pool := ⟨"node", 1, 1⟩
  devices := [socketDevice "socket1" 1 "5,7" "4-7>2" 2, socketDevice "socket0" 0 "0,2" "0-3>2" 2]

def openClass : Purpose where
  env := ⟨fun _ => .ok ⟨[], [some "true"]⟩, fun _ => .ok fun _ _ _ => .ok true, id⟩
  className := "cpu"
  allocationKey := "ns/pod"

def bothCores : NodeResources := ⟨"0x3", 2, 1⟩

theorem cpus_isolated_twoSockets :
    ∃ n allocation, newNodeInfoFromResourceSlices "node" [twoSockets] = .ok n ∧
      allocateCPUs n openClass (some bothCores) = .ok allocation ∧
      ∃ allocated bitmap sets, some bothCores = some allocated ∧
        newFrom allocated.coreBitmap = .ok bitmap ∧
        Isolated n (toMachineCPUs n bitmap) allocation sets := by
  obtain ⟨allocation, run⟩ := exists_ok
    (x := newNodeInfoFromResourceSlices "node" [twoSockets] >>= fun n =>
      allocateCPUs n openClass (some bothCores)) (by decide +kernel)
  obtain ⟨n, built, granted⟩ := bind_eq_ok.mp run
  exact ⟨n, allocation, built, granted, (cpus_isolated built).1 _ _ _ granted⟩

end SlurmBridge.Inventory.Allocation
