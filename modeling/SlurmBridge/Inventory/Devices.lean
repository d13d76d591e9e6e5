/- source: internal/nodeinfo/cpuinfo.go
   digest: Grouped CPU devices of a ResourceSlice and their expansion into CPUs: CPU lists,
     the SMT layout, and the core each CPU belongs to. -/

import Mathlib.Data.Finmap
import Mathlib.Data.Rat.Defs
import SlurmBridge.Foundation.Checked
import SlurmBridge.Foundation.NumberSets

set_option autoImplicit false

namespace SlurmBridge.Inventory.Devices

open Foundation.Checked Foundation.NumberSets Foundation.Text Option

abbrev CPUSet := NumberSet

/-- The value of a device attribute.  At most one of the fields should be set. -/
structure DeviceAttribute where
  intValue : Option Int := none
  intValues : List Int := []
  boolValue : Option Bool := none
  stringValue : Option String := none
  versionValue : Option String := none
  deriving DecidableEq

inductive QuantityFormat
  | decimalExponent | binarySI | decimalSI
  deriving DecidableEq

structure Quantity where
  value : Rat
  format : QuantityFormat
  deriving DecidableEq

structure DeviceCapacity where
  value : Quantity
  requestPolicy : Option String
  deriving DecidableEq

/-- A published device.  The fields the bridge never reads stand in `remaining` as they are
published. -/
structure Device where
  name : String
  attributes : Finmap (fun _ : String => DeviceAttribute)
  capacity : Finmap (fun _ : String => DeviceCapacity)
  allowMultipleAllocations : Option Bool
  remaining : String
  deriving DecidableEq

structure ResourcePool where
  name : String
  generation : Int
  resourceSliceCount : Int
  deriving DecidableEq

structure ResourceSlice where
  name : String
  driver : String
  nodeName : Option String
  nodeSelector : Option String
  allNodes : Option Bool
  perDeviceNodeSelection : Option Bool
  pool : ResourcePool
  devices : List Device
  deriving DecidableEq

inductive CoreType
  | undefined | standard | performance | efficiency
  deriving DecidableEq

structure CPUInfo where
  name : String
  cpuID : Nat
  coreID : Nat
  socketID : Nat
  numaNodeID : Option Nat
  coreType : CoreType
  deriving DecidableEq

def draDriverCpu : String := "dra.cpu"
def attributeSocketID : String := "dra.cpu/socketID"
def attributeNUMANodeID : String := "dra.cpu/numaNodeID"
def attributeCPUIDs : String := "dra.cpu/cpuIDs"
def attributeSMTLayout : String := "dra.cpu/smtLayout"
def attributeSMTEnabled : String := "dra.cpu/smtEnabled"
def capacityCPU : String := "dra.cpu/cpu"
def maxTopologyCPUs : Nat := 65535

def parseRange (part : String) : Option (Nat × Nat) := do
  let (lo, hi, ranged) := cut '-' part
  let start ← parseInt32 lo
  guard (0 ≤ start)
  let stop ← if ranged then parseInt32 hi else some start
  guard (start ≤ stop)
  return (start.toNat, stop.toNat)

/-- The numbers a list of ranges names, counted with repetitions. -/
def rangesSize (ranges : List (Nat × Nat)) : Nat := (ranges.map (fun r => r.2 - r.1 + 1)).sum

def parseRanges (raw : String) : Except String (List (Nat × Nat)) :=
  (split ',' raw).foldlM (fun ranges part => do
    let range ← present ("invalid CPU range " ++ part.quote) (parseRange part)
    let ranges := ranges ++ [range]
    require (rangesSize ranges ≤ maxTopologyCPUs) ("CPU set exceeds supported size " ++ numeral maxTopologyCPUs)
    return ranges) []

def parseCPUSet (raw : String) : Except String CPUSet := do
  let ranges ← parseRanges raw
  let cpus := NumberSet.ofList (ranges.flatMap spread)
  require (cpus.list ≠ [] ∧ cpus.size = rangesSize ranges)
    ("CPU set " ++ raw.quote ++ " is empty or contains duplicate IDs")
  return cpus

/-- The SMT layout: every CPU of the device, reserved ones included, with its sibling. -/
abbrev Siblings := AList (fun _ : Nat => Option Nat)

/-- Pair one CPU of an atom `list>stride` with the CPU a stride above it. -/
def pairSibling (cpus : CPUSet) (stride : Nat) (siblings : Siblings) (cpu : Nat) : Except String Siblings := do
  -- The upper CPU of an earlier pair.
  if cpu ∈ siblings then
    return siblings
  let other := cpu + stride
  require (other < 2 ^ 31 ∧ other ∈ cpus)
    ("CPU " ++ numeral cpu ++ " has no sibling at stride " ++ numeral stride)
  require (other ∉ siblings) ("CPU " ++ numeral other ++ " has multiple siblings")
  return (siblings.insert cpu (some other)).insert other (some cpu)

/-- Enter the CPUs of one atom: in pairs if it has a stride, else without a sibling. -/
def enterAtom (cpus : CPUSet) (stride : Option String) (siblings : Siblings) : Except String Siblings :=
  match stride with
  | some text => do
      let stride ← present ("invalid SMT stride " ++ text.quote) ((parseInt32 text).filter (0 < ·))
      cpus.list.foldlM (pairSibling cpus stride.toNat) siblings
  | none => pure (cpus.list.foldl (fun siblings cpu => siblings.insert cpu none) siblings)

/-- Read one atom of the layout: a CPU list, with a stride if its CPUs are paired. -/
def decodeAtom (siblings : Siblings) (atom : String) : Except String Siblings := do
  let (cpuList, strideText, strided) := cut '>' atom
  let cpus ← parseCPUSet cpuList
  cpus.list.forM fun cpu =>
    require (cpu ∉ siblings) ("duplicate CPU " ++ numeral cpu ++ " in SMT map")
  let siblings ← enterAtom cpus (if strided then some strideText else none) siblings
  require (siblings.keys.length ≤ maxTopologyCPUs) "SMT map exceeds supported size"
  return siblings

/-- The layout in the `CPU-list>stride;CPU-list` notation. -/
def decodeSMTLayout (raw : String) : Except String Siblings :=
  (split ';' raw).foldlM decodeAtom ∅

def requiredCPUIntegerAttribute (sliceName : String) (device : Device) (name : String) : Except String Nat := do
  let value ← present ("DRA CPU ResourceSlice " ++ sliceName.quote ++ " device " ++ device.name.quote ++
      " does not use the supported grouped CPU device schema: attribute " ++ name.quote ++
      " must be an integer")
    ((device.attributes.lookup name).bind (·.intValue))
  require (0 ≤ value ∧ value < 2 ^ 31)
    ("device " ++ device.name.quote ++ " attribute " ++ name.quote ++ " must be between 0 and " ++
      numeral (2 ^ 31 - 1))
  return value.toNat

def optionalNUMANode (sliceName : String) (device : Device) : Except String (Option Nat) :=
  if attributeNUMANodeID ∈ device.attributes then
    some <$> requiredCPUIntegerAttribute sliceName device attributeNUMANodeID
  else
    pure none

def requiredCPUStringAttribute (device : Device) (name : String) : Except String String :=
  present ("device " ++ device.name.quote ++ " attribute " ++ name.quote ++ " must be a non-empty string")
    (((device.attributes.lookup name).bind (·.stringValue)).filter (· ≠ ""))

/-- A core is identified by its lowest allocatable CPU. -/
def coreOf (cpus : CPUSet) (cpu : Nat) : Option Nat → Nat
  | some sibling => if sibling ∈ cpus then min cpu sibling else cpu
  | none => cpu

def newDeviceCPUInfos (sliceName : String) (device : Device) : Except String (List CPUInfo) := do
  let socket ← requiredCPUIntegerAttribute sliceName device attributeSocketID
  let numaNode ← optionalNUMANode sliceName device
  let smt ← present ("device " ++ device.name.quote ++ " attribute " ++
      attributeSMTEnabled.quote ++ " must be a boolean")
    ((device.attributes.lookup attributeSMTEnabled).bind (·.boolValue))
  let rawCPUs ← requiredCPUStringAttribute device attributeCPUIDs
  let cpus ← relabel ("device " ++ device.name.quote ++ " CPU IDs: " ++ ·) (parseCPUSet rawCPUs)
  require (∃ capacity ∈ device.capacity.lookup capacityCPU,
      capacity.value.value = cpus.size ∧ capacity.requestPolicy = none)
    ("device " ++ device.name.quote ++ " must expose CPU capacity equal to its allocatable " ++
      "CPU IDs without a request policy")
  require (device.allowMultipleAllocations.getD false = true)
    ("socket device " ++ device.name.quote ++ " must allow multiple allocations")
  let rawSMT ← requiredCPUStringAttribute device attributeSMTLayout
  let siblings ← relabel ("device " ++ device.name.quote ++ " SMT map: " ++ ·) (decodeSMTLayout rawSMT)
  cpus.list.mapM fun cpu => do
    let sibling ← present ("CPU " ++ numeral cpu ++ " is missing from device " ++
      device.name.quote ++ " SMT map") (siblings.lookup cpu)
    require (smt = true ∨ sibling = none)
      ("device " ++ device.name.quote ++ " SMT layout contradicts disabled SMT")
    return ⟨device.name, cpu, coreOf cpus cpu sibling, socket, numaNode, .standard⟩

def newCPUInfos (slice : ResourceSlice) : Except String (List CPUInfo) := do
  require (slice.driver = draDriverCpu) ("unsupported resource device driver " ++ slice.driver.quote)
  require (slice.devices ≠ []) ("DRA CPU ResourceSlice " ++ slice.name.quote ++ " contains no devices")
  let infos ← slice.devices.mapM (newDeviceCPUInfos slice.name)
  return infos.flatten

/-- A grouped CPU device is a socket or a NUMA node of a socket. -/
structure CPUDeviceGroup where
  socket : Nat
  numaNode : Option Nat
  deriving DecidableEq

def cpuDeviceGroupOf (device : Device) : CPUDeviceGroup where
  socket := (((device.attributes.lookup attributeSocketID).bind (·.intValue)).getD 0).toNat
  numaNode := ((device.attributes.lookup attributeNUMANodeID).bind (·.intValue)).map Int.toNat

def CPUInfo.deviceGroup (info : CPUInfo) : CPUDeviceGroup := ⟨info.socketID, info.numaNodeID⟩

def attributeText (device : Device) (name : String) : String :=
  ((device.attributes.lookup name).bind (·.stringValue)).getD ""

variable {sliceName name : String} {device : Device}

private theorem requiredCPUIntegerAttribute_ok {n : Nat}
    (read : requiredCPUIntegerAttribute sliceName device name = .ok n) :
    ((device.attributes.lookup name).bind (·.intValue)).map Int.toNat = some n := by
  obtain ⟨value, found, checked⟩ := bind_eq_ok.mp read
  obtain ⟨_, -, result⟩ := bind_eq_ok.mp checked
  simp only [pure_eq_ok] at result
  simp only [present_eq_ok] at found
  rw [found, ← result]
  rfl

private theorem requiredCPUStringAttribute_ok {text : String}
    (read : requiredCPUStringAttribute device name = .ok text) : attributeText device name = text := by
  simp only [requiredCPUStringAttribute, present_eq_ok, filter_eq_some_iff] at read
  simp [attributeText, read.1]

def listedCPUs (device : Device) : CPUSet :=
  (parseCPUSet (attributeText device attributeCPUIDs)).toOption.getD (.ofList [])

def siblingOf (device : Device) (cpu : Nat) : Option Nat := do
  let siblings ← (decodeSMTLayout (attributeText device attributeSMTLayout)).toOption
  (siblings.lookup cpu).join

def cpuInfosOf (device : Device) : List CPUInfo :=
  (listedCPUs device).list.map fun cpu =>
    ⟨device.name, cpu, coreOf (listedCPUs device) cpu (siblingOf device cpu),
      (cpuDeviceGroupOf device).socket, (cpuDeviceGroupOf device).numaNode, .standard⟩

/-- What is known of a device whose CPUs were expanded. -/
structure Expanded (device : Device) : Prop where
  listed : parseCPUSet (attributeText device attributeCPUIDs) = .ok (listedCPUs device)
  nonempty : (listedCPUs device).list ≠ []
  capacity : ∃ capacity, device.capacity.lookup capacityCPU = some capacity ∧
    capacity.value.value = (listedCPUs device).size

variable {raw : String} {cpus : CPUSet}

theorem parseCPUSet_nonempty (parsed : parseCPUSet raw = .ok cpus) : cpus.list ≠ [] := by
  obtain ⟨ranges, -, rest⟩ := bind_eq_ok.mp parsed
  obtain ⟨_, sound, same⟩ := bind_eq_ok.mp rest
  simp only [require_eq_ok] at sound
  simp only [pure_eq_ok] at same
  exact same ▸ sound.1

private theorem parseRange_lt {part : String} {range : Nat × Nat}
    (parsed : parseRange part = some range) : range.2 < 2 ^ 31 := by
  unfold parseRange at parsed
  generalize cut '-' part = pieces at parsed
  obtain ⟨lo, hi, ranged⟩ := pieces
  obtain ⟨start, first, rest⟩ := bind_eq_some_iff.mp parsed
  obtain ⟨_, -, rest⟩ := bind_eq_some_iff.mp rest
  have bounded : ∀ stop : Int, stop < 2 ^ 31 →
      some (start.toNat, stop.toNat) = some range → range.2 < 2 ^ 31 := by
    intro stop bound same
    rw [← some.inj same]
    omega
  cases ranged with
  | true =>
    obtain ⟨stop, last, rest⟩ := bind_eq_some_iff.mp rest
    obtain ⟨_, -, same⟩ := bind_eq_some_iff.mp rest
    exact bounded stop (parseInt32_lt last) same
  | false =>
    obtain ⟨_, -, same⟩ := bind_eq_some_iff.mp rest
    exact bounded start (parseInt32_lt first) same

theorem parseCPUSet_lt (parsed : parseCPUSet raw = .ok cpus) : ∀ cpu ∈ cpus, cpu < 2 ^ 31 := by
  obtain ⟨ranges, read, rest⟩ := bind_eq_ok.mp parsed
  obtain ⟨_, -, same⟩ := bind_eq_ok.mp rest
  simp only [pure_eq_ok] at same
  have bounded : ∀ range ∈ ranges, range.2 < 2 ^ 31 := by
    refine foldlM_ok (fun _ ranges => ∀ range ∈ ranges, range.2 < 2 ^ 31) ?_ (by simp) read
    intro visited part ranges next before step
    obtain ⟨range, found, step⟩ := bind_eq_ok.mp step
    obtain ⟨_, -, added⟩ := bind_eq_ok.mp step
    simp only [present_eq_ok] at found
    simp only [pure_eq_ok] at added
    rw [← added]
    exact forall_mem_snoc before (parseRange_lt found)
  intro cpu inside
  rw [← same, NumberSet.mem_ofList] at inside
  obtain ⟨range, member, within⟩ := List.mem_flatMap.mp inside
  have := bounded range member
  have := List.mem_range'_1.mp within
  omega

theorem newDeviceCPUInfos_ok {infos : List CPUInfo}
    (expanded : newDeviceCPUInfos sliceName device = .ok infos) :
    Expanded device ∧ infos = cpuInfosOf device := by
  obtain ⟨socket, socketRead, rest⟩ := bind_eq_ok.mp expanded
  obtain ⟨numaNode, numaRead, rest⟩ := bind_eq_ok.mp rest
  obtain ⟨smt, -, rest⟩ := bind_eq_ok.mp rest
  obtain ⟨rawCPUs, cpusText, rest⟩ := bind_eq_ok.mp rest
  obtain ⟨cpus, listed, rest⟩ := bind_eq_ok.mp rest
  obtain ⟨_, capacity, rest⟩ := bind_eq_ok.mp rest
  obtain ⟨_, -, rest⟩ := bind_eq_ok.mp rest
  obtain ⟨rawSMT, layoutText, rest⟩ := bind_eq_ok.mp rest
  obtain ⟨siblings, layout, each⟩ := bind_eq_ok.mp rest
  simp only [relabel_eq_ok] at listed layout
  simp only [require_eq_ok, mem_def] at capacity
  rw [← requiredCPUStringAttribute_ok cpusText] at listed
  rw [← requiredCPUStringAttribute_ok layoutText] at layout
  have cpusEq : listedCPUs device = cpus := by simp [listedCPUs, listed, Except.toOption]
  subst cpusEq
  obtain ⟨entry, found, amount, -⟩ := capacity
  refine ⟨⟨listed, parseCPUSet_nonempty listed, entry, found, amount⟩, ?_⟩
  have group : cpuDeviceGroupOf device = ⟨socket, numaNode⟩ := by
    have socketValue := requiredCPUIntegerAttribute_ok socketRead
    have numaValue : ((device.attributes.lookup attributeNUMANodeID).bind (·.intValue)).map
        Int.toNat = numaNode := by
      unfold optionalNUMANode at numaRead
      split at numaRead
      · obtain ⟨n, read, same⟩ := map_eq_ok.mp numaRead
        rw [requiredCPUIntegerAttribute_ok read, same]
      · rename_i absent
        simp only [pure_eq_ok] at numaRead
        rw [Finmap.lookup_eq_none.mpr absent, ← numaRead]
        rfl
    obtain ⟨value, found, same⟩ := map_eq_some_iff.mp socketValue
    simp only [cpuDeviceGroupOf, numaValue, found, getD_some, same]
  rw [cpuInfosOf, group]
  refine (mapM_ok (P := fun _ => True) ?_ each).2
  intro cpu info computed
  obtain ⟨sibling, found, rest⟩ := bind_eq_ok.mp computed
  obtain ⟨_, -, same⟩ := bind_eq_ok.mp rest
  simp only [present_eq_ok] at found
  simp only [pure_eq_ok] at same
  simp [siblingOf, layout, Except.toOption, found, ← same]

end SlurmBridge.Inventory.Devices
