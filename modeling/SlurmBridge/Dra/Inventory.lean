/- source: internal/dra/inventory.go
   digest: The devices of a node by device profile, from the newest generation of each resource pool. -/

import SlurmBridge.Dra.IndexedGRES
import SlurmBridge.Dra.Profiles

set_option autoImplicit false

namespace SlurmBridge.Dra.Inventory

open Foundation.Checked Foundation.NumberSets Foundation.Text Inventory.Devices Dra.IndexedGRES
open Dra.Profiles

structure ResourcePoolID where
  driver : String
  pool : String
  deriving DecidableEq

def resourcePoolIDFromSlice (slice : ResourceSlice) : ResourcePoolID := ⟨slice.driver, slice.pool.name⟩

def ResourcePoolID.text (id : ResourcePoolID) : String := id.driver ++ "/" ++ id.pool

def ResourcePoolID.key (id : ResourcePoolID) : String ×ₗ String := toLex (id.driver, id.pool)

/-- The slices of a pool's newest generation seen so far. -/
structure ResourcePoolSnapshot where
  id : ResourcePoolID
  generation : Int
  resourceSliceCount : Int
  profiles : List DeviceProfile
  slices : List ResourceSlice

abbrev Snapshots := AList (fun _ : ResourcePoolID => ResourcePoolSnapshot)

def addResourceSliceToSnapshot (snapshots : Snapshots) (profiles : List DeviceProfile) (slice : ResourceSlice) : Snapshots :=
  let id := resourcePoolIDFromSlice slice
  let fresh : ResourcePoolSnapshot := ⟨id, slice.pool.generation, slice.pool.resourceSliceCount, profiles, [slice]⟩
  match snapshots.lookup id with
  | none => snapshots.insert id fresh
  | some snapshot =>
    if slice.pool.generation > snapshot.generation then snapshots.insert id fresh
    else if slice.pool.generation < snapshot.generation then snapshots
    else snapshots.insert id { snapshot with slices := snapshot.slices ++ [slice] }

def visitSlice (registry : Registry) (snapshots : Snapshots) (slice : ResourceSlice) : Snapshots :=
  let profiles := registry.profilesForDriver slice.driver
  if profiles = [] then snapshots else addResourceSliceToSnapshot snapshots profiles slice

/-- All devices of the slice belong to the one node it names. -/
def validateResourceSliceNode (slice : ResourceSlice) : Except String Unit := do
  require (slice.nodeSelector = none) ("ResourceSlice " ++ slice.name.quote ++ " uses unsupported spec.nodeSelector")
  require (slice.allNodes.getD false = false) ("ResourceSlice " ++ slice.name.quote ++ " uses unsupported spec.allNodes")
  require (slice.perDeviceNodeSelection.getD false = false)
    ("ResourceSlice " ++ slice.name.quote ++ " uses unsupported spec.perDeviceNodeSelection")
  require (slice.nodeName.getD "" ≠ "") ("ResourceSlice " ++ slice.name.quote ++ " must have a nonempty spec.nodeName")

/-- The slices of a generation name one node and one number of slices. -/
def checkSlice (snapshot : ResourcePoolSnapshot) (nodeName : String) (slice : ResourceSlice) : Except String Unit := do
  validateResourceSliceNode slice
  require (slice.nodeName.getD "" = nodeName)
    ("DRA resource pool " ++ snapshot.id.text.quote ++ " generation " ++ toString snapshot.generation ++
      " has inconsistent nodeName values " ++ nodeName.quote ++ " and " ++ (slice.nodeName.getD "").quote)
  require (slice.pool.resourceSliceCount = snapshot.resourceSliceCount)
    ("DRA resource pool " ++ snapshot.id.text.quote ++ " generation " ++ toString snapshot.generation ++
      " has inconsistent resourceSliceCount values " ++ toString snapshot.resourceSliceCount ++ " and " ++
      toString slice.pool.resourceSliceCount)

/-- Check a pool; keep it if it is assigned to the node.  Incomplete pools of other nodes do not matter. -/
def completeResourcePoolSnapshot (node : String) (snapshot : ResourcePoolSnapshot) :
    Except String (Option ResourcePoolSnapshot) := do
  let nodeName := (snapshot.slices.head?.bind (·.nodeName)).getD ""
  snapshot.slices.forM (checkSlice snapshot nodeName)
  if nodeName = node then do
    require ((snapshot.slices.length : Int) = snapshot.resourceSliceCount)
      ("DRA resource pool " ++ snapshot.id.text.quote ++ " generation " ++ toString snapshot.generation ++
        " is incomplete: found " ++ numeral snapshot.slices.length ++ " of " ++ toString snapshot.resourceSliceCount ++
        " ResourceSlices")
    return some snapshot
  else
    return none

def sortedSnapshots (snapshots : Snapshots) : List ResourcePoolSnapshot :=
  (snapshots.entries.map Sigma.snd).insertionSort fun a b => a.id.key ≤ b.id.key

def completeResourcePoolSnapshots (node : String) (snapshots : Snapshots) : Except String (List ResourcePoolSnapshot) := do
  let complete ← (sortedSnapshots snapshots).mapM (completeResourcePoolSnapshot node)
  return complete.reduceOption

def selectResourcePoolSnapshots (registry : Registry) (node : String) (slices : List ResourceSlice) :
    Except String (List ResourcePoolSnapshot) :=
  completeResourcePoolSnapshots node (slices.foldl (visitSlice registry) ∅)

/-- A device that a snapshot lists, with the profiles of its driver. -/
structure ListedDevice where
  profiles : List DeviceProfile
  identity : DeviceIdentity
  device : Device

def listDevices (profiles : List DeviceProfile) (slice : ResourceSlice) : List ListedDevice :=
  slice.devices.map fun device => ⟨profiles, ⟨slice.driver, slice.pool.name, device.name⟩, device⟩

def identityText (id : DeviceIdentity) : String := id.driver ++ "/" ++ id.pool ++ "/" ++ id.device

/-- Compile a selector; the program reads the driver and the device. -/
abbrev Compiler := String → Except String (String → Finmap (fun _ : String => DeviceAttribute) →
  Finmap (fun _ : String => DeviceCapacity) → Option Bool → Except String Bool)

section
variable (compile : Compiler)

def deviceMatches (profile : DeviceProfile) (identity : DeviceIdentity) (device : Device) : Except String Bool := do
  let selector ← (compile profile.selector).mapError fun e =>
    "compile selector for device profile " ++ profile.name.quote ++ ": " ++ e
  (selector identity.driver device.attributes device.capacity device.allowMultipleAllocations).mapError fun e =>
    "evaluate device profile " ++ profile.name.quote ++ " for device " ++ (identityText identity).quote ++ ": " ++ e

/-- Enter a profile that accepts the device.  A second one would let Slurm account for the device twice. -/
def matchProfile (identity : DeviceIdentity) (device : Device) (matched : Option DeviceProfile) (profile : DeviceProfile) :
    Except String (Option DeviceProfile) := do
  let accepts ← deviceMatches compile profile identity device
  if accepts then do
    absent (fun previous : DeviceProfile => "DRA device " ++ (identityText identity).quote ++
      " matches overlapping device profiles " ++ previous.name.quote ++ " and " ++ profile.name.quote) matched
    return some profile
  else
    return matched

def matchDeviceProfile (profiles : List DeviceProfile) (identity : DeviceIdentity) (device : Device) :
    Except String (Option DeviceProfile) :=
  profiles.foldlM (matchProfile compile identity device) none

def standardDeviceAttributeNUMANode : String := "resource.kubernetes.io/numaNode"

/-- The standard attribute as a sorted set. -/
def deviceNUMANodes (device : Device) : List Nat :=
  match device.attributes.lookup standardDeviceAttributeNUMANode with
  | none => []
  | some published =>
    let values := match published.intValue with
      | some value => [value]
      | none => published.intValues
    (NumberSet.ofList ((values.filter fun value => 0 ≤ value ∧ value < 2 ^ 31).map Int.toNat)).list

structure FoundDevice where
  profile : DeviceProfile
  identity : DeviceIdentity
  numaNodes : List Nat
  deriving DecidableEq

def visitDevice (found : List FoundDevice) (listed : ListedDevice) : Except String (List FoundDevice) := do
  match ← matchDeviceProfile compile listed.profiles listed.identity listed.device with
  | none => return found
  | some profile => do
      require (listed.identity ∉ found.map (·.identity))
        ("duplicate DRA device identity " ++ (identityText listed.identity).quote)
      return found ++ [⟨profile, listed.identity, deviceNUMANodes listed.device⟩]

end

/-- The devices of one profile, and the NUMA nodes of those that publish them. -/
structure ProfileInventory where
  profile : DeviceProfile
  devices : List DeviceIdentity
  numaNodes : List (DeviceIdentity × List Nat)
  deriving DecidableEq

structure NodeInventory where
  nodeName : String
  profiles : List ProfileInventory
  deriving DecidableEq

def deviceKey (id : DeviceIdentity) : String ×ₗ String ×ₗ String := toLex (id.driver, toLex (id.pool, id.device))

def profileInventory (found : List FoundDevice) (name : String) : Option ProfileInventory :=
  let group := found.filter (·.profile.name = name)
  group.getLast?.map fun last =>
    let sorted := group.insertionSort fun a b => deviceKey a.identity ≤ deviceKey b.identity
    { profile := last.profile
      devices := sorted.map (·.identity)
      numaNodes := (sorted.filter (·.numaNodes ≠ [])).map fun device => (device.identity, device.numaNodes) }

def sortedProfileInventories (found : List FoundDevice) : List ProfileInventory :=
  ((found.map (·.profile.name)).dedup.insertionSort (· ≤ ·)).filterMap (profileInventory found)

/-- The inventory of a node, of which only the name is read, from ResourceSlices. -/
def buildNodeInventory (compile : Compiler) (registry : Option Registry) (node : Option String)
    (slices : List ResourceSlice) : Except String NodeInventory := do
  let registry ← present "device profile registry must not be nil" registry
  let node ← present "node must not be nil" node
  let snapshots ← selectResourcePoolSnapshots registry node slices
  let listed := snapshots.flatMap fun snapshot => snapshot.slices.flatMap (listDevices snapshot.profiles)
  let found ← listed.foldlM (visitDevice compile) []
  return ⟨node, sortedProfileInventories found⟩

end SlurmBridge.Dra.Inventory
