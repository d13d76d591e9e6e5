/- source: internal/controller/node/slurmcontrol/slurmcontrol.go, hybrid_cpu.go,
     internal/controller/node/utils/utils.go, internal/nodeinfo/nodeinfo.go, fingerprint.go
   digest: The Slurm configuration of a Kubernetes node: CPU geometry, GRES and the recorded
     inventory, and its comparison with the node that Slurm reports. -/

import SlurmBridge.Dra.IndexedGRES
import SlurmBridge.Inventory.Fingerprint
import SlurmBridge.Kube.Objects

set_option autoImplicit false

namespace SlurmBridge.Node.Configuration

open Foundation.Checked Foundation.NumberSets Foundation.Text Dra.IndexedGRES Inventory.Devices
open Inventory.Topology Inventory.Fingerprint
open Kube.Objects (StringMap)
open List

/-- The node states and flags that the bridge distinguishes. -/
inductive NodeState
  | idle | allocated | mixed | completing | drain | undrain | external
  | other (name : String)
  deriving DecidableEq, Repr

/-- A node as Slurm reports it.  Missing fields have their zero values. -/
structure SlurmNode where
  name : String
  state : List NodeState := []
  reason : String := ""
  gres : String := ""
  extra : Extra := .empty
  sockets : Int := 0
  cores : Int := 0
  threads : Int := 0
  cpus : Int := 0
  allocCpus : Int := 0
  realMemory : Int := 0
  features : List String := []
  activeFeatures : List String := []
  partitions : List String := []
  topology : String := ""
  deriving DecidableEq

def SlurmNode.isDrain (node : SlurmNode) : Bool :=
  decide (.drain ∈ node.state) && !decide (.undrain ∈ node.state)

def SlurmNode.isBusy (node : SlurmNode) : Bool :=
  decide (.allocated ∈ node.state ∨ .mixed ∈ node.state ∨ .completing ∈ node.state)

def SlurmNode.isExternal (node : SlurmNode) : Bool := decide (.external ∈ node.state)

structure Taint where
  key : String
  value : String
  effect : String
  deriving DecidableEq

structure NodeCondition where
  type : String
  status : String
  reason : String
  message : String
  deriving DecidableEq

/-- The parts of a Kubernetes node that the node controller reads. -/
structure KubeNode where
  name : String
  labels : StringMap
  annotations : StringMap
  unschedulable : Bool
  taints : List Taint
  conditions : List NodeCondition
  addresses : List (String × String)
  /-- The capacity in CPUs, rounded up. -/
  cpu : Int
  /-- The capacity in bytes. -/
  memory : Int

abbrev NodeNamed (name : String) := { node : KubeNode // node.name = name }

def plainNode : KubeNode where
  name := "node"
  labels := ∅
  annotations := ∅
  unschedulable := false
  taints := []
  conditions := []
  addresses := []
  cpu := 8
  memory := 1024 * 1024

def labelSlurmNodeName : String := "slinky.slurm.net/slurm-nodename"
def labelExternalNode : String := "scheduler.slinky.slurm.net/external-node"

def labeledNode : KubeNode := { plainNode with labels := Finmap.singleton labelExternalNode "" }

def getSlurmNodeName (node : KubeNode) : String :=
  (node.labels.lookup labelSlurmNodeName).getD node.name

def nodeInternalIP (node : KubeNode) : String :=
  ((node.addresses.find? (·.1 = "InternalIP")).map Prod.snd).getD ""

def geometryOf : Option NodeInfo → Except String (Nat × Nat × Nat)
  | none => pure (0, 0, 0)
  | some n => n.geometry

structure NodeCPUConfig where
  sockets : Int
  coresPerSocket : Int
  threadsPerCore : Int
  cpus : Int
  fromDRA : Bool
  deriving DecidableEq

def hasCores (info : Option NodeInfo) : Bool := info.any (!·.abstractToMachine.isEmpty)

def desiredNodeCPUConfig (node : KubeNode) (info : Option NodeInfo) : Except String NodeCPUConfig :=
  if hasCores info then do
    let (sockets, cores, threads) ← geometryOf info
    return ⟨sockets, cores, threads, sockets * cores * threads, true⟩
  else
    return ⟨1, node.cpu, 1, node.cpu, false⟩

def machineToAbstract (n : NodeInfo) (cpu : Nat) : Option Nat :=
  n.abstractToMachine.findIdx? (fun core => decide (cpu ∈ core))

/-- The Slurm cores of a NUMA node.  There are none unless all devices are NUMA nodes. -/
def numaCores (info : Option NodeInfo) (node : Nat) : List Nat :=
  match info with
  | none => []
  | some n =>
    if ∃ device ∈ n.cpuDevices, (cpuDeviceGroupOf device).numaNode = none then []
    else (NumberSet.ofList ((n.cpuDevices.filter fun device =>
      (cpuDeviceGroupOf device).numaNode = some node).flatMap fun device =>
        (listedCPUs device).list.filterMap (machineToAbstract n))).list

structure NodeGRESConfig where
  gres : String
  gresConf : String
  extra : Extra
  gresConfInventory : List String
  deriving DecidableEq

/-- The recorded map of an inventory.  Without devices there is nothing to record. -/
def inventoryExtra (inventory : List GRESInventory) : Except String Extra :=
  if inventory = [] then pure .empty else encodeAppliedInventory inventory

/-- Translate DRA inventory into Slurm GRES bound to the cores of each device's NUMA nodes. -/
def buildNodeGRESConfig (draInventory : List GRESInventory) (info : Option NodeInfo) :
    Except String NodeGRESConfig := do
  let inventory := draInventory.map (·.withNUMACores (numaCores info))
  let configs ← inventory.mapM GRESInventory.slurmConfig
  let extra ← inventoryExtra inventory
  return {
    gres := ",".intercalate (configs.map Prod.fst)
    gresConf := "+".intercalate (configs.map Prod.snd)
    extra
    gresConfInventory := inventory.map fun g =>
      "Name=" ++ g.gres.name.text ++ " Type=" ++ g.gres.type.text ++ " Count=" ++
        numeral g.devices.length }

/-- Unicode's white space. -/
def isSpace (c : Char) : Bool :=
  decide (9 ≤ c.toNat ∧ c.toNat ≤ 13 ∨ 0x2000 ≤ c.toNat ∧ c.toNat ≤ 0x200a ∨
    c.toNat ∈ [0x20, 0x85, 0xa0, 0x1680, 0x2028, 0x2029, 0x202f, 0x205f, 0x3000])

def trimSpace (s : String) : String :=
  .ofList ((s.toList.dropWhile isSpace).reverse.dropWhile isSpace).reverse

/-- Drop everything between parentheses.  A parenthesis that is not closed reaches to the
end. -/
def dropParenthesised : Bool → List Char → List Char
  | _, [] => []
  | false, c :: rest =>
    if c = '(' then dropParenthesised true rest else c :: dropParenthesised false rest
  | true, c :: rest => dropParenthesised (c ≠ ')') rest

/-- The entries of a GRES text without their socket suffixes, which may contain commas. -/
def gresEntries (gres : String) : List String :=
  (split ',' (.ofList (dropParenthesised false gres.toList))).map trimSpace

def gresEqual (a b : String) : Bool :=
  (gresEntries a).insertionSort (· ≤ ·) = (gresEntries b).insertionSort (· ≤ ·)

/-- An existing Slurm node cannot represent the DRA inventory of its Kubernetes node. -/
structure IncompatibleGRES where
  nodeName : String
  current : String
  required : String
  gresConf : List String
  deriving DecidableEq

inductive ConfigError
  | text (message : String)
  | incompatibleGRES (err : IncompatibleGRES)
  deriving DecidableEq

/-- Every entry that the inventory needs has to be present.  Other entries are ignored. -/
def validateHybridNodeGRES (nodeName current : String) (desired : NodeGRESConfig) :
    Except ConfigError Unit :=
  require (desired.gres = "" ∨ ∀ required ∈ split ',' desired.gres, required ∈ gresEntries current)
    (.incompatibleGRES ⟨nodeName, current, desired.gres, desired.gresConfInventory.map fun entry =>
      "NodeName=" ++ nodeName ++ " " ++ entry⟩)

variable (digest : Canonical → String)

/-- Add the CPU fingerprint to the GRES inventory. -/
def encodeApplied (info : Option NodeInfo) (extra : Extra) : Except String Extra :=
  match info with
  | none => pure extra
  | some n =>
    if n.cpuDevices = [] then pure extra
    else do withAppliedCPUFingerprint extra (← cpuFingerprint digest n)

def validateCPUFingerprint (info : Option NodeInfo) (extra : Extra) : Except String Unit := do
  let applied ← appliedCPUFingerprint extra
  let n ← present "missing grouped CPU inventory" info
  let fingerprint ← cpuFingerprint digest n
  require (applied = fingerprint)
    "CPU topology fingerprint is missing or differs from Slurm registration; waiting for drain and registration"

/-- The fingerprint in an Extra value, none if the bridge does not own the value. -/
def storedFingerprint (extra : Extra) : Except String String :=
  if extra.isOwned then appliedCPUFingerprint extra else pure ""

def inUse (extra : Extra) : Prop := extra ≠ .empty ∧ extra.isOwned = false

instance (extra : Extra) : Decidable (inUse extra) := inferInstanceAs (Decidable (_ ∧ _))

def extraInUse (node : SlurmNode) : String :=
  "cannot record applied DRA inventory on Slurm node " ++ node.name.quote ++
    ": Extra field is already in use"

/-- A node may get another topology only while no job runs on it. -/
def canRecordTopology (node : SlurmNode) (applied : String) : Except String Unit := do
  require (.idle ∈ node.state ∧ node.isBusy = false ∧ node.allocCpus = 0)
    ("hybrid node " ++ node.name.quote ++ " must be idle before recording its CPU topology")
  require (applied = "" ∨ node.isDrain = true)
    ("hybrid node " ++ node.name.quote ++
      " CPU topology changed; drain the node before re-registering it")

/-- Compare the CPU geometry and add the fingerprint. -/
def recordTopology (node : SlurmNode) (info : Option NodeInfo) (applied : String) (extra : Extra)
    (sockets cores threads : Nat) : Except String Extra := do
  require (node.sockets = sockets ∧ node.cores = cores ∧ node.threads = threads ∧
      node.cpus = sockets * cores * threads)
    ("hybrid node " ++ node.name.quote ++ " CPU geometry differs from DRA: Slurm has Sockets=" ++
      toString node.sockets ++ " CoresPerSocket=" ++ toString node.cores ++ " ThreadsPerCore=" ++
      toString node.threads ++ " CPUs=" ++ toString node.cpus ++ "; DRA requires " ++
      numeral sockets ++ "/" ++ numeral cores ++ "/" ++ numeral threads ++ "/" ++
      numeral (sockets * cores * threads) ++
      "; correct slurmd registration before admitting bridge jobs")
  let extra ← encodeApplied digest info extra
  match validateCPUFingerprint digest info node.extra with
  | .ok () => pure extra
  | .error _ => do
      canRecordTopology node applied
      return extra

/-- A topology that was recorded must not disappear. -/
def keepNoTopology (node : SlurmNode) (applied : String) (extra : Extra) : Except String Extra := do
  require (applied = "")
    ("hybrid node " ++ node.name.quote ++ " lost its applied CPU inventory; refusing CPU fallback")
  return extra

/-- Validate Slurm's geometry and add the CPU fingerprint to Extra. -/
def hybridNodeExtra (node : SlurmNode) (info : Option NodeInfo) (extra : Extra) :
    Except String Extra := do
  let applied ← storedFingerprint node.extra
  let (sockets, cores, threads) ← geometryOf info
  let extra ← (if sockets = 0 then keepNoTopology node applied extra
    else recordTopology digest node info applied extra sockets cores threads : Except String Extra)
  require (¬(extra ≠ .empty ∧ inUse node.extra)) (extraInUse node)
  return extra

/-- A topology that was recorded on an external node must not disappear. -/
def checkFallback (cpu : NodeCPUConfig) (current : Extra) : Except String Unit :=
  if cpu.fromDRA then pure ()
  else do
    let fingerprint ← storedFingerprint current
    require (fingerprint = "") "applied CPU inventory disappeared; refusing CPU fallback"

def cpuChanged (cpu : NodeCPUConfig) (node : SlurmNode) : Bool :=
  decide (cpu.cpus ≠ node.cpus) || cpu.fromDRA && decide (cpu.sockets ≠ node.sockets ∨
    cpu.coresPerSocket ≠ node.cores ∨ cpu.threadsPerCore ≠ node.threads)

/-- A value that somebody else set stays unless there is something to record. -/
def extraChanged (desired current : Extra) : Bool :=
  decide (desired ≠ current ∧ (desired ≠ .empty ∨ current.isOwned = true))

def memoryMB (node : KubeNode) : Int := node.memory.tdiv (1024 * 1024)

/-- Whether an external node has to be drained and created again.  A hybrid node is only
checked. -/
def configurationChanged (node : KubeNode) (info : Option NodeInfo)
    (draInventory : List GRESInventory) (slurmNode : SlurmNode) : Except ConfigError Bool := do
  let desired ← (buildNodeGRESConfig draInventory info).mapError .text
  if slurmNode.isExternal = false then
    validateHybridNodeGRES (getSlurmNodeName node) slurmNode.gres desired
    let _ ← (hybridNodeExtra digest slurmNode info desired.extra).mapError .text
    return false
  else
    let cpu ← (desiredNodeCPUConfig node info).mapError .text
    let extra ← (encodeApplied digest info desired.extra).mapError .text
    (checkFallback cpu slurmNode.extra).mapError .text
    require (¬(extra ≠ .empty ∧ inUse slurmNode.extra))
      (.text ("cannot record applied DRA inventory on Slurm node " ++
        (getSlurmNodeName node).quote ++ ": Extra field is already in use"))
    return cpuChanged cpu slurmNode || decide (memoryMB node ≠ slurmNode.realMemory) ||
      !gresEqual desired.gres slurmNode.gres || extraChanged extra slurmNode.extra

section
variable {draInventory : List GRESInventory} {info : Option NodeInfo} {config : NodeGRESConfig}

private theorem slurmConfig_ok {g : GRESInventory} {entry : String × String}
    (configured : g.slurmConfig = .ok entry) : g.devices ≠ [] ∧
      entry = (g.entry, "+".intercalate (List.zipWith g.deviceRecord g.devices (g.devices.map pathOf))) := by
  obtain ⟨paths, entries, rest⟩ := bind_eq_ok.mp configured
  obtain ⟨_, some, same⟩ := bind_eq_ok.mp rest
  rw [appliedInventoryEntry_eq] at entries
  obtain rfl := Except.ok.inj entries
  simp only [require_eq_ok, ne_eq, map_eq_nil_iff] at some
  simp only [pure_eq_ok] at same
  exact ⟨some, same.symm⟩

theorem buildNodeGRESConfig_ok (built : buildNodeGRESConfig draInventory info = .ok config) :
    (∀ g ∈ draInventory, g.devices ≠ []) ∧
      config.gres = ",".intercalate (draInventory.map GRESInventory.entry) ∧
      inventoryExtra (draInventory.map (·.withNUMACores (numaCores info))) = .ok config.extra := by
  obtain ⟨configs, each, rest⟩ := bind_eq_ok.mp built
  obtain ⟨extra, encoded, same⟩ := bind_eq_ok.mp rest
  simp only [pure_eq_ok] at same
  subst same
  obtain ⟨devices, entries⟩ := mapM_ok (fun g entry => slurmConfig_ok) each
  refine ⟨fun g member => devices (g.withNUMACores (numaCores info)) (mem_map_of_mem member),
    ?_, encoded⟩
  rw [entries, map_map, map_map]
  rfl

end

section
variable {digest : Canonical → String} {draInventory : List GRESInventory} {info : Option NodeInfo}
  {config : NodeGRESConfig} {node : SlurmNode} {extra extra' : Extra}

/-- How a topology with CPUs gets recorded on a hybrid node. -/
structure TopologyRecorded (digest : Canonical → String) (node : SlurmNode) (info : Option NodeInfo)
    (applied : String) (extra extra' : Extra) (sockets cores threads : Nat) : Prop where
  geometry : node.sockets = sockets ∧ node.cores = cores ∧ node.threads = threads ∧
    node.cpus = sockets * cores * threads
  encoded : encodeApplied digest info extra = .ok extra'
  unchanged : validateCPUFingerprint digest info node.extra = .ok () ∨
    canRecordTopology node applied = .ok ()

theorem recordTopology_ok {applied : String} {sockets cores threads : Nat}
    (recorded : recordTopology digest node info applied extra sockets cores threads = .ok extra') :
    TopologyRecorded digest node info applied extra extra' sockets cores threads := by
  obtain ⟨_, geometry, rest⟩ := bind_eq_ok.mp recorded
  obtain ⟨encoded, computed, rest⟩ := bind_eq_ok.mp rest
  cases validated : validateCPUFingerprint digest info node.extra with
  | ok u =>
    rw [validated] at rest
    obtain rfl := pure_eq_ok.mp rest
    exact ⟨require_eq_ok.mp geometry, computed, .inl validated⟩
  | error e =>
    rw [validated] at rest
    obtain ⟨_, allowed, same⟩ := bind_eq_ok.mp rest
    obtain rfl := pure_eq_ok.mp same
    exact ⟨require_eq_ok.mp geometry, computed, .inr allowed⟩

theorem hybridNodeExtra_ok (computed : hybridNodeExtra digest node info extra = .ok extra') :
    ∃ applied sockets cores threads, storedFingerprint node.extra = .ok applied ∧
      geometryOf info = .ok (sockets, cores, threads) ∧
      ¬(extra' ≠ .empty ∧ inUse node.extra) ∧
      (sockets = 0 ∧ applied = "" ∧ extra' = extra ∨
        sockets ≠ 0 ∧ TopologyRecorded digest node info applied extra extra' sockets cores threads) := by
  obtain ⟨applied, stored, rest⟩ := bind_eq_ok.mp computed
  obtain ⟨⟨sockets, cores, threads⟩, geometry, rest⟩ := bind_eq_ok.mp rest
  obtain ⟨encoded, recorded, rest⟩ := bind_eq_ok.mp rest
  obtain ⟨_, free, same⟩ := bind_eq_ok.mp rest
  obtain rfl := pure_eq_ok.mp same
  refine ⟨applied, sockets, cores, threads, stored, geometry, require_eq_ok.mp free, ?_⟩
  by_cases none : sockets = 0
  · rw [if_pos none] at recorded
    obtain ⟨_, lost, same⟩ := bind_eq_ok.mp recorded
    exact .inl ⟨none, require_eq_ok.mp lost, (pure_eq_ok.mp same).symm⟩
  · rw [if_neg none] at recorded
    exact .inr ⟨none, recordTopology_ok recorded⟩

theorem encodeApplied_map (encoded : encodeApplied digest info extra = .ok extra')
    (some : extra ≠ .empty) : decodeAppliedInventory extra' = decodeAppliedInventory extra := by
  cases info with
  | none => rw [pure_eq_ok.mp encoded]
  | some n =>
    simp only [encodeApplied] at encoded
    split at encoded
    · rw [pure_eq_ok.mp encoded]
    · obtain ⟨fingerprint, -, recorded⟩ := bind_eq_ok.mp encoded
      exact decode_withAppliedCPUFingerprint some recorded

def cpuInventory (info : Option NodeInfo) : List Device := (info.map (·.cpuDevices)).getD []

theorem encodeApplied_eq (none : cpuInventory info = []) (extra : Extra) :
    encodeApplied digest info extra = .ok extra := by
  cases info with
  | none => rfl
  | some n =>
    have devices : n.cpuDevices = [] := by simpa [cpuInventory] using none
    rw [encodeApplied, if_pos devices]
    rfl

theorem encodeApplied_owned (some : cpuInventory info ≠ [])
    (encoded : encodeApplied digest info extra = .ok extra') : extra'.isOwned = true := by
  cases info with
  | none => simp [cpuInventory] at some
  | some n =>
    have devices : n.cpuDevices ≠ [] := by simpa [cpuInventory] using some
    rw [encodeApplied, if_neg devices] at encoded
    obtain ⟨fingerprint, -, recorded⟩ := bind_eq_ok.mp encoded
    exact (appliedCPUFingerprint_withApplied recorded).1

theorem config_extra (built : buildNodeGRESConfig draInventory info = .ok config) :
    draInventory = [] ∧ config.extra = .empty ∨
      draInventory ≠ [] ∧ config.extra.isOwned = true ∧ storedFingerprint config.extra = .ok "" := by
  obtain ⟨-, -, encoded⟩ := buildNodeGRESConfig_ok built
  rw [inventoryExtra] at encoded
  split at encoded
  · rename_i none
    exact .inl ⟨by simpa using none, (pure_eq_ok.mp encoded).symm⟩
  · rename_i some
    obtain ⟨applied, decoded, -⟩ := decode_encoded encoded
    have owned : config.extra.isOwned = true := by
      rw [(encodeAppliedInventory_ok encoded).2]
      rfl
    refine .inr ⟨by simpa using some, owned, ?_⟩
    rw [storedFingerprint, if_pos owned]
    refine bind_eq_ok.mpr ⟨applied, decoded, ?_⟩
    rw [(encodeAppliedInventory_ok encoded).2]
    rfl

theorem separates_config (nodup : (draInventory.flatMap (·.devices)).Nodup)
    (built : buildNodeGRESConfig draInventory info = .ok config) : Separates config.extra := by
  obtain ⟨-, -, encoded⟩ := buildNodeGRESConfig_ok built
  rw [inventoryExtra] at encoded
  split at encoded
  · rw [← pure_eq_ok.mp encoded]
    exact separates_foreign rfl
  · refine separates_encoded ?_ encoded
    rwa [flatMap_map]

theorem separates_encodeApplied (separates : Separates extra)
    (encoded : encodeApplied digest info extra = .ok extra') : Separates extra' := by
  cases info with
  | none => exact pure_eq_ok.mp encoded ▸ separates
  | some n =>
    simp only [encodeApplied] at encoded
    split at encoded
    · exact pure_eq_ok.mp encoded ▸ separates
    · obtain ⟨fingerprint, -, recorded⟩ := bind_eq_ok.mp encoded
      exact separates_withApplied separates recorded

theorem separates_hybridNodeExtra (separates : Separates extra)
    (computed : hybridNodeExtra digest node info extra = .ok extra') : Separates extra' := by
  obtain ⟨_, _, _, _, -, -, -, form⟩ := hybridNodeExtra_ok computed
  rcases form with ⟨-, -, rfl⟩ | ⟨-, topology⟩
  · exact separates
  · exact separates_encodeApplied separates topology.encoded

end

variable {c : Char}

theorem isNameChar_plain (valid : isNameChar c = true) : c ≠ ',' ∧ c ≠ '(' ∧ c ≠ ':' ∧ isSpace c = false := by
  refine ⟨?_, ?_, ?_, ?_⟩
  · rintro rfl; revert valid; decide
  · rintro rfl; revert valid; decide
  · rintro rfl; revert valid; decide
  · have code : c.toNat = c.val.toNat := rfl
    delta isNameChar Char.isAlphanum Char.isAlpha Char.isUpper Char.isLower Char.isDigit at valid
    simp only [Bool.or_eq_true, Bool.and_eq_true, decide_eq_true_eq, beq_iff_eq, ge_iff_le,
      UInt32.le_iff_toNat_le, ← code] at valid
    have bounds : 45 ≤ c.toNat ∧ c.toNat ≤ 122 := by
      rcases valid with ((((upper | lower) | digit) | rfl) | rfl) | rfl
      · exact ⟨le_trans (by decide) upper.1, le_trans upper.2 (by decide)⟩
      · exact ⟨le_trans (by decide) lower.1, le_trans lower.2 (by decide)⟩
      · exact ⟨le_trans (by decide) digit.1, le_trans digit.2 (by decide)⟩
      all_goals decide
    rw [isSpace, decide_eq_false_iff_not]
    simp only [mem_cons, not_mem_nil, or_false]
    omega

theorem entry_plain (g : GRESInventory) (member : c ∈ g.entry.toList) :
    c ≠ ',' ∧ c ≠ '(' ∧ isSpace c = false := by
  have plain (valid : isNameChar c = true) : c ≠ ',' ∧ c ≠ '(' ∧ isSpace c = false := by
    obtain ⟨comma, paren, -, space⟩ := isNameChar_plain valid
    exact ⟨comma, paren, space⟩
  have colon (inside : c ∈ ":".toList) : c ≠ ',' ∧ c ≠ '(' ∧ isSpace c = false := by
    obtain rfl : c = ':' := by simpa using inside
    decide
  simp only [GRESInventory.entry, GRES.toText, String.toList_append, mem_append] at member
  rcases member with (((name | sep) | type) | sep) | count
  · exact plain (g.gres.name.plain c name)
  · exact colon sep
  · exact plain (g.gres.type.plain c type)
  · exact colon sep
  · exact plain (by simp [isNameChar, Char.isAlphanum, isDigit_of_mem_numeral count])

theorem entry_ne_empty (g : GRESInventory) : g.entry ≠ "" := by
  intro empty
  have chars := congrArg String.toList empty
  simp [GRESInventory.entry, GRES.toText] at chars

theorem split_gres {inventory : List GRESInventory} (some : inventory ≠ []) :
    split ',' (",".intercalate (inventory.map GRESInventory.entry)) =
      inventory.map GRESInventory.entry := by
  refine split_intercalate ',' (by simpa using some) ?_
  intro entry member inside
  obtain ⟨g, -, rfl⟩ := mem_map.mp member
  exact (entry_plain g inside).1 rfl

theorem validateHybridNodeGRES_ok {nodeName current : String} {draInventory : List GRESInventory}
    {info : Option NodeInfo} {config : NodeGRESConfig}
    (built : buildNodeGRESConfig draInventory info = .ok config)
    (valid : validateHybridNodeGRES nodeName current config = .ok ()) :
    ∀ g ∈ draInventory, g.entry ∈ gresEntries current := by
  intro g member
  have some : draInventory ≠ [] := ne_nil_of_mem member
  obtain ⟨-, gres, -⟩ := buildNodeGRESConfig_ok built
  rcases require_eq_ok.mp valid with empty | all
  · rw [gres] at empty
    rcases intercalate_eq_empty ',' empty with none | single
    · exact absurd (map_eq_nil_iff.mp none) some
    · have inside : g.entry ∈ [""] := single ▸ mem_map_of_mem member
      exact absurd (mem_singleton.mp inside) (entry_ne_empty g)
  · rw [gres, split_gres some] at all
    exact all _ (mem_map_of_mem member)

end SlurmBridge.Node.Configuration
