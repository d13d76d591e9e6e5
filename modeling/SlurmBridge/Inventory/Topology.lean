/- source: internal/nodeinfo/nodeinfo.go, cpumap.go, fingerprint.go (Geometry)
   digest: The CPU topology of a node from its ResourceSlices: the pool snapshot, the
     checks across devices, and the map from Slurm's abstract cores to machine CPUs. -/

import Mathlib.Data.String.Basic
import SlurmBridge.Inventory.Devices

set_option autoImplicit false

namespace SlurmBridge.Inventory.Topology

open Foundation.Checked Foundation.NumberSets Foundation.Text Inventory.Devices List

structure CPUPoolSnapshot where
  generation : Int
  resourceSliceCount : Int
  slices : List ResourceSlice

abbrev Snapshots := AList (fun _ : String => CPUPoolSnapshot)

/-- A CPU slice without a node name must not claim nodes in another way. -/
def claimsOtherNodes (slice : ResourceSlice) : Prop :=
  slice.driver = draDriverCpu ∧ slice.nodeName = none ∧
    (slice.nodeSelector.isSome = true ∨ slice.allNodes.getD false = true ∨
      slice.perDeviceNodeSelection.getD false = true)

instance (slice : ResourceSlice) : Decidable (claimsOtherNodes slice) :=
  inferInstanceAs (Decidable (_ ∧ _ ∧ _))

def isLocal (nodeName : String) (slice : ResourceSlice) : Bool :=
  slice.driver = draDriverCpu ∧ slice.nodeName.getD "" = nodeName

def enterSlice (snapshots : Snapshots) (slice : ResourceSlice) : Except String Snapshots :=
  let pool := slice.pool
  let fresh : CPUPoolSnapshot := ⟨pool.generation, pool.resourceSliceCount, [slice]⟩
  match snapshots.lookup pool.name with
  | none => pure (snapshots.insert pool.name fresh)
  | some snapshot =>
    if pool.generation > snapshot.generation then
      pure (snapshots.insert pool.name fresh)
    else if pool.generation < snapshot.generation then
      pure snapshots
    else do
      require (pool.resourceSliceCount = snapshot.resourceSliceCount)
        ("DRA CPU resource pool " ++ pool.name.quote ++ " generation " ++
          toString snapshot.generation ++ " has inconsistent resourceSliceCount values " ++
          toString snapshot.resourceSliceCount ++ " and " ++ toString pool.resourceSliceCount)
      return snapshots.insert pool.name { snapshot with slices := snapshot.slices ++ [slice] }

def visitSlice (nodeName : String) (snapshots : Snapshots) (slice : ResourceSlice) :
    Except String Snapshots := do
  require (¬ claimsOtherNodes slice) "CPU inventory requires a node-local ResourceSlice"
  if isLocal nodeName slice then
    require (slice.pool.name ≠ "" ∧ 0 ≤ slice.pool.generation ∧ 0 < slice.pool.resourceSliceCount)
      ("invalid CPU ResourceSlice pool " ++ slice.pool.name.quote)
    require (slice.perDeviceNodeSelection.getD false = false) "CPU per-device node selection is unsupported"
    enterSlice snapshots slice
  else
    return snapshots

/-- The node's only CPU pool and the slices of its newest generation, sorted by name. -/
def selectCPUResourcePool (nodeName : String) (slices : List ResourceSlice) :
    Except String (String × List ResourceSlice) := do
  let snapshots ← slices.foldlM (visitSlice nodeName) ∅
  match snapshots.entries with
  | [] => return ("", [])
  | [⟨pool, snapshot⟩] =>
    require ((snapshot.slices.length : Int) = snapshot.resourceSliceCount)
      ("DRA CPU resource pool " ++ pool.quote ++ " generation " ++
        toString snapshot.generation ++ " is incomplete: found " ++
        numeral snapshot.slices.length ++ " of " ++ toString snapshot.resourceSliceCount ++
        " ResourceSlices")
    return (pool, snapshot.slices.insertionSort (fun a b => a.name ≤ b.name))
  | _ => throw ("DRA CPU inventory for node " ++ nodeName.quote ++ " spans multiple resource pools " ++
      toString ((snapshots.keys.insertionSort (· ≤ ·)).map String.quote))

/-- The CPU topology of a node.  `infos` are the CPUs in the order of `newCPUMap`. -/
structure NodeInfo where
  pool : String
  infos : List CPUInfo
  abstractToMachine : List CPUSet
  cpuDevices : List Device

/-- Sockets come before their NUMA nodes. -/
def numaKey : Option Nat → Nat
  | none => 0
  | some node => node + 1

def cpuBefore (a b : CPUInfo) : Prop :=
  a.socketID < b.socketID ∨ a.socketID = b.socketID ∧
    (numaKey a.numaNodeID < numaKey b.numaNodeID ∨ numaKey a.numaNodeID = numaKey b.numaNodeID ∧
      (a.coreID < b.coreID ∨ a.coreID = b.coreID ∧ a.cpuID ≤ b.cpuID))

instance : DecidableRel cpuBefore := fun _ _ => inferInstanceAs (Decidable (_ ∨ _))

instance : Std.Total cpuBefore := ⟨fun a b => by unfold cpuBefore; omega⟩

instance : IsTrans CPUInfo cpuBefore := ⟨fun a b c => by unfold cpuBefore; omega⟩

def deviceBefore (a b : Device) : Prop :=
  (cpuDeviceGroupOf a).socket < (cpuDeviceGroupOf b).socket ∨
    (cpuDeviceGroupOf a).socket = (cpuDeviceGroupOf b).socket ∧
      (numaKey (cpuDeviceGroupOf a).numaNode < numaKey (cpuDeviceGroupOf b).numaNode ∨
        numaKey (cpuDeviceGroupOf a).numaNode = numaKey (cpuDeviceGroupOf b).numaNode ∧ a.name ≤ b.name)

instance : DecidableRel deviceBefore := fun _ _ => inferInstanceAs (Decidable (_ ∨ _))

instance : Std.Total deviceBefore := ⟨fun a b => by
  grind [deviceBefore]⟩

instance : IsTrans Device deviceBefore := ⟨fun a b c => by
  grind [deviceBefore]⟩

/-- The devices in the order in which they are allocated and fingerprinted. -/
def NodeInfo.sortedCPUDevices (n : NodeInfo) : List Device :=
  n.cpuDevices.insertionSort deviceBefore

def findCoreSiblings (infos : List CPUInfo) (sibling : CPUInfo) : CPUSet :=
  .ofList ((infos.filter fun info =>
    info.socketID = sibling.socketID ∧ info.coreID = sibling.coreID).map (·.cpuID))

/-- Slurm's abstract cores: each core once, in the order of its first CPU.  Slurm does not
enumerate efficiency cores. -/
def abstractCores (infos : List CPUInfo) : List CPUSet :=
  infos.foldl (fun cores info =>
    if info.coreType = .efficiency then cores
    else if findCoreSiblings infos info ∈ cores then cores
    else cores ++ [findCoreSiblings infos info]) []

def newCPUMap (pool : String) (infos : List CPUInfo) (devices : List Device) : NodeInfo :=
  let infos := infos.insertionSort cpuBefore
  ⟨pool, infos, abstractCores infos, devices⟩

def NodeInfo.cpuInfo (n : NodeInfo) (cpu : Nat) : Option CPUInfo :=
  n.infos.find? (·.cpuID = cpu)

def NodeInfo.coreGroup (n : NodeInfo) (cpus : CPUSet) : Option CPUDeviceGroup := do
  let first ← cpus.list.head?
  let info ← n.cpuInfo first
  return info.deviceGroup

/-- Sockets, cores per socket and threads per core.  Sockets must have equal numbers of
cores, and cores equal numbers of threads. -/
def NodeInfo.geometry (n : NodeInfo) : Except String (Nat × Nat × Nat) :=
  match n.abstractToMachine with
  | [] => pure (0, 0, 0)
  | first :: _ => do
      let threads := first.size
      require (∀ cpus ∈ n.abstractToMachine, cpus.size = threads) "non-uniform threads per core"
      let groups := n.abstractToMachine.map n.coreGroup
      let cores := groups.dedup.map groups.count
      let coresPerSocket := cores.headD 0
      require (∀ count ∈ cores, count = coresPerSocket) "non-uniform cores per socket after CPU reservations"
      require (groups.dedup.length = (n.cpuDevices.map cpuDeviceGroupOf).dedup.length)
        "CPU device inventory does not match CPU mapping"
      return (groups.dedup.length, coresPerSocket, threads)

def CPUDeviceGroup.toText (group : CPUDeviceGroup) : String :=
  match group.numaNode with
  | none => "socket " ++ numeral group.socket
  | some node => "NUMA node " ++ numeral node

/-- The devices and CPUs gathered so far, each with the slice it came from. -/
structure Gathered where
  devices : List (String × Device) := []
  cpus : List (String × CPUInfo) := []

def gatherDevice (sliceName : String) (gathered : Gathered) (device : Device) : Except String Gathered := do
  absent (fun previous => "duplicate device name " ++ device.name.quote ++ " in ResourceSlices " ++
      previous.1.quote ++ " and " ++ sliceName.quote)
    (gathered.devices.find? (·.2.name = device.name))
  absent (fun previous => "devices " ++ previous.2.name.quote ++ " and " ++ device.name.quote ++
      " both represent " ++ CPUDeviceGroup.toText (cpuDeviceGroupOf device))
    (gathered.devices.find? (cpuDeviceGroupOf ·.2 = cpuDeviceGroupOf device))
  return { gathered with devices := gathered.devices ++ [(sliceName, device)] }

def gatherCPU (pool sliceName : String) (gathered : Gathered) (info : CPUInfo) : Except String Gathered := do
  absent (fun previous => "DRA CPU resource pool " ++ pool.quote ++ " contains duplicate CPU ID " ++
      numeral info.cpuID ++ " in ResourceSlices " ++ previous.1.quote ++ " and " ++ sliceName.quote)
    (gathered.cpus.find? (·.2.cpuID = info.cpuID))
  return { gathered with cpus := gathered.cpus ++ [(sliceName, info)] }

def gatherSlice (pool : String) (gathered : Gathered) (slice : ResourceSlice) : Except String Gathered := do
  let infos ← newCPUInfos slice
  let gathered ← slice.devices.foldlM (gatherDevice slice.name) gathered
  infos.foldlM (gatherCPU pool slice.name) gathered

def checkNUMASocket (seen : List CPUDeviceGroup) (group : CPUDeviceGroup) :
    Except String (List CPUDeviceGroup) :=
  match group.numaNode with
  | none => pure seen
  | some node => do
      absent (fun previous : CPUDeviceGroup => "NUMA node " ++ numeral node ++ " spans sockets " ++
          numeral previous.socket ++ " and " ++ numeral group.socket)
        (seen.find? fun previous => previous.numaNode = some node ∧ previous.socket ≠ group.socket)
      return seen ++ [group]

/-- Reject mixed grouping and NUMA nodes spanning sockets. -/
def validateCPUDeviceGroups (groups : List CPUDeviceGroup) : Except String Unit := do
  let numaGrouped ← groups.foldlM checkNUMASocket []
  require (numaGrouped = [] ∨ numaGrouped.length = groups.length)
    "CPU devices mix socket and NUMA node grouping"

def checkCoreType (pool : String) (seen : List CPUInfo) (info : CPUInfo) : Except String (List CPUInfo) := do
  require (∀ other ∈ seen, other.socketID = info.socketID → other.coreID = info.coreID →
      other.coreType = info.coreType)
    ("DRA CPU resource pool " ++ pool.quote ++ " has inconsistent core types for socket " ++
      numeral info.socketID ++ " core " ++ numeral info.coreID)
  return seen ++ [info]

def validateCPUCoreTopology (pool : String) (infos : List CPUInfo) : Except String Unit := do
  let _ ← infos.foldlM (checkCoreType pool) []
  let cores := (infos.filter (·.coreType ≠ .efficiency)).map fun info => (info.socketID, info.coreID)
  let wantThreads := (cores.head?.map cores.count).getD 0
  absent (fun core : Nat × Nat => "DRA CPU resource pool " ++ pool.quote ++
      " has non-uniform topology: socket " ++ numeral core.1 ++ " core " ++ numeral core.2 ++
      " has " ++ numeral (cores.count core) ++ " threads, expected " ++ numeral wantThreads)
    (cores.find? fun core => cores.count core ≠ wantThreads)
  require (wantThreads ≠ 0)
    ("DRA CPU resource pool " ++ pool.quote ++ " contains no Slurm-compatible CPU devices")

/-- Siblings are never split over devices. -/
def checkSiblings (n : NodeInfo) (device : Device) : Except String Unit := do
  let siblings ← decodeSMTLayout (attributeText device attributeSMTLayout)
  n.infos.forM fun info =>
    require (info.name = device.name → ∀ sibling ∈ (siblings.lookup info.cpuID).join,
        ∀ other ∈ n.cpuInfo sibling, other.name = device.name)
      ("CPU " ++ numeral info.cpuID ++ " has a sibling in another socket or NUMA device")

/-- Build the CPU topology of a node from a ResourceSlice snapshot.  A node without CPU
slices has no topology. -/
def newNodeInfoFromResourceSlices (nodeName : String) (slices : List ResourceSlice) :
    Except String NodeInfo := do
  let (pool, cpuSlices) ← selectCPUResourcePool nodeName slices
  let gathered ← cpuSlices.foldlM (gatherSlice pool) {}
  let devices := gathered.devices.map Prod.snd
  let infos := gathered.cpus.map Prod.snd
  if infos = [] then
    return ⟨"", [], [], devices⟩
  else do
    validateCPUDeviceGroups (devices.map cpuDeviceGroupOf)
    validateCPUCoreTopology pool infos
    let nodeInfo := newCPUMap pool infos devices
    let _ ← nodeInfo.geometry
    devices.forM (checkSiblings nodeInfo)
    return nodeInfo

/-- A snapshot holds the newest slices of its pool among those visited. -/
structure Newest (nodeName : String) (visited : List ResourceSlice) (pool : String)
    (snapshot : CPUPoolSnapshot) : Prop where
  slices : snapshot.slices = visited.filter fun slice =>
    isLocal nodeName slice ∧ slice.pool.name = pool ∧ slice.pool.generation = snapshot.generation
  bound : ∀ slice ∈ visited, isLocal nodeName slice = true → slice.pool.name = pool →
    slice.pool.generation ≤ snapshot.generation
  nonempty : snapshot.slices ≠ []

/-- The snapshots describe the visited slices: one for each pool with a slice of the node. -/
def Summarizes (nodeName : String) (visited : List ResourceSlice) (snapshots : Snapshots) : Prop :=
  ∀ pool, match snapshots.lookup pool with
    | none => ∀ slice ∈ visited, isLocal nodeName slice = true → slice.pool.name ≠ pool
    | some snapshot => Newest nodeName visited pool snapshot

section
variable {nodeName : String} {visited : List ResourceSlice} {snapshots snapshots' : Snapshots}
  {slice : ResourceSlice}

private theorem newest_fresh (isOwn : isLocal nodeName slice = true)
    (older : ∀ other ∈ visited, isLocal nodeName other = true →
      other.pool.name = slice.pool.name → other.pool.generation < slice.pool.generation) :
    Newest nodeName (visited ++ [slice]) slice.pool.name
      ⟨slice.pool.generation, slice.pool.resourceSliceCount, [slice]⟩ where
  slices := by
    have none : visited.filter (fun other => decide (isLocal nodeName other = true ∧
        other.pool.name = slice.pool.name ∧ other.pool.generation = slice.pool.generation)) = [] := by
      rw [filter_eq_nil_iff]
      intro other member same
      simp only [decide_eq_true_eq] at same
      have := older other member same.1 same.2.1
      omega
    rw [filter_append, none]
    simp [isOwn]
  bound := forall_mem_snoc (fun other old own pool => (older other old own pool).le) fun _ _ => le_rfl
  nonempty := by simp

variable {snapshot : CPUPoolSnapshot}

private theorem newest_skip {pool : String} (newest : Newest nodeName visited pool snapshot)
    (skipped : isLocal nodeName slice = true → slice.pool.name = pool → slice.pool.generation < snapshot.generation) :
    Newest nodeName (visited ++ [slice]) pool snapshot where
  slices := by
    have out : ¬ (isLocal nodeName slice = true ∧ slice.pool.name = pool ∧
        slice.pool.generation = snapshot.generation) := by
      rintro ⟨own, same, generation⟩
      have := skipped own same
      omega
    rw [filter_append, filter_singleton, decide_eq_false out, newest.slices]
    simp
  bound := forall_mem_snoc newest.bound fun own same => (skipped own same).le
  nonempty := newest.nonempty

private theorem newest_extend (isOwn : isLocal nodeName slice = true)
    (newest : Newest nodeName visited slice.pool.name snapshot)
    (generation : slice.pool.generation = snapshot.generation) :
    Newest nodeName (visited ++ [slice]) slice.pool.name
      { snapshot with slices := snapshot.slices ++ [slice] } where
  slices := by
    simp only
    rw [filter_append, filter_singleton,
      decide_eq_true (⟨isOwn, rfl, generation⟩ : _ ∧ _ ∧ _), newest.slices]
    simp
  bound := forall_mem_snoc newest.bound fun _ _ => generation.le
  nonempty := by simp

section
variable (before : Summarizes nodeName visited snapshots)

include before

private theorem summarizes_insert (entered : Newest nodeName (visited ++ [slice]) slice.pool.name snapshot) :
    Summarizes nodeName (visited ++ [slice]) (snapshots.insert slice.pool.name snapshot) := by
  intro pool
  by_cases own : pool = slice.pool.name
  · subst own
    rw [AList.lookup_insert]
    exact entered
  · rw [AList.lookup_insert_ne own]
    have now := before pool
    split at now
    · exact forall_mem_snoc now fun _ => Ne.symm own
    · exact newest_skip now (fun _ same => absurd same.symm own)

private theorem summarizes_keep (foreign : isLocal nodeName slice = false) :
    Summarizes nodeName (visited ++ [slice]) snapshots := by
  intro pool
  have now := before pool
  split at now
  · exact forall_mem_snoc now fun isOwn => by rw [foreign] at isOwn; cases isOwn
  · exact newest_skip now (fun own _ => by rw [foreign] at own; cases own)

private theorem summarizes_enterSlice
    (isOwn : isLocal nodeName slice = true) (entered : enterSlice snapshots slice = .ok snapshots') :
    Summarizes nodeName (visited ++ [slice]) snapshots' := by
  have now := before slice.pool.name
  unfold enterSlice at entered
  simp only at entered
  split at entered
  · rename_i missing
    rw [missing] at now
    simp only [pure_eq_ok] at entered
    subst entered
    exact summarizes_insert before
      (newest_fresh isOwn (fun other member own same => absurd same (now other member own)))
  · rename_i snapshot found
    rw [found] at now
    split at entered
    · rename_i newer
      simp only [pure_eq_ok] at entered
      subst entered
      refine summarizes_insert before (newest_fresh isOwn ?_)
      intro other member own same
      have := now.bound other member own same
      omega
    · split at entered
      · rename_i older
        simp only [pure_eq_ok] at entered
        subst entered
        intro pool
        have kept := before pool
        split at kept
        · refine forall_mem_snoc kept fun own => ?_
          rintro rfl
          simp_all
        · rename_i snapshot' found'
          refine newest_skip kept ?_
          rintro - rfl
          rw [found] at found'
          cases found'
          exact older
      · obtain ⟨_, -, same⟩ := bind_eq_ok.mp entered
        simp only [pure_eq_ok] at same
        subst same
        exact summarizes_insert before (newest_extend isOwn now (by omega))

private theorem summarizes_visitSlice (visit : visitSlice nodeName snapshots slice = .ok snapshots') :
    Summarizes nodeName (visited ++ [slice]) snapshots' := by
  obtain ⟨_, -, rest⟩ := bind_eq_ok.mp visit
  split at rest
  · rename_i isOwn
    obtain ⟨_, -, rest⟩ := bind_eq_ok.mp rest
    obtain ⟨_, -, entered⟩ := bind_eq_ok.mp rest
    exact summarizes_enterSlice before isOwn entered
  · rename_i foreign
    simp only [pure_eq_ok] at rest
    subst rest
    exact summarizes_keep before (by simpa using foreign)

end

end

def isNewest (nodeName : String) (slices : List ResourceSlice) (slice : ResourceSlice) : Bool :=
  isLocal nodeName slice ∧
    ∀ other ∈ slices, isLocal nodeName other = true → other.pool.generation ≤ slice.pool.generation

variable {nodeName : String} {slices : List ResourceSlice} {snapshots : Snapshots}

theorem summarizes_loop (loop : slices.foldlM (visitSlice nodeName) ∅ = .ok snapshots) :
    Summarizes nodeName slices snapshots := by
  have start : Summarizes nodeName [] ∅ := by
    intro pool
    simp
  exact foldlM_ok (Summarizes nodeName) (fun _ _ _ _ before visit => summarizes_visitSlice before visit)
    start loop

theorem Summarizes.foreign (summary : Summarizes nodeName slices snapshots)
    (noEntries : snapshots.entries = []) : ∀ slice ∈ slices, ¬ isLocal nodeName slice = true := by
  intro slice member own
  have missing := summary slice.pool.name
  rw [show snapshots.lookup slice.pool.name = none by simp [AList.lookup, noEntries]] at missing
  exact missing slice member own rfl

theorem Summarizes.single {only : String} {snapshot : CPUPoolSnapshot}
    (summary : Summarizes nodeName slices snapshots) (oneEntry : snapshots.entries = [⟨only, snapshot⟩]) :
    (∀ slice ∈ slices, isLocal nodeName slice = true → slice.pool.name = only) ∧
      snapshot.slices ≠ [] ∧ snapshot.slices = slices.filter (isNewest nodeName slices) := by
  have newest := summary only
  have found : snapshots.lookup only = some snapshot := by simp [AList.lookup, oneEntry]
  rw [found] at newest
  have onePool : ∀ slice ∈ slices, isLocal nodeName slice = true → slice.pool.name = only := by
    intro slice member own
    by_contra other
    have missing := summary slice.pool.name
    have none : snapshots.lookup slice.pool.name = none := by
      rw [AList.lookup, oneEntry, dlookup_cons_ne _ _ other, dlookup_nil]
    rw [none] at missing
    exact missing slice member own rfl
  refine ⟨onePool, newest.nonempty, ?_⟩
  -- The snapshot's generation is reached by a slice, so it is the greatest one.
  obtain ⟨reached, inSnapshot⟩ := exists_mem_of_ne_nil _ newest.nonempty
  have attained : reached ∈ slices ∧ isLocal nodeName reached = true ∧
      reached.pool.generation = snapshot.generation := by
    rw [newest.slices, mem_filter] at inSnapshot
    simp only [decide_eq_true_eq] at inSnapshot
    exact ⟨inSnapshot.1, inSnapshot.2.1, inSnapshot.2.2.2⟩
  rw [newest.slices]
  refine filter_congr ?_
  intro slice member
  simp only [isNewest, decide_eq_decide]
  constructor
  · rintro ⟨own, -, generation⟩
    refine ⟨own, fun other otherMember otherOwn => ?_⟩
    rw [generation]
    exact newest.bound other otherMember otherOwn (onePool other otherMember otherOwn)
  · rintro ⟨own, greatest⟩
    have upper := newest.bound slice member own (onePool slice member own)
    have lower := greatest reached attained.1 attained.2.1
    exact ⟨own, onePool slice member own, by omega⟩

variable {pool : String}

theorem selectCPUResourcePool_ok {chosen : List ResourceSlice}
    (selected : selectCPUResourcePool nodeName slices = .ok (pool, chosen)) :
    chosen.Perm (slices.filter (isNewest nodeName slices)) ∧
      ∀ slice ∈ slices, isLocal nodeName slice = true → slice.pool.name = pool ∧ chosen ≠ [] := by
  obtain ⟨snapshots, loop, result⟩ := bind_eq_ok.mp selected
  have summary := summarizes_loop loop
  split at result
  · rename_i noEntries
    have foreign := summary.foreign noEntries
    simp only [pure_eq_ok, Prod.mk.injEq] at result
    refine ⟨?_, fun slice member own => absurd own (foreign slice member)⟩
    rw [← result.2, filter_eq_nil_iff.mpr]
    intro slice member newest
    simp only [isNewest, decide_eq_true_eq] at newest
    exact foreign slice member newest.1
  · rename_i only snapshot oneEntry
    obtain ⟨_, -, rest⟩ := bind_eq_ok.mp result
    obtain ⟨rfl, rfl⟩ := rest
    obtain ⟨onePool, nonempty, newest⟩ := summary.single oneEntry
    have sortedPerm := perm_insertionSort (fun a b : ResourceSlice => a.name ≤ b.name)
      snapshot.slices
    refine ⟨sortedPerm.trans (.of_eq newest), fun slice member own => ⟨onePool slice member own, ?_⟩⟩
    exact fun none => nonempty (sortedPerm.symm.trans (.of_eq none)).eq_nil
  · simp at result

/-- What the checks across slices establish of the devices and CPUs gathered. -/
structure Consistent (gathered : Gathered) : Prop where
  names : (gathered.devices.map (·.2.name)).Nodup
  groups : (gathered.devices.map (cpuDeviceGroupOf ·.2)).Nodup
  ids : (gathered.cpus.map (·.2.cpuID)).Nodup

private theorem nodup_snoc_of_find? {α β : Type} [DecidableEq β] {l : List α} {f : α → β} {a : α}
    (nodup : (l.map f).Nodup) (fresh : l.find? (fun b => decide (f b = f a)) = none) :
    ((l ++ [a]).map f).Nodup := by
  rw [map_append, map_singleton, nodup_append]
  refine ⟨nodup, nodup_singleton _, ?_⟩
  intro b member c last same
  obtain ⟨x, inList, rfl⟩ := mem_map.mp member
  rw [mem_singleton.mp last] at same
  have differs := find?_eq_none.mp fresh x inList
  simp [same] at differs

variable {sliceName : String} {gathered gathered' : Gathered}

private theorem gatherDevices_ok {devices : List Device} (consistent : Consistent gathered)
    (loop : devices.foldlM (gatherDevice sliceName) gathered = .ok gathered') :
    Consistent gathered' ∧ gathered'.devices.map Prod.snd = gathered.devices.map Prod.snd ++ devices ∧
      gathered'.cpus = gathered.cpus := by
  refine foldlM_ok (fun visited now => Consistent now ∧
    now.devices.map Prod.snd = gathered.devices.map Prod.snd ++ visited ∧
      now.cpus = gathered.cpus) ?_ ⟨consistent, by simp, rfl⟩ loop
  rintro visited device now next ⟨sound, devicesEq, cpusEq⟩ step
  obtain ⟨_, nameFresh, rest⟩ := bind_eq_ok.mp step
  obtain ⟨_, groupFresh, same⟩ := bind_eq_ok.mp rest
  simp only [absent_eq_ok] at nameFresh groupFresh
  simp only [pure_eq_ok] at same
  subst same
  refine ⟨⟨?_, ?_, sound.ids⟩, by simp [devicesEq], cpusEq⟩
  · exact nodup_snoc_of_find? (f := fun entry : String × Device => entry.2.name)
      (a := (sliceName, device)) sound.names nameFresh
  · exact nodup_snoc_of_find? (f := fun entry : String × Device => cpuDeviceGroupOf entry.2)
      (a := (sliceName, device)) sound.groups groupFresh

variable {infos : List CPUInfo}

private theorem gatherCPUs_ok (consistent : Consistent gathered)
    (loop : infos.foldlM (gatherCPU pool sliceName) gathered = .ok gathered') :
    Consistent gathered' ∧ gathered'.devices = gathered.devices ∧
      gathered'.cpus.map Prod.snd = gathered.cpus.map Prod.snd ++ infos := by
  refine foldlM_ok (fun visited now => Consistent now ∧ now.devices = gathered.devices ∧
    now.cpus.map Prod.snd = gathered.cpus.map Prod.snd ++ visited) ?_ ⟨consistent, rfl, by simp⟩ loop
  rintro visited info now next ⟨sound, devicesEq, cpusEq⟩ step
  obtain ⟨_, fresh, same⟩ := bind_eq_ok.mp step
  simp only [absent_eq_ok] at fresh
  simp only [pure_eq_ok] at same
  subst same
  refine ⟨⟨sound.names, sound.groups, ?_⟩, devicesEq, by simp [cpusEq]⟩
  exact nodup_snoc_of_find? (f := fun entry : String × CPUInfo => entry.2.cpuID)
    (a := (sliceName, info)) sound.ids fresh

theorem newCPUInfos_ok {slice : ResourceSlice} (expanded : newCPUInfos slice = .ok infos) :
    slice.devices ≠ [] ∧ (∀ device ∈ slice.devices, Expanded device) ∧
      infos = slice.devices.flatMap cpuInfosOf := by
  obtain ⟨_, -, rest⟩ := bind_eq_ok.mp expanded
  obtain ⟨_, some, rest⟩ := bind_eq_ok.mp rest
  obtain ⟨lists, each, flat⟩ := bind_eq_ok.mp rest
  simp only [require_eq_ok] at some
  simp only [pure_eq_ok] at flat
  obtain ⟨known, lists⟩ := mapM_ok (fun _ _ => newDeviceCPUInfos_ok) each
  refine ⟨some, known, ?_⟩
  rw [← flat, lists, List.flatMap]

theorem gatherSlices_ok (loop : slices.foldlM (gatherSlice pool) {} = .ok gathered) :
    Consistent gathered ∧ gathered.devices.map Prod.snd = slices.flatMap (·.devices) ∧
      gathered.cpus.map Prod.snd = (slices.flatMap (·.devices)).flatMap cpuInfosOf ∧
      ∀ slice ∈ slices, slice.devices ≠ [] ∧ ∀ device ∈ slice.devices, Expanded device := by
  refine foldlM_ok (fun visited now => Consistent now ∧ now.devices.map Prod.snd = visited.flatMap (·.devices) ∧
    now.cpus.map Prod.snd = (visited.flatMap (·.devices)).flatMap cpuInfosOf ∧
    ∀ slice ∈ visited, slice.devices ≠ [] ∧ ∀ device ∈ slice.devices, Expanded device) ?_
      ⟨⟨by simp, by simp, by simp⟩, by simp, by simp, by simp⟩ loop
  rintro visited slice now next ⟨sound, devicesEq, cpusEq, known⟩ step
  obtain ⟨infos, expanded, rest⟩ := bind_eq_ok.mp step
  obtain ⟨middle, deviceLoop, cpuLoop⟩ := bind_eq_ok.mp rest
  obtain ⟨some, allExpanded, infosEq⟩ := newCPUInfos_ok expanded
  obtain ⟨sound', devicesEq', cpusEq'⟩ := gatherDevices_ok sound deviceLoop
  obtain ⟨sound'', devicesEq'', cpusEq''⟩ := gatherCPUs_ok sound' cpuLoop
  refine ⟨sound'', ?_, ?_, ?_⟩
  · simp [devicesEq'', devicesEq', devicesEq]
  · simp [cpusEq'', cpusEq', cpusEq, infosEq]
  · exact forall_mem_snoc known ⟨some, allExpanded⟩

/-- Devices are either all sockets or all NUMA nodes, and a NUMA node has one socket. -/
structure Grouped (groups : List CPUDeviceGroup) : Prop where
  uniform : (∀ group ∈ groups, group.numaNode = none) ∨ ∀ group ∈ groups, group.numaNode ≠ none
  oneSocket : ∀ group ∈ groups, ∀ other ∈ groups, group.numaNode ≠ none →
    group.numaNode = other.numaNode → group.socket = other.socket

theorem validateCPUDeviceGroups_ok {groups : List CPUDeviceGroup} {u : Unit}
    (valid : validateCPUDeviceGroups groups = .ok u) : Grouped groups := by
  obtain ⟨grouped, loop, uniform⟩ := bind_eq_ok.mp valid
  simp only [require_eq_ok] at uniform
  -- The loop keeps the NUMA groups, no two of which share a node but not a socket.
  have kept : grouped = groups.filter (·.numaNode ≠ none) ∧
      ∀ group ∈ grouped, ∀ other ∈ grouped, group.numaNode = other.numaNode → group.socket = other.socket := by
    refine foldlM_ok (fun visited seen => seen = visited.filter (·.numaNode ≠ none) ∧
      ∀ group ∈ seen, ∀ other ∈ seen, group.numaNode = other.numaNode →
        group.socket = other.socket) ?_ ⟨rfl, by simp⟩ loop
    rintro visited group seen seen' ⟨seenEq, agree⟩ step
    unfold checkNUMASocket at step
    split at step
    · rename_i socketGroup
      simp only [pure_eq_ok] at step
      subst step
      exact ⟨by simp [filter_append, seenEq, socketGroup], agree⟩
    · rename_i node numaGroup
      obtain ⟨_, fresh, same⟩ := bind_eq_ok.mp step
      simp only [absent_eq_ok] at fresh
      simp only [pure_eq_ok] at same
      subst same
      have agreesNew : ∀ other ∈ seen, other.numaNode = some node → other.socket = group.socket := by
        intro other member sameNode
        by_contra differs
        exact find?_eq_none.mp fresh other member (by simp [sameNode, differs])
      refine ⟨by simp [filter_append, seenEq, numaGroup], ?_⟩
      intro a memberA b memberB sameNode
      rcases mem_append.mp memberA with oldA | newA <;>
        rcases mem_append.mp memberB with oldB | newB
      · exact agree a oldA b oldB sameNode
      · rw [mem_singleton.mp newB] at sameNode ⊢
        exact agreesNew a oldA (sameNode.trans numaGroup)
      · rw [mem_singleton.mp newA] at sameNode ⊢
        exact (agreesNew b oldB (sameNode.symm.trans numaGroup)).symm
      · rw [mem_singleton.mp newA, mem_singleton.mp newB]
  obtain ⟨filtered, agree⟩ := kept
  refine ⟨?_, ?_⟩
  · rcases uniform with noneGrouped | allGrouped
    · left
      intro group member
      by_contra numa
      have inside : group ∈ grouped := by
        rw [filtered, mem_filter]
        exact ⟨member, by simpa using numa⟩
      rw [noneGrouped] at inside
      cases inside
    · right
      intro group member
      rw [filtered, length_filter_eq_length_iff] at allGrouped
      simpa using allGrouped group member
  · intro group member other otherMember numa same
    have inside : ∀ g ∈ groups, g.numaNode ≠ none → g ∈ grouped := by
      intro g memberG numaG
      rw [filtered, mem_filter]
      exact ⟨memberG, by simpa using numaG⟩
    exact agree group (inside group member numa) other (inside other otherMember (same ▸ numa)) same

def currentDevices (nodeName : String) (slices : List ResourceSlice) : List Device :=
  (slices.filter (isNewest nodeName slices)).flatMap (·.devices)

theorem abstractCores_spec (infos : List CPUInfo) :
    (abstractCores infos).Nodup ∧ ∀ core, core ∈ abstractCores infos ↔
      ∃ info ∈ infos, info.coreType ≠ .efficiency ∧ core = findCoreSiblings infos info := by
  -- The siblings are looked up in the whole list while the loop visits it.
  have loop : ∀ visited : List CPUInfo, (visited.foldl (fun cores info =>
        if info.coreType = .efficiency then cores
        else if findCoreSiblings infos info ∈ cores then cores
        else cores ++ [findCoreSiblings infos info]) []).Nodup ∧
      ∀ core, core ∈ visited.foldl (fun cores info =>
        if info.coreType = .efficiency then cores
        else if findCoreSiblings infos info ∈ cores then cores
        else cores ++ [findCoreSiblings infos info]) [] ↔
        ∃ info ∈ visited, info.coreType ≠ .efficiency ∧ core = findCoreSiblings infos info := by
    intro visited
    induction visited using List.reverseRecOn with
    | nil => simp
    | append_singleton visited info ih =>
      obtain ⟨nodup, known⟩ := ih
      simp only [foldl_append, foldl_cons, foldl_nil, mem_append,
        mem_singleton, or_and_right, exists_or, exists_eq_left]
      split
      · rename_i efficiency
        exact ⟨nodup, fun core => by simp [known core, efficiency]⟩
      · rename_i standard
        split
        · rename_i listed
          refine ⟨nodup, fun core => ⟨fun member => .inl ((known core).mp member), ?_⟩⟩
          rintro (old | ⟨-, rfl⟩)
          · exact (known core).mpr old
          · exact listed
        · rename_i fresh
          refine ⟨nodup_append.mpr ⟨nodup, nodup_singleton _, ?_⟩, fun core => ?_⟩
          · intro core member other last same
            rw [mem_singleton.mp last] at same
            exact fresh (same ▸ member)
          · rw [mem_append, mem_singleton, known core]
            simp [standard]
  exact loop infos

theorem mem_findCoreSiblings {sibling : CPUInfo} {cpu : Nat} :
    cpu ∈ findCoreSiblings infos sibling ↔ ∃ info ∈ infos, info.cpuID = cpu ∧
      info.socketID = sibling.socketID ∧ info.coreID = sibling.coreID := by
  simp only [findCoreSiblings, NumberSet.mem_ofList, mem_map, mem_filter,
    decide_eq_true_eq]
  constructor
  · rintro ⟨info, ⟨member, socket, core⟩, id⟩
    exact ⟨info, member, id, socket, core⟩
  · rintro ⟨info, member, id, socket, core⟩
    exact ⟨info, ⟨member, socket, core⟩, id⟩

/-- What is known of a topology built from ResourceSlices. -/
structure Accepted (nodeName : String) (slices : List ResourceSlice) (n : NodeInfo) : Prop where
  current : n.cpuDevices.Perm (currentDevices nodeName slices)
  pool : ∀ slice ∈ slices, isLocal nodeName slice = true → slice.pool.name = n.pool
  expanded : ∀ device ∈ n.cpuDevices, Expanded device
  names : (n.cpuDevices.map (·.name)).Nodup
  groups : (n.cpuDevices.map cpuDeviceGroupOf).Nodup
  grouped : Grouped (n.cpuDevices.map cpuDeviceGroupOf)
  infos : n.infos.Perm (n.cpuDevices.flatMap cpuInfosOf)
  sorted : n.infos.Pairwise cpuBefore
  ids : (n.infos.map (·.cpuID)).Nodup
  cores : n.abstractToMachine = abstractCores n.infos
  geometry : ∃ geometry, n.geometry = .ok geometry

theorem newNodeInfoFromResourceSlices_ok {n : NodeInfo}
    (built : newNodeInfoFromResourceSlices nodeName slices = .ok n) : Accepted nodeName slices n := by
  obtain ⟨⟨pool, chosen⟩, selected, rest⟩ := bind_eq_ok.mp built
  obtain ⟨gathered, loop, rest⟩ := bind_eq_ok.mp rest
  obtain ⟨perm, onePool⟩ := selectCPUResourcePool_ok selected
  obtain ⟨sound, devicesEq, cpusEq, known⟩ := gatherSlices_ok loop
  have current : (chosen.flatMap (·.devices)).Perm (currentDevices nodeName slices) :=
    perm.flatMap_right _
  have expanded : ∀ device ∈ chosen.flatMap (·.devices), Expanded device := by
    intro device member
    obtain ⟨slice, inChosen, inSlice⟩ := mem_flatMap.mp member
    exact (known slice inChosen).2 device inSlice
  have names : ((chosen.flatMap (·.devices)).map (·.name)).Nodup := by
    rw [← devicesEq, map_map]
    exact sound.names
  have groups : ((chosen.flatMap (·.devices)).map cpuDeviceGroupOf).Nodup := by
    rw [← devicesEq, map_map]
    exact sound.groups
  simp only [devicesEq, cpusEq] at rest
  split at rest
  · rename_i noCPUs
    simp only [pure_eq_ok] at rest
    subst rest
    have nothing : chosen = [] := by
      rw [eq_nil_iff_forall_not_mem]
      intro slice member
      obtain ⟨some, slices⟩ := known slice member
      obtain ⟨device, inSlice⟩ := exists_mem_of_ne_nil _ some
      have none := flatMap_eq_nil_iff.mp noCPUs device (mem_flatMap.mpr ⟨slice, member, inSlice⟩)
      exact (slices device inSlice).nonempty (map_eq_nil_iff.mp none)
    subst nothing
    exact {
      current
      pool := fun slice member own => absurd rfl (onePool slice member own).2
      expanded
      names
      groups
      grouped := ⟨.inl (by simp), by simp⟩
      infos := by simp
      sorted := .nil
      ids := by simp
      cores := rfl
      geometry := ⟨_, rfl⟩ }
  · obtain ⟨_, validGroups, rest⟩ := bind_eq_ok.mp rest
    obtain ⟨_, -, rest⟩ := bind_eq_ok.mp rest
    obtain ⟨geometry, uniform, rest⟩ := bind_eq_ok.mp rest
    obtain ⟨_, -, result⟩ := bind_eq_ok.mp rest
    simp only [pure_eq_ok] at result
    subst result
    have sortedPerm := perm_insertionSort cpuBefore ((chosen.flatMap (·.devices)).flatMap cpuInfosOf)
    exact {
      current
      pool := fun slice member own => (onePool slice member own).1
      expanded
      names
      groups
      grouped := validateCPUDeviceGroups_ok validGroups
      infos := sortedPerm
      sorted := pairwise_insertionSort _ _
      ids := by
        refine ((sortedPerm.map _).nodup_iff).mpr ?_
        rw [← cpusEq, map_map]
        exact sound.ids
      cores := rfl
      geometry := ⟨geometry, uniform⟩ }

section
variable {nodeName : String} {slices : List ResourceSlice} {n : NodeInfo}

theorem Accepted.nodup_cores (accepted : Accepted nodeName slices n) :
    n.abstractToMachine.Nodup := by
  rw [accepted.cores]
  exact (abstractCores_spec n.infos).1

theorem Accepted.core_unique (accepted : Accepted nodeName slices n) {core core' : CPUSet}
    (member : core ∈ n.abstractToMachine) (member' : core' ∈ n.abstractToMachine) {cpu : Nat}
    (inside : cpu ∈ core) (inside' : cpu ∈ core') : core = core' := by
  rw [accepted.cores] at member member'
  obtain ⟨a, -, -, rfl⟩ := ((abstractCores_spec n.infos).2 core).mp member
  obtain ⟨b, -, -, rfl⟩ := ((abstractCores_spec n.infos).2 core').mp member'
  obtain ⟨info, known, id, socket, coreID⟩ := mem_findCoreSiblings.mp inside
  obtain ⟨info', known', id', socket', coreID'⟩ := mem_findCoreSiblings.mp inside'
  have same : info = info' :=
    inj_on_of_nodup_map accepted.ids known known' (id.trans id'.symm)
  subst same
  simp only [findCoreSiblings, ← socket, ← coreID, ← socket', ← coreID']

theorem Accepted.cores_eq_nil_iff (accepted : Accepted nodeName slices n) :
    n.abstractToMachine = [] ↔ n.cpuDevices = [] := by
  rw [accepted.cores, eq_nil_iff_forall_not_mem, eq_nil_iff_forall_not_mem]
  constructor
  · intro none device member
    obtain ⟨cpu, listed⟩ := exists_mem_of_ne_nil _ (accepted.expanded device member).nonempty
    have inside := accepted.infos.mem_iff.mpr (mem_flatMap.mpr ⟨device, member, mem_map_of_mem listed⟩)
    exact none _ (((abstractCores_spec n.infos).2 _).mpr ⟨_, inside, by simp, rfl⟩)
  · intro none core member
    obtain ⟨info, inside, -⟩ := ((abstractCores_spec n.infos).2 core).mp member
    obtain ⟨device, listed, -⟩ := mem_flatMap.mp (accepted.infos.mem_iff.mp inside)
    exact none device listed

end

end SlurmBridge.Inventory.Topology
