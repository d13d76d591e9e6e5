/- source: internal/nodeinfo/nodeinfo.go
   digest: When the slices of a node's CPU pool are accepted, and that the topology built from them does
     not depend on their order. -/

import SlurmBridge.Foundation.Sorting
import SlurmBridge.Inventory.Topology

set_option autoImplicit false

namespace SlurmBridge.Inventory.Build

open scoped List
open Foundation.Checked Foundation.Sorting Inventory.Devices Inventory.Topology List

def buildNodeInfo (pool : String) (cpuSlices : List ResourceSlice) : Except String NodeInfo := do
  let gathered ← cpuSlices.foldlM (gatherSlice pool) {}
  let devices := gathered.devices.map Prod.snd
  let infos := gathered.cpus.map Prod.snd
  if infos = [] then
    return ⟨"", [], [], devices⟩
  else do
    validateCPUDeviceGroups (devices.map cpuDeviceGroupOf)
    validateCPUCoreTopology pool infos
    let nodeInfo := newCPUMap pool infos devices
    let _ ← nodeInfo.geometry
    devices.forM (checkSiblings nodeInfo)
    return nodeInfo

theorem newNodeInfoFromResourceSlices_eq (nodeName : String) (slices : List ResourceSlice) :
    newNodeInfoFromResourceSlices nodeName slices =
      selectCPUResourcePool nodeName slices >>= fun selected => buildNodeInfo selected.1 selected.2 := rfl

/-- The same topology.  The devices are a map by their names, so that their order is of no account. -/
structure SameTopology (n n' : NodeInfo) : Prop where
  pool : n.pool = n'.pool
  infos : n.infos = n'.infos
  cores : n.abstractToMachine = n'.abstractToMachine
  devices : n.cpuDevices ~ n'.cpuDevices

variable {n n' : NodeInfo}

theorem SameTopology.symm (same : SameTopology n n') : SameTopology n' n :=
  ⟨same.pool.symm, same.infos.symm, same.cores.symm, same.devices.symm⟩

theorem SameTopology.trans {n'' : NodeInfo} (same : SameTopology n n') (same' : SameTopology n' n'') :
    SameTopology n n'' :=
  ⟨same.pool.trans same'.pool, same.infos.trans same'.infos, same.cores.trans same'.cores,
    same.devices.trans same'.devices⟩

section
variable {pool : String} {slices slices' : List ResourceSlice}

def infosOf (slices : List ResourceSlice) : List CPUInfo := (slices.flatMap (·.devices)).flatMap cpuInfosOf

/-- Every slice can be expanded, and no device name, no group and no CPU occurs twice. -/
structure Gatherable (slices : List ResourceSlice) : Prop where
  expandable : ∀ slice ∈ slices, ∃ infos, newCPUInfos slice = .ok infos
  names : ((slices.flatMap (·.devices)).map (·.name)).Nodup
  groups : ((slices.flatMap (·.devices)).map cpuDeviceGroupOf).Nodup
  ids : ((infosOf slices).map (·.cpuID)).Nodup

theorem Gatherable.perm (gatherable : Gatherable slices) (perm : slices ~ slices') : Gatherable slices' where
  expandable slice inside := gatherable.expandable slice (perm.symm.subset inside)
  names := (((perm.flatMap_right _).map _).nodup_iff).mp gatherable.names
  groups := (((perm.flatMap_right _).map _).nodup_iff).mp gatherable.groups
  ids := ((((perm.flatMap_right _).flatMap_right _).map _).nodup_iff).mp gatherable.ids

variable {gathered : Gathered}

theorem gatherable_of_loop (loop : slices.foldlM (gatherSlice pool) {} = .ok gathered) : Gatherable slices := by
  obtain ⟨sound, devices, cpus, -⟩ := gatherSlices_ok loop
  have expandable : ∀ slice ∈ slices, ∃ infos, newCPUInfos slice = .ok infos := by
    refine foldlM_ok (fun visited _ => ∀ slice ∈ visited, ∃ infos, newCPUInfos slice = .ok infos) ?_ nofun loop
    intro visited slice now next known step
    obtain ⟨infos, expanded, -⟩ := bind_eq_ok.mp step
    exact forall_mem_snoc known ⟨infos, expanded⟩
  refine ⟨expandable, ?_, ?_, ?_⟩
  · rw [← devices, map_map]
    exact sound.names
  · rw [← devices, map_map]
    exact sound.groups
  · rw [infosOf, ← cpus, map_map]
    exact sound.ids

private theorem find?_eq_none_of_nodup {α β : Type} [DecidableEq β] {l : List α} {f : α → β} {b : β} {rest : List β}
    (nodup : (l.map f ++ b :: rest).Nodup) : l.find? (fun a => decide (f a = b)) = none := by
  rw [find?_eq_none]
  intro a inside same
  exact (nodup_append.mp nodup).2.2 (f a) (mem_map_of_mem inside) b mem_cons_self (of_decide_eq_true same)

variable {sliceName : String}

private theorem gatherDevices_eq {devices : List Device}
    (names : (gathered.devices.map (·.2.name) ++ devices.map (·.name)).Nodup)
    (groups : (gathered.devices.map (cpuDeviceGroupOf ·.2) ++ devices.map cpuDeviceGroupOf).Nodup) :
    devices.foldlM (gatherDevice sliceName) gathered =
      .ok { gathered with devices := gathered.devices ++ devices.map (Prod.mk sliceName) } := by
  induction devices generalizing gathered with
  | nil => simp [pure, Except.pure]
  | cons device devices ih =>
    have step : gatherDevice sliceName gathered device =
        .ok { gathered with devices := gathered.devices ++ [(sliceName, device)] } := by
      refine bind_eq_ok.mpr ⟨(), absent_eq_ok.mpr (find?_eq_none_of_nodup names), ?_⟩
      exact bind_eq_ok.mpr ⟨(), absent_eq_ok.mpr (find?_eq_none_of_nodup groups), rfl⟩
    refine bind_eq_ok.mpr ⟨_, step, (ih (by simpa using names) (by simpa using groups)).trans ?_⟩
    simp

private theorem gatherCPUs_eq {infos : List CPUInfo}
    (ids : (gathered.cpus.map (·.2.cpuID) ++ infos.map (·.cpuID)).Nodup) :
    infos.foldlM (gatherCPU pool sliceName) gathered =
      .ok { gathered with cpus := gathered.cpus ++ infos.map (Prod.mk sliceName) } := by
  induction infos generalizing gathered with
  | nil => simp [pure, Except.pure]
  | cons info infos ih =>
    have step : gatherCPU pool sliceName gathered info =
        .ok { gathered with cpus := gathered.cpus ++ [(sliceName, info)] } :=
      bind_eq_ok.mpr ⟨(), absent_eq_ok.mpr (find?_eq_none_of_nodup ids), rfl⟩
    refine bind_eq_ok.mpr ⟨_, step, (ih (by simpa using ids)).trans ?_⟩
    simp

theorem gather_of_gatherable (pool : String) (gatherable : Gatherable slices) :
    ∃ gathered, slices.foldlM (gatherSlice pool) {} = .ok gathered ∧
      gathered.devices.map Prod.snd = slices.flatMap (·.devices) ∧ gathered.cpus.map Prod.snd = infosOf slices := by
  have start : ({} : Gathered).devices.map Prod.snd = ([] : List ResourceSlice).flatMap (·.devices) ∧
      ({} : Gathered).cpus.map Prod.snd = infosOf [] := ⟨rfl, rfl⟩
  refine foldlM_succeeds (fun visited (now : Gathered) => now.devices.map Prod.snd = visited.flatMap (·.devices) ∧
    now.cpus.map Prod.snd = infosOf visited) ?_ start
  rintro visited slice rest now rfl ⟨devices, cpus⟩
  obtain ⟨infos, expanded⟩ := gatherable.expandable slice (by simp)
  obtain ⟨-, -, infosEq⟩ := newCPUInfos_ok expanded
  have names := gatherable.names
  have groups := gatherable.groups
  have ids := gatherable.ids
  simp only [infosOf, flatMap_append, flatMap_cons, map_append] at names groups ids
  -- The slice continues the part of the lists that was gathered before it.
  rw [← append_assoc] at names groups ids
  have names := (nodup_append.mp names).1
  have groups := (nodup_append.mp groups).1
  have ids := (nodup_append.mp ids).1
  rw [← devices, map_map] at names groups
  rw [← infosOf, ← cpus, map_map, ← infosEq] at ids
  refine ⟨_, bind_eq_ok.mpr ⟨infos, expanded, bind_eq_ok.mpr ⟨_, gatherDevices_eq names groups, gatherCPUs_eq ids⟩⟩, ?_, ?_⟩
  · simp [devices, Function.comp_def]
  · simp [cpus, Function.comp_def, infosEq, infosOf]

end

def checkTopology (pool : String) (devices : List Device) (infos : List CPUInfo) : Except String NodeInfo :=
  if infos = [] then
    return ⟨"", [], [], devices⟩
  else do
    validateCPUDeviceGroups (devices.map cpuDeviceGroupOf)
    validateCPUCoreTopology pool infos
    let nodeInfo := newCPUMap pool infos devices
    let _ ← nodeInfo.geometry
    devices.forM (checkSiblings nodeInfo)
    return nodeInfo

variable {pool : String} {slices : List ResourceSlice}

theorem buildNodeInfo_ok_iff : buildNodeInfo pool slices = .ok n ↔
      Gatherable slices ∧ checkTopology pool (slices.flatMap (·.devices)) (infosOf slices) = .ok n := by
  constructor
  · intro built
    obtain ⟨gathered, loop, rest⟩ := bind_eq_ok.mp built
    obtain ⟨-, devices, cpus, -⟩ := gatherSlices_ok loop
    refine ⟨gatherable_of_loop loop, ?_⟩
    rw [infosOf, ← devices, devices, ← cpus]
    exact devices ▸ rest
  · rintro ⟨gatherable, checked⟩
    obtain ⟨gathered, loop, devices, cpus⟩ := gather_of_gatherable pool gatherable
    refine bind_eq_ok.mpr ⟨gathered, loop, ?_⟩
    rw [← devices, ← cpus] at checked
    exact checked

section
variable {pool : String} {devices devices' : List Device} {infos infos' : List CPUInfo}

variable {groups : List CPUDeviceGroup}

theorem validateCPUDeviceGroups_eq_ok : validateCPUDeviceGroups groups = .ok () ↔ Grouped groups := by
  refine ⟨validateCPUDeviceGroups_ok, fun grouped => ?_⟩
  -- The loop keeps the NUMA groups.
  have run : ∃ seen, groups.foldlM checkNUMASocket [] = .ok seen ∧ seen = groups.filter (·.numaNode ≠ none) := by
    refine foldlM_succeeds (fun (visited : List CPUDeviceGroup) seen => seen = visited.filter (·.numaNode ≠ none)) ?_ rfl
    rintro visited group rest seen rfl rfl
    unfold checkNUMASocket
    split
    next socket => exact ⟨_, rfl, by simp [filter_append, socket]⟩
    next node numa =>
      refine ⟨_, bind_eq_ok.mpr ⟨(), absent_eq_ok.mpr (find?_eq_none.mpr ?_), rfl⟩, by
        simp [filter_append, numa]⟩
      intro other inside differs
      obtain ⟨same, sockets⟩ := of_decide_eq_true differs
      exact sockets (grouped.oneSocket other (by simp [(mem_filter.mp inside).1]) group (by simp)
        (by simp [same]) (same.trans numa.symm))
  obtain ⟨seen, loop, kept⟩ := run
  refine bind_eq_ok.mpr ⟨seen, loop, require_eq_ok.mpr ?_⟩
  rw [kept]
  rcases grouped.uniform with sockets | nodes
  · left
    rw [filter_eq_nil_iff]
    intro group inside
    simp [sockets group inside]
  · right
    rw [length_filter_eq_length_iff]
    intro group inside
    simpa using nodes group inside

theorem grouped_perm {groups' : List CPUDeviceGroup} (grouped : Grouped groups) (perm : groups ~ groups') :
    Grouped groups' where
  uniform := grouped.uniform.imp (fun all group inside => all group (perm.symm.subset inside))
    (fun all group inside => all group (perm.symm.subset inside))
  oneSocket group inside other inside' :=
    grouped.oneSocket group (perm.symm.subset inside) other (perm.symm.subset inside')

def coreKey (info : CPUInfo) : Nat × Nat := (info.socketID, info.coreID)

theorem validateCPUCoreTopology_eq_ok (standard : ∀ info ∈ infos, info.coreType = .standard) :
    validateCPUCoreTopology pool infos = .ok () ↔ infos ≠ [] ∧
      ∀ info ∈ infos, ∀ other ∈ infos, (infos.map coreKey).count (coreKey info) = (infos.map coreKey).count (coreKey other) := by
  have types : ∃ seen, infos.foldlM (checkCoreType pool) [] = .ok seen ∧ seen = infos := by
    refine foldlM_succeeds (fun visited seen => seen = visited) ?_ rfl
    rintro visited info rest seen split rfl
    refine ⟨_, bind_eq_ok.mpr ⟨(), require_eq_ok.mpr ?_, rfl⟩, rfl⟩
    intro other inside _ _
    rw [standard other (by simp [split, inside]), standard info (by simp [split])]
  obtain ⟨_, loop, -⟩ := types
  have all : infos.filter (fun info => decide (info.coreType ≠ .efficiency)) = infos := by
    rw [filter_eq_self]
    intro info inside
    simp [standard info inside]
  unfold validateCPUCoreTopology
  have keys : (fun info : CPUInfo => (info.socketID, info.coreID)) = coreKey := rfl
  rw [loop]
  simp only [all, keys]
  cases infos with
  | nil => simp [require, absent, bind, Except.bind]
  | cons first rest =>
    have positive : 0 < ((first :: rest).map coreKey).count (coreKey first) :=
      count_pos_iff.mpr (mem_map_of_mem mem_cons_self)
    constructor
    · intro valid
      obtain ⟨_, -, valid⟩ := bind_eq_ok.mp valid
      obtain ⟨_, uniform, -⟩ := bind_eq_ok.mp valid
      rw [absent_eq_ok, find?_eq_none] at uniform
      have same : ∀ info ∈ first :: rest, ((first :: rest).map coreKey).count (coreKey info) =
          ((first :: rest).map coreKey).count (coreKey first) := by
        intro info inside
        simpa using uniform (coreKey info) (mem_map_of_mem inside)
      refine ⟨cons_ne_nil _ _, fun info inside other inside' => ?_⟩
      rw [same info inside, same other inside']
    · rintro ⟨-, same⟩
      refine bind_eq_ok.mpr ⟨_, rfl, bind_eq_ok.mpr ⟨(), absent_eq_ok.mpr (find?_eq_none.mpr ?_), require_eq_ok.mpr ?_⟩⟩
      · intro core inside
        obtain ⟨info, listed, rfl⟩ := mem_map.mp inside
        simpa using same info listed first mem_cons_self
      · exact positive.ne'

theorem validateCPUCoreTopology_perm (standard : ∀ info ∈ infos, info.coreType = .standard) (perm : infos ~ infos')
    (valid : validateCPUCoreTopology pool infos = .ok ()) : validateCPUCoreTopology pool infos' = .ok () := by
  obtain ⟨some, same⟩ := (validateCPUCoreTopology_eq_ok standard).mp valid
  rw [validateCPUCoreTopology_eq_ok fun info inside => standard info (perm.symm.subset inside)]
  refine ⟨fun none => some (perm.trans (.of_eq none)).eq_nil, fun info inside other inside' => ?_⟩
  rw [← (perm.map coreKey).count_eq, ← (perm.map coreKey).count_eq]
  exact same info (perm.symm.subset inside) other (perm.symm.subset inside')

theorem newCPUMap_sameTopology (pool : String) (ids : (infos.map (·.cpuID)).Nodup) (perm : infos ~ infos') (listed : devices ~ devices') :
    SameTopology (newCPUMap pool infos devices) (newCPUMap pool infos' devices') := by
  have sorted : infos.insertionSort cpuBefore = infos'.insertionSort cpuBefore := by
    refine insertionSort_eq_of_perm (fun a inside b inside' before after => ?_) perm
    have id : a.cpuID = b.cpuID := by
      unfold cpuBefore at before after
      omega
    exact inj_on_of_nodup_map ids inside inside' id
  exact ⟨rfl, sorted, congrArg abstractCores sorted, listed⟩

variable {n n' : NodeInfo}

theorem SameTopology.geometry (same : SameTopology n n') : n.geometry = n'.geometry := by
  obtain ⟨pool, infos, cores, devices⟩ := n
  obtain ⟨pool', infos', cores', devices'⟩ := n'
  obtain ⟨rfl, rfl, rfl, listed⟩ := same
  have count : (devices.map cpuDeviceGroupOf).dedup.length = (devices'.map cpuDeviceGroupOf).dedup.length :=
    ((listed.map _).dedup).length_eq
  unfold NodeInfo.geometry
  simp only [count]
  rfl

theorem SameTopology.checkSiblings (same : SameTopology n n') (device : Device) :
    Topology.checkSiblings n device = Topology.checkSiblings n' device := by
  unfold Topology.checkSiblings NodeInfo.cpuInfo
  rw [same.infos]

theorem checkTopology_perm (standard : ∀ info ∈ infos, info.coreType = .standard)
    (ids : (infos.map (·.cpuID)).Nodup) (perm : infos ~ infos') (listed : devices ~ devices')
    (checked : checkTopology pool devices infos = .ok n) :
    ∃ n', checkTopology pool devices' infos' = .ok n' ∧ SameTopology n n' := by
  unfold checkTopology at checked ⊢
  by_cases none : infos = []
  · subst none
    obtain rfl := pure_eq_ok.mp checked
    exact ⟨_, if_pos perm.nil_eq.symm, rfl, rfl, rfl, listed⟩
  · rw [if_neg none] at checked
    rw [if_neg fun none' => none (perm.trans (.of_eq none')).eq_nil]
    obtain ⟨_, groups, checked⟩ := bind_eq_ok.mp checked
    obtain ⟨_, cores, checked⟩ := bind_eq_ok.mp checked
    obtain ⟨_, geometry, checked⟩ := bind_eq_ok.mp checked
    obtain ⟨_, siblings, checked⟩ := bind_eq_ok.mp checked
    obtain rfl := pure_eq_ok.mp checked
    have same := newCPUMap_sameTopology pool ids perm listed
    refine ⟨_, ?_, same⟩
    refine bind_eq_ok.mpr ⟨(), validateCPUDeviceGroups_eq_ok.mpr
      (grouped_perm (validateCPUDeviceGroups_ok groups) (listed.map _)), ?_⟩
    refine bind_eq_ok.mpr ⟨(), validateCPUCoreTopology_perm standard perm cores, ?_⟩
    refine bind_eq_ok.mpr ⟨_, same.geometry ▸ geometry, bind_eq_ok.mpr ⟨(), forM_eq_ok.mpr fun device inside => ?_, rfl⟩⟩
    rw [← same.checkSiblings]
    exact forM_eq_ok.mp siblings device (listed.symm.subset inside)

end

theorem standard_of_mem_infosOf {info : CPUInfo} (inside : info ∈ infosOf slices) :
    info.coreType = .standard := by
  obtain ⟨device, -, inside⟩ := mem_flatMap.mp inside
  obtain ⟨cpu, -, rfl⟩ := mem_map.mp inside
  rfl

theorem buildNodeInfo_perm {slices' : List ResourceSlice} (perm : slices ~ slices')
    (built : buildNodeInfo pool slices = .ok n) :
    ∃ n', buildNodeInfo pool slices' = .ok n' ∧ SameTopology n n' := by
  obtain ⟨gatherable, checked⟩ := buildNodeInfo_ok_iff.mp built
  obtain ⟨n', checked', same⟩ := checkTopology_perm (fun _ => standard_of_mem_infosOf) gatherable.ids
    ((perm.flatMap_right _).flatMap_right _) (perm.flatMap_right _) checked
  exact ⟨n', buildNodeInfo_ok_iff.mpr ⟨gatherable.perm perm, checked'⟩, same⟩

theorem cpuDevices_ne_nil (built : buildNodeInfo pool slices = .ok n) (some : slices ≠ []) :
    n.pool = pool ∧ n.cpuDevices ≠ [] := by
  obtain ⟨gatherable, checked⟩ := buildNodeInfo_ok_iff.mp built
  obtain ⟨slice, inside⟩ := exists_mem_of_ne_nil _ some
  obtain ⟨infos, expanded⟩ := gatherable.expandable slice inside
  obtain ⟨hasDevices, known, -⟩ := newCPUInfos_ok expanded
  obtain ⟨device, listed⟩ := exists_mem_of_ne_nil _ hasDevices
  have inDevices : device ∈ slices.flatMap (·.devices) := mem_flatMap.mpr ⟨slice, inside, listed⟩
  obtain ⟨cpu, inCPUs⟩ := exists_mem_of_ne_nil _ (known device listed).nonempty
  have hasInfos : infosOf slices ≠ [] := by
    intro none
    have listsNone := flatMap_eq_nil_iff.mp none device inDevices
    rw [cpuInfosOf, map_eq_nil_iff] at listsNone
    exact ne_nil_of_mem inCPUs listsNone
  unfold checkTopology at checked
  rw [if_neg hasInfos] at checked
  obtain ⟨_, -, checked⟩ := bind_eq_ok.mp checked
  obtain ⟨_, -, checked⟩ := bind_eq_ok.mp checked
  obtain ⟨_, -, checked⟩ := bind_eq_ok.mp checked
  obtain ⟨_, -, checked⟩ := bind_eq_ok.mp checked
  obtain rfl := pure_eq_ok.mp checked
  exact ⟨rfl, ne_nil_of_mem inDevices⟩

end SlurmBridge.Inventory.Build
