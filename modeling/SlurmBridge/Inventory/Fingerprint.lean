/- source: internal/nodeinfo/fingerprint.go
   digest: The CPU fingerprint of a node: equal fingerprints mean equal CPU allocation, and
     republishing the same inventory in another form keeps the fingerprint. -/

import Mathlib.Data.Countable.Basic
import Mathlib.Data.Rat.Encodable
import Mathlib.Logic.Equiv.List
import Mathlib.Tactic.DeriveCountable
import SlurmBridge.Inventory.Allocation

set_option autoImplicit false

namespace SlurmBridge.Inventory.Fingerprint

open scoped List
open Foundation.Checked Foundation.NumberSets Foundation.Text Inventory.Devices Inventory.Topology
open Inventory.Allocation List Finmap

structure Canonical where
  pool : String
  devices : List Device
  cores : List String

/-- A device without its SMT layout and with the canonical text of its CPU list. -/
def canonicalDevice (device : Device) (cpus : CPUSet) : Device :=
  { device with
    attributes := (device.attributes.erase attributeSMTLayout).insert attributeCPUIDs
      { stringValue := some cpus.text } }

variable (digest : Canonical → String)

/-- The fingerprint, over a digest of canonical data: the hexadecimal SHA-256 sum of its JSON
encoding. -/
def cpuFingerprint (n : NodeInfo) : Except String String := do
  require (n.cpuDevices ≠ []) "missing grouped CPU inventory"
  let _ ← n.geometry
  let devices ← n.sortedCPUDevices.mapM fun device => do
    let cpus ← parseCPUSet (attributeText device attributeCPUIDs)
    return canonicalDevice device cpus
  return "v1:" ++ digest ⟨n.pool, devices, n.abstractToMachine.map (·.text)⟩

def canonical (n : NodeInfo) : Canonical where
  pool := n.pool
  devices := n.sortedCPUDevices.map fun device => canonicalDevice device (listedCPUs device)
  cores := n.abstractToMachine.map (·.text)

variable {digest} {nodeName nodeName' : String} {slices slices' : List ResourceSlice}
  {n n' : NodeInfo}

theorem cpuFingerprint_eq (accepted : Accepted nodeName slices n) (some : n.cpuDevices ≠ []) :
    cpuFingerprint digest n = .ok ("v1:" ++ digest (canonical n)) := by
  obtain ⟨geometry, uniform⟩ := accepted.geometry
  have sorted : n.sortedCPUDevices.Perm n.cpuDevices := perm_insertionSort _ _
  refine bind_eq_ok.mpr ⟨(), require_eq_ok.mpr some, bind_eq_ok.mpr ⟨geometry, uniform, ?_⟩⟩
  refine bind_eq_ok.mpr ⟨_, mapM_of_ok (g := fun device => canonicalDevice device (listedCPUs device)) ?_, rfl⟩
  intro device member
  exact bind_eq_ok.mpr ⟨_, (accepted.expanded device (sorted.subset member)).listed, rfl⟩

theorem cpuFingerprint_ok (accepted : Accepted nodeName slices n) {fingerprint : String}
    (computed : cpuFingerprint digest n = .ok fingerprint) :
    fingerprint = "v1:" ++ digest (canonical n) := by
  obtain ⟨_, some, -⟩ := bind_eq_ok.mp computed
  rw [cpuFingerprint_eq accepted (require_eq_ok.mp some)] at computed
  exact (Except.ok.inj computed).symm

structure DeviceView where
  name : String
  group : CPUDeviceGroup
  cpus : CPUSet

def viewOf (device : Device) : DeviceView :=
  ⟨device.name, cpuDeviceGroupOf device, listedCPUs device⟩

theorem cpuDeviceGroupOf_canonicalDevice (device : Device) (cpus : CPUSet) :
    cpuDeviceGroupOf (canonicalDevice device cpus) = cpuDeviceGroupOf device := by
  have socket : attributeSocketID ≠ attributeCPUIDs := by decide
  have socket' : attributeSocketID ≠ attributeSMTLayout := by decide
  have numa : attributeNUMANodeID ≠ attributeCPUIDs := by decide
  have numa' : attributeNUMANodeID ≠ attributeSMTLayout := by decide
  simp only [cpuDeviceGroupOf, canonicalDevice, lookup_insert_of_ne _ socket,
    lookup_insert_of_ne _ numa, lookup_erase_ne socket', lookup_erase_ne numa']

variable {device device' : Device}

private theorem viewOf_eq
    (same : canonicalDevice device (listedCPUs device) = canonicalDevice device' (listedCPUs device')) :
    viewOf device = viewOf device' := by
  have names := congrArg Device.name same
  simp only [canonicalDevice] at names
  have groups := congrArg cpuDeviceGroupOf same
  rw [cpuDeviceGroupOf_canonicalDevice, cpuDeviceGroupOf_canonicalDevice] at groups
  have texts := congrArg (fun d => d.attributes.lookup attributeCPUIDs) same
  simp only [canonicalDevice, lookup_insert, Option.some.injEq, DeviceAttribute.mk.injEq] at texts
  have cpus : listedCPUs device = listedCPUs device' := NumberSet.text_injective (by simpa using texts)
  rw [viewOf, viewOf, names, groups, cpus]

private theorem agree_of_canonical (same : canonical n = canonical n') :
    n.pool = n'.pool ∧ n.abstractToMachine = n'.abstractToMachine ∧
      n.sortedCPUDevices.map viewOf = n'.sortedCPUDevices.map viewOf := by
  simp only [canonical, Canonical.mk.injEq] at same
  obtain ⟨pool, devices, cores⟩ := same
  refine ⟨pool, map_injective_iff.mpr (fun _ _ => NumberSet.text_injective) cores, ?_⟩
  rw [← forall₂_eq_eq_eq, forall₂_map_left_iff, forall₂_map_right_iff] at devices ⊢
  exact devices.imp (fun _ _ => viewOf_eq)

/-- The allocation that grants shares of devices, in terms of what it uses of them. -/
def allocationOfViews (purpose : Purpose) (pool : String) (count : Nat)
    (shares : List (DeviceView × CPUSet)) : CPUAllocation where
  requests := shares.map fun share =>
    let (name, expression) := cpuDeviceRequest share.1.group
    ⟨name, purpose.className, expression, cpuQuantity share.2.size⟩
  results := shares.map fun share =>
    ⟨(cpuDeviceRequest share.1.group).1, draDriverCpu, pool, share.1.name,
      purpose.env.newSHA1 (purpose.allocationKey ++ "/" ++ draDriverCpu ++ "/" ++ pool ++ "/" ++
        share.1.name), cpuQuantity share.2.size⟩
  config := shares.map fun share =>
    ⟨[(cpuDeviceRequest share.1.group).1], draDriverCpu, "v1alpha1", share.2.text⟩
  cpuCount := count

private theorem allocationOf_eq (purpose : Purpose) (pool : String) (count : Nat)
    (shares : List (Device × CPUSet)) :
    allocationOf purpose pool count shares =
      allocationOfViews purpose pool count (shares.map fun share => (viewOf share.1, share.2)) := by
  simp [allocationOf, allocationOfViews, requestFor, resultFor, configFor, viewOf, Function.comp_def]

/-- How a topology treats a bitmap: the machine CPUs, and each device's share of them. -/
def treatment (n : NodeInfo) (bitmap : Bitmap) : CPUSet × List (DeviceView × CPUSet) × CPUSet :=
  (toMachineCPUs n bitmap, (splitCPUs n bitmap).1.map (fun share => (viewOf share.1, share.2)),
    (splitCPUs n bitmap).2)

private theorem treatment_eq (same : canonical n = canonical n') (bitmap : Bitmap) :
    treatment n bitmap = treatment n' bitmap := by
  obtain ⟨-, cores, devices⟩ := agree_of_canonical same
  have cpus : toMachineCPUs n bitmap = toMachineCPUs n' bitmap := by
    simp only [toMachineCPUs, cores]
  have split : ∀ (devices : List Device) (s : CPUSet), distribute DeviceView.cpus (devices.map viewOf) s =
        ((distribute listedCPUs devices s).1.map (fun share => (viewOf share.1, share.2)),
          (distribute listedCPUs devices s).2) :=
    distribute_map viewOf DeviceView.cpus (fun _ => rfl)
  have left := split n.sortedCPUDevices (toMachineCPUs n bitmap)
  have right := split n'.sortedCPUDevices (toMachineCPUs n' bitmap)
  rw [devices, cpus, right, Prod.mk.injEq] at left
  simp only [treatment, splitCPUs, cpus, ← left.1, ← left.2]

/-- The same device, published with another spelling of its CPU list and with another SMT
layout that pairs the listed CPUs in the same way. -/
structure Respelled (device device' : Device) : Prop where
  name : device.name = device'.name
  attributes : (device.attributes.erase attributeSMTLayout).erase attributeCPUIDs =
    (device'.attributes.erase attributeSMTLayout).erase attributeCPUIDs
  capacity : device.capacity = device'.capacity
  allowMultipleAllocations : device.allowMultipleAllocations = device'.allowMultipleAllocations
  remaining : device.remaining = device'.remaining
  cpus : listedCPUs device = listedCPUs device'
  pairs : ∀ cpu ∈ listedCPUs device, ∀ other ∈ listedCPUs device,
    siblingOf device cpu = some other ↔ siblingOf device' cpu = some other

/-- The same inventory of a node, published in another form: the order of the slices, the
generation of the pool, the slice a device stands in and the spelling of its topology do not
matter. -/
structure SameInventory (nodeName : String) (slices slices' : List ResourceSlice) : Prop where
  pool : ∀ slice ∈ slices, ∀ slice' ∈ slices', isLocal nodeName slice = true →
    isLocal nodeName slice' = true → slice.pool.name = slice'.pool.name
  devices : ∃ reordered : List Device, reordered.Perm (currentDevices nodeName slices') ∧
    List.Forall₂ Respelled (currentDevices nodeName slices) reordered

private theorem lookup_erase_erase {key : String} (layout : key ≠ attributeSMTLayout)
    (cpuIDs : key ≠ attributeCPUIDs) :
    ((device.attributes.erase attributeSMTLayout).erase attributeCPUIDs).lookup key =
      device.attributes.lookup key := by
  rw [lookup_erase_ne cpuIDs, lookup_erase_ne layout]

section
variable {device device' : Device} (respelled : Respelled device device')

include respelled

private theorem Respelled.group : cpuDeviceGroupOf device = cpuDeviceGroupOf device' := by
  have same : ∀ key, key ≠ attributeSMTLayout → key ≠ attributeCPUIDs →
      device.attributes.lookup key = device'.attributes.lookup key := by
    intro key layout cpuIDs
    rw [← lookup_erase_erase layout cpuIDs, respelled.attributes, lookup_erase_erase layout cpuIDs]
  simp only [cpuDeviceGroupOf, same attributeSocketID (by decide) (by decide),
    same attributeNUMANodeID (by decide) (by decide)]

private theorem Respelled.canonical : canonicalDevice device (listedCPUs device) =
    canonicalDevice device' (listedCPUs device') := by
  have attributes : (device.attributes.erase attributeSMTLayout).insert attributeCPUIDs
        { stringValue := some (listedCPUs device).text } =
      (device'.attributes.erase attributeSMTLayout).insert attributeCPUIDs
        { stringValue := some (listedCPUs device').text } := by
    apply ext_lookup
    intro key
    by_cases cpuIDs : key = attributeCPUIDs
    · subst cpuIDs
      rw [lookup_insert, lookup_insert, respelled.cpus]
    · rw [lookup_insert_of_ne _ cpuIDs, lookup_insert_of_ne _ cpuIDs,
        ← lookup_erase_ne cpuIDs, respelled.attributes, lookup_erase_ne cpuIDs]
  simp only [canonicalDevice, attributes, respelled.name, respelled.capacity,
    respelled.allowMultipleAllocations, respelled.remaining]

private theorem Respelled.core {cpu : Nat} (listed : cpu ∈ listedCPUs device) :
    coreOf (listedCPUs device) cpu (siblingOf device cpu) =
      coreOf (listedCPUs device') cpu (siblingOf device' cpu) := by
  rw [← respelled.cpus]
  -- Siblings that are not listed leave the core to the CPU itself.
  have pairs := respelled.pairs cpu listed
  cases sibling : siblingOf device cpu with
  | none =>
    cases sibling' : siblingOf device' cpu with
    | none => rfl
    | some other =>
      have outside : other ∉ listedCPUs device := by
        intro inside
        have paired := (pairs other inside).mpr sibling'
        rw [sibling] at paired
        cases paired
      simp [coreOf, outside]
  | some other =>
    by_cases inside : other ∈ listedCPUs device
    · rw [(pairs other inside).mp sibling]
    · cases sibling' : siblingOf device' cpu with
      | none => simp [coreOf, inside]
      | some other' =>
        have outside : other' ∉ listedCPUs device := by
          intro inside'
          have paired := (pairs other' inside').mpr sibling'
          rw [sibling] at paired
          exact inside (Option.some.inj paired ▸ inside')
        simp [coreOf, inside, outside]

private theorem Respelled.cpuInfos : cpuInfosOf device = cpuInfosOf device' := by
  unfold cpuInfosOf
  rw [← respelled.group, ← respelled.name]
  conv_rhs => rw [← respelled.cpus]
  refine map_congr_left fun cpu listed => ?_
  rw [respelled.core listed]
  simp only [respelled.cpus]

end

private theorem sortedDevices_eq {l l' : List Device} (names : (l.map (·.name)).Nodup)
    (perm : l.Perm l') : l.insertionSort deviceBefore = l'.insertionSort deviceBefore := by
  have sorted := perm_insertionSort deviceBefore l
  have sorted' := perm_insertionSort deviceBefore l'
  refine List.Perm.eq_of_pairwise ?_ (pairwise_insertionSort _ l)
    (pairwise_insertionSort _ l') (sorted.trans (perm.trans sorted'.symm))
  intro a b memberA memberB before after
  have sameName : a.name = b.name := by
    grind [deviceBefore]
  exact inj_on_of_nodup_map names (sorted.subset memberA) (perm.symm.subset (sorted'.subset memberB)) sameName

private theorem canonicalDevices_eq (n : NodeInfo) : (canonical n).devices = (n.cpuDevices.map fun device =>
      canonicalDevice device (listedCPUs device)).insertionSort deviceBefore := by
  refine map_insertionSort deviceBefore deviceBefore _ _ ?_
  intro a _ b _
  simp only [deviceBefore, cpuDeviceGroupOf_canonicalDevice]
  rfl

private theorem SameInventory.map_perm {β : Type} {f : Device → β}
    (accepted : Accepted nodeName slices n) (accepted' : Accepted nodeName slices' n')
    (same : SameInventory nodeName slices slices')
    (respects : ∀ device device', Respelled device device' → f device = f device') :
    (n.cpuDevices.map f).Perm (n'.cpuDevices.map f) := by
  obtain ⟨reordered, perm, respelled⟩ := same.devices
  have spelled : (currentDevices nodeName slices).map f = reordered.map f := by
    rw [← forall₂_eq_eq_eq, forall₂_map_left_iff, forall₂_map_right_iff]
    exact respelled.imp respects
  calc n.cpuDevices.map f ~ (currentDevices nodeName slices).map f := accepted.current.map f
    _ = reordered.map f := spelled
    _ ~ n'.cpuDevices.map f := (perm.trans accepted'.current.symm).map f

private theorem canonical_eq (accepted : Accepted nodeName slices n)
    (accepted' : Accepted nodeName slices' n') (same : SameInventory nodeName slices slices')
    (some : n.cpuDevices ≠ []) : canonical n = canonical n' := by
  have devicesPerm := same.map_perm accepted accepted' (fun _ _ => Respelled.canonical)
  have infosPerm : n.infos.Perm n'.infos :=
    accepted.infos.trans (((same.map_perm accepted accepted' (fun _ _ => Respelled.cpuInfos)).flatten).trans
      accepted'.infos.symm)
  have infos : n.infos = n'.infos := by
    refine infosPerm.eq_of_pairwise ?_ accepted.sorted accepted'.sorted
    intro a b memberA memberB before after
    have id : a.cpuID = b.cpuID := by
      unfold cpuBefore at before after
      omega
    exact inj_on_of_nodup_map accepted.ids memberA (infosPerm.symm.subset memberB) id
  have devices : (canonical n).devices = (canonical n').devices := by
    rw [canonicalDevices_eq, canonicalDevices_eq]
    refine sortedDevices_eq ?_ devicesPerm
    simpa [map_map, Function.comp_def, canonicalDevice] using accepted.names
  have pools : n.pool = n'.pool := by
    have localSlice : ∀ {slices : List ResourceSlice} {n : NodeInfo}, Accepted nodeName slices n →
        n.cpuDevices ≠ [] → ∃ slice ∈ slices, isLocal nodeName slice = true := by
      intro slices n accepted some
      obtain ⟨device, member⟩ := exists_mem_of_ne_nil _ some
      obtain ⟨slice, newest, -⟩ := mem_flatMap.mp (accepted.current.subset member)
      simp only [mem_filter, isNewest, decide_eq_true_eq] at newest
      exact ⟨slice, newest.1, newest.2.1⟩
    have some' : n'.cpuDevices ≠ [] := by
      intro none
      rw [none] at devicesPerm
      exact some (map_eq_nil_iff.mp devicesPerm.eq_nil)
    obtain ⟨slice, member, own⟩ := localSlice accepted some
    obtain ⟨slice', member', own'⟩ := localSlice accepted' some'
    rw [← accepted.pool slice member own, ← accepted'.pool slice' member' own']
    exact same.pool slice member slice' member' own own'
  have cores : n.abstractToMachine = n'.abstractToMachine := by
    rw [accepted.cores, accepted'.cores, infos]
  simp only [canonical, Canonical.mk.injEq] at devices ⊢
  exact ⟨pools, devices, by rw [cores]⟩

/-- Over a collision-free digest, topologies with equal fingerprints treat every bitmap
alike, in the same pool and on the same devices, and inventories that differ in their
published form only have equal fingerprints. -/
theorem cpu_fingerprint_sound_and_stable (injective : Function.Injective digest) :
    (∀ nodeName nodeName' slices slices' n n' fingerprint,
      newNodeInfoFromResourceSlices nodeName slices = .ok n →
      newNodeInfoFromResourceSlices nodeName' slices' = .ok n' →
      cpuFingerprint digest n = .ok fingerprint → cpuFingerprint digest n' = .ok fingerprint →
      n.pool = n'.pool ∧ (∀ bitmap, treatment n bitmap = treatment n' bitmap) ∧
      ∀ purpose resources allocation allocation',
        allocateCPUs n purpose resources = .ok allocation →
        allocateCPUs n' purpose resources = .ok allocation' → allocation = allocation') ∧
    ∀ nodeName slices slices' n n',
      newNodeInfoFromResourceSlices nodeName slices = .ok n →
      newNodeInfoFromResourceSlices nodeName slices' = .ok n' →
      SameInventory nodeName slices slices' → n.cpuDevices ≠ [] →
      ∃ fingerprint, cpuFingerprint digest n = .ok fingerprint ∧
        cpuFingerprint digest n' = .ok fingerprint := by
  constructor
  · intro nodeName nodeName' slices slices' n n' fingerprint built built' computed computed'
    have accepted := newNodeInfoFromResourceSlices_ok built
    have accepted' := newNodeInfoFromResourceSlices_ok built'
    have same : canonical n = canonical n' := by
      have texts := (cpuFingerprint_ok accepted computed).symm.trans
        (cpuFingerprint_ok accepted' computed')
      exact injective ((String.append_right_inj "v1:").mp texts)
    have pools := (agree_of_canonical same).1
    refine ⟨pools, treatment_eq same, ?_⟩
    intro purpose resources allocation allocation' granted granted'
    obtain ⟨allocated, bitmap, given, decoded, -, rfl⟩ := allocateCPUs_ok granted
    obtain ⟨allocated', bitmap', given', decoded', -, rfl⟩ := allocateCPUs_ok granted'
    obtain rfl : allocated = allocated' := Option.some.inj (given.symm.trans given')
    obtain rfl : bitmap = bitmap' := Except.ok.inj (decoded.symm.trans decoded')
    have treated := treatment_eq same bitmap
    simp only [treatment, Prod.mk.injEq] at treated
    rw [allocationOf_eq, allocationOf_eq, treated.1, treated.2.1, pools]
  · intro nodeName slices slices' n n' built built' same some
    have accepted := newNodeInfoFromResourceSlices_ok built
    have accepted' := newNodeInfoFromResourceSlices_ok built'
    have equal := canonical_eq accepted accepted' same some
    have some' : n'.cpuDevices ≠ [] := by
      intro none
      have devices := congrArg (fun c => c.devices.length) equal
      simp only [canonicalDevices_eq, length_insertionSort, length_map, none,
        length_nil] at devices
      exact some (length_eq_zero_iff.mp devices)
    exact ⟨_, cpuFingerprint_eq accepted some, by rw [equal]; exact cpuFingerprint_eq accepted' some'⟩

private instance countable_char : Countable Char :=
  Function.Injective.countable (f := Char.toNat) (fun _ _ same => Char.toNat_inj.mp same)

private instance countable_string : Countable String :=
  Function.Injective.countable (f := String.toList) (fun _ _ same => String.toList_inj.mp same)

private instance countable_finmap {α β : Type} [Countable α] [Countable β] : Countable (Finmap (fun _ : α => β)) :=
  have : Countable (Multiset (Σ _ : α, β)) := Quotient.countable
  Function.Injective.countable (f := fun m => m.entries) (fun _ _ same => Finmap.ext_iff.mpr same)

deriving instance Countable for DeviceAttribute, QuantityFormat, Quantity, DeviceCapacity, Device,
  Canonical

theorem exists_digest : ∃ digest : Canonical → String, Function.Injective digest := by
  obtain ⟨encode, injective⟩ := Countable.exists_injective_nat Canonical
  exact ⟨fun data => numeral (encode data), fun _ _ same => injective (numeral_injective same)⟩

/-- The inventory of `twoSockets` in a later generation, with one slice for each device and
other spellings of the CPU lists and of the SMT layout. -/
def republished : List ResourceSlice :=
  [{ twoSockets with
      name := "a"
      pool := ⟨"node", 4, 2⟩
      devices := [socketDevice "socket0" 0 "2,0" "0,2>2;1,3>2" 2] },
    { twoSockets with
      name := "b"
      pool := ⟨"node", 4, 2⟩
      devices := [socketDevice "socket1" 1 "7,5-5" "4;6;5,7>2" 2] }]

private theorem respelled_of_decide
    (same : (device.name = device'.name ∧ (device.attributes.erase attributeSMTLayout).erase attributeCPUIDs = (device'.attributes.erase attributeSMTLayout).erase attributeCPUIDs ∧ device.capacity = device'.capacity ∧ device.allowMultipleAllocations = device'.allowMultipleAllocations ∧ device.remaining = device'.remaining) ∧ listedCPUs device = listedCPUs device' ∧ ∀ cpu ∈ (listedCPUs device).list, ∀ other ∈ (listedCPUs device).list, (siblingOf device cpu = some other ↔ siblingOf device' cpu = some other)) :
    Respelled device device' :=
  ⟨same.1.1, same.1.2.1, same.1.2.2.1, same.1.2.2.2.1, same.1.2.2.2.2, same.2.1, same.2.2⟩

private theorem sameInventory_republished : SameInventory "node" [twoSockets] republished where
  pool := by decide +kernel
  devices := by
    refine ⟨(currentDevices "node" republished).reverse, reverse_perm _, ?_⟩
    exact .cons (respelled_of_decide (by decide +kernel)) (.cons (respelled_of_decide (by decide +kernel)) .nil)

theorem cpu_fingerprint_sound_and_stable_republished :
    ∃ (digest : Canonical → String) (n n' : NodeInfo) (fingerprint : String),
      Function.Injective digest ∧
      newNodeInfoFromResourceSlices "node" [twoSockets] = .ok n ∧
      newNodeInfoFromResourceSlices "node" republished = .ok n' ∧
      cpuFingerprint digest n = .ok fingerprint ∧ cpuFingerprint digest n' = .ok fingerprint ∧
      ∀ bitmap, treatment n bitmap = treatment n' bitmap := by
  obtain ⟨digest, injective⟩ := exists_digest
  obtain ⟨n, built⟩ := exists_ok (x := newNodeInfoFromResourceSlices "node" [twoSockets])
    (by decide +kernel)
  obtain ⟨n', built'⟩ := exists_ok (x := newNodeInfoFromResourceSlices "node" republished)
    (by decide +kernel)
  have some : n.cpuDevices ≠ [] := by
    have current := (newNodeInfoFromResourceSlices_ok built).current.length_eq
    have two : (currentDevices "node" [twoSockets]).length = 2 := by decide +kernel
    intro none
    simp [none, two] at current
  obtain ⟨sound, stable⟩ := cpu_fingerprint_sound_and_stable injective
  obtain ⟨fingerprint, computed, computed'⟩ :=
    stable "node" [twoSockets] republished n n' built built' sameInventory_republished some
  exact ⟨digest, n, n', fingerprint, injective, built, built', computed, computed',
    (sound _ _ _ _ _ _ _ built built' computed computed').2.1⟩

end SlurmBridge.Inventory.Fingerprint
