/- source: internal/dra/gres.go, internal/controller/node/slurmcontrol/slurmcontrol.go
   digest: The index map of any inventories leads back to them, numbers the devices of each GRES
     name in the order of their GresConf records, and survives a recorded CPU fingerprint. -/

import SlurmBridge.Node.Configuration

set_option autoImplicit false

namespace SlurmBridge.Node.IndexRoundTrip

open Foundation.Blocks Foundation.Checked Foundation.NumberSets Foundation.Text Dra.IndexedGRES
open Inventory.Topology (NodeInfo)
open Node.Configuration (NodeGRESConfig numaCores)
open List

/-- An inventory as any caller can build it: nothing is known of its names and devices. -/
structure LooseInventory where
  name : String
  type : String
  devices : List DeviceIdentity
  numaNodes : List (DeviceIdentity × List Nat) := []
  cores : List (DeviceIdentity × List Nat) := []
  deriving DecidableEq

namespace LooseInventory

def withNUMACores (g : LooseInventory) (numaCores : Nat → List Nat) : LooseInventory :=
  { g with cores := g.devices.filterMap fun device =>
      (contiguousCores numaCores (numbersOf g.numaNodes device)).map (device, ·) }

def deviceCores (g : LooseInventory) (device : DeviceIdentity) : String :=
  (NumberSet.ofList (numbersOf g.cores device)).text

def appliedInventoryEntry (g : LooseInventory) : Except String (List String) := do
  require (g.type ≠ "") "cannot encode applied inventory with an empty device profile name"
  g.devices.zipIdx.mapM fun (id, i) =>
    relabel ("encode device profile " ++ g.type.quote ++ " index " ++ numeral i ++ ": " ++ ·)
      (encodeDevicePath id)

def deviceRecord (g : LooseInventory) (id : DeviceIdentity) (path : String) : String :=
  let record := "count=1,name=" ++ g.name ++ ",type=" ++ g.type ++ ",file=" ++ path
  if g.deviceCores id = "" then record else record ++ ",cpus=" ++ g.deviceCores id

def entry (g : LooseInventory) : String :=
  g.name ++ ":" ++ g.type ++ ":" ++ numeral g.devices.length

def slurmConfig (g : LooseInventory) : Except String (String × String) := do
  let paths ← g.appliedInventoryEntry
  require (g.name ≠ "") ("cannot configure device profile " ++ g.type.quote ++ " with an empty Slurm GRES name")
  require (paths ≠ []) ("cannot configure device profile " ++ g.type.quote ++ " without devices")
  return (g.entry, "+".intercalate (List.zipWith g.deviceRecord g.devices paths))

end LooseInventory

def encodeProfile (encoding : Encoding) (g : LooseInventory) : Except String Encoding := do
  let paths ← g.appliedInventoryEntry
  require (∀ entry ∈ encoding.profiles, entry.1 ≠ g.type)
    ("cannot encode duplicate device profile " ++ g.type.quote)
  let firstIndex := (encoding.nextIndexes.lookup g.name).getD 0
  let cores := if g.cores = [] then [] else g.devices.map g.deviceCores
  return {
    profiles := encoding.profiles ++ [(g.type, ⟨firstIndex, paths, cores⟩)]
    nextIndexes := encoding.nextIndexes.insert g.name (firstIndex + paths.length) }

def encodeAppliedInventory (inventory : List LooseInventory) : Except String Extra := do
  let encoding ← inventory.foldlM encodeProfile {}
  return .applied
    ⟨appliedInventoryVersion, some (encoding.profiles.insertionSort (fun a b => a.1 ≤ b.1)), ""⟩ ""

def inventoryExtra (inventory : List LooseInventory) : Except String Extra :=
  if inventory = [] then pure .empty else encodeAppliedInventory inventory

def buildNodeGRESConfig (draInventory : List LooseInventory) (info : Option NodeInfo) :
    Except String NodeGRESConfig := do
  let inventory := draInventory.map (·.withNUMACores (numaCores info))
  let configs ← inventory.mapM LooseInventory.slurmConfig
  let extra ← inventoryExtra inventory
  return {
    gres := ",".intercalate (configs.map Prod.fst)
    gresConf := "+".intercalate (configs.map Prod.snd)
    extra
    gresConfInventory := inventory.map fun g =>
      "Name=" ++ g.name ++ " Type=" ++ g.type ++ " Count=" ++ numeral g.devices.length }

/-- What is left of an inventory from the registry without its guarantees. -/
def loosen (g : GRESInventory) : LooseInventory where
  name := g.gres.name.text
  type := g.gres.type.text
  devices := g.devices
  numaNodes := g.numaNodes
  cores := g.cores

theorem appliedInventoryEntry_loosen (g : GRESInventory) :
    (loosen g).appliedInventoryEntry = g.appliedInventoryEntry := by
  have named : (loosen g).type ≠ "" := g.gres.type.nonempty
  rw [LooseInventory.appliedInventoryEntry, require, if_pos named]
  rfl

theorem slurmConfig_loosen (g : GRESInventory) : (loosen g).slurmConfig = g.slurmConfig := by
  have named : (loosen g).name ≠ "" := g.gres.name.nonempty
  rw [LooseInventory.slurmConfig, appliedInventoryEntry_loosen, require, if_pos named]
  rfl

theorem encodeProfile_loosen (encoding : Encoding) (g : GRESInventory) :
    encodeProfile encoding (loosen g) = Dra.IndexedGRES.encodeProfile encoding g := by
  rw [encodeProfile, appliedInventoryEntry_loosen]
  rfl

theorem encodeAppliedInventory_loosen (inventory : List GRESInventory) :
    encodeAppliedInventory (inventory.map loosen) = Dra.IndexedGRES.encodeAppliedInventory inventory := by
  rw [encodeAppliedInventory, foldlM_map]
  simp only [encodeProfile_loosen]
  rfl

theorem inventoryExtra_loosen (inventory : List GRESInventory) :
    inventoryExtra (inventory.map loosen) = Configuration.inventoryExtra inventory := by
  rw [inventoryExtra, Configuration.inventoryExtra, encodeAppliedInventory_loosen]
  simp only [map_eq_nil_iff]

theorem buildNodeGRESConfig_loosen (draInventory : List GRESInventory) (info : Option NodeInfo) :
    buildNodeGRESConfig (draInventory.map loosen) info =
      Configuration.buildNodeGRESConfig draInventory info := by
  have bound : (draInventory.map loosen).map (·.withNUMACores (numaCores info)) =
      (draInventory.map (·.withNUMACores (numaCores info))).map loosen := by
    rw [map_map, map_map]
    rfl
  have configs : (draInventory.map (·.withNUMACores (numaCores info))).mapM
        (LooseInventory.slurmConfig ∘ loosen) =
      (draInventory.map (·.withNUMACores (numaCores info))).mapM GRESInventory.slurmConfig :=
    congrArg (fun config => List.mapM config _) (funext slurmConfig_loosen)
  rw [buildNodeGRESConfig, Configuration.buildNodeGRESConfig]
  simp only [bound, inventoryExtra_loosen]
  rw [mapM_map, configs, map_map]
  rfl

section

def sameName (name : String) (inventory : List LooseInventory) : List LooseInventory :=
  inventory.filter (·.name = name)

def deviceCount (g : LooseInventory) : Nat := g.devices.length

/-- The first index of an inventory: after the devices of the earlier ones of its GRES name. -/
def firstIndex (inventory : List LooseInventory) (g : LooseInventory) : Nat :=
  offset deviceCount g (sameName g.name inventory)

def profileWire (inventory : List LooseInventory) (g : LooseInventory) : String × AppliedProfileInventoryWire :=
  (g.type, ⟨firstIndex inventory g, g.devices.map pathOf,
    if g.cores = [] then [] else g.devices.map g.deviceCores⟩)

def appliedProfile (inventory : List LooseInventory) (g : LooseInventory) : String × AppliedProfileInventory :=
  (g.type, ⟨firstIndex inventory g, g.devices⟩)

/-- Inventories that can be configured: profiles with different names, and each with a GRES name
and devices that were published. -/
structure Configurable (inventory : List LooseInventory) : Prop where
  types : (inventory.map (·.type)).Nodup
  named : ∀ g ∈ inventory, g.type ≠ "" ∧ g.name ≠ ""
  some : ∀ g ∈ inventory, g.devices ≠ []
  distinct : ∀ g ∈ inventory, g.devices.Nodup
  published : ∀ g ∈ inventory, ∀ device ∈ g.devices, device.Published

variable {inventory : List LooseInventory} {g : LooseInventory}

theorem Configurable.entry (fit : Configurable inventory) (member : g ∈ inventory) :
    g.appliedInventoryEntry = .ok (g.devices.map pathOf) :=
  bind_eq_ok.mpr ⟨(), require_eq_ok.mpr (fit.named g member).1, devicePaths_eq (fit.published g member) fun i e =>
    "encode device profile " ++ g.type.quote ++ " index " ++ numeral i ++ ": " ++ e⟩

theorem Configurable.nodup (fit : Configurable inventory) : inventory.Nodup :=
  fit.types.of_map _

/-- What the encoder has recorded of the inventories it has visited. -/
structure Recorded (visited : List LooseInventory) (encoding : Encoding) : Prop where
  profiles : encoding.profiles = visited.map (profileWire visited)
  next : ∀ name, (encoding.nextIndexes.lookup name).getD 0 = ((sameName name visited).map deviceCount).sum

theorem recorded_encodeProfile {visited rest : List LooseInventory} {encoding : Encoding}
    (fit : Configurable (visited ++ g :: rest)) (now : Recorded visited encoding) :
    ∃ encoding', encodeProfile encoding g = .ok encoding' ∧ Recorded (visited ++ [g]) encoding' := by
  have absent : g ∉ visited := fun member => by
    have apart := (nodup_append.mp fit.nodup).2.2
    exact apart g member g mem_cons_self rfl
  have fresh : ∀ entry ∈ encoding.profiles, entry.1 ≠ g.type := by
    intro entry member same
    rw [now.profiles] at member
    obtain ⟨other, before, rfl⟩ := mem_map.mp member
    have equal := inj_on_of_nodup_map fit.types (mem_append_left _ before)
      (mem_append_right _ mem_cons_self) same
    exact absent (equal ▸ before)
  refine ⟨_, bind_eq_ok.mpr ⟨_, fit.entry (mem_append_right _ mem_cons_self),
    bind_eq_ok.mpr ⟨(), require_eq_ok.mpr fresh, rfl⟩⟩, ?_, ?_⟩
  · have own : firstIndex (visited ++ [g]) g = ((sameName g.name visited).map deviceCount).sum :=
      offset_filter_snoc_self (by simp) absent
    have others : ∀ other ∈ visited, profileWire (visited ++ [g]) other = profileWire visited other := by
      intro other member
      simp only [profileWire, firstIndex, sameName]
      rw [offset_filter_snoc_of_mem g (by simp) member]
    rw [map_append, map_singleton, map_congr_left others, now.profiles]
    simp only [profileWire, own, now.next g.name]
  · intro name
    by_cases same : name = g.name
    · subst same
      rw [AList.lookup_insert, Option.getD_some, now.next g.name]
      simp [sameName, filter_append, deviceCount]
    · rw [AList.lookup_insert_ne same, now.next name]
      simp [sameName, filter_append, Ne.symm same]

theorem encodeAppliedInventory_eq (fit : Configurable inventory) :
    encodeAppliedInventory inventory = .ok (.applied ⟨appliedInventoryVersion,
      some ((inventory.map (profileWire inventory)).insertionSort (fun a b => a.1 ≤ b.1)), ""⟩ "") := by
  have step : ∀ visited g rest encoding, inventory = visited ++ g :: rest → Recorded visited encoding →
      ∃ encoding', encodeProfile encoding g = .ok encoding' ∧ Recorded (visited ++ [g]) encoding' := by
    intro visited g rest encoding split now
    subst split
    exact recorded_encodeProfile fit now
  obtain ⟨encoding, loop, recorded⟩ := foldlM_succeeds Recorded step (s := {}) ⟨rfl, fun _ => rfl⟩
  refine bind_eq_ok.mpr ⟨encoding, loop, ?_⟩
  rw [recorded.profiles]
  rfl

theorem decodeProfile_profileWire (fit : Configurable inventory) (member : g ∈ inventory) :
    decodeProfile (profileWire inventory g) = .ok (appliedProfile inventory g) := by
  have paths : (g.devices.map pathOf).mapM decodeDevicePath = .ok g.devices := by
    rw [mapM_map, mapM_of_ok (g := id) (fun device inside => by
      exact decodeDevicePath_pathOf (fit.published g member device inside)), map_id]
  refine bind_eq_ok.mpr ⟨(), require_eq_ok.mpr (fit.named g member).1, ?_⟩
  refine bind_eq_ok.mpr ⟨(), require_eq_ok.mpr (Int.natCast_nonneg _), ?_⟩
  exact bind_eq_ok.mpr ⟨_, paths, rfl⟩

end

section

abbrev Record := LooseInventory × DeviceIdentity

def records (inventory : List LooseInventory) : List Record := contents (·.devices) inventory

def Record.text (info : Option NodeInfo) (record : Record) : String :=
  (record.1.withNUMACores (numaCores info)).deviceRecord record.2 (pathOf record.2)

def profileOf (applied : AppliedInventory) (profileName : String) : Option AppliedProfileInventory :=
  (applied.find? (·.1 = profileName)).map Prod.snd

def Covers (applied : AppliedInventory) (profileName : String) (index : Nat) : Prop :=
  ∃ profile, profileOf applied profileName = some profile ∧
    profile.firstIndex ≤ index ∧ index < profile.firstIndex + profile.devices.length

/-- The indexes of each GRES name are numbered through, inventory by inventory, in the order of
the records. -/
structure Numbered (inventory : List LooseInventory) (applied : AppliedInventory) : Prop where
  consecutive : ∀ before g after, inventory = before ++ g :: after →
    (profileOf applied g.type).map (·.firstIndex) = some ((sameName g.name before).map deviceCount).sum
  disjoint : ∀ g ∈ inventory, ∀ g' ∈ inventory, g.name = g'.name → ∀ index,
    Covers applied g.type index → Covers applied g'.type index → g = g'
  covering : ∀ name index, (∃ g ∈ inventory, g.name = name ∧ Covers applied g.type index) ↔
    index < ((sameName name inventory).map deviceCount).sum
  ordered : ∀ name index g device, ((records inventory).filter (·.1.name = name))[index]? = some (g, device) ↔
      g ∈ inventory ∧ g.name = name ∧ applied.devices g.type [index] = .ok [device]

/-- Distinct indexes of a profile become the distinct devices at their places. -/
def Translating (applied : AppliedInventory) : Prop :=
  ∀ profileName profile, profileOf applied profileName = some profile → ∀ indexes : List Nat,
    indexes.Nodup → (∀ index ∈ indexes, profile.firstIndex ≤ index ∧
      index < profile.firstIndex + profile.devices.length) →
    ∃ selected, applied.devices profileName indexes = .ok selected ∧ selected.Nodup ∧
      List.Forall₂ (fun index device => profile.devices[index - profile.firstIndex]? = some device)
        indexes selected

/-- A fingerprint can be recorded and read back, and nothing else changes. -/
def Fingerprinting (extra : Extra) (applied : AppliedInventory) : Prop :=
  ∀ fingerprint, ∃ wire, extra = .applied wire "" ∧ withAppliedCPUFingerprint extra fingerprint =
      .ok (.applied { wire with cpuFingerprint := fingerprint } "") ∧
    appliedCPUFingerprint (.applied { wire with cpuFingerprint := fingerprint } "") = .ok fingerprint ∧
    decodeAppliedInventory (.applied { wire with cpuFingerprint := fingerprint } "") = .ok applied

variable {inventory : List LooseInventory}

theorem records_filter (name : String) :
    (records inventory).filter (·.1.name = name) = contents (·.devices) (sameName name inventory) :=
  contents_filter (fun g => decide (g.name = name)) inventory

variable {name : String} {index : Nat} {g : LooseInventory} {device : DeviceIdentity}

theorem record_at_iff (fit : Configurable inventory) :
    ((records inventory).filter (·.1.name = name))[index]? = some (g, device) ↔
      (g ∈ inventory ∧ g.name = name) ∧ firstIndex inventory g ≤ index ∧
        g.devices[index - firstIndex inventory g]? = some device := by
  have nodup : (sameName name inventory).Nodup := fit.nodup.filter _
  rw [records_filter, contents_getElem? nodup]
  have inside : g ∈ sameName name inventory ↔ g ∈ inventory ∧ g.name = name := by simp [sameName]
  rw [inside]
  refine and_congr_right ?_
  rintro ⟨-, rfl⟩
  rfl

structure Applied (inventory : List LooseInventory) (applied : AppliedInventory) : Prop where
  perm : applied.Perm (inventory.map (appliedProfile inventory))
  fit : Configurable inventory

variable {applied : AppliedInventory}

section
variable (is : Applied inventory applied)

include is

theorem Applied.profileOf_iff {profileName : String}
    {profile : AppliedProfileInventory} : profileOf applied profileName = some profile ↔
      ∃ g ∈ inventory, appliedProfile inventory g = (profileName, profile) := by
  have distinct : (applied.map Prod.fst).Nodup := by
    refine (is.perm.map Prod.fst).nodup_iff.mpr ?_
    rw [map_map]
    exact is.fit.types
  rw [profileOf, profile_found_iff distinct, is.perm.mem_iff, mem_map]

theorem Applied.profileOf_type (member : g ∈ inventory) :
    profileOf applied g.type = some ⟨firstIndex inventory g, g.devices⟩ :=
  is.profileOf_iff.mpr ⟨g, member, rfl⟩

theorem Applied.covers_iff (member : g ∈ inventory) : Covers applied g.type index ↔
      firstIndex inventory g ≤ index ∧ index - firstIndex inventory g < g.devices.length := by
  rw [Covers, is.profileOf_type member]
  constructor
  · rintro ⟨profile, found, above, below⟩
    obtain rfl := Option.some.inj found
    exact ⟨above, by simp only at above below; omega⟩
  · rintro ⟨above, below⟩
    exact ⟨_, rfl, above, by simp only; omega⟩

theorem Applied.record_of_covers (member : g ∈ inventory) (covers : Covers applied g.type index) :
    ∃ device, ((records inventory).filter (·.1.name = g.name))[index]? = some (g, device) := by
  obtain ⟨above, below⟩ := (is.covers_iff member).mp covers
  exact ⟨_, (record_at_iff is.fit).mpr ⟨⟨member, rfl⟩, above, getElem?_eq_getElem below⟩⟩

theorem Applied.covers_of_record {record : Record}
    (listed : ((records inventory).filter (·.1.name = name))[index]? = some record) :
    record.1 ∈ inventory ∧ record.1.name = name ∧ Covers applied record.1.type index := by
  obtain ⟨⟨member, named⟩, above, at_⟩ := (record_at_iff is.fit).mp listed
  exact ⟨member, named, (is.covers_iff member).mpr ⟨above, (List.getElem?_eq_some_iff.mp at_).1⟩⟩

theorem Applied.devices_single_iff (member : g ∈ inventory) : applied.devices g.type [index] = .ok [device] ↔
      firstIndex inventory g ≤ index ∧ g.devices[index - firstIndex inventory g]? = some device := by
  have found := is.profileOf_type member
  constructor
  · intro translated
    obtain ⟨profile, found', each⟩ := devices_ok translated
    obtain rfl := Option.some.inj (found'.symm.trans found)
    obtain ⟨_, _, at_, -, same⟩ := forall₂_cons_left_iff.mp each
    obtain ⟨rfl, -⟩ := cons.inj same
    exact deviceAt_eq_ok.mp at_
  · intro at_
    refine bind_eq_ok.mpr ⟨_, present_eq_ok.mpr found, ?_⟩
    have step : deviceAt g.type ⟨firstIndex inventory g, g.devices⟩ index = .ok device := deviceAt_eq_ok.mpr at_
    simp only [zipIdx_cons, zipIdx_nil, mapM_cons, mapM_nil, step, take_zero]
    rfl

theorem Applied.numbered : Numbered inventory applied where
  consecutive := by
    rintro before g after rfl
    have member : g ∈ before ++ g :: after := by simp
    have outside : g ∉ sameName g.name before := by
      intro inside
      have apart := (nodup_append.mp is.fit.nodup).2.2
      exact apart g (mem_filter.mp inside).1 g mem_cons_self rfl
    have split : sameName g.name (before ++ g :: after) = sameName g.name before ++ g :: sameName g.name after := by
      simp [sameName]
    rw [is.profileOf_type member, Option.map_some, firstIndex, split, offset_append_of_not_mem _ outside,
      offset_cons_self, Nat.add_zero]
  disjoint := by
    intro g member g' member' sameNames index covers covers'
    obtain ⟨device, listed⟩ := is.record_of_covers member covers
    obtain ⟨device', listed'⟩ := is.record_of_covers member' covers'
    rw [← sameNames, listed] at listed'
    exact congrArg Prod.fst (Option.some.inj listed')
  covering := by
    intro name index
    have total : ((sameName name inventory).map deviceCount).sum =
        ((records inventory).filter (·.1.name = name)).length := by
      rw [records_filter, length_contents]
      rfl
    rw [total]
    constructor
    · rintro ⟨g, member, rfl, covers⟩
      obtain ⟨device, listed⟩ := is.record_of_covers member covers
      exact (List.getElem?_eq_some_iff.mp listed).1
    · intro below
      exact ⟨_, is.covers_of_record (getElem?_eq_getElem below)⟩
  ordered := by
    intro name index g device
    rw [record_at_iff is.fit, and_assoc]
    refine and_congr_right fun member => and_congr_right fun _ => ?_
    exact (is.devices_single_iff member).symm

theorem Applied.translating : Translating applied := by
  intro profileName profile found indexes distinct inRange
  obtain ⟨g, member, same⟩ := is.profileOf_iff.mp found
  have nodup : profile.devices.Nodup := by
    have devices : g.devices = profile.devices := congrArg (·.2.devices) same
    exact devices ▸ is.fit.distinct g member
  obtain ⟨selected, translated, -, different, -⟩ := devices_of_inRange found nodup distinct inRange
  refine ⟨selected, translated, different, ?_⟩
  obtain ⟨profile', found', each⟩ := devices_ok translated
  obtain rfl := Option.some.inj (found'.symm.trans found)
  exact each.imp fun _ _ at_ => (deviceAt_eq_ok.mp at_).2

end

theorem decode_encoded (fit : Configurable inventory) : ∃ wire applied, encodeAppliedInventory inventory =
      .ok (.applied wire "") ∧ Applied inventory applied ∧ wire.version = appliedInventoryVersion ∧
      ∀ fingerprint, decodeAppliedInventory (.applied { wire with cpuFingerprint := fingerprint } "") = .ok applied := by
  obtain ⟨applied, decoded, perm⟩ := decode_listed "" "" fun g member =>
    decodeProfile_profileWire fit member
  exact ⟨_, applied, encodeAppliedInventory_eq fit, ⟨perm, fit⟩, rfl, fun _ => decoded⟩

theorem fingerprinting {wire : AppliedInventoryWire} (version : wire.version = appliedInventoryVersion)
    (decoded : ∀ fingerprint,
      decodeAppliedInventory (.applied { wire with cpuFingerprint := fingerprint } "") = .ok applied) :
    Fingerprinting (.applied wire "") applied := by
  intro fingerprint
  have document : ∀ w : AppliedInventoryWire, w.version = appliedInventoryVersion →
      decodeWire (.applied w "") = .ok w := fun w current =>
    bind_eq_ok.mpr ⟨(), require_eq_ok.mpr current, rfl⟩
  refine ⟨wire, rfl, ?_, ?_, decoded fingerprint⟩
  · exact bind_eq_ok.mpr ⟨_, rfl, bind_eq_ok.mpr ⟨applied, decoded wire.cpuFingerprint,
      bind_eq_ok.mpr ⟨wire, document wire version, rfl⟩⟩⟩
  · exact bind_eq_ok.mpr ⟨applied, decoded fingerprint, bind_eq_ok.mpr ⟨_, document _ version, rfl⟩⟩

theorem Configurable.withNUMACores (fit : Configurable inventory) (numaCores : Nat → List Nat) :
    Configurable (inventory.map (·.withNUMACores numaCores)) where
  types := by
    rw [map_map]
    exact fit.types
  named := forall_mem_map.mpr fit.named
  some := forall_mem_map.mpr fit.some
  distinct := forall_mem_map.mpr fit.distinct
  published := forall_mem_map.mpr fit.published

theorem buildNodeGRESConfig_records (fit : Configurable inventory) (info : Option NodeInfo) :
    ∃ config, buildNodeGRESConfig inventory info = .ok config ∧
      config.gresConf = "+".intercalate ((records inventory).map (Record.text info)) := by
  have bound := fit.withNUMACores (numaCores info)
  have configs : (inventory.map (·.withNUMACores (numaCores info))).mapM LooseInventory.slurmConfig =
      .ok ((inventory.map (·.withNUMACores (numaCores info))).map fun g =>
        (g.entry, "+".intercalate (List.zipWith g.deviceRecord g.devices (g.devices.map pathOf)))) := by
    refine mapM_of_ok fun g member => ?_
    refine bind_eq_ok.mpr ⟨_, bound.entry member, ?_⟩
    refine bind_eq_ok.mpr ⟨(), require_eq_ok.mpr (bound.named g member).2, ?_⟩
    exact bind_eq_ok.mpr ⟨(), require_eq_ok.mpr (by simpa using bound.some g member), rfl⟩
  have extra : ∃ extra, inventoryExtra (inventory.map (·.withNUMACores (numaCores info))) = .ok extra := by
    unfold inventoryExtra
    split
    · exact ⟨_, rfl⟩
    · exact ⟨_, encodeAppliedInventory_eq bound⟩
  obtain ⟨extra, encoded⟩ := extra
  refine ⟨_, bind_eq_ok.mpr ⟨_, configs, bind_eq_ok.mpr ⟨extra, encoded, rfl⟩⟩, ?_⟩
  -- The records of one inventory are joined first.
  have groups : (records inventory).map (Record.text info) =
      (inventory.map fun g => g.devices.map fun device => Record.text info (g, device)).flatten := by
    rw [records, contents, map_flatMap, flatMap_def]
    simp only [map_map]
    rfl
  rw [groups, ← intercalate_flatten "+" (by simpa using fit.some)]
  simp only [map_map]
  refine congrArg _ (map_congr_left fun g _ => ?_)
  simp only [Function.comp_apply]
  rw [zipWith_map_right, zipWith_self]
  rfl

end

/-- Profiles with different names, and each with a GRES name and different devices in whose
driver and device names is no slash. -/
structure Admissible (inventory : List LooseInventory) : Prop where
  types : (inventory.map (·.type)).Nodup
  named : ∀ g ∈ inventory, g.type ≠ "" ∧ g.name ≠ ""
  some : ∀ g ∈ inventory, g.devices ≠ []
  distinct : ∀ g ∈ inventory, g.devices.Nodup
  plain : ∀ g ∈ inventory, ∀ device ∈ g.devices, '/' ∉ device.driver.toList ∧ '/' ∉ device.device.toList

def Complete (inventory : List LooseInventory) : Prop :=
  ∀ g ∈ inventory, ∀ device ∈ g.devices, device.driver ≠ "" ∧ device.pool ≠ "" ∧ device.device ≠ ""

/-- The index map of inventories of complete devices leads back to them. -/
theorem index_map_round_trip {inventory : List LooseInventory} (admissible : Admissible inventory)
    (complete : Complete inventory) (info : Option NodeInfo) :
    ∃ extra applied config, encodeAppliedInventory inventory = .ok extra ∧
      decodeAppliedInventory extra = .ok applied ∧ buildNodeGRESConfig inventory info = .ok config ∧
      (∀ profileName, (profileOf applied profileName).map (·.devices) =
        (inventory.find? (·.type = profileName)).map (·.devices)) ∧
      config.gresConf = "+".intercalate ((records inventory).map (Record.text info)) ∧
      Numbered inventory applied ∧ Translating applied ∧ Fingerprinting extra applied := by
  have fit : Configurable inventory := {
    types := admissible.types
    named := admissible.named
    some := admissible.some
    distinct := admissible.distinct
    published := fun g member device inside => by
      obtain ⟨driver, pool, name⟩ := complete g member device inside
      obtain ⟨freeDriver, freeName⟩ := admissible.plain g member device inside
      exact ⟨⟨driver, freeDriver⟩, pool, ⟨name, freeName⟩⟩ }
  obtain ⟨wire, applied, encoded, is, version, decoded⟩ := decode_encoded fit
  obtain ⟨config, built, gresConf⟩ := buildNodeGRESConfig_records fit info
  refine ⟨.applied wire "", applied, config, encoded, decoded wire.cpuFingerprint, built, fun profileName => ?_,
    gresConf, is.numbered, is.translating, fingerprinting version decoded⟩
  cases search : inventory.find? (·.type = profileName) with
  | some g =>
    have named := find?_some search
    simp only [decide_eq_true_eq] at named
    rw [← named, is.profileOf_type (mem_of_find?_eq_some search)]
    rfl
  | none =>
    cases found : profileOf applied profileName with
    | none => rfl
    | some profile =>
      obtain ⟨g, member, same⟩ := is.profileOf_iff.mp found
      have named : g.type = profileName := congrArg Prod.fst same
      exact absurd (by simpa using named) (find?_eq_none.mp search g member)

def sharedName : List LooseInventory :=
  [{ name := "gpu", type := "a", devices := [⟨"gpu.example.com", "rack/1", "gpu0"⟩] },
    { name := "gpu", type := "b", devices := [⟨"gpu.example.com", "rack", "gpu0"⟩] }]

theorem index_map_round_trip_sharedName : Admissible sharedName ∧ Complete sharedName ∧
    ∃ extra applied config, encodeAppliedInventory sharedName = .ok extra ∧
      decodeAppliedInventory extra = .ok applied ∧ buildNodeGRESConfig sharedName none = .ok config ∧
      (∀ profileName, (profileOf applied profileName).map (·.devices) =
        (sharedName.find? (·.type = profileName)).map (·.devices)) ∧
      config.gresConf = "+".intercalate ((records sharedName).map (Record.text none)) ∧
      Numbered sharedName applied ∧ Translating applied ∧ Fingerprinting extra applied := by
  have admissible : Admissible sharedName :=
    ⟨by decide, by decide, by decide, by decide, by decide⟩
  have complete : Complete sharedName := by
    unfold Complete
    decide
  exact ⟨admissible, complete, index_map_round_trip admissible complete none⟩

def withoutDriver : List LooseInventory :=
  [{ name := "gpu", type := "a", devices := [⟨"", "rack", "gpu0"⟩] }]

/-- Its map cannot be encoded. -/
theorem index_map_missing_withoutDriver : Admissible withoutDriver ∧
    ¬∃ extra, encodeAppliedInventory withoutDriver = .ok extra := by
  refine ⟨⟨by decide, by decide, by decide, by decide, by decide⟩, ?_⟩
  rintro ⟨extra, encoded⟩
  have failed : (encodeAppliedInventory withoutDriver).isOk = false := by decide
  rw [encoded] at failed
  cases failed

end SlurmBridge.Node.IndexRoundTrip
