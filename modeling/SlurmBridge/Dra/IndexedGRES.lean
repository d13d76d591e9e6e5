/- source: internal/dra/gres.go
   digest: Indexed GRES inventory of DRA devices, its Slurm configuration, and the map from
     Slurm's indexes to devices that is recorded in a node's Extra field. -/

import Mathlib.Data.List.AList
import Mathlib.Data.String.Basic
import SlurmBridge.Foundation.Blocks
import SlurmBridge.Foundation.Checked
import SlurmBridge.Foundation.NumberSets

set_option autoImplicit false

namespace SlurmBridge.Dra.IndexedGRES

open Foundation.Blocks Foundation.Checked Foundation.NumberSets Foundation.Text List

def isNameChar (c : Char) : Bool := c.isAlphanum || c == '-' || c == '_' || c == '.'

/-- A name that the profile registry accepted. -/
structure Name where
  text : String
  nonempty : text ≠ ""
  plain : ∀ c ∈ text.toList, isNameChar c = true
  deriving DecidableEq

structure DeviceIdentity where
  driver : String
  pool : String
  device : String
  deriving DecidableEq, Inhabited

/-- What the API server guarantees of a published device: only the pool name may have
several parts. -/
structure DeviceIdentity.Published (id : DeviceIdentity) : Prop where
  driver : id.driver ≠ "" ∧ '/' ∉ id.driver.toList
  pool : id.pool ≠ ""
  device : id.device ≠ "" ∧ '/' ∉ id.device.toList

/-- A Slurm generic resource.  The type is the name of the device profile. -/
structure GRES where
  name : Name
  type : Name
  deriving DecidableEq

def GRES.toText (gres : GRES) : String := gres.name.text ++ ":" ++ gres.type.text

/-- The devices behind one GRES, in the order of their indexes within the type. -/
structure GRESInventory where
  gres : GRES
  devices : List DeviceIdentity
  nodup : devices.Nodup
  published : ∀ device ∈ devices, device.Published
  numaNodes : List (DeviceIdentity × List Nat) := []
  cores : List (DeviceIdentity × List Nat) := []
  deriving DecidableEq

def numbersOf (map : List (DeviceIdentity × List Nat)) (device : DeviceIdentity) : List Nat :=
  ((map.find? (·.1 = device)).map Prod.snd).getD []

/-- The union of the cores of a device's NUMA nodes, if they form one range. -/
def contiguousCores (numaCores : Nat → List Nat) (nodes : List Nat) : Option (List Nat) :=
  let cores := (NumberSet.ofList (nodes.flatMap numaCores)).list
  match cores.head?, cores.getLast? with
  | some first, some last => if last - first = cores.length - 1 then some cores else none
  | _, _ => none

def GRESInventory.withNUMACores (g : GRESInventory) (numaCores : Nat → List Nat) : GRESInventory :=
  { g with cores := g.devices.filterMap fun device =>
      (contiguousCores numaCores (numbersOf g.numaNodes device)).map (device, ·) }

def GRESInventory.deviceCores (g : GRESInventory) (device : DeviceIdentity) : String :=
  (NumberSet.ofList (numbersOf g.cores device)).text

def devicePathPrefix : String := "/dra/"

def encodeDevicePath (id : DeviceIdentity) : Except String String := do
  require (id.driver ≠ "" ∧ id.pool ≠ "" ∧ id.device ≠ "")
    "DRA device identity must contain a driver, pool, and device name"
  return devicePathPrefix ++ id.driver ++ "/" ++ id.pool ++ "/" ++ id.device

/-- The paths of the devices.  Names are never empty here. -/
def GRESInventory.appliedInventoryEntry (g : GRESInventory) : Except String (List String) :=
  g.devices.zipIdx.mapM fun (id, i) =>
    relabel ("encode device profile " ++ g.gres.type.text.quote ++ " index " ++ numeral i ++ ": " ++ ·)
      (encodeDevicePath id)

def GRESInventory.deviceRecord (g : GRESInventory) (id : DeviceIdentity) (path : String) : String :=
  let record := "count=1,name=" ++ g.gres.name.text ++ ",type=" ++ g.gres.type.text ++ ",file=" ++ path
  if g.deviceCores id = "" then record else record ++ ",cpus=" ++ g.deviceCores id

def GRESInventory.entry (g : GRESInventory) : String :=
  g.gres.toText ++ ":" ++ numeral g.devices.length

def GRESInventory.slurmConfig (g : GRESInventory) : Except String (String × String) := do
  let paths ← g.appliedInventoryEntry
  require (paths ≠ []) ("cannot configure device profile " ++ g.gres.type.text.quote ++ " without devices")
  return (g.entry, "+".intercalate (List.zipWith g.deviceRecord g.devices paths))

/-- One profile of the recorded map. -/
structure AppliedProfileInventoryWire where
  firstIndex : Int
  devices : List String
  cores : List String := []
  deriving DecidableEq

/-- The JSON document of the recorded map.  The profiles are listed in the order of their
names, as the encoder writes them. -/
structure AppliedInventoryWire where
  version : Int
  profiles : Option (List (String × AppliedProfileInventoryWire))
  cpuFingerprint : String := ""
  deriving DecidableEq

/-- A node's Extra field.  The bridge owns the values that start with its mark; `spelling`
distinguishes documents of equal content and is empty for what the encoder writes. -/
inductive Extra
  | foreign (text : String)
  | applied (wire : AppliedInventoryWire) (spelling : String)
  | malformed (data : String)
  deriving DecidableEq

def Extra.empty : Extra := .foreign ""

def Extra.isOwned : Extra → Bool
  | .foreign _ => false
  | _ => true

def appliedInventoryVersion : Int := 1

/-- The profiles encoded so far and the next free index of each GRES name. -/
structure Encoding where
  profiles : List (String × AppliedProfileInventoryWire) := []
  nextIndexes : AList (fun _ : String => Nat) := ∅

/-- Append the devices of one profile to the indexes of its GRES name. -/
def encodeProfile (encoding : Encoding) (g : GRESInventory) : Except String Encoding := do
  let profileName := g.gres.type.text
  let paths ← g.appliedInventoryEntry
  require (∀ entry ∈ encoding.profiles, entry.1 ≠ profileName)
    ("cannot encode duplicate device profile " ++ profileName.quote)
  let firstIndex := (encoding.nextIndexes.lookup g.gres.name.text).getD 0
  let cores := if g.cores = [] then [] else g.devices.map g.deviceCores
  return {
    profiles := encoding.profiles ++ [(profileName, ⟨firstIndex, paths, cores⟩)]
    nextIndexes := encoding.nextIndexes.insert g.gres.name.text (firstIndex + paths.length) }

/-- Encode the inventory for the Extra field.  Slurm starts each GRES name at index zero and
assigns indexes across all types which share that name. -/
def encodeAppliedInventory (inventory : List GRESInventory) : Except String Extra := do
  let encoding ← inventory.foldlM encodeProfile {}
  return .applied
    ⟨appliedInventoryVersion, some (encoding.profiles.insertionSort (fun a b => a.1 ≤ b.1)), ""⟩ ""

/-- The devices of a contiguous range of indexes of one profile. -/
structure AppliedProfileInventory where
  firstIndex : Nat
  devices : List DeviceIdentity
  deriving DecidableEq

abbrev AppliedInventory := List (String × AppliedProfileInventory)

def cutLast (text : String) : Option (String × String) :=
  match text.toList.reverse.dropWhile (· != '/') with
  | [] => none
  | _ :: before => some (.ofList before.reverse, .ofList (text.toList.reverse.takeWhile (· != '/')).reverse)

def decodeDevicePath (path : String) : Except String DeviceIdentity := do
  let malformed := "device path " ++ path.quote ++ " must contain a driver, pool, and device name"
  let identity ← present ("device path " ++ path.quote ++ " must start with " ++ devicePathPrefix.quote)
    (if devicePathPrefix.toList <+: path.toList then
      some (String.ofList (path.toList.drop devicePathPrefix.toList.length)) else none)
  let (driver, rest, found) := cut '/' identity
  require (found = true) malformed
  let (pool, device) ← present malformed (cutLast rest)
  require (driver ≠ "" ∧ pool ≠ "" ∧ device ≠ "") malformed
  return ⟨driver, pool, device⟩

def decodeProfile (entry : String × AppliedProfileInventoryWire) :
    Except String (String × AppliedProfileInventory) := do
  require (entry.1 ≠ "") "applied inventory contains an empty device profile name"
  require (0 ≤ entry.2.firstIndex) ("applied inventory device profile " ++ entry.1.quote ++
    " has negative first Slurm GRES index " ++ toString entry.2.firstIndex)
  let devices ← entry.2.devices.mapM decodeDevicePath
  return (entry.1, ⟨entry.2.firstIndex.toNat, devices⟩)

/-- The document in an Extra value that the bridge owns and understands. -/
def decodeWire : Extra → Except String AppliedInventoryWire
  | .foreign _ => throw "slurm node Extra does not contain a DRA GRES map"
  | .malformed _ => throw "decode applied inventory: malformed document"
  | .applied wire _ => do
      require (wire.version = appliedInventoryVersion)
        ("unsupported applied inventory version " ++ toString wire.version)
      return wire

def decodeAppliedInventory (extra : Extra) : Except String AppliedInventory := do
  let wire ← decodeWire extra
  let profiles ← present "applied inventory has no profiles map" wire.profiles
  profiles.mapM decodeProfile

def deviceAt (profileName : String) (profile : AppliedProfileInventory) (index : Nat) :
    Except String DeviceIdentity :=
  present ("slurm GRES index " ++ numeral index ++ " is outside device profile " ++
      profileName.quote ++ " inventory range " ++ numeral profile.firstIndex ++ "-" ++
      numeral (profile.firstIndex + profile.devices.length - 1))
    (if profile.firstIndex ≤ index then profile.devices[index - profile.firstIndex]? else none)

def AppliedInventory.devices (inventory : AppliedInventory) (profileName : String)
    (indexes : List Nat) : Except String (List DeviceIdentity) := do
  let profile ← present ("applied inventory does not contain device profile " ++ profileName.quote)
    ((inventory.find? (·.1 = profileName)).map Prod.snd)
  let selected ← indexes.zipIdx.mapM fun (index, position) => do
    let device ← deviceAt profileName profile index
    require (index ∉ indexes.take position) ("slurm GRES index " ++ numeral index ++
      " is repeated for device profile " ++ profileName.quote)
    return device
  return selected

def orEmptyInventory (extra : Extra) : Except String Extra :=
  if extra = .empty then encodeAppliedInventory [] else pure extra

def withAppliedCPUFingerprint (extra : Extra) (fingerprint : String) : Except String Extra := do
  let extra ← orEmptyInventory extra
  let _ ← decodeAppliedInventory extra
  let wire ← decodeWire extra
  return .applied { wire with cpuFingerprint := fingerprint } ""

/-- The recorded CPU fingerprint, empty if only GRES was recorded. -/
def appliedCPUFingerprint (extra : Extra) : Except String String := do
  let _ ← decodeAppliedInventory extra
  let wire ← decodeWire extra
  return wire.cpuFingerprint

def pathOf (id : DeviceIdentity) : String :=
  devicePathPrefix ++ id.driver ++ "/" ++ id.pool ++ "/" ++ id.device

variable {id : DeviceIdentity}

theorem encodeDevicePath_eq (published : id.Published) : encodeDevicePath id = .ok (pathOf id) :=
  bind_eq_ok.mpr ⟨(), require_eq_ok.mpr ⟨published.driver.1, published.pool, published.device.1⟩, rfl⟩

private theorem cutLast_eq {before after : String} (free : '/' ∉ after.toList) :
    cutLast (before ++ "/" ++ after) = some (before, after) := by
  have all : ∀ c ∈ after.toList.reverse, (c != '/') = true := by
    intro c member
    simp only [bne_iff_ne, ne_eq]
    rintro rfl
    exact free (mem_reverse.mp member)
  have text : (before ++ "/" ++ after).toList.reverse =
      after.toList.reverse ++ '/' :: before.toList.reverse := by simp
  unfold cutLast
  rw [text, dropWhile_append_of_pos all, takeWhile_append_of_pos all]
  simp

theorem decodeDevicePath_pathOf (published : id.Published) : decodeDevicePath (pathOf id) = .ok id := by
  have mark : devicePathPrefix.toList <+: (pathOf id).toList :=
    ⟨(id.driver ++ "/" ++ id.pool ++ "/" ++ id.device).toList, by simp [pathOf]⟩
  have rest : String.ofList ((pathOf id).toList.drop devicePathPrefix.toList.length) =
      id.driver ++ String.singleton '/' ++ (id.pool ++ "/" ++ id.device) := by
    have split : (pathOf id).toList = devicePathPrefix.toList ++
        (id.driver ++ String.singleton '/' ++ (id.pool ++ "/" ++ id.device)).toList := by
      simp [pathOf]
    rw [split, drop_left' rfl, String.ofList_toList]
  unfold decodeDevicePath
  simp only [if_pos mark, rest]
  refine bind_eq_ok.mpr ⟨_, rfl, ?_⟩
  simp only [cut_separated published.driver.2]
  refine bind_eq_ok.mpr ⟨(), rfl, bind_eq_ok.mpr ⟨_, by rw [cutLast_eq published.device.2]; rfl, ?_⟩⟩
  exact bind_eq_ok.mpr ⟨(), require_eq_ok.mpr ⟨published.driver.1, published.pool, published.device.1⟩, rfl⟩

theorem devicePaths_eq {devices : List DeviceIdentity} (published : ∀ device ∈ devices, device.Published)
    (wrap : Nat → String → String) :
    (devices.zipIdx.mapM fun (entry : DeviceIdentity × Nat) => relabel (wrap entry.2) (encodeDevicePath entry.1)) =
      .ok (devices.map pathOf) := by
  have firsts : devices.map pathOf = devices.zipIdx.map fun entry => pathOf entry.1 := by
    rw [← Function.comp_def pathOf, ← map_map, zipIdx_map_fst]
  rw [firsts]
  refine mapM_of_ok ?_
  rintro ⟨id, i⟩ member
  have inside := (mem_zipIdx member).2.2
  refine relabel_eq_ok.mpr (encodeDevicePath_eq (published id ?_))
  rw [inside]
  exact getElem_mem _

theorem appliedInventoryEntry_eq (g : GRESInventory) :
    g.appliedInventoryEntry = .ok (g.devices.map pathOf) := by
  exact devicePaths_eq g.published fun i e =>
    "encode device profile " ++ g.gres.type.text.quote ++ " index " ++ numeral i ++ ": " ++ e

def sameName (name : Name) (inventory : List GRESInventory) : List GRESInventory :=
  inventory.filter (·.gres.name.text = name.text)

def deviceCount (g : GRESInventory) : Nat := g.devices.length

/-- The recorded profile of an inventory: its indexes start after those of the earlier
profiles of the same GRES name. -/
def profileWire (inventory : List GRESInventory) (g : GRESInventory) : String × AppliedProfileInventoryWire :=
  (g.gres.type.text, ⟨offset deviceCount g (sameName g.gres.name inventory), g.devices.map pathOf,
      if g.cores = [] then [] else g.devices.map g.deviceCores⟩)

/-- What the encoder has recorded of the inventories it has visited. -/
structure Recorded (visited : List GRESInventory) (encoding : Encoding) : Prop where
  types : (visited.map (·.gres.type.text)).Nodup
  profiles : encoding.profiles = visited.map (profileWire visited)
  next : ∀ name : Name, (encoding.nextIndexes.lookup name.text).getD 0 =
    ((sameName name visited).map deviceCount).sum

private theorem recorded_encodeProfile {visited : List GRESInventory} {encoding encoding' : Encoding}
    {g : GRESInventory} (now : Recorded visited encoding)
    (step : encodeProfile encoding g = .ok encoding') : Recorded (visited ++ [g]) encoding' := by
  obtain ⟨paths, entry, rest⟩ := bind_eq_ok.mp step
  obtain ⟨_, fresh, same⟩ := bind_eq_ok.mp rest
  rw [appliedInventoryEntry_eq] at entry
  obtain rfl := Except.ok.inj entry
  simp only [require_eq_ok] at fresh
  simp only [pure_eq_ok] at same
  subst same
  have newType : ∀ other ∈ visited, other.gres.type.text ≠ g.gres.type.text := by
    intro other member
    exact fresh (profileWire visited other) (by rw [now.profiles]; exact mem_map_of_mem member)
  have absent : g ∉ visited := fun member => newType g member rfl
  have own : offset deviceCount g (sameName g.gres.name (visited ++ [g])) =
      ((sameName g.gres.name visited).map deviceCount).sum :=
    offset_filter_snoc_self (by simp) absent
  have others : ∀ other ∈ visited, profileWire (visited ++ [g]) other = profileWire visited other := by
    intro other member
    simp only [profileWire, sameName]
    rw [offset_filter_snoc_of_mem g (by simp) member]
  exact {
    types := by
      rw [map_append, nodup_append]
      refine ⟨now.types, nodup_singleton _, ?_⟩
      intro name member last single same
      obtain ⟨other, inVisited, rfl⟩ := mem_map.mp member
      rw [map_singleton, mem_singleton] at single
      exact newType other inVisited (same.trans single)
    profiles := by
      rw [map_append, map_singleton, map_congr_left others, now.profiles]
      simp only [profileWire, own, now.next g.gres.name]
    next := by
      intro name
      by_cases sameNames : name.text = g.gres.name.text
      · rw [sameNames, AList.lookup_insert, Option.getD_some, now.next g.gres.name]
        simp [sameName, sameNames, filter_append, deviceCount]
      · rw [AList.lookup_insert_ne sameNames, now.next name]
        simp [sameName, filter_append, Ne.symm sameNames] }

variable {inventory : List GRESInventory} {extra : Extra}

theorem encodeAppliedInventory_ok (encoded : encodeAppliedInventory inventory = .ok extra) :
    (inventory.map (·.gres.type.text)).Nodup ∧ extra = .applied ⟨appliedInventoryVersion,
        some ((inventory.map (profileWire inventory)).insertionSort (fun a b => a.1 ≤ b.1)), ""⟩ "" := by
  obtain ⟨encoding, loop, same⟩ := bind_eq_ok.mp encoded
  simp only [pure_eq_ok] at same
  have recorded : Recorded inventory encoding :=
    foldlM_ok Recorded (fun _ _ _ _ => recorded_encodeProfile) ⟨by simp, rfl, fun _ => rfl⟩ loop
  exact ⟨recorded.types, by rw [← same, recorded.profiles]⟩

def appliedProfile (inventory : List GRESInventory) (g : GRESInventory) : String × AppliedProfileInventory :=
  (g.gres.type.text, ⟨offset deviceCount g (sameName g.gres.name inventory), g.devices⟩)

private theorem decodeProfile_profileWire (inventory : List GRESInventory) (g : GRESInventory) :
    decodeProfile (profileWire inventory g) = .ok (appliedProfile inventory g) := by
  have paths : (g.devices.map pathOf).mapM decodeDevicePath = .ok g.devices := by
    rw [mapM_map, mapM_of_ok (g := id) (fun device member => by
      exact decodeDevicePath_pathOf (g.published device member)), map_id]
  refine bind_eq_ok.mpr ⟨(), require_eq_ok.mpr g.gres.type.nonempty, ?_⟩
  refine bind_eq_ok.mpr ⟨(), require_eq_ok.mpr (Int.natCast_nonneg _), ?_⟩
  exact bind_eq_ok.mpr ⟨_, paths, rfl⟩

variable {applied : AppliedInventory} {profileName : String} {profile : AppliedProfileInventory}

theorem profile_found_iff (distinct : (applied.map Prod.fst).Nodup) :
    (applied.find? (·.1 = profileName)).map Prod.snd = some profile ↔ (profileName, profile) ∈ applied := by
  constructor
  · intro found
    obtain ⟨⟨name, _⟩, search, rfl⟩ := Option.map_eq_some_iff.mp found
    have named := find?_some search
    simp only [decide_eq_true_eq] at named
    exact named ▸ mem_of_find?_eq_some search
  · intro member
    cases search : applied.find? (·.1 = profileName) with
    | none => simpa using find?_eq_none.mp search _ member
    | some entry =>
      have named := find?_some search
      simp only [decide_eq_true_eq] at named
      rw [inj_on_of_nodup_map distinct (mem_of_find?_eq_some search) member named]
      rfl

theorem decode_listed {ι : Type} {items : List ι} {wire : ι → String × AppliedProfileInventoryWire}
    {profile : ι → String × AppliedProfileInventory} (fingerprint spelling : String)
    (each : ∀ g ∈ items, decodeProfile (wire g) = .ok (profile g)) :
    ∃ applied : AppliedInventory, decodeAppliedInventory (.applied ⟨appliedInventoryVersion,
        some ((items.map wire).insertionSort (fun a b => a.1 ≤ b.1)), fingerprint⟩ spelling) = .ok applied ∧
      applied.Perm (items.map profile) := by
  have sorted := perm_insertionSort (fun a b : ι => (wire a).1 ≤ (wire b).1) items
  have order : (items.map wire).insertionSort (fun a b => a.1 ≤ b.1) =
      (items.insertionSort fun a b => (wire a).1 ≤ (wire b).1).map wire :=
    (map_insertionSort (fun a b : ι => (wire a).1 ≤ (wire b).1) (fun a b => a.1 ≤ b.1) wire items
      (fun _ _ _ _ => Iff.rfl)).symm
  refine ⟨_, bind_eq_ok.mpr ⟨_, bind_eq_ok.mpr ⟨(), require_eq_ok.mpr rfl, rfl⟩, ?_⟩, sorted.map profile⟩
  refine bind_eq_ok.mpr ⟨_, rfl, ?_⟩
  rw [order, mapM_map]
  exact mapM_of_ok fun g member => each g (sorted.mem_iff.mp member)

section
variable (encoded : encodeAppliedInventory inventory = .ok extra)

include encoded

private theorem decode_encoded_perm : ∃ applied : AppliedInventory, decodeAppliedInventory extra = .ok applied ∧
      applied.Perm (inventory.map (appliedProfile inventory)) ∧ (applied.map Prod.fst).Nodup := by
  obtain ⟨types, rfl⟩ := encodeAppliedInventory_ok encoded
  obtain ⟨applied, decoded, perm⟩ := decode_listed "" "" fun g _ => decodeProfile_profileWire inventory g
  refine ⟨applied, decoded, perm, (perm.map Prod.fst).nodup_iff.mpr ?_⟩
  rw [map_map]
  exact types

theorem decode_encoded : ∃ applied, decodeAppliedInventory extra = .ok applied ∧ ∀ g ∈ inventory,
      (applied.find? (·.1 = g.gres.type.text)).map Prod.snd =
        some ⟨offset deviceCount g (sameName g.gres.name inventory), g.devices⟩ := by
  obtain ⟨applied, decoded, perm, distinct⟩ := decode_encoded_perm encoded
  exact ⟨applied, decoded, fun g member =>
    (profile_found_iff distinct).mpr (perm.mem_iff.mpr (mem_map_of_mem member))⟩

theorem inventory_of_decoded (decoded : decodeAppliedInventory extra = .ok applied)
    (found : (applied.find? (·.1 = profileName)).map Prod.snd = some profile) :
    ∃ g ∈ inventory, g.gres.type.text = profileName ∧ profile.devices = g.devices := by
  obtain ⟨applied', decoded', perm, distinct⟩ := decode_encoded_perm encoded
  obtain rfl := Except.ok.inj (decoded.symm.trans decoded')
  obtain ⟨g, member, same⟩ := mem_map.mp (perm.mem_iff.mp ((profile_found_iff distinct).mp found))
  exact ⟨g, member, congrArg Prod.fst same, (congrArg (·.2.devices) same).symm⟩

theorem encodeAppliedInventory_ne_empty : extra ≠ .empty:= by
  rw [(encodeAppliedInventory_ok encoded).2]
  exact Extra.noConfusion

end

variable {extra' : Extra} {fingerprint : String}

theorem withAppliedCPUFingerprint_ok (recorded : withAppliedCPUFingerprint extra fingerprint = .ok extra') :
    ∃ base inventory, ∃ wire : AppliedInventoryWire, orEmptyInventory extra = .ok base ∧
      decodeAppliedInventory base = .ok inventory ∧ decodeAppliedInventory extra' = .ok inventory ∧
      extra' = .applied { wire with cpuFingerprint := fingerprint } "" ∧
      wire.version = appliedInventoryVersion := by
  obtain ⟨base, orEmpty, rest⟩ := bind_eq_ok.mp recorded
  obtain ⟨inventory, map, rest⟩ := bind_eq_ok.mp rest
  obtain ⟨wire, decoded, same⟩ := bind_eq_ok.mp rest
  obtain rfl := pure_eq_ok.mp same
  cases base with
  | foreign text => cases decoded
  | malformed data => cases decoded
  | applied wire' spelling =>
    obtain ⟨_, version, same⟩ := bind_eq_ok.mp decoded
    obtain rfl := pure_eq_ok.mp same
    refine ⟨_, inventory, wire', orEmpty, map, ?_, rfl, require_eq_ok.mp version⟩
    rw [← map]
    simp only [decodeAppliedInventory, decodeWire, require, if_pos (require_eq_ok.mp version)]
    rfl

theorem decode_withAppliedCPUFingerprint (some : extra ≠ .empty)
    (recorded : withAppliedCPUFingerprint extra fingerprint = .ok extra') :
    decodeAppliedInventory extra' = decodeAppliedInventory extra := by
  obtain ⟨base, inventory, wire, orEmpty, map, map', -⟩ := withAppliedCPUFingerprint_ok recorded
  rw [orEmptyInventory, if_neg some] at orEmpty
  obtain rfl := pure_eq_ok.mp orEmpty
  rw [map, map']

theorem appliedCPUFingerprint_withApplied
    (recorded : withAppliedCPUFingerprint extra fingerprint = .ok extra') :
    extra'.isOwned = true ∧ appliedCPUFingerprint extra' = .ok fingerprint := by
  obtain ⟨base, inventory, wire, -, -, map, rfl, version⟩ := withAppliedCPUFingerprint_ok recorded
  refine ⟨rfl, bind_eq_ok.mpr ⟨inventory, map, ?_⟩⟩
  exact bind_eq_ok.mpr ⟨_, bind_eq_ok.mpr ⟨(), require_eq_ok.mpr version, rfl⟩, rfl⟩

section
variable {applied : AppliedInventory} {profileName : String} {profile : AppliedProfileInventory}

variable {index : Nat} {id : DeviceIdentity}

theorem deviceAt_eq_ok : deviceAt profileName profile index = .ok id ↔
      profile.firstIndex ≤ index ∧ profile.devices[index - profile.firstIndex]? = some id := by
  rw [deviceAt, present_eq_ok]
  split <;> simp_all

theorem deviceAt_injective (nodup : profile.devices.Nodup) {index' : Nat}
    (found : deviceAt profileName profile index = .ok id)
    (found' : deviceAt profileName profile index' = .ok id) : index = index' := by
  obtain ⟨above, at_⟩ := deviceAt_eq_ok.mp found
  obtain ⟨above', at'⟩ := deviceAt_eq_ok.mp found'
  have same := (List.getElem?_inj (List.getElem?_eq_some_iff.mp at_).1 nodup).mp (at_.trans at'.symm)
  omega

variable {indexes : List Nat}

theorem devices_of_inRange (found : (applied.find? (·.1 = profileName)).map Prod.snd = some profile)
    (nodup : profile.devices.Nodup) (distinct : indexes.Nodup)
    (inRange : ∀ index ∈ indexes, profile.firstIndex ≤ index ∧ index < profile.firstIndex + profile.devices.length) :
    ∃ selected, applied.devices profileName indexes = .ok selected ∧
      selected.length = indexes.length ∧ selected.Nodup ∧ selected ⊆ profile.devices := by
  have each : ∀ index ∈ indexes, ∃ id, deviceAt profileName profile index = .ok id ∧ id ∈ profile.devices := by
    intro index member
    have inside : index - profile.firstIndex < profile.devices.length := by
      have := inRange index member
      omega
    exact ⟨profile.devices[index - profile.firstIndex],
      deviceAt_eq_ok.mpr ⟨(inRange index member).1, getElem?_eq_getElem inside⟩,
      getElem_mem inside⟩
  choose! device translated listed using each
  refine ⟨indexes.map device, ?_, length_map _, ?_, ?_⟩
  · refine bind_eq_ok.mpr ⟨profile, present_eq_ok.mpr found, ?_⟩
    have firsts : indexes.map device = indexes.zipIdx.map (fun entry => device entry.1) := by
      have split : indexes.zipIdx.map (fun entry => device entry.1) =
          (indexes.zipIdx.map Prod.fst).map device := by
        rw [map_map]
        rfl
      rw [split, zipIdx_map_fst]
    rw [firsts]
    refine mapM_of_ok ?_
    rintro ⟨index, position⟩ member
    obtain ⟨-, below, at_⟩ := mem_zipIdx member
    have inside : index ∈ indexes := by rw [at_]; exact getElem_mem _
    refine bind_eq_ok.mpr ⟨_, translated index inside, bind_eq_ok.mpr ⟨(), require_eq_ok.mpr ?_, rfl⟩⟩
    -- An earlier occurrence of the index would be a repetition.
    intro earlier
    obtain ⟨i, before, same⟩ := mem_take_iff_getElem.mp earlier
    have equal := (List.Nodup.getElem_inj_iff distinct).mp (same.trans at_)
    omega
  · refine (nodup_map_iff_inj_on distinct).mpr ?_
    intro a memberA b memberB same
    exact deviceAt_injective nodup (translated a memberA) (same ▸ translated b memberB)
  · intro id member
    obtain ⟨index, inside, rfl⟩ := mem_map.mp member
    exact listed index inside

variable {selected : List DeviceIdentity}

theorem devices_ok (translated : applied.devices profileName indexes = .ok selected) :
    ∃ profile, (applied.find? (·.1 = profileName)).map Prod.snd = some profile ∧
      List.Forall₂ (fun index device => deviceAt profileName profile index = .ok device) indexes selected := by
  obtain ⟨profile, found, each⟩ := bind_eq_ok.mp translated
  refine ⟨profile, present_eq_ok.mp found, ?_⟩
  rw [← zipIdx_map_fst 0 indexes, forall₂_map_left_iff]
  refine (mapM_forall₂ each).imp fun entry device step => ?_
  obtain ⟨device', at_, rest⟩ := bind_eq_ok.mp step
  obtain ⟨_, -, same⟩ := bind_eq_ok.mp rest
  exact pure_eq_ok.mp same ▸ at_

theorem inRange_of_devices (found : (applied.find? (·.1 = profileName)).map Prod.snd = some profile)
    (translated : applied.devices profileName [index] = .ok selected) :
    index < profile.firstIndex + profile.devices.length := by
  obtain ⟨profile', found', each⟩ := devices_ok translated
  obtain rfl := Option.some.inj (found'.symm.trans found)
  obtain ⟨device, -, at_, -, -⟩ := List.forall₂_cons_left_iff.mp each
  obtain ⟨above, listed⟩ := deviceAt_eq_ok.mp at_
  have inside := (List.getElem?_eq_some_iff.mp listed).1
  omega

def Leads (extra : Extra) (profileName : String) (index : Nat) (device : DeviceIdentity) : Prop :=
  ∃ applied profile, decodeAppliedInventory extra = .ok applied ∧
    (applied.find? (·.1 = profileName)).map Prod.snd = some profile ∧
    deviceAt profileName profile index = .ok device

/-- The map in an Extra value leads different indexes to different devices. -/
def Separates (extra : Extra) : Prop :=
  ∀ profileName index profileName' index' device, Leads extra profileName index device →
    Leads extra profileName' index' device → profileName = profileName' ∧ index = index'

variable {extra extra' : Extra} {device : DeviceIdentity}

theorem leads_congr (same : decodeAppliedInventory extra = decodeAppliedInventory extra')
    (leads : Leads extra profileName index device) : Leads extra' profileName index device := by
  obtain ⟨applied, profile, decoded, rest⟩ := leads
  exact ⟨applied, profile, same ▸ decoded, rest⟩

theorem separates_congr (same : decodeAppliedInventory extra = decodeAppliedInventory extra')
    (separates : Separates extra) : Separates extra' :=
  fun _ _ _ _ _ leads leads' => separates _ _ _ _ _ (leads_congr same.symm leads) (leads_congr same.symm leads')

theorem not_leads_foreign (foreign : extra.isOwned = false) : ¬Leads extra profileName index device := by
  rintro ⟨applied, profile, decoded, -⟩
  cases extra with
  | foreign text => cases decoded
  | applied wire spelling => cases foreign
  | malformed data => cases foreign

theorem separates_foreign (foreign : extra.isOwned = false) : Separates extra :=
  fun _ _ _ _ _ leads => absurd leads (not_leads_foreign foreign)

theorem separates_encoded {inventory : List GRESInventory} (nodup : (inventory.flatMap (·.devices)).Nodup)
    (encoded : encodeAppliedInventory inventory = .ok extra) : Separates extra := by
  rintro profileName index profileName' index' device ⟨applied, profile, decoded, found, at_⟩
    ⟨applied', profile', decoded', found', at'⟩
  obtain rfl := Except.ok.inj (decoded.symm.trans decoded')
  obtain ⟨g, member, rfl, devices⟩ := inventory_of_decoded encoded decoded found
  obtain ⟨g', member', rfl, devices'⟩ := inventory_of_decoded encoded decoded found'
  have inside : device ∈ g.devices := devices ▸ mem_of_getElem? (deviceAt_eq_ok.mp at_).2
  have inside' : device ∈ g'.devices := devices' ▸ mem_of_getElem? (deviceAt_eq_ok.mp at').2
  -- The device belongs to one inventory, and has one place there.
  obtain rfl : g = g' := by
    by_contra different
    have : Std.Symm (Function.onFun List.Disjoint fun g : GRESInventory => g.devices) :=
      ⟨fun _ _ apart => List.Disjoint.symm apart⟩
    exact (nodup_flatMap.mp nodup).2.forall member member' different inside inside'
  obtain rfl := Option.some.inj (found.symm.trans found')
  exact ⟨rfl, deviceAt_injective (devices ▸ g.nodup) at_ at'⟩

theorem separates_withApplied {fingerprint : String} (separates : Separates extra)
    (recorded : withAppliedCPUFingerprint extra fingerprint = .ok extra') : Separates extra' := by
  obtain ⟨base, inventory, wire, orEmpty, map, map', -⟩ := withAppliedCPUFingerprint_ok recorded
  refine separates_congr (map.trans map'.symm) ?_
  rw [orEmptyInventory] at orEmpty
  split at orEmpty
  · exact separates_encoded (by simp) orEmpty
  · exact pure_eq_ok.mp orEmpty ▸ separates

theorem leads_of_devices (decoded : decodeAppliedInventory extra = .ok applied)
    (translated : applied.devices profileName indexes = .ok selected) :
    List.Forall₂ (Leads extra profileName) indexes selected := by
  obtain ⟨profile, found, each⟩ := devices_ok translated
  exact each.imp fun index device at_ => ⟨applied, profile, decoded, found, at_⟩

end

end SlurmBridge.Dra.IndexedGRES
