/- source: internal/controller/node/slurmcontrol/slurmcontrol.go, hybrid_cpu.go, internal/dra/gres.go
   digest: The index map recorded on a hybrid node agrees with Slurm's numbering exactly if the
     reported GRES entries begin with those of the inventory. -/

import SlurmBridge.Node.Configuration

set_option autoImplicit false

namespace SlurmBridge.Node.HybridIndexes

open Foundation.Blocks Foundation.Checked Foundation.Text Dra.IndexedGRES Inventory.Topology
open Inventory.Fingerprint Node.Configuration List

def entryName (entry : String) : String := (split ':' entry).headD ""

/-- The type of an entry.  A single field after the name is a count. -/
def entryType (entry : String) : Option String :=
  match split ':' entry with
  | _ :: type :: _ :: _ => some type
  | _ => none

/-- How Slurm counts the devices of an entry.  The count of a plain entry is the number it
ends with. -/
structure Numbering where
  slots : String → Nat
  plain : ∀ g : GRESInventory, slots g.entry = g.devices.length

def nameEntries (gres name : String) : List String :=
  (gresEntries gres).filter (entryName · = name)

/-- The first index of an inventory's entry: Slurm numbers the devices of one GRES name
consecutively in the order of the reported entries. -/
def Numbering.firstIndex (numbering : Numbering) (gres : String) (g : GRESInventory) : Nat :=
  offset numbering.slots g.entry (nameEntries gres g.gres.name.text)

def Numbering.Grants (numbering : Numbering) (gres : String) (g : GRESInventory) (index : Nat) :
    Prop :=
  ∃ entry, (layout numbering.slots (nameEntries gres g.gres.name.text))[index]? = some entry ∧
    entryType entry = some g.gres.type.text

/-- The recorded map is right about an inventory: it starts at Slurm's first index, and leads
all granted indexes to distinct devices of the inventory. -/
def Translates (numbering : Numbering) (gres : String) (extra : Extra) (g : GRESInventory) : Prop :=
  ∃ applied profile, decodeAppliedInventory extra = .ok applied ∧
    (applied.find? (·.1 = g.gres.type.text)).map Prod.snd = some profile ∧
    profile.firstIndex = numbering.firstIndex gres g ∧
    ∀ indexes : List Nat, indexes.Nodup → (∀ index ∈ indexes, numbering.Grants gres g index) →
      ∃ selected, applied.devices g.gres.type.text indexes = .ok selected ∧
        selected.length = indexes.length ∧ selected.Nodup ∧ selected ⊆ g.devices

def neededEntries (draInventory : List GRESInventory) (g : GRESInventory) : List String :=
  (sameName g.gres.name draInventory).map GRESInventory.entry

/-- The reported entries that have devices begin with the entries of the inventory, and no
later one is of the type of an inventory. -/
def InOrder (numbering : Numbering) (gres : String) (inventory : List GRESInventory) : Prop :=
  ∀ g ∈ inventory, ∃ rest,
    (nameEntries gres g.gres.name.text).filter (0 < numbering.slots ·) =
      neededEntries inventory g ++ rest ∧
    ∀ entry ∈ rest, entryType entry ≠ some g.gres.type.text

theorem entry_eq (g : GRESInventory) :
    g.entry = (String.singleton ':').intercalate
      [g.gres.name.text, g.gres.type.text, numeral g.devices.length] := by
  apply String.toList_injective
  simp [GRESInventory.entry, GRES.toText]

theorem split_entry (g : GRESInventory) :
    split ':' g.entry = [g.gres.name.text, g.gres.type.text, numeral g.devices.length] := by
  rw [entry_eq]
  refine split_intercalate ':' (by simp) ?_
  have free (name : Name) : ':' ∉ name.text.toList := fun member =>
    (isNameChar_plain (name.plain ':' member)).2.2.1 rfl
  simp [free, not_mem_numeral (c := ':') (by decide)]

theorem entryName_entry (g : GRESInventory) : entryName g.entry = g.gres.name.text := by
  rw [entryName, split_entry]
  rfl

theorem entryType_entry (g : GRESInventory) : entryType g.entry = some g.gres.type.text := by
  rw [entryType, split_entry]

theorem entry_injective {g g' : GRESInventory} (same : g.entry = g'.entry) :
    g.gres.type.text = g'.gres.type.text := by
  have types := congrArg entryType same
  rw [entryType_entry, entryType_entry] at types
  exact Option.some.inj types

section
variable {digest : Canonical → String} {info : Option NodeInfo} {node : SlurmNode} {extra : Extra}
  {draInventory : List GRESInventory} {config : NodeGRESConfig} {g : GRESInventory}
  (numbering : Numbering)

theorem sameName_withNUMACores (name : Name) (cores : Nat → List Nat) :
    sameName name (draInventory.map (·.withNUMACores cores)) =
      (sameName name draInventory).map (·.withNUMACores cores) := by
  simp only [sameName, filter_map]
  rfl

section
variable (built : buildNodeGRESConfig draInventory info = .ok config)

include built

theorem types_nodup : (draInventory.map (·.gres.type.text)).Nodup:= by
  obtain ⟨-, -, encoded⟩ := buildNodeGRESConfig_ok built
  rw [inventoryExtra] at encoded
  split at encoded
  · rename_i none
    rw [map_eq_nil_iff.mp none]
    exact nodup_nil
  · have types := (encodeAppliedInventory_ok encoded).1
    rwa [map_map] at types

theorem entry_inj {h : GRESInventory} (member : g ∈ draInventory) (member' : h ∈ draInventory)
    (type : g.gres.type.text = h.gres.type.text) : g = h :=
  inj_on_of_nodup_map (types_nodup built) member member' type

theorem neededEntries_nodup : (neededEntries draInventory g).Nodup:= by
  have nodup : (sameName g.gres.name draInventory).Nodup :=
    (List.Nodup.of_map _ (types_nodup built)).filter _
  refine (nodup_map_iff_inj_on nodup).mpr ?_
  intro h member h' member' same
  exact entry_inj built (mem_filter.mp member).1 (mem_filter.mp member').1
    (entry_injective same)

theorem recorded_profile (recorded : hybridNodeExtra digest node info config.extra = .ok extra)
    (member : g ∈ draInventory) : ∃ applied, decodeAppliedInventory extra = .ok applied ∧
      (applied.find? (·.1 = g.gres.type.text)).map Prod.snd =
        some ⟨offset numbering.slots g.entry (neededEntries draInventory g), g.devices⟩ := by
  obtain ⟨-, -, encoded⟩ := buildNodeGRESConfig_ok built
  have some : draInventory ≠ [] := ne_nil_of_mem member
  rw [inventoryExtra, if_neg (by simpa using some)] at encoded
  obtain ⟨applied, decoded, profiles⟩ := decode_encoded encoded
  obtain ⟨_, _, _, _, -, -, -, form⟩ := hybridNodeExtra_ok recorded
  have map : decodeAppliedInventory extra = decodeAppliedInventory config.extra := by
    rcases form with ⟨-, -, same⟩ | ⟨-, topology⟩
    · rw [same]
    · exact encodeApplied_map topology.encoded (encodeAppliedInventory_ne_empty encoded)
  refine ⟨applied, map.trans decoded, ?_⟩
  have profile := profiles (g.withNUMACores (numaCores info)) (mem_map_of_mem member)
  rw [sameName_withNUMACores] at profile
  have position : offset numbering.slots g.entry (neededEntries draInventory g) =
      offset deviceCount (g.withNUMACores (numaCores info))
        ((sameName g.gres.name draInventory).map (·.withNUMACores (numaCores info))) := by
    have renamed : neededEntries draInventory g =
        ((sameName g.gres.name draInventory).map (·.withNUMACores (numaCores info))).map
          GRESInventory.entry := by
      rw [map_map]
      rfl
    rw [renamed]
    refine offset_map GRESInventory.entry (g.withNUMACores (numaCores info)) ?_
      (fun other _ => numbering.plain other)
    intro other inside same
    obtain ⟨h, inName, rfl⟩ := mem_map.mp inside
    have equal : h = g := entry_inj built (mem_filter.mp inName).1 member (entry_injective same)
    rw [equal]
  rw [position]
  exact profile

theorem neededEntries_subset (valid : validateHybridNodeGRES node.name node.gres config = .ok ()) :
    neededEntries draInventory g ⊆ (nameEntries node.gres g.gres.name.text).filter (0 < numbering.slots ·):= by
  intro entry member
  obtain ⟨h, inside, rfl⟩ := mem_map.mp member
  obtain ⟨inInventory, sameNames⟩ := mem_filter.mp inside
  have some := (buildNodeGRESConfig_ok built).1 h inInventory
  refine mem_filter.mpr ⟨mem_filter.mpr ⟨validateHybridNodeGRES_ok built valid h inInventory, ?_⟩, ?_⟩
  · simpa [entryName_entry] using sameNames
  · simpa [numbering.plain, length_pos_iff] using some

theorem firstIndex_eq (member : g ∈ draInventory) (gres : String) :
    numbering.firstIndex gres g = offset numbering.slots g.entry
      ((nameEntries gres g.gres.name.text).filter (0 < numbering.slots ·)) := by
  have some := (buildNodeGRESConfig_ok built).1 g member
  refine (offset_filter_pos ?_ _).symm
  simpa [numbering.plain, length_pos_iff] using some

end

theorem mem_neededEntries (member : g ∈ draInventory) : g.entry ∈ neededEntries draInventory g :=
  mem_map_of_mem (mem_filter.mpr ⟨member, by simp⟩)

end

section
variable {digest : Canonical → String} {info : Option NodeInfo} {node : SlurmNode} {extra : Extra}
  {draInventory : List GRESInventory} {config : NodeGRESConfig} {numbering : Numbering}

section
variable (built : buildNodeGRESConfig draInventory info = .ok config)

include built

theorem grants_inRange {g : GRESInventory} (member : g ∈ draInventory) {gres : String} {rest : List String}
    (ordered : (nameEntries gres g.gres.name.text).filter (0 < numbering.slots ·) =
      neededEntries draInventory g ++ rest)
    (others : ∀ entry ∈ rest, entryType entry ≠ some g.gres.type.text) {index : Nat}
    (granted : numbering.Grants gres g index) :
    offset numbering.slots g.entry (neededEntries draInventory g) ≤ index ∧
      index < offset numbering.slots g.entry (neededEntries draInventory g) + g.devices.length := by
  obtain ⟨entry, at_, type⟩ := granted
  rw [← layout_filter_pos, ordered, layout_append, getElem?_append] at at_
  split at at_
  · -- The entry at a position of the needed entries is that of an inventory of the same type.
    obtain ⟨inside, -⟩ := mem_layout.mp (mem_of_getElem? at_)
    obtain ⟨h, inName, rfl⟩ := mem_map.mp inside
    rw [entryType_entry] at type
    have same : h = g := entry_inj built (mem_filter.mp inName).1 member (Option.some.inj type)
    subst same
    rw [← numbering.plain h]
    exact ((layout_getElem? (neededEntries_nodup built)).mp at_).2
  · obtain ⟨inside, -⟩ := mem_layout.mp (mem_of_getElem? at_)
    exact absurd type (others entry inside)

theorem translates_of_inOrder (recorded : hybridNodeExtra digest node info config.extra = .ok extra)
    (inOrder : InOrder numbering node.gres draInventory) :
    ∀ g ∈ draInventory, Translates numbering node.gres extra g := by
  intro g member
  obtain ⟨rest, ordered, others⟩ := inOrder g member
  obtain ⟨applied, decoded, profile⟩ := recorded_profile numbering built recorded member
  refine ⟨applied, _, decoded, profile, ?_, ?_⟩
  · rw [firstIndex_eq numbering built member, ordered]
    exact (offset_append rest (mem_neededEntries member)).symm
  · intro indexes distinct granted
    exact devices_of_inRange profile g.nodup distinct fun index inside =>
      grants_inRange built member ordered others (granted index inside)

theorem inOrder_of_translates (valid : validateHybridNodeGRES node.name node.gres config = .ok ())
    (recorded : hybridNodeExtra digest node info config.extra = .ok extra)
    (translates : ∀ g ∈ draInventory, Translates numbering node.gres extra g) :
    InOrder numbering node.gres draInventory := by
  intro g member
  have agree : ∀ entry ∈ neededEntries draInventory g,
      offset numbering.slots entry
          ((nameEntries node.gres g.gres.name.text).filter (0 < numbering.slots ·)) =
        offset numbering.slots entry (neededEntries draInventory g) := by
    intro entry needed
    obtain ⟨h, inName, rfl⟩ := mem_map.mp needed
    obtain ⟨inInventory, sameNames⟩ := mem_filter.mp inName
    have sameNames : h.gres.name.text = g.gres.name.text := by simpa using sameNames
    have entries : neededEntries draInventory h = neededEntries draInventory g := by
      simp only [neededEntries, sameName, sameNames]
    obtain ⟨applied, profile, decoded, found, first, -⟩ := translates h inInventory
    obtain ⟨applied', decoded', found'⟩ := recorded_profile numbering built recorded inInventory
    obtain rfl := Except.ok.inj (decoded.symm.trans decoded')
    obtain rfl := Option.some.inj (found.symm.trans found')
    rw [← sameNames, ← firstIndex_eq numbering built inInventory, ← first, entries]
  obtain ⟨rest, ordered⟩ := (offsets_agree_iff (neededEntries_nodup built)
    (neededEntries_subset numbering built valid) (by simp)).mp agree
  refine ⟨rest, ordered.symm, ?_⟩
  -- An entry of the type further behind has an index that the map does not reach.
  intro entry inside type
  have some : 0 < numbering.slots entry := by
    have listed : entry ∈ (nameEntries node.gres g.gres.name.text).filter (0 < numbering.slots ·) :=
      ordered ▸ mem_append_right _ inside
    simpa using (mem_filter.mp listed).2
  obtain ⟨j, at_⟩ := mem_iff_getElem?.mp (mem_layout.mpr ⟨inside, some⟩)
  have granted : numbering.Grants node.gres g
      (((neededEntries draInventory g).map numbering.slots).sum + j) := by
    refine ⟨entry, ?_, type⟩
    rw [← layout_filter_pos, ← ordered, layout_append, ← length_layout, getElem?_append_right
      (Nat.le_add_right _ _), Nat.add_sub_cancel_left]
    exact at_
  obtain ⟨applied, profile, decoded, found, -, translated⟩ := translates g member
  obtain ⟨selected, devices, -⟩ := translated [_] (nodup_singleton _) (by simpa using granted)
  obtain ⟨applied', decoded', found'⟩ := recorded_profile numbering built recorded member
  obtain rfl := Except.ok.inj (decoded.symm.trans decoded')
  have below := inRange_of_devices found' devices
  have inside : offset numbering.slots g.entry (neededEntries draInventory g) + numbering.slots g.entry ≤ _ :=
    offset_add_size_le (mem_neededEntries member)
  rw [numbering.plain] at inside
  simp only at below
  omega

end

/-- For a hybrid node whose GRES text passed: the recorded map agrees with Slurm's numbering
exactly if the reported entries begin with those of the inventory, in its order. -/
theorem hybrid_index_map_iff (built : buildNodeGRESConfig draInventory info = .ok config)
    (valid : validateHybridNodeGRES node.name node.gres config = .ok ())
    (recorded : hybridNodeExtra digest node info config.extra = .ok extra) :
    (∀ g ∈ draInventory, Translates numbering node.gres extra g) ↔
      InOrder numbering node.gres draInventory :=
  ⟨inOrder_of_translates built valid recorded, translates_of_inOrder built recorded⟩

end

/-- The numbering that takes the last field of an entry as its count. -/
def lastField : Numbering where
  slots entry := Nat.ofDigitChars 10 ((split ':' entry).getLastD "").toList 0
  plain g := by
    rw [split_entry]
    simp [numeral, Nat.ofDigitChars_ten_toDigits]

def gpus (type : Name) (devices : List DeviceIdentity) (nodup : devices.Nodup)
    (published : ∀ device ∈ devices, device.Published) : GRESInventory where
  gres := ⟨⟨"gpu", by decide, all_eq_true.mp (by decide)⟩, type⟩
  devices := devices
  nodup := nodup
  published := published

def gpuDevice (device : String) : DeviceIdentity := ⟨"gpu.example.com", "node", device⟩

def nameA : Name := ⟨"a", by decide, all_eq_true.mp (by decide)⟩

def typeA : GRESInventory :=
  gpus nameA [gpuDevice "gpu0", gpuDevice "gpu1"] (by decide)
    (by simp; exact ⟨⟨by decide, by decide, by decide⟩, ⟨by decide, by decide, by decide⟩⟩)

def typeB : GRESInventory :=
  gpus ⟨"b", by decide, all_eq_true.mp (by decide)⟩ [gpuDevice "gpu2"] (by decide)
    (by simp; exact ⟨by decide, by decide, by decide⟩)

def twoTypes : List GRESInventory := [typeA, typeB]

def orderedNode : SlurmNode := { name := "node", gres := "gpu:a:2(S:0),gpu:b:1(S:1)" }

def swappedNode : SlurmNode := { name := "node", gres := "gpu:b:1,gpu:a:2" }

private theorem twoTypes_admitted (node : SlurmNode) (ok : (do
      let config ← (buildNodeGRESConfig twoTypes none).mapError ConfigError.text
      let _ ← validateHybridNodeGRES node.name node.gres config
      (hybridNodeExtra (fun _ => "") node none config.extra).mapError ConfigError.text).isOk = true) :
    ∃ config extra, buildNodeGRESConfig twoTypes none = .ok config ∧
      validateHybridNodeGRES node.name node.gres config = .ok () ∧
      hybridNodeExtra (fun _ => "") node none config.extra = .ok extra := by
  obtain ⟨extra, computed⟩ := exists_ok ok
  obtain ⟨config, built, rest⟩ := bind_eq_ok.mp computed
  obtain ⟨_, valid, recorded⟩ := bind_eq_ok.mp rest
  exact ⟨config, extra, mapError_eq_ok.mp built, valid, mapError_eq_ok.mp recorded⟩

theorem hybrid_index_map_iff_orderedNode :
    ∃ config extra, buildNodeGRESConfig twoTypes none = .ok config ∧
      validateHybridNodeGRES orderedNode.name orderedNode.gres config = .ok () ∧
      hybridNodeExtra (fun _ => "") orderedNode none config.extra = .ok extra ∧
      ∀ g ∈ twoTypes, Translates lastField orderedNode.gres extra g := by
  obtain ⟨config, extra, built, valid, recorded⟩ := twoTypes_admitted orderedNode
    (by decide +kernel)
  refine ⟨config, extra, built, valid, recorded, (hybrid_index_map_iff built valid recorded).mpr ?_⟩
  intro g member
  refine ⟨[], ?_, by simp⟩
  revert g
  decide +kernel

/-- Entries in another order pass as well, and the recorded map then is wrong. -/
theorem hybrid_index_map_wrong_swappedNode :
    ∃ config extra, buildNodeGRESConfig twoTypes none = .ok config ∧
      validateHybridNodeGRES swappedNode.name swappedNode.gres config = .ok () ∧
      hybridNodeExtra (fun _ => "") swappedNode none config.extra = .ok extra ∧
      ¬∀ g ∈ twoTypes, Translates lastField swappedNode.gres extra g := by
  obtain ⟨config, extra, built, valid, recorded⟩ := twoTypes_admitted swappedNode
    (by decide +kernel)
  refine ⟨config, extra, built, valid, recorded, fun translates => ?_⟩
  obtain ⟨rest, ordered, -⟩ := inOrder_of_translates built valid recorded translates typeA
    (by simp [twoTypes])
  have start : neededEntries twoTypes typeA <+:
      (nameEntries swappedNode.gres typeA.gres.name.text).filter (0 < lastField.slots ·) :=
    ⟨rest, ordered.symm⟩
  exact absurd start (by decide +kernel)

end SlurmBridge.Node.HybridIndexes
