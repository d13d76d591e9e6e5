/- source: internal/dra/inventory.go
   digest: The inventory of a node is a function of the slices in the highest generation of each pool: it
     lists each device of the node that a profile selects once, in one order. -/

import SlurmBridge.Dra.PoolSnapshots

set_option autoImplicit false

namespace SlurmBridge.Dra.CanonicalInventory

open scoped List
open Foundation.Checked Foundation.Generations Foundation.Sorting Inventory.Devices Dra.IndexedGRES
open Dra.Inventory Dra.Profiles Dra.PoolSnapshots List Option

section
variable (registry : Registry) (node : String)

def poolDevices (latest : List ResourceSlice) (id : ResourcePoolID) : List ListedDevice :=
  if latest.any fun slice => slice.nodeName = some node then
    latest.flatMap (listDevices (registry.profilesForDriver id.driver))
  else []

def listedDevices (slices : List ResourceSlice) : List ListedDevice :=
  (poolIDs registry slices).flatMap fun id => poolDevices registry node (latestOf registry slices id) id

variable {registry node}

private theorem poolDevices_eq (latest : List ResourceSlice) (id : ResourcePoolID) :
    (((snapshotFrom registry id latest).toList.filter (assignedTo node)).flatMap fun snapshot =>
      snapshot.slices.flatMap (listDevices snapshot.profiles)) = poolDevices registry node latest id := by
  cases latest with
  | nil => rfl
  | cons first rest =>
    unfold poolDevices snapshotFrom
    by_cases own : ((first :: rest).any fun slice => slice.nodeName = some node) = true
    · rw [if_pos own, toList_some, filter_singleton]
      simp only [assignedTo, own, Bool.cond_true, flatMap_singleton]
    · rw [if_neg own, toList_some, filter_singleton]
      simp only [assignedTo, own, Bool.cond_false, flatMap_nil]

theorem listedDevices_eq (slices : List ResourceSlice) :
    (((snapshotsOf registry slices).filter (assignedTo node)).flatMap fun snapshot =>
      snapshot.slices.flatMap (listDevices snapshot.profiles)) = listedDevices registry node slices := by
  rw [snapshotsOf_eq, listedDevices]
  generalize poolIDs registry slices = ids
  induction ids with
  | nil => rfl
  | cons id ids ih =>
    have split : (id :: ids).filterMap (fun id => snapshotFrom registry id (latestOf registry slices id)) =
        (snapshotFrom registry id (latestOf registry slices id)).toList ++
          ids.filterMap fun id => snapshotFrom registry id (latestOf registry slices id) := by
      cases found : snapshotFrom registry id (latestOf registry slices id) <;> simp [found]
    rw [flatMap_cons, ← ih, ← poolDevices_eq, split, filter_append, flatMap_append]

variable {slices slices' : List ResourceSlice}

theorem latestOf_perm (registry : Registry)
    (trimmed : Trimmed resourcePoolIDFromSlice generationOf slices slices') (id : ResourcePoolID) :
    latestOf registry slices id ~ latestOf registry slices' id := by
  refine (trimmed.filter ?_).newest_perm id
  intro a b same
  rw [show a.driver = b.driver from congrArg ResourcePoolID.driver same]

private theorem poolDevices_perm {latest latest' : List ResourceSlice} (perm : latest ~ latest') (id : ResourcePoolID) :
    poolDevices registry node latest id ~ poolDevices registry node latest' id := by
  unfold poolDevices
  rw [perm.any_eq]
  split
  · exact perm.flatMap_right _
  · exact .refl _

theorem listedDevices_perm (latest : ∀ id, latestOf registry slices id ~ latestOf registry slices' id) :
    listedDevices registry node slices ~ listedDevices registry node slices' := by
  have ids : poolIDs registry slices = poolIDs registry slices' := by
    refine poolIDs_congr fun id => ⟨fun none => ?_, fun none => ?_⟩
    · exact ((latest id).symm.trans (.of_eq none)).eq_nil
    · exact ((latest id).trans (.of_eq none)).eq_nil
  unfold listedDevices
  rw [ids]
  exact List.Perm.flatMap_left _ fun id _ => poolDevices_perm (latest id) id

end

section
variable {compile : Compiler} {profiles : List DeviceProfile} {identity : DeviceIdentity} {device : Device}

theorem matchDeviceProfile_ok {result : Option DeviceProfile}
    (matched : matchDeviceProfile compile profiles identity device = .ok result) :
    ∀ profile, result = some profile ↔ profile ∈ profiles ∧ deviceMatches compile profile identity device = .ok true := by
  refine foldlM_ok (fun visited now => ∀ profile, now = some profile ↔
    profile ∈ visited ∧ deviceMatches compile profile identity device = .ok true) ?_ (by simp) matched
  intro visited profile now next known step other
  obtain ⟨accepts, evaluated, rest⟩ := bind_eq_ok.mp step
  split at rest
  · rename_i yes
    obtain ⟨_, fresh, same⟩ := bind_eq_ok.mp rest
    rw [absent_eq_ok] at fresh
    obtain rfl := pure_eq_ok.mp same
    constructor
    · intro chosen
      obtain rfl := some.inj chosen
      exact ⟨by simp, yes ▸ evaluated⟩
    · rintro ⟨inside, selected⟩
      rcases mem_append.mp inside with old | new
      · exact absurd ((known other).mpr ⟨old, selected⟩) (by simp [fresh])
      · rw [mem_singleton.mp new]
  · rename_i no
    obtain rfl := pure_eq_ok.mp rest
    rw [known other, mem_append, mem_singleton]
    constructor
    · rintro ⟨inside, selected⟩
      exact ⟨.inl inside, selected⟩
    · rintro ⟨old | rfl, selected⟩
      · exact ⟨old, selected⟩
      · rw [evaluated] at selected
        exact absurd (Except.ok.inj selected) no

variable (compile)

def classify (listed : ListedDevice) : Except String (Option FoundDevice) :=
  (Option.map fun profile => ⟨profile, listed.identity, deviceNUMANodes listed.device⟩) <$>
    matchDeviceProfile compile listed.profiles listed.identity listed.device

def accepted (listed : List ListedDevice) : List FoundDevice :=
  listed.filterMap fun device => (classify compile device).toOption.join

variable {compile} {found : List FoundDevice} {listed : List ListedDevice} {one : ListedDevice}

private theorem accepted_singleton {result : Option FoundDevice}
    (classified : classify compile one = .ok result) : accepted compile [one] = result.toList := by
  cases result <;> simp [accepted, classified, Except.toOption]

private theorem visitDevice_eq (found : List FoundDevice) (one : ListedDevice) :
    visitDevice compile found one = classify compile one >>= fun result =>
      match result with
      | none => pure found
      | some device => do
          require (device.identity ∉ found.map (·.identity))
            ("duplicate DRA device identity " ++ (identityText device.identity).quote)
          return found ++ [device] := by
  unfold visitDevice classify
  cases matchDeviceProfile compile one.profiles one.identity one.device with
  | error e => rfl
  | ok result => cases result <;> rfl

theorem visitDevice_ok_iff {next : List FoundDevice} : visitDevice compile found one = .ok next ↔
      (∃ result, classify compile one = .ok result) ∧ next = found ++ accepted compile [one] ∧
        ∀ device ∈ accepted compile [one], device.identity ∉ found.map (·.identity) := by
  rw [visitDevice_eq, bind_eq_ok]
  constructor
  · rintro ⟨result, classified, rest⟩
    rw [accepted_singleton classified]
    cases result with
    | none => exact ⟨⟨none, classified⟩, by simpa using (pure_eq_ok.mp rest).symm, by simp⟩
    | some device =>
      obtain ⟨_, fresh, same⟩ := bind_eq_ok.mp rest
      exact ⟨⟨_, classified⟩, (pure_eq_ok.mp same).symm, by simpa using fresh⟩
  · rintro ⟨⟨result, classified⟩, rfl, fresh⟩
    rw [accepted_singleton classified] at fresh ⊢
    refine ⟨result, classified, ?_⟩
    cases result with
    | none => simp [pure, Except.pure]
    | some device =>
      exact bind_eq_ok.mpr ⟨(), require_eq_ok.mpr (fresh device (by simp)), rfl⟩

theorem visitDevices_ok_iff : listed.foldlM (visitDevice compile) [] = .ok found ↔
    (∀ one ∈ listed, ∃ result, classify compile one = .ok result) ∧ found = accepted compile listed ∧
      ((accepted compile listed).map (·.identity)).Nodup := by
  induction listed using List.reverseRecOn generalizing found with
  | nil => simp [accepted, pure, Except.pure, eq_comm]
  | append_singleton visited one ih =>
    have grown : accepted compile (visited ++ [one]) = accepted compile visited ++ accepted compile [one] :=
      filterMap_append
    have short : ((accepted compile [one]).map (·.identity)).Nodup := by
      cases joined : (classify compile one).toOption.join <;> simp [accepted, joined]
    rw [foldlM_append, bind_eq_ok, grown, map_append, nodup_append]
    simp only [foldlM_cons, foldlM_nil, bind_pure]
    constructor
    · rintro ⟨before, first, last⟩
      obtain ⟨classified, rfl, distinct⟩ := ih.mp first
      obtain ⟨result, rfl, fresh⟩ := visitDevice_ok_iff.mp last
      refine ⟨forall_mem_append.mpr ⟨classified, forall_mem_singleton.mpr result⟩, rfl, distinct, short, ?_⟩
      rintro id old id' new rfl
      obtain ⟨device, inside, rfl⟩ := mem_map.mp new
      exact fresh device inside old
    · rintro ⟨classified, rfl, distinct, -, fresh⟩
      obtain ⟨before, result⟩ := forall_mem_append.mp classified
      refine ⟨_, ih.mpr ⟨before, rfl, distinct⟩, visitDevice_ok_iff.mpr ⟨result one (by simp), rfl, ?_⟩⟩
      intro device inside old
      exact fresh _ old _ (mem_map_of_mem inside) rfl

end

theorem deviceKey_injective : Function.Injective deviceKey := by
  rintro ⟨driver, pool, device⟩ ⟨driver', pool', device'⟩ same
  obtain ⟨rfl, rest⟩ := Prod.mk.inj (toLex_inj.mp same)
  obtain ⟨rfl, rfl⟩ := Prod.mk.inj (toLex_inj.mp rest)
  rfl

/-- Devices that can be sorted into profiles: a profile has one name, and no device comes twice. -/
structure Sortable (found : List FoundDevice) : Prop where
  distinct : (found.map (·.identity)).Nodup
  named : ∀ device ∈ found, ∀ other ∈ found, device.profile.name = other.profile.name → device.profile = other.profile

section
variable {found found' : List FoundDevice} {name : String} {inventory : ProfileInventory} {id : DeviceIdentity}

theorem Sortable.perm (sortable : Sortable found) (perm : found ~ found') : Sortable found' where
  distinct := (perm.map _).nodup_iff.mp sortable.distinct
  named device inside other inside' := sortable.named device (perm.symm.subset inside) other (perm.symm.subset inside')

def groupOf (found : List FoundDevice) (name : String) : List FoundDevice :=
  (found.filter (·.profile.name = name)).insertionSort fun a b => deviceKey a.identity ≤ deviceKey b.identity

theorem mem_groupOf {device : FoundDevice} : device ∈ groupOf found name ↔ device ∈ found ∧ device.profile.name = name := by
  simp [groupOf]

section
variable (sortable : Sortable found)

include sortable

theorem profileInventory_eq_some_iff : profileInventory found name = some inventory ↔
      ∃ device ∈ groupOf found name, inventory = ⟨device.profile, (groupOf found name).map (·.identity),
        ((groupOf found name).filter (·.numaNodes ≠ [])).map fun device => (device.identity, device.numaNodes)⟩ := by
  have member : ∀ device, device ∈ found.filter (·.profile.name = name) ↔ device ∈ groupOf found name := by
    intro device
    rw [mem_groupOf]
    simp
  unfold profileInventory
  rw [map_eq_some_iff]
  constructor
  · rintro ⟨last, is, rfl⟩
    exact ⟨last, (member last).mp (mem_of_getLast? is), rfl⟩
  · rintro ⟨device, inside, rfl⟩
    have some : (found.filter (·.profile.name = name)) ≠ [] := ne_nil_of_mem ((member device).mpr inside)
    refine ⟨_, getLast?_eq_some_getLast some, ?_⟩
    obtain ⟨listed, own⟩ := mem_groupOf.mp inside
    obtain ⟨listed', own'⟩ := mem_groupOf.mp ((member _).mp (getLast_mem some))
    rw [sortable.named _ listed' _ listed (own'.trans own.symm)]
    rfl

theorem sortedProfileInventories_perm (perm : found ~ found') :
    sortedProfileInventories found = sortedProfileInventories found' := by
  have names : (found.map (·.profile.name)).dedup.insertionSort (· ≤ ·) =
      (found'.map (·.profile.name)).dedup.insertionSort (· ≤ ·) :=
    insertionSort_eq_of_perm (fun _ _ _ _ => le_antisymm) (perm.map _).dedup
  have groups : ∀ name, groupOf found name = groupOf found' name := by
    intro name
    refine insertionSort_eq_of_perm (fun a inside b inside' below above => ?_) (perm.filter _)
    exact inj_on_of_nodup_map sortable.distinct (mem_filter.mp inside).1 (mem_filter.mp inside').1
      (deviceKey_injective (le_antisymm below above))
  have each : profileInventory found = profileInventory found' := by
    funext name
    refine Option.ext fun inventory => ?_
    rw [profileInventory_eq_some_iff sortable, profileInventory_eq_some_iff (sortable.perm perm), groups]
  unfold sortedProfileInventories
  rw [names, each]

theorem mem_sortedProfileInventories : inventory ∈ sortedProfileInventories found ↔ ∃ device ∈ found,
      inventory = ⟨device.profile, (groupOf found device.profile.name).map (·.identity),
        ((groupOf found device.profile.name).filter (·.numaNodes ≠ [])).map fun device => (device.identity, device.numaNodes)⟩ := by
  rw [sortedProfileInventories, mem_filterMap]
  constructor
  · rintro ⟨name, -, is⟩
    obtain ⟨device, inside, rfl⟩ := (profileInventory_eq_some_iff sortable).mp is
    obtain ⟨listed, rfl⟩ := mem_groupOf.mp inside
    exact ⟨device, listed, rfl⟩
  · rintro ⟨device, listed, rfl⟩
    refine ⟨device.profile.name, ?_, (profileInventory_eq_some_iff sortable).mpr ⟨device, mem_groupOf.mpr ⟨listed, rfl⟩, rfl⟩⟩
    rw [mem_insertionSort, mem_dedup]
    exact mem_map_of_mem listed

theorem listed_iff {profile : DeviceProfile} :
    (∃ inventory ∈ sortedProfileInventories found, inventory.profile = profile ∧ id ∈ inventory.devices) ↔
      ∃ device ∈ found, device.profile = profile ∧ device.identity = id := by
  constructor
  · rintro ⟨inventory, inside, rfl, listed⟩
    obtain ⟨device, known, rfl⟩ := (mem_sortedProfileInventories sortable).mp inside
    obtain ⟨other, among, rfl⟩ := mem_map.mp listed
    obtain ⟨known', same⟩ := mem_groupOf.mp among
    exact ⟨other, known', sortable.named other known' device known same, rfl⟩
  · rintro ⟨device, known, rfl, rfl⟩
    refine ⟨_, (mem_sortedProfileInventories sortable).mpr ⟨device, known, rfl⟩, rfl, ?_⟩
    exact mem_map_of_mem (mem_groupOf.mpr ⟨known, rfl⟩)

theorem pairwise_profiles :
    (sortedProfileInventories found).Pairwise fun a b => a.profile.name < b.profile.name := by
  have sorted : ((found.map (·.profile.name)).dedup.insertionSort (· ≤ ·)).Pairwise (· < ·) := by
    have nodup : ((found.map (·.profile.name)).dedup.insertionSort (· ≤ ·)).Nodup :=
      (perm_insertionSort _ _).nodup_iff.mpr (nodup_dedup _)
    exact (pairwise_insertionSort (· ≤ ·) _).imp₂ (fun _ _ below differ => lt_of_le_of_ne below differ) nodup
  have named : ∀ {name inventory}, profileInventory found name = some inventory → inventory.profile.name = name := by
    intro name inventory is
    obtain ⟨device, inside, rfl⟩ := (profileInventory_eq_some_iff sortable).mp is
    exact (mem_groupOf.mp inside).2
  refine sorted.filterMap _ fun name name' below inventory is inventory' is' => ?_
  rw [named is, named is']
  exact below

theorem pairwise_devices (inside : inventory ∈ sortedProfileInventories found) :
    inventory.devices.Pairwise fun a b => deviceKey a < deviceKey b := by
  obtain ⟨device, -, rfl⟩ := (mem_sortedProfileInventories sortable).mp inside
  rw [pairwise_map]
  have sorted : (groupOf found device.profile.name).Pairwise fun a b => deviceKey a.identity ≤ deviceKey b.identity :=
    pairwise_insertionSort _ _
  have nodup : ((groupOf found device.profile.name).map (·.identity)).Nodup := by
    have perm : groupOf found device.profile.name ~ found.filter (·.profile.name = device.profile.name) :=
      perm_insertionSort _ _
    rw [(perm.map _).nodup_iff]
    exact sortable.distinct.sublist (filter_sublist.map _)
  exact (sorted.and (pairwise_map.mp nodup)).imp fun ⟨below, differ⟩ =>
    lt_of_le_of_ne below fun same => differ (deviceKey_injective same)

theorem listed_once {inventory' : ProfileInventory}
    (inside : inventory ∈ sortedProfileInventories found) (inside' : inventory' ∈ sortedProfileInventories found)
    (listed : id ∈ inventory.devices) (listed' : id ∈ inventory'.devices) : inventory = inventory' := by
  obtain ⟨device, inDevices, rfl⟩ := (mem_sortedProfileInventories sortable).mp inside
  obtain ⟨device', inDevices', rfl⟩ := (mem_sortedProfileInventories sortable).mp inside'
  obtain ⟨other, among, rfl⟩ := mem_map.mp listed
  obtain ⟨other', among', same⟩ := mem_map.mp listed'
  obtain ⟨known, name⟩ := mem_groupOf.mp among
  obtain ⟨known', name'⟩ := mem_groupOf.mp among'
  obtain rfl := inj_on_of_nodup_map sortable.distinct known' known same
  have profiles : device.profile = device'.profile :=
    sortable.named device inDevices device' inDevices' (name.symm.trans name')
  rw [profiles]

end

end

section
variable {compile : Compiler} {registry : Registry} {node : String} {slices slices' : List ResourceSlice}

theorem mem_profilesForDriver {profile : DeviceProfile} {driver : String} :
    profile ∈ registry.profilesForDriver driver ↔ profile ∈ registry.profiles ∧ profile.driver = driver := by
  simp [Registry.profilesForDriver]

/-- What the inventory of a node needs of the slices. -/
structure Buildable (compile : Compiler) (registry : Registry) (node : String) (slices : List ResourceSlice) : Prop where
  uniform : ∀ id, Uniform node (latestOf registry slices id)
  classified : ∀ one ∈ listedDevices registry node slices, ∃ result, classify compile one = .ok result
  distinct : ((accepted compile (listedDevices registry node slices)).map (·.identity)).Nodup

theorem buildNodeInventory_ok_iff {registry : Option Registry} {node : Option String} {inventory : NodeInventory} :
    buildNodeInventory compile registry node slices = .ok inventory ↔
      ∃ r n, registry = some r ∧ node = some n ∧ Buildable compile r n slices ∧
        inventory = ⟨n, sortedProfileInventories (accepted compile (listedDevices r n slices))⟩ := by
  constructor
  · intro built
    obtain ⟨r, isRegistry, built⟩ := bind_eq_ok.mp built
    obtain ⟨n, isNode, built⟩ := bind_eq_ok.mp built
    obtain ⟨kept, selected, built⟩ := bind_eq_ok.mp built
    obtain ⟨found, visited, same⟩ := bind_eq_ok.mp built
    obtain ⟨uniform, rfl⟩ := selectResourcePoolSnapshots_ok_iff.mp selected
    rw [listedDevices_eq] at visited
    obtain ⟨classified, rfl, distinct⟩ := visitDevices_ok_iff.mp visited
    exact ⟨r, n, present_eq_ok.mp isRegistry, present_eq_ok.mp isNode, ⟨uniform, classified, distinct⟩, (pure_eq_ok.mp same).symm⟩
  · rintro ⟨r, n, rfl, rfl, ⟨uniform, classified, distinct⟩, rfl⟩
    refine bind_eq_ok.mpr ⟨r, rfl, bind_eq_ok.mpr ⟨n, rfl, ?_⟩⟩
    refine bind_eq_ok.mpr ⟨_, selectResourcePoolSnapshots_ok_iff.mpr ⟨uniform, rfl⟩, ?_⟩
    refine bind_eq_ok.mpr ⟨_, ?_, rfl⟩
    rw [listedDevices_eq]
    exact visitDevices_ok_iff.mpr ⟨classified, rfl, distinct⟩

theorem Buildable.perm (buildable : Buildable compile registry node slices)
    (latest : ∀ id, latestOf registry slices id ~ latestOf registry slices' id) : Buildable compile registry node slices' where
  uniform id := (buildable.uniform id).perm (latest id)
  classified one inside := buildable.classified one ((listedDevices_perm latest).symm.subset inside)
  distinct := (((listedDevices_perm latest).filterMap _).map _).nodup_iff.mp buildable.distinct

variable {one : ListedDevice}

theorem mem_listedDevices (uniform : ∀ id, Uniform node (latestOf registry slices id)) :
    one ∈ listedDevices registry node slices ↔ ∃ slice, ∃ device ∈ slice.devices,
      slice ∈ latestOf registry slices (resourcePoolIDFromSlice slice) ∧ slice.nodeName = some node ∧
        one = ⟨registry.profilesForDriver slice.driver, ⟨slice.driver, slice.pool.name, device.name⟩, device⟩ := by
  rw [listedDevices, mem_flatMap]
  constructor
  · rintro ⟨id, -, inside⟩
    unfold poolDevices at inside
    split at inside
    · rename_i own
      obtain ⟨assigned, inLatest, isNode⟩ := any_eq_true.mp own
      obtain ⟨slice, among, listed⟩ := mem_flatMap.mp inside
      obtain ⟨device, inDevices, rfl⟩ := mem_map.mp listed
      obtain rfl : resourcePoolIDFromSlice slice = id := (mem_newest.mp among).2.1
      refine ⟨slice, device, inDevices, among, ?_, rfl⟩
      rw [(uniform _).oneNode slice among assigned inLatest]
      exact of_decide_eq_true isNode
    · cases inside
  · rintro ⟨slice, device, inDevices, among, assigned, rfl⟩
    refine ⟨resourcePoolIDFromSlice slice, mem_poolIDs.mpr (ne_nil_of_mem among), ?_⟩
    have own : ((latestOf registry slices (resourcePoolIDFromSlice slice)).any fun slice => slice.nodeName = some node) = true :=
      any_eq_true.mpr ⟨slice, among, decide_eq_true assigned⟩
    unfold poolDevices
    rw [if_pos own]
    exact mem_flatMap.mpr ⟨slice, among, mem_map_of_mem inDevices⟩

variable {found : FoundDevice}

theorem mem_accepted {listed : List ListedDevice} :
    found ∈ accepted compile listed ↔ ∃ one ∈ listed, classify compile one = .ok (some found) := by
  rw [accepted, mem_filterMap]
  refine exists_congr fun one => and_congr_right fun _ => ?_
  cases classify compile one with
  | error e => simp [Except.toOption]
  | ok result => simp [Except.toOption]

theorem classify_eq_some_iff (classified : ∃ result, classify compile one = .ok result) :
    classify compile one = .ok (some found) ↔ found.profile ∈ one.profiles ∧
      deviceMatches compile found.profile one.identity one.device = .ok true ∧
      found.identity = one.identity ∧ found.numaNodes = deviceNUMANodes one.device := by
  obtain ⟨result, classified⟩ := classified
  obtain ⟨chosen, matched, -⟩ := map_eq_ok.mp classified
  have only := matchDeviceProfile_ok matched
  unfold classify
  rw [matched, map_eq_ok]
  constructor
  · rintro ⟨other, isChosen, same⟩
    obtain rfl := Except.ok.inj isChosen
    obtain ⟨profile, rfl, rfl⟩ := map_eq_some_iff.mp same
    obtain ⟨inside, accepts⟩ := (only profile).mp rfl
    exact ⟨inside, accepts, rfl, rfl⟩
  · rintro ⟨inside, accepts, identity, nodes⟩
    refine ⟨chosen, rfl, ?_⟩
    rw [(only found.profile).mpr ⟨inside, accepts⟩, map_some, ← identity, ← nodes]

theorem Buildable.sortable (buildable : Buildable compile registry node slices) :
    Sortable (accepted compile (listedDevices registry node slices)) := by
  refine ⟨buildable.distinct, ?_⟩
  have known : ∀ found ∈ accepted compile (listedDevices registry node slices), found.profile ∈ registry.profiles := by
    intro found inside
    obtain ⟨one, listed, classified⟩ := mem_accepted.mp inside
    obtain ⟨slice, device, -, -, -, rfl⟩ := (mem_listedDevices buildable.uniform).mp listed
    exact (mem_profilesForDriver.mp ((classify_eq_some_iff ⟨_, classified⟩).mp classified).1).1
  intro device inside other inside' same
  exact inj_on_of_nodup_map registry.names (known device inside) (known other inside') same

end

/-- A slice in the highest generation of a pool that is complete and assigned to the node. -/
structure Current (node : String) (slices : List ResourceSlice) (slice : ResourceSlice) : Prop where
  inside : slice ∈ slices
  latest : ¬Outdated resourcePoolIDFromSlice generationOf slices slice
  assigned : slice.nodeName = some node
  complete : ((newest resourcePoolIDFromSlice generationOf (resourcePoolIDFromSlice slice) slices).length : Int) =
    slice.pool.resourceSliceCount

def identityOf (slice : ResourceSlice) (device : Device) : DeviceIdentity := ⟨slice.driver, slice.pool.name, device.name⟩

/-- A profile of the device's driver whose selector accepts the device. -/
structure Matches (compile : Compiler) (registry : Registry) (slice : ResourceSlice) (device : Device)
    (profile : DeviceProfile) : Prop where
  known : profile ∈ registry.profiles
  driver : profile.driver = slice.driver
  accepts : deviceMatches compile profile (identityOf slice device) device = .ok true

/-- The inventory of a node: its profiles and the devices within each in strictly increasing order, and each
device of a current slice that a profile accepts once, under its only profile. -/
structure Canonical (compile : Compiler) (registry : Registry) (node : String) (slices : List ResourceSlice)
    (inventory : NodeInventory) : Prop where
  nodeName : inventory.nodeName = node
  profiles : inventory.profiles.Pairwise fun a b => a.profile.name < b.profile.name
  devices : ∀ part ∈ inventory.profiles, part.devices.Pairwise fun a b => deviceKey a < deviceKey b
  once : ∀ part ∈ inventory.profiles, ∀ part' ∈ inventory.profiles, ∀ id ∈ part.devices, id ∈ part'.devices → part = part'
  listed : ∀ profile id, (∃ part ∈ inventory.profiles, part.profile = profile ∧ id ∈ part.devices) ↔
    ∃ slice, Current node slices slice ∧ ∃ device ∈ slice.devices, id = identityOf slice device ∧
      Matches compile registry slice device profile
  only : ∀ slice, Current node slices slice → ∀ device ∈ slice.devices, ∀ profile profile',
    Matches compile registry slice device profile → Matches compile registry slice device profile' → profile = profile'

section
variable {compile : Compiler} {registry : Registry} {node : String} {slices : List ResourceSlice} {slice : ResourceSlice}

theorem current_iff (uniform : ∀ id, Uniform node (latestOf registry slices id))
    (driver : registry.profilesForDriver slice.driver ≠ []) :
    Current node slices slice ↔
      slice ∈ latestOf registry slices (resourcePoolIDFromSlice slice) ∧ slice.nodeName = some node := by
  have same : latestOf registry slices (resourcePoolIDFromSlice slice) =
      newest resourcePoolIDFromSlice generationOf (resourcePoolIDFromSlice slice) slices := by
    refine newest_filter fun other pool => decide_eq_true ?_
    rw [show other.driver = slice.driver from congrArg ResourcePoolID.driver pool]
    exact driver
  constructor
  · rintro ⟨inside, latest, assigned, -⟩
    exact ⟨same ▸ mem_newest.mpr ⟨inside, rfl, latest⟩, assigned⟩
  · rintro ⟨among, assigned⟩
    have complete := (uniform _).complete slice among assigned
    rw [same] at among complete
    obtain ⟨inside, -, latest⟩ := mem_newest.mp among
    exact ⟨inside, latest, assigned, complete.symm⟩

theorem Buildable.canonical (buildable : Buildable compile registry node slices) :
    Canonical compile registry node slices
      ⟨node, sortedProfileInventories (accepted compile (listedDevices registry node slices))⟩ where
  nodeName := rfl
  profiles := pairwise_profiles buildable.sortable
  devices part inside := pairwise_devices buildable.sortable inside
  once part inside part' inside' id := listed_once buildable.sortable inside inside'
  listed profile id := by
    rw [listed_iff buildable.sortable]
    constructor
    · rintro ⟨found, inside, rfl, rfl⟩
      obtain ⟨one, isListed, classified⟩ := mem_accepted.mp inside
      obtain ⟨slice, device, inDevices, among, assigned, rfl⟩ := (mem_listedDevices buildable.uniform).mp isListed
      obtain ⟨known, accepts, identity, -⟩ := (classify_eq_some_iff ⟨_, classified⟩).mp classified
      obtain ⟨registered, driver⟩ := mem_profilesForDriver.mp known
      exact ⟨slice, (current_iff buildable.uniform (ne_nil_of_mem known)).mpr ⟨among, assigned⟩, device, inDevices, identity,
        registered, driver, accepts⟩
    · rintro ⟨slice, current, device, inDevices, rfl, ⟨registered, driver, accepts⟩⟩
      have known : profile ∈ registry.profilesForDriver slice.driver := mem_profilesForDriver.mpr ⟨registered, driver⟩
      obtain ⟨among, assigned⟩ := (current_iff buildable.uniform (ne_nil_of_mem known)).mp current
      have isListed := (mem_listedDevices buildable.uniform).mpr ⟨slice, device, inDevices, among, assigned, rfl⟩
      refine ⟨⟨profile, identityOf slice device, deviceNUMANodes device⟩, mem_accepted.mpr ⟨_, isListed, ?_⟩, rfl, rfl⟩
      exact (classify_eq_some_iff (buildable.classified _ isListed)).mpr ⟨known, accepts, rfl, rfl⟩
  only slice current device inDevices profile profile' selected selected' := by
    have known : profile ∈ registry.profilesForDriver slice.driver := mem_profilesForDriver.mpr ⟨selected.known, selected.driver⟩
    have known' : profile' ∈ registry.profilesForDriver slice.driver :=
      mem_profilesForDriver.mpr ⟨selected'.known, selected'.driver⟩
    obtain ⟨among, assigned⟩ := (current_iff buildable.uniform (ne_nil_of_mem known)).mp current
    have isListed := (mem_listedDevices buildable.uniform).mpr ⟨slice, device, inDevices, among, assigned, rfl⟩
    obtain ⟨result, classified⟩ := buildable.classified _ isListed
    obtain ⟨chosen, matched, -⟩ := map_eq_ok.mp classified
    have first := (matchDeviceProfile_ok matched profile).mpr ⟨known, selected.accepts⟩
    have second := (matchDeviceProfile_ok matched profile').mpr ⟨known', selected'.accepts⟩
    exact some.inj (first.symm.trans second)

/-- The inventory depends neither on the order of the slices nor on outdated ones, and lists exactly the
devices of the node's current pools that a profile accepts. -/
theorem inventory_canonical (compile : Compiler) (registry : Option Registry) (node : Option String)
    (slices : List ResourceSlice) :
    (∀ slices', Trimmed resourcePoolIDFromSlice generationOf slices slices' →
      Agree (buildNodeInventory compile registry node slices) (buildNodeInventory compile registry node slices')) ∧
    ∀ inventory, buildNodeInventory compile registry node slices = .ok inventory →
      ∃ r n, registry = some r ∧ node = some n ∧ Canonical compile r n slices inventory := by
  constructor
  · intro slices' trimmed inventory
    rw [buildNodeInventory_ok_iff, buildNodeInventory_ok_iff]
    refine exists_congr fun r => exists_congr fun n => and_congr_right fun _ => and_congr_right fun _ => ?_
    have latest := fun id => latestOf_perm r trimmed id
    constructor
    · rintro ⟨buildable, rfl⟩
      refine ⟨buildable.perm latest, ?_⟩
      rw [sortedProfileInventories_perm buildable.sortable ((listedDevices_perm latest).filterMap _)]
      rfl
    · rintro ⟨buildable, rfl⟩
      refine ⟨buildable.perm fun id => (latest id).symm, ?_⟩
      rw [sortedProfileInventories_perm buildable.sortable ((listedDevices_perm fun id => (latest id).symm).filterMap _)]
      rfl
  · intro inventory built
    obtain ⟨r, n, isRegistry, isNode, buildable, rfl⟩ := buildNodeInventory_ok_iff.mp built
    exact ⟨r, n, isRegistry, isNode, buildable.canonical⟩

end

def gpus : Registry where
  profiles := [⟨"gpu", "gpu.example.com", "true", .indexedGRES "gpu"⟩]
  names := by decide
  selectors := by decide
  resources := by decide +kernel

def gpuSlice (name : String) (pool : ResourcePool) (devices : List String) : ResourceSlice where
  name
  driver := "gpu.example.com"
  nodeName := some "node"
  nodeSelector := none
  allNodes := none
  perDeviceNodeSelection := none
  pool
  devices := devices.map fun device => ⟨device, ∅, ∅, none, ""⟩

example : (buildNodeInventory (fun _ => .ok fun _ _ _ _ => .ok true) (some gpus) (some "node")
    [gpuSlice "b" ⟨"pool", 2, 2⟩ ["gpu-1"], gpuSlice "old" ⟨"pool", 1, 3⟩ ["gpu-9"], gpuSlice "a" ⟨"pool", 2, 2⟩ ["gpu-0"]]).toOption =
    some ⟨"node", [⟨⟨"gpu", "gpu.example.com", "true", .indexedGRES "gpu"⟩,
      [⟨"gpu.example.com", "pool", "gpu-0"⟩, ⟨"gpu.example.com", "pool", "gpu-1"⟩], []⟩]⟩ := by decide +kernel

end SlurmBridge.Dra.CanonicalInventory
