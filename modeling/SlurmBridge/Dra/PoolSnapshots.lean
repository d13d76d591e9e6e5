/- source: internal/dra/inventory.go
   digest: The pool snapshots of an inventory without the loop that builds them: one for each pool, with the
     slices of its highest generation, and when they are accepted for a node. -/

import Mathlib.Data.List.ReduceOption
import SlurmBridge.Dra.Inventory
import SlurmBridge.Foundation.Generations
import SlurmBridge.Foundation.Sorting

set_option autoImplicit false

namespace SlurmBridge.Dra.PoolSnapshots

open scoped List
open Foundation.Checked Foundation.Generations Inventory.Devices Dra.Inventory Dra.Profiles List AList

def generationOf (slice : ResourceSlice) : Int := slice.pool.generation

section
variable (registry : Registry)

def supported (slices : List ResourceSlice) : List ResourceSlice :=
  slices.filter fun slice => registry.profilesForDriver slice.driver ≠ []

def latestOf (slices : List ResourceSlice) (id : ResourcePoolID) : List ResourceSlice :=
  newest resourcePoolIDFromSlice generationOf id (supported registry slices)

def snapshotFrom (id : ResourcePoolID) : List ResourceSlice → Option ResourcePoolSnapshot
  | [] => none
  | first :: rest => some ⟨id, first.pool.generation, first.pool.resourceSliceCount,
      registry.profilesForDriver id.driver, first :: rest⟩

variable {registry} {slices : List ResourceSlice} {slice : ResourceSlice} {id : ResourcePoolID}
  {snapshot : ResourcePoolSnapshot}

variable {l : List ResourceSlice}

theorem snapshotFrom_id (found : snapshotFrom registry id l = some snapshot) :
    snapshot.id = id ∧ snapshot.slices = l ∧ l ≠ [] ∧ snapshot.profiles = registry.profilesForDriver id.driver := by
  cases l with
  | nil => cases found
  | cons first rest =>
    obtain rfl := Option.some.inj found
    exact ⟨rfl, rfl, cons_ne_nil _ _, rfl⟩

private theorem lookup_add {snapshots : Snapshots}
    (known : ∀ id, snapshots.lookup id = snapshotFrom registry id (newest resourcePoolIDFromSlice generationOf id l))
    (id : ResourcePoolID) :
    (addResourceSliceToSnapshot snapshots (registry.profilesForDriver slice.driver) slice).lookup id =
      snapshotFrom registry id (newest resourcePoolIDFromSlice generationOf id (l ++ [slice])) := by
  have before := known (resourcePoolIDFromSlice slice)
  unfold addResourceSliceToSnapshot
  dsimp only
  by_cases own : resourcePoolIDFromSlice slice = id
  · subst own
    cases held : newest resourcePoolIDFromSlice generationOf (resourcePoolIDFromSlice slice) l with
    | nil =>
      rw [held] at before
      rw [before, newest_append_newer rfl (by simp [held])]
      exact lookup_insert _
    | cons first rest =>
      rw [held] at before
      rw [before]
      have inside : first ∈ newest resourcePoolIDFromSlice generationOf (resourcePoolIDFromSlice slice) l :=
        held ▸ mem_cons_self
      dsimp only [snapshotFrom]
      rcases lt_trichotomy first.pool.generation slice.pool.generation with newer | same | older
      · rw [if_pos newer, newest_append_newer rfl fun other listed => ?_]
        · exact lookup_insert _
        · exact gen_eq_of_mem_newest listed inside ▸ newer
      · rw [if_neg (by omega), if_neg (by omega), newest_append_same rfl inside same.symm, held]
        exact lookup_insert _
      · rw [if_neg (by omega), if_pos older, newest_append_older rfl inside older, held, before]
        rfl
  · rw [newest_append_other own, ← known id]
    split
    · exact lookup_insert_ne (Ne.symm own)
    · split
      · exact lookup_insert_ne (Ne.symm own)
      · split
        · rfl
        · exact lookup_insert_ne (Ne.symm own)

theorem lookup_loop (registry : Registry) (slices : List ResourceSlice) (id : ResourcePoolID) :
    (slices.foldl (visitSlice registry) ∅).lookup id = snapshotFrom registry id (latestOf registry slices id) := by
  induction slices using List.reverseRecOn generalizing id with
  | nil => rfl
  | append_singleton slices slice ih =>
    rw [foldl_append, foldl_cons, foldl_nil]
    unfold visitSlice latestOf supported
    rw [filter_append, filter_singleton]
    by_cases none : registry.profilesForDriver slice.driver = []
    · simp only [none, if_true, ne_eq, not_true_eq_false, decide_false, Bool.cond_false, append_nil]
      exact ih id
    · simp only [none, if_false, ne_eq, not_false_eq_true, decide_true, Bool.cond_true]
      exact lookup_add ih id

end

theorem ResourcePoolID.key_injective : Function.Injective ResourcePoolID.key := by
  rintro ⟨driver, pool⟩ ⟨driver', pool'⟩ same
  obtain ⟨rfl, rfl⟩ := Prod.mk.inj (toLex_inj.mp same)
  rfl

section
variable {registry : Registry} {slices : List ResourceSlice} {snapshot : ResourcePoolSnapshot} {id : ResourcePoolID}

def snapshotsOf (registry : Registry) (slices : List ResourceSlice) : List ResourcePoolSnapshot :=
  sortedSnapshots (slices.foldl (visitSlice registry) ∅)

theorem mem_snapshotsOf : snapshot ∈ snapshotsOf registry slices ↔
    snapshotFrom registry snapshot.id (latestOf registry slices snapshot.id) = some snapshot := by
  rw [snapshotsOf, sortedSnapshots, mem_insertionSort, mem_map]
  constructor
  · rintro ⟨⟨id, entry⟩, inside, rfl⟩
    have found := lookup_loop registry slices id
    rw [mem_lookup_iff.mpr inside] at found
    rw [(snapshotFrom_id found.symm).1]
    exact found.symm
  · intro found
    rw [← lookup_loop] at found
    exact ⟨_, mem_lookup_iff.mp found, rfl⟩

theorem pairwise_snapshotsOf (registry : Registry) (slices : List ResourceSlice) :
    (snapshotsOf registry slices).Pairwise fun a b => a.id.key < b.id.key := by
  have sorted : (snapshotsOf registry slices).Pairwise fun a b => a.id.key ≤ b.id.key := pairwise_insertionSort _ _
  have distinct : ((snapshotsOf registry slices).map (·.id)).Nodup := by
    have perm : snapshotsOf registry slices ~ (slices.foldl (visitSlice registry) ∅).entries.map Sigma.snd :=
      perm_insertionSort _ _
    rw [(perm.map _).nodup_iff, map_map]
    have keys : (slices.foldl (visitSlice registry) ∅).entries.map ((·.id) ∘ Sigma.snd) =
        (slices.foldl (visitSlice registry) ∅).keys := by
      refine map_congr_left fun entry inside => ?_
      have found := lookup_loop registry slices entry.1
      rw [mem_lookup_iff.mpr inside] at found
      exact (snapshotFrom_id found.symm).1
    rw [keys]
    exact keys_nodup _
  exact (sorted.and (pairwise_map.mp distinct)).imp fun ⟨below, differ⟩ =>
    lt_of_le_of_ne below fun same => differ (ResourcePoolID.key_injective same)

def poolIDs (registry : Registry) (slices : List ResourceSlice) : List ResourcePoolID :=
  (snapshotsOf registry slices).map (·.id)

theorem pairwise_poolIDs (registry : Registry) (slices : List ResourceSlice) :
    (poolIDs registry slices).Pairwise fun a b => a.key < b.key :=
  pairwise_map.mpr (pairwise_snapshotsOf registry slices)

theorem mem_poolIDs : id ∈ poolIDs registry slices ↔ latestOf registry slices id ≠ [] := by
  rw [poolIDs, mem_map]
  constructor
  · rintro ⟨snapshot, inside, rfl⟩
    exact (snapshotFrom_id (mem_snapshotsOf.mp inside)).2.2.1
  · intro some
    obtain ⟨first, rest, latest⟩ := exists_cons_of_ne_nil some
    refine ⟨⟨id, first.pool.generation, first.pool.resourceSliceCount, registry.profilesForDriver id.driver, first :: rest⟩, ?_, rfl⟩
    rw [mem_snapshotsOf]
    simp only [latest, snapshotFrom]

theorem snapshotsOf_eq (registry : Registry) (slices : List ResourceSlice) : snapshotsOf registry slices =
      (poolIDs registry slices).filterMap fun id => snapshotFrom registry id (latestOf registry slices id) := by
  rw [poolIDs, filterMap_map]
  symm
  calc (snapshotsOf registry slices).filterMap _ = (snapshotsOf registry slices).filterMap some :=
        filterMap_congr fun snapshot inside => mem_snapshotsOf.mp inside
    _ = snapshotsOf registry slices := filterMap_some

theorem poolIDs_congr {slices' : List ResourceSlice}
    (same : ∀ id, latestOf registry slices id = [] ↔ latestOf registry slices' id = []) :
    poolIDs registry slices = poolIDs registry slices' := by
  refine (pairwise_poolIDs registry slices).eq_of_mem_iff (pairwise_poolIDs registry slices') fun id => ?_
  rw [mem_poolIDs, mem_poolIDs, ne_eq, ne_eq, same]

end

/-- What is required of the slices of a pool's highest generation. -/
structure Uniform (node : String) (slices : List ResourceSlice) : Prop where
  valid : ∀ slice ∈ slices, validateResourceSliceNode slice = .ok ()
  oneNode : ∀ slice ∈ slices, ∀ other ∈ slices, slice.nodeName = other.nodeName
  oneCount : ∀ slice ∈ slices, ∀ other ∈ slices, slice.pool.resourceSliceCount = other.pool.resourceSliceCount
  complete : ∀ slice ∈ slices, slice.nodeName = some node → slice.pool.resourceSliceCount = slices.length

theorem Uniform.perm {node : String} {slices slices' : List ResourceSlice} (uniform : Uniform node slices)
    (perm : slices ~ slices') : Uniform node slices' where
  valid slice inside := uniform.valid slice (perm.symm.subset inside)
  oneNode slice inside other inside' := uniform.oneNode slice (perm.symm.subset inside) other (perm.symm.subset inside')
  oneCount slice inside other inside' := uniform.oneCount slice (perm.symm.subset inside) other (perm.symm.subset inside')
  complete slice inside assigned := perm.length_eq ▸ uniform.complete slice (perm.symm.subset inside) assigned

def assignedTo (node : String) (snapshot : ResourcePoolSnapshot) : Bool :=
  snapshot.slices.any fun slice => slice.nodeName = some node

section
variable {registry : Registry} {node : String} {slices : List ResourceSlice} {slice : ResourceSlice}
  {snapshot : ResourcePoolSnapshot} {id : ResourcePoolID}

theorem nodeName_of_valid (valid : validateResourceSliceNode slice = .ok ()) :
    slice.nodeName = some (slice.nodeName.getD "") ∧ slice.nodeName.getD "" ≠ "" := by
  obtain ⟨_, -, rest⟩ := bind_eq_ok.mp valid
  obtain ⟨_, -, rest⟩ := bind_eq_ok.mp rest
  obtain ⟨_, -, named⟩ := bind_eq_ok.mp rest
  have named := require_eq_ok.mp named
  cases name : slice.nodeName with
  | none => exact absurd (by rw [name]; rfl) named
  | some value => exact ⟨rfl, name ▸ named⟩

variable {nodeName : String}

private theorem checkSlice_ok_iff :
    checkSlice snapshot nodeName slice = .ok () ↔ validateResourceSliceNode slice = .ok () ∧
      slice.nodeName.getD "" = nodeName ∧ slice.pool.resourceSliceCount = snapshot.resourceSliceCount := by
  simp only [checkSlice, bind_eq_ok, require_eq_ok]
  constructor
  · rintro ⟨_, valid, _, name, count⟩
    exact ⟨valid, name, count⟩
  · rintro ⟨valid, name, count⟩
    exact ⟨(), valid, (), name, count⟩

variable {result : Option ResourcePoolSnapshot}

private theorem complete_ok_iff (first : (snapshot.slices.head?.bind (·.nodeName)).getD "" = nodeName) :
    completeResourcePoolSnapshot node snapshot = .ok result ↔
      (∀ slice ∈ snapshot.slices, checkSlice snapshot nodeName slice = .ok ()) ∧
      (nodeName = node → (snapshot.slices.length : Int) = snapshot.resourceSliceCount) ∧
      result = if nodeName = node then some snapshot else none := by
  subst first
  rw [completeResourcePoolSnapshot, bind_eq_ok]
  by_cases own : (snapshot.slices.head?.bind (·.nodeName)).getD "" = node
  · rw [if_pos own]
    simp only [own, forall_const, if_true]
    constructor
    · rintro ⟨_, loop, rest⟩
      obtain ⟨_, complete, same⟩ := bind_eq_ok.mp rest
      exact ⟨forM_eq_ok.mp loop, require_eq_ok.mp complete, (pure_eq_ok.mp same).symm⟩
    · rintro ⟨each, complete, rfl⟩
      exact ⟨(), forM_eq_ok.mpr each, bind_eq_ok.mpr ⟨(), require_eq_ok.mpr complete, rfl⟩⟩
  · rw [if_neg own, if_neg own]
    constructor
    · rintro ⟨_, loop, same⟩
      exact ⟨forM_eq_ok.mp loop, fun isOwn => absurd isOwn own, (pure_eq_ok.mp same).symm⟩
    · rintro ⟨each, -, rfl⟩
      exact ⟨(), forM_eq_ok.mpr each, rfl⟩

private theorem uniform_iff {first : ResourceSlice} {rest : List ResourceSlice} :
    Uniform node (first :: rest) ↔ (∀ slice ∈ first :: rest, validateResourceSliceNode slice = .ok () ∧
        slice.nodeName.getD "" = first.nodeName.getD "" ∧
        slice.pool.resourceSliceCount = first.pool.resourceSliceCount) ∧
      (first.nodeName.getD "" = node → ((first :: rest).length : Int) = first.pool.resourceSliceCount) := by
  constructor
  · intro uniform
    refine ⟨fun slice inside => ⟨uniform.valid slice inside, ?_, uniform.oneCount slice inside first mem_cons_self⟩, fun own => ?_⟩
    · rw [uniform.oneNode slice inside first mem_cons_self]
    · have named := (nodeName_of_valid (uniform.valid first mem_cons_self)).1
      exact (uniform.complete first mem_cons_self (own ▸ named)).symm
  · rintro ⟨each, complete⟩
    have named : ∀ slice ∈ first :: rest, slice.nodeName = some (first.nodeName.getD "") := by
      intro slice inside
      obtain ⟨valid, name, -⟩ := each slice inside
      exact name ▸ (nodeName_of_valid valid).1
    refine ⟨fun slice inside => (each slice inside).1, fun slice inside other inside' => ?_,
      fun slice inside other inside' => ?_, fun slice inside assigned => ?_⟩
    · rw [named slice inside, named other inside']
    · rw [(each slice inside).2.2, (each other inside').2.2]
    · rw [(each slice inside).2.2, complete (Option.some.inj ((named slice inside).symm.trans assigned))]

theorem completeResourcePoolSnapshot_ok_iff {l : List ResourceSlice}
    (found : snapshotFrom registry id l = some snapshot) :
    completeResourcePoolSnapshot node snapshot = .ok result ↔
      Uniform node l ∧ result = if assignedTo node snapshot then some snapshot else none := by
  cases l with
  | nil => cases found
  | cons first rest =>
    obtain rfl := Option.some.inj found
    have assigned : ∀ valid : validateResourceSliceNode first = .ok (),
        (∀ slice ∈ first :: rest, slice.nodeName.getD "" = first.nodeName.getD "") →
        (assignedTo node ⟨id, first.pool.generation, first.pool.resourceSliceCount,
          registry.profilesForDriver id.driver, first :: rest⟩ = true ↔ first.nodeName.getD "" = node) := by
      intro valid names
      rw [assignedTo, any_eq_true]
      constructor
      · rintro ⟨slice, inside, own⟩
        rw [← names slice inside, of_decide_eq_true own]
        rfl
      · intro own
        exact ⟨first, mem_cons_self, decide_eq_true (own ▸ (nodeName_of_valid valid).1)⟩
    have named : ((first :: rest).head?.bind (·.nodeName)).getD "" = first.nodeName.getD "" := rfl
    rw [complete_ok_iff named, uniform_iff, and_assoc]
    simp only [checkSlice_ok_iff]
    refine and_congr_right fun each => and_congr_right fun _ => ?_
    have kept := assigned (each first mem_cons_self).1 fun slice inside => (each slice inside).2.1
    rw [if_congr kept rfl rfl]

theorem selectResourcePoolSnapshots_ok_iff {kept : List ResourcePoolSnapshot} :
    selectResourcePoolSnapshots registry node slices = .ok kept ↔
      (∀ id, Uniform node (latestOf registry slices id)) ∧ kept = (snapshotsOf registry slices).filter (assignedTo node) := by
  have each : ∀ snapshot ∈ snapshotsOf registry slices, ∀ result,
      completeResourcePoolSnapshot node snapshot = .ok result ↔
        Uniform node (latestOf registry slices snapshot.id) ∧ result = if assignedTo node snapshot then some snapshot else none :=
    fun snapshot inside result => completeResourcePoolSnapshot_ok_iff (mem_snapshotsOf.mp inside)
  have filtered : ((snapshotsOf registry slices).map fun snapshot =>
      if assignedTo node snapshot then some snapshot else none).reduceOption =
        (snapshotsOf registry slices).filter (assignedTo node) := by
    rw [List.reduceOption, filterMap_map, ← filterMap_eq_filter]
    rfl
  have pools : (∀ snapshot ∈ snapshotsOf registry slices, Uniform node (latestOf registry slices snapshot.id)) ↔
      ∀ id, Uniform node (latestOf registry slices id) := by
    refine ⟨fun known id => ?_, fun known snapshot _ => known snapshot.id⟩
    by_cases none : latestOf registry slices id = []
    · rw [none]
      exact ⟨by simp, by simp, by simp, by simp⟩
    · obtain ⟨snapshot, inside, rfl⟩ := mem_map.mp (mem_poolIDs.mpr none)
      exact known snapshot inside
  rw [selectResourcePoolSnapshots, completeResourcePoolSnapshots, bind_eq_ok, ← snapshotsOf, ← pools, ← filtered]
  constructor
  · rintro ⟨complete, checked, same⟩
    obtain ⟨uniform, rfl⟩ := (mapM_eq_ok_iff each).mp checked
    exact ⟨uniform, (pure_eq_ok.mp same).symm⟩
  · rintro ⟨uniform, rfl⟩
    exact ⟨_, (mapM_eq_ok_iff each).mpr ⟨uniform, rfl⟩, rfl⟩

end

end SlurmBridge.Dra.PoolSnapshots
