/- source: internal/nodeinfo/nodeinfo.go, internal/controller/node/utils/index.go
   digest: On which lists of slices the CPU topology is that of the latest generation of each pool. -/

import SlurmBridge.Inventory.Allocation
import SlurmBridge.Inventory.Selection

set_option autoImplicit false

namespace SlurmBridge.Inventory.CPUGenerations

open scoped List
open Foundation.Checked Foundation.Generations Inventory.Devices Inventory.Topology Inventory.Build
open Inventory.Selection
open Inventory.Allocation (twoSockets)
open List

def poolOf (slice : ResourceSlice) : String × String := (slice.driver, slice.pool.name)

def generationOf (slice : ResourceSlice) : Int := slice.pool.generation

/-- A slice of a CPU pool below the pool's highest generation, on whatever node that one is published. -/
def Obsolete (slices : List ResourceSlice) (slice : ResourceSlice) : Prop :=
  slice.driver = draDriverCpu ∧ Outdated poolOf generationOf slices slice

instance (slices : List ResourceSlice) (slice : ResourceSlice) : Decidable (Obsolete slices slice) :=
  inferInstanceAs (Decidable (_ ∧ _))

/-- The same slices in any order, some obsolete ones left out. -/
def Variant (slices slices' : List ResourceSlice) : Prop :=
  ∃ removed, slices ~ slices' ++ removed ∧ ∀ slice ∈ removed, Obsolete slices slice

def latest (slices : List ResourceSlice) : List ResourceSlice := slices.filter fun slice => ¬Obsolete slices slice

/-- Both attempts fail, or both end with the same topology. -/
structure Alike (x y : Except String NodeInfo) : Prop where
  onto : ∀ n, x = .ok n → ∃ n', y = .ok n' ∧ SameTopology n n'
  back : ∀ n, y = .ok n → ∃ n', x = .ok n' ∧ SameTopology n n'

/-- The obsolete slices do not matter for a node: the loop meets no error because of them, and a pool with a
slice of the node has one in its highest generation. -/
structure Harmless (nodeName : String) (slices : List ResourceSlice) : Prop where
  unclaimed : ∀ slice ∈ slices, Obsolete slices slice → ¬claimsOtherNodes slice
  valid : ∀ slice ∈ slices, Obsolete slices slice → isLocal nodeName slice = true → Valid slice
  counts : ∀ slice ∈ slices, ∀ other ∈ slices, Obsolete slices slice → isLocal nodeName slice = true →
    isLocal nodeName other = true → other.pool.name = slice.pool.name →
    other.pool.generation = slice.pool.generation →
    other.pool.resourceSliceCount = slice.pool.resourceSliceCount
  renewed : ∀ slice ∈ slices, isLocal nodeName slice = true →
    ∃ other ∈ slices, isLocal nodeName other = true ∧ other.pool.name = slice.pool.name ∧ ¬Obsolete slices other

section
variable {slices slices' : List ResourceSlice} {slice : ResourceSlice}

theorem Variant.trimmed (variant : Variant slices slices') : Trimmed poolOf generationOf slices slices' := by
  obtain ⟨removed, perm, obsolete⟩ := variant
  exact ⟨removed, perm, fun slice inside => (obsolete slice inside).2⟩

theorem Variant.obsolete_iff (variant : Variant slices slices') : Obsolete slices' slice ↔ Obsolete slices slice :=
  and_congr_right fun _ => variant.trimmed.outdated_iff

theorem Variant.mem (variant : Variant slices slices') (inside : slice ∈ slices) (newest : ¬Obsolete slices slice) :
    slice ∈ slices' := by
  obtain ⟨removed, perm, obsolete⟩ := variant
  exact (mem_append.mp (perm.subset inside)).resolve_right fun gone => newest (obsolete slice gone)

theorem Variant.of_perm (perm : slices ~ slices') : Variant slices slices' := ⟨[], by simpa using perm, nofun⟩

theorem variant_latest (slices : List ResourceSlice) : Variant slices (latest slices) := by
  refine ⟨slices.filter fun slice => !decide ¬Obsolete slices slice, (filter_append_perm _ slices).symm, ?_⟩
  intro slice gone
  simpa using (mem_filter.mp gone).2

theorem mem_latest : slice ∈ latest slices ↔ slice ∈ slices ∧ ¬Obsolete slices slice := by simp [latest]

theorem Variant.filter_perm (variant : Variant slices slices') (p : ResourceSlice → Bool) :
    (slices.filter fun slice => p slice ∧ ¬Obsolete slices slice) ~
      slices'.filter fun slice => p slice ∧ ¬Obsolete slices' slice := by
  obtain ⟨removed, perm, obsolete⟩ := id variant
  have none : removed.filter (fun slice => decide (p slice = true ∧ ¬Obsolete slices slice)) = [] := by
    rw [filter_eq_nil_iff]
    intro slice gone
    simp [obsolete slice gone]
  have kept := perm.filter fun slice => decide (p slice = true ∧ ¬Obsolete slices slice)
  rw [filter_append, none, append_nil] at kept
  simpa only [variant.obsolete_iff] using kept

theorem latest_perm (variant : Variant slices slices') : latest slices ~ latest slices' := by
  simpa [latest] using variant.filter_perm fun _ => true

end

section
variable {nodeName : String} {slices slices' : List ResourceSlice} {slice other : ResourceSlice}

theorem driver_of_isLocal (own : isLocal nodeName slice = true) : slice.driver = draDriverCpu :=
  (of_decide_eq_true own).1

theorem generation_le (own : isLocal nodeName slice = true) (newest : ¬Obsolete slices slice) (inside : other ∈ slices)
    (own' : isLocal nodeName other = true) (same : other.pool.name = slice.pool.name) :
    other.pool.generation ≤ slice.pool.generation := by
  by_contra newer
  refine newest ⟨driver_of_isLocal own, other, inside, ?_, not_le.mp newer⟩
  rw [poolOf, poolOf, same, driver_of_isLocal own, driver_of_isLocal own']

theorem obsolete_of_same (own : isLocal nodeName slice = true) (obsolete : Obsolete slices other)
    (same : other.pool.name = slice.pool.name) (generation : other.pool.generation = slice.pool.generation) :
    Obsolete slices slice := by
  obtain ⟨driver, newer, inside, pool, above⟩ := obsolete
  refine ⟨driver_of_isLocal own, newer, inside, ?_, ?_⟩
  · rw [pool, poolOf, poolOf, driver, driver_of_isLocal own, same]
  · rw [generationOf, ← generation]
    exact above

variable {pool : String}

theorem newestSlices_eq (onePool : ∀ slice ∈ slices, isLocal nodeName slice = true → slice.pool.name = pool)
    (renewed : ∀ slice ∈ slices, isLocal nodeName slice = true → ∃ other ∈ slices, isLocal nodeName other = true ∧ ¬Obsolete slices other) :
    newestSlices nodeName slices = slices.filter fun slice => isLocal nodeName slice ∧ ¬Obsolete slices slice := by
  refine filter_congr fun slice inside => ?_
  simp only [isNewest, decide_eq_decide, and_congr_right_iff]
  intro own
  constructor
  · intro greatest obsolete
    obtain ⟨other, inside', own', newest⟩ := renewed slice inside own
    have same : slice.pool.name = other.pool.name := (onePool slice inside own).trans (onePool other inside' own').symm
    refine newest (obsolete_of_same own' obsolete same (le_antisymm ?_ (greatest other inside' own')))
    exact generation_le own' newest inside own same
  · intro newest other inside' own'
    exact generation_le own newest inside' own' ((onePool other inside' own').trans (onePool slice inside own).symm)

theorem newestSlices_latest (slices : List ResourceSlice)
    (onePool : ∀ slice ∈ latest slices, isLocal nodeName slice = true → slice.pool.name = pool) :
    newestSlices nodeName (latest slices) =
      (latest slices).filter fun slice => isLocal nodeName slice ∧ ¬Obsolete (latest slices) slice :=
  newestSlices_eq onePool fun slice inside own =>
    ⟨slice, inside, own, fun obsolete => (mem_latest.mp inside).2 ((variant_latest slices).obsolete_iff.mp obsolete)⟩

private theorem steady_of_counts {l : List ResourceSlice} (counts : ∀ slice ∈ l, ∀ other ∈ l,
    other.pool.generation = slice.pool.generation → other.pool.resourceSliceCount = slice.pool.resourceSliceCount) :
    Steady l := by
  intro visited slice first other inside generation _
  refine counts slice (first.subset (by simp)) other (first.subset ?_) generation
  exact mem_append_left _ inside

variable {n : NodeInfo}

theorem built_latest (built : newNodeInfoFromResourceSlices nodeName slices = .ok n) :
    ∃ n', newNodeInfoFromResourceSlices nodeName (latest slices) = .ok n' := by
  obtain ⟨pool, -, selectable, -, -⟩ := selectable_of_built built
  have variant := variant_latest slices
  have subset : ∀ slice ∈ latest slices, slice ∈ slices := fun slice inside => (mem_latest.mp inside).1
  have unclaimed : ∀ slice ∈ latest slices, ¬claimsOtherNodes slice :=
    fun slice inside => selectable.visitable.unclaimed slice (subset slice inside)
  have valid : ∀ slice ∈ latest slices, isLocal nodeName slice = true → Valid slice :=
    fun slice inside => selectable.visitable.valid slice (subset slice inside)
  by_cases kept : ∃ slice ∈ slices, isLocal nodeName slice = true ∧ ¬Obsolete slices slice
  · obtain ⟨current, inside, own, newest⟩ := kept
    have whole := newestSlices_eq selectable.onePool fun _ _ _ => ⟨current, inside, own, newest⟩
    have part := newestSlices_latest slices fun slice inside => selectable.onePool slice (subset slice inside)
    have perm : newestSlices nodeName slices ~ newestSlices nodeName (latest slices) := by
      rw [whole, part]
      exact variant.filter_perm (isLocal nodeName)
    have steady : ∀ pool, Steady (localSlices nodeName pool (latest slices)) := by
      intro pool
      have counted : ∀ slice ∈ localSlices nodeName pool (latest slices),
          slice.pool.resourceSliceCount = (newestSlices nodeName slices).length := by
        intro slice inside
        obtain ⟨member, own, -⟩ := mem_localSlices.mp inside
        refine selectable.complete slice ?_
        rw [whole, mem_filter]
        exact ⟨subset slice member, decide_eq_true ⟨own, (mem_latest.mp member).2⟩⟩
      refine steady_of_counts fun slice inside other inside' _ => ?_
      rw [counted slice inside, counted other inside']
    obtain ⟨n', built', -⟩ := built_of_newest_perm built ⟨unclaimed, valid, steady⟩ perm fun slice inside own =>
      ⟨slice, subset slice inside, own, rfl⟩
    exact ⟨n', built'⟩
  · have foreign : ∀ slice ∈ latest slices, ¬isLocal nodeName slice = true := by
      intro slice inside own
      exact kept ⟨slice, subset slice inside, own, (mem_latest.mp inside).2⟩
    have none : newestSlices nodeName (latest slices) = [] := by
      rw [eq_nil_iff_forall_not_mem]
      intro slice inside
      exact foreign slice (mem_newestSlices.mp inside).1 (mem_newestSlices.mp inside).2.1
    have selectable' : Selectable nodeName (latest slices) "" := by
      refine ⟨⟨unclaimed, valid, fun pool => ?_⟩, fun slice inside own => absurd own (foreign slice inside), ?_, fun _ => rfl⟩
      · refine steady_of_counts fun slice inside => ?_
        exact absurd (mem_localSlices.mp inside).2.1 (foreign slice (mem_localSlices.mp inside).1)
      · rw [none]
        exact nofun
    obtain ⟨n', built', -⟩ := selectable'.built (n := ⟨"", [], [], []⟩) (by rw [none]; rfl)
    exact ⟨n', built'⟩

theorem Harmless.built (harmless : Harmless nodeName slices) (variant : Variant slices slices')
    (built : newNodeInfoFromResourceSlices nodeName (latest slices) = .ok n) :
    ∃ n', newNodeInfoFromResourceSlices nodeName slices' = .ok n' ∧ SameTopology n n' := by
  obtain ⟨pool, -, selectable, -, -⟩ := selectable_of_built built
  have subset := variant.trimmed.subset
  have part := newestSlices_latest slices selectable.onePool
  have renewed : ∀ slice ∈ slices', isLocal nodeName slice = true → ∃ other ∈ latest slices,
      isLocal nodeName other = true ∧ other.pool.name = slice.pool.name := by
    intro slice inside own
    obtain ⟨other, inside', own', same, newest⟩ := harmless.renewed slice (subset inside) own
    exact ⟨other, mem_latest.mpr ⟨inside', newest⟩, own', same⟩
  have whole : newestSlices nodeName slices' =
      slices'.filter fun slice => isLocal nodeName slice ∧ ¬Obsolete slices' slice := by
    have onePool : ∀ slice ∈ slices', isLocal nodeName slice = true → slice.pool.name = pool := by
      intro slice inside own
      obtain ⟨other, inside', own', same⟩ := renewed slice inside own
      exact same ▸ selectable.onePool other inside' own'
    refine newestSlices_eq onePool fun slice inside own => ?_
    obtain ⟨other, inside', own', -⟩ := renewed slice inside own
    obtain ⟨member, newest⟩ := mem_latest.mp inside'
    exact ⟨other, variant.mem member newest, own', fun obsolete => newest (variant.obsolete_iff.mp obsolete)⟩
  have perm : newestSlices nodeName (latest slices) ~ newestSlices nodeName slices' := by
    rw [part, whole]
    exact ((variant_latest slices).filter_perm _).symm.trans (variant.filter_perm _)
  have counted : ∀ slice ∈ slices, isLocal nodeName slice = true → ¬Obsolete slices slice →
      slice.pool.resourceSliceCount = (newestSlices nodeName (latest slices)).length := by
    intro slice inside own newest
    refine selectable.complete slice ?_
    rw [part, mem_filter]
    exact ⟨mem_latest.mpr ⟨inside, newest⟩,
      decide_eq_true ⟨own, fun obsolete => newest ((variant_latest slices).obsolete_iff.mp obsolete)⟩⟩
  have visitable : Visitable nodeName slices' := by
    refine ⟨fun slice inside => ?_, fun slice inside own => ?_, fun pool => steady_of_counts fun slice inside other inside' generation => ?_⟩
    · by_cases obsolete : Obsolete slices slice
      · exact harmless.unclaimed slice (subset inside) obsolete
      · exact selectable.visitable.unclaimed slice (mem_latest.mpr ⟨subset inside, obsolete⟩)
    · by_cases obsolete : Obsolete slices slice
      · exact harmless.valid slice (subset inside) obsolete own
      · exact selectable.visitable.valid slice (mem_latest.mpr ⟨subset inside, obsolete⟩) own
    · obtain ⟨member, own, same⟩ := mem_localSlices.mp inside
      obtain ⟨member', own', same'⟩ := mem_localSlices.mp inside'
      by_cases obsolete : Obsolete slices slice
      · exact harmless.counts slice (subset member) other (subset member') obsolete own own' (same'.trans same.symm) generation
      · have obsolete' : ¬Obsolete slices other := fun outdated =>
          obsolete (obsolete_of_same own outdated (same'.trans same.symm) generation)
        rw [counted slice (subset member) own obsolete, counted other (subset member') own' obsolete']
  exact built_of_newest_perm built visitable perm renewed

theorem latest_latest (slices : List ResourceSlice) : latest (latest slices) = latest slices := by
  refine filter_eq_self.mpr fun slice inside => decide_eq_true fun obsolete => ?_
  exact (mem_latest.mp inside).2 ((variant_latest slices).obsolete_iff.mp obsolete)

theorem harmless_latest (nodeName : String) (slices : List ResourceSlice) : Harmless nodeName (latest slices) := by
  have none : ∀ slice ∈ latest slices, ¬Obsolete (latest slices) slice := by
    intro slice inside obsolete
    exact (mem_latest.mp inside).2 ((variant_latest slices).obsolete_iff.mp obsolete)
  exact ⟨fun slice inside obsolete => absurd obsolete (none slice inside),
    fun slice inside obsolete => absurd obsolete (none slice inside),
    fun slice inside _ _ obsolete => absurd obsolete (none slice inside),
    fun slice inside own => ⟨slice, inside, own, rfl, none slice inside⟩⟩

theorem Variant.built_latest (variant : Variant slices slices')
    (built : newNodeInfoFromResourceSlices nodeName slices' = .ok n) :
    ∃ n', newNodeInfoFromResourceSlices nodeName (latest slices) = .ok n' := by
  obtain ⟨m, accepted⟩ := CPUGenerations.built_latest built
  rw [← latest_latest] at accepted
  obtain ⟨m', accepted', -⟩ := (harmless_latest nodeName slices').built (.of_perm (latest_perm variant).symm) accepted
  exact ⟨m', accepted'⟩

private theorem not_visitable_of_counts {rest : List ResourceSlice} (own : isLocal nodeName slice = true)
    (own' : isLocal nodeName other = true) (same : other.pool.name = slice.pool.name)
    (generation : other.pool.generation = slice.pool.generation)
    (visitable : Visitable nodeName (other :: slice :: rest)) :
    other.pool.resourceSliceCount = slice.pool.resourceSliceCount := by
  have first : [other] ++ [slice] <+: localSlices nodeName slice.pool.name (other :: slice :: rest) := by
    simp [localSlices, own, own', same]
  refine visitable.steady slice.pool.name [other] slice first other (mem_singleton_self _) generation ?_
  intro newer inside
  rw [mem_singleton.mp inside, generation]

theorem harmless_of_alike (built : newNodeInfoFromResourceSlices nodeName (latest slices) = .ok n)
    (alike : ∀ slices', Variant slices slices' → Alike (newNodeInfoFromResourceSlices nodeName slices) (newNodeInfoFromResourceSlices nodeName slices')) :
    Harmless nodeName slices := by
  obtain ⟨m, whole, same⟩ := (alike _ (variant_latest slices)).back n built
  obtain ⟨pool, m', selectable, gathered, same'⟩ := selectable_of_built whole
  refine ⟨fun slice inside _ => selectable.visitable.unclaimed slice inside,
    fun slice inside _ => selectable.visitable.valid slice inside, ?_, ?_⟩
  · intro slice inside other inside' _ own own' pool generation
    by_cases equal : other = slice
    · rw [equal]
    -- The order in which the two come first.
    have remains : slice ∈ slices.erase other := (mem_erase_of_ne (Ne.symm equal)).mpr inside
    have perm : slices ~ other :: slice :: (slices.erase other).erase slice :=
      (perm_cons_erase inside').trans ((perm_cons_erase remains).cons other)
    obtain ⟨_, built', -⟩ := (alike _ (.of_perm perm)).onto m whole
    obtain ⟨_, -, selectable', -, -⟩ := selectable_of_built built'
    exact not_visitable_of_counts own own' pool generation selectable'.visitable
  · intro slice inside own
    by_contra gone
    push Not at gone
    have foreign : ∀ other ∈ latest slices, ¬isLocal nodeName other = true := by
      intro other inside' own'
      obtain ⟨member, newest⟩ := mem_latest.mp inside'
      refine newest (gone other member own' ?_)
      rw [selectable.onePool other member own', selectable.onePool slice inside own]
    -- The latest slices give the empty topology, all slices a topology with devices.
    obtain ⟨_, k, selectable'', gathered', same''⟩ := selectable_of_built built
    have none : newestSlices nodeName (latest slices) = [] := by
      rw [eq_nil_iff_forall_not_mem]
      intro other inside'
      exact foreign other (mem_newestSlices.mp inside').1 (mem_newestSlices.mp inside').2.1
    rw [none] at gathered'
    obtain rfl : (⟨"", [], [], []⟩ : NodeInfo) = k := Except.ok.inj gathered'
    obtain ⟨newest, listed, -⟩ := Selection.exists_newest inside own
    refine (cpuDevices_ne_nil gathered (ne_nil_of_mem listed)).2 ?_
    exact ((same'.devices.symm.trans same.devices.symm).trans same''.devices).eq_nil

end

/-- The pool of `twoSockets` moved to another node in its next generation. -/
def movedPool : ResourceSlice := { twoSockets with name := "moved", nodeName := some "other", pool := ⟨"node", 2, 1⟩ }

/-- What an earlier generation left behind while it was replaced, with two statements of its size. -/
def leftovers : List ResourceSlice :=
  [{ twoSockets with name := "old-1", pool := ⟨"node", 0, 1⟩ }, { twoSockets with name := "old-2", pool := ⟨"node", 0, 2⟩ }]

private theorem not_alike_of_devices {x y : Except String NodeInfo} {k k' : Nat} (differ : k ≠ k')
    (left : x.toOption.map (·.cpuDevices.length) = some k) (right : y.toOption.map (·.cpuDevices.length) = some k') :
    ¬Alike x y := by
  intro alike
  obtain ⟨n, first, rfl⟩ := Option.map_eq_some_iff.mp left
  obtain ⟨n', second, rfl⟩ := Option.map_eq_some_iff.mp right
  have ok : ∀ {z : Except String NodeInfo} {m : NodeInfo}, z.toOption = some m → z = .ok m := by
    intro z m known
    cases z with
    | error e => cases known
    | ok a => exact congrArg Except.ok (Option.some.inj known)
  obtain ⟨n'', again, same⟩ := alike.onto n (ok first)
  obtain rfl := Except.ok.inj ((ok second).symm.trans again)
  exact differ same.devices.length_eq

end SlurmBridge.Inventory.CPUGenerations
