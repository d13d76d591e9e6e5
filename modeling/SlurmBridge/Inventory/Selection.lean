/- source: internal/nodeinfo/nodeinfo.go
   digest: When the CPU pool of a node can be selected from a list of slices, without the loop, and what
     the topology then depends on. -/

import SlurmBridge.Foundation.Generations
import SlurmBridge.Inventory.Build

set_option autoImplicit false

namespace SlurmBridge.Inventory.Selection

open scoped List
open Foundation.Checked Inventory.Devices Inventory.Topology Inventory.Build List

/-- What the loop requires of each slice of the node by itself. -/
structure Valid (slice : ResourceSlice) : Prop where
  pool : slice.pool.name ≠ "" ∧ 0 ≤ slice.pool.generation ∧ 0 < slice.pool.resourceSliceCount
  wholeSlice : slice.perDeviceNodeSelection.getD false = false

/-- A slice agrees on the number of slices with those of its generation that came before it, unless a
newer generation came before it. -/
def Follows (visited : List ResourceSlice) (slice : ResourceSlice) : Prop :=
  ∀ other ∈ visited, other.pool.generation = slice.pool.generation →
    (∀ newer ∈ visited, newer.pool.generation ≤ slice.pool.generation) →
    other.pool.resourceSliceCount = slice.pool.resourceSliceCount

/-- The slices of one pool, in the order in which the loop meets them. -/
def Steady (slices : List ResourceSlice) : Prop := ∀ visited slice, visited ++ [slice] <+: slices → Follows visited slice

theorem steady_nil : Steady [] := by
  intro visited slice first
  exact absurd (prefix_nil.mp first) (by simp)

variable {slices : List ResourceSlice} {slice : ResourceSlice}

theorem steady_append_singleton : Steady (slices ++ [slice]) ↔ Steady slices ∧ Follows slices slice := by
  constructor
  · intro steady
    exact ⟨fun visited other first => steady visited other (first.trans (prefix_append _ _)), steady slices slice (prefix_refl _)⟩
  · rintro ⟨steady, follows⟩ visited other first
    rcases prefix_concat_iff.mp first with whole | before
    · obtain ⟨rfl, same⟩ := append_inj' whole rfl
      exact singleton_inj.mp same ▸ follows
    · exact steady visited other before

def localSlices (nodeName pool : String) (slices : List ResourceSlice) : List ResourceSlice :=
  slices.filter fun slice => isLocal nodeName slice ∧ slice.pool.name = pool

variable {nodeName : String}

theorem mem_localSlices {pool : String} :
    slice ∈ localSlices nodeName pool slices ↔ slice ∈ slices ∧ isLocal nodeName slice = true ∧ slice.pool.name = pool := by
  simp [localSlices]

/-- The loop over the slices meets no error. -/
structure Visitable (nodeName : String) (slices : List ResourceSlice) : Prop where
  unclaimed : ∀ slice ∈ slices, ¬claimsOtherNodes slice
  valid : ∀ slice ∈ slices, isLocal nodeName slice = true → Valid slice
  steady : ∀ pool, Steady (localSlices nodeName pool slices)

section
variable {nodeName : String} {visited slices : List ResourceSlice} {snapshots snapshots' : Snapshots} {slice : ResourceSlice}

/-- The slices of a snapshot state one number of slices. -/
def Counted (snapshots : Snapshots) : Prop :=
  ∀ pool, ∀ snapshot ∈ snapshots.lookup pool, ∀ slice ∈ snapshot.slices,
    slice.pool.resourceSliceCount = snapshot.resourceSliceCount

variable {pool : String} {snapshot : CPUPoolSnapshot}

private theorem counted_insert (counted : Counted snapshots)
    (own : ∀ slice ∈ snapshot.slices, slice.pool.resourceSliceCount = snapshot.resourceSliceCount) :
    Counted (snapshots.insert pool snapshot) := by
  intro other entry found
  by_cases same : other = pool
  · subst same
    rw [AList.lookup_insert] at found
    exact Option.some.inj found ▸ own
  · rw [AList.lookup_insert_ne same] at found
    exact counted other entry found

private theorem mem_slices_iff (newest : Newest nodeName visited pool snapshot) : slice ∈ snapshot.slices ↔
      slice ∈ localSlices nodeName pool visited ∧ slice.pool.generation = snapshot.generation := by
  rw [newest.slices, mem_filter, mem_localSlices]
  simp only [decide_eq_true_eq, and_assoc]

private theorem bound_localSlices (newest : Newest nodeName visited pool snapshot)
    (inside : slice ∈ localSlices nodeName pool visited) : slice.pool.generation ≤ snapshot.generation := by
  obtain ⟨member, own, same⟩ := mem_localSlices.mp inside
  exact newest.bound slice member own same

private theorem counted_enterSlice (counted : Counted snapshots) (entered : enterSlice snapshots slice = .ok snapshots') :
    Counted snapshots' := by
  have fresh : Counted (snapshots.insert slice.pool.name ⟨slice.pool.generation, slice.pool.resourceSliceCount, [slice]⟩) :=
    counted_insert counted fun other inside => by rw [mem_singleton.mp inside]
  unfold enterSlice at entered
  dsimp only at entered
  split at entered
  · exact pure_eq_ok.mp entered ▸ fresh
  · rename_i snapshot found
    split at entered
    · exact pure_eq_ok.mp entered ▸ fresh
    · split at entered
      · exact pure_eq_ok.mp entered ▸ counted
      · obtain ⟨_, count, same⟩ := bind_eq_ok.mp entered
        exact pure_eq_ok.mp same ▸ counted_insert counted
          (forall_mem_snoc (counted slice.pool.name snapshot found) (require_eq_ok.mp count))

private theorem enterSlice_ok_iff (slice : ResourceSlice) (summary : Summarizes nodeName visited snapshots) (counted : Counted snapshots) :
    (∃ snapshots', enterSlice snapshots slice = .ok snapshots') ↔
      Follows (localSlices nodeName slice.pool.name visited) slice := by
  have now := summary slice.pool.name
  unfold enterSlice
  dsimp only
  cases found : snapshots.lookup slice.pool.name with
  | none =>
    rw [found] at now
    refine iff_of_true ⟨_, rfl⟩ fun other inside => ?_
    obtain ⟨member, own, same⟩ := mem_localSlices.mp inside
    exact absurd same (now other member own)
  | some snapshot =>
    rw [found] at now
    dsimp only
    obtain ⟨reached, inSnapshot⟩ := exists_mem_of_ne_nil _ now.nonempty
    obtain ⟨amongLocal, attained⟩ := (mem_slices_iff now).mp inSnapshot
    rcases lt_trichotomy snapshot.generation slice.pool.generation with newer | same | older
    · rw [if_pos newer]
      refine iff_of_true ⟨_, rfl⟩ fun other inside generation => ?_
      have bound := bound_localSlices now inside
      omega
    · rw [if_neg (by omega), if_neg (by omega)]
      have agree := counted slice.pool.name snapshot found
      constructor
      · rintro ⟨_, entered⟩ other inside generation -
        obtain ⟨_, count, -⟩ := bind_eq_ok.mp entered
        rw [agree other ((mem_slices_iff now).mpr ⟨inside, generation.trans same.symm⟩), require_eq_ok.mp count]
      · intro follows
        refine ⟨_, bind_eq_ok.mpr ⟨(), require_eq_ok.mpr ?_, rfl⟩⟩
        rw [← agree reached inSnapshot]
        refine (follows reached amongLocal (attained.trans same) fun other inside => ?_).symm
        exact same ▸ bound_localSlices now inside
    · rw [if_neg (by omega), if_pos older]
      refine iff_of_true ⟨_, rfl⟩ fun other inside generation newest => ?_
      have bound := newest reached amongLocal
      omega

/-- What one step of the loop requires. -/
structure Step (nodeName : String) (visited : List ResourceSlice) (slice : ResourceSlice) : Prop where
  unclaimed : ¬claimsOtherNodes slice
  valid : isLocal nodeName slice = true → Valid slice
  follows : isLocal nodeName slice = true → Follows (localSlices nodeName slice.pool.name visited) slice

private theorem visitSlice_ok_iff (summary : Summarizes nodeName visited snapshots) (counted : Counted snapshots) :
    (∃ snapshots', visitSlice nodeName snapshots slice = .ok snapshots') ↔ Step nodeName visited slice := by
  have enter := enterSlice_ok_iff slice summary counted
  unfold visitSlice
  by_cases own : isLocal nodeName slice = true
  · simp only [if_pos own]
    constructor
    · rintro ⟨_, visited⟩
      obtain ⟨_, unclaimed, rest⟩ := bind_eq_ok.mp visited
      obtain ⟨_, pool, rest⟩ := bind_eq_ok.mp rest
      obtain ⟨_, whole, entered⟩ := bind_eq_ok.mp rest
      exact ⟨require_eq_ok.mp unclaimed, fun _ => ⟨require_eq_ok.mp pool, require_eq_ok.mp whole⟩,
        fun _ => enter.mp ⟨_, entered⟩⟩
    · rintro ⟨unclaimed, valid, follows⟩
      obtain ⟨next, entered⟩ := enter.mpr (follows own)
      refine ⟨next, bind_eq_ok.mpr ⟨(), require_eq_ok.mpr unclaimed, ?_⟩⟩
      refine bind_eq_ok.mpr ⟨(), require_eq_ok.mpr (valid own).pool, ?_⟩
      exact bind_eq_ok.mpr ⟨(), require_eq_ok.mpr (valid own).wholeSlice, entered⟩
  · simp only [if_neg own]
    constructor
    · rintro ⟨_, visited⟩
      obtain ⟨_, unclaimed, -⟩ := bind_eq_ok.mp visited
      exact ⟨require_eq_ok.mp unclaimed, fun isOwn => absurd isOwn own, fun isOwn => absurd isOwn own⟩
    · rintro ⟨unclaimed, -, -⟩
      exact ⟨snapshots, bind_eq_ok.mpr ⟨(), require_eq_ok.mpr unclaimed, rfl⟩⟩

private theorem localSlices_append_singleton (pool : String) : localSlices nodeName pool (visited ++ [slice]) =
      localSlices nodeName pool visited ++ if isLocal nodeName slice = true ∧ slice.pool.name = pool then [slice] else [] := by
  by_cases own : isLocal nodeName slice = true ∧ slice.pool.name = pool <;> simp [localSlices, own]

theorem visitable_nil : Visitable nodeName [] := ⟨nofun, nofun, fun _ => steady_nil⟩

theorem visitable_append_singleton : Visitable nodeName (visited ++ [slice]) ↔ Visitable nodeName visited ∧ Step nodeName visited slice := by
  constructor
  · rintro ⟨unclaimed, valid, steady⟩
    have before : ∀ pool, Steady (localSlices nodeName pool visited) := by
      intro pool
      have now := steady pool
      rw [localSlices_append_singleton] at now
      split at now
      · exact (steady_append_singleton.mp now).1
      · rwa [append_nil] at now
    refine ⟨⟨fun other inside => unclaimed other (mem_append_left _ inside),
      fun other inside => valid other (mem_append_left _ inside), before⟩,
      unclaimed slice (by simp), valid slice (by simp), fun own => ?_⟩
    have now := steady slice.pool.name
    rw [localSlices_append_singleton, if_pos ⟨own, rfl⟩] at now
    exact (steady_append_singleton.mp now).2
  · rintro ⟨before, step⟩
    refine ⟨?_, ?_, fun pool => ?_⟩
    · exact forall_mem_append.mpr ⟨before.unclaimed, forall_mem_singleton.mpr step.unclaimed⟩
    · exact forall_mem_append.mpr ⟨before.valid, forall_mem_singleton.mpr step.valid⟩
    · rw [localSlices_append_singleton]
      split
      next own =>
        obtain ⟨isOwn, rfl⟩ := own
        exact steady_append_singleton.mpr ⟨before.steady _, step.follows isOwn⟩
      · rw [append_nil]
        exact before.steady pool

theorem counted_loop (loop : slices.foldlM (visitSlice nodeName) ∅ = .ok snapshots) : Counted snapshots := by
  refine foldlM_ok (fun _ snapshots => Counted snapshots) (fun _ slice now next counted step => ?_) ?_ loop
  · obtain ⟨_, -, rest⟩ := bind_eq_ok.mp step
    split at rest
    · obtain ⟨_, -, rest⟩ := bind_eq_ok.mp rest
      obtain ⟨_, -, entered⟩ := bind_eq_ok.mp rest
      exact counted_enterSlice counted entered
    · exact pure_eq_ok.mp rest ▸ counted
  · intro pool snapshot found
    simp at found

theorem loop_ok_iff : (∃ snapshots, slices.foldlM (visitSlice nodeName) ∅ = .ok snapshots) ↔ Visitable nodeName slices := by
  induction slices using List.reverseRecOn with
  | nil => exact iff_of_true ⟨∅, rfl⟩ visitable_nil
  | append_singleton visited slice ih =>
    rw [visitable_append_singleton, ← ih]
    simp only [foldlM_append, foldlM_cons, foldlM_nil, bind_pure]
    constructor
    · rintro ⟨last, run⟩
      obtain ⟨snapshots, before, visit⟩ := bind_eq_ok.mp run
      exact ⟨⟨snapshots, before⟩, (visitSlice_ok_iff (summarizes_loop before) (counted_loop before)).mp ⟨last, visit⟩⟩
    · rintro ⟨⟨snapshots, before⟩, step⟩
      obtain ⟨last, visit⟩ := (visitSlice_ok_iff (summarizes_loop before) (counted_loop before)).mpr step
      exact ⟨last, bind_eq_ok.mpr ⟨snapshots, before, visit⟩⟩

end

def newestSlices (nodeName : String) (slices : List ResourceSlice) : List ResourceSlice :=
  slices.filter (isNewest nodeName slices)

theorem mem_newestSlices :
    slice ∈ newestSlices nodeName slices ↔ slice ∈ slices ∧ isLocal nodeName slice = true ∧
      ∀ other ∈ slices, isLocal nodeName other = true → other.pool.generation ≤ slice.pool.generation := by
  simp [newestSlices, isNewest]

/-- The pool can be selected: the loop ends, the node has one pool, and its newest slices are complete. -/
structure Selectable (nodeName : String) (slices : List ResourceSlice) (pool : String) : Prop where
  visitable : Visitable nodeName slices
  onePool : ∀ slice ∈ slices, isLocal nodeName slice = true → slice.pool.name = pool
  complete : ∀ slice ∈ newestSlices nodeName slices,
    slice.pool.resourceSliceCount = (newestSlices nodeName slices).length
  unnamed : newestSlices nodeName slices = [] → pool = ""

section
variable {nodeName pool : String} {slices slices' : List ResourceSlice}

theorem exists_newest {slice : ResourceSlice} (inside : slice ∈ slices) (own : isLocal nodeName slice = true) :
    ∃ newest ∈ newestSlices nodeName slices, slice.pool.generation ≤ newest.pool.generation := by
  obtain ⟨newest, listed, outdated, -, above⟩ := Foundation.Generations.exists_newest (fun _ : ResourceSlice => ())
    (·.pool.generation) (mem_filter.mpr ⟨inside, own⟩)
  obtain ⟨member, isOwn⟩ := mem_filter.mp listed
  refine ⟨newest, mem_newestSlices.mpr ⟨member, isOwn, fun other inside' own' => ?_⟩, above⟩
  by_contra newer
  exact outdated ⟨other, mem_filter.mpr ⟨inside', own'⟩, rfl, not_le.mp newer⟩

theorem selectCPUResourcePool_ok_iff {chosen : List ResourceSlice} :
    selectCPUResourcePool nodeName slices = .ok (pool, chosen) ↔ Selectable nodeName slices pool ∧
      chosen = (newestSlices nodeName slices).insertionSort fun a b => a.name ≤ b.name := by
  constructor
  · intro selected
    obtain ⟨snapshots, loop, result⟩ := bind_eq_ok.mp selected
    have summary := summarizes_loop loop
    have visitable := loop_ok_iff.mp ⟨snapshots, loop⟩
    split at result
    · rename_i noEntries
      obtain ⟨rfl, rfl⟩ := Prod.mk.injEq .. ▸ pure_eq_ok.mp result
      have foreign := summary.foreign noEntries
      have none : newestSlices nodeName slices = [] := by
        rw [eq_nil_iff_forall_not_mem]
        intro slice inside
        exact foreign slice (mem_newestSlices.mp inside).1 (mem_newestSlices.mp inside).2.1
      refine ⟨⟨visitable, fun slice inside own => absurd own (foreign slice inside), ?_, fun _ => rfl⟩, ?_⟩
      · rw [none]
        exact nofun
      · rw [none]
        rfl
    · rename_i only snapshot oneEntry
      obtain ⟨_, complete, same⟩ := bind_eq_ok.mp result
      obtain ⟨rfl, rfl⟩ := Prod.mk.injEq .. ▸ pure_eq_ok.mp same
      obtain ⟨onePool, nonempty, newest⟩ := summary.single oneEntry
      have counted := counted_loop loop only snapshot (by simp [AList.lookup, oneEntry])
      refine ⟨⟨visitable, onePool, fun slice inside => ?_, fun none => absurd (newest.trans none) nonempty⟩, ?_⟩
      · rw [newestSlices, ← newest] at inside ⊢
        rw [counted slice inside, require_eq_ok.mp complete]
      · rw [newestSlices, ← newest]
    · simp at result
  · rintro ⟨⟨visitable, onePool, complete, unnamed⟩, rfl⟩
    obtain ⟨snapshots, loop⟩ := loop_ok_iff.mpr visitable
    have summary := summarizes_loop loop
    have owner : ∀ entry ∈ snapshots.entries, entry.1 = pool := by
      intro entry inside
      have newest := summary entry.1
      rw [AList.mem_lookup_iff.mpr inside] at newest
      obtain ⟨slice, inSnapshot⟩ := exists_mem_of_ne_nil _ newest.nonempty
      obtain ⟨among, -⟩ := (mem_slices_iff newest).mp inSnapshot
      obtain ⟨member, own, same⟩ := mem_localSlices.mp among
      rw [← same, onePool slice member own]
    refine bind_eq_ok.mpr ⟨snapshots, loop, ?_⟩
    match entries : snapshots.entries with
    | [] =>
      have none : newestSlices nodeName slices = [] := by
        rw [eq_nil_iff_forall_not_mem]
        intro slice inside
        exact summary.foreign entries slice (mem_newestSlices.mp inside).1 (mem_newestSlices.mp inside).2.1
      simp only [unnamed none, none]
      rfl
    | [⟨only, snapshot⟩] =>
      obtain rfl : only = pool := owner ⟨only, snapshot⟩ (entries ▸ mem_singleton_self _)
      obtain ⟨-, nonempty, newest⟩ := summary.single entries
      have counted := counted_loop loop only snapshot (by simp [AList.lookup, entries])
      rw [newestSlices, ← newest]
      refine bind_eq_ok.mpr ⟨(), require_eq_ok.mpr ?_, rfl⟩
      obtain ⟨reached, inSnapshot⟩ := exists_mem_of_ne_nil _ nonempty
      rw [← counted reached inSnapshot, complete reached (by rwa [newestSlices, ← newest]), newestSlices, ← newest]
    | first :: second :: rest =>
      have same : first.1 = second.1 := by
        rw [owner first (by simp [entries]), owner second (by simp [entries])]
      have distinct := snapshots.nodupKeys
      rw [entries, nodupKeys_cons] at distinct
      exact absurd (by simp [List.keys, same]) distinct.1

variable {n : NodeInfo}

theorem newNodeInfoFromResourceSlices_ok_iff :
    newNodeInfoFromResourceSlices nodeName slices = .ok n ↔ ∃ pool, Selectable nodeName slices pool ∧
      buildNodeInfo pool ((newestSlices nodeName slices).insertionSort fun a b => a.name ≤ b.name) = .ok n := by
  rw [newNodeInfoFromResourceSlices_eq, bind_eq_ok]
  constructor
  · rintro ⟨⟨pool, chosen⟩, selected, built⟩
    obtain ⟨selectable, rfl⟩ := selectCPUResourcePool_ok_iff.mp selected
    exact ⟨pool, selectable, built⟩
  · rintro ⟨pool, selectable, built⟩
    exact ⟨(pool, _), selectCPUResourcePool_ok_iff.mpr ⟨selectable, rfl⟩, built⟩

theorem selectable_of_built (built : newNodeInfoFromResourceSlices nodeName slices = .ok n) :
    ∃ pool n', Selectable nodeName slices pool ∧ buildNodeInfo pool (newestSlices nodeName slices) = .ok n' ∧
      SameTopology n n' := by
  obtain ⟨pool, selectable, built⟩ := newNodeInfoFromResourceSlices_ok_iff.mp built
  obtain ⟨n', built', same⟩ := buildNodeInfo_perm (perm_insertionSort _ _) built
  exact ⟨pool, n', selectable, built', same⟩

theorem Selectable.built (selectable : Selectable nodeName slices pool)
    (built : buildNodeInfo pool (newestSlices nodeName slices) = .ok n) :
    ∃ n', newNodeInfoFromResourceSlices nodeName slices = .ok n' ∧ SameTopology n n' := by
  have sorted := perm_insertionSort (fun a b : ResourceSlice => a.name ≤ b.name) (newestSlices nodeName slices)
  obtain ⟨n', built', same⟩ := buildNodeInfo_perm sorted.symm built
  exact ⟨n', newNodeInfoFromResourceSlices_ok_iff.mpr ⟨pool, selectable, built'⟩, same⟩

theorem built_of_newest_perm (built : newNodeInfoFromResourceSlices nodeName slices = .ok n)
    (visitable : Visitable nodeName slices')
    (perm : newestSlices nodeName slices ~ newestSlices nodeName slices')
    (pools : ∀ slice ∈ slices', isLocal nodeName slice = true → ∃ other ∈ slices, isLocal nodeName other = true ∧ other.pool.name = slice.pool.name) :
    ∃ n', newNodeInfoFromResourceSlices nodeName slices' = .ok n' ∧ SameTopology n n' := by
  obtain ⟨pool, m, selectable, built, same⟩ := selectable_of_built built
  obtain ⟨m', built', same'⟩ := buildNodeInfo_perm perm built
  have selectable' : Selectable nodeName slices' pool := by
    refine ⟨visitable, fun slice inside own => ?_, fun slice inside => ?_, fun none => ?_⟩
    · obtain ⟨other, inside', own', name⟩ := pools slice inside own
      exact name ▸ selectable.onePool other inside' own'
    · rw [selectable.complete slice (perm.symm.subset inside), perm.length_eq]
    · exact selectable.unnamed (perm.trans (.of_eq none)).eq_nil
  obtain ⟨n', built'', same''⟩ := selectable'.built built'
  exact ⟨n', built'', same.trans (same'.trans same'')⟩

private theorem newestSlices_of_onePool
    (onePool : ∀ slice ∈ slices, isLocal nodeName slice = true → slice.pool.name = pool) :
    newestSlices nodeName slices = (localSlices nodeName pool slices).filter fun slice =>
      ∀ other ∈ localSlices nodeName pool slices, other.pool.generation ≤ slice.pool.generation := by
  rw [newestSlices, localSlices, filter_filter]
  refine filter_congr fun slice inside => ?_
  rw [isNewest, ← Bool.decide_and, decide_eq_decide]
  constructor
  · rintro ⟨own, greatest⟩
    refine ⟨fun other listed => ?_, own, onePool slice inside own⟩
    obtain ⟨inside', own', -⟩ := mem_localSlices.mp listed
    exact greatest other inside' own'
  · rintro ⟨greatest, own, -⟩
    refine ⟨own, fun other inside' own' => greatest other (mem_localSlices.mpr ⟨inside', own', ?_⟩)⟩
    exact onePool other inside' own'

theorem newNodeInfo_agree (locals : ∀ pool, localSlices nodeName pool slices = localSlices nodeName pool slices')
    (claims : (∀ slice ∈ slices, ¬claimsOtherNodes slice) ↔ ∀ slice ∈ slices', ¬claimsOtherNodes slice) :
    Agree (newNodeInfoFromResourceSlices nodeName slices) (newNodeInfoFromResourceSlices nodeName slices') := by
  have half : ∀ {l l' : List ResourceSlice} {pool : String},
      (∀ pool, localSlices nodeName pool l = localSlices nodeName pool l') →
      ((∀ slice ∈ l, ¬claimsOtherNodes slice) → ∀ slice ∈ l', ¬claimsOtherNodes slice) →
      Selectable nodeName l pool → Selectable nodeName l' pool ∧ newestSlices nodeName l = newestSlices nodeName l' := by
    intro l l' pool locals claims selectable
    have back : ∀ slice ∈ l', isLocal nodeName slice = true → slice ∈ l := by
      intro slice inside own
      have listed := mem_localSlices.mpr ⟨inside, own, rfl⟩
      rw [← locals] at listed
      exact (mem_localSlices.mp listed).1
    have onePool : ∀ slice ∈ l', isLocal nodeName slice = true → slice.pool.name = pool :=
      fun slice inside own => selectable.onePool slice (back slice inside own) own
    have same : newestSlices nodeName l = newestSlices nodeName l' := by
      rw [newestSlices_of_onePool selectable.onePool, newestSlices_of_onePool onePool, locals]
    refine ⟨⟨⟨claims selectable.visitable.unclaimed, fun slice inside own => ?_, fun pool => ?_⟩, onePool, ?_, ?_⟩, same⟩
    · exact selectable.visitable.valid slice (back slice inside own) own
    · exact locals pool ▸ selectable.visitable.steady pool
    · exact same ▸ selectable.complete
    · exact same ▸ selectable.unnamed
  intro n
  rw [newNodeInfoFromResourceSlices_ok_iff, newNodeInfoFromResourceSlices_ok_iff]
  constructor
  · rintro ⟨pool, selectable, built⟩
    obtain ⟨selectable', same⟩ := half locals claims.mp selectable
    exact ⟨pool, selectable', same ▸ built⟩
  · rintro ⟨pool, selectable, built⟩
    obtain ⟨selectable', same⟩ := half (fun pool => (locals pool).symm) claims.mpr selectable
    exact ⟨pool, selectable', same ▸ built⟩

end

end SlurmBridge.Inventory.Selection
