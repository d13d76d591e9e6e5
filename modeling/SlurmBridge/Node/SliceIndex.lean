/- source: internal/controller/node/utils/index.go
   digest: The slices that the indexes give for a node: which pools they leave out of the full list, and
     that these decide neither the CPU topology nor an inventory that can be built. -/

import SlurmBridge.Dra.CanonicalInventory
import SlurmBridge.Inventory.Selection

set_option autoImplicit false

namespace SlurmBridge.Node.SliceIndex

open scoped List
open Foundation.Checked Foundation.Generations Foundation.Text Inventory.Devices Inventory.Topology
open Inventory.Selection Dra.Inventory Dra.Profiles Dra.PoolSnapshots Dra.CanonicalInventory List

/-- A client that lists ResourceSlices, all of them or by an index it may not have. -/
structure SliceReader where
  all : Except String (List ResourceSlice)
  byNode : String → Except String (List ResourceSlice)
  byPool : String → Except String (List ResourceSlice)

def indexValueResourceSliceGlobal : String := "*"

/-- The node that a slice is assigned to.  Slices with unsupported node selection are global. -/
def indexResourceSliceByNode (slice : ResourceSlice) : String :=
  match validateResourceSliceNode slice with
  | .ok _ => slice.nodeName.getD ""
  | .error _ => indexValueResourceSliceGlobal

def indexResourceSliceByPool (slice : ResourceSlice) : String := (resourcePoolIDFromSlice slice).text

/-- All generations and nodes of one pool, from the index or from the full list. -/
def getResourceSlicesForPool (reader : SliceReader) (id : ResourcePoolID) : Except String (List ResourceSlice) :=
  match reader.byPool id.text with
  | .ok slices => pure slices
  | .error _ => do
      let slices ← reader.all
      return slices.filter fun slice => resourcePoolIDFromSlice slice = id

def visitPool (reader : SliceReader) (state : List ResourcePoolID × List ResourceSlice) (slice : ResourceSlice) :
    Except String (List ResourcePoolID × List ResourceSlice) :=
  let id := resourcePoolIDFromSlice slice
  if id ∈ state.1 then
    pure state
  else do
    let poolSlices ← getResourceSlicesForPool reader id
    return (state.1 ++ [id], state.2 ++ poolSlices)

/-- The slices of pools with a slice of the node, and of pools with unsupported node selection. -/
def getResourceSlicesForNode (reader : SliceReader) (nodeName : String) : Except String (List ResourceSlice) :=
  match reader.byNode nodeName with
  | .error _ => reader.all
  | .ok perNode => do
      let globals ← reader.byNode indexValueResourceSliceGlobal
      let (_, slices) ← (perNode ++ globals).foldlM (visitPool reader) ([], [])
      return slices

def poolPart (slices : List ResourceSlice) (id : ResourcePoolID) : List ResourceSlice :=
  slices.filter fun slice => resourcePoolIDFromSlice slice = id

/-- What the reader lists is a set of slices, each pool in one order.  The names of drivers have no slash,
so that the keys of the pool index tell pools apart. -/
structure Serves (reader : SliceReader) (full : List ResourceSlice) : Prop where
  drivers : ∀ slice ∈ full, '/' ∉ slice.driver.toList
  all : ∀ slices, reader.all = .ok slices → ∀ id, poolPart slices id = poolPart full id
  byNode : ∀ value slices, reader.byNode value = .ok slices →
    slices ~ full.filter fun slice => indexResourceSliceByNode slice = value
  byPool : ∀ key slices, reader.byPool key = .ok slices →
    slices = full.filter fun slice => indexResourceSliceByPool slice = key

/-- A pool without slices of the node and without unsupported node selection. -/
def Irrelevant (nodeName : String) (full : List ResourceSlice) (id : ResourcePoolID) : Prop :=
  ∀ slice ∈ full, resourcePoolIDFromSlice slice = id →
    validateResourceSliceNode slice = .ok () ∧ slice.nodeName ≠ some nodeName

/-- A list with the same pools as the full one, some irrelevant ones left out. -/
def Covers (nodeName : String) (full indexed : List ResourceSlice) : Prop :=
  ∀ id, poolPart indexed id = poolPart full id ∨ poolPart indexed id = [] ∧ Irrelevant nodeName full id

section
variable {reader : SliceReader} {nodeName : String} {full : List ResourceSlice} {slice : ResourceSlice}

variable {slices : List ResourceSlice} {id : ResourcePoolID}

theorem mem_poolPart : slice ∈ poolPart slices id ↔ slice ∈ slices ∧ resourcePoolIDFromSlice slice = id := by
  simp [poolPart]

theorem text_inj {id' : ResourcePoolID} (plain : '/' ∉ id.driver.toList) (plain' : '/' ∉ id'.driver.toList)
    (same : id.text = id'.text) : id = id' := by
  have left : cut '/' id.text = (id.driver, id.pool, true) := cut_separated plain
  have right : cut '/' id'.text = (id'.driver, id'.pool, true) := cut_separated plain'
  rw [same, right] at left
  obtain ⟨driver, rest⟩ := Prod.mk.inj left
  obtain ⟨pool, -⟩ := Prod.mk.inj rest
  obtain ⟨d, p⟩ := id
  obtain ⟨d', p'⟩ := id'
  simp only at driver pool
  rw [driver, pool]

theorem getResourceSlicesForPool_ok (serves : Serves reader full) (inside : slice ∈ full)
    (answer : getResourceSlicesForPool reader (resourcePoolIDFromSlice slice) = .ok slices) :
    slices = poolPart full (resourcePoolIDFromSlice slice) := by
  unfold getResourceSlicesForPool at answer
  split at answer
  · rename_i listed found
    obtain rfl := pure_eq_ok.mp answer
    rw [serves.byPool _ _ found]
    refine filter_congr fun other inside' => ?_
    rw [decide_eq_decide]
    exact ⟨text_inj (serves.drivers other inside') (serves.drivers slice inside), fun same => congrArg ResourcePoolID.text same⟩
  · obtain ⟨listed, found, same⟩ := bind_eq_ok.mp answer
    obtain rfl := pure_eq_ok.mp same
    exact serves.all listed found _

private theorem visitPools_ok (serves : Serves reader full) {visited : List ResourceSlice} (known : ∀ slice ∈ visited, slice ∈ full)
    {state : List ResourcePoolID × List ResourceSlice} (loop : visited.foldlM (visitPool reader) ([], []) = .ok state) :
    state.1.Nodup ∧ (∀ id, id ∈ state.1 ↔ ∃ slice ∈ visited, resourcePoolIDFromSlice slice = id) ∧
      state.2 = state.1.flatMap (poolPart full) := by
  have general : (∀ slice ∈ visited, slice ∈ full) → state.1.Nodup ∧
      (∀ id, id ∈ state.1 ↔ ∃ slice ∈ visited, resourcePoolIDFromSlice slice = id) ∧ state.2 = state.1.flatMap (poolPart full) := by
    refine foldlM_ok (fun visited (state : List ResourcePoolID × List ResourceSlice) => (∀ slice ∈ visited, slice ∈ full) →
      state.1.Nodup ∧ (∀ id, id ∈ state.1 ↔ ∃ slice ∈ visited, resourcePoolIDFromSlice slice = id) ∧
        state.2 = state.1.flatMap (poolPart full)) ?_ (fun _ => ⟨nodup_nil, by simp, rfl⟩) loop
    intro visited slice now next before step inside
    obtain ⟨nodup, pools, slices⟩ := before fun other listed => inside other (mem_append_left _ listed)
    unfold visitPool at step
    dsimp only at step
    split at step
    · rename_i seen
      obtain rfl := pure_eq_ok.mp step
      refine ⟨nodup, fun id => ?_, slices⟩
      rw [pools id]
      constructor
      · rintro ⟨other, listed, same⟩
        exact ⟨other, mem_append_left _ listed, same⟩
      · rintro ⟨other, listed, same⟩
        rcases mem_append.mp listed with old | new
        · exact ⟨other, old, same⟩
        · rw [mem_singleton.mp new] at same
          exact (pools id).mp (same ▸ seen)
    · rename_i fresh
      obtain ⟨poolSlices, answer, same⟩ := bind_eq_ok.mp step
      obtain rfl := pure_eq_ok.mp same
      have part := getResourceSlicesForPool_ok serves (inside slice (by simp)) answer
      refine ⟨?_, fun id => ?_, ?_⟩
      · exact nodup_append.mpr ⟨nodup, nodup_singleton _, fun id old id' new same =>
          fresh (mem_singleton.mp new ▸ same ▸ old)⟩
      · rw [mem_append, pools id, mem_singleton, eq_comm (a := id)]
        simp only [mem_append, mem_singleton, or_and_right, exists_or, exists_eq_left]
      · rw [flatMap_append, slices, part]
        simp
  exact general known

private theorem poolPart_flatMap {ids : List ResourcePoolID} (nodup : ids.Nodup) (id : ResourcePoolID) :
    poolPart (ids.flatMap (poolPart full)) id = if id ∈ ids then poolPart full id else [] := by
  induction ids with
  | nil => rfl
  | cons first rest ih =>
    obtain ⟨fresh, nodup⟩ := nodup_cons.mp nodup
    have split : poolPart ((first :: rest).flatMap (poolPart full)) id =
        poolPart (poolPart full first) id ++ poolPart (rest.flatMap (poolPart full)) id := by
      exact filter_append ..
    have own : poolPart (poolPart full first) id = if id = first then poolPart full id else [] := by
      unfold poolPart
      rw [filter_filter]
      split
      next same =>
        subst same
        exact filter_congr fun slice _ => Bool.and_self _
      next differ =>
        rw [filter_eq_nil_iff]
        intro slice _ both
        simp only [Bool.and_eq_true, decide_eq_true_eq] at both
        exact differ (both.1.symm.trans both.2)
    rw [split, own, ih nodup]
    by_cases same : id = first
    · subst same
      simp [fresh]
    · simp [same]

theorem indexResourceSliceByNode_of_nodeName (assigned : slice.nodeName = some nodeName) :
    indexResourceSliceByNode slice = nodeName ∨ indexResourceSliceByNode slice = indexValueResourceSliceGlobal := by
  unfold indexResourceSliceByNode
  split
  · rw [assigned]
    exact .inl rfl
  · exact .inr rfl

theorem covers_of_answer (serves : Serves reader full) {indexed : List ResourceSlice}
    (answer : getResourceSlicesForNode reader nodeName = .ok indexed) : Covers nodeName full indexed := by
  unfold getResourceSlicesForNode at answer
  split at answer
  · exact fun id => .inl (serves.all indexed answer id)
  · rename_i perNode found
    obtain ⟨globals, foundGlobals, rest⟩ := bind_eq_ok.mp answer
    obtain ⟨⟨ids, slices⟩, loop, same⟩ := bind_eq_ok.mp rest
    obtain rfl := pure_eq_ok.mp same
    have own := serves.byNode _ _ found
    have global := serves.byNode _ _ foundGlobals
    have known : ∀ slice ∈ perNode ++ globals, slice ∈ full :=
      forall_mem_append.mpr ⟨fun _ mine => (mem_filter.mp (own.subset mine)).1,
        fun _ other => (mem_filter.mp (global.subset other)).1⟩
    obtain ⟨nodup, pools, put⟩ := visitPools_ok serves known loop
    dsimp only at nodup pools put
    intro id
    rw [put, poolPart_flatMap nodup]
    by_cases listed : id ∈ ids
    · exact .inl (if_pos listed)
    · refine .inr ⟨if_neg listed, fun slice inside pool => ?_⟩
      have unlisted : indexResourceSliceByNode slice ≠ nodeName ∧ indexResourceSliceByNode slice ≠ indexValueResourceSliceGlobal := by
        constructor <;> intro isListed <;> refine listed ((pools id).mpr ⟨slice, mem_append.mpr ?_, pool⟩)
        · exact .inl (own.symm.subset (mem_filter.mpr ⟨inside, decide_eq_true isListed⟩))
        · exact .inr (global.symm.subset (mem_filter.mpr ⟨inside, decide_eq_true isListed⟩))
      refine ⟨?_, fun assigned => ?_⟩
      · cases valid : validateResourceSliceNode slice with
        | ok u => rfl
        | error e => exact absurd (by rw [indexResourceSliceByNode, valid]) unlisted.2
      · rcases indexResourceSliceByNode_of_nodeName assigned with isNode | isGlobal
        · exact unlisted.1 isNode
        · exact unlisted.2 isGlobal

end

section
variable {nodeName : String} {full indexed : List ResourceSlice} {slice : ResourceSlice}

section
variable (covers : Covers nodeName full indexed)

include covers

theorem Covers.subset : indexed ⊆ full := by
  intro slice inside
  have part := mem_poolPart.mpr ⟨inside, rfl⟩
  rcases covers (resourcePoolIDFromSlice slice) with same | ⟨none, -⟩
  · exact (mem_poolPart.mp (same ▸ part)).1
  · rw [none] at part
    cases part

theorem Covers.mem (inside : slice ∈ full)
    (relevant : validateResourceSliceNode slice = .ok () → slice.nodeName = some nodeName) : slice ∈ indexed := by
  have part := mem_poolPart.mpr ⟨inside, rfl⟩
  rcases covers (resourcePoolIDFromSlice slice) with same | ⟨-, irrelevant⟩
  · exact (mem_poolPart.mp (same.symm ▸ part)).1
  · obtain ⟨valid, other⟩ := irrelevant slice inside rfl
    exact absurd (relevant valid) other

theorem Covers.localSlices_eq (pool : String) :
    localSlices nodeName pool indexed = localSlices nodeName pool full := by
  have part : ∀ l, localSlices nodeName pool l = (poolPart l ⟨draDriverCpu, pool⟩).filter (isLocal nodeName) := by
    intro l
    rw [poolPart, filter_filter, localSlices]
    refine filter_congr fun slice _ => ?_
    by_cases own : isLocal nodeName slice = true
    · have driver : slice.driver = draDriverCpu := (of_decide_eq_true own).1
      simp [own, resourcePoolIDFromSlice, driver]
    · simp [own]
  rw [part, part]
  rcases covers ⟨draDriverCpu, pool⟩ with same | ⟨none, irrelevant⟩
  · rw [same]
  · rw [none, filter_nil]
    symm
    rw [filter_eq_nil_iff]
    intro slice listed own
    obtain ⟨inside, isPool⟩ := mem_poolPart.mp listed
    obtain ⟨valid, other⟩ := irrelevant slice inside isPool
    have named := (nodeName_of_valid valid).1
    rw [(of_decide_eq_true own).2] at named
    exact other named

theorem Covers.claims :
    (∀ slice ∈ indexed, ¬claimsOtherNodes slice) ↔ ∀ slice ∈ full, ¬claimsOtherNodes slice := by
  refine ⟨fun none slice inside claims => ?_, fun none slice inside => none slice (covers.subset inside)⟩
  refine none slice (covers.mem inside fun valid => ?_) claims
  have named := (nodeName_of_valid valid).1
  rw [claims.2.1] at named
  cases named

end

private theorem latestOf_eq_newest_poolPart (registry : Registry) (slices : List ResourceSlice) (id : ResourcePoolID) :
    latestOf registry slices id = newest resourcePoolIDFromSlice generationOf id (supported registry (poolPart slices id)) := by
  have swap : supported registry (poolPart slices id) = poolPart (supported registry slices) id := by
    unfold supported poolPart
    rw [filter_filter, filter_filter]
    exact filter_congr fun slice _ => Bool.and_comm _ _
  rw [swap, latestOf, poolPart, newest_filter fun slice own => decide_eq_true own]

section
variable (covers : Covers nodeName full indexed)

include covers

theorem Covers.latestOf_cases (registry : Registry) (id : ResourcePoolID) :
    latestOf registry indexed id = latestOf registry full id ∨
      latestOf registry indexed id = [] ∧ Irrelevant nodeName full id := by
  rcases covers id with same | ⟨none, irrelevant⟩
  · exact .inl (by rw [latestOf_eq_newest_poolPart, latestOf_eq_newest_poolPart, same])
  · exact .inr ⟨by rw [latestOf_eq_newest_poolPart, none]; rfl, irrelevant⟩

theorem Covers.listedDevices_eq (registry : Registry) :
    listedDevices registry nodeName indexed = listedDevices registry nodeName full := by
  have ids : poolIDs registry indexed =
      (poolIDs registry full).filter fun id => latestOf registry indexed id ≠ [] := by
    refine (pairwise_poolIDs registry indexed).eq_of_mem_iff ((pairwise_poolIDs registry full).filter _) fun id => ?_
    rw [mem_filter, mem_poolIDs, mem_poolIDs]
    refine ⟨fun some => ⟨?_, decide_eq_true some⟩, fun both => of_decide_eq_true both.2⟩
    rcases covers.latestOf_cases registry id with same | ⟨none, -⟩
    · exact same ▸ some
    · exact absurd none some
  have each : ∀ id ∈ poolIDs registry full,
      poolDevices registry nodeName (latestOf registry full id) id = if latestOf registry indexed id ≠ [] then
        poolDevices registry nodeName (latestOf registry indexed id) id else [] := by
    intro id listed
    rcases covers.latestOf_cases registry id with same | ⟨none, irrelevant⟩
    · rw [if_pos (same ▸ mem_poolIDs.mp listed), same]
    · have foreign : ¬((latestOf registry full id).any fun slice => slice.nodeName = some nodeName) = true := by
        rw [any_eq_true]
        rintro ⟨slice, inside, own⟩
        obtain ⟨member, isPool, -⟩ := mem_newest.mp inside
        exact (irrelevant slice (mem_filter.mp member).1 isPool).2 (of_decide_eq_true own)
      rw [if_neg (not_not.mpr none), poolDevices, if_neg foreign]
  unfold listedDevices
  rw [ids, flatMap_congr each]
  generalize poolIDs registry full = l
  induction l with
  | nil => rfl
  | cons id l ih =>
    by_cases some : latestOf registry indexed id ≠ []
    · rw [filter_cons, if_pos (decide_eq_true some), flatMap_cons, flatMap_cons, if_pos some, ih]
    · rw [filter_cons, if_neg (by simpa using some), flatMap_cons, if_neg some, nil_append, ih]

variable {compile : Compiler} {registry : Registry}

theorem Covers.buildable
    (buildable : Buildable compile registry nodeName full) : Buildable compile registry nodeName indexed := by
  refine ⟨fun id => ?_, covers.listedDevices_eq registry ▸ buildable.classified, covers.listedDevices_eq registry ▸ buildable.distinct⟩
  rcases covers.latestOf_cases registry id with same | ⟨none, -⟩
  · exact same ▸ buildable.uniform id
  · rw [none]
    exact ⟨nofun, nofun, nofun, nofun⟩

theorem Covers.left_out (buildable : Buildable compile registry nodeName indexed) {e : String}
    (failed : buildNodeInventory compile (some registry) (some nodeName) full = .error e) :
    ∃ snapshot ∈ snapshotsOf registry full, completeResourcePoolSnapshot nodeName snapshot = .error e ∧
      Irrelevant nodeName full snapshot.id := by
  -- The devices are the same, so it is the check of the pools that fails.
  have rejected : selectResourcePoolSnapshots registry nodeName full = .error e := by
    rcases bind_eq_error.mp failed with none | ⟨_, isRegistry, rest⟩
    · cases none
    rcases bind_eq_error.mp rest with none | ⟨_, isNode, rest⟩
    · cases none
    obtain rfl := Option.some.inj (present_eq_ok.mp isRegistry)
    obtain rfl := Option.some.inj (present_eq_ok.mp isNode)
    rcases bind_eq_error.mp rest with rejected | ⟨kept, selected, -⟩
    · exact rejected
    obtain ⟨uniform, -⟩ := selectResourcePoolSnapshots_ok_iff.mp selected
    have whole : Buildable compile registry nodeName full :=
      ⟨uniform, covers.listedDevices_eq registry ▸ buildable.classified, covers.listedDevices_eq registry ▸ buildable.distinct⟩
    rw [buildNodeInventory_ok_iff.mpr ⟨registry, nodeName, rfl, rfl, whole, rfl⟩] at failed
    cases failed
  have checked : (snapshotsOf registry full).mapM (completeResourcePoolSnapshot nodeName) = .error e := by
    rcases bind_eq_error.mp rejected with checked | ⟨_, -, done⟩
    · exact checked
    · cases done
  obtain ⟨snapshot, inside, wrong⟩ := exists_error_of_mapM checked
  refine ⟨snapshot, inside, wrong, ?_⟩
  rcases covers.latestOf_cases registry snapshot.id with same | ⟨-, irrelevant⟩
  · have uniform := buildable.uniform snapshot.id
    rw [same] at uniform
    rw [(completeResourcePoolSnapshot_ok_iff (mem_snapshotsOf.mp inside)).mpr ⟨uniform, rfl⟩] at wrong
    cases wrong
  · exact irrelevant

end

end

/-- The answer of the indexes gives the CPU topology of the full list, and its inventory if it has one.  Only
a pool without slices of the node and without unsupported node selection can make the full list fail alone. -/
theorem indexed_answer_agrees {reader : SliceReader} {full indexed : List ResourceSlice} {nodeName : String}
    (serves : Serves reader full) (answer : getResourceSlicesForNode reader nodeName = .ok indexed)
    (compile : Compiler) (registry : Option Registry) :
    Agree (newNodeInfoFromResourceSlices nodeName indexed) (newNodeInfoFromResourceSlices nodeName full) ∧
    (∀ inventory, buildNodeInventory compile registry (some nodeName) full = .ok inventory →
      buildNodeInventory compile registry (some nodeName) indexed = .ok inventory) ∧
    ∀ e inventory, buildNodeInventory compile registry (some nodeName) full = .error e →
      buildNodeInventory compile registry (some nodeName) indexed = .ok inventory →
      ∃ r, registry = some r ∧ ∃ snapshot ∈ snapshotsOf r full,
        completeResourcePoolSnapshot nodeName snapshot = .error e ∧ Irrelevant nodeName full snapshot.id := by
  have covers := covers_of_answer serves answer
  refine ⟨newNodeInfo_agree covers.localSlices_eq covers.claims, fun inventory built => ?_, fun e inventory failed built => ?_⟩
  · obtain ⟨r, n, rfl, isNode, buildable, rfl⟩ := buildNodeInventory_ok_iff.mp built
    obtain rfl := Option.some.inj isNode
    refine buildNodeInventory_ok_iff.mpr ⟨r, nodeName, rfl, rfl, covers.buildable buildable, ?_⟩
    rw [covers.listedDevices_eq]
  · obtain ⟨r, n, rfl, isNode, buildable, -⟩ := buildNodeInventory_ok_iff.mp built
    obtain rfl := Option.some.inj isNode
    exact ⟨r, rfl, covers.left_out buildable failed⟩

def indexes (full : List ResourceSlice) : SliceReader where
  all := .ok full
  byNode value := .ok (full.filter fun slice => indexResourceSliceByNode slice = value)
  byPool key := .ok (full.filter fun slice => indexResourceSliceByPool slice = key)

def twoPools : List ResourceSlice :=
  [gpuSlice "mine" ⟨"pool", 1, 1⟩ ["gpu-0"], { gpuSlice "a" ⟨"other", 1, 1⟩ ["gpu-1"] with nodeName := some "peer" },
    { gpuSlice "b" ⟨"other", 1, 2⟩ ["gpu-2"] with nodeName := some "peer" }]

/-- The pool of the other node makes the full list fail, and the answer of the indexes leaves it out. -/
theorem indexed_answer_agrees_twoPools :
    ∃ indexed e, getResourceSlicesForNode (indexes twoPools) "node" = .ok indexed ∧
      buildNodeInventory (fun _ => .ok fun _ _ _ _ => .ok true) (some gpus) (some "node") twoPools = .error e ∧
      ∃ snapshot ∈ snapshotsOf gpus twoPools, completeResourcePoolSnapshot "node" snapshot = .error e ∧
        Irrelevant "node" twoPools snapshot.id := by
  have serves : Serves (indexes twoPools) twoPools := by
    refine ⟨fun slice inside => ?_, fun slices found id => ?_, fun value slices found => ?_, fun key slices found => ?_⟩
    · revert slice
      decide +kernel
    · rw [Except.ok.inj found]
    · rw [Except.ok.inj found]
    · exact (Except.ok.inj found).symm
  obtain ⟨indexed, answer⟩ := exists_ok (x := getResourceSlicesForNode (indexes twoPools) "node") (by decide +kernel)
  have agrees := (indexed_answer_agrees serves answer (fun _ => .ok fun _ _ _ _ => .ok true) (some gpus)).2.2
  cases failed : buildNodeInventory (fun _ => .ok fun _ _ _ _ => .ok true) (some gpus) (some "node") twoPools with
  | ok inventory =>
    have rejected : (buildNodeInventory (fun _ => .ok fun _ _ _ _ => .ok true) (some gpus) (some "node") twoPools).isOk = false := by
      decide +kernel
    rw [failed] at rejected
    cases rejected
  | error e =>
    have both : ((getResourceSlicesForNode (indexes twoPools) "node") >>= fun indexed =>
        buildNodeInventory (fun _ => .ok fun _ _ _ _ => .ok true) (some gpus) (some "node") indexed).isOk = true := by
      decide +kernel
    obtain ⟨inventory, built⟩ := exists_ok both
    obtain ⟨indexed', answer', built⟩ := bind_eq_ok.mp built
    obtain rfl := Except.ok.inj (answer.symm.trans answer')
    obtain ⟨r, isRegistry, found⟩ := agrees e inventory failed built
    obtain rfl := Option.some.inj isRegistry
    exact ⟨indexed, e, answer, rfl, found⟩

end SlurmBridge.Node.SliceIndex
