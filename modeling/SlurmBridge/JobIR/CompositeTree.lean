/- source: internal/utils/slurmjobir/workload_api.go, composite_podgroup.go, podgroup.go
   digest: The composites of a namespace divide its PodGroups among allocations: the search for a
     root and the collection of its leaves agree on every graph of parents. -/

import Mathlib.Data.Finset.Dedup
import SlurmBridge.Foundation.Ascent
import SlurmBridge.JobIR.Translate
import SlurmBridge.Kube.State

set_option autoImplicit false

namespace SlurmBridge.JobIR.CompositeTree

open Foundation.Interaction Foundation.Checked Foundation.Ascent Kube.Objects Kube.Reads
open Kube.State JobIR.IR JobIR.Translate List Option Option

section
variable {α β σ : Type} (answer : (q : Query) → q.Reply)

/-- The result of a read whose queries are answered by a fixed function. -/
def readIn (p : Read α) : Except Err α := eval answer p.run

@[simp] theorem readIn_pure (a : α) : readIn answer (pure a) = .ok a := rfl

@[simp] theorem readIn_throw (e : Err) : readIn answer (throw e : Read α) = .error e := rfl

@[simp] theorem readIn_bind (p : Read α) (f : α → Read β) :
    readIn answer (p >>= f) = readIn answer p >>= fun a => readIn answer (f a) := by
  unfold readIn
  rw [ExceptT.run_bind, eval_bind]
  cases eval answer p.run <;> rfl

@[simp] theorem readIn_fetch (p : ReadProg (Except KubeError α)) :
    readIn answer (fetch p) = (eval answer p).mapError .kube := by
  unfold readIn fetch
  rw [ExceptT.run_mk, eval_bind, eval_pure]

@[simp] theorem readIn_lift (x : Except Err α) : readIn answer (liftM x) = x := by
  cases x <;> rfl

@[simp] theorem readIn_foldlM (f : σ → α → Read σ) (l : List α) (s : σ) :
    readIn answer (l.foldlM f s) = l.foldlM (fun s a => readIn answer (f s a)) s := by
  induction l generalizing s with
  | nil => rfl
  | cons a l ih =>
    rw [foldlM_cons, foldlM_cons, readIn_bind]
    cases readIn answer (f s a) with
    | error e => rfl
    | ok s' => exact ih s'

variable {answer} {p : Read α} {f : α → Read β} {a : α} {b : β}

theorem readIn_bind_eq_ok :
    readIn answer (p >>= f) = .ok b ↔ ∃ a, readIn answer p = .ok a ∧ readIn answer (f a) = .ok b := by
  rw [readIn_bind, bind_eq_ok]

theorem readIn_bind_of_ok (read : readIn answer p = .ok a) : readIn answer (p >>= f) = readIn answer (f a) := by
  rw [readIn_bind, read]
  rfl

theorem readIn_fetch_ok {p : ReadProg (Except KubeError α)} :
    readIn answer (fetch p) = .ok a ↔ eval answer p = .ok a := by
  rw [readIn_fetch, mapError_eq_ok]

end

def podsOf (cluster : Cluster) (ns : String) (includeTerminalPods : Bool) (group : String) : List Pod :=
  (cluster.pods.filter fun pod => pod.ns.text == ns && pod.schedulingGroup == some (some group)).filter
    fun pod => includeTerminalPods || !isPodTerminal pod

section
variable {cluster : Cluster} {ns group : String} {includeTerminalPods : Bool}

theorem podsForPodGroup_eq : readIn cluster.answer (podsForPodGroup includeTerminalPods ns group) =
    .ok (podsOf cluster ns includeTerminalPods group) := by
  cases includeTerminalPods with
  | false => rfl
  | true => exact congrArg Except.ok (filter_eq_self.mpr fun _ _ => rfl).symm

theorem mem_podsOf {pod : Pod} : pod ∈ podsOf cluster ns includeTerminalPods group ↔
    pod ∈ cluster.pods ∧ pod.ns.text = ns ∧ pod.schedulingGroup = some (some group) ∧
      (includeTerminalPods = true ∨ isPodTerminal pod = false) := by
  unfold podsOf
  simp only [mem_filter, Bool.and_eq_true, beq_iff_eq, Bool.or_eq_true, Bool.not_eq_true', and_assoc]

def leafComponent (root : PartialObjectMetadata) (pods : List Pod) : SlurmJobComponent :=
  ⟨root, { jobName := some root.name, minNodes := some pods.length, maxNodes := some pods.length
           tasksPerNode := some 1 }, pods⟩

theorem fromPodGroup_eq (root : PartialObjectMetadata) (populated : podsOf cluster ns includeTerminalPods group ≠ []) :
    readIn cluster.answer (fromPodGroup includeTerminalPods ns group root) =
      .ok [leafComponent root (podsOf cluster ns includeTerminalPods group)] := by
  unfold fromPodGroup
  rw [readIn_bind_of_ok podsForPodGroup_eq, if_neg populated]
  rfl

end

/-- The groups of a namespace as a reader sees them. -/
structure Hierarchy (cluster : Cluster) (ns : String) where
  groups : List CompositePodGroup
  leaves : List PodGroup
  listsGroups : cluster.answer (.compositePodGroups ns) = .ok groups
  getsGroup : ∀ name, cluster.answer (.compositePodGroup ns name) =
    match groups.find? fun g => g.objectMeta.name == name with
    | some group => .ok group
    | none => .error .notFound
  listsLeaves : cluster.answer (.podGroups ns) = .ok leaves
  groupNames : (groups.map fun g => g.objectMeta.name).Nodup
  named : ∀ g ∈ groups, g.objectMeta.name ≠ ""
  leafNames : (leaves.map fun l => l.objectMeta.name).Nodup
  leavesHere : ∀ l ∈ leaves, l.objectMeta.ns = ns

def parentName (group : CompositePodGroup) : String := group.parentCompositePodGroupName.getD ""

namespace Hierarchy

variable {cluster : Cluster} {ns : String} (h : Hierarchy cluster ns)

def find (name : String) : Option CompositePodGroup := h.groups.find? fun g => g.objectMeta.name == name

def inner (name : String) : Option CompositePodGroup := (h.find name).filter fun g => !g.schedulingPolicy.basic

/-- The composite that shares an allocation with its child. -/
def joined (name : String) : Option String :=
  (h.inner name).bind fun g => (h.inner (parentName g)).map fun _ => parentName g

variable {h} {name root : String} {group : CompositePodGroup}

theorem find_mem (found : h.find name = some group) : group ∈ h.groups ∧ group.objectMeta.name = name := by
  refine ⟨mem_of_find?_eq_some found, ?_⟩
  have test := find?_some found
  exact beq_iff_eq.mp test

theorem inner_eq_some : h.inner name = some group ↔ h.find name = some group ∧ group.schedulingPolicy.basic = false := by
  unfold inner
  rw [filter_eq_some_iff, Bool.not_eq_true']

theorem joined_eq_some {parent : String} : h.joined name = some parent ↔
    ∃ g p, h.inner name = some g ∧ parentName g = parent ∧ h.inner parent = some p := by
  unfold joined
  rw [bind_eq_some_iff]
  constructor
  · rintro ⟨g, found, next⟩
    obtain ⟨p, above, rfl⟩ := map_eq_some_iff.mp next
    exact ⟨g, p, found, rfl, above⟩
  · rintro ⟨g, p, found, rfl, above⟩
    exact ⟨g, found, map_eq_some_iff.mpr ⟨p, above, rfl⟩⟩

theorem inner_empty : h.inner "" = none := by
  rw [eq_none_iff_forall_not_mem]
  intro g found
  obtain ⟨inside, name⟩ := find_mem (inner_eq_some.mp found).1
  exact h.named g inside name

theorem getCompositePodGroup_ok : readIn cluster.answer (getCompositePodGroup ns name) = .ok group ↔
    h.find name = some group ∧ validateCompositePodGroup group = .ok () := by
  have read : readIn cluster.answer (fetch (ask (.compositePodGroup ns name))) =
      present (.kube .notFound) (h.find name) := by
    change (cluster.answer (.compositePodGroup ns name)).mapError Err.kube = _
    rw [h.getsGroup]
    unfold find
    cases h.groups.find? fun g => g.objectMeta.name == name <;> rfl
  unfold getCompositePodGroup
  rw [readIn_bind, read, bind_eq_ok]
  simp only [present_eq_ok, readIn_bind, readIn_lift, readIn_pure, bind_eq_ok]
  constructor
  · rintro ⟨found, here, _, valid, same⟩
    obtain rfl := Except.ok.inj same
    exact ⟨here, valid⟩
  · rintro ⟨here, valid⟩
    exact ⟨group, here, (), valid, rfl⟩

theorem inner_of_ascend {n : Nat} (walk : ascend h.joined n name = some root) (target : (h.inner root).isSome) :
    (h.inner name).isSome := by
  cases n with
  | zero => exact some.inj walk ▸ target
  | succ n =>
    obtain ⟨parent, step, -⟩ := bind_eq_some_iff.mp walk
    obtain ⟨g, -, here, -⟩ := joined_eq_some.mp step
    rw [here]
    rfl

theorem joined_eq_none (here : h.inner name = some group) (above : h.inner (parentName group) = none) :
    h.joined name = none := by
  unfold joined
  rw [here, bind_some, above]
  rfl

theorem joined_eq_parent (here : h.inner name = some group) (above : (h.inner (parentName group)).isSome) :
    h.joined name = some (parentName group) := by
  obtain ⟨p, found⟩ := isSome_iff_exists.mp above
  exact joined_eq_some.mpr ⟨group, p, here, rfl, found⟩

variable {budget : Nat}

/-- What the search for a root finds: nothing above a basic boundary, or the end of the walk along composites
that share an allocation. -/
theorem compositePodGroupRootName_ok {below : String}
    (found : readIn cluster.answer (compositePodGroupRootName ns budget below name) = .ok root) :
    (root = below ∧ h.inner name = none) ∨
      ∃ n g, ascend h.joined n name = some root ∧ h.joined root = none ∧ h.inner root = some g ∧
        validateCompositePodGroup g = .ok () := by
  induction budget generalizing below name with
  | zero => cases found
  | succ budget ih =>
    unfold compositePodGroupRootName at found
    obtain ⟨group, read, found⟩ := readIn_bind_eq_ok.mp found
    obtain ⟨here, valid⟩ := (getCompositePodGroup_ok (h := h)).mp read
    split at found
    · rename_i basic
      refine .inl ⟨(Except.ok.inj found).symm, ?_⟩
      unfold inner
      rw [here, filter_some, basic]
      rfl
    · rename_i gang
      have self : h.inner name = some group := inner_eq_some.mpr ⟨here, Bool.eq_false_iff.mpr gang⟩
      refine .inr ?_
      split at found
      · rename_i orphan
        obtain rfl := Except.ok.inj found
        exact ⟨0, group, rfl, joined_eq_none self (by rw [parentName, orphan, inner_empty]), self, valid⟩
      · rcases ih found with ⟨rfl, boundary⟩ | ⟨n, g, walk, top, target, accepted⟩
        · exact ⟨0, group, rfl, joined_eq_none self boundary, self, valid⟩
        · refine ⟨n + 1, g, ?_, top, target, accepted⟩
          change (h.joined name).bind _ = _
          rw [joined_eq_parent self (inner_of_ascend walk (by rw [target]; rfl))]
          exact walk

theorem traverseParentChain_none (outside : h.inner name = none) (budget : Nat) :
    traverseParentChain h.groups root budget name = false := by
  cases budget with
  | zero => rfl
  | succ budget =>
    unfold traverseParentChain
    split
    · rfl
    · rename_i group found
      cases basic : group.schedulingPolicy.basic with
      | true => rfl
      | false =>
        rw [inner_eq_some.mpr ⟨found, basic⟩] at outside
        cases outside

theorem traverseParentChain_some (here : h.inner name = some group) (budget : Nat) :
    traverseParentChain h.groups root (budget + 1) name =
      if parentName group = root then true
      else if parentName group = "" then false
      else traverseParentChain h.groups root budget (parentName group) := by
  obtain ⟨found, gang⟩ := inner_eq_some.mp here
  unfold find at found
  rw [traverseParentChain, found]
  dsimp only
  rw [gang]
  rfl

theorem traverseParentChain_iff (target : (h.inner root).isSome) :
    traverseParentChain h.groups root budget name = true ↔
      ∃ n, n < budget ∧ ascend h.joined (n + 1) name = some root := by
  induction budget generalizing name with
  | zero => exact ⟨nofun, fun ⟨_, bound, _⟩ => absurd bound (Nat.not_lt_zero _)⟩
  | succ budget ih =>
    cases here : h.inner name with
    | none =>
      rw [traverseParentChain_none here]
      refine ⟨nofun, ?_⟩
      rintro ⟨n, -, walk⟩
      have inside := inner_of_ascend walk target
      rw [here] at inside
      cases inside
    | some group =>
      rw [traverseParentChain_some here]
      by_cases last : parentName group = root
      · rw [if_pos last]
        refine ⟨fun _ => ⟨0, Nat.succ_pos _, ?_⟩, fun _ => rfl⟩
        change (h.joined name).bind _ = _
        rw [joined_eq_parent here (last ▸ target), last]
        rfl
      · rw [if_neg last]
        cases above : h.inner (parentName group) with
        | none =>
          -- No composite is above a basic boundary, a missing parent or an empty name.
          have ends : ¬∃ n, n < budget + 1 ∧ ascend h.joined (n + 1) name = some root := by
            rintro ⟨n, -, walk⟩
            change (h.joined name).bind _ = _ at walk
            rw [joined_eq_none here above] at walk
            cases walk
          rw [traverseParentChain_none above, ite_self]
          exact ⟨nofun, fun walks => absurd walks ends⟩
        | some parent =>
          have nonempty : parentName group ≠ "" := by
            intro orphan
            rw [orphan, inner_empty] at above
            cases above
          have step : h.joined name = some (parentName group) := joined_eq_parent here (by rw [above]; rfl)
          have walks : ∀ n, ascend h.joined (n + 1) name = ascend h.joined n (parentName group) := by
            intro n
            change (h.joined name).bind _ = _
            rw [step]
            rfl
          rw [if_neg nonempty, ih]
          constructor
          · rintro ⟨n, bound, walk⟩
            exact ⟨n + 1, by omega, (walks _).trans walk⟩
          · rintro ⟨n, bound, walk⟩
            rw [walks] at walk
            cases n with
            | zero => exact absurd (some.inj walk) last
            | succ n => exact ⟨n, by omega, walk⟩

theorem belongs_iff (target : (h.inner root).isSome) :
    (name = root ∨ traverseParentChain h.groups root h.groups.length name = true) ↔
      ∃ n, ascend h.joined n name = some root := by
  rw [traverseParentChain_iff target]
  constructor
  · rintro (rfl | ⟨n, -, walk⟩)
    · exact ⟨0, rfl⟩
    · exact ⟨_, walk⟩
  · rintro ⟨n, walk⟩
    -- The composites on the way are different ones of the namespace.
    have member : ∀ {name}, (h.inner name).isSome → name ∈ (h.groups.map fun g => g.objectMeta.name).toFinset := by
      intro name some
      obtain ⟨group, here⟩ := isSome_iff_exists.mp some
      obtain ⟨inside, rfl⟩ := find_mem (inner_eq_some.mp here).1
      exact mem_toFinset.mpr (mem_map_of_mem inside)
    obtain ⟨m, bound, short⟩ := ascend_bounded (fun a b step => by
      obtain ⟨g, -, here, -⟩ := joined_eq_some.mp step
      exact member (by rw [here]; rfl)) (member target) walk
    rw [toFinset_card_of_nodup h.groupNames, length_map] at bound
    cases m with
    | zero => exact .inl (some.inj short)
    | succ m => exact .inr ⟨m, by omega, short⟩

def component (h : Hierarchy cluster ns) (api : WorkloadAPI) (includeTerminalPods : Bool) (root : String)
    (leaf : PodGroup) : Option SlurmJobComponent :=
  match leaf.parentCompositePodGroupName with
  | none => none
  | some parent =>
    if (parent = root ∨ traverseParentChain h.groups root h.groups.length parent = true) ∧
        podsOf cluster ns includeTerminalPods leaf.objectMeta.name ≠ [] then
      some (leafComponent { leaf.objectMeta with typeMeta := api.getD leaf.objectMeta.typeMeta }
        (podsOf cluster ns includeTerminalPods leaf.objectMeta.name))
    else
      none

variable {api : WorkloadAPI} {includeTerminalPods : Bool}

theorem compositeLeaf_eq {root : PartialObjectMetadata} {components : List SlurmJobComponent}
    {leaf : PodGroup} (listed : leaf ∈ h.leaves) :
    readIn cluster.answer (compositeLeaf api includeTerminalPods root h.groups components leaf) =
      .ok (components ++ (h.component api includeTerminalPods root.name leaf).toList) := by
  unfold compositeLeaf component
  cases leaf.parentCompositePodGroupName with
  | none => simp
  | some parent =>
    dsimp only
    by_cases apart : parent ≠ root.name ∧ traverseParentChain h.groups root.name h.groups.length parent = false
    · rw [if_pos apart, if_neg]
      · simp
      · rintro ⟨own | above, -⟩
        · exact apart.1 own
        · rw [apart.2] at above
          cases above
    · have own : parent = root.name ∨ traverseParentChain h.groups root.name h.groups.length parent = true := by
        rcases Decidable.not_and_iff_or_not.mp apart with equal | above
        · exact .inl (not_not.mp equal)
        · exact .inr (by simpa using above)
      rw [if_neg apart, h.leavesHere leaf listed, readIn_bind_of_ok podsForPodGroup_eq]
      cases pods : podsOf cluster ns includeTerminalPods leaf.objectMeta.name with
      | nil => simp
      | cons first rest =>
        obtain ⟨-, here, grouped, -⟩ := mem_podsOf.mp (show first ∈ podsOf cluster ns includeTerminalPods _ from
          pods ▸ mem_cons_self)
        have populated : podsOf cluster ns includeTerminalPods leaf.objectMeta.name ≠ [] := by simp [pods]
        rw [readIn_bind, grouped]
        change (readIn cluster.answer (fromPodGroup includeTerminalPods first.ns.text leaf.objectMeta.name _) >>= _) = _
        rw [here, fromPodGroup_eq _ populated, if_pos ⟨own, by simp⟩, pods]
        rfl

theorem readIn_lists {α : Type} (h : Hierarchy cluster ns) (f : List CompositePodGroup → List PodGroup → Read α) :
    readIn cluster.answer (fetch (ask (.compositePodGroups ns)) >>= fun groups =>
      fetch (ask (.podGroups ns)) >>= f groups) = readIn cluster.answer (f h.groups h.leaves) := by
  have groups : readIn cluster.answer (fetch (ask (.compositePodGroups ns))) = .ok h.groups :=
    readIn_fetch_ok.mpr h.listsGroups
  have leaves : readIn cluster.answer (fetch (ask (.podGroups ns))) = .ok h.leaves := readIn_fetch_ok.mpr h.listsLeaves
  rw [readIn_bind_of_ok groups, readIn_bind_of_ok leaves]

theorem fromCompositePodGroup_eq {root : PartialObjectMetadata} (here : root.ns = ns)
    (found : h.find root.name = some group) (valid : validateCompositePodGroup group = .ok ()) :
    readIn cluster.answer (fromCompositePodGroup api includeTerminalPods root) =
      .ok (h.leaves.filterMap (h.component api includeTerminalPods root.name)) := by
  have folded : ∃ components, h.leaves.foldlM (fun components leaf => readIn cluster.answer
        (compositeLeaf api includeTerminalPods root h.groups components leaf)) [] = .ok components ∧
      components = h.leaves.filterMap (h.component api includeTerminalPods root.name) := by
    refine foldlM_succeeds (fun visited components =>
      components = visited.filterMap (h.component api includeTerminalPods root.name)) ?_ rfl
    rintro visited leaf rest components split rfl
    refine ⟨_, compositeLeaf_eq (by rw [split]; simp), ?_⟩
    cases own : h.component api includeTerminalPods root.name leaf <;> simp [own]
  obtain ⟨components, folded, rfl⟩ := folded
  unfold fromCompositePodGroup
  rw [here, readIn_bind_of_ok ((getCompositePodGroup_ok (h := h)).mpr ⟨found, valid⟩),
    readIn_lists h, readIn_foldlM, folded]

section
variable {api : WorkloadAPI} {includeTerminalPods : Bool} {leaf leaf' : PodGroup} {c : SlurmJobComponent}

theorem component_eq_some : h.component api includeTerminalPods root leaf = some c ↔
    ∃ parent, leaf.parentCompositePodGroupName = some parent ∧
      (parent = root ∨ traverseParentChain h.groups root h.groups.length parent = true) ∧
      podsOf cluster ns includeTerminalPods leaf.objectMeta.name ≠ [] ∧
      leafComponent { leaf.objectMeta with typeMeta := api.getD leaf.objectMeta.typeMeta }
        (podsOf cluster ns includeTerminalPods leaf.objectMeta.name) = c := by
  unfold component
  cases leaf.parentCompositePodGroupName with
  | none => exact ⟨nofun, fun ⟨_, missing, _⟩ => nomatch missing⟩
  | some parent =>
    dsimp only
    constructor
    · intro contributed
      split at contributed
      · rename_i own
        exact ⟨parent, rfl, own.1, own.2, some.inj contributed⟩
      · cases contributed
    · rintro ⟨_, same, own, populated, rfl⟩
      obtain rfl := some.inj same
      rw [if_pos ⟨own, populated⟩]

theorem component_data (contributed : h.component api includeTerminalPods root leaf = some c) :
    c.objectMeta.name = leaf.objectMeta.name ∧ c.pods = podsOf cluster ns includeTerminalPods leaf.objectMeta.name := by
  obtain ⟨-, -, -, -, rfl⟩ := component_eq_some.mp contributed
  exact ⟨rfl, rfl⟩

theorem leaf_eq_of_name (listed : leaf ∈ h.leaves) (listed' : leaf' ∈ h.leaves)
    (same : leaf.objectMeta.name = leaf'.objectMeta.name) : leaf = leaf' :=
  inj_on_of_nodup_map h.leafNames listed listed' same

theorem component_of_pod (listed : leaf ∈ h.leaves) {pod : Pod}
    (inside : pod ∈ podsOf cluster ns includeTerminalPods leaf.objectMeta.name)
    (among : c ∈ h.leaves.filterMap (h.component api includeTerminalPods root)) (member : pod ∈ c.pods) :
    h.component api includeTerminalPods root leaf = some c := by
  obtain ⟨other, listed', contributed⟩ := mem_filterMap.mp among
  rw [(component_data contributed).2] at member
  obtain ⟨-, -, grouped, -⟩ := mem_podsOf.mp inside
  obtain ⟨-, -, grouped', -⟩ := mem_podsOf.mp member
  rw [grouped] at grouped'
  obtain rfl := leaf_eq_of_name listed listed' (some.inj (some.inj grouped'))
  exact contributed

theorem contributes_iff (api : WorkloadAPI) {parent : String} (below : leaf.parentCompositePodGroupName = some parent)
    (populated : podsOf cluster ns includeTerminalPods leaf.objectMeta.name ≠ []) :
    (∃ c, h.component api includeTerminalPods root leaf = some c) ↔
      (parent = root ∨ traverseParentChain h.groups root h.groups.length parent = true) := by
  constructor
  · rintro ⟨c, contributed⟩
    obtain ⟨_, above, own, -⟩ := component_eq_some.mp contributed
    rw [below] at above
    exact some.inj above ▸ own
  · intro own
    exact ⟨_, component_eq_some.mpr ⟨parent, below, own, populated, rfl⟩⟩

theorem components_nodup (h : Hierarchy cluster ns) (api : WorkloadAPI) (includeTerminalPods : Bool) (root : String) :
    ((h.leaves.filterMap (h.component api includeTerminalPods root)).flatMap SlurmJobComponent.pods).Nodup := by
  refine nodup_flatMap.mpr ⟨?_, ?_⟩
  · intro c inside
    obtain ⟨leaf, -, contributed⟩ := mem_filterMap.mp inside
    rw [(component_data contributed).2]
    exact ((List.Nodup.of_map _ cluster.distinct).filter _).filter _
  · refine pairwise_filterMap.mpr ((pairwise_map.mp h.leafNames).imp ?_)
    intro leaf leaf' differ c contributed c' contributed' pod inside inside'
    rw [(component_data contributed).2] at inside
    rw [(component_data contributed').2] at inside'
    obtain ⟨-, -, grouped, -⟩ := mem_podsOf.mp inside
    obtain ⟨-, -, grouped', -⟩ := mem_podsOf.mp inside'
    rw [grouped] at grouped'
    exact differ (some.inj (some.inj grouped'))

end

end Hierarchy

section

open Hierarchy

variable {cluster : Cluster} {ns : String}

/-- Each leaf, and each Pod of a leaf, belongs to the allocation of its own root and to no other. -/
theorem composite_allocations_partition (h : Hierarchy cluster ns) (api : WorkloadAPI) (includeTerminalPods : Bool)
    (root : PartialObjectMetadata) {leaf : PodGroup} {other parent own : String}
    (listed : leaf ∈ h.leaves) (below : leaf.parentCompositePodGroupName = some parent)
    (running : podsOf cluster ns false leaf.objectMeta.name ≠ [])
    (rooted : readIn cluster.answer
      (compositePodGroupRootName ns maxCompositePodGroupTreeDepth "" parent) = .ok own) (compositeOwn : own ≠ "")
    (rootedOther : readIn cluster.answer
      (compositePodGroupRootName ns maxCompositePodGroupTreeDepth "" other) = .ok root.name)
    (composite : root.name ≠ "") (here : root.ns = ns) :
    ∃ components, readIn cluster.answer (fromCompositePodGroup api includeTerminalPods root) = .ok components ∧
      ((∃ c ∈ components, c.objectMeta.name = leaf.objectMeta.name) ↔ own = root.name) ∧
      ∀ pod ∈ podsOf cluster ns includeTerminalPods leaf.objectMeta.name,
        (components.flatMap SlurmJobComponent.pods).count pod = if own = root.name then 1 else 0 := by
  obtain ⟨m, -, walkOwn, topOwn, -⟩ :=
    (compositePodGroupRootName_ok (h := h) rooted).resolve_left fun outside => compositeOwn outside.1
  obtain ⟨n, group, walk, top, inner, valid⟩ :=
    (compositePodGroupRootName_ok (h := h) rootedOther).resolve_left fun outside => composite outside.1
  -- The collection reaches the root from the leaf exactly if the search ends there.
  have belongs : (parent = root.name ∨
      traverseParentChain h.groups root.name h.groups.length parent = true) ↔ own = root.name := by
    rw [belongs_iff (by rw [inner]; rfl)]
    constructor
    · rintro ⟨m, reaches⟩
      exact top_unique walkOwn reaches topOwn top
    · rintro rfl
      exact ⟨m, walkOwn⟩
  have populated : podsOf cluster ns includeTerminalPods leaf.objectMeta.name ≠ [] := by
    obtain ⟨pod, inside⟩ := exists_mem_of_ne_nil _ running
    obtain ⟨stored, there, grouped, running⟩ := mem_podsOf.mp inside
    exact ne_nil_of_mem (mem_podsOf.mpr ⟨stored, there, grouped, .inr (running.resolve_left nofun)⟩)
  refine ⟨_, fromCompositePodGroup_eq here (inner_eq_some.mp inner).1 valid, ?_, ?_⟩
  · rw [← belongs, ← contributes_iff api below populated]
    constructor
    · rintro ⟨c, among, same⟩
      obtain ⟨l, stored, contributed⟩ := mem_filterMap.mp among
      obtain rfl := leaf_eq_of_name stored listed ((component_data contributed).1.symm.trans same)
      exact ⟨c, contributed⟩
    · rintro ⟨c, contributed⟩
      exact ⟨c, mem_filterMap.mpr ⟨leaf, listed, contributed⟩, (component_data contributed).1⟩
  · intro pod inside
    rw [(components_nodup h api includeTerminalPods root.name).count]
    refine if_congr ?_ rfl rfl
    rw [← belongs, ← contributes_iff api below populated, mem_flatMap]
    constructor
    · rintro ⟨c, among, member⟩
      exact ⟨c, component_of_pod listed inside among member⟩
    · rintro ⟨c, contributed⟩
      exact ⟨c, mem_filterMap.mpr ⟨leaf, listed, contributed⟩, (component_data contributed).2 ▸ inside⟩

/- A leaf below two composites, beside a cycle of two others. -/

private def composite (name : String) (parent : Option String) (basic : Bool) : CompositePodGroup :=
  ⟨⟨compositePodGroupV1Alpha3, "ns", name, "", []⟩, parent, ⟨basic, none⟩, "", 0⟩

private def nestedGroups : List CompositePodGroup :=
  [composite "wall" none true, composite "top" (some "wall") false, composite "middle" (some "top") false,
    composite "x" (some "y") false, composite "y" (some "x") false]

private def nestedLeaf : PodGroup := ⟨⟨podGroupV1Beta1, "ns", "leaf", "", []⟩, some "middle", none, 0, 0⟩

private def nestedPod : Pod :=
  { Pod.waiting (.of "ns" (.refl true)) (.of "a" (.refl true)) (.of "1" (.refl true))
      "slurm-bridge-scheduler" with
    schedulingGroup := some (some "leaf") }

private def nestedCluster : Cluster where
  pods := [nestedPod]
  distinct := nodup_singleton _
  others
    | .compositePodGroups _ => Except.ok nestedGroups
    | .compositePodGroup _ name => match nestedGroups.find? fun g => g.objectMeta.name == name with
      | some group => Except.ok group
      | none => Except.error .notFound
    | .podGroups _ => Except.ok [nestedLeaf]
    | q => q.refuse

private def nested : Hierarchy nestedCluster "ns" where
  groups := nestedGroups
  leaves := [nestedLeaf]
  listsGroups := rfl
  getsGroup := fun _ => rfl
  listsLeaves := rfl
  groupNames := by decide
  named := by decide
  leafNames := by decide
  leavesHere := by decide

theorem composite_allocations_partition_nested :
    ∃ components, readIn nestedCluster.answer (fromCompositePodGroup (some podGroupV1Beta1) false
        ⟨compositePodGroupV1Alpha3, "ns", "top", "", []⟩) = .ok components ∧
      (components.flatMap SlurmJobComponent.pods).count nestedPod = 1 := by
  have search : readIn nestedCluster.answer
      (compositePodGroupRootName "ns" maxCompositePodGroupTreeDepth "" "middle") = .ok "top" := by decide +kernel
  obtain ⟨components, translated, -, pods⟩ := composite_allocations_partition nested (some podGroupV1Beta1) false
    ⟨compositePodGroupV1Alpha3, "ns", "top", "", []⟩ mem_cons_self rfl (by decide +kernel) search (by decide)
    search (by decide) rfl
  exact ⟨components, translated, pods nestedPod (by decide +kernel)⟩

end

end SlurmBridge.JobIR.CompositeTree
