/- source: internal/utils/slurmjobir/composite_podgroup.go, registration.go
   digest: The quorum test before the submission of a composite allocation agrees with the one that
     cancels it: what registration would submit is not judged invalid by the scheduler. -/

import SlurmBridge.JobIR.CompositeTree
import SlurmBridge.Scheduler.Plugin

set_option autoImplicit false

namespace SlurmBridge.Scheduler.CompositeQuorum

open Foundation.Interaction Foundation.Checked Foundation.Ascent Kube.Objects Kube.Reads
open Kube.State JobIR.IR JobIR.Translate JobIR.CompositeTree Slurm.Job Scheduler.Plugin
open Foundation.Text (Segment)
open List

/-- Whether enough children of a composite are there.  The first argument counts the levels that may still be
entered. -/
def liveReady (ns : String) (groups : List CompositePodGroup) (podGroups : List PodGroup) : Nat → String → Read Bool
  | 0, name =>
    match groups.find? fun g => g.objectMeta.name == name with
    | none => throw (.text ("composite pod group " ++ ns ++ "/" ++ name ++ " missing from API"))
    | some _ => throw (.text ("cycle in composite pod group hierarchy at " ++ ns ++ "/" ++ name))
  | budget + 1, name =>
    match groups.find? fun g => g.objectMeta.name == name with
    | none => throw (.text ("composite pod group " ++ ns ++ "/" ++ name ++ " missing from API"))
    | some group => do
        let count ← groups.foldlM (fun (count : Int) child => do
          if child.parentCompositePodGroupName.getD "" ≠ name then
            return count
          let childReady ← liveReady ns groups podGroups budget child.objectMeta.name
          return if childReady then count + 1 else count) 0
        let count ← podGroups.foldlM (fun (count : Int) leaf => do
          if leaf.parentCompositePodGroupName ≠ some name then
            return count
          let pods ← podsForPodGroup false ns leaf.objectMeta.name
          return if leaf.gangMinCount.getD 1 ≤ (pods.length : Int) then count + 1 else count) count
        return decide (group.schedulingPolicy.gangMinGroupCount.getD 1 ≤ count)

def liveCPGTreeReady (ns rootName : String) : Read Bool := do
  let groups ← fetch (ask (.compositePodGroups ns))
  let podGroups ← fetch (ask (.podGroups ns))
  liveReady ns groups podGroups groups.length rootName

/-- What the scheduler's own snapshot says about the groups of a namespace. -/
structure HierarchySnapshot where
  hasPodGroup : String → Bool
  /-- Whether the composite has a root. -/
  rootKey : String → Except String Bool
  isCPGTreeReady : String → Bool

def unresolvable (message : String) : Status := ⟨.unschedulableAndUnresolvable, "", message⟩

def checkCPGHierarchyReadiness (snapshot : HierarchySnapshot) (ns startCPGName : String) : Status :=
  match snapshot.rootKey startCPGName with
  | .error e => asStatus e
  | .ok false => unresolvable ("failed to build hierarchy snapshot: composite pod group object not found in state for " ++
      ns ++ "/" ++ startCPGName)
  | .ok true =>
    if snapshot.isCPGTreeReady startCPGName then .success
    else unresolvable ("waiting for composite pod group " ++ startCPGName.quote ++ " tree to meet quorum")

/-- The message on which the scheduler cancels the job of an allocation. -/
def errorExternalJobInvalid : String := "not enough pending pods for created external job"

/-- The scheduler's test of a composite allocation.  A tree that the snapshot shows short of its quorum is
looked up again before the job of the allocation is given up. -/
def preFilterCompositePodGroup (built : Except String HierarchySnapshot) (pod : Pod) (ir : SlurmJobIR) :
    ReadProg Status :=
  match pod.schedulingGroup, built with
  | none, _ => return .success
  | some _, .error e => return unresolvable ("failed to build hierarchy snapshot: " ++ e)
  | some groupName, .ok snapshot =>
    if snapshot.hasPodGroup (groupName.getD "") = false then
      return unresolvable ("waiting for pods's pod group " ++ (groupName.getD "").quote ++
        " to appear in scheduling queue")
    else
      let status := checkCPGHierarchyReadiness snapshot pod.ns.text ir.rootPOM.name
      if status.code = .unschedulableAndUnresolvable ∧
          ir.allPods.any (fun p => parseSlurmJobId (p.label labelExternalJobId) ≠ 0) then do
        match ← (liveCPGTreeReady pod.ns.text ir.rootPOM.name).run with
        | .error e => return asStatus e.message
        | .ok true => return status
        | .ok false => return unschedulable errorExternalJobInvalid
      else
        return status

section
variable {cluster : Cluster} {ns : String} (h : Hierarchy cluster ns)

def parentOf (name : String) : Option String := (h.find name).map parentName

def DepthWithin : Nat → String → Prop
  | 0, _ => False
  | levels + 1, name => ∀ child ∈ h.groups, parentName child = name → DepthWithin levels child.objectMeta.name

/-- A composite is ready if enough of its composites are, together with the PodGroups that have enough Pods. -/
def quorum (enough : PodGroup → Bool) : Nat → String → Bool
  | 0, _ => false
  | levels + 1, name =>
    match h.find name with
    | none => false
    | some group => decide (group.schedulingPolicy.gangMinGroupCount.getD 1 ≤ ((h.groups.countP fun child =>
          decide (parentName child = name) && quorum enough levels child.objectMeta.name : Nat) : Int) +
        (h.leaves.countP fun leaf =>
          decide (leaf.parentCompositePodGroupName = some name) && enough leaf : Nat))

variable {h} {name root : String} {levels : Nat}

theorem find_of_mem {group : CompositePodGroup} (inside : group ∈ h.groups) :
    h.find group.objectMeta.name = some group := by
  cases found : h.find group.objectMeta.name with
  | none => exact absurd (find?_eq_none.mp found group inside) (by simp)
  | some other =>
    obtain ⟨inside', same⟩ := Hierarchy.find_mem found
    rw [inj_on_of_nodup_map h.groupNames inside' inside same]

theorem depthWithin_succ (within : DepthWithin h levels name) : DepthWithin h (levels + 1) name := by
  induction levels generalizing name with
  | zero => cases within
  | succ levels ih => exact fun child inside below => ih (within child inside below)

theorem depthWithin_mono {more : Nat} (le : levels ≤ more) (within : DepthWithin h levels name) :
    DepthWithin h more name := by
  induction le with
  | refl => exact within
  | step _ ih => exact depthWithin_succ ih

theorem not_depthWithin_of_ascend {below : String} (walk : ascend (parentOf h) levels below = some name) :
    ¬DepthWithin h levels name := by
  induction levels generalizing name with
  | zero => exact id
  | succ levels ih =>
    intro within
    rw [ascend_add levels 1] at walk
    obtain ⟨child, lower, step⟩ := Option.bind_eq_some_iff.mp walk
    obtain ⟨parent, above, same⟩ := Option.bind_eq_some_iff.mp step
    obtain rfl := Option.some.inj same
    obtain ⟨group, found, rfl⟩ := Option.map_eq_some_iff.mp above
    obtain ⟨inside, rfl⟩ := Hierarchy.find_mem found
    exact ih lower (within group inside rfl)

theorem ascend_of_not_depthWithin (there : (h.find name).isSome) (beyond : ¬DepthWithin h levels name) :
    ∃ below, (h.find below).isSome ∧ ascend (parentOf h) levels below = some name := by
  induction levels generalizing name with
  | zero => exact ⟨name, there, rfl⟩
  | succ levels ih =>
    simp only [DepthWithin, not_forall] at beyond
    obtain ⟨child, inside, rfl, deep⟩ := beyond
    obtain ⟨below, found, walk⟩ := ih (by rw [find_of_mem inside]; rfl) deep
    refine ⟨below, found, ascend_trans walk (n := 1) ?_⟩
    change (parentOf h _).bind _ = _
    rw [parentOf, find_of_mem inside]
    rfl

theorem depthWithin_length (there : (h.find root).isSome) (within : DepthWithin h levels root) :
    DepthWithin h h.groups.length root := by
  by_contra beyond
  obtain ⟨below, found, walk⟩ := ascend_of_not_depthWithin there beyond
  have member : ∀ {name}, (h.find name).isSome → name ∈ (h.groups.map fun g => g.objectMeta.name).toFinset := by
    intro name some
    obtain ⟨group, here⟩ := Option.isSome_iff_exists.mp some
    obtain ⟨inside, rfl⟩ := Hierarchy.find_mem here
    exact mem_toFinset.mpr (mem_map_of_mem inside)
  obtain ⟨m, short, walk'⟩ := ascend_bounded (fun a b step => by
    obtain ⟨group, here, -⟩ := Option.map_eq_some_iff.mp step
    exact member (by rw [here]; rfl)) (member there) walk
  rw [toFinset_card_of_nodup h.groupNames, length_map] at short
  -- The root is its own ancestor, so that there are ways of every length.
  have cycle : ascend (parentOf h) (h.groups.length - m) root = some root := ascend_rest walk walk' (by omega)
  have around : ∀ times, ascend (parentOf h) (times * (h.groups.length - m)) root = some root := by
    intro times
    induction times with
    | zero => rw [Nat.zero_mul]; rfl
    | succ times ih => rw [Nat.succ_mul]; exact ascend_trans ih cycle
  exact not_depthWithin_of_ascend (around levels)
    (depthWithin_mono (Nat.le_mul_of_pos_right _ (by omega)) within)

end

section
variable {cluster : Cluster} {ns : String} {h : Hierarchy cluster ns} {name : String} {levels : Nat}
  {enough enough' : PodGroup → Bool}

theorem quorum_levels {more : Nat} (le : levels ≤ more) (within : DepthWithin h levels name) :
    quorum h enough levels name = quorum h enough more name := by
  induction levels generalizing name more with
  | zero => cases within
  | succ levels ih =>
    obtain ⟨more, rfl⟩ : ∃ m, more = m + 1 := ⟨more - 1, by omega⟩
    have same : (h.groups.countP fun child =>
        decide (parentName child = name) && quorum h enough levels child.objectMeta.name) =
        h.groups.countP fun child =>
          decide (parentName child = name) && quorum h enough more child.objectMeta.name := by
      refine countP_congr fun child inside => ?_
      by_cases below : parentName child = name
      · rw [ih (Nat.le_of_succ_le_succ le) (within child inside below)]
      · simp [below]
    unfold quorum
    rw [same]

theorem quorum_mono (more : ∀ leaf ∈ h.leaves, ∀ parent n, leaf.parentCompositePodGroupName = some parent →
      ascend (parentOf h) n parent = some name → enough leaf = true → enough' leaf = true)
    (ready : quorum h enough levels name = true) : quorum h enough' levels name = true := by
  induction levels generalizing name with
  | zero => cases ready
  | succ levels ih =>
    unfold quorum at ready ⊢
    split at ready
    · cases ready
    · have groups : (h.groups.countP fun child =>
          decide (parentName child = name) && quorum h enough levels child.objectMeta.name) ≤
          h.groups.countP fun child =>
            decide (parentName child = name) && quorum h enough' levels child.objectMeta.name := by
        refine countP_mono_left fun child inside counted => ?_
        rw [Bool.and_eq_true, decide_eq_true_iff] at counted ⊢
        obtain ⟨rfl, childReady⟩ := counted
        refine ⟨rfl, ih (fun leaf listed parent n below walk => more leaf listed parent (n + 1) below ?_) childReady⟩
        refine ascend_trans walk (n := 1) ?_
        change (parentOf h _).bind _ = _
        rw [parentOf, find_of_mem inside]
        rfl
      have leaves : (h.leaves.countP fun leaf =>
          decide (leaf.parentCompositePodGroupName = some name) && enough leaf) ≤
          h.leaves.countP fun leaf =>
            decide (leaf.parentCompositePodGroupName = some name) && enough' leaf := by
        refine countP_mono_left fun leaf listed counted => ?_
        rw [Bool.and_eq_true, decide_eq_true_iff] at counted ⊢
        exact ⟨counted.1, more leaf listed name 0 counted.1 rfl counted.2⟩
      rw [decide_eq_true_iff] at ready ⊢
      omega

def liveEnough (cluster : Cluster) (ns : String) (leaf : PodGroup) : Bool :=
  decide (leaf.gangMinCount.getD 1 ≤ ((podsOf cluster ns false leaf.objectMeta.name).length : Int))

def submittedEnough (cluster : Cluster) (ns : String) (leaf : PodGroup) : Bool :=
  decide (leaf.gangMinCount.getD 1 ≤
    (((podsOf cluster ns false leaf.objectMeta.name).filter fun p => !p.deleting && !isPodTerminal p).length : Int))

theorem liveReady_eq (there : (h.find name).isSome) (within : DepthWithin h levels name) :
    readIn cluster.answer (liveReady ns h.groups h.leaves levels name) =
      .ok (quorum h (liveEnough cluster ns) levels name) := by
  induction levels generalizing name with
  | zero => cases within
  | succ levels ih =>
    obtain ⟨group, found⟩ := Option.isSome_iff_exists.mp there
    unfold liveReady quorum
    rw [found]
    have listed := found
    unfold Hierarchy.find at listed
    rw [listed]
    rw [readIn_bind, readIn_foldlM, foldlM_count (p := fun child => decide (parentName child = name) &&
      quorum h (liveEnough cluster ns) levels child.objectMeta.name) ?_, Int.zero_add]
    · change readIn cluster.answer (h.leaves.foldlM _ _ >>= _) = _
      rw [readIn_bind, readIn_foldlM, foldlM_count (p := fun leaf =>
        decide (leaf.parentCompositePodGroupName = some name) && liveEnough cluster ns leaf) ?_]
      · rfl
      · intro count leaf inside
        by_cases below : leaf.parentCompositePodGroupName = some name
        · rw [if_neg (not_not.mpr below), readIn_bind, podsForPodGroup_eq]
          simp [below, liveEnough]
          rfl
        · simp [below]
    · intro count child inside
      change readIn cluster.answer (if parentName child ≠ name then _ else _) = _
      by_cases below : parentName child = name
      · have recursive := ih (by rw [find_of_mem inside]; rfl) (within child inside below)
        rw [if_neg (not_not.mpr below), readIn_bind, recursive]
        simp [below]
        rfl
      · simp [below]

/-- No group asks for what Slurm cannot honor. -/
structure Supported (h : Hierarchy cluster ns) : Prop where
  groups : ∀ g ∈ h.groups, validateCompositePodGroup g = .ok ()
  leaves : ∀ l ∈ h.leaves, validatePodGroupSpec l = .ok ()

/-- The IR has the Pods of the leaves that belong to its root. -/
def Holds (h : Hierarchy cluster ns) (ir : SlurmJobIR) : Prop :=
  ∀ leaf ∈ h.leaves, ∀ parent, leaf.parentCompositePodGroupName = some parent →
    (parent == ir.rootPOM.name || traverseParentChain h.groups ir.rootPOM.name h.groups.length parent) = true →
    (ir.components.filter fun c => c.objectMeta.name == leaf.objectMeta.name).flatMap SlurmJobComponent.pods =
      podsOf cluster ns false leaf.objectMeta.name

variable {ir : SlurmJobIR}

theorem compositeReady_eq (supported : Supported h) (holds : Holds h ir) (there : (h.find name).isSome)
    (within : DepthWithin h levels name) :
    ∃ children need, readIn cluster.answer (compositeReady ir ns h.groups h.leaves levels name) =
        .ok (children, need) ∧
      decide (need ≤ children) = quorum h (submittedEnough cluster ns) levels name := by
  induction levels generalizing name with
  | zero => cases within
  | succ levels ih =>
    obtain ⟨group, found⟩ := Option.isSome_iff_exists.mp there
    obtain ⟨inside, rfl⟩ := Hierarchy.find_mem found
    have nonempty := h.named group inside
    unfold compositeReady quorum
    rw [found, readIn_bind, (Hierarchy.getCompositePodGroup_ok (h := h)).mpr ⟨found, supported.groups group inside⟩]
    refine ⟨_, _, ?_, rfl⟩
    change readIn cluster.answer (h.groups.foldlM _ _ >>= _) = _
    rw [readIn_bind, readIn_foldlM, foldlM_count (p := fun child =>
      decide (parentName child = group.objectMeta.name) &&
        quorum h (submittedEnough cluster ns) levels child.objectMeta.name) ?_, Int.zero_add]
    · change readIn cluster.answer (h.leaves.foldlM _ _ >>= _) = _
      rw [readIn_bind, readIn_foldlM, foldlM_count (p := fun leaf =>
        decide (leaf.parentCompositePodGroupName = some group.objectMeta.name) && submittedEnough cluster ns leaf) ?_]
      · rfl
      · intro count leaf listed
        have parent : leaf.parentCompositePodGroupName.getD "" = group.objectMeta.name ↔
            leaf.parentCompositePodGroupName = some group.objectMeta.name := by
          cases leaf.parentCompositePodGroupName with
          | none => simp [Ne.symm nonempty]
          | some parent => simp
        by_cases below : leaf.parentCompositePodGroupName = some group.objectMeta.name
        · rw [if_neg (not_not.mpr (parent.mpr below)), readIn_bind, readIn_lift, supported.leaves leaf listed]
          by_cases translated : (group.objectMeta.name == ir.rootPOM.name ||
              traverseParentChain h.groups ir.rootPOM.name h.groups.length group.objectMeta.name) = true
          · simp only [translated, if_true, readIn_bind, readIn_pure]
            rw [holds leaf listed _ below translated]
            simp [below, submittedEnough]
            rfl
          · rw [Bool.not_eq_true] at translated
            simp only [translated, Bool.false_eq_true, if_false, readIn_bind, readIn_pure]
            rw [h.leavesHere leaf listed, podsForPodGroup_eq]
            simp [below, submittedEnough]
            rfl
        · rw [if_pos (fun same => below (parent.mp same))]
          simp [below]
    · intro count child listed
      change readIn cluster.answer (if parentName child ≠ group.objectMeta.name then _ else _) = _
      by_cases below : parentName child = group.objectMeta.name
      · obtain ⟨children, need, recursive, ready⟩ :=
          ih (by rw [find_of_mem listed]; rfl) (within child listed below)
        rw [if_neg (not_not.mpr below), readIn_bind, recursive, ← ready]
        simp [below]
        rfl
      · simp [below]

theorem depthWithin_of_compositeReady {result : Int × Int}
    (ended : readIn cluster.answer (compositeReady ir ns h.groups h.leaves levels name) = .ok result) :
    DepthWithin h levels name := by
  induction levels generalizing name result with
  | zero => cases ended
  | succ levels ih =>
    unfold compositeReady at ended
    rw [readIn_bind] at ended
    obtain ⟨_, -, ended⟩ := bind_eq_ok.mp ended
    rw [readIn_bind, readIn_foldlM] at ended
    obtain ⟨_, counted, -⟩ := bind_eq_ok.mp ended
    refine foldlM_ok (fun visited _ => ∀ child ∈ visited, parentName child = name →
      DepthWithin h levels child.objectMeta.name) ?_ nofun counted
    intro visited child count count' known step other inside below
    rcases mem_append.mp inside with before | last
    · exact known other before below
    · obtain rfl := mem_singleton.mp last
      change readIn cluster.answer (if parentName other ≠ name then _ else _) = _ at step
      rw [if_neg (not_not.mpr below), readIn_bind] at step
      obtain ⟨_, recursive, -⟩ := bind_eq_ok.mp step
      exact ih recursive

end

section
variable {cluster : Cluster} {ns : String} {h : Hierarchy cluster ns} {api : WorkloadAPI} {ir : SlurmJobIR}

/-- The IR that translation makes for a composite root. -/
structure Translated (cluster : Cluster) (api : WorkloadAPI) (ir : SlurmJobIR) : Prop where
  kind : ir.rootPOM.typeMeta = compositePodGroupV1Alpha3
  components : ∃ infos components, ir.components = withSettings infos components ∧
    readIn cluster.answer (fromCompositePodGroup api false ir.rootPOM) = .ok components

theorem translated_of_translateToSlurmJobIR {pod : Pod}
    (result : readIn cluster.answer (translateToSlurmJobIR api pod) = .ok ir)
    (kind : ir.rootPOM.typeMeta = compositePodGroupV1Alpha3) : Translated cluster api ir := by
  unfold translateToSlurmJobIR at result
  rw [readIn_bind] at result
  obtain ⟨root, -, result⟩ := bind_eq_ok.mp result
  rw [readIn_bind] at result
  obtain ⟨components, read, result⟩ := bind_eq_ok.mp result
  split at result
  · cases result
  · rw [readIn_bind] at result
    obtain ⟨infos, -, result⟩ := bind_eq_ok.mp result
    obtain rfl := Except.ok.inj result
    refine ⟨kind, infos, components, rfl, ?_⟩
    unfold componentsFor at read
    rw [kind] at read
    exact read

theorem withSettings_members (infos : List SlurmJobIRJobInfo) (components : List SlurmJobComponent) (name : String) :
    ((withSettings infos components).filter fun c => c.objectMeta.name == name).flatMap SlurmJobComponent.pods =
      (components.filter fun c => c.objectMeta.name == name).flatMap SlurmJobComponent.pods := by
  have data : (withSettings infos components).map (fun c => (c.objectMeta, c.pods)) =
      components.map fun c => (c.objectMeta, c.pods) := by
    apply ext_getElem <;> simp [withSettings]
  have through : ∀ l : List SlurmJobComponent,
      (l.filter fun c => c.objectMeta.name == name).flatMap SlurmJobComponent.pods =
        ((l.map fun c => (c.objectMeta, c.pods)).filter fun d => d.1.name == name).flatMap Prod.snd := by
    intro l
    rw [filter_map, flatMap_map]
    rfl
  rw [through, through, data]

theorem Translated.components_eq (translated : Translated cluster api ir) (here : ir.rootPOM.ns = ns)
    (h : Hierarchy cluster ns) : (h.find ir.rootPOM.name).isSome ∧ ∃ infos,
      ir.components = withSettings infos (h.leaves.filterMap (h.component api false ir.rootPOM.name)) := by
  obtain ⟨infos, components, same, read⟩ := translated.components
  have root : ∃ group, readIn cluster.answer (getCompositePodGroup ns ir.rootPOM.name) = .ok group := by
    unfold fromCompositePodGroup at read
    rw [readIn_bind, here] at read
    obtain ⟨group, found, -⟩ := bind_eq_ok.mp read
    exact ⟨group, found⟩
  obtain ⟨group, found⟩ := root
  obtain ⟨there, valid⟩ := (Hierarchy.getCompositePodGroup_ok (h := h)).mp found
  rw [Hierarchy.fromCompositePodGroup_eq here there valid] at read
  refine ⟨by rw [there]; rfl, infos, ?_⟩
  rw [same, Except.ok.inj read]

theorem leaves_named {leaf : PodGroup} (listed : leaf ∈ h.leaves) :
    (h.leaves.filter fun l => l.objectMeta.name == leaf.objectMeta.name) = [leaf] := by
  obtain ⟨before, after, split⟩ := append_of_mem listed
  have names := h.leafNames
  rw [split, map_append, map_cons, nodup_middle, nodup_cons, mem_append] at names
  have others : ∀ l, l ∈ before ∨ l ∈ after → (l.objectMeta.name == leaf.objectMeta.name) = false := by
    intro l inside
    refine beq_eq_false_iff_ne.mpr fun same => names.1 ?_
    rw [← same]
    exact inside.imp (mem_map_of_mem ·) (mem_map_of_mem ·)
  rw [split, filter_append, filter_cons, if_pos (beq_self_eq_true _),
    filter_eq_nil_iff.mpr fun l inside => by simp [others l (.inl inside)],
    filter_eq_nil_iff.mpr fun l inside => by simp [others l (.inr inside)]]
  rfl

theorem Translated.holds (translated : Translated cluster api ir) (here : ir.rootPOM.ns = ns) : Holds h ir := by
  obtain ⟨-, infos, same⟩ := translated.components_eq here h
  intro leaf listed parent below above
  have own : (h.leaves.filterMap (h.component api false ir.rootPOM.name)).filter
      (fun c => c.objectMeta.name == leaf.objectMeta.name) =
      (h.component api false ir.rootPOM.name leaf).toList := by
    have named : ∀ l, (h.component api false ir.rootPOM.name l).filter
        (fun c => c.objectMeta.name == leaf.objectMeta.name) =
        if l.objectMeta.name == leaf.objectMeta.name then h.component api false ir.rootPOM.name l else none := by
      intro l
      cases contributed : h.component api false ir.rootPOM.name l with
      | none => simp
      | some c => rw [Option.filter_some, (Hierarchy.component_data contributed).1]
    rw [filter_filterMap, filterMap_congr fun l _ => named l, ← filterMap_filter, leaves_named listed]
    cases contributed : h.component api false ir.rootPOM.name leaf <;> simp [contributed]
  rw [same, withSettings_members, own]
  cases contributed : h.component api false ir.rootPOM.name leaf with
  | some c => simpa using (Hierarchy.component_data contributed).2
  | none =>
    by_contra populated
    obtain ⟨c, contributed'⟩ := (Hierarchy.contributes_iff api below (Ne.symm populated)).mpr
      (by simpa using above)
    rw [contributed] at contributed'
    cases contributed'

theorem validateFrom_ok {seen : List String} {components : List SlurmJobComponent}
    (populated : ∀ c ∈ components, c.pods ≠ [])
    (distinct : (seen ++ (components.flatMap SlurmJobComponent.pods).map Pod.namespacedName).Nodup) :
    SlurmJobIR.validateFrom seen components = .ok () := by
  induction components generalizing seen with
  | nil => rfl
  | cons c components ih =>
    rw [flatMap_cons, map_append, ← append_assoc] at distinct
    have fresh : (c.pods.map Pod.namespacedName).find? seen.contains = none := by
      refine find?_eq_none.mpr fun key inside known => ?_
      rw [append_assoc, nodup_append'] at distinct
      exact distinct.2.2 (contains_iff_mem.mp known) (mem_append_left _ inside)
    have some : c.pods.isEmpty = false := by
      simpa using populated c mem_cons_self
    unfold SlurmJobIR.validateFrom
    rw [some]
    dsimp only
    rw [fresh]
    exact ih (fun c inside => populated c (mem_cons_of_mem _ inside)) distinct

theorem Translated.valid (translated : Translated cluster api ir) (here : ir.rootPOM.ns = ns)
    (h : Hierarchy cluster ns) (some : ir.components ≠ []) : ir.validate = .ok () := by
  obtain ⟨-, infos, same⟩ := translated.components_eq here h
  have pods : ir.components.map SlurmJobComponent.pods =
      (h.leaves.filterMap (h.component api false ir.rootPOM.name)).map SlurmJobComponent.pods := by
    rw [same, pods_withSettings]
  have all : ir.components.flatMap SlurmJobComponent.pods =
      (h.leaves.filterMap (h.component api false ir.rootPOM.name)).flatMap SlurmJobComponent.pods := by
    rw [flatMap_def, pods, ← flatMap_def]
  unfold SlurmJobIR.validate
  rw [if_neg (by simpa using some)]
  refine validateFrom_ok ?_ ?_
  · intro c inside
    have listed : c.pods ∈ ir.components.map SlurmJobComponent.pods := mem_map_of_mem inside
    rw [pods] at listed
    obtain ⟨c', among, equal⟩ := mem_map.mp listed
    obtain ⟨leaf, -, contributed⟩ := mem_filterMap.mp among
    obtain ⟨-, -, -, populated, -⟩ := Hierarchy.component_eq_some.mp contributed
    rw [← equal, (Hierarchy.component_data contributed).2]
    exact populated
  · rw [nil_append, all]
    refine (Hierarchy.components_nodup h api false ir.rootPOM.name).map_on fun p inside q inside' equal => ?_
    have stored : ∀ p ∈ (h.leaves.filterMap (h.component api false ir.rootPOM.name)).flatMap SlurmJobComponent.pods,
        p ∈ cluster.pods := by
      intro p inside
      obtain ⟨c, among, member⟩ := mem_flatMap.mp inside
      obtain ⟨leaf, -, contributed⟩ := mem_filterMap.mp among
      rw [(Hierarchy.component_data contributed).2] at member
      exact (mem_podsOf.mp member).1
    exact inj_on_of_nodup_map cluster.distinct (stored p inside) (stored q inside') equal

end

section
variable {cluster : Cluster} {ns : String} {h : Hierarchy cluster ns} {api : WorkloadAPI} {ir : SlurmJobIR} {pod : Pod}

theorem liveCPGTreeReady_eq (root : String) : readIn cluster.answer (liveCPGTreeReady ns root) =
    readIn cluster.answer (liveReady ns h.groups h.leaves h.groups.length root) := by
  exact h.readIn_lists _

theorem registrationReady_eq (h : Hierarchy cluster ns) (kind : ir.rootPOM.typeMeta = compositePodGroupV1Alpha3)
    (here : pod.ns.text = ns) : readIn cluster.answer (registrationReady pod ir) =
      ir.validate.mapError .text >>= fun _ =>
        readIn cluster.answer (compositeReady ir ns h.groups h.leaves maxCompositePodGroupTreeDepth ir.rootPOM.name) >>=
          fun counts => .ok (if counts.2 ≤ counts.1 then .ready
            else .waiting ("CompositePodGroup " ++ ns ++ "/" ++ ir.rootPOM.name ++ " has " ++
              toString counts.1 ++ " ready child groups; requires " ++ toString counts.2)) := by
  unfold registrationReady
  cases ir.validate with
  | error text => rfl
  | ok valid =>
    dsimp only
    rw [if_neg (not_not.mpr kind), here, h.readIn_lists, readIn_bind]
    congr 1
    funext counts
    split <;> simp_all

theorem registrationReady_ready_iff (h : Hierarchy cluster ns) (kind : ir.rootPOM.typeMeta = compositePodGroupV1Alpha3)
    (here : pod.ns.text = ns) : readIn cluster.answer (registrationReady pod ir) = .ok .ready ↔
      ir.validate = .ok () ∧ ∃ children need, readIn cluster.answer (compositeReady ir ns h.groups h.leaves
        maxCompositePodGroupTreeDepth ir.rootPOM.name) = .ok (children, need) ∧ need ≤ children := by
  rw [registrationReady_eq h kind here]
  cases ir.validate with
  | error text => exact ⟨nofun, fun ⟨valid, _⟩ => nomatch valid⟩
  | ok valid =>
    change (readIn cluster.answer _ >>= _) = _ ↔ _
    rw [bind_eq_ok]
    constructor
    · rintro ⟨⟨children, need⟩, counted, ready⟩
      refine ⟨rfl, children, need, counted, ?_⟩
      by_contra short
      rw [if_neg short] at ready
      cases ready
    · rintro ⟨-, children, need, counted, enough⟩
      exact ⟨_, counted, by rw [if_pos enough]⟩

theorem liveCPGTreeReady_quorum {root : String} (there : (h.find root).isSome)
    (within : DepthWithin h maxCompositePodGroupTreeDepth root) :
    readIn cluster.answer (liveCPGTreeReady ns root) =
      .ok (quorum h (liveEnough cluster ns) maxCompositePodGroupTreeDepth root) := by
  have all := depthWithin_length there within
  rw [liveCPGTreeReady_eq (h := h), liveReady_eq there all]
  rcases Nat.le_total maxCompositePodGroupTreeDepth h.groups.length with le | le
  · rw [quorum_levels le within]
  · rw [quorum_levels le all]

variable {leaf : PodGroup}

theorem liveEnough_of_submittedEnough (enough : submittedEnough cluster ns leaf = true) :
    liveEnough cluster ns leaf = true := by
  unfold submittedEnough at enough
  unfold liveEnough
  rw [decide_eq_true_iff] at enough ⊢
  have fewer := length_filter_le (fun p => !p.deleting && !isPodTerminal p)
    (podsOf cluster ns false leaf.objectMeta.name)
  omega

theorem submittedEnough_of_liveEnough
    (kept : ∀ p ∈ podsOf cluster ns false leaf.objectMeta.name, p.deleting = false)
    (enough : liveEnough cluster ns leaf = true) : submittedEnough cluster ns leaf = true := by
  have all : (podsOf cluster ns false leaf.objectMeta.name).filter (fun p => !p.deleting && !isPodTerminal p) =
      podsOf cluster ns false leaf.objectMeta.name := by
    refine filter_eq_self.mpr fun p inside => ?_
    obtain ⟨-, -, -, running⟩ := mem_podsOf.mp inside
    rw [kept p inside, running.resolve_left nofun]
    rfl
  unfold submittedEnough
  rw [all]
  exact enough

def NoneDeleting (h : Hierarchy cluster ns) (root : String) : Prop :=
  ∀ leaf ∈ h.leaves, ∀ parent n, leaf.parentCompositePodGroupName = some parent →
    ascend (parentOf h) n parent = some root → ∀ p ∈ podsOf cluster ns false leaf.objectMeta.name, p.deleting = false

theorem preFilterCompositePodGroup_kept (here : pod.ns.text = ns) (built : Except String HierarchySnapshot)
    (live : readIn cluster.answer (liveCPGTreeReady ns ir.rootPOM.name) = .ok true) :
    eval cluster.answer (preFilterCompositePodGroup built pod ir) ≠ unschedulable errorExternalJobInvalid := by
  have other : ∀ {status : Status}, status.code ≠ .unschedulable → status ≠ unschedulable errorExternalJobInvalid := by
    rintro _ differs rfl
    exact differs rfl
  have checked : ∀ snapshot, (checkCPGHierarchyReadiness snapshot ns ir.rootPOM.name).code ≠ .unschedulable := by
    intro snapshot
    unfold checkCPGHierarchyReadiness
    split
    · exact nofun
    · exact nofun
    · split <;> exact nofun
  unfold preFilterCompositePodGroup
  rw [here]
  split
  · exact other nofun
  · exact other nofun
  · split
    · exact other nofun
    · dsimp only
      split
      · rw [eval_bind]
        change eval (I := kubeReads) cluster.answer (match readIn cluster.answer (liveCPGTreeReady ns ir.rootPOM.name) with
          | .error e => _ | .ok true => _ | .ok false => _) ≠ _
        rw [live]
        exact other (checked _)
      · exact other (checked _)

/-- What registration would submit is ready for the scheduler, which therefore does not give its job up.
In a tree within the depth limit in which no Pod is being deleted, the two tests agree. -/
theorem quorums_agree (h : Hierarchy cluster ns) (supported : Supported h) (translated : Translated cluster api ir)
    (root : ir.rootPOM.ns = ns) (here : pod.ns.text = ns) :
    (readIn cluster.answer (registrationReady pod ir) = .ok .ready →
      readIn cluster.answer (liveCPGTreeReady ns ir.rootPOM.name) = .ok true ∧
      ∀ built, eval cluster.answer (preFilterCompositePodGroup built pod ir) ≠
        unschedulable errorExternalJobInvalid) ∧
    (DepthWithin h maxCompositePodGroupTreeDepth ir.rootPOM.name → ir.components ≠ [] →
      NoneDeleting h ir.rootPOM.name →
      ∃ result ready, readIn cluster.answer (registrationReady pod ir) = .ok result ∧
        readIn cluster.answer (liveCPGTreeReady ns ir.rootPOM.name) = .ok ready ∧
        (result = .ready ↔ ready = true)) := by
  obtain ⟨there, -⟩ := translated.components_eq root h
  have holds : Holds h ir := translated.holds root
  constructor
  · intro ready
    obtain ⟨-, children, need, counted, enough⟩ := (registrationReady_ready_iff h translated.kind here).mp ready
    have within := depthWithin_of_compositeReady counted
    obtain ⟨children', need', counted', quorate⟩ := compositeReady_eq supported holds there within
    rw [counted] at counted'
    obtain ⟨rfl, rfl⟩ := Prod.mk.inj (Except.ok.inj counted')
    have live : readIn cluster.answer (liveCPGTreeReady ns ir.rootPOM.name) = .ok true := by
      rw [liveCPGTreeReady_quorum there within]
      exact congrArg _ (quorum_mono (fun _ _ _ _ _ _ => liveEnough_of_submittedEnough)
        (quorate ▸ decide_eq_true enough))
    exact ⟨live, fun built => preFilterCompositePodGroup_kept here built live⟩
  · intro within some kept
    obtain ⟨children, need, counted, quorate⟩ := compositeReady_eq supported holds there within
    have valid := translated.valid root h some
    obtain ⟨result, evaluated⟩ : ∃ result, readIn cluster.answer (registrationReady pod ir) = .ok result := by
      rw [registrationReady_eq h translated.kind here, valid]
      rw [counted]
      exact ⟨_, rfl⟩
    have same : quorum h (submittedEnough cluster ns) maxCompositePodGroupTreeDepth ir.rootPOM.name = true ↔
        quorum h (liveEnough cluster ns) maxCompositePodGroupTreeDepth ir.rootPOM.name = true := by
      refine ⟨quorum_mono fun _ _ _ _ _ _ => liveEnough_of_submittedEnough, quorum_mono ?_⟩
      intro leaf listed parent n below walk
      exact submittedEnough_of_liveEnough (kept leaf listed parent n below walk)
    refine ⟨result, _, evaluated, liveCPGTreeReady_quorum there within, ?_⟩
    rw [← same, ← quorate, decide_eq_true_iff]
    constructor
    · rintro rfl
      obtain ⟨-, children', need', counted', enough⟩ := (registrationReady_ready_iff h translated.kind here).mp evaluated
      rw [counted] at counted'
      obtain ⟨rfl, rfl⟩ := Prod.mk.inj (Except.ok.inj counted')
      exact enough
    · intro enough
      have ready := (registrationReady_ready_iff h translated.kind here).mpr ⟨valid, children, need, counted, enough⟩
      rw [evaluated] at ready
      exact Except.ok.inj ready

end

/- A composite with one PodGroup of its own and one behind a basic boundary. -/

private def top : CompositePodGroup :=
  ⟨⟨compositePodGroupV1Alpha3, "ns", "top", "", []⟩, none, ⟨false, some 1⟩, "", 0⟩

private def wall : CompositePodGroup :=
  ⟨⟨compositePodGroupV1Alpha3, "ns", "wall", "", []⟩, some "top", ⟨true, none⟩, "", 0⟩

private def near : PodGroup := ⟨⟨podGroupV1Beta1, "ns", "near", "", []⟩, some "top", none, 0, 0⟩

private def far : PodGroup := ⟨⟨podGroupV1Beta1, "ns", "far", "", []⟩, some "wall", none, 0, 0⟩

private def inGroup (name : Segment) (group : String) (phase : PodPhase) : Pod :=
  { Pod.waiting (.of "ns" (.refl true)) name (.of "1" (.refl true)) "slurm-bridge-scheduler" with
    schedulingGroup := some (some group)
    phase := phase }

private def nearPod (phase : PodPhase) : Pod := inGroup (.of "a" (.refl true)) "near" phase

private def walled (phase : PodPhase) : Cluster where
  pods := [nearPod phase, inGroup (.of "b" (.refl true)) "far" .pending]
  distinct := by cases phase <;> decide +kernel
  others
    | .compositePodGroups _ => Except.ok [top, wall]
    | .compositePodGroup _ name => match [top, wall].find? fun g => g.objectMeta.name == name with
      | some group => Except.ok group
      | none => Except.error .notFound
    | .podGroups _ => Except.ok [near, far]
    | .podGroup _ _ => Except.ok near
    | .object typeMeta ns name => Except.ok ⟨typeMeta, ns, name, "", []⟩
    | .settings _ _ => Except.ok []
    | q => q.refuse

private def walledTree (phase : PodPhase) : Hierarchy (walled phase) "ns" where
  groups := [top, wall]
  leaves := [near, far]
  listsGroups := rfl
  getsGroup := fun _ => rfl
  listsLeaves := rfl
  groupNames := by decide
  named := by decide
  leafNames := by decide
  leavesHere := by decide

private def translatedIR (phase : PodPhase) : Except Err SlurmJobIR :=
  readIn (walled phase).answer (translateToSlurmJobIR (some podGroupV1Beta1) (nearPod phase))

theorem quorums_agree_walled :
    ∃ ir, translatedIR .pending = .ok ir ∧
      readIn (walled .pending).answer (registrationReady (nearPod .pending) ir) = .ok .ready ∧
      readIn (walled .pending).answer (liveCPGTreeReady "ns" "top") = .ok true := by
  obtain ⟨ir, result⟩ := exists_ok (show (translatedIR .pending).isOk = true by decide +kernel)
  have data : ir.rootPOM = ⟨compositePodGroupV1Alpha3, "ns", "top", "", []⟩ := by
    have known : (translatedIR .pending).map SlurmJobIR.rootPOM =
        .ok ⟨compositePodGroupV1Alpha3, "ns", "top", "", []⟩ := by decide +kernel
    rw [result] at known
    exact Except.ok.inj known
  have ready : readIn (walled .pending).answer (registrationReady (nearPod .pending) ir) = .ok .ready := by
    have known : (translatedIR .pending >>= fun ir =>
        readIn (walled .pending).answer (registrationReady (nearPod .pending) ir)) = .ok .ready := by decide +kernel
    rw [result] at known
    exact known
  have translated := translated_of_translateToSlurmJobIR result (by rw [data])
  have live := ((quorums_agree (walledTree .pending) ⟨by decide, by decide⟩ translated (by rw [data]) rfl).1 ready).1
  rw [data] at live
  exact ⟨ir, result, ready, live⟩

/-- Where the only Pod of the composite's own PodGroup is finished, the IR has no component and the test before
a submission fails, while the Pod behind the boundary makes the tree ready. -/
theorem finished_pod_unequal :
    translatedIR .succeeded = .ok ⟨⟨compositePodGroupV1Alpha3, "ns", "top", "", []⟩, []⟩ ∧
      readIn (walled .succeeded).answer (registrationReady (nearPod .succeeded)
        ⟨⟨compositePodGroupV1Alpha3, "ns", "top", "", []⟩, []⟩) = .error (.text "SlurmJobIR has no components") ∧
      readIn (walled .succeeded).answer (liveCPGTreeReady "ns" "top") = .ok true :=
  ⟨by decide +kernel, by decide +kernel, by decide +kernel⟩

end SlurmBridge.Scheduler.CompositeQuorum
