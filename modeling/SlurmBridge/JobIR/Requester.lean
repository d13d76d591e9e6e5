/- source: internal/utils/slurmjobir (slurmjobir.go, annotations.go, composite_podgroup.go,
     leaderworkerset.go, podgroup_coscheduling.go)
   digest: The members of an allocation translate to the same request.  Where the requesting Pod's own
     group or owners decide. -/

import SlurmBridge.JobIR.Annotations

set_option autoImplicit false

namespace SlurmBridge.JobIR.Requester

open Foundation.Interaction Foundation.Ascent Foundation.Checked Kube.Objects Kube.Reads Kube.State JobIR.IR
open JobIR.Translate JobIR.CompositeTree JobIR.CompositeTree.Hierarchy JobIR.Annotations
open Foundation.Text (Segment)
open Kube.PodResources (PodNeeds)
open JobIR.Annotations.Snapshot (looksUpController)
open Option List

variable {s : Snapshot} {api : WorkloadAPI}

section
variable {p q : Pod} {pg pg' : Option PodGroup} {ir : SlurmJobIR}

theorem translate_ok_iff : s.translate api p = .ok ir ↔ ∃ root pg components infos,
    readIn s.whole.answer (workloadRoot api p) = .ok (root, pg) ∧
      readIn s.whole.answer (componentsFor api p root) = .ok components ∧ components.length ≤ maxComponents ∧
      s.settings pg ⟨root, components⟩ = .ok infos ∧ ir = ⟨root, withSettings infos components⟩ := by
  unfold Snapshot.translate translateToSlurmJobIR
  constructor
  · intro translated
    obtain ⟨⟨root, pg⟩, found, rest⟩ := readIn_bind_eq_ok.mp translated
    obtain ⟨components, read, rest⟩ := readIn_bind_eq_ok.mp rest
    split at rest
    · cases rest
    · rename_i few
      obtain ⟨infos, set, rest⟩ := readIn_bind_eq_ok.mp rest
      exact ⟨root, pg, components, infos, found, read, not_lt.mp few, set, (Except.ok.inj rest).symm⟩
  · rintro ⟨root, pg, components, infos, found, read, few, set, rfl⟩
    rw [readIn_bind_of_ok found, readIn_bind_of_ok read, if_neg (not_lt.mpr few), readIn_bind_eq_ok]
    exact ⟨infos, set, rfl⟩

/-- Of the requesting Pod's PodGroup, the settings depend on whether there is one and on whether
controllers are looked up. -/
theorem settings_eq (ir : SlurmJobIR)
    (same : pg.map (looksUpController · ir.components.length) = pg'.map (looksUpController · ir.components.length)) :
    s.settings pg ir = s.settings pg' ir := by
  unfold Snapshot.settings
  cases entered : ir.components.mapM (s.resources ir.rootPOM) with
  | error e => rfl
  | ok infos =>
    have count : (infos.zip (ir.components.map SlurmJobComponent.pods)).length = ir.components.length := by
      rw [length_zip, length_map, ← (mapM_forall₂ entered).length_eq, min_self]
    change s.applySlurmAnnotations pg _ _ = s.applySlurmAnnotations pg' _ _
    unfold Snapshot.applySlurmAnnotations
    rw [count]
    cases pg with
    | none => cases pg' with
      | none => rfl
      | some _ => cases same
    | some g => cases pg' with
      | none => cases same
      | some g' =>
        have same : looksUpController g ir.components.length = looksUpController g' ir.components.length :=
          some.inj same
        dsimp only
        rw [same]

/-- Where the first Pod's request finds its root, the second one's finds the same, collects the same
components and takes the annotations from the same objects. -/
def Follows (s : Snapshot) (api : WorkloadAPI) (p q : Pod) : Prop :=
  ∀ root pg, readIn s.whole.answer (workloadRoot api p) = .ok (root, pg) →
    ∃ pg', readIn s.whole.answer (workloadRoot api q) = .ok (root, pg') ∧
      readIn s.whole.answer (componentsFor api p root) = readIn s.whole.answer (componentsFor api q root) ∧
      ∀ components, readIn s.whole.answer (componentsFor api p root) = .ok components →
        pg.map (looksUpController · components.length) = pg'.map (looksUpController · components.length)

theorem Follows.translate (follows : Follows s api p q) (translated : s.translate api p = .ok ir) :
    s.translate api q = .ok ir := by
  obtain ⟨root, pg, components, infos, found, read, few, set, rfl⟩ := translate_ok_iff.mp translated
  obtain ⟨pg', found', same, sources⟩ := follows root pg found
  rw [settings_eq ⟨root, components⟩ (sources components read)] at set
  exact translate_ok_iff.mpr ⟨root, pg', components, infos, found', same ▸ read, few, set, rfl⟩

theorem agree_of_follows (forth : Follows s api p q) (back : Follows s api q p) :
    Agree (s.translate api p) (s.translate api q) := fun _ => ⟨forth.translate, back.translate⟩

end

section
variable {pod : Pod} {root : PartialObjectMetadata} {pg : Option PodGroup}

theorem workloadRoot_ok_iff : readIn s.whole.answer (workloadRoot api pod) = .ok (root, pg) ↔
    validatePodGroupSupport api pod = .ok () ∧ ∃ group found read,
      readIn s.whole.answer (groupRoot api pod) = .ok (group, pg) ∧
      readIn s.whole.answer (rootOrOwner pod group) = .ok found ∧
      s.whole.answer (.object found.typeMeta found.ns found.name) = .ok read ∧
      root = { read with typeMeta := found.typeMeta } := by
  unfold workloadRoot
  constructor
  · intro resolved
    obtain ⟨⟨⟩, support, rest⟩ := readIn_bind_eq_ok.mp resolved
    obtain ⟨⟨group, pg'⟩, grouped, rest⟩ := readIn_bind_eq_ok.mp rest
    obtain ⟨found, owned, rest⟩ := readIn_bind_eq_ok.mp rest
    obtain ⟨read, fetched, rest⟩ := readIn_bind_eq_ok.mp rest
    obtain ⟨rfl, rfl⟩ := Prod.mk.inj (Except.ok.inj rest)
    exact ⟨by rwa [readIn_lift] at support, group, found, read, grouped, owned, readIn_fetch_ok.mp fetched, rfl⟩
  · rintro ⟨support, group, found, read, grouped, owned, fetched, rfl⟩
    refine readIn_bind_eq_ok.mpr ⟨(), by rwa [readIn_lift], readIn_bind_eq_ok.mpr ⟨(group, pg), grouped, ?_⟩⟩
    exact readIn_bind_eq_ok.mpr ⟨found, owned, readIn_bind_eq_ok.mpr ⟨read, readIn_fetch_ok.mpr fetched, rfl⟩⟩

theorem validatePodGroupSupport_ok_iff :
    validatePodGroupSupport api pod = .ok () ↔ ((podGroupName pod).isSome → api.isSome) := by
  unfold validatePodGroupSupport
  cases podGroupName pod <;> cases api <;> simp

variable {name : String} {group : PodGroup} {found : Option PartialObjectMetadata}

theorem builtInRoot_ok_iff {type : TypeMeta} (there : s.whole.answer (.podGroup pod.ns name) = .ok group) :
    readIn s.whole.answer (builtInRoot type pod name) = .ok (found, pg) ↔
      validatePodGroupSpec group = .ok () ∧ pg = some group ∧
        match group.parentCompositePodGroupName with
        | some parent => ∃ rootName, readIn s.whole.answer
              (compositePodGroupRootName pod.ns maxCompositePodGroupTreeDepth "" parent) = .ok rootName ∧
            found = some (if rootName = "" then ⟨type, pod.ns, name, "", []⟩
              else ⟨compositePodGroupV1Alpha3, pod.ns, rootName, "", []⟩)
        | none => found = if group.gangMinCount.isSome then some ⟨type, pod.ns, name, "", []⟩ else none := by
  unfold builtInRoot
  have read : readIn s.whole.answer (fetch (ask (.podGroup pod.ns name))) = .ok group := readIn_fetch_ok.mpr there
  rw [readIn_bind_of_ok read, readIn_bind_eq_ok, readIn_lift]
  cases group.parentCompositePodGroupName with
  | none =>
    constructor
    · rintro ⟨⟨⟩, valid, result⟩
      obtain ⟨rfl, rfl⟩ := Prod.mk.inj (Except.ok.inj result)
      exact ⟨valid, rfl, rfl⟩
    · rintro ⟨valid, rfl, rfl⟩
      exact ⟨(), valid, rfl⟩
  | some parent =>
    constructor
    · rintro ⟨⟨⟩, valid, result⟩
      obtain ⟨rootName, search, result⟩ := readIn_bind_eq_ok.mp result
      obtain ⟨rfl, rfl⟩ := Prod.mk.inj (Except.ok.inj result)
      exact ⟨valid, rfl, rootName, search, rfl⟩
    · rintro ⟨valid, rfl, rootName, search, rfl⟩
      exact ⟨(), valid, readIn_bind_eq_ok.mpr ⟨rootName, search, rfl⟩⟩

theorem podGroupName_eq_some :
    podGroupName pod = some name ↔ pod.schedulingGroup = some (some name) ∧ name ≠ "" := by
  unfold podGroupName
  split
  · rename_i other grouped
    rw [grouped]
    split
    · rename_i empty
      simp only [reduceCtorEq, false_iff, some.injEq, not_and, not_not]
      rintro rfl
      exact empty
    · rename_i nonempty
      simp only [some.injEq]
      exact ⟨fun same => ⟨same, same ▸ nonempty⟩, And.left⟩
  · rename_i other
    simp only [reduceCtorEq, false_iff, not_and]
    intro grouped
    exact absurd grouped (other name)

/-- The groups that can be the root of a built-in PodGroup's member. -/
def GroupKind (type : TypeMeta) : Prop := isBuiltInPodGroup type = true ∨ type = compositePodGroupV1Alpha3

theorem groupRoot_found (builtIn : ∀ type, api = some type → isBuiltInPodGroup type = true)
    (named : podGroupName pod = some name) (there : s.whole.answer (.podGroup pod.ns name) = .ok group)
    (allocates : group.gangMinCount.isSome ∨ group.parentCompositePodGroupName.isSome)
    (support : validatePodGroupSupport api pod = .ok ())
    (grouped : readIn s.whole.answer (groupRoot api pod) = .ok (found, pg)) :
    ∃ root, found = some root ∧ GroupKind root.typeMeta := by
  obtain ⟨type, rfl⟩ := isSome_iff_exists.mp (validatePodGroupSupport_ok_iff.mp support (by rw [named]; rfl))
  unfold groupRoot at grouped
  rw [named] at grouped
  obtain ⟨-, -, found⟩ := (builtInRoot_ok_iff there).mp grouped
  split at found
  · obtain ⟨rootName, -, rfl⟩ := found
    refine ⟨_, rfl, ?_⟩
    split
    · exact .inl (builtIn type rfl)
    · exact .inr rfl
  · rename_i alone
    rw [alone] at allocates
    rw [if_pos (allocates.resolve_right (by simp))] at found
    exact ⟨_, found, .inl (builtIn type rfl)⟩

theorem componentsFor_group {p q : Pod} (here : p.ns = q.ns) (grouped : p.schedulingGroup = q.schedulingGroup)
    (kind : GroupKind root.typeMeta) : componentsFor api p root = componentsFor api q root := by
  unfold componentsFor
  rcases kind with builtIn | composite
  · rw [if_pos builtIn, if_pos builtIn, here, grouped]
  · rw [composite]
    rfl

end

section
variable {p q : Pod} {name : String}

theorem follows_gang (builtIn : ∀ type, api = some type → isBuiltInPodGroup type = true) (here : p.ns = q.ns)
    {group : PodGroup} (named : podGroupName p = some name) (named' : podGroupName q = some name)
    (there : s.whole.answer (.podGroup p.ns name) = .ok group) (gang : group.gangMinCount.isSome) :
    Follows s api p q := by
  intro root pg resolved
  obtain ⟨support, found, target, read, grouped, owned, fetched, rfl⟩ := workloadRoot_ok_iff.mp resolved
  obtain ⟨own, rfl, kind⟩ := groupRoot_found builtIn named there (.inl gang) support grouped
  obtain rfl := Except.ok.inj owned
  -- Neither the support for the group nor the search for its root looks at anything else of the Pod.
  have support' : validatePodGroupSupport api q = .ok () := by
    rw [validatePodGroupSupport_ok_iff, named', ← named, ← validatePodGroupSupport_ok_iff]
    exact support
  have search : groupRoot api q = groupRoot api p := by
    unfold groupRoot
    rw [named, named']
    cases api with
    | none => rw [validatePodGroupSupport_ok_iff, named] at support; cases support rfl
    | some type => unfold builtInRoot; rw [here]
  have sameGroup : p.schedulingGroup = q.schedulingGroup :=
    (podGroupName_eq_some.mp named).1.trans (podGroupName_eq_some.mp named').1.symm
  refine ⟨pg, workloadRoot_ok_iff.mpr ⟨support', some own, own, read, search ▸ grouped, rfl, fetched, rfl⟩, ?_,
    fun _ _ => rfl⟩
  exact congrArg _ (componentsFor_group here sameGroup kind)

variable {group : CoschedulingPodGroup}

theorem groupRoot_coscheduling (api : WorkloadAPI) {pod : Pod} (alone : podGroupName pod = none)
    (labelled : pod.label coschedulingPodGroupLabel = name) (nonempty : name ≠ "")
    (there : s.whole.answer (.coschedulingPodGroup pod.ns name) = .ok group) :
    readIn s.whole.answer (groupRoot api pod) =
      .ok (some ⟨podGroupCoschedulingV1Alpha1, pod.ns, group.objectMeta.name, "", []⟩, none) := by
  have search : groupRoot api pod = coschedulingRoot pod := by
    unfold groupRoot
    rw [alone]
  rw [search]
  unfold readIn coschedulingRoot getPodGroupCoscheduling
  rw [labelled, if_neg nonempty]
  change eval s.whole.answer (Prog.step (I := kubeReads) (Query.coschedulingPodGroup pod.ns name) _) = _
  rw [eval, there]
  rfl

theorem follows_coscheduling (here : p.ns = q.ns) (alone : podGroupName p = none)
    (alone' : podGroupName q = none) (labelled : p.label coschedulingPodGroupLabel = name)
    (labelled' : q.label coschedulingPodGroupLabel = name) (nonempty : name ≠ "")
    (there : s.whole.answer (.coschedulingPodGroup p.ns name) = .ok group) : Follows s api p q := by
  intro root pg resolved
  obtain ⟨-, found, target, read, grouped, owned, fetched, rfl⟩ := workloadRoot_ok_iff.mp resolved
  rw [groupRoot_coscheduling api alone labelled nonempty there] at grouped
  obtain ⟨rfl, rfl⟩ := Prod.mk.inj (Except.ok.inj grouped)
  obtain rfl := Except.ok.inj owned
  have support' : validatePodGroupSupport api q = .ok () := by
    rw [validatePodGroupSupport_ok_iff, alone']
    exact nofun
  have search := groupRoot_coscheduling api alone' labelled' nonempty (here ▸ there)
  refine ⟨none, workloadRoot_ok_iff.mpr ⟨support', _, _, read, search, rfl, ?_, ?_⟩, ?_, fun _ _ => rfl⟩
  · rw [← here]
    exact fetched
  · rw [here]
  · unfold componentsFor
    rw [labelled, labelled']
    rfl

theorem follows_lws {pg pg' : Option PodGroup} (support : validatePodGroupSupport api q = .ok ())
    (owned : readIn s.whole.answer (groupRoot api p) = .ok (none, pg))
    (owned' : readIn s.whole.answer (groupRoot api q) = .ok (none, pg'))
    (sources : pg.map (looksUpController · 1) = pg'.map (looksUpController · 1))
    (owners : Agree (readIn s.whole.answer (getRootOwnerMetadata p)) (readIn s.whole.answer (getRootOwnerMetadata q)))
    (kind : ∀ root, readIn s.whole.answer (getRootOwnerMetadata p) = .ok root → root.typeMeta = lwsV1)
    (hash : p.label lwsGroupUniqueHashLabelKey = q.label lwsGroupUniqueHashLabelKey)
    (set : p.label lwsSetNameLabelKey = q.label lwsSetNameLabelKey)
    (index : p.label lwsGroupIndexLabelKey = q.label lwsGroupIndexLabelKey)
    (size : p.annotations.lookup lwsSizeAnnotationKey = q.annotations.lookup lwsSizeAnnotationKey) :
    Follows s api p q := by
  intro root own resolved
  obtain ⟨-, found, target, read, grouped, climbed, fetched, rfl⟩ := workloadRoot_ok_iff.mp resolved
  rw [owned] at grouped
  obtain ⟨rfl, rfl⟩ := Prod.mk.inj (Except.ok.inj grouped)
  have lws : ({ read with typeMeta := target.typeMeta } : PartialObjectMetadata).typeMeta = lwsV1 := kind target climbed
  have collect : ∀ pod, componentsFor api pod { read with typeMeta := target.typeMeta } =
      fromLws pod.labels pod.annotations { read with typeMeta := target.typeMeta } := by
    intro pod
    rw [lws]
    rfl
  refine ⟨pg', workloadRoot_ok_iff.mpr ⟨support, none, target, read, owned', (owners target).mp climbed, fetched, rfl⟩,
    ?_, ?_⟩
  · unfold Pod.label at hash set index
    rw [collect, collect]
    unfold fromLws lwsGroupSize
    rw [hash, set, index, size]
  · intro components collected
    rw [collect] at collected
    -- A replica group is one component.
    have one : components.length = 1 := by
      unfold fromLws at collected
      simp only [readIn_bind, bind_eq_ok] at collected
      obtain ⟨_, _, _, _, pods, _, collected⟩ := collected
      split at collected
      · cases collected
      · obtain rfl := Except.ok.inj collected
        rfl
    rw [one]
    exact sources

end

section
variable {p q : Pod} {ns : String} {tree : Hierarchy s.whole ns}

/-- PodGroups and composites are read one by one as they are listed, under their names. -/
structure Serves (tree : Hierarchy s.whole ns) : Prop where
  leaf : ∀ l ∈ tree.leaves, s.whole.answer (.podGroup ns l.objectMeta.name) = .ok l
  object : ∀ name read, s.whole.answer (.object compositePodGroupV1Alpha3 ns name) = .ok read →
    read.ns = ns ∧ read.name = name

/-- The root of a PodGroup below composites: where the walk along composites that share an allocation ends. -/
def Below (tree : Hierarchy s.whole ns) (leaf : PodGroup) (root : String) : Prop :=
  ∃ parent n, leaf.parentCompositePodGroupName = some parent ∧ ascend tree.joined n parent = some root ∧
    tree.joined root = none ∧ (tree.inner root).isSome

/-- The PodGroup sets no field that Slurm cannot honor, and the search finds a root above it: no composite on the
way sets such a field, and there are not too many of them. -/
def Accepted (s : Snapshot) (ns : String) (leaf : PodGroup) : Prop :=
  validatePodGroupSpec leaf = .ok () ∧ ∀ parent, leaf.parentCompositePodGroupName = some parent →
    ∃ rootName, readIn s.whole.answer
      (compositePodGroupRootName ns maxCompositePodGroupTreeDepth "" parent) = .ok rootName

variable {root : String}

theorem search_eq {parent rootName : String} {n : Nat} (walk : ascend tree.joined n parent = some root)
    (top : tree.joined root = none) (target : (tree.inner root).isSome)
    (search : readIn s.whole.answer (compositePodGroupRootName ns maxCompositePodGroupTreeDepth "" parent) = .ok rootName) :
    rootName = root ∧ rootName ≠ "" ∧ ∃ g, tree.find root = some g ∧ validateCompositePodGroup g = .ok () := by
  rcases compositePodGroupRootName_ok (h := tree) search with ⟨-, outside⟩ | ⟨m, g, walk', top', inner, valid⟩
  · have inside := inner_of_ascend walk target
    rw [outside] at inside
    cases inside
  · obtain rfl := top_unique walk' walk top' top
    refine ⟨rfl, ?_, g, (inner_eq_some.mp inner).1, valid⟩
    rintro rfl
    rw [inner_empty] at inner
    cases inner

variable {pod : Pod} {leaf : PodGroup}

theorem groupRoot_leaf (type : TypeMeta) (serves : Serves tree) (here : pod.ns = ns)
    (listed : leaf ∈ tree.leaves) (named : podGroupName pod = some leaf.objectMeta.name)
    (below : Below tree leaf root) {found : Option PartialObjectMetadata} {pg : Option PodGroup} :
    readIn s.whole.answer (groupRoot (some type) pod) = .ok (found, pg) ↔
      Accepted s ns leaf ∧ found = some ⟨compositePodGroupV1Alpha3, pod.ns, root, "", []⟩ ∧ pg = some leaf := by
  obtain ⟨parent, n, above, walk, top, target⟩ := below
  unfold groupRoot
  rw [named]
  rw [builtInRoot_ok_iff (by rw [here]; exact serves.leaf leaf listed), above, here]
  constructor
  · rintro ⟨valid, rfl, rootName, search, rfl⟩
    obtain ⟨rfl, nonempty, -⟩ := search_eq walk top target search
    rw [if_neg nonempty]
    refine ⟨⟨valid, fun other same => ?_⟩, rfl, rfl⟩
    obtain rfl := some.inj (above.symm.trans same)
    exact ⟨rootName, search⟩
  · rintro ⟨⟨valid, searches⟩, rfl, rfl⟩
    obtain ⟨rootName, search⟩ := searches parent above
    obtain ⟨rfl, nonempty, -⟩ := search_eq walk top target search
    exact ⟨valid, rfl, rootName, search, by rw [if_neg nonempty]⟩

theorem contributes (api : WorkloadAPI) (inside : pod ∈ s.cluster.pods) (here : pod.ns = ns)
    (running : isPodTerminal pod = false) (named : podGroupName pod = some leaf.objectMeta.name)
    (below : Below tree leaf root) : ∃ c, tree.component api false root leaf = some c := by
  obtain ⟨parent, n, above, walk, -, target⟩ := below
  have populated : podsOf s.whole ns false leaf.objectMeta.name ≠ [] :=
    ne_nil_of_mem (mem_podsOf.mpr ⟨inside, here, (podGroupName_eq_some.mp named).1, .inr running⟩)
  exact (contributes_iff api above populated).mpr ((belongs_iff target).mpr ⟨n, walk⟩)

theorem one_lt_length {α : Type} {l : List α} {a b : α} (inside : a ∈ l) (inside' : b ∈ l) (differ : a ≠ b) :
    1 < l.length := by
  match l with
  | [] => cases inside
  | [c] => exact absurd ((mem_singleton.mp inside).trans (mem_singleton.mp inside').symm) differ
  | _ :: _ :: _ => simp

theorem follows_composite {leaf' : PodGroup} (serves : Serves tree) (here : p.ns = ns) (here' : q.ns = ns)
    (inside : p ∈ s.cluster.pods) (inside' : q ∈ s.cluster.pods) (running : isPodTerminal p = false)
    (running' : isPodTerminal q = false) (listed : leaf ∈ tree.leaves) (listed' : leaf' ∈ tree.leaves)
    (named : podGroupName p = some leaf.objectMeta.name)
    (named' : podGroupName q = some leaf'.objectMeta.name) (below : Below tree leaf root)
    (below' : Below tree leaf' root) (accepted : Accepted s ns leaf → Accepted s ns leaf') :
    Follows s api p q := by
  intro found pg resolved
  obtain ⟨support, group, target, read, grouped, owned, fetched, rfl⟩ := workloadRoot_ok_iff.mp resolved
  obtain ⟨type, rfl⟩ := isSome_iff_exists.mp (validatePodGroupSupport_ok_iff.mp support (by rw [named]; rfl))
  obtain ⟨fit, rfl, rfl⟩ := (groupRoot_leaf type serves here listed named below).mp grouped
  obtain rfl := Except.ok.inj owned
  have support' : validatePodGroupSupport (some type) q = .ok () := validatePodGroupSupport_ok_iff.mpr fun _ => rfl
  have grouped' := (groupRoot_leaf type serves here' listed' named' below').mpr ⟨accepted fit, rfl, rfl⟩
  rw [here] at fetched
  obtain ⟨rootHere, rootNamed⟩ := serves.object _ _ fetched
  refine ⟨some leaf', workloadRoot_ok_iff.mpr ⟨support', _, _, read, grouped', rfl, ?_, rfl⟩, rfl, ?_⟩
  · dsimp only
    rw [here']
    exact fetched
  · intro components collected
    by_cases same : leaf = leaf'
    · rw [same]
    · -- Two leaves have Pods, so that there are two components.
      obtain ⟨parent, n, above, walk, top, target⟩ := below
      obtain ⟨rootName, search⟩ := fit.2 parent above
      obtain ⟨rfl, -, g, there, valid⟩ := search_eq walk top target search
      have collect : readIn s.whole.answer (fromCompositePodGroup (some type) false
            { read with typeMeta := compositePodGroupV1Alpha3 }) =
          .ok (tree.leaves.filterMap (tree.component (some type) false read.name)) :=
        fromCompositePodGroup_eq rootHere (by rw [rootNamed]; exact there) valid
      obtain rfl := Except.ok.inj (collected.symm.trans collect)
      obtain ⟨c, own⟩ := contributes (some type) inside here running named ⟨parent, n, above, walk, top, target⟩
      obtain ⟨c', own'⟩ := contributes (some type) inside' here' running' named' below'
      have several : 1 < (tree.leaves.filterMap (tree.component (some type) false read.name)).length := by
        rw [rootNamed]
        refine one_lt_length (mem_filterMap.mpr ⟨leaf, listed, own⟩) (mem_filterMap.mpr ⟨leaf', listed', own'⟩) ?_
        rintro rfl
        exact same (leaf_eq_of_name listed listed' ((component_data own).1.symm.trans (component_data own').1))
      simp only [map_some, looksUpController, decide_eq_true several, Bool.or_true]

end

/-- Two Pods that belong to one allocation, and whose own requests the same decisions are made for. -/
inductive Siblings (s : Snapshot) (api : WorkloadAPI) (p q : Pod) : Prop
  | gang {name : String} {group : PodGroup} (named : podGroupName p = some name) (named' : podGroupName q = some name)
      (there : s.cluster.answer (.podGroup p.ns name) = .ok group) (gang : group.gangMinCount.isSome)
  /-- The label decides only for Pods without a built-in PodGroup. -/
  | coscheduling {name : String} {group : CoschedulingPodGroup} (labelled : p.label coschedulingPodGroupLabel = name)
      (labelled' : q.label coschedulingPodGroupLabel = name) (nonempty : name ≠ "")
      (there : s.cluster.answer (.coschedulingPodGroup p.ns name) = .ok group)
      (alone : podGroupName p = none) (alone' : podGroupName q = none)
  /-- Both leaves are accepted, or neither is. -/
  | composite {ns : String} (tree : Hierarchy s.whole ns) (serves : Serves tree) (here : p.ns = ns) {leaf leaf' : PodGroup}
      {root : String} (inside : p ∈ s.cluster.pods) (inside' : q ∈ s.cluster.pods)
      (listed : leaf ∈ tree.leaves) (listed' : leaf' ∈ tree.leaves) (named : podGroupName p = some leaf.objectMeta.name)
      (named' : podGroupName q = some leaf'.objectMeta.name) (below : Below tree leaf root) (below' : Below tree leaf' root)
      (accepted : Accepted s ns leaf ↔ Accepted s ns leaf')
  /-- The owners of both lead to one LeaderWorkerSet, or fail for both, and both or neither of them have a basic
  PodGroup. -/
  | lws {pg pg' : Option PodGroup} (support : validatePodGroupSupport api p = .ok ())
      (support' : validatePodGroupSupport api q = .ok ())
      (owned : readIn s.whole.answer (groupRoot api p) = .ok (none, pg))
      (owned' : readIn s.whole.answer (groupRoot api q) = .ok (none, pg')) (sources : pg.isSome = pg'.isSome)
      (owners : Agree (readIn s.whole.answer (getRootOwnerMetadata p)) (readIn s.whole.answer (getRootOwnerMetadata q)))
      (kind : ∀ root, readIn s.whole.answer (getRootOwnerMetadata p) = .ok root → root.typeMeta = lwsV1)
      (hash : p.label lwsGroupUniqueHashLabelKey = q.label lwsGroupUniqueHashLabelKey)
      (set : p.label lwsSetNameLabelKey = q.label lwsSetNameLabelKey)
      (index : p.label lwsGroupIndexLabelKey = q.label lwsGroupIndexLabelKey)
      (size : p.annotations.lookup lwsSizeAnnotationKey = q.annotations.lookup lwsSizeAnnotationKey)

section
variable {p q : Pod}

theorem Siblings.symm (here : p.ns = q.ns) (siblings : Siblings s api p q) : Siblings s api q p := by
  cases siblings with
  | gang named named' there gang => exact .gang named' named (here ▸ there) gang
  | coscheduling labelled labelled' nonempty there alone alone' =>
    exact .coscheduling labelled' labelled nonempty (here ▸ there) alone' alone
  | composite tree serves there inside inside' listed listed' named named' below below' accepted =>
    exact .composite tree serves (here ▸ there) inside' inside listed' listed named' named below' below accepted.symm
  | lws support support' owned owned' sources owners kind hash set index size =>
    exact .lws support' support owned' owned sources.symm owners.symm (fun root found => kind root ((owners root).mpr found))
      hash.symm set.symm index.symm size.symm

theorem basic_of_owned {pod : Pod} {pg : PodGroup} (owned : readIn s.whole.answer (groupRoot api pod) = .ok (none, some pg)) :
    pg.gangMinCount = none := by
  unfold groupRoot at owned
  split at owned
  · rename_i name type named
    cases there : s.whole.answer (.podGroup pod.ns name) with
    | error e =>
      unfold builtInRoot at owned
      obtain ⟨group, read, -⟩ := readIn_bind_eq_ok.mp owned
      cases there.symm.trans (readIn_fetch_ok.mp read)
    | ok group =>
      obtain ⟨-, same, found⟩ := (builtInRoot_ok_iff there).mp owned
      obtain rfl := some.inj same
      split at found
      · obtain ⟨_, _, found⟩ := found
        cases found
      · by_contra gang
        rw [if_pos (isSome_iff_ne_none.mpr gang)] at found
        cases found
  · unfold coschedulingRoot at owned
    obtain ⟨group, -, owned⟩ := readIn_bind_eq_ok.mp owned
    split at owned <;> cases owned

theorem Siblings.follows (builtIn : ∀ type, api = some type → isBuiltInPodGroup type = true) (here : p.ns = q.ns)
    (running : isPodTerminal p = false) (running' : isPodTerminal q = false) (siblings : Siblings s api p q) :
    Follows s api p q := by
  cases siblings with
  | gang named named' there gang => exact follows_gang builtIn here named named' there gang
  | coscheduling labelled labelled' nonempty there alone alone' =>
    exact follows_coscheduling here alone alone' labelled labelled' nonempty there
  | composite tree serves there inside inside' listed listed' named named' below below' accepted =>
    exact follows_composite serves there (here ▸ there) inside inside' running running' listed listed' named named'
      below below' accepted.mp
  | @lws pg pg' support support' owned owned' sources owners kind hash set index size =>
    refine follows_lws support' owned owned' ?_ owners kind hash set index size
    cases pg with
    | none => cases pg' with
      | none => rfl
      | some _ => cases sources
    | some g => cases pg' with
      | none => cases sources
      | some g' => simp [looksUpController, basic_of_owned owned, basic_of_owned owned']

/-- It does not matter which member of an allocation asks. -/
theorem translation_independent_of_requester (builtIn : ∀ type, api = some type → isBuiltInPodGroup type = true)
    (here : p.ns = q.ns) (running : isPodTerminal p = false) (running' : isPodTerminal q = false)
    (siblings : Siblings s api p q) : Agree (s.translate api p) (s.translate api q) :=
  agree_of_follows (siblings.follows builtIn here running running')
    ((siblings.symm here).follows builtIn here.symm running' running)

end

section

/- One namespace with leaves of a composite, one of which sets a field that Slurm cannot honor, with a replica of
a LeaderWorkerSet, one Pod of which has a basic PodGroup, and with a labelled group, one Pod of which has it too. -/

private def member (name : Segment) (group : Option String) (labels : StringMap) (owners : List OwnerReference) : Pod :=
  { Pod.waiting (.of "ns" (.refl true)) name (.of "1" (.refl true)) "slurm-bridge-scheduler" with
    schedulingGroup := group.map some
    labels := labels
    ownerReferences := owners }

private def plainPod : Pod := member (.of "a" (.refl true)) (some "plain") ∅ []

private def constrainedPod : Pod := member (.of "b" (.refl true)) (some "constrained") ∅ []

private def sparePod : Pod := member (.of "g" (.refl true)) (some "spare") ∅ []

private def replicaLabels : StringMap :=
  (((∅ : StringMap).insert lwsGroupUniqueHashLabelKey "h").insert lwsSetNameLabelKey "set").insert
    lwsGroupIndexLabelKey "0"

private def setReference : List OwnerReference := [⟨lwsV1, "set", "", true⟩]

private def leaderPod : Pod := member (.of "c" (.refl true)) (some "basic") replicaLabels setReference

private def workerPod : Pod := member (.of "d" (.refl true)) none replicaLabels setReference

private def groupLabels : StringMap := (∅ : StringMap).insert coschedulingPodGroupLabel "labelled"

private def labelledPod : Pod := member (.of "e" (.refl true)) none groupLabels []

private def doublePod : Pod := member (.of "f" (.refl true)) (some "basic") groupLabels []

private def top : CompositePodGroup := ⟨⟨compositePodGroupV1Alpha3, "ns", "top", "", []⟩, none, ⟨false, some 1⟩, "", 0⟩

private def plain : PodGroup := ⟨⟨podGroupV1Beta1, "ns", "plain", "", []⟩, some "top", none, 0, 0⟩

private def constrained : PodGroup := ⟨⟨podGroupV1Beta1, "ns", "constrained", "", []⟩, some "top", none, 1, 0⟩

private def spare : PodGroup := ⟨⟨podGroupV1Beta1, "ns", "spare", "", []⟩, some "top", none, 0, 0⟩

private def basic : PodGroup := ⟨⟨podGroupV1Beta1, "ns", "basic", "", []⟩, none, none, 0, 0⟩

private def mixedPods : List Pod := [plainPod, constrainedPod, sparePod, leaderPod, workerPod, labelledPod, doublePod]

private theorem mixedPods_distinct : (mixedPods.map Pod.namespacedName).Nodup := by decide +kernel

private def mixedCluster : Cluster where
  pods := mixedPods
  distinct := mixedPods_distinct
  others
    | .compositePodGroups _ => Except.ok [top]
    | .compositePodGroup _ name => match [top].find? fun g => g.objectMeta.name == name with
      | some group => Except.ok group
      | none => Except.error .notFound
    | .podGroups _ => Except.ok [plain, constrained, spare, basic]
    | .podGroup _ name => match [plain, constrained, spare, basic].find? fun g => g.objectMeta.name == name with
      | some group => Except.ok group
      | none => Except.error .notFound
    | .coschedulingPodGroup ns name => Except.ok ⟨⟨podGroupCoschedulingV1Alpha1, ns, name, "", []⟩, .other, 2⟩
    | .leaderWorkerSet ns name => Except.ok ⟨⟨lwsV1, ns, name, "", []⟩, some 2, false, ""⟩
    | .object typeMeta ns name => Except.ok ⟨typeMeta, ns, name, "", []⟩
    | q => q.refuse

private def mixed : Snapshot where
  cluster := mixedCluster
  parsers := ⟨fun _ => .error "", fun _ => .error ""⟩
  devices := ⟨⟨.empty, fun _ => .error .notFound⟩, fun _ => none, fun _ => ""⟩
  needs := fun _ => ⟨[], [], ∅, ∅, ∅, nodup_nil⟩
  preset := fun _ _ => .unset
  annotations := fun object =>
    if object.name = "basic" then (∅ : StringMap).insert annotationAccount "research" else ∅
  workloadName := fun _ => ""
  workload := fun _ _ => .error .notFound

private def mixedTree : Hierarchy mixed.whole "ns" where
  groups := [top]
  leaves := [plain, constrained, spare, basic]
  listsGroups := rfl
  getsGroup := fun _ => rfl
  listsLeaves := rfl
  groupNames := by decide
  named := by decide
  leafNames := by decide
  leavesHere := by decide

private theorem mixed_serves : Serves mixedTree where
  leaf := by
    simp only [mixedTree, forall_mem_cons]
    exact ⟨rfl, rfl, rfl, rfl, nofun⟩
  object := by
    intro name read found
    obtain rfl := Except.ok.inj found
    exact ⟨rfl, rfl⟩

variable {leaf : PodGroup}

private theorem below_top (above : leaf.parentCompositePodGroupName = some "top") :
    Below mixedTree leaf "top" := ⟨"top", 0, above, rfl, by decide +kernel, by decide +kernel⟩

private theorem accepted_below_top (valid : validatePodGroupSpec leaf = .ok ())
    (above : leaf.parentCompositePodGroupName = some "top") : Accepted mixed "ns" leaf := by
  refine ⟨valid, fun parent same => ⟨"top", ?_⟩⟩
  obtain rfl := some.inj (above.symm.trans same)
  decide +kernel

theorem requester_in_other_leaf :
    (mixed.translate (some podGroupV1Beta1) plainPod).map SlurmJobIR.allPods =
        .ok [plainPod, constrainedPod, sparePod] ∧
      Agree (mixed.translate (some podGroupV1Beta1) plainPod) (mixed.translate (some podGroupV1Beta1) sparePod) := by
  refine ⟨by decide +kernel, translation_independent_of_requester ?_ rfl rfl rfl ?_⟩
  · rintro _ ⟨⟩
    rfl
  · have inside : ∀ pod ∈ [plainPod, sparePod], pod ∈ mixed.cluster.pods := by decide +kernel
    have listed : ∀ leaf ∈ [plain, spare], leaf ∈ mixedTree.leaves := by decide +kernel
    exact .composite mixedTree mixed_serves rfl (inside _ (by simp)) (inside _ (by simp)) (listed plain (by simp))
      (listed spare (by simp)) rfl rfl (below_top rfl) (below_top rfl)
      (iff_of_true (accepted_below_top rfl rfl) (accepted_below_top rfl rfl))

/-- Beside a leaf that sets a field Slurm cannot honor, the Pod of another leaf translates, with the Pod whose own
request fails.  In a replica of a LeaderWorkerSet, the account depends on whether the requesting Pod has a basic
PodGroup.  A labelled Pod with a PodGroup of its own is in the labelled group of others, and alone in its own. -/
theorem requester_decides :
    (Below mixedTree plain "top" ∧ Below mixedTree constrained "top" ∧
      (mixed.translate (some podGroupV1Beta1) plainPod).map SlurmJobIR.allPods =
        .ok [plainPod, constrainedPod, sparePod] ∧
      (mixed.translate (some podGroupV1Beta1) constrainedPod).isOk = false) ∧
    (leaderPod.labels = workerPod.labels ∧ leaderPod.annotations = workerPod.annotations ∧
      (mixed.translate (some podGroupV1Beta1) leaderPod).map (fun ir => ir.components.map fun c => c.jobInfo.account) =
        .ok [some "research"] ∧
      (mixed.translate (some podGroupV1Beta1) workerPod).map (fun ir => ir.components.map fun c => c.jobInfo.account) =
        .ok [none]) ∧
    (mixed.translate (some podGroupV1Beta1) labelledPod).map SlurmJobIR.allPods = .ok [labelledPod, doublePod] ∧
      (mixed.translate (some podGroupV1Beta1) doublePod).map SlurmJobIR.allPods = .ok [doublePod] :=
  ⟨⟨below_top rfl, below_top rfl, by decide +kernel, by decide +kernel⟩,
    ⟨rfl, rfl, by decide +kernel, by decide +kernel⟩, by decide +kernel, by decide +kernel⟩

end

end SlurmBridge.JobIR.Requester
