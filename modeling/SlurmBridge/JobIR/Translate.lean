/- source: internal/utils/slurmjobir (slurmjobir.go, owner.go, workload_api.go, pod.go, job.go,
     jobset.go, podgroup.go, podgroup_coscheduling.go, composite_podgroup.go,
     leaderworkerset.go, registration.go, registration_members.go)
   digest: Resolution of a Pod's workload root, translation of the workload into its
     components, membership discovery, and the quorum test before registration. -/

import SlurmBridge.Kube.Reads

set_option autoImplicit false

namespace SlurmBridge.JobIR.Translate

open Foundation.Text Foundation.Interaction Kube.Objects Kube.Reads JobIR.IR

abbrev Read (α : Type) := ExceptT Err (Prog kubeReads) α

def fetch {α : Type} (p : ReadProg (Except KubeError α)) : Read α :=
  ExceptT.mk (p >>= fun reply => pure (reply.mapError .kube))

def podGroupV1Alpha2 : TypeMeta := ⟨"scheduling.k8s.io", "v1alpha2", "PodGroup"⟩
def podGroupV1Beta1 : TypeMeta := ⟨"scheduling.k8s.io", "v1beta1", "PodGroup"⟩
def compositePodGroupV1Alpha3 : TypeMeta := ⟨"scheduling.k8s.io", "v1alpha3", "CompositePodGroup"⟩
def podGroupCoschedulingV1Alpha1 : TypeMeta := ⟨"scheduling.x-k8s.io", "v1alpha1", "PodGroup"⟩
def jobV1 : TypeMeta := ⟨"batch", "v1", "Job"⟩
def jobSetV1Alpha2 : TypeMeta := ⟨"jobset.x-k8s.io", "v1alpha2", "JobSet"⟩
def podV1 : TypeMeta := ⟨"", "v1", "Pod"⟩
def lwsV1 : TypeMeta := ⟨"leaderworkerset.x-k8s.io", "v1", "LeaderWorkerSet"⟩

def isBuiltInPodGroup (typeMeta : TypeMeta) : Bool :=
  typeMeta == podGroupV1Alpha2 || typeMeta == podGroupV1Beta1

def isSupportedWorkload (typeMeta : TypeMeta) : Bool :=
  isBuiltInPodGroup typeMeta ||
    [jobSetV1Alpha2, podGroupCoschedulingV1Alpha1, jobV1, compositePodGroupV1Alpha3, podV1,
      lwsV1].contains typeMeta

/-- The PodGroup version served by the cluster; absent when workload support is disabled. -/
abbrev WorkloadAPI := Option TypeMeta

def podGroupName (pod : Pod) : Option String :=
  match pod.schedulingGroup with
  | some (some name) => if name = "" then none else some name
  | _ => none

def validatePodGroupSupport (api : WorkloadAPI) (pod : Pod) : Except Err Unit :=
  match podGroupName pod, api with
  | some _, none => .error (.text ("pod " ++ pod.namespacedName ++
      " uses spec.schedulingGroup but built-in Workload support is disabled; enable " ++
      "--feature-gates=GenericWorkload=true on a cluster serving a supported Workload and " ++
      "PodGroup API"))
  | _, _ => .ok ()

def validatePodGroupSpec (group : PodGroup) : Except Err Unit :=
  if group.topologyConstraints > 0 then
    .error (.text ("unsupported PodGroup field: PodGroup " ++ group.objectMeta.ns ++ "/" ++
      group.objectMeta.name ++ " sets schedulingConstraints.topology; place the group with a " ++
      "Slurm partition or constraint instead"))
  else if group.resourceClaims > 0 then
    .error (.text ("unsupported PodGroup field: PodGroup " ++ group.objectMeta.ns ++ "/" ++
      group.objectMeta.name ++ " sets resourceClaims; request devices through DeviceClass " ++
      "extended resources instead"))
  else
    .ok ()

def validateCompositePodGroup (group : CompositePodGroup) : Except Err Unit :=
  if group.priorityClassName ≠ "" then
    .error (.text ("unsupported CompositePodGroup field: CompositePodGroup " ++
      group.objectMeta.ns ++ "/" ++ group.objectMeta.name ++
      " sets unsupported field spec.priorityClassName"))
  else if group.topologyConstraints > 0 then
    .error (.text ("unsupported CompositePodGroup field: CompositePodGroup " ++
      group.objectMeta.ns ++ "/" ++ group.objectMeta.name ++
      " sets unsupported field spec.schedulingConstraints.topology"))
  else
    .ok ()

def getCompositePodGroup (ns name : String) : Read CompositePodGroup := do
  let group ← fetch (ask (.compositePodGroup ns name))
  validateCompositePodGroup group
  return group

/-- Bound on the composites between a PodGroup and its allocation root. -/
def maxCompositePodGroupTreeDepth : Nat := 4

/-- The highest composite below a basic boundary; empty when the PodGroup itself is the
allocation.  The first argument counts the composites that may still be read. -/
def compositePodGroupRootName (ns : String) : Nat → String → String → Read String
  | 0, _, name => throw (.text ("CompositePodGroup parent chain exceeds maximum depth of 4 at " ++
      ns ++ "/" ++ name))
  | budget + 1, rootName, name => do
      let group ← getCompositePodGroup ns name
      if group.schedulingPolicy.basic then
        return rootName
      else
        match group.parentCompositePodGroupName.getD "" with
        | "" => return name
        | parent => compositePodGroupRootName ns budget name parent

def getNextControllerOwner (owners : List OwnerReference) : Option OwnerReference :=
  owners.find? OwnerReference.controller

def maxControllerOwnerDepth : Nat := 32

/-- Follow controller references upwards; the first argument counts the owners that may
still be read. -/
def resolveRootOwnerMetadata : Nat → PartialObjectMetadata → Bool →
    Option PartialObjectMetadata → Read PartialObjectMetadata
  | budget, obj, controllerResolved, supportedRoot =>
    let current : PartialObjectMetadata := ⟨obj.typeMeta, obj.ns, obj.name, "", []⟩
    let supportedRoot :=
      if controllerResolved && isSupportedWorkload obj.typeMeta then some current
      else supportedRoot
    match getNextControllerOwner obj.ownerReferences with
    | none => return supportedRoot.getD current
    | some owner =>
      match budget with
      | 0 => throw (.text "controller owner chain exceeds maximum depth of 32")
      | budget + 1 => do
          match ← (ask (.object owner.typeMeta obj.ns owner.name) : ReadProg _) with
          | .ok parent =>
            resolveRootOwnerMetadata budget { parent with typeMeta := owner.typeMeta } true
              supportedRoot
          | .error .forbidden =>
            -- Only an unreadable unsupported owner above a read controller is tolerated.
            if controllerResolved && !isSupportedWorkload owner.typeMeta then
              return supportedRoot.getD current
            else
              throw (.kube .forbidden)
          | .error e => throw (.kube e)

def getRootOwnerMetadata (pod : Pod) : Read PartialObjectMetadata :=
  resolveRootOwnerMetadata maxControllerOwnerDepth
    ⟨podV1, pod.ns, pod.name, pod.uid, pod.ownerReferences⟩ false none

def getPodGroupCoscheduling (pod : Pod) : ReadProg (Option CoschedulingPodGroup) :=
  let name := pod.label coschedulingPodGroupLabel
  if name = "" then
    return none
  else do
    match ← ask (.coschedulingPodGroup pod.ns name) with
    | .ok group => return some group
    | .error _ => return none

/-- The group that is the root of a built-in PodGroup's member: the composite above the PodGroup, or
a gang itself.  A basic PodGroup leaves membership to the owner, but supplies annotations. -/
def builtInRoot (podGroupType : TypeMeta) (pod : Pod) (groupName : String) :
    Read (Option PartialObjectMetadata × Option PodGroup) := do
  let group ← fetch (ask (.podGroup pod.ns groupName))
  validatePodGroupSpec group
  let own : PartialObjectMetadata := ⟨podGroupType, pod.ns, groupName, "", []⟩
  match group.parentCompositePodGroupName with
  | some parent => do
      let rootName ← compositePodGroupRootName pod.ns maxCompositePodGroupTreeDepth "" parent
      return (some (if rootName = "" then own
        else { own with typeMeta := compositePodGroupV1Alpha3, name := rootName }), some group)
  | none => return (if group.gangMinCount.isSome then some own else none, some group)

/-- A scheduler-plugins PodGroup is associated with its members by a label. -/
def coschedulingRoot (pod : Pod) : Read (Option PartialObjectMetadata × Option PodGroup) := do
  match ← (getPodGroupCoscheduling pod : ReadProg _) with
  | some group =>
    return (some ⟨podGroupCoschedulingV1Alpha1, pod.ns, group.objectMeta.name, "", []⟩, none)
  | none => return (none, none)

/-- The group that replaces the controller of a Pod as its root, if there is one, and the Pod's own
built-in PodGroup. -/
def groupRoot (api : WorkloadAPI) (pod : Pod) : Read (Option PartialObjectMetadata × Option PodGroup) :=
  match podGroupName pod, api with
  | some groupName, some podGroupType => builtInRoot podGroupType pod groupName
  | _, _ => coschedulingRoot pod

def rootOrOwner (pod : Pod) : Option PartialObjectMetadata → Read PartialObjectMetadata
  | some root => return root
  | none => getRootOwnerMetadata pod

def workloadRoot (api : WorkloadAPI) (pod : Pod) :
    Read (PartialObjectMetadata × Option PodGroup) := do
  validatePodGroupSupport api pod
  let (group, pg) ← groupRoot api pod
  let root ← rootOrOwner pod group
  let read ← fetch (ask (.object root.typeMeta root.ns root.name))
  return ({ read with typeMeta := root.typeMeta }, pg)

/-- The root object alone, as events are routed by it. -/
def workloadRootForPod (api : WorkloadAPI) (pod : Pod) : Read PartialObjectMetadata := do
  let (root, _) ← workloadRoot api pod
  return root

/-- Members of a PodGroup.  Membership discovery keeps terminal Pods, translation drops them. -/
def podsForPodGroup (includeTerminalPods : Bool) (ns group : String) : Read (List Pod) := do
  let pods ← fetch (ask (.podGroupMembers ns group))
  return if includeTerminalPods then pods else pods.filter (fun p => !isPodTerminal p)

def fromPodGroup (includeTerminalPods : Bool) (ns group : String)
    (root : PartialObjectMetadata) : Read (List SlurmJobComponent) := do
  let pods ← podsForPodGroup includeTerminalPods ns group
  if pods = [] then
    throw .podGroupNoPods
  else
    let n : Int := pods.length
    let info : SlurmJobIRJobInfo :=
      { jobName := some root.name, minNodes := some n, maxNodes := some n, tasksPerNode := some 1 }
    return [⟨root, info, pods⟩]

/-- Whether the chain of parents reaches the target below every basic composite.  The first
argument bounds the chain by the number of composites. -/
def traverseParentChain (groups : List CompositePodGroup) (target : String) : Nat → String → Bool
  | 0, _ => false
  | budget + 1, parent =>
    match groups.find? (fun g => g.objectMeta.name == parent) with
    | none => false
    | some group =>
      if group.schedulingPolicy.basic then
        false
      else
        let next := group.parentCompositePodGroupName.getD ""
        if next = target then true
        else if next = "" then false
        else traverseParentChain groups target budget next

/-- The component of a leaf that lies below the composite and has Pods. -/
def compositeLeaf (api : WorkloadAPI) (includeTerminalPods : Bool) (root : PartialObjectMetadata)
    (groups : List CompositePodGroup) (components : List SlurmJobComponent) (leaf : PodGroup) :
    Read (List SlurmJobComponent) :=
  match leaf.parentCompositePodGroupName with
  | none => return components
  | some parent =>
    if parent ≠ root.name ∧ traverseParentChain groups root.name groups.length parent = false then
      return components
    else do
      let pods ← podsForPodGroup includeTerminalPods leaf.objectMeta.ns leaf.objectMeta.name
      match pods with
      | [] => return components
      | first :: _ => do
          let leafRoot := { leaf.objectMeta with typeMeta := api.getD leaf.objectMeta.typeMeta }
          let added ← fromPodGroup includeTerminalPods first.ns
            ((first.schedulingGroup.bind id).getD "") leafRoot
          return components ++ added

def fromCompositePodGroup (api : WorkloadAPI) (includeTerminalPods : Bool)
    (root : PartialObjectMetadata) : Read (List SlurmJobComponent) := do
  let _ ← getCompositePodGroup root.ns root.name
  let groups ← fetch (ask (.compositePodGroups root.ns))
  let leaves ← fetch (ask (.podGroups root.ns))
  leaves.foldlM (compositeLeaf api includeTerminalPods root groups) []

def fromPod (pod : Pod) : List SlurmJobComponent :=
  [⟨⟨⟨"", "", ""⟩, pod.ns, pod.name, "", []⟩,
    { tasksPerNode := some 1, maxNodes := some 1 }, [pod]⟩]

def fromJob (pod : Pod) (root : PartialObjectMetadata) : Read (List SlurmJobComponent) := do
  let _ ← fetch (ask (.job root.ns root.name))
  return [⟨root, { minNodes := some 1 }, [pod]⟩]

def fromJobSet (pod : Pod) (root : PartialObjectMetadata) : Read (List SlurmJobComponent) := do
  let _ ← fetch (ask (.jobSet root.ns root.name))
  fromJob pod ⟨jobV1, root.ns, pod.label "job-name", "", []⟩

def fromPodGroupCoscheduling (group : String) (root : PartialObjectMetadata) :
    Read (List SlurmJobComponent) := do
  let podGroup ← fetch (ask (.coschedulingPodGroup root.ns root.name))
  let pods ← fetch (ask (.podsWithLabel (some root.ns) coschedulingPodGroupLabel group))
  let info : SlurmJobIRJobInfo :=
    { minNodes := if podGroup.minMember > 0 then some podGroup.minMember else none
      maxNodes := some pods.length
      tasksPerNode := some 1 }
  return [⟨.empty, info, pods⟩]

/-- A replica keeps its own size while revisions of the set coexist. -/
def lwsGroupSize (annotations : StringMap) (lws : LeaderWorkerSet) : Except Err Int :=
  match annotations.lookup lwsSizeAnnotationKey with
  | none => .ok (lws.size.getD 1)
  | some value =>
    match parseInt32 value with
    | some size => if size < 1 then .error (.text ("invalid LWS group size " ++ value.quote))
        else .ok size
    | none => .error (.text ("invalid LWS group size " ++ value.quote))

def fromLws (labels annotations : StringMap) (root : PartialObjectMetadata) :
    Read (List SlurmJobComponent) := do
  let lws ← fetch (ask (.leaderWorkerSet root.ns root.name))
  let size ← lwsGroupSize annotations lws
  let pods ← fetch (ask (.podsWithLabel (some root.ns) lwsGroupUniqueHashLabelKey
    (StringMap.at labels lwsGroupUniqueHashLabelKey)))
  if pods = [] then
    throw .lwsNoPods
  else
    let jobName :=
      StringMap.at labels lwsSetNameLabelKey ++ "-" ++ StringMap.at labels lwsGroupIndexLabelKey
    let info : SlurmJobIRJobInfo :=
      { jobName := some jobName, minNodes := some size, maxNodes := some size
        tasksPerNode := some 1 }
    return [⟨root, info, pods⟩]

def componentsFor (api : WorkloadAPI) (pod : Pod) (root : PartialObjectMetadata) :
    Read (List SlurmJobComponent) :=
  if isBuiltInPodGroup root.typeMeta then
    fromPodGroup false pod.ns ((pod.schedulingGroup.bind id).getD "") root
  else if root.typeMeta = jobSetV1Alpha2 then
    fromJobSet pod root
  else if root.typeMeta = podGroupCoschedulingV1Alpha1 then
    fromPodGroupCoscheduling (pod.label coschedulingPodGroupLabel) root
  else if root.typeMeta = jobV1 then
    fromJob pod root
  else if root.typeMeta = compositePodGroupV1Alpha3 then
    fromCompositePodGroup api false root
  else if root.typeMeta = lwsV1 then
    fromLws pod.labels pod.annotations root
  else
    pure (fromPod pod)

def maxComponents : Nat := 128

def withSettings (infos : List SlurmJobIRJobInfo) (components : List SlurmJobComponent) :
    List SlurmJobComponent :=
  components.mapIdx fun i component =>
    { component with jobInfo := infos.getD i component.jobInfo }

theorem pods_withSettings (infos : List SlurmJobIRJobInfo) (components : List SlurmJobComponent) :
    (withSettings infos components).map SlurmJobComponent.pods = components.map SlurmJobComponent.pods := by
  apply List.ext_getElem <;> simp [withSettings]

def translateToSlurmJobIR (api : WorkloadAPI) (pod : Pod) : Read SlurmJobIR := do
  let (root, pg) ← workloadRoot api pod
  let components ← componentsFor api pod root
  if components.length > maxComponents then
    throw (.text "slurmjobir has too many components. Max is 128")
  else do
    let infos ← ExceptT.mk (ask (.settings pg ⟨root, components⟩) : ReadProg _)
    return ⟨root, withSettings infos components⟩

/-- The components of an allocation, terminal members included, from its root object. -/
def registrationComponents (api : WorkloadAPI) (root : PartialObjectMetadata)
    (replicaHash : String) : Read (List SlurmJobComponent) :=
  if isBuiltInPodGroup root.typeMeta then
    fromPodGroup true root.ns root.name root
  else if root.typeMeta = compositePodGroupV1Alpha3 then
    fromCompositePodGroup api true root
  else if root.typeMeta = podGroupCoschedulingV1Alpha1 then
    fromPodGroupCoscheduling root.name root
  else if root.typeMeta = lwsV1 then
    fromLws ((∅ : StringMap).insert lwsGroupUniqueHashLabelKey replicaHash) ∅ root
  else
    throw (.text ("unsupported registration root " ++ root.typeMeta.kind))

def registrationMembers (api : WorkloadAPI) (root : PartialObjectMetadata)
    (replicaHash : String) : Read (List Pod) := do
  let components ← registrationComponents api root replicaHash
  return components.flatMap SlurmJobComponent.pods

inductive Readiness
  | ready
  | waiting (message : String)
  deriving DecidableEq, Repr

/-- Count members rather than labels; a labelled Pod's siblings are labelled one at a time. -/
def gangQuorum (pod : Pod) (pods : List Pod) (minCount : Int) : Readiness :=
  if pod.label labelExternalJobId ≠ "" then
    if (pods.length : Int) < minCount then
      .waiting "not enough pending pods for created external job"
    else
      .ready
  else
    let unclaimed := (pods.filter fun p => p.label labelExternalJobId == "").length
    if (unclaimed : Int) < minCount then
      .waiting "not enough pending pods to create external job"
    else
      .ready

def preFilterPodGroup (pod : Pod) (ir : SlurmJobIR) : Read Readiness := do
  match ← (ask (.podGroup ir.rootPOM.ns ir.rootPOM.name) : ReadProg _) with
  | .error _ => throw (.text "could not get podgroup")
  | .ok group =>
    match group.gangMinCount with
    | none => return .ready
    | some minCount =>
      if minCount ≤ (ir.allPods.length : Int) then return .ready
      else return gangQuorum pod ir.allPods minCount

def preFilterPodGroupCoscheduling (pod : Pod) (ir : SlurmJobIR) : Read Readiness := do
  match ← (ask (.coschedulingPodGroup ir.rootPOM.ns ir.rootPOM.name) : ReadProg _) with
  | .error _ => throw (.text "could not get podgroup-coscheduling")
  | .ok group =>
    match group.phase with
    | .running => return .waiting "PodGroup coscheduling status is Running"
    | .unknown => return .waiting "PodGroup coscheduling status is Unknown"
    | .failed => return .waiting "PodGroup coscheduling status is Failed"
    | .finished => return .waiting "PodGroup coscheduling status is Finished"
    | .other => return gangQuorum pod ir.allPods group.minMember

def validateLWSPolicies (lws : LeaderWorkerSet) : Except String Unit :=
  if lws.size.getD 1 > 1 ∧ lws.leaderReadyStartup then
    .error "LeaderReady startup policy is incompatible with LWS gang scheduling; use LeaderCreated"
  else if lws.restartPolicy ≠ "" ∧ lws.restartPolicy ≠ "RecreateGroupOnPodRestart" then
    .error ("LeaderWorkerSet restartPolicy " ++ lws.restartPolicy.quote ++
      " is unsupported by Slurm-bridge; use RecreateGroupOnPodRestart")
  else
    .ok ()

def preFilterLWS (pod : Pod) (ir : SlurmJobIR) : Read Readiness := do
  match ← (ask (.leaderWorkerSet ir.rootPOM.ns ir.rootPOM.name) : ReadProg _) with
  | .error _ => throw (.text "could not get leaderworkerset")
  | .ok lws =>
    match validateLWSPolicies lws with
    | .error message => return .waiting message
    | .ok () => do
        let size ← lwsGroupSize pod.annotations lws
        if (ir.allPods.length : Int) < size then
          if pod.label labelExternalJobId = "" then
            return .waiting "not enough pending pods to create external job"
          else
            return .waiting "not enough pending pods for created external job"
        return .ready

/-- Whether enough children of a composite are ready.  The first argument counts the levels
that may still be entered. -/
def compositeReady (ir : SlurmJobIR) (ns : String) (groups : List CompositePodGroup)
    (leaves : List PodGroup) : Nat → String → Read (Int × Int)
  | 0, _ => throw (.text "CompositePodGroup hierarchy exceeds maximum depth")
  | budget + 1, name => do
      let group ← getCompositePodGroup ns name
      let children ← groups.foldlM (fun (children : Int) child => do
        if child.parentCompositePodGroupName.getD "" ≠ name then
          return children
        let (have_, need) ← compositeReady ir ns groups leaves budget child.objectMeta.name
        return if need ≤ have_ then children + 1 else children) 0
      -- Leaves below a basic boundary are separate allocations, counted from a fresh list.
      let translated := name == ir.rootPOM.name || traverseParentChain groups ir.rootPOM.name groups.length name
      let children ← leaves.foldlM (fun (children : Int) leaf => do
        if leaf.parentCompositePodGroupName.getD "" ≠ name then
          return children
        validatePodGroupSpec leaf
        let pods ←
          if translated then
            pure ((ir.components.filter fun c => c.objectMeta.name == leaf.objectMeta.name).flatMap
              SlurmJobComponent.pods)
          else
            podsForPodGroup false leaf.objectMeta.ns leaf.objectMeta.name
        let count := (pods.filter fun p => !p.deleting && !isPodTerminal p).length
        return if leaf.gangMinCount.getD 1 ≤ (count : Int) then children + 1 else children) children
      return (children, group.schedulingPolicy.gangMinGroupCount.getD 1)

def registrationReady (pod : Pod) (ir : SlurmJobIR) : Read Readiness := do
  match ir.validate with
  | .error text => throw (.text text)
  | .ok () =>
    if ir.rootPOM.typeMeta ≠ compositePodGroupV1Alpha3 then
      if isBuiltInPodGroup ir.rootPOM.typeMeta then
        preFilterPodGroup pod ir
      else if ir.rootPOM.typeMeta = podGroupCoschedulingV1Alpha1 then
        preFilterPodGroupCoscheduling pod ir
      else if ir.rootPOM.typeMeta = lwsV1 then
        preFilterLWS pod ir
      else
        return .ready
    else do
      let groups ← fetch (ask (.compositePodGroups pod.ns))
      let leaves ← fetch (ask (.podGroups pod.ns))
      let (children, minGroupCount) ←
        compositeReady ir pod.ns groups leaves maxCompositePodGroupTreeDepth ir.rootPOM.name
      if minGroupCount ≤ children then
        return .ready
      else
        return .waiting ("CompositePodGroup " ++ pod.ns.text ++ "/" ++ ir.rootPOM.name ++ " has " ++
          toString children ++ " ready child groups; requires " ++ toString minGroupCount)

end SlurmBridge.JobIR.Translate
