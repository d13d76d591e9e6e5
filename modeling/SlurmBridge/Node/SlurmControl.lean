/- source: internal/controller/node/slurmcontrol/slurmcontrol.go, internal/utils/structutils/list.go
   digest: The surroundings of the node controller, and its operations on Slurm nodes:
     draining, registration, recording of inventories and removal. -/

import SlurmBridge.Node.Configuration
import SlurmBridge.Registration.Interface

set_option autoImplicit false

namespace SlurmBridge.Node.SlurmControl

open Foundation.Interaction Foundation.Text Dra.IndexedGRES Inventory.Devices Inventory.Topology
open Inventory.Fingerprint Node.Configuration
open Kube.Objects (StringMap)
open Kube.Reads (KubeError)
open Registration.Interface (SlurmError)

/-- Whether a node is read from the cache, after refreshing the cache, or past it. -/
inductive ReadMode
  | cached | refresh | live
  deriving DecidableEq, Repr

inductive StateUpdate
  | drain | undrain
  deriving DecidableEq, Repr

/-- The fields of a node update that the bridge sets. -/
structure UpdateNodeMsg where
  state : Option StateUpdate := none
  reason : Option String := none
  extra : Option Extra := none
  features : Option (List String) := none
  featuresAct : Option (List String) := none
  topologyStr : Option String := none
  deriving DecidableEq

/-- The configuration of a new external node. -/
structure NodeConf where
  nodeName : String
  sockets : Int
  coresPerSocket : Int
  threadsPerCore : Int
  cpus : Int
  realMemory : Int
  nodeAddr : Option String
  feature : String
  topology : Option String
  gres : String
  gresConf : String
  deriving DecidableEq

/-- The GRES inventory of a node.  No device is listed twice. -/
structure NodeInventory where
  gres : List GRESInventory
  nodup : (gres.flatMap (·.devices)).Nodup

inductive Command
  | getNode (mode : ReadMode) (name : String)
  | updateNode (name : String) (msg : UpdateNodeMsg)
  | createNode (conf : NodeConf)
  | deleteNode (name : String)
  | getPartition (name : String)
  /-- A Kubernetes node from the cache. -/
  | readNode (name : String)
  /-- The names of the Kubernetes nodes with a Slurm name. -/
  | nodesBySlurmName (slurmName : String)
  | patchTaints (node : KubeNode) (taints : List Taint)
  | patchConditions (node : KubeNode) (conditions : List NodeCondition)
  | resourceSlices (nodeName : String)
  /-- Match the devices of a node with the registered profiles. -/
  | nodeInventory (node : KubeNode) (slices : List ResourceSlice)
  | push (key : String) (seconds : Nat)
  | pop (key : String)

@[reducible] def Command.Reply : Command → Type
  | .getNode _ _ => Except SlurmError SlurmNode
  | .updateNode _ _ => Except SlurmError Unit
  | .createNode _ => Except SlurmError Unit
  | .deleteNode _ => Except SlurmError Unit
  | .getPartition _ => Except SlurmError Unit
  | .readNode name => Except KubeError (NodeNamed name)
  | .nodesBySlurmName _ => Except KubeError (List String)
  | .patchTaints _ _ => Except KubeError Unit
  | .patchConditions _ _ => Except KubeError Unit
  | .resourceSlices _ => Except KubeError (List ResourceSlice)
  | .nodeInventory _ _ => Except String NodeInventory
  | .push _ _ => Unit
  | .pop _ => Nat

abbrev surroundings : Interface := ⟨Command, Command.Reply⟩

abbrev Ctl := Prog surroundings

def perform (c : Command) : Ctl c.Reply := Prog.call (I := surroundings) c

/-- Errors of the node controller, with what they wrap and join. -/
inductive Failure
  | slurm (err : SlurmError)
  | kube (err : KubeError)
  | config (err : ConfigError)
  | wrapped (message : String) (err : Failure)
  | joined (first second : Failure)
  deriving DecidableEq

def Failure.text (message : String) : Failure := .config (.text message)

def Failure.isIncompatibleGRES : Failure → Bool
  | .slurm _ | .kube _ | .config (.text _) => false
  | .config (.incompatibleGRES _) => true
  | .wrapped _ err => err.isIncompatibleGRES
  | .joined first second => first.isIncompatibleGRES || second.isIncompatibleGRES

abbrev Action := ExceptT Failure Ctl

def wrapping {ε α : Type} (wrap : ε → Failure) (p : Ctl (Except ε α)) : Action α :=
  ExceptT.mk (Except.mapError wrap <$> p)

def checking {ε α : Type} (wrap : ε → Failure) (x : Except ε α) : Action α :=
  ExceptT.mk (pure (x.mapError wrap))

def failWith {α : Type} (err : Failure) (cleanup : Action Unit) : Action α :=
  ExceptT.mk do
    match ← cleanup.run with
    | .ok () => return .error err
    | .error err' => return .error (.joined err err')

def unlessMissing {α : Type} : Except SlurmError α → Except SlurmError (Option α)
  | .ok a => .ok (some a)
  | .error .notFound => .ok none
  | .error err => .error err

def getNode (mode : ReadMode) (name : String) : Action SlurmNode :=
  wrapping .slurm (perform (.getNode mode name))

def findNode (mode : ReadMode) (name : String) : Action (Option SlurmNode) :=
  wrapping .slurm (unlessMissing <$> (perform (.getNode mode name) : Ctl (Except SlurmError SlurmNode)))

def updateIfPresent (name : String) (msg : UpdateNodeMsg) (wrap : SlurmError → Failure) : Action Unit := do
  let _ ← wrapping wrap (unlessMissing <$> (perform (.updateNode name msg) : Ctl (Except SlurmError Unit)))
  return ()

def nodeExists (node : KubeNode) : Action Bool := do
  return (← findNode .cached (getSlurmNodeName node)).isSome

def nodeReasonPrefix : String := "slurm-bridge:"

/-- A change of the drain state, with a reason that names the bridge. -/
def stateMsg (state : StateUpdate) (reason : String) : UpdateNodeMsg :=
  { state := some state, reason := some (nodeReasonPrefix ++ " " ++ reason) }

def makeNodeDrain (node : KubeNode) (reason : String) : Action Unit := do
  match ← findNode .cached (getSlurmNodeName node) with
  | none => return ()
  | some slurmNode =>
    if .drain ∈ slurmNode.state then return ()
    else updateIfPresent slurmNode.name (stateMsg .drain reason) .slurm

def containsText (text part : String) : Bool := decide (part.toList <:+: text.toList)

/-- An undrain is skipped if the node is not drained, or somebody else drained it. -/
def shouldSkipUndrain (slurmNode : SlurmNode) : Bool :=
  !slurmNode.isDrain || (slurmNode.reason != "" && !containsText slurmNode.reason nodeReasonPrefix)

def makeNodeUndrain (node : KubeNode) (reason : String) : Action Unit := do
  match ← findNode .cached (getSlurmNodeName node) with
  | none => return ()
  | some cached =>
    if shouldSkipUndrain cached then return ()
    else
      -- The cache may only skip an undrain.
      match ← findNode .live (getSlurmNodeName node) with
      | none => return ()
      | some slurmNode =>
        if shouldSkipUndrain slurmNode then return ()
        else updateIfPresent slurmNode.name (stateMsg .undrain reason) .slurm

def isNodeDrained (node : KubeNode) : Action Bool := do
  let slurmNode ← getNode .refresh (getSlurmNodeName node)
  return slurmNode.isDrain && !slurmNode.isBusy

def isNodeExternal (node : KubeNode) : Action Bool := do
  return (← findNode .cached (getSlurmNodeName node)).any (·.isExternal)

def updateFeatureList (current : List String) (feature : String) (present : Bool) : List String :=
  current.filter (· ≠ feature) ++ if present then [feature] else []

def featuresEqual (current desired : List String) : Bool :=
  current.insertionSort (· ≤ ·) = desired.insertionSort (· ≤ ·)

def slurmFeatureGRESCompatible : String := "slurm_bridge_gres_compatible"

def updateFeatures (slurmNode : SlurmNode) (changed : Bool) (msg : UpdateNodeMsg) (message : String) :
    Action Unit :=
  if changed then
    wrapping (fun err => .wrapped message (.slurm err)) (perform (.updateNode slurmNode.name msg))
  else return ()

/-- Add or remove only the feature that the bridge owns.  An active feature is removed before
the available one. -/
def updateGRESCompatibilityFeature (slurmNode : SlurmNode) (compatible : Bool) : Action Unit :=
  let available := updateFeatureList slurmNode.features slurmFeatureGRESCompatible compatible
  let active := updateFeatureList slurmNode.activeFeatures slurmFeatureGRESCompatible compatible
  let updateAvailable := updateFeatures slurmNode (!featuresEqual slurmNode.features available)
    { features := some available } "could not update node available GRES compatibility feature"
  let updateActive := updateFeatures slurmNode (!featuresEqual slurmNode.activeFeatures active)
    { featuresAct := some active } "could not update node active GRES compatibility feature"
  if compatible then do
    updateAvailable
    updateActive
  else do
    updateActive
    updateAvailable

/-- Record the inventory.  A value that the bridge does not own is kept unless there is
something to record. -/
def updateNodeExtra (slurmNode : SlurmNode) (desired : Extra) : Action Unit :=
  if slurmNode.extra = desired ∨ desired = .empty ∧ slurmNode.extra.isOwned = false then return ()
  else if inUse slurmNode.extra then throw (.text (extraInUse slurmNode))
  else updateIfPresent slurmNode.name { extra := some desired } fun err =>
    .wrapped ("could not record applied DRA inventory on Slurm node " ++ slurmNode.name.quote) (.slurm err)

def splitAnnotationList (value : String) : List String :=
  if value = "" then [] else ((split ',' value).map trimSpace).filter (· ≠ "")

/-- Trimmed, non-empty, without duplicates, sorted. -/
def sortedDedup (l : List String) : List String :=
  (((l.map trimSpace).filter (· ≠ "")).dedup).insertionSort (· ≤ ·)

def annotationExternalNodePartitions : String := "scheduler.slinky.slurm.net/external-node-partitions"
def annotationNodeTopologySpec : String := "topology.slinky.slurm.net/spec"
def annotationNodeFeaturesSpec : String := "features.slinky.slurm.net/spec"

def validatePartitionExists (partition : String) : Action Unit :=
  wrapping (fun err => .wrapped ("could not validate partition " ++ partition.quote)
    (if err = .notFound then .text "partition not found" else .slurm err))
    (perform (.getPartition partition))

def desiredNodeFeatures (annotations : StringMap) : Action (List String) := do
  let partitionFeatures := splitAnnotationList (annotations.at annotationExternalNodePartitions)
  partitionFeatures.forM validatePartitionExists
  let specFeatures := splitAnnotationList (annotations.at annotationNodeFeaturesSpec)
  return sortedDedup (partitionFeatures ++ specFeatures)

/-- The available and active features follow the annotations. -/
def updateNodeFeatures (node : KubeNode) (slurmNode : SlurmNode) : Action Unit := do
  let partitions := splitAnnotationList (node.annotations.at annotationExternalNodePartitions)
  let desired := sortedDedup ((← desiredNodeFeatures node.annotations) ++ [slurmFeatureGRESCompatible])
  let inSync := decide (desired.toFinset = slurmNode.features.toFinset) &&
    decide (desired.toFinset = slurmNode.activeFeatures.toFinset)
  let partitionsMatch := partitions.isEmpty || featuresEqual slurmNode.partitions partitions
  updateFeatures slurmNode (!(inSync && partitionsMatch))
    { features := some desired, featuresAct := some desired }
    ("could not update node features on node " ++ slurmNode.name)

def updateNodeTopology (node : KubeNode) (slurmNode : SlurmNode) : Action Unit :=
  let topologySpec := node.annotations.at annotationNodeTopologySpec
  updateFeatures slurmNode (slurmNode.topology ≠ topologySpec)
    { topologyStr := some topologySpec } "could not update node topology"

variable (digest : Canonical → String)

def nodeNeedsRecreate (node : KubeNode) (info : Option NodeInfo) (draInventory : List GRESInventory) :
    Action Bool := do
  match ← findNode .cached (getSlurmNodeName node) with
  | none => return false
  | some slurmNode => checking .config (configurationChanged digest node info draInventory slurmNode)

/-- Anything that fails revokes the node's eligibility. -/
def orRevoke {α : Type} (slurmNode : SlurmNode) (x : Action α) : Action α :=
  ExceptT.mk do
    match ← x.run with
    | .ok a => return .ok a
    | .error err => (failWith err (updateGRESCompatibilityFeature slurmNode false)).run

/-- Record the inventory of a hybrid node that can represent it, and admit bridge jobs. -/
def reconcileHybridNode (slurmNode : SlurmNode) (info : Option NodeInfo)
    (gresConfig : NodeGRESConfig) : Action Unit := do
  orRevoke slurmNode (checking .config (validateHybridNodeGRES slurmNode.name slurmNode.gres gresConfig))
  let extra ← orRevoke slurmNode (checking .text (hybridNodeExtra digest slurmNode info gresConfig.extra))
  orRevoke slurmNode (updateNodeExtra slurmNode extra)
  updateGRESCompatibilityFeature slurmNode true

def updateExistingNode (node : KubeNode) (slurmNode : SlurmNode) (info : Option NodeInfo)
    (gresConfig : NodeGRESConfig) : Action Unit :=
  if slurmNode.isExternal = false then reconcileHybridNode digest slurmNode info gresConfig
  else do
    updateNodeFeatures node slurmNode
    updateNodeTopology node slurmNode

def nonempty (text : String) : Option String := if text = "" then none else some text

def nodeConfOf (node : KubeNode) (cpu : NodeCPUConfig) (features : List String)
    (gresConfig : NodeGRESConfig) : NodeConf where
  nodeName := getSlurmNodeName node
  sockets := cpu.sockets
  coresPerSocket := cpu.coresPerSocket
  threadsPerCore := cpu.threadsPerCore
  cpus := cpu.cpus
  realMemory := memoryMB node
  nodeAddr := nonempty (nodeInternalIP node)
  feature := ",".intercalate (sortedDedup (features ++ [slurmFeatureGRESCompatible]))
  topology := nonempty (node.annotations.at annotationNodeTopologySpec)
  gres := gresConfig.gres
  gresConf := gresConfig.gresConf

/-- Record the inventory of a node that was just created.  A topology keeps the node drained
until the next pass. -/
def recordCreated (node : KubeNode) (cpu : NodeCPUConfig) (extra : Extra) : Action Unit :=
  if extra = .empty then return ()
  else
    let msg : UpdateNodeMsg := if cpu.fromDRA then
      { extra := some extra, state := some .drain, reason := some "slurm-bridge: applying CPU topology" }
      else { extra := some extra }
    wrapping (fun err => .wrapped ("could not record applied DRA inventory on Slurm node " ++
      (getSlurmNodeName node).quote) (.slurm err)) (perform (.updateNode (getSlurmNodeName node) msg))

def createNewNode (node : KubeNode) (info : Option NodeInfo) (gresConfig : NodeGRESConfig) : Action Unit := do
  let cpu ← checking .text (desiredNodeCPUConfig node info)
  let extra ← checking .text (encodeApplied digest info gresConfig.extra)
  let features ← desiredNodeFeatures node.annotations
  wrapping .slurm (perform (.createNode (nodeConfOf node cpu features gresConfig)))
  recordCreated node cpu extra

/-- Register an external node, or reconcile the metadata of an existing one. -/
def addNode (node : KubeNode) (info : Option NodeInfo) (draInventory : List GRESInventory) : Action Unit := do
  let gresConfig ← checking .text (buildNodeGRESConfig draInventory info)
  match ← findNode .live (getSlurmNodeName node) with
  | some slurmNode => updateExistingNode digest node slurmNode info gresConfig
  | none => createNewNode digest node info gresConfig

def updateHybridNode (node : KubeNode) (info : Option NodeInfo) (draInventory : List GRESInventory) :
    Action Unit := do
  let gresConfig ← checking .text (buildNodeGRESConfig draInventory info)
  match ← findNode .live (getSlurmNodeName node) with
  | none => return ()
  | some slurmNode =>
    if slurmNode.isExternal then return ()
    else reconcileHybridNode digest slurmNode info gresConfig

def disableNodeGRESCompatibility (node : KubeNode) : Action Unit := do
  match ← findNode .live (getSlurmNodeName node) with
  | none => return ()
  | some slurmNode => updateGRESCompatibilityFeature slurmNode false

def removeNode (node : KubeNode) : Action Unit := do
  match ← findNode .live (getSlurmNodeName node) with
  | none => return ()
  | some slurmNode =>
    let _ ← wrapping (fun err => .wrapped "could not remove node from Slurm" (.slurm err))
      (unlessMissing <$> (perform (.deleteNode slurmNode.name) : Ctl (Except SlurmError Unit)))
    return ()

section
variable {ε α : Type} {wrap : ε → Failure} {t : Trace surroundings}

theorem exec_perform {c : Command} {r : c.Reply} (run : Exec (perform c) t r) : t = [⟨c, r⟩] :=
  exec_call run

variable {out : Except Failure α}

theorem exec_wrapping {p : Ctl (Except ε α)} (run : Exec (wrapping wrap p).run t out) :
    ∃ r, Exec p t r ∧ out = r.mapError wrap :=
  exec_map run

theorem exec_checking {x : Except ε α} (run : Exec (checking wrap x).run t out) :
    t = [] ∧ out = x.mapError wrap := by
  cases run
  exact ⟨rfl, rfl⟩

theorem exec_findNode {mode : ReadMode} {name : String} {out : Except Failure (Option SlurmNode)}
    (run : Exec (findNode mode name).run t out) :
    ∃ r, t = [⟨.getNode mode name, r⟩] ∧ out = (unlessMissing r).mapError .slurm := by
  obtain ⟨r, inner, rfl⟩ := exec_wrapping run
  obtain ⟨reply, read, rfl⟩ := exec_map inner
  exact ⟨reply, exec_perform read, rfl⟩

end

section
variable {α : Type} {allowed : Command → Prop}

theorem only_wrapping {ε : Type} {wrap : ε → Failure} {p : Ctl (Except ε α)} (only : Only allowed p) :
    Only allowed (wrapping wrap p).run :=
  only_bind only fun _ => only_pure _

variable {name : String}

theorem only_findNode {mode : ReadMode} (ok : allowed (.getNode mode name)) :
    Only (I := surroundings) allowed (findNode mode name).run :=
  only_wrapping (only_ask ok fun _ => only_pure _)

variable {msg : UpdateNodeMsg}

theorem only_updateIfPresent {wrap : SlurmError → Failure} (ok : allowed (.updateNode name msg)) :
    Only (I := surroundings) allowed (updateIfPresent name msg wrap).run :=
  only_run_bind (only_wrapping (only_ask ok fun _ => only_pure _)) fun _ => only_pure _

theorem only_desiredNodeFeatures (ok : ∀ partition, allowed (.getPartition partition))
    (annotations : StringMap) :
    Only (I := surroundings) allowed (desiredNodeFeatures annotations).run := by
  have each : ∀ partitions : List String, Only allowed (partitions.forM validatePartitionExists).run := by
    intro partitions
    induction partitions with
    | nil => trivial
    | cons partition partitions ih =>
      exact only_run_bind (only_wrapping (only_call (ok partition))) fun _ => ih
  exact only_run_bind (each _) fun _ => only_pure _

theorem only_failWith {err : Failure} {cleanup : Action Unit} (only : Only allowed cleanup.run) :
    Only allowed (failWith err cleanup : Action α).run := by
  refine only_bind only fun out => ?_
  cases out <;> trivial

variable {slurmNode : SlurmNode}

theorem only_updateFeatures (ok : allowed (.updateNode slurmNode.name msg)) (changed : Bool)
    (message : String) :
    Only (I := surroundings) allowed (updateFeatures slurmNode changed msg message).run := by
  unfold updateFeatures
  split
  · exact only_wrapping (only_call ok)
  · trivial

theorem only_updateGRESCompatibilityFeature {compatible : Bool}
    (available : ∀ features, allowed (.updateNode slurmNode.name { features := some features }))
    (active : allowed (.updateNode slurmNode.name { featuresAct := updateFeatureList slurmNode.activeFeatures slurmFeatureGRESCompatible compatible })) :
    Only allowed (updateGRESCompatibilityFeature slurmNode compatible).run := by
  unfold updateGRESCompatibilityFeature
  split
  · exact only_run_bind (only_updateFeatures (available _) _ _) fun _ => only_updateFeatures active _ _
  · exact only_run_bind (only_updateFeatures active _ _) fun _ => only_updateFeatures (available _) _ _

theorem only_orRevoke {x : Action α} (only : Only allowed x.run)
    (revoke : Only allowed (updateGRESCompatibilityFeature slurmNode false).run) :
    Only allowed (orRevoke slurmNode x).run := by
  refine only_bind only fun out => ?_
  cases out with
  | ok a => trivial
  | error err => exact only_failWith revoke

theorem only_updateNodeExtra {desired : Extra}
    (ok : allowed (.updateNode slurmNode.name { extra := some desired })) :
    Only allowed (updateNodeExtra slurmNode desired).run := by
  unfold updateNodeExtra
  split
  · trivial
  · split
    · trivial
    · exact only_updateIfPresent ok

theorem only_updateExistingNode (updates : ∀ name msg, allowed (.updateNode name msg))
    (partitions : ∀ partition, allowed (.getPartition partition)) (digest : Canonical → String)
    (node : KubeNode) (slurmNode : SlurmNode) (info : Option NodeInfo) (gresConfig : NodeGRESConfig) :
    Only allowed (updateExistingNode digest node slurmNode info gresConfig).run := by
  have feature (compatible : Bool) : Only allowed (updateGRESCompatibilityFeature slurmNode compatible).run :=
    only_updateGRESCompatibilityFeature (fun _ => updates _ _) (updates _ _)
  unfold updateExistingNode
  split
  · refine only_run_bind (only_orRevoke (only_pure _) (feature _)) fun _ => ?_
    refine only_run_bind (only_orRevoke (only_pure _) (feature _)) fun _ => ?_
    exact only_run_bind (only_orRevoke (only_updateNodeExtra (updates _ _)) (feature _)) fun _ => feature _
  · refine only_run_bind (only_run_bind (only_desiredNodeFeatures partitions _) fun _ => ?_) fun _ => ?_
    · exact only_updateFeatures (updates _ _) _ _
    · exact only_updateFeatures (updates _ _) _ _

variable {node : KubeNode}

theorem only_recordCreated (updates : ∀ msg, allowed (.updateNode (getSlurmNodeName node) msg))
    (cpu : NodeCPUConfig) (extra : Extra) :
    Only (I := surroundings) allowed (recordCreated node cpu extra).run := by
  unfold recordCreated
  split
  · trivial
  · exact only_wrapping (only_call (updates _))

theorem only_createNewNode (partitions : ∀ partition, allowed (.getPartition partition))
    (creates : ∀ conf, allowed (.createNode conf))
    (updates : ∀ msg, allowed (.updateNode (getSlurmNodeName node) msg)) (digest : Canonical → String)
    (info : Option NodeInfo) (gresConfig : NodeGRESConfig) :
    Only (I := surroundings) allowed (createNewNode digest node info gresConfig).run := by
  refine only_run_bind (only_pure _) fun _ => only_run_bind (only_pure _) fun _ => ?_
  refine only_run_bind (only_desiredNodeFeatures partitions _) fun _ => ?_
  exact only_run_bind (only_wrapping (only_call (creates _))) fun _ => only_recordCreated updates _ _

end

section
variable {α ε : Type} {guard : Trace surroundings → Command → Prop} {h : Trace surroundings}

@[simp] theorem wp_wrapping {wrap : ε → Failure} {p : Ctl (Except ε α)}
    {post : Trace surroundings → Except Failure α → Prop} :
    wp guard (wrapping wrap p).run h post ↔ wp guard p h fun h' r => post h' (r.mapError wrap) :=
  wp_map p _ post

variable {mode : ReadMode} {name : String}

theorem wp_findNode {post : Trace surroundings → Except Failure (Option SlurmNode) → Prop}
    (ok : guard h (.getNode mode name))
    (returns : ∀ r, post (h ++ [⟨.getNode mode name, r⟩]) ((unlessMissing r).mapError .slurm)) :
    wp (I := surroundings) guard (findNode mode name).run h post :=
  wp_wrapping.mpr ((wp_map _ _ _).mpr ⟨ok, returns⟩)

variable {holds : Trace surroundings → α → Prop}

theorem wp_findNode_bind {f : Option SlurmNode → Action α} (ok : guard h (.getNode mode name))
    (missing : wp guard (f none).run (h ++ [⟨.getNode mode name, .error .notFound⟩]) (onOk holds))
    (present : ∀ read, wp guard (f (some read)).run (h ++ [⟨.getNode mode name, .ok read⟩]) (onOk holds)) :
    wp guard (findNode mode name >>= f).run h (onOk holds) := by
  refine (wp_run_bind _ _ _).mpr (wp_findNode ok fun reply => ?_)
  match reply with
  | .ok read => exact present read
  | .error .notFound => exact missing
  | .error (.other _ _) => exact fun _ same => nomatch same

variable {msg : UpdateNodeMsg}

theorem wp_updateIfPresent {wrap : SlurmError → Failure} {holds : Trace surroundings → Unit → Prop}
    (ok : guard h (.updateNode name msg))
    (returns : ∀ r, r = .ok () ∨ r = .error .notFound → holds (h ++ [⟨.updateNode name msg, r⟩]) ()) :
    wp (I := surroundings) guard (updateIfPresent name msg wrap).run h (onOk holds) := by
  refine wp_run_seq (fun h _ => holds h ()) ?_ fun t _ known _ _ => known
  refine wp_wrapping.mpr ((wp_map _ _ _).mpr ⟨ok, fun r found result => ?_⟩)
  match r with
  | .ok () => exact returns _ (.inl rfl)
  | .error .notFound => exact returns _ (.inr rfl)
  | .error (.other _ _) => cases result

variable {slurmNode : SlurmNode}

theorem wp_updateFeatures {changed : Bool} {message : String} {holds : Trace surroundings → Unit → Prop}
    (ok : guard h (.updateNode slurmNode.name msg)) (same : holds h ())
    (returns : ∀ r, holds (h ++ [⟨.updateNode slurmNode.name msg, r⟩]) ()) :
    wp (I := surroundings) guard (updateFeatures slurmNode changed msg message).run h (onOk holds) := by
  unfold updateFeatures
  split
  · exact wp_wrapping.mpr ⟨ok, fun r _ _ => returns r⟩
  · exact fun _ _ => same

theorem wp_orRevoke {x : Action α}
    (revoke : Only (fun c => ∀ h, guard h c) (updateGRESCompatibilityFeature slurmNode false).run)
    (body : wp guard x.run h (onOk holds)) :
    wp guard (orRevoke slurmNode x).run h (onOk holds) := by
  refine (wp_bind _ _ _).mpr (wp_mono body fun t out known => ?_)
  cases out with
  | ok a => exact known
  | error err =>
    refine (wp_bind _ _ _).mpr (wp_of_only revoke (fun _ _ ok => ok _) fun t' out' _ _ => ?_)
    cases out' <;> exact fun a same => nomatch same

end

end SlurmBridge.Node.SlurmControl
