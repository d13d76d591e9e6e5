/- source: internal/controller/node/node_sync.go, node_condition.go, node_controller.go,
     internal/controller/node/utils/index.go, internal/utils/taints.go
   digest: One pass of the node controller: registration of the node in Slurm, its taint and
     its drain state, and the requeue that the pass asks for. -/

import SlurmBridge.Node.SlurmControl

set_option autoImplicit false

namespace SlurmBridge.Node.Sync

open Foundation.Interaction Dra.IndexedGRES Inventory.Topology Inventory.Fingerprint
open Node.Configuration Node.SlurmControl
open Kube.Reads (KubeError)
open Registration.Interface (SlurmError)

/-- The settings of the controller, with the texts of the errors of its surroundings. -/
structure NodeReconciler where
  schedulerName : String
  digest : Canonical → String
  slurmText : SlurmError → String
  kubeText : KubeError → String

def sampleReconciler : NodeReconciler := ⟨"slurm-bridge", fun _ => "", fun _ => "", fun _ => ""⟩

variable (r : NodeReconciler)

def incompatibleGRESText (err : IncompatibleGRES) : String :=
  "slurm node " ++ err.nodeName.quote ++ " has GRES " ++ err.current.quote ++
    ", which is incompatible with required DRA GRES " ++ err.required.quote ++
    "; gres.conf needs equivalent inventory entries (include the File, AutoDetect, and Flags " ++
    "settings appropriate for the hardware):\n" ++ "\n".intercalate err.gresConf

def message : Failure → String
  | .slurm err => r.slurmText err
  | .kube err => r.kubeText err
  | .config (.text text) => text
  | .config (.incompatibleGRES err) => incompatibleGRESText err
  | .wrapped text err => text ++ ": " ++ message err
  | .joined first second => message first ++ "\n" ++ message second

def unlessAbsent {α : Type} : Except KubeError α → Except KubeError (Option α)
  | .ok a => .ok (some a)
  | .error .notFound => .ok none
  | .error err => .error err

def findKubeNode (req : String) : Action (Option (NodeNamed req)) :=
  wrapping .kube (unlessAbsent <$> (perform (.readNode req) : Ctl (Except KubeError (NodeNamed req))))

def joinError (err : Failure) : Except Failure Unit → Failure
  | .ok () => err
  | .error err' => .joined err err'

def recording {α : Type} (record : Failure → Ctl Failure) (x : Action α) : Action α :=
  ExceptT.mk do
    match ← x.run with
    | .ok a => return .ok a
    | .error err => return .error (← record err)

def nodeConditionSlurmGRESCompatible : String := "SlinkySlurmGRESCompatible"

def reasonSlurmGRESCompatible : String := "SlurmGRESCompatible"
def reasonIncompatibleSlurmGRES : String := "IncompatibleSlurmGRES"
def reasonSlurmGRESVerificationError : String := "SlurmGRESVerificationError"

def findNodeCondition (conditions : List NodeCondition) (type : String) : Option NodeCondition :=
  conditions.find? (·.type = type)

def setNodeCondition (condition : NodeCondition) : List NodeCondition → List NodeCondition
  | [] => [condition]
  | c :: rest => if c.type = condition.type then condition :: rest else c :: setNodeCondition condition rest

def patchConditions (node : KubeNode) (conditions : List NodeCondition) (text : String) : Action Unit := do
  let _ ← wrapping (fun err => .wrapped (text ++ node.name.quote) (.kube err))
    (unlessAbsent <$> (perform (.patchConditions node conditions) : Ctl (Except KubeError Unit)))
  return ()

def setSlurmGRESCompatibilityCondition (node : KubeNode) (status reason text : String) : Action Unit :=
  let updated : NodeCondition := ⟨nodeConditionSlurmGRESCompatible, status, reason, text⟩
  if findNodeCondition node.conditions nodeConditionSlurmGRESCompatible = some updated then return ()
  else patchConditions node (setNodeCondition updated node.conditions)
    "patching Slurm GRES compatibility condition on Kubernetes node "

def clearSlurmGRESCompatibilityCondition (node : KubeNode) : Action Unit :=
  if findNodeCondition node.conditions nodeConditionSlurmGRESCompatible = none then return ()
  else patchConditions node (node.conditions.filter (·.type ≠ nodeConditionSlurmGRESCompatible))
    "clearing Slurm GRES compatibility condition on Kubernetes node "

def recordSlurmGRESCompatibilityError (node : KubeNode) (err : Failure) : Ctl Failure := do
  let set := if err.isIncompatibleGRES then
      setSlurmGRESCompatibilityCondition node "False" reasonIncompatibleSlurmGRES (message r err)
    else setSlurmGRESCompatibilityCondition node "Unknown" reasonSlurmGRESVerificationError
      ("Could not verify Slurm GRES compatibility: " ++ message r err)
  return joinError err (← set.run)

def recordNodeRegistrationError (node : KubeNode) (err : Failure) : Ctl Failure := do
  let disabled ← (disableNodeGRESCompatibility node).run
  return joinError (← recordSlurmGRESCompatibilityError r node err) disabled

def recordIncompatibleSlurmGRESError (node : KubeNode) (err : Failure) : Ctl Failure :=
  if err.isIncompatibleGRES then recordNodeRegistrationError r node err else return err

def nodeRegistrationInventories (node : KubeNode) : Action (NodeInfo × NodeInventory) := do
  let slices ← wrapping .kube (perform (.resourceSlices node.name))
  let info ← checking .text (newNodeInfoFromResourceSlices node.name slices)
  let inventory ← wrapping .text (perform (.nodeInventory node slices))
  return (info, inventory)

def requestKey (req : String) : String := "/" ++ req

/-- How long to wait for a node that exists in Slurm or is being drained, in seconds. -/
def requeueSeconds : Nat := 30

/-- Drain a node, and remove it once it is drained.  Returns whether it was removed. -/
def removeNodeFromSlurmAfterDrain (req : String) (node : KubeNode) : Action Bool := do
  makeNodeDrain node ("slurm-bridge: removing external node " ++ getSlurmNodeName node)
  if ← isNodeDrained node then
    removeNode node
    return true
  else
    perform (.push (requestKey req) requeueSeconds)
    return false

def registrationChanged (node : KubeNode) (info : NodeInfo) (inventory : NodeInventory) : Action Bool := do
  if ← nodeExists node then
    recording (recordNodeRegistrationError r node) (nodeNeedsRecreate r.digest node info inventory.gres)
  else return false

def addLabeledNode (node : KubeNode) (info : NodeInfo) (inventory : NodeInventory) : Action Unit := do
  recording (recordIncompatibleSlurmGRESError r node) (addNode r.digest node info inventory.gres)
  clearSlurmGRESCompatibilityCondition node

/-- Register a node that is labeled as external.  Returns whether registration owns the drain. -/
def syncLabeledNode (req : String) (node : KubeNode) : Action Bool := do
  let (info, inventory) ← recording (recordNodeRegistrationError r node) (nodeRegistrationInventories node)
  if ← registrationChanged r node info inventory then
    if ← removeNodeFromSlurmAfterDrain req node then
      addLabeledNode r node info inventory
    return true
  else
    addLabeledNode r node info inventory
    return false

/-- Slurm's daemon owns the lifecycle of a hybrid node; the bridge updates its metadata. -/
def syncHybridNode (node : KubeNode) : Action Unit := do
  let (info, inventory) ← recording (recordNodeRegistrationError r node) (nodeRegistrationInventories node)
  recording (recordSlurmGRESCompatibilityError r node) (updateHybridNode r.digest node info inventory.gres)
  setSlurmGRESCompatibilityCondition node "True" reasonSlurmGRESCompatible
    "Slurm GRES and CPU configuration are compatible with the Kubernetes DRA inventory."

/-- Remove an external node without the label, and update a hybrid one. -/
def syncUnlabeledNode (req : String) (node : KubeNode) : Action Bool := do
  if ← nodeExists node then
    if ← isNodeExternal node then
      clearSlurmGRESCompatibilityCondition node
      let _ ← removeNodeFromSlurmAfterDrain req node
      return true
    else
      syncHybridNode r node
      return false
  else
    clearSlurmGRESCompatibilityCondition node
    return false

/-- Register or unregister the node of a request.  Returns whether registration owns the drain;
nothing is returned with an error, where the flag is not used. -/
def syncNodeRegistration (req : String) : Action Bool := do
  match ← findKubeNode req with
  | none => return false
  | some node =>
    if (node.1.labels.lookup labelExternalNode).isSome then syncLabeledNode r req node
    else syncUnlabeledNode r req node

def Taint.matches (a b : Taint) : Bool := a.key == b.key && a.effect == b.effect

def newTaintNodeBridged : Taint := ⟨"slinky.slurm.net/managed-node", r.schedulerName, "NoExecute"⟩

/-- Add a taint or replace the ones that match, unless it is there. -/
def addOrUpdateTaint (taints : List Taint) (taint : Taint) : Option (List Taint) :=
  if taint ∈ taints then none
  else if taints.any (Taint.matches taint) then
    some (taints.map fun t => if Taint.matches taint t then taint else t)
  else some (taints ++ [taint])

def deleteTaint (taints : List Taint) (taint : Taint) : Option (List Taint) :=
  if taints.any (Taint.matches taint) then some (taints.filter fun t => !Taint.matches taint t) else none

def getNodeNameForSlurmName (slurmName : String) : Action (Option String) := do
  return (← wrapping .kube (perform (.nodesBySlurmName slurmName))).getLast?

def updateTaints (node : KubeNode) (change : List Taint → Option (List Taint)) : Action Unit := do
  let name := (← getNodeNameForSlurmName (getSlurmNodeName node)).getD node.name
  let current ← wrapping .kube (perform (.readNode name))
  match change current.1.taints with
  | none => return ()
  | some taints => wrapping .kube (perform (.patchTaints current taints))

def taintNode (node : KubeNode) : Action Unit :=
  updateTaints node (addOrUpdateTaint · (newTaintNodeBridged r))

def untaintNode (node : KubeNode) : Action Unit :=
  updateTaints node (deleteTaint · (newTaintNodeBridged r))

def syncTaint (req : String) : Action Unit := do
  match ← findKubeNode req with
  | none => return ()
  | some node =>
    if ← nodeExists node then
      perform (.push node.1.name requeueSeconds)
      taintNode r node
    else untaintNode r node

/-- A cordoned node is drained.  Undraining is allowed only after a registration that does not
own the drain. -/
def syncState (req : String) (allowUndrain : Bool) : Action Unit := do
  match ← findKubeNode req with
  | none => return ()
  | some node =>
    if node.1.unschedulable then
      makeNodeDrain node ("Corresponding Kubernetes node (" ++ node.1.name ++ ") is unschedulable")
    else if allowUndrain then
      makeNodeUndrain node ("Corresponding Kubernetes node (" ++ node.1.name ++ ") is schedulable")

def joinErrors : List (Option Failure) → Except Failure Unit
  | [] => .ok ()
  | none :: rest => joinErrors rest
  | some err :: rest => .error (joinError err (joinErrors rest))

def failureOf {α : Type} : Except Failure α → Option Failure
  | .ok _ => none
  | .error err => some err

/-- The three steps run whatever the ones before them returned. -/
def sync (req : String) : Ctl (Except Failure Unit) := do
  let registration ← (syncNodeRegistration r req).run
  let taint ← (syncTaint r req).run
  let state ← (syncState req (registration = .ok false)).run
  return joinErrors [failureOf registration, failureOf taint, failureOf state]

/-- One pass for a request.  Returns the delay of the next one, and the error. -/
def reconcile (req : String) : Ctl (Nat × Except Failure Unit) := do
  let result ← sync r req
  let requeueAfter ← perform (.pop (requestKey req))
  let _ ← perform (.pop (requestKey req))
  return (requeueAfter, result)

def isStore : Command → Bool
  | .push _ _ | .pop _ => true
  | _ => false

/-- Reads, and writes that concern neither the drain state nor the inventory of a node. -/
def Routine : Command → Prop
  | .updateNode _ msg => msg.state = none ∧ msg.reason = none ∧ msg.extra = none
  | .deleteNode _ | .push _ _ | .pop _ => False
  | _ => True

theorem isStore_of_routine {c : Command} (routine : Routine c) : isStore c = false := by
  cases c with
  | push key seconds => exact routine.elim
  | pop key => exact routine.elim
  | _ => rfl

section
variable {α : Type} {allowed : Command → Prop} (ok : ∀ c, Routine c → allowed c)
include ok

theorem only_findSlurmNode (mode : ReadMode) (name : String) : Only allowed (findNode mode name).run :=
  only_findNode (ok _ trivial)

theorem only_nodeExists (node : KubeNode) : Only allowed (nodeExists node).run :=
  only_run_bind (only_findSlurmNode ok _ _) fun _ => only_pure _

theorem only_isNodeExternal (node : KubeNode) : Only allowed (isNodeExternal node).run :=
  only_run_bind (only_findSlurmNode ok _ _) fun _ => only_pure _

theorem only_feature (slurmNode : SlurmNode) (compatible : Bool) :
    Only allowed (updateGRESCompatibilityFeature slurmNode compatible).run :=
  only_updateGRESCompatibilityFeature (fun _ => ok _ ⟨rfl, rfl, rfl⟩) (ok _ ⟨rfl, rfl, rfl⟩)

section
variable (node : KubeNode)

include node

theorem only_disableNodeGRESCompatibility : Only allowed (disableNodeGRESCompatibility node).run:= by
  refine only_run_bind (only_findSlurmNode ok _ _) fun found => ?_
  cases found with
  | none => trivial
  | some slurmNode => exact only_feature ok slurmNode false

theorem only_patchConditions (conditions : List NodeCondition) (text : String) :
    Only allowed (patchConditions node conditions text).run :=
  only_run_bind (only_wrapping (only_ask (ok _ trivial) fun _ => only_pure _)) fun _ => only_pure _

theorem only_setCondition (status reason text : String) :
    Only allowed (setSlurmGRESCompatibilityCondition node status reason text).run := by
  unfold setSlurmGRESCompatibilityCondition
  dsimp only
  split
  · trivial
  · exact only_patchConditions ok _ _ _

theorem only_clearCondition : Only allowed (clearSlurmGRESCompatibilityCondition node).run:= by
  unfold clearSlurmGRESCompatibilityCondition
  split
  · trivial
  · exact only_patchConditions ok _ _ _

theorem only_recordError (err : Failure) : Only allowed (recordSlurmGRESCompatibilityError r node err):= by
  refine only_bind ?_ fun _ => only_pure _
  split <;> exact only_setCondition ok _ _ _ _

theorem only_recordNodeRegistrationError (err : Failure) :
    Only allowed (recordNodeRegistrationError r node err) :=
  only_bind (only_disableNodeGRESCompatibility ok node) fun _ =>
    only_bind (only_recordError r ok node err) fun _ => only_pure _

theorem only_recordIncompatibleSlurmGRESError (err : Failure) :
    Only allowed (recordIncompatibleSlurmGRESError r node err) := by
  unfold recordIncompatibleSlurmGRESError
  split
  · exact only_recordNodeRegistrationError r ok node err
  · trivial

end

omit ok in
theorem only_recording {record : Failure → Ctl Failure} {x : Action α} (body : Only allowed x.run)
    (records : ∀ err, Only allowed (record err)) :
    Only allowed (recording record x).run := by
  refine only_bind body fun out => ?_
  cases out with
  | ok a => trivial
  | error err => exact only_bind (records err) fun _ => only_pure _

theorem only_nodeRegistrationInventories (node : KubeNode) :
    Only allowed (nodeRegistrationInventories node).run :=
  only_run_bind (only_wrapping (only_call (ok _ trivial))) fun _ => only_run_bind (only_pure _) fun _ =>
    only_run_bind (only_wrapping (only_call (ok _ trivial))) fun _ => only_pure _

theorem only_registrationChanged (node : KubeNode) (info : NodeInfo) (inventory : NodeInventory) :
    Only allowed (registrationChanged r node info inventory).run := by
  refine only_run_bind (only_nodeExists ok node) fun present => ?_
  split
  · refine only_recording (only_run_bind (only_findSlurmNode ok _ _) fun found => ?_)
      (only_recordNodeRegistrationError r ok node)
    cases found <;> trivial
  · trivial

theorem only_findKubeNode (req : String) : Only allowed (findKubeNode req).run :=
  only_wrapping (only_ask (ok _ trivial) fun _ => only_pure _)

omit ok in
theorem only_updateTaints (names : ∀ slurmName, allowed (.nodesBySlurmName slurmName))
    (reads : ∀ name, allowed (.readNode name)) (patches : ∀ node taints, allowed (.patchTaints node taints))
    (node : KubeNode) (change : List Taint → Option (List Taint)) :
    Only allowed (updateTaints node change).run := by
  refine only_run_bind (only_run_bind (only_wrapping (only_call (names _))) fun _ => only_pure _) fun name => ?_
  refine only_run_bind (only_wrapping (only_call (reads _))) fun current => ?_
  split
  · trivial
  · exact only_wrapping (only_call (patches _ _))

end

section
variable {allowed : Command → Prop} (ok : ∀ c, isStore c = false → allowed c)
include ok

private theorem routine_ok (c : Command) (routine : Routine c) : allowed c :=
  ok c (isStore_of_routine routine)

theorem only_makeNodeDrain (node : KubeNode) (reason : String) :
    Only allowed (makeNodeDrain node reason).run := by
  refine only_run_bind (only_findNode (ok _ rfl)) fun found => ?_
  cases found with
  | none => trivial
  | some slurmNode =>
    simp only
    split
    · trivial
    · exact only_updateIfPresent (ok _ rfl)

theorem only_makeNodeUndrain (node : KubeNode) (reason : String) :
    Only allowed (makeNodeUndrain node reason).run := by
  refine only_run_bind (only_findNode (ok _ rfl)) fun cached => ?_
  cases cached with
  | none => trivial
  | some cached =>
    simp only
    split
    · trivial
    · refine only_run_bind (only_findNode (ok _ rfl)) fun found => ?_
      cases found with
      | none => trivial
      | some slurmNode =>
        simp only
        split
        · trivial
        · exact only_updateIfPresent (ok _ rfl)

theorem only_removeNode (node : KubeNode) : Only allowed (removeNode node).run := by
  refine only_run_bind (only_findNode (ok _ rfl)) fun found => ?_
  cases found with
  | none => trivial
  | some slurmNode =>
    exact only_run_bind (only_wrapping (only_ask (ok _ rfl) fun _ => only_pure _)) fun _ => only_pure _

theorem only_addNode (digest : Canonical → String) (node : KubeNode) (info : Option NodeInfo)
    (draInventory : List GRESInventory) :
    Only allowed (addNode digest node info draInventory).run := by
  refine only_run_bind (only_pure _) fun config => only_run_bind (only_findNode (ok _ rfl)) fun found => ?_
  cases found with
  | none => exact only_createNewNode (fun _ => ok _ rfl) (fun _ => ok _ rfl) (fun _ => ok _ rfl) digest _ _
  | some slurmNode =>
    exact only_updateExistingNode (fun _ _ => ok _ rfl) (fun _ => ok _ rfl) digest node slurmNode _ _

theorem only_updateHybridNode (digest : Canonical → String) (node : KubeNode) (info : Option NodeInfo)
    (draInventory : List GRESInventory) :
    Only allowed (updateHybridNode digest node info draInventory).run := by
  refine only_run_bind (only_pure _) fun config => only_run_bind (only_findNode (ok _ rfl)) fun found => ?_
  cases found with
  | none => trivial
  | some slurmNode =>
    simp only
    split
    · trivial
    · rename_i hybrid
      have only : Only allowed (updateExistingNode digest node slurmNode info config).run :=
        only_updateExistingNode (fun _ _ => ok _ rfl) (fun _ => ok _ rfl) digest node slurmNode info config
      rwa [updateExistingNode, if_pos (by simpa using hybrid)] at only

variable {req : String}

theorem only_removeNodeFromSlurmAfterDrain (push : allowed (.push (requestKey req) requeueSeconds))
    (node : KubeNode) : Only allowed (removeNodeFromSlurmAfterDrain req node).run := by
  refine only_run_bind (only_makeNodeDrain ok _ _) fun _ => ?_
  refine only_run_bind (only_run_bind (only_wrapping (only_call (ok _ rfl))) fun _ => only_pure _) fun drained => ?_
  split
  · exact only_run_bind (only_removeNode ok _) fun _ => only_pure _
  · exact only_run_bind (only_ask push fun _ => only_pure _) fun _ => only_pure _

theorem only_addLabeledNode (node : KubeNode) (info : NodeInfo) (inventory : NodeInventory) :
    Only allowed (addLabeledNode r node info inventory).run :=
  only_run_bind (only_recording (only_addNode ok _ _ _ _)
    fun _ => only_recordIncompatibleSlurmGRESError r (routine_ok ok) _ _)
    fun _ => only_clearCondition (routine_ok ok) _

theorem only_syncLabeledNode (push : allowed (.push (requestKey req) requeueSeconds)) (node : KubeNode) :
    Only allowed (syncLabeledNode r req node).run := by
  refine only_run_bind (only_recording (only_nodeRegistrationInventories (routine_ok ok) node)
    (only_recordNodeRegistrationError r (routine_ok ok) node)) fun found => ?_
  refine only_run_bind (only_registrationChanged r (routine_ok ok) node _ _) fun changed => ?_
  split
  · refine only_run_bind (only_removeNodeFromSlurmAfterDrain ok push node) fun removed => ?_
    split
    · exact only_run_bind (only_addLabeledNode r ok _ _ _) fun _ => only_pure _
    · trivial
  · exact only_run_bind (only_addLabeledNode r ok _ _ _) fun _ => only_pure _

theorem only_syncHybridNode (node : KubeNode) : Only allowed (syncHybridNode r node).run := by
  refine only_run_bind ?_ fun found => only_run_bind ?_ fun _ => ?_
  · exact only_recording (only_nodeRegistrationInventories (routine_ok ok) node)
      (only_recordNodeRegistrationError r (routine_ok ok) node)
  · exact only_recording (only_updateHybridNode ok _ _ _ _) (only_recordError r (routine_ok ok) node)
  · exact only_setCondition (routine_ok ok) _ _ _ _

theorem only_syncUnlabeledNode (push : allowed (.push (requestKey req) requeueSeconds)) (node : KubeNode) :
    Only allowed (syncUnlabeledNode r req node).run := by
  refine only_run_bind (only_nodeExists (routine_ok ok) node) fun present => ?_
  split
  · refine only_run_bind (only_isNodeExternal (routine_ok ok) node) fun external => ?_
    split
    · exact only_run_bind (only_clearCondition (routine_ok ok) _) fun _ =>
        only_run_bind (only_removeNodeFromSlurmAfterDrain ok push node) fun _ => only_pure _
    · exact only_run_bind (only_syncHybridNode r ok node) fun _ => only_pure _
  · exact only_run_bind (only_clearCondition (routine_ok ok) _) fun _ => only_pure _

theorem only_syncNodeRegistration (push : allowed (.push (requestKey req) requeueSeconds)) :
    Only allowed (syncNodeRegistration r req).run := by
  refine only_run_bind (only_findKubeNode (routine_ok ok) req) fun found => ?_
  cases found with
  | none => trivial
  | some node =>
    simp only
    split
    · exact only_syncLabeledNode r ok push node
    · exact only_syncUnlabeledNode r ok push node

theorem only_syncState (req : String) (allowUndrain : Bool) :
    Only allowed (syncState req allowUndrain).run := by
  refine only_run_bind (only_findKubeNode (routine_ok ok) req) fun found => ?_
  cases found with
  | none => trivial
  | some node =>
    simp only
    split
    · exact only_makeNodeDrain ok _ _
    · split
      · exact only_makeNodeUndrain ok _ _
      · trivial

end

end SlurmBridge.Node.Sync
