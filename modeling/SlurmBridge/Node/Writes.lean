/- source: internal/controller/node/node_sync.go, internal/controller/node/slurmcontrol/slurmcontrol.go
   digest: What one pass of the node controller can do to Slurm's nodes: which writes it sends,
     after which reads, and what Slurm makes of them. -/

import SlurmBridge.Node.Sync

set_option autoImplicit false

namespace SlurmBridge.Node.Writes

open Foundation.Checked Foundation.Interaction Dra.IndexedGRES Inventory.Topology
open Inventory.Fingerprint Node.Configuration Node.SlurmControl Node.Sync Function
open Foundation.Text (split)
open Registration.Interface (SlurmError)

/-- The updates of a pass.  Drain states follow a read of the node, and Extra values follow a
read of a hybrid node or the creation of the node. -/
inductive Permitted (h : Trace surroundings) (name : String) (msg : UpdateNodeMsg) : Prop
  | plain (state : msg.state = none) (reason : msg.reason = none) (extra : msg.extra = none)
  | drain {h' : Trace surroundings} {mode : ReadMode} {key : String} {read : SlurmNode}
      (ends : h = h' ++ [⟨.getNode mode key, .ok read⟩]) (named : read.name = name)
      (undrained : .drain ∉ read.state) (state : msg.state = some .drain) (extra : msg.extra = none)
  | undrain {h' : Trace surroundings} {key : String} {read : SlurmNode}
      (ends : h = h' ++ [⟨.getNode .live key, .ok read⟩]) (named : read.name = name)
      (owned : shouldSkipUndrain read = false) (state : msg.state = some .undrain)
      (extra : msg.extra = none)
  | hybrid {h' : Trace surroundings} {key : String} {read : SlurmNode} {value : Extra}
      (ends : h = h' ++ [⟨.getNode .live key, .ok read⟩]) (named : read.name = name)
      (hybrid : read.isExternal = false) (state : msg.state = none) (reason : msg.reason = none)
      (extra : msg.extra = some value) (separates : Separates value)
  | created {h' : Trace surroundings} {conf : NodeConf} {value : Extra}
      (ends : h = h' ++ [⟨.createNode conf, .ok ()⟩]) (named : conf.nodeName = name)
      (state : msg.state = none ∧ msg.reason = none ∨ msg.state = some .drain)
      (extra : msg.extra = some value) (separates : Separates value)

/-- A node is deleted after a refreshed read that shows it drained and without jobs. -/
inductive Removable (h : Trace surroundings) (name : String) : Prop
  | drained {h' : Trace surroundings} {key : String} {drained read : SlurmNode}
      (ends : h = h' ++ [⟨.getNode .refresh key, .ok drained⟩] ++ [⟨.getNode .live key, .ok read⟩])
      (named : read.name = name) (isDrain : drained.isDrain = true) (idle : drained.isBusy = false)

def guard (h : Trace surroundings) : Command → Prop
  | .updateNode name msg => Permitted h name msg
  | .deleteNode name => Removable h name
  | _ => True

variable {c : Command}

theorem guard_of_routine {h : Trace surroundings} (routine : Routine c) : guard h c := by
  cases c with
  | updateNode name msg => exact .plain routine.1 routine.2.1 routine.2.2
  | deleteNode name => exact routine.elim
  | _ => trivial

/-- A piece of a pass that sends only what is permitted, whatever happened before it. -/
def Safe {α : Type} (x : Action α) : Prop :=
  ∀ h, wp guard x.run h (onOk fun _ _ => True)

section
variable {α β : Type} {h : Trace surroundings}

theorem wp_of_routine {p : Ctl α} (only : Only Routine p) : wp guard p h fun _ _ => True :=
  wp_of_only only (fun _ _ => guard_of_routine) fun _ _ _ _ => trivial

variable {x : Action α}

theorem safe_of_routine (only : Only Routine x.run) : Safe x :=
  fun _ => wp_mono (wp_of_routine only) fun _ _ _ _ _ => trivial

theorem safe_bind {f : α → Action β} (first : Safe x) (second : ∀ a, Safe (f a)) : Safe (x >>= f) :=
  fun h => wp_run_seq (fun _ _ => True) (first h) fun _ a _ => second a _

theorem safe_pure (a : α) : Safe (pure a : Action α) := fun _ _ _ => trivial

theorem safe_ite {c : Prop} [Decidable c] {y : Action α} (yes : c → Safe x) (no : ¬c → Safe y) :
    Safe (if c then x else y) := by
  split
  · exact yes ‹_›
  · exact no ‹_›

theorem safe_recording {record : Failure → Ctl Failure} (body : Safe x)
    (records : ∀ err, Only Routine (record err)) : Safe (recording record x) := by
  intro h
  refine (wp_bind _ _ _).mpr (wp_mono (body h) fun t out _ => ?_)
  cases out with
  | ok a => exact fun _ _ => trivial
  | error err => exact (wp_bind _ _ _).mpr (wp_mono (wp_of_routine (records err)) fun _ _ _ _ same => nomatch same)

theorem safe_push (key : String) (seconds : Nat) :
    Safe (monadLift (perform (.push key seconds)) : Action Unit) :=
  fun _ => (wp_run_lift _ _).mpr ⟨trivial, fun _ _ _ => trivial⟩

theorem safe_updateIfPresent {name : String} {msg : UpdateNodeMsg} {wrap : SlurmError → Failure}
    (permitted : Permitted h name msg) :
    wp guard (updateIfPresent name msg wrap).run h (onOk fun _ _ => True) :=
  wp_updateIfPresent permitted fun _ _ => trivial

theorem safe_makeNodeDrain (node : KubeNode) (reason : String) : Safe (makeNodeDrain node reason) := by
  intro h
  refine wp_findNode_bind trivial (safe_pure () _) fun read => ?_
  simp only
  split
  · exact safe_pure () _
  · exact safe_updateIfPresent (.drain rfl rfl ‹_› rfl rfl)

theorem safe_makeNodeUndrain (node : KubeNode) (reason : String) : Safe (makeNodeUndrain node reason) := by
  intro h
  refine wp_findNode_bind trivial (safe_pure () _) fun cached => ?_
  simp only
  split
  · exact safe_pure () _
  · refine wp_findNode_bind trivial (safe_pure () _) fun read => ?_
    simp only
    split
    · exact safe_pure () _
    · exact safe_updateIfPresent (.undrain rfl rfl (by simpa using ‹¬shouldSkipUndrain read = true›) rfl rfl)

variable {node : KubeNode}

theorem wp_removeNode {drained : SlurmNode} (isDrain : drained.isDrain = true) (idle : drained.isBusy = false) :
    wp guard (removeNode node).run
      (h ++ [⟨.getNode .refresh (getSlurmNodeName node), .ok drained⟩]) (onOk fun _ _ => True) := by
  refine wp_findNode_bind trivial (safe_pure () _) fun read => ?_
  refine wp_run_seq (fun _ _ => True) ?_ fun _ _ _ _ _ => trivial
  exact wp_wrapping.mpr ((wp_map _ _ _).mpr ⟨.drained rfl rfl isDrain idle, fun _ _ _ => trivial⟩)

theorem safe_removeNodeFromSlurmAfterDrain (req : String) (node : KubeNode) :
    Safe (removeNodeFromSlurmAfterDrain req node) := by
  refine safe_bind (safe_makeNodeDrain _ _) fun _ h => ?_
  refine wp_run_seq (fun h' drained => drained = true → ∃ read, h' = h ++
      [⟨.getNode .refresh (getSlurmNodeName node), .ok read⟩] ∧ read.isDrain = true ∧ read.isBusy = false)
    ?_ fun t drained known => ?_
  · refine wp_run_seq (fun h' read => h' = h ++ [⟨.getNode .refresh (getSlurmNodeName node), .ok read⟩])
      (wp_wrapping.mpr ⟨trivial, fun reply read same => ?_⟩) fun t read ends drained same yes => ?_
    · cases reply with
      | error err => cases same
      | ok read' =>
        obtain rfl := Except.ok.inj same
        rfl
    · obtain rfl := Except.ok.inj same
      simp only [Bool.and_eq_true, Bool.not_eq_true'] at yes
      exact ⟨read, ends, yes⟩
  · split
    · rename_i yes
      obtain ⟨read, ends, isDrain, idle⟩ := known yes
      rw [ends]
      exact wp_run_seq (fun _ _ => True) (wp_removeNode isDrain idle) fun _ _ _ _ _ => trivial
    · exact safe_bind (safe_push _ _) (fun _ => safe_pure _) _

theorem safe_orRevoke {slurmNode : SlurmNode} {holds : Trace surroundings → α → Prop}
    (body : wp guard x.run h (onOk holds)) :
    wp guard (orRevoke slurmNode x).run h (onOk holds) :=
  wp_orRevoke ((only_feature (fun _ routine => routine) slurmNode false).mono fun _ routine _ => guard_of_routine routine) body

variable {digest : Canonical → String} {info : Option NodeInfo} {config : NodeGRESConfig}

theorem wp_reconcileHybridNode {key : String} {read : SlurmNode} (separates : Separates config.extra)
    (hybrid : read.isExternal = false) :
    wp guard (reconcileHybridNode digest read info config).run
      (h ++ [⟨.getNode .live key, .ok read⟩]) (onOk fun _ _ => True) := by
  refine wp_run_seq (fun h' _ => h' = h ++ [⟨.getNode .live key, .ok read⟩])
    (safe_orRevoke fun _ _ => rfl) fun t₁ _ same₁ => ?_
  rw [same₁]
  refine wp_run_seq (fun h' extra => h' = h ++ [⟨.getNode .live key, .ok read⟩] ∧ Separates extra)
    (safe_orRevoke fun extra computed => ⟨rfl, separates_hybridNodeExtra separates (mapError_eq_ok.mp computed)⟩)
    ?_
  rintro t₂ extra ⟨same₂, separates'⟩
  rw [same₂]
  refine wp_run_seq (fun _ _ => True) (safe_orRevoke ?_) fun _ _ _ => ?_
  · unfold updateNodeExtra
    split
    · exact fun _ _ => trivial
    · split
      · exact fun _ _ => trivial
      · exact safe_updateIfPresent (.hybrid rfl rfl hybrid rfl rfl rfl separates')
  · exact safe_of_routine (only_feature (fun _ routine => routine) read true) _

theorem only_updateExternalNode (node : KubeNode) (slurmNode : SlurmNode) : Only Routine (do
      updateNodeFeatures node slurmNode
      updateNodeTopology node slurmNode : Action Unit).run :=
  only_run_bind (only_run_bind (only_desiredNodeFeatures (fun _ => trivial) _) fun _ =>
    only_updateFeatures ⟨rfl, rfl, rfl⟩ _ _) fun _ => only_updateFeatures ⟨rfl, rfl, rfl⟩ _ _

theorem safe_createNewNode (separates : Separates config.extra) :
    Safe (createNewNode digest node info config) := by
  refine safe_bind (safe_of_routine (only_pure _)) fun cpu h => ?_
  refine wp_run_seq (fun h' extra => Separates extra)
    (fun extra encoded => separates_encodeApplied separates (mapError_eq_ok.mp encoded)) fun t extra separates' => ?_
  refine safe_bind (safe_of_routine (only_desiredNodeFeatures (fun _ => trivial) _)) (fun features h => ?_) _
  refine wp_run_seq (fun h' _ => h' = h ++ [⟨.createNode (nodeConfOf node cpu features config), .ok ()⟩])
    (wp_wrapping.mpr ⟨trivial, fun reply _ same => ?_⟩) fun t _ ends => ?_
  · cases reply with
    | error err => cases same
    | ok u => rfl
  · rw [ends]
    unfold recordCreated
    split
    · exact fun _ _ => trivial
    · refine wp_wrapping.mpr ⟨?_, fun _ _ _ => trivial⟩
      split
      · exact .created rfl rfl (.inr rfl) rfl separates'
      · exact .created rfl rfl (.inl ⟨rfl, rfl⟩) rfl separates'

variable {digest : Canonical → String} {node : KubeNode} {info : Option NodeInfo}
  {draInventory : List GRESInventory} (nodup : (draInventory.flatMap (·.devices)).Nodup)
include nodup

theorem safe_addNode : Safe (addNode digest node info draInventory) := by
  intro h
  refine wp_run_seq (fun _ config => Separates config.extra)
    (fun config built => separates_config nodup (mapError_eq_ok.mp built)) fun t config separates => ?_
  refine wp_findNode_bind trivial (safe_createNewNode separates _) fun read => ?_
  simp only [updateExistingNode]
  split
  · exact wp_reconcileHybridNode separates ‹_›
  · exact safe_of_routine (only_updateExternalNode node read) _

theorem safe_updateHybridNode : Safe (updateHybridNode digest node info draInventory) := by
  intro h
  refine wp_run_seq (fun _ config => Separates config.extra)
    (fun config built => separates_config nodup (mapError_eq_ok.mp built)) fun t config separates => ?_
  refine wp_findNode_bind trivial (safe_pure () _) fun read => ?_
  simp only
  split
  · exact safe_pure () _
  · exact wp_reconcileHybridNode separates (by simpa using ‹¬read.isExternal = true›)

end

section
variable (r : NodeReconciler)

private theorem routine_self (c : Command) (routine : Routine c) : Routine c := routine

theorem safe_addLabeledNode (node : KubeNode) (info : NodeInfo) (inventory : NodeInventory) :
    Safe (addLabeledNode r node info inventory) :=
  safe_bind (safe_recording (safe_addNode inventory.nodup)
    (only_recordIncompatibleSlurmGRESError r routine_self node))
    fun _ => safe_of_routine (only_clearCondition routine_self node)

theorem safe_inventories (node : KubeNode) :
    Safe (recording (recordNodeRegistrationError r node) (nodeRegistrationInventories node)) :=
  safe_recording (safe_of_routine (only_nodeRegistrationInventories routine_self node))
    (only_recordNodeRegistrationError r routine_self node)

theorem safe_syncLabeledNode (req : String) (node : KubeNode) : Safe (syncLabeledNode r req node) := by
  refine safe_bind (safe_inventories r node) fun found => ?_
  refine safe_bind (safe_of_routine (only_registrationChanged r routine_self node _ _)) fun changed => ?_
  refine safe_ite (fun _ => safe_bind (safe_removeNodeFromSlurmAfterDrain req node) fun removed => ?_) fun _ => ?_
  · exact safe_ite (fun _ => safe_bind (safe_addLabeledNode r _ _ _) fun _ => safe_pure _) fun _ => safe_pure _
  · exact safe_bind (safe_addLabeledNode r _ _ _) fun _ => safe_pure _

theorem safe_syncHybridNode (node : KubeNode) : Safe (syncHybridNode r node) := by
  refine safe_bind (safe_inventories r node) fun found => ?_
  refine safe_bind (safe_recording (safe_updateHybridNode found.2.nodup) (only_recordError r routine_self node)) ?_
  exact fun _ => safe_of_routine (only_setCondition routine_self _ _ _ _)

theorem safe_syncUnlabeledNode (req : String) (node : KubeNode) : Safe (syncUnlabeledNode r req node) := by
  have clear : Safe (clearSlurmGRESCompatibilityCondition node) :=
    safe_of_routine (only_clearCondition routine_self node)
  refine safe_bind (safe_of_routine (only_nodeExists routine_self node)) fun present => ?_
  refine safe_ite (fun _ => ?_) fun _ => safe_bind clear fun _ => safe_pure _
  refine safe_bind (safe_of_routine (only_isNodeExternal routine_self node)) fun external => ?_
  refine safe_ite (fun _ => safe_bind clear fun _ => ?_) fun _ => ?_
  · exact safe_bind (safe_removeNodeFromSlurmAfterDrain req node) fun _ => safe_pure _
  · exact safe_bind (safe_syncHybridNode r node) fun _ => safe_pure _

theorem safe_syncNodeRegistration (req : String) : Safe (syncNodeRegistration r req) := by
  refine safe_bind (safe_of_routine (only_findKubeNode routine_self req)) fun found => ?_
  cases found with
  | none => exact safe_pure _
  | some node =>
    exact safe_ite (fun _ => safe_syncLabeledNode r req node) fun _ => safe_syncUnlabeledNode r req node

theorem safe_syncTaint (req : String) : Safe (syncTaint r req) := by
  have updates (node : KubeNode) (change : List Taint → Option (List Taint)) : Safe (updateTaints node change) :=
    safe_of_routine (only_updateTaints (fun _ => trivial) (fun _ => trivial) (fun _ _ => trivial) node change)
  refine safe_bind (safe_of_routine (only_findKubeNode routine_self req)) fun found => ?_
  cases found with
  | none => exact safe_pure _
  | some node =>
    refine safe_bind (safe_of_routine (only_nodeExists routine_self node)) fun present => ?_
    exact safe_ite (fun _ => safe_bind (safe_push _ _) fun _ => updates _ _) fun _ => updates _ _

theorem safe_syncState (req : String) (allowUndrain : Bool) : Safe (syncState req allowUndrain) := by
  refine safe_bind (safe_of_routine (only_findKubeNode routine_self req)) fun found => ?_
  cases found with
  | none => exact safe_pure _
  | some node =>
    refine safe_ite (fun _ => safe_makeNodeDrain _ _) fun _ => ?_
    exact safe_ite (fun _ => safe_makeNodeUndrain _ _) fun _ => safe_pure _

theorem wp_sync (req : String) (h : Trace surroundings) : wp guard (sync r req) h fun _ _ => True := by
  refine (wp_bind _ _ _).mpr (wp_mono (safe_syncNodeRegistration r req h) fun t₁ registration _ => ?_)
  refine (wp_bind _ _ _).mpr (wp_mono (safe_syncTaint r req _) fun t₂ taint _ => ?_)
  exact (wp_bind _ _ _).mpr (wp_mono (safe_syncState req _ _) fun t₃ state _ => trivial)

end

def LastRead (past : Trace surroundings) (key : String) (read : SlurmNode) : Prop :=
  ∃ h mode, past = h ++ [⟨.getNode mode key, .ok read⟩]

theorem LastRead.snoc {past : Trace surroundings} {reply : c.Reply} {key : String} {read : SlurmNode}
    (last : LastRead (past ++ [⟨c, reply⟩]) key read) :
    ∃ mode, (⟨c, reply⟩ : Event surroundings) = ⟨.getNode mode key, .ok read⟩ := by
  obtain ⟨h, mode, same⟩ := last
  exact ⟨mode, by simpa using (List.append_inj' same rfl).2⟩

def applyUpdate (msg : UpdateNodeMsg) (node : SlurmNode) : SlurmNode :=
  { node with
    state := match msg.state with
      | none => node.state
      | some .drain => .drain :: node.state.filter fun s => s ≠ .drain ∧ s ≠ .undrain
      | some .undrain => node.state.filter (· ≠ .drain)
    reason := msg.reason.getD node.reason
    extra := msg.extra.getD node.extra
    features := msg.features.getD node.features
    activeFeatures := msg.featuresAct.getD node.activeFeatures
    topology := msg.topologyStr.getD node.topology }

@[simp] theorem applyUpdate_extra (msg : UpdateNodeMsg) (node : SlurmNode) :
    (applyUpdate msg node).extra = msg.extra.getD node.extra := rfl

theorem applyUpdate_drain {msg : UpdateNodeMsg} (node : SlurmNode) (state : msg.state = none)
    (reason : msg.reason = none) : (applyUpdate msg node).isDrain = node.isDrain ∧
      (applyUpdate msg node).reason = node.reason := by
  simp [applyUpdate, SlurmNode.isDrain, state, reason]

theorem applyUpdate_isBusy (msg : UpdateNodeMsg) (node : SlurmNode) :
    (applyUpdate msg node).isBusy = node.isBusy := by
  cases state : msg.state with
  | none => simp [applyUpdate, SlurmNode.isBusy, state]
  | some new => cases new <;> simp [applyUpdate, SlurmNode.isBusy, state]

def createdNode (conf : NodeConf) : SlurmNode where
  name := conf.nodeName
  state := [.idle, .external]
  gres := conf.gres
  sockets := conf.sockets
  cores := conf.coresPerSocket
  threads := conf.threadsPerCore
  cpus := conf.cpus
  realMemory := conf.realMemory
  features := split ',' conf.feature
  activeFeatures := split ',' conf.feature
  topology := conf.topology.getD ""

@[simp] theorem createdNode_name (conf : NodeConf) : (createdNode conf).name = conf.nodeName := rfl

@[simp] theorem createdNode_extra (conf : NodeConf) : (createdNode conf).extra = .empty := rfl

/-- What a read of a node returns, if it does not fail otherwise. -/
def readOf (slurm : String → Option SlurmNode) (name : String) : Except SlurmError SlurmNode :=
  match slurm name with
  | some node => .ok node
  | none => .error .notFound

def written (slurm : String → Option SlurmNode) : Command → String → Option SlurmNode
  | .updateNode name msg => update slurm name ((slurm name).map (applyUpdate msg))
  | .createNode conf =>
    if slurm conf.nodeName = none then update slurm conf.nodeName (some (createdNode conf))
    else slurm
  | .deleteNode name => update slurm name none
  | _ => slurm

def Named (slurm : String → Option SlurmNode) : Prop := ∀ name node, slurm name = some node → node.name = name

variable {slurm : String → Option SlurmNode}

theorem Named.update {name : String} {found : Option SlurmNode} (named : Named slurm)
    (new : ∀ node, found = some node → node.name = name) : Named (update slurm name found) := by
  intro name' node at_
  by_cases same : name' = name
  · subst same
    exact new node (by simpa using at_)
  · exact named name' node (by simpa [Function.update_of_ne same] using at_)

theorem Named.written (named : Named slurm) (c : Command) : Named (written slurm c) := by
  cases c with
  | updateNode name msg =>
    refine named.update fun node at_ => ?_
    obtain ⟨old, found, rfl⟩ := Option.map_eq_some_iff.mp at_
    exact named name old found
  | createNode conf =>
    simp only [Writes.written]
    split
    · refine named.update fun node at_ => ?_
      rw [← Option.some.inj at_, createdNode_name]
    · exact named
  | deleteNode name => exact named.update fun node at_ => nomatch at_
  | _ => exact named

end SlurmBridge.Node.Writes
