/- source: internal/controller/node/node_sync.go, internal/controller/node/slurmcontrol/slurmcontrol.go
   digest: A node that an administrator drained stays drained, unless the bridge recreates it or
     mistakes the administrator's reason for its own. -/

import SlurmBridge.Foundation.Concurrency
import SlurmBridge.Node.Writes

set_option autoImplicit false

namespace SlurmBridge.Node.AdminDrain

open Foundation.Interaction Foundation.Concurrency Node.Configuration Node.SlurmControl Node.Sync
open Node.Writes
open Registration.Interface (SlurmError)
open Option Function

/-- Slurm's nodes, with what has happened to them.  The passes for a node run one after the
other. -/
structure Cluster where
  slurm : String → Option SlurmNode
  running : Bool
  /-- Nobody else changed the node since the bridge last read it. -/
  fresh : String → Bool
  /-- An administrator drained the node, no administrator changed it since, and its Kubernetes
  node stayed registered. -/
  held : String → Bool
  /-- All drain states were written on the basis of current reads. -/
  current : Bool
  /-- No step was one that can lose an administrator's drain. -/
  met : Bool

/-- Which writes rest on a read, and which can lose a drain: deleting the node, and draining it
with the bridge's own reason when its inventory is recorded. -/
def Cluster.judge (s : Cluster) : Command → Cluster
  | .updateNode name msg =>
    if msg.state = none then s
    else if msg.extra = none then { s with current := s.current && s.fresh name }
    else { s with met := s.met && !s.held name }
  | .deleteNode name => { s with met := s.met && !s.held name }
  | _ => s

def Sent (c : Command) (failed : Prop) (s s' : Cluster) : Prop :=
  s' = { s.judge c with slurm := written s.slurm c } ∨ failed ∧ s' = s.judge c

def respond : (c : Command) → c.Reply → Cluster → Cluster → Prop
  | .getNode _ name, reply, s, s' =>
    (reply = readOf s.slurm name ∨ ∃ number text, reply = .error (.other number text)) ∧
      s' = { s with fresh := update s.fresh name true }
  | .updateNode name msg, reply, s, s' => Sent (.updateNode name msg) (reply ≠ .ok ()) s s'
  | .createNode conf, reply, s, s' =>
    Sent (.createNode conf) (reply ≠ .ok ()) s s' ∧ (s.slurm conf.nodeName ≠ none → reply ≠ .ok ())
  | .deleteNode name, reply, s, s' => Sent (.deleteNode name) (reply ≠ .ok ()) s s'
  | _, _, s, s' => s' = s

def drainedBy (reason : String) (node : SlurmNode) : SlurmNode :=
  applyUpdate { state := some .drain, reason := some reason } node

inductive Environment (s : Cluster) : Cluster → Prop
  /-- The reason does not start with the bridge's mark. -/
  | administratorDrains {name : String} {node : SlurmNode} (found : s.slurm name = some node)
      (reason : String) (given : reason ≠ "")
      (foreign : ¬nodeReasonPrefix.toList <+: reason.toList) :
      Environment s { s with
        slurm := update s.slurm name (some (drainedBy reason node))
        fresh := update s.fresh name false
        held := update s.held name true
        met := s.met && !containsText reason nodeReasonPrefix }
  /-- Create, delete, undrain or change a node in any other way. -/
  | administratorChanges {name : String} (found : Option SlurmNode)
      (named : ∀ node, found = some node → node.name = name) :
      Environment s { s with
        slurm := update s.slurm name found
        fresh := update s.fresh name false
        held := update s.held name false }
  /-- Slurm's own changes leave the drain as it is. -/
  | slurmChanges {name : String} {node node' : SlurmNode} (found : s.slurm name = some node)
      (named : node'.name = node.name) (isDrain : node'.isDrain = node.isDrain)
      (reason : node'.reason = node.reason) :
      Environment s { s with
        slurm := update s.slurm name (some node')
        fresh := update s.fresh name false }
  /-- The Kubernetes node loses its label or is deleted. -/
  | unregistered (name : String) : Environment s { s with held := update s.held name false }

/-- An administrator's drain, as the bridge can recognise it. -/
structure AdminDrained (node : SlurmNode) : Prop where
  isDrain : node.isDrain = true
  given : node.reason ≠ ""
  unmarked : containsText node.reason nodeReasonPrefix = false

/-- Passes for one node, in any surroundings. -/
def system (r : NodeReconciler) (req : String) : System surroundings where
  State := Cluster
  Task := Unit
  Out := Except Failure Unit
  code _ := sync r req
  initial s := Named s.slurm ∧ s.running = false ∧
    ∀ name, s.held name = true → ∃ node, s.slurm name = some node ∧ AdminDrained node
  respond := respond
  start _ s s' := s.running = false ∧ s' = { s with running := true }
  stop _ _ s s' := s' = { s with running := false }
  environment := Environment

section
variable {r : NodeReconciler} {req : String} {s s' : Cluster}

/-- Drains are kept as long as all reads were current and nothing could lose them. -/
def Kept (s : Cluster) : Prop :=
  s.current = true → s.met = true → ∀ name, s.held name = true →
    ∃ node, s.slurm name = some node ∧ AdminDrained node

/-- What holds whenever a pass may act. -/
structure Sound (s : Cluster) (crew : Multiset (Unit × Trace surroundings)) : Prop where
  named : Named s.slurm
  single : crew.card ≤ 1
  idle : s.running = false → crew = 0
  answered : ∀ member ∈ crew, ∀ key read, LastRead member.2 key read →
    read.name = key ∧ (s.fresh key = true → s.slurm key = some read)
  kept : Kept s

variable {name : String}

theorem Kept.change {found : Option SlurmNode} (kept : Kept s)
    (slurm : s'.slurm = update s.slurm name found) (held : s'.held = s.held)
    (current : s'.current = true → s.current = true) (met : s'.met = true → s.met = true)
    (here : s'.current = true → s'.met = true → s.held name = true → ∃ node, found = some node ∧ AdminDrained node) :
    Kept s' := by
  intro isCurrent isMet other holds
  rw [held] at holds
  by_cases same : other = name
  · subst same
    obtain ⟨node, at_, drained⟩ := here isCurrent isMet holds
    exact ⟨node, by rw [slurm, update_self, at_], drained⟩
  · obtain ⟨node, at_, drained⟩ := kept (current isCurrent) (met isMet) other holds
    exact ⟨node, by rw [slurm, update_of_ne same, at_], drained⟩

theorem judge_slurm (c : Command) : (s.judge c).slurm = s.slurm := by
  cases c with
  | updateNode name msg =>
    simp only [Cluster.judge]
    split
    · rfl
    · split <;> rfl
  | _ => rfl

theorem judge_le (c : Command) : (s.judge c).held = s.held ∧ (s.judge c).fresh = s.fresh ∧
    (s.judge c).running = s.running ∧ ((s.judge c).current = true → s.current = true) ∧
    ((s.judge c).met = true → s.met = true) := by
  cases c with
  | updateNode name msg =>
    simp only [Cluster.judge]
    split
    · simp
    · split <;> simp +contextual
  | deleteNode name => simp +contextual [Cluster.judge]
  | _ => simp [Cluster.judge]

variable {node : SlurmNode} {msg : UpdateNodeMsg}

theorem AdminDrained.unchanged (drained : AdminDrained node) (state : msg.state = none)
    (reason : msg.reason = none) : AdminDrained (applyUpdate msg node) := by
  obtain ⟨isDrain, same⟩ := applyUpdate_drain node state reason
  exact ⟨isDrain ▸ drained.isDrain, same ▸ drained.given, same ▸ drained.unmarked⟩

theorem AdminDrained.skipped (drained : AdminDrained node) : shouldSkipUndrain node = true := by
  simp [shouldSkipUndrain, drained.given, drained.unmarked]

variable {past : Trace surroundings}

theorem drained_updated
    (answered : ∀ key read, LastRead past key read → read.name = key ∧ (s.fresh key = true → s.slurm key = some read))
    (at_ : s.slurm name = some node) (drained : AdminDrained node) (holds : s.held name = true)
    (current : (s.judge (.updateNode name msg)).current = true)
    (met : (s.judge (.updateNode name msg)).met = true) (permitted : Permitted past name msg) :
    AdminDrained (applyUpdate msg node) := by
  -- A drain state is written right after a read, which is current.
  have seen (state : msg.state ≠ none) (extra : msg.extra = none) {key : String} {read : SlurmNode}
      (last : LastRead past key read) (named : read.name = name) : read = node := by
    obtain ⟨rfl, known⟩ := answered key read last
    obtain rfl := named
    simp only [Cluster.judge, if_neg state, if_pos extra, Bool.and_eq_true] at current
    exact some.inj ((known current.2).symm.trans at_)
  cases permitted with
  | plain state reason extra => exact drained.unchanged state reason
  | drain ends named undrained state extra =>
    obtain rfl := seen (by simp [state]) extra ⟨_, _, ends⟩ named
    have isDrain := drained.isDrain
    simp [SlurmNode.isDrain, undrained] at isDrain
  | undrain ends named owned state extra =>
    obtain rfl := seen (by simp [state]) extra ⟨_, _, ends⟩ named
    simp [drained.skipped] at owned
  | hybrid ends named hybrid state reason extra separates => exact drained.unchanged state reason
  | created ends named state extra separates =>
    rcases state with ⟨state, reason⟩ | state
    · exact drained.unchanged state reason
    · simp [Cluster.judge, state, extra, holds] at met

variable {c : Command}

theorem kept_written (kept : Kept s)
    (answered : ∀ key read, LastRead past key read → read.name = key ∧ (s.fresh key = true → s.slurm key = some read))
    (permitted : guard past c) : Kept { s.judge c with slurm := written s.slurm c } := by
  obtain ⟨held, -, -, current, met⟩ := judge_le (s := s) c
  cases c with
  | updateNode name msg =>
    refine kept.change rfl held current met fun isCurrent isMet holds => ?_
    obtain ⟨node, at_, drained⟩ := kept (current isCurrent) (met isMet) name holds
    exact ⟨applyUpdate msg node, by rw [at_]; rfl,
      drained_updated answered at_ drained holds isCurrent isMet permitted⟩
  | createNode conf =>
    simp only [written]
    split
    · rename_i missing
      refine kept.change rfl held current met fun isCurrent isMet holds => ?_
      obtain ⟨node, at_, -⟩ := kept (current isCurrent) (met isMet) _ holds
      rw [missing] at at_
      cases at_
    · exact kept
  | deleteNode name =>
    refine kept.change rfl held current met fun isCurrent isMet holds => ?_
    simp [Cluster.judge, holds] at isMet
  | _ => exact kept

theorem kept_judge (kept : Kept s) (c : Command) : Kept (s.judge c) := by
  obtain ⟨held, -, -, current, met⟩ := judge_le (s := s) c
  intro isCurrent isMet name holds
  rw [judge_slurm]
  exact kept (current isCurrent) (met isMet) name (held ▸ holds)

variable {others : Multiset (Unit × Trace surroundings)} {reply : c.Reply}

section
variable (sound : Sound s (((), past) ::ₘ others))

include sound

theorem Sound.sent {failed : Prop} (permitted : guard past c)
    (sent : Sent c failed s s') (write : ∀ mode key, c ≠ .getNode mode key) :
    Sound s' (((), past ++ [⟨c, reply⟩]) ::ₘ others) := by
  obtain ⟨-, -, running, -, -⟩ := judge_le (s := s) c
  have alone : others = 0 := by simpa using sound.single
  subst alone
  have busy : s'.running = false → (((), past ++ [⟨c, reply⟩]) ::ₘ 0 : Multiset _) = 0 := by
    have now : s.running ≠ false := fun idle => by simpa using sound.idle idle
    rcases sent with rfl | ⟨-, rfl⟩ <;> exact fun idle => absurd (running ▸ idle) now
  have quiet : ∀ member ∈ (((), past ++ [⟨c, reply⟩]) ::ₘ 0 : Multiset (Unit × Trace surroundings)),
      ∀ key read, LastRead member.2 key read →
        read.name = key ∧ (s'.fresh key = true → s'.slurm key = some read) := by
    intro member inside key read last
    obtain rfl := by simpa using inside
    obtain ⟨mode, same⟩ := last.snoc
    exact absurd (congrArg Sigma.fst same) (write mode key)
  have answered := sound.answered _ (Multiset.mem_cons_self _ _)
  rcases sent with rfl | ⟨-, rfl⟩
  · exact ⟨sound.named.written c, by simp, busy, quiet, kept_written sound.kept answered permitted⟩
  · exact ⟨by rw [judge_slurm]; exact sound.named, by simp, busy, quiet, kept_judge sound.kept c⟩

theorem Sound.read {mode : ReadMode} {reply : Except SlurmError SlurmNode}
    (truthful : reply = readOf s.slurm name ∨ ∃ number text, reply = .error (.other number text)) :
    Sound { s with fresh := update s.fresh name true }
      (((), past ++ [⟨.getNode mode name, reply⟩]) ::ₘ others) := by
  have alone : others = 0 := by simpa using sound.single
  subst alone
  refine ⟨sound.named, by simp, fun idle => ?_, ?_, sound.kept⟩
  · simpa using sound.idle idle
  · intro member inside key read last
    obtain rfl := by simpa using inside
    obtain ⟨mode', same⟩ := last.snoc
    obtain ⟨⟨rfl, rfl⟩, rfl⟩ : (mode = mode' ∧ name = key) ∧ reply = .ok read := by simpa using same
    have found : s.slurm name = some read := by
      rcases truthful with same | ⟨number, text, same⟩
      · unfold readOf at same
        split at same
        · rw [Except.ok.inj same]
          assumption
        · cases same
      · cases same
    exact ⟨sound.named name read found, fun _ => found⟩

theorem Sound.act (permitted : guard past c)
    (responds : respond c reply s s') : Sound s' (((), past ++ [⟨c, reply⟩]) ::ₘ others) := by
  cases c with
  | getNode mode name =>
    obtain ⟨truthful, rfl⟩ := responds
    exact sound.read truthful
  | updateNode name msg => exact sound.sent permitted responds (by simp)
  | createNode conf => exact sound.sent permitted responds.1 (by simp)
  | deleteNode name => exact sound.sent permitted responds (by simp)
  | _ =>
    refine sound.sent permitted (.inr ⟨trivial, ?_⟩) (by simp)
    exact responds

end

theorem Sound.environment {crew : Multiset (Unit × Trace surroundings)} (sound : Sound s crew)
    (changes : Environment s s') : Sound s' crew := by
  -- What was read of the changed node is no longer current.
  have stale {name : String} {found : Option SlurmNode} : ∀ member ∈ crew, ∀ key read,
      LastRead member.2 key read → read.name = key ∧ (update s.fresh name false key = true →
          update s.slurm name found key = some read) := by
    intro member inside key read last
    obtain ⟨named, known⟩ := sound.answered member inside key read last
    refine ⟨named, fun fresh => ?_⟩
    have other : key ≠ name := by
      rintro rfl
      simp at fresh
    rw [update_of_ne other] at fresh ⊢
    exact known fresh
  cases changes with
  | @administratorDrains name node found reason given foreign =>
    refine ⟨sound.named.update fun _ at_ => ?_, sound.single, sound.idle, stale, ?_⟩
    · rw [← some.inj at_]
      exact sound.named name node found
    · intro isCurrent isMet other holds
      simp only [Bool.and_eq_true, Bool.not_eq_true'] at isMet
      by_cases same : other = name
      · subst same
        exact ⟨drainedBy reason node, by simp, by simp [drainedBy, applyUpdate, SlurmNode.isDrain],
          given, isMet.2⟩
      · simp only [update_of_ne same] at holds ⊢
        exact sound.kept isCurrent isMet.1 other holds
  | @administratorChanges name found named =>
    refine ⟨sound.named.update named, sound.single, sound.idle, stale, ?_⟩
    intro isCurrent isMet other holds
    by_cases same : other = name
    · subst same
      simp at holds
    · simp only [update_of_ne same] at holds ⊢
      exact sound.kept isCurrent isMet other holds
  | @slurmChanges name node node' found named isDrain reason =>
    refine ⟨sound.named.update fun _ at_ => ?_, sound.single, sound.idle, stale, ?_⟩
    · rw [← some.inj at_, named]
      exact sound.named name node found
    · refine sound.kept.change rfl rfl id id fun isCurrent isMet holds => ⟨node', rfl, ?_⟩
      obtain ⟨_, at_, drained⟩ := sound.kept isCurrent isMet name holds
      obtain rfl := some.inj (found.symm.trans at_)
      exact ⟨isDrain ▸ drained.isDrain, reason ▸ drained.given, reason ▸ drained.unmarked⟩
  | unregistered name =>
    refine ⟨sound.named, sound.single, sound.idle, sound.answered, ?_⟩
    intro isCurrent isMet other holds
    by_cases same : other = name
    · subst same
      simp at holds
    · simp only [update_of_ne same] at holds
      exact sound.kept isCurrent isMet other holds

theorem Sound.of_idle (named : Named s.slurm) (kept : Kept s) : Sound s 0 :=
  ⟨named, by simp, fun _ => rfl, by simp, kept⟩

theorem Sound.start (sound : Sound s others) (idle : s.running = false) :
    Sound { s with running := true } (((), []) ::ₘ others) := by
  obtain rfl := sound.idle idle
  refine ⟨sound.named, by simp, fun busy => (nomatch busy), ?_, sound.kept⟩
  rintro member inside key read ⟨h, mode, last⟩
  obtain rfl := by simpa using inside
  simp at last

theorem Sound.stop {member : Unit × Trace surroundings} (sound : Sound s (member ::ₘ others)) :
    Sound { s with running := false } others := by
  have alone : others = 0 := by simpa using sound.single
  exact alone ▸ .of_idle sound.named sound.kept

theorem sound_of_reachable {cfg : Config (system r req)} (reach : Reachable (system r req) cfg) :
    Sound cfg.state cfg.crew := by
  have code : ∀ _ : Unit, wp guard (sync r req) [] fun _ _ => True := fun _ => wp_sync r req []
  refine reach.invariant code (fun s crew _ => Sound s crew) ?_ ?_ ?_ ?_ ?_
  · rintro s ⟨named, idle, held⟩
    exact .of_idle named fun _ _ => held
  · intro s s' task past c reply others log sound permitted responds
    exact sound.act permitted responds
  · rintro s s' task others log sound ⟨idle, rfl⟩
    exact sound.start idle
  · rintro s s' task past out others log sound - rfl
    exact sound.stop
  · intro s s' others log sound changes
    exact sound.environment changes

end

def registeredNode (cpus : Int) : SlurmNode :=
  { name := "node", state := [.idle, .external], cpus, realMemory := 1 }

def drainedCluster (cpus : Int) : Cluster where
  slurm := update (fun _ => none) "node" (some (drainedBy "maintenance" (registeredNode cpus)))
  running := false
  fresh _ := false
  held := update (fun _ => false) "node" true
  current := true
  met := true

theorem initial_drainedCluster (cpus : Int) : (system sampleReconciler "node").initial (drainedCluster cpus) := by
  have blank : Named fun _ : String => none := fun _ _ absent => nomatch absent
  refine ⟨blank.update fun node at_ => ?_, rfl, fun name holds => ?_⟩
  · rw [← some.inj at_]
    rfl
  · by_cases same : name = "node"
    · subst same
      refine ⟨drainedBy "maintenance" (registeredNode cpus), by simp [drainedCluster], rfl, ?_, ?_⟩
      · exact (by decide : "maintenance" ≠ "")
      · exact (by decide +kernel : containsText "maintenance" nodeReasonPrefix = false)
    · simp [drainedCluster, update_of_ne same] at holds

def answerIn : (c : Command) → Cluster → c.Reply × Cluster
  | .getNode _ name, s => (readOf s.slurm name, { s with fresh := update s.fresh name true })
  | .updateNode name msg, s =>
    (.ok (), { s.judge (.updateNode name msg) with slurm := written s.slurm (.updateNode name msg) })
  | .createNode conf, s =>
    (if s.slurm conf.nodeName = none then .ok () else .error (.other none ""),
      { s with slurm := written s.slurm (.createNode conf) })
  | .deleteNode name, s =>
    (.ok (), { s.judge (.deleteNode name) with slurm := written s.slurm (.deleteNode name) })
  | .getPartition _, s => (.ok (), s)
  | .readNode name, s =>
    (if same : labeledNode.name = name then .ok ⟨labeledNode, same⟩ else .error .notFound, s)
  | .nodesBySlurmName _, s => (.ok [], s)
  | .patchTaints _ _, s | .patchConditions _ _, s => (.ok (), s)
  | .resourceSlices _, s => (.ok [], s)
  | .nodeInventory _ _, s => (.ok ⟨[], List.nodup_nil⟩, s)
  | .push _ _, s => ((), s)
  | .pop _, s => (0, s)

theorem respond_answerIn (c : Command) (s : Cluster) : respond c (answerIn c s).1 s (answerIn c s).2 := by
  cases c with
  | getNode mode name => exact ⟨.inl rfl, rfl⟩
  | updateNode name msg => exact .inl rfl
  | createNode conf =>
    refine ⟨.inl rfl, fun exists_ => ?_⟩
    simp [answerIn, exists_]
  | deleteNode name => exact .inl rfl
  | _ => rfl

def afterPass (cpus : Int) : Cluster :=
  { (runIn answerIn (sync sampleReconciler "node")
      { drainedCluster cpus with running := true }).2 with running := false }

theorem reachable_afterPass (cpus : Int) :
    ∃ log, Reachable (system sampleReconciler "node") ⟨afterPass cpus, 0, log⟩ :=
  ⟨_, Reachable.run (S := system sampleReconciler "node") respond_answerIn
    (.init (initial_drainedCluster cpus)) () ⟨rfl, rfl⟩ rfl⟩

end SlurmBridge.Node.AdminDrain
