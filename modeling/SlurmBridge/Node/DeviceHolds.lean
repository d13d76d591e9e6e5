/- source: internal/controller/node/slurmcontrol/slurmcontrol.go, hybrid_cpu.go,
     internal/controller/node/node_sync.go, internal/dra/gres.go,
     internal/scheduler/plugins/slurmbridge/deviceprofile.go
   digest: No two unfinished allocations of a node hold the same device, unless a map is rewritten
     in place under an allocation or a node is undrained while the bridge removes it. -/

import SlurmBridge.Foundation.Concurrency
import SlurmBridge.Foundation.Holdings
import SlurmBridge.Node.HybridIndexes
import SlurmBridge.Node.Writes

set_option autoImplicit false

namespace SlurmBridge.Node.DeviceHolds

open Foundation.Interaction Foundation.Concurrency Foundation.Holdings Foundation.Checked
open Dra.IndexedGRES Node.Configuration Node.SlurmControl Node.Sync Node.Writes
open Registration.Interface (SlurmError)
open Node.HybridIndexes (gpus gpuDevice typeA)
open Option

abbrev Key := String × Nat

/-- Where the map in a node's Extra field leads. -/
def leadsAt (node : Option SlurmNode) (k : Key) (device : DeviceIdentity) : Prop :=
  ∃ n, node = some n ∧ Leads n.extra k.1 k.2 device

/-- A Slurm node and the unfinished allocations that use it, known by their numbers. -/
structure Site where
  node : Option SlurmNode
  ledger : Ledger Nat Key DeviceIdentity
  running : Bool
  /-- The pass has just read that the node is drained and has no jobs. -/
  drained : Prop
  /-- The pass has created the node and not yet recorded its inventory. -/
  born : Prop
  /-- No step so far was one that can let a device be held twice. -/
  met : Prop

/-- A map that leads no other index to a device that is held. -/
def Careful (ledger : Ledger Nat Key DeviceIdentity) (value : Extra) : Prop :=
  ∀ g device, (g, device) ∈ ledger.holds → ∀ k : Key, Leads value k.1 k.2 device → k = g.2

/-- What is asked of a write.  A map must be careful unless it is the first one of the node. -/
def Site.judge (s : Site) : Command → Site
  | .updateNode _ msg =>
    { s with
      drained := False
      met := s.met ∧ (s.born ∨ ∀ value, msg.extra = some value → Careful s.ledger value) }
  | _ => { s with drained := False }

def Site.apply (s : Site) : Command → Site
  | .updateNode _ msg => { s with node := s.node.map (applyUpdate msg), born := s.born ∧ msg.extra = none }
  | .createNode conf => { s with node := some (createdNode conf), born := True }
  | .deleteNode _ => { s with node := none, born := False }
  | _ => s

/-- A write is judged; it takes effect, unless it fails, and may do so even then. -/
def Sent (c : Command) (failed : Prop) (s s' : Site) : Prop :=
  s' = (s.judge c).apply c ∨ failed ∧ s' = s.judge c

def Shows (name : String) (s : Site) : (mode : ReadMode) → String → Except SlurmError SlurmNode → Prop
  | .refresh, key, reply => key = name ∧ ∃ read, reply = .ok read ∧ read.isDrain = true ∧ read.isBusy = false
  | .live, _, _ => s.drained
  | .cached, _, _ => False

/-- Reads past the cache tell how the node is.  Other nodes are not of interest. -/
def respond (name : String) : (c : Command) → c.Reply → Site → Site → Prop
  | .getNode mode key, reply, s, s' =>
    (∀ read, reply = .ok read → read.name = key) ∧
      (mode = .refresh → key = name → ∀ read, reply = .ok read → s.node = some read) ∧
      s' = { s with drained := Shows name s mode key reply }
  | .updateNode key msg, reply, s, s' =>
    if key = name then Sent (.updateNode key msg) (reply ≠ .ok ()) s s' else s' = { s with drained := False }
  | .createNode conf, reply, s, s' =>
    if conf.nodeName = name ∧ s.node = none then Sent (.createNode conf) (reply ≠ .ok ()) s s'
    else (conf.nodeName = name → reply ≠ .ok ()) ∧ s' = { s with drained := False }
  | .deleteNode key, reply, s, s' =>
    if key = name then Sent (.deleteNode key) (reply ≠ .ok ()) s s' else s' = { s with drained := False }
  | _, _, s, s' => s' = { s with drained := False }

def translation (profileName : String) (indexes : List Nat) (devices : List DeviceIdentity) :
    Set (Key × DeviceIdentity) :=
  { t | t.1.1 = profileName ∧ (t.1.2, t.2) ∈ indexes.zip devices }

inductive Environment (s : Site) : Site → Prop
  /-- Slurm grants an index that no other unfinished allocation has.  The node then has a job,
  and a drained node gets none. -/
  | grant {node : SlurmNode} (found : s.node = some node) (undrained : node.isDrain = false) (a : Nat)
      (k : Key) (free : ∀ a', (a', k) ∈ s.ledger.grants → a' = a) :
      Environment s { s with
        node := some { node with state := .mixed :: node.state }
        ledger := s.ledger.grant a k }
  /-- A claim gets the devices that the current map gives for its indexes. -/
  | claim {node : SlurmNode} {applied : AppliedInventory} {profileName : String} {indexes : List Nat}
      {devices : List DeviceIdentity} (found : s.node = some node)
      (decoded : decodeAppliedInventory node.extra = .ok applied)
      (translated : applied.devices profileName indexes = .ok devices) (a : Nat)
      (granted : ∀ index ∈ indexes, (a, (profileName, index)) ∈ s.ledger.grants) :
      Environment s { s with ledger := s.ledger.claim a (translation profileName indexes devices) }
  | finish (a : Nat) : Environment s { s with ledger := s.ledger.finish a }
  /-- Slurm and administrators change the node, except that a node with jobs stays and is busy,
  and that nobody else writes maps. -/
  | change (found : Option SlurmNode)
      (busy : ∀ g ∈ s.ledger.grants, ∃ node, found = some node ∧ node.isBusy = true)
      (extra : ∀ node, found = some node → node.extra.isOwned = false ∨
        ∃ old, s.node = some old ∧ node.extra = old.extra) :
      Environment s { s with
        node := found
        met := s.met ∧ (s.drained → ∀ node, found = some node → node.isDrain = true) }

/-- Passes for one Kubernetes node, and the Slurm node of some name. -/
def system (r : NodeReconciler) (req name : String) : System surroundings where
  State := Site
  Task := Unit
  Out := Except Failure Unit
  code _ := sync r req
  initial s := s.ledger = .empty ∧ s.running = false ∧ ¬s.drained ∧ ¬s.born ∧
    ∀ node, s.node = some node → Separates node.extra
  respond := respond name
  start _ s s' := s.running = false ∧ s' = { s with running := true }
  stop _ _ s s' := s' = { s with running := false, drained := False, born := False }
  environment := Environment

/-- The pass has just read that the node can be removed, and at most read it again since. -/
inductive DrainSeen (name : String) (past : Trace surroundings) : Prop
  | now {h : Trace surroundings} {read : SlurmNode} (ends : past = h ++ [⟨.getNode .refresh name, .ok read⟩])
      (isDrain : read.isDrain = true) (idle : read.isBusy = false)
  | again {h : Trace surroundings} {read read' : SlurmNode}
      (ends : past = h ++ [⟨.getNode .refresh name, .ok read⟩] ++ [⟨.getNode .live name, .ok read'⟩])
      (isDrain : read.isDrain = true) (idle : read.isBusy = false)

/-- The last thing the pass did was to create the node. -/
def CreatedLast (name : String) (past : Trace surroundings) : Prop :=
  ∃ h conf, past = h ++ [⟨.createNode conf, .ok ()⟩] ∧ conf.nodeName = name

/-- What holds of the node as long as the condition was met. -/
structure Facts (s : Site) : Prop where
  separates : ∀ node, s.node = some node → Separates node.extra
  fair : Fair (leadsAt s.node) s.ledger
  busy : ∀ g ∈ s.ledger.grants, ∃ node, s.node = some node ∧ node.isBusy = true
  quiet : s.drained → s.ledger.grants = ∅ ∧ ∀ node, s.node = some node → node.isDrain = true
  blank : s.born → s.ledger.holds = ∅ ∧ ∀ node, s.node = some node → node.extra.isOwned = false

/-- What holds whenever a pass may act. -/
structure Sound (name : String) (s : Site) (crew : Multiset (Unit × Trace surroundings)) : Prop where
  single : crew.card ≤ 1
  idle : s.running = false → crew = 0
  named : ∀ member ∈ crew, ∀ key read, LastRead member.2 key read → read.name = key
  window : ∀ member ∈ crew, DrainSeen name member.2 → s.drained
  created : ∀ member ∈ crew, CreatedLast name member.2 → s.born
  facts : s.met → Facts s

section
variable {s s' : Site} {msg : UpdateNodeMsg}

theorem leadsAt_update {node : Option SlurmNode} {k : Key} {device : DeviceIdentity}
    (leads : leadsAt (node.map (applyUpdate msg)) k device) :
    leadsAt node k device ∨ ∃ value, msg.extra = some value ∧ Leads value k.1 k.2 device := by
  obtain ⟨n, at_, leads⟩ := leads
  obtain ⟨old, found, rfl⟩ := map_eq_some_iff.mp at_
  cases extra : msg.extra with
  | none => exact .inl ⟨old, found, by simpa [extra] using leads⟩
  | some value => exact .inr ⟨value, rfl, by simpa [extra] using leads⟩

theorem Facts.settle (facts : Facts s) : Facts { s with drained := False } :=
  { facts with quiet := False.elim }

variable {past : Trace surroundings} {name : String}

theorem Facts.update (facts : Facts s) (permitted : Permitted past name msg)
    (careful : s.born ∨ ∀ value, msg.extra = some value → Careful s.ledger value) :
    Facts ((s.judge (.updateNode name msg)).apply (.updateNode name msg)) where
  separates := by
    intro node at_
    obtain ⟨old, found, rfl⟩ := map_eq_some_iff.mp at_
    have kept : msg.extra = none → Separates (applyUpdate msg old).extra := by
      intro none
      rw [applyUpdate_extra, none]
      exact facts.separates old found
    cases permitted with
    | plain _ _ extra | drain _ _ _ _ extra | undrain _ _ _ _ extra => exact kept extra
    | hybrid _ _ _ _ _ extra separates | created _ _ _ extra separates =>
      rw [applyUpdate_extra, extra]
      exact separates
  fair := facts.fair.remap fun g device holds k leads => by
    rcases leadsAt_update leads with old | ⟨value, extra, new⟩
    · exact facts.fair.fixed g device holds k old
    · rcases careful with born | careful
      · exact absurd holds (by rw [(facts.blank born).1]; exact Set.notMem_empty _)
      · exact careful value extra g device holds k new
  busy := by
    intro g granted
    obtain ⟨node, found, busy⟩ := facts.busy g granted
    exact ⟨applyUpdate msg node, map_eq_some_iff.mpr ⟨node, found, rfl⟩,
      (applyUpdate_isBusy msg node).trans busy⟩
  quiet := False.elim
  blank := by
    rintro ⟨born, none⟩
    refine ⟨(facts.blank born).1, fun node at_ => ?_⟩
    obtain ⟨old, found, rfl⟩ := map_eq_some_iff.mp at_
    rw [applyUpdate_extra, none]
    exact (facts.blank born).2 old found

theorem Facts.no_holds (facts : Facts s) (none : s.ledger.grants = ∅) : s.ledger.holds = ∅ := by
  refine Set.eq_empty_of_forall_notMem fun h holds => ?_
  have granted := facts.fair.granted h.1 h.2 holds
  rw [none] at granted
  exact granted

theorem Facts.create (facts : Facts s) (missing : s.node = none) (conf : NodeConf) :
    Facts ((s.judge (.createNode conf)).apply (.createNode conf)) := by
  have noGrants : s.ledger.grants = ∅ := by
    refine Set.eq_empty_of_forall_notMem fun g granted => ?_
    obtain ⟨node, found, -⟩ := facts.busy g granted
    rw [missing] at found
    cases found
  have unowned : ∀ node, some (createdNode conf) = some node → node.extra.isOwned = false := by
    intro node at_
    rw [← some.inj at_, createdNode_extra]
    rfl
  exact {
    separates := fun node at_ => separates_foreign (unowned node at_)
    fair := facts.fair.remap fun g device holds => by
      rw [facts.no_holds noGrants] at holds
      exact holds.elim
    busy := fun g granted => by
      rw [show ((s.judge (.createNode conf)).apply (.createNode conf)).ledger.grants = ∅ from noGrants] at granted
      exact granted.elim
    quiet := False.elim
    blank := fun _ => ⟨facts.no_holds noGrants, unowned⟩ }

theorem Facts.delete (facts : Facts s) (drained : s.drained) (key : String) :
    Facts ((s.judge (.deleteNode key)).apply (.deleteNode key)) := by
  have noGrants := (facts.quiet drained).1
  exact {
    separates := fun node at_ => nomatch at_
    fair := facts.fair.remap fun g device holds => by
      rw [facts.no_holds noGrants] at holds
      exact holds.elim
    busy := fun g granted => by
      rw [show ((s.judge (.deleteNode key)).apply (.deleteNode key)).ledger.grants = ∅ from noGrants] at granted
      exact granted.elim
    quiet := False.elim
    blank := False.elim }

theorem Facts.environment (facts : s.met → Facts s) (changes : Environment s s') (met : s'.met) : Facts s' := by
  cases changes with
  | @grant node found undrained a k free =>
    have facts := facts met
    have apart : ¬s.drained := by
      intro drained
      have isDrain := (facts.quiet drained).2 node found
      rw [undrained] at isDrain
      cases isDrain
    have same : ∀ n, some { node with state := .mixed :: node.state } = some n → n.extra = node.extra := by
      intro n at_
      rw [← some.inj at_]
    exact {
      separates := fun n at_ => by
        rw [same n at_]
        exact facts.separates node found
      fair := (facts.fair.grant free).remap fun g device holds k leads => by
        obtain ⟨n, at_, leads⟩ := leads
        rw [same n at_] at leads
        exact facts.fair.fixed g device holds k ⟨node, found, leads⟩
      busy := fun g _ => ⟨_, rfl, by simp [SlurmNode.isBusy]⟩
      quiet := fun drained => absurd drained apart
      blank := fun born => ⟨(facts.blank born).1, fun n at_ => by
        rw [same n at_]
        exact (facts.blank born).2 node found⟩ }
  | @claim node applied profileName indexes devices found decoded translated a granted =>
    have facts := facts met
    have leads : ∀ (k : Key) device, (k, device) ∈ translation profileName indexes devices →
        Leads node.extra k.1 k.2 device := by
      rintro ⟨_, index⟩ device ⟨rfl, paired⟩
      exact (List.forall₂_iff_zip.mp (leads_of_devices decoded translated)).2 paired
    have separates : ∀ k k' device, leadsAt s.node k device → leadsAt s.node k' device → k = k' := by
      rintro ⟨_, _⟩ ⟨_, _⟩ device ⟨n, at_, leads⟩ ⟨n', at', leads'⟩
      obtain rfl := some.inj (at_.symm.trans at')
      obtain ⟨rfl, rfl⟩ := facts.separates n at_ _ _ _ _ device leads leads'
      rfl
    refine { facts with
      fair := facts.fair.claim separates (fun k device inside => ⟨node, found, leads k device inside⟩) ?_
      blank := fun born => ⟨?_, (facts.blank born).2⟩ }
    · rintro ⟨_, index⟩ device ⟨rfl, paired⟩
      exact granted index (List.of_mem_zip paired).1
    · -- A node without a map gives no devices.
      have none := (facts.blank born).1
      refine Set.eq_empty_of_forall_notMem fun h holds => ?_
      rcases holds with old | ⟨-, inside⟩
      · rw [none] at old
        exact old
      · exact not_leads_foreign ((facts.blank born).2 node found) (leads _ _ inside)
  | finish a =>
    have facts := facts met
    refine { facts with
      fair := facts.fair.finish a
      busy := fun g granted => facts.busy g granted.1
      quiet := fun drained => ⟨?_, (facts.quiet drained).2⟩
      blank := fun born => ⟨?_, (facts.blank born).2⟩ }
    · refine Set.eq_empty_of_forall_notMem fun g granted => ?_
      have old := granted.1
      rw [(facts.quiet drained).1] at old
      exact old
    · refine Set.eq_empty_of_forall_notMem fun h holds => ?_
      have old := holds.1
      rw [(facts.blank born).1] at old
      exact old
  | change found busy extra =>
    obtain ⟨before, undrained⟩ := met
    have facts := facts before
    exact {
      separates := fun node at_ => by
        rcases extra node at_ with foreign | ⟨old, oldAt, same⟩
        · exact separates_foreign foreign
        · rw [same]
          exact facts.separates old oldAt
      fair := facts.fair.remap fun g device holds k leads => by
        obtain ⟨node, at_, leads⟩ := leads
        rcases extra node at_ with foreign | ⟨old, oldAt, same⟩
        · exact absurd leads (not_leads_foreign foreign)
        · rw [same] at leads
          exact facts.fair.fixed g device holds k ⟨old, oldAt, leads⟩
      busy := busy
      quiet := fun drained => ⟨(facts.quiet drained).1, undrained drained⟩
      blank := fun born => ⟨(facts.blank born).1, fun node at_ => by
        rcases extra node at_ with foreign | ⟨old, oldAt, same⟩
        · exact foreign
        · rw [same]
          exact (facts.blank born).2 old oldAt⟩ }

theorem last_eq {h : Trace surroundings} {e e' : Event surroundings} (same : past ++ [e] = h ++ [e']) :
    past = h ∧ e = e' := by
  obtain ⟨before, last⟩ := List.append_inj' same rfl
  exact ⟨before, (List.cons.inj last).1⟩

variable {c : Command} {reply : c.Reply}

theorem DrainSeen.snoc (seen : DrainSeen name (past ++ [⟨c, reply⟩])) :
    (∃ read, (⟨c, reply⟩ : Event surroundings) = ⟨.getNode .refresh name, .ok read⟩ ∧
        read.isDrain = true ∧ read.isBusy = false) ∨
      ∃ read, (⟨c, reply⟩ : Event surroundings) = ⟨.getNode .live name, .ok read⟩ ∧ DrainSeen name past := by
  cases seen with
  | now ends isDrain idle => exact .inl ⟨_, (last_eq ends).2, isDrain, idle⟩
  | again ends isDrain idle =>
    obtain ⟨before, last⟩ := last_eq ends
    exact .inr ⟨_, last, .now before isDrain idle⟩

variable {name : String} {past : Trace surroundings} {others : Multiset (Unit × Trace surroundings)}

section
variable (sound : Sound name s (((), past) ::ₘ others))

include sound

theorem Sound.alone : others = 0 := by
  simpa using sound.single

theorem Sound.busy : s.running = true := by
  by_contra idle
  simpa using sound.idle (by simpa using idle)

theorem Sound.write (write : ∀ mode key, c ≠ .getNode mode key)
    (running : s'.running = s.running) (created : CreatedLast name (past ++ [⟨c, reply⟩]) → s'.born)
    (facts : s'.met → Facts s') : Sound name s' (((), past ++ [⟨c, reply⟩]) ::ₘ others) := by
  obtain rfl := sound.alone
  refine ⟨by simp, fun idle => ?_, ?_, ?_, ?_, facts⟩
  · rw [running, sound.busy] at idle
    cases idle
  · intro member inside key read last
    obtain rfl := by simpa using inside
    obtain ⟨mode, same⟩ := last.snoc
    exact absurd (congrArg Sigma.fst same) (write mode key)
  · intro member inside seen
    obtain rfl := by simpa using inside
    rcases seen.snoc with ⟨read, same, -⟩ | ⟨read, same, -⟩
    · exact absurd (congrArg Sigma.fst same) (write _ _)
    · exact absurd (congrArg Sigma.fst same) (write _ _)
  · intro member inside last
    obtain rfl := by simpa using inside
    exact created last

theorem Sound.elsewhere
    (write : ∀ mode key, c ≠ .getNode mode key) (created : ¬CreatedLast name (past ++ [⟨c, reply⟩])) :
    Sound name { s with drained := False } (((), past ++ [⟨c, reply⟩]) ::ₘ others) :=
  sound.write write rfl (fun last => absurd last created) fun met => (sound.facts met).settle

end

theorem not_createdLast (other : ∀ conf, c ≠ .createNode conf) : ¬CreatedLast name (past ++ [⟨c, reply⟩]) := by
  rintro ⟨h, conf, same, -⟩
  exact other conf (congrArg Sigma.fst (last_eq same).2)

theorem Sound.read {mode : ReadMode} {key : String} {reply : Except SlurmError SlurmNode}
    (sound : Sound name s (((), past) ::ₘ others)) (named : ∀ read, reply = .ok read → read.name = key)
    (truthful : mode = .refresh → key = name → ∀ read, reply = .ok read → s.node = some read) :
    Sound name { s with drained := Shows name s mode key reply }
      (((), past ++ [⟨.getNode mode key, reply⟩]) ::ₘ others) := by
  obtain rfl := sound.alone
  refine ⟨by simp, fun idle => ?_, ?_, ?_, ?_, fun met => ?_⟩
  · rw [sound.busy] at idle
    cases idle
  · intro member inside key' read last
    obtain rfl := by simpa using inside
    obtain ⟨mode', same⟩ := last.snoc
    obtain ⟨⟨-, rfl⟩, answer⟩ : (mode = mode' ∧ key = key') ∧ reply = .ok read := by simpa using same
    exact named read answer
  · intro member inside seen
    obtain rfl := by simpa using inside
    rcases seen.snoc with ⟨read, same, isDrain, idle⟩ | ⟨read, same, before⟩
    · obtain ⟨⟨rfl, rfl⟩, answer⟩ : (mode = .refresh ∧ key = name) ∧ reply = .ok read := by simpa using same
      exact ⟨rfl, read, answer, isDrain, idle⟩
    · obtain ⟨⟨rfl, -⟩, -⟩ : (mode = .live ∧ key = name) ∧ reply = .ok read := by simpa using same
      exact sound.window _ (Multiset.mem_cons_self _ _) before
  · intro member inside last
    obtain rfl := by simpa using inside
    exact absurd last (not_createdLast (by simp))
  · have facts := sound.facts met
    refine { facts with quiet := fun shows => ?_ }
    cases mode with
    | cached => exact shows.elim
    | live => exact facts.quiet shows
    | refresh =>
      obtain ⟨rfl, read, answer, isDrain, idle⟩ := shows
      have found := truthful rfl rfl read answer
      refine ⟨Set.eq_empty_of_forall_notMem fun g granted => ?_, fun node at_ => ?_⟩
      · obtain ⟨node, at_, busy⟩ := facts.busy g granted
        obtain rfl := some.inj (found.symm.trans at_)
        rw [idle] at busy
        cases busy
      · rw [← some.inj (found.symm.trans at_)]
        exact isDrain

theorem Sound.act (sound : Sound name s (((), past) ::ₘ others)) (permitted : guard past c)
    (responds : respond name c reply s s') : Sound name s' (((), past ++ [⟨c, reply⟩]) ::ₘ others) := by
  cases c with
  | getNode mode key =>
    obtain ⟨named, truthful, rfl⟩ := responds
    exact sound.read named truthful
  | updateNode key msg =>
    simp only [respond] at responds
    split at responds
    · rcases responds with rfl | ⟨-, rfl⟩
      · exact sound.write (by simp) rfl (fun last => absurd last (not_createdLast (by simp)))
          fun ⟨met, careful⟩ => (sound.facts met).update permitted careful
      · exact sound.write (by simp) rfl (fun last => absurd last (not_createdLast (by simp)))
          fun ⟨met, _⟩ => { sound.facts met with quiet := False.elim }
    · subst responds
      exact sound.elsewhere (by simp) (not_createdLast (by simp))
  | createNode conf =>
    simp only [respond] at responds
    split at responds
    · rename_i missing
      rcases responds with rfl | ⟨failed, rfl⟩
      · exact sound.write (by simp) rfl (fun _ => trivial) fun met => (sound.facts met).create missing.2 conf
      · refine sound.write (by simp) rfl (fun last => ?_) fun met => (sound.facts met).settle
        obtain ⟨h, conf', same, -⟩ := last
        exact absurd (by simpa using (last_eq same).2) (by simp [failed])
    · obtain ⟨failed, rfl⟩ := responds
      refine sound.elsewhere (by simp) ?_
      rintro ⟨h, conf', same, named⟩
      obtain ⟨rfl, answer⟩ : conf = conf' ∧ reply = .ok () := by simpa using (last_eq same).2
      exact failed named answer
  | deleteNode key =>
    simp only [respond] at responds
    split at responds
    · rename_i here
      rcases responds with rfl | ⟨-, rfl⟩
      · refine sound.write (by simp) rfl (fun last => absurd last (not_createdLast (by simp))) fun met => ?_
        cases permitted with
        | @drained h' key' drained read ends named isDrain idle =>
          have same := sound.named _ (Multiset.mem_cons_self _ _) key' read ⟨_, _, ends⟩
          obtain rfl : key' = name := same.symm.trans (named.trans here)
          exact (sound.facts met).delete
            (sound.window _ (Multiset.mem_cons_self _ _) (.again ends isDrain idle)) key
      · exact sound.write (by simp) rfl (fun last => absurd last (not_createdLast (by simp)))
          fun met => (sound.facts met).settle
    · subst responds
      exact sound.elsewhere (by simp) (not_createdLast (by simp))
  | _ =>
    obtain rfl := responds
    exact sound.elsewhere (by simp) (not_createdLast (by simp))

theorem Sound.of_idle (facts : s.met → Facts s) : Sound name s 0 :=
  ⟨by simp, fun _ => rfl, by simp, by simp, by simp, facts⟩

theorem Sound.start (sound : Sound name s others) (idle : s.running = false) :
    Sound name { s with running := true } (((), []) ::ₘ others) := by
  obtain rfl := sound.idle idle
  refine ⟨by simp, fun busy => (nomatch busy), ?_, ?_, ?_, fun met => { sound.facts met with }⟩
  · rintro member inside key read ⟨h, mode, last⟩
    obtain rfl := by simpa using inside
    simp at last
  · intro member inside seen
    obtain rfl := by simpa using inside
    cases seen with
    | now ends => simp at ends
    | again ends => simp at ends
  · rintro member inside ⟨h, conf, last, -⟩
    obtain rfl := by simpa using inside
    simp at last

theorem Sound.stop (sound : Sound name s (((), past) ::ₘ others)) :
    Sound name { s with running := false, drained := False, born := False } others := by
  obtain rfl := sound.alone
  exact .of_idle fun met => { sound.facts met with quiet := False.elim, blank := False.elim }

theorem Sound.environment {crew : Multiset (Unit × Trace surroundings)} (sound : Sound name s crew)
    (changes : Environment s s') : Sound name s' crew := by
  have facts := Facts.environment sound.facts changes
  cases changes <;> exact ⟨sound.single, sound.idle, sound.named, sound.window, sound.created, facts⟩

theorem sound_of_reachable {r : NodeReconciler} {req : String} {cfg : Config (system r req name)}
    (reach : Reachable (system r req name) cfg) : Sound name cfg.state cfg.crew := by
  have code : ∀ _ : Unit, wp guard (sync r req) [] fun _ _ => True := fun _ => wp_sync r req []
  refine reach.invariant code (fun s crew _ => Sound name s crew) ?_ ?_ ?_ ?_ ?_
  · rintro s ⟨ledger, idle, undrained, unborn, separates⟩
    refine .of_idle fun met => ⟨separates, ?_, ?_, fun drained => absurd drained undrained,
      fun born => absurd born unborn⟩
    · rw [ledger]
      exact fair_empty
    · rw [ledger]
      exact fun _ granted => granted.elim
  · intro s s' task past c reply others log sound permitted responds
    exact sound.act permitted responds
  · rintro s s' task others log sound ⟨idle, rfl⟩
    exact sound.start idle
  · rintro s s' task past out others log sound - rfl
    exact sound.stop
  · intro s s' others log sound changes
    exact sound.environment changes

end

/-- In these runs the map of the node leads no two indexes to one device, and the node is not deleted while
an allocation has devices of it. -/
theorem granted_node_kept {r : NodeReconciler} {req name : String} {cfg : Config (system r req name)}
    (reach : Reachable (system r req name) cfg) (met : cfg.state.met) :
    (∀ node, cfg.state.node = some node → Separates node.extra) ∧
      ∀ g ∈ cfg.state.ledger.grants, ∃ node, cfg.state.node = some node ∧ node.isBusy = true :=
  ⟨((sound_of_reachable reach).facts met).separates, ((sound_of_reachable reach).facts met).busy⟩

section

def recorded (inventory : List GRESInventory) : Extra :=
  (encodeAppliedInventory inventory).toOption.getD .empty

theorem separates_recorded {inventory : List GRESInventory}
    (nodup : (inventory.flatMap (·.devices)).Nodup) : Separates (recorded inventory) := by
  unfold recorded
  cases encoded : encodeAppliedInventory inventory with
  | ok extra => exact separates_encoded nodup encoded
  | error e => exact separates_foreign rfl

def movedA : GRESInventory :=
  gpus HybridIndexes.nameA [gpuDevice "gpu1", gpuDevice "gpu2"] (by decide)
    (by simp; exact ⟨⟨by decide, by decide, by decide⟩, ⟨by decide, by decide, by decide⟩⟩)

def idleNode : SlurmNode := { name := "node", gres := "gpu:a:2", extra := recorded [typeA] }

def idleSite : Site where
  node := some idleNode
  ledger := .empty
  running := false
  drained := False
  born := False
  met := True

def Site.grown (s : Site) (node : SlurmNode) (a index : Nat) (device : DeviceIdentity) : Site :=
  { s with
    node := some { node with state := .mixed :: node.state }
    ledger := (s.ledger.grant a ("a", index)).claim a (translation "a" [index] [device]) }

theorem Site.grown_holds (s : Site) (node : SlurmNode) (a index : Nat) (device : DeviceIdentity) :
    ((a, ("a", index)), device) ∈ (s.grown node a index device).ledger.holds :=
  .inr ⟨rfl, rfl, by simp⟩

def translated (value : Extra) (index : Nat) : Option (List DeviceIdentity) :=
  (decodeAppliedInventory value >>= fun applied => applied.devices "a" [index]).toOption

theorem reachable_grown {r : NodeReconciler} {req name : String} {s : Site}
    {log : List (Moment (system r req name))} (reach : Reachable (system r req name) ⟨s, 0, log⟩)
    {node : SlurmNode} {a index : Nat} {device : DeviceIdentity} (found : s.node = some node)
    (undrained : node.isDrain = false) (free : ∀ a', (a', ("a", index)) ∈ s.ledger.grants → a' = a)
    (gives : translated node.extra index = some [device]) :
    Reachable (system r req name) ⟨s.grown node a index device, 0, log⟩ := by
  obtain ⟨applied, decoded, devices⟩ : ∃ applied, decodeAppliedInventory node.extra = .ok applied ∧
      applied.devices "a" [index] = .ok [device] := by
    unfold translated at gives
    cases answer : decodeAppliedInventory node.extra >>= fun applied => applied.devices "a" [index] with
    | error e =>
      rw [answer] at gives
      cases gives
    | ok devices =>
      rw [answer] at gives
      obtain rfl := some.inj gives
      exact bind_eq_ok.mp answer
  have granted := Reachable.environment reach (Environment.grant found undrained a ("a", index) free)
  have busy : ({ s with
      node := some { node with state := .mixed :: node.state }
      ledger := s.ledger.grant a ("a", index) } : Site).node =
        some { node with state := .mixed :: node.state } := rfl
  refine .environment granted (.claim busy decoded devices a fun i member => ?_)
  rw [List.mem_singleton.mp member]
  exact Set.mem_insert _ _

def answerIn (g : GRESInventory) : (c : Command) → Site → c.Reply × Site
  | .getNode mode key, s =>
    let reply := match s.node with
      | some node => if key = "node" ∧ node.name = key then .ok node else .error .notFound
      | none => .error .notFound
    (reply, { s with drained := Shows "node" s mode key reply })
  | .updateNode key msg, s =>
    (.ok (), if key = "node" then (s.judge (.updateNode key msg)).apply (.updateNode key msg)
      else { s with drained := False })
  | .createNode conf, s =>
    if conf.nodeName = "node" ∧ s.node = none then
      (.ok (), (s.judge (.createNode conf)).apply (.createNode conf))
    else (.error (.other none ""), { s with drained := False })
  | .deleteNode key, s =>
    (.ok (), if key = "node" then (s.judge (.deleteNode key)).apply (.deleteNode key)
      else { s with drained := False })
  | .getPartition _, s => (.ok (), { s with drained := False })
  | .readNode name, s =>
    (if same : plainNode.name = name then .ok ⟨plainNode, same⟩ else .error .notFound, { s with drained := False })
  | .nodesBySlurmName _, s => (.ok [], { s with drained := False })
  | .patchTaints _ _, s | .patchConditions _ _, s => (.ok (), { s with drained := False })
  | .resourceSlices _, s => (.ok [], { s with drained := False })
  | .nodeInventory _ _, s => (.ok ⟨[g], by simpa using g.nodup⟩, { s with drained := False })
  | .push _ _, s => ((), { s with drained := False })
  | .pop _, s => (0, { s with drained := False })

theorem respond_answerIn (g : GRESInventory) (c : Command) (s : Site) :
    respond "node" c (answerIn g c s).1 s (answerIn g c s).2 := by
  cases c with
  | getNode mode key =>
    have truthful : ∀ read, (answerIn g (.getNode mode key) s).1 = .ok read →
        read.name = key ∧ s.node = some read := by
      intro read answer
      simp only [answerIn] at answer
      split at answer
      · rename_i node found
        split at answer
        · rename_i here
          obtain rfl := Except.ok.inj answer
          exact ⟨here.2, found⟩
        · cases answer
      · cases answer
    exact ⟨fun read answer => (truthful read answer).1, fun _ _ read answer => (truthful read answer).2, rfl⟩
  | updateNode | deleteNode =>
    simp only [respond, answerIn]
    split
    · exact .inl rfl
    · rfl
  | createNode conf =>
    simp only [respond, answerIn]
    split
    · exact .inl rfl
    · exact ⟨fun _ => by simp, rfl⟩
  | _ => rfl

variable {α : Type}

theorem ledger_runIn (g : GRESInventory) (p : Prog surroundings α) (s : Site) :
    (runIn (answerIn g) p s).2.ledger = s.ledger := by
  induction p generalizing s with
  | ret out => rfl
  | step c next ih =>
    have kept : (answerIn g c s).2.ledger = s.ledger := by
      cases c <;> simp only [answerIn] <;> (try split) <;> rfl
    exact (ih _ _).trans kept

def writesMap : Command → Bool
  | .updateNode _ msg => msg.extra.isSome
  | _ => false

theorem met_runIn (g : GRESInventory) (p : Prog surroundings α) (s : Site) (met : s.met)
    (none : (recordIn (answerIn g) p s).all (fun e => !writesMap e.1) = true) :
    (runIn (answerIn g) p s).2.met := by
  induction p generalizing s with
  | ret out => exact met
  | step c next ih =>
    simp only [recordIn, List.all_cons, Bool.and_eq_true, Bool.not_eq_true'] at none
    refine ih _ _ ?_ none.2
    cases c with
    | updateNode key msg =>
      have blank : msg.extra = .none := by simpa [writesMap] using none.1
      simp only [answerIn]
      split
      · exact ⟨met, .inr fun value extra => by rw [blank] at extra; cases extra⟩
      · exact met
    | createNode | deleteNode =>
      simp only [answerIn]
      split
      · exact met
      · exact met
    | _ => exact met

def usedSite : Site := idleSite.grown idleNode 1 1 (gpuDevice "gpu1")

def afterPass (g : GRESInventory) : Site :=
  { (runIn (answerIn g) (sync sampleReconciler "node") { usedSite with running := true }).2 with
    running := false, drained := False, born := False }

theorem afterPass_ledger (g : GRESInventory) : (afterPass g).ledger = usedSite.ledger :=
  ledger_runIn g _ _

theorem afterPass_holds (g : GRESInventory) :
    ((1, ("a", 1)), gpuDevice "gpu1") ∈ (afterPass g).ledger.holds := by
  rw [afterPass_ledger]
  exact Site.grown_holds idleSite idleNode 1 1 _

theorem initial_idleSite : (system sampleReconciler "node" "node").initial idleSite := by
  refine ⟨rfl, rfl, id, id, fun node at_ => ?_⟩
  rw [← some.inj at_]
  have nodup : ([typeA].flatMap (·.devices)).Nodup := by decide
  exact separates_recorded nodup

theorem reachable_afterPass (g : GRESInventory) :
    ∃ log, Reachable (system sampleReconciler "node" "node") ⟨afterPass g, 0, log⟩ := by
  have started : Reachable (system sampleReconciler "node" "node") ⟨usedSite, 0, []⟩ :=
    reachable_grown (.init initial_idleSite) rfl (by decide +kernel) (fun _ granted => granted.elim)
      (by decide +kernel)
  exact ⟨_, Reachable.run (S := system sampleReconciler "node" "node") (respond_answerIn g) started ()
    ⟨rfl, rfl⟩ rfl⟩

theorem granted_node_kept_unchanged : ∃ node, (afterPass typeA).node = some node ∧ node.isBusy = true := by
  obtain ⟨log, reach⟩ := reachable_afterPass typeA
  have met : (afterPass typeA).met := met_runIn typeA _ _ trivial (by decide +kernel)
  have granted : (1, ("a", 1)) ∈ (afterPass typeA).ledger.grants := by
    rw [afterPass_ledger]
    exact Set.mem_insert _ _
  exact (granted_node_kept reach met).2 _ granted

end

end SlurmBridge.Node.DeviceHolds
