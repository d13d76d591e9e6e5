/- source: internal/scheduler/plugins/slurmbridge/release.go, slurmbridge.go
   digest: Scheduling cycles and release workers as one concurrent system, and what its release
     queue keeps in every interleaving. -/

import SlurmBridge.Foundation.Concurrency
import SlurmBridge.Foundation.Tally
import SlurmBridge.Scheduler.PostFilter

set_option autoImplicit false

namespace SlurmBridge.Scheduler.ReleaseQueue

open Foundation.Interaction Foundation.Concurrency Foundation.Tally Foundation.Text Kube.Objects
open JobIR.IR Slurm.Job Scheduler.Plugin Scheduler.PostFilter List AList Option Nat Function

inductive Task
  | postFilter (cycle : Nat) (data : StateData) (pod : Pod) (m : NodeStatuses)
  | release (key : GroupAllocation)

inductive Out
  | filtered (status : Status) (data : StateData)
  | released (err : Option String)

def code : Task → Ctl Out
  | .postFilter _ data pod m => do
      let (status, data) ← postFilter data pod m
      return .filtered status data
  | .release key => do
      let err ← reconcileRelease key
      return .released err

def maxConcurrentReleases : Nat := 32

def start : Task → Memory → Memory → Prop
  | .postFilter cycle data _ _, s, s' => s.cycles cycle = some data ∧ s' = s
  | .release key, s, s' =>
    key ∈ s.queue ∧ key ∉ s.processing ∧ s.processing.length < maxConcurrentReleases ∧
      s' = { s with queue := s.queue.erase key, processing := key :: s.processing }

/-- A key whose run ended with an error is queued again after a delay. -/
def stop : Task → Out → Memory → Memory → Prop
  | .postFilter cycle _ _ _, .filtered _ data, s, s' =>
    s' = { s with cycles := update s.cycles cycle (some data) }
  | .release key, .released none, s, s' => s' = { s with processing := s.processing.erase key }
  | .release key, .released (some _), s, s' =>
    s' = { s with processing := s.processing.erase key, delayed := key :: s.delayed }
  | _, _, _, _ => False

/-- No component excludes nodes yet. -/
def Fresh (data : StateData) : Prop :=
  ∀ ir ∈ data.slurmJobIR, ∀ component ∈ ir.components, component.jobInfo.excNodes = []

/-- What happens besides: the queue is fed from the channel and after delays, time passes, and
PreFilter prepares scheduling cycles with a newly translated workload. -/
inductive Environment (s : Memory) : Memory → Prop
  | deliver {key : GroupAllocation} {rest : List GroupAllocation} (first : s.events = key :: rest) :
      Environment s (Memory.enqueue { s with events := rest } key)
  | due {key : GroupAllocation} (waiting : key ∈ s.delayed) :
      Environment s (Memory.enqueue { s with delayed := s.delayed.erase key } key)
  | tick (elapsed : Nat) : Environment s { s with clock := s.clock + elapsed }
  | preFilter (cycle : Nat) (data : StateData) (fresh : Fresh data) :
      Environment s { s with cycles := update s.cycles cycle (some data) }

def initialMemory : Memory where
  clock := 0
  progress := fun _ => .empty
  allocated := 0
  pending := fun _ => none
  holdReleases := ∅
  releases := 0
  events := []
  queue := []
  processing := []
  delayed := []
  cycles := fun _ => none

/-- The shared memory answers the commands that concern it; all other replies are arbitrary. -/
def respond (c : Command) (reply : c.Reply) (s s' : Memory) : Prop :=
  match s.serve c with
  | some served => (reply, s') = served
  | none => s' = s

/-- Scheduling cycles and release workers over the plugin's memory. -/
abbrev plugin : System surroundings where
  State := Memory
  Task := Task
  Out := Out
  code := code
  initial := fun s => s = initialMemory
  respond := respond
  start := start
  stop := stop
  environment := Environment

/-- Where a thread is with the work it deals with. -/
inductive Stage
  /-- Nothing was taken or handed over yet. -/
  | idle
  /-- PostFilter hands a work over that carries the progress, or has stored one and sends its key. -/
  | handing (progress : Nat)
  | sending (key : GroupAllocation)
  /-- A worker executes a work, has finished it, gives it up for a newer one, or has put it back. -/
  | running (work : ReleaseWork)
  | finishing
  | superseded
  | restored
  | ended

def Stage.next (stage : Stage) : Event surroundings → Stage
  | ⟨.recordProgress _ _ _ _, .handOver progress _ _⟩ => .handing progress
  | ⟨.storeRelease key _, _⟩ => .sending key
  | ⟨.sendEvent _, _⟩ => .ended
  | ⟨.takeRelease _, some work⟩ => .running work
  | ⟨.takeRelease _, none⟩ => .ended
  | ⟨.finishRelease _ _ _, _⟩ => .finishing
  | ⟨.restoreRelease _ _, true⟩ => .superseded
  | ⟨.restoreRelease _ _, false⟩ => .restored
  | ⟨.releasesDone, _⟩ => .ended
  | _ => stage

def stage (past : Trace surroundings) : Stage := past.foldl Stage.next .idle

@[simp] theorem stage_snoc (past : Trace surroundings) (e : Event surroundings) :
    stage (past ++ [e]) = (stage past).next e := by
  simp [stage]

/-- A work whose end the WaitGroup waits for. -/
def Stage.working : Stage → Nat
  | .running _ | .finishing | .superseded => 1
  | _ => 0

def Stage.carries : Stage → Option Nat
  | .handing progress => some progress
  | .running work => work.progress
  | _ => none

def again (work : ReleaseWork) : ReleaseWork := { work with attempts := work.attempts + 1 }

/-- When a task touches the shared memory. -/
def Guard (task : Task) (past : Trace surroundings) : Command → Prop
  | .recordProgress _ _ _ _ => stage past = .idle ∧ ∀ key, task ≠ .release key
  | .storeRelease _ work =>
    (∀ key, task ≠ .release key) ∧ (stage past = .idle ∧ work.progress = none ∨
        ∃ progress, stage past = .handing progress ∧ work.progress = some progress)
  | .sendEvent key => stage past = .sending key
  | .takeRelease key => stage past = .idle ∧ task = .release key
  | .finishRelease key work _ =>
    task = .release key ∧ ∃ taken, stage past = .running taken ∧ work = again taken
  | .restoreRelease key work =>
    task = .release key ∧ ∃ taken, stage past = .running taken ∧ work = again taken
  | .releasesDone => stage past = .finishing ∨ stage past = .superseded
  | _ => True

def Ends : Stage → Out → Prop
  | st, .filtered _ _ => st = .idle ∨ st = .ended
  | st, .released none => st = .ended
  | st, .released (some _) => st = .ended ∨ st = .restored

def Post (_ : Task) (past : Trace surroundings) (out : Out) : Prop := Ends (stage past) out

/-- The commands that do not touch the shared memory or a job's eligibility. -/
def Looking : Command → Prop
  | .updateJob _ _ _ | .releaseJob _ _ | .recordProgress _ _ _ _ | .deletePending _
  | .storeRelease _ _ | .sendEvent _ | .takeRelease _ | .finishRelease _ _ _ | .restoreRelease _ _
  | .releasesDone => False
  | _ => True

def Asking : Command → Prop
  | .recordProgress _ _ _ _ | .deletePending _ | .storeRelease _ _ | .sendEvent _ | .takeRelease _
  | .finishRelease _ _ _ | .restoreRelease _ _ | .releasesDone => False
  | _ => True

variable {c : Command}

theorem asking_of_looking (looking : Looking c) : Asking c := by
  cases c <;> trivial

theorem only_asking {α : Type} {p : Ctl α} (looking : Only Looking p) : Only Asking p :=
  looking.mono fun _ => asking_of_looking

variable {past : Trace surroundings}

theorem stage_asking {t : Trace surroundings} (asking : ∀ e ∈ t, Asking e.1) :
    stage (past ++ t) = stage past := by
  induction t generalizing past with
  | nil => simp
  | cons e t ih =>
    have first : stage (past ++ [e]) = stage past := by
      have plain := asking e mem_cons_self
      obtain ⟨c, reply⟩ := e
      rw [stage_snoc]
      cases c <;> first | rfl | exact absurd plain id
    have rest := @ih (past ++ [e]) fun d member => asking d (mem_cons_of_mem e member)
    rw [append_assoc, singleton_append] at rest
    exact rest.trans first

theorem looking_readAllocation (ir : SlurmJobIR) (pinned : List ExternalJob) (pod : Pod) :
    Only Looking (readAllocation ir pinned pod).run := by
  refine only_run_ask trivial fun reply => ?_
  cases checkAllocation ir pinned pod reply <;> trivial

theorem looking_rejectPlacement (pod : Pod) (job : ExternalJob) (assigned : String) :
    Only Looking (rejectPlacement pod job assigned).run := by
  refine only_run_bind ?_ fun _ => only_run_bind (only_call trivial) fun waiting => ?_
  · refine only_run_ask trivial fun reply => ?_
    cases reply with
    | error err => trivial
    | ok live =>
      dsimp only
      split <;> trivial
  · cases waiting with
    | true => trivial
    | false =>
      refine only_run_ask trivial fun reply => ?_
      cases reply with
      | error err => trivial
      | ok _ => exact only_run_lift (only_call trivial)

theorem looking_populate (component : SlurmJobComponent) (pod : Pod) (m : NodeStatuses) :
    Only Looking (populateComponentWithFeasibleNodes component pod m).run := by
  refine only_run_ask trivial fun nodes => ?_
  cases nodes with
  | error err => trivial
  | ok nodes =>
    refine only_run_ask trivial fun names => ?_
    cases names with
    | error err => trivial
    | ok names =>
      refine only_run_bind (only_run_foldlM (fun feasible node => ?_) _ _) fun feasible => ?_
      · split
        · exact only_run_bind (only_call trivial) fun eligible => trivial
        · trivial
      · split <;> trivial

theorem looking_firstPod (component : SlurmJobComponent) : Only Looking (firstPod component).run := by
  unfold firstPod
  split <;> trivial

theorem asking_updateJob (pod : Pod) (ir : SlurmJobIR) : Only Asking (updateJob pod ir) := by
  unfold updateJob
  split
  · trivial
  · split
    · trivial
    · exact only_call trivial

theorem asking_updateComponent (ir : SlurmJobIR) (held : Bool) (component : SlurmJobComponent)
    (index : Nat) : Only Asking (updateComponent ir held component index).run := by
  refine only_run_bind (only_asking (looking_firstPod _)) fun pod =>
    only_run_bind (only_run_lift (asking_updateJob _ _)) fun reply => ?_
  cases reply with
  | ok _ => trivial
  | error err =>
    dsimp only
    split <;> trivial

theorem asking_releaseComponentHold (ir : SlurmJobIR) (allocation : List ExternalJob)
    (component : SlurmJobComponent) (index : Nat) :
    Only Asking (releaseComponentHold ir allocation component index).run := by
  refine only_run_bind (only_asking (looking_firstPod _)) fun pod =>
    only_run_bind (only_asking (looking_readAllocation _ _ _)) fun _ =>
      only_run_bind ?_ fun reply => ?_
  · exact only_run_lift (only_call trivial)
  · cases reply <;> trivial

theorem asking_updateExternalJob (ir : SlurmJobIR) (allocation : List ExternalJob) (held : Bool) :
    Only Asking (updateExternalJob ir allocation held).run := by
  refine only_run_bind ?_ fun component =>
    only_run_bind (only_asking (looking_firstPod component)) fun pod =>
      only_run_bind (only_asking (looking_readAllocation _ _ _)) fun _ =>
        only_run_bind ?_ fun _ => ?_
  · unfold firstComponent
    split <;> trivial
  · exact only_run_foldlM (fun _ entry => asking_updateComponent _ _ _ _) _ _
  · split
    · exact only_run_foldlM (fun _ entry => asking_releaseComponentHold _ _ _ _) _ _
    · trivial

section
variable {task : Task} {past : Trace surroundings}

theorem guard_of_asking {c : Command} (asking : Asking c) : Guard task past c := by
  cases c <;> trivial

theorem wp_asking {α : Type} {p : Ctl α} {post : Trace surroundings → α → Prop}
    (asking : Only Asking p) (returns : ∀ t a, stage (past ++ t) = stage past → post (past ++ t) a) :
    wp (Guard task) p past post :=
  wp_of_only asking (fun _ _ => guard_of_asking) fun t a _ clean => returns t a (stage_asking clean)

theorem wp_postFilter (cycle : Nat) (data : StateData) (pod : Pod) (m : NodeStatuses) :
    wp (Guard (.postFilter cycle data pod m)) (postFilter data pod m) [] fun past _ =>
      stage past = .idle ∨ stage past = .ended := by
  unfold postFilter
  cases data.slurmJobIR with
  | none => exact .inl rfl
  | some ir =>
    rw [wp_bind]
    refine wp_asking (only_asking (looking_readAllocation _ _ _)) fun t out idle => ?_
    rcases out with status | checked
    · exact .inl idle
    · dsimp only
      split
      · rw [wp_bind]
        refine wp_asking (only_asking (looking_rejectPlacement _ _ _)) fun t' out idle' => ?_
        rcases out with status | _ <;> exact .inl (idle'.trans idle)
      · split
        · exact .inl idle
        · rw [wp_bind]
          refine wp_asking (only_asking (looking_populate _ _ _)) fun t' out idle' => ?_
          rcases out with status | nodes
          · exact .inl (idle'.trans idle)
          · have before : stage ([] ++ t ++ t') = .idle := idle'.trans idle
            unfold handOver
            dsimp only
            split
            · refine ⟨⟨before, fun _ other => Task.noConfusion other⟩, fun reply => ?_⟩
              cases reply with
              | unprocessed | updating => exact .inl (by rw [stage_snoc, before]; rfl)
              | handOver progress held ir =>
                refine ⟨⟨fun _ other => Task.noConfusion other, .inr ⟨progress, ?_, rfl⟩⟩, fun replaced => ?_⟩
                · rw [stage_snoc]
                  rfl
                · refine ⟨by rw [Guard, stage_snoc]; rfl, fun sent => .inr ?_⟩
                  rw [stage_snoc]
                  rfl
            · split
              · refine ⟨⟨fun _ other => Task.noConfusion other, .inl ⟨before, rfl⟩⟩, fun replaced => ?_⟩
                refine ⟨by rw [Guard, stage_snoc]; rfl, fun sent => .inr ?_⟩
                rw [stage_snoc]
                rfl
              · exact ⟨trivial, fun deleted => .inl (by rw [stage_snoc, before]; rfl)⟩

theorem wp_reconcileRelease (key : GroupAllocation) :
    wp (Guard (.release key)) (reconcileRelease key) [] fun past err =>
      Post (.release key) past (.released err) := by
  unfold reconcileRelease
  rw [wp_perform_bind]
  refine ⟨⟨rfl, rfl⟩, fun reply => ?_⟩
  cases reply with
  | none => exact rfl
  | some taken =>
    rw [wp_bind]
    refine wp_asking (asking_updateExternalJob _ _ _) fun t outcome stays => ?_
    have running : stage ([] ++ [⟨.takeRelease key, some taken⟩] ++ t) = .running taken := by
      rw [stays, stage_snoc]
      rfl
    cases succeeded outcome with
    | none =>
      refine ⟨⟨rfl, taken, running, rfl⟩, fun finished => ?_⟩
      refine ⟨.inl (by rw [stage_snoc]; rfl), fun done => ?_⟩
      show stage _ = .ended
      rw [stage_snoc]
      rfl
    | some status =>
      dsimp only
      split
      · refine ⟨⟨rfl, taken, running, rfl⟩, fun finished => ?_⟩
        refine ⟨.inl (by rw [stage_snoc]; rfl), fun done => ?_⟩
        refine ⟨trivial, fun activated => ?_⟩
        show stage _ = .ended
        rw [stage_snoc, stage_snoc]
        rfl
      · refine ⟨⟨rfl, taken, running, rfl⟩, fun newer => ?_⟩
        cases newer with
        | true =>
          refine ⟨.inr (by rw [stage_snoc]; rfl), fun done => .inl ?_⟩
          rw [stage_snoc]
          rfl
        | false =>
          refine .inr ?_
          rw [stage_snoc]
          rfl

theorem wp_code (task : Task) : wp (Guard task) (code task) [] (Post task) := by
  cases task with
  | postFilter cycle data pod m =>
    unfold code
    rw [wp_bind]
    exact wp_mono (wp_postFilter cycle data pod m) fun t out ends => ends
  | release key =>
    unfold code
    rw [wp_bind]
    exact wp_mono (wp_reconcileRelease key) fun t err ends => ends

end

/-- What a thread can do to the shared memory, with the stages before and after. -/
inductive Move (s : Memory) (task : Task) : Stage → Event surroundings → Stage → Memory → Prop
  | ask {st : Stage} {c : Command} {reply : c.Reply} (asking : Asking c) : Move s task st ⟨c, reply⟩ st s
  | forget {st : Stage} (key : GroupAllocation) :
      Move s task st ⟨.deletePending key, ()⟩ st (s.deletePending key)
  | record {key : GroupAllocation} {held : Bool} {ir : SlurmJobIR} {component : SlurmJobComponent}
      {reply : Recorded} (waits : ∀ ref held ir, reply ≠ .handOver ref held ir)
      (recorded : (s.recordProgress key held ir component).1 = reply) :
      Move s task .idle ⟨.recordProgress key held ir component, reply⟩ .idle
        (s.recordProgress key held ir component).2
  | handOver {key : GroupAllocation} {held held' : Bool} {ir ir' : SlurmJobIR}
      {component : SlurmJobComponent} {ref : Nat} (caller : ∀ key, task ≠ .release key)
      (recorded : (s.recordProgress key held ir component).1 = .handOver ref held' ir') :
      Move s task .idle ⟨.recordProgress key held ir component, Recorded.handOver ref held' ir'⟩
        (.handing ref) (s.recordProgress key held ir component).2
  | store {st : Stage} {key : GroupAllocation} {work : ReleaseWork} (caller : ∀ key, task ≠ .release key)
      (carried : st = .idle ∧ work.progress = none ∨ ∃ ref, st = .handing ref ∧ work.progress = some ref) :
      Move s task st ⟨.storeRelease key work, s.holdReleases.lookup key⟩ (.sending key)
        (s.storeRelease key work).2
  | send (key : GroupAllocation) : Move s task (.sending key) ⟨.sendEvent key, ()⟩ .ended (s.sendEvent key)
  | take {key : GroupAllocation} {work : ReleaseWork} (worker : task = .release key)
      (found : s.holdReleases.lookup key = some work) :
      Move s task .idle ⟨.takeRelease key, some work⟩ (.running work) (s.takeRelease key).2
  | miss {key : GroupAllocation} (worker : task = .release key) (gone : s.holdReleases.lookup key = none) :
      Move s task .idle ⟨.takeRelease key, none⟩ .ended (s.takeRelease key).2
  | finish {key : GroupAllocation} {work : ReleaseWork} {released : Bool} :
      Move s task (.running work) ⟨.finishRelease key (again work) released, ()⟩ .finishing
        (s.finishRelease key (again work) released)
  | restore {key : GroupAllocation} {work : ReleaseWork} (worker : task = .release key)
      (free : key ∉ s.holdReleases) :
      Move s task (.running work) ⟨.restoreRelease key (again work), false⟩ .restored
        { s with holdReleases := s.holdReleases.insert key (again work) }
  | drop {key : GroupAllocation} {work : ReleaseWork} (newer : key ∈ s.holdReleases) :
      Move s task (.running work) ⟨.restoreRelease key (again work), true⟩ .superseded s
  | done {st : Stage} (ending : st = .finishing ∨ st = .superseded) :
      Move s task st ⟨.releasesDone, ()⟩ .ended s.releasesDone

variable {task : Task} {s s' : Memory}

theorem move_of_guard {reply : c.Reply} (guarded : Guard task past c) (responds : respond c reply s s') :
    Move s task (stage past) ⟨c, reply⟩ (stage (past ++ [⟨c, reply⟩])) s' := by
  rw [stage_snoc]
  cases c with
  | recordProgress key held ir component =>
    obtain ⟨idle, caller⟩ := guarded
    have served : (reply, s') = s.recordProgress key held ir component := responds
    have recorded : (s.recordProgress key held ir component).1 = reply := by rw [← served]
    obtain rfl : s' = (s.recordProgress key held ir component).2 := by rw [← served]
    rw [idle]
    cases reply with
    | unprocessed | updating => exact .record (fun _ _ _ h => Recorded.noConfusion h) recorded
    | handOver ref held' ir' => exact .handOver caller recorded
  | deletePending key =>
    obtain ⟨rfl, rfl⟩ := Prod.mk.inj responds
    exact .forget key
  | storeRelease key work =>
    obtain ⟨rfl, rfl⟩ := Prod.mk.inj responds
    exact .store guarded.1 guarded.2
  | sendEvent key =>
    obtain ⟨rfl, rfl⟩ := Prod.mk.inj responds
    rw [show stage past = .sending key from guarded]
    exact .send key
  | takeRelease key =>
    obtain ⟨idle, worker⟩ := guarded
    have served : (reply, s') = s.takeRelease key := responds
    have found : s.holdReleases.lookup key = reply := (congrArg Prod.fst served).symm
    obtain rfl : s' = (s.takeRelease key).2 := by rw [← served]
    rw [idle]
    cases reply with
    | none => exact .miss worker found
    | some work => exact .take worker found
  | finishRelease key work released =>
    obtain ⟨-, taken, running, rfl⟩ := guarded
    obtain ⟨rfl, rfl⟩ := Prod.mk.inj responds
    rw [running]
    exact .finish
  | restoreRelease key work =>
    obtain ⟨worker, taken, running, rfl⟩ := guarded
    have served : (reply, s') = s.restoreRelease key (again taken) := responds
    rw [running]
    by_cases newer : key ∈ s.holdReleases
    · rw [Memory.restoreRelease, if_pos newer] at served
      obtain ⟨rfl, rfl⟩ := Prod.mk.inj served
      exact .drop newer
    · rw [Memory.restoreRelease, if_neg newer] at served
      obtain ⟨rfl, rfl⟩ := Prod.mk.inj served
      exact .restore worker newer
  | releasesDone =>
    obtain ⟨rfl, rfl⟩ := Prod.mk.inj responds
    exact .done guarded
  | _ =>
    obtain rfl : s' = s := responds
    exact .ask trivial

def crew (cfg : Config plugin) : Multiset (Task × Stage) :=
  cfg.pool.map fun thread => (thread.task, stage thread.past)

variable {cfg : Config plugin}

theorem invariant_of_moves (reach : Reachable plugin cfg)
    (inv : Memory → Multiset (Task × Stage) → List (Moment plugin) → Prop) (init : inv initialMemory 0 [])
    (move : ∀ s s' task st st' e past others log, inv s ((task, st) ::ₘ others) log → Move s task st e st' s' → inv s' ((task, st') ::ₘ others) (log ++ [⟨task, past, e⟩]))
    (starts : ∀ s s' task others log, inv s others log → start task s s' → inv s' ((task, .idle) ::ₘ others) log)
    (stops : ∀ s s' task st out others log, inv s ((task, st) ::ₘ others) log → Ends st out → stop task out s s' → inv s' others log)
    (environment : ∀ s s' others log, inv s others log → Environment s s' → inv s' others log) :
    inv cfg.state (crew cfg) cfg.log := by
  have rule := reach.invariant wp_code (fun s threads log =>
      inv s (threads.map fun thread : Task × Trace surroundings => (thread.1, stage thread.2)) log)
    (fun s initial => by subst initial; exact init)
    (fun s s' task past c reply others log holds guarded responds => by
      rw [Multiset.map_cons] at holds ⊢
      exact move s s' task _ _ _ past _ log holds (move_of_guard guarded responds))
    (fun s s' task others log holds starting => by
      rw [Multiset.map_cons]
      exact starts s s' task _ log holds starting)
    (fun s s' task past out others log holds ends stopping => by
      rw [Multiset.map_cons] at holds
      exact stops s s' task _ out _ log holds ends stopping)
    (fun s s' others log holds changes => environment s s' _ log holds changes)
  simpa [crew, Config.crew, Multiset.map_map] using rule

section
variable (s : Memory) (key : GroupAllocation) (jobHeld : Bool) (ir : SlurmJobIR)
  (component : SlurmJobComponent)

def touched : GroupProgress where
  components :=
    (s.progressFor key).2.components.insert (componentName component) component.jobInfo.excNodes
  held := (s.progressFor key).2.held || jobHeld
  updating := (s.progressFor key).2.updating
  updated := s.clock

def withProgress (p : GroupProgress) : Memory :=
  { s with
    allocated := max s.allocated ((s.progressFor key).1 + 1)
    progress := update s.progress (s.progressFor key).1 p
    pending := update s.dropExpired key (some (s.progressFor key).1) }

def filled : SlurmJobIR :=
  { ir with components := (fillExcluded (touched s key jobHeld component).components ir.components).1 }

theorem recordProgress_eq : s.recordProgress key jobHeld ir component =
      if (fillExcluded (touched s key jobHeld component).components ir.components).2 = true then
        if (s.progressFor key).2.updating = true then
          (.updating (filled s key jobHeld ir component), withProgress s key (touched s key jobHeld component))
        else
          (.handOver (s.progressFor key).1 (touched s key jobHeld component).held
              (filled s key jobHeld ir component),
            withProgress s key { touched s key jobHeld component with updating := true })
      else
        (.unprocessed (filled s key jobHeld ir component),
          withProgress s key (touched s key jobHeld component)) := by
  have processed : (!(fillExcluded (touched s key jobHeld component).components ir.components).2) = true ↔
      ¬ (fillExcluded (touched s key jobHeld component).components ir.components).2 = true := by simp
  rw [← ite_not, ← if_congr processed rfl rfl]
  rfl

theorem recordProgress_cases : (∃ reply, (∀ ref held ir, reply ≠ .handOver ref held ir) ∧
        s.recordProgress key jobHeld ir component = (reply, withProgress s key (touched s key jobHeld component))) ∨
      ((fillExcluded (touched s key jobHeld component).components ir.components).2 = true ∧
        (s.progressFor key).2.updating = false ∧
        s.recordProgress key jobHeld ir component =
          (.handOver (s.progressFor key).1 (touched s key jobHeld component).held
            (filled s key jobHeld ir component),
          withProgress s key { touched s key jobHeld component with updating := true })) := by
  rw [recordProgress_eq]
  by_cases processed : (fillExcluded (touched s key jobHeld component).components ir.components).2 = true
  · by_cases updating : (s.progressFor key).2.updating = true
    · rw [if_pos processed, if_pos updating]
      exact .inl ⟨_, by simp, rfl⟩
    · rw [if_pos processed, if_neg updating]
      exact .inr ⟨processed, Bool.not_eq_true _ ▸ updating, rfl⟩
  · rw [if_neg processed]
    exact .inl ⟨_, by simp, rfl⟩

def noted : GroupProgress :=
  { touched s key jobHeld component with
    updating := (s.progressFor key).2.updating ||
      (fillExcluded (touched s key jobHeld component).components ir.components).2 }

theorem recordProgress_memory : (s.recordProgress key jobHeld ir component).2 =
    withProgress s key (noted s key jobHeld ir component) := by
  rw [recordProgress_eq, noted]
  split
  · next processed =>
    rw [processed, Bool.or_true]
    split
    · next updating =>
      rw [← updating]
      rfl
    · rfl
  · next unprocessed =>
    rw [Bool.eq_false_iff.mpr unprocessed, Bool.or_false]
    rfl

end

def cleared (s : Memory) (work : ReleaseWork) : Nat → GroupProgress :=
  match work.progress with
  | none => s.progress
  | some ref => update s.progress ref { s.progress ref with updating := false }

theorem cleared_updating (s : Memory) (work : ReleaseWork) (ref : Nat) : (cleared s work ref).updating =
      if work.progress = some ref then false else (s.progress ref).updating := by
  unfold cleared
  cases work.progress with
  | none => rfl
  | some ref' =>
    by_cases same : ref' = ref
    · subst same
      simp
    · simp [same, Function.update_of_ne (Ne.symm same)]

theorem finishRelease_eq (s : Memory) (key : GroupAllocation) (work : ReleaseWork) (released : Bool) :
    s.finishRelease key work released =
      { s with
        progress := cleared s work
        pending := if released then update s.pending key none else s.pending } := by
  unfold Memory.finishRelease cleared
  cases work.progress <;> cases released <;> rfl

/-- A worker or a PostFilter that will take a key's work or queue the key. -/
def Attends (key : GroupAllocation) : Task × Stage → Prop
  | (_, .sending k) => k = key
  | (.release k, .idle) | (.release k, .restored) => k = key
  | _ => False

/-- The key is in the channel or in the queue, or a thread will deal with it. -/
def Attended (s : Memory) (threads : Multiset (Task × Stage)) (key : GroupAllocation) : Prop :=
  key ∈ s.events ∨ key ∈ s.queue ∨ key ∈ s.delayed ∨ ∃ thread ∈ threads, Attends key thread

variable {key : GroupAllocation}

theorem not_attends_idle (caller : ∀ key, task ≠ .release key) : ¬ Attends key (task, .idle) := by
  cases task with
  | postFilter => exact id
  | release k => exact absurd rfl (caller k)

theorem mem_enqueue (k : GroupAllocation) (queued : key ∈ s.queue) : key ∈ (s.enqueue k).queue := by
  unfold Memory.enqueue
  split
  · exact queued
  · exact mem_append_left _ queued

theorem mem_enqueue_self (s : Memory) (key : GroupAllocation) : key ∈ (s.enqueue key).queue := by
  unfold Memory.enqueue
  split
  · assumption
  · exact mem_append_right _ (mem_singleton_self key)

section
variable {s : Memory} {others : Multiset (Task × Stage)} {key : GroupAllocation}

theorem attended_self {task : Task} {st : Stage} (attends : Attends key (task, st)) :
    Attended s ((task, st) ::ₘ others) key :=
  .inr (.inr (.inr ⟨_, Multiset.mem_cons_self _ _, attends⟩))

variable {s' : Memory} {thread : Task × Stage}

theorem Attended.keep {thread' : Task × Stage} (attended : Attended s (thread ::ₘ others) key)
    (events : key ∈ s.events → key ∈ s'.events) (queue : s'.queue = s.queue)
    (delayed : s'.delayed = s.delayed) (moves : Attends key thread → Attends key thread' ∨ key ∈ s'.events) :
    Attended s' (thread' ::ₘ others) key := by
  rcases attended with sent | queued | waiting | ⟨t, member, attends⟩
  · exact .inl (events sent)
  · exact .inr (.inl (queue ▸ queued))
  · exact .inr (.inr (.inl (delayed ▸ waiting)))
  · rcases Multiset.mem_cons.mp member with rfl | other
    · rcases moves attends with still | sent
      · exact .inr (.inr (.inr ⟨_, Multiset.mem_cons_self _ _, still⟩))
      · exact .inl sent
    · exact .inr (.inr (.inr ⟨t, Multiset.mem_cons_of_mem other, attends⟩))

theorem Attended.leave (attended : Attended s (thread ::ₘ others) key) (events : s'.events = s.events)
    (queue : s'.queue = s.queue) (delayed : key ∈ s.delayed → key ∈ s'.delayed)
    (leaves : Attends key thread → key ∈ s'.delayed) : Attended s' others key := by
  rcases attended with sent | queued | waiting | ⟨t, member, attends⟩
  · exact .inl (events ▸ sent)
  · exact .inr (.inl (queue ▸ queued))
  · exact .inr (.inr (.inl (delayed waiting)))
  · rcases Multiset.mem_cons.mp member with rfl | other
    · exact .inr (.inr (.inl (leaves attends)))
    · exact .inr (.inr (.inr ⟨t, other, attends⟩))

end

variable {st st' : Stage} {e : Event surroundings} {others : Multiset (Task × Stage)}

theorem attended_move (holds : ∀ key ∈ s.holdReleases, Attended s ((task, st) ::ₘ others) key)
    (move : Move s task st e st' s') : ∀ key ∈ s'.holdReleases, Attended s' ((task, st') ::ₘ others) key := by
  intro key queued
  cases move with
  | ask | forget => exact holds key queued
  | record =>
    rw [recordProgress_memory] at queued ⊢
    exact holds key queued
  | handOver caller =>
    rw [recordProgress_memory] at queued ⊢
    exact (holds key queued).keep id rfl rfl fun attends =>
      absurd attends (not_attends_idle caller)
  | @store _ k work caller carried =>
    by_cases same : k = key
    · exact attended_self same
    · have before : key ∈ s.holdReleases :=
        ((mem_insert _).mp queued).resolve_left (Ne.symm same)
      refine (holds key before).keep id rfl rfl fun attends => ?_
      rcases carried with ⟨rfl, -⟩ | ⟨ref, rfl, -⟩
      · exact absurd attends (not_attends_idle caller)
      · exact attends.elim
  | send k =>
    refine (holds key queued).keep (mem_append_left _) rfl rfl fun attends => .inr ?_
    exact mem_append_right _ (mem_singleton.mpr attends.symm)
  | @take k _ worker _ | @miss k worker _ =>
    have other : key ≠ k ∧ key ∈ s.holdReleases := mem_erase.mp queued
    subst worker
    exact (holds key other.2).keep id rfl rfl fun attends => absurd attends.symm other.1
  | @finish k work released =>
    rw [finishRelease_eq] at queued ⊢
    exact (holds key queued).keep id rfl rfl fun attends => attends.elim
  | @restore k work worker free =>
    subst worker
    by_cases same : k = key
    · exact attended_self same
    · have before : key ∈ s.holdReleases :=
        ((mem_insert _).mp queued).resolve_left (Ne.symm same)
      exact (holds key before).keep id rfl rfl fun attends => attends.elim
  | drop newer => exact (holds key queued).keep id rfl rfl fun attends => attends.elim
  | done ending =>
    refine (holds key queued).keep id rfl rfl fun attends => ?_
    rcases ending with rfl | rfl <;> exact attends.elim

theorem attended (reach : Reachable plugin cfg) :
    ∀ key ∈ cfg.state.holdReleases, Attended cfg.state (crew cfg) key := by
  refine invariant_of_moves reach (fun s threads _ => ∀ key ∈ s.holdReleases, Attended s threads key)
    (fun key queued => absurd queued (notMem_empty key))
    (fun _ _ _ _ _ _ _ _ _ holds move => attended_move holds move) ?_ ?_ ?_
  · intro s s' task others log holds starting key queued
    cases task with
    | postFilter cycle data pod m =>
      obtain ⟨-, rfl⟩ := starting
      exact (holds key queued).imp_right fun rest => rest.imp_right fun rest => rest.imp_right
        fun ⟨thread, member, attends⟩ => ⟨thread, Multiset.mem_cons_of_mem member, attends⟩
    | release k =>
      obtain ⟨-, -, -, rfl⟩ := starting
      by_cases same : k = key
      · exact attended_self same
      · rcases holds key queued with sent | waiting | delayed | ⟨thread, member, attends⟩
        · exact .inl sent
        · exact .inr (.inl ((mem_erase_of_ne (Ne.symm same)).mpr waiting))
        · exact .inr (.inr (.inl delayed))
        · exact .inr (.inr (.inr ⟨thread, Multiset.mem_cons_of_mem member, attends⟩))
  · intro s s' task st out others log holds ends stopping key queued
    cases task with
    | postFilter cycle data pod m =>
      cases out with
      | released => exact stopping.elim
      | filtered status data' =>
        obtain rfl := stopping
        refine (holds key queued).leave rfl rfl id fun attends => ?_
        rcases ends with rfl | rfl <;> exact attends.elim
    | release k =>
      cases out with
      | filtered => exact stopping.elim
      | released err =>
        cases err with
        | none =>
          obtain rfl := stopping
          obtain rfl : st = .ended := ends
          exact (holds key queued).leave rfl rfl id fun attends => attends.elim
        | some text =>
          obtain rfl := stopping
          refine (holds key queued).leave rfl rfl (mem_cons_of_mem k) fun attends => ?_
          rcases ends with rfl | rfl
          · exact attends.elim
          · obtain rfl : k = key := attends
            exact mem_cons_self
  · intro s s' others log holds changes key queued
    cases changes with
    | @deliver k rest first =>
      rcases holds key queued with sent | waiting | others
      · rw [first] at sent
        rcases mem_cons.mp sent with rfl | later
        · exact .inr (.inl (mem_enqueue_self _ _))
        · exact .inl later
      · exact .inr (.inl (mem_enqueue _ waiting))
      · exact .inr (.inr others)
    | @due k member =>
      rcases holds key queued with sent | waiting | delayed | others
      · exact .inl sent
      · exact .inr (.inl (mem_enqueue _ waiting))
      · by_cases same : key = k
        · subst same
          exact .inr (.inl (mem_enqueue_self _ _))
        · exact .inr (.inr (.inl ((mem_erase_of_ne same).mpr delayed)))
      · exact .inr (.inr (.inr others))
    | tick | preFilter => exact holds key queued

/-- The works, their count and the progress are the same. -/
structure SameWorks (s s' : Memory) : Prop where
  releases : s'.releases = s.releases
  holdReleases : s'.holdReleases = s.holdReleases
  progress : s'.progress = s.progress
  allocated : s'.allocated = s.allocated
  pending : s'.pending = s.pending

theorem start_sameWorks (starting : start task s s') : SameWorks s s' := by
  cases task with
  | postFilter =>
    obtain ⟨-, rfl⟩ := starting
    exact ⟨rfl, rfl, rfl, rfl, rfl⟩
  | release =>
    obtain ⟨-, -, -, rfl⟩ := starting
    exact ⟨rfl, rfl, rfl, rfl, rfl⟩

variable {out : Out}

theorem stop_sameWorks (stopping : stop task out s s') : SameWorks s s' := by
  unfold stop at stopping
  split at stopping
  · exact stopping ▸ ⟨rfl, rfl, rfl, rfl, rfl⟩
  · exact stopping ▸ ⟨rfl, rfl, rfl, rfl, rfl⟩
  · exact stopping ▸ ⟨rfl, rfl, rfl, rfl, rfl⟩
  · exact stopping.elim

theorem environment_sameWorks (changes : Environment s s') : SameWorks s s' := by
  cases changes <;> exact ⟨rfl, rfl, rfl, rfl, rfl⟩

theorem stage_of_ends (ends : Ends st out) : st = .idle ∨ st = .ended ∨ st = .restored := by
  unfold Ends at ends
  split at ends
  · exact ends.imp_right .inl
  · exact .inr (.inl ends)
  · exact .inr ends

theorem working_of_ends (ends : Ends st out) : st.working = 0 := by
  rcases stage_of_ends ends with rfl | rfl | rfl <;> rfl

theorem carries_of_ends (ends : Ends st out) : st.carries = none := by
  rcases stage_of_ends ends with rfl | rfl | rfl <;> rfl

/-- The WaitGroup counts the queued works and those in execution. -/
def Counted (s : Memory) (threads : Multiset (Task × Stage)) : Prop :=
  s.releases = (s.holdReleases.keys.length + (threads.map fun thread => thread.2.working).sum : Nat)

theorem counted_of (holds : Counted s ((task, st) ::ₘ others))
    (balance : s'.releases + (s.holdReleases.keys.length + st.working : Nat) = s.releases + (s'.holdReleases.keys.length + st'.working : Nat)) :
    Counted s' ((task, st') ::ₘ others) := by
  unfold Counted at holds ⊢
  rw [Multiset.map_cons, Multiset.sum_cons] at holds ⊢
  push_cast at holds balance ⊢
  omega

theorem counted_move (holds : Counted s ((task, st) ::ₘ others)) (move : Move s task st e st' s') :
    Counted s' ((task, st') ::ₘ others) := by
  refine counted_of holds ?_
  cases move with
  | ask | forget | send => rfl
  | record | handOver =>
    rw [recordProgress_memory]
    rfl
  | @store _ k work caller carried =>
    have idle : st.working = 0 := by rcases carried with ⟨rfl, -⟩ | ⟨ref, rfl, -⟩ <;> rfl
    rw [idle]
    simp only [Memory.storeRelease, length_keys_insert, Stage.working]
    split <;> push_cast <;> omega
  | @take k work worker found =>
    have inside : k ∈ s.holdReleases := lookup_isSome.mp (by rw [found]; rfl)
    have erased := length_keys_erase s.holdReleases k
    rw [if_pos inside] at erased
    simp only [Memory.takeRelease, Stage.working]
    omega
  | @miss k worker gone =>
    have outside : k ∉ s.holdReleases := lookup_eq_none.mp gone
    have erased := length_keys_erase s.holdReleases k
    rw [if_neg outside] at erased
    simp only [Memory.takeRelease, Stage.working]
    omega
  | finish =>
    rw [finishRelease_eq]
    rfl
  | @restore k work worker free =>
    simp only [length_keys_insert, if_neg free, Stage.working]
  | drop newer => rfl
  | done ending =>
    have working : st.working = 1 := by rcases ending with rfl | rfl <;> rfl
    rw [working]
    simp only [Memory.releasesDone, Stage.working]
    push_cast
    omega

theorem counted (reach : Reachable plugin cfg) : Counted cfg.state (crew cfg) := by
  refine invariant_of_moves reach (fun s threads _ => Counted s threads) rfl
    (fun _ _ _ _ _ _ _ _ _ holds move => counted_move holds move) ?_ ?_ ?_
  · intro s s' task others log holds starting
    have same := start_sameWorks starting
    unfold Counted at holds ⊢
    rw [same.releases, same.holdReleases, holds, Multiset.map_cons, Multiset.sum_cons]
    simp [Stage.working]
  · intro s s' task st out others log holds ends stopping
    have same := stop_sameWorks stopping
    unfold Counted at holds ⊢
    rw [Multiset.map_cons, Multiset.sum_cons, working_of_ends ends, zero_add] at holds
    rw [same.releases, same.holdReleases, holds]
  · intro s s' others log holds changes
    have same := environment_sameWorks changes
    unfold Counted at holds ⊢
    rw [same.releases, same.holdReleases, holds]

def Stores (key : GroupAllocation) (work : ReleaseWork) : Event surroundings → Prop
  | ⟨.storeRelease k w, _⟩ => k = key ∧ w = work
  | ⟨.restoreRelease k w, false⟩ => k = key ∧ w = work
  | _ => False

def Replaces (key : GroupAllocation) : Event surroundings → Prop
  | ⟨.storeRelease k _, _⟩ => k = key
  | _ => False

variable {work : ReleaseWork}

theorem lookup_of_stores (move : Move s task st e st' s') (stores : Stores key work e) :
    s'.holdReleases.lookup key = some work := by
  cases move with
  | @ask _ c _ asking => cases c <;> first | exact stores.elim | exact asking.elim
  | store | restore =>
    obtain ⟨rfl, rfl⟩ := stores
    exact lookup_insert _
  | _ => exact stores.elim

theorem lookup_of_move (move : Move s task st e st' s') (queued : s.holdReleases.lookup key = some work)
    (kept : ¬ Replaces key e) :
    s'.holdReleases.lookup key = some work ∨ e = ⟨.takeRelease key, some work⟩ := by
  cases move with
  | record | handOver =>
    rw [recordProgress_memory]
    exact .inl queued
  | @store _ k w caller carried =>
    exact .inl ((lookup_insert_ne fun same => kept same.symm).trans queued)
  | @take k w worker found =>
    by_cases same : key = k
    · subst same
      obtain rfl : w = work := some.inj (found.symm.trans queued)
      exact .inr rfl
    · exact .inl ((lookup_erase_ne same).trans queued)
  | @miss k worker gone =>
    by_cases same : key = k
    · subst same
      exact absurd (gone.symm.trans queued) nofun
    · exact .inl ((lookup_erase_ne same).trans queued)
  | finish =>
    rw [finishRelease_eq]
    exact .inl queued
  | @restore k w worker free =>
    have other : key ≠ k := by
      rintro rfl
      exact free (lookup_isSome.mp (by rw [queued]; rfl))
    exact .inl ((lookup_insert_ne other).trans queued)
  | _ => exact .inl queued

/-- A stored work that no newer one replaced is in the queue, or a worker took it to execute it. -/
def Kept (s : Memory) (log : List (Moment plugin)) : Prop :=
  ∀ key work before m after, log = before ++ m :: after → Stores key work m.event →
    (∀ n ∈ after, ¬ Replaces key n.event) →
    s.holdReleases.lookup key = some work ∨ ∃ n ∈ after, n.event = ⟨.takeRelease key, some work⟩

theorem kept_move {log : List (Moment plugin)} (holds : Kept s log) (move : Move s task st e st' s') :
    Kept s' (log ++ [⟨task, past, e⟩]) := by
  intro key work before m after split stores newest
  rcases snoc_split split with ⟨rfl, -, rfl⟩ | ⟨earlier, rfl, old⟩
  · exact .inl (lookup_of_stores move stores)
  · have untouched := newest _ (mem_append_right _ (mem_singleton_self _))
    rcases holds key work before m earlier old stores
      fun n member => newest n (mem_append_left _ member) with queued | ⟨n, member, taken⟩
    · rcases lookup_of_move move queued untouched with still | now
      · exact .inl still
      · exact .inr ⟨_, mem_append_right _ (mem_singleton_self _), now⟩
    · exact .inr ⟨n, mem_append_left _ member, taken⟩

theorem kept (reach : Reachable plugin cfg) : Kept cfg.state cfg.log := by
  have lift : ∀ {s s' : Memory} {log : List (Moment plugin)}, Kept s log → SameWorks s s' → Kept s' log := by
    intro s s' log holds same key work before m after split stores newest
    rw [same.holdReleases]
    exact holds key work before m after split stores newest
  exact invariant_of_moves reach (fun s _ log => Kept s log)
    (fun _ _ before _ _ split _ _ => absurd split.symm (by simp))
    (fun _ _ _ _ _ _ _ _ _ holds move => kept_move holds move)
    (fun _ _ _ _ _ holds starting => lift holds (start_sameWorks starting))
    (fun _ _ _ _ _ _ _ holds _ stopping => lift holds (stop_sameWorks stopping))
    (fun _ _ _ _ holds changes => lift holds (environment_sameWorks changes))

/-- One for a work or a thread that carries the progress. -/
def share (ref : Nat) (carried : Option Nat) : Nat := if carried = some ref then 1 else 0

@[simp] theorem share_none (ref : Nat) : share ref none = 0 := rfl

@[simp] theorem share_self (ref : Nat) : share ref (some ref) = 1 := if_pos rfl

variable {ref : Nat}

theorem share_of_ne {ref' : Nat} (other : ref' ≠ ref) : share ref (some ref') = 0 :=
  if_neg fun same => other (some.inj same)

/-- The number of works that carry a progress, in the queue and in execution. -/
def carriers (ref : Nat) (s : Memory) (threads : Multiset (Task × Stage)) : Nat :=
  tally (fun work => share ref work.progress) s.holdReleases +
    (threads.map fun thread => share ref thread.2.carries).sum

/-- A work that carries the progress is discarded for a newer one: while it is queued, or when its
execution is to be retried. -/
def Discards (ref : Nat) : Event surroundings → Prop
  | ⟨.storeRelease _ _, some replaced⟩ => replaced.progress = some ref
  | ⟨.restoreRelease _ work, true⟩ => work.progress = some ref
  | _ => False

def Discarded (ref : Nat) (log : List (Moment plugin)) : Prop := ∃ m ∈ log, Discards ref m.event

/-- What a move does to a progress: whether it is being updated, and the works that carry it. -/
inductive Effect (ref : Nat) (e : Event surroundings) (u u' : Bool) (n n' : Nat) : Prop
  | same (keeps : ¬ Discards ref e) (updating : u' = u) (carried : n' = n)
  | handed (keeps : ¬ Discards ref e) (before : u = false) (after : u' = true) (carried : n' = n + 1)
  | discarded (discards : Discards ref e) (updating : u' = u) (carried : n = n' + 1)
  | finished (keeps : ¬ Discards ref e) (after : u' = false) (carried : n = n' + 1)

theorem carriers_cons (ref : Nat) (s : Memory) (thread : Task × Stage) (others : Multiset (Task × Stage)) :
    carriers ref s (thread ::ₘ others) = share ref thread.2.carries + carriers ref s others := by
  unfold carriers
  rw [Multiset.map_cons, Multiset.sum_cons]
  omega

theorem carriers_insert (ref : Nat) (s s' : Memory) (key : GroupAllocation) (work : ReleaseWork)
    (inserted : s'.holdReleases = s.holdReleases.insert key work) (threads : Multiset (Task × Stage)) :
    carriers ref s' threads + (s.holdReleases.lookup key).elim 0 (fun replaced => share ref replaced.progress) =
      share ref work.progress + carriers ref s threads := by
  have erased := tally_erase (fun work => share ref work.progress) s.holdReleases key
  unfold carriers
  rw [inserted, tally_insert]
  omega

theorem carriers_erase (ref : Nat) (s s' : Memory) (key : GroupAllocation)
    (erased : s'.holdReleases = s.holdReleases.erase key) (threads : Multiset (Task × Stage)) :
    carriers ref s' threads + (s.holdReleases.lookup key).elim 0 (fun taken => share ref taken.progress) =
      carriers ref s threads := by
  have rest := tally_erase (fun work => share ref work.progress) s.holdReleases key
  unfold carriers
  rw [erased]
  omega

theorem carriers_withProgress (ref : Nat) (s : Memory) (key : GroupAllocation) (p : GroupProgress)
    (threads : Multiset (Task × Stage)) :
    carriers ref (withProgress s key p) threads = carriers ref s threads := rfl

/-- The flag of the progress that is recorded next is the one in memory, as a new progress is not
being updated. -/
theorem progressFor_updating (fresh : ∀ ref, s.allocated ≤ ref → (s.progress ref).updating = false)
    (key : GroupAllocation) :
    (s.progressFor key).2.updating = (s.progress (s.progressFor key).1).updating := by
  unfold Memory.progressFor
  split
  · rfl
  · exact (fresh _ le_rfl).symm

theorem withProgress_updating {p : GroupProgress} (ref : Nat) : ((withProgress s key p).progress ref).updating =
      if ref = (s.progressFor key).1 then p.updating else (s.progress ref).updating := by
  show (update s.progress _ p ref).updating = _
  by_cases same : ref = (s.progressFor key).1
  · subst same
    simp
  · simp [same]

section
variable {s s' : Memory} {task : Task} {st st' : Stage} {e : Event surroundings} {ref : Nat}

theorem not_discards_asking {c : Command} {reply : c.Reply} (asking : Asking c) :
    ¬ Discards ref ⟨c, reply⟩ := by
  cases c <;> first | exact id | exact asking.elim

theorem effect_of_move (fresh : ∀ ref, s.allocated ≤ ref → (s.progress ref).updating = false)
    (move : Move s task st e st' s') (ref : Nat) (others : Multiset (Task × Stage)) :
    Effect ref e (s.progress ref).updating (s'.progress ref).updating
      (carriers ref s ((task, st) ::ₘ others)) (carriers ref s' ((task, st') ::ₘ others)) := by
  simp only [carriers_cons]
  cases move with
  | ask asking => exact .same (not_discards_asking asking) rfl rfl
  | forget | send => exact .same id rfl rfl
  | @record k held ir component reply waits recorded =>
    have memory : (s.recordProgress k held ir component).2 = withProgress s k (touched s k held component) := by
      rcases recordProgress_cases s k held ir component with ⟨_, -, same⟩ | ⟨-, -, same⟩
      · rw [same]
      · rw [same] at recorded
        exact absurd recorded.symm (waits _ _ _)
    rw [memory, withProgress_updating]
    refine .same id ?_ rfl
    split
    case isTrue here => rw [here, ← progressFor_updating fresh]; rfl
    case isFalse => rfl
  | @handOver k held held' ir ir' component ref' caller recorded =>
    rcases recordProgress_cases s k held ir component with ⟨_, other, same⟩ | ⟨-, idle, same⟩
    · rw [same] at recorded
      exact absurd recorded (other _ _ _)
    · rw [same] at recorded ⊢
      obtain ⟨rfl, -, -⟩ := Recorded.handOver.inj recorded
      rw [withProgress_updating]
      by_cases this : ref = (s.progressFor k).1
      · rw [if_pos this]
        refine .handed id ?_ rfl ?_
        · rw [this, ← progressFor_updating fresh, idle]
        · rw [carriers_withProgress, this]
          simp only [Stage.carries, share_self, share_none]
          omega
      · rw [if_neg this]
        refine .same id rfl ?_
        rw [carriers_withProgress]
        simp only [Stage.carries, share_of_ne (Ne.symm this), share_none]
  | @store _ k work caller carried =>
    have handed : st.carries = work.progress := by
      rcases carried with ⟨rfl, none⟩ | ⟨ref, rfl, some⟩
      · exact none.symm
      · exact some.symm
    have balance := carriers_insert ref s (s.storeRelease k work).2 k work rfl others
    rw [handed]
    simp only [Stage.carries, share_none, zero_add]
    cases found : s.holdReleases.lookup k with
    | none =>
      rw [found, elim_none] at balance
      exact .same id rfl balance
    | some replaced =>
      rw [found, elim_some] at balance
      by_cases this : replaced.progress = some ref
      · rw [this, share_self] at balance
        exact .discarded this rfl balance.symm
      · rw [share, if_neg this] at balance
        exact .same this rfl balance
  | @take k work worker found =>
    have balance := carriers_erase ref s (s.takeRelease k).2 k rfl others
    rw [found, elim_some] at balance
    refine .same id rfl ?_
    simp only [Stage.carries, share_none]
    omega
  | @miss k worker gone =>
    have balance := carriers_erase ref s (s.takeRelease k).2 k rfl others
    rw [gone, elim_none] at balance
    exact .same id rfl (congrArg (0 + ·) balance)
  | @finish k work released =>
    have same : carriers ref (s.finishRelease k (again work) released) others = carriers ref s others := by
      rw [finishRelease_eq]
      rfl
    have flag : ((s.finishRelease k (again work) released).progress ref).updating =
        if work.progress = some ref then false else (s.progress ref).updating := by
      rw [finishRelease_eq]
      exact cleared_updating s (again work) ref
    rw [same, flag]
    simp only [Stage.carries, share_none, zero_add]
    by_cases this : work.progress = some ref
    · refine .finished id (if_pos this) ?_
      rw [this, share_self, add_comm]
    · refine .same id (if_neg this) ?_
      rw [share, if_neg this, zero_add]
  | @restore k work worker free =>
    have balance := carriers_insert ref s
      { s with holdReleases := s.holdReleases.insert k (again work) } k (again work) rfl others
    rw [lookup_eq_none.mpr free, elim_none] at balance
    refine .same id rfl ?_
    simp only [Stage.carries, share_none, zero_add]
    exact balance
  | @drop k work newer =>
    simp only [Stage.carries, share_none, zero_add]
    by_cases this : work.progress = some ref
    · refine .discarded this rfl ?_
      rw [this, share_self, add_comm]
    · refine .same this rfl ?_
      rw [share, if_neg this, zero_add]
  | done ending =>
    refine .same id rfl ?_
    rcases ending with rfl | rfl <;> rfl

/-- A progress is being updated as long as one work carries it, unless that work was discarded. -/
def Tracked (updating : Bool) (discarded : Prop) (carried : Nat) : Prop :=
  updating = true ∧ (discarded ∧ carried = 0 ∨ ¬ discarded ∧ carried = 1) ∨
    updating = false ∧ ¬ discarded ∧ carried = 0

theorem tracked_of_effect {u u' : Bool} {n n' : Nat} {past : Trace surroundings} {log : List (Moment plugin)}
    (tracked : Tracked u (Discarded ref log) n) (effect : Effect ref e u u' n n') :
    Tracked u' (Discarded ref (log ++ [⟨task, past, e⟩])) n' := by
  have now : Discarded ref (log ++ [⟨task, past, e⟩]) ↔ Discarded ref log ∨ Discards ref e := by
    simp [Discarded, or_and_right, exists_or]
  unfold Tracked at tracked ⊢
  cases effect with
  | same keeps updating carried => simp_all
  | handed keeps before after carried => simp_all
  | discarded discards updating carried =>
    simp_all
  | finished keeps after carried =>
    simp_all

structure ProgressTracked (s : Memory) (threads : Multiset (Task × Stage)) (log : List (Moment plugin)) :
    Prop where
  fresh : ∀ ref, s.allocated ≤ ref → (s.progress ref).updating = false
  tracked : ∀ ref, Tracked (s.progress ref).updating (Discarded ref log) (carriers ref s threads)

theorem fresh_of_move (fresh : ∀ ref, s.allocated ≤ ref → (s.progress ref).updating = false)
    (move : Move s task st e st' s') : ∀ ref, s'.allocated ≤ ref → (s'.progress ref).updating = false := by
  have recording : ∀ key p, ∀ ref, (withProgress s key p).allocated ≤ ref →
      ((withProgress s key p).progress ref).updating = false := by
    intro key p ref above
    have bound : max s.allocated ((s.progressFor key).1 + 1) ≤ ref := above
    rw [withProgress_updating, if_neg (by omega)]
    exact fresh ref (by omega)
  cases move with
  | record | handOver =>
    rw [recordProgress_memory]
    exact recording _ _
  | finish =>
    rw [finishRelease_eq]
    intro ref above
    rw [cleared_updating, fresh ref above, ite_self]
  | _ => exact fresh

theorem progressTracked {cfg : Config plugin} (reach : Reachable plugin cfg) :
    ProgressTracked cfg.state (crew cfg) cfg.log := by
  have lift : ∀ {s s' : Memory} {threads threads' : Multiset (Task × Stage)}
      {log : List (Moment plugin)}, ProgressTracked s threads log → SameWorks s s' →
      (∀ ref, (threads'.map fun thread => share ref thread.2.carries).sum =
        (threads.map fun thread => share ref thread.2.carries).sum) →
      ProgressTracked s' threads' log := by
    intro s s' threads threads' log holds same carried
    refine ⟨?_, fun ref => ?_⟩
    · rw [same.allocated, same.progress]
      exact holds.fresh
    · have balance : carriers ref s' threads' = carriers ref s threads := by
        unfold carriers
        rw [same.holdReleases, carried ref]
      rw [same.progress, balance]
      exact holds.tracked ref
  refine invariant_of_moves reach ProgressTracked ?_ ?_ ?_ ?_ ?_
  · exact ⟨fun _ _ => rfl, fun ref => .inr ⟨rfl, by simp [Discarded], rfl⟩⟩
  · intro s s' task st st' e past others log holds move
    exact ⟨fresh_of_move holds.fresh move, fun ref =>
      tracked_of_effect (holds.tracked ref) (effect_of_move holds.fresh move ref others)⟩
  · intro s s' task others log holds starting
    exact lift holds (start_sameWorks starting) fun ref => by simp [Stage.carries]
  · intro s s' task st out others log holds ends stopping
    refine lift holds (stop_sameWorks stopping) fun ref => ?_
    rw [Multiset.map_cons, Multiset.sum_cons, carries_of_ends ends, share_none, zero_add]
  · intro s s' others log holds changes
    exact lift holds (environment_sameWorks changes) fun ref => rfl

end

/-- A work that carries the progress is queued or executing, or PostFilter is handing it over. -/
def Carried (ref : Nat) (s : Memory) (threads : Multiset (Task × Stage)) : Prop :=
  (∃ key work, s.holdReleases.lookup key = some work ∧ work.progress = some ref) ∨
    ∃ thread ∈ threads, thread.2.carries = some ref

theorem share_pos {carried : Option Nat} : 0 < share ref carried ↔ carried = some ref := by
  unfold share
  split <;> simp [*]

theorem carriers_pos {threads : Multiset (Task × Stage)} :
    0 < carriers ref s threads ↔ Carried ref s threads := by
  have sum : 0 < (threads.map fun thread => share ref thread.2.carries).sum ↔
      ∃ thread ∈ threads, thread.2.carries = some ref := by
    induction threads using Multiset.induction_on with
    | empty => simp
    | cons thread others ih =>
      rw [Multiset.map_cons, Multiset.sum_cons, add_pos_iff_pos_or_pos, ih, share_pos]
      simp
  unfold carriers Carried
  rw [add_pos_iff_pos_or_pos, tally_pos, sum]
  simp only [share_pos]

/-- In every interleaving, each queued work's key is queued or a thread will deal with it, a stored
work waits for a worker until a newer one replaces it, and the WaitGroup counts the works.  A
progress is marked as being updated exactly while a work carries it, as long as no work that carries
it was discarded for a newer one. -/
theorem release_queue_keeps_works {cfg : Config plugin} (reach : Reachable plugin cfg) :
    (∀ key ∈ cfg.state.holdReleases, Attended cfg.state (crew cfg) key) ∧
      Kept cfg.state cfg.log ∧
      (Counted cfg.state (crew cfg) ∧ 0 ≤ cfg.state.releases) ∧
      ∀ ref, (((cfg.state.progress ref).updating = true ↔ Carried ref cfg.state (crew cfg)) ↔
        ¬ Discarded ref cfg.log) := by
  refine ⟨attended reach, kept reach, ⟨counted reach, ?_⟩, fun ref => ?_⟩
  · rw [counted reach]
    exact Int.natCast_nonneg _
  · rw [← carriers_pos]
    rcases (progressTracked reach).tracked ref with ⟨updating, ⟨lost, none⟩ | ⟨kept, one⟩⟩ | ⟨idle, kept, none⟩
    · simp [updating, lost, none]
    · simp [updating, kept, one]
    · simp [idle, kept, none]

/-- Replies for a run without interruption: those of the memory, and fixed ones for the rest. -/
def answering (world : (c : Command) → c.Reply) (c : Command) (s : Memory) : c.Reply × Memory :=
  (s.serve c).getD (world c, s)

theorem respond_answering (world : (c : Command) → c.Reply) (c : Command) (s : Memory) :
    respond c (answering world c s).1 s (answering world c s).2 := by
  unfold respond answering
  cases s.serve c <;> rfl

abbrev Rest := Memory × List (Moment plugin)

def prepare (cycle : Nat) (data : StateData) (here : Rest) : Rest :=
  ({ here.1 with cycles := update here.1.cycles cycle (some data) }, here.2)

def runFilter (world : (c : Command) → c.Reply) (cycle : Nat) (data : StateData) (pod : Pod)
    (m : NodeStatuses) (here : Rest) : Rest :=
  let run := runIn (answering world) (postFilter data pod m) here.1
  ({ run.2 with cycles := update run.2.cycles cycle (some run.1.2) },
    here.2 ++ moments (S := plugin) (.postFilter cycle data pod m) []
      (recordIn (answering world) (code (.postFilter cycle data pod m)) here.1))

def runRelease (world : (c : Command) → c.Reply) (key : GroupAllocation) (here : Rest) : Rest :=
  let s := { here.1.enqueue key with events := here.1.events.tail }
  let started := { s with queue := s.queue.erase key, processing := key :: s.processing }
  let run := runIn (answering world) (reconcileRelease key) started
  ({ run.2 with
      processing := run.2.processing.erase key
      delayed := if run.1.isSome then key :: run.2.delayed else run.2.delayed },
    here.2 ++ moments (S := plugin) (.release key) [] (recordIn (answering world) (code (.release key)) started))

section
variable {here : Rest}

def Rests (here : Rest) : Prop := Reachable plugin ⟨here.1, 0, here.2⟩

theorem rests_initial : Rests (initialMemory, []) :=
  show Reachable plugin ⟨initialMemory, 0, []⟩ from .init rfl

variable {data : StateData}

theorem Rests.prepare (rests : Rests here) (cycle : Nat) (fresh : Fresh data) :
    Rests (prepare cycle data here) :=
  Reachable.environment rests (Environment.preFilter cycle data fresh)

theorem Rests.runFilter (rests : Rests here) (world : (c : Command) → c.Reply) {cycle : Nat}
    (prepared : here.1.cycles cycle = some data) (pod : Pod) (m : NodeStatuses) :
    Rests (runFilter world cycle data pod m here) := by
  have starts : plugin.start (.postFilter cycle data pod m) here.1 here.1 := ⟨prepared, rfl⟩
  refine Reachable.run (S := plugin) (respond_answering world) rests _ starts ?_
  show stop _ (runIn _ (postFilter data pod m >>= _) _).1 (runIn _ (postFilter data pod m >>= _) _).2 _
  rw [runIn_bind]
  rfl

theorem Rests.runRelease (rests : Rests here) (world : (c : Command) → c.Reply) {key : GroupAllocation}
    (first : here.1.events.head? = some key) (free : here.1.processing = []) :
    Rests (runRelease world key here) := by
  have events : here.1.events = key :: here.1.events.tail := (cons_head?_tail first).symm
  have delivered := Reachable.environment rests (Environment.deliver events)
  refine Reachable.run (S := plugin) (respond_answering world) delivered _ ?_ ?_
  · exact ⟨mem_enqueue_self _ _, by simp [Memory.enqueue, free],
      by simp [Memory.enqueue, free, maxConcurrentReleases], rfl⟩
  · show stop _ (runIn _ (reconcileRelease key >>= _) _).1 (runIn _ (reconcileRelease key >>= _) _).2 _
    rw [runIn_bind]
    have ends : ∀ run : Option String × Memory, stop (.release key) (.released run.1) run.2
        { run.2 with
          processing := run.2.processing.erase key
          delayed := if run.1.isSome then key :: run.2.delayed else run.2.delayed } := by
      rintro ⟨err, s⟩
      cases err <;> rfl
    exact ends _

end

section

/-! A composite of two leaves with one Pod each, in one allocation. -/

def memberPod (name uid : Segment) (jobId : String) : Pod :=
  { Pod.waiting (.of "ns" (.refl true)) name uid "slurm-bridge-scheduler" with
    labels := (∅ : StringMap).insert labelExternalJobId jobId }

def podA : Pod := memberPod (.of "a" (.refl true)) (.of "u" (.refl true)) "7"

def podB : Pod := memberPod (.of "b" (.refl true)) (.of "v" (.refl true)) "8"

def leaf (name : String) (pod : Pod) : SlurmJobComponent :=
  ⟨⟨⟨"PodGroup", "scheduling.k8s.io", "v1alpha1"⟩, "ns", name, name, []⟩, {}, [pod]⟩

def leafA : SlurmJobComponent := leaf "a" podA

def leafB : SlurmJobComponent := leaf "b" podB

def cycleOf (leaves : List SlurmJobComponent) : StateData :=
  ⟨some ⟨⟨⟨"CompositePodGroup", "scheduling.k8s.io", "v1alpha1"⟩, "ns", "c", "w", []⟩, leaves⟩, [], false, ""⟩

variable {leaves : List SlurmJobComponent}

theorem fresh_cycleOf (empty : ∀ component ∈ leaves, component.jobInfo.excNodes = []) :
    Fresh (cycleOf leaves) := by
  intro ir member
  obtain rfl := some.inj member
  exact empty

def slurmWith (eligible : List String) (update : Except UpdateError Unit) : (c : Command) → c.Reply
  | .getAllocation _ ir =>
    (.ok ([⟨7, 7, 0, ⟨"", []⟩, true, true, false⟩, ⟨8, 7, 1, ⟨"", []⟩, true, true, false⟩].take
      ir.components.length) : Except AllocationError (List ExternalJob))
  | .nodeInfos =>
    (.ok [⟨"n1", "n1"⟩, ⟨"n2", "n2"⟩, ⟨"n3", "n3"⟩] : Except String (List SnapshotNode))
  | .getNodeNames _ => (.ok ["n1", "n2", "n3"] : Except String (List String))
  | .nodeEligibleForSlurm _ node _ => (.ok (eligible.contains node) : Except Status Bool)
  | .getJob _ => (.error "" : Except String ExternalJob)
  | .allocatedNodeWaitingForBridge _ _ => (.ok false : Except Status Bool)
  | .deleteExternalJob _ => (.error "" : Except String Unit)
  | .activatePod _ => ()
  | .updateJob _ _ _ => update
  | .releaseJob _ _ => (.ok () : Except String Unit)
  | .recordProgress _ _ ir _ => Recorded.unprocessed ir
  | .deletePending _ => ()
  | .storeRelease _ _ => (none : Option ReleaseWork)
  | .sendEvent _ => ()
  | .takeRelease _ => (none : Option ReleaseWork)
  | .finishRelease _ _ _ => ()
  | .restoreRelease _ _ => false
  | .releasesDone => ()

def filtered (eligible : List String) (cycle : Nat) (leaves : List SlurmJobComponent) (pod : Pod)
    (here : Rest) : Rest :=
  runFilter (slurmWith eligible (.ok ())) cycle (cycleOf leaves) pod (fun _ => .success)
    (prepare cycle (cycleOf leaves) here)

theorem rests_filtered {here : Rest} (rests : Rests here) (eligible : List String) (cycle : Nat)
    (empty : ∀ component ∈ leaves, component.jobInfo.excNodes = []) (pod : Pod) :
    Rests (filtered eligible cycle leaves pod here) :=
  (rests.prepare cycle (fresh_cycleOf empty)).runFilter _ (Function.update_self ..) pod _

private def handed : Rest :=
  filtered ["n1"] 1 [leafA, leafB] podB (filtered ["n1"] 0 [leafA, leafB] podA (initialMemory, []))

private def shrunk : Rest := filtered ["n1"] 2 [leafA] podA handed

private theorem rests_handed : Rests handed :=
  rests_filtered (rests_filtered rests_initial _ 0 (by simp [leafA, leafB, leaf]) podA) _ 1
    (by simp [leafA, leafB, leaf]) podB

theorem release_queue_keeps_works_handed :
    ⟨"w", 7⟩ ∈ handed.1.holdReleases ∧ (∀ key ∈ handed.1.holdReleases, Attended handed.1 0 key) ∧
      Kept handed.1 handed.2 ∧ (Counted handed.1 0 ∧ 0 ≤ handed.1.releases) ∧
      ∀ ref, (((handed.1.progress ref).updating = true ↔ Carried ref handed.1 0) ↔
        ¬ Discarded ref handed.2) :=
  ⟨mem_cons_self, release_queue_keeps_works rests_handed⟩

/-- The progress of both leaves stays marked though no work carries it: the work was discarded for
that of the smaller workload. -/
theorem progress_stuck_after_shrink :
    Rests shrunk ∧ shrunk.1.pending ⟨"w", 7⟩ = some 0 ∧ (shrunk.1.progress 0).updating = true ∧
      ¬ Carried 0 shrunk.1 0 := by
  refine ⟨rests_filtered rests_handed _ 2 (by simp [leafA, leaf]) podA, rfl, rfl, ?_⟩
  rw [← carriers_pos]
  exact Nat.lt_irrefl 0

end

end SlurmBridge.Scheduler.ReleaseQueue
