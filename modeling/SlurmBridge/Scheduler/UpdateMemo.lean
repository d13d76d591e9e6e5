/- source: internal/scheduler/plugins/slurmbridge/slurmcontrol/slurmcontrol.go, slurmbridge.go
   digest: UpdateJob skips a request whose description was sent last for the job.  The jobs are always as
     if it had sent every request. -/

import SlurmBridge.Foundation.Handlers
import SlurmBridge.Scheduler.HoldOrder
import SlurmBridge.Scheduler.SlurmControl
import SlurmBridge.Slurm.JobDescription

set_option autoImplicit false

namespace SlurmBridge.Scheduler.UpdateMemo

open Foundation.Interaction Foundation.Handlers Kube.Objects JobIR.IR Slurm.Job
open Slurm.JobDescription Scheduler.PostFilter
open Foundation.Sessions (Service Stage Move Settles settles_run upholds run_task)
open Foundation.Serial (Responds)
open Foundation.Text (parseInt32 parseNumeral)
open Scheduler.Plugin (UpdateError AllocationError Status asStatus componentOf)
open Function
open List
open Relation (ReflTransGen)

/-- What the scheduler's Slurm control asks of Slurm and of its memo of sent updates. -/
inductive Command
  | control (c : SlurmControl.Command)
  | lookupUpdate (id : Int)
  | rememberUpdate (id : Int) (desc : JobDesc)
  | skipUpdate (id : Int) (desc : JobDesc)
  | update (id : Int) (desc : JobDesc)
  /-- What the plugin asks of others. -/
  | plugin (c : Plugin.Command)

@[reducible] def Command.Reply : Command → Type
  | .control c => c.Reply
  | .lookupUpdate _ => Option JobDesc
  | .rememberUpdate _ _ => Unit
  | .skipUpdate _ _ => Unit
  | .update _ _ => Except UpdateError Unit
  | .plugin c => c.Reply

abbrev surroundings : Interface := ⟨Command, Command.Reply⟩

abbrev Ctl := Prog surroundings

def perform (c : Command) : Ctl c.Reply := Prog.call (I := surroundings) c

/-- Why a numeral cannot be read: at the first character that is no digit, or at which the number gets too
large. -/
def numeralFailure (bound : Nat) : Nat → List Char → String
  | _, [] => "invalid syntax"
  | n, c :: rest =>
    if !c.isDigit then "invalid syntax"
    else if bound ≤ 10 * n + (c.toNat - '0'.toNat) then "value out of range"
    else if rest = [] then "value out of range"
    else numeralFailure bound (10 * n + (c.toNat - '0'.toNat)) rest

def parseIntFailure (s : String) : String :=
  let digits := match s.toList with
    | '-' :: digits | '+' :: digits => digits
    | digits => digits
  "strconv.ParseInt: parsing " ++ s.quote ++ ": " ++ numeralFailure (2 ^ 32) 0 digits

def sendUpdate (id : Int) (desc : JobDesc) : Ctl (Except UpdateError Unit) := do
  match ← (perform (.update id desc) : Ctl (Except UpdateError Unit)) with
  | .error err =>
    let _ ← (perform (.control (.forgetUpdate id)) : Ctl Unit)
    return .error err
  | .ok () =>
    let _ ← (perform (.rememberUpdate id desc) : Ctl Unit)
    return .ok ()

/-- Send an update that differs from the last one. -/
def sendChanged (id : Int) (desc : JobDesc) : Ctl (Except UpdateError Unit) := do
  let last ← (perform (.lookupUpdate id) : Ctl (Option JobDesc))
  if last = some desc then
    let _ ← (perform (.skipUpdate id desc) : Ctl Unit)
    return .ok ()
  else
    sendUpdate id desc

def updateJob (send : Int → JobDesc → Ctl (Except UpdateError Unit)) (partition : String) (pod : Pod)
    (root : PartialObjectMetadata) (component : SlurmJobComponent) : Ctl (Except UpdateError Unit) :=
  let label := pod.label labelExternalJobId
  match parseInt32 label with
  | none =>
    return .error ⟨false, "unable to parse job ID label " ++ label.quote ++ " for pod " ++ pod.namespacedName ++
      ": " ++ parseIntFailure label⟩
  | some id =>
    if id ≤ 0 then
      return .error ⟨false, "invalid job ID " ++ itoa id ++ " for pod " ++ pod.namespacedName ++
        ": cannot perform update"⟩
    else
      match buildJobUpdate partition root component with
      | .error text => return .error ⟨false, text⟩
      | .ok desc => send id desc

theorem updateJob_cases (partition : String) (pod : Pod) (root : PartialObjectMetadata) (component : SlurmJobComponent) :
    (∃ err, ∀ send, updateJob send partition pod root component = pure (.error err)) ∨
      ∃ id desc, parseInt32 (pod.label labelExternalJobId) = some id ∧ 0 < id ∧
        buildJobUpdate partition root component = .ok desc ∧
        ∀ send, updateJob send partition pod root component = send id desc := by
  unfold updateJob
  dsimp only
  cases parseInt32 (pod.label labelExternalJobId) with
  | none => exact .inl ⟨_, fun _ => rfl⟩
  | some id =>
    by_cases positive : id ≤ 0
    · exact .inl ⟨_, fun _ => if_pos positive⟩
    · cases built : buildJobUpdate partition root component with
      | error text => exact .inl ⟨_, fun _ => if_neg positive⟩
      | ok desc => exact .inr ⟨id, desc, rfl, not_le.mp positive, rfl, fun _ => if_neg positive⟩

def releaseRequest : JobDesc := { hold := some false }

def priorityRequest (priority : Int) : JobDesc := { priority := some (.of priority) }

/-- Slurm maps hold and priority to the same field: they must be separate requests. -/
def releaseJob (id : Int) (priority : Option Int) : Ctl (Except String Unit) := do
  match ← (perform (.update id releaseRequest) : Ctl (Except UpdateError Unit)) with
  | .error err => return .error err.text
  | .ok () =>
    match priority with
    | none => return .ok ()
    | some priority =>
      match ← (perform (.update id (priorityRequest priority)) : Ctl (Except UpdateError Unit)) with
      | .error err => return .error err.text
      | .ok () => return .ok ()

/-- How the plugin's commands are carried out. -/
def handler (send : Int → JobDesc → Ctl (Except UpdateError Unit)) (partition : String) :
    (c : Plugin.Command) → Ctl c.Reply
  | .updateJob pod root component => updateJob send partition pod root component
  | .releaseJob id priority => releaseJob id priority
  | c => perform (.plugin c)

/-- An update run with a choice of how updates are sent. -/
def updateWith (send : Int → JobDesc → Ctl (Except UpdateError Unit)) (partition : String) (ir : SlurmJobIR)
    (allocation : List ExternalJob) (held : Bool) : Ctl (Except Status Unit) :=
  interp (handler send partition) (updateExternalJob ir allocation held).run

structure Job where
  pending : Bool
  fields : JobDesc

/-- GetJob and DeleteJob use these commands only. -/
def Controls : Command → Prop
  | .control _ => True
  | _ => False

/-- Slurm's jobs, the jobs as they would be if UpdateJob had sent every request, the memo, and the runs of
GetJob and DeleteJob that go on meanwhile. -/
structure World where
  jobs : Int → Job
  unskipped : Int → JobDesc
  lastUpdate : Int → Option JobDesc
  elsewhere : Multiset { p : Ctl Unit // Only Controls p }

def World.apply (w : World) (id : Int) (chosen : Option NoValue) (desc : JobDesc) : World :=
  { w with
    jobs := update w.jobs id { w.jobs id with fields := desc.apply chosen (w.jobs id).fields }
    unskipped := update w.unskipped id (desc.apply chosen (w.unskipped id)) }

/-- A request that was not sent, but would be applied. -/
def World.applyUnskipped (w : World) (id : Int) (chosen : Option NoValue) (desc : JobDesc) : World :=
  if (w.jobs id).pending then
    { w with unskipped := update w.unskipped id (desc.apply chosen (w.unskipped id)) }
  else w

def World.forget (w : World) (id : Int) : World := { w with lastUpdate := update w.lastUpdate id none }

/-- Slurm applies updates to pending jobs only, and may fail before and after it does. -/
def respond : Responds surroundings World
  | .control (.forgetUpdate id), _, w, w' => w' = w.forget id
  | .control (.delete _), _, w, w' => w' = w
  | .control (.get _), _, w, w' => w' = w
  | .lookupUpdate id, reply, w, w' => reply = w.lastUpdate id ∧ w' = w
  | .rememberUpdate id desc, _, w, w' => w' = { w with lastUpdate := update w.lastUpdate id (some desc) }
  | .skipUpdate id desc, _, w, w' => ∃ chosen, w' = w.applyUnskipped id chosen desc
  | .update id desc, reply, w, w' =>
    ((w.jobs id).pending = true ∧ ∃ chosen, w' = w.apply id chosen desc) ∨
      ((∃ err : UpdateError, reply = .error err) ∧ w' = w)
  | .plugin _, _, w, w' => w' = w

def embed {α : Type} (p : SlurmControl.Ctl α) : Ctl Unit :=
  interp (fun c => perform (.control c)) (p >>= fun _ => pure ())

theorem controls_embed {α : Type} (p : SlurmControl.Ctl α) : Only (I := surroundings) Controls (embed p) := by
  refine only_interp (fun c => ?_) _
  exact only_call (show Controls (.control c) from trivial)

/-- What happens besides the update runs.  Nobody else edits the jobs, but they start and end to be pending. -/
inductive Changes : World → World → Prop
  | evict (w : World) (id : Int) : Changes w (w.forget id)
  | phase (w : World) (id : Int) (pending : Bool) :
      Changes w { w with jobs := update w.jobs id { w.jobs id with pending } }
  | getJob (w : World) (pod : Pod) :
      Changes w { w with elsewhere := ⟨embed (SlurmControl.getJob pod), controls_embed _⟩ ::ₘ w.elsewhere }
  | deleteJob (w : World) (pod : Pod) :
      Changes w { w with elsewhere := ⟨embed (SlurmControl.deleteJob pod), controls_embed _⟩ ::ₘ w.elsewhere }
  | act {w w' : World} {c : Command} {next : c.Reply → Ctl Unit} {reply : c.Reply}
      {others : Multiset { p : Ctl Unit // Only Controls p }}
      (only : Only (I := surroundings) Controls (.step c next)) (there : w.elsewhere = ⟨.step c next, only⟩ ::ₘ others)
      (responds : respond c reply w w') :
      Changes w { w' with elsewhere := ⟨next reply, only.2 reply⟩ ::ₘ others }
  | finish {w : World} {others : Multiset { p : Ctl Unit // Only Controls p }}
      (only : Only (I := surroundings) Controls (.ret ())) (there : w.elsewhere = ⟨.ret (), only⟩ ::ₘ others) :
      Changes w { w with elsewhere := others }

/-- The work of the release worker for one allocation. -/
structure UpdateRun where
  ir : SlurmJobIR
  allocation : List ExternalJob
  held : Bool

/-- Update runs, one after the other. -/
def scheduler (partition : String) : Service surroundings World where
  Task := UpdateRun
  Out := Except Status Unit
  code := fun run => updateWith sendChanged partition run.ir run.allocation run.held
  admits := fun _ _ => True
  respond := respond
  changes := Changes

section
variable {w v : World} {id : Int} {desc : JobDesc} {but : Option Int} {held : Bool} {ids : List Int}

/-- What the world keeps when only the memo and the phases of jobs change. -/
structure Keeps (w v : World) : Prop where
  fields : ∀ id, (v.jobs id).fields = (w.jobs id).fields
  unskipped : v.unskipped = w.unskipped
  memo : ∀ id desc, v.lastUpdate id = some desc → w.lastUpdate id = some desc

theorem keeps_forget (w : World) (id : Int) : Keeps w (w.forget id) where
  fields := fun _ => rfl
  unskipped := rfl
  memo := by
    intro id' desc known
    by_cases same : id' = id
    · subst same
      simp [World.forget] at known
    · simpa [World.forget, same] using known

theorem keeps_control {c : Command} {reply : c.Reply} (controls : Controls c) (responds : respond c reply w v) :
    Keeps w v := by
  cases c with
  | control c =>
    cases c with
    | forgetUpdate id =>
      obtain rfl : v = w.forget id := responds
      exact keeps_forget w id
    | delete | get =>
      obtain rfl : v = w := responds
      exact ⟨fun _ => rfl, rfl, fun _ _ known => known⟩
  | _ => exact controls.elim

theorem keeps_of_changes (change : Changes w v) : Keeps w v := by
  cases change with
  | evict id => exact keeps_forget w id
  | phase id pending =>
    refine ⟨fun id' => ?_, rfl, fun _ _ known => known⟩
    by_cases same : id' = id
    · subst same
      simp
    · simp [same]
  | getJob | deleteJob | finish => exact ⟨fun _ => rfl, rfl, fun _ _ known => known⟩
  | act only there responds =>
    obtain ⟨fields, unskipped, memo⟩ := keeps_control only.1 responds
    exact ⟨fields, unskipped, memo⟩

/-- The jobs are as if every request had been sent. -/
def Invisible (w : World) : Prop := ∀ id, (w.jobs id).fields = w.unskipped id

/-- The state in a run: what the memo has would change nothing, but for one job, and in a held run it sets no
priority of the jobs that were updated. -/
structure Faithful (but : Option Int) (held : Bool) (ids : List Int) (w : World) : Prop where
  invisible : Invisible w
  positive : ∀ id desc, w.lastUpdate id = some desc → 0 < id
  settled : ∀ id desc, w.lastUpdate id = some desc → but ≠ some id → Settled desc (w.jobs id).fields
  withheld : held = true → ∀ id ∈ ids, ∀ desc, w.lastUpdate id = some desc → desc.priority = none

theorem Faithful.keeps (faithful : Faithful but held ids w) (keeps : Keeps w v) : Faithful but held ids v where
  invisible := fun id => by rw [keeps.fields, keeps.unskipped, faithful.invisible]
  positive := fun id desc known => faithful.positive id desc (keeps.memo id desc known)
  settled := fun id desc known other => by
    rw [keeps.fields]
    exact faithful.settled id desc (keeps.memo id desc known) other
  withheld := fun held id inside desc known => faithful.withheld held id inside desc (keeps.memo id desc known)

theorem stable_faithful : Stable Changes (Faithful but held ids) :=
  fun _ _ change faithful => faithful.keeps (keeps_of_changes change)

theorem Faithful.idle (faithful : Faithful none held ids w) : Faithful none false [] w :=
  ⟨faithful.invisible, faithful.positive, faithful.settled, by simp⟩

theorem stable_fields (P : JobDesc → Prop) : Stable Changes fun w => P (w.jobs id).fields :=
  fun w v change holds => by
    show P (v.jobs id).fields
    rw [(keeps_of_changes change).fields]
    exact holds

theorem stable_memo (P : JobDesc → Prop) : Stable Changes fun w => ∀ desc, w.lastUpdate id = some desc → P desc :=
  fun _ _ change holds desc known => holds desc ((keeps_of_changes change).memo id desc known)

variable {P : World → Prop}

theorem stable_and {Q : World → Prop} (first : Stable Changes P) (second : Stable Changes Q) :
    Stable Changes fun w => P w ∧ Q w :=
  fun w v change holds => ⟨first w v change holds.1, second w v change holds.2⟩

theorem stable_imp {p : Prop} (stable : p → Stable Changes P) : Stable Changes fun w => p → P w :=
  fun w v change holds given => stable given w v change (holds given)

theorem stable_const (p : Prop) : Stable Changes fun _ => p := fun _ _ _ holds => holds

theorem Invisible.apply (invisible : Invisible w) (id : Int) (chosen : Option NoValue) (desc : JobDesc) :
    Invisible (w.apply id chosen desc) := by
  intro id'
  by_cases same : id' = id
  · subst same
    simp [World.apply, invisible id']
  · simp [World.apply, same, invisible id']

theorem fields_apply (w : World) (id : Int) (chosen : Option NoValue) (desc : JobDesc) :
    ((w.apply id chosen desc).jobs id).fields = desc.apply chosen (w.jobs id).fields := by
  simp [World.apply]

theorem fields_apply_ne {id' : Int} (other : id' ≠ id) (w : World) (chosen : Option NoValue) (desc : JobDesc) :
    (w.apply id chosen desc).jobs id' = w.jobs id' := by
  simp [World.apply, other]

theorem Faithful.apply (faithful : Faithful none held ids w) (id : Int) (chosen : Option NoValue) (desc : JobDesc) :
    Faithful (some id) held ids (w.apply id chosen desc) where
  invisible := faithful.invisible.apply id chosen desc
  positive := faithful.positive
  settled := fun id' desc' known other => by
    rw [fields_apply_ne (fun same => other (congrArg some same.symm))]
    exact faithful.settled id' desc' known (by simp)
  withheld := faithful.withheld

theorem Faithful.applyPriority (faithful : Faithful none held ids w) {chosen : Option NoValue}
    (unpinned : ∀ desc, w.lastUpdate id = some desc → desc.priority = none)
    (only : ∃ priority, desc.apply chosen (w.jobs id).fields = { (w.jobs id).fields with priority }) :
    Faithful none held ids (w.apply id chosen desc) where
  invisible := faithful.invisible.apply id chosen desc
  positive := faithful.positive
  settled := fun id' desc' known _ => by
    by_cases same : id' = id
    · subst same
      obtain ⟨priority, changed⟩ := only
      rw [fields_apply, changed]
      exact (faithful.settled id' desc' known (by simp)).withPriority (unpinned desc' known) priority
    · rw [fields_apply_ne same]
      exact faithful.settled id' desc' known (by simp)
  withheld := faithful.withheld

theorem applyUnskipped_settled (invisible : Invisible w) (settled : Settled desc (w.jobs id).fields)
    (chosen : Option NoValue) : w.applyUnskipped id chosen desc = w := by
  unfold World.applyUnskipped
  split
  · rw [apply_of_noHold settled.1, ← invisible id, settled.2, invisible id, update_eq_self]
  · rfl

theorem Faithful.forget (faithful : Faithful (some id) held ids w) : Faithful none held ids (w.forget id) where
  invisible := faithful.invisible
  positive := fun id' desc known => faithful.positive id' desc ((keeps_forget w id).memo id' desc known)
  settled := fun id' desc known _ => by
    refine faithful.settled id' desc ((keeps_forget w id).memo id' desc known) fun same => ?_
    obtain rfl := Option.some.inj same
    simp [World.forget] at known
  withheld := fun held id' inside desc known =>
    faithful.withheld held id' inside desc ((keeps_forget w id).memo id' desc known)

theorem Faithful.remember (faithful : Faithful (some id) held ids w) (positive : 0 < id)
    (settled : Settled desc (w.jobs id).fields) (priority : held = true → desc.priority = none) :
    Faithful none held (id :: ids) { w with lastUpdate := update w.lastUpdate id (some desc) } := by
  have cases' : ∀ id' desc', update w.lastUpdate id (some desc) id' = some desc' →
      (id' = id ∧ desc' = desc) ∨ (id' ≠ id ∧ w.lastUpdate id' = some desc') := by
    intro id' desc' known
    by_cases same : id' = id
    · subst same
      simp only [update_self, Option.some.injEq] at known
      exact .inl ⟨rfl, known.symm⟩
    · simp only [ne_eq, same, not_false_eq_true, update_of_ne] at known
      exact .inr ⟨same, known⟩
  refine ⟨faithful.invisible, fun id' desc' known => ?_, fun id' desc' known _ => ?_,
    fun held id' inside desc' known => ?_⟩
  · rcases cases' id' desc' known with ⟨rfl, rfl⟩ | ⟨-, old⟩
    · exact positive
    · exact faithful.positive id' desc' old
  · rcases cases' id' desc' known with ⟨rfl, rfl⟩ | ⟨other, old⟩
    · exact settled
    · exact faithful.settled id' desc' old fun same => other (Option.some.inj same).symm
  · rcases cases' id' desc' known with ⟨rfl, rfl⟩ | ⟨other, old⟩
    · exact priority held
    · exact faithful.withheld held id' ((mem_cons.mp inside).resolve_left other) desc' old

end

section
variable {id : Int} {desc : JobDesc} {held : Bool} {ids : List Int} {partition : String}

/-- A step leaves the jobs as if every request had been sent. -/
def Allows (w w' : World) : Prop := Invisible w → Invisible w'

abbrev Does {α : Type} (pre : World → Prop) (p : Ctl α) (post : α → World → Prop) : Prop :=
  Triple respond Changes Allows pre p post

theorem does_sendUpdate (positive : 0 < id) (noHold : desc.hold = none) (priority : held = true → desc.priority = none) :
    Does (Faithful none held ids) (sendUpdate id desc)
      (orFail (Faithful none held ids) fun _ => Faithful none held (id :: ids)) := by
  have sent : Does (Faithful none held ids) (perform (.update id desc)) fun (reply : Except UpdateError Unit) w =>
      Faithful (some id) held ids w ∧ (reply = .ok () → Settled desc (w.jobs id).fields) := by
    refine triple_call stable_faithful (fun reply => stable_and stable_faithful (stable_imp fun _ => stable_fields _))
      fun w reply w' faithful responds => ?_
    rcases responds with ⟨-, chosen, rfl⟩ | ⟨⟨err, rfl⟩, rfl⟩
    · refine ⟨fun _ => faithful.invisible.apply id chosen desc, faithful.apply id chosen desc, fun _ => ?_⟩
      rw [fields_apply]
      exact settled_apply noHold chosen _
    · refine ⟨fun known => known, ⟨faithful.invisible, faithful.positive, fun id' desc' known _ => ?_,
        faithful.withheld⟩, by simp⟩
      exact faithful.settled id' desc' known (by simp)
  refine triple_bind _ sent fun reply => ?_
  cases reply with
  | error err =>
    refine triple_bind (fun _ => Faithful none held ids) (triple_call ?_ (fun _ => stable_faithful) ?_)
      fun _ => triple_pure stable_faithful fun _ reached => reached
    · exact stable_and stable_faithful (stable_imp fun _ => stable_fields _)
    · rintro w _ w' ⟨faithful, -⟩ responds
      obtain rfl : w' = w.forget id := responds
      exact ⟨fun known => known, faithful.forget⟩
  | ok _ =>
    refine triple_bind (fun _ => Faithful none held (id :: ids)) (triple_call ?_ (fun _ => stable_faithful) ?_)
      fun _ => triple_pure stable_faithful fun _ reached => reached
    · exact stable_and stable_faithful (stable_imp fun _ => stable_fields _)
    · rintro w _ w' ⟨faithful, settled⟩ responds
      obtain rfl : w' = { w with lastUpdate := update w.lastUpdate id (some desc) } := responds
      exact ⟨fun known => known, faithful.remember positive (settled rfl) priority⟩

theorem does_sendChanged (positive : 0 < id) (noHold : desc.hold = none) (priority : held = true → desc.priority = none) :
    Does (Faithful none held ids) (sendChanged id desc)
      (orFail (Faithful none held ids) fun _ => Faithful none held (id :: ids)) := by
  have looked : Does (Faithful none held ids) (perform (.lookupUpdate id)) fun (last : Option JobDesc) w =>
      Faithful none held ids w ∧ (last = some desc → Settled desc (w.jobs id).fields ∧
        ∀ desc', w.lastUpdate id = some desc' → desc' = desc) := by
    refine triple_call stable_faithful (fun last => stable_and stable_faithful
      (stable_imp fun _ => stable_and (stable_fields _) (stable_memo _))) fun w last w' faithful responds => ?_
    obtain ⟨rfl, rfl⟩ : last = w.lastUpdate id ∧ w' = w := responds
    refine ⟨fun known => known, faithful, fun known => ⟨faithful.settled id desc known (by simp), fun desc' known' => ?_⟩⟩
    exact Option.some.inj (known'.symm.trans known)
  refine triple_bind _ looked fun last => ?_
  by_cases same : last = some desc
  · rw [if_pos same]
    refine triple_bind (fun _ => Faithful none held (id :: ids)) (triple_call ?_ (fun _ => stable_faithful) ?_)
      fun _ => triple_pure stable_faithful fun _ reached => reached
    · exact stable_and stable_faithful (stable_imp fun _ => stable_and (stable_fields _) (stable_memo _))
    · rintro w _ w' ⟨faithful, known⟩ ⟨chosen, rfl⟩
      obtain ⟨settled, unique⟩ := known same
      rw [applyUnskipped_settled faithful.invisible settled]
      refine ⟨fun known => known, faithful.invisible, faithful.positive, faithful.settled, fun held id' inside desc' there => ?_⟩
      rcases mem_cons.mp inside with rfl | inside
      · rw [unique desc' there]
        exact priority held
      · exact faithful.withheld held id' inside desc' there
  · rw [if_neg same]
    exact triple_mono (does_sendUpdate positive noHold priority) (fun _ known => known.1) fun _ _ reached => reached

private theorem does_request {request : JobDesc}
    (only : ∀ chosen job, ∃ priority, request.apply chosen job = { job with priority }) :
    Does (fun w => Faithful none held ids w ∧ ∀ desc, w.lastUpdate id = some desc → desc.priority = none)
      (perform (.update id request))
      fun _ w => Faithful none held ids w ∧ ∀ desc, w.lastUpdate id = some desc → desc.priority = none := by
  refine triple_call (stable_and stable_faithful (stable_memo _)) (fun _ => stable_and stable_faithful (stable_memo _)) ?_
  rintro w reply w' ⟨faithful, unpinned⟩ responds
  rcases responds with ⟨-, chosen, rfl⟩ | ⟨-, rfl⟩
  · have kept := faithful.applyPriority unpinned (only chosen _)
    exact ⟨fun _ => kept.invisible, kept, unpinned⟩
  · exact ⟨fun known => known, faithful, unpinned⟩

theorem does_releaseJob (priority : Option Int) :
    Does (fun w => Faithful none held ids w ∧ ∀ desc, w.lastUpdate id = some desc → desc.priority = none)
      (releaseJob id priority) fun _ => Faithful none held ids := by
  have hold : ∀ chosen job, ∃ priority, releaseRequest.apply chosen job = { job with priority } :=
    fun chosen job => ⟨_, by rfl⟩
  refine triple_bind _ (does_request hold) fun reply => ?_
  have ends : ∀ out : Except String Unit, Does
      (fun w => Faithful none held ids w ∧ ∀ desc, w.lastUpdate id = some desc → desc.priority = none)
      (pure out) fun _ => Faithful none held ids :=
    fun out => triple_pure stable_faithful fun _ reached => reached.1
  cases reply with
  | error err => exact ends _
  | ok _ =>
    cases priority with
    | none => exact ends _
    | some priority =>
      have only : ∀ chosen job, ∃ p, (priorityRequest priority).apply chosen job = { job with priority := p } :=
        fun chosen job => ⟨_, by rfl⟩
      refine triple_bind _ (does_request only) fun reply => ?_
      cases reply <;> exact ends _

/-- The job that a component's update is sent for. -/
def jobOf (component : SlurmJobComponent) : Int :=
  ((component.pods.head?.bind fun pod => parseInt32 (pod.label labelExternalJobId))).getD 0

private theorem validateFrom_congr {cs cs' : List SlurmJobComponent}
    (same : cs.map SlurmJobComponent.pods = cs'.map SlurmJobComponent.pods) (seen : List String) :
    SlurmJobIR.validateFrom seen cs = SlurmJobIR.validateFrom seen cs' := by
  induction cs generalizing cs' seen with
  | nil =>
    obtain rfl := map_eq_nil_iff.mp same.symm
    rfl
  | cons c cs ih =>
    cases cs' with
    | nil => cases same
    | cons c' cs' =>
      obtain ⟨pods, rest⟩ := cons.inj same
      unfold SlurmJobIR.validateFrom
      rw [pods]
      dsimp only
      split
      · rfl
      · split
        · rfl
        · exact ih rest _

theorem validate_withhold (held : Bool) (ir : SlurmJobIR) (index : Nat) :
    (withholdPriority held ir index).validate = ir.validate := by
  unfold withholdPriority
  cases held with
  | false => rfl
  | true =>
    have same : (ir.components.modify index fun component =>
        { component with jobInfo := { component.jobInfo with priority := none } }).map SlurmJobComponent.pods =
          ir.components.map SlurmJobComponent.pods := by
      refine ext_getElem? fun i => ?_
      rw [getElem?_map, getElem?_map, getElem?_modify]
      split <;> cases ir.components[i]? <;> rfl
    have empty : (ir.components.modify index fun component =>
        { component with jobInfo := { component.jobInfo with priority := none } }).isEmpty = ir.components.isEmpty := by
      rw [← isEmpty_map (f := SlurmJobComponent.pods), same, isEmpty_map]
    unfold SlurmJobIR.validate
    rw [if_pos rfl]
    rw [empty, validateFrom_congr same]

variable {ir : SlurmJobIR} {component : SlurmJobComponent} {index : Nat}

/-- A command of the plugin that can fail, with what is known between runs after a failure. -/
abbrev Runs {α : Type} (partition : String) (pre : World → Prop) (x : Fallible α) (post : α → World → Prop) : Prop :=
  Does pre (interp (handler sendChanged partition) x.run) (orFail (Faithful none false []) post)

variable {P : World → Prop}

theorem runs_firstPod (stable : Stable Changes P) (enough : ∀ w, P w → Faithful none false [] w) :
    Runs partition P (firstPod component) fun pod w => P w ∧ component.pods.head? = some pod := by
  unfold firstPod
  split
  · exact triple_run_throw stable_faithful enough
  · rename_i pod rest pods
    rw [pods]
    exact triple_run_pure (stable_and stable (stable_const _)) fun _ known => ⟨known, rfl⟩

variable {pod : Pod}

theorem does_updateJob (there : ir.components[index]? = some component)
    (first : component.pods.head? = some pod) :
    Does (Faithful none held ids) (interp (handler sendChanged partition) (PostFilter.updateJob pod (withholdPriority held ir index)))
      (orFail (Faithful none held ids) fun _ w =>
        Faithful none held (jobOf component :: ids) w ∧ ir.validate = .ok ()) := by
  unfold PostFilter.updateJob
  rw [validate_withhold]
  split
  · exact triple_pure stable_faithful fun _ known => known
  · rename_i valid
    have sending := HoldOrder.components_withhold held ir index there
    have member : pod ∈ (HoldOrder.sent held component).pods := by
      rw [HoldOrder.pods_sent]
      exact mem_of_mem_head? first
    rw [HoldOrder.componentOf_of_validate ((validate_withhold held ir index).trans valid) sending member,
      Option.bind_some, sending, HoldOrder.root_withhold]
    show Does _ (interp (handler sendChanged partition) (Prog.call (I := Plugin.surroundings) _)) _
    rw [interp_call]
    show Does _ (updateJob sendChanged partition pod ir.rootPOM (HoldOrder.sent held component)) _
    rcases updateJob_cases partition pod ir.rootPOM (HoldOrder.sent held component) with
      ⟨err, refused⟩ | ⟨id, desc, label, positive, built, sends⟩
    · rw [refused]
      exact triple_pure stable_faithful fun _ known => known
    · rw [sends]
      obtain ⟨noHold, priority⟩ := buildJobUpdate_ok built
      have withheld : held = true → desc.priority = none := by
        rintro rfl
        exact priority
      have job : jobOf component = id := by simp [jobOf, first, label]
      rw [job]
      refine triple_mono (does_sendChanged positive noHold withheld) (fun _ known => known) fun out w reached => ?_
      cases out with
      | error err => exact reached
      | ok _ => exact ⟨reached, valid⟩

theorem runs_updateComponent (there : ir.components[index]? = some component) :
    Runs partition (Faithful none held ids) (updateComponent ir held component index) fun _ w =>
      Faithful none held (jobOf component :: ids) w ∧ ir.validate = .ok () := by
  refine triple_run_bind _ stable_faithful (runs_firstPod stable_faithful fun _ known => known.idle) fun pod => ?_
  intro w known
  refine triple_run_bind (fun reply w => orFail (Faithful none held ids) (fun _ w =>
        Faithful none held (jobOf component :: ids) w ∧ ir.validate = .ok ()) reply w) stable_faithful
    (triple_run_lift (fun reply => ?_) (does_updateJob there known.2)) (fun reply => ?_) w known.1
  · cases reply with
    | error err => exact stable_faithful
    | ok _ => exact stable_and stable_faithful (stable_const _)
  · cases reply with
    | error err =>
      dsimp only
      split <;> exact triple_run_throw stable_faithful fun _ known => known.idle
    | ok _ => exact triple_run_pure (stable_and stable_faithful (stable_const _)) fun _ known => known

variable {pinned : List ExternalJob}

theorem runs_readAllocation (stable : Stable Changes P) (enough : ∀ w, P w → Faithful none false [] w) :
    Runs partition P (readAllocation ir pinned pod) fun checked w =>
      P w ∧ ∃ reply, checkAllocation ir pinned pod reply = .ok checked := by
  refine triple_run_bind (fun _ => P) stable_faithful (triple_run_lift (fun _ => stable) ?_) fun reply => ?_
  · show Does P (interp (handler sendChanged partition) (Prog.call (I := Plugin.surroundings) (.getAllocation pod ir))) _
    refine triple_call stable (fun _ => stable) fun w reply w' known responds => ?_
    obtain rfl : w' = w := responds
    exact ⟨fun invisible => invisible, known⟩
  · cases checked : checkAllocation ir pinned pod reply with
    | error status => exact triple_run_throw stable_faithful enough
    | ok checked => exact triple_run_pure (stable_and stable (stable_const _)) fun _ known => ⟨known, reply, by assumption⟩

variable {components : List SlurmJobComponent}

private theorem checkJobs_pinned {jobs : List ExternalJob}
    (ok : checkJobs true pinned jobs components = .ok ()) {i : Nat} {job : ExternalJob}
    (there : jobs[i]? = some job) : pinned[i]?.map ExternalJob.jobId = some job.jobId := by
  induction jobs generalizing pinned components i with
  | nil => cases there
  | cons first jobs ih =>
    unfold checkJobs at ok
    split at ok
    · cases ok
    rename_i same
    split at ok
    · cases ok
    cases pinned with
    | nil => exact absurd rfl same
    | cons p pinned =>
      cases i with
      | zero =>
        obtain rfl := Option.some.inj there
        have kept : p.jobId = first.jobId := by
          by_contra other
          exact same (by simp [replaced, other])
        simp [kept]
      | succ i => exact ih ok there

theorem checkAllocation_ok {reply : Except AllocationError (List ExternalJob)} {checked : Checked}
    (ok : checkAllocation ir pinned pod reply = .ok checked) :
    checked.allocation ≠ [] ∧ (pinned ≠ [] → ∃ i, componentOf ir pod = some i ∧
      pinned[i]?.map ExternalJob.jobId = some (parseSlurmJobId (pod.label labelExternalJobId))) := by
  unfold checkAllocation at ok
  split at ok
  · cases ok
  · cases ok
  · cases ok
  split at ok
  · cases ok
  rename_i some'
  rw [Bool.or_eq_true, not_or, List.isEmpty_iff] at some'
  split at ok
  · cases ok
  rename_i pins
  split at ok
  · cases ok
  rename_i i found
  split at ok
  · rename_i component job there jobThere
    split at ok
    · cases ok
    rename_i label
    split at ok
    · cases ok
    cases ok
    constructor
    · split
      · exact some'.1
      · rename_i pinned
        exact fun empty => pinned (isEmpty_iff.mpr empty)
    · intro pinnedSome
      have flag : (!pinned.isEmpty) = true := by
        rw [Bool.not_eq_true', Bool.eq_false_iff]
        exact fun empty => pinnedSome (isEmpty_iff.mp empty)
      rw [flag] at pins
      refine ⟨i, found, (checkJobs_pinned pins jobThere).trans ?_⟩
      rw [not_not.mp label]
  · cases ok

theorem parseInt32_of_parseSlurmJobId {label : String} (positive : 0 < parseSlurmJobId label) :
    parseInt32 label = some (parseSlurmJobId label) := by
  unfold parseSlurmJobId at positive ⊢
  cases parsed : parseNumeral (2 ^ 32) label with
  | none =>
    rw [parsed] at positive
    exact absurd positive (lt_irrefl _)
  | some n =>
    simp only [parsed] at positive ⊢
    have small : n < 2 ^ 31 := by
      by_contra large
      have below : n < 2 ^ 32 := by
        unfold parseNumeral at parsed
        split at parsed
        · rename_i digits
          exact Option.some.inj parsed ▸ digits.2.2
        · cases parsed
      omega
    rw [if_pos small]
    unfold parseNumeral at parsed
    split at parsed
    · rename_i digits
      obtain rfl := Option.some.inj parsed
      have numeral : parseNumeral (2 ^ 31) label = some (Nat.ofDigitChars 10 label.toList 0) :=
        if_pos ⟨digits.1, digits.2.1, small⟩
      have digit := all_eq_true.mp digits.2.1
      unfold parseInt32
      split
      · rename_i chars
        rw [chars] at digit
        exact absurd (digit '-' mem_cons_self) (by decide)
      · rename_i chars
        rw [chars] at digit
        exact absurd (digit '+' mem_cons_self) (by decide)
      · rw [numeral]
        rfl
    · cases parsed

theorem runs_releaseComponentHold (there : ir.components[index]? = some component)
    (valid : ir.validate = .ok ()) (pinnedSome : pinned ≠ []) (updated : jobOf component ∈ ids) :
    Runs partition (Faithful none true ids) (releaseComponentHold ir pinned component index) fun _ =>
      Faithful none true ids := by
  refine triple_run_bind _ stable_faithful (runs_firstPod stable_faithful fun _ known => known.idle) fun pod => ?_
  refine triple_run_bind _ stable_faithful
    (runs_readAllocation (stable_and stable_faithful (stable_const _)) fun _ known => known.1.idle) fun checked => ?_
  rintro w ⟨⟨faithful, first⟩, reply, ok⟩
  have member := mem_of_mem_head? (Option.mem_def.mpr first)
  obtain ⟨i, found, pinned⟩ := (checkAllocation_ok ok).2 pinnedSome
  rw [HoldOrder.componentOf_of_validate valid there member] at found
  obtain rfl := Option.some.inj found
  rw [pinned, Option.getD_some]
  have unpinned : ∀ w, Faithful none true ids w → ∀ desc,
      w.lastUpdate (parseSlurmJobId (pod.label labelExternalJobId)) = some desc → desc.priority = none := by
    intro w faithful desc known
    have job : jobOf component = parseSlurmJobId (pod.label labelExternalJobId) := by
      simp [jobOf, first, parseInt32_of_parseSlurmJobId (faithful.positive _ _ known)]
    exact faithful.withheld rfl _ (job ▸ updated) desc known
  refine triple_run_bind (fun _ => Faithful none true ids) stable_faithful (triple_run_lift (fun _ => stable_faithful) ?_)
    (fun reply => ?_) w faithful
  · show Does _ (interp (handler sendChanged partition) (Prog.call (I := Plugin.surroundings) (.releaseJob _ _))) _
    rw [interp_call]
    exact triple_mono (does_releaseJob _) (fun w known => ⟨known, unpinned w known⟩) fun _ _ reached => reached
  · cases reply with
    | ok _ => exact triple_run_pure stable_faithful fun _ known => known
    | error err => exact triple_run_throw stable_faithful fun _ known => known.idle

private theorem getElem?_of_split {seen rest : List (SlurmJobComponent × Nat)}
    {entry : SlurmJobComponent × Nat} (split : components.zipIdx = seen ++ entry :: rest) :
    components[entry.2]? = some entry.1 := by
  refine mem_zipIdx_iff_getElem?.mp ?_
  rw [split]
  exact mem_append_right _ mem_cons_self

theorem runs_updates : Runs partition (Faithful none held []) (ir.components.zipIdx.foldlM
      (fun _ entry => updateComponent ir held entry.1 entry.2) ()) fun _ w =>
        Faithful none held (ir.components.map jobOf).reverse w ∧ (ir.components ≠ [] → ir.validate = .ok ()) := by
  let inv (seen : List (SlurmJobComponent × Nat)) (_ : Unit) (w : World) : Prop :=
    Faithful none held (seen.map fun entry => jobOf entry.1).reverse w ∧ (seen ≠ [] → ir.validate = .ok ())
  have loop : Runs partition (inv [] ()) (ir.components.zipIdx.foldlM
      (fun _ entry => updateComponent ir held entry.1 entry.2) ()) (inv ir.components.zipIdx) := by
    refine triple_run_foldlM inv stable_faithful (fun _ _ => stable_and stable_faithful (stable_const _)) ?_
    rintro seen ⟨component, index⟩ rest _ split
    have there := getElem?_of_split split
    refine triple_mono (runs_updateComponent there) (fun _ known => known.1) fun out w reached => ?_
    cases out with
    | error status => exact reached
    | ok _ =>
      refine ⟨?_, fun _ => reached.2⟩
      rw [map_append, reverse_append]
      exact reached.1
  refine triple_mono loop (fun w known => ⟨known, by simp⟩) fun out w reached => ?_
  cases out with
  | error status => exact reached
  | ok _ =>
    obtain ⟨faithful, valid⟩ := reached
    have jobs : ir.components.zipIdx.map (fun entry => jobOf entry.1) = ir.components.map jobOf := by
      rw [← comp_def jobOf Prod.fst, ← map_map, zipIdx_map_fst]
    exact ⟨jobs ▸ faithful, fun some' => valid (by simpa using some')⟩

theorem runs_releases (valid : ir.validate = .ok ()) (pinnedSome : pinned ≠ []) :
    Runs partition (Faithful none true (ir.components.map jobOf).reverse) (ir.components.zipIdx.foldlM
      (fun _ entry => releaseComponentHold ir pinned entry.1 entry.2) ()) fun _ =>
        Faithful none true (ir.components.map jobOf).reverse := by
  refine triple_run_foldlM (fun _ _ => Faithful none true (ir.components.map jobOf).reverse) stable_faithful
    (fun _ _ => stable_faithful) ?_
  rintro seen ⟨component, index⟩ rest _ split
  have there := getElem?_of_split split
  refine runs_releaseComponentHold there valid pinnedSome ?_
  exact mem_reverse.mpr (mem_map_of_mem (mem_of_getElem? there))

theorem runs_updateExternalJob (ir : SlurmJobIR) (allocation : List ExternalJob) (held : Bool) :
    Runs partition (Faithful none false []) (updateExternalJob ir allocation held) fun _ => Faithful none false [] := by
  unfold updateExternalJob firstComponent
  split
  · exact triple_run_throw stable_faithful fun _ known => known
  · rename_i first rest components
    have some' : ir.components ≠ [] := by simp [components]
    have start : ∀ w, Faithful none false [] w → Faithful none held [] w :=
      fun w known => ⟨known.invisible, known.positive, known.settled, by simp⟩
    show Runs partition _ (firstPod first >>= _) _
    refine triple_run_bind _ stable_faithful (runs_firstPod stable_faithful fun _ known => known) fun pod => ?_
    refine triple_run_bind _ stable_faithful
      (runs_readAllocation (stable_and stable_faithful (stable_const _)) fun _ known => known.1) fun checked => ?_
    rintro w ⟨⟨faithful, -⟩, reply, ok⟩
    have pinnedSome := (checkAllocation_ok ok).1
    refine triple_run_bind _ stable_faithful runs_updates (fun _ => ?_) w (start w faithful)
    cases held with
    | false => exact triple_run_pure stable_faithful fun _ known => known.1.idle
    | true =>
      rintro w ⟨faithful, valid⟩
      refine triple_mono (runs_releases (valid some') pinnedSome) (fun _ known => known) (fun out w reached => ?_) w faithful
      cases out with
      | error status => exact reached
      | ok _ => exact reached.idle

end

/- A single Pod whose job is updated twice in the same way. -/

private def memoPod : Pod :=
  { Pod.waiting (.of "ns" (.refl true)) (.of "a" (.refl true)) (.of "u" (.refl true)) "slurm-bridge" with
    labels := (∅ : StringMap).insert labelExternalJobId "7" }

private def memoRun : UpdateRun where
  ir := ⟨⟨⟨"", "v1", "Pod"⟩, "ns", "a", "u", []⟩, [⟨.empty, { excNodes := ["n2"], priority := some 5 }, [memoPod]⟩]⟩
  allocation := [⟨7, 0, 0, ⟨"", []⟩, true, false, false⟩]
  held := false

private def pluginReply : (c : Plugin.Command) → c.Reply
  | .getAllocation _ _ => .ok memoRun.allocation
  | .getJob _ => .error ""
  | .allocatedNodeWaitingForBridge _ _ => .ok false
  | .deleteExternalJob _ => .ok ()
  | .activatePod _ => ()
  | .nodeInfos => .ok []
  | .getNodeNames _ => .ok []
  | .nodeEligibleForSlurm _ _ _ => .ok false
  | .updateJob _ _ _ => .ok ()
  | .releaseJob _ _ => .ok ()
  | .recordProgress _ _ ir _ => .updating ir
  | .deletePending _ => ()
  | .storeRelease _ _ => none
  | .sendEvent _ => ()
  | .takeRelease _ => none
  | .finishRelease _ _ _ => ()
  | .restoreRelease _ _ => false
  | .releasesDone => ()

private def answer : (c : Command) → World → c.Reply × World
  | .control (.forgetUpdate id), w => ((), w.forget id)
  | .control (.delete _), w => (.ok (), w)
  | .control (.get _), w => (.error .notFound, w)
  | .lookupUpdate id, w => (w.lastUpdate id, w)
  | .rememberUpdate id desc, w => ((), { w with lastUpdate := update w.lastUpdate id (some desc) })
  | .skipUpdate id desc, w => ((), w.applyUnskipped id none desc)
  | .update id desc, w =>
    if (w.jobs id).pending then (.ok (), w.apply id none desc) else (.error ⟨true, "Job/step already completing"⟩, w)
  | .plugin c, w => (pluginReply c, w)

private theorem answer_responds (c : Command) (w : World) : respond c (answer c w).1 w (answer c w).2 := by
  cases c with
  | control c => cases c <;> rfl
  | lookupUpdate id => exact ⟨rfl, rfl⟩
  | rememberUpdate id desc => rfl
  | skipUpdate id desc => exact ⟨none, rfl⟩
  | update id desc =>
    by_cases pending : (w.jobs id).pending = true
    · have applied : answer (.update id desc) w = (.ok (), w.apply id none desc) := if_pos pending
      rw [applied]
      exact .inl ⟨pending, none, rfl⟩
    · have refused : answer (.update id desc) w = (.error ⟨true, "Job/step already completing"⟩, w) := if_neg pending
      rw [refused]
      exact .inr ⟨⟨_, rfl⟩, rfl⟩
  | plugin c => rfl

private def pendingJobs : World := ⟨fun _ => ⟨true, {}⟩, fun _ => {}, fun _ => none, 0⟩

private def runOnce (w : World) : World := (runIn answer ((scheduler "bridge").code memoRun) w).2

end SlurmBridge.Scheduler.UpdateMemo
