/- source: internal/scheduler/plugins/slurmbridge/slurmbridge.go, release.go
   digest: A hold is released only in an attempt that updated all components, with the excluded
     nodes that were recorded for them. -/

import SlurmBridge.Scheduler.ReleaseQueue

set_option autoImplicit false

namespace SlurmBridge.Scheduler.HoldOrder

open Foundation.Checked Foundation.Interaction Foundation.Concurrency Kube.Objects JobIR.IR Slurm.Job Scheduler.Plugin
open Scheduler.PostFilter Scheduler.ReleaseQueue List Function AList

section
variable {components : List SlurmJobComponent}

theorem pairwise_of_validateFrom {seen : List String}
    (valid : SlurmJobIR.validateFrom seen components = .ok ()) :
    (∀ component ∈ components, ∀ pod ∈ component.pods, pod.namespacedName ∉ seen) ∧
      components.Pairwise fun c d => ∀ p ∈ c.pods, ∀ q ∈ d.pods, p.namespacedName ≠ q.namespacedName := by
  induction components generalizing seen with
  | nil => simp
  | cons component rest ih =>
    unfold SlurmJobIR.validateFrom at valid
    split at valid
    · cases valid
    · dsimp only at valid
      split at valid
      · cases valid
      · next unseen =>
          obtain ⟨later, pairwise⟩ := ih valid
          have own : ∀ pod ∈ component.pods, pod.namespacedName ∉ seen := by
            intro pod member known
            have refuted := find?_eq_none.mp unseen _ (mem_map_of_mem member)
            exact refuted (contains_iff_mem.mpr known)
          refine ⟨?_, pairwise_cons.mpr ⟨?_, pairwise⟩⟩
          · intro c inside pod member known
            rcases mem_cons.mp inside with rfl | inside
            · exact own pod member known
            · exact later c inside pod member (mem_append_left _ known)
          · intro d inside p member q other same
            exact later d inside q other (mem_append_right _ (same ▸ mem_map_of_mem member))

theorem index_unique
    (apart : components.Pairwise fun c d => ∀ p ∈ c.pods, ∀ q ∈ d.pods, p.namespacedName ≠ q.namespacedName)
    {i j : Nat} {c d : SlurmJobComponent} (first : components[i]? = some c) (second : components[j]? = some d)
    {p q : Pod} (inside : p ∈ c.pods) (member : q ∈ d.pods) (same : p.namespacedName = q.namespacedName) :
    i = j := by
  rw [pairwise_iff_getElem] at apart
  obtain ⟨bound, rfl⟩ := List.getElem?_eq_some_iff.mp first
  obtain ⟨bound', rfl⟩ := List.getElem?_eq_some_iff.mp second
  rcases Nat.lt_trichotomy i j with less | equal | more
  · exact absurd same (apart i j bound bound' less p inside q member)
  · exact equal
  · exact absurd same.symm (apart j i bound' bound more q member p inside)

theorem componentOf_of_validate {ir : SlurmJobIR} (valid : ir.validate = .ok ()) {index : Nat}
    {component : SlurmJobComponent} (there : ir.components[index]? = some component) {pod : Pod}
    (member : pod ∈ component.pods) : componentOf ir pod = some index := by
  have apart : ir.components.Pairwise fun c d =>
      ∀ p ∈ c.pods, ∀ q ∈ d.pods, p.namespacedName ≠ q.namespacedName := by
    unfold SlurmJobIR.validate at valid
    split at valid
    · cases valid
    · exact (pairwise_of_validateFrom valid).2
  have found : ∀ j ∈ List.range ir.components.length, ((ir.components[j]?).any fun component =>
        component.pods.any fun p => p.ns == pod.ns && p.name == pod.name) = (j == index) := by
    intro j _
    rw [Bool.eq_iff_iff, beq_iff_eq]
    constructor
    · intro holds
      cases second : ir.components[j]? with
      | none =>
        rw [second] at holds
        cases holds
      | some d =>
        rw [second, Option.any_some, any_eq_true] at holds
        obtain ⟨p, inside, same⟩ := holds
        rw [Bool.and_eq_true, beq_iff_eq, beq_iff_eq] at same
        refine index_unique apart second there inside member ?_
        rw [Pod.namespacedName, Pod.namespacedName, same.1, same.2]
    · rintro rfl
      simp only [there, Option.any_some, any_eq_true]
      exact ⟨pod, member, by simp⟩
  have bound : index ∈ List.range ir.components.length :=
    List.mem_range.mpr (List.getElem?_eq_some_iff.mp there).1
  unfold componentOf
  rw [filter_congr found, filter_beq, count_eq_one_of_mem nodup_range bound]
  rfl

end

/-- The past ends with the computation of the nodes that a component may not get. -/
def Passed (past : Trace surroundings) (component : SlurmJobComponent) : Prop :=
  ∃ before t checked pod m nodes, past = before ++ t ∧
    Exec (populateComponentWithFeasibleNodes checked pod m).run t (.ok nodes) ∧
    component = exclude nodes checked

def Executes (past : Trace surroundings) (key : GroupAllocation) (work : ReleaseWork) : Prop :=
  past.head? = some ⟨.takeRelease key, some work⟩

def sent (held : Bool) (component : SlurmJobComponent) : SlurmJobComponent :=
  if held then { component with jobInfo := { component.jobInfo with priority := none } } else component

def Acknowledged (past : Trace surroundings) (work : ReleaseWork) (component : SlurmJobComponent) : Prop :=
  ∃ pod ∈ component.pods, ⟨.updateJob pod work.ir.rootPOM (sent work.held component),
    (.ok () : Except UpdateError Unit)⟩ ∈ past

/-- When a task hands a work over, and when it changes a job. -/
def Order (task : Task) (past : Trace surroundings) : Command → Prop
  | .recordProgress _ _ _ component => (∀ key, task ≠ .release key) ∧ Passed past component
  | .storeRelease key work =>
    (∃ before ref jobHeld ir component, past = before ++
      [⟨.recordProgress key jobHeld ir component, Recorded.handOver ref work.held work.ir⟩]) ∨
    ∃ component, work.ir.components = [component] ∧ Passed past component
  | .updateJob _ _ component => ∃ key work, task = .release key ∧ Executes past key work ∧
      (work.held = true → component.jobInfo.priority = none)
  | .releaseJob _ _ => ∃ key work, task = .release key ∧ Executes past key work ∧
      work.held = true ∧ ∀ component ∈ work.ir.components, Acknowledged past work component
  | .restoreRelease key work => ∃ taken, task = .release key ∧ Executes past key taken ∧ work = again taken
  | _ => True

variable {past t : Trace surroundings} {key : GroupAllocation} {work : ReleaseWork}

theorem Executes.append (executes : Executes past key work) : Executes (past ++ t) key work := by
  unfold Executes at executes ⊢
  rw [head?_append, executes]
  rfl

variable {component : SlurmJobComponent}

theorem Acknowledged.append (acknowledged : Acknowledged past work component) :
    Acknowledged (past ++ t) work component := by
  obtain ⟨pod, member, event⟩ := acknowledged
  exact ⟨pod, member, mem_append_left _ event⟩

section
variable {task : Task} {past : Trace surroundings}

theorem order_of_looking {c : Command} (looking : Looking c) : Order task past c := by
  cases c <;> trivial

variable {α : Type}

theorem wp_looking {p : Ctl α} {post : Trace surroundings → α → Prop} (looking : Only Looking p)
    (returns : ∀ t a, Exec p t a → post (past ++ t) a) : wp (Order task) p past post :=
  wp_of_only looking (fun _ _ => order_of_looking) fun t a run _ => returns t a run

theorem run_readAllocation (ir : SlurmJobIR) (pinned : List ExternalJob) (pod : Pod) :
    (readAllocation ir pinned pod).run = perform (.getAllocation pod ir) >>= fun reply =>
      pure (checkAllocation ir pinned pod reply) := rfl

variable {ir : SlurmJobIR} {pod : Pod}

theorem component_of_checked {pinned : List ExternalJob} {reply : Except AllocationError (List ExternalJob)}
    {checked : Checked} (accepted : checkAllocation ir pinned pod reply = .ok checked) :
    ∃ index, componentOf ir pod = some index ∧ ir.components[index]? = some checked.component := by
  unfold checkAllocation at accepted
  split at accepted
  · cases accepted
  · cases accepted
  · cases accepted
  · split at accepted
    · cases accepted
    · split at accepted
      · cases accepted
      · split at accepted
        · cases accepted
        · next index found =>
            split at accepted
            · next component job there _ =>
                split at accepted
                · cases accepted
                · split at accepted
                  · cases accepted
                  · cases accepted
                    exact ⟨index, found, there⟩
            · cases accepted

variable {index : Nat} {component : SlurmJobComponent}

theorem components_of_single {nodes : List String} (found : componentOf ir pod = some index)
    (there : ir.components[index]? = some component) (single : (setExcluded ir pod nodes).isHetJob = false) :
    (setExcluded ir pod nodes).components = [exclude nodes component] := by
  have modified : (setExcluded ir pod nodes).components = ir.components.modify index (exclude nodes) := by
    rw [setExcluded, found]
  rw [SlurmJobIR.isHetJob, modified, length_modify, decide_eq_false_iff_not] at single
  rw [modified]
  have bound : index < ir.components.length := (List.getElem?_eq_some_iff.mp there).1
  obtain ⟨only, all⟩ := length_eq_one_iff.mp (show ir.components.length = 1 by omega)
  obtain rfl : index = 0 := by omega
  rw [all] at there ⊢
  obtain rfl : only = component := Option.some.inj there
  rfl

theorem wp_postFilter_order (cycle : Nat) (data : StateData) (pod : Pod) (m : NodeStatuses) :
    wp (Order (.postFilter cycle data pod m)) (postFilter data pod m) [] fun _ _ => True := by
  unfold postFilter
  cases data.slurmJobIR with
  | none => trivial
  | some ir =>
    dsimp only
    rw [run_readAllocation, bind_assoc, wp_perform_bind]
    refine ⟨trivial, fun reply => ?_⟩
    rw [pure_bind]
    cases accepted : checkAllocation ir data.allocation pod reply with
    | error status => trivial
    | ok checked =>
      obtain ⟨index, found, there⟩ := component_of_checked accepted
      dsimp only
      split
      · rw [wp_bind]
        refine wp_looking (looking_rejectPlacement _ _ _) fun t' out run' => ?_
        rcases out with status | _ <;> trivial
      · split
        · trivial
        · rw [wp_bind]
          refine wp_looking (looking_populate _ _ _) fun t' out run' => ?_
          rcases out with status | nodes
          · trivial
          · have passed : Passed ([] ++ [⟨.getAllocation pod ir, reply⟩] ++ t')
                (exclude nodes checked.component) :=
              ⟨_, t', checked.component, pod, m, nodes, rfl, run', rfl⟩
            unfold handOver
            dsimp only
            by_cases het : (setExcluded ir pod nodes).isHetJob ∧ checked.job.pending
            · rw [if_pos het]
              refine ⟨⟨nofun, passed⟩, fun reply => ?_⟩
              cases reply with
              | unprocessed ir => trivial
              | updating ir => trivial
              | handOver progress held ir =>
                exact ⟨.inl ⟨_, _, _, _, _, rfl⟩, fun _ => ⟨trivial, fun _ => trivial⟩⟩
            · rw [if_neg het]
              split
              · next pending =>
                  have single : (setExcluded ir pod nodes).isHetJob = false :=
                    Bool.eq_false_iff.mpr fun several => het ⟨several, pending⟩
                  exact ⟨.inr ⟨_, components_of_single found there single, passed⟩,
                    fun _ => ⟨trivial, fun _ => trivial⟩⟩
              · exact ⟨trivial, fun _ => trivial⟩

variable {key : GroupAllocation} {work : ReleaseWork}

theorem components_withhold (held : Bool) (ir : SlurmJobIR) (index : Nat)
    (there : ir.components[index]? = some component) :
    (withholdPriority held ir index).components[index]? = some (sent held component) := by
  unfold withholdPriority sent
  cases held with
  | false => exact there
  | true => simp [there]

theorem root_withhold (held : Bool) (ir : SlurmJobIR) (index : Nat) :
    (withholdPriority held ir index).rootPOM = ir.rootPOM := by
  unfold withholdPriority
  split <;> rfl

theorem pods_sent (held : Bool) (component : SlurmJobComponent) :
    (sent held component).pods = component.pods := by
  unfold sent
  split <;> rfl

theorem wp_firstPod {post : Trace surroundings → Except Status α → Prop}
    {found : Trace surroundings → Pod → Prop} (fails : ∀ t status, post (past ++ t) (.error status))
    (first : ∀ pod ∈ component.pods, found past pod) :
    wp (Order task) (firstPod component).run past (orFail post found) := by
  unfold firstPod
  split
  · have failed := fails [] (asStatus "component without pods")
    rw [append_nil] at failed
    exact failed
  · next pod rest pods => exact first pod (pods ▸ mem_cons_self)

section
variable (executes : Executes past key work)

include executes

theorem wp_updateJob (there : work.ir.components[index]? = some component)
    (member : pod ∈ component.pods) {post : Trace surroundings → Except UpdateError Unit → Prop}
    (fails : ∀ err, post past (.error err))
    (replies : ∀ reply, post (past ++ [⟨.updateJob pod work.ir.rootPOM (sent work.held component), reply⟩]) reply) :
    wp (Order (.release key)) (updateJob pod (withholdPriority work.held work.ir index)) past post := by
  have sending := components_withhold work.held work.ir index there
  unfold updateJob
  split
  · exact fails _
  · next valid =>
      rw [← pods_sent work.held] at member
      rw [componentOf_of_validate valid sending member, Option.bind_some, sending, root_withhold]
      refine ⟨⟨key, work, rfl, executes, fun held => ?_⟩, replies⟩
      rw [held]
      rfl

variable {post : Trace surroundings → Except Status Unit → Prop}

theorem wp_updateComponent (there : work.ir.components[index]? = some component)
    (fails : ∀ t status, post (past ++ t) (.error status))
    (updated : ∀ t, Acknowledged (past ++ t) work component → post (past ++ t) (.ok ())) :
    wp (Order (.release key)) (updateComponent work.ir work.held component index).run past post := by
  have refused : ∀ t (err : UpdateError), wp (Order (.release key))
      (if err.notPending then throw (unschedulable "allocation changed while updating eligibility")
        else throw (asStatus err.text) : Fallible Unit).run (past ++ t) post := by
    intro t err
    split <;> exact fails t _
  unfold updateComponent
  rw [wp_run_bind]
  refine wp_firstPod fails fun pod member => ?_
  rw [wp_run_bind]
  refine (wp_run_lift _ _).mpr (wp_updateJob executes there member (fun err => ?_) fun reply => ?_)
  · have failed := refused [] err
    rw [append_nil] at failed
    exact failed
  · cases reply with
    | ok _ => exact updated _ ⟨pod, member, mem_append_right _ (mem_singleton_self _)⟩
    | error err => exact refused _ err

theorem wp_releaseComponentHold (held : work.held = true)
    (acknowledged : ∀ component ∈ work.ir.components, Acknowledged past work component)
    (allocation : List ExternalJob) (index : Nat) (component : SlurmJobComponent)
    (returns : ∀ t out, post (past ++ t) out) :
    wp (Order (.release key)) (releaseComponentHold work.ir allocation component index).run past post := by
  unfold releaseComponentHold
  rw [wp_run_bind]
  refine wp_firstPod (fun t status => returns t _) fun pod member => ?_
  rw [wp_run_bind]
  refine wp_looking (looking_readAllocation _ _ _) fun t out run => ?_
  cases out with
  | error status => exact returns t _
  | ok checked =>
    refine ⟨⟨key, work, rfl, executes.append, held, fun c inside => (acknowledged c inside).append⟩,
      fun reply => ?_⟩
    cases reply <;> exact append_assoc past t _ ▸ returns _ _

theorem wp_updateExternalJob (returns : ∀ t out, post (past ++ t) out) :
    wp (Order (.release key)) (updateExternalJob work.ir work.allocation work.held).run past post := by
  -- Whatever happens before the last loop ends with a result that the caller accepts.
  have ends : ∀ {h : Trace surroundings}, (∃ t, h = past ++ t) → ∀ out, post h out := by
    rintro h ⟨t, rfl⟩ out
    exact returns t out
  unfold updateExternalJob
  unfold firstComponent
  split
  · exact ends ⟨[], (append_nil _).symm⟩ _
  · next first rest components =>
      show wp _ (firstPod first >>= _).run past post
      rw [wp_run_bind]
      refine wp_firstPod (fun t status => returns t _) fun pod member => ?_
      rw [wp_run_bind]
      refine wp_looking (looking_readAllocation _ _ _) fun t out run => ?_
      cases out with
      | error status => exact returns t _
      | ok checked =>
        show wp _ (_ >>= _ : Fallible Unit).run (past ++ t) post
        rw [wp_run_bind]
        refine wp_run_foldlM (fun seen h _ => (∃ t, h = past ++ t) ∧
          ∀ entry ∈ seen, Acknowledged h work entry.1) ⟨⟨t, rfl⟩, by simp⟩ ?_ ?_
        · rintro seen ⟨component, index⟩ later h _ split ⟨⟨t', rfl⟩, acknowledged⟩
          have listed : (component, index) ∈ work.ir.components.zipIdx := by
            rw [split]
            exact mem_append_right _ mem_cons_self
          have there := mem_zipIdx_iff_getElem?.mp listed
          refine wp_updateComponent executes.append there (fun t'' status => ?_) fun t'' now => ?_
          · exact ends ⟨t' ++ t'', append_assoc ..⟩ _
          · exact ⟨⟨t' ++ t'', append_assoc ..⟩,
              forall_mem_snoc (fun entry before => (acknowledged entry before).append) now⟩
        · rintro h _ ⟨⟨t', rfl⟩, acknowledged⟩
          have all : ∀ component ∈ work.ir.components, Acknowledged (past ++ t') work component := by
            intro component inside
            obtain ⟨index, there⟩ := mem_iff_getElem?.mp inside
            exact acknowledged (component, index) (mem_zipIdx_iff_getElem?.mpr there)
          split
          · next held =>
              refine wp_run_foldlM (fun _ h _ => (∃ t, h = past ++ t) ∧
                ∀ component ∈ work.ir.components, Acknowledged h work component)
                ⟨⟨t', rfl⟩, all⟩ ?_ fun h _ reached => ends reached.1 _
              rintro seen ⟨component, index⟩ later h _ split ⟨⟨t', rfl⟩, acknowledged⟩
              refine wp_releaseComponentHold executes.append held acknowledged _ index component ?_
              intro t'' out
              have onward : ∃ t, past ++ t' ++ t'' = past ++ t := ⟨t' ++ t'', append_assoc ..⟩
              cases out with
              | error status => exact ends onward _
              | ok _ => exact ⟨onward, fun c inside => (acknowledged c inside).append⟩
          · exact returns t' _

end

theorem wp_reconcileRelease_order (key : GroupAllocation) :
    wp (Order (.release key)) (reconcileRelease key) [] fun _ _ => True := by
  unfold reconcileRelease
  rw [wp_perform_bind]
  refine ⟨trivial, fun reply => ?_⟩
  cases reply with
  | none => trivial
  | some taken =>
    have executes : Executes ([] ++ [⟨.takeRelease key, some taken⟩]) key taken := rfl
    rw [wp_bind]
    refine wp_updateExternalJob executes fun t outcome => ?_
    cases succeeded outcome with
    | none => exact ⟨trivial, fun _ => ⟨trivial, fun _ => trivial⟩⟩
    | some status =>
      dsimp only
      split
      · exact ⟨trivial, fun _ => ⟨trivial, fun _ => ⟨trivial, fun _ => trivial⟩⟩⟩
      · refine ⟨⟨taken, rfl, executes.append, rfl⟩, fun newer => ?_⟩
        cases newer with
        | true => exact ⟨trivial, fun _ => trivial⟩
        | false => trivial

theorem wp_code_order (task : Task) : wp (Order task) (code task) [] fun _ _ => True := by
  cases task with
  | postFilter cycle data pod m =>
    unfold code
    rw [wp_bind]
    exact wp_mono (wp_postFilter_order cycle data pod m) fun t out ends => trivial
  | release key =>
    unfold code
    rw [wp_bind]
    exact wp_mono (wp_reconcileRelease_order key) fun t err ends => trivial

end

section
variable {recorded : AList fun _ : ComponentName => List String}

def refill (recorded : AList fun _ : ComponentName => List String) (component : SlurmJobComponent) :
    SlurmJobComponent :=
  if (recorded.lookup (componentName component)).getD [] ≠ [] ∧ component.jobInfo.excNodes = [] then
    exclude ((recorded.lookup (componentName component)).getD []) component
  else
    component

theorem componentName_refill (component : SlurmJobComponent) :
    componentName (refill recorded component) = componentName component := by
  unfold refill
  split <;> rfl

theorem excNodes_refill {component : SlurmJobComponent} {excluded : List String}
    (found : recorded.lookup (componentName component) = some excluded) :
    (refill recorded component).jobInfo.excNodes = excluded ↔
      component.jobInfo.excNodes = [] ∨ component.jobInfo.excNodes = excluded := by
  unfold refill
  rw [found, Option.getD_some]
  split
  · next filled => exact iff_of_true rfl (.inl filled.2)
  · next kept =>
      constructor
      · exact .inr
      · rintro (none | same)
        · rw [none]
          by_contra other
          exact kept ⟨fun empty => other empty.symm, none⟩
        · exact same

theorem fillExcluded_processed {components : List SlurmJobComponent}
    (processed : (fillExcluded recorded components).2 = true) :
    (∀ component ∈ components, ∃ excluded, recorded.lookup (componentName component) = some excluded) ∧
      (fillExcluded recorded components).1 = components.map (refill recorded) := by
  induction components with
  | nil => exact ⟨by simp, rfl⟩
  | cons component rest ih =>
    cases found : recorded.lookup (componentName component) with
    | none => simp [fillExcluded, found] at processed
    | some excluded =>
      simp only [fillExcluded, found] at processed
      obtain ⟨known, mapped⟩ := ih processed
      refine ⟨fun c inside => ?_, ?_⟩
      · rcases mem_cons.mp inside with rfl | inside
        · exact ⟨excluded, found⟩
        · exact known c inside
      · simp only [fillExcluded, found, mapped, map_cons, refill, Option.getD_some, exclude]

end

def recordOf (key : GroupAllocation) (name : ComponentName) : Event surroundings → Option (List String × Bool)
  | ⟨.recordProgress k held _ component, _⟩ =>
    if k = key ∧ componentName component = name then some (component.jobInfo.excNodes, held) else none
  | _ => none

def lastRecord (log : List (Moment plugin)) (key : GroupAllocation) (name : ComponentName) :
    Option (List String × Bool) :=
  log.reverse.findSome? fun m => recordOf key name m.event

theorem lastRecord_snoc (log : List (Moment plugin)) (m : Moment plugin) (key : GroupAllocation)
    (name : ComponentName) :
    lastRecord (log ++ [m]) key name = (recordOf key name m.event).or (lastRecord log key name) := by
  unfold lastRecord
  rw [reverse_append, reverse_singleton, singleton_append, findSome?_cons]
  cases recordOf key name m.event <;> rfl

variable {log : List (Moment plugin)}

theorem lastRecord_keeps {m : Moment plugin} {name : ComponentName}
    (silent : recordOf key name m.event = none) :
    lastRecord (log ++ [m]) key name = lastRecord log key name := by
  rw [lastRecord_snoc, silent, Option.none_or]

/-- The shared progress of a key agrees with the history. -/
structure Faithful (s : Memory) (log : List (Moment plugin)) : Prop where
  below : ∀ key ref, s.pending key = some ref → ref < s.allocated
  apart : ∀ key key' ref, s.pending key = some ref → s.pending key' = some ref → key = key'
  recorded : ∀ key ref name excluded, s.pending key = some ref →
    (s.progress ref).components.lookup name = some excluded →
    ∃ held, lastRecord log key name = some (excluded, held) ∧ (held = true → (s.progress ref).held = true)

variable {s : Memory} {ref : Nat}

theorem pending_of_dropExpired (kept : s.dropExpired key = some ref) : s.pending key = some ref :=
  (Option.filter_eq_some_iff.mp kept).1

theorem pending_of_forgotten {pending : GroupAllocation → Option Nat} {k : GroupAllocation}
    (kept : update pending k none key = some ref) : pending key = some ref := by
  by_cases same : key = k
  · rw [same, update_self] at kept
    cases kept
  · rwa [update_of_ne same] at kept

theorem cleared_record (s : Memory) (work : ReleaseWork) (ref : Nat) :
    (cleared s work ref).components = (s.progress ref).components ∧
      (cleared s work ref).held = (s.progress ref).held := by
  unfold cleared
  cases work.progress with
  | none => exact ⟨rfl, rfl⟩
  | some ref' =>
    by_cases same : ref = ref'
    · subst same
      simp
    · simp [update_of_ne same]

section
variable {s : Memory} {log : List (Moment plugin)} {s' : Memory}

theorem Faithful.restrict {m : Moment plugin} (faithful : Faithful s log)
    (pending : ∀ key ref, s'.pending key = some ref → s.pending key = some ref)
    (allocated : s'.allocated = s.allocated)
    (components : ∀ ref, (s'.progress ref).components = (s.progress ref).components)
    (held : ∀ ref, (s'.progress ref).held = (s.progress ref).held)
    (silent : ∀ key name, recordOf key name m.event = none) : Faithful s' (log ++ [m]) where
  below key ref kept := allocated ▸ faithful.below key ref (pending key ref kept)
  apart key key' ref kept kept' := faithful.apart key key' ref (pending key ref kept) (pending key' ref kept')
  recorded key ref name excluded kept found := by
    rw [components] at found
    rw [lastRecord_keeps (silent key name), held]
    exact faithful.recorded key ref name excluded (pending key ref kept) found

variable {key : GroupAllocation}

theorem progressFor_apart (faithful : Faithful s log) {key' : GroupAllocation} (other : key' ≠ key)
    {ref : Nat} (kept : s.pending key' = some ref) : ref ≠ (s.progressFor key).1 := by
  unfold Memory.progressFor
  split
  · next ref' found =>
      rintro rfl
      exact other (faithful.apart _ _ _ kept (pending_of_dropExpired found))
  · have below := faithful.below key' ref kept
    rintro rfl
    exact Nat.lt_irrefl _ below

theorem progressFor_recorded (faithful : Faithful s log) {name : ComponentName} {excluded : List String}
    (found : (s.progressFor key).2.components.lookup name = some excluded) :
    ∃ held, lastRecord log key name = some (excluded, held) ∧
      (held = true → (s.progressFor key).2.held = true) := by
  unfold Memory.progressFor at found ⊢
  split at found
  · next ref kept => exact faithful.recorded key ref name excluded (pending_of_dropExpired kept) found
  · cases found

theorem withProgress_here (s : Memory) (key : GroupAllocation) (p : GroupProgress) :
    (withProgress s key p).progress (s.progressFor key).1 = p := update_self ..

variable {task : Task} {past : Trace surroundings}

theorem Faithful.record (faithful : Faithful s log) {jobHeld : Bool} {ir : SlurmJobIR}
    {component : SlurmJobComponent} {reply : Recorded} {p : GroupProgress}
    (components : p.components = (touched s key jobHeld component).components)
    (held : p.held = (touched s key jobHeld component).held) :
    Faithful (withProgress s key p)
      (log ++ [⟨task, past, ⟨.recordProgress key jobHeld ir component, reply⟩⟩]) := by
  have pending : ∀ k ref, (withProgress s key p).pending k = some ref → k = key ∧ ref = (s.progressFor key).1 ∨
        k ≠ key ∧ s.pending k = some ref ∧ ref ≠ (s.progressFor key).1 := by
    intro k ref kept
    change update s.dropExpired key (some (s.progressFor key).1) k = some ref at kept
    by_cases same : k = key
    · rw [same, update_self] at kept
      exact .inl ⟨same, (Option.some.inj kept).symm⟩
    · rw [update_of_ne same] at kept
      have before := pending_of_dropExpired kept
      exact .inr ⟨same, before, progressFor_apart faithful same before⟩
  have allocated : (withProgress s key p).allocated = max s.allocated ((s.progressFor key).1 + 1) := rfl
  refine ⟨fun k ref kept => ?_, fun k k' ref kept kept' => ?_, fun k ref name excluded kept found => ?_⟩
  · rcases pending k ref kept with ⟨-, rfl⟩ | ⟨-, before, -⟩
    · omega
    · have below := faithful.below k ref before
      omega
  · rcases pending k ref kept with ⟨rfl, here⟩ | ⟨-, before, away⟩
    · rcases pending k' ref kept' with ⟨rfl, -⟩ | ⟨-, -, away'⟩
      · rfl
      · exact absurd here away'
    · rcases pending k' ref kept' with ⟨-, here'⟩ | ⟨-, before', -⟩
      · exact absurd here' away
      · exact faithful.apart k k' ref before before'
  · rcases pending k ref kept with ⟨rfl, rfl⟩ | ⟨other, before, away⟩
    · rw [withProgress_here, components] at found
      rw [withProgress_here, held, lastRecord_snoc]
      by_cases own : componentName component = name
      · subst own
        rw [touched, lookup_insert] at found
        cases found
        refine ⟨jobHeld, by simp [recordOf], fun jobHeld => ?_⟩
        simp [touched, jobHeld]
      · rw [touched, lookup_insert_ne (Ne.symm own)] at found
        obtain ⟨h, last, kept⟩ := progressFor_recorded faithful found
        refine ⟨h, by simp [recordOf, own, last], fun set => ?_⟩
        simp [touched, kept set]
    · have there : (withProgress s key p).progress ref = s.progress ref := update_of_ne away ..
      rw [there] at found ⊢
      rw [lastRecord_keeps (by simp [recordOf, Ne.symm other])]
      exact faithful.recorded k ref name excluded before found

theorem faithful_move {st st' : Stage} {e : Event surroundings} (faithful : Faithful s log)
    (move : Move s task st e st' s') : Faithful s' (log ++ [⟨task, past, e⟩]) := by
  cases move with
  | @ask _ c reply asking =>
    refine faithful.restrict (fun _ _ => id) rfl (fun _ => rfl) (fun _ => rfl) fun _ _ => ?_
    cases c <;> first | rfl | exact asking.elim
  | forget k =>
    exact faithful.restrict (fun _ _ => pending_of_forgotten) rfl (fun _ => rfl) (fun _ => rfl) fun _ _ => rfl
  | record | handOver =>
    rw [recordProgress_memory]
    exact faithful.record rfl rfl
  | @finish k work released =>
    rw [finishRelease_eq]
    refine faithful.restrict (fun key ref kept => ?_) rfl (fun ref => (cleared_record s _ ref).1)
      (fun ref => (cleared_record s _ ref).2) fun _ _ => rfl
    cases released with
    | false => exact kept
    | true => exact pending_of_forgotten kept
  | _ =>
    exact faithful.restrict (fun _ _ => id) rfl (fun _ => rfl) (fun _ => rfl) fun _ _ => rfl

end

/-- The component has the excluded nodes of its latest record. -/
def Newest (log : List (Moment plugin)) (key : GroupAllocation) (component : SlurmJobComponent) : Prop :=
  ∃ held, lastRecord log key (componentName component) = some (component.jobInfo.excNodes, held)

variable {held : Bool}

theorem newest_iff {excluded : List String}
    (last : lastRecord log key (componentName component) = some (excluded, held)) :
    Newest log key component ↔ component.jobInfo.excNodes = excluded := by
  unfold Newest
  rw [last]
  constructor
  · rintro ⟨h, same⟩
    exact (Prod.mk.inj (Option.some.inj same)).1.symm
  · rintro rfl
    exact ⟨held, rfl⟩

/-- All components of a workload were recorded for a key, and none while its job was held unless the
work says so.  Its excluded nodes are those of the records exactly if the scheduling cycle, which
hands the workload over, had none or these before. -/
structure Complete (log : List (Moment plugin)) (key : GroupAllocation) (held : Bool)
    (cycle workload : SlurmJobIR) : Prop where
  recorded : ∀ component ∈ workload.components, ∃ record,
    lastRecord log key (componentName component) = some record ∧ (record.2 = true → held = true)
  newest : (∀ component ∈ workload.components, Newest log key component) ↔
    ∀ component ∈ cycle.components, component.jobInfo.excNodes = [] ∨ Newest log key component

variable {cycle : SlurmJobIR}

theorem complete_of_records {recorded : AList fun _ : ComponentName => List String}
    (processed : (fillExcluded recorded cycle.components).2 = true)
    (records : ∀ name excluded, recorded.lookup name = some excluded → ∃ h, lastRecord log key name = some (excluded, h) ∧ (h = true → held = true)) :
    Complete log key held cycle { cycle with components := (fillExcluded recorded cycle.components).1 } := by
  obtain ⟨known, mapped⟩ := fillExcluded_processed processed
  rw [mapped]
  constructor
  · rw [forall_mem_map]
    intro c member
    obtain ⟨excluded, found⟩ := known c member
    obtain ⟨h, last, held⟩ := records _ _ found
    rw [componentName_refill]
    exact ⟨(excluded, h), last, held⟩
  · rw [forall_mem_map]
    refine forall₂_congr fun c member => ?_
    obtain ⟨excluded, found⟩ := known c member
    obtain ⟨h, last, -⟩ := records _ _ found
    rw [newest_iff last, newest_iff ((componentName_refill c).symm ▸ last), excNodes_refill found]

/-- PostFilter recorded the last component and handed the workload over. -/
def HandedOver (log : List (Moment plugin)) (key : GroupAllocation) (held : Bool) (ir : SlurmJobIR) : Prop :=
  ∃ before handing after jobHeld cycle component ref, log = before ++ handing :: after ∧
    handing.event = ⟨.recordProgress key jobHeld cycle component, Recorded.handOver ref held ir⟩ ∧
    Complete (before ++ [handing]) key held cycle ir

/-- PostFilter stored a work with the same workload, which it handed over or whose only component
just passed. -/
def Queued (log : List (Moment plugin)) (key : GroupAllocation) (work : ReleaseWork) : Prop :=
  ∃ storing ∈ log, ∃ stored, storing.event.1 = .storeRelease key stored ∧
    stored.ir = work.ir ∧ stored.held = work.held ∧
    (HandedOver log key work.held work.ir ∨
      ∃ component, work.ir.components = [component] ∧ Passed storing.past component)

variable {more : List (Moment plugin)} {ir : SlurmJobIR}

theorem HandedOver.append (handed : HandedOver log key held ir) : HandedOver (log ++ more) key held ir := by
  obtain ⟨before, handing, after, jobHeld, cycle, component, ref, rfl, event, complete⟩ := handed
  exact ⟨before, handing, after ++ more, jobHeld, cycle, component, ref, by simp, event, complete⟩

theorem Queued.append (queued : Queued log key work) : Queued (log ++ more) key work := by
  obtain ⟨storing, member, stored, event, ir, held, origin⟩ := queued
  exact ⟨storing, mem_append_left _ member, stored, event, ir, held, origin.imp_left HandedOver.append⟩

theorem Queued.again (queued : Queued log key work) : Queued log key (again work) := queued

variable {s' : Memory} {task : Task} {st st' : Stage}

theorem handedOver_of_move {jobHeld : Bool} (faithful : Faithful s log)
    (move : Move s task st ⟨.recordProgress key jobHeld cycle component, Recorded.handOver ref held ir⟩ st' s') :
    HandedOver (log ++ [⟨task, past, ⟨.recordProgress key jobHeld cycle component,
      Recorded.handOver ref held ir⟩⟩]) key held ir := by
  refine ⟨log, _, [], jobHeld, cycle, component, ref, rfl, rfl, ?_⟩
  have after : Faithful s' (log ++ [⟨task, past, _⟩]) := faithful_move faithful move
  cases move with
  | ask asking => exact asking.elim
  | record waits => exact absurd rfl (waits _ _ _)
  | handOver caller recorded =>
    rcases recordProgress_cases s key jobHeld cycle component with ⟨_, other, same⟩ | ⟨processed, -, same⟩
    · rw [same] at recorded
      exact absurd recorded (other _ _ _)
    · rw [same] at recorded after
      obtain ⟨rfl, rfl, rfl⟩ := Recorded.handOver.inj recorded
      refine complete_of_records processed fun name excluded found => ?_
      have here := after.recorded key (s.progressFor key).1 name excluded (update_self ..)
      rw [withProgress_here] at here
      exact here found

/-- A request that clears a hold or sets a priority. -/
def Clearing : Command → Prop
  | .releaseJob _ _ => True
  | .updateJob _ _ component => component.jobInfo.priority ≠ none
  | _ => False

/-- A hold is released after all components were updated in the same attempt.  A priority is sent
with the update only if the work's jobs are not held. -/
def Due (past : Trace surroundings) (work : ReleaseWork) : Command → Prop
  | .releaseJob _ _ =>
    work.held = true ∧ ∀ component ∈ work.ir.components, Acknowledged past work component
  | _ => work.held = false

/-- A request is sent in an attempt that executes a queued work, when it is due. -/
def InOrder (before : List (Moment plugin)) (m : Moment plugin) : Prop :=
  ∃ key work, m.task = .release key ∧ Executes m.past key work ∧ Due m.past work m.event.1 ∧
    Queued before key work

structure Ordered (s : Memory) (threads : Multiset (Task × Trace surroundings))
    (log : List (Moment plugin)) : Prop where
  faithful : Faithful s log
  handing : ∀ thread ∈ threads, ∀ before key jobHeld cycle component ref held ir,
    thread.2 = before ++ [⟨.recordProgress key jobHeld cycle component, Recorded.handOver ref held ir⟩] →
    HandedOver log key held ir
  queued : ∀ key work, s.holdReleases.lookup key = some work → Queued log key work
  executing : ∀ thread ∈ threads, ∀ key work, Executes thread.2 key work → Queued log key work
  clearing : ∀ before m after, log = before ++ m :: after → Clearing m.event.1 → InOrder before m

theorem lookup_cases {e : Event surroundings} (move : Move s task st e st' s')
    (queued : s'.holdReleases.lookup key = some work) :
    s.holdReleases.lookup key = some work ∨ Stores key work e := by
  cases move with
  | record | handOver =>
    rw [recordProgress_memory] at queued
    exact .inl queued
  | @store _ k | @restore k =>
    by_cases same : key = k
    · subst same
      exact .inr ⟨rfl, Option.some.inj ((lookup_insert _).symm.trans queued)⟩
    · exact .inl ((lookup_insert_ne same).symm.trans queued)
  | @take k | @miss k =>
    by_cases same : key = k
    · subst same
      exact absurd ((lookup_erase ..).symm.trans queued) nofun
    · exact .inl ((lookup_erase_ne same).symm.trans queued)
  | finish =>
    rw [finishRelease_eq] at queued
    exact .inl queued
  | _ => exact .inl queued

section
variable {s s' : Memory} {task : Task} {past : Trace surroundings} {c : Command} {reply : c.Reply}
  {others : Multiset (Task × Trace surroundings)} {log : List (Moment plugin)}

variable {key : GroupAllocation} {work : ReleaseWork}

section
variable (ordered : Ordered s ((task, past) ::ₘ others) log)

include ordered

theorem Ordered.queues (order : Order task past c)
    (stores : Stores key work ⟨c, reply⟩) : Queued (log ++ [⟨task, past, ⟨c, reply⟩⟩]) key work := by
  have self : (task, past) ∈ (task, past) ::ₘ others := Multiset.mem_cons_self _ _
  cases c with
  | storeRelease k w =>
    obtain ⟨rfl, rfl⟩ := stores
    refine ⟨_, mem_append_right _ (mem_singleton_self _), w, rfl, rfl, rfl, ?_⟩
    rcases order with ⟨before, ref, jobHeld, ir, component, ends⟩ | single
    · exact .inl (ordered.handing _ self before k jobHeld ir component ref _ _ ends).append
    · exact .inr single
  | restoreRelease k w =>
    obtain ⟨taken, worker, executes, rfl⟩ := order
    cases reply with
    | true => exact stores.elim
    | false =>
      obtain ⟨rfl, rfl⟩ := stores
      exact (ordered.executing _ self k taken executes).again.append
  | _ => exact stores.elim

theorem Ordered.clears (order : Order task past c)
    (clears : Clearing c) : InOrder log ⟨task, past, ⟨c, reply⟩⟩ := by
  have self : (task, past) ∈ (task, past) ::ₘ others := Multiset.mem_cons_self _ _
  cases c with
  | updateJob pod root component =>
    obtain ⟨key, work, worker, executes, withheld⟩ := order
    refine ⟨key, work, worker, executes, ?_, ordered.executing _ self key work executes⟩
    exact Bool.eq_false_iff.mpr fun held => clears (withheld held)
  | releaseJob id priority =>
    obtain ⟨key, work, worker, executes, held, acknowledged⟩ := order
    exact ⟨key, work, worker, executes, ⟨held, acknowledged⟩, ordered.executing _ self key work executes⟩
  | _ => exact clears.elim

theorem Ordered.takes {st st' : Stage}
    (move : Move s task st ⟨c, reply⟩ st' s') (executes : Executes (past ++ [⟨c, reply⟩]) key work) :
    Queued log key work := by
  cases past with
  | nil =>
    have first : (⟨c, reply⟩ : Event surroundings) = ⟨.takeRelease key, some work⟩ :=
      Option.some.inj executes
    rw [first] at move
    cases move with
    | ask asking => exact asking.elim
    | take worker found => exact ordered.queued key work found
  | cons e t => exact ordered.executing _ (Multiset.mem_cons_self _ _) key work executes

theorem Ordered.act
    (guarded : Guard task past c) (order : Order task past c) (responds : respond c reply s s') :
    Ordered s' ((task, past ++ [⟨c, reply⟩]) ::ₘ others) (log ++ [⟨task, past, ⟨c, reply⟩⟩]) := by
  have move := move_of_guard guarded responds
  refine ⟨faithful_move ordered.faithful move, ?_, ?_, ?_, ?_⟩
  · intro thread member before key jobHeld cycle component ref held ir ends
    rcases Multiset.mem_cons.mp member with rfl | other
    · obtain ⟨-, last⟩ := append_inj' ends rfl
      cases (cons.inj last).1
      exact handedOver_of_move ordered.faithful move
    · exact (ordered.handing thread (Multiset.mem_cons_of_mem other) before key jobHeld cycle component
        ref held ir ends).append
  · intro key work queued
    rcases lookup_cases move queued with old | stores
    · exact (ordered.queued key work old).append
    · exact ordered.queues order stores
  · intro thread member key work executes
    rcases Multiset.mem_cons.mp member with rfl | other
    · exact (ordered.takes move executes).append
    · exact (ordered.executing thread (Multiset.mem_cons_of_mem other) key work executes).append
  · intro before m after split clears
    rcases snoc_split split with ⟨-, rfl, rfl⟩ | ⟨earlier, -, old⟩
    · exact ordered.clears order clears
    · exact ordered.clearing before m earlier old clears

end

theorem Ordered.less {threads threads' : Multiset (Task × Trace surroundings)}
    (ordered : Ordered s threads log) (same : SameWorks s s')
    (less : ∀ thread ∈ threads', thread ∈ threads ∨ thread.2 = []) : Ordered s' threads' log := by
  refine ⟨⟨?_, ?_, ?_⟩, ?_, ?_, ?_, ordered.clearing⟩
  · rw [same.pending, same.allocated]
    exact ordered.faithful.below
  · rw [same.pending]
    exact ordered.faithful.apart
  · rw [same.pending, same.progress]
    exact ordered.faithful.recorded
  · intro thread member before key jobHeld cycle component ref held ir ends
    rcases less thread member with old | new
    · exact ordered.handing thread old before key jobHeld cycle component ref held ir ends
    · rw [new] at ends
      exact absurd ends.symm (by simp)
  · rw [same.holdReleases]
    exact ordered.queued
  · intro thread member key work executes
    rcases less thread member with old | new
    · exact ordered.executing thread old key work executes
    · rw [new] at executes
      cases executes

end

theorem ordered {cfg : Config plugin} (reach : Reachable plugin cfg) : Ordered cfg.state cfg.crew cfg.log := by
  refine reach.invariant (fun task => wp_and (wp_code task) (wp_code_order task)) Ordered ?_ ?_ ?_ ?_ ?_
  · rintro s rfl
    have unknown : ∀ key ref, initialMemory.pending key ≠ some ref := fun _ _ kept => by cases kept
    refine ⟨⟨fun _ _ kept => ?_, fun _ _ _ kept => ?_, fun _ _ _ _ kept => ?_⟩, by simp,
      fun _ _ queued => ?_, by simp, fun before m after split => ?_⟩
    · exact absurd kept (unknown _ _)
    · exact absurd kept (unknown _ _)
    · exact absurd kept (unknown _ _)
    · cases queued
    · exact absurd split.symm (by simp)
  · intro s s' task past c reply others log holds guards responds
    exact holds.act guards.1 guards.2 responds
  · intro s s' task others log holds starting
    refine holds.less (start_sameWorks starting) fun thread member => ?_
    rcases Multiset.mem_cons.mp member with rfl | other
    · exact .inr rfl
    · exact .inl other
  · intro s s' task past out others log holds ends stopping
    exact holds.less (stop_sameWorks stopping) fun thread member =>
      .inl (Multiset.mem_cons_of_mem member)
  · intro s s' others log holds changes
    exact holds.less (environment_sameWorks changes) fun thread member => .inl member

section

private def allocationW : GroupAllocation := ⟨"w", 7⟩

private def handedB : Rest :=
  filtered ["n1", "n2", "n3"] 0 [leafA, leafB] podA
    (filtered ["n2", "n3"] 1 [leafA, leafB] podB (initialMemory, []))

private def releasedB : Rest := runRelease (slurmWith [] (.ok ())) allocationW handedB

private def givenUp : Rest :=
  runRelease (slurmWith [] (.error ⟨true, ""⟩)) allocationW (filtered ["n1", "n2"] 2 [leafA, leafB] podB handedB)

private def keptData : StateData := (givenUp.1.cycles 0).getD (cycleOf [])

private def staleReleased : Rest :=
  runRelease (slurmWith [] (.ok ())) allocationW
    (runFilter (slurmWith ["n1", "n2", "n3"] (.ok ())) 0 keptData podA (fun _ => .success) givenUp)

private theorem rests_handedB : Rests handedB :=
  rests_filtered (rests_filtered rests_initial _ 1 (by simp [leafA, leafB, leaf]) podB) _ 0
    (by simp [leafA, leafB, leaf]) podA

private theorem rests_staleReleased : Rests staleReleased := by
  have again : Rests (filtered ["n1", "n2"] 2 [leafA, leafB] podB handedB) :=
    rests_filtered rests_handedB _ 2 (by simp [leafA, leafB, leaf]) podB
  have given : Rests givenUp := again.runRelease _ rfl rfl
  exact (given.runFilter _ rfl podA _).runRelease _ rfl rfl

private theorem split_at {α : Type} {l : List α} {i : Nat} {x : α} (there : l[i]? = some x) :
    l = l.take i ++ x :: l.drop (i + 1) := by
  obtain ⟨bound, rfl⟩ := List.getElem?_eq_some_iff.mp there
  rw [getElem_cons_drop, take_append_drop]

private def storedWork : Command → Option (GroupAllocation × ReleaseWork)
  | .storeRelease key work => some (key, work)
  | _ => none

variable {c : Command} {key : GroupAllocation} {work : ReleaseWork}

private theorem of_storedWork (stored : storedWork c = some (key, work)) : c = .storeRelease key work := by
  cases c <;> cases stored
  rfl

private def takenWork : Option (Event surroundings) → Option (GroupAllocation × ReleaseWork)
  | some ⟨.takeRelease key, some work⟩ => some (key, work)
  | _ => none

private theorem of_takenWork {past : Trace surroundings} (taken : takenWork past.head? = some (key, work)) :
    Executes past key work := by
  unfold takenWork at taken
  split at taken
  · next first =>
      cases taken
      exact first
  · cases taken

private def releasedJob : Command → Option Int
  | .releaseJob id none => some id
  | _ => none

private theorem of_releasedJob {id : Int} (released : releasedJob c = some id) : c = .releaseJob id none := by
  unfold releasedJob at released
  split at released
  · cases released
    rfl
  · cases released

private def acknowledgedUpdate : Event surroundings → Option SlurmJobComponent
  | ⟨.updateJob _ _ component, .ok ()⟩ => some component
  | _ => none

private theorem of_acknowledgedUpdate {e : Event surroundings} {component : SlurmJobComponent}
    (acknowledged : acknowledgedUpdate e = some component) :
    ∃ pod root, e = ⟨.updateJob pod root component, (.ok () : Except UpdateError Unit)⟩ := by
  unfold acknowledgedUpdate at acknowledged
  split at acknowledged
  · cases acknowledged
    exact ⟨_, _, rfl⟩
  · cases acknowledged

private def momentAt (i : Nat) : Moment plugin :=
  (staleReleased.2[i]?).getD ⟨.release allocationW, [], ⟨.releasesDone, ()⟩⟩

private theorem split_stale :
    staleReleased.2 = staleReleased.2.take 36 ++ momentAt 36 :: ((staleReleased.2.drop 37).take 6 ++
      momentAt 43 :: staleReleased.2.drop 44) := by
  have long : staleReleased.2.length = 48 := by decide +kernel
  have first := split_at (l := staleReleased.2) (i := 36) (x := momentAt 36) (by simp [momentAt, long])
  exact first

end

end SlurmBridge.Scheduler.HoldOrder
