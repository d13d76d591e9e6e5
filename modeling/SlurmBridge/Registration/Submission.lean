/- source: internal/controller/registration/controller.go, registration.go
   digest: What a pass has done before it submits a workload, changes the memo of submissions or
     patches a Pod. -/

import SlurmBridge.Registration.Cleanup
import SlurmBridge.Registration.LookupSpec

set_option autoImplicit false

namespace SlurmBridge.Registration.Submission

open Foundation.Interaction Kube.Objects Kube.Reads JobIR.IR JobIR.Translate Slurm.Job Slurm.Allocation
open Slurm.Collected Registration.Interface Registration.LookupSpec Registration.Membership
open Registration.PodSync Registration.Lifecycle Registration.Reconcile Registration.Effects
open Registration.Cleanup List

/-- The pass has looked its identity up, without a conflict, and then neither submitted nor
touched the memo. -/
structure Looked (identity : AllocationIdentity) (jobs : List RegisteredJob) (h : Trace surroundings) where
  index : JobIndex
  before : Trace surroundings
  lookups : Trace surroundings
  later : Trace surroundings
  candidates : List JobInfo
  state : Collected
  history : h = before ++ lookups ++ later
  indexed : identity.index = some index
  reads : ∀ e ∈ lookups, isIndexRead e.1
  quiet : ∀ e ∈ before ++ later, Settling e.1
  served : ∀ content, (∀ e ∈ lookups, Serves content e) → Candidates content index identity candidates
  origin : ∀ raw ∈ candidates, ∃ i key, Sought index identity i key ∧ ReadUnder lookups i key raw
  ordered : Nonempty (InOrder index identity.key lookups candidates)
  collected : candidates.foldlM collectCandidate .start = .ok state
  calm : state.conflict = false
  jobs_eq : state.jobs = jobs

/-- The lookup stays behind while the pass goes on. -/
def Looked.extend {identity : AllocationIdentity} {jobs : List RegisteredJob}
    {h : Trace surroundings} (looked : Looked identity jobs h) (t : Trace surroundings)
    (quiet : ∀ e ∈ t, Settling e.1) : Looked identity jobs (h ++ t) :=
  { looked with
    later := looked.later ++ t
    history := by simp [looked.history]
    quiet := by
      rw [← append_assoc]
      exact forall_mem_append.mpr ⟨looked.quiet, quiet⟩ }

variable {identity : AllocationIdentity} {jobs : List RegisteredJob} {h : Trace surroundings}

theorem Looked.source (looked : Looked identity jobs h) :
    ∀ job ∈ jobs, ∃ raw ∈ looked.candidates, registeredJobFromInfo raw = .ok job := by
  intro job member
  have sound := sound_run sound_start looked.collected
  rw [← looked.jobs_eq] at member
  simpa using sound.origin job member

theorem Looked.covers (looked : Looked identity jobs h) :
    ∀ raw ∈ looked.candidates, ∃ job ∈ jobs, ∃ raw' ∈ looked.candidates,
      registeredJobFromInfo raw' = .ok job ∧ raw'.key = raw.key := by
  intro raw member
  have sound := sound_run sound_start looked.collected
  have seen := sound.covers raw (by simpa using member)
  rw [sound.seen_eq, looked.jobs_eq] at seen
  obtain ⟨job, inside, sameId⟩ := mem_map.mp seen
  obtain ⟨raw', candidate, registered⟩ := looked.source job inside
  exact ⟨job, inside, raw', candidate, registered, (registered_jobId registered).symm.trans sameId⟩

theorem Looked.registered (looked : Looked identity jobs h) {content : List JobInfo}
    (distinct : (content.map JobInfo.key).Nodup) (serves : ∀ e ∈ looked.lookups, Serves content e) :
    ∀ raw ∈ looked.candidates, ∃ job ∈ jobs, registeredJobFromInfo raw = .ok job := by
  intro raw member
  have known := (looked.served content serves).known
  obtain ⟨job, inside, raw', member', from_, sameKey⟩ := looked.covers raw member
  have same : raw' = raw := inj_on_of_nodup_map distinct (known raw' member') (known raw member) sameKey
  exact ⟨job, inside, same ▸ from_⟩

def TranslatedIn (r : Reconciler) (h : Trace surroundings) (pod : Pod) (ir : SlurmJobIR) : Prop :=
  ∃ before during after, h = before ++ during ++ after ∧
    Exec (through .cached (translateToSlurmJobIR r.workloadAPI pod).run) during (.ok ir)

/-- The workload of a pass, as translated from a member, belongs to the pass's identity. -/
structure Translated (r : Reconciler) (key : Request) (found : Members) (h : Trace surroundings)
    (pod : Pod) (ir : SlurmJobIR) : Prop where
  member : pod ∈ found.pods
  waits : eligible r pod = true
  translated : TranslatedIn r h pod ir
  own : allocationKey pod ir.rootPOM = key
  identity : ∃ current, identityForAllocation pod ir = (current, none) ∧
    current.index = found.identity.index ∧ current.key = found.identity.key

/-- What precedes a submission: a lookup that shows finished jobs only, then a memo that does
not forbid it, then only reads. -/
structure Submits (r : Reconciler) (key : Request) (found : Members) (h : Trace surroundings)
    (ir : SlurmJobIR) where
  jobs : List RegisteredJob
  pod : Pod
  before : Trace surroundings
  cooldown : Option Int
  after : Trace surroundings
  history : h = before ++ ⟨.recentGet key, cooldown⟩ :: after
  looked : Looked found.identity jobs before
  reading : ∀ e ∈ after, Reading e.1
  finished : ∀ job ∈ jobs, job.finished = true
  workload : Translated r key found before pod ir
  allowed : submissionAllowed jobs cooldown ir.allPods (eligible r) = true

/-- Membership could be read, and no job found belongs to another key. -/
structure Undisputed (key : Request) (found : Members) (jobs : List RegisteredJob) : Prop where
  complete : found.error = none
  owned : redirect key jobs = none

/-- What precedes a publication: a lookup that shows the workload's own jobs, one of which is
matched to the component of the Pod. -/
structure Publishes (r : Reconciler) (key : Request) (found : Members) (h : Trace surroundings)
    (read updated : Pod) where
  jobs : List RegisteredJob
  pod : Pod
  ir : SlurmJobIR
  before : Trace surroundings
  after : Trace surroundings
  history : h = before ++ after
  looked : Looked found.identity jobs before
  undisputed : Undisputed key found jobs
  workload : Translated r key found before pod ir
  components : List ExternalJob
  matched : matchAllocationComponents ir jobs = .ok (some components)
  component : SlurmJobComponent
  job : ExternalJob
  paired : (component, job) ∈ ir.components.zip components
  unfinished : job.finished = false
  member : read ∈ component.pods
  waits : eligible r read = true
  published : updated = publishedPod read job

/-- The commands of a pass that concern submission and the Pods. -/
def Lawful (r : Reconciler) (key : Request) (found : Members) (h : Trace surroundings) : Command → Prop
  | .registerJob ir => Nonempty (Submits r key found h ir)
  | .recentSet key' id => key' = key ∧ ∃ before ir, ∃ reply : SubmitReply,
      h = before ++ [⟨.registerJob ir, reply⟩] ∧ reply.id = id ∧
        reply.error.any SubmitError.notSubmitted = false
  | .recentDelete key' => key' = key ∧
      ((∃ before ir, ∃ reply : SubmitReply, h = before ++ [⟨.registerJob ir, reply⟩] ∧
        reply.error.any SubmitError.notSubmitted = true) ∨
      ∃ jobs, Nonempty (Looked found.identity jobs h) ∧ ∃ job ∈ jobs, job.finished = false)
  | .patchPod read updated => Repaired r h read updated ∨ updated = dropFinalizer read ∨
      Nonempty (Publishes r key found h read updated)
  | _ => True

variable {r : Reconciler} {key : Request} {found : Members} {c : Command}

theorem lawful_of_reporting (reporting : Reporting c) : Lawful r key found h c := by
  cases c <;> trivial

theorem settling_of_tending (tending : Tending r jobs h c) : Settling c := by
  cases c <;> trivial

theorem lawful_of_tending {t : Trace surroundings} (tending : Tending r jobs t c) :
    Lawful r key found (h ++ t) c := by
  cases c with
  | patchPod read updated =>
    rcases tending with repaired | ⟨dropped, -⟩
    · obtain ⟨id, raw, job, live, confirmed⟩ := repaired.confirmed
      have live' : ReadLive (h ++ t) id raw := mem_append_right _ live
      exact .inl { repaired with confirmed := ⟨id, raw, job, live', confirmed⟩ }
    · exact .inr (.inl dropped)
  | registerJob _ | recentSet _ _ | recentDelete _ => cases tending
  | _ => trivial

section
variable {r : Reconciler} {key : Request} {found : Members} {h : Trace surroundings}

theorem wp_reporting {α : Type} {p : Ctl α} {post : Trace surroundings → α → Prop}
    (reporting : Only Reporting p)
    (returns : ∀ t a, (∀ e ∈ t, Settling e.1) → Exec p t a → post (h ++ t) a) :
    wp (Lawful r key found) p h post :=
  wp_of_only reporting (fun _ _ => lawful_of_reporting) fun t a run quiet =>
    returns t a (fun e member => (quiet e member).settling) run

variable {pods : List Pod} {jobs : List RegisteredJob}

theorem wp_lifecycle {post : Trace surroundings → Except Err Bool → Prop}
    (returns : ∀ t a, (∀ e ∈ t, Settling e.1) → post (h ++ t) a) :
    wp (Lawful r key found) (reconcileLifecycle r key pods jobs).run h post := by
  have tends : wp (Tending r jobs) (reconcileLifecycle r key pods jobs).run [] fun _ _ => True :=
    wp_reconcileLifecycle
  refine wp_rebase tends (fun t c => lawful_of_tending) fun t a run => returns t a ?_
  intro e member
  obtain ⟨before, rest, split⟩ := append_of_mem member
  exact settling_of_tending ((wp_exec tends run).2 before e rest split)

variable {ir : SlurmJobIR}

theorem wp_remember {before : Trace surroundings} {reply : SubmitReply}
    {post : Trace surroundings → Unit → Prop} (holds : ∀ h a, post h a) :
    wp (Lawful r key found) (remember key reply) (before ++ [⟨.registerJob ir, reply⟩]) post := by
  unfold remember
  split
  · rename_i refused
    exact ⟨⟨rfl, .inl ⟨before, ir, reply, rfl, refused⟩⟩, fun _ => holds _ _⟩
  · rename_i sent
    exact ⟨⟨rfl, before, ir, reply, rfl, rfl, by simpa using sent⟩, fun _ => holds _ _⟩

variable {pod : Pod}

section
variable (looked : Looked found.identity jobs h)

include looked

theorem wp_submitWorkload
    (finished : ∀ job ∈ jobs, job.finished = true) (workload : Translated r key found h pod ir) :
    wp (Lawful r key found) (submitWorkload r key pod ir jobs) h fun _ _ => True := by
  unfold submitWorkload
  rw [wp_bind, wp_perform]
  refine ⟨trivial, fun cooldown => ?_⟩
  split
  · trivial
  · rename_i allowed
    rw [wp_bind]
    refine wp_of_only (reading_through _ _) (fun _ _ reading => ?_) fun t out _ reads => ?_
    · exact lawful_of_reporting reading.reporting
    · split
      · exact wp_reporting (reporting_registrationReadEvent _ _) fun _ _ _ _ => trivial
      · exact wp_reporting (only_ask trivial fun _ => only_pure _) fun _ _ _ _ => trivial
      · rw [wp_bind, wp_perform]
        refine ⟨⟨⟨jobs, pod, h, cooldown, t, by simp, looked, reads, finished, workload,
          by simpa using allowed⟩⟩, fun reply => ?_⟩
        rw [wp_bind]
        refine wp_remember fun h' _ => ?_
        exact wp_reporting (reporting_reportSubmission _ _) fun _ _ _ _ => trivial

theorem wp_publish {components : List ExternalJob} {after : Trace surroundings} (undisputed : Undisputed key found jobs)
    (workload : Translated r key found h pod ir)
    (matched : matchAllocationComponents ir jobs = .ok (some components)) :
    wp (Lawful r key found) (publish r ir components) (h ++ after) fun _ _ => True := by
  refine wp_foldlM (fun _ h' _ => ∃ t, h' = h ++ t) ⟨after, rfl⟩ ?_ fun _ _ _ => trivial
  rintro seen ⟨component, job⟩ rest h' errs all ⟨t, rfl⟩
  have paired : (component, job) ∈ ir.components.zip components := by simp [all]
  dsimp only
  split
  · exact ⟨t, rfl⟩
  · rename_i unfinished
    refine wp_foldlM (fun _ h' _ => ∃ t, h' = h ++ t) ⟨t, rfl⟩ ?_ fun _ _ grown => grown
    rintro seen' member rest' h' errs' all' ⟨t', rfl⟩
    have inside : member ∈ component.pods := by simp [all']
    unfold publishMember
    split
    · exact ⟨t', rfl⟩
    · rename_i waits
      rw [Bool.or_eq_true, not_or] at waits
      rw [wp_bind, wp_perform]
      refine ⟨.inr (.inr ⟨⟨jobs, pod, ir, h, t', rfl, looked, undisputed, workload, components, matched,
        component, job, paired, by simpa using unfinished, inside, by simpa using waits.1, rfl⟩⟩),
        fun reply => ?_⟩
      split <;> exact ⟨_, append_assoc _ _ _⟩

theorem wp_register (undisputed : Undisputed key found jobs) (workload : Translated r key found h pod ir) :
    wp (Lawful r key found) (register r key pod ir jobs) h fun _ _ => True := by
  unfold register
  split
  · rename_i active
    obtain ⟨job, member, unfinished⟩ := any_eq_true.mp active
    rw [wp_bind, wp_perform]
    refine ⟨⟨rfl, .inr ⟨jobs, ⟨looked⟩, job, member, by simpa using unfinished⟩⟩, fun _ => ?_⟩
    split
    · trivial
    · trivial
    · rename_i components matched
      rw [wp_bind, wp_perform]
      refine ⟨trivial, fun _ => ?_⟩
      rw [wp_bind, append_assoc]
      exact wp_publish looked undisputed workload matched
  · rename_i settled
    refine wp_submitWorkload looked (fun job member => ?_) workload
    by_contra unfinished
    exact settled (any_eq_true.mpr ⟨job, member, by simpa using unfinished⟩)

theorem wp_registerFirst (undisputed : Undisputed key found jobs) (members : ∀ pod ∈ pods, pod ∈ found.pods) :
    wp (Lawful r key found) (registerFirst r key found.identity jobs pods) h fun _ _ => True := by
  induction pods generalizing h with
  | nil => trivial
  | cons pod rest ih =>
    have later : ∀ pod ∈ rest, pod ∈ found.pods := fun other inside => members other (by simp [inside])
    rw [registerFirst]
    split
    · exact ih looked later
    · rename_i waits
      rw [wp_bind]
      refine wp_reporting ((reading_through _ _).mono fun _ => Reading.reporting) fun t out quiet run => ?_
      have looked' := looked.extend t quiet
      split
      · exact wp_reporting (reporting_registrationReadEvent _ _) fun _ _ _ _ => trivial
      · rename_i ir
        split
        · rw [wp_bind, wp_perform]
          refine ⟨trivial, fun _ => ih (looked'.extend _ ?_) later⟩
          simp [Settling]
        · rename_i own
          split
          · exact wp_reporting (reporting_registrationReadEvent _ _) fun _ _ _ _ => trivial
          · rename_i current identity
            split
            · trivial
            · rename_i same
              rw [not_or, not_not, not_not] at same
              have translated : TranslatedIn r (h ++ t) pod ir := ⟨h, t, [], by simp, run⟩
              exact wp_register looked' undisputed ⟨members pod (by simp), by simpa using waits,
                translated, by simpa using own, current, identity, same⟩

theorem wp_reconcileAllocation (owned : redirect key jobs = none) :
    wp (Lawful r key found) (reconcileAllocation r key found jobs) h fun _ _ => True := by
  unfold reconcileAllocation
  rw [wp_bind]
  refine wp_lifecycle fun t out quiet => ?_
  split
  · trivial
  · trivial
  · split
    · exact wp_reporting (reporting_registrationReadEvent _ _) fun _ _ _ _ => trivial
    · rename_i complete
      refine wp_registerFirst (looked.extend t quiet) ⟨complete, owned⟩ fun pod inside => ?_
      exact (mem_insertionSort _).mp inside

end

theorem wp_reconcileFound {index : JobIndex} {err : Option Err}
    (looked : err = none → Looked found.identity jobs h) :
    wp (Lawful r key found) (reconcileFound r key index found jobs err) h fun _ _ => True := by
  unfold reconcileFound
  split
  · exact wp_reporting (only_ask trivial fun _ => only_pure _) fun _ _ _ _ => trivial
  · rename_i owned
    split
    · rw [wp_bind]
      exact wp_reporting ((canceling_cleanDuplicateAllocations _).mono fun _ => Canceling.reporting)
        fun _ _ _ _ => trivial
    · trivial
    · split
      · exact wp_reconcileAllocation (looked rfl) owned
      · split
        · exact wp_reconcileAllocation (looked rfl) owned
        · exact wp_reporting (reporting_registrationReadEvent _ _) fun _ _ _ _ => trivial

def lookedUp {index : JobIndex} {identity : AllocationIdentity} {candidates : List JobInfo}
    {before t : Trace surroundings} (indexed : identity.index = some index)
    (quiet : ∀ e ∈ before, Settling e.1) (reads : ∀ e ∈ t, isIndexRead e.1)
    (served : ∀ content, (∀ e ∈ t, Serves content e) → Candidates content index identity candidates)
    (origin : ∀ raw ∈ candidates, ∃ i key, Sought index identity i key ∧ ReadUnder t i key raw)
    (ordered : Nonempty (InOrder index identity.key t candidates))
    (noError : (collectAllocation identity.key candidates).2 = none) :
    Looked identity (collectAllocation identity.key candidates).1 (before ++ t) :=
  match collected : candidates.foldlM collectCandidate .start with
  | .error e => by simp [collectAllocation, collected] at noError
  | .ok state =>
    { index, before, lookups := t, later := [], candidates, state
      history := by simp
      indexed, reads
      quiet := by simpa using quiet
      served, origin, ordered, collected
      calm := by simpa [collectAllocation, collected] using noError
      jobs_eq := by simp [collectAllocation, collected] }

theorem wp_reconcileMembers : wp (Lawful r key found) (reconcileMembers r key found) [] fun _ _ => True := by
  unfold reconcileMembers
  split
  · exact wp_reporting (reporting_registrationReadEvent _ _) fun _ _ _ _ => trivial
  · rename_i index indexed
    rw [wp_bind, wp_perform]
    refine ⟨trivial, fun reply => ?_⟩
    split
    · trivial
    · trivial
    · rw [wp_bind]
      refine wp_indexedAllocation (fun _ _ _ => trivial) (fun t e _ _ => ?_) ?_
      · exact wp_reconcileFound nofun
      · intro t candidates reads served origin ordered
        exact wp_reconcileFound (lookedUp indexed (by simp [Settling]) reads served origin ordered)

theorem lawful_of_pass {t : Trace surroundings} {c : Command} {reply : c.Reply} {rest : Ctl Outcome}
    (pass : Reaches (reconcileMembers r key found) (t ++ [⟨c, reply⟩]) rest) :
    Lawful r key found t c :=
  (wp_reaches wp_reconcileMembers pass).2 t ⟨c, reply⟩ [] rfl

end

variable {ir : SlurmJobIR}

/-- The pass has neither submitted nor touched the memo. -/
def Quiet (h : Trace surroundings) : Prop := ∀ e ∈ h, Settling e.1

def Replied (h : Trace surroundings) (reply : SubmitReply) : Prop :=
  ∃ before ir, h = before ++ [⟨.registerJob ir, reply⟩]

/-- When a pass submits and changes the memo. -/
def Noted (key : Request) (h : Trace surroundings) : Command → Prop
  | .registerJob _ => Quiet h
  | .recentSet key' id => key' = key ∧ ∃ reply, Replied h reply ∧ reply.id = id ∧
      reply.error.any SubmitError.notSubmitted = false
  | .recentDelete key' => key' = key ∧ (Quiet h ∨
      ∃ reply, Replied h reply ∧ reply.error.any SubmitError.notSubmitted = true)
  | _ => True

theorem Looked.settled (looked : Looked identity jobs h) : Quiet h := by
  have lookups : Quiet looked.lookups := by
    rintro ⟨c, reply⟩ member
    have read := looked.reads _ member
    cases c <;> trivial
  obtain ⟨before, later⟩ := forall_mem_append.mp looked.quiet
  rw [looked.history]
  exact forall_mem_append.mpr ⟨forall_mem_append.mpr ⟨before, lookups⟩, later⟩

theorem Submits.settled (submits : Submits r key found h ir) : Quiet h := by
  rw [submits.history]
  refine forall_mem_append.mpr ⟨submits.looked.settled, forall_mem_cons.mpr ⟨trivial, ?_⟩⟩
  exact fun e member => (submits.reading e member).reporting.settling

theorem Submits.lookups_sublist (submits : Submits r key found h ir) :
    submits.looked.lookups.Sublist submits.before ∧ submits.before.Sublist h := by
  constructor
  · have middle := (sublist_append_right submits.looked.before submits.looked.lookups).trans
      (sublist_append_left _ submits.looked.later)
    exact (congrArg submits.looked.lookups.Sublist submits.looked.history).mpr middle
  · have start := sublist_append_left submits.before (⟨.recentGet key, submits.cooldown⟩ :: submits.after)
    exact (congrArg submits.before.Sublist submits.history).mpr start

theorem Submits.lookup_mem (submits : Submits r key found h ir) {e : Event surroundings}
    (member : e ∈ submits.looked.lookups) : e ∈ h :=
  (submits.lookups_sublist.1.trans submits.lookups_sublist.2).subset member

end SlurmBridge.Registration.Submission
