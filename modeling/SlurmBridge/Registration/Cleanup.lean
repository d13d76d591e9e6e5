/- source: internal/controller/registration/lifecycle.go, pod_sync.go, pod_metadata.go
   digest: What a lifecycle pass has confirmed about a Pod's allocations before it deletes the
     Pod's claims, removes its finalizer or repairs its labels. -/

import SlurmBridge.Registration.Effects

set_option autoImplicit false

namespace SlurmBridge.Registration.Cleanup

open Foundation.Checked Foundation.Interaction Kube.Objects Kube.Reads Slurm.Ownership Slurm.Job Slurm.Metadata
open Registration.Interface Registration.Lookup Registration.Membership Registration.PodSync
open Registration.Lifecycle Registration.Effects List AList

/-- A live read of a job shows that the job holds nothing any more. -/
def Gone (id : Int) : Except SlurmError JobInfo → Prop
  | .error .notFound => True
  | .error _ => False
  | .ok raw => raw.key = id ∧ isFinishedJob raw = true ∧ raw.hasState .completing = false

def Confirmed (t : Trace surroundings) (id : Int) : Prop :=
  ∃ reply, Gone id reply ∧ (⟨.getJob .live (itoa id), reply⟩ : Event surroundings) ∈ t

variable {t t' : Trace surroundings} {id : Int}

theorem Confirmed.mono (confirmed : Confirmed t id) (sub : t ⊆ t') : Confirmed t' id := by
  obtain ⟨reply, gone, member⟩ := confirmed
  exact ⟨reply, gone, sub member⟩

def LiveAnswer (id : Int) (t : Trace surroundings) (out : Option JobInfo) : Prop :=
  ∃ reply : Except SlurmError JobInfo, t = [⟨.getJob .live (itoa id), reply⟩] ∧
    match out with
    | none => reply = .error .notFound
    | some raw => reply = .ok raw ∧ raw.key = id

theorem liveJob_answer (id : Int) :
    Delivers (LiveAnswer id) (liveJob id) := by
  refine delivers_bind (delivers_perform (.getJob .live (itoa id))) ?_
  rintro t reply rfl
  rcases reply with (_ | _) | raw
  · exact delivers_pure ⟨_, rfl, rfl⟩
  · exact delivers_throw _
  · dsimp only
    split
    · exact delivers_throw _
    · rename_i same
      exact delivers_pure ⟨_, rfl, rfl, itoa_injective (not_not.mp same)⟩

theorem allocationReleased_true {raw : JobInfo} (released : allocationReleased raw = .ok true) :
    isFinishedJob raw = true ∧ raw.hasState .completing = false := by
  unfold allocationReleased at released
  split at released
  · cases released
  · rename_i job converted
    simp only [Except.ok.injEq, Bool.and_eq_true, Bool.not_eq_true'] at released
    exact ⟨fromJobInfo_finished converted ▸ released.1, released.2⟩

theorem confirmed_of_answer {out : Option JobInfo} (answer : LiveAnswer id t out)
    (released : absentOrReleased out = .ok true) : Confirmed t id := by
  obtain ⟨reply, rfl, read⟩ := answer
  refine ⟨reply, ?_, mem_singleton_self _⟩
  cases out with
  | none =>
    subst read
    trivial
  | some raw =>
    obtain ⟨rfl, own⟩ := read
    exact ⟨own, allocationReleased_true released⟩

theorem release_confirmed (r : Reconciler) (cached : RegisteredJob) :
    Delivers (fun t released => released = true → Confirmed t cached.jobId) (releaseComponent r cached) := by
  have unfinished : ∀ live, Delivers (fun t released => released = true → Confirmed t cached.jobId)
      (releaseUnfinished r cached live) := by
    intro live
    refine delivers_bind (delivers_any _) fun t₁ ok _ => ?_
    split
    · exact delivers_pure nofun
    · refine delivers_bind (delivers_any _) fun t₂ _ _ => ?_
      refine delivers_bind (liveJob_answer _) fun t₃ raw answer => ?_
      refine delivers_except fun released result yes => ?_
      subst yes
      exact (confirmed_of_answer answer result).mono (by simp)
  refine delivers_bind (liveJob_answer _) fun t raw answer => ?_
  split
  · exact delivers_pure fun _ => (confirmed_of_answer answer rfl).mono (by simp)
  · rename_i raw
    split
    · exact delivers_throw _
    · split
      · refine delivers_except fun released result yes => ?_
        subst yes
        exact (confirmed_of_answer answer result).mono (by simp)
      · split
        · exact delivers_throw _
        · split
          · exact delivers_throw _
          · exact delivers_mono (unfinished _) fun t' released confirmed yes =>
              (confirmed yes).mono (by simp)

/-- On the way, the job's cached members were read as these Pods. -/
def Reviewed (r : Reconciler) (t : Trace surroundings) (job : RegisteredJob) (current : List Pod) : Prop :=
  ∃ before during after, t = before ++ during ++ after ∧
    Exec (componentMembers r .cached job).run during (.ok current)

variable {r : Reconciler} {job : RegisteredJob} {current : List Pod}

theorem Reviewed.append (reviewed : Reviewed r t job current) (t' : Trace surroundings) :
    Reviewed r (t ++ t') job current := by
  obtain ⟨before, during, after, rfl, run⟩ := reviewed
  exact ⟨before, during, after ++ t', by simp, run⟩

/-- The cache shows the job finished and none of its members with the scheduler finalizer; it
counts as released without a live read. -/
def Shortcut (job : RegisteredJob) (current : List Pod) : Prop :=
  job.finished = true ∧ ∀ pod ∈ current, finalizerScheduler ∉ pod.finalizers

section
variable (id : Int)

theorem jobsOf_associate (state : Progress) (pod p : Pod) : (state.associate id pod).jobsOf p =
      if podKey p = podKey pod then state.jobsOf p ++ [id] else state.jobsOf p := by
  unfold Progress.jobsOf Progress.associate
  split
  · rename_i same
    rw [same, lookup_insert]
    rfl
  · rename_i differs
    simp [lookup_insert_ne differs]

theorem mem_jobsOf_fold (current : List Pod) (state : Progress) (p : Pod) (other : Int) :
    other ∈ (current.foldl (fun state pod => state.associate id pod) state).jobsOf p ↔
      other ∈ state.jobsOf p ∨ (other = id ∧ ∃ pod ∈ current, podKey pod = podKey p) := by
  induction current generalizing state with
  | nil => simp
  | cons pod rest ih =>
    rw [foldl_cons, ih, jobsOf_associate]
    split
    · rename_i same
      simp [same, or_assoc]
      tauto
    · rename_i differs
      have apart : podKey pod ≠ podKey p := fun same => differs same.symm
      simp [apart]

theorem released_fold (current : List Pod) (state : Progress) :
    (current.foldl (fun state pod => state.associate id pod) state).released = state.released := by
  induction current generalizing state with
  | nil => rfl
  | cons pod rest ih => exact ih _

end

def ByCache (r : Reconciler) (jobs : List RegisteredJob) (t : Trace surroundings) (id : Int) : Prop :=
  ∃ job ∈ jobs, job.jobId = id ∧ ∃ current, Reviewed r t job current ∧ Shortcut job current

/-- Why a job counts as released. -/
def Settled (r : Reconciler) (jobs : List RegisteredJob) (t : Trace surroundings) (id : Int) : Prop :=
  Confirmed t id ∨ ByCache r jobs t id

variable {jobs : List RegisteredJob}

theorem Settled.mono {more : List RegisteredJob} (settled : Settled r jobs t id) (subset : jobs ⊆ more)
    (t' : Trace surroundings) : Settled r more (t ++ t') id := by
  rcases settled with confirmed | ⟨job, member, is, current, reviewed, shortcut⟩
  · exact .inl (confirmed.mono (by simp))
  · exact .inr ⟨job, subset member, is, current, reviewed.append t', shortcut⟩

/-- What is known after the loop over some jobs: their members know them, and those that count as
released do so for a reason. -/
structure Judged (r : Reconciler) (seen : List RegisteredJob) (t : Trace surroundings)
    (state : Progress) : Prop where
  reviewed : ∀ job ∈ seen, ∃ current, Reviewed r t job current ∧
    ∀ pod ∈ current, ∀ p, podKey p = podKey pod → job.jobId ∈ state.jobsOf p
  settled : ∀ id, state.isReleased id = true → Settled r seen t id

variable {seen : List RegisteredJob} {state : Progress}

private theorem judged_add {t'' : Trace surroundings} {state' : Progress} (judged : Judged r seen t state)
    (members : Exec (componentMembers r .cached job).run t' (.ok current))
    (associated : state'.associated = (current.foldl (fun state pod => state.associate job.jobId pod) state).associated)
    (released : ∀ id, state'.isReleased id = true → state.isReleased id = true ∨ (id = job.jobId ∧ (Confirmed t'' id ∨ Shortcut job current))) :
    Judged r (seen ++ [job]) (t ++ (t' ++ t'')) state' := by
  have jobsOf : ∀ p, state'.jobsOf p =
      (current.foldl (fun state pod => state.associate job.jobId pod) state).jobsOf p := by
    intro p
    simp only [Progress.jobsOf, associated]
  have reviewed : Reviewed r (t ++ (t' ++ t'')) job current := ⟨t, t', t'', by simp, members⟩
  refine ⟨fun other inside => ?_, fun id yes => ?_⟩
  · rcases mem_append.mp inside with old | new
    · obtain ⟨current', reviewed, known⟩ := judged.reviewed other old
      refine ⟨current', reviewed.append _, fun pod member p same => ?_⟩
      rw [jobsOf, mem_jobsOf_fold]
      exact .inl (known pod member p same)
    · rw [mem_singleton.mp new]
      refine ⟨current, reviewed, fun pod member p same => ?_⟩
      rw [jobsOf, mem_jobsOf_fold]
      exact .inr ⟨rfl, pod, member, same.symm⟩
  · rcases released id yes with before | ⟨own, confirmed | shortcut⟩
    · exact (judged.settled id before).mono (subset_append_left _ _) _
    · exact .inl (confirmed.mono (by simp))
    · exact .inr ⟨job, by simp, own.symm, current, reviewed, shortcut⟩

private theorem isReleased_insert {released : Released} {other : Int} {done : Bool}
    (same : state.released = released.insert id done) (yes : state.isReleased other = true) :
    (released.lookup other).getD false = true ∨ (other = id ∧ done = true) := by
  unfold Progress.isReleased at yes
  rw [same] at yes
  by_cases own : other = id
  · rw [own, lookup_insert] at yes
    exact .inr ⟨own, yes⟩
  · rw [lookup_insert_ne own] at yes
    exact .inl yes

theorem judged_step (judged : Judged r seen t state) (job : RegisteredJob) :
    Delivers (fun t' state' => Judged r (seen ++ [job]) (t ++ t') state') (reconcileJob r state job) := by
  have before : ∀ (current : List Pod) id, ((current.foldl
      (fun state pod => state.associate job.jobId pod) state).released.lookup id).getD false = true →
      state.isReleased id = true := by
    intro current id yes
    rw [released_fold] at yes
    exact yes
  refine delivers_bind (fun t' current => id) fun t' current members => ?_
  split
  · rename_i shortcut
    simp only [Bool.and_eq_true, Bool.not_eq_true', any_eq_false, contains_iff_mem] at shortcut
    refine delivers_pure (judged_add judged members rfl fun id yes => ?_)
    exact (isReleased_insert rfl yes).imp (before current id) fun own => ⟨own.1, .inr shortcut⟩
  · split
    · exact delivers_pure (judged_add judged members rfl fun id yes => .inl (before current id yes))
    · refine delivers_bind (release_confirmed r job) fun t'' done confirmed => delivers_pure ?_
      rw [append_nil]
      refine judged_add judged members rfl fun id yes => ?_
      refine (isReleased_insert rfl yes).imp (before current id) fun own => ⟨own.1, .inl ?_⟩
      exact own.1 ▸ confirmed own.2

theorem judged_run (r : Reconciler) (members : PodMap) (jobs : List RegisteredJob) (h : Trace surroundings) :
    Delivers (fun t state => Judged r jobs (h ++ t) state)
      (jobs.foldlM (reconcileJob r) ⟨members, ∅, ∅, false⟩) := by
  refine delivers_foldlM (fun seen t state => Judged r seen (h ++ t) state) ?_ ?_
  · exact ⟨fun _ inside => absurd inside not_mem_nil, by simp [Progress.isReleased]⟩
  · intro seen job rest t state _ judged
    simpa only [append_assoc] using judged_step judged job

def ReadLive (t : Trace surroundings) (id : Int) (raw : JobInfo) : Prop :=
  (⟨.getJob .live (itoa id), (.ok raw : Except SlurmError JobInfo)⟩ : Event surroundings) ∈ t

/-- The records kept by a verification were read on the way. -/
def Kept (t : Trace surroundings) (liveJobs : LiveJobs) : Prop :=
  ∀ id raw, liveJobs.lookup id = some (some raw) → ReadLive t id raw

variable {liveJobs : LiveJobs}

theorem Kept.append (kept : Kept t liveJobs) (t' : Trace surroundings) : Kept (t ++ t') liveJobs :=
  fun id raw found => mem_append_left _ (kept id raw found)

private theorem kept_insert (kept : Kept t liveJobs) {job : Option JobInfo}
    (read : ∀ raw, job = some raw → ReadLive t id raw) : Kept t (liveJobs.insert id job) := by
  intro id' raw found
  by_cases same : id' = id
  · subst same
    rw [lookup_insert] at found
    exact read raw (Option.some.inj found)
  · rw [lookup_insert_ne same] at found
    exact kept id' raw found

theorem readJob_kept (kept : Kept t liveJobs) (id : Int) : Delivers (fun t' out => Kept (t ++ t') out.2 ∧
      ∀ raw, out.1 = some raw → ReadLive (t ++ t') id raw) (readJob liveJobs id) := by
  unfold readJob
  split
  · rename_i job found
    refine delivers_pure ⟨kept.append _, ?_⟩
    rintro raw rfl
    exact mem_append_left _ (kept id raw found)
  · refine delivers_bind (delivers_perform (.getJob .live (itoa id))) ?_
    rintro t' reply rfl
    rcases reply with (_ | _) | raw
    · refine delivers_pure ⟨kept_insert (kept.append _) ?_, ?_⟩
      · rintro raw ⟨⟩
      · rintro raw ⟨⟩
    · exact delivers_throw _
    · have read : ReadLive (t ++ ([⟨.getJob .live (itoa id), .ok raw⟩] ++ [])) id raw := by
        simp [ReadLive]
      refine delivers_pure ⟨kept_insert (kept.append _) ?_, ?_⟩
      · rintro raw' ⟨⟩
        exact read
      · rintro raw' ⟨⟩
        exact read

/-- A job of the map is the confirmed record of a live read. -/
def Verified (pod : Pod) (t : Trace surroundings) (jobs : JobMap) : Prop :=
  ∀ key job, jobs.lookup key = some job → ∃ id raw, ReadLive t id raw ∧ confirmJob pod id raw = some job

theorem verified_step {pod : Pod} {state : JobMap × LiveJobs} (candidates : JobMap)
    (verified : Verified pod t state.1) (kept : Kept t state.2) :
    Delivers (fun t' out => Verified pod (t ++ t') out.1) (verifyJob candidates state pod) := by
  have more : ∀ t', Verified pod (t ++ t') state.1 := by
    intro t' key job found
    obtain ⟨id, raw, read, confirmed⟩ := verified key job found
    exact ⟨id, raw, mem_append_left _ read, confirmed⟩
  unfold verifyJob
  split
  · exact delivers_pure (more [])
  · rename_i candidate chosen
    have label : Delivers (fun t' out => Kept (t ++ t') out.2) (heldByLabel state.2 pod candidate.jobId) := by
      unfold heldByLabel
      dsimp only
      split
      · refine delivers_bind (readJob_kept kept _) fun t' out read => delivers_pure ?_
        simpa using read.1
      · exact delivers_pure (kept.append [])
    refine delivers_bind label ?_
    rintro t₁ ⟨held, liveJobs⟩ kept₁
    dsimp only at kept₁ ⊢
    split
    · exact delivers_pure (more _)
    · refine delivers_bind (readJob_kept kept₁ _) ?_
      rintro t₂ ⟨raw, liveJobs'⟩ read
      split
      · exact delivers_pure (more _)
      · rename_i job confirmed
        refine delivers_pure fun key job' found => ?_
        obtain ⟨raw, some_, confirms⟩ := Option.bind_eq_some_iff.mp confirmed
        by_cases own : key = podKey pod
        · subst own
          rw [lookup_insert] at found
          cases found
          exact ⟨_, raw, by simpa using read.2 raw some_, confirms⟩
        · rw [lookup_insert_ne own] at found
          exact more _ key job' found

theorem verifyJobsForPods_verified (pod : Pod) (candidates : JobMap) :
    Delivers (Verified pod) (verifyJobsForPods candidates [pod]) := by
  have nothing : Verified pod [] ∅ := by simp [Verified]
  have empty : Kept [] ∅ := by simp [Kept]
  have fold : [pod].foldlM (verifyJob candidates) ((∅, ∅) : JobMap × LiveJobs) =
      verifyJob candidates (∅, ∅) pod >>= pure := by
    rfl
  unfold verifyJobsForPods
  rw [fold, bind_pure]
  exact delivers_bind (verified_step candidates nothing empty) fun t state verified =>
    delivers_pure (by simpa using verified)

def labeledJob (pod : Pod) : Int := parseSlurmJobId (pod.label labelExternalJobId)

/-- The job's members include the Pod, or the Pod's label names the job. -/
def Concerns (job : RegisteredJob) (current : List Pod) (pod : Pod) : Prop :=
  (∃ p ∈ current, podKey p = podKey pod) ∨ (0 < labeledJob pod ∧ job.jobId = labeledJob pod)

/-- The allocations that concern a member of the pass are released, for reasons of one kind. -/
structure Freed (r : Reconciler) (jobs : List RegisteredJob) (h : Trace surroundings) (member : Pod)
    (reason : Int → Prop) : Prop where
  listed : ∀ job ∈ jobs, ∃ current, Reviewed r h job current ∧ (Concerns job current member → reason job.jobId)
  labeled : 0 < labeledJob member → reason (labeledJob member)

/-- The Pod was read as unchanged and ready for cleanup, and its allocations count as released. -/
structure Cleaned (r : Reconciler) (jobs : List RegisteredJob) (h : Trace surroundings)
    (member pod : Pod) : Prop where
  read : (⟨.read .live (.pod member.ns member.name), (.ok pod : Except KubeError Pod)⟩ : Event surroundings) ∈ h
  uid : pod.uid = member.uid
  resourceVersion : pod.resourceVersion = member.resourceVersion
  ready : podReadyForCleanup pod = true
  freed : Freed r jobs h member (Settled r jobs h)

def Deleted (h : Trace surroundings) (claim : ResourceClaim) : Prop :=
  ∃ reply : Except KubeError Unit, (reply = .ok () ∨ reply = .error .notFound) ∧
    (⟨.deleteClaim claim, reply⟩ : Event surroundings) ∈ h

def Listed (h : Trace surroundings) (pod : Pod) (claims : List ResourceClaim) : Prop :=
  (⟨.listClaims pod.ns pod.uid, (.ok claims : Except KubeError (List ResourceClaim))⟩ : Event surroundings) ∈ h

/-- The reply to the read of a Pod's extended resource claim. -/
def ExtendedRead (h : Trace surroundings) (pod : Pod) (name : String)
    (reply : Except KubeError ResourceClaim) : Prop :=
  pod.extendedResourceClaim = some name ∧ (⟨.getClaim pod.ns name, reply⟩ : Event surroundings) ∈ h

/-- The claim belongs to the Pod: it is listed for it and names it as owner, or it is the one that
extended resources created. -/
def ClaimOf (h : Trace surroundings) (pod : Pod) (claim : ResourceClaim) : Prop :=
  (∃ claims, Listed h pod claims ∧ claim ∈ claims ∧ ownedByPod pod claim = true) ∨
    ∃ name, ExtendedRead h pod name (.ok claim)

/-- All claims of the Pod are deleted. -/
structure ClaimsGone (h : Trace surroundings) (pod : Pod) : Prop where
  listed : ∃ claims, Listed h pod claims ∧ ∀ claim ∈ claims, ownedByPod pod claim = true → Deleted h claim
  extended : ∀ name, pod.extendedResourceClaim = some name → name ≠ "" →
    ExtendedRead h pod name (.error .notFound) ∨ ∃ claim, ExtendedRead h pod name (.ok claim) ∧ Deleted h claim

/-- A repair of a Pod's job linkage follows a live record that lists the Pod. -/
structure Repaired (r : Reconciler) (h : Trace surroundings) (read updated : Pod) : Prop where
  confirmed : ∃ id raw job, ReadLive h id raw ∧ confirmJob read id raw = some job ∧
    updated = podWithMetadata read job false
  ours : read.schedulerName = r.schedulerName
  staying : read.deleting = false
  running : isPodTerminal read = false

/-- What precedes the writes of a lifecycle pass, which never submits or touches the memo. -/
def Tending (r : Reconciler) (jobs : List RegisteredJob) (h : Trace surroundings) : Command → Prop
  | .deleteClaim claim => ∃ member pod, Cleaned r jobs h member pod ∧ ClaimOf h pod claim
  | .patchPod read updated => Repaired r h read updated ∨
      (updated = dropFinalizer read ∧ ∃ member, Cleaned r jobs h member read ∧ ClaimsGone h read)
  | c => Settling c

theorem tending_of_canceling {h : Trace surroundings} {c : Command} (canceling : Canceling c) :
    Tending r jobs h c := by
  cases c <;> trivial

section
variable {r : Reconciler} {jobs : List RegisteredJob} {h : Trace surroundings} {member pod : Pod}

theorem Freed.append (freed : Freed r jobs h member (Settled r jobs h)) (t : Trace surroundings) :
    Freed r jobs (h ++ t) member (Settled r jobs (h ++ t)) := by
  have more : ∀ id, Settled r jobs h id → Settled r jobs (h ++ t) id :=
    fun id settled => settled.mono (List.Subset.refl _) t
  refine ⟨fun job inside => ?_, fun positive => more _ (freed.labeled positive)⟩
  obtain ⟨current, reviewed, known⟩ := freed.listed job inside
  exact ⟨current, reviewed.append t, fun concerns => more _ (known concerns)⟩

theorem Cleaned.append (cleaned : Cleaned r jobs h member pod) (t : Trace surroundings) :
    Cleaned r jobs (h ++ t) member pod :=
  { cleaned with
    read := mem_append_left _ cleaned.read
    freed := cleaned.freed.append t }

theorem Deleted.append {claim : ResourceClaim} (deleted : Deleted h claim) (t : Trace surroundings) :
    Deleted (h ++ t) claim := by
  obtain ⟨reply, fine, inside⟩ := deleted
  exact ⟨reply, fine, mem_append_left _ inside⟩

theorem Judged.append {state : Progress} (judged : Judged r jobs h state) (t : Trace surroundings) :
    Judged r jobs (h ++ t) state := by
  refine ⟨fun job inside => ?_, fun id yes => (judged.settled id yes).mono (List.Subset.refl _) t⟩
  obtain ⟨current, reviewed, known⟩ := judged.reviewed job inside
  exact ⟨current, reviewed.append t, known⟩

end

section
variable {r : Reconciler} {jobs : List RegisteredJob} {h : Trace surroundings}

theorem wp_canceling {α : Type} {p : Ctl α} {post : Trace surroundings → α → Prop}
    (canceling : Only Canceling p) (returns : ∀ t a, Exec p t a → post (h ++ t) a) :
    wp (Tending r jobs) p h post :=
  wp_of_only canceling (fun _ _ => tending_of_canceling) fun t a run _ => returns t a run

variable {post : Trace surroundings → Except Err Unit → Prop} {member pod : Pod}

theorem wp_deleteClaim {claim : ResourceClaim} (cleaned : Cleaned r jobs h member pod)
    (claimOf : ClaimOf h pod claim) (failed : ∀ t e, post (h ++ t) (.error e))
    (deleted : ∀ t, Deleted (h ++ t) claim → post (h ++ t) (.ok ())) :
    wp (Tending r jobs) (PodSync.deleteClaim claim).run h post := by
  unfold PodSync.deleteClaim
  rw [wp_run_bind]
  refine (wp_run_lift _ _).mpr ⟨⟨member, pod, cleaned, claimOf⟩, fun reply => ?_⟩
  have event : (⟨.deleteClaim claim, reply⟩ : Event surroundings) ∈ h ++ [⟨.deleteClaim claim, reply⟩] := by
    simp
  rcases reply with (_ | _ | _) | _
  · exact deleted _ ⟨_, .inr rfl, event⟩
  · exact failed _ _
  · exact failed _ _
  · exact deleted _ ⟨_, .inl rfl, event⟩

theorem wp_deleteExtendedResourceClaim (cleaned : Cleaned r jobs h member pod)
    (failed : ∀ t e, post (h ++ t) (.error e))
    (gone : ∀ t, (∀ name, pod.extendedResourceClaim = some name → name ≠ "" → ExtendedRead (h ++ t) pod name (.error .notFound) ∨ ∃ claim, ExtendedRead (h ++ t) pod name (.ok claim) ∧ Deleted (h ++ t) claim) → post (h ++ t) (.ok ())) :
    wp (Tending r jobs) (deleteExtendedResourceClaim pod).run h post := by
  have untouched : (∀ name, pod.extendedResourceClaim = some name → name = "") → post h (.ok ()) := by
    intro none
    have holds := gone [] fun name own given => absurd (none name own) given
    rwa [append_nil] at holds
  unfold deleteExtendedResourceClaim
  split
  · rename_i absent
    refine untouched fun name own => ?_
    rw [absent] at own
    cases own
  · rename_i name own
    have only : ∀ other, pod.extendedResourceClaim = some other → other = name := by
      intro other same
      rw [own] at same
      exact (Option.some.inj same).symm
    split
    · rename_i empty
      exact untouched fun other same => (only other same).trans empty
    · rw [wp_run_bind]
      refine (wp_run_lift _ _).mpr ⟨trivial, fun reply => ?_⟩
      have read : ExtendedRead (h ++ [⟨.getClaim pod.ns name, reply⟩]) pod name reply :=
        ⟨own, by simp⟩
      rcases reply with (_ | _ | _) | claim
      · refine gone _ fun other same _ => .inl ?_
        rw [only other same]
        exact read
      · exact failed _ _
      · exact failed _ _
      · refine wp_deleteClaim (cleaned.append _) (.inr ⟨name, read⟩) (fun t e => ?_) fun t deleted => ?_
        · rw [append_assoc]
          exact failed _ _
        · rw [append_assoc] at deleted ⊢
          refine gone _ fun other same _ => .inr ⟨claim, ?_, deleted⟩
          rw [only other same]
          exact ⟨own, by simp⟩

theorem wp_finalizePod (cleaned : Cleaned r jobs h member pod) :
    wp (Tending r jobs) (finalizePod pod).run h fun _ _ => True := by
  refine (wp_run_perform (.listClaims pod.ns pod.uid) _).mpr ⟨trivial, fun reply => ?_⟩
  rcases reply with e | claims
  · trivial
  · have cleaned₁ := cleaned.append [⟨.listClaims pod.ns pod.uid, .ok claims⟩]
    have listed : ∀ t, Listed (h ++ [⟨.listClaims pod.ns pod.uid, .ok claims⟩] ++ t) pod claims := by
      intro t
      simp [Listed]
    generalize h ++ [⟨.listClaims pod.ns pod.uid, .ok claims⟩] = h₁ at cleaned₁ listed ⊢
    rw [wp_run_bind]
    refine wp_run_foldlM (fun seen h' _ => ∃ t, h' = h₁ ++ t ∧ ∀ claim ∈ seen, Deleted h' claim)
      ⟨[], by simp, by simp⟩ ?_ ?_
    · rintro seen claim rest h' _ split ⟨t, rfl, done⟩
      have inside : claim ∈ claims.filter (ownedByPod pod) := by simp [split]
      have claimOf : ClaimOf (h₁ ++ t) pod claim :=
        .inl ⟨claims, listed t, (mem_filter.mp inside).1, (mem_filter.mp inside).2⟩
      refine wp_deleteClaim (cleaned₁.append t) claimOf (fun _ _ => trivial) fun t' deleted => ?_
      exact ⟨t ++ t', by simp, forall_mem_snoc (fun other old => (done other old).append t') deleted⟩
    · rintro h' _ ⟨t, rfl, done⟩
      dsimp only [orFail]
      rw [wp_run_bind]
      refine wp_deleteExtendedResourceClaim (cleaned₁.append t) (fun _ _ => trivial) ?_
      intro t' extended
      have owned : ∀ claim ∈ claims, ownedByPod pod claim = true → Deleted (h₁ ++ t ++ t') claim :=
        fun claim member own => (done claim (mem_filter.mpr ⟨member, own⟩)).append t'
      unfold removeFinalizer
      split
      · trivial
      · refine (wp_run_perform (.patchPod pod (dropFinalizer pod)) _).mpr
          ⟨.inr ⟨rfl, member, ?_, ⟨claims, ?_, owned⟩, extended⟩, ?_⟩
        · exact (cleaned₁.append t).append t'
        · rw [append_assoc]
          exact listed _
        · intro reply
          rcases reply with (_ | _ | _) | _ <;> trivial

theorem wp_prepareTerminalPod (freed : Freed r jobs h member (Settled r jobs h)) :
    wp (Tending r jobs) (prepareTerminalPod member).run h fun _ _ => True := by
  refine (wp_run_perform (.read .live (.pod member.ns member.name)) _).mpr ⟨trivial, fun reply => ?_⟩
  rcases reply with (_ | _ | _) | pod
  · trivial
  · trivial
  · trivial
  · dsimp only
    split
    · trivial
    · rename_i same
      rw [not_or, not_not, not_not] at same
      split
      · trivial
      · rename_i ready
        exact wp_finalizePod ⟨by simp, same.1, same.2, by simpa using ready, freed.append _⟩

theorem verified_jobForPod {t : Trace surroundings} {jobs : JobMap} {job : ExternalJob}
    (verified : Verified pod t jobs) (found : jobForPod jobs pod = some job) :
    ∃ id raw, ReadLive t id raw ∧ confirmJob pod id raw = some job := by
  unfold jobForPod at found
  split at found
  · rename_i job' byKey
    cases found
    exact verified _ _ byKey
  · exact verified _ _ found

variable {req : NamespacedName}

theorem wp_cachedPod {post : Trace surroundings → Except Err (Option Pod) → Prop}
    (holds : ∀ t out, post (h ++ t) out) : wp (Tending r jobs) (cachedPod req).run h post := by
  refine (wp_run_perform (.read .cached (.pod req.ns req.name)) _).mpr ⟨trivial, fun reply => ?_⟩
  rcases reply with (_ | _ | _) | pod <;> exact holds _ _

theorem wp_reconcilePodMetadata : wp (Tending r jobs) (reconcilePodMetadata r req).run h fun _ _ => True := by
  have reads : ∀ {α : Type} {p : Ctl α}, Only Reading p → Only Canceling p :=
    fun only => only.mono fun _ => Reading.canceling
  unfold reconcilePodMetadata
  rw [wp_run_bind]
  refine wp_cachedPod fun t out => ?_
  rcases out with e | _ | pod
  · trivial
  · trivial
  · dsimp only [orFail]
    split
    · trivial
    · rename_i ours
      simp only [not_or, not_not, Bool.not_eq_true] at ours
      rw [wp_run_bind]
      refine wp_canceling (reads (reading_getJobsForPods _)) fun t₁ out _ => ?_
      rcases out with e | candidates
      · trivial
      · dsimp only [orFail]
        split
        · trivial
        · split
          · trivial
          · rw [wp_run_bind]
            refine wp_canceling (reads (reading_verifyJobsForPods _ _)) fun t₂ out run => ?_
            rcases out with e | verified
            · trivial
            · dsimp only [orFail]
              split
              · trivial
              · rename_i job found
                split
                · trivial
                · obtain ⟨id, raw, read, confirmed⟩ := verified_jobForPod
                    (verifyJobsForPods_verified pod candidates t₂ verified run) found
                  refine (wp_run_perform (.patchPod pod (podWithMetadata pod job false)) _).mpr
                    ⟨.inl ⟨⟨id, raw, job, ?_, confirmed, rfl⟩, ours.1, ours.2.1, ours.2.2⟩, ?_⟩
                  · exact mem_append_right _ read
                  · intro reply
                    rcases reply with (_ | _ | _) | _ <;> trivial

theorem wp_syncPod : wp (Tending r jobs) (syncPod r req).run h fun _ _ => True := by
  unfold syncPod
  rw [wp_run_bind]
  refine wp_mono wp_reconcilePodMetadata fun t out _ => ?_
  rcases out with e | changed
  · trivial
  · dsimp only [orFail]
    split
    · trivial
    · rw [wp_run_bind]
      unfold syncKubernetes
      rw [wp_run_bind]
      refine wp_cachedPod fun t out => ?_
      rcases out with e | _ | pod
      · trivial
      · trivial
      · dsimp only [orFail]
        split
        · trivial
        · rw [wp_run_bind]
          refine wp_canceling ((reading_isJobRunning _).mono fun _ => Reading.canceling) fun t₁ out _ => ?_
          rcases out with e | running
          · trivial
          · dsimp only [orFail]
            split
            · trivial
            · refine (wp_run_perform (.deletePod pod) _).mpr ⟨trivial, fun reply => ?_⟩
              rcases reply with _ | _ <;> trivial

theorem labelReleased_settled (state : Progress) (pod : Pod) :
    Delivers (fun t free => free = true → 0 < labeledJob pod →
        state.isReleased (labeledJob pod) = true ∨ Confirmed t (labeledJob pod))
      (labelReleased state pod) := by
  unfold labelReleased
  dsimp only
  split
  · refine delivers_bind (liveJob_answer _) fun t raw answer => ?_
    refine delivers_except fun free result yes _ => .inr ?_
    subst yes
    exact (confirmed_of_answer answer result).mono (by simp)
  · rename_i known
    refine delivers_pure fun _ positive => .inl ?_
    by_contra pending
    exact known ⟨positive, Bool.eq_false_of_not_eq_true pending⟩

variable {state : Progress}

theorem freed_of_judged (judged : Judged r jobs h state) (t : Trace surroundings)
    (all : ∀ id ∈ state.jobsOf pod, state.isReleased id = true)
    (label : 0 < labeledJob pod → state.isReleased (labeledJob pod) = true ∨ Confirmed t (labeledJob pod)) :
    Freed r jobs (h ++ t) pod (Settled r jobs (h ++ t)) := by
  have judged' := judged.append t
  have named : 0 < labeledJob pod → Settled r jobs (h ++ t) (labeledJob pod) := by
    intro positive
    rcases label positive with yes | confirmed
    · exact judged'.settled _ yes
    · exact .inl (confirmed.mono (by simp))
  refine ⟨fun job inside => ?_, named⟩
  obtain ⟨current, reviewed, known⟩ := judged'.reviewed job inside
  refine ⟨current, reviewed, ?_⟩
  rintro (⟨p, member, same⟩ | ⟨positive, is⟩)
  · exact judged'.settled _ (all _ (known p member pod same.symm))
  · exact is ▸ named positive

theorem wp_reconcileMember (judged : Judged r jobs h state) (waiting : Bool) (pod : Pod) :
    wp (Tending r jobs) (reconcileMember r state waiting pod).run h fun _ _ => True := by
  unfold reconcileMember
  split
  · trivial
  · split
    · split
      · trivial
      · rw [wp_run_bind]
        refine wp_mono wp_syncPod fun t out _ => ?_
        rcases out with e | changed <;> trivial
    · split
      · trivial
      · rename_i released
        rw [wp_run_bind]
        refine wp_canceling ((reading_labelReleased _ _).mono fun _ => Reading.canceling) fun t out run => ?_
        rcases out with e | free
        · trivial
        · dsimp only [orFail]
          split
          · trivial
          · rename_i labelFree
            rw [wp_run_bind]
            have label := labelReleased_settled state pod t free run (by simpa using labelFree)
            have all : ∀ id ∈ state.jobsOf pod, state.isReleased id = true := by
              simpa using released
            refine wp_mono (wp_prepareTerminalPod (freed_of_judged judged t all label)) ?_
            intro t out _
            rcases out with e | _ <;> trivial

theorem wp_reconcileLifecycle {key : Request} {pods : List Pod} :
    wp (Tending r jobs) (reconcileLifecycle r key pods jobs).run [] fun _ _ => True := by
  unfold reconcileLifecycle
  rw [wp_run_bind]
  refine wp_canceling ((reading_submissionHolds _ _ _).mono fun _ => Reading.canceling) fun t out _ => ?_
  rcases out with e | holds
  · trivial
  · dsimp only [orFail]
    split
    · trivial
    · rw [wp_run_bind]
      refine wp_canceling (only_run_foldlM (canceling_reconcileJob r) _ _) fun t₁ out run => ?_
      rcases out with e | state
      · trivial
      · have judged := judged_run r _ jobs ([] ++ t) t₁ state run
        dsimp only [orFail]
        rw [wp_run_bind]
        refine wp_canceling (only_run_lift (only_rangeMap trivial)) fun t₂ out _ => ?_
        rcases out with e | visited
        · trivial
        · refine wp_run_foldlM (fun _ h' _ => Judged r jobs h' state) (judged.append t₂) ?_ fun _ _ _ => trivial
          intro seen entry rest h' waiting _ judged'
          refine wp_mono (wp_reconcileMember judged' waiting entry.2) fun t out _ => ?_
          rcases out with e | _
          · trivial
          · exact judged'.append t

end

/-- No allocation that concerns the Pod is released on the word of the cache. -/
def Uncached (r : Reconciler) (jobs : List RegisteredJob) (t : Trace surroundings) (member : Pod) : Prop :=
  ∀ job ∈ jobs, ∀ current, Reviewed r t job current → Concerns job current member → ¬ ByCache r jobs t job.jobId

theorem Freed.confirmed {member : Pod} (freed : Freed r jobs t member (Settled r jobs t))
    (uncached : Uncached r jobs t member) : Freed r jobs t member (Confirmed t) := by
  refine ⟨fun job inside => ?_, fun positive => ?_⟩
  · obtain ⟨current, reviewed, settled⟩ := freed.listed job inside
    refine ⟨current, reviewed, fun concerns => ?_⟩
    exact (settled concerns).resolve_right (uncached job inside current reviewed concerns)
  · refine (freed.labeled positive).resolve_right ?_
    rintro ⟨job, inside, is, current, reviewed, shortcut⟩
    have concerns : Concerns job current member := .inr ⟨positive, is⟩
    exact uncached job inside current reviewed concerns ⟨job, inside, rfl, current, reviewed, shortcut⟩

private def endedReconciler : Reconciler := .withoutGroups "slurm-bridge"

private def endedPod : Pod :=
  { Pod.waiting (.of "ns" (.refl true)) (.of "a" (.refl true)) (.of "u" (.refl true)) "slurm-bridge" with
    phase := .succeeded
    labels := (∅ : StringMap).insert labelExternalJobId "7" }

private def endedClaim : ResourceClaim :=
  ⟨"ns", "claim", "c", "1", [⟨⟨"", "v1", "Pod"⟩, "a", "u", true⟩]⟩

private def endedRecord (states : List JobState) : JobInfo where
  jobId := some 7
  nodes := none
  jobState := some states
  priority := none
  hetJobId := none
  hetJobOffset := none
  adminComment := (ExternalJobInfo.mk ["ns/a/u"] none none).toComment

private def answerEnded (pod : Pod) (states : List JobState) : (c : Command) → c.Reply
  | .read _ (.pod _ _) => (.ok pod : Except KubeError Pod)
  | .read _ (.podsWithLabel _ _ _) => (.ok [pod] : Except KubeError (List Pod))
  | .read _ (.object _ _ _) =>
    (.ok ⟨⟨"", "v1", "Pod"⟩, "ns", "a", "u", []⟩ : Except KubeError PartialObjectMetadata)
  | .getJob _ _ => (.ok (endedRecord states) : Except SlurmError JobInfo)
  | .listClaims _ _ => (.ok [endedClaim] : Except KubeError (List ResourceClaim))
  | .deleteClaim _ => (.ok () : Except KubeError Unit)
  | .patchPod _ _ => (.ok () : Except KubeError Unit)
  | c => c.refuse

private def endedJob (states : List JobState) : RegisteredJob :=
  match registeredJobFromInfo (endedRecord states) with
  | .ok job => job
  | .error _ => ⟨⟨0, 0, 0, ⟨"", []⟩, false, false, false⟩, ⟨[], none, none⟩⟩

private def endedPass (pod : Pod) (cached live : List JobState) : Trace surroundings :=
  traceOf (answerEnded pod live)
    (reconcileLifecycle endedReconciler (podRequest pod) [pod] [endedJob cached]).run

private theorem endedPass_reaches {pod : Pod} {cached live : List JobState} {t after : Trace surroundings}
    {e : Event surroundings} (split : endedPass pod cached live = (t ++ [e]) ++ after) :
    ∃ rest, Reaches (reconcileLifecycle endedReconciler (podRequest pod) [pod] [endedJob cached]).run
      (t ++ [e]) rest := by
  have whole := (exec_traceOf (answerEnded pod live)
    (reconcileLifecycle endedReconciler (podRequest pod) [pod] [endedJob cached]).run).reaches
  rw [show traceOf (I := surroundings) (answerEnded pod live) _ = _ from split] at whole
  exact whole.stop

private def heldPod : Pod := { endedPod with finalizers := [finalizerScheduler] }

private def heldTrace : Trace surroundings := (endedPass heldPod [.running] [.completed]).take 9

private def endedTrace : Trace surroundings :=
  (endedPass endedPod [.completed, .completing] [.completed, .completing]).take 7

private def readsLive : Command → Bool
  | .getJob .live _ => true
  | _ => false

end SlurmBridge.Registration.Cleanup
