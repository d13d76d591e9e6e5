/- source: internal/controller/registration/pod_metadata.go, internal/utils/slurmjob/index.go,
     metadata.go
   digest: The repair of a Pod's job linkage moves the Pod only off a job that was read live as
     gone, does not depend on the order of the index, and does nothing while several unfinished
     jobs list the Pod. -/

import SlurmBridge.Foundation.TwoRuns
import SlurmBridge.Registration.Cleanup
import SlurmBridge.Registration.LookupSpec

set_option autoImplicit false

namespace SlurmBridge.Registration.MetadataRepair

open Foundation.Interaction Foundation.TwoRuns Kube.Objects Kube.Reads Slurm.Ownership Slurm.Job
open Slurm.Allocation Slurm.Metadata Registration.Interface Registration.Lookup
open Registration.Membership Registration.PodSync Registration.Effects Registration.LookupSpec
open Registration.Cleanup (ReadLive Kept readJob_kept labeledJob)
open List

section

def decoded (jobs : List JobInfo) : List ExternalJob := jobs.filterMap fun raw => (fromJobInfo raw).toOption

/-- What the loop over the records of a Pod knows of the jobs it has seen. -/
structure Scanned (jobID : Int) (jobs : List ExternalJob) (found : Matches) : Prop where
  unfinished : found.unfinished = (jobs.filter (!·.finished)).length
  candidate : found.candidate = (jobs.filter (!·.finished)).getLast?
  finishedCount : found.finishedCount = (jobs.filter (·.finished)).length
  listed : ∀ job, found.finished = some job → job ∈ jobs.filter (·.finished)
  present : jobs.filter (·.finished) ≠ [] → found.finished.isSome = true
  named : ∀ job ∈ jobs.filter (·.finished), job.jobId = jobID →
    ∃ other, found.finished = some other ∧ other.jobId = jobID

variable {jobID : Int} {jobs : List JobInfo} {found : Matches}

theorem Scanned.add (scanned : Scanned jobID (decoded jobs) found) (raw : JobInfo) :
    Scanned jobID (decoded (jobs ++ [raw])) (found.add jobID raw) := by
  unfold Matches.add
  split
  · rename_i e failed
    have same : decoded (jobs ++ [raw]) = decoded jobs := by simp [decoded, failed, Except.toOption]
    rwa [same]
  · rename_i job converted
    have longer : decoded (jobs ++ [raw]) = decoded jobs ++ [job] := by
      simp [decoded, converted, Except.toOption]
    rw [longer]
    split
    · rename_i finished
      have kept : (decoded jobs ++ [job]).filter (!·.finished) = (decoded jobs).filter (!·.finished) := by
        simp [filter_append, finished]
      have grown : (decoded jobs ++ [job]).filter (·.finished) = (decoded jobs).filter (·.finished) ++ [job] := by
        simp [filter_append, finished]
      refine ⟨by rw [kept]; exact scanned.unfinished, by rw [kept]; exact scanned.candidate, ?_, ?_, ?_, ?_⟩
      · simp [grown, scanned.finishedCount]
      · intro other chosen
        rw [grown]
        simp only at chosen
        split at chosen
        · rw [← Option.some.inj chosen]
          simp
        · exact mem_append_left _ (scanned.listed other chosen)
      · intro _
        simp only
        split
        · rfl
        · rename_i keeps
          simp only [Bool.or_eq_true, not_or] at keeps
          exact Option.isSome_iff_ne_none.mpr (by simpa using keeps.1)
      · intro other member same
        rw [grown] at member
        simp only
        split
        · rename_i takes
          rcases mem_append.mp member with old | new
          · obtain ⟨earlier, at_, id⟩ := scanned.named other old same
            have own : job.jobId = jobID := by simpa [at_] using takes
            exact ⟨job, rfl, own⟩
          · rw [mem_singleton.mp new] at same
            exact ⟨job, rfl, same⟩
        · rename_i keeps
          rcases mem_append.mp member with old | new
          · exact scanned.named other old same
          · rw [mem_singleton.mp new] at same
            simp [same] at keeps
    · rename_i unfinished
      have kept : (decoded jobs ++ [job]).filter (·.finished) = (decoded jobs).filter (·.finished) := by
        simp [filter_append, unfinished]
      have grown : (decoded jobs ++ [job]).filter (!·.finished) = (decoded jobs).filter (!·.finished) ++ [job] := by
        simp [filter_append, unfinished]
      exact ⟨by simp [grown, scanned.unfinished], by simp [grown], by rw [kept]; exact scanned.finishedCount,
        by rw [kept]; exact scanned.listed, by rw [kept]; exact scanned.present, by rw [kept]; exact scanned.named⟩

theorem scanned_foldl (jobID : Int) (jobs : List JobInfo) :
    Scanned jobID (decoded jobs) (jobs.foldl (Matches.add jobID) ⟨none, 0, none, 0⟩) := by
  induction jobs using List.reverseRecOn with
  | nil => exact ⟨rfl, rfl, rfl, by simp, by simp [decoded], by simp [decoded]⟩
  | append_singleton jobs raw ih =>
    rw [foldl_append]
    exact ih.add raw

/-- The job of some decoded records that a Pod may be linked to: the only unfinished one, or
without unfinished ones the only finished one or the one that the label names. -/
def Chosen (jobID : Int) (jobs : List ExternalJob) (job : ExternalJob) : Prop :=
  jobs.filter (!·.finished) = [job] ∨ jobs.filter (!·.finished) = [] ∧ (jobs.filter (·.finished) = [job] ∨
      job ∈ jobs.filter (·.finished) ∧ job.jobId = jobID ∧ 0 < jobID)

variable {job : ExternalJob}

theorem Chosen.perm {jobs jobs' : List ExternalJob} (chosen : Chosen jobID jobs job) (perm : jobs'.Perm jobs) :
    Chosen jobID jobs' job := by
  have unfinished := perm.filter (!·.finished)
  have finished := perm.filter (·.finished)
  refine chosen.imp (fun only => (only ▸ unfinished).eq_singleton) ?_
  rintro ⟨none, rest⟩
  refine ⟨(none ▸ unfinished).eq_nil, rest.imp (fun only => (only ▸ finished).eq_singleton) ?_⟩
  exact fun ⟨member, named⟩ => ⟨finished.mem_iff.mpr member, named⟩

theorem Scanned.choose_iff {jobs : List ExternalJob} (scanned : Scanned jobID jobs found)
    (distinct : (jobs.map (·.jobId)).Nodup) : found.choose jobID = some job ↔ Chosen jobID jobs job := by
  have count := scanned.unfinished
  have last := scanned.candidate
  unfold Matches.choose Chosen
  generalize jobs.filter (!·.finished) = unfinished at count last ⊢
  match unfinished with
  | [only] => simp [count, last]
  | first :: second :: rest => simp [count]
  | [] =>
    rw [if_neg (by simp [count]), if_pos (by simp [count])]
    cases chosen : found.finished with
    | none =>
      have nothing : jobs.filter (·.finished) = [] := by
        by_contra some
        simpa [chosen] using scanned.present some
      simp [nothing]
    | some other =>
      have member := scanned.listed other chosen
      constructor
      · intro taken
        simp only at taken
        split at taken
        · rename_i allowed
          obtain rfl := Option.some.inj taken
          refine .inr ⟨rfl, allowed.imp (fun one => ?_) fun named => ⟨member, named.1, named.2⟩⟩
          rw [scanned.finishedCount] at one
          obtain ⟨single, is⟩ := length_eq_one_iff.mp one
          rw [is] at member ⊢
          rw [mem_singleton.mp member]
        · cases taken
      · rintro (impossible | ⟨-, single | ⟨inside, named, positive⟩⟩)
        · cases impossible
        · have one : found.finishedCount = 1 := by simp [scanned.finishedCount, single]
          rw [single] at member
          simp only
          rw [if_pos (.inl one), mem_singleton.mp member]
        · obtain ⟨same, at_, id⟩ := scanned.named job inside named
          obtain rfl := Option.some.inj (chosen.symm.trans at_)
          simp only
          rw [if_pos (.inr ⟨id, positive⟩)]
          exact congrArg _ (inj_on_of_nodup_map distinct (mem_filter.mp member).1
            (mem_filter.mp inside).1 (id.trans named.symm))

variable {pod : Pod}

theorem podCandidate_iff (distinct : ((decoded jobs).map (·.jobId)).Nodup) :
    podCandidate pod jobs = some job ↔ Chosen (labeledJob pod) (decoded jobs) job :=
  (scanned_foldl (labeledJob pod) jobs).choose_iff distinct

theorem distinct_decoded (distinct : (jobs.map JobInfo.key).Nodup) : ((decoded jobs).map (·.jobId)).Nodup := by
  refine distinct.sublist ?_
  induction jobs with
  | nil => exact .slnil
  | cons raw jobs ih =>
    have later := ih (nodup_cons.mp distinct).2
    cases converted : fromJobInfo raw with
    | error e =>
      have same : decoded (raw :: jobs) = decoded jobs := by simp [decoded, converted, Except.toOption]
      rw [same]
      exact later.cons _
    | ok job =>
      have same : decoded (raw :: jobs) = job :: decoded jobs := by simp [decoded, converted, Except.toOption]
      rw [same, map_cons, map_cons, fromJobInfo_jobId converted]
      exact later.cons_cons _

theorem podCandidate_perm {jobs' : List JobInfo} (perm : jobs'.Perm jobs)
    (distinct : (jobs.map JobInfo.key).Nodup) : podCandidate pod jobs' = podCandidate pod jobs := by
  have same : (decoded jobs').Perm (decoded jobs) := perm.filterMap _
  have distinct' : (jobs'.map JobInfo.key).Nodup := (perm.map _).nodup_iff.mpr distinct
  refine Option.ext fun job => ?_
  rw [podCandidate_iff (distinct_decoded distinct'), podCandidate_iff (distinct_decoded distinct)]
  exact ⟨fun chosen => chosen.perm same.symm, fun chosen => chosen.perm same⟩

theorem podCandidate_several (several : 2 ≤ ((decoded jobs).filter (!·.finished)).length) :
    podCandidate pod jobs = none := by
  have count : (jobs.foldl (Matches.add (labeledJob pod)) ⟨none, 0, none, 0⟩).unfinished = _ :=
    (scanned_foldl (labeledJob pod) jobs).unfinished
  change Matches.choose (labeledJob pod) (jobs.foldl (Matches.add (labeledJob pod)) ⟨none, 0, none, 0⟩) = none
  rw [Matches.choose, if_neg (by rw [count]; omega), if_neg (by rw [count]; omega)]

end

section

def ReadIndex (t : Trace surroundings) (key : String) (records : List JobInfo) : Prop :=
  (⟨.jobsByIndex .pod key, (.ok records : Except SlurmError (List JobInfo))⟩ : Event surroundings) ∈ t

/-- The records of a Pod, as the pass found them. -/
inductive Listed (t : Trace surroundings) (pod : Pod) (records : List JobInfo) : Prop
  | byUID (read : ReadIndex t (podKey pod) records) (some : records ≠ [] ∨ pod.uid.text = "")
  | byName (none : ReadIndex t (podKey pod) []) (read : ReadIndex t pod.namespacedName records)

variable {t t' : Trace surroundings} {pod : Pod}

theorem Listed.mono {records : List JobInfo} (listed : Listed t pod records) (more : t ⊆ t') :
    Listed t' pod records := by
  cases listed with
  | byUID read some => exact .byUID (more read) some
  | byName none read => exact .byName (more none) (more read)

def ReadGone (t : Trace surroundings) (id : Int) : Prop :=
  (⟨.getJob .live (itoa id), (.error .notFound : Except SlurmError JobInfo)⟩ : Event surroundings) ∈ t ∨
    ∃ raw, ReadLive t id raw ∧ raw.key = id ∧ isFinishedJob raw = true

theorem ReadGone.mono {id : Int} (gone : ReadGone t id) (more : t ⊆ t') : ReadGone t' id :=
  gone.imp (fun absent => more absent) fun ⟨raw, read, rest⟩ => ⟨raw, more read, rest⟩

/-- A live record confirms a candidate, and no other job that the label names keeps the Pod. -/
structure Confirmed (t : Trace surroundings) (pod : Pod) (candidate job : ExternalJob) : Prop where
  read : ∃ raw, ReadLive t candidate.jobId raw ∧ confirmJob pod candidate.jobId raw = some job
  free : 0 < labeledJob pod → candidate.jobId ≠ labeledJob pod → ReadGone t (labeledJob pod)

theorem Confirmed.mono {candidate job : ExternalJob} (confirmed : Confirmed t pod candidate job)
    (more : t ⊆ t') : Confirmed t' pod candidate job := by
  obtain ⟨raw, read, confirms⟩ := confirmed.read
  exact ⟨⟨raw, more read, confirms⟩, fun positive other => (confirmed.free positive other).mono more⟩

/-- What precedes a patch: a candidate among the records, confirmed live. -/
def Grounded (h : Trace surroundings) (read updated : Pod) : Prop :=
  ∃ records candidate job, Listed h read records ∧ podCandidate read records = some candidate ∧
    Confirmed h read candidate job ∧ updated = podWithMetadata read job false

def guard (h : Trace surroundings) : Command → Prop
  | .patchPod read updated => Grounded h read updated
  | _ => True

theorem byIndex_reads (key : String) :
    Delivers (fun t records => ReadIndex t key records) (byIndex .pod key) := by
  refine delivers_bind (delivers_perform (.jobsByIndex .pod key)) ?_
  rintro t reply rfl
  cases reply with
  | error e => exact delivers_throw _
  | ok records => exact delivers_pure (by simp [ReadIndex])

theorem podRecords_listed (pod : Pod) :
    Delivers (fun t records => Listed t pod records) (podRecords pod) := by
  refine delivers_bind (byIndex_reads (podKey pod)) fun t records read => ?_
  split
  · rename_i unnamed
    obtain rfl := isEmpty_iff.mp unnamed.1
    exact delivers_mono (byIndex_reads pod.namespacedName) fun t' records' read' =>
      .byName (mem_append_left _ read) (mem_append_right _ read')
  · rename_i some
    refine delivers_pure (.byUID (mem_append_left _ read) ?_)
    by_contra none
    rw [not_or, not_not] at none
    exact some ⟨isEmpty_iff.mpr none.1, none.2⟩

theorem getJobsForPods_single (pod : Pod) : getJobsForPods [pod] = do
    match podCandidate pod (← podRecords pod) with
    | some job => return (∅ : JobMap).insert (podKey pod) job
    | none => return ∅ := by
  unfold getJobsForPods
  rw [foldlM_cons]
  simp only [foldlM_nil, bind_assoc]
  refine congrArg _ (funext fun records => ?_)
  cases podCandidate pod records <;> rfl

theorem getJobsForPods_chosen (pod : Pod) :
    Delivers (fun t candidates => ∀ candidate, jobForPod candidates pod = some candidate →
      ∃ records, Listed t pod records ∧ podCandidate pod records = some candidate) (getJobsForPods [pod]) := by
  rw [getJobsForPods_single]
  refine delivers_bind (podRecords_listed pod) fun t records listed => ?_
  split
  · rename_i job chosen
    refine delivers_pure fun candidate found => ⟨records, by simpa using listed, ?_⟩
    rw [jobForPod, AList.lookup_insert] at found
    rw [chosen, ← found]
  · exact delivers_pure fun candidate found => nomatch found

theorem readJob_first (id : Int) :
    Delivers (fun t out => Kept t out.2 ∧ (labelHolds id out.1 = false → ReadGone t id)) (readJob ∅ id) := by
  have kept : Delivers (fun t out => Kept ([] ++ t) out.2 ∧ _) (readJob ∅ id) :=
    readJob_kept (by simp [Kept]) id
  have gone : Delivers (fun t out => labelHolds id out.1 = false → ReadGone t id) (readJob ∅ id) := by
    unfold readJob
    split
    · rename_i job found
      simp at found
    · refine delivers_bind (delivers_perform (.getJob .live (itoa id))) ?_
      rintro t reply rfl
      rcases reply with (_ | _) | raw
      · exact delivers_pure fun _ => .inl (by simp)
      · exact delivers_throw _
      · exact delivers_pure fun free => .inr ⟨raw, by simp [ReadLive], by simpa [labelHolds] using free⟩
  exact fun t out run => ⟨(kept t out run).1, gone t out run⟩

theorem heldByLabel_first (pod : Pod) (candidateID : Int) :
    Delivers (fun t out => Kept t out.2 ∧ (out.1 = false → 0 < labeledJob pod →
      candidateID ≠ labeledJob pod → ReadGone t (labeledJob pod))) (heldByLabel ∅ pod candidateID) := by
  unfold heldByLabel
  dsimp only
  split
  · refine delivers_bind (readJob_first _) fun t out read => delivers_pure ?_
    rw [append_nil]
    exact ⟨read.1, fun free _ _ => read.2 free⟩
  · rename_i same
    exact delivers_pure ⟨by simp [Kept], fun _ positive other => absurd ⟨positive, other⟩ same⟩

theorem verifyJobsForPods_single (candidates : JobMap) (pod : Pod) :
    verifyJobsForPods candidates [pod] = Prod.fst <$> verifyJob candidates (∅, ∅) pod := by
  unfold verifyJobsForPods
  rw [foldlM_cons]
  simp only [foldlM_nil, bind_pure, bind_pure_comp]

theorem verifyJobsForPods_confirmed (candidates : JobMap) (pod : Pod) :
    Delivers (fun t verified => ∀ job, jobForPod verified pod = some job →
      ∃ candidate, jobForPod candidates pod = some candidate ∧ Confirmed t pod candidate job)
      (verifyJobsForPods candidates [pod]) := by
  suffices each : Delivers (fun t state => ∀ job, jobForPod state.1 pod = some job →
      ∃ candidate, jobForPod candidates pod = some candidate ∧ Confirmed t pod candidate job)
      (verifyJob candidates (∅, ∅) pod) by
    rw [verifyJobsForPods_single, ← bind_pure_comp]
    exact delivers_bind each fun t state known => delivers_pure (by simpa using known)
  unfold verifyJob
  split
  · exact delivers_pure fun job found => nomatch found
  · rename_i candidate chosen
    refine delivers_bind (heldByLabel_first pod candidate.jobId) ?_
    rintro t₁ ⟨held, liveJobs⟩ ⟨kept, free⟩
    dsimp only
    split
    · exact delivers_pure fun job found => nomatch found
    · rename_i released
      refine delivers_bind (readJob_kept kept _) ?_
      rintro t₂ ⟨raw, liveJobs'⟩ ⟨-, read⟩
      split
      · exact delivers_pure fun job found => nomatch found
      · rename_i job confirmed
        refine delivers_pure fun job' found => ⟨candidate, chosen, ?_⟩
        rw [jobForPod, AList.lookup_insert] at found
        obtain rfl := Option.some.inj found
        obtain ⟨record, some, confirms⟩ := Option.bind_eq_some_iff.mp confirmed
        refine ⟨⟨record, by simpa using read record some, confirms⟩, fun positive other => ?_⟩
        exact (free (by simpa using released) positive other).mono (subset_append_left _ _)

theorem wp_reconcilePodMetadata (r : Reconciler) (req : NamespacedName) :
    wp guard (reconcilePodMetadata r req).run [] fun _ _ => True := by
  have reads : ∀ {α : Type} {x : Fallible α}, Only Reading x.run → ∀ {h} {post},
      (∀ t out, Exec x.run t out → post (h ++ t) out) → wp guard x.run h post := by
    intro α x only h post returns
    refine wp_of_only only (fun t c reading => ?_) fun t out run _ => returns t out run
    cases c with
    | patchPod read updated => exact reading.elim
    | _ => trivial
  unfold reconcilePodMetadata
  rw [wp_run_bind]
  have cached : Only Reading (cachedPod req).run := by
    refine only_run_ask trivial fun reply => ?_
    split <;> trivial
  refine reads cached fun t out _ => ?_
  rcases out with e | _ | pod
  · trivial
  · trivial
  · dsimp only [orFail]
    split
    · trivial
    · rw [wp_run_bind]
      refine reads (reading_getJobsForPods _) fun t₁ out run₁ => ?_
      rcases out with e | candidates
      · trivial
      · dsimp only [orFail]
        split
        · trivial
        · split
          · trivial
          · rw [wp_run_bind]
            refine reads (reading_verifyJobsForPods _ _) fun t₂ out run₂ => ?_
            rcases out with e | verified
            · trivial
            · dsimp only [orFail]
              split
              · trivial
              · rename_i job found
                split
                · trivial
                · obtain ⟨candidate, chosen, confirmed⟩ :=
                    verifyJobsForPods_confirmed candidates pod t₂ verified run₂ job found
                  obtain ⟨records, listed, choice⟩ :=
                    getJobsForPods_chosen pod t₁ candidates run₁ candidate chosen
                  have before₁ : t₁ ⊆ [] ++ t ++ t₁ ++ t₂ := by simp
                  have before₂ : t₂ ⊆ [] ++ t ++ t₁ ++ t₂ := by simp
                  refine (wp_run_perform (.patchPod pod (podWithMetadata pod job false)) _).mpr
                    ⟨⟨records, candidate, job, listed.mono before₁, choice, confirmed.mono before₂, rfl⟩, ?_⟩
                  intro reply
                  rcases reply with (_ | _ | _) | _ <;> trivial

end

/-- Index replies may be in another order; the informer has one record of each job id. -/
def Shuffled : (c : Command) → c.Reply → c.Reply → Prop
  | .jobsByIndex _ _, reply, reply' =>
    match (reply : Except SlurmError (List JobInfo)), (reply' : Except SlurmError (List JobInfo)) with
    | .ok records, .ok records' => records'.Perm records ∧ (records.map JobInfo.key).Nodup
    | .error e, .error e' => e = e'
    | _, _ => False
  | _, reply, reply' => reply = reply'

theorem shuffled_eq {c : Command} {reply reply' : c.Reply} (other : ¬isIndexRead c)
    (shuffled : Shuffled c reply reply') : reply = reply' := by
  cases c with
  | jobsByIndex index key => exact absurd trivial other
  | _ => exact shuffled

theorem alike_byIndex (key : String) : Alike Shuffled (byIndex .pod key).run (byIndex .pod key).run
      (Both fun records records' => records'.Perm records ∧ (records.map JobInfo.key).Nodup) := by
  refine alike_run_bind (alike_run_call (I := surroundings) (.jobsByIndex .pod key)) ?_
  rintro (e | records) (e' | records') shuffled
  · obtain rfl : e = e' := shuffled
    exact alike_pure rfl
  · exact shuffled.elim
  · exact shuffled.elim
  · exact alike_run_pure shuffled

theorem alike_podRecords (pod : Pod) : Alike Shuffled (podRecords pod).run (podRecords pod).run
      (Both fun records records' => records'.Perm records ∧ (records.map JobInfo.key).Nodup) := by
  refine alike_run_bind (alike_byIndex (podKey pod)) ?_
  rintro records records' ⟨perm, distinct⟩
  rw [perm.isEmpty_eq]
  split
  · exact alike_byIndex pod.namespacedName
  · exact alike_run_pure ⟨perm, distinct⟩

theorem alike_getJobsForPods (pod : Pod) :
    Alike Shuffled (getJobsForPods [pod]).run (getJobsForPods [pod]).run (Both Eq) := by
  rw [getJobsForPods_single]
  refine alike_run_bind (alike_podRecords pod) ?_
  rintro records records' ⟨perm, distinct⟩
  rw [podCandidate_perm perm distinct]
  split <;> exact alike_run_pure rfl

theorem alike_reconcilePodMetadata (r : Reconciler) (req : NamespacedName) :
    Alike Shuffled (reconcilePodMetadata r req).run (reconcilePodMetadata r req).run (Both Eq) := by
  have same : ∀ {α : Type} {x : Fallible α}, Only (¬isIndexRead ·) x.run →
      Alike Shuffled x.run x.run (Both Eq) :=
    fun only => alike_run_self only fun _ _ _ other shuffled => shuffled_eq other shuffled
  have cached : Only (¬isIndexRead ·) (cachedPod req).run := by
    refine only_run_ask id fun reply => ?_
    split <;> trivial
  refine alike_run_bind (same cached) ?_
  rintro found _ rfl
  cases found with
  | none => exact alike_run_pure rfl
  | some pod =>
    dsimp only
    split
    · exact alike_run_pure rfl
    · refine alike_run_bind (alike_getJobsForPods pod) ?_
      rintro candidates _ rfl
      refine same ?_
      split
      · trivial
      · split
        · trivial
        · refine only_run_bind (only_verifyJobsForPods (fun _ => id) _ _) fun verified => ?_
          split
          · trivial
          · dsimp only
            split
            · trivial
            · refine only_run_ask id fun reply => ?_
              split <;> trivial

/-- The records of the informer that list a Pod; those by name only if there are none by UID. -/
def listing (content : List JobInfo) (pod : Pod) : List JobInfo :=
  if content.filter (fun raw => (jobPodKeys raw).contains (podKey pod)) = [] then
    content.filter fun raw => (jobPodKeys raw).contains pod.namespacedName
  else content.filter fun raw => (jobPodKeys raw).contains (podKey pod)

theorem Listed.perm_listing {t : Trace surroundings} {pod : Pod} {records content : List JobInfo}
    (listed : Listed t pod records) (serves : ∀ e ∈ t, Serves content e) :
    records.Perm (listing content pod) := by
  unfold listing
  cases listed with
  | byUID read some =>
    have perm : records.Perm (content.filter fun raw => (jobPodKeys raw).contains (podKey pod)) := serves _ read
    split
    · rename_i none
      rw [none] at perm
      have unnamed := some.resolve_left (not_not.mpr perm.eq_nil)
      have sameKey : podKey pod = pod.namespacedName := by rw [podKey, if_pos unnamed]
      rw [← sameKey, none]
      exact perm
    · exact perm
  | byName none read =>
    have empty : ([] : List JobInfo).Perm (content.filter fun raw => (jobPodKeys raw).contains (podKey pod)) :=
      serves _ none
    rw [if_pos empty.symm.eq_nil]
    exact serves _ read

/-- A patch that changes the label of a job moves the Pod from a job that was read as gone to an
unfinished one that lists the Pod. -/
theorem Grounded.moves {h : Trace surroundings} {read updated : Pod} (grounded : Grounded h read updated)
    (positive : 0 < labeledJob read) (changed : updated.label labelExternalJobId ≠ read.label labelExternalJobId) :
    ∃ id raw, updated.label labelExternalJobId = itoa id ∧ id ≠ labeledJob read ∧ ReadGone h (labeledJob read) ∧
      ReadLive h id raw ∧ raw.key = id ∧ isFinishedJob raw = false ∧
      (podKey read ∈ jobPodKeys raw ∨ read.namespacedName ∈ jobPodKeys raw) := by
  obtain ⟨records, candidate, job, -, -, confirmed, rfl⟩ := grounded
  obtain ⟨raw, live, confirms⟩ := confirmed.read
  unfold confirmJob at confirms
  dsimp only at confirms
  split at confirms
  · cases confirms
  rename_i keys
  split at confirms
  · cases confirms
  rename_i found converted
  split at confirms
  swap
  · cases confirms
  rename_i same
  obtain rfl := Option.some.inj confirms
  have jobPositive := (fromJobInfo_ok converted).1
  have adopts : (read.label labelExternalJobId ≠ "" ∨ false = true) ∧ found.finished = false := by
    by_contra kept
    rw [Pod.label, labels_podWithMetadata, if_neg kept] at changed
    exact changed rfl
  rw [Pod.label, labels_podWithMetadata, if_pos adopts, StringMap.at, lookup_jobLabels jobPositive] at changed ⊢
  have other : parseSlurmJobId (StringMap.at read.labels labelExternalJobId) ≠ found.jobId := by
    intro same
    rw [if_neg (not_not.mpr same)] at changed
    exact changed rfl
  refine ⟨_, raw, by rw [if_pos other, Option.getD_some], Ne.symm other, ?_, same ▸ live, ?_, ?_, ?_⟩
  · exact confirmed.free positive (same ▸ Ne.symm other)
  · exact (fromJobInfo_jobId converted).symm
  · rw [← fromJobInfo_finished converted]
    exact adopts.2
  · simp only [Bool.and_eq_true, Bool.not_eq_true', not_and_or, Bool.not_eq_false] at keys
    exact keys.imp contains_iff_mem.mp contains_iff_mem.mp

/-- The repair of a Pod's metadata never moves the Pod off a live allocation, does not depend on
the order of the index, and changes nothing while several jobs with a valid record are
unfinished. -/
theorem metadata_repair_safe {r : Reconciler} {req : NamespacedName} {t : Trace surroundings}
    {out : Except Err Bool} (run : Exec (reconcilePodMetadata r req).run t out) :
    (∀ before read updated reply after, t = before ++ ⟨.patchPod read updated, reply⟩ :: after →
      0 < labeledJob read → updated.label labelExternalJobId ≠ read.label labelExternalJobId →
      ∃ id raw, updated.label labelExternalJobId = itoa id ∧ id ≠ labeledJob read ∧
        ReadGone before (labeledJob read) ∧ ReadLive before id raw ∧ raw.key = id ∧
        isFinishedJob raw = false ∧ (podKey read ∈ jobPodKeys raw ∨ read.namespacedName ∈ jobPodKeys raw)) ∧
    (∀ t', List.Forall₂ (Related Shuffled) t t' → Exec (reconcilePodMetadata r req).run t' out) ∧
    (∀ content, (∀ e ∈ t, Serves content e) → ∀ read updated reply, ⟨.patchPod read updated, reply⟩ ∈ t →
      ¬2 ≤ ((decoded (listing content read)).filter (!·.finished)).length) := by
  have grounded := (wp_exec (wp_reconcilePodMetadata r req) run).2
  refine ⟨?_, ?_, ?_⟩
  · intro before read updated reply after split positive changed
    exact (grounded before _ after split : Grounded before read updated).moves positive changed
  · intro t' shuffled
    obtain ⟨out', run', same⟩ := alike_reconcilePodMetadata r req t out run t' shuffled
    have equal : out = out' := by
      cases out with
      | error e =>
        cases out' with
        | error e' => exact congrArg _ same
        | ok a' => exact same.elim
      | ok a =>
        cases out' with
        | error e' => exact same.elim
        | ok a' => exact congrArg _ same
    exact equal ▸ run'
  · intro content serves read updated reply member several
    obtain ⟨before, after, split⟩ := append_of_mem member
    obtain ⟨records, candidate, job, listed, chosen, -⟩ :
        Grounded before read updated := grounded before _ after split
    have inform := listed.perm_listing fun e inside => serves e (split ▸ mem_append_left _ inside)
    have same : (decoded records).Perm (decoded (listing content read)) := inform.filterMap _
    rw [← (same.filter (!·.finished)).length_eq] at several
    rw [podCandidate_several several] at chosen
    cases chosen

/- Pod ns/a carries the label of job 1, which is gone; job 2 lists it.  The record of job 3 lists it
too, but has a het job id without an offset. -/

private def movedReconciler : Reconciler := .withoutGroups "slurm-bridge"

private def movedPod : Pod :=
  { Pod.waiting (.of "ns" (.refl true)) (.of "a" (.refl true)) (.of "u" (.refl true)) "slurm-bridge" with
    labels := (∅ : StringMap).insert labelExternalJobId "1" }

private def movedRecord (id : Int) (hetJobId : Option NoVal) : JobInfo where
  jobId := some id
  nodes := none
  jobState := some [.pending]
  priority := none
  hetJobId := hetJobId
  hetJobOffset := none
  adminComment := (ExternalJobInfo.mk ["ns/a/u"] none none).toComment

private def target : JobInfo := movedRecord 2 none

private def malformed : JobInfo := movedRecord 3 (some ⟨some true, some 3⟩)

private def answerMoved (content : List JobInfo) : (c : Command) → c.Reply
  | .read _ (.pod _ _) => (.ok movedPod : Except KubeError Pod)
  | .jobsByIndex _ _ => (.ok content : Except SlurmError (List JobInfo))
  | .getJob _ key =>
    (if key = "2" then .ok target else .error .notFound : Except SlurmError JobInfo)
  | .patchPod _ _ => (.ok () : Except KubeError Unit)
  | c => c.refuse

private def movedPass (content : List JobInfo) : Trace surroundings :=
  traceOf (answerMoved content) (reconcilePodMetadata movedReconciler ⟨"ns", "a"⟩).run

private theorem movedPass_run (content : List JobInfo) :
    Exec (reconcilePodMetadata movedReconciler ⟨"ns", "a"⟩).run (movedPass content)
      (eval (answerMoved content) (reconcilePodMetadata movedReconciler ⟨"ns", "a"⟩).run) :=
  exec_traceOf _ _

/-- With one record of the Pod, the label moves from the job that is gone. -/
theorem metadata_repair_safe_moved :
    ∃ id raw, (podWithMetadata movedPod (externalJobState target) false).label labelExternalJobId = itoa id ∧
      id ≠ labeledJob movedPod ∧ ReadGone ((movedPass [target]).take 4) (labeledJob movedPod) ∧
      ReadLive ((movedPass [target]).take 4) id raw ∧ raw.key = id ∧ isFinishedJob raw = false ∧
      (podKey movedPod ∈ jobPodKeys raw ∨ movedPod.namespacedName ∈ jobPodKeys raw) :=
  (metadata_repair_safe (movedPass_run [target])).1 _ movedPod
    (podWithMetadata movedPod (externalJobState target) false) (.ok () : Except KubeError Unit) [] rfl
    (by decide) (by decide)

private theorem movedPass_malformed : movedPass [target, malformed] =
    [⟨.read .cached (.pod "ns" "a"), (.ok movedPod : Except KubeError Pod)⟩,
      ⟨.jobsByIndex .pod "ns/a/u", (.ok [target, malformed] : Except SlurmError (List JobInfo))⟩,
      ⟨.getJob .live "1", (.error .notFound : Except SlurmError JobInfo)⟩,
      ⟨.getJob .live "2", (.ok target : Except SlurmError JobInfo)⟩,
      ⟨.patchPod movedPod (podWithMetadata movedPod (externalJobState target) false),
        (.ok () : Except KubeError Unit)⟩] := rfl

/-- A malformed record of an unfinished job does not keep the label in place. -/
theorem metadata_moved_past_malformed :
    (∃ out, Exec (reconcilePodMetadata movedReconciler ⟨"ns", "a"⟩).run (movedPass [target, malformed]) out) ∧
      (∀ e ∈ movedPass [target, malformed], Serves [target, malformed] e) ∧
      podKey movedPod ∈ jobPodKeys target ∧ isFinishedJob target = false ∧
      podKey movedPod ∈ jobPodKeys malformed ∧ isFinishedJob malformed = false ∧
      ∃ updated reply, ⟨.patchPod movedPod updated, reply⟩ ∈ movedPass [target, malformed] ∧
        updated.label labelExternalJobId = "2" ∧ movedPod.label labelExternalJobId = "1" := by
  refine ⟨⟨_, movedPass_run _⟩, ?_, by decide, by decide, by decide, by decide,
    podWithMetadata movedPod (externalJobState target) false, (.ok () : Except KubeError Unit), ?_, by decide, by decide⟩
  · rw [movedPass_malformed]
    simp only [forall_mem_cons, not_mem_nil, false_imp_iff, implies_true, and_true]
    exact ⟨trivial, .refl _, trivial, trivial, trivial⟩
  · rw [movedPass_malformed]
    exact mem_of_getElem? (i := 4) rfl

end SlurmBridge.Registration.MetadataRepair
