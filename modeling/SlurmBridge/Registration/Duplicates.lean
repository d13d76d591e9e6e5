/- source: internal/controller/registration/duplicates.go
   digest: Grouping of unfinished jobs by owner, the choice of the surviving allocation, and
     the cancellation of duplicates. -/

import Mathlib.Data.List.AList
import SlurmBridge.Registration.Interface

set_option autoImplicit false

namespace SlurmBridge.Registration.Duplicates

open Foundation.Interaction Slurm.Ownership Slurm.Job Registration.Interface
open Kube.Reads (Err)

abbrev Allocations := AList (fun _ : Int => List JobInfo)

abbrev Groups := AList (fun _ : String => Allocations)

def Groups.at (groups : Groups) (key : String) : Allocations := (groups.lookup key).getD ∅

def Allocations.at (allocations : Allocations) (id : Int) : List JobInfo :=
  (allocations.lookup id).getD []

def Groups.add (groups : Groups) (key : String) (id : Int) (job : JobInfo) : Groups :=
  groups.insert key ((groups.at key).insert id (Allocations.at (groups.at key) id ++ [job]))

/-- A record without group metadata, set aside until every group's Pods are known. -/
structure LegacyAllocation where
  job : JobInfo
  id : Int
  pods : List String

/-- The variables of the grouping loop.  `owners` gives the groups that name a Pod key. -/
structure Grouping where
  groups : Groups
  owners : String → List String
  legacy : List LegacyAllocation

/-- Both spellings under which a recorded Pod key is looked up. -/
def podKeyForms (key : String) : List String := [key, (parsePodKey key).namespacedName]

def insertOwner (owners : String → List String) (podForm group : String) : String → List String :=
  Function.update owners podForm ((owners podForm).insert group)

def groupRecord (state : Grouping) (raw : JobInfo) : Grouping :=
  match fromJobInfo raw with
  | .error _ => state
  | .ok job =>
    if job.finished then
      state
    else
      match parseIntoExternalJobInfo raw.adminComment with
      | none => state
      | some info =>
        match info.compositePodGroup, info.podGroup with
        | some composite, _ =>
          { state with groups := state.groups.add composite.key job.allocationID raw }
        | none, some group =>
          { state with
            groups := state.groups.add group.key job.allocationID raw
            owners := (info.pods.flatMap podKeyForms).foldl
              (fun owners form => insertOwner owners form group.key) state.owners }
        | none, none =>
          { state with legacy := state.legacy ++ [⟨raw, job.allocationID, info.pods⟩] }

/-- A legacy record joins a group only when its Pods identify exactly one. -/
def groupLegacy (owners : String → List String) (groups : Groups) (old : LegacyAllocation) : Groups :=
  match old.pods.foldl (fun found pod => found ∪ owners pod) [] with
  | [key] => groups.add key old.id old.job
  | _ => old.pods.foldl (fun groups pod => groups.add ("pod/" ++ pod) old.id old.job) groups

def groupAllocations (jobs : List JobInfo) : Groups :=
  let state := jobs.foldl groupRecord ⟨∅, fun _ => [], []⟩
  state.legacy.foldl (groupLegacy state.owners) state.groups

/-- The three running minima of the survivor loop; zero means none yet. -/
structure Survivors where
  keep : Int
  released : Int
  lowest : Int

def startedStates : List JobState := [.running, .suspended, .completing]

def survivingComponent (id : Int) (best : Survivors) (job : JobInfo) : Except String Survivors :=
  match fromJobInfo job with
  | .error text => .error text
  | .ok current =>
    let keep :=
      if job.hasAnyState startedStates && (best.keep == 0 || decide (id < best.keep)) then id
      else best.keep
    let released :=
      if current.pending && !current.held && (best.released == 0 || decide (id < best.released)) then id
      else best.released
    .ok { best with keep, released }

def survivingEntry (best : Survivors) (entry : Σ _ : Int, List JobInfo) : Except String Survivors :=
  let lowest := if best.lowest == 0 || decide (entry.1 < best.lowest) then entry.1 else best.lowest
  entry.2.foldlM (survivingComponent entry.1) { best with lowest }

/-- Pick the allocation to keep, visiting the map in the given order. -/
def survivingAllocation (active : List (Σ _ : Int, List JobInfo)) : Except String Int :=
  match active.foldlM survivingEntry ⟨0, 0, 0⟩ with
  | .error text => .error text
  | .ok best =>
    .ok (if best.keep ≠ 0 then best.keep else if best.released ≠ 0 then best.released
      else best.lowest)

def liveComponents (cached : List JobInfo) : Ctl (Except Err (List JobInfo)) := do
  let out ← loop (fun (live : List JobInfo) (job : JobInfo) => do
    match ← perform (.getJob .live (itoa job.key)) with
    | .error .notFound => pure (.next live)
    | .error e => pure (Flow.stop e.toErr)
    | .ok raw =>
      if itoa raw.key ≠ itoa job.key then
        pure (.stop (.text ("slurm returned job " ++ itoa raw.key ++ " for " ++ itoa job.key)))
      else
        pure (.next (live ++ [raw]))) cached []
  match out with
  | .next live => pure (.ok live)
  | .stop e => pure (.error e)

/-- Cancel every visited allocation but the survivor and those already canceled.  Returns the
canceled ids and the errors. -/
def cancelDuplicates (keep : Int) (ids : List Int) (canceled : List Int) : Ctl (List Int × List Err) :=
  ids.foldlM (fun (state : List Int × List Err) id => do
    if id = keep ∨ id ∈ state.1 then
      pure state
    else
      match ← perform (.deleteJob id) with
      | .error (.other number text) =>
        pure (state.1, state.2 ++ [.slurm number ("cancel duplicate allocation " ++ itoa id ++ ": " ++ text)])
      | _ => pure (state.1 ++ [id], state.2)) (canceled, [])

/-- Resolve the conflict of one key.  Ownership is rebuilt from the live records. -/
def cleanAllocationConflict (key : String) (allocations : Allocations) (canceled : List Int) :
    Ctl (List Int × List Err) := do
  let visited ← rangeMap allocations.entries
  match ← liveComponents (visited.flatMap fun entry => entry.2) with
  | .error e => pure (canceled, [e])
  | .ok live =>
    let active := (groupAllocations live).at key
    if active.entries.length < 2 then
      pure (canceled, [])
    else do
      match survivingAllocation (← rangeMap active.entries) with
      | .error text => pure (canceled, [.text text])
      | .ok keep => cancelDuplicates keep (← rangeMap active.keys) canceled

/-- One iteration over the groups: those that were not requested or have no conflict are left. -/
def cleanGroup (keys : List String) (state : List Int × List Err)
    (group : Σ _ : String, Allocations) : Ctl (List Int × List Err) := do
  if group.1 ∉ keys ∨ group.2.entries.length < 2 then
    pure state
  else do
    let (canceled, errs) ← cleanAllocationConflict group.1 group.2 state.1
    pure (canceled, state.2 ++ errs)

def cleanDuplicateAllocations (keys : List String) : Ctl (List Err) := do
  match ← perform (.listJobs .cached) with
  | .error e => pure [e.toErr]
  | .ok jobs => do
      let groups ← rangeMap (groupAllocations jobs).entries
      let (_, errs) ← groups.foldlM (cleanGroup keys) ([], [])
      pure errs

end SlurmBridge.Registration.Duplicates
