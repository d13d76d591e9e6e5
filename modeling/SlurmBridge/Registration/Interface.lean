/- source: internal/controller/registration/keys.go, membership.go, events.go
   digest: Allocation keys and everything the registration controller does to its
     surroundings: Kubernetes reads and writes, Slurm reads and writes, the cooldown
     memo, queue insertions, and the order in which Go iterates over a map. -/

import Mathlib.Logic.Equiv.Fin.Basic
import Mathlib.Data.List.FinRange
import Mathlib.Data.List.NodupEquivFin
import SlurmBridge.JobIR.Translate
import SlurmBridge.Slurm.Allocation

set_option autoImplicit false

namespace SlurmBridge.Registration.Interface

open Foundation.Interaction Kube.Objects Kube.Reads JobIR.IR Slurm.Job
open JobIR.Translate (Read)
open Slurm.Allocation (JobIndex)

structure Request where
  apiGroup : String
  kind : String
  ns : String
  name : String
  uid : String
  replicaHash : String
  deriving DecidableEq, Repr

/-- Whether a read is served by the informer cache or by the API server. -/
inductive Reader
  | cached
  | live
  deriving DecidableEq, Repr

inductive SlurmError
  | notFound
  | other (number : Option Int) (text : String)
  deriving DecidableEq, Repr

/-- How the raw cancellation of a heterogeneous component ends. -/
inductive ComponentReply
  | transport (text : String)
  | noResponse
  | response (status : Nat) (statusText : String) (body : Option (List String))
  deriving DecidableEq, Repr

/-- The Slurm error numbers that registration tells apart. -/
inductive SlurmErrorNumber
  | invalidPartitionName | invalidNodeCount | badTaskCount | invalidFeature | invalidAccount
  | invalidLicenses | invalidTimeLimit | invalidWCKey | invalidQOS | invalidGRES | invalidTRES
  | userIDInvalid | userIDUnknown
  | maxJobCount | accountingPolicy | partitionNotAvail | partitionDown
  | other (number : Int)
  deriving DecidableEq, Repr

/-- Error of a submission: whether nothing reached Slurm, and Slurm's error number. -/
structure SubmitError where
  notSubmitted : Bool
  number : Option SlurmErrorNumber
  text : String
  deriving DecidableEq, Repr

/-- The accepted leader id, zero when none was returned, and the error. -/
structure SubmitReply where
  id : Int
  error : Option SubmitError
  deriving DecidableEq, Repr

inductive Command
  | read (reader : Reader) (q : Query)
  | enqueue (key : Request)
  | informerSynced
  /-- Cached jobs under one index key. -/
  | jobsByIndex (index : JobIndex) (key : String)
  | listJobs (reader : Reader)
  | getJob (reader : Reader) (key : String)
  | deleteJob (id : Int)
  | deleteComponent (hetJobId hetJobOffset : Int)
  | registerJob (ir : SlurmJobIR)
  | recentGet (key : Request)
  | recentSet (key : Request) (id : Int)
  | recentDelete (key : Request)
  /-- Patch a Pod under an optimistic lock on the version that was read. -/
  | patchPod (read updated : Pod)
  | deletePod (pod : Pod)
  | listClaims (ns podUID : String)
  | getClaim (ns name : String)
  | deleteClaim (claim : ResourceClaim)
  | event (key : Request) (reason message : String)
  | clearEvent (key : Request)
  /-- The order in which Go visits the entries of a map with so many of them. -/
  | mapOrder (entries : Nat)

@[reducible] def Command.Reply : Command → Type
  | .read _ q => q.Reply
  | .enqueue _ => Unit
  | .informerSynced => Except Err Bool
  | .jobsByIndex _ _ => Except SlurmError (List JobInfo)
  | .listJobs _ => Except SlurmError (List JobInfo)
  | .getJob _ _ => Except SlurmError JobInfo
  | .deleteJob _ => Except SlurmError Unit
  | .deleteComponent _ _ => ComponentReply
  | .registerJob _ => SubmitReply
  | .recentGet _ => Option Int
  | .recentSet _ _ => Unit
  | .recentDelete _ => Unit
  | .patchPod _ _ => Except KubeError Unit
  | .deletePod _ => Except KubeError Unit
  | .listClaims _ _ => Except KubeError (List ResourceClaim)
  | .getClaim _ _ => Except KubeError ResourceClaim
  | .deleteClaim _ => Except KubeError Unit
  | .event _ _ _ => Unit
  | .clearEvent _ => Unit
  | .mapOrder entries => Equiv.Perm (Fin entries)

/-- The reply of surroundings in which every request fails, the memo is empty and maps are
visited as they are listed. -/
def Command.refuse : (c : Command) → c.Reply
  | .read _ q => q.refuse
  | .enqueue _ | .recentSet _ _ | .recentDelete _ | .event _ _ _ | .clearEvent _ => ()
  | .informerSynced => Except.error (.text "unavailable")
  | .jobsByIndex _ _ | .listJobs _ | .getJob _ _ | .deleteJob _ =>
    Except.error (.other none "unavailable")
  | .deleteComponent _ _ => ComponentReply.noResponse
  | .registerJob _ => SubmitReply.mk 0 (some ⟨true, none, "unavailable"⟩)
  | .recentGet _ => none
  | .patchPod _ _ | .deletePod _ | .listClaims _ _ | .getClaim _ _ | .deleteClaim _ =>
    Except.error (.other "unavailable")
  | .mapOrder entries => Equiv.refl (Fin entries)

abbrev surroundings : Interface := ⟨Command, Command.Reply⟩

abbrev Ctl := Prog surroundings

def perform (c : Command) : Ctl c.Reply := Prog.call (I := surroundings) c

variable {guard : Trace surroundings → Command → Prop} {h : Trace surroundings}

@[simp] theorem wp_perform (c : Command) (post : Trace surroundings → c.Reply → Prop) :
    wp guard (perform c) h post ↔ guard h c ∧ ∀ reply, post (h ++ [⟨c, reply⟩]) reply := Iff.rfl

variable {allowed : Trace surroundings → Event surroundings → Prop}

@[simp] theorem can_perform (c : Command) (post : Trace surroundings → c.Reply → Prop) :
    can allowed (perform c) h post ↔ ∃ reply, allowed h ⟨c, reply⟩ ∧ post (h ++ [⟨c, reply⟩]) reply := Iff.rfl

def rangeMap {α : Type} (entries : List α) : Ctl (List α) := do
  let order : Equiv.Perm (Fin entries.length) ← perform (.mapOrder entries.length)
  pure (List.ofFn fun i => entries.get (order i))

/-- Members of a built-in PodGroup always come from the cache index. -/
def Reader.serving : Reader → Query → Reader
  | _, .podGroupMembers _ _ => .cached
  | reader, _ => reader

/-- Run a read-only program through one reader. -/
def through {α : Type} (reader : Reader) : ReadProg α → Ctl α
  | .ret a => .ret a
  | .step q next => .step (.read (reader.serving q) q) fun reply => through reader (next reply)

abbrev Fallible (α : Type) := ExceptT Err Ctl α

variable {α : Type}

theorem wp_run_perform {post : Trace surroundings → Except Err α → Prop} (c : Command)
    (f : c.Reply → Fallible α) :
    wp guard ((monadLift (perform c) : Fallible c.Reply) >>= f).run h post ↔
      guard h c ∧ ∀ reply, wp guard (f reply).run (h ++ [⟨c, reply⟩]) post := Iff.rfl

theorem delivers_perform (c : Command) :
    Delivers (I := surroundings) (fun t reply => t = [⟨c, reply⟩])
      (monadLift (perform c) : Fallible c.Reply) := by
  exact delivers_call (I := surroundings) c

def SlurmError.toErr : SlurmError → Err
  | .notFound => .slurm none "not found"
  | .other number text => .slurm number text

private theorem ofFn_order_perm (entries : List α) (order : Equiv.Perm (Fin entries.length)) :
    (List.ofFn fun i => entries.get (order i)).Perm entries := by
  have shuffled := Equiv.Perm.ofFn_comp_perm order entries.get
  rwa [List.ofFn_get] at shuffled

variable {post : Trace surroundings → List α → Prop} {entries : List α}

theorem wp_rangeMap (allowed : guard h (.mapOrder entries.length))
    (holds : ∀ visited, visited.Perm entries → ∀ order, post (h ++ [⟨.mapOrder entries.length, order⟩]) visited) :
    wp guard (rangeMap entries) h post := by
  refine ⟨allowed, fun order => ?_⟩
  exact holds _ (ofFn_order_perm entries order) order

variable {visited : List α}

private theorem exists_order (nodup : entries.Nodup) (perm : visited.Perm entries) :
    ∃ order : Equiv.Perm (Fin entries.length), (List.ofFn fun i => entries.get (order i)) = visited := by
  classical
  have nodup' : visited.Nodup := perm.nodup_iff.mpr nodup
  let order : Equiv.Perm (Fin entries.length) :=
    (finCongr perm.length_eq.symm).trans <| (nodup'.getEquiv visited).trans <|
      (Equiv.subtypeEquivRight fun _ => perm.mem_iff).trans (nodup.getEquiv entries).symm
  refine ⟨order, List.ext_getElem (by simp [perm.length_eq]) fun i inside inside' => ?_⟩
  rw [List.getElem_ofFn]
  exact congrArg Subtype.val ((nodup.getEquiv entries).apply_symm_apply _)

theorem can_rangeMap (nodup : entries.Nodup) (perm : visited.Perm entries)
    (ok : ∀ order, allowed h ⟨.mapOrder entries.length, order⟩)
    (holds : ∀ order, post (h ++ [⟨.mapOrder entries.length, order⟩]) visited) :
    can allowed (rangeMap entries) h post := by
  obtain ⟨order, arranged⟩ := exists_order nodup perm
  subst arranged
  exact ⟨order, ok order, holds order⟩

variable {allowed : Command → Prop}

theorem only_rangeMap (ok : allowed (.mapOrder entries.length)) : Only (I:= surroundings) allowed (rangeMap entries) :=
  only_ask ok fun _ => only_pure _

variable {t : Trace surroundings} {reader : Reader}

theorem only_through (ok : ∀ reader q, allowed (.read reader q)) (p : ReadProg α) :
    Only allowed (through reader p) := by
  induction p with
  | ret a => trivial
  | step q next ih => exact ⟨ok _ q, ih⟩

def Reader.event (reader : Reader) (e : Event kubeReads) : Event surroundings :=
  ⟨.read (reader.serving e.1) e.1, e.2⟩

theorem exec_through {p : ReadProg α} {a : α} (run : Exec (through reader p) t a) :
    ∃ t', t = t'.map reader.event ∧ Exec p t' a := by
  induction p generalizing t with
  | ret b =>
    cases run
    exact ⟨[], rfl, .ret a⟩
  | step q next ih =>
    cases run with
    | step _ _ reply t _ rest =>
      obtain ⟨t', same, inner⟩ := ih reply rest
      exact ⟨⟨q, reply⟩ :: t', by rw [same]; rfl, .step q next reply t' a inner⟩

end SlurmBridge.Registration.Interface
