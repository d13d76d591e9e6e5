/- source: internal/controller/registration/pod_metadata.go, pod_sync.go,
     slurmcontrol/slurmcontrol.go
   digest: Repair of a Pod's job linkage, deletion of bound Pods whose job is gone, and the
     release of a terminal Pod's claims and finalizer. -/

import SlurmBridge.Registration.Lookup
import SlurmBridge.Registration.Membership
import SlurmBridge.Slurm.Metadata

set_option autoImplicit false

namespace SlurmBridge.Registration.PodSync

open Kube.Objects Kube.Reads Slurm.Job Slurm.Metadata Registration.Interface Registration.Lookup
open Registration.Membership

structure NamespacedName where
  ns : String
  name : String
  deriving DecidableEq, Repr

def cachedPod (req : NamespacedName) : Fallible (Option Pod) := do
  match ← (perform (.read .cached (.pod req.ns req.name)) : Ctl (Except KubeError Pod)) with
  | .error .notFound => return none
  | .error e => throw (.kube e)
  | .ok pod => return some pod

/-- Repair the job linkage of a Pod before cleanup can act on it.  Returns whether the Pod was
patched. -/
def reconcilePodMetadata (r : Reconciler) (req : NamespacedName) : Fallible Bool := do
  match ← cachedPod req with
  | none => return false
  | some pod =>
    if pod.schedulerName ≠ r.schedulerName ∨ pod.deleting ∨ isPodTerminal pod then
      return false
    let candidates ← getJobsForPods [pod]
    match jobForPod candidates pod with
    | none => return false
    | some job =>
      if podWithMetadata pod job false = pod then
        return false
      -- Only a proposed repair needs live ownership and allocation verification.
      let verified ← verifyJobsForPods candidates [pod]
      match jobForPod verified pod with
      | none => return false
      | some job =>
        let toUpdate := podWithMetadata pod job false
        if toUpdate = pod then
          return false
        match ← (perform (.patchPod pod toUpdate) : Ctl (Except KubeError Unit)) with
        | .error .notFound => return false
        | .error e => throw (.kube e)
        | .ok () => return true

/-- Whether the Pod's job runs.  Only a live read may deny it. -/
def isJobRunning (pod : Pod) : Fallible Bool := do
  let key := pod.label labelExternalJobId
  if key = "" then
    return false
  let cached ← (perform (.getJob .cached key) : Ctl (Except SlurmError JobInfo))
  match cached with
  | .error (.other number text) => throw (.slurm number text)
  | _ =>
    if (cached.toOption.map fun job => job.hasState .running) = some true then
      return true
    match ← (perform (.getJob .live key) : Ctl (Except SlurmError JobInfo)) with
    | .error .notFound => return false
    | .error e => throw e.toErr
    | .ok job =>
      if itoa job.key ≠ key then
        throw (.text ("slurm returned job " ++ itoa job.key ++ " when requesting job " ++ key))
      return job.hasState .running

/-- Delete a bound Pod without a running job. -/
def syncKubernetes (r : Reconciler) (req : NamespacedName) : Fallible Unit := do
  match ← cachedPod req with
  | none => return ()
  | some pod =>
    if pod.schedulerName ≠ r.schedulerName ∨ podReadyForCleanup pod ∨ pod.nodeName = "" then
      return ()
    if ← isJobRunning pod then
      return ()
    match ← (perform (.deletePod pod) : Ctl (Except KubeError Unit)) with
    | .error e => throw (.kube e)
    | .ok () => return ()

/-- A successful repair must be observed by the cache before cleanup proceeds. -/
def syncPod (r : Reconciler) (req : NamespacedName) : Fallible Bool := do
  if ← reconcilePodMetadata r req then
    return true
  syncKubernetes r req
  return false

def deleteClaim (claim : ResourceClaim) : Fallible Unit := do
  match ← (perform (.deleteClaim claim) : Ctl (Except KubeError Unit)) with
  | .error .notFound => return ()
  | .error e => throw (.kube e)
  | .ok () => return ()

def ownedByPod (pod : Pod) (claim : ResourceClaim) : Bool :=
  claim.ownerReferences.any fun owner => owner.typeMeta.kind == "Pod" && owner.uid == pod.uid.text

def deleteExtendedResourceClaim (pod : Pod) : Fallible Unit :=
  match pod.extendedResourceClaim with
  | none => return ()
  | some name =>
    if name = "" then
      return ()
    else do
      match ← (perform (.getClaim pod.ns name) : Ctl (Except KubeError ResourceClaim)) with
      | .error .notFound => return ()
      | .error e => throw (.kube e)
      | .ok claim => deleteClaim claim

def dropFinalizer (pod : Pod) : Pod :=
  { pod with finalizers := pod.finalizers.filter fun f => f != finalizerScheduler }

def removeFinalizer (pod : Pod) : Fallible Unit :=
  if (dropFinalizer pod).finalizers.length = pod.finalizers.length then
    return ()
  else do
    match ← (perform (.patchPod pod (dropFinalizer pod)) : Ctl (Except KubeError Unit)) with
    | .error .notFound => return ()
    | .error e => throw (.kube e)
    | .ok () => return ()

/-- Delete the claims of a Pod that is ready for cleanup, then remove its finalizer. -/
def finalizePod (pod : Pod) : Fallible Unit := do
  match ← (perform (.listClaims pod.ns pod.uid) : Ctl (Except KubeError (List ResourceClaim))) with
  | .error e => throw (.kube e)
  | .ok claims =>
    (claims.filter (ownedByPod pod)).foldlM (fun _ claim => deleteClaim claim) ()
    deleteExtendedResourceClaim pod
    removeFinalizer pod

/-- Finalize a terminal Pod unless it changed meanwhile.  To be called only after the release of
its allocations is confirmed. -/
def prepareTerminalPod (expected : Pod) : Fallible Unit := do
  match ← (perform (.read .live (.pod expected.ns expected.name)) : Ctl (Except KubeError Pod)) with
  | .error .notFound => return ()
  | .error e => throw (.kube e)
  | .ok pod =>
    if pod.uid ≠ expected.uid ∨ pod.resourceVersion ≠ expected.resourceVersion then
      throw (.text ("pod changed before finalization: " ++ expected.namespacedName))
    else if !podReadyForCleanup pod then
      return ()
    else
      finalizePod pod

end SlurmBridge.Registration.PodSync
