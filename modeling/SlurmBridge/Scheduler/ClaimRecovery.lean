/- source: internal/scheduler/plugins/slurmbridge/dra.go, dra_recovery.go
   digest: The claim on devices that a Pod gets for its Slurm allocation.  Attempts that fail before or
     after a write took effect are repeated; the first decision about devices stays. -/

import SlurmBridge.Foundation.Serial
import SlurmBridge.JobIR.Resources

set_option autoImplicit false

namespace SlurmBridge.Scheduler.ClaimRecovery

open Foundation.Text Foundation.Interaction Foundation.Serial Kube.Objects Kube.Reads
open Kube.PodResources
open JobIR.Resources (resourceDeviceClassPrefix)
open Inventory.Devices (Quantity)
open Inventory.Allocation (DeviceRequestAllocationResult DeviceClaimConfiguration)
open Relation (ReflTransGen)
open Option
open Function

structure GresLayout where
  count : Int
  index : String
  name : String
  type : String
  deriving DecidableEq

/-- What Slurm allocated on a node.  A missing list of generic resources differs from an empty one. -/
structure NodeResources where
  node : String
  nodeExtra : String
  socketsPerNode : Int
  coresPerSocket : Int
  memAlloc : Int
  coreBitmap : String
  channel : Int
  gres : Option (List GresLayout)
  deriving DecidableEq

structure Claimant where
  pod : Pod
  needs : PodNeeds

def Claimant.job (p : Claimant) : String := p.pod.label labelExternalJobId

/-- What identifies an allocation, as it is written before it is hashed. -/
structure AllocationIdentity where
  pod : String
  job : String
  node : String
  resources : Option NodeResources
  deriving DecidableEq

/-- The hashes of names and of identities.  Different identities have different hashes. -/
structure Digests (Hash : Type) where
  name : String → String
  identity : AllocationIdentity → Hash
  injective : Function.Injective identity

structure DeviceRequest where
  name : String
  deviceClassName : String
  count : Int
  selectors : List String
  capacity : Option Quantity
  deriving DecidableEq

structure ClaimSpec where
  requests : List DeviceRequest
  config : List DeviceClaimConfiguration
  deriving DecidableEq

inductive AllocationConfiguration
  | ofClass (requests : List String) (parameters : String)
  | ofClaim (config : DeviceClaimConfiguration)
  deriving DecidableEq

structure AllocationResult where
  timestamp : Nat
  results : List DeviceRequestAllocationResult
  config : List AllocationConfiguration
  nodes : List String
  deriving DecidableEq

structure ConsumerReference where
  name : String
  uid : String
  deriving DecidableEq

structure Claim (Hash : Type) where
  ns : String
  name : String
  podUID : String
  ownerReferences : List OwnerReference
  identity : Option Hash
  deleting : Bool
  spec : ClaimSpec
  allocation : Option AllocationResult
  reservedFor : List ConsumerReference
  deriving DecidableEq

/-- The request of a claim that serves an extended resource of a container. -/
structure RequestMapping where
  containerName : String
  requestName : String
  resourceName : String
  deriving DecidableEq

/-- What a Pod's status says about its claim. -/
structure ExtendedResourceClaimStatus where
  requestMappings : List RequestMapping
  resourceClaimName : String
  deriving DecidableEq

/-- What is worked out from the Slurm allocation and the inventory: the requests of the claim, the driver's
parameters, and how the requests are to be satisfied. -/
structure Decision where
  spec : ClaimSpec
  devices : List DeviceRequestAllocationResult
  deriving DecidableEq

/-- One attempt to provide a Pod with its claim. -/
structure Attempt where
  claimant : Claimant
  nodeName : String
  resources : Option NodeResources

section
variable {Hash : Type}

inductive Command (Hash : Type)
  | getClaim (ns name : String)
  | createClaim (claim : Claim Hash)
  | patchClaimStatus (claim updated : Claim Hash)
  | patchPodStatus (claimant : Claimant) (status : ExtendedResourceClaimStatus)
  /-- Work out the requests from DeviceClasses, inventory and the Slurm allocation. -/
  | decide (claimant : Claimant) (nodeName : String) (resources : NodeResources)
  /-- Look up the devices, the class configurations and the time for a claim. -/
  | results (claim : Claim Hash) (decision : Decision)

@[reducible] def Command.Reply : Command Hash → Type
  | .getClaim _ _ => Except KubeError (Claim Hash)
  | .createClaim _ => Except KubeError Unit
  | .patchClaimStatus _ _ => Except KubeError Unit
  | .patchPodStatus _ _ => Except KubeError Unit
  | .decide _ _ _ => Except Err (Option Decision)
  | .results _ _ => Except Err (List AllocationConfiguration × List DeviceRequestAllocationResult × Nat)

abbrev surroundings (Hash : Type) : Interface := ⟨Command Hash, Command.Reply⟩

abbrev Ctl (Hash α : Type) := ExceptT Err (Prog (surroundings Hash)) α

def request {α : Type} (p : Prog (surroundings Hash) (Except KubeError α)) : Ctl Hash α :=
  ExceptT.mk (p >>= fun reply => pure (reply.mapError .kube))

def perform (c : Command Hash) : Prog (surroundings Hash) c.Reply := Prog.call (I := surroundings Hash) c

variable (digests : Digests Hash)

def allocationClaimName (p : Claimant) : String :=
  "slurm-bridge-" ++ digests.name (p.pod.uid.text ++ "/" ++ p.job)

/-- The inventory in the node's extra may change during a retry and is not part of the identity. -/
def allocationIdentity (p : Claimant) (node : String) (resources : NodeResources) : Hash :=
  digests.identity ⟨p.pod.uid.text, p.job, node, some { resources with nodeExtra := "" }⟩

def ownedBy (p : Claimant) (claim : Claim Hash) : Bool :=
  claim.ownerReferences.any fun ref =>
    ref.typeMeta.kind == "Pod" && ref.uid == p.pod.uid.text && ref.name == p.pod.name.text && ref.controller

variable [DecidableEq Hash]

def validateClaimIdentity (claim : Claim Hash) (p : Claimant) (node : String) (resources : NodeResources) :
    Except Err Unit :=
  if claim.deleting then
    .error (.text ("allocation claim " ++ claim.name.quote ++ " is still being cleaned up"))
  else if ownedBy p claim = false ∨ claim.identity ≠ some (allocationIdentity digests p node resources) then
    .error (.text ("claim " ++ claim.name.quote ++
      " belongs to a different Slurm allocation; coordinated cleanup is required"))
  else
    match claim.allocation with
    | none => .ok ()
    | some allocation =>
      if claim.reservedFor.map ConsumerReference.uid ≠ [p.pod.uid.text] then
        .error (.text ("claim " ++ claim.name.quote ++ " has an unexpected consumer reservation"))
      else if allocation.nodes ≠ [node] then
        .error (.text ("claim " ++ claim.name.quote ++ " is allocated to a different node"))
      else
        .ok ()

/-- The requests that serve the extended resources of each container. -/
def createContainerRequestMappings (p : Claimant) (requests : List DeviceRequest) : List RequestMapping :=
  (p.needs.initContainers ++ p.needs.containers).flatMap fun container =>
    (container.requests.keys.insertionSort (· ≤ ·)).flatMap fun resourceName =>
      if value ((container.requests.lookup resourceName).getD 0) ≤ 0 then
        []
      else
        match after? resourceDeviceClassPrefix resourceName with
        | none => []
        | some className => (requests.filter (·.deviceClassName == className)).map fun request =>
          ⟨container.name, request.name, resourceName⟩

def claimFor (p : Claimant) (node : String) (resources : NodeResources) (spec : ClaimSpec) : Claim Hash where
  ns := p.pod.ns.text
  name := allocationClaimName digests p
  podUID := p.pod.uid.text
  ownerReferences := [⟨⟨"", "v1", "Pod"⟩, p.pod.name.text, p.pod.uid.text, true⟩]
  identity := some (allocationIdentity digests p node resources)
  deleting := false
  spec := spec
  allocation := none
  reservedFor := []

/-- The claim that the Slurm allocation calls for, if it calls for one. -/
def createRequestsAndMappings (p : Claimant) (node : String) (resources : NodeResources) :
    Ctl Hash (Option (Claim Hash × List RequestMapping × Decision)) := do
  match ← ExceptT.mk (perform (.decide p node resources)) with
  | none => return none
  | some decision =>
    let mappings := createContainerRequestMappings p decision.spec.requests
    if decision.spec.requests = [] ∨ mappings = [] then
      return none
    return some (claimFor digests p node resources decision.spec, mappings, decision)

def allocated (claim : Claim Hash) (p : Claimant) (node : String)
    (found : List AllocationConfiguration × List DeviceRequestAllocationResult × Nat) : Claim Hash :=
  { claim with
    allocation := some ⟨found.2.2, found.2.1, found.1 ++ claim.spec.config.map .ofClaim, [node]⟩
    reservedFor := [⟨p.pod.name.text, p.pod.uid.text⟩] }

def bindClaim (claim : Claim Hash) (p : Claimant) (node : String) (decision : Decision) : Ctl Hash (Claim Hash) := do
  let found ← ExceptT.mk (perform (.results claim decision))
  request (perform (.patchClaimStatus claim (allocated claim p node found)))
  request (perform (.getClaim claim.ns claim.name))

def patchPodExtendedResourceClaimStatus (p : Claimant) (claim : Claim Hash) (mappings : List RequestMapping) :
    Ctl Hash Unit :=
  if mappings = [] then
    throw (.text ("nil or empty request mappings, no update of pod " ++ p.pod.namespacedName ++
      " ExtendedResourceClaimStatus"))
  else
    request (perform (.patchPodStatus p ⟨mappings, claim.name⟩))

/-- Find out whether the claim is there; it is checked against the attempt. -/
def recoverClaim (p : Claimant) (node : String) (resources : NodeResources) : Ctl Hash (Option (Claim Hash)) := do
  match ← (perform (.getClaim p.pod.ns.text (allocationClaimName digests p)) : Prog (surroundings Hash) _) with
  | .error .notFound => return none
  | .error e => throw (.kube e)
  | .ok existing => do
      validateClaimIdentity digests existing p node resources
      return some existing

/-- Create the claim unless a partial one is there that asks for the same. -/
def ensureClaim (existing : Option (Claim Hash)) (claim : Claim Hash) : Ctl Hash (Claim Hash) :=
  match existing with
  | some existing =>
    if existing.spec ≠ claim.spec then
      throw (.text ("existing claim " ++ existing.name.quote ++ " differs from Slurm allocation"))
    else
      return existing
  | none => do
      request (perform (.createClaim claim))
      return claim

def completeClaim (existing : Option (Claim Hash)) (p : Claimant) (node : String) (resources : NodeResources) :
    Ctl Hash Unit := do
  match ← createRequestsAndMappings digests p node resources with
  | none => return ()
  | some (claim, mappings, decision) =>
    let claim ← ensureClaim existing claim
    -- A partial claim stays for the next attempt.
    let claim ← bindClaim claim p node decision
    patchPodExtendedResourceClaimStatus p claim mappings

/-- Provide a Pod with the claim for its Slurm allocation, or go on where an earlier attempt ended. -/
def manageResourceClaim (a : Attempt) : Ctl Hash Unit :=
  match a.resources with
  | none => return ()
  | some resources =>
    if a.claimant.pod.uid.text = "" then
      throw (.text "pod UID is required for allocation recovery")
    else do
      match ← recoverClaim digests a.claimant a.nodeName resources with
      | none => completeClaim digests none a.claimant a.nodeName resources
      | some existing =>
        match existing.allocation with
        | some _ =>
          patchPodExtendedResourceClaimStatus a.claimant existing
            (createContainerRequestMappings a.claimant existing.spec.requests)
        | none => completeClaim digests (some existing) a.claimant a.nodeName resources

end

abbrev Key := String × String

def Claim.key {Hash : Type} (claim : Claim Hash) : Key := (claim.ns, claim.name)

/-- The claims and the Pods of a cluster, and which attempt created a claim. -/
structure World (Hash : Type) where
  claims : Key → Option (Claim Hash)
  pods : String → Option ExtendedResourceClaimStatus
  origin : Key → Option Attempt
  keyed : ∀ key claim, claims key = some claim → claim.key = key

namespace World

variable {Hash : Type}

def put (w : World Hash) (claim : Claim Hash) : World Hash where
  claims := Function.update w.claims claim.key (some claim)
  pods := w.pods
  origin := w.origin
  keyed := by
    intro key stored found
    by_cases own : key = claim.key
    · subst own
      rw [update_self] at found
      rw [← some.inj found]
    · rw [update_of_ne own] at found
      exact w.keyed key stored found

def create (w : World Hash) (a : Attempt) (claim : Claim Hash) : World Hash :=
  { w.put claim with origin := Function.update w.origin claim.key (some a) }

def link (w : World Hash) (uid : String) (status : ExtendedResourceClaimStatus) : World Hash :=
  { w with pods := Function.update w.pods uid (some status) }

/-- The status of one claim, everything else of another. -/
def withStatus (stored updated : Claim Hash) : Claim Hash :=
  { stored with allocation := updated.allocation, reservedFor := updated.reservedFor }

end World

section
variable {Hash : Type}

/-- The replies to an attempt.  A read tells the state or fails; a write fails before or after it took effect,
or succeeds. -/
def respond (a : Attempt) : Responds (surroundings Hash) (World Hash)
  | .getClaim ns name, reply, w, w' => w' = w ∧
      ((∃ claim, w.claims (ns, name) = some claim ∧ reply = .ok claim) ∨
        (w.claims (ns, name) = none ∧ reply = .error .notFound) ∨ ∃ e, e ≠ .notFound ∧ reply = .error e)
  | .createClaim claim, reply, w, w' =>
    (w' = w ∧ ∃ e, reply = .error e) ∨ (w.claims claim.key = none ∧ w' = w.create a claim)
  | .patchClaimStatus _ updated, reply, w, w' =>
    (w' = w ∧ ∃ e, reply = .error e) ∨
      ∃ stored, w.claims updated.key = some stored ∧ w' = w.put (World.withStatus stored updated)
  | .patchPodStatus p status, reply, w, w' =>
    (w' = w ∧ ∃ e, reply = .error e) ∨ w' = w.link p.pod.uid.text status
  | .decide _ _ _, _, w, w' => w' = w
  | .results _ _, _, w, w' => w' = w

variable (digests : Digests Hash)

def keyOf (a : Attempt) : Key := (a.claimant.pod.ns.text, allocationClaimName digests a.claimant)

/-- Each claim that an attempt created is there, under the key and with the identity of the attempt. -/
def Recorded (admitted : Attempt → Prop) (w : World Hash) : Prop :=
  ∀ key o, w.origin key = some o → admitted o ∧ key = keyOf digests o ∧
    ∃ resources claim, o.resources = some resources ∧ w.claims key = some claim ∧
      claim.identity = some (allocationIdentity digests o.claimant o.nodeName resources)

def Kept (w w' : World Hash) : Prop :=
  ∀ key claim, w.claims key = some claim → claim.allocation.isSome → w'.claims key = some claim

variable {digests} {admitted : Attempt → Prop} {a : Attempt} {w : World Hash}

theorem kept_refl (w : World Hash) : Kept w w := fun _ _ stored _ => stored

theorem kept_trans {w' w'' : World Hash} (first : Kept w w') (second : Kept w' w'') : Kept w w'' :=
  fun key claim stored some => second key claim (first key claim stored some) some

variable {claim : Claim Hash}

theorem kept_put (free : ∀ stored, w.claims claim.key = some stored → stored.allocation = none) :
    Kept w (w.put claim) := by
  intro key stored found some
  by_cases own : key = claim.key
  · subst own
    rw [free stored found] at some
    cases some
  · exact (update_of_ne own _ _).trans found

theorem kept_create (absent : w.claims claim.key = none) : Kept w (w.create a claim) := by
  have kept : Kept w (w.put claim) := kept_put fun stored found => by
    rw [absent] at found
    cases found
  exact fun key stored found some => kept key stored found some

theorem recorded_create (recorded : Recorded digests admitted w) (admits : admitted a) {resources : NodeResources}
    (allocation : a.resources = some resources) (spec : ClaimSpec) :
    Recorded digests admitted (w.create a (claimFor digests a.claimant a.nodeName resources spec)) := by
  intro key o made
  by_cases own : key = (claimFor digests a.claimant a.nodeName resources spec).key
  · subst own
    change Function.update w.origin _ _ _ = _ at made
    rw [update_self] at made
    obtain rfl := some.inj made
    exact ⟨admits, rfl, resources, _, allocation, update_self _ _ _, rfl⟩
  · change Function.update w.origin _ _ _ = _ at made
    rw [update_of_ne own] at made
    obtain ⟨known, same, r, claim, given, stored, identity⟩ := recorded key o made
    exact ⟨known, same, r, claim, given, (update_of_ne own _ _).trans stored, identity⟩

theorem recorded_put (recorded : Recorded digests admitted w) {stored updated : Claim Hash}
    (found : w.claims stored.key = some stored) :
    Recorded digests admitted (w.put (World.withStatus stored updated)) := by
  intro key o made
  obtain ⟨known, same, r, claim, given, there, identity⟩ := recorded key o made
  by_cases own : key = stored.key
  · subst own
    rw [found] at there
    obtain rfl := some.inj there
    exact ⟨known, same, r, _, given, update_self _ _ _, identity⟩
  · exact ⟨known, same, r, claim, given, (update_of_ne own _ _).trans there, identity⟩

/-- What each step of an attempt does to the cluster. -/
def Careful (digests : Digests Hash) (admitted : Attempt → Prop) (w w' : World Hash) : Prop :=
  Kept w w' ∧ Recorded digests admitted w'

theorem careful_refl (recorded : Recorded digests admitted w) : Careful digests admitted w w :=
  ⟨kept_refl w, recorded⟩

section
variable {rel : World Hash → World Hash → Prop}

theorem stays_request {α : Type} {p : Prog (surroundings Hash) (Except KubeError α)}
    {post : Except Err α → World Hash → Prop} :
    stays (respond a) rel (request p).run w post ↔
      stays (respond a) rel p w fun reply w' => post (reply.mapError .kube) w' := by
  unfold request
  rw [ExceptT.run_mk, stays_bind]
  rfl

variable {claim : Claim Hash} {resources : NodeResources} {existing : Option (Claim Hash)}

section
variable (recorded : Recorded digests admitted w)

include recorded

theorem patchPod_careful (claim : Claim Hash) (mappings : List RequestMapping) :
    stays (respond a) (Careful digests admitted) (patchPodExtendedResourceClaimStatus a.claimant claim mappings).run w
      fun _ _ => True := by
  unfold patchPodExtendedResourceClaimStatus
  split
  · trivial
  · rw [stays_request]
    rintro reply w' (⟨rfl, -⟩ | rfl)
    · exact ⟨careful_refl recorded, trivial⟩
    · exact ⟨⟨fun _ _ stored _ => stored, recorded⟩, trivial⟩

theorem bindClaim_careful (stored : w.claims claim.key = some claim)
    (free : claim.allocation = none) (decision : Decision) :
    stays (respond a) (Careful digests admitted) (bindClaim claim a.claimant a.nodeName decision).run w
      fun _ w' => Recorded digests admitted w' := by
  refine stays_run_bind (fun _ w' => w' = w) ?_ ?_
  · rintro reply w' rfl
    refine ⟨careful_refl recorded, ?_⟩
    cases reply with
    | error e => exact recorded
    | ok found => rfl
  · rintro found w rfl
    refine stays_run_bind (fun _ w' => Recorded digests admitted w') ?_ ?_
    · rw [stays_request]
      rintro reply w' (⟨rfl, e, rfl⟩ | ⟨known, there, rfl⟩)
      · exact ⟨careful_refl recorded, recorded⟩
      · change w.claims claim.key = some known at there
        rw [stored] at there
        obtain rfl := some.inj there
        have bound : Careful digests admitted w (w.put (World.withStatus claim (allocated claim a.claimant a.nodeName found))) := by
          refine ⟨kept_put fun other same => ?_, recorded_put recorded stored⟩
          change w.claims claim.key = some other at same
          rw [stored] at same
          exact some.inj same ▸ free
        refine ⟨bound, ?_⟩
        cases reply <;> exact bound.2
    · intro _ w' recorded'
      rintro reply w'' ⟨rfl, -⟩
      exact ⟨careful_refl recorded', recorded'⟩

theorem ensureClaim_careful (admits : admitted a)
    (given : a.resources = some resources) {spec : ClaimSpec} (there : w.claims (keyOf digests a) = existing)
    (free : ∀ claim, existing = some claim → claim.allocation = none) :
    stays (respond a) (Careful digests admitted)
      (ensureClaim existing (claimFor digests a.claimant a.nodeName resources spec)).run w
      fun out w' => Recorded digests admitted w' ∧
        ∀ claim, out = .ok claim → w'.claims claim.key = some claim ∧ claim.allocation = none := by
  unfold ensureClaim
  cases existing with
  | some existing =>
    dsimp only
    split
    · exact ⟨recorded, nofun⟩
    · refine ⟨recorded, ?_⟩
      rintro claim same
      obtain rfl := Except.ok.inj same
      exact ⟨(w.keyed _ _ there).symm ▸ there, free existing rfl⟩
  | none =>
    refine stays_run_bind (fun _ w' => w' = w.create a (claimFor digests a.claimant a.nodeName resources spec)) ?_ ?_
    · rw [stays_request]
      rintro reply w' (⟨rfl, e, rfl⟩ | ⟨absent, rfl⟩)
      · exact ⟨careful_refl recorded, recorded, nofun⟩
      · have made := recorded_create recorded admits given spec
        refine ⟨⟨kept_create absent, made⟩, ?_⟩
        cases reply with
        | error e => exact ⟨made, nofun⟩
        | ok _ => rfl
    · rintro _ w' rfl
      refine ⟨recorded_create recorded admits given spec, ?_⟩
      rintro claim same
      obtain rfl := Except.ok.inj same
      exact ⟨update_self _ _ _, rfl⟩

theorem completeClaim_careful (admits : admitted a)
    (given : a.resources = some resources) (there : w.claims (keyOf digests a) = existing)
    (free : ∀ claim, existing = some claim → claim.allocation = none) :
    stays (respond a) (Careful digests admitted) (completeClaim digests existing a.claimant a.nodeName resources).run w
      fun _ _ => True := by
  refine stays_run_bind (fun found w' => w' = w ∧ ∀ claim mappings decision, found = some (claim, mappings, decision) →
    claim = claimFor digests a.claimant a.nodeName resources claim.spec) ?_ ?_
  · unfold createRequestsAndMappings
    refine stays_run_bind (fun _ w' => w' = w) ?_ ?_
    · rintro reply w' rfl
      refine ⟨careful_refl recorded, ?_⟩
      cases reply <;> trivial
    · rintro found w' rfl
      cases found with
      | none => exact ⟨rfl, nofun⟩
      | some decision =>
        dsimp only
        split
        · exact ⟨rfl, nofun⟩
        · refine ⟨rfl, ?_⟩
          rintro claim mappings decision same
          cases same
          rfl
  · rintro found w' ⟨rfl, built⟩
    cases found with
    | none => trivial
    | some found =>
      obtain ⟨claim, mappings, decision⟩ := found
      have own := built claim mappings decision rfl
      rw [own]
      refine stays_run_bind (fun claim w'' => Recorded digests admitted w'' ∧ w''.claims claim.key = some claim ∧
        claim.allocation = none) ?_ ?_
      · refine stays_mono (ensureClaim_careful recorded admits given there free) ?_
        rintro out w'' ⟨recorded', known⟩
        cases out with
        | error e => trivial
        | ok claim => exact ⟨recorded', known claim rfl⟩
      · rintro claim w'' ⟨recorded', stored, unbound⟩
        refine stays_run_bind (fun _ w₃ => Recorded digests admitted w₃) ?_ fun bound w₃ recorded₃ =>
          patchPod_careful recorded₃ bound mappings
        refine stays_mono (bindClaim_careful recorded' stored unbound decision) ?_
        rintro out w₃ recorded₃
        cases out with
        | error e => trivial
        | ok bound => exact recorded₃

variable [DecidableEq Hash]

theorem recoverClaim_careful :
    stays (respond a) (Careful digests admitted) (recoverClaim digests a.claimant a.nodeName resources).run w
      fun out w' => w' = w ∧ ∀ existing, out = .ok existing → w.claims (keyOf digests a) = existing := by
  refine stays_run_bind (fun reply w' => w' = w ∧ ((∃ claim, w.claims (keyOf digests a) = some claim ∧ reply = .ok claim) ∨
    (w.claims (keyOf digests a) = none ∧ reply = .error .notFound) ∨ ∃ e, e ≠ .notFound ∧ reply = .error e)) ?_ ?_
  · rw [stays_run_lift]
    rintro reply w' ⟨rfl, told⟩
    exact ⟨careful_refl recorded, rfl, told⟩
  · rintro reply w' ⟨rfl, told⟩
    rcases told with ⟨claim, there, rfl⟩ | ⟨missing, rfl⟩ | ⟨e, other, rfl⟩
    · dsimp only
      cases validateClaimIdentity digests claim a.claimant a.nodeName resources with
      | error e => exact ⟨rfl, nofun⟩
      | ok _ =>
        refine ⟨rfl, ?_⟩
        rintro existing same
        rw [there]
        exact Except.ok.inj same
    · refine ⟨rfl, ?_⟩
      rintro existing same
      rw [missing]
      exact Except.ok.inj same
    · cases e with
      | notFound => exact absurd rfl other
      | forbidden => exact ⟨rfl, nofun⟩
      | other text => exact ⟨rfl, nofun⟩

theorem manageResourceClaim_careful (admits : admitted a) :
    stays (respond a) (Careful digests admitted) (manageResourceClaim digests a).run w fun _ _ => True := by
  unfold manageResourceClaim
  split
  · trivial
  · rename_i resources given
    split
    · trivial
    · refine stays_run_bind (fun existing w' => w' = w ∧ w.claims (keyOf digests a) = existing) ?_ ?_
      · refine stays_mono (recoverClaim_careful recorded) ?_
        rintro out w' ⟨same, known⟩
        cases out with
        | error e => trivial
        | ok existing => exact ⟨same, known existing rfl⟩
      · rintro existing w' ⟨rfl, there⟩
        cases existing with
        | none => exact completeClaim_careful recorded admits given there nofun
        | some existing =>
          dsimp only
          split
          · exact patchPod_careful recorded _ _
          · rename_i free
            refine completeClaim_careful recorded admits given there fun claim same => ?_
            rwa [← some.inj same]

end

variable [DecidableEq Hash]

theorem manageResourceClaim_refused {o : Attempt} {resources' : NodeResources}
    (given : a.resources = some resources') (there : w.claims (keyOf digests a) = some claim)
    (identity : claim.identity = some (allocationIdentity digests o.claimant o.nodeName resources))
    (differs : a.nodeName ≠ o.nodeName ∨ { resources' with nodeExtra := "" } ≠ { resources with nodeExtra := "" }) :
    stays (respond a) (fun w w' => w' = w) (manageResourceClaim digests a).run w
      fun out _ => ∃ e, out = .error e := by
  have other : claim.identity ≠ some (allocationIdentity digests a.claimant a.nodeName resources') := by
    rw [identity]
    intro same
    have equal := digests.injective (some.inj same)
    simp only [AllocationIdentity.mk.injEq, some.injEq] at equal
    rcases differs with node | layout
    · exact node equal.2.2.1.symm
    · exact layout equal.2.2.2.symm
  have refused : ∃ e, validateClaimIdentity digests claim a.claimant a.nodeName resources' = .error e := by
    unfold validateClaimIdentity
    split
    · exact ⟨_, rfl⟩
    · rw [if_pos (.inr other)]
      exact ⟨_, rfl⟩
  obtain ⟨e, refused⟩ := refused
  unfold manageResourceClaim
  rw [given]
  dsimp only
  split
  · exact ⟨_, rfl⟩
  · refine stays_run_bind (fun _ _ => False) ?_ fun _ _ no => no.elim
    refine stays_run_bind (fun reply w' => reply = .ok claim ∨ ∃ e, e ≠ .notFound ∧ reply = .error e) ?_ ?_
    · rw [stays_run_lift]
      rintro reply w' ⟨rfl, told⟩
      refine ⟨rfl, ?_⟩
      rcases told with ⟨known, found, rfl⟩ | ⟨missing, rfl⟩ | failed
      · exact .inl (congrArg _ (some.inj (found.symm.trans there)))
      · exact absurd (missing.symm.trans there) nofun
      · exact .inr failed
    · rintro reply w' (rfl | ⟨failure, known, rfl⟩)
      · dsimp only
        rw [refused]
        exact ⟨_, rfl⟩
      · cases failure with
        | notFound => exact absurd rfl known
        | forbidden => exact ⟨_, rfl⟩
        | other text => exact ⟨_, rfl⟩

end

end

section
variable {Hash : Type} [DecidableEq Hash]

def attempts (digests : Digests Hash) : Tasks (surroundings Hash) (World Hash) where
  Task := Attempt
  Out := Except Err Unit
  code := fun a => (manageResourceClaim digests a).run
  respond := respond

def DistinctUIDs (admitted : Attempt → Prop) : Prop :=
  ∀ a b, admitted a → admitted b → a.claimant.pod.uid = b.claimant.pod.uid → a.claimant.pod.ns = b.claimant.pod.ns

/-- Whatever fails in between, a Pod has at most one claim for a job, a claim with devices stays as it is, and
an attempt for another node or layout fails without a change. -/
theorem first_decision_kept (digests : Digests Hash) {admitted : Attempt → Prop} (distinct : DistinctUIDs admitted)
    {start : World Hash} (fresh : ∀ key, start.origin key = none) {p : Point (attempts digests)}
    (run : ReflTransGen (Step (attempts digests) admitted) ⟨none, start⟩ p) :
    (∀ key key' o o', p.state.origin key = some o → p.state.origin key' = some o' →
      o.claimant.pod.uid = o'.claimant.pod.uid → o.claimant.job = o'.claimant.job → key = key') ∧
    (∀ q, ReflTransGen (Step (attempts digests) admitted) p q → Kept p.state q.state) ∧
    ∀ a o resources resources', p.state.origin (keyOf digests a) = some o → o.resources = some resources →
      a.resources = some resources' →
      (a.nodeName ≠ o.nodeName ∨ { resources' with nodeExtra := "" } ≠ { resources with nodeExtra := "" }) →
      ∀ rest w, Onward (respond a) (manageResourceClaim digests a).run p.state rest w →
        w = p.state ∧ ∀ out, rest = .ret out → ∃ e, out = .error e := by
  have code : ∀ (a : Attempt) (w : World Hash), admitted a → Recorded digests admitted w →
      stays (respond a) (Careful digests admitted) (manageResourceClaim digests a).run w fun _ _ => True :=
    fun a w admits recorded => manageResourceClaim_careful recorded admits
  have begins : Sound Kept (Recorded digests admitted) (⟨none, start⟩ : Point (attempts digests)) := by
    refine sound_idle fun key o made => ?_
    rw [fresh key] at made
    cases made
  obtain ⟨sound, -⟩ := sound_run code begins run
  refine ⟨?_, ?_, ?_⟩
  · intro key key' o o' made made' uid job
    obtain ⟨admits, rfl, -⟩ := sound.1 key o made
    obtain ⟨admits', rfl, -⟩ := sound.1 key' o' made'
    unfold keyOf allocationClaimName
    rw [distinct o o' admits admits' uid, uid, job]
  · intro q later
    obtain ⟨-, related⟩ := sound_run code sound later
    exact related.trans_induction_on kept_refl id fun _ _ => kept_trans
  · intro a o resources resources' made given given' differs rest w onward
    obtain ⟨-, -, r, claim, recorded, there, identity⟩ := sound.1 _ o made
    rw [given] at recorded
    obtain rfl := Option.some.inj recorded
    obtain ⟨unchanged, remains⟩ := stays_unchanged (manageResourceClaim_refused given' there identity differs) onward
    refine ⟨unchanged, ?_⟩
    rintro out rfl
    exact remains

end

/- A Pod with one device on a node, and later attempts for another node. -/

private def plainDigests : Digests AllocationIdentity := ⟨id, id, injective_id⟩

private def gpuPod : Claimant where
  pod := { Pod.waiting (.of "ns" (.refl true)) (.of "a" (.refl true)) (.of "1" (.refl true))
      "slurm-bridge-scheduler" with
    labels := (∅ : StringMap).insert labelExternalJobId "7" }
  needs :=
    { initContainers := []
      containers := [⟨"c", false, (∅ : ResourceList).insert (resourceDeviceClassPrefix ++ "gpu") 1, ∅⟩]
      overhead := ∅
      requests := ∅
      limits := ∅
      distinct := List.nodup_singleton _ }

private def onNode (node : String) (resources : Option NodeResources) : Attempt := ⟨gpuPod, node, resources⟩

private def layout : NodeResources := ⟨"s1", "", 0, 0, 0, "", 0, none⟩

private def succeed : (c : Command AllocationIdentity) → World AllocationIdentity → c.Reply × World AllocationIdentity
  | .getClaim ns name, w => (match w.claims (ns, name) with
      | some claim => Except.ok claim
      | none => Except.error .notFound, w)
  | .createClaim claim, w => match w.claims claim.key with
      | none => (Except.ok (), w.create (onNode "n1" (some layout)) claim)
      | some _ => (Except.error (.other "already exists"), w)
  | .patchClaimStatus _ updated, w => match w.claims updated.key with
      | some stored => (Except.ok (), w.put (World.withStatus stored updated))
      | none => (Except.error .notFound, w)
  | .patchPodStatus p status, w => (Except.ok (), w.link p.pod.uid.text status)
  | .decide _ _ _, w => (Except.ok (some ⟨⟨[⟨"gpu", "gpu", 1, [], none⟩], []⟩, []⟩), w)
  | .results _ _, w => (Except.ok ([], [], 0), w)

private theorem succeed_responds (c : Command AllocationIdentity) (w : World AllocationIdentity) :
    respond (onNode "n1" (some layout)) c (succeed c w).1 w (succeed c w).2 := by
  cases c with
  | getClaim ns name =>
    refine ⟨rfl, ?_⟩
    dsimp only [succeed]
    cases found : w.claims (ns, name) with
    | none => exact .inr (.inl ⟨rfl, rfl⟩)
    | some claim => exact .inl ⟨claim, rfl, rfl⟩
  | createClaim claim =>
    dsimp only [succeed]
    cases found : w.claims claim.key with
    | none => exact .inr ⟨found, rfl⟩
    | some other => exact .inl ⟨rfl, _, rfl⟩
  | patchClaimStatus claim updated =>
    dsimp only [succeed]
    cases found : w.claims updated.key with
    | none => exact .inl ⟨rfl, _, rfl⟩
    | some stored => exact .inr ⟨stored, found, rfl⟩
  | patchPodStatus p status => exact .inr rfl
  | decide p node resources => rfl
  | results claim decision => rfl

private def emptyWorld : World AllocationIdentity := ⟨fun _ => none, fun _ => none, fun _ => none, nofun⟩

private def claimed : World AllocationIdentity :=
  (runIn (I := surroundings AllocationIdentity) succeed
    (manageResourceClaim plainDigests (onNode "n1" (some layout))).run emptyWorld).2

private theorem claimed_origin (node : String) (resources : Option NodeResources) :
    claimed.origin (keyOf plainDigests (onNode node resources)) = some (onNode "n1" (some layout)) := by
  rfl

private def first (a : Attempt) : Prop := a = onNode "n1" (some layout)

private theorem claimed_reached :
    ReflTransGen (Step (attempts plainDigests) first) ⟨none, emptyWorld⟩ ⟨none, claimed⟩ := by
  have admits : first (onNode "n1" (some layout)) := rfl
  exact run_task (S := attempts plainDigests) succeed_responds admits emptyWorld

theorem first_decision_kept_moved :
    ReflTransGen (Step (attempts plainDigests) first) ⟨none, emptyWorld⟩ ⟨none, claimed⟩ ∧
      ∀ rest w, Onward (respond (onNode "n2" (some layout)))
        (manageResourceClaim plainDigests (onNode "n2" (some layout))).run claimed rest w →
        w = claimed ∧ ∀ out, rest = .ret out → ∃ e, out = .error e := by
  have distinct : DistinctUIDs first := by
    rintro a b rfl rfl -
    rfl
  obtain ⟨-, -, refused⟩ := first_decision_kept plainDigests distinct (fun _ => rfl) claimed_reached
  exact ⟨claimed_reached, refused (onNode "n2" (some layout)) _ layout layout (claimed_origin _ _) rfl rfl
    (.inl (by decide))⟩

/-- An attempt without a Slurm layout succeeds on every node, and changes nothing. -/
theorem missing_layout_accepted :
    ReflTransGen (Step (attempts plainDigests) first) ⟨none, emptyWorld⟩ ⟨none, claimed⟩ ∧
      claimed.origin (keyOf plainDigests (onNode "n2" none)) = some (onNode "n1" (some layout)) ∧
      (manageResourceClaim plainDigests (onNode "n2" none)).run = .ret (.ok ()) :=
  ⟨claimed_reached, claimed_origin _ _, rfl⟩

end SlurmBridge.Scheduler.ClaimRecovery
