/- source: internal/utils/slurmjobir/owner.go
   digest: The root that controller references lead to, on every graph of owners: which object is
     chosen, where the walk may stop early, and when it fails. -/

import SlurmBridge.JobIR.CompositeTree

set_option autoImplicit false

namespace SlurmBridge.JobIR.Owners

open Kube.Objects Kube.Reads JobIR.Translate
open JobIR.CompositeTree (readIn readIn_bind)
open Nat List

variable {answer : (q : Query) → q.Reply}

def controllerOf (obj : PartialObjectMetadata) : Option OwnerReference := getNextControllerOwner obj.ownerReferences

def readController (answer : (q : Query) → q.Reply) (obj : PartialObjectMetadata) (owner : OwnerReference) :
    Except KubeError PartialObjectMetadata := answer (.object owner.typeMeta obj.ns owner.name)

/-- The controllers that can be read above an object, the lowest one first, and the topmost object. -/
inductive Climb (answer : (q : Query) → q.Reply) : PartialObjectMetadata → List PartialObjectMetadata →
    PartialObjectMetadata → Prop
  | here (obj : PartialObjectMetadata) : Climb answer obj [] obj
  | up {obj parent top : PartialObjectMetadata} {owner : OwnerReference} {path : List PartialObjectMetadata}
      (next : controllerOf obj = some owner) (read : readController answer obj owner = .ok parent)
      (rest : Climb answer { parent with typeMeta := owner.typeMeta } path top) :
      Climb answer obj ({ parent with typeMeta := owner.typeMeta } :: path) top

def reference (obj : PartialObjectMetadata) : PartialObjectMetadata := ⟨obj.typeMeta, obj.ns, obj.name, "", []⟩

def supported (obj : PartialObjectMetadata) : Bool := isSupportedWorkload obj.typeMeta

/-- The owner is of an unsupported kind, and reading it is forbidden. -/
def OutOfReach (answer : (q : Query) → q.Reply) (obj : PartialObjectMetadata) (owner : OwnerReference) : Prop :=
  readController answer obj owner = .error .forbidden ∧ isSupportedWorkload owner.typeMeta = false

instance (obj : PartialObjectMetadata) (owner : OwnerReference) : Decidable (OutOfReach answer obj owner) :=
  inferInstanceAs (Decidable (_ ∧ _))

/-- The walk ends at an object after so many reads of the budget: the object has no controller, or its controller is
out of reach while some controller was read. -/
def Stops (answer : (q : Query) → q.Reply) (budget reads : Nat) (controllerResolved : Prop) (top : PartialObjectMetadata) :
    Prop :=
  match controllerOf top with
  | none => reads ≤ budget
  | some owner => reads < budget ∧ controllerResolved ∧ OutOfReach answer top owner

/-- The walk fails at an object: its controller is needed and cannot be read, or the budget is used up. -/
def Fails (answer : (q : Query) → q.Reply) (budget reads : Nat) (controllerResolved : Prop) (top : PartialObjectMetadata) :
    Prop :=
  ∃ owner, controllerOf top = some owner ∧ (reads = budget ∨
      reads < budget ∧ (∃ e, readController answer top owner = .error e) ∧
        ¬(controllerResolved ∧ OutOfReach answer top owner))

section
variable {obj : PartialObjectMetadata} {resolved : Bool} {known : Option PartialObjectMetadata} {budget : Nat}

/-- The supported controller known after an object is visited. -/
def entered (resolved : Bool) (obj : PartialObjectMetadata) (known : Option PartialObjectMetadata) :
    Option PartialObjectMetadata :=
  if resolved && supported obj then some (reference obj) else known

/-- The choice at the end of a walk: the highest supported controller on the path, or the one known before, or the
topmost object. -/
def choice (known : Option PartialObjectMetadata) (path : List PartialObjectMetadata) (top : PartialObjectMetadata) :
    PartialObjectMetadata :=
  ((path.reverse.find? supported).map reference).getD (known.getD (reference top))

theorem choice_cons (known : Option PartialObjectMetadata) (parent : PartialObjectMetadata)
    (path : List PartialObjectMetadata) (top : PartialObjectMetadata) :
    choice known (parent :: path) top = choice (entered true parent known) path top := by
  unfold choice entered
  rw [reverse_cons, find?_append]
  cases path.reverse.find? supported with
  | some highest => rfl
  | none => cases own : supported parent <;> simp [own]

theorem resolve_none (none : controllerOf obj = .none) :
    readIn answer (resolveRootOwnerMetadata budget obj resolved known) =
      .ok ((entered resolved obj known).getD (reference obj)) := by
  unfold resolveRootOwnerMetadata
  rw [show getNextControllerOwner obj.ownerReferences = _ from none]
  rfl

variable {owner : OwnerReference}

theorem resolve_spent (next : controllerOf obj = some owner) :
    ∃ e, readIn answer (resolveRootOwnerMetadata 0 obj resolved known) = .error e := by
  unfold resolveRootOwnerMetadata
  rw [show getNextControllerOwner obj.ownerReferences = _ from next]
  exact ⟨_, rfl⟩

theorem resolve_read (next : controllerOf obj = some owner) :
    readIn answer (resolveRootOwnerMetadata (budget + 1) obj resolved known) =
      match readController answer obj owner with
      | .ok parent => readIn answer (resolveRootOwnerMetadata budget { parent with typeMeta := owner.typeMeta } true
          (entered resolved obj known))
      | .error .forbidden =>
        if resolved && !isSupportedWorkload owner.typeMeta then
          .ok ((entered resolved obj known).getD (reference obj))
        else
          .error (.kube .forbidden)
      | .error e => .error (.kube e) := by
  rw [resolveRootOwnerMetadata]
  rw [show getNextControllerOwner obj.ownerReferences = _ from next]
  rw [readIn_bind]
  change readIn answer _ = _
  unfold readController
  cases answer (.object owner.typeMeta obj.ns owner.name) with
  | ok parent => rfl
  | error e => cases e with
    | forbidden =>
      dsimp only
      split <;> rfl
    | notFound => rfl
    | other text => rfl

theorem resolve_unreadable {e : KubeError} (next : controllerOf obj = some owner)
    (unreadable : readController answer obj owner = .error e) :
    readIn answer (resolveRootOwnerMetadata (budget + 1) obj resolved known) =
      if resolved = true ∧ OutOfReach answer obj owner then .ok (choice (entered resolved obj known) [] obj)
      else .error (.kube e) := by
  rw [resolve_read next, unreadable]
  have reach : OutOfReach answer obj owner ↔ e = .forbidden ∧ isSupportedWorkload owner.typeMeta = false := by
    unfold OutOfReach
    rw [unreadable, Except.error.injEq]
  cases e with
  | forbidden =>
    refine if_congr ?_ rfl rfl
    rw [reach, Bool.and_eq_true, Bool.not_eq_true']
    simp
  | notFound | other => exact (if_neg fun tolerated => nomatch (reach.mp tolerated.2).1).symm

theorem resolve_spec (answer : (q : Query) → q.Reply) (budget : Nat) (obj : PartialObjectMetadata) (resolved : Bool) (known : Option PartialObjectMetadata) :
    ∃ path top, Climb answer obj path top ∧
      ((Stops answer budget path.length (resolved = true ∨ path ≠ []) top ∧
          readIn answer (resolveRootOwnerMetadata budget obj resolved known) =
            .ok (choice (entered resolved obj known) path top)) ∨
        (Fails answer budget path.length (resolved = true ∨ path ≠ []) top ∧
          ∃ e, readIn answer (resolveRootOwnerMetadata budget obj resolved known) = .error e)) := by
  -- Induction on the reads that are left, for every object, with the supported controller known so far.
  induction budget generalizing obj resolved known with
  | zero =>
    refine ⟨[], obj, .here obj, ?_⟩
    cases next : controllerOf obj with
    | none => exact .inl ⟨by simp [Stops, next], resolve_none next⟩
    | some owner => exact .inr ⟨⟨owner, next, .inl rfl⟩, resolve_spent next⟩
  | succ budget ih =>
    cases next : controllerOf obj with
    | none => exact ⟨[], obj, .here obj, .inl ⟨by simp [Stops, next], resolve_none next⟩⟩
    | some owner =>
      cases read : readController answer obj owner with
      | error e =>
        refine ⟨[], obj, .here obj, ?_⟩
        rw [resolve_unreadable next read]
        split
        · rename_i tolerated
          refine .inl ⟨?_, rfl⟩
          unfold Stops
          rw [next]
          exact ⟨succ_pos budget, .inl tolerated.1, tolerated.2⟩
        · rename_i needed
          refine .inr ⟨⟨owner, next, .inr ⟨succ_pos budget, ⟨e, read⟩, ?_⟩⟩, _, rfl⟩
          rintro ⟨above, out⟩
          exact needed ⟨above.resolve_right (not_not.mpr rfl), out⟩
      | ok parent =>
        obtain ⟨path, top, climb, ends⟩ := ih { parent with typeMeta := owner.typeMeta } true
          (entered resolved obj known)
        refine ⟨_ :: path, top, .up next read climb, ?_⟩
        rw [resolve_read next, read]
        -- Once a controller is read, it makes no difference what was read before.
        have above : (resolved = true ∨ { parent with typeMeta := owner.typeMeta } :: path ≠ []) ↔
            (true = true ∨ path ≠ []) := by simp
        rcases ends with ⟨stops, result⟩ | ⟨⟨last, further, fails⟩, result⟩
        · refine .inl ⟨?_, by rw [choice_cons]; exact result⟩
          unfold Stops at stops ⊢
          rw [above, length_cons, add_le_add_iff_right, add_lt_add_iff_right]
          exact stops
        · refine .inr ⟨⟨last, further, ?_⟩, result⟩
          rw [above, length_cons, add_right_cancel_iff, add_lt_add_iff_right]
          exact fails

/-- The walk does not go on from an object after so many reads. -/
def Halts (answer : (q : Query) → q.Reply) (budget reads : Nat) (top : PartialObjectMetadata) : Prop :=
  reads ≤ budget ∧
    (reads < budget → ∀ owner parent, controllerOf top = some owner → readController answer top owner ≠ .ok parent)

variable {reads : Nat} {above : Prop} {top : PartialObjectMetadata}

theorem Stops.halts (stops : Stops answer budget reads above top) : Halts answer budget reads top := by
  unfold Stops at stops
  split at stops
  · rename_i last
    exact ⟨stops, fun _ owner _ next => by rw [last] at next; cases next⟩
  · rename_i owner last
    refine ⟨le_of_lt stops.1, fun _ other parent next read => ?_⟩
    obtain rfl := Option.some.inj (last.symm.trans next)
    cases read.symm.trans stops.2.2.1

theorem Fails.halts (fails : Fails answer budget reads above top) : Halts answer budget reads top := by
  obtain ⟨owner, last, spent | ⟨left, ⟨e, unreadable⟩, -⟩⟩ := fails
  · exact ⟨le_of_eq spent, fun left => absurd spent (Nat.ne_of_lt left)⟩
  · refine ⟨le_of_lt left, fun _ other parent next read => ?_⟩
    obtain rfl := Option.some.inj (last.symm.trans next)
    cases read.symm.trans unreadable

theorem not_stops_of_fails (fails : Fails answer budget reads above top) :
    ¬Stops answer budget reads above top := by
  obtain ⟨owner, next, why⟩ := fails
  intro stops
  unfold Stops at stops
  rw [next] at stops
  rcases why with spent | ⟨-, -, needed⟩
  · exact Nat.ne_of_lt stops.1 spent
  · exact needed stops.2

variable {path path' : List PartialObjectMetadata} {top' : PartialObjectMetadata}

theorem climb_unique (climb : Climb answer obj path top) (climb' : Climb answer obj path' top')
    (halts : Halts answer budget path.length top) (halts' : Halts answer budget path'.length top') :
    path = path' ∧ top = top' := by
  induction climb generalizing budget path' with
  | here obj =>
    cases climb' with
    | here => exact ⟨rfl, rfl⟩
    | up next read => exact absurd read (halts.2 (lt_of_lt_of_le (succ_pos _) halts'.1) _ _ next)
  | up next read rest ih =>
    cases climb' with
    | here => exact absurd read (halts'.2 (lt_of_lt_of_le (succ_pos _) halts.1) _ _ next)
    | up next' read' rest' =>
      obtain rfl := Option.some.inj (next.symm.trans next')
      obtain rfl := Except.ok.inj (read.symm.trans read')
      cases budget with
      | zero => cases halts.1
      | succ budget =>
        obtain ⟨rfl, rfl⟩ := ih rest' ⟨le_of_succ_le_succ halts.1, fun left => halts.2 (succ_lt_succ left)⟩
          ⟨le_of_succ_le_succ halts'.1, fun left => halts'.2 (succ_lt_succ left)⟩
        exact ⟨rfl, rfl⟩

theorem climb_le (climb : Climb answer obj path top) (climb' : Climb answer obj path' top')
    (last : ∀ owner parent, controllerOf top' = some owner → readController answer top' owner ≠ .ok parent) :
    path.length ≤ path'.length := by
  induction climb generalizing path' with
  | here => exact zero_le _
  | up next read rest ih =>
    cases climb' with
    | here => exact absurd read (last _ _ next)
    | up next' read' rest' =>
      obtain rfl := Option.some.inj (next.symm.trans next')
      obtain rfl := Except.ok.inj (read.symm.trans read')
      exact succ_le_succ (ih rest')

theorem climb_trans {middle : PartialObjectMetadata} (climb : Climb answer obj path middle)
    (climb' : Climb answer middle path' top) : Climb answer obj (path ++ path') top := by
  induction climb with
  | here => exact climb'
  | up next read _ ih => exact .up next read (ih climb')

theorem climb_cycle {cycle : List PartialObjectMetadata} (again : Climb answer top cycle top)
    (nonempty : cycle ≠ []) (n : Nat) : ∃ path, Climb answer top path top ∧ n ≤ path.length := by
  induction n with
  | zero => exact ⟨[], .here top, zero_le _⟩
  | succ n ih =>
    obtain ⟨path, climb, long⟩ := ih
    refine ⟨cycle ++ path, climb_trans again climb, ?_⟩
    have positive := length_pos_of_ne_nil nonempty
    rw [length_append]
    omega

end

def ofPod (pod : Pod) : PartialObjectMetadata := ⟨podV1, pod.ns, pod.name, pod.uid, pod.ownerReferences⟩

section
variable {pod : Pod} {path : List PartialObjectMetadata} {top : PartialObjectMetadata}

private theorem begins (path : List PartialObjectMetadata) : (false = true ∨ path ≠ []) = (path ≠ []) := by simp

private theorem choice_eq (path : List PartialObjectMetadata) (top : PartialObjectMetadata) :
    choice (entered false (ofPod pod) none) path top = reference ((path.reverse.find? supported).getD top) := by
  unfold choice
  cases path.reverse.find? supported <;> rfl

theorem getRootOwnerMetadata_spec (answer : (q : Query) → q.Reply) (pod : Pod) :
    ∃ path top, Climb answer (ofPod pod) path top ∧
      ((Stops answer maxControllerOwnerDepth path.length (path ≠ []) top ∧
          readIn answer (getRootOwnerMetadata pod) = .ok (reference ((path.reverse.find? supported).getD top))) ∨
        (Fails answer maxControllerOwnerDepth path.length (path ≠ []) top ∧
          ∃ e, readIn answer (getRootOwnerMetadata pod) = .error e)) := by
  obtain ⟨path, top, climb, ends⟩ := resolve_spec answer maxControllerOwnerDepth (ofPod pod) false none
  rw [begins, choice_eq] at ends
  exact ⟨path, top, climb, ends⟩

theorem fails_of_long (climb : Climb answer (ofPod pod) path top) (long : maxControllerOwnerDepth < path.length) :
    ∃ e, readIn answer (getRootOwnerMetadata pod) = .error e := by
  obtain ⟨path', top', climb', ⟨stops, -⟩ | ⟨-, fails⟩⟩ := getRootOwnerMetadata_spec answer pod
  · have short := climb_le climb climb' fun owner parent next read => by
      unfold Stops at stops
      rw [next] at stops
      cases read.symm.trans stops.2.2.1
    exact absurd stops.halts.1 (not_le.mpr (lt_of_lt_of_le long short))
  · exact fails

/-- Owner resolution picks the highest supported controller that was read above the Pod, or else the topmost object.
It stops below an owner only if that is of an unsupported kind, may not be read, and some controller was read.  Any
other unreadable owner, a chain that is too long, and every cycle are errors. -/
theorem root_owner_resolution (answer : (q : Query) → q.Reply) (pod : Pod) :
    (∀ root, readIn answer (getRootOwnerMetadata pod) = .ok root ↔
      ∃ path top, Climb answer (ofPod pod) path top ∧ Stops answer maxControllerOwnerDepth path.length (path ≠ []) top ∧
        root = reference ((path.reverse.find? supported).getD top)) ∧
    ((∃ e, readIn answer (getRootOwnerMetadata pod) = .error e) ↔
      ∃ path top, Climb answer (ofPod pod) path top ∧ Fails answer maxControllerOwnerDepth path.length (path ≠ []) top) ∧
    (∀ path top, Climb answer (ofPod pod) path top → maxControllerOwnerDepth < path.length →
      ∃ e, readIn answer (getRootOwnerMetadata pod) = .error e) ∧
    ∀ path top cycle, Climb answer (ofPod pod) path top → Climb answer top cycle top → cycle ≠ [] →
      ∃ e, readIn answer (getRootOwnerMetadata pod) = .error e := by
  obtain ⟨path, top, climb, ends⟩ := getRootOwnerMetadata_spec answer pod
  refine ⟨fun root => ?_, ?_, fun _ _ => fails_of_long, ?_⟩
  · constructor
    · intro found
      rcases ends with ⟨stops, result⟩ | ⟨-, e, result⟩
      · exact ⟨path, top, climb, stops, Except.ok.inj (found.symm.trans result)⟩
      · cases found.symm.trans result
    · rintro ⟨path', top', climb', stops', rfl⟩
      rcases ends with ⟨stops, result⟩ | ⟨fails, -⟩
      · obtain ⟨rfl, rfl⟩ := climb_unique climb climb' stops.halts stops'.halts
        exact result
      · obtain ⟨rfl, rfl⟩ := climb_unique climb climb' fails.halts stops'.halts
        exact absurd stops' (not_stops_of_fails fails)
  · constructor
    · rintro ⟨e, found⟩
      rcases ends with ⟨-, result⟩ | ⟨fails, -⟩
      · cases found.symm.trans result
      · exact ⟨path, top, climb, fails⟩
    · rintro ⟨path', top', climb', fails'⟩
      rcases ends with ⟨stops, -⟩ | ⟨-, result⟩
      · obtain ⟨rfl, rfl⟩ := climb_unique climb climb' stops.halts fails'.halts
        exact absurd stops (not_stops_of_fails fails')
      · exact result
  · intro path top cycle climb again nonempty
    obtain ⟨path', climb', long⟩ := climb_cycle again nonempty (maxControllerOwnerDepth + 1)
    refine fails_of_long (climb_trans climb climb') ?_
    rw [List.length_append]
    omega

end

/- A Pod of a Job of a JobSet, whose own controller may not be read, beside two objects that own each other. -/

private def wrapper : TypeMeta := ⟨"apps", "v1", "StatefulSet"⟩

private def ownedBy (typeMeta : TypeMeta) (name : String) : List OwnerReference := [⟨typeMeta, name, "", true⟩]

private def podOf (typeMeta : TypeMeta) (name : String) : Pod :=
  { Pod.waiting (.of "ns" (.refl true)) (.of "a" (.refl true)) (.of "1" (.refl true))
      "slurm-bridge-scheduler" with
    ownerReferences := ownedBy typeMeta name }

private def owners : (q : Query) → q.Reply
  | .object typeMeta ns name =>
    if typeMeta = jobV1 then Except.ok ⟨typeMeta, ns, name, "", ownedBy jobSetV1Alpha2 "set"⟩
    else if typeMeta = jobSetV1Alpha2 then Except.ok ⟨typeMeta, ns, name, "", ownedBy wrapper "outer"⟩
    else if name = "outer" then Except.error .forbidden
    else Except.ok ⟨typeMeta, ns, name, "", ownedBy typeMeta (if name = "x" then "y" else "x")⟩
  | q => q.refuse

private def job : PartialObjectMetadata := ⟨jobV1, "ns", "job", "", ownedBy jobSetV1Alpha2 "set"⟩

private def jobSet : PartialObjectMetadata := ⟨jobSetV1Alpha2, "ns", "set", "", ownedBy wrapper "outer"⟩

private def ring (name other : String) : PartialObjectMetadata := ⟨wrapper, "ns", name, "", ownedBy wrapper other⟩

private theorem step {obj parent : PartialObjectMetadata} {owner : OwnerReference}
    (next : controllerOf obj = some owner) (read : readController owners obj owner = .ok parent)
    (named : parent.typeMeta = owner.typeMeta) : Climb owners obj [parent] parent := by
  have climb := Climb.up next read (.here _)
  rwa [← named] at climb

theorem root_owner_resolution_job_set :
    readIn owners (getRootOwnerMetadata (podOf jobV1 "job")) = .ok ⟨jobSetV1Alpha2, "ns", "set", "", []⟩ ∧
      ∃ e, readIn owners (getRootOwnerMetadata (podOf wrapper "x")) = .error e := by
  constructor
  · have toJob : Climb owners (ofPod (podOf jobV1 "job")) [job] job := step rfl rfl rfl
    have toSet : Climb owners job [jobSet] jobSet := step rfl rfl rfl
    refine ((root_owner_resolution owners _).1 _).mpr ⟨_, _, climb_trans toJob toSet, ?_, by decide⟩
    exact ⟨by decide, List.cons_ne_nil _ _, rfl, by decide⟩
  · have toX : Climb owners (ofPod (podOf wrapper "x")) [ring "x" "y"] (ring "x" "y") := step rfl rfl rfl
    have toY : Climb owners (ring "x" "y") [ring "y" "x"] (ring "y" "x") := step rfl rfl rfl
    have back : Climb owners (ring "y" "x") [ring "x" "y"] (ring "x" "y") := step rfl rfl rfl
    exact (root_owner_resolution owners _).2.2.2 _ _ _ toX (climb_trans toY back) (List.cons_ne_nil _ _)

end SlurmBridge.JobIR.Owners
