/- source: internal/controller/node/node_sync.go, node_controller.go,
     internal/utils/durationstore/durationstore.go
   digest: Requeue requests of the node controller reach its workqueue exactly as long as the
     taint step does not find the node in Slurm, because that step uses another key. -/

import SlurmBridge.Node.Sync

set_option autoImplicit false

namespace SlurmBridge.Node.Requeue

open Foundation.Interaction Node.Configuration Node.SlurmControl Node.Sync
open Registration.Interface (SlurmError)
open List Function

abbrev Durations := String → Option Nat

def keepGreater (old : Option Nat) (new : Nat) : Nat :=
  match old with
  | none => new
  | some old => if old < new then new else old

def after (store : Durations) : Command → Durations
  | .push key seconds => update store key (some (keepGreater (store key) seconds))
  | .pop key => update store key none
  | _ => store

/-- A pop returns what is stored, and zero if nothing is. -/
def Answered (store : Durations) : Event surroundings → Prop
  | ⟨.pop key, seconds⟩ => seconds = (store key).getD 0
  | _ => True

def Untouched (req : String) (store store' : Durations) : Prop :=
  store' req = store req ∧ store' (requestKey req) = store (requestKey req)

/-- How the store develops while a pass for a node runs.  The passes for other nodes may change
everything else in between. -/
inductive Evolves (req : String) : Durations → Trace surroundings → Durations → Prop
  | done {store store' : Durations} (others : Untouched req store store') : Evolves req store [] store'
  | step {store store₁ store' : Durations} {e : Event surroundings} {t : Trace surroundings}
      (others : Untouched req store store₁) (answered : Answered store₁ e)
      (rest : Evolves req (after store₁ e.1) t store') : Evolves req store (e :: t) store'

def pushedTo (key : String) (t : Trace surroundings) : List Nat :=
  t.filterMap fun
    | ⟨.push key' seconds, _⟩ => if key' = key then some seconds else none
    | _ => none

def largest (durations : List Nat) : Nat := durations.foldr max 0

structure Pass where
  trace : Trace surroundings
  requeueAfter : Nat
  result : Except Failure Unit
  store : Durations

/-- The pass returned the largest duration pushed for the node, and left nothing behind. -/
structure Kept (req : String) (pass : Pass) : Prop where
  requeue : pass.result = .ok () →
    pass.requeueAfter = largest (pushedTo req pass.trace ++ pushedTo (requestKey req) pass.trace)
  cleared : pass.store req = none ∧ pass.store (requestKey req) = none

inductive Passes (r : NodeReconciler) (req : String) : Durations → List Pass → Prop
  | nil (store : Durations) : Passes r req store []
  | cons {store : Durations} {pass : Pass} {rest : List Pass}
      (run : Exec (reconcile r req) pass.trace (pass.requeueAfter, pass.result))
      (evolves : Evolves req store pass.trace pass.store)
      (later : Passes r req pass.store rest) : Passes r req store (pass :: rest)

def Found (t : Trace surroundings) : Prop :=
  ∃ name slurmNode, ⟨.getNode .cached name, .ok slurmNode⟩ ∈ t

def TaintFound (r : NodeReconciler) (req : String) (t : Trace surroundings) : Prop :=
  ∃ registration taint rest owns out, t = registration ++ taint ++ rest ∧
    Exec (syncNodeRegistration r req).run registration owns ∧
    Exec (syncTaint r req).run taint out ∧ Found taint

section
variable {req key : String} {store store' : Durations} {t t' : Trace surroundings}

theorem requestKey_ne (req : String) : requestKey req ≠ req := by
  intro same
  have length := congrArg (·.toList.length) same
  simp [requestKey] at length

@[simp] theorem pushedTo_append : pushedTo key (t ++ t') = pushedTo key t ++ pushedTo key t' :=
  filterMap_append

theorem pushedTo_eq_nil (none : ∀ e ∈ t, ∀ seconds, e.1 ≠ .push key seconds) : pushedTo key t = [] := by
  refine filterMap_eq_nil_iff.mpr fun e member => ?_
  obtain ⟨c, reply⟩ := e
  cases c with
  | push key' seconds =>
    have other : key' ≠ key := fun same => none _ member seconds (by rw [same])
    simp [other]
  | _ => rfl

theorem mem_pushedTo {seconds : Nat} (member : ⟨.push key seconds, ()⟩ ∈ t) : seconds ∈ pushedTo key t :=
  mem_filterMap.mpr ⟨_, member, by simp⟩

theorem Untouched.entry (own : key = req ∨ key = requestKey req) (same : Untouched req store store') :
    store' key = store key := by
  rcases own with rfl | rfl
  · exact same.1
  · exact same.2

theorem Evolves.split (evolves : Evolves req store (t ++ t') store') :
    ∃ between, Evolves req store t between ∧ Evolves req between t' store' := by
  induction t generalizing store with
  | nil => exact ⟨store, .done ⟨rfl, rfl⟩, evolves⟩
  | cons e t ih =>
    cases evolves with
    | step others answered rest =>
      obtain ⟨between, first, second⟩ := ih rest
      exact ⟨between, .step others answered first, second⟩

theorem Evolves.entry (own : key = req ∨ key = requestKey req) (evolves : Evolves req store t store')
    (noPop : ∀ e ∈ t, e.1 ≠ .pop key) :
    store' key = (pushedTo key t).foldl (fun entry seconds => some (keepGreater entry seconds)) (store key) := by
  induction evolves with
  | done others => exact others.entry own
  | @step store store₁ store' e t others answered rest ih =>
    have ih := ih fun e member => noPop e (mem_cons_of_mem _ member)
    have first := noPop e mem_cons_self
    rw [ih, ← others.entry own]
    obtain ⟨c, reply⟩ := e
    cases c with
    | push key' seconds =>
      by_cases same : key' = key
      · subst same
        simp [after, pushedTo]
      · simp [after, pushedTo, same, Function.update_of_ne (Ne.symm same)]
    | pop key' =>
      have other : key ≠ key' := fun same => first (by rw [same])
      simp [after, pushedTo, Function.update_of_ne other]
    | _ => rfl

theorem getD_foldl_keepGreater (durations : List Nat) (entry : Option Nat) :
    (durations.foldl (fun entry seconds => some (keepGreater entry seconds)) entry).getD 0 =
      max (entry.getD 0) (largest durations) := by
  induction durations generalizing entry with
  | nil => simp [largest]
  | cons seconds rest ih =>
    have kept : keepGreater entry seconds = max (entry.getD 0) seconds := by
      cases entry with
      | none => simp [keepGreater]
      | some old =>
        simp only [keepGreater, Option.getD_some]
        split <;> omega
    simp only [foldl_cons, ih, Option.getD_some, kept, largest, foldr_cons]
    omega

theorem foldl_keepGreater_eq_none {durations : List Nat} {entry : Option Nat} :
    durations.foldl (fun entry seconds => some (keepGreater entry seconds)) entry = none ↔
      entry = none ∧ durations = [] := by
  induction durations generalizing entry with
  | nil => simp
  | cons seconds rest ih => simp [ih]

end

section
variable {r : NodeReconciler} {req : String} {t : Trace surroundings}

/-- What the taint step may do with the store. -/
def taintGuard (req : String) (h : Trace surroundings) : Command → Prop
  | .pop _ => False
  | .push key _ => key = req ∧ Found h
  | _ => True

/-- Once the node was found, there is a request under its name. -/
def Requested (req : String) (h : Trace surroundings) : Prop :=
  Found h → ∃ seconds, ⟨.push req seconds, ()⟩ ∈ h

theorem wp_updateTaints {h : Trace surroundings} (node : KubeNode)
    (change : List Taint → Option (List Taint)) (known : Requested req h) :
    wp (taintGuard req) (updateTaints node change).run h fun h _ => Requested req h := by
  have only : Only (I := surroundings) (fun c => isStore c = false ∧ ∀ mode name, c ≠ .getNode mode name)
      (updateTaints node change).run := only_updateTaints (by simp [isStore]) (by simp [isStore]) (by simp [isStore]) node change
  refine wp_of_only_along only (fun t c _ allowed => ?_) fun t _ _ quiet found => ?_
  · cases c with
    | push key seconds => simp [isStore] at allowed
    | pop key => simp [isStore] at allowed
    | _ => trivial
  · obtain ⟨name, slurmNode, member⟩ := found
    rcases mem_append.mp member with old | new
    · obtain ⟨seconds, pushed⟩ := known ⟨name, slurmNode, old⟩
      exact ⟨seconds, mem_append_left _ pushed⟩
    · exact absurd rfl ((quiet _ new).2 _ _)

theorem wp_syncTaint : wp (taintGuard req) (syncTaint r req).run [] fun h _ => Requested req h := by
  refine (wp_run_bind _ _ _).mpr (wp_wrapping.mpr ((wp_map _ _ _).mpr ⟨trivial, fun reply => ?_⟩))
  have unread : Requested req [⟨.readNode req, reply⟩] := by simp [Requested, Found]
  match reply with
  | .error .notFound => exact unread
  | .error .forbidden => exact unread
  | .error (.other _) => exact unread
  | .ok node =>
    refine (wp_run_bind _ _ _).mpr ((wp_run_bind _ _ _).mpr (wp_findNode trivial fun reply => ?_))
    match reply with
    | .error .notFound =>
      show wp (taintGuard req) (untaintNode r node).run _ _
      refine wp_updateTaints _ _ ?_
      simp [Requested, Found]
    | .error (.other _ _) => simp [orFail, unlessMissing, Except.mapError, Requested, Found]
    | .ok slurmNode =>
      refine (wp_run_bind _ _ _).mpr ((wp_run_lift _ _).mpr ⟨⟨node.2, ?_⟩, fun _ => ?_⟩)
      · exact ⟨getSlurmNodeName node, slurmNode, by simp⟩
      · show wp (taintGuard req) (taintNode r node).run _ _
        refine wp_updateTaints _ _ fun _ => ⟨requeueSeconds, ?_⟩
        simp [node.2]

variable {out : Except Failure Unit}

theorem taint_requested (run : Exec (syncTaint r req).run t out) : Requested req t :=
  (wp_exec wp_syncTaint run).1

theorem taint_guarded (run : Exec (syncTaint r req).run t out) {e : Event surroundings} (member : e ∈ t) :
    (∀ key, e.1 ≠ .pop key) ∧ ∀ seconds, e.1 = .push req seconds → Found t := by
  obtain ⟨before, rest, rfl⟩ := append_of_mem member
  have guard := (wp_exec wp_syncTaint run).2 before e rest rfl
  constructor
  · intro key same
    rw [same] at guard
    exact guard
  · intro seconds same
    rw [same] at guard
    obtain ⟨-, name, slurmNode, found⟩ := guard
    exact ⟨name, slurmNode, mem_append_left _ found⟩

/-- A command that is no business of the taint step. -/
def Elsewhere (req : String) (c : Command) : Prop :=
  (∀ key, c ≠ .pop key) ∧ ∀ seconds, c ≠ .push req seconds

theorem elsewhere_of_not_isStore (c : Command) (other : isStore c = false) : Elsewhere req c := by
  constructor
  · rintro key rfl
    cases other
  · rintro seconds rfl
    cases other

/-- Nothing is popped while the node is synchronised, and only the taint step pushes under the
node's name. -/
theorem exec_sync (run : Exec (sync r req) t out) :
    ∃ registration taint state owns tainted, t = registration ++ taint ++ state ∧
      Exec (syncNodeRegistration r req).run registration owns ∧
      Exec (syncTaint r req).run taint tainted ∧
      (∀ e ∈ t, ∀ key, e.1 ≠ .pop key) ∧ pushedTo req t = pushedTo req taint := by
  obtain ⟨registration, owns, _, rfl, registering, run₁⟩ := exec_bind run
  obtain ⟨taint, tainted, _, rfl, tainting, run₂⟩ := exec_bind run₁
  obtain ⟨state, stated, _, rfl, stating, ended⟩ := exec_bind run₂
  cases ended
  have quiet₁ := (only_syncNodeRegistration r elsewhere_of_not_isStore
    (by simp [Elsewhere, requestKey_ne] : Elsewhere req _)).exec registering
  have quiet₃ : ∀ e ∈ state, Elsewhere req e.1 :=
    (only_syncState elsewhere_of_not_isStore req _).exec stating
  refine ⟨registration, taint, state, owns, tainted, by simp, registering, tainting, ?_, ?_⟩
  · intro e member key
    simp only [append_nil, mem_append] at member
    rcases member with member | member | member
    · exact (quiet₁ e member).1 key
    · exact (taint_guarded tainting member).1 key
    · exact (quiet₃ e member).1 key
  · simp [pushedTo_eq_nil fun e member => (quiet₁ e member).2,
      pushedTo_eq_nil fun e member => (quiet₃ e member).2]

/-- A pass is a part without pops, and two pops under the key of the request.  It asks for a
requeue under the node's name exactly if the taint step found the node. -/
theorem exec_reconcile {requeueAfter : Nat} {result : Except Failure Unit}
    (run : Exec (reconcile r req) t (requeueAfter, result)) :
    ∃ body seconds, t = body ++ [⟨.pop (requestKey req), requeueAfter⟩, ⟨.pop (requestKey req), seconds⟩] ∧
      (∀ e ∈ body, ∀ key, e.1 ≠ .pop key) ∧ (TaintFound r req t ↔ pushedTo req body ≠ []) := by
  obtain ⟨body, out, _, rfl, synced, run₁⟩ := exec_bind run
  obtain ⟨_, popped, _, rfl, popping, run₂⟩ := exec_bind run₁
  obtain ⟨_, popped', _, rfl, popping', ended⟩ := exec_bind run₂
  obtain rfl := exec_perform popping
  obtain rfl := exec_perform popping'
  cases ended
  obtain ⟨registration, taint, state, owns, tainted, rfl, registering, tainting, noPop, pushes⟩ :=
    exec_sync synced
  refine ⟨_, popped', rfl, noPop, ?_, ?_⟩
  · rintro ⟨registration', taint', rest, owns', tainted', split, -, tainting', found⟩ none
    obtain ⟨seconds, pushed⟩ := taint_requested tainting' found
    -- The push is in the trace, and the pops at its end are no pushes.
    have member : (⟨.push req seconds, ()⟩ : Event surroundings) ∈ registration' ++ taint' ++ rest := by
      simp [pushed]
    rw [← split] at member
    rcases mem_append.mp member with inside | pops
    · have := mem_pushedTo inside
      rw [none] at this
      simp at this
    · simp at pops
  · intro pushed
    rw [pushes] at pushed
    refine ⟨registration, taint, _, owns, tainted, append_assoc _ _ _, registering, tainting, ?_⟩
    by_contra unfound
    exact pushed (pushedTo_eq_nil fun e member seconds same =>
      unfound ((taint_guarded tainting member).2 seconds same))

/-- From a store without an entry for the node, a pass is as it should be exactly if its taint
step did not find the node. -/
theorem kept_iff {store : Durations} {pass : Pass}
    (run : Exec (reconcile r req) pass.trace (pass.requeueAfter, pass.result))
    (evolves : Evolves req store pass.trace pass.store)
    (fresh : store req = none ∧ store (requestKey req) = none) :
    Kept req pass ↔ ¬TaintFound r req pass.trace := by
  obtain ⟨body, seconds, split, noPop, found⟩ := exec_reconcile run
  rw [found, not_not]
  rw [split] at evolves
  obtain ⟨between, first, pops⟩ := evolves.split
  have underName := first.entry (.inl rfl) fun e member => noPop e member req
  have underRequest := first.entry (.inr rfl) fun e member => noPop e member (requestKey req)
  rw [fresh.1] at underName
  rw [fresh.2] at underRequest
  -- The first pop returns the entry under the key of the request; both leave the other one.
  obtain ⟨returned, cleared, kept⟩ : pass.requeueAfter = (between (requestKey req)).getD 0 ∧
      pass.store (requestKey req) = none ∧ pass.store req = between req := by
    cases pops with
    | step others₁ answered₁ rest =>
      cases rest with
      | step others₂ answered₂ rest =>
        cases rest with
        | done others₃ =>
          refine ⟨by rw [answered₁, others₁.2], by simp [others₃.2, after], ?_⟩
          simp [others₃.1, others₂.1, others₁.1, after, Function.update_of_ne (requestKey_ne req).symm]
  constructor
  · intro ⟨_, empty, _⟩
    rw [kept, underName] at empty
    exact (foldl_keepGreater_eq_none.mp empty).2
  · intro none
    refine ⟨fun _ => ?_, ?_, cleared⟩
    · have noPush : ∀ key, pushedTo key [(⟨.pop (requestKey req), pass.requeueAfter⟩ : Event surroundings),
          ⟨.pop (requestKey req), seconds⟩] = [] := fun key => rfl
      rw [returned, underRequest, getD_foldl_keepGreater, split, pushedTo_append, pushedTo_append,
        none, noPush, noPush]
      simp
    · rw [kept, underName, none]
      rfl

end

/-- From a store without an entry for the node, all passes for the node return what was pushed
and leave nothing behind exactly if no taint step finds the node in Slurm. -/
theorem requeue_kept_iff {r : NodeReconciler} {req : String} {store : Durations} {passes : List Pass}
    (runs : Passes r req store passes) (fresh : store req = none ∧ store (requestKey req) = none) :
    (∀ pass ∈ passes, Kept req pass) ↔ ∀ pass ∈ passes, ¬TaintFound r req pass.trace := by
  induction runs with
  | nil store => simp
  | cons run evolves later ih =>
    have first := kept_iff run evolves fresh
    simp only [forall_mem_cons]
    constructor
    · rintro ⟨kept, rest⟩
      exact ⟨first.mp kept, (ih kept.cleared).mp rest⟩
    · rintro ⟨unfound, rest⟩
      have kept := first.mpr unfound
      exact ⟨kept, (ih kept.cleared).mpr rest⟩

def withSlurmNode (slurmNode : Except SlurmError SlurmNode) : (c : Command) → c.Reply
  | .getNode _ _ => slurmNode
  | .updateNode _ _ | .createNode _ | .deleteNode _ | .getPartition _ => .ok ()
  | .readNode name => if same : plainNode.name = name then .ok ⟨plainNode, same⟩ else .error .notFound
  | .nodesBySlurmName _ => .ok []
  | .patchTaints _ _ | .patchConditions _ _ => .ok ()
  | .resourceSlices _ => .ok []
  | .nodeInventory _ _ => .ok ⟨[], nodup_nil⟩
  | .push _ _ => ()
  | .pop _ => 0

def passWith (slurmNode : Except SlurmError SlurmNode) : Pass :=
  let pass := reconcile sampleReconciler plainNode.name
  let trace := traceOf (withSlurmNode slurmNode) pass
  { trace
    requeueAfter := (eval (withSlurmNode slurmNode) pass).1
    result := (eval (withSlurmNode slurmNode) pass).2
    store := trace.foldl (fun store e => after store e.1) fun _ => none }

theorem exec_passWith (slurmNode : Except SlurmError SlurmNode) :
    Exec (reconcile sampleReconciler plainNode.name) (passWith slurmNode).trace
      ((passWith slurmNode).requeueAfter, (passWith slurmNode).result) :=
  exec_traceOf _ _

def consistent : Durations → Trace surroundings → Bool
  | _, [] => true
  | store, ⟨.pop key, seconds⟩ :: t => decide (seconds = (store key).getD 0) && consistent (after store (.pop key)) t
  | store, e :: t => consistent (after store e.1) t

theorem evolves_of_consistent {req : String} {store : Durations} {t : Trace surroundings}
    (ok : consistent store t = true) :
    Evolves req store t (t.foldl (fun store e => after store e.1) store) := by
  induction t generalizing store with
  | nil => exact .done ⟨rfl, rfl⟩
  | cons e t ih =>
    obtain ⟨c, reply⟩ := e
    cases c with
    | pop key =>
      simp only [consistent, Bool.and_eq_true, decide_eq_true_eq] at ok
      exact .step ⟨rfl, rfl⟩ ok.1 (ih ok.2)
    | _ => exact .step ⟨rfl, rfl⟩ trivial (ih ok)

/-- A node that is not in Slurm. -/
theorem requeue_kept_iff_absent :
    Passes sampleReconciler "node" (fun _ => none) [passWith (.error .notFound)] ∧
      Kept "node" (passWith (.error .notFound)) := by
  have runs : Passes sampleReconciler "node" (fun _ => none) [passWith (.error .notFound)] :=
    .cons (exec_passWith _) (evolves_of_consistent (by decide +kernel)) (.nil _)
  refine ⟨runs, (requeue_kept_iff runs ⟨rfl, rfl⟩).mpr ?_ _ mem_cons_self⟩
  simp only [forall_mem_singleton]
  obtain ⟨body, seconds, split, -, found⟩ := exec_reconcile (exec_passWith (.error .notFound))
  have none : pushedTo "node" (passWith (.error .notFound)).trace = [] := by decide +kernel
  rw [split, pushedTo_append] at none
  exact found.not.mpr (not_not.mpr (append_eq_nil_iff.mp none).1)

/-- A node in Slurm is not requeued, and its request stays in the store. -/
theorem requeue_lost_present :
    Exec (reconcile sampleReconciler "node") (passWith (.ok { name := "node" })).trace
        ((passWith (.ok { name := "node" })).requeueAfter, (passWith (.ok { name := "node" })).result) ∧
      Evolves "node" (fun _ => none) (passWith (.ok { name := "node" })).trace
        (passWith (.ok { name := "node" })).store ∧
      (passWith (.ok { name := "node" })).result = .ok () ∧
      pushedTo "node" (passWith (.ok { name := "node" })).trace = [30] ∧
      (passWith (.ok { name := "node" })).requeueAfter = 0 ∧
      (passWith (.ok { name := "node" })).store "node" = some 30 :=
  ⟨exec_passWith _, evolves_of_consistent (by decide +kernel), by decide +kernel, by decide +kernel,
    by decide +kernel, by decide +kernel⟩

end SlurmBridge.Node.Requeue
