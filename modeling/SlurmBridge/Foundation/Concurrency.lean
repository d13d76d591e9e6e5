/- source: none
   digest: Programs that run concurrently over a shared state, the history of their commands, and
     the invariant rule that combines what each program respects by itself. -/

import Mathlib.Data.Multiset.Basic
import Mathlib.Algebra.BigOperators.Group.Multiset.Basic
import SlurmBridge.Foundation.Interaction

set_option autoImplicit false

namespace SlurmBridge.Foundation.Concurrency

open Foundation.Checked Foundation.Interaction Multiset

/-- A system of concurrent threads over a shared state.  A thread runs the code of its task one
command at a time; what else happens to the state is a step of the environment. -/
structure System (I : Interface) where
  State : Type
  Task : Type
  Out : Type
  code : Task → Prog I Out
  initial : State → Prop
  /-- The replies that a command can get, and what the state becomes. -/
  respond : (c : I.Cmd) → I.Reply c → State → State → Prop
  start : Task → State → State → Prop
  stop : Task → Out → State → State → Prop
  environment : State → State → Prop

variable {I : Interface}

structure Thread (S : System I) where
  task : S.Task
  past : Trace I
  rest : Prog I S.Out

/-- A command as a thread issued it after its own past. -/
structure Moment (S : System I) where
  task : S.Task
  past : Trace I
  event : Event I

structure Config (S : System I) where
  state : S.State
  pool : Multiset (Thread S)
  log : List (Moment S)

/-- The configurations that some interleaving leads to. -/
inductive Reachable (S : System I) : Config S → Prop
  | init {s : S.State} (initial : S.initial s) : Reachable S ⟨s, 0, []⟩
  | act {s s' : S.State} {task : S.Task} {past : Trace I} {c : I.Cmd} {next : I.Reply c → Prog I S.Out}
      {reply : I.Reply c} {others : Multiset (Thread S)} {log : List (Moment S)}
      (before : Reachable S ⟨s, ⟨task, past, .step c next⟩ ::ₘ others, log⟩)
      (responds : S.respond c reply s s') :
      Reachable S ⟨s', ⟨task, past ++ [⟨c, reply⟩], next reply⟩ ::ₘ others, log ++ [⟨task, past, ⟨c, reply⟩⟩]⟩
  | start {s s' : S.State} {task : S.Task} {others : Multiset (Thread S)} {log : List (Moment S)}
      (before : Reachable S ⟨s, others, log⟩) (starts : S.start task s s') :
      Reachable S ⟨s', ⟨task, [], S.code task⟩ ::ₘ others, log⟩
  | stop {s s' : S.State} {task : S.Task} {past : Trace I} {out : S.Out}
      {others : Multiset (Thread S)} {log : List (Moment S)}
      (before : Reachable S ⟨s, ⟨task, past, .ret out⟩ ::ₘ others, log⟩)
      (stops : S.stop task out s s') : Reachable S ⟨s', others, log⟩
  | environment {s s' : S.State} {pool : Multiset (Thread S)} {log : List (Moment S)}
      (before : Reachable S ⟨s, pool, log⟩) (changes : S.environment s s') :
      Reachable S ⟨s', pool, log⟩

variable {S : System I}

def Config.crew (cfg : Config S) : Multiset (S.Task × Trace I) :=
  cfg.pool.map fun thread => (thread.task, thread.past)

section
variable {guard : S.Task → Trace I → I.Cmd → Prop} {post : S.Task → Trace I → S.Out → Prop} {cfg : Config S}

/-- Whatever the others do, a thread goes on respecting the guard of its task. -/
theorem Reachable.respects (reach : Reachable S cfg)
    (code : ∀ task, wp (guard task) (S.code task) [] (post task)) :
    ∀ thread ∈ cfg.pool, wp (guard thread.task) thread.rest thread.past (post thread.task) := by
  induction reach with
  | init => simp
  | act _ _ ih =>
    intro thread member
    rcases mem_cons.mp member with rfl | other
    · exact (ih _ (mem_cons_self _ _)).2 _
    · exact ih thread (mem_cons_of_mem other)
  | start _ _ ih =>
    intro thread member
    rcases mem_cons.mp member with rfl | other
    · exact code _
    · exact ih thread other
  | stop _ _ ih => exact fun thread member => ih thread (mem_cons_of_mem member)
  | environment _ _ ih => exact ih

/-- Every command in the history met the guard of its task. -/
theorem Reachable.guarded (reach : Reachable S cfg)
    (code : ∀ task, wp (guard task) (S.code task) [] (post task)) :
    ∀ m ∈ cfg.log, guard m.task m.past m.event.1 := by
  induction reach with
  | init => simp
  | act before _ ih =>
    exact forall_mem_snoc ih (before.respects code _ (mem_cons_self _ _)).1
  | start _ _ ih => exact ih
  | stop _ _ ih => exact ih
  | environment _ _ ih => exact ih

/-- The invariant rule.  An invariant of the state, the threads' pasts and the history holds
everywhere if each command that meets its guard keeps it, and so do the start and the end of a thread
and the environment. -/
theorem Reachable.invariant (reach : Reachable S cfg)
    (code : ∀ task, wp (guard task) (S.code task) [] (post task))
    (inv : S.State → Multiset (S.Task × Trace I) → List (Moment S) → Prop)
    (init : ∀ s, S.initial s → inv s 0 [])
    (act : ∀ s s' task past c reply others log, inv s ((task, past) ::ₘ others) log → guard task past c → S.respond c reply s s' → inv s' ((task, past ++ [⟨c, reply⟩]) ::ₘ others) (log ++ [⟨task, past, ⟨c, reply⟩⟩]))
    (start : ∀ s s' task others log, inv s others log → S.start task s s' → inv s' ((task, []) ::ₘ others) log)
    (stop : ∀ s s' task past out others log, inv s ((task, past) ::ₘ others) log → post task past out → S.stop task out s s' → inv s' others log)
    (environment : ∀ s s' others log, inv s others log → S.environment s s' → inv s' others log) :
    inv cfg.state cfg.crew cfg.log := by
  induction reach with
  | init initial => exact init _ initial
  | @act s s' task past c next reply others log before responds ih =>
    have allowed := (before.respects code _ (mem_cons_self _ _)).1
    simp only [Config.crew, map_cons] at ih ⊢
    exact act s s' task past c reply _ log ih allowed responds
  | start before starts ih =>
    simp only [Config.crew, map_cons] at ih ⊢
    exact start _ _ _ _ _ ih starts
  | stop before stops ih =>
    have ends := before.respects code _ (mem_cons_self _ _)
    simp only [Config.crew, map_cons] at ih ⊢
    exact stop _ _ _ _ _ _ _ ih ends stops
  | environment before changes ih => exact environment _ _ _ _ ih changes

end

theorem snoc_split {α : Type} {log before after : List α} {x m : α}
    (split : log ++ [x] = before ++ m :: after) :
    (after = [] ∧ log = before ∧ m = x) ∨ ∃ earlier, after = earlier ++ [x] ∧ log = before ++ m :: earlier := by
  rcases after.eq_nil_or_concat' with rfl | ⟨earlier, last, rfl⟩
  · obtain ⟨old, new⟩ := List.append_inj' split rfl
    exact .inl ⟨rfl, old, (List.cons.inj new).1.symm⟩
  · rw [← List.cons_append, ← List.append_assoc] at split
    obtain ⟨old, new⟩ := List.append_inj' split rfl
    exact .inr ⟨earlier, by rw [(List.cons.inj new).1], old⟩

/-- The moments of a thread that issues some commands after its past. -/
def moments (task : S.Task) : Trace I → Trace I → List (Moment S)
  | _, [] => []
  | past, e :: t => ⟨task, past, e⟩ :: moments task (past ++ [e]) t

section
variable {answer : (c : I.Cmd) → S.State → I.Reply c × S.State}

variable {task : S.Task} {others : Multiset (Thread S)} {p : Prog I S.Out} {s : S.State} {past : Trace I}
  {log : List (Moment S)}

theorem Reachable.proceed (answers : ∀ c s, S.respond c (answer c s).1 s (answer c s).2)
    (reach : Reachable S ⟨s, ⟨task, past, p⟩ ::ₘ others, log⟩) :
    Reachable S ⟨(runIn answer p s).2, ⟨task, past ++ recordIn answer p s,
      .ret (runIn answer p s).1⟩ ::ₘ others, log ++ moments task past (recordIn answer p s)⟩ := by
  induction p generalizing s past log with
  | ret out => simpa [runIn, recordIn, moments] using reach
  | step c next ih =>
    have onward := ih _ (reach.act (answers c s))
    simpa [runIn, recordIn, moments] using onward

/-- A task can run from its start to its end without interruption. -/
theorem Reachable.run (answers : ∀ c s, S.respond c (answer c s).1 s (answer c s).2)
    {pool : Multiset (Thread S)} {s₁ s₂ : S.State} (reach : Reachable S ⟨s, pool, log⟩) (task : S.Task)
    (starts : S.start task s s₁)
    (stops : S.stop task (runIn answer (S.code task) s₁).1 (runIn answer (S.code task) s₁).2 s₂) :
    Reachable S ⟨s₂, pool, log ++ moments task [] (recordIn answer (S.code task) s₁)⟩ :=
  ((reach.start starts).proceed answers).stop stops

end

end SlurmBridge.Foundation.Concurrency
