/- source: none
   digest: Tasks that run one after the other on a state which also changes by itself, at any time. -/

import SlurmBridge.Foundation.Serial

set_option autoImplicit false

namespace SlurmBridge.Foundation.Sessions

open Foundation.Interaction
open Foundation.Checked (visit)
open Foundation.Serial (Responds)
open Relation (ReflTransGen)

/-- Tasks with the states in which they can be started, the replies to their commands, and the changes
that happen without them. -/
structure Service (I : Interface) (W : Type) where
  Task : Type
  Out : Type
  code : Task → Prog I Out
  admits : Task → W → Prop
  respond : Responds I W
  changes : W → W → Prop

variable {I : Interface} {W α β σ : Type}

/-- The task that runs, if any, with the rest of its program, and the state. -/
structure Stage (S : Service I W) where
  running : Option (S.Task × Prog I S.Out)
  state : W

inductive Move (S : Service I W) : Stage S → Stage S → Prop
  | start {task : S.Task} {w : W} (admits : S.admits task w) : Move S ⟨none, w⟩ ⟨some (task, S.code task), w⟩
  | act {task : S.Task} {c : I.Cmd} {next : I.Reply c → Prog I S.Out} {r : I.Reply c} {w w' : W}
      (responds : S.respond c r w w') : Move S ⟨some (task, .step c next), w⟩ ⟨some (task, next r), w'⟩
  | stop {task : S.Task} {out : S.Out} {w : W} : Move S ⟨some (task, .ret out), w⟩ ⟨none, w⟩
  | change {running : Option (S.Task × Prog I S.Out)} {w w' : W} (changes : S.changes w w') :
      Move S ⟨running, w⟩ ⟨running, w'⟩

section
variable {respond : Responds I W} {changes : W → W → Prop} {rel : W → W → Prop}

/-- Whatever changes before each of its steps and after the last one, the steps of the program are as
`rel` allows, and the result satisfies `post`. -/
def upholds (respond : Responds I W) (changes rel : W → W → Prop) : Prog I α → W → (α → W → Prop) → Prop
  | .ret a, w, post => ∀ v, ReflTransGen changes w v → post a v
  | .step c next, w, post => ∀ v, ReflTransGen changes w v → ∀ r w', respond c r v w' →
      rel v w' ∧ upholds respond changes rel (next r) w' post

variable {p : Prog I α} {w : W} {post : α → W → Prop}

theorem upholds_later {v : W} (holds : upholds respond changes rel p w post)
    (later : ReflTransGen changes w v) : upholds respond changes rel p v post := by
  cases p with
  | ret | step => exact fun u further => holds u (later.trans further)

theorem upholds_mono {post' : α → W → Prop} (holds : upholds respond changes rel p w post)
    (weaken : ∀ a w', post a w' → post' a w') : upholds respond changes rel p w post' := by
  induction p generalizing w with
  | ret a => exact fun v later => weaken a v (holds v later)
  | step c next ih =>
    intro v later r w' responds
    obtain ⟨allowed, rest⟩ := holds v later r w' responds
    exact ⟨allowed, ih r rest⟩

theorem upholds_bind {f : α → Prog I β} {post : β → W → Prop}
    (holds : upholds respond changes rel p w fun a w' => upholds respond changes rel (f a) w' post) :
    upholds respond changes rel (p >>= f) w post := by
  induction p generalizing w with
  | ret a => exact holds w .refl
  | step c next ih =>
    intro v later r w' responds
    obtain ⟨allowed, rest⟩ := holds v later r w' responds
    exact ⟨allowed, ih r rest⟩

/-- The loop rule.  The invariant speaks about the elements already visited. -/
theorem upholds_loop {body : σ → α → Prog I (Flow σ β)} {post : Flow σ β → W → Prop}
    (inv : List α → σ → W → Prop) {xs : List α} {s : σ} (init : inv [] s w)
    (body_spec : ∀ seen x rest s w, xs = seen ++ x :: rest → inv seen s w → upholds respond changes rel (body s x) w fun out w' => match out with | .next s' => inv (seen ++ [x]) s' w' | .stop b => ∀ v, ReflTransGen changes w' v → post (.stop b) v)
    (done : ∀ s w v, inv xs s w → ReflTransGen changes w v → post (.next s) v) :
    upholds respond changes rel (loop body xs s) w post := by
  refine visit (P := fun seen rest => ∀ s w, inv seen s w → upholds respond changes rel (loop body rest s) w post)
    (fun s w holds v => done s w v holds) ?_ s w init
  intro seen x rest split ih s w holds
  refine upholds_bind (upholds_mono (body_spec seen x rest s w split holds) fun out w' kept => ?_)
  cases out with
  | next s' => exact ih s' w' kept
  | stop b => exact kept

end

section
variable {S : Service I W} {rel : W → W → Prop} {inv : W → Prop} {post : S.Task → S.Out → W → Prop}

/-- The invariant holds, and the running task goes on respecting it and ends as it should. -/
structure Sound (rel : W → W → Prop) (inv : W → Prop) (post : S.Task → S.Out → W → Prop) (p : Stage S) : Prop where
  holds : inv p.state
  goes : ∀ task rest, p.running = some (task, rest) →
    upholds S.respond S.changes (fun w w' => rel w w' ∧ inv w') rest p.state (post task)

variable {w : W}

theorem sound_idle (holds : inv w) : Sound rel inv post (⟨none, w⟩ : Stage S) :=
  ⟨holds, fun _ _ running => absurd running (Option.some_ne_none _).symm⟩

variable {p q : Stage S}

/-- What each task respects by itself, and what every change respects, every run respects. -/
theorem sound_run
    (code : ∀ task w, inv w → S.admits task w → upholds S.respond S.changes (fun w w' => rel w w' ∧ inv w') (S.code task) w (post task))
    (change : ∀ w w', S.changes w w' → rel w w' ∧ (inv w → inv w')) (sound : Sound rel inv post p)
    (run : ReflTransGen (Move S) p q) : Sound rel inv post q ∧ ReflTransGen rel p.state q.state := by
  induction run with
  | refl => exact ⟨sound, .refl⟩
  | tail _ move ih =>
    obtain ⟨⟨holds, goes⟩, related⟩ := ih
    cases move with
    | @start task w admits =>
      refine ⟨⟨holds, ?_⟩, related⟩
      rintro _ _ ⟨⟩
      exact code _ _ holds admits
    | act responds =>
      obtain ⟨⟨allowed, kept⟩, remains⟩ := goes _ _ rfl _ .refl _ _ responds
      refine ⟨⟨kept, ?_⟩, related.tail allowed⟩
      rintro _ _ ⟨⟩
      exact remains
    | stop => exact ⟨sound_idle holds, related⟩
    | change changes =>
      obtain ⟨allowed, kept⟩ := change _ _ changes
      exact ⟨⟨kept holds, fun task rest running => upholds_later (goes task rest running) (.single changes)⟩,
        related.tail allowed⟩

/-- Between the tasks the state is as it should be, and the running task will leave it so. -/
structure Settles (rel : W → W → Prop) (idle : W → Prop) (p : Stage S) : Prop where
  holds : p.running = none → idle p.state
  goes : ∀ task rest, p.running = some (task, rest) → upholds S.respond S.changes rel rest p.state fun _ => idle

/-- What each task respects by itself if it starts between tasks, every run respects. -/
theorem settles_run {idle : W → Prop}
    (code : ∀ task w, idle w → S.admits task w → upholds S.respond S.changes rel (S.code task) w fun _ => idle)
    (change : ∀ w w', S.changes w w' → rel w w' ∧ (idle w → idle w')) (settles : Settles rel idle p)
    (run : ReflTransGen (Move S) p q) : Settles rel idle q ∧ ReflTransGen rel p.state q.state := by
  induction run with
  | refl => exact ⟨settles, .refl⟩
  | tail _ move ih =>
    obtain ⟨⟨holds, goes⟩, related⟩ := ih
    cases move with
    | start admits =>
      refine ⟨⟨by simp, ?_⟩, related⟩
      rintro _ _ ⟨⟩
      exact code _ _ (holds rfl) admits
    | act responds =>
      obtain ⟨allowed, remains⟩ := goes _ _ rfl _ .refl _ _ responds
      refine ⟨⟨by simp, ?_⟩, related.tail allowed⟩
      rintro _ _ ⟨⟩
      exact remains
    | stop => exact ⟨⟨fun _ => goes _ _ rfl _ .refl, by simp⟩, related⟩
    | change changes =>
      obtain ⟨allowed, kept⟩ := change _ _ changes
      exact ⟨⟨fun none => kept (holds none), fun task rest running =>
        upholds_later (goes task rest running) (.single changes)⟩, related.tail allowed⟩

variable {task : S.Task} {out : S.Out}

theorem Sound.ended (sound : Sound rel inv post ⟨some (task, .ret out), w⟩) :
    post task out w := sound.goes task (.ret out) rfl w .refl

/-- The replies of a trace, one after the other, lead from one state to another. -/
def Answers (respond : Responds I W) : Trace I → W → W → Prop
  | [], w, w' => w' = w
  | e :: t, w, w' => ∃ v, respond e.1 e.2 w v ∧ Answers respond t v w'

theorem run_exec {p : Prog I S.Out} {t : Trace I} {w' : W} (exec : Exec p t out)
    (answers : Answers S.respond t w w') :
    ReflTransGen (Move S) ⟨some (task, p), w⟩ ⟨some (task, .ret out), w'⟩ := by
  induction exec generalizing w with
  | ret a =>
    obtain rfl := answers
    exact .refl
  | step c next r t a _ ih =>
    obtain ⟨v, responds, rest⟩ := answers
    exact .head (.act responds) (ih rest)

theorem run_task {answer : (c : I.Cmd) → W → I.Reply c × W}
    (answers : ∀ c w, S.respond c (answer c w).1 w (answer c w).2) (admits : S.admits task w) :
    ReflTransGen (Move S) ⟨none, w⟩ ⟨none, (runIn answer (S.code task) w).2⟩ := by
  have rest : ∀ (p : Prog I S.Out) (w : W), ReflTransGen (Move S) ⟨some (task, p), w⟩
      ⟨some (task, .ret (runIn answer p w).1), (runIn answer p w).2⟩ := by
    intro p
    induction p with
    | ret out => exact fun w => .refl
    | step c next ih => exact fun w => .head (.act (answers c w)) (ih _ _)
  exact .head (.start admits) ((rest _ w).tail .stop)

end

end SlurmBridge.Foundation.Sessions
