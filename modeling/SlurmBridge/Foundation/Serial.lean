/- source: none
   digest: Programs over a state that answers their commands in more than one way, and tasks that
     run one after the other: what each step allows holds between any two points of a history. -/

import Mathlib.Logic.Relation
import SlurmBridge.Foundation.Interaction

set_option autoImplicit false

namespace SlurmBridge.Foundation.Serial

open Foundation.Interaction
open Relation (ReflTransGen)

variable {I : Interface} {W α β : Type}

/-- The replies that a command can get in a state, and what the state becomes. -/
abbrev Responds (I : Interface) (W : Type) := (c : I.Cmd) → I.Reply c → W → W → Prop

/-- Every step that the program takes changes the state as `rel` allows, and the result satisfies `post`. -/
def stays (respond : Responds I W) (rel : W → W → Prop) : Prog I α → W → (α → W → Prop) → Prop
  | .ret a, w, post => post a w
  | .step c next, w, post => ∀ r w', respond c r w w' → rel w w' ∧ stays respond rel (next r) w' post

/-- A program may stop anywhere, with what remains of it and the state so far. -/
inductive Onward (respond : Responds I W) : Prog I α → W → Prog I α → W → Prop
  | here (p : Prog I α) (w : W) : Onward respond p w p w
  | step {c : I.Cmd} {next : I.Reply c → Prog I α} {r : I.Reply c} {w w' v : W} {q : Prog I α}
      (responds : respond c r w w') (rest : Onward respond (next r) w' q v) : Onward respond (.step c next) w q v

section
variable {respond : Responds I W} {rel : W → W → Prop} {ε : Type}

@[simp] theorem stays_bind (p : Prog I α) (f : α → Prog I β) (w : W) (post : β → W → Prop) :
    stays respond rel (p >>= f) w post ↔ stays respond rel p w fun a w' => stays respond rel (f a) w' post := by
  induction p generalizing w with
  | ret a => rfl
  | step c next ih =>
    exact forall_congr' fun r => forall_congr' fun w' => imp_congr_right fun _ => and_congr_right fun _ => ih r w'

variable {p : Prog I α} {w : W} {post : α → W → Prop}

theorem stays_mono {post' : α → W → Prop} (holds : stays respond rel p w post)
    (weaken : ∀ a w', post a w' → post' a w') : stays respond rel p w post' := by
  induction p generalizing w with
  | ret a => exact weaken a w holds
  | step c next ih =>
    intro r w' responds
    obtain ⟨allowed, rest⟩ := holds r w' responds
    exact ⟨allowed, ih r rest⟩

@[simp] theorem stays_run_lift (p : Prog I α) (w : W) (post : Except ε α → W → Prop) :
    stays respond rel (monadLift p : ExceptT ε (Prog I) α).run w post ↔
      stays respond rel p w fun a w' => post (.ok a) w' := by
  change stays respond rel (Except.ok <$> p) w post ↔ _
  rw [← bind_pure_comp, stays_bind]
  rfl

theorem stays_run_bind {x : ExceptT ε (Prog I) α} {f : α → ExceptT ε (Prog I) β}
    {post : Except ε β → W → Prop} (mid : α → W → Prop)
    (first : stays respond rel x.run w fun out w' => match out with | .ok a => mid a w' | .error e => post (.error e) w')
    (second : ∀ a w', mid a w' → stays respond rel (f a).run w' post) :
    stays respond rel (x >>= f).run w post := by
  rw [ExceptT.run_bind, stays_bind]
  refine stays_mono first fun out w' known => ?_
  cases out with
  | error e => exact known
  | ok a => exact second a w' known

variable {q : Prog I α} {v : W}

theorem stays_onward (holds : stays respond rel p w post) (run : Onward respond p w q v) :
    ReflTransGen rel w v ∧ stays respond rel q v post := by
  induction run with
  | here p w => exact ⟨.refl, holds⟩
  | step responds _ ih =>
    obtain ⟨allowed, rest⟩ := holds _ _ responds
    obtain ⟨later, remains⟩ := ih rest
    exact ⟨.head allowed later, remains⟩

theorem stays_unchanged (holds : stays respond (fun w w' => w' = w) p w post) (run : Onward respond p w q v) :
    v = w ∧ stays respond (fun w w' => w' = w) q w post := by
  obtain ⟨steps, remains⟩ := stays_onward holds run
  have same : v = w := by
    clear run remains
    induction steps with
    | refl => rfl
    | tail _ equal ih => exact equal.trans ih
  exact ⟨same, same ▸ remains⟩

end

/-- Tasks that run one after the other on a state. -/
structure Tasks (I : Interface) (W : Type) where
  Task : Type
  Out : Type
  code : Task → Prog I Out
  respond : Task → Responds I W

/-- A point of a history: the task that runs, with the rest of its program, and the state. -/
structure Point (S : Tasks I W) where
  running : Option (S.Task × Prog I S.Out)
  state : W

/-- One step of a history in which only the admitted tasks are started. -/
inductive Step (S : Tasks I W) (admitted : S.Task → Prop) : Point S → Point S → Prop
  | start {task : S.Task} {w : W} (admits : admitted task) :
      Step S admitted ⟨none, w⟩ ⟨some (task, S.code task), w⟩
  | act {task : S.Task} {c : I.Cmd} {next : I.Reply c → Prog I S.Out} {r : I.Reply c} {w w' : W}
      (responds : S.respond task c r w w') :
      Step S admitted ⟨some (task, .step c next), w⟩ ⟨some (task, next r), w'⟩
  | stop {task : S.Task} {out : S.Out} {w : W} : Step S admitted ⟨some (task, .ret out), w⟩ ⟨none, w⟩

section
variable {S : Tasks I W} {admitted : S.Task → Prop} {rel : W → W → Prop} {inv : W → Prop}

/-- The invariant holds, and the running task goes on respecting it. -/
def Sound (rel : W → W → Prop) (inv : W → Prop) (p : Point S) : Prop :=
  inv p.state ∧ ∀ task rest, p.running = some (task, rest) →
    stays (S.respond task) (fun w w' => rel w w' ∧ inv w') rest p.state fun _ _ => True

theorem sound_idle {w : W} (holds : inv w) : Sound rel inv (⟨none, w⟩ : Point S) :=
  ⟨holds, fun _ _ running => absurd running (Option.some_ne_none _).symm⟩

/-- What each task respects by itself, a history of tasks respects from any point on. -/
theorem sound_run (code : ∀ task w, admitted task → inv w →
      stays (S.respond task) (fun w w' => rel w w' ∧ inv w') (S.code task) w fun _ _ => True)
    {p q : Point S} (sound : Sound rel inv p) (run : ReflTransGen (Step S admitted) p q) :
    Sound rel inv q ∧ ReflTransGen rel p.state q.state := by
  induction run with
  | refl => exact ⟨sound, .refl⟩
  | tail _ step ih =>
    obtain ⟨⟨holds, goes⟩, related⟩ := ih
    cases step with
    | start admits =>
      refine ⟨⟨holds, ?_⟩, related⟩
      rintro _ _ ⟨⟩
      exact code _ _ admits holds
    | act responds =>
      obtain ⟨⟨allowed, kept⟩, remains⟩ := goes _ _ rfl _ _ responds
      refine ⟨⟨kept, ?_⟩, related.tail allowed⟩
      rintro _ _ ⟨⟩
      exact remains
    | stop => exact ⟨sound_idle holds, related⟩

theorem run_task {task : S.Task} {answer : (c : I.Cmd) → W → I.Reply c × W}
    (answers : ∀ c w, S.respond task c (answer c w).1 w (answer c w).2) (admits : admitted task) (w : W) :
    ReflTransGen (Step S admitted) ⟨none, w⟩ ⟨none, (runIn answer (S.code task) w).2⟩ := by
  have rest : ∀ (p : Prog I S.Out) (w : W), ReflTransGen (Step S admitted) ⟨some (task, p), w⟩
      ⟨some (task, .ret (runIn answer p w).1), (runIn answer p w).2⟩ := by
    intro p
    induction p with
    | ret out => exact fun w => .refl
    | step c next ih => exact fun w => .head (.act (answers c w)) (ih _ _)
  exact .head (.start admits) ((rest _ w).tail .stop)

end

end SlurmBridge.Foundation.Serial
