/- source: none
   digest: Programs whose commands are programs of a lower level, and triples for them on a state that
     also changes by itself. -/

import SlurmBridge.Foundation.Sessions
import SlurmBridge.Foundation.TwoRuns

set_option autoImplicit false

namespace SlurmBridge.Foundation.Handlers

open Foundation.Interaction Foundation.Sessions
open Foundation.Checked (visit)
open Foundation.Serial (Responds)
open Foundation.TwoRuns (exec_bind_intro)
open Relation (ReflTransGen)

variable {I J : Interface} {W α β σ ε : Type}

/-- Replace every command by the program that carries it out. -/
def interp (handler : (c : I.Cmd) → Prog J (I.Reply c)) : Prog I α → Prog J α
  | .ret a => .ret a
  | .step c next => handler c >>= fun r => interp handler (next r)

section
variable {handler : (c : I.Cmd) → Prog J (I.Reply c)}

theorem interp_bind (p : Prog I α) (f : α → Prog I β) :
    interp handler (p >>= f) = interp handler p >>= fun a => interp handler (f a) := by
  induction p with
  | ret a => rfl
  | step c next ih =>
    show (handler c >>= fun r => interp handler (next r >>= f)) = _
    simp only [ih]
    exact (bind_assoc _ _ _).symm

theorem interp_call (c : I.Cmd) : interp handler (Prog.call c) = handler c := bind_pure (handler c)

theorem only_interp {allowed : J.Cmd → Prop} (each : ∀ c, Only allowed (handler c)) (p : Prog I α) :
    Only allowed (interp handler p) := by
  induction p with
  | ret a => trivial
  | step c next ih => exact only_bind (each c) ih

end

/-- Changes do not make a property false. -/
def Stable (changes : W → W → Prop) (P : W → Prop) : Prop := ∀ w v, changes w v → P w → P v

theorem Stable.later {changes : W → W → Prop} {P : W → Prop} (stable : Stable changes P) {w v : W} (holds : P w)
    (later : ReflTransGen changes w v) : P v := by
  induction later with
  | refl => exact holds
  | tail _ change ih => exact stable _ _ change ih

/-- From a state with the precondition, the program respects `rel` and ends with the postcondition. -/
def Triple (respond : Responds J W) (changes rel : W → W → Prop) (pre : W → Prop) (p : Prog J α)
    (post : α → W → Prop) : Prop := ∀ w, pre w → upholds respond changes rel p w post

section
variable {respond : Responds J W} {changes rel : W → W → Prop} {pre fail : W → Prop}
  {handler : (c : I.Cmd) → Prog J (I.Reply c)}

variable {a : α} {post : α → W → Prop}

theorem triple_pure (stable : Stable changes (post a)) (holds : ∀ w, pre w → post a w) :
    Triple respond changes rel pre (pure a : Prog J α) post :=
  fun w before _ later => stable.later (holds w before) later

variable {p : Prog J α}

theorem triple_bind {f : α → Prog J β} {post : β → W → Prop} (mid : α → W → Prop)
    (first : Triple respond changes rel pre p mid)
    (second : ∀ a, Triple respond changes rel (mid a) (f a) post) :
    Triple respond changes rel pre (p >>= f) post :=
  fun w before => upholds_bind (upholds_mono (first w before) fun a w' => second a w')

theorem triple_call {c : J.Cmd} {post : J.Reply c → W → Prop} (before : Stable changes pre)
    (after : ∀ r, Stable changes (post r)) (acts : ∀ w r w', pre w → respond c r w w' → rel w w' ∧ post r w') :
    Triple respond changes rel pre (Prog.call c) post := by
  intro w holds v later r w' responds
  obtain ⟨allowed, reached⟩ := acts v r w' (before.later holds later) responds
  exact ⟨allowed, fun u further => (after r).later reached further⟩

theorem triple_mono {pre' : W → Prop} {post' : α → W → Prop} (holds : Triple respond changes rel pre' p post')
    (stronger : ∀ w, pre w → pre' w) (weaker : ∀ a w, post' a w → post a w) :
    Triple respond changes rel pre p post :=
  fun w before => upholds_mono (holds w (stronger w before)) weaker

/-- The postcondition of a program that can fail. -/
def orFail (fail : W → Prop) (post : α → W → Prop) : Except ε α → W → Prop
  | .ok a => post a
  | .error _ => fail

theorem triple_run_throw {e : ε} (stable : Stable changes fail) (holds : ∀ w, pre w → fail w) :
    Triple respond changes rel pre (interp handler (throw e : ExceptT ε (Prog I) α).run) (orFail fail post) :=
  fun w before _ later => stable.later (holds w before) later

theorem triple_run_pure (stable : Stable changes (post a)) (holds : ∀ w, pre w → post a w) :
    Triple respond changes rel pre (interp handler (pure a : ExceptT ε (Prog I) α).run) (orFail fail post) :=
  fun w before _ later => stable.later (holds w before) later

theorem triple_run_bind {x : ExceptT ε (Prog I) α} {f : α → ExceptT ε (Prog I) β} {post : β → W → Prop}
    (mid : α → W → Prop) (stable : Stable changes fail)
    (first : Triple respond changes rel pre (interp handler x.run) (orFail fail mid))
    (second : ∀ a, Triple respond changes rel (mid a) (interp handler (f a).run) (orFail fail post)) :
    Triple respond changes rel pre (interp handler (x >>= f).run) (orFail fail post) := by
  rw [ExceptT.run_bind, interp_bind]
  refine triple_bind _ first fun out => ?_
  cases out with
  | ok a => exact second a
  | error e => exact fun w failed _ later => stable.later failed later

theorem triple_run_lift {p : Prog I α} (stable : ∀ a, Stable changes (post a))
    (holds : Triple respond changes rel pre (interp handler p) post) :
    Triple respond changes rel pre (interp handler (monadLift p : ExceptT ε (Prog I) α).run) (orFail fail post) := by
  change Triple respond changes rel pre (interp handler (Except.ok <$> p)) (orFail fail post)
  rw [← bind_pure_comp, interp_bind]
  exact triple_bind _ holds fun a => triple_pure (stable a) fun _ reached => reached

/-- The loop rule.  The invariant speaks about the elements already visited. -/
theorem triple_run_foldlM {body : σ → α → ExceptT ε (Prog I) σ} {xs : List α} {s : σ} (inv : List α → σ → W → Prop)
    (stable : Stable changes fail) (stays : ∀ seen s, Stable changes (inv seen s))
    (body_spec : ∀ seen x rest s, xs = seen ++ x :: rest →
      Triple respond changes rel (inv seen s) (interp handler (body s x).run) (orFail fail (inv (seen ++ [x])))) :
    Triple respond changes rel (inv [] s) (interp handler (xs.foldlM body s).run) (orFail fail (inv xs)) := by
  refine visit (P := fun seen rest => ∀ s, Triple respond changes rel (inv seen s)
    (interp handler (rest.foldlM body s).run) (orFail fail (inv xs))) ?_ ?_ s
  · intro s
    exact triple_run_pure (stays xs s) fun _ reached => reached
  · intro seen x rest split ih s
    exact triple_run_bind _ stable (body_spec seen x rest s split) ih

end

end SlurmBridge.Foundation.Handlers
