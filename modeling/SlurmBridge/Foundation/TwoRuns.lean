/- source: none
   digest: Two programs that issue the same commands and get related replies, with one rule per
     construct. -/

import Mathlib.Data.List.Forall2
import SlurmBridge.Foundation.Interaction

set_option autoImplicit false

namespace SlurmBridge.Foundation.TwoRuns

open Foundation.Interaction

variable {I : Interface} {α α' β β' ε : Type} {R : (c : I.Cmd) → I.Reply c → I.Reply c → Prop}

/-- The same command with related replies. -/
inductive Related (R : (c : I.Cmd) → I.Reply c → I.Reply c → Prop) : Event I → Event I → Prop
  | mk {c : I.Cmd} {r r' : I.Reply c} (related : R c r r') : Related R ⟨c, r⟩ ⟨c, r'⟩

/-- Whatever the first program does, the second one does with related replies, and then the results
are related. -/
def Alike (R : (c : I.Cmd) → I.Reply c → I.Reply c → Prop) (p : Prog I α) (q : Prog I β)
    (post : α → β → Prop) : Prop :=
  ∀ t a, Exec p t a → ∀ t', List.Forall₂ (Related R) t t' → ∃ b, Exec q t' b ∧ post a b

variable {post : α → β → Prop} {a : α} {b : β}

theorem alike_pure (related : post a b) : Alike R (pure a) (pure b) post := by
  intro t a' run t' same
  cases run
  cases same
  exact ⟨b, .ret b, related⟩

theorem alike_call (c : I.Cmd) : Alike R (.call c) (.call c) (R c) := by
  intro t r run t' same
  obtain rfl := exec_call run
  obtain ⟨_, _, ⟨related⟩, rest, rfl⟩ := List.forall₂_cons_left_iff.mp same
  cases rest
  exact ⟨_, .step c .ret _ [] _ (.ret _), related⟩

private theorem forall₂_split {a b : Type} {P : a → b → Prop} {l₁ l₂ : List a} {l' : List b}
    (same : List.Forall₂ P (l₁ ++ l₂) l') :
    ∃ l₁' l₂', l' = l₁' ++ l₂' ∧ List.Forall₂ P l₁ l₁' ∧ List.Forall₂ P l₂ l₂' :=
  ⟨l'.take l₁.length, l'.drop l₁.length, (List.take_append_drop _ _).symm,
    List.forall₂_take_append l' l₁ l₂ same.flip |>.flip, List.forall₂_drop_append l' l₁ l₂ same.flip |>.flip⟩

variable {p : Prog I α} {f : α → Prog I β}

theorem exec_bind_intro {t t' : Trace I} (first : Exec p t a) (second : Exec (f a) t' b) :
    Exec (p >>= f) (t ++ t') b := by
  induction first with
  | ret a => exact second
  | step c next r t a _ ih => exact .step c _ r _ b (ih second)

variable {post' : β → β' → Prop}

theorem alike_bind {q : Prog I α'} {g : α' → Prog I β'} {post : α → α' → Prop} (first : Alike R p q post)
    (second : ∀ a a', post a a' → Alike R (f a) (g a') post') : Alike R (p >>= f) (q >>= g) post' := by
  intro t b run t' same
  obtain ⟨t₁, a, t₂, rfl, run₁, run₂⟩ := exec_bind run
  obtain ⟨t₁', t₂', rfl, same₁, same₂⟩ := forall₂_split same
  obtain ⟨a', run₁', related⟩ := first t₁ a run₁ t₁' same₁
  obtain ⟨b', run₂', related'⟩ := second a a' related t₂ b run₂ t₂' same₂
  exact ⟨b', exec_bind_intro run₁' run₂', related'⟩

/-- Results are related if both fail with the same error or both succeed with related values. -/
def Both (post : α → β → Prop) : Except ε α → Except ε β → Prop
  | .error e, .error e' => e = e'
  | .ok a, .ok b => post a b
  | _, _ => False

variable {x : ExceptT ε (Prog I) α}

theorem alike_run_bind {y : ExceptT ε (Prog I) α'} {f : α → ExceptT ε (Prog I) β}
    {g : α' → ExceptT ε (Prog I) β'} {post : α → α' → Prop} (first : Alike R x.run y.run (Both post))
    (second : ∀ a a', post a a' → Alike R (f a).run (g a').run (Both post')) :
    Alike R (x >>= f).run (y >>= g).run (Both post') := by
  refine alike_bind first fun out out' related => ?_
  cases out with
  | error e =>
    cases out' with
    | error e' => exact alike_pure related
    | ok a' => exact related.elim
  | ok a =>
    cases out' with
    | error e' => exact related.elim
    | ok a' => exact second a a' related

theorem alike_run_call (c : I.Cmd) : Alike R (monadLift (Prog.call c) : ExceptT ε (Prog I) (I.Reply c)).run
      (monadLift (Prog.call c) : ExceptT ε (Prog I) (I.Reply c)).run (Both (R c)) :=
  alike_bind (alike_call c) fun _ _ related => alike_pure related

theorem alike_run_pure (related : post a b) :
    Alike R (pure a : ExceptT ε (Prog I) α).run (pure b : ExceptT ε (Prog I) β).run (Both post) :=
  alike_pure related

variable {allowed : I.Cmd → Prop}

theorem alike_self (only : Only allowed p) (equal : ∀ c r r', allowed c → R c r r' → r = r') : Alike R p p Eq := by
  intro t a run
  induction run with
  | ret a =>
    intro t' same
    cases same
    exact ⟨a, .ret a, rfl⟩
  | step c next r t a _ ih =>
    intro t' same
    obtain ⟨_, _, ⟨related⟩, rest, rfl⟩ := List.forall₂_cons_left_iff.mp same
    obtain rfl := equal c _ _ only.1 related
    obtain ⟨b, run, result⟩ := ih (only.2 _) _ rest
    exact ⟨b, .step c next _ _ b run, result⟩

theorem alike_run_self (only : Only allowed x.run) (equal : ∀ c r r', allowed c → R c r r' → r = r') :
    Alike R x.run x.run (Both Eq) := by
  intro t out run t' same
  obtain ⟨out', run', rfl⟩ := alike_self only equal t out run t' same
  refine ⟨out, run', ?_⟩
  cases out with
  | error e => rfl
  | ok a => rfl

end SlurmBridge.Foundation.TwoRuns
