/- source: none
   digest: Programs that issue commands and read replies, their traces, a guarded
     precondition calculus over histories, and runs against a deterministic world. -/

import Mathlib.Data.List.Induction
import SlurmBridge.Foundation.Checked

set_option autoImplicit false

namespace SlurmBridge.Foundation.Interaction

open Foundation.Checked (visit)
open List

/-- A set of commands together with the type of reply each of them receives. -/
structure Interface where
  Cmd : Type
  Reply : Cmd → Type

/-- A sequential program over an interface: it returns, or issues one command and
continues with the reply, which the surroundings choose. -/
inductive Prog (I : Interface) (α : Type) : Type where
  | ret (a : α)
  | step (c : I.Cmd) (next : I.Reply c → Prog I α)

abbrev Event (I : Interface) := Σ c : I.Cmd, I.Reply c

abbrev Trace (I : Interface) := List (Event I)

variable {I : Interface} {α β σ : Type}

namespace Prog

def bind : Prog I α → (α → Prog I β) → Prog I β
  | ret a, f => f a
  | step c next, f => step c (fun r => (next r).bind f)

instance : Monad (Prog I) where
  pure := ret
  bind := bind

def call (c : I.Cmd) : Prog I (I.Reply c) := step c ret

private theorem bind_ret_right (p : Prog I α) : p.bind ret = p := by
  induction p with
  | ret a => rfl
  | step c next ih => exact congrArg (step c) (funext ih)

private theorem bind_assoc_prog {γ : Type} (p : Prog I α) (f : α → Prog I β)
    (g : β → Prog I γ) : (p.bind f).bind g = p.bind (fun a => (f a).bind g) := by
  induction p with
  | ret a => rfl
  | step c next ih => exact congrArg (step c) (funext ih)

instance : LawfulMonad (Prog I) :=
  LawfulMonad.mk' (Prog I) bind_ret_right (fun _ _ => rfl) bind_assoc_prog

end Prog

/-- Complete executions.  The reply to every command is unconstrained. -/
inductive Exec : Prog I α → Trace I → α → Prop
  | ret (a : α) : Exec (.ret a) [] a
  | step (c : I.Cmd) (next : I.Reply c → Prog I α) (r : I.Reply c) (t : Trace I) (a : α) :
      Exec (next r) t a → Exec (.step c next) (⟨c, r⟩ :: t) a

/-- Executions that may stop anywhere, with the program that remains. -/
inductive Reaches : Prog I α → Trace I → Prog I α → Prop
  | here (p : Prog I α) : Reaches p [] p
  | step (c : I.Cmd) (next : I.Reply c → Prog I α) (r : I.Reply c) (t : Trace I)
      (q : Prog I α) : Reaches (next r) t q → Reaches (.step c next) (⟨c, r⟩ :: t) q

variable {p : Prog I α} {t : Trace I} {a : α}

theorem Exec.reaches (run : Exec p t a) : Reaches p t (.ret a) := by
  induction run with
  | ret a => exact .here _
  | step c next r t a _ ih => exact .step c next r t _ ih

variable {q : Prog I α} {t' : Trace I}

/-- An execution can be stopped after any part of its trace. -/
theorem Reaches.stop (run : Reaches p (t ++ t') q) : ∃ q', Reaches p t q' := by
  induction t generalizing p with
  | nil => exact ⟨p, .here p⟩
  | cons e t ih =>
    cases run with
    | step c next r _ _ rest =>
      obtain ⟨q', short⟩ := ih rest
      exact ⟨q', .step c next r t q' short⟩

/-- `wp guard p h post`: started after the history `h`, the program issues only
commands whose guard holds of the history up to them, whatever the replies are,
and returns only values that satisfy `post` of the history up to the return. -/
def wp (guard : Trace I → I.Cmd → Prop) : Prog I α → Trace I → (Trace I → α → Prop) → Prop
  | .ret a, h, post => post h a
  | .step c next, h, post =>
    guard h c ∧ ∀ r, wp guard (next r) (h ++ [⟨c, r⟩]) post

section
variable {guard : Trace I → I.Cmd → Prop} {h : Trace I}

@[simp] theorem wp_ret (a : α) (post : Trace I → α → Prop) : wp guard (.ret a) h post ↔ post h a := Iff.rfl

@[simp] theorem wp_pure (a : α) (post : Trace I → α → Prop) :
    wp guard (pure a : Prog I α) h post ↔ post h a := Iff.rfl

@[simp] theorem wp_bind (p : Prog I α) (f : α → Prog I β) (post : Trace I → β → Prop) :
    wp guard (p >>= f) h post ↔ wp guard p h (fun h' a => wp guard (f a) h' post) := by
  induction p generalizing h with
  | ret a => rfl
  | step c next ih =>
    exact and_congr_right fun _ => forall_congr' fun r => ih r

@[simp] theorem wp_map (p : Prog I α) (f : α → β) (post : Trace I → β → Prop) :
    wp guard (f <$> p) h post ↔ wp guard p h (fun h' a => post h' (f a)) := by
  rw [← bind_pure_comp, wp_bind]
  rfl

variable {p : Prog I α} {post post' : Trace I → α → Prop}

/-- Consequence.  The continuation may rely on the history only having grown. -/
theorem wp_mono (holds : wp guard p h post) (weaken : ∀ t a, post (h ++ t) a → post' (h ++ t) a) :
    wp guard p h post' := by
  induction p generalizing h with
  | ret a => simpa using weaken [] a (by simpa using holds)
  | step c next ih =>
    refine ⟨holds.1, fun r => ih r (holds.2 r) fun t a => ?_⟩
    simpa using weaken (⟨c, r⟩ :: t) a

variable {guard' : Trace I → I.Cmd → Prop}

theorem wp_and (holds : wp guard p h post) (holds' : wp guard' p h post') :
    wp (fun t c => guard t c ∧ guard' t c) p h fun t a => post t a ∧ post' t a := by
  induction p generalizing h with
  | ret a => exact ⟨holds, holds'⟩
  | step c next ih => exact ⟨⟨holds.1, holds'.1⟩, fun r => ih r (holds.2 r) (holds'.2 r)⟩

theorem wp_guard_mono (holds : wp guard p h post) (weaken : ∀ t c, guard (h ++ t) c → guard' (h ++ t) c) :
    wp guard' p h post := by
  induction p generalizing h with
  | ret a => exact holds
  | step c next ih =>
    refine ⟨by simpa using weaken [] c (by simpa using holds.1), fun r => ?_⟩
    refine ih r (holds.2 r) fun t c' => ?_
    simpa using weaken (⟨c, r⟩ :: t) c'

/-- After a guarded program, all its commands are known to have met the guard. -/
theorem wp_guarded (holds : wp guard p h post) : wp guard p h fun h' a => post h' a ∧
      ∀ before e rest, h' = h ++ before ++ e :: rest → guard (h ++ before) e.1 := by
  induction p generalizing h with
  | ret a =>
    refine ⟨holds, fun before e rest split => ?_⟩
    simpa using congrArg List.length split
  | step c next ih =>
    refine ⟨holds.1, fun r => wp_mono (ih r (holds.2 r)) ?_⟩
    rintro t a ⟨result, guarded⟩
    refine ⟨result, fun before e rest split => ?_⟩
    cases before with
    | nil =>
      have first : (⟨c, r⟩ : Event I) = e := by simpa using congrArg (·[h.length]?) split
      simpa [← first] using holds.1
    | cons d before =>
      have first : (⟨c, r⟩ : Event I) = d := by simpa using congrArg (·[h.length]?) split
      have tail : h ++ [⟨c, r⟩] ++ t = h ++ [⟨c, r⟩] ++ before ++ e :: rest := by
        simpa [← first] using split
      simpa [← first] using guarded before e rest tail

end

variable {guard : Trace I → I.Cmd → Prop} {h : Trace I} {post : Trace I → α → Prop}

/-- What a program respects after one history it respects after another, if the guard carries
over. -/
theorem wp_rebase {guard' : Trace I → I.Cmd → Prop} {h' : Trace I} {post' : Trace I → α → Prop}
    (holds : wp guard p h post) (weaken : ∀ t c, guard (h ++ t) c → guard' (h' ++ t) c)
    (returns : ∀ t a, Exec p t a → post' (h' ++ t) a) : wp guard' p h' post' := by
  induction p generalizing h h' with
  | ret a => simpa using returns [] a (.ret a)
  | step c next ih =>
    refine ⟨by simpa using weaken [] c (by simpa using holds.1), fun r => ih r (holds.2 r) ?_ ?_⟩
    · intro t c' allowed
      simpa using weaken (⟨c, r⟩ :: t) c' (by simpa using allowed)
    · intro t a run
      simpa using returns (⟨c, r⟩ :: t) a (.step c next r t a run)

/-- Every command issued by a partial execution meets its guard. -/
theorem wp_reaches (holds : wp guard p h post) (run : Reaches p t q) : wp guard q (h ++ t) post ∧
      ∀ before e rest, t = before ++ e :: rest → guard (h ++ before) e.1 := by
  induction run generalizing h with
  | here p => simpa using holds
  | step c next r t q _ ih =>
    obtain ⟨remaining, guarded⟩ := ih (holds.2 r)
    refine ⟨by simpa using remaining, fun before e rest split => ?_⟩
    cases before with
    | nil =>
      simp only [nil_append, cons.injEq] at split
      simpa [← split.1] using holds.1
    | cons d before =>
      simp only [cons_append, cons.injEq] at split
      simpa [split.1] using guarded before e rest split.2

/-- Every command of a complete execution meets its guard, and the result its postcondition. -/
theorem wp_exec (holds : wp guard p h post) (run : Exec p t a) :
    post (h ++ t) a ∧ ∀ before e rest, t = before ++ e :: rest → guard (h ++ before) e.1 :=
  wp_reaches holds run.reaches

/-- How one iteration of a loop ends: with the loop variables for the next
iteration, or by leaving the loop with a result. -/
inductive Flow (σ β : Type) where
  | next (s : σ)
  | stop (b : β)

def loop (body : σ → α → Prog I (Flow σ β)) : List α → σ → Prog I (Flow σ β)
  | [], s => pure (.next s)
  | x :: xs, s => do
      match ← body s x with
      | .next s' => loop body xs s'
      | .stop b => pure (.stop b)

variable {xs : List α} {s : σ}

/-- The loop rule.  The invariant speaks about the elements already visited. -/
theorem wp_loop {body : σ → α → Prog I (Flow σ β)} {post : Trace I → Flow σ β → Prop}
    (inv : List α → Trace I → σ → Prop) (init : inv [] h s)
    (body_spec : ∀ seen x rest h s, xs = seen ++ x :: rest → inv seen h s → wp guard (body s x) h fun h' out => match out with | .next s' => inv (seen ++ [x]) h' s' | .stop b => post h' (.stop b))
    (done : ∀ h s, inv xs h s → post h (.next s)) : wp guard (loop body xs s) h post := by
  refine visit (P := fun seen rest => ∀ h s, inv seen h s → wp guard (loop body rest s) h post) done ?_ h s init
  intro seen x rest split ih h s holds
  simp only [loop, wp_bind]
  refine wp_mono (body_spec seen x rest h s split holds) fun t out kept => ?_
  cases out with
  | next s' => exact ih _ s' kept
  | stop b => exact kept

/-- The rule for a fold whose iterations never leave early. -/
theorem wp_foldlM {body : σ → α → Prog I σ} {post : Trace I → σ → Prop} (inv : List α → Trace I → σ → Prop)
    (init : inv [] h s)
    (body_spec : ∀ seen x rest h s, xs = seen ++ x :: rest → inv seen h s → wp guard (body s x) h fun h' s' => inv (seen ++ [x]) h' s')
    (done : ∀ h s, inv xs h s → post h s) : wp guard (xs.foldlM body s) h post := by
  refine visit (P := fun seen rest => ∀ h s, inv seen h s → wp guard (rest.foldlM body s) h post) done ?_ h s init
  intro seen x rest split ih h s holds
  simp only [foldlM_cons, wp_bind]
  exact wp_mono (body_spec seen x rest h s split holds) fun t s' kept => ih _ s' kept

section
variable {ε : Type} {guard : Trace I → I.Cmd → Prop} {h : Trace I}

/-- What is to be shown of a result, when a failure is passed on. -/
def orFail (post : Trace I → Except ε β → Prop) (holds : Trace I → α → Prop) (h : Trace I) : Except ε α → Prop
  | .error e => post h (.error e)
  | .ok a => holds h a

theorem wp_run_bind (x : ExceptT ε (Prog I) α) (f : α → ExceptT ε (Prog I) β)
    (post : Trace I → Except ε β → Prop) :
    wp guard (x >>= f).run h post ↔ wp guard x.run h (orFail post fun h' a => wp guard (f a).run h' post) := by
  rw [ExceptT.run_bind, wp_bind]
  constructor <;> intro holds <;> refine wp_mono holds fun t r => ?_ <;> cases r <;> exact id

@[simp] theorem wp_run_lift (p : Prog I α) (post : Trace I → Except ε α → Prop) :
    wp guard (monadLift p : ExceptT ε (Prog I) α).run h post ↔ wp guard p h fun h' a => post h' (.ok a) := by
  exact wp_map p Except.ok post

/-- What is to be shown of a result, if there is one. -/
def onOk (holds : Trace I → α → Prop) (h : Trace I) (out : Except ε α) : Prop :=
  ∀ a, out = .ok a → holds h a

theorem wp_run_seq {x : ExceptT ε (Prog I) α} {f : α → ExceptT ε (Prog I) β}
    (P : Trace I → α → Prop) {after : Trace I → β → Prop} (first : wp guard x.run h (onOk P))
    (second : ∀ t a, P (h ++ t) a → wp guard (f a).run (h ++ t) (onOk after)) :
    wp guard (x >>= f).run h (onOk after) := by
  rw [wp_run_bind]
  refine wp_mono first fun t out known => ?_
  cases out with
  | error e => exact fun b same => nomatch same
  | ok a => exact second t a (known a rfl)

/-- The rule for a fold whose iterations can fail. -/
theorem wp_run_foldlM {body : σ → α → ExceptT ε (Prog I) σ} {post : Trace I → Except ε σ → Prop}
    (inv : List α → Trace I → σ → Prop) {xs : List α} {s : σ} (init : inv [] h s)
    (body_spec : ∀ seen x rest h s, xs = seen ++ x :: rest → inv seen h s →
      wp guard (body s x).run h (orFail post fun h' s' => inv (seen ++ [x]) h' s'))
    (done : ∀ h s, inv xs h s → post h (.ok s)) :
    wp guard (xs.foldlM body s).run h post := by
  refine visit (P := fun seen rest => ∀ h s, inv seen h s → wp guard (rest.foldlM body s).run h post) done ?_ h s init
  intro seen x rest split ih h s holds
  rw [foldlM_cons, wp_run_bind]
  refine wp_mono (body_spec seen x rest h s split holds) fun t r kept => ?_
  cases r with
  | error e => exact kept
  | ok s' => exact ih _ s' kept

end

/-- The program issues only allowed commands, whatever the replies are. -/
def Only (allowed : I.Cmd → Prop) : Prog I α → Prop
  | .ret _ => True
  | .step c next => allowed c ∧ ∀ r, Only allowed (next r)

section
variable {allowed : I.Cmd → Prop}

theorem only_pure (a : α) : Only allowed (pure a : Prog I α) := trivial

theorem only_call {c : I.Cmd} (ok : allowed c) : Only allowed (Prog.call c) :=
  ⟨ok, fun _ => trivial⟩

variable {p : Prog I α}

theorem only_bind {f : α → Prog I β} (first : Only allowed p) (second : ∀ a, Only allowed (f a)) :
    Only allowed (p >>= f) := by
  induction p with
  | ret a => exact second a
  | step c next ih => exact ⟨first.1, fun r => ih r (first.2 r)⟩

theorem only_ask {c : I.Cmd} {f : I.Reply c → Prog I β} (ok : allowed c) (second : ∀ r, Only allowed (f r)) :
    Only allowed (Prog.call c >>= f) := only_bind (only_call ok) second

theorem only_foldlM {body : σ → α → Prog I σ} (each : ∀ s x, Only allowed (body s x))
    (xs : List α) (s : σ) : Only allowed (xs.foldlM body s) := by
  induction xs generalizing s with
  | nil => exact only_pure s
  | cons x xs ih => exact only_bind (each s x) fun s' => ih s'

theorem only_loop {body : σ → α → Prog I (Flow σ β)} (each : ∀ s x, Only allowed (body s x))
    (xs : List α) (s : σ) : Only allowed (loop body xs s) := by
  induction xs generalizing s with
  | nil => exact only_pure _
  | cons x xs ih =>
    refine only_bind (each s x) fun out => ?_
    cases out with
    | next s' => exact ih s'
    | stop b => exact only_pure _

section
variable {ε : Type}

theorem only_run_bind {x : ExceptT ε (Prog I) α} {f : α → ExceptT ε (Prog I) β}
    (first : Only allowed x.run) (second : ∀ a, Only allowed (f a).run) :
    Only allowed (x >>= f).run := by
  refine only_bind first fun out => ?_
  cases out with
  | error e => exact only_pure _
  | ok a => exact second a

theorem only_run_lift {p : Prog I α} (only : Only allowed p) :
    Only allowed (monadLift p : ExceptT ε (Prog I) α).run :=
  only_bind only fun _ => only_pure _

theorem only_run_ask {c : I.Cmd} {f : I.Reply c → ExceptT ε (Prog I) β} (ok : allowed c)
    (second : ∀ r, Only allowed (f r).run) : Only allowed (monadLift (Prog.call c) >>= f : ExceptT ε (Prog I) β).run :=
  only_run_bind (only_run_lift (only_call ok)) second

theorem only_run_foldlM {body : σ → α → ExceptT ε (Prog I) σ}
    (each : ∀ s x, Only allowed (body s x).run) (xs : List α) (s : σ) :
    Only allowed (xs.foldlM body s).run := by
  induction xs generalizing s with
  | nil => exact only_pure _
  | cons x xs ih =>
    exact only_run_bind (each s x) fun s' => ih s'

end

theorem Only.mono {allowed' : I.Cmd → Prop} (only : Only allowed p) (weaken : ∀ c, allowed c → allowed' c) :
    Only allowed' p := by
  induction p with
  | ret a => trivial
  | step c next ih => exact ⟨weaken c only.1, fun r => ih r (only.2 r)⟩

variable {guard : Trace I → I.Cmd → Prop} {h : Trace I} {post : Trace I → α → Prop}

/-- If the guard never objects to the allowed commands after allowed ones, nothing has to be
shown about a restricted program except what its executions return. -/
theorem wp_of_only_along (only : Only allowed p)
    (ok : ∀ t c, (∀ e ∈ t, allowed e.1) → allowed c → guard (h ++ t) c)
    (returns : ∀ t a, Exec p t a → (∀ e ∈ t, allowed e.1) → post (h ++ t) a) : wp guard p h post := by
  induction p generalizing h with
  | ret a => simpa using returns [] a (.ret a) (by simp)
  | step c next ih =>
    have extend (r : I.Reply c) {t : Trace I} (clean : ∀ e ∈ t, allowed e.1) : ∀ e ∈ ⟨c, r⟩ :: t, allowed e.1 :=
      forall_mem_cons.mpr ⟨only.1, clean⟩
    refine ⟨by simpa using ok [] c (by simp) only.1, fun r => ih r (only.2 r) ?_ ?_⟩
    · intro t c' clean hc'
      simpa using ok (⟨c, r⟩ :: t) c' (extend r clean) hc'
    · intro t a run clean
      simpa using returns (⟨c, r⟩ :: t) a (.step c next r t a run) (extend r clean)

theorem wp_of_only (only : Only allowed p) (ok : ∀ t c, allowed c → guard (h ++ t) c)
    (returns : ∀ t a, Exec p t a → (∀ e ∈ t, allowed e.1) → post (h ++ t) a) : wp guard p h post :=
  wp_of_only_along only (fun t c _ => ok t c) returns

theorem Only.exec {t : Trace I} {a : α} (only : Only allowed p) (run : Exec p t a) : ∀ e ∈ t, allowed e.1 := by
  induction run with
  | ret a => simp
  | step c next r t a _ ih => exact forall_mem_cons.mpr ⟨only.1, ih (only.2 r)⟩

end

/-- Every event of a trace that continues a history is allowed after what precedes it. -/
def Along (allowed : Trace I → Event I → Prop) : Trace I → Trace I → Prop
  | _, [] => True
  | h, e :: t => allowed h e ∧ Along allowed (h ++ [e]) t

theorem along_append {allowed : Trace I → Event I → Prop} :
    Along allowed h (t ++ t') ↔ Along allowed h t ∧ Along allowed (h ++ t) t' := by
  induction t generalizing h with
  | nil => simp [Along]
  | cons e t ih => simp [Along, ih, and_assoc]

/-- `can allowed p h post`: the surroundings can answer the program, by allowed events, such
that it returns with `post`. -/
def can (allowed : Trace I → Event I → Prop) : Prog I α → Trace I → (Trace I → α → Prop) → Prop
  | .ret a, h, post => post h a
  | .step c next, h, post =>
    ∃ r, allowed h ⟨c, r⟩ ∧ can allowed (next r) (h ++ [⟨c, r⟩]) post

section
variable {allowed : Trace I → Event I → Prop} {h : Trace I}

@[simp] theorem can_ret (a : α) (post : Trace I → α → Prop) : can allowed (.ret a) h post ↔ post h a := Iff.rfl

@[simp] theorem can_bind (p : Prog I α) (f : α → Prog I β) (post : Trace I → β → Prop) :
    can allowed (p >>= f) h post ↔ can allowed p h (fun h' a => can allowed (f a) h' post) := by
  induction p generalizing h with
  | ret a => rfl
  | step c next ih =>
    exact exists_congr fun r => and_congr_right fun _ => ih r

variable {p : Prog I α} {post : Trace I → α → Prop}

theorem can_mono {post' : Trace I → α → Prop} (possible : can allowed p h post)
    (weaken : ∀ t a, post (h ++ t) a → post' (h ++ t) a) : can allowed p h post' := by
  induction p generalizing h with
  | ret a => simpa using weaken [] a (by simpa using possible)
  | step c next ih =>
    obtain ⟨r, ok, rest⟩ := possible
    refine ⟨r, ok, ih r rest fun t a => ?_⟩
    simpa using weaken (⟨c, r⟩ :: t) a

theorem can_any (answered : ∀ h c, ∃ r, allowed h ⟨c, r⟩) (p : Prog I α) (holds : ∀ t a, post (h ++ t) a) :
    can allowed p h post := by
  induction p generalizing h with
  | ret a => simpa using holds [] a
  | step c next ih =>
    obtain ⟨r, ok⟩ := answered h c
    refine ⟨r, ok, ih r fun t a => ?_⟩
    simpa using holds (⟨c, r⟩ :: t) a

variable {xs : List α} {s : σ}

theorem can_loop {body : σ → α → Prog I (Flow σ β)} {post : Trace I → Flow σ β → Prop}
    (inv : List α → Trace I → σ → Prop) (init : inv [] h s)
    (body_spec : ∀ seen x rest h s, xs = seen ++ x :: rest → inv seen h s → can allowed (body s x) h fun h' out => match out with | .next s' => inv (seen ++ [x]) h' s' | .stop b => post h' (.stop b))
    (done : ∀ h s, inv xs h s → post h (.next s)) : can allowed (loop body xs s) h post := by
  refine visit (P := fun seen rest => ∀ h s, inv seen h s → can allowed (loop body rest s) h post) done ?_ h s init
  intro seen x rest split ih h s holds
  simp only [loop, can_bind]
  refine can_mono (body_spec seen x rest h s split holds) fun t out kept => ?_
  cases out with
  | next s' => exact ih _ s' kept
  | stop b => exact kept

theorem can_foldlM {body : σ → α → Prog I σ} {post : Trace I → σ → Prop} (inv : List α → Trace I → σ → Prop)
    (init : inv [] h s)
    (body_spec : ∀ seen x rest h s, xs = seen ++ x :: rest → inv seen h s → can allowed (body s x) h fun h' s' => inv (seen ++ [x]) h' s')
    (done : ∀ h s, inv xs h s → post h s) : can allowed (xs.foldlM body s) h post := by
  refine visit (P := fun seen rest => ∀ h s, inv seen h s → can allowed (rest.foldlM body s) h post) done ?_ h s init
  intro seen x rest split ih h s holds
  simp only [foldlM_cons, can_bind]
  exact can_mono (body_spec seen x rest h s split holds) fun t s' kept => ih _ s' kept

theorem can_exec (possible : can allowed p h post) :
    ∃ t a, Exec p t a ∧ Along allowed h t ∧ post (h ++ t) a := by
  induction p generalizing h with
  | ret a => exact ⟨[], a, .ret a, trivial, by simpa using possible⟩
  | step c next ih =>
    obtain ⟨r, ok, rest⟩ := possible
    obtain ⟨t, a, run, along, holds⟩ := ih r rest
    exact ⟨⟨c, r⟩ :: t, a, .step c next r t a run, ⟨ok, along⟩, by simpa using holds⟩

end

/-- The result of a program whose commands are answered by a fixed function. -/
def eval (answer : (c : I.Cmd) → I.Reply c) : Prog I α → α
  | .ret a => a
  | .step c next => eval answer (next (answer c))

@[simp] theorem eval_pure (answer : (c : I.Cmd) → I.Reply c) (a : α) :
    eval answer (pure a : Prog I α) = a := rfl

@[simp] theorem eval_bind (answer : (c : I.Cmd) → I.Reply c) (p : Prog I α)
    (f : α → Prog I β) : eval answer (p >>= f) = eval answer (f (eval answer p)) := by
  induction p with
  | ret a => rfl
  | step c next ih => exact ih _

/-- The events of a program whose commands are answered by a fixed function. -/
def traceOf (answer : (c : I.Cmd) → I.Reply c) : Prog I α → Trace I
  | .ret _ => []
  | .step c next => ⟨c, answer c⟩ :: traceOf answer (next (answer c))

variable {answer : (c : I.Cmd) → I.Reply c}

theorem mem_traceOf {e : Event I} (member : e ∈ traceOf answer p) : e.2 = answer e.1 := by
  induction p with
  | ret a => cases member
  | step c next ih =>
    rcases mem_cons.mp member with rfl | later
    · rfl
    · exact ih _ later

/-- Answering every command by a fixed function is one way to execute a program. -/
theorem exec_traceOf (answer : (c : I.Cmd) → I.Reply c) (p : Prog I α) :
    Exec p (traceOf answer p) (eval answer p) := by
  induction p with
  | ret a => exact .ret a
  | step c next ih => exact .step c next _ _ _ (ih _)

variable {f : α → Prog I β} {b : β}

theorem exec_bind (run : Exec (p >>= f) t b) : ∃ t₁ a t₂, t = t₁ ++ t₂ ∧ Exec p t₁ a ∧ Exec (f a) t₂ b := by
  induction p generalizing t with
  | ret a => exact ⟨[], a, t, rfl, .ret a, run⟩
  | step c next ih =>
    cases run with
    | step _ _ r t _ rest =>
      obtain ⟨t₁, a, t₂, rfl, first, second⟩ := ih r rest
      exact ⟨⟨c, r⟩ :: t₁, a, t₂, rfl, .step c next r t₁ a first, second⟩

theorem exec_call {c : I.Cmd} {r : I.Reply c} (run : Exec (Prog.call c) t r) : t = [⟨c, r⟩] := by
  cases run with
  | step _ _ r _ _ rest =>
    cases rest
    rfl

theorem exec_map {f : α → β} (run : Exec (f <$> p) t b) : ∃ a, Exec p t a ∧ b = f a := by
  obtain ⟨t₁, a, t₂, rfl, first, second⟩ := exec_bind run
  cases second
  exact ⟨a, by simpa using first, rfl⟩

theorem exec_run_bind {ε : Type} {x : ExceptT ε (Prog I) α} {f : α → ExceptT ε (Prog I) β} {out : Except ε β}
    (run : Exec (x >>= f).run t out) :
    (∃ e, Exec x.run t (.error e) ∧ out = .error e) ∨
      ∃ t₁ a t₂, t = t₁ ++ t₂ ∧ Exec x.run t₁ (.ok a) ∧ Exec (f a).run t₂ out := by
  rw [ExceptT.run_bind] at run
  obtain ⟨t₁, r, t₂, rfl, first, second⟩ := exec_bind run
  cases r with
  | error e =>
    cases second
    exact .inl ⟨e, by simpa using first, rfl⟩
  | ok a => exact .inr ⟨t₁, a, t₂, rfl, first, second⟩

/-- Whatever the replies are, the computation fails or delivers a value with the property, which
may speak about the events on the way. -/
def Delivers {ε : Type} (holds : Trace I → α → Prop) (x : ExceptT ε (Prog I) α) : Prop :=
  ∀ t a, Exec x.run t (.ok a) → holds t a

section
variable {ε : Type} {holds : Trace I → α → Prop}

theorem delivers_any (x : ExceptT ε (Prog I) α) : Delivers (fun _ _ => True) x :=
  fun _ _ _ => trivial

theorem delivers_pure {a : α} (ok : holds [] a) : Delivers holds (pure a : ExceptT ε (Prog I) α) := by
  intro t b run
  cases run
  exact ok

theorem delivers_throw (e : ε) : Delivers holds (throw e : ExceptT ε (Prog I) α) := by
  intro t b run
  cases run

theorem delivers_lift {p : Prog I α} (ok : ∀ t a, Exec p t a → holds t a) :
    Delivers holds (monadLift p : ExceptT ε (Prog I) α) := by
  intro t a run
  obtain ⟨t₁, b, t₂, rfl, first, second⟩ := exec_bind run
  cases second
  simpa using ok t₁ a first

theorem delivers_call (c : I.Cmd) :
    Delivers (fun t r => t = [⟨c, r⟩]) (monadLift (Prog.call c) : ExceptT ε (Prog I) (I.Reply c)) := by
  exact delivers_lift fun t r run => exec_call run

theorem delivers_except {x : Except ε α} (ok : ∀ a, x = .ok a → holds [] a) :
    Delivers holds (monadLift x : ExceptT ε (Prog I) α) := by
  intro t a run
  generalize result : (Except.ok a : Except ε α) = out at run
  cases run
  exact ok a result.symm

variable {x : ExceptT ε (Prog I) α}

theorem delivers_bind {after : Trace I → β → Prop} {f : α → ExceptT ε (Prog I) β} (first : Delivers holds x)
    (second : ∀ t a, holds t a → Delivers (fun t' b => after (t ++ t') b) (f a)) :
    Delivers after (x >>= f) := by
  intro t b run
  obtain ⟨t₁, out, t₂, rfl, run₁, run₂⟩ := exec_bind run
  cases out with
  | error e => cases run₂
  | ok a => exact second t₁ a (first t₁ a run₁) t₂ b run₂

theorem delivers_mono {holds' : Trace I → α → Prop} (delivers : Delivers holds x)
    (weaken : ∀ t a, holds t a → holds' t a) : Delivers holds' x :=
  fun t a run => weaken t a (delivers t a run)

theorem delivers_foldlM {body : σ → α → ExceptT ε (Prog I) σ} {xs : List α} {s : σ}
    (inv : List α → Trace I → σ → Prop) (init : inv [] [] s)
    (each : ∀ seen x rest t s, xs = seen ++ x :: rest → inv seen t s →
      Delivers (fun t' s' => inv (seen ++ [x]) (t ++ t') s') (body s x)) :
    Delivers (inv xs) (xs.foldlM body s) := by
  refine visit (P := fun seen rest => ∀ t s, inv seen t s →
    Delivers (fun t' s' => inv xs (t ++ t') s') (rest.foldlM body s)) ?_ ?_ [] s init
  · intro t s holds
    exact delivers_pure (by simpa using holds)
  · intro seen x rest split ih t s holds
    refine delivers_bind (each seen x rest t s split holds) fun t' s' kept => ?_
    simpa [append_assoc] using ih (t ++ t') s' kept

end

theorem reaches_after {q : Prog I β} (first : Exec p t a) (run : Reaches (p >>= f) (t ++ t') q) :
    Reaches (f a) t' q := by
  induction first with
  | ret a => exact run
  | step c next r t a _ ih =>
    cases run with
    | step _ _ _ _ _ rest => exact ih rest

section
variable {W : Type} (respond : (c : I.Cmd) → W → I.Reply c × W)

/-- Run a program in a world that answers every command deterministically. -/
def runIn : Prog I α → W → α × W
  | .ret a, w => (a, w)
  | .step c next, w => runIn (next (respond c w).1) (respond c w).2

def recordIn : Prog I α → W → Trace I
  | .ret _, _ => []
  | .step c next, w => ⟨c, (respond c w).1⟩ :: recordIn (next (respond c w).1) (respond c w).2

@[simp] theorem runIn_bind (p : Prog I α) (f : α → Prog I β) (w : W) : runIn respond (p >>= f) w =
      runIn respond (f (runIn respond p w).1) (runIn respond p w).2 := by
  induction p generalizing w with
  | ret a => rfl
  | step c next ih => exact ih _ _

end

end SlurmBridge.Foundation.Interaction
