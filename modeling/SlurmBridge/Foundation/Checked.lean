/- source: none
   digest: Computations that end in a result or an error, and what a result says about
     each of their steps. -/

import Mathlib.Tactic.Common

set_option autoImplicit false

namespace SlurmBridge.Foundation.Checked

open List

variable {ε α β σ : Type} {x : Except ε α} {f : α → Except ε β} {b : β}

theorem bind_eq_ok : (x >>= f) = .ok b ↔ ∃ a, x = .ok a ∧ f a = .ok b := by
  cases x with
  | error e => simp [bind, Except.bind]
  | ok a => simp [bind, Except.bind]

variable {e : ε}

theorem bind_eq_error : (x >>= f) = .error e ↔ x = .error e ∨ ∃ a, x = .ok a ∧ f a = .error e := by
  cases x with
  | error e' => simp [bind, Except.bind]
  | ok a => simp [bind, Except.bind]

theorem map_eq_ok {f : α → β} : (f <$> x) = .ok b ↔ ∃ a, x = .ok a ∧ f a = b := by
  cases x with
  | error e => simp [Functor.map, Except.map]
  | ok a => simp [Functor.map, Except.map]

variable {a : α}

@[simp] theorem pure_eq_ok {b : α} : (pure a : Except ε α) = .ok b ↔ a = b := by
  simp [pure, Except.pure]

@[simp] theorem throw_ne_ok {b : α} : (throw e : Except ε α) = .ok b ↔ False := by
  simp [throw, throwThe, MonadExceptOf.throw]

theorem exists_ok (isOk : x.isOk = true) : ∃ a, x = .ok a := by
  cases x with
  | error e => cases isOk
  | ok a => exact ⟨a, rfl⟩

def require (condition : Prop) [Decidable condition] (e : ε) : Except ε Unit :=
  if condition then .ok () else .error e

variable {u : Unit}

@[simp] theorem require_eq_ok {condition : Prop} [Decidable condition] :
    require condition e = .ok u ↔ condition := by
  by_cases holds : condition <;> simp [require, holds]

def relabel (wrap : ε → ε) : Except ε α → Except ε α
  | .ok a => .ok a
  | .error e => .error (wrap e)

@[simp] theorem relabel_eq_ok {wrap : ε → ε} : relabel wrap x = .ok a ↔ x = .ok a := by
  cases x <;> simp [relabel]

@[simp] theorem mapError_eq_ok {ε' : Type} {wrap : ε → ε'} : x.mapError wrap = .ok a ↔ x = .ok a := by
  cases x <;> simp [Except.mapError]

def present (e : ε) : Option α → Except ε α
  | some a => .ok a
  | none => .error e

@[simp] theorem present_eq_ok {x : Option α} : present e x = .ok a ↔ x = some a := by
  cases x <;> simp [present]

def absent (wrap : α → ε) : Option α → Except ε Unit
  | some a => .error (wrap a)
  | none => .ok ()

@[simp] theorem absent_eq_ok {wrap : α → ε} {x : Option α} : absent wrap x = .ok u ↔ x = none := by
  cases x <;> simp [absent]

/-- Both computations fail, or both end with the same result. -/
def Agree {ε' : Type} (x : Except ε α) (y : Except ε' α) : Prop := ∀ a, x = .ok a ↔ y = .ok a

section
variable {ε' : Type} {x : Except ε α} {y : Except ε' α}

theorem Agree.symm (agree : Agree x y) : Agree y x := fun a => (agree a).symm

end

variable {body : σ → α → Except ε σ} {l : List α} {s : σ}

theorem forall_mem_snoc {P : α → Prop} (old : ∀ x ∈ l, P x) (new : P a) : ∀ x ∈ l ++ [a], P x :=
  forall_mem_append.mpr ⟨old, forall_mem_singleton.mpr new⟩

/-- Induction along a list, over the part already visited and the rest. -/
theorem visit {P : List α → List α → Prop} (done : P l [])
    (step : ∀ visited a rest, l = visited ++ a :: rest → P (visited ++ [a]) rest → P visited (a :: rest)) : P [] l := by
  have general : ∀ rest visited, l = visited ++ rest → P visited rest := by
    intro rest
    induction rest with
    | nil =>
      intro visited split
      rw [append_nil] at split
      exact split ▸ done
    | cons a rest ih =>
      intro visited split
      exact step visited a rest split (ih (visited ++ [a]) (by simp [split]))
  exact general l [] rfl

/-- What every step of a loop keeps, the loop keeps.  The predicate sees the part of the
list already visited. -/
theorem foldlM_ok (holds : List α → σ → Prop)
    (step : ∀ visited a s s', holds visited s → body s a = .ok s' → holds (visited ++ [a]) s') {s' : σ}
    (start : holds [] s) (run : l.foldlM body s = .ok s') : holds l s' := by
  refine visit (P := fun visited rest => ∀ s, holds visited s → rest.foldlM body s = .ok s' → holds l s') ?_ ?_ s start run
  · intro s now run
    exact pure_eq_ok.mp run ▸ now
  · intro visited a rest _ ih s now run
    obtain ⟨s₁, first, others⟩ := bind_eq_ok.mp run
    exact ih s₁ (step visited a s s₁ now first) others

/-- A loop succeeds if each step does from where the steps before it lead. -/
theorem foldlM_succeeds (holds : List α → σ → Prop)
    (step : ∀ visited a rest s, l = visited ++ a :: rest → holds visited s → ∃ s', body s a = .ok s' ∧ holds (visited ++ [a]) s')
    (start : holds [] s) : ∃ s', l.foldlM body s = .ok s' ∧ holds l s' := by
  refine visit (P := fun visited rest => ∀ s, holds visited s → ∃ s', rest.foldlM body s = .ok s' ∧ holds l s')
    (fun s now => ⟨s, rfl, now⟩) ?_ s start
  intro visited a rest split ih s now
  obtain ⟨s₁, first, later⟩ := step visited a rest s split now
  obtain ⟨s', others, ends⟩ := ih s₁ later
  exact ⟨s', bind_eq_ok.mpr ⟨s₁, first, others⟩, ends⟩

theorem foldlM_count {body : Int → α → Except ε Int} {p : α → Bool}
    (each : ∀ count, ∀ a ∈ l, body count a = .ok (if p a then count + 1 else count)) (count : Int) :
    l.foldlM body count = .ok (count + l.countP p) := by
  induction l generalizing count with
  | nil => simp [foldlM_nil, pure, Except.pure]
  | cons a l ih =>
    rw [foldlM_cons, each count a mem_cons_self]
    refine (ih (fun count b inside => each count b (mem_cons_of_mem _ inside)) _).trans ?_
    rw [countP_cons]
    split
    · exact congrArg Except.ok (by omega)
    · rfl

variable {g : α → β} {P : α → Prop} {l' : List β}

/-- If a result determines what is known of its argument, and the argument the result, a
loop over a list maps the whole list so. -/
theorem mapM_ok (each : ∀ a b, f a = .ok b → P a ∧ b = g a) (run : l.mapM f = .ok l') :
    (∀ a ∈ l, P a) ∧ l' = l.map g := by
  induction l generalizing l' with
  | nil =>
    simp only [mapM_nil, pure_eq_ok] at run
    simp [← run]
  | cons a l ih =>
    rw [mapM_cons] at run
    obtain ⟨b, head, rest⟩ := bind_eq_ok.mp run
    obtain ⟨bs, tail, same⟩ := bind_eq_ok.mp rest
    simp only [pure_eq_ok] at same
    obtain ⟨knownHead, rfl⟩ := each a b head
    obtain ⟨knownTail, rfl⟩ := ih tail
    exact ⟨forall_mem_cons.mpr ⟨knownHead, knownTail⟩, same.symm⟩

/-- A loop succeeds exactly if each step does, and then maps the list. -/
theorem mapM_eq_ok_iff (each : ∀ a ∈ l, ∀ b, f a = .ok b ↔ P a ∧ b = g a) :
    l.mapM f = .ok l' ↔ (∀ a ∈ l, P a) ∧ l' = l.map g := by
  induction l generalizing l' with
  | nil =>
    rw [mapM_nil, pure_eq_ok]
    exact ⟨fun same => ⟨nofun, same.symm⟩, fun same => same.2.symm⟩
  | cons a l ih =>
    obtain ⟨first, others⟩ := forall_mem_cons.mp each
    rw [mapM_cons, bind_eq_ok, forall_mem_cons, map_cons]
    constructor
    · rintro ⟨b, head, rest⟩
      obtain ⟨bs, tail, same⟩ := bind_eq_ok.mp rest
      obtain ⟨known, rfl⟩ := (first b).mp head
      obtain ⟨knownAll, rfl⟩ := (ih others).mp tail
      exact ⟨⟨known, knownAll⟩, (pure_eq_ok.mp same).symm⟩
    · rintro ⟨⟨known, knownAll⟩, rfl⟩
      exact ⟨g a, (first _).mpr ⟨known, rfl⟩, bind_eq_ok.mpr ⟨_, (ih others).mpr ⟨knownAll, rfl⟩, rfl⟩⟩

/-- A loop over a list is one step for each element. -/
theorem mapM_forall₂ (run : l.mapM f = .ok l') : List.Forall₂ (fun a b => f a = .ok b) l l' := by
  induction l generalizing l' with
  | nil =>
    simp only [mapM_nil, pure_eq_ok] at run
    exact run ▸ .nil
  | cons a l ih =>
    rw [mapM_cons] at run
    obtain ⟨b, head, rest⟩ := bind_eq_ok.mp run
    obtain ⟨bs, tail, same⟩ := bind_eq_ok.mp rest
    exact pure_eq_ok.mp same ▸ .cons head (ih tail)

theorem exists_of_mem_mapM (run : l.mapM f = .ok l') (inside : b ∈ l') : ∃ a ∈ l, f a = .ok b := by
  have each := mapM_forall₂ run
  clear run
  induction each with
  | nil => cases inside
  | @cons a b' l l' first rest ih =>
    rcases mem_cons.mp inside with rfl | inside
    · exact ⟨a, mem_cons_self, first⟩
    · obtain ⟨a', among, found⟩ := ih inside
      exact ⟨a', mem_cons_of_mem _ among, found⟩

theorem forM_eq_ok {f : α → Except ε Unit} : l.forM f = .ok u ↔ ∀ a ∈ l, f a = .ok () := by
  induction l with
  | nil => simp [pure, Except.pure]
  | cons a l ih =>
    show (f a >>= fun _ => l.forM f) = .ok () ↔ _
    rw [bind_eq_ok, forall_mem_cons, ← ih]
    exact ⟨fun ⟨_, first, rest⟩ => ⟨first, rest⟩, fun ⟨first, rest⟩ => ⟨(), first, rest⟩⟩

theorem exists_error_of_mapM (run : l.mapM f = .error e) : ∃ a ∈ l, f a = .error e := by
  induction l with
  | nil => cases run
  | cons a l ih =>
    rw [mapM_cons] at run
    rcases bind_eq_error.mp run with first | ⟨b, -, rest⟩
    · exact ⟨a, mem_cons_self, first⟩
    · rcases bind_eq_error.mp rest with failed | ⟨bs, -, done⟩
      · obtain ⟨a', inside, failed⟩ := ih failed
        exact ⟨a', mem_cons_of_mem _ inside, failed⟩
      · cases done

theorem mapM_of_ok (each : ∀ a ∈ l, f a = .ok (g a)) : l.mapM f = .ok (l.map g) := by
  induction l with
  | nil => rfl
  | cons a l ih =>
    obtain ⟨head, tail⟩ := forall_mem_cons.mp each
    rw [mapM_cons, head, ih tail]
    rfl

end SlurmBridge.Foundation.Checked
