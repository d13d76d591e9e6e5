/- source: none
   digest: Keys are granted to parties one at a time, and a party holds what its keys lead to;
     no two parties hold the same thing as long as the map changes with care. -/

import Mathlib.Data.Set.Insert

set_option autoImplicit false

namespace SlurmBridge.Foundation.Holdings

variable {A K D : Type}

/-- Which keys are granted to whom, and what is held by means of them. -/
structure Ledger (A K D : Type) where
  grants : Set (A × K)
  holds : Set ((A × K) × D)

def Ledger.empty : Ledger A K D := ⟨∅, ∅⟩

def Ledger.grant (l : Ledger A K D) (a : A) (k : K) : Ledger A K D :=
  { l with grants := insert (a, k) l.grants }

/-- A party starts to hold things by means of its keys. -/
def Ledger.claim (l : Ledger A K D) (a : A) (things : Set (K × D)) : Ledger A K D :=
  { l with holds := l.holds ∪ { h | h.1.1 = a ∧ (h.1.2, h.2) ∈ things } }

def Ledger.finish (l : Ledger A K D) (a : A) : Ledger A K D where
  grants := { g | g ∈ l.grants ∧ g.1 ≠ a }
  holds := { h | h ∈ l.holds ∧ h.1.1 ≠ a }

/-- What the ledger says under a map from keys to things.  The map leads no other key to a thing
that is held. -/
structure Fair (leads : K → D → Prop) (l : Ledger A K D) : Prop where
  exclusive : ∀ a a' k, (a, k) ∈ l.grants → (a', k) ∈ l.grants → a = a'
  granted : ∀ g d, (g, d) ∈ l.holds → g ∈ l.grants
  fixed : ∀ g d, (g, d) ∈ l.holds → ∀ k, leads k d → k = g.2
  distinct : ∀ g g' d, (g, d) ∈ l.holds → (g', d) ∈ l.holds → g.2 = g'.2

variable {leads leads' : K → D → Prop} {l : Ledger A K D}

theorem Fair.holder {g g' : A × K} {d : D} (fair : Fair leads l) (holds : (g, d) ∈ l.holds)
    (holds' : (g', d) ∈ l.holds) : g.1 = g'.1 := by
  have sameKey := fair.distinct g g' d holds holds'
  refine fair.exclusive g.1 g'.1 g.2 (fair.granted g d holds) ?_
  rw [sameKey]
  exact fair.granted g' d holds'

theorem fair_empty : Fair leads (.empty : Ledger A K D) where
  exclusive := fun _ _ _ granted => granted.elim
  granted := fun _ _ holds => holds.elim
  fixed := fun _ _ holds => holds.elim
  distinct := fun _ _ _ holds => holds.elim

variable {a : A}

theorem Fair.grant {k : K} (fair : Fair leads l) (free : ∀ a', (a', k) ∈ l.grants → a' = a) :
    Fair leads (l.grant a k) where
  exclusive := by
    rintro b b' k' (new | old) (new' | old')
    · exact (congrArg Prod.fst new).trans (congrArg Prod.fst new').symm
    · obtain ⟨rfl, rfl⟩ := Prod.mk.inj new
      exact (free b' old').symm
    · obtain ⟨rfl, rfl⟩ := Prod.mk.inj new'
      exact free b old
    · exact fair.exclusive b b' k' old old'
  granted := fun g d holds => Set.mem_insert_of_mem _ (fair.granted g d holds)
  fixed := fair.fixed
  distinct := fair.distinct

/-- Claims are translated by a map that separates its keys. -/
theorem Fair.claim {things : Set (K × D)} (fair : Fair leads l)
    (separates : ∀ k k' d, leads k d → leads k' d → k = k') (translated : ∀ k d, (k, d) ∈ things → leads k d)
    (granted : ∀ k d, (k, d) ∈ things → (a, k) ∈ l.grants) : Fair leads (l.claim a things) where
  exclusive := fair.exclusive
  granted := by
    rintro ⟨b, k⟩ d (old | ⟨rfl, new⟩)
    · exact fair.granted _ d old
    · exact granted k d new
  fixed := by
    rintro ⟨b, k⟩ d (old | ⟨rfl, new⟩) k' leads'
    · exact fair.fixed _ d old k' leads'
    · exact separates k' k d leads' (translated k d new)
  distinct := by
    rintro ⟨b, k⟩ ⟨b', k'⟩ d (old | ⟨rfl, new⟩) (old' | ⟨rfl, new'⟩)
    · exact fair.distinct _ _ d old old'
    · exact (fair.fixed _ d old k' (translated k' d new')).symm
    · exact fair.fixed _ d old' k (translated k d new)
    · exact separates k k' d (translated k d new) (translated k' d new')

theorem Fair.finish (fair : Fair leads l) (a : A) : Fair leads (l.finish a) where
  exclusive := fun b b' k granted granted' => fair.exclusive b b' k granted.1 granted'.1
  granted := fun g d holds => ⟨fair.granted g d holds.1, holds.2⟩
  fixed := fun g d holds => fair.fixed g d holds.1
  distinct := fun g g' d holds holds' => fair.distinct g g' d holds.1 holds'.1

/-- Another map will do, if it leads no other key to a thing that is held. -/
theorem Fair.remap (fair : Fair leads l)
    (careful : ∀ g d, (g, d) ∈ l.holds → ∀ k, leads' k d → k = g.2) : Fair leads' l :=
  { fair with fixed := careful }

end SlurmBridge.Foundation.Holdings
