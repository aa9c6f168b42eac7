/-
# Runs of a labelled transition system

A step relation `step : σ → ℓ → σ → Prop` says how a system moves under a label.  `Run step`
chains steps and keeps, for each of them, the state it started from beside its label, so that
a condition on the steps of a run can speak about the state before the step.  Such a condition is
`AllSteps C`; it is what stands between a system that has a property in all runs and one that has it
in those runs only in which nobody does the wrong thing.

The rules of this file are the inductions on runs that a development needs, each of them done once.
A user states what one step does.

* **Invariants.**  `Run.invariant` is the induction every safety property of a run goes through, and
  `Run.invariant_on` the form for runs whose steps all meet a condition.
* **Damage.**  `Run.damaged` is the way back: if every step that the condition refuses does some
  damage, and no step repairs it, then a run that ends undamaged was made of accepted steps.
* **Taking steps out.**  `Run.unwinds` compares a run with one from which the steps of others have been
  taken out, along a relation that these steps keep and that a step of one's own answers alike.
* **Simulation.**  `Run.simulates` carries a whole run of one system over to another along a relation
  that single steps preserve, which is how a model is shown to refine its specification.  `Run.folds`
  is the case of a specification that is a function of the labels.
* **Costs.**  `Run.pays` adds up what the steps of a run cost.
-/
import Mathlib.Tactic.Common

namespace Runs

variable {σ τ ℓ : Type}

/-- A run from `s`: the steps it made, each as (state before, label), and the state reached. -/
inductive Run (step : σ → ℓ → σ → Prop) : σ → List (σ × ℓ) → σ → Prop
  | refl (s : σ) : Run step s [] s
  | tail {s s' s'' : σ} {tr : List (σ × ℓ)} {l : ℓ} :
      Run step s tr s' → step s' l s'' → Run step s (tr ++ [(s', l)]) s''

variable {step : σ → ℓ → σ → Prop}

/-- Every step of the run starts in a state and under a label that `C` accepts. -/
def AllSteps (C : σ → ℓ → Prop) (tr : List (σ × ℓ)) : Prop := ∀ p ∈ tr, C p.1 p.2

theorem AllSteps.append {C : σ → ℓ → Prop} {tr : List (σ × ℓ)} {s : σ} {l : ℓ} :
    AllSteps C (tr ++ [(s, l)]) ↔ AllSteps C tr ∧ C s l := by
  constructor
  · intro h
    exact ⟨fun p hp => h p (List.mem_append_left _ hp), h (s, l) (by simp)⟩
  · rintro ⟨h, hl⟩ p hp
    rcases List.mem_append.mp hp with hp | hp
    · exact h p hp
    · rw [List.mem_singleton.mp hp]
      exact hl

/-- **Invariants of runs, under a condition on the steps.**  What holds at the start and is
preserved by every step the condition accepts holds after every run of such steps. -/
theorem Run.invariant_on {I : σ → Prop} {C : σ → ℓ → Prop}
    (hstep : ∀ s l s', I s → C s l → step s l s' → I s') {s s' : σ} {tr : List (σ × ℓ)}
    (h : Run step s tr s') (hs : I s) (hC : AllSteps C tr) : I s' := by
  induction h with
  | refl => exact hs
  | tail _ hl ih =>
    obtain ⟨htr, hc⟩ := AllSteps.append.mp hC
    exact hstep _ _ _ (ih htr) hc hl

/-- **Invariants of runs.** -/
theorem Run.invariant {I : σ → Prop} (hstep : ∀ s l s', I s → step s l s' → I s') {s s' : σ}
    {tr : List (σ × ℓ)} (h : Run step s tr s') (hs : I s) : I s' :=
  h.invariant_on (C := fun _ _ => True) (fun s l s' hi _ => hstep s l s' hi) hs
    (fun _ _ => trivial)

/-- **Damage that stays.**  If every step the condition refuses does some damage, and no step
repairs it, then a run that is not made of accepted steps ends damaged. -/
theorem Run.damaged {I D : σ → Prop} {C : σ → ℓ → Prop}
    (hinv : ∀ s l s', I s → step s l s' → I s')
    (hbad : ∀ s l s', I s → ¬ C s l → step s l s' → D s')
    (hkeep : ∀ s l s', I s → D s → step s l s' → D s') {s s' : σ} {tr : List (σ × ℓ)}
    (h : Run step s tr s') (hs : I s) (hC : ¬ AllSteps C tr) : D s' := by
  induction h with
  | refl => exact absurd (fun p hp => absurd hp (by simp)) hC
  | @tail _ _ tr l htr hl ih =>
    have hI := htr.invariant hinv hs
    by_cases hprev : AllSteps C tr
    · exact hbad _ _ _ hI (fun hc => hC (AllSteps.append.mpr ⟨hprev, hc⟩)) hl
    · exact hkeep _ _ _ hI (ih hprev) hl

/-- A single step is a run. -/
theorem Run.single {s s' : σ} {l : ℓ} (h : step s l s') : Run step s [(s, l)] s' :=
  (Run.refl s).tail h

/-- A run of no steps stays where it is. -/
theorem Run.of_nil {s s' : σ} (h : Run step s [] s') : s' = s := by
  generalize htr : ([] : List (σ × ℓ)) = tr at h
  cases h with
  | refl => rfl
  | tail => simp at htr

/-- The last step of a run. -/
theorem Run.last {s s' m : σ} {tr : List (σ × ℓ)} {l : ℓ} (h : Run step s (tr ++ [(m, l)]) s') :
    Run step s tr m ∧ step m l s' := by
  generalize htr : tr ++ [(m, l)] = tr' at h
  cases h with
  | refl => simp at htr
  | tail hrun hl =>
    obtain ⟨rfl, hlast⟩ := List.append_inj' htr rfl
    cases hlast
    exact ⟨hrun, hl⟩

/-- **Unwinding.**  A label has an input, and the inputs of one party are `mine`.  If steps of others
keep the relation, and steps of this party on related states have the same label and keep it too, then
the party sees the same labels in a run and in one of its own steps alone. -/
theorem Run.unwinds {ι : Type} (input : ℓ → ι) (mine : ι → Bool) {R : σ → σ → Prop}
    {C : σ → ℓ → Prop}
    (hother : ∀ s t l s', R s t → C s l → mine (input l) = false → step s l s' → R s' t)
    (hmine : ∀ s t l l' s' t', R s t → C s l → mine (input l) = true → input l' = input l →
      step s l s' → step t l' t' → l' = l ∧ R s' t')
    {s s' t t' : σ} {tr tr' : List (σ × ℓ)} (h : Run step s tr s') (h' : Run step t tr' t')
    (hst : R s t) (hC : AllSteps C tr)
    (hpurged : tr'.map (fun q => input q.2) = (tr.map fun q => input q.2).filter mine) :
    R s' t' ∧ tr'.map Prod.snd = (tr.map Prod.snd).filter fun l => mine (input l) := by
  induction h generalizing tr' t' with
  | refl =>
    obtain rfl := List.map_eq_nil_iff.mp hpurged
    rw [h'.of_nil]
    exact ⟨hst, rfl⟩
  | @tail m _ tr l _ hl ih =>
    obtain ⟨htr, hc⟩ := AllSteps.append.mp hC
    rw [List.map_append, List.filter_append, List.map_singleton] at hpurged
    rw [List.map_append, List.filter_append, List.map_singleton]
    cases hmy : mine (input l) with
    | false =>
      -- the step is somebody else's, and the other run does not have it
      rw [List.filter_cons_of_neg (by simp [hmy]), List.filter_nil, List.append_nil] at hpurged
      obtain ⟨hR, hsnd⟩ := ih h' htr hpurged
      rw [List.filter_cons_of_neg (by simp [hmy]), List.filter_nil, List.append_nil]
      exact ⟨hother _ _ _ _ hR hc hmy hl, hsnd⟩
    | true =>
      -- the step is the last one of the other run, too
      rw [List.filter_cons_of_pos (by simpa using hmy), List.filter_nil] at hpurged
      obtain ⟨tr1, tr2, rfl, h1, h2⟩ := List.map_eq_append_iff.mp hpurged
      obtain ⟨⟨m', l'⟩, rfl, hinput⟩ := List.map_eq_singleton_iff.mp h2
      obtain ⟨hrun, hl'⟩ := h'.last
      obtain ⟨hR, hsnd⟩ := ih hrun htr h1
      obtain ⟨rfl, hR'⟩ := hmine _ _ _ _ _ _ hR hc hmy hinput hl hl'
      rw [List.filter_cons_of_pos (by simpa using hmy), List.filter_nil, List.map_append, hsnd]
      exact ⟨hR', rfl⟩

/-- **Simulation.**  If every accepted step of one system can be answered by a step of another
under the same label, keeping the relation, then so can every run of accepted steps. -/
theorem Run.simulates {step' : τ → ℓ → τ → Prop} {R : σ → τ → Prop} {C : σ → ℓ → Prop}
    (hsim : ∀ s t l s', R s t → C s l → step s l s' → ∃ t', step' t l t' ∧ R s' t')
    {s s' : σ} {t : τ} {tr : List (σ × ℓ)} (h : Run step s tr s') (hst : R s t)
    (hC : AllSteps C tr) :
    ∃ tr' t', Run step' t tr' t' ∧ R s' t' ∧ tr'.map Prod.snd = tr.map Prod.snd := by
  induction h with
  | refl => exact ⟨[], t, Run.refl t, hst, rfl⟩
  | tail _ hl ih =>
    obtain ⟨htr, hc⟩ := AllSteps.append.mp hC
    obtain ⟨tr', t', hrun, hR, hlab⟩ := ih htr
    obtain ⟨t'', hl', hR'⟩ := hsim _ _ _ _ hR hc hl
    exact ⟨_, t'', hrun.tail hl', hR', by simp [hlab]⟩

/-- **Simulation by a function of the labels.**  If every accepted step does to the other state what
`g` does, then every run of accepted steps does what its labels do, one after another. -/
theorem Run.folds {R : σ → τ → Prop} {C : σ → ℓ → Prop} (g : τ → ℓ → τ)
    (hsim : ∀ s t l s', R s t → C s l → step s l s' → R s' (g t l))
    {s s' : σ} {t : τ} {tr : List (σ × ℓ)} (h : Run step s tr s') (hst : R s t)
    (hC : AllSteps C tr) : R s' ((tr.map Prod.snd).foldl g t) := by
  induction h with
  | refl => exact hst
  | tail _ hl ih =>
    obtain ⟨htr, hc⟩ := AllSteps.append.mp hC
    rw [List.map_append, List.foldl_append]
    exact hsim _ _ _ _ (ih htr) hc hl

/-- What the steps of a run cost together. -/
def totalCost (cost : σ → ℓ → Nat) : List (σ × ℓ) → Nat
  | [] => 0
  | q :: tr => cost q.1 q.2 + totalCost cost tr

theorem totalCost_append (cost : σ → ℓ → Nat) (s : σ) (l : ℓ) : ∀ tr : List (σ × ℓ),
    totalCost cost (tr ++ [(s, l)]) = totalCost cost tr + cost s l
  | [] => by simp [totalCost]
  | q :: tr => by
    rw [List.cons_append, totalCost, totalCost_append cost s l tr, totalCost, Nat.add_assoc]

/-- **Costs add up.**  If every accepted step adds its cost to what has been paid, a run of accepted
steps has paid them all. -/
theorem Run.pays {I : σ → Nat → Prop} {C : σ → ℓ → Prop} (cost : σ → ℓ → Nat)
    (hstep : ∀ s n l s', I s n → C s l → step s l s' → I s' (n + cost s l))
    {s s' : σ} {n : Nat} {tr : List (σ × ℓ)} (h : Run step s tr s') (hs : I s n)
    (hC : AllSteps C tr) : I s' (n + totalCost cost tr) := by
  induction h with
  | refl => exact hs
  | tail _ hl ih =>
    obtain ⟨htr, hc⟩ := AllSteps.append.mp hC
    rw [totalCost_append, ← Nat.add_assoc]
    exact hstep _ _ _ _ (ih htr) hc hl

end Runs
