/-
# Linked lists as walks along a successor function

A list in memory is a function `next` and an element `null` where it ends.  `Follows next null p ps`
says that the walk from `p` meets exactly `ps` and then `null`.  Such a walk is determined by where it
begins (`Follows.unique`), and takes as many steps as it has elements.

Two facts decide whether a list ends.  A walk that ends meets nothing twice (`Follows.nodup`), so a list
in a finite memory is bounded.  And a set that is closed under `next` and does not contain `null` is never
left (`not_follows_of_closed`), which is how a list is shown to be a cycle.
-/
import Mathlib.Data.List.Nodup
import Mathlib.Logic.Function.Iterate
import Mathlib.Tactic.Common

namespace Links

variable {α : Type}

/-- From `p` on, `next` leads through `ps`, one after the other, and then to `null`. -/
def Follows (next : α → α) (null : α) : α → List α → Prop
  | p, [] => p = null
  | p, q :: qs => p = q ∧ q ≠ null ∧ Follows next null (next q) qs

variable {next : α → α} {null p q : α} {ps qs : List α}

/-- A walk is determined by where it begins. -/
theorem Follows.unique (h : Follows next null p ps) (h' : Follows next null p qs) : ps = qs := by
  induction ps generalizing p qs with
  | nil =>
    cases qs with
    | nil => rfl
    | cons q qs => exact absurd (h'.1.symm.trans h) h'.2.1
  | cons r ps ih =>
    cases qs with
    | nil => exact absurd (h.1.symm.trans h') h.2.1
    | cons q qs =>
      obtain ⟨rfl, -, h⟩ := h
      obtain ⟨rfl, -, h'⟩ := h'
      rw [ih h h']

/-- What is left of a walk when it has come to `q`. -/
theorem Follows.suffix (h : Follows next null p (ps ++ q :: qs)) : Follows next null q (q :: qs) := by
  induction ps generalizing p with
  | nil =>
    obtain ⟨rfl, h⟩ := h
    exact ⟨rfl, h⟩
  | cons r ps ih => exact ih h.2.2

/-- **A walk that ends meets nothing twice.** -/
theorem Follows.nodup (h : Follows next null p ps) : ps.Nodup := by
  induction ps generalizing p with
  | nil => exact List.nodup_nil
  | cons q ps ih =>
    refine List.nodup_cons.mpr ⟨fun hmem => ?_, ih h.2.2⟩
    obtain ⟨u, v, rfl⟩ := List.append_of_mem hmem
    have hq : Follows next null q (q :: (u ++ q :: v)) := ⟨rfl, h.2⟩
    have hlen := congrArg List.length (hq.unique h.2.2.suffix)
    simp at hlen
    omega

/-- A walk that ends takes as many steps as there are elements. -/
theorem Follows.iterate (h : Follows next null p ps) : next^[ps.length] p = null := by
  induction ps generalizing p with
  | nil => exact h
  | cons q ps ih =>
    obtain ⟨rfl, -, h⟩ := h
    exact ih h

/-- **A walk inside a closed set never ends.** -/
theorem not_follows_of_closed {P : α → Prop} (hnull : ¬ P null) (hnext : ∀ q, P q → P (next q))
    (hp : P p) : ¬ Follows next null p ps := by
  induction ps generalizing p with
  | nil =>
    rintro rfl
    exact hnull hp
  | cons q ps ih =>
    rintro ⟨rfl, -, h⟩
    exact ih (hnext p hp) h

end Links
