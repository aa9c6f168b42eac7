/-
# A ledger of allocations

Addresses are handed out one after the other and never twice, so what became of each since some
moment can be said once and for all: `Balanced l l' owned` says that of the addresses handed out
between `l` and `l'` exactly those of `owned` are live, that every other one was freed, once, and that
nothing older was touched.  A heap that uses its addresses again cannot say this; a ledger is what a
program is run on when the question is what it has lost.

Allocating adds to `owned` (`Balanced.alloc`), freeing takes away from it (`Balanced.release`), and a
ledger is balanced for one set of addresses only (`Balanced.mem_iff`): so what is left over can be
computed, and there is only one answer.
-/
import Mathlib.Data.List.Nodup
import Mathlib.Data.List.Range
import Mathlib.Logic.Function.Basic
import Mathlib.Tactic.Common

/-- Which addresses are live, how often each was freed, and the first one that was never used. -/
structure Ledger where
  live : Nat → Bool
  frees : Nat → Nat
  next : Nat
  unused : ∀ a, next ≤ a → live a = false ∧ frees a = 0

namespace Ledger

/-! ## 1. Allocating and freeing -/

/-- Nothing was allocated yet. -/
def empty : Ledger := ⟨fun _ => false, fun _ => 0, 0, fun _ _ => ⟨rfl, rfl⟩⟩

/-- The next `n` addresses are handed out. -/
def alloc (l : Ledger) (n : Nat) : Ledger where
  live a := l.live a || decide (l.next ≤ a ∧ a < l.next + n)
  frees := l.frees
  next := l.next + n
  unused a ha := by
    obtain ⟨hlive, hfrees⟩ := l.unused a (by omega)
    refine ⟨?_, hfrees⟩
    rw [hlive, Bool.false_or, decide_eq_false_iff_not]
    omega

/-- A live address is freed. -/
def release (l : Ledger) (a : Nat) : Option Ledger :=
  if h : l.live a = true then
    some {
      live := Function.update l.live a false
      frees := Function.update l.frees a (l.frees a + 1)
      next := l.next
      unused := fun b hb => by
        have hne : b ≠ a := by
          rintro rfl
          rw [(l.unused b hb).1] at h
          cases h
        rw [Function.update_of_ne hne, Function.update_of_ne hne]
        exact l.unused b hb }
  else none

/-! ## 2. What became of the addresses handed out since -/

/-- Of the addresses handed out between `l` and `l'`, those of `owned` are live, and all others were
freed once. -/
structure Balanced (l l' : Ledger) (owned : List Nat) : Prop where
  next_le : l.next ≤ l'.next
  old : ∀ a, a < l.next → l'.live a = l.live a ∧ l'.frees a = l.frees a
  live : ∀ a, a ∈ owned → l.next ≤ a ∧ a < l'.next ∧ l'.live a = true ∧ l'.frees a = 0
  freed : ∀ a, l.next ≤ a → a < l'.next → a ∉ owned → l'.live a = false ∧ l'.frees a = 1
  nodup : owned.Nodup

variable {l l' : Ledger} {owned owned' : List Nat} {a : Nat}

theorem Balanced.refl (l : Ledger) : Balanced l l [] where
  next_le := Nat.le_refl _
  old _ _ := ⟨rfl, rfl⟩
  live _ h := absurd h List.not_mem_nil
  freed _ h h' _ := absurd h' (Nat.not_lt.mpr h)
  nodup := List.nodup_nil

/-- The order in which the owned addresses are listed does not matter. -/
theorem Balanced.perm (h : Balanced l l' owned) (hp : owned.Perm owned') : Balanced l l' owned' where
  next_le := h.next_le
  old := h.old
  live _ ha := h.live _ (hp.mem_iff.mpr ha)
  freed _ hlo hhi ha := h.freed _ hlo hhi fun hmem => ha (hp.mem_iff.mp hmem)
  nodup := hp.nodup_iff.mp h.nodup

/-- **Allocating** adds the new addresses to those that are owned. -/
theorem Balanced.alloc (h : Balanced l l' owned) (n : Nat) :
    Balanced l (l'.alloc n) (List.range' l'.next n ++ owned) where
  next_le := h.next_le.trans (Nat.le_add_right _ _)
  old a ha := by
    have hnew : ¬ (l'.next ≤ a ∧ a < l'.next + n) := fun hnew =>
      absurd (ha.trans_le h.next_le) (Nat.not_lt.mpr hnew.1)
    refine ⟨?_, (h.old a ha).2⟩
    change (l'.live a || decide _) = _
    rw [decide_eq_false hnew, Bool.or_false, (h.old a ha).1]
  live a ha := by
    rcases List.mem_append.mp ha with ha | ha
    · rw [List.mem_range'_1] at ha
      refine ⟨h.next_le.trans ha.1, ha.2, ?_, (l'.unused a ha.1).2⟩
      change (l'.live a || decide _) = _
      rw [decide_eq_true ha, Bool.or_true]
    · obtain ⟨hlo, hhi, hlive, hfrees⟩ := h.live a ha
      refine ⟨hlo, hhi.trans_le (Nat.le_add_right _ _), ?_, hfrees⟩
      change (l'.live a || decide _) = _
      rw [hlive, Bool.true_or]
  freed a hlo hhi ha := by
    obtain ⟨hnew, hold⟩ := not_or.mp (mt List.mem_append.mpr ha)
    have hlt : a < l'.next := by
      by_contra hge
      exact hnew (List.mem_range'_1.mpr ⟨Nat.not_lt.mp hge, hhi⟩)
    have hnot : ¬ (l'.next ≤ a ∧ a < l'.next + n) := fun h => absurd hlt (Nat.not_lt.mpr h.1)
    obtain ⟨hlive, hfrees⟩ := h.freed a hlo hlt hold
    refine ⟨?_, hfrees⟩
    change (l'.live a || decide _) = _
    rw [hlive, Bool.false_or, decide_eq_false hnot]
  nodup := by
    refine List.Nodup.append List.nodup_range' h.nodup fun a hnew hold => ?_
    exact absurd (h.live a hold).2.1 (Nat.not_lt.mpr (List.mem_range'_1.mp hnew).1)

/-- **Freeing** an owned address succeeds, and it is not owned any more. -/
theorem Balanced.release (h : Balanced l l' (a :: owned)) :
    ∃ l'', l'.release a = some l'' ∧ Balanced l l'' owned := by
  obtain ⟨hlo, hhi, hlive, hfrees⟩ := h.live a List.mem_cons_self
  obtain ⟨hnot, hnodup⟩ := List.nodup_cons.mp h.nodup
  refine ⟨_, dif_pos hlive, h.next_le, fun b hb => ?_, fun b hb => ?_, fun b hblo hbhi hb => ?_, hnodup⟩
  · have hne : b ≠ a := by
      rintro rfl
      exact absurd hb (Nat.not_lt.mpr hlo)
    simpa only [Function.update_of_ne hne] using h.old b hb
  · have hne : b ≠ a := by
      rintro rfl
      exact hnot hb
    simpa only [Function.update_of_ne hne] using h.live b (List.mem_cons_of_mem a hb)
  · rcases eq_or_ne b a with rfl | hne
    · simp only [Function.update_self, hfrees, and_self]
    · simp only [Function.update_of_ne hne]
      exact h.freed b hblo hbhi fun hmem => (List.mem_cons.mp hmem).elim hne hb

/-- What is owned is determined: it is what is live. -/
theorem Balanced.mem_iff (h : Balanced l l' owned) (h' : Balanced l l' owned') :
    a ∈ owned ↔ a ∈ owned' := by
  constructor
  · intro ha
    obtain ⟨hlo, hhi, hlive, -⟩ := h.live a ha
    by_contra hnot
    rw [(h'.freed a hlo hhi hnot).1] at hlive
    cases hlive
  · intro ha
    obtain ⟨hlo, hhi, hlive, -⟩ := h'.live a ha
    by_contra hnot
    rw [(h.freed a hlo hhi hnot).1] at hlive
    cases hlive

end Ledger
