/-
# Programs that may stop before they return

A program over a state `σ` is an `EStateM ε σ α`: it either returns a value and a state, or
stops with a reason `ε` in the state it had reached.  This file is the small program logic
the rest of the development reads such programs with.  It has two ways to do so, because two kinds
of statement are made about programs.

* **Backwards, from a call that has returned.**  `bind_ok_iff`, `bind_error_iff` and their companions
  invert one construct of a program that is known to have returned (or stopped), so that no proof
  unfolds the monad.  This is how the exact statements are proved, those with an "if and only if".
* **Forwards, along the text of the program.**  `Runs stop m s Q` says that `m` returns from `s` in
  `Q`, or stops for a reason in `stop`.  With an empty `stop` it is total correctness, with the full
  one partial correctness; what lies between is what a kernel needs, where a call may panic for want
  of memory but for no other reason.  The judgement is closed under sequencing (`Runs.bind`), so a
  program is followed construct by construct, in one walk for what it computes and for when it stops.

Two more notions are about programs as parts of others.

* **Parts of the state.**  `zoom` runs a program of a part of the state inside the whole, and
  `Runs.zoom` carries what is known of the part over.
* **Frames.**  `Keeps R m` says that `m` stays inside the preorder `R` whatever it is run on, and is
  closed under the constructs of a program, so that a frame that needs no precondition is shown once
  for each construct.
-/
import Mathlib.Order.Basic
import Mathlib.Tactic.Common

namespace Prog

variable {ε σ τ α β : Type}

/-! ## 1. Inverting a program that returned -/

/-- A sequence returns exactly when both halves do. -/
theorem bind_ok_iff (m : EStateM ε σ α) (f : α → EStateM ε σ β) (s s'' : σ) (b : β) :
    (m >>= f) s = .ok b s'' ↔ ∃ a s', m s = .ok a s' ∧ f a s' = .ok b s'' := by
  change EStateM.bind m f s = _ ↔ _
  unfold EStateM.bind
  cases hm : m s with
  | ok a s' => simp
  | error e s' => simp

/-- A sequence stops where its first half does, or where the second half does after it. -/
theorem bind_error_iff (m : EStateM ε σ α) (f : α → EStateM ε σ β) (s s'' : σ) (e : ε) :
    (m >>= f) s = .error e s'' ↔
      m s = .error e s'' ∨ ∃ a s', m s = .ok a s' ∧ f a s' = .error e s'' := by
  change EStateM.bind m f s = _ ↔ _
  unfold EStateM.bind
  cases hm : m s with
  | ok a s' => simp
  | error e s' => simp

/-- Running a sequence whose first half is known to return. -/
theorem bind_of_ok {m : EStateM ε σ α} {s s' : σ} {a : α} (h : m s = .ok a s')
    (f : α → EStateM ε σ β) : (m >>= f) s = f a s' := by
  change EStateM.bind m f s = _
  unfold EStateM.bind
  rw [h]

/-- Running a sequence whose first half is known to stop. -/
theorem bind_of_error {m : EStateM ε σ α} {s s' : σ} {e : ε} (h : m s = .error e s')
    (f : α → EStateM ε σ β) : (m >>= f) s = .error e s' := by
  change EStateM.bind m f s = _
  unfold EStateM.bind
  rw [h]

/-- Reading the state is handing it on. -/
theorem get_bind (f : σ → EStateM ε σ β) (s : σ) :
    ((MonadState.get : EStateM ε σ σ) >>= f) s = f s s := rfl

@[simp] theorem pure_ok_iff (a b : α) (s s' : σ) :
    (pure a : EStateM ε σ α) s = .ok b s' ↔ a = b ∧ s = s' := by
  change EStateM.Result.ok a s = _ ↔ _
  simp

/-- A program whose value is handed on. -/
theorem bind_pure_ok_iff (m : EStateM ε σ α) (f : α → β) (s s' : σ) (b : β) :
    (m >>= fun a => pure (f a)) s = .ok b s' ↔ ∃ a, m s = .ok a s' ∧ f a = b := by
  rw [bind_ok_iff]
  constructor
  · rintro ⟨a, s1, hm, hpure⟩
    obtain ⟨hvalue, rfl⟩ := (pure_ok_iff _ _ _ _).mp hpure
    exact ⟨a, hm, hvalue⟩
  · rintro ⟨a, hm, hvalue⟩
    exact ⟨a, s', hm, (pure_ok_iff _ _ _ _).mpr ⟨hvalue, rfl⟩⟩

@[simp] theorem pure_error_iff (a : α) (e : ε) (s s' : σ) :
    (pure a : EStateM ε σ α) s = .error e s' ↔ False := by
  change EStateM.Result.ok a s = _ ↔ _
  simp

@[simp] theorem get_ok_iff (s t s' : σ) :
    (get : EStateM ε σ σ) s = .ok t s' ↔ s = t ∧ s = s' := by
  change EStateM.Result.ok s s = _ ↔ _
  simp

@[simp] theorem get_error_iff (e : ε) (s s' : σ) :
    (get : EStateM ε σ σ) s = .error e s' ↔ False := by
  change EStateM.Result.ok s s = _ ↔ _
  simp

@[simp] theorem set_ok_iff (t s s' : σ) (u : PUnit) :
    (set t : EStateM ε σ PUnit) s = .ok u s' ↔ t = s' := by
  change EStateM.Result.ok PUnit.unit t = _ ↔ _
  simp

@[simp] theorem set_error_iff (t s s' : σ) (e : ε) :
    (set t : EStateM ε σ PUnit) s = .error e s' ↔ False := by
  change EStateM.Result.ok PUnit.unit t = _ ↔ _
  simp

@[simp] theorem modify_ok_iff (f : σ → σ) (s s' : σ) (u : PUnit) :
    (modify f : EStateM ε σ PUnit) s = .ok u s' ↔ f s = s' := by
  change EStateM.Result.ok PUnit.unit (f s) = _ ↔ _
  simp

@[simp] theorem modify_error_iff (f : σ → σ) (s s' : σ) (e : ε) :
    (modify f : EStateM ε σ PUnit) s = .error e s' ↔ False := by
  change EStateM.Result.ok PUnit.unit (f s) = _ ↔ _
  simp

@[simp] theorem throw_ok_iff (e : ε) (s s' : σ) (a : α) :
    (throw e : EStateM ε σ α) s = .ok a s' ↔ False := by
  change EStateM.Result.error e s = _ ↔ _
  simp

@[simp] theorem throw_error_iff (e e' : ε) (s s' : σ) :
    (throw e : EStateM ε σ α) s = .error e' s' ↔ e = e' ∧ s = s' := by
  change EStateM.Result.error e s = _ ↔ _
  simp

/-! ## 2. Runs to a result -/

/-- From `s`, `m` returns a value and a state in `Q`, unless it stops for a reason in `stop`.
With an empty `stop` this is total correctness, with the full one partial correctness. -/
def Runs (stop : ε → Prop) (m : EStateM ε σ α) (s : σ) (Q : α → σ → Prop) : Prop :=
  match m s with
  | .ok a s' => Q a s'
  | .error e _ => stop e

section Runs

variable {stop : ε → Prop} {s : σ}

theorem runs_iff {m : EStateM ε σ α} {Q : α → σ → Prop} : Runs stop m s Q ↔
    (∀ a s', m s = .ok a s' → Q a s') ∧ ∀ e s', m s = .error e s' → stop e := by
  unfold Runs
  cases m s with
  | ok a s' =>
    refine ⟨fun h => ⟨fun b t heq => ?_, fun _ _ heq => (by cases heq)⟩, fun h => h.1 a s' rfl⟩
    cases heq
    exact h
  | error e s' =>
    refine ⟨fun h => ⟨fun _ _ heq => (by cases heq), fun b t heq => ?_⟩, fun h => h.2 e s' rfl⟩
    cases heq
    exact h

/-- What holds whenever a program returns. -/
theorem Runs.of_returns {m : EStateM ε σ α} {Q : α → σ → Prop}
    (h : ∀ a s', m s = .ok a s' → Q a s') : Runs (fun _ => True) m s Q :=
  runs_iff.mpr ⟨h, fun _ _ _ => trivial⟩

theorem Runs.of_ok {m : EStateM ε σ α} {Q : α → σ → Prop} {a : α} {s' : σ} (h : m s = .ok a s')
    (hQ : Q a s') : Runs stop m s Q := by
  unfold Runs
  rw [h]
  exact hQ

theorem Runs.ok {m : EStateM ε σ α} {Q : α → σ → Prop} (h : Runs stop m s Q) {a : α} {s' : σ}
    (hm : m s = .ok a s') : Q a s' :=
  (runs_iff.mp h).1 a s' hm

/-- A program that does not stop for such a reason returns. -/
theorem Runs.returns {m : EStateM ε σ α} {Q : α → σ → Prop} (h : Runs stop m s Q)
    (hstop : ∀ e, ¬ stop e) : ∃ a s', m s = .ok a s' ∧ Q a s' := by
  unfold Runs at h
  cases hm : m s with
  | ok a s' =>
    rw [hm] at h
    exact ⟨a, s', rfl, h⟩
  | error e s' =>
    rw [hm] at h
    exact absurd h (hstop e)

/-- Partial correctness, used: what a program that returned has done. -/
theorem Runs.value {m : EStateM ε σ α} {Q : α → σ → Prop} (h : Runs (fun _ => True) m s Q) {a : α}
    {s' : σ} (hm : m s = .ok a s') : Q a s' :=
  h.ok hm

/-- Total correctness, used: the program returns. -/
theorem Runs.total {m : EStateM ε σ α} {Q : α → σ → Prop} (h : Runs (fun _ => False) m s Q) :
    ∃ a s', m s = .ok a s' ∧ Q a s' :=
  h.returns fun _ h => h

theorem Runs.mono {m : EStateM ε σ α} {Q Q' : α → σ → Prop} (h : Runs stop m s Q)
    (hQ : ∀ a s', Q a s' → Q' a s') : Runs stop m s Q' :=
  runs_iff.mpr ⟨fun a s' hm => hQ a s' (h.ok hm), (runs_iff.mp h).2⟩

/-- More reasons to stop. -/
theorem Runs.weaken {stop' : ε → Prop} {m : EStateM ε σ α} {Q : α → σ → Prop}
    (h : Runs stop m s Q) (hstop : ∀ e, stop e → stop' e) : Runs stop' m s Q :=
  runs_iff.mpr ⟨fun _ _ hm => h.ok hm, fun e s' hm => hstop e ((runs_iff.mp h).2 e s' hm)⟩

/-- The result that is spoken about is the one that the program returns. -/
theorem Runs.with_run {m : EStateM ε σ α} {Q : α → σ → Prop} (h : Runs stop m s Q) :
    Runs stop m s fun a s' => m s = .ok a s' ∧ Q a s' :=
  runs_iff.mpr ⟨fun _ _ hm => ⟨hm, h.ok hm⟩, (runs_iff.mp h).2⟩

/-- A program that comes to the same. -/
theorem Runs.congr {m m' : EStateM ε σ α} {t : σ} {Q : α → σ → Prop} (heq : m s = m' t)
    (h : Runs stop m' t Q) : Runs stop m s Q := by
  unfold Runs at h ⊢
  rwa [heq]

/-- **Sequencing.** -/
theorem Runs.bind {m : EStateM ε σ α} {f : α → EStateM ε σ β} {Q : α → σ → Prop}
    {R : β → σ → Prop} (hm : Runs stop m s Q) (hf : ∀ a s', Q a s' → Runs stop (f a) s' R) :
    Runs stop (m >>= f) s R := by
  unfold Runs at hm
  cases h : m s with
  | ok a s' =>
    rw [h] at hm
    have := hf a s' hm
    unfold Runs at this ⊢
    rwa [bind_of_ok h]
  | error e s' =>
    rw [h] at hm
    unfold Runs
    rw [bind_of_error h]
    exact hm

theorem Runs.pure {a : α} {Q : α → σ → Prop} (h : Q a s) :
    Runs stop (Pure.pure a : EStateM ε σ α) s Q := h

theorem Runs.get_bind {f : σ → EStateM ε σ β} {R : β → σ → Prop} (h : Runs stop (f s) s R) :
    Runs stop ((MonadState.get : EStateM ε σ σ) >>= f) s R := h

theorem Runs.modify {f : σ → σ} {Q : PUnit → σ → Prop} (h : Q ⟨⟩ (f s)) :
    Runs stop (modify f : EStateM ε σ PUnit) s Q := h

theorem Runs.throw {e : ε} {Q : α → σ → Prop} (h : stop e) :
    Runs stop (MonadExcept.throw e : EStateM ε σ α) s Q := h

end Runs

/-! ## 3. Programs of a part of the state -/

/-- Run a program of the part `view s` of the state, and put the part back. -/
def zoom (view : σ → τ) (update : σ → τ → σ) (m : EStateM ε τ α) : EStateM ε σ α := fun s =>
  match m (view s) with
  | .ok a t => .ok a (update s t)
  | .error e t => .error e (update s t)

theorem zoom_ok_iff {view : σ → τ} {update : σ → τ → σ} {m : EStateM ε τ α} {s s' : σ} {a : α} :
    zoom view update m s = .ok a s' ↔ ∃ t, m (view s) = .ok a t ∧ update s t = s' := by
  unfold zoom
  cases hm : m (view s) with
  | ok b t => simp [and_assoc]
  | error e t => simp

/-- A program of a part runs inside the whole. -/
theorem Runs.zoom {stop : ε → Prop} {view : σ → τ} {update : σ → τ → σ} {m : EStateM ε τ α} {s : σ}
    {Q : α → τ → Prop} {R : α → σ → Prop} (h : Runs stop m (view s) Q)
    (hR : ∀ a t, Q a t → R a (update s t)) : Runs stop (Prog.zoom view update m) s R := by
  unfold Runs at h ⊢
  unfold Prog.zoom
  cases hm : m (view s) with
  | ok a t =>
    rw [hm] at h
    exact hR a t h
  | error e t =>
    rw [hm] at h
    exact h

/-! ## 4. Programs that keep a preorder -/

/-- Whenever `m` returns, the states before and after are related by `R`. -/
def Keeps (R : σ → σ → Prop) (m : EStateM ε σ α) : Prop := ∀ s a s', m s = .ok a s' → R s s'

section Keeps

variable {R : σ → σ → Prop}

theorem Keeps.pure [IsPreorder σ R] (a : α) : Keeps R (Pure.pure a : EStateM ε σ α) := by
  intro s b s' h
  obtain ⟨-, rfl⟩ := (pure_ok_iff _ _ _ _).mp h
  exact refl_of R s

theorem Keeps.throw (e : ε) : Keeps R (MonadExcept.throw e : EStateM ε σ α) := by
  intro s a s' h
  exact ((throw_ok_iff _ _ _ _).mp h).elim

/-- **Sequencing.** -/
theorem Keeps.bind [IsPreorder σ R] {m : EStateM ε σ α} {f : α → EStateM ε σ β} (hm : Keeps R m)
    (hf : ∀ a, Keeps R (f a)) : Keeps R (m >>= f) := by
  intro s b s'' h
  obtain ⟨a, s', h1, h2⟩ := (bind_ok_iff _ _ _ _ _).mp h
  exact trans_of R (hm s a s' h1) (hf a s' b s'' h2)

theorem Keeps.get_bind {f : σ → EStateM ε σ β} (hf : ∀ s, Keeps R (f s)) :
    Keeps R ((MonadState.get : EStateM ε σ σ) >>= f) :=
  fun s b s' h => hf s s b s' h

theorem Keeps.modify {f : σ → σ} (h : ∀ s, R s (f s)) :
    Keeps R (modify f : EStateM ε σ PUnit) := by
  intro s a s' hs
  obtain rfl := (modify_ok_iff _ _ _ _).mp hs
  exact h s

theorem Keeps.ite {c : Prop} [Decidable c] {m m' : EStateM ε σ α} (h : Keeps R m)
    (h' : Keeps R m') : Keeps R (if c then m else m') := by
  split
  · exact h
  · exact h'

/-- A program of a part keeps what an update of the part keeps. -/
theorem Keeps.zoom {view : σ → τ} {update : σ → τ → σ} {S : τ → τ → Prop} {m : EStateM ε τ α}
    (hm : Keeps S m) (h : ∀ s t, S (view s) t → R s (update s t)) :
    Keeps R (Prog.zoom view update m) := by
  intro s a s' hs
  obtain ⟨t, ht, rfl⟩ := zoom_ok_iff.mp hs
  exact h s t (hm _ a t ht)

end Keeps

end Prog
