/-
# Programs that keep a log

What a program touches on the way does not show in the state it ends in.  To speak about it, a second
version of the program appends to a list what it does, as it does it: a logged program over `σ` is a
program over `σ × List ω`.  `record` appends an entry, `unlogged` runs a program that logs nothing.

* **Erasure.**  `Erases m' m` says that `m'` with its log dropped is `m`, for every way it may end.  Its
  version for one state is closed under the constructs of a program, so that a logged version is checked
  against the plain one construct by construct.
* **Growth.**  `Appends m` says that `m` only ever appends to the log, whatever it is run on.
* **The log.**  `logOf m s` is what `m` has logged when it has ended, whether it has returned or
  stopped.

A theorem about a log is worth what its erasure is worth: without it, the logged version is just another
program.
-/
import KokoOs.Lib.Prog

namespace Prog

variable {ε σ ω α β : Type}

/-! ## 1. Logging -/

/-- The state a run has ended in. -/
def lastState : EStateM.Result ε σ α → σ
  | .ok _ s => s
  | .error _ s => s

/-- Append an entry to the log. -/
def record (w : ω) : EStateM ε (σ × List ω) PUnit := modify fun s => (s.1, s.2 ++ [w])

/-- Append several. -/
def recordAll (ws : List ω) : EStateM ε (σ × List ω) PUnit := modify fun s => (s.1, s.2 ++ ws)

/-- A program that logs nothing. -/
def unlogged (m : EStateM ε σ α) : EStateM ε (σ × List ω) α := zoom Prod.fst (fun s t => (t, s.2)) m

/-- What a logged program logs from `s` on. -/
def logOf (m : EStateM ε (σ × List ω) α) (s : σ) : List ω := (lastState (m (s, []))).2

theorem unlogged_ok_iff {m : EStateM ε σ α} {s s' : σ × List ω} {a : α} :
    unlogged m s = .ok a s' ↔ m s.1 = .ok a s'.1 ∧ s'.2 = s.2 := by
  refine zoom_ok_iff.trans ⟨?_, ?_⟩
  · rintro ⟨t, ht, rfl⟩
    exact ⟨ht, rfl⟩
  · rintro ⟨ht, hlog⟩
    exact ⟨s'.1, ht, by rw [← hlog]⟩

theorem record_bind (w : ω) (f : PUnit → EStateM ε (σ × List ω) α) (s : σ) (log : List ω) :
    (record w >>= f) (s, log) = f ⟨⟩ (s, log ++ [w]) := rfl

/-! ## 2. Dropping the log -/

/-- The end of a run without the log. -/
def dropLog : EStateM.Result ε (σ × List ω) α → EStateM.Result ε σ α
  | .ok a s => .ok a s.1
  | .error e s => .error e s.1

/-- From `s` on, `m'` is `m` with a log. -/
def ErasesAt (m' : EStateM ε (σ × List ω) α) (m : EStateM ε σ α) (s : σ) : Prop :=
  ∀ log, dropLog (m' (s, log)) = m s

/-- `m'` is `m` with a log. -/
def Erases (m' : EStateM ε (σ × List ω) α) (m : EStateM ε σ α) : Prop := ∀ s, ErasesAt m' m s

section Erases

variable {m' : EStateM ε (σ × List ω) α} {m : EStateM ε σ α} {s : σ}

theorem ErasesAt.pure (a : α) :
    ErasesAt (Pure.pure a : EStateM ε (σ × List ω) α) (Pure.pure a : EStateM ε σ α) s := fun _ => rfl

theorem ErasesAt.throw (e : ε) : ErasesAt (MonadExcept.throw e : EStateM ε (σ × List ω) α)
    (MonadExcept.throw e : EStateM ε σ α) s := fun _ => rfl

theorem ErasesAt.unlogged (m : EStateM ε σ α) :
    ErasesAt (Prog.unlogged m : EStateM ε (σ × List ω) α) m s := by
  intro log
  unfold Prog.unlogged zoom
  cases m s with
  | ok a t => rfl
  | error e t => rfl

/-- **Sequencing.** -/
theorem ErasesAt.bind {f' : α → EStateM ε (σ × List ω) β} {f : α → EStateM ε σ β}
    (hm : ErasesAt m' m s) (hf : ∀ a t, m s = .ok a t → ErasesAt (f' a) (f a) t) :
    ErasesAt (m' >>= f') (m >>= f) s := by
  intro log
  have h := hm log
  cases hrun : m' (s, log) with
  | ok a t =>
    rw [hrun] at h
    rw [bind_of_ok hrun, bind_of_ok h.symm]
    exact hf a t.1 h.symm t.2
  | error e t =>
    rw [hrun] at h
    rw [bind_of_error hrun, bind_of_error h.symm]
    rfl

/-- Logging is nothing to the plain program. -/
theorem ErasesAt.record {w : ω} (hm : ErasesAt m' m s) :
    ErasesAt (Prog.record w >>= fun _ => m') m s := fun log => hm (log ++ [w])

theorem ErasesAt.recordAll {ws : List ω} (hm : ErasesAt m' m s) :
    ErasesAt (Prog.recordAll ws >>= fun _ => m') m s := fun log => hm (log ++ ws)

/-- Both may read the state, independently. -/
theorem ErasesAt.get_logged {f' : σ × List ω → EStateM ε (σ × List ω) α}
    (h : ∀ log, ErasesAt (f' (s, log)) m s) :
    ErasesAt ((MonadState.get : EStateM ε (σ × List ω) (σ × List ω)) >>= f') m s :=
  fun log => h log log

theorem ErasesAt.get_plain {f : σ → EStateM ε σ α} (h : ErasesAt m' (f s) s) :
    ErasesAt m' ((MonadState.get : EStateM ε σ σ) >>= f) s := h

theorem ErasesAt.ite {c : Prop} [Decidable c] {n' : EStateM ε (σ × List ω) α} {n : EStateM ε σ α}
    (hm : ErasesAt m' m s) (hn : ErasesAt n' n s) :
    ErasesAt (if c then m' else n') (if c then m else n) s := by
  split
  · exact hm
  · exact hn

/-- A logged program returns what the plain one returns. -/
theorem Erases.returns (h : Erases m' m) {t : σ} {a : α} (hrun : m s = .ok a t) (log : List ω) :
    ∃ log', m' (s, log) = .ok a (t, log') := by
  have hdrop := h s log
  rw [hrun] at hdrop
  cases hm : m' (s, log) with
  | ok b u =>
    rw [hm] at hdrop
    obtain ⟨rfl, rfl⟩ := EStateM.Result.ok.inj hdrop
    exact ⟨u.2, rfl⟩
  | error e u =>
    rw [hm] at hdrop
    cases hdrop

end Erases

/-! ## 3. What is in the log -/

/-- The program only appends to the log. -/
def Appends (m : EStateM ε (σ × List ω) α) : Prop :=
  ∀ s log, log <+: (lastState (m (s, log))).2

/-- What logs nothing leaves the log as it was. -/
theorem Runs.unlogged {m : EStateM ε σ α} {s : σ × List ω} :
    Runs (fun _ => True) (Prog.unlogged m) s fun _ s' => s'.2 = s.2 :=
  Runs.of_returns fun _ _ h => (unlogged_ok_iff.mp h).2

section Appends

variable {m : EStateM ε (σ × List ω) α}

theorem Appends.pure (a : α) : Appends (Pure.pure a : EStateM ε (σ × List ω) α) :=
  fun _ log => List.prefix_rfl (l := log)

theorem Appends.record (w : ω) : Appends (Prog.record w : EStateM ε (σ × List ω) PUnit) :=
  fun _ log => List.prefix_append log [w]

theorem Appends.unlogged (m : EStateM ε σ α) :
    Appends (Prog.unlogged m : EStateM ε (σ × List ω) α) := by
  intro s log
  unfold Prog.unlogged zoom
  cases m s with
  | ok a t => exact List.prefix_rfl
  | error e t => exact List.prefix_rfl

theorem Appends.get_bind {f : σ × List ω → EStateM ε (σ × List ω) α} (hf : ∀ s, Appends (f s)) :
    Appends ((MonadState.get : EStateM ε (σ × List ω) (σ × List ω)) >>= f) :=
  fun s log => hf (s, log) s log

theorem Appends.ite {c : Prop} [Decidable c] {n : EStateM ε (σ × List ω) α} (hm : Appends m)
    (hn : Appends n) : Appends (if c then m else n) := by
  split
  · exact hm
  · exact hn

/-- **Sequencing.** -/
theorem Appends.bind {f : α → EStateM ε (σ × List ω) β} (hm : Appends m) (hf : ∀ a, Appends (f a)) :
    Appends (m >>= f) := by
  intro s log
  have h := hm s log
  cases hrun : m (s, log) with
  | ok a t =>
    rw [hrun] at h
    rw [bind_of_ok hrun]
    exact h.trans (hf a t.1 t.2)
  | error e t =>
    rw [hrun] at h
    rw [bind_of_error hrun]
    exact h

end Appends

end Prog
