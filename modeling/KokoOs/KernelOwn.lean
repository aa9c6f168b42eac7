/-
# An exact account of the heap

`Touches` says what a call leaves alone.  `Owns base a L` says more: compared with `base`, exactly
the objects in `L` are taken in addition.  Making an object adds its block (`Alloc.makes`), releasing
one takes its block out and no other (`Owns.release`), since no word behind an object of one block
carries `HEAP_HAS_NEXT`.

`Makes N` and `Releases b` say this of a call, over any account it may be made in, so that calls are put
together without their accounts.  That nothing is left over at the end, or that something is, can then be
read off the list.
-/
import KokoOs.KernelObject

namespace KokoOs

open Bytes

/-! ## 1. The account -/

/-- Compared with `base`, the objects in `L` are taken in `a`, and no other block is taken or free. -/
structure Owns (base a : Arena) (L : Set Nat) : Prop where
  held : ∀ b ∈ L, Held a b
  free : ∀ b ∈ L, heapEntryIsFree (base.heap.table.entry b) = true
  single : ∀ b ∈ L, b + 1 < 25600 → heapEntryHasNext (a.heap.table.entry (b + 1)) = false
  others : ∀ x < 25600, x ∉ L →
    heapEntryIsFree (a.heap.table.entry x) = heapEntryIsFree (base.heap.table.entry x)

/-- A call makes the objects in `N`, whatever is owned already. -/
def Makes (N : Set Nat) (a a' : Arena) : Prop :=
  ∀ base L, Owns base a L → Owns base a' (L ∪ N)

theorem Owns.refl (a : Arena) : Owns a a ∅ :=
  ⟨fun _ h => h.elim, fun _ h => h.elim, fun _ h => h.elim, fun _ _ _ => rfl⟩

/-- The account is about the table only. -/
theorem Owns.congr {base base' a a' : Arena} {L : Set Nat} (h : Owns base a L)
    (hbase : base'.heap = base.heap) (ha : a'.heap = a.heap) : Owns base' a' L where
  held b hb := ⟨(h.held b hb).lt, ha ▸ (h.held b hb).word⟩
  free b hb := hbase ▸ h.free b hb
  single b hb hlt := ha ▸ h.single b hb hlt
  others x hx hxL := by
    rw [ha, hbase]
    exact h.others x hx hxL

theorem Makes.store {a a' : Arena} (ha : a'.heap = a.heap) : Makes ∅ a a' := by
  intro base L h
  rw [Set.union_empty]
  exact h.congr rfl ha

theorem Makes.trans {N N' : Set Nat} {a a' a'' : Arena} (h : Makes N a a') (h' : Makes N' a' a'') :
    Makes (N ∪ N') a a'' := by
  intro base L hL
  rw [← Set.union_assoc]
  exact h' base _ (h base L hL)

/-- A call that makes objects and rewrites memory. -/
theorem Makes.then_store {N : Set Nat} {a a' a'' : Arena} (h : Makes N a a')
    (ha : a''.heap = a'.heap) : Makes N a a'' :=
  fun base L hL => (h base L hL).congr rfl ha

/-! ## 2. Making and releasing -/

/-- **An allocation makes one object.**  The word behind it belongs to no allocation that began
before it. -/
theorem Alloc.makes {a a' : Arena} {b : Nat} (hk : KernelHeap a) (h : Alloc a a' b) :
    Makes {b} a a' := by
  intro base L hL
  have hbL : b ∉ L := fun hin => h.fresh (hL.held b hin)
  refine ⟨fun c hc => ?_, fun c hc => ?_, fun c hc hlt => ?_, fun x hx hxL => ?_⟩
  · rcases hc with hc | rfl
    · exact h.touches.held c (Set.notMem_empty c) (hL.held c hc)
    · exact h.held
  · rcases hc with hc | rfl
    · exact hL.free c hc
    · rw [← hL.others c h.held.lt hbL]
      exact h.free
  · rw [h.words (c + 1) hlt]
    split
    · decide
    · rcases hc with hc | rfl
      · exact hL.single c hc hlt
      · by_contra hnext
        have hfree := h.free
        have hin : c + 1 < a.heap.table.total := by rw [hk.total]; exact hlt
        rcases hk.inv.inner c hin (by simpa using hnext) with hw | hw
        · rw [show a.heap.table.entry c = 0x41 from hw] at hfree
          exact absurd hfree (by decide)
        · rw [show a.heap.table.entry c = 0x81 from hw] at hfree
          exact absurd hfree (by decide)
  · rw [h.words x hx, if_neg fun heq : x = b => hxL (Or.inr heq)]
    exact hL.others x hx fun hin => hxL (Or.inl hin)

/-- The words of the table after an object has been released that no `HEAP_HAS_NEXT` follows. -/
theorem KernelHeap.release_words {a a' : Arena} (hk : KernelHeap a) {b : Nat} (hb : b < 25600)
    (hsingle : b + 1 < 25600 → heapEntryHasNext (a.heap.table.entry (b + 1)) = false)
    (h : heapFree (blockAt b) a = .ok () a') :
    ∀ x < 25600, a'.heap.table.entry x = if x = b then 0 else a.heap.table.entry x := by
  obtain ⟨-, -, m, hc, -⟩ := heapFree_ok h
  rw [blockAt, hk.freeStartBlock hb] at hc
  have hpos := hc.pos
  have hw := hc.no_wrap hk.inv.block_zero
  intro x hx
  rw [hc.entry]
  by_cases hxb : x = b
  · rw [if_pos hxb, if_pos (by omega)]
  · rw [if_neg hxb, if_neg]
    intro hin
    have hnext := hc.chain 1 (Nat.le_refl 1) (by omega)
    rw [hsingle (by omega)] at hnext
    exact absurd hnext (by decide)

/-- **Releasing an object takes it out of the account, and nothing else.** -/
theorem Owns.release {base a a' : Arena} {L : Set Nat} (hL : Owns base a L) (hk : KernelHeap a)
    {b : Nat} (hb : b ∈ L) (h : heapFree (blockAt b) a = .ok () a') : Owns base a' (L \ {b}) := by
  have hwords := hk.release_words (hL.held b hb).lt (hL.single b hb) h
  refine ⟨fun c hc => ⟨(hL.held c hc.1).lt, ?_⟩, fun c hc => hL.free c hc.1, fun c hc hlt => ?_,
    fun x hx hxL => ?_⟩
  · rw [hwords c (hL.held c hc.1).lt, if_neg fun heq : c = b => hc.2 heq]
    exact (hL.held c hc.1).word
  · rw [hwords (c + 1) hlt]
    split
    · decide
    · exact hL.single c hc.1 hlt
  · rw [hwords x hx]
    split
    · next heq =>
      rw [heq, hL.free b hb]
      decide
    · next hne => exact hL.others x hx fun hin => hxL ⟨hin, hne⟩

/-- A call releases the object at block `b`, whatever else is owned. -/
def Releases (b : Nat) (a a' : Arena) : Prop :=
  ∀ base L, Owns base a L → b ∈ L → Owns base a' (L \ {b})

/-- Releasing an object returns, and takes it out of every account. -/
theorem KernelHeap.releases_runs {stop : Halt → Prop} {a : Arena} (hk : KernelHeap a) {b : Nat}
    (hb : Held a b) : Prog.Runs stop (heapFree (blockAt b)) a fun _ a' =>
      Touches {b} ∅ a a' ∧ a'.mem = fill a.mem (blockAt b) 4096 0 ∧
        (freeBlocks a.heap).card + 1 ≤ (freeBlocks a'.heap).card ∧ Releases b a a' := by
  obtain ⟨u, a', h, ht, hmem, hcard⟩ := Prog.Runs.total (hk.release_runs hb)
  exact Prog.Runs.of_ok h ⟨ht, hmem, hcard, fun base L hL hbL => hL.release hk hbL h⟩

end KokoOs
