/-
# Byte memory

A memory is a total map from addresses to bytes.  The file has the operations a program needs of it,
and says for each of them what it changes and what it leaves alone; nothing outside this file unfolds
one of them.

* **Ranges.**  `fill` sets a range to one byte, `blit` stores a list of bytes, `slice` reads a range as
  a list.  What was stored reads back (`slice_blit`), and a list is stored in pieces (`blit_append`).
* **Copying.**  `copyLoop` copies byte by byte, from the lower end, as a loop in C does.  A byte
  arrives unless it lies in the destination itself (`copyLoop_of_mem`): then it may have been
  overwritten before it was read.
* **Words.**  `u16` and `u32` read little-endian words, `putU16` and `putU32` store them.  A stored word
  reads back (`u32_putU32`), and words that do not overlap it are left alone.

Addresses are natural numbers, so nothing wraps around here; where an address of a program does, the
program says so.
-/
import Mathlib.Data.List.GetD
import Mathlib.Logic.Function.Basic
import Mathlib.Tactic.Common
import Mathlib.Tactic.Ring

namespace Bytes

/-- A memory: the byte at every address. -/
abbrev Mem := Nat → UInt8

/-! ## 1. Filling and storing ranges -/

/-- `n` bytes from address `a` on are set to `v`. -/
def fill (m : Mem) (a n : Nat) (v : UInt8) : Mem := fun x => if a ≤ x ∧ x < a + n then v else m x

/-- The bytes of `bs` are stored from address `a` on. -/
def blit (m : Mem) (a : Nat) (bs : List UInt8) : Mem := fun x =>
  if a ≤ x ∧ x < a + bs.length then bs.getD (x - a) 0 else m x

/-- The `n` bytes from address `a` on. -/
def slice (m : Mem) (a n : Nat) : List UInt8 := (List.range n).map fun i => m (a + i)

theorem fill_of_mem {m : Mem} {a n x : Nat} {v : UInt8} (h : a ≤ x ∧ x < a + n) :
    fill m a n v x = v := if_pos h

theorem fill_of_not_mem {m : Mem} {a n x : Nat} {v : UInt8} (h : ¬ (a ≤ x ∧ x < a + n)) :
    fill m a n v x = m x := if_neg h

/-- Filling a range a second time with the same byte changes nothing. -/
theorem fill_fill (m : Mem) (a n : Nat) (v : UInt8) : fill (fill m a n v) a n v = fill m a n v := by
  funext x
  by_cases h : a ≤ x ∧ x < a + n
  · rw [fill_of_mem h, fill_of_mem h]
  · rw [fill_of_not_mem h]

theorem blit_of_mem {m : Mem} {a x : Nat} {bs : List UInt8} (h : a ≤ x ∧ x < a + bs.length) :
    blit m a bs x = bs.getD (x - a) 0 := if_pos h

theorem blit_of_not_mem {m : Mem} {a x : Nat} {bs : List UInt8}
    (h : ¬ (a ≤ x ∧ x < a + bs.length)) : blit m a bs x = m x := if_neg h

/-- The byte `i` places into a stored list. -/
theorem blit_add {m : Mem} {a i : Nat} {bs : List UInt8} (h : i < bs.length) :
    blit m a bs (a + i) = bs[i] := by
  rw [blit_of_mem ⟨by omega, by omega⟩, Nat.add_sub_cancel_left, List.getD_eq_getElem _ _ h]

/-- Storing a byte and then those before it is storing all of them. -/
theorem blit_snoc (m : Mem) (a : Nat) (bs : List UInt8) (c : UInt8) :
    blit (Function.update m (a + bs.length) c) a bs = blit m a (bs ++ [c]) := by
  funext x
  by_cases hin : a ≤ x ∧ x < a + bs.length
  · rw [blit_of_mem hin, blit_of_mem (by simp; omega), List.getD_append _ _ _ _ (by omega)]
  · rw [blit_of_not_mem hin]
    by_cases hlast : x = a + bs.length
    · subst hlast
      rw [Function.update_self, blit_add (by simp)]
      simp
    · rw [Function.update_of_ne hlast, blit_of_not_mem (by simp; omega)]

@[simp] theorem blit_nil (m : Mem) (a : Nat) : blit m a [] = m := by
  funext x
  exact blit_of_not_mem (by simp)

/-- A list is stored in two pieces. -/
theorem blit_append (m : Mem) (a : Nat) (bs cs : List UInt8) :
    blit m a (bs ++ cs) = blit (blit m a bs) (a + bs.length) cs := by
  funext x
  by_cases hlast : a + bs.length ≤ x ∧ x < a + bs.length + cs.length
  · rw [blit_of_mem hlast, blit_of_mem (by simp; omega), List.getD_append_right _ _ _ _ (by omega)]
    congr 1
    omega
  · rw [blit_of_not_mem hlast]
    by_cases hfirst : a ≤ x ∧ x < a + bs.length
    · rw [blit_of_mem hfirst, blit_of_mem (by simp; omega), List.getD_append _ _ _ _ (by omega)]
    · rw [blit_of_not_mem hfirst, blit_of_not_mem (by simp; omega)]

@[simp] theorem length_slice (m : Mem) (a n : Nat) : (slice m a n).length = n := by
  simp [slice]

@[simp] theorem getElem_slice (m : Mem) (a n i : Nat) (h : i < (slice m a n).length) :
    (slice m a n)[i] = m (a + i) := by
  simp [slice]

/-- Two ranges read the same exactly when their bytes agree. -/
theorem slice_congr {m m' : Mem} {a a' n : Nat} (h : ∀ i < n, m (a + i) = m' (a' + i)) :
    slice m a n = slice m' a' n :=
  List.map_congr_left fun i hi => h i (List.mem_range.mp hi)

/-- A slice is read in two pieces. -/
theorem slice_add (m : Mem) (a n k : Nat) : slice m a (n + k) = slice m a n ++ slice m (a + n) k := by
  unfold slice
  rw [List.range_add, List.map_append, List.map_map]
  simp [Function.comp_def, Nat.add_assoc]

/-- What was stored reads back. -/
theorem slice_blit (m : Mem) (a : Nat) (bs : List UInt8) : slice (blit m a bs) a bs.length = bs := by
  refine List.ext_getElem (by simp) fun i h _ => ?_
  rw [getElem_slice]
  exact blit_add (by simpa using h)

/-- `place` puts a list of `size` bytes into memory.  **Storing any `n` bytes at `w`** -- or the first
`k` of them, if these are fewer -- **is storing them at byte `p` of the list**, exactly if the bytes of
the list from `p` on are placed one after the other from `w` on. -/
theorem blit_placed_iff {place : Nat → Nat} {size p n w k : Nat} {m : Mem}
    (hinj : ∀ i < size, ∀ j < size, place i = place j → i = j) (hn : p + n ≤ size) :
    (∀ bs : List UInt8, bs.length = n → ∀ i < size,
      blit m w (bs.take k) (place i) = blit (fun j => m (place j)) p bs i) ↔
    n ≤ k ∧ ∀ i < n, place (p + i) = w + i := by
  constructor
  · intro h
    -- byte `i` of any list arrives, so it is among those that are stored, at the right place
    have hplace : ∀ i < n, i < k ∧ place (p + i) = w + i := by
      intro i hi
      have harrives : ∀ bs : List UInt8, (hbs : bs.length = n) →
          blit m w (bs.take k) (place (p + i)) = bs[i] := fun bs hbs => by
        rw [h bs hbs (p + i) (by omega), blit_add (by omega)]
      by_cases hin : w ≤ place (p + i) ∧ place (p + i) < w + min k n
      · obtain ⟨j, hj⟩ := Nat.exists_eq_add_of_le hin.1
        have hji : j = i := by
          by_contra hne
          have h1 := harrives ((List.replicate n 0).set i 1) (by simp)
          rw [hj, blit_add (by simp; omega)] at h1
          simp only [List.getElem_take, List.getElem_set, List.getElem_replicate] at h1
          rw [if_neg (Ne.symm hne), if_pos trivial] at h1
          exact absurd h1 (by decide)
        exact ⟨by omega, by omega⟩
      · have h1 := harrives (List.replicate n (m (place (p + i)) + 1)) (by simp)
        rw [blit_of_not_mem (by simpa using hin), List.getElem_replicate] at h1
        exact absurd h1 (by simp)
    refine ⟨?_, fun i hi => (hplace i hi).2⟩
    by_contra hk
    exact hk (by have := (hplace (n - 1) (by omega)).1; omega)
  · rintro ⟨hk, hplace⟩ bs hbs i hi
    rw [List.take_of_length_le (by omega)]
    by_cases hin : p ≤ i ∧ i < p + bs.length
    · obtain ⟨j, rfl⟩ := Nat.exists_eq_add_of_le hin.1
      rw [hplace j (by omega), blit_add (by omega), blit_add (by omega)]
    · rw [blit_of_not_mem hin, blit_of_not_mem]
      rintro ⟨hlo, hhi⟩
      obtain ⟨j, hj⟩ := Nat.exists_eq_add_of_le hlo
      have heq := hinj i hi (p + j) (by omega) (by rw [hplace j (by omega), hj])
      exact hin ⟨by omega, by omega⟩

/-! ## 2. Copying byte by byte -/

/-- `fuel` bytes are copied from `src` to `dst` one after the other, from byte `i` on. -/
def copyLoop (dst src : Nat) : Nat → Nat → Mem → Mem
  | 0, _, m => m
  | fuel + 1, i, m => copyLoop dst src fuel (i + 1) (Function.update m (dst + i) (m (src + i)))

/-- Copying changes the destination only. -/
theorem copyLoop_of_not_mem {dst src x : Nat} : ∀ {fuel i : Nat} {m : Mem},
    ¬ (dst + i ≤ x ∧ x < dst + i + fuel) → copyLoop dst src fuel i m x = m x
  | 0, _, _, _ => rfl
  | fuel + 1, i, m, h => by
    rw [copyLoop, copyLoop_of_not_mem (by omega), Function.update_of_ne (by omega)]

/-- **A byte arrives**, unless it lies in the destination itself. -/
theorem copyLoop_of_mem {dst src k : Nat} : ∀ {fuel i : Nat} {m : Mem}, i ≤ k → k < i + fuel →
    ¬ (dst + i ≤ src + k ∧ src + k < dst + i + fuel) → copyLoop dst src fuel i m (dst + k) = m (src + k)
  | 0, _, _, h1, h2, _ => absurd h2 (by omega)
  | fuel + 1, i, m, h1, h2, h3 => by
    rw [copyLoop]
    rcases Nat.eq_or_lt_of_le h1 with rfl | hlt
    · rw [copyLoop_of_not_mem (by omega), Function.update_self]
    · rw [copyLoop_of_mem hlt (by omega) (by omega), Function.update_of_ne (by omega)]

/-! ## 3. Little-endian words -/

/-- The 16-bit word at `a`. -/
def u16 (m : Mem) (a : Nat) : Nat := (m a).toNat + 256 * (m (a + 1)).toNat

/-- The 32-bit word at `a`. -/
def u32 (m : Mem) (a : Nat) : Nat := u16 m a + 65536 * u16 m (a + 2)

/-- The two bytes of a 16-bit word. -/
def bytes16 (v : Nat) : List UInt8 := [UInt8.ofNat v, UInt8.ofNat (v / 256)]

/-- Store the 16-bit word `v` at `a`. -/
def putU16 (m : Mem) (a v : Nat) : Mem := blit m a (bytes16 v)

/-- The four bytes of a 32-bit word. -/
def bytes32 (v : Nat) : List UInt8 :=
  [UInt8.ofNat v, UInt8.ofNat (v / 256), UInt8.ofNat (v / 65536), UInt8.ofNat (v / 16777216)]

/-- Store the 32-bit word `v` at `a`. -/
def putU32 (m : Mem) (a v : Nat) : Mem := blit m a (bytes32 v)

theorem u16_lt (m : Mem) (a : Nat) : u16 m a < 2 ^ 16 := by
  have h0 := (m a).toNat_lt
  have h1 := (m (a + 1)).toNat_lt
  unfold u16
  omega

theorem u32_lt (m : Mem) (a : Nat) : u32 m a < 2 ^ 32 := by
  have h0 := u16_lt m a
  have h1 := u16_lt m (a + 2)
  unfold u32
  omega

/-- A word depends on its four bytes only. -/
theorem u32_congr {m m' : Mem} {a : Nat} (h : ∀ x, a ≤ x → x < a + 4 → m x = m' x) :
    u32 m a = u32 m' a := by
  unfold u32 u16
  rw [h a (by omega) (by omega), h (a + 1) (by omega) (by omega), h (a + 2) (by omega) (by omega),
    h (a + 2 + 1) (by omega) (by omega)]

/-- The bytes of the word at `a` are those that are there. -/
theorem bytes16_u16 (m : Mem) (a : Nat) : bytes16 (u16 m a) = slice m a 2 := by
  have h0 := (m a).toNat_lt
  have h1 := (m (a + 1)).toNat_lt
  have hlow : UInt8.ofNat (u16 m a) = m a := UInt8.toNat_inj.mp (by simp [u16])
  have hhigh : UInt8.ofNat (u16 m a / 256) = m (a + 1) := UInt8.toNat_inj.mp (by
    rw [UInt8.toNat_ofNat']
    unfold u16
    omega)
  rw [bytes16, hlow, hhigh]
  rfl

theorem u16_congr {m m' : Mem} {a : Nat} (h : ∀ x, a ≤ x → x < a + 2 → m x = m' x) :
    u16 m a = u16 m' a := by
  unfold u16
  rw [h a (by omega) (by omega), h (a + 1) (by omega) (by omega)]

theorem putU16_of_not_mem {m : Mem} {a x v : Nat} (h : ¬ (a ≤ x ∧ x < a + 2)) :
    putU16 m a v x = m x :=
  blit_of_not_mem h

/-- A stored 16-bit word reads back. -/
theorem u16_putU16 (m : Mem) (a : Nat) {v : Nat} (hv : v < 2 ^ 16) : u16 (putU16 m a v) a = v := by
  have hb : ∀ i (hi : i < 2), putU16 m a v (a + i) = (bytes16 v)[i] := fun i hi => blit_add hi
  have h0 := hb 0 (by omega)
  have h1 := hb 1 (by omega)
  simp only [bytes16, List.getElem_cons_zero, List.getElem_cons_succ, Nat.add_zero] at h0 h1
  unfold u16
  rw [h0, h1]
  simp only [UInt8.toNat_ofNat']
  omega

/-- **A stored word reads back.** -/
theorem u32_putU32 (m : Mem) (a : Nat) {v : Nat} (hv : v < 2 ^ 32) : u32 (putU32 m a v) a = v := by
  have hb : ∀ i (hi : i < 4), putU32 m a v (a + i) = (bytes32 v)[i] := fun i hi => blit_add hi
  have h0 := hb 0 (by omega)
  have h1 := hb 1 (by omega)
  have h2 := hb 2 (by omega)
  have h3 := hb 3 (by omega)
  simp only [bytes32, List.getElem_cons_zero, List.getElem_cons_succ, Nat.add_zero] at h0 h1 h2 h3
  unfold u32 u16
  rw [h0, h1, h2, show a + 2 + 1 = a + 3 from rfl, h3]
  simp only [UInt8.toNat_ofNat']
  omega

/-- Storing a word leaves every byte outside its four alone. -/
theorem putU32_of_not_mem {m : Mem} {a x v : Nat} (h : ¬ (a ≤ x ∧ x < a + 4)) :
    putU32 m a v x = m x := blit_of_not_mem h

/-- Storing a word leaves the words that do not overlap it alone. -/
theorem u32_putU32_of_apart {m : Mem} {a b v : Nat} (h : a + 4 ≤ b ∨ b + 4 ≤ a) :
    u32 (putU32 m a v) b = u32 m b :=
  u32_congr fun x h1 h2 => putU32_of_not_mem (by omega)

/-- Filling leaves the words outside the range alone. -/
theorem u32_fill_of_apart {m : Mem} {a n b : Nat} {v : UInt8} (h : a + n ≤ b ∨ b + 4 ≤ a) :
    u32 (fill m a n v) b = u32 m b :=
  u32_congr fun x h1 h2 => fill_of_not_mem (by omega)

end Bytes
