/-
# What the string functions compute

`CString m p bytes` says that memory holds the NUL-terminated string `bytes` at `p`.  On such
strings the loops of `string.c` have closed forms.

* **Reading.**  `strlen` is the length, as far as the counter goes (`CString.strlen`), and `str_index_of`
  the place of the first separator, or -1 (`CString.strIndexOf_sep`, `CString.strIndexOf_none`).  What is
  read is stated of a string wherever it is (`Spells`), since one side of a comparison is often a
  constant of the program.
* **Writing.**  `str_slice` stores a part of a string with a NUL behind it, if source and
  destination do not overlap (`CString.slice`), and `str_copy` makes an object with a copy
  (`strCopy_runs`).
* **Frames.**  A string in an object that is not touched stays what it is (`Touches.cstring`), and so do
  the words of the object.
-/
import KokoOs.Str
import KokoOs.KernelOwn

namespace KokoOs

open Bytes

/-- The bytes at `p` are `bytes`, with a NUL behind them. -/
def CString (m : Mem) (p : Nat) (bytes : List UInt8) : Prop :=
  ∀ i ≤ bytes.length, m (p + i) = bytes.getD i 0

theorem CString.congr {m m' : Mem} {p p' : Nat} {bytes : List UInt8} (h : CString m p bytes)
    (hm : ∀ i ≤ bytes.length, m' (p' + i) = m (p + i)) : CString m' p' bytes :=
  fun i hi => (hm i hi).trans (h i hi)

/-- The character at an index is not the NUL. -/
theorem CString.ne_zero {m : Mem} {p : Nat} {bytes : List UInt8} (h : CString m p bytes)
    (hnz : 0 ∉ bytes) {i : Nat} (hi : i < bytes.length) : m (p + i) ≠ 0 := by
  rw [h i (by omega), List.getD_eq_getElem _ _ hi]
  exact fun h0 => hnz (h0 ▸ List.getElem_mem hi)

theorem CString.nul {m : Mem} {p : Nat} {bytes : List UInt8} (h : CString m p bytes) :
    m (p + bytes.length) = 0 := by
  rw [h _ (Nat.le_refl _)]
  exact List.getD_eq_default _ _ (Nat.le_refl _)

/-- **A string is determined by where it is.** -/
theorem CString.unique {m : Mem} {p : Nat} {xs ys : List UInt8} (hx : CString m p xs)
    (hy : CString m p ys) (hxz : 0 ∉ xs) (hyz : 0 ∉ ys) : xs = ys := by
  have hlen : xs.length = ys.length := by
    rcases Nat.lt_trichotomy xs.length ys.length with h | h | h
    · exact absurd hx.nul (hy.ne_zero hyz h)
    · exact h
    · exact absurd hy.nul (hx.ne_zero hxz h)
  refine List.ext_getElem hlen fun i h1 h2 => ?_
  have := (hx i (by omega)).symm.trans (hy i (by omega))
  rwa [List.getD_eq_getElem _ _ h1, List.getD_eq_getElem _ _ h2] at this

/-- A string, wherever it is, is `bytes`. -/
structure Spells (str : CStr) (bytes : List UInt8) : Prop where
  nonzero : 0 ∉ bytes
  byte : ∀ i ≤ bytes.length, str i = bytes.getD i 0

theorem CString.spells {m : Mem} {p : Nat} {bytes : List UInt8} (h : CString m p bytes)
    (hnz : 0 ∉ bytes) : Spells (strAt m p) bytes := ⟨hnz, h⟩

theorem spells_literal {bytes : List UInt8} (hnz : 0 ∉ bytes) : Spells (literal bytes) bytes :=
  ⟨hnz, fun _ _ => rfl⟩

/-! ## 1. Reading -/

theorem strlenLoop_eq {str : CStr} {n : Nat} (hn : str n = 0) : ∀ {fuel i : Nat},
    (∀ j, i ≤ j → j < n → str j ≠ 0) → i ≤ n → n < i + fuel → strlenLoop str fuel i = some n
  | 0, _, _, h1, h2 => absurd h2 (by omega)
  | fuel + 1, i, hne, h1, h2 => by
    unfold strlenLoop
    rcases Nat.eq_or_lt_of_le h1 with rfl | hlt
    · rw [if_pos hn]
    · rw [if_neg (hne i (Nat.le_refl i) hlt)]
      exact strlenLoop_eq hn (fun j h3 h4 => hne j (by omega) h4) hlt (by omega)

/-- `strlen` is where the first NUL is. -/
theorem strlen_eq {str : CStr} {n : Nat} (hn : str n = 0) (hne : ∀ j < n, str j ≠ 0)
    (hlt : n < 65536) : strlen str = some n :=
  strlenLoop_eq hn (fun j _ => hne j) (Nat.zero_le _) (by omega)

theorem Spells.getElem {str : CStr} {bytes : List UInt8} (h : Spells str bytes) {i : Nat}
    (hi : i < bytes.length) : str i = bytes[i] := by
  rw [h.byte i (Nat.le_of_lt hi), List.getD_eq_getElem _ _ hi]

/-- The bytes from index `i` on. -/
def ReadsAt (str : CStr) (i : Nat) (bytes : List UInt8) : Prop :=
  ∀ j (hj : j < bytes.length), str (i + j) = bytes[j]

theorem readsAt_cons {str : CStr} {i : Nat} {c : UInt8} {bytes : List UInt8} :
    ReadsAt str i (c :: bytes) ↔ str i = c ∧ ReadsAt str (i + 1) bytes := by
  constructor
  · intro h
    refine ⟨h 0 (by simp), fun j hj => ?_⟩
    rw [show i + 1 + j = i + (j + 1) by omega]
    exact h (j + 1) (by simpa using hj)
  · rintro ⟨hc, hrest⟩ j hj
    cases j with
    | zero => exact hc
    | succ j =>
      rw [show i + (j + 1) = i + 1 + j by omega]
      exact hrest j (by simpa using hj)

theorem Spells.readsAt {str : CStr} {bytes : List UInt8} (h : Spells str bytes) :
    ReadsAt str 0 bytes := by
  intro j hj
  rw [Nat.zero_add]
  exact h.getElem hj

theorem Spells.strlen {str : CStr} {bytes : List UInt8} (h : Spells str bytes)
    (hlen : bytes.length < 65536) : strlen str = some bytes.length := by
  refine strlen_eq ?_ (fun j hj h0 => ?_) hlen
  · rw [h.byte _ (Nat.le_refl _), List.getD_eq_default _ _ (Nat.le_refl _)]
  · rw [h.getElem hj] at h0
    exact h.nonzero (h0 ▸ List.getElem_mem hj)

/-- `strlen` of a string of memory. -/
theorem CString.strlen {m : Mem} {p : Nat} {bytes : List UInt8} (h : CString m p bytes)
    (hnz : 0 ∉ bytes) (hlen : bytes.length < 65536) : strlen (strAt m p) = some bytes.length :=
  (h.spells hnz).strlen hlen

/-- The 16-bit counter of `strlen` does not get to the end of a longer string. -/
theorem CString.strlen_long {m : Mem} {p : Nat} {bytes : List UInt8} (h : CString m p bytes)
    (hnz : 0 ∉ bytes) (hlen : 65536 ≤ bytes.length) : KokoOs.strlen (strAt m p) = none := by
  have hloop : ∀ fuel i, i + fuel ≤ bytes.length → strlenLoop (strAt m p) fuel i = none := by
    intro fuel
    induction fuel with
    | zero => exact fun _ _ => rfl
    | succ fuel ih =>
      intro i hi
      unfold strlenLoop
      have hne : strAt m p i ≠ 0 := h.ne_zero hnz (by omega)
      rw [if_neg hne]
      exact ih (i + 1) (by omega)
  exact hloop 65536 0 (by omega)

theorem strIndexLoop_eq {str : CStr} {needle : UInt8} {n : Nat} (hn : str n = needle) :
    ∀ {fuel i : Nat}, (∀ j, i ≤ j → j < n → str j ≠ needle) → i ≤ n → n < i + fuel →
      strIndexLoop str needle fuel i = n
  | 0, _, _, h1, h2 => absurd h2 (by omega)
  | fuel + 1, i, hne, h1, h2 => by
    unfold strIndexLoop
    rcases Nat.eq_or_lt_of_le h1 with rfl | hlt
    · rw [if_pos hn]
    · rw [if_neg (hne i (Nat.le_refl i) hlt)]
      exact strIndexLoop_eq hn (fun j h3 h4 => hne j (by omega) h4) hlt (by omega)

theorem strIndexLoop_none {str : CStr} {needle : UInt8} : ∀ {fuel i : Nat},
    (∀ j, i ≤ j → j < i + fuel → str j ≠ needle) → strIndexLoop str needle fuel i = -1
  | 0, _, _ => rfl
  | fuel + 1, i, hne => by
    unfold strIndexLoop
    rw [if_neg (hne i (Nat.le_refl i) (by omega))]
    exact strIndexLoop_none fun j h1 h2 => hne j (by omega) (by omega)

/-- `str_index_of` finds the first separator. -/
theorem CString.strIndexOf_sep {m : Mem} {p : Nat} {c rest : List UInt8} {sep : UInt8}
    (h : CString m p (c ++ sep :: rest)) (hnz : 0 ∉ c ++ sep :: rest)
    (hlen : (c ++ sep :: rest).length < 65536) (hc : sep ∉ c) :
    strIndexOf (strAt m p) sep = some (c.length : Int) := by
  have hL : (c ++ sep :: rest).length = c.length + (rest.length + 1) := by simp
  have hat : strAt m p c.length = sep := by
    refine (h c.length (by omega)).trans ?_
    rw [List.getD_eq_getElem _ _ (by omega), List.getElem_append_right (Nat.le_refl _)]
    simp
  have hbefore : ∀ j, 0 ≤ j → j < c.length → strAt m p j ≠ sep := by
    intro j _ hj heq
    have hat' := (h j (by omega)).symm.trans heq
    rw [List.getD_eq_getElem _ _ (by omega), List.getElem_append_left hj] at hat'
    exact hc (hat' ▸ List.getElem_mem hj)
  unfold strIndexOf
  by_cases h0 : strAt m p 0 = sep
  · rw [if_pos h0]
    have : c.length = 0 := by
      by_contra hne
      exact hbefore 0 (Nat.le_refl 0) (by omega) h0
    simp [this]
  · rw [if_neg h0, h.strlen hnz hlen]
    exact congrArg some (strIndexLoop_eq hat hbefore (Nat.zero_le _) (by omega))

/-- `str_index_of` answers -1 if there is no separator. -/
theorem CString.strIndexOf_none {m : Mem} {p : Nat} {bytes : List UInt8} {sep : UInt8}
    (h : CString m p bytes) (hnz : 0 ∉ bytes) (hlen : bytes.length < 65536) (hsep : sep ≠ 0)
    (hc : sep ∉ bytes) : strIndexOf (strAt m p) sep = some (-1) := by
  have hne : ∀ j ≤ bytes.length, strAt m p j ≠ sep := by
    intro j hj heq
    have hat := (h j hj).symm.trans heq
    rcases Nat.lt_or_ge j bytes.length with hlt | hge
    · rw [List.getD_eq_getElem _ _ hlt] at hat
      exact hc (hat ▸ List.getElem_mem hlt)
    · rw [List.getD_eq_default _ _ hge] at hat
      exact hsep hat.symm
  unfold strIndexOf
  rw [if_neg (hne 0 (Nat.zero_le _)), h.strlen hnz hlen]
  exact congrArg some (strIndexLoop_none fun j _ hj => hne j (by omega))

theorem signedChar_inj {c d : UInt8} (h : signedChar c = signedChar d) : c = d := by
  have hc := c.toNat_lt
  have hd := d.toNat_lt
  unfold signedChar at h
  refine UInt8.toNat_inj.mp ?_
  split at h <;> split at h <;> omega

/-! ## 2. Writing -/

/-- What `str_slice` does to memory when the ends are in order. -/
def sliceMem (m : Mem) (output str start end_ : Nat) : Mem :=
  Function.update (copyLoop output (str + start) (end_ + 1 - start) 0 m)
    (output + (end_ + 1 - start)) 0

theorem strSlice_run {output str start end_ : Nat} (h : start ≤ end_) (a : Arena) :
    strSlice output str start end_ a = .ok () ⟨a.heap, sliceMem a.mem output str start end_⟩ := by
  unfold strSlice
  rw [if_neg (by omega)]
  rfl

theorem sliceMem_of_not_mem {m : Mem} {output str start end_ x : Nat} (h : start ≤ end_)
    (hx : ¬ (output ≤ x ∧ x ≤ output + (end_ + 1 - start))) :
    sliceMem m output str start end_ x = m x := by
  unfold sliceMem
  rw [Function.update_of_ne (by omega), copyLoop_of_not_mem (by omega)]

/-- The slice of a string is stored as a string, if the two do not overlap.  A slice up to the
NUL is the rest of the string. -/
theorem CString.slice {m : Mem} {output str start end_ : Nat} {bytes : List UInt8}
    (h : CString m str bytes) (hse : start ≤ end_) (hend : end_ ≤ bytes.length)
    (happart : str + bytes.length < output ∨ output + (end_ + 1 - start) < str) :
    CString (sliceMem m output str start end_) output ((bytes.drop start).take (end_ + 1 - start)) := by
  intro i hi
  have hlen : ((bytes.drop start).take (end_ + 1 - start)).length
      = min (end_ + 1 - start) (bytes.length - start) := by simp
  rw [hlen] at hi
  unfold sliceMem
  by_cases hlast : i = end_ + 1 - start
  · rw [hlast, Function.update_self, List.getD_eq_default _ _ (by rw [hlen]; omega)]
  · rw [Function.update_of_ne (by omega), copyLoop_of_mem (Nat.zero_le _) (by omega) (by omega),
      Nat.add_assoc, h _ (by omega)]
    rw [List.getD_eq_getElem?_getD, List.getD_eq_getElem?_getD, List.getElem?_take,
      List.getElem?_drop, if_pos (by omega)]

/-- The copying loops store the string behind each other. -/
theorem strCopyLoop_eq {dest src n : Nat} : ∀ {fuel i : Nat} {m : Mem},
    (∀ j, i ≤ j → j < n → m (src + j) ≠ 0) → m (src + n) = 0 → i ≤ n → n < i + fuel →
    (src + n < dest ∨ dest + n < src) →
    strCopyLoop dest src fuel i m
      = some (Function.update (copyLoop dest src (n - i) i m) (dest + n) 0)
  | 0, _, _, _, _, h1, h2, _ => absurd h2 (by omega)
  | fuel + 1, i, m, hne, h0, h1, h2, happart => by
    unfold strCopyLoop
    rcases Nat.eq_or_lt_of_le h1 with rfl | hlt
    · rw [if_pos h0, Nat.sub_self]
      rfl
    · have hkeep : ∀ j, Function.update m (dest + i) (m (src + i)) (src + j) = m (src + j) ∨
          n < j := by
        intro j
        by_cases hj : n < j
        · exact Or.inr hj
        · exact Or.inl (Function.update_of_ne (by omega) _ _)
      have hne' : ∀ j, i + 1 ≤ j → j < n →
          Function.update m (dest + i) (m (src + i)) (src + j) ≠ 0 := by
        intro j h3 h4
        rcases hkeep j with h | h
        · rw [h]
          exact hne j (by omega) h4
        · omega
      have h0' : Function.update m (dest + i) (m (src + i)) (src + n) = 0 := by
        rcases hkeep n with h | h
        · rw [h]
          exact h0
        · omega
      rw [if_neg (hne i (Nat.le_refl i) hlt), strCopyLoop_eq hne' h0' hlt (by omega) happart,
        show n - i = n - (i + 1) + 1 by omega]
      rfl

/-- `str_copy` makes an object that holds a copy, except of the empty string. -/
theorem strCopy_runs {stop : Halt → Prop} {a : Arena} (hk : KernelHeap a) {str : Nat}
    {bytes : List UInt8} (h : CString a.mem str bytes) (hnz : 0 ∉ bytes)
    (hlen : bytes.length < 4096) (hs : (freeBlocks a.heap).card = 0 → ∀ e, stop e)
    (happart : ∀ b, ¬ Held a b → str + bytes.length < blockAt b ∨ blockAt b + 4096 ≤ str) :
    Prog.Runs stop (strCopy str) a fun p a' => (bytes = [] ∧ p = emptyString ∧ a' = a) ∨
      ∃ b, p = blockAt b ∧ New a a' b ∧ CString a'.mem (blockAt b) bytes ∧
        (freeBlocks a'.heap).card + 1 = (freeBlocks a.heap).card ∧ Makes {b} a a' ∧
        bytes ≠ [] := by
  unfold strCopy
  refine Prog.Runs.get_bind ?_
  rw [h.strlen hnz (by omega)]
  refine Prog.Runs.bind (Prog.Runs.of_ok (Q := fun n a' => n = bytes.length ∧ a' = a) rfl ⟨rfl, rfl⟩) ?_
  rintro n a1 ⟨rfl, rfl⟩
  split
  · exact Prog.Runs.pure (Or.inl ⟨List.length_eq_zero_iff.mp (by omega), rfl, rfl⟩)
  · refine Prog.Runs.bind (hk.alloc_runs (by omega) (by omega) hs) ?_
    rintro p a1 ⟨b, rfl, hnew⟩
    have hap := happart b hnew.fresh
    have h1 : CString a1.mem str bytes := hnew.mem ▸ h
    have hloop : strCopyLoop (blockAt b) str (2 ^ 32) 0 a1.mem = some (Function.update
        (copyLoop (blockAt b) str (bytes.length - 0) 0 a1.mem) (blockAt b + bytes.length) 0) :=
      strCopyLoop_eq (fun j _ hj => h1.ne_zero hnz hj) h1.nul (Nat.zero_le _) (by omega) (by omega)
    have hcopy : strRefCopy (blockAt b) str a1 = .ok () ⟨a1.heap, Function.update
        (copyLoop (blockAt b) str (bytes.length - 0) 0 a1.mem) (blockAt b + bytes.length) 0⟩ := by
      unfold strRefCopy
      rw [Prog.get_bind, hloop]
      rfl
    refine Prog.Runs.of_ok ((Prog.bind_of_ok hcopy _).trans rfl) (Or.inr ⟨b, rfl, ?_, fun i hi => ?_, hnew.card,
      (hnew.makes hk).then_store rfl, List.ne_nil_of_length_pos (by omega)⟩)
    · refine hnew.store fun x hx => ?_
      rw [Function.update_of_ne (by omega), copyLoop_of_not_mem (by omega)]
    · dsimp only
      rcases Nat.eq_or_lt_of_le hi with rfl | hlt
      · rw [Function.update_self, List.getD_eq_default _ _ (Nat.le_refl _)]
      · rw [Function.update_of_ne (by omega), copyLoop_of_mem (Nat.zero_le _) (by omega) (by omega)]
        exact h1 i hi

/-! ## 3. Strings and words of objects -/

/-- The string in an object that is not touched stays what it is. -/
theorem Touches.cstring {T W : Set Nat} {a a' : Arena} (h : Touches T W a a') {b : Nat}
    (hbT : b ∉ T) (hb : Held a b) {bytes : List UInt8} (hlen : bytes.length < 4096)
    (hs : CString a.mem (blockAt b) bytes) : CString a'.mem (blockAt b) bytes :=
  hs.congr fun i hi => h.bytes b hbT hb i (by omega)

/-- The words in an object that is not touched stay what they are. -/
theorem Touches.word {T W : Set Nat} {a a' : Arena} (h : Touches T W a a') {b : Nat}
    (hbT : b ∉ T) (hb : Held a b) {k : Nat} (hk : k + 4 ≤ 4096) :
    u32 a'.mem (blockAt b + k) = u32 a.mem (blockAt b + k) := by
  refine u32_congr fun x h1 h2 => ?_
  obtain ⟨j, rfl⟩ := Nat.exists_eq_add_of_le (by omega : blockAt b ≤ x)
  exact h.bytes b hbT hb j (by omega)

theorem Touches.firstWord {T W : Set Nat} {a a' : Arena} (h : Touches T W a a') {b : Nat}
    (hbT : b ∉ T) (hb : Held a b) : u32 a'.mem (blockAt b) = u32 a.mem (blockAt b) :=
  h.word (k := 0) hbT hb (by omega)

end KokoOs
