/-
# The check of a path, and the loop it begins with

`path_parser_is_path_valid` measures the path with `strlen`, looks at its first character and
compares the two behind it with `":/"`, by way of a copy in a buffer of two bytes.

* **The loop.**  `strlen` counts in 16 bits.  `StrlenEnds` is its loop with the counter as it is, without
  any fuel, and the `strlen` of the model is that loop (`strlenEnds_iff`).  `strlenRight_iff` says on
  which strings it ends, and with it the check of a path: on those that the counter can count.
* **The accesses.**  What the check reads of the path and writes to the buffer is what a second version
  logs (`pathParserIsPathValidLogged_erases`).  `pathChecked_iff` says for which paths it stays inside of
  both: the slice of two characters has a NUL behind it, for which the buffer has no room, so these are
  the paths for which no slice is made.

So every path that is accepted has its check write a byte behind the buffer (`slice_leaves_buffer`), and a
path that ends after its drive is also read behind its end.
-/
import KokoOs.PathParse
import KokoOs.Lib.Logged

namespace KokoOs

open Bytes Prog

/-! ## 1. The loop of `strlen` -/

/-- `len++`, for a `uint16_t`. -/
def strlenStep (len : Nat) : Nat := (len + 1) % 65536

/-- The loop of `strlen` ends with `n`, after some number of turns. -/
def StrlenEnds (str : CStr) (n : Nat) : Prop :=
  ∃ turns, strlenStep^[turns] 0 = n ∧ str n = 0 ∧ ∀ t < turns, str (strlenStep^[t] 0) ≠ 0

theorem strlenStep_iterate (t : Nat) : strlenStep^[t] 0 = t % 65536 := by
  induction t with
  | zero => rfl
  | succ t ih =>
    rw [Function.iterate_succ_apply', ih]
    unfold strlenStep
    omega

theorem strlenLoop_some {str : CStr} {n fuel i : Nat} (h : strlenLoop str fuel i = some n) :
    n < i + fuel ∧ str n = 0 ∧ ∀ j, i ≤ j → j < n → str j ≠ 0 := by
  induction fuel generalizing i with
  | zero => cases h
  | succ fuel ih =>
    unfold strlenLoop at h
    split at h
    · next h0 =>
      obtain rfl := Option.some_inj.mp h
      exact ⟨by omega, h0, fun j h1 h2 => absurd h1 (by omega)⟩
    · next h0 =>
      obtain ⟨hlt, hn, hne⟩ := ih h
      refine ⟨by omega, hn, fun j h1 h2 => ?_⟩
      rcases Nat.eq_or_lt_of_le h1 with rfl | hij
      · exact h0
      · exact hne j hij h2

/-- **`strlen` is that loop.**  A loop that goes on for longer than the counter has values comes to
the indices it has been to already. -/
theorem strlenEnds_iff {str : CStr} {n : Nat} : StrlenEnds str n ↔ strlen str = some n := by
  constructor
  · rintro ⟨turns, hn, h0, hne⟩
    rw [strlenStep_iterate] at hn
    have hlt : turns < 65536 := by
      by_contra hge
      have hsame := hne (turns % 65536) (by omega)
      rw [strlenStep_iterate, Nat.mod_mod, hn] at hsame
      exact hsame h0
    rw [Nat.mod_eq_of_lt hlt] at hn
    subst hn
    refine strlen_eq h0 (fun j hj => ?_) hlt
    have hj' := hne j hj
    rwa [strlenStep_iterate, Nat.mod_eq_of_lt (by omega)] at hj'
  · intro h
    obtain ⟨hlt, h0, hne⟩ := strlenLoop_some h
    refine ⟨n, ?_, h0, fun t ht => ?_⟩
    · rw [strlenStep_iterate, Nat.mod_eq_of_lt (by omega)]
    · rw [strlenStep_iterate, Nat.mod_eq_of_lt (by omega)]
      exact hne t (Nat.zero_le t) ht

/-- `strlen` is right about a string, and the check of a path refuses it if it is too long. -/
structure StrlenRight (a : Arena) (path : Nat) (bytes : List UInt8) : Prop where
  ends : StrlenEnds (strAt a.mem path) bytes.length
  refused : 256 < bytes.length → pathParserIsPathValid path a = .ok false a

/-- **On which strings `strlen` ends.** -/
theorem strlenRight_iff {a : Arena} {path : Nat} {bytes : List UInt8} (h : CString a.mem path bytes)
    (hnz : 0 ∉ bytes) : StrlenRight a path bytes ↔ bytes.length < 65536 := by
  constructor
  · intro hright
    by_contra hge
    have hnone := h.strlen_long hnz (Nat.le_of_not_lt hge)
    rw [strlenEnds_iff.mp hright.ends] at hnone
    cases hnone
  · intro hlt
    have hlen := h.strlen hnz hlt
    refine ⟨strlenEnds_iff.mpr hlen, fun hlong => ?_⟩
    unfold pathParserIsPathValid
    rw [get_bind, hlen]
    exact congrFun (if_pos hlong) a

/-- A memory with `n` letters in a row. -/
def lettersKernel (n : Nat) : Arena :=
  ⟨(newHeap 1).arena.heap, fun x => if x < n then 97 else 0⟩

theorem lettersKernel_cstring (n : Nat) : CString (lettersKernel n).mem 0 (List.replicate n 97) := by
  intro i hi
  rw [List.length_replicate] at hi
  have hmem : (lettersKernel n).mem (0 + i) = if i < n then 97 else 0 := by
    rw [Nat.zero_add]
    rfl
  rw [hmem]
  split
  · next hlt => rw [List.getD_eq_getElem _ _ (by simpa using hlt), List.getElem_replicate]
  · next hge => rw [List.getD_eq_default _ _ (by simpa using hge)]

theorem zero_not_mem_letters (n : Nat) : (0 : UInt8) ∉ List.replicate n 97 := fun hin =>
  absurd (List.eq_of_mem_replicate hin) (by decide)

/-- A path of 300 letters is measured and refused. -/
theorem strlenRight_letters : StrlenRight (lettersKernel 300) 0 (List.replicate 300 97) :=
  (strlenRight_iff (lettersKernel_cstring 300) (zero_not_mem_letters 300)).mpr (by
    rw [List.length_replicate]
    decide)

/-- **On one of 65536 letters the loop never ends**, and neither does the check. -/
theorem strlen_hangs : CString (lettersKernel 65536).mem 0 (List.replicate 65536 97) ∧
    (∀ n, ¬ StrlenEnds (strAt (lettersKernel 65536).mem 0) n) ∧
    pathParserIsPathValid 0 (lettersKernel 65536) = .error .hang (lettersKernel 65536) := by
  have hstr := lettersKernel_cstring 65536
  have hnone : strlen (strAt (lettersKernel 65536).mem 0) = none :=
    hstr.strlen_long (zero_not_mem_letters _) (by rw [List.length_replicate])
  refine ⟨hstr, fun n hn => ?_, ?_⟩
  · rw [strlenEnds_iff.mp hn] at hnone
    cases hnone
  · unfold pathParserIsPathValid
    rw [get_bind, hnone]
    rfl

/-! ## 2. What the check touches -/

/-- A byte of the path that is read, or one of `start_path_slice` that is written. -/
inductive PathAccess where
  | read (index : Nat)
  | write (index : Nat)
deriving DecidableEq

/-- Programs of the heap that log these accesses. -/
abbrev LoggedPathM := EStateM Halt (Arena × List PathAccess)

/-- The loop of `strlen`, on the path. -/
def strlenLoopLogged (path : Nat) : Nat → Nat → LoggedPathM Nat
  | 0, _ => throw .hang
  | fuel + 1, len => do
    record (.read len)
    let s ← get
    if strAt s.1.mem path len = 0 then return len else strlenLoopLogged path fuel (len + 1)

/-- The loop of `str_slice` from the path to `start_path_slice`, from `index` on, with the NUL. -/
def strSliceLoopLogged (path start : Nat) : Nat → Nat → LoggedPathM Unit
  | 0, index => do
    record (.write index)
    unlogged (storeHeap fun m => Function.update m (startPathSlice + index) 0)
  | fuel + 1, index => do
    record (.read (start + index))
    record (.write index)
    unlogged (storeHeap fun m =>
      Function.update m (startPathSlice + index) (m (path + start + index)))
    strSliceLoopLogged path start fuel (index + 1)

/-- `path_parser_is_path_valid`, with its accesses. -/
def pathParserIsPathValidLogged (path : Nat) : LoggedPathM Bool := do
  let length ← strlenLoopLogged path 65536 0
  if length > kernelMaxPathSize then return false
  else
    record (.read 0)
    let s ← get
    if !isDigit (s.1.mem path) then return false
    else
      strSliceLoopLogged path 1 2 0
      let s ← get
      let cmp ← unlogged (orHang (strCmp (strAt s.1.mem startPathSlice) (literal [58, 47])))
      return cmp == 0

/-- What a call touches. -/
def pathAccesses (a : Arena) (path : Nat) : List PathAccess :=
  logOf (pathParserIsPathValidLogged path) a

theorem orHang_ok {α : Type} {o : Option α} {a a' : Arena} {x : α} (h : orHang o a = .ok x a') :
    o = some x ∧ a = a' := by
  cases o with
  | none => cases h
  | some y =>
    obtain ⟨rfl, rfl⟩ := (pure_ok_iff _ _ _ _).mp h
    exact ⟨rfl, rfl⟩

theorem strlenLoopLogged_erases (path : Nat) (a : Arena) (fuel len : Nat) :
    ErasesAt (strlenLoopLogged path fuel len) (orHang (strlenLoop (strAt a.mem path) fuel len)) a := by
  induction fuel generalizing len with
  | zero => exact fun _ => rfl
  | succ fuel ih =>
    refine ErasesAt.record (ErasesAt.get_logged fun log => ?_)
    rw [strlenLoop]
    dsimp only
    split
    · exact ErasesAt.pure len
    · exact ih (len + 1)

theorem strSliceLoopLogged_erases (path start fuel index : Nat) :
    Erases (strSliceLoopLogged path start fuel index) (storeHeap fun m => Function.update
      (copyLoop startPathSlice (path + start) fuel index m) (startPathSlice + (index + fuel)) 0) := by
  induction fuel generalizing index with
  | zero => exact fun _ => ErasesAt.record (ErasesAt.unlogged _)
  | succ fuel ih =>
    intro a log
    have h := ih (index + 1)
      ⟨a.heap, Function.update a.mem (startPathSlice + index) (a.mem (path + start + index))⟩
      (log ++ [.read (start + index)] ++ [.write index])
    rw [Nat.add_assoc index 1 fuel, Nat.add_comm 1 fuel] at h
    exact h

/-- **The logged version is `path_parser_is_path_valid`.** -/
theorem pathParserIsPathValidLogged_erases (path : Nat) :
    Erases (pathParserIsPathValidLogged path) (pathParserIsPathValid path) := by
  intro a
  refine ErasesAt.get_plain (ErasesAt.bind (strlenLoopLogged_erases path a 65536 0) ?_)
  intro length t hlen
  obtain ⟨-, rfl⟩ := orHang_ok hlen
  refine ErasesAt.ite (ErasesAt.pure _) (ErasesAt.record (ErasesAt.get_logged fun log => ?_))
  refine ErasesAt.ite (ErasesAt.pure _)
    (ErasesAt.bind (strSliceLoopLogged_erases path 1 2 0 a) fun _ t _ => ?_)
  refine ErasesAt.get_plain (ErasesAt.get_logged fun log => ?_)
  exact ErasesAt.bind (ErasesAt.unlogged _) fun cmp t _ => ErasesAt.pure _

section

variable {a : Arena} {path : Nat} {bytes : List UInt8}

/-- `strlen` reads the string up to its NUL. -/
theorem strlenLoopLogged_run {n fuel i : Nat} {log : List PathAccess} (hn : strAt a.mem path n = 0)
    (hne : ∀ j, i ≤ j → j < n → strAt a.mem path j ≠ 0) (h1 : i ≤ n) (h2 : n < i + fuel) :
    strlenLoopLogged path fuel i (a, log)
      = .ok n (a, log ++ (List.range' i (n + 1 - i)).map .read) := by
  induction fuel generalizing i log with
  | zero => omega
  | succ fuel ih =>
    have hturn : strlenLoopLogged path (fuel + 1) i (a, log) =
        (if strAt a.mem path i = 0 then pure i else strlenLoopLogged path fuel (i + 1))
          (a, log ++ [.read i]) := rfl
    rw [hturn]
    rcases Nat.eq_or_lt_of_le h1 with rfl | hlt
    · rw [if_pos hn, Nat.add_sub_cancel_left]
      rfl
    · rw [if_neg (hne i (Nat.le_refl i) hlt), ih (fun j h3 h4 => hne j (by omega) h4) hlt (by omega),
        show n + 1 - i = n + 1 - (i + 1) + 1 by omega, List.range'_succ, List.map_cons,
        List.append_assoc, List.singleton_append]

/-- The bytes that are read and written: the slice is only made of a path that begins with a digit. -/
theorem pathAccesses_eq (h : CString a.mem path bytes) (hnz : 0 ∉ bytes)
    (hlen : bytes.length < 65536) : pathAccesses a path =
      (List.range' 0 (bytes.length + 1)).map .read ++
        if 256 < bytes.length then []
        else .read 0 :: if isDigit (bytes.getD 0 0) = true then
          [.read 1, .write 0, .read 2, .write 1, .write 2] else [] := by
  have hfirst : a.mem path = bytes.getD 0 0 := h 0 (Nat.zero_le _)
  have hloop : strlenLoopLogged path 65536 0 (a, [])
      = .ok bytes.length (a, [] ++ (List.range' 0 (bytes.length + 1 - 0)).map .read) :=
    strlenLoopLogged_run h.nul (fun j _ hj => h.ne_zero hnz hj) (Nat.zero_le _) (by omega)
  unfold pathAccesses logOf pathParserIsPathValidLogged
  rw [bind_of_ok hloop, List.nil_append, Nat.sub_zero]
  by_cases hlong : 256 < bytes.length
  · rw [if_pos hlong, if_pos hlong, List.append_nil]
    rfl
  · rw [if_neg hlong, if_neg hlong]
    rw [record_bind, get_bind]
    dsimp only
    rw [hfirst]
    cases isDigit (bytes.getD 0 0) with
    | false => rfl
    | true =>
      -- what `str_cmp` reads is not of the path, and nothing comes behind it
      have hcmp : ∀ (o : Option Int) (t : Arena) (log : List PathAccess),
          (lastState ((unlogged (orHang o) >>= fun cmp => pure (cmp == 0) : LoggedPathM Bool)
            (t, log))).2 = log := by
        intro o t log
        cases o with
        | none => rfl
        | some cmp => rfl
      refine (hcmp _ _ _).trans ?_
      simp

/-! ## 3. When it stays inside -/

/-- The check answers whether the path is valid, reads nothing of it behind its NUL, and writes to the
two bytes of `start_path_slice` only. -/
structure PathChecked (a : Arena) (path : Nat) (bytes : List UInt8) : Prop where
  answers : ∃ v a', pathParserIsPathValid path a = .ok v a' ∧ (v = true ↔ validPath bytes)
  reads : ∀ i, .read i ∈ pathAccesses a path → i ≤ bytes.length
  writes : ∀ i, .write i ∈ pathAccesses a path → i < 2

/-- A path that is too long, or has no digit in front, is answered before the slice is made. -/
theorem isPathValid_early (h : CString a.mem path bytes) (hnz : 0 ∉ bytes) (hlen : bytes.length < 65536)
    (hearly : 256 < bytes.length ∨ isDigit (bytes.getD 0 0) = false) :
    pathParserIsPathValid path a = .ok false a := by
  have hfirst : a.mem path = bytes.getD 0 0 := h 0 (Nat.zero_le _)
  unfold pathParserIsPathValid
  rw [get_bind, h.strlen hnz hlen]
  change (if bytes.length > kernelMaxPathSize then pure false else _ : HeapM Bool) a = _
  by_cases hlong : 256 < bytes.length
  · rw [if_pos hlong]
    rfl
  · have hdigit := hearly.resolve_left hlong
    rw [if_neg hlong, hfirst, hdigit]
    rfl

/-- **For which paths the check is as it should be**: those for which it makes no slice. -/
theorem pathChecked_iff (h : CString a.mem path bytes) (hnz : 0 ∉ bytes)
    (hlen : bytes.length < 65536) :
    PathChecked a path bytes ↔ 256 < bytes.length ∨ isDigit (bytes.getD 0 0) = false := by
  have haccess := pathAccesses_eq h hnz hlen
  constructor
  · intro hchecked
    by_contra hno
    obtain ⟨hshort, hdigit⟩ := not_or.mp hno
    rw [if_neg hshort, if_pos (by simpa using hdigit)] at haccess
    exact absurd (hchecked.writes 2 (by simp [haccess])) (by decide)
  · intro hearly
    have hnone : pathAccesses a path = (List.range' 0 (bytes.length + 1)).map .read ++
        if 256 < bytes.length then [] else [.read 0] := by
      rw [haccess]
      split
      · rfl
      · next hshort => rw [hearly.resolve_left hshort, if_neg Bool.false_ne_true]
    refine ⟨⟨false, a, isPathValid_early h hnz hlen hearly, iff_of_false Bool.false_ne_true ?_⟩, ?_, ?_⟩
    · intro hv
      rcases hearly with hlong | hdigit
      · exact absurd hv.1 (by omega)
      · rw [hv.2.1] at hdigit
        cases hdigit
    · intro i hi
      rw [hnone] at hi
      split at hi
      · simp at hi
        omega
      · simp at hi
        omega
    · intro i hi
      rw [hnone] at hi
      split at hi
      · simp at hi
      · simp at hi

end

/-- The path `a`, of one letter, is refused without a slice. -/
theorem pathChecked_letter : PathChecked (lettersKernel 1) 0 [97] :=
  (pathChecked_iff (lettersKernel_cstring 1) (by decide) (by decide)).mpr (Or.inr (by decide))

/-- **The slice of the path `0:/a` has its NUL behind the buffer; and for the path `0` a character
behind the path is read too.** -/
theorem slice_leaves_buffer : (∃ a path, CString a.mem path [48, 58, 47, 97] ∧
      .write 2 ∈ pathAccesses a path ∧ ¬ PathChecked a path [48, 58, 47, 97]) ∧
    ∃ a path, CString a.mem path [48] ∧ .read 2 ∈ pathAccesses a path ∧ ¬ PathChecked a path [48] := by
  have hstr : ∀ bytes : List UInt8, CString (Arena.mk (newHeap 1).arena.heap (literal bytes)).mem 0 bytes := by
    intro bytes i _
    rw [Nat.zero_add]
    rfl
  refine ⟨⟨_, 0, hstr _, ?_⟩, ⟨_, 0, hstr _, ?_⟩⟩
  · have haccess := pathAccesses_eq (hstr [48, 58, 47, 97]) (by decide) (by decide)
    have hwrite : .write 2 ∈ pathAccesses (Arena.mk (newHeap 1).arena.heap (literal [48, 58, 47, 97])) 0 := by
      rw [haccess]
      decide
    exact ⟨hwrite, fun hchecked => absurd (hchecked.writes 2 hwrite) (by decide)⟩
  · have haccess := pathAccesses_eq (hstr [48]) (by decide) (by decide)
    have hread : .read 2 ∈ pathAccesses (Arena.mk (newHeap 1).arena.heap (literal [48])) 0 := by
      rw [haccess]
      decide
    exact ⟨hread, fun hchecked => absurd (hchecked.reads 2 hread) (by decide)⟩

end KokoOs
