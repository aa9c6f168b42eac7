/-
# Seeking in a file

`fat16_seek` compares the sum of the position and the offset with the size of the file as a 32-bit
number, and moves to that number.  The position never leaves the file (`SeekStep.inside`), but it is
the sum itself, over all sequences of calls, exactly for files of at most 2 GiB
(`seeks_exact_iff`).

Everything that one call can do is in `SeekStep.cases`: refuse, move to the offset, or move to the
sum cut to 32 bits.  In a file of at most 2 GiB the position and the offset that are let through are
too small for the sum to be cut.  In a larger one, two moves by half of 4 GiB go to the start and
are answered with `OK` (`seeks_wrap`).
-/
import KokoOs.Fat16
import KokoOs.Lib.Run

namespace KokoOs

open Runs Prog

/-! ## 1. Calls of `fat16_seek` -/

/-- A call: what is asked for, and the code that is returned. -/
structure SeekCall where
  offset : Nat
  mode : SeekMode
  code : Int

/-- `fat16_seek` answers a call with a 32-bit offset. -/
def SeekStep (desc : FatFileDescriptor) (call : SeekCall) (desc' : FatFileDescriptor) : Prop :=
  call.offset < 2 ^ 32 ∧ fat16Seek desc call.offset call.mode = (call.code, desc')

/-- A file that has just been opened. -/
structure FreshFile (desc : FatFileDescriptor) : Prop where
  file : desc.item.type = .file
  pos : desc.pos = 0

/-- The position is 0 or in the file. -/
def InsideFile (desc : FatFileDescriptor) : Prop :=
  desc.pos = 0 ∨ desc.pos < desc.item.item.filesize

/-- A call that returns `OK` has set the position to the offset, or has added the offset to it; any
other call has left it. -/
structure MovesExactly (desc : FatFileDescriptor) (call : SeekCall) (desc' : FatFileDescriptor) :
    Prop where
  moved : call.code = ok → (call.mode = .set ∧ desc'.pos = call.offset) ∨
    (call.mode = .cur ∧ desc'.pos = desc.pos + call.offset)
  stayed : call.code ≠ ok → desc'.pos = desc.pos

/-- After every sequence of calls the position is 0 or in the file, and the next call moves it
exactly. -/
structure SeeksExactly (desc : FatFileDescriptor) : Prop where
  inside : ∀ tr desc', Run SeekStep desc tr desc' →
    desc'.pos = 0 ∨ desc'.pos < desc.item.item.filesize
  exact : ∀ tr desc' call desc'', Run SeekStep desc tr desc' → SeekStep desc' call desc'' →
    MovesExactly desc' call desc''

/-! ## 2. One call -/

section

variable {desc desc' : FatFileDescriptor} {call : SeekCall}

/-- Everything that a call can do: refuse, move to the offset, or move to the 32-bit sum. -/
theorem SeekStep.cases (h : SeekStep desc call desc') :
    (call.code ≠ ok ∧ desc' = desc) ∨
    (call.code = ok ∧ call.mode = .set ∧ call.offset < desc.item.item.filesize ∧
      desc' = { desc with pos := call.offset }) ∨
    (call.code = ok ∧ call.mode = .cur ∧ call.offset < desc.item.item.filesize ∧
      (desc.pos + call.offset) % 2 ^ 32 < desc.item.item.filesize ∧
      desc' = { desc with pos := (desc.pos + call.offset) % 2 ^ 32 }) := by
  obtain ⟨offset, mode, code⟩ := call
  obtain ⟨-, h⟩ := h
  change fat16Seek desc offset mode = (code, desc') at h
  unfold fat16Seek at h
  split at h
  · cases h
    exact Or.inl ⟨show invalidArgument ≠ ok by decide, rfl⟩
  split at h
  · cases h
    exact Or.inl ⟨show systemFail ≠ ok by decide, rfl⟩
  have hsize : offset < desc.item.item.filesize := Nat.lt_of_not_le (by assumption)
  cases mode with
  | set =>
    cases h
    exact Or.inr (Or.inl ⟨rfl, rfl, hsize, rfl⟩)
  | fromEnd =>
    cases h
    exact Or.inl ⟨show notImplemented ≠ ok by decide, rfl⟩
  | other =>
    cases h
    exact Or.inl ⟨show invalidArgument ≠ ok by decide, rfl⟩
  | cur =>
    dsimp only at h
    split at h
    · cases h
      exact Or.inl ⟨show systemFail ≠ ok by decide, rfl⟩
    · cases h
      exact Or.inr (Or.inr ⟨rfl, rfl, hsize, Nat.lt_of_not_le (by assumption), rfl⟩)

/-- The file stays the same. -/
theorem SeekStep.item (h : SeekStep desc call desc') : desc'.item = desc.item := by
  obtain ⟨-, rfl⟩ | ⟨-, -, -, rfl⟩ | ⟨-, -, -, -, rfl⟩ := h.cases
  · rfl
  · rfl
  · rfl

/-- **The position never leaves the file**, however large it is. -/
theorem SeekStep.inside (h : SeekStep desc call desc') (hin : InsideFile desc) :
    InsideFile desc' := by
  obtain ⟨-, rfl⟩ | ⟨-, -, hlt, rfl⟩ | ⟨-, -, -, hlt, rfl⟩ := h.cases
  · exact hin
  · exact Or.inr hlt
  · exact Or.inr hlt

/-- In a file of at most 2 GiB the sum of a position and an offset is a 32-bit number. -/
theorem SeekStep.exact (h : SeekStep desc call desc') (hin : InsideFile desc)
    (hsize : desc.item.item.filesize ≤ 2 ^ 31) : MovesExactly desc call desc' := by
  obtain ⟨hcode, rfl⟩ | ⟨hcode, hmode, -, rfl⟩ | ⟨hcode, hmode, hlt, -, rfl⟩ := h.cases
  · exact ⟨fun hok => absurd hok hcode, fun _ => rfl⟩
  · exact ⟨fun _ => Or.inl ⟨hmode, rfl⟩, fun hne => absurd hcode hne⟩
  · have hsum : desc.pos + call.offset < 2 ^ 32 := by
      rcases hin with hin | hin <;> omega
    exact ⟨fun _ => Or.inr ⟨hmode, Nat.mod_eq_of_lt hsum⟩, fun hne => absurd hcode hne⟩

end

/-! ## 3. Sequences of calls -/

/-- Opening leaves the position at the start. -/
theorem fat16Open_pos {disk : DiskRef} {path : Nat} {mode : FileMode} {s s' : Sys}
    {desc : FatFileDescriptor} (h : fat16Open disk path mode s = .ok (.ok desc) s') :
    desc.pos = 0 := by
  cases mode with
  | read =>
    obtain ⟨a, s1, -, h⟩ := (bind_ok_iff _ _ _ _ _).mp h
    split at h
    · exact absurd ((pure_ok_iff _ _ _ _).mp h).1 (by simp)
    obtain ⟨item, s2, -, h⟩ := (bind_ok_iff _ _ _ _ _).mp h
    cases item with
    | none =>
      obtain ⟨-, s3, -, h⟩ := (bind_ok_iff _ _ _ _ _).mp h
      exact absurd ((pure_ok_iff _ _ _ _).mp h).1 (by simp)
    | some item =>
      obtain ⟨heq, -⟩ := (pure_ok_iff _ _ _ _).mp h
      cases heq
      rfl
  | write =>
    obtain ⟨a, s1, -, h⟩ := (bind_ok_iff _ _ _ _ _).mp h
    split at h
    · exact absurd ((pure_ok_iff _ _ _ _).mp h).1 (by simp)
    obtain ⟨item, s2, -, h⟩ := (bind_ok_iff _ _ _ _ _).mp h
    cases item with
    | none =>
      obtain ⟨item, s3, -, h⟩ := (bind_ok_iff _ _ _ _ _).mp h
      obtain ⟨heq, -⟩ := (pure_ok_iff _ _ _ _).mp h
      cases heq
      rfl
    | some item =>
      obtain ⟨heq, -⟩ := (pure_ok_iff _ _ _ _).mp h
      cases heq
      rfl
  | append => exact absurd ((pure_ok_iff _ _ _ _).mp h).1 (by simp)

/-- Every sequence of calls stays in the file it began in. -/
theorem FreshFile.run {desc desc' : FatFileDescriptor} {tr : List (FatFileDescriptor × SeekCall)}
    (h : FreshFile desc) (hrun : Run SeekStep desc tr desc') :
    desc'.item = desc.item ∧ InsideFile desc' := by
  refine hrun.invariant (I := fun d => d.item = desc.item ∧ InsideFile d) ?_ ⟨rfl, Or.inl h.pos⟩
  intro d call d' hd hstep
  exact ⟨hstep.item.trans hd.1, hstep.inside hd.2⟩

/-- In a larger file, two moves by half of 4 GiB come back to the start. -/
theorem FreshFile.not_exact {desc : FatFileDescriptor} (h : FreshFile desc)
    (hlarge : 2 ^ 31 < desc.item.item.filesize) : ¬ SeeksExactly desc := by
  intro hexact
  let half : FatFileDescriptor := { desc with pos := 2 ^ 31 }
  have hin : ¬ 2 ^ 31 ≥ desc.item.item.filesize := Nat.not_le.mpr hlarge
  have hset : SeekStep desc ⟨2 ^ 31, .set, ok⟩ half := by
    refine ⟨by decide, ?_⟩
    change fat16Seek desc (2 ^ 31) .set = _
    unfold fat16Seek
    rw [if_neg (not_not.mpr h.file), if_neg hin]
  have hcur : SeekStep half ⟨2 ^ 31, .cur, ok⟩ { half with pos := 0 } := by
    have hzero : (half.pos + 2 ^ 31) % 2 ^ 32 = 0 := by
      change (2 ^ 31 + 2 ^ 31) % 2 ^ 32 = 0
      norm_num
    refine ⟨by decide, ?_⟩
    change fat16Seek half (2 ^ 31) .cur = _
    unfold fat16Seek
    have hfile : ¬ half.item.type ≠ .file := not_not.mpr h.file
    have hpos : ¬ 0 ≥ desc.item.item.filesize := by omega
    rw [if_neg hfile, if_neg hin]
    dsimp only
    rw [hzero, if_neg hpos]
  rcases (hexact.exact _ _ _ _ (Run.single hset) hcur).moved rfl with ⟨hmode, -⟩ | ⟨-, hpos⟩
  · cases hmode
  · exact absurd hpos (by decide : ¬ 0 = 2 ^ 31 + 2 ^ 31)

/-- **Seeking is exact over all sequences of calls if and only if the file has at most 2 GiB.** -/
theorem seeks_exact_iff {desc : FatFileDescriptor} (h : FreshFile desc) :
    SeeksExactly desc ↔ desc.item.item.filesize ≤ 2 ^ 31 := by
  constructor
  · intro hexact
    by_contra hlarge
    exact h.not_exact (Nat.lt_of_not_le hlarge) hexact
  · intro hsize
    refine ⟨fun tr desc' hrun => ?_, fun tr desc' call desc'' hrun hstep => ?_⟩
    · obtain ⟨hitem, hin⟩ := h.run hrun
      rw [← hitem]
      exact hin
    · obtain ⟨hitem, hin⟩ := h.run hrun
      exact hstep.exact hin (hitem ▸ hsize)

/-- A descriptor of a file of `2 ^ 31 + 1` bytes. -/
def largeFile : FatFileDescriptor :=
  { address := 0x20000000, pos := 0
    item := { address := 0x20001000, itemAddress := 0x20002000, type := .file
              item := List.replicate 28 0 ++ [1, 0, 0, 0x80] } }

/-- In a file of 1024 bytes seeking is exact. -/
theorem seeks_exact_small : SeeksExactly { largeFile with item := { largeFile.item with
    item := List.replicate 28 0 ++ [0, 4, 0, 0] } } :=
  (seeks_exact_iff ⟨rfl, rfl⟩).mpr (by decide)

/-- **In a file of `2 ^ 31 + 1` bytes** a seek by `2 ^ 31` from byte `2 ^ 31` on goes to the start. -/
theorem seeks_wrap : ¬ ∀ desc : FatFileDescriptor, FreshFile desc → SeeksExactly desc := by
  intro hclaim
  have hfresh : FreshFile largeFile := ⟨rfl, rfl⟩
  exact hfresh.not_exact (by decide) (hclaim largeFile hfresh)

end KokoOs
