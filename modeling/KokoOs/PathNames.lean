/-
# Paths and their components

The purpose of the path parser: a path `d:/c1/c2/../cn` has the list of its components as its
meaning, and `PartList` says that memory holds such a list.  The parser keeps the separator in
every name but the last, since `str_slice` includes its end; so the names are `slashed`, and this is
the list of the components exactly if there is at most one.

`parsePath_names_iff` says so in both directions, for all drives and components: the parser returns a
root unless the heap runs out of blocks, with the right drive, and with the right names if and only if
the path has one component.  The first path that goes wrong is `0:/a/b` (`two_components_keep_slash`).
-/
import KokoOs.PathParse

namespace KokoOs

open Bytes Prog

/-! ## 1. The meaning of a path -/

/-- The components of a path, joined by separators. -/
def joinPath : List (List UInt8) → List UInt8
  | [] => []
  | [c] => c
  | c :: d :: cs => c ++ 47 :: joinPath (d :: cs)

/-- The path `d:/c1/c2/../cn`. -/
def pathOf (d : Nat) (cs : List (List UInt8)) : List UInt8 :=
  UInt8.ofNat (48 + d) :: 58 :: 47 :: joinPath cs

/-- A component: not empty, and without separators and NULs. -/
def IsComponent (c : List UInt8) : Prop := c ≠ [] ∧ (47 : UInt8) ∉ c ∧ (0 : UInt8) ∉ c

/-- From `p` on, memory holds a list of parts with exactly the names `cs`. -/
def PartList (m : Mem) : Nat → List (List UInt8) → Prop
  | p, [] => p = 0
  | p, c :: cs => p ≠ 0 ∧ CString m (u32 m p) c ∧ PartList m (u32 m (p + 4)) cs

/-- **Memory holds at most one list of names.** -/
theorem PartList.unique {m : Mem} : ∀ {cs ds : List (List UInt8)} {p : Nat}, PartList m p cs →
    PartList m p ds → (∀ c ∈ cs, (0 : UInt8) ∉ c) → (∀ d ∈ ds, (0 : UInt8) ∉ d) → cs = ds
  | [], [], _, _, _, _, _ => rfl
  | [], _ :: _, _, h, h', _, _ => absurd h h'.1
  | _ :: _, [], _, h, h', _, _ => absurd h' h.1
  | c :: cs, d :: ds, p, ⟨_, hc, hcs⟩, ⟨_, hd, hds⟩, hcz, hdz => by
    have h1 := hc.unique hd (hcz c List.mem_cons_self) (hdz d List.mem_cons_self)
    have h2 := hcs.unique hds (fun x hx => hcz x (List.mem_cons_of_mem _ hx))
      (fun x hx => hdz x (List.mem_cons_of_mem _ hx))
    rw [h1, h2]

/-- A chain of parts followed by a list is a list. -/
theorem Parts.partList {a : Arena} {S : Set Nat} : ∀ {cs ds : List (List UInt8)} {p q : Nat},
    Parts a S p cs q → (∀ c ∈ cs, c ≠ []) → PartList a.mem q ds → PartList a.mem p (cs ++ ds)
  | [], _, _, _, h, _, hq => by
    rw [show _ = _ from h]
    exact hq
  | c :: cs, _, _, _, ⟨b, _, rfl, hname, hrest⟩, hne, hq => by
    rcases hname with ⟨rfl, -⟩ | ⟨n, -, hn, -, hstr, -⟩
    · exact absurd rfl (hne [] List.mem_cons_self)
    · exact ⟨Nat.ne_of_gt (blockAt_pos b), hn ▸ hstr,
        hrest.partList (fun x hx => hne x (List.mem_cons_of_mem _ hx)) hq⟩

/-! ## 2. What the parser makes of it -/

/-- The names the parser gives to the parts: every component but the last keeps its separator. -/
def slashed : List (List UInt8) → List (List UInt8)
  | [] => []
  | [c] => [c]
  | c :: d :: cs => (c ++ [47]) :: slashed (d :: cs)

example : slashed [[97], [98]] = [[97, 47], [98]] := rfl

theorem length_slashed : ∀ cs, (slashed cs).length = cs.length
  | [] => rfl
  | [_] => rfl
  | _ :: d :: cs => congrArg (· + 1) (length_slashed (d :: cs))

theorem slashed_eq_iff {cs : List (List UInt8)} (hne : cs ≠ []) :
    slashed cs = cs ↔ cs.length = 1 := by
  match cs with
  | [] => exact absurd rfl hne
  | [c] => exact iff_of_true rfl rfl
  | c :: d :: ds => simp [slashed]

/-- The names are the components up to separators. -/
theorem mem_slashed : ∀ {cs : List (List UInt8)} {x : List UInt8}, x ∈ slashed cs →
    ∃ c ∈ cs, x = c ∨ x = c ++ [47]
  | [], _, h => absurd h List.not_mem_nil
  | [c], x, h => ⟨c, List.mem_cons_self, Or.inl (List.mem_singleton.mp h)⟩
  | c :: d :: cs, x, h => by
    rcases List.mem_cons.mp h with rfl | h
    · exact ⟨c, List.mem_cons_self, Or.inr rfl⟩
    · obtain ⟨e, he, hx⟩ := mem_slashed h
      exact ⟨e, List.mem_cons_of_mem _ he, hx⟩

theorem mem_joinPath {x : UInt8} : ∀ {cs : List (List UInt8)}, x ∈ joinPath cs →
    x = 47 ∨ ∃ c ∈ cs, x ∈ c
  | [], h => absurd h List.not_mem_nil
  | [c], h => Or.inr ⟨c, List.mem_cons_self, h⟩
  | c :: d :: cs, h => by
    rcases List.mem_append.mp h with h | h
    · exact Or.inr ⟨c, List.mem_cons_self, h⟩
    · rcases List.mem_cons.mp h with h | h
      · exact Or.inl h
      · rcases mem_joinPath h with h | ⟨e, he, hx⟩
        · exact Or.inl h
        · exact Or.inr ⟨e, List.mem_cons_of_mem _ he, hx⟩

theorem slash_mem_joinPath (c d : List UInt8) (cs : List (List UInt8)) :
    (47 : UInt8) ∈ joinPath (c :: d :: cs) :=
  List.mem_append_right _ List.mem_cons_self

/-- How the parser splits a path of components. -/
theorem partSplit_joinPath : ∀ {cs : List (List UInt8)}, cs ≠ [] → (∀ c ∈ cs, IsComponent c) →
    (partSplit (joinPath cs)).all = slashed cs ∧
    ((partSplit (joinPath cs)).broke = true ↔ cs.length = 1) ∧
    ((partSplit (joinPath cs)).rest = [] ↔ cs.length = 1)
  | [], hne, _ => absurd rfl hne
  | [c], _, hcs => by
    have hc := hcs c List.mem_cons_self
    have hjoin : joinPath [c] = c := rfl
    rw [hjoin, partSplit_whole (Or.inl hc.2.1)]
    exact ⟨rfl, iff_of_true rfl rfl, iff_of_true rfl rfl⟩
  | c :: d :: cs, _, hcs => by
    have hc := hcs c List.mem_cons_self
    have hrest : ∀ x ∈ d :: cs, IsComponent x := fun x hx => hcs x (List.mem_cons_of_mem _ hx)
    obtain ⟨hall, hbroke, hnil⟩ := partSplit_joinPath (List.cons_ne_nil d cs) hrest
    have hjoin : joinPath (c :: d :: cs) = c ++ 47 :: joinPath (d :: cs) := rfl
    rw [hjoin, partSplit_cons hc.2.1 hc.1]
    have hlen : ¬ (c :: d :: cs).length = 1 := by simp
    match cs with
    | [] =>
      have hd := hrest d List.mem_cons_self
      have hlast : joinPath [d] = d := rfl
      rw [hlast, if_neg hd.2.1]
      refine ⟨?_, iff_of_false Bool.false_ne_true hlen, iff_of_false hd.1 hlen⟩
      simp [PathSplit.all, hd.1, slashed]
    | e :: es =>
      have hlen' : ¬ (d :: e :: es).length = 1 := by simp
      rw [if_pos (slash_mem_joinPath d e es)]
      refine ⟨?_, iff_of_false (fun h => hlen' (hbroke.mp h)) hlen,
        iff_of_false (fun h => hlen' (hnil.mp h)) hlen⟩
      unfold PathSplit.all at hall ⊢
      dsimp only
      rw [List.cons_append, hall]
      rfl

/-- A path of `n` components takes `2 * n` blocks behind the first one. -/
theorem partSplit_joinPath_need {cs : List (List UInt8)} (hne : cs ≠ [])
    (hcs : ∀ c ∈ cs, IsComponent c) : (partSplit (joinPath cs)).need = 2 * cs.length := by
  obtain ⟨hall, hbroke, hnil⟩ := partSplit_joinPath hne hcs
  have hlen := congrArg List.length hall
  rw [length_slashed, PathSplit.all, List.length_append] at hlen
  unfold PathSplit.need
  by_cases h1 : cs.length = 1
  · rw [if_pos (hbroke.mpr h1)]
    rw [if_pos (hnil.mpr h1), List.length_nil] at hlen
    omega
  · rw [if_neg (fun h => h1 (hbroke.mp h))]
    rw [if_neg (fun h => h1 (hnil.mp h)), List.length_singleton] at hlen
    omega

/-! ## 3. When the parser is right -/

theorem isDigit_digit {d : Nat} (hd : d ≤ 9) : isDigit (UInt8.ofNat (48 + d)) = true ∧
    getDigit (UInt8.ofNat (48 + d)) = UInt8.ofNat d := by
  have hall : ∀ d ≤ 9, isDigit (UInt8.ofNat (48 + d)) = true ∧
    getDigit (UInt8.ofNat (48 + d)) = UInt8.ofNat d := by decide
  exact hall d hd

section

variable {a : Arena} {path d : Nat} {cs : List (List UInt8)}

theorem zero_notMem_pathOf (hd : d ≤ 9) (hcs : ∀ c ∈ cs, IsComponent c) : 0 ∉ pathOf d cs := by
  intro h
  rcases List.mem_cons.mp h with h | h
  · have := (isDigit_digit hd).1
    rw [← h] at this
    exact absurd this (by decide)
  · simp only [List.mem_cons] at h
    rcases h with h | h | h
    · exact absurd h (by decide)
    · exact absurd h (by decide)
    · rcases mem_joinPath h with h | ⟨c, hc, h0⟩
      · exact absurd h (by decide)
      · exact (hcs c hc).2.2 h0

/-- The parser follows every path of components: it builds the list of the names `slashed`. -/
theorem parsePath_slashed (stop : Halt → Prop) (hk : KernelHeap a) (hd : d ≤ 9) (hne : cs ≠ [])
    (hcs : ∀ c ∈ cs, IsComponent c) (hlen : (pathOf d cs).length ≤ 256)
    (hstr : CString a.mem path (pathOf d cs)) (hoff : OffSlice path (pathOf d cs))
    (hstored : Stored a path (pathOf d cs))
    (hs : (freeBlocks a.heap).card < 2 * cs.length + 1 → ∀ e, stop e) :
    Runs stop (pathParserParsePath path) a fun root a' => root ≠ 0 ∧
      a'.mem root = UInt8.ofNat d ∧ PartList a'.mem (u32 a'.mem (root + 4)) (slashed cs) := by
  have hdrop : (pathOf d cs).drop 3 = joinPath cs := rfl
  obtain ⟨hdigit, hget⟩ := isDigit_digit hd
  obtain ⟨hall, -, hnil⟩ := partSplit_joinPath hne hcs
  have hvalid : validPath (pathOf d cs) := ⟨hlen, hdigit, rfl, rfl⟩
  refine (parsePath_runs hk hstr (zero_notMem_pathOf hd hcs) (by omega) hoff hstored
    fun h => hs (by rwa [hdrop, partSplit_joinPath_need hne hcs] at h)).mono ?_
  rintro root a' ⟨-, ⟨hno, -⟩ | ⟨-, -, rtb, first, pb, S, hp⟩⟩
  · exact absurd hvalid hno
  · rw [hdrop] at hp
    refine ⟨hp.isBlock.1 ▸ Nat.ne_of_gt (blockAt_pos rtb), hp.drive.trans hget, ?_⟩
    have hnext : u32 a'.mem (blockAt pb + 4) = 0 := by
      by_cases h1 : cs.length = 1
      · exact hp.chain.next (by rw [hall, length_slashed, h1])
      · exact hp.last fun h => h1 (hnil.mp h)
    have hempty : ∀ c ∈ slashed cs, c ≠ [] := by
      rintro x hx rfl
      obtain ⟨c, hc, h | h⟩ := mem_slashed hx
      · exact (hcs c hc).1 h.symm
      · simp at h
    obtain ⟨ns, c, hnames, hparts, hname⟩ := hp.chain.parts
    rw [hp.part, ← hall, hnames]
    rw [← hall, hnames] at hempty
    refine hparts.partList (fun x hx => hempty x (List.mem_append_left _ hx)) ?_
    rcases hname with ⟨rfl, -⟩ | ⟨n, -, hn, -, hstr', -⟩
    · exact absurd rfl (hempty [] (List.mem_append_right _ List.mem_cons_self))
    · exact ⟨Nat.ne_of_gt (blockAt_pos pb), hn ▸ hstr', hnext⟩

/-- **The parser builds the list of the components exactly for paths of one component.**  It
returns a root unless the heap runs out of blocks, with the right drive; the names are the
components if and only if there is one. -/
theorem parsePath_names_iff (hk : KernelHeap a) (hd : d ≤ 9) (hne : cs ≠ [])
    (hcs : ∀ c ∈ cs, IsComponent c) (hlen : (pathOf d cs).length ≤ 256)
    (hstr : CString a.mem path (pathOf d cs)) (hoff : OffSlice path (pathOf d cs))
    (hstored : Stored a path (pathOf d cs)) :
    (2 * cs.length + 1 ≤ (freeBlocks a.heap).card →
      ∃ root a', pathParserParsePath path a = .ok root a') ∧
    ∀ root a', pathParserParsePath path a = .ok root a' → root ≠ 0 ∧
      a'.mem root = UInt8.ofNat d ∧
      (PartList a'.mem (u32 a'.mem (root + 4)) cs ↔ cs.length = 1) := by
  refine ⟨fun hfree => ?_, fun root a' hrun => ?_⟩
  · have hruns := parsePath_slashed (fun _ => False) hk hd hne hcs hlen hstr hoff hstored
      fun h => absurd h (by omega)
    obtain ⟨root, a', hrun, -⟩ := hruns.total
    exact ⟨root, a', hrun⟩
  · obtain ⟨hroot, hdrive, hlist⟩ := (parsePath_slashed (fun _ => True) hk hd hne hcs hlen
      hstr hoff hstored fun _ _ => trivial).ok hrun
    refine ⟨hroot, hdrive, fun h => (slashed_eq_iff hne).mp ?_, fun h => ?_⟩
    · refine hlist.unique h (fun x hx h0 => ?_) fun c hc => (hcs c hc).2.2
      obtain ⟨c, hc, rfl | rfl⟩ := mem_slashed hx
      · exact (hcs x hc).2.2 h0
      · exact (hcs c hc).2.2 (by simpa using h0)
    · rw [← (slashed_eq_iff hne).mpr h]
      exact hlist

end

/-- A kernel right after `memory_init`, with the path `0:/c1/../cn` at address `p`. -/
def pathKernel (p : Nat) (cs : List (List UInt8)) : Arena :=
  freshKernel fun x => (pathOf 0 cs).getD (x - p) 0

theorem pathKernel_stored {p : Nat} (hp : 0x10000000 ≤ p) (cs : List (List UInt8)) :
    CString (pathKernel p cs).mem p (pathOf 0 cs) ∧ OffSlice p (pathOf 0 cs) ∧
      Stored (pathKernel p cs) p (pathOf 0 cs) := by
  refine ⟨fun i _ => ?_, Or.inr ?_, fun i _ => ?_⟩
  · exact congrArg ((pathOf 0 cs).getD · 0) (Nat.add_sub_cancel_left p i)
  · simp only [startPathSlice]
    omega
  · exact not_inFree_above (freshKernel_kernelHeap _) (by omega)

theorem pathKernel_parses {p : Nat} (hp : 0x10000000 ≤ p) {cs : List (List UInt8)} (hne : cs ≠ [])
    (hcs : ∀ c ∈ cs, IsComponent c) (hlen : (pathOf 0 cs).length ≤ 256) (hn : cs.length ≤ 256) :
    ∃ root a', pathParserParsePath p (pathKernel p cs) = .ok root a' ∧
      PartList a'.mem (u32 a'.mem (root + 4)) (slashed cs) := by
  obtain ⟨hstr, hoff, hstored⟩ := pathKernel_stored hp cs
  have hcard := freshKernel_free fun x => (pathOf 0 cs).getD (x - p) 0
  obtain ⟨root, a', hrun, -, -, hlist⟩ := Runs.total (parsePath_slashed _
    (freshKernel_kernelHeap _) (Nat.zero_le 9) hne hcs hlen hstr hoff hstored
    (fun h => absurd h (by omega)))
  exact ⟨root, a', hrun, hlist⟩

/-- `0:/ab` is parsed into its only component. -/
theorem parsePath_names_iff_ab : ∃ root a',
    pathParserParsePath 0x10000000 (pathKernel 0x10000000 [[97, 98]]) = .ok root a' ∧
      PartList a'.mem (u32 a'.mem (root + 4)) [[97, 98]] := by
  have hp := Nat.le_refl 0x10000000
  have hcs : ∀ c ∈ [[97, 98]], IsComponent c := by simp [IsComponent]
  obtain ⟨root, a', hrun, -⟩ := pathKernel_parses hp (List.cons_ne_nil _ []) hcs (by decide)
    (by decide)
  obtain ⟨hstr, hoff, hstored⟩ := pathKernel_stored hp [[97, 98]]
  obtain ⟨-, -, hlist⟩ := (parsePath_names_iff (freshKernel_kernelHeap _) (Nat.zero_le 9)
    (List.cons_ne_nil _ []) hcs (by decide) hstr hoff hstored).2 root a' hrun
  exact ⟨root, a', hrun, hlist.mpr rfl⟩

/-- `0:/a/b` is not parsed into its two components: the first name is `a/`. -/
theorem two_components_keep_slash : ∃ root a',
    pathParserParsePath 0x10000000 (pathKernel 0x10000000 [[97], [98]]) = .ok root a' ∧
      ¬ PartList a'.mem (u32 a'.mem (root + 4)) [[97], [98]] ∧
      PartList a'.mem (u32 a'.mem (root + 4)) [[97, 47], [98]] := by
  obtain ⟨root, a', hrun, hlist⟩ := pathKernel_parses (Nat.le_refl 0x10000000)
    (List.cons_ne_nil [97] [[98]]) (by simp [IsComponent]) (by decide) (by decide)
  refine ⟨root, a', hrun, fun h => ?_, hlist⟩
  exact absurd (hlist.unique h (by decide) (by decide)) (by decide)

end KokoOs
