/-
# Freeing a parsed path

`path_parser_free_root` gives back what `path_parser_parse_path` took exactly for the paths whose
list ends and in which nothing is lost on the way (`parse_free_balanced_iff`).  Three kinds of path
fail:

* **The empty one**, whose only part has the constant `""` for its name, which is not on the heap: the free
  of the name panics (`empty_path_unbalanced`).
* **One component with a separator at its end**, whose empty rest is neither freed nor handed over as a
  name: a block is lost.
* **Those whose list is a cycle**, which the recursion never leaves (`Parsed.freeRoot_hangs`).

For all others the list is freed from its end on (`freePart_runs`).  The induction is on the list; what
carries it is the account of the heap (`Owns`), from which each part and each name is taken out in
turn, and a name is nobody else's (`Parsed.namesOwned`).
-/
import KokoOs.PathList
import KokoOs.FileAtomic

namespace KokoOs

open Bytes Prog Links

/-! ## 1. What is wanted -/

/-- The parts that `next` leads to from `root->part` on. -/
inductive PartOf (m : Mem) (root : Nat) : Nat → Prop
  | first : u32 m (root + 4) ≠ 0 → PartOf m root (u32 m (root + 4))
  | next {p : Nat} : PartOf m root p → nextPart m p ≠ 0 → PartOf m root (nextPart m p)

/-- The name of every part is an object of the heap that the parse has made, which is no part, not the
root, and the name of no other part. -/
def NamesOwned (a a' : Arena) (root : Nat) : Prop :=
  ∀ p, PartOf a'.mem root p → ∃ n, u32 a'.mem p = blockAt n ∧ Held a' n ∧
    heapEntryIsFree (a.heap.table.entry n) = true ∧ blockAt n ≠ root ∧
    ¬ PartOf a'.mem root (blockAt n) ∧
    ∀ q, PartOf a'.mem root q → u32 a'.mem q = blockAt n → q = p

/-- Freeing the root does not panic, nor goes on for ever, and leaves the blocks taken that were taken
before the parse; and the names belong to their parts. -/
structure ParseBalanced (a a' : Arena) (root : Nat) : Prop where
  frees : ∃ a'', pathParserFreeRoot root a' = .ok () a'' ∧
    takenBlocks a''.heap = takenBlocks a.heap
  names : NamesOwned a a' root

/-! ## 2. Freeing a list -/

/-- The taken blocks are those of `base` and those that are owned. -/
theorem Owns.takenBlocks_eq {base a : Arena} {L : Set Nat} (h : Owns base a L) (hk : KernelHeap a)
    (hbase : KernelHeap base) : takenBlocks a.heap = takenBlocks base.heap ∪ L := by
  ext x
  constructor
  · rintro ⟨hlt, htaken⟩
    rw [hk.total] at hlt
    by_cases hx : x ∈ L
    · exact Or.inr hx
    · rw [h.others x hlt hx] at htaken
      exact Or.inl ⟨by rw [hbase.total]; exact hlt, htaken⟩
  · rintro (⟨hlt, htaken⟩ | hx)
    · rw [hbase.total] at hlt
      by_cases hx : x ∈ L
      · exact (h.held x hx).taken hk
      · exact ⟨by rw [hk.total]; exact hlt, (h.others x hlt hx).trans htaken⟩
    · exact (h.held x hx).taken hk

/-- Nothing else is owned exactly if the taken blocks are those of `base`. -/
theorem Owns.takenBlocks_iff {base a : Arena} {L : Set Nat} (h : Owns base a L) (hk : KernelHeap a)
    (hbase : KernelHeap base) : takenBlocks a.heap = takenBlocks base.heap ↔ L = ∅ := by
  rw [h.takenBlocks_eq hk hbase, Set.union_eq_left]
  refine ⟨fun hsub => Set.eq_empty_iff_forall_notMem.mpr fun x hx => ?_, fun hL => ?_⟩
  · have htaken := (hsub hx).2
    rw [h.free x hx] at htaken
    cases htaken
  · rw [hL]
    exact Set.empty_subset _

/-- **Freeing a list of parts** releases its parts and their names, one after the other from the end
on.  By induction on the list; the account of the heap is what carries it. -/
theorem freePart_runs {stop : Halt → Prop} {base : Arena} : ∀ {l : List (Nat × Nat)} {fuel p : Nat}
    {a : Arena} {L : Set Nat}, PartNodes a.mem p l 0 → (nodeBlocks l).Nodup →
    (∀ x ∈ nodeBlocks l, x ∈ L) → Owns base a L → KernelHeap a → l.length < fuel →
    Runs stop (pathParserFreePart fuel p) a fun _ a' =>
      Touches {x | x ∈ nodeBlocks l} ∅ a a' ∧ Owns base a' (L \ {x | x ∈ nodeBlocks l})
  | _, 0, _, _, _, _, _, _, _, _, hlen => absurd hlen (by omega)
  | [], fuel + 1, p, a, L, h, _, _, hL, hk, _ => by
    unfold pathParserFreePart
    rw [if_pos (show p = 0 from h)]
    refine Runs.pure ⟨Touches.refl hk _ _, ?_⟩
    have hset : L \ {x | x ∈ nodeBlocks []} = L := by
      ext x
      simp [nodeBlocks]
    rw [hset]
    exact hL
  | (b, n) :: l, fuel + 1, _, a, L, ⟨rfl, hname, hrest⟩, hnodup, hsub, hL, hk, hlen => by
    have hcons : nodeBlocks ((b, n) :: l) = b :: n :: nodeBlocks l := rfl
    rw [hcons, List.nodup_cons, List.nodup_cons, List.mem_cons, not_or] at hnodup
    rw [hcons] at hsub
    obtain ⟨⟨hbn, hbl⟩, hnl, hnodup⟩ := hnodup
    have hbL := hsub b List.mem_cons_self
    have hnL := hsub n (List.mem_cons_of_mem _ List.mem_cons_self)
    unfold pathParserFreePart
    rw [if_neg (Nat.ne_of_gt (blockAt_pos b))]
    refine Runs.get_bind (Runs.bind (freePart_runs hrest hnodup (fun x hx =>
      hsub x (List.mem_cons_of_mem _ (List.mem_cons_of_mem _ hx))) hL hk
      (Nat.lt_of_succ_lt_succ hlen)) ?_)
    rintro - a1 ⟨ht1, hL1⟩
    -- the part and its name have not been touched
    refine Runs.get_bind ?_
    rw [ht1.firstWord hbl (hL.held b hbL), hname]
    refine Runs.bind (ht1.kernel.releases_runs (hL1.held n ⟨hnL, hnl⟩)) ?_
    rintro - a2 ⟨ht2, -, -, hrel2⟩
    have hL2 := hrel2 base _ hL1 ⟨hnL, hnl⟩
    have hbL2 : b ∈ (L \ {x | x ∈ nodeBlocks l}) \ {n} := ⟨⟨hbL, hbl⟩, hbn⟩
    refine (ht2.kernel.releases_runs (hL2.held b hbL2)).mono ?_
    rintro - a3 ⟨ht3, -, -, hrel3⟩
    refine ⟨?_, ?_⟩
    · refine ((ht1.mono ?_ (Set.Subset.refl _)).trans (ht2.mono ?_ (Set.Subset.refl _))).trans
        (ht3.mono ?_ (Set.Subset.refl _))
      · exact fun x hx => List.mem_cons_of_mem _ (List.mem_cons_of_mem _ hx)
      · rintro x rfl
        exact List.mem_cons_of_mem _ List.mem_cons_self
      · rintro x rfl
        exact List.mem_cons_self
    · have hset : L \ {x | x ∈ nodeBlocks ((b, n) :: l)} =
          ((L \ {x | x ∈ nodeBlocks l}) \ {n}) \ {b} := by
        ext x
        simp only [hcons, List.mem_cons, Set.mem_sdiff, Set.mem_ofPred_eq, Set.mem_singleton_iff]
        grind
      rw [hset]
      exact hrel3 base _ hL2 hbL2

/-! ## 3. Who owns the names -/

theorem PartNodes.names {m : Mem} : ∀ {l : List (Nat × Nat)} {p q : Nat}, PartNodes m p l q →
    ∀ x ∈ l, u32 m (blockAt x.1) = blockAt x.2
  | [], _, _, _, _, hx => absurd hx List.not_mem_nil
  | (b, n) :: l, _, _, ⟨_, hname, hrest⟩, x, hx => by
    rcases List.mem_cons.mp hx with rfl | hx
    · exact hname
    · exact hrest.names x hx

/-- In a list of different blocks no name is a part, or the name of two parts. -/
theorem nodeBlocks_apart : ∀ {l : List (Nat × Nat)}, (nodeBlocks l).Nodup → ∀ x ∈ l, ∀ y ∈ l,
    x.2 ≠ y.1 ∧ (x.2 = y.2 → x = y)
  | [], _, _, hx, _, _ => absurd hx List.not_mem_nil
  | (b, n) :: l, hnodup, x, hx, y, hy => by
    have hcons : nodeBlocks ((b, n) :: l) = b :: n :: nodeBlocks l := rfl
    rw [hcons, List.nodup_cons, List.nodup_cons, List.mem_cons, not_or] at hnodup
    obtain ⟨⟨hbn, hbl⟩, hnl, hnodup⟩ := hnodup
    have hin : ∀ z ∈ l, z.1 ∈ nodeBlocks l ∧ z.2 ∈ nodeBlocks l := fun z hz =>
      ⟨mem_nodeBlocks.mpr ⟨z, hz, Or.inl rfl⟩, mem_nodeBlocks.mpr ⟨z, hz, Or.inr rfl⟩⟩
    rcases List.mem_cons.mp hx with rfl | hx
    · rcases List.mem_cons.mp hy with rfl | hy
      · exact ⟨fun heq => hbn heq.symm, fun _ => rfl⟩
      · exact ⟨fun heq : n = y.1 => hnl (heq ▸ (hin y hy).1),
        fun heq : n = y.2 => absurd (heq ▸ (hin y hy).2) hnl⟩
    · rcases List.mem_cons.mp hy with rfl | hy
      · exact ⟨fun heq : x.2 = b => hbl (heq ▸ (hin x hx).2),
        fun heq : x.2 = n => absurd (heq ▸ (hin x hx).2) hnl⟩
      · exact nodeBlocks_apart hnodup x hx y hy

section

variable {base a : Arena} {root rtb first pb : Nat} {driveNo : UInt8} {S : Set Nat} {path : List UInt8}

/-- The parts of a list that ends are those of its nodes. -/
theorem Parsed.partOf (h : Parsed base a root driveNo (partSplit path) rtb first pb S)
    {l : List (Nat × Nat)} {nb : Nat} (hopen : OpenNodes a S first (partSplit path).all pb l nb)
    (hlast : u32 a.mem (blockAt pb + 4) = 0) {p : Nat} (hp : PartOf a.mem root p) :
    ∃ q ∈ l ++ [(pb, nb)], p = blockAt q.1 := by
  induction hp with
  | first _ =>
    rw [h.part]
    exact hopen.nodes.first
  | next _ hne ih =>
    obtain ⟨q, hq, rfl⟩ := ih
    rcases List.mem_append.mp hq with hq | hq
    · exact hopen.nodes.next q hq
    · obtain rfl := List.mem_singleton.mp hq
      exact absurd hlast hne

/-- **Each part of such a list has a name of its own.** -/
theorem Parsed.namesOwned (h : Parsed base a root driveNo (partSplit path) rtb first pb S)
    {l : List (Nat × Nat)} {nb : Nat} (hopen : OpenNodes a S first (partSplit path).all pb l nb)
    (hlast : u32 a.mem (blockAt pb + 4) = 0) : NamesOwned base a root := by
  obtain ⟨lost, howns, -, -⟩ := h.owns
  have hnames : ∀ q ∈ l ++ [(pb, nb)], u32 a.mem (blockAt q.1) = blockAt q.2 := by
    intro q hq
    rcases List.mem_append.mp hq with hq | hq
    · exact hopen.nodes.names q hq
    · obtain rfl := List.mem_singleton.mp hq
      exact hopen.name
  intro p hp
  obtain ⟨q, hq, rfl⟩ := h.partOf hopen hlast hp
  have hin : q.2 ∈ insert pb S := (hopen.blocks q.2).mpr (mem_nodeBlocks.mpr ⟨q, hq, Or.inr rfl⟩)
  refine ⟨q.2, hnames q hq, h.chain.held _ hin, howns.free _ (Or.inl (Set.mem_insert_of_mem _ hin)),
    fun heq => ?_, fun hpart => ?_, fun p' hp' heq => ?_⟩
  · rw [h.isBlock.1] at heq
    exact h.apart (blockAt_inj heq ▸ hin)
  · obtain ⟨r, hr, heq⟩ := h.partOf hopen hlast hpart
    exact (nodeBlocks_apart hopen.nodup q hq r hr).1 (blockAt_inj heq)
  · obtain ⟨r, hr, rfl⟩ := h.partOf hopen hlast hp'
    rw [hnames r hr] at heq
    rw [(nodeBlocks_apart hopen.nodup r hr q hq).2 (blockAt_inj heq)]

/-! ## 4. Freeing the root -/

/-- **A list that ends is given back**, and its root, and nothing else. -/
theorem Parsed.freeRoot_runs {stop : Halt → Prop}
    (h : Parsed base a root driveNo (partSplit path) rtb first pb S) {l : List (Nat × Nat)} {nb : Nat}
    (hopen : OpenNodes a S first (partSplit path).all pb l nb)
    (hlast : u32 a.mem (blockAt pb + 4) = 0) {lost : Set Nat}
    (howns : Owns base a (insert rtb (insert pb S) ∪ lost))
    (hlost : ∀ b ∈ lost, b ∉ insert rtb (insert pb S)) :
    Runs stop (pathParserFreeRoot root) a fun _ a' => KernelHeap a' ∧ Owns base a' lost := by
  obtain ⟨hroot, hheld⟩ := h.isBlock
  have hnodes : PartNodes a.mem first (l ++ [(pb, nb)]) 0 :=
    hopen.nodes.append ⟨rfl, hopen.name, hlast⟩
  have hlen : (l ++ [(pb, nb)]).length < 2 ^ 32 := by
    have hfollows := hnodes.follows (show Follows (nextPart a.mem) 0 0 [] from rfl)
    have hlt := parts_length_lt hfollows (by rw [← h.part]; exact u32_lt _ _)
    simpa using hlt
  unfold pathParserFreeRoot
  rw [if_neg (hroot ▸ Nat.ne_of_gt (blockAt_pos rtb))]
  refine Runs.get_bind ?_
  rw [h.part]
  refine Runs.bind (freePart_runs hnodes hopen.nodup
    (fun x hx => Or.inl (Set.mem_insert_of_mem _ ((hopen.blocks x).mpr hx))) howns h.kernel hlen) ?_
  rintro - a1 ⟨ht1, hL1⟩
  have hrtb : rtb ∈ (insert rtb (insert pb S) ∪ lost) \ {x | x ∈ nodeBlocks (l ++ [(pb, nb)])} :=
    ⟨Or.inl (Set.mem_insert _ _), fun hin => h.apart ((hopen.blocks rtb).mpr hin)⟩
  rw [hroot]
  refine (ht1.kernel.releases_runs (hL1.held rtb hrtb)).mono ?_
  rintro - a2 ⟨ht2, -, -, hrel2⟩
  have hset : lost = ((insert rtb (insert pb S) ∪ lost) \
      {x | x ∈ nodeBlocks (l ++ [(pb, nb)])}) \ {rtb} := by
    ext x
    have hx := hopen.blocks x
    have hxlost := hlost x
    simp only [Set.mem_sdiff, Set.mem_union, Set.mem_insert_iff, Set.mem_ofPred_eq,
      Set.mem_singleton_iff] at hx hxlost ⊢
    grind
  rw [hset]
  exact ⟨ht2.kernel, hrel2 base _ hL1 hrtb⟩

/-- A list that is a cycle is never given back. -/
theorem Parsed.freeRoot_hangs (h : Parsed base a root driveNo (partSplit path) rtb first pb S)
    (hone : (partSplit path).all.length ≠ 1) (hrest : (partSplit path).rest = []) :
    pathParserFreeRoot root a = .error .hang a := by
  obtain ⟨P, hnull, hnext, hfirst⟩ := h.cycle hone hrest
  unfold pathParserFreeRoot
  rw [if_neg (h.isBlock.1 ▸ Nat.ne_of_gt (blockAt_pos rtb)), get_bind]
  exact bind_of_error (freePart_hangs hnull hnext hfirst) _

/-- The name of the part of an empty path is no object of the heap. -/
theorem Parsed.not_namesOwned (h : Parsed base a root driveNo (partSplit []) rtb first pb S) :
    ¬ NamesOwned base a root := by
  intro hnames
  have hall : (partSplit []).all = [[]] := by
    rw [partSplit_whole (Or.inl List.not_mem_nil)]
    rfl
  obtain ⟨ns, c, heq, hparts, hname⟩ := h.chain.parts
  rw [hall] at heq
  obtain ⟨rfl, hc⟩ := List.append_inj' (show [] ++ [[]] = ns ++ [c] from heq) rfl
  obtain rfl : [] = c := List.singleton_inj.mp hc
  have hfirst : u32 a.mem (root + 4) = blockAt pb := h.part.trans hparts
  have hpart : PartOf a.mem root (blockAt pb) :=
    hfirst ▸ PartOf.first (hfirst ▸ Nat.ne_of_gt (blockAt_pos pb))
  obtain ⟨n, hn, -⟩ := hnames _ hpart
  rcases hname with ⟨-, hword⟩ | ⟨-, -, -, -, -, hne⟩
  · have hlow : emptyString < memoryHeapStartAddress := by decide
    have hhigh : memoryHeapStartAddress ≤ blockAt n := Nat.le_add_right _ _
    omega
  · exact hne rfl

end

/-! ## 5. When parsing and freeing balance -/

/-- The path behind `d:/` is not empty, and is one part or has no empty component. -/
def BalancedPath (path : List UInt8) : Prop :=
  path ≠ [] ∧ ((47 : UInt8) ∉ path ∨ (∃ t, path = 47 :: t) ∨ NoEmptyComponent path)

/-- The list of such a path ends, and nothing is left over when it is complete. -/
theorem balancedPath_iff (path : List UInt8) : BalancedPath path ↔ path ≠ [] ∧ ListablePath path ∧
    ¬ ((partSplit path).rest = [] ∧ (partSplit path).broke = false) := by
  have hwhole : ((47 : UInt8) ∉ path ∨ ∃ t, path = 47 :: t) →
      ¬ ((partSplit path).rest = [] ∧ (partSplit path).broke = false) := by
    intro h
    rw [partSplit_whole h]
    rintro ⟨-, hbroke⟩
    cases hbroke
  refine and_congr_right fun _ => ⟨?_, ?_⟩
  · rintro (h | h | h)
    · exact ⟨Or.inl h, hwhole (Or.inl h)⟩
    · exact ⟨Or.inr (Or.inl h), hwhole (Or.inr h)⟩
    · refine ⟨Or.inr (Or.inr (Or.inl h)), ?_⟩
      by_cases hmem : (47 : UInt8) ∈ path
      · by_cases hstart : ∃ t, path = 47 :: t
        · exact hwhole (Or.inr hstart)
        · exact fun hlost => (partSplit_rest_iff path hmem).mpr ⟨hstart, h⟩ hlost.1
      · exact hwhole (Or.inl hmem)
  · rintro ⟨h | h | h | ⟨c, hc, rfl⟩, hlost⟩
    · exact Or.inl h
    · exact Or.inr (Or.inl h)
    · exact Or.inr (Or.inr h)
    · rcases eq_or_ne c [] with rfl | hne
      · exact Or.inr (Or.inl ⟨[], rfl⟩)
      · refine absurd ?_ hlost
        rw [partSplit_cons hc hne, if_neg List.not_mem_nil]
        exact ⟨rfl, rfl⟩

section

variable {a a' : Arena} {path root : Nat} {bytes : List UInt8}

/-- **Parsing an accepted path and freeing it balance if and only if the path behind `d:/` is not empty
and is one part or has no empty component.** -/
theorem parse_free_balanced_iff (hk : KernelHeap a) (hstr : CString a.mem path bytes)
    (hnz : 0 ∉ bytes) (hoff : OffSlice path bytes) (hstored : Stored a path bytes)
    (hv : validPath bytes) (hrun : pathParserParsePath path a = .ok root a') :
    ParseBalanced a a' root ↔ BalancedPath (bytes.drop 3) := by
  obtain ⟨rtb, first, pb, S, h⟩ := parsePath_parsed hk hstr hnz hoff hstored hv hrun
  obtain ⟨lost, howns, hlost, hsome⟩ := h.owns
  rw [balancedPath_iff, listablePath_iff]
  have hlast : (partSplit (bytes.drop 3)).all.length = 1 ∨ (partSplit (bytes.drop 3)).rest ≠ [] →
      u32 a'.mem (blockAt pb + 4) = 0 := by
    rintro (hone | hrest)
    · exact h.chain.next hone
    · exact h.last hrest
  constructor
  · rintro ⟨⟨a'', hfree, htaken⟩, hnames⟩
    have hne : bytes.drop 3 ≠ [] := by
      intro heq
      rw [heq] at h
      exact h.not_namesOwned hnames
    have hends : (partSplit (bytes.drop 3)).all.length = 1 ∨
        (partSplit (bytes.drop 3)).rest ≠ [] := by
      by_contra hno
      obtain ⟨hone, hrest⟩ := not_or.mp hno
      rw [h.freeRoot_hangs hone (not_not.mp hrest)] at hfree
      cases hfree
    obtain ⟨l, nb, hopen, -⟩ := h.nodes fun hin => hne (partSplit_nil_mem _ hin)
    obtain ⟨hk'', hL⟩ := Runs.value (h.freeRoot_runs hopen (hlast hends) howns hlost) hfree
    refine ⟨hne, hends, fun hleft => ?_⟩
    rw [(hL.takenBlocks_iff hk'' hk).mp htaken] at hsome
    exact Set.not_nonempty_empty (hsome.mpr hleft)
  · rintro ⟨hne, hends, hleft⟩
    obtain ⟨l, nb, hopen, -⟩ := h.nodes fun hin => hne (partSplit_nil_mem _ hin)
    obtain ⟨u, a'', hfree, hk'', hL⟩ := Runs.total (h.freeRoot_runs hopen (hlast hends) howns hlost)
    have hnone : lost = ∅ := Set.not_nonempty_iff_eq_empty.mp fun hs => hleft (hsome.mp hs)
    exact ⟨⟨a'', hfree, (hL.takenBlocks_iff hk'' hk).mpr hnone⟩, h.namesOwned hopen (hlast hends)⟩

end

/-- `0:/a/b` is parsed and freed without a trace. -/
theorem parse_free_balanced_ab : ∃ root a',
    pathParserParsePath 0x10000000 (pathKernel 0x10000000 [[97], [98]]) = .ok root a' ∧
      ParseBalanced (pathKernel 0x10000000 [[97], [98]]) a' root := by
  have hp := Nat.le_refl 0x10000000
  have hv : validPath (pathOf 0 [[97], [98]]) := ⟨by decide, by decide, rfl, rfl⟩
  have hnz : 0 ∉ pathOf 0 [[97], [98]] := by decide
  obtain ⟨root, a', hrun⟩ := pathKernel_returns hp hv hnz
  obtain ⟨hstr, hoff, hstored⟩ := pathKernel_stored hp [[97], [98]]
  refine ⟨root, a', hrun, (parse_free_balanced_iff (freshKernel_kernelHeap _) hstr hnz hoff hstored
    hv hrun).mpr ⟨by decide, Or.inr (Or.inr ?_)⟩⟩
  change NoEmptyComponent [97, 47, 98]
  decide

/-- **The name of the part of `0:/` is a constant**, which is not on the heap. -/
theorem empty_path_unbalanced : ¬ ∀ (a a' : Arena) (path root : Nat) (bytes : List UInt8),
    KernelHeap a → CString a.mem path bytes → 0 ∉ bytes → OffSlice path bytes →
    Stored a path bytes → validPath bytes → pathParserParsePath path a = .ok root a' →
    ParseBalanced a a' root := by
  intro hclaim
  have hp := Nat.le_refl 0x10000000
  have hv : validPath (pathOf 0 []) := ⟨by decide, by decide, rfl, rfl⟩
  have hnz : 0 ∉ pathOf 0 [] := by decide
  obtain ⟨root, a', hrun⟩ := pathKernel_returns hp hv hnz
  obtain ⟨hstr, hoff, hstored⟩ := pathKernel_stored hp []
  have hk := freshKernel_kernelHeap fun x => (pathOf 0 []).getD (x - 0x10000000) 0
  obtain ⟨rtb, first, pb, S, h⟩ := parsePath_parsed hk hstr hnz hoff hstored hv hrun
  exact h.not_namesOwned (hclaim _ a' _ root _ hk hstr hnz hoff hstored hv hrun).names

end KokoOs
