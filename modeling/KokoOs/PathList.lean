/-
# The list of parts ends

Each part is first linked back to the one before it, and that link is overwritten only when another
part follows.  So the list of a path with more than one part ends exactly if the parser adds a last
part behind its loop: a path with an empty component, or with a separator at its end, becomes a cycle,
in which neither a walk along `next` nor the recursion of `path_parser_free_part` comes to an end.

* **Walks.**  A list that ends is a walk that does (`Follows`), and a list that does not is a closed set of
  parts (`not_follows_of_closed`); `freePart_ends` and `freePart_hangs` say the same of the recursion.
* **Paths.**  `partSplit_rest_iff`: the loop leaves something of a path with separators exactly if no
  component is empty.  A path of one part is listable in any case (`ListablePath`).
* **The result.**  The list of an accepted path ends if and only if the path is listable
  (`parsedPath_ends_iff`).

`0:/a//b` is accepted, and its list is a cycle of two parts (`emptyComponent_cycle`).
-/
import KokoOs.PathNames
import KokoOs.Lib.Links

namespace KokoOs

open Bytes Prog Links

/-! ## 1. Walking a list, and freeing it -/

/-- `part->next`. -/
def nextPart (m : Mem) (part : Nat) : Nat := u32 m (part + 4)

/-- From `root->part` on, `next` leads through finitely many parts, all different, to NULL; a walk
along it comes to an end, and so does the recursion of `path_parser_free_part`. -/
structure EndsAtNull (a : Arena) (root : Nat) : Prop where
  finite : ∃ ps, ps.Nodup ∧ Follows (nextPart a.mem) 0 (u32 a.mem (root + 4)) ps
  walk : ∃ k, (nextPart a.mem)^[k] (u32 a.mem (root + 4)) = 0
  frees : ∀ a', pathParserFreePart (2 ^ 32) (u32 a.mem (root + 4)) a ≠ .error .hang a'

section

variable {a : Arena} {p : Nat} {ps : List Nat}

/-- A list has fewer parts than there are addresses. -/
theorem parts_length_lt {m : Mem} (h : Follows (nextPart m) 0 p ps) (hp : p < 2 ^ 32) :
    ps.length < 2 ^ 32 := by
  have hin : ∀ {ps : List Nat} {p : Nat}, Follows (nextPart m) 0 p ps → p < 2 ^ 32 →
      ∀ q ∈ ps, 1 ≤ q ∧ q < 2 ^ 32 := by
    intro ps
    induction ps with
    | nil => exact fun _ _ q hq => absurd hq List.not_mem_nil
    | cons r ps ih =>
      rintro p ⟨rfl, hne, h⟩ hp q hq
      rcases List.mem_cons.mp hq with rfl | hq
      · exact ⟨Nat.pos_of_ne_zero hne, hp⟩
      · exact ih h (u32_lt _ _) q hq
  have hsub : ps.toFinset ⊆ Finset.Ico 1 (2 ^ 32) := fun q hq =>
    Finset.mem_Ico.mpr (hin h hp q (List.mem_toFinset.mp hq))
  have hcard := Finset.card_le_card hsub
  rw [List.toFinset_card_of_nodup h.nodup, Nat.card_Ico] at hcard
  omega

/-- **The recursion of `path_parser_free_part` comes to the end of a finite list**, and from there on
it can only panic. -/
theorem freePart_ends : ∀ {fuel : Nat} {p : Nat} {ps : List Nat},
    Follows (nextPart a.mem) 0 p ps → ps.length < fuel →
      ∀ a', pathParserFreePart fuel p a ≠ .error .hang a'
  | 0, _, _, _, hlen => absurd hlen (by omega)
  | fuel + 1, p, ps, h, hlen => by
    intro a' herr
    have hpanic : ∀ {q : Nat} {b b' : Arena}, heapFree q b ≠ .error .hang b' := by
      intro q b b' hfree
      obtain ⟨-, ⟨message, hmessage⟩, -⟩ := heapFree_error hfree
      cases hmessage
    unfold pathParserFreePart at herr
    cases ps with
    | nil =>
      rw [if_pos (show p = 0 from h)] at herr
      exact (pure_error_iff _ _ _ _).mp herr
    | cons q ps =>
      obtain ⟨rfl, hne, h⟩ := h
      rw [if_neg hne, get_bind] at herr
      rcases (bind_error_iff _ _ _ _ _).mp herr with hrec | ⟨u, a1, -, herr⟩
      · exact freePart_ends h (Nat.lt_of_succ_lt_succ hlen) a' hrec
      · rw [get_bind] at herr
        rcases (bind_error_iff _ _ _ _ _).mp herr with hfree | ⟨u, a2, -, hfree⟩
        · exact hpanic hfree
        · exact hpanic hfree

/-- In a closed set of parts it never does. -/
theorem freePart_hangs {P : Nat → Prop} (hnull : ¬ P 0) (hnext : ∀ q, P q → P (nextPart a.mem q)) :
    ∀ {fuel : Nat} {p : Nat}, P p → pathParserFreePart fuel p a = .error .hang a
  | 0, _, _ => rfl
  | fuel + 1, p, hp => by
    have hne : p ≠ 0 := by
      rintro rfl
      exact hnull hp
    unfold pathParserFreePart
    rw [if_neg hne, get_bind]
    exact bind_of_error (freePart_hangs hnull hnext (hnext p hp)) _

/-- A finite list is one that ends in every sense. -/
theorem EndsAtNull.of_follows {root : Nat}
    (h : Follows (nextPart a.mem) 0 (u32 a.mem (root + 4)) ps) : EndsAtNull a root :=
  ⟨⟨ps, h.nodup, h⟩, ⟨_, h.iterate⟩, freePart_ends h (parts_length_lt h (u32_lt _ _))⟩

end

/-! ## 2. Which paths end up as which lists -/

/-- No component is empty: no two separators stand side by side, and none at the end. -/
def NoEmptyComponent (path : List UInt8) : Prop := ¬ [47, 47] <:+: path ∧ ¬ [47] <:+ path

instance (path : List UInt8) : Decidable (NoEmptyComponent path) :=
  inferInstanceAs (Decidable (_ ∧ _))

section

variable {c rest path : List UInt8}

theorem noEmptyComponent_of_notMem (h : (47 : UInt8) ∉ path) : NoEmptyComponent path :=
  ⟨fun hin => h (hin.subset (by simp)), fun hsuf => h (hsuf.subset (by simp))⟩

theorem doubled_cons (hc : (47 : UInt8) ∉ c) :
    [47, 47] <:+: c ++ 47 :: rest ↔ (∃ t, rest = 47 :: t) ∨ [47, 47] <:+: rest := by
  induction c with
  | nil =>
    rw [List.nil_append, List.infix_cons_iff, List.cons_prefix_cons]
    exact or_congr_left ⟨fun ⟨_, t, ht⟩ => ⟨t, ht.symm⟩, fun ⟨t, ht⟩ => ⟨rfl, t, ht.symm⟩⟩
  | cons x c ih =>
    rw [List.cons_append, List.infix_cons_iff, List.cons_prefix_cons,
      ih fun hin => hc (List.mem_cons_of_mem _ hin)]
    exact or_iff_right fun h => hc (h.1 ▸ List.mem_cons_self)

theorem trailing_cons (hc : (47 : UInt8) ∉ c) :
    [47] <:+ c ++ 47 :: rest ↔ rest = [] ∨ [47] <:+ rest := by
  induction c with
  | nil =>
    rw [List.nil_append, List.suffix_cons_iff]
    exact or_congr_left ⟨fun h => (List.cons.inj h).2.symm, fun h => h ▸ rfl⟩
  | cons x c ih =>
    rw [List.cons_append, List.suffix_cons_iff, ih fun hin => hc (List.mem_cons_of_mem _ hin)]
    exact or_iff_right fun h => hc ((List.cons.inj h).1 ▸ List.mem_cons_self)

/-- Behind the first component. -/
theorem noEmptyComponent_cons (hc : (47 : UInt8) ∉ c) : NoEmptyComponent (c ++ 47 :: rest) ↔
    rest ≠ [] ∧ (¬ ∃ t, rest = 47 :: t) ∧ NoEmptyComponent rest := by
  unfold NoEmptyComponent
  rw [doubled_cons hc, trailing_cons hc, not_or, not_or]
  exact ⟨fun ⟨⟨h1, h2⟩, h3, h4⟩ => ⟨h3, h1, h2, h4⟩, fun ⟨h3, h1, h2, h4⟩ => ⟨⟨h1, h2⟩, h3, h4⟩⟩

theorem not_starts {t : List UInt8} (hc : (47 : UInt8) ∉ c) (hne : c ≠ []) :
    ¬ ∃ u, c ++ 47 :: t = 47 :: u := by
  rintro ⟨u, ht⟩
  cases c with
  | nil => exact hne rfl
  | cons x c =>
    obtain rfl := (List.cons.inj ht).1
    exact hc List.mem_cons_self

theorem partSplit_names_pos (path : List UInt8) : 1 ≤ (partSplit path).names.length := by
  rcases path_cases path with hwhole | ⟨c, rest, rfl, hc, hne⟩
  · rw [partSplit_whole hwhole]
    exact Nat.le_refl 1
  · rw [partSplit_cons hc hne]
    split
    · simp
    · exact Nat.le_refl 1

/-- **The loop leaves something of a path with separators exactly if no component is empty.** -/
theorem partSplit_rest_iff (path : List UInt8) (h : (47 : UInt8) ∈ path) :
    (partSplit path).rest ≠ [] ↔ (¬ ∃ t, path = 47 :: t) ∧ NoEmptyComponent path := by
  rcases path_cases path with hwhole | ⟨c, rest, heq, hc, hne⟩
  · have hstarts := hwhole.resolve_left (not_not.mpr h)
    rw [partSplit_whole hwhole]
    exact iff_of_false (fun hf => hf rfl) fun hf => hf.1 hstarts
  · rw [heq, partSplit_cons hc hne, noEmptyComponent_cons hc]
    have hstart := not_starts (t := rest) hc hne
    split
    · next hmem =>
      rw [partSplit_rest_iff rest hmem]
      exact ⟨fun h => ⟨hstart, List.ne_nil_of_mem hmem, h⟩, fun h => h.2.2⟩
    · next hmem =>
      refine ⟨fun h => ⟨hstart, h, ?_, noEmptyComponent_of_notMem hmem⟩, fun h => h.2.1⟩
      rintro ⟨t, rfl⟩
      exact hmem List.mem_cons_self
termination_by path.length
decreasing_by
  rw [heq, List.length_append, List.length_cons]
  omega

/-- The path behind `d:/` has at most one part, or no empty component. -/
def ListablePath (path : List UInt8) : Prop :=
  (47 : UInt8) ∉ path ∨ (∃ t, path = 47 :: t) ∨ NoEmptyComponent path ∨
    ∃ c, (47 : UInt8) ∉ c ∧ path = c ++ [47]

theorem length_all (split : PathSplit) :
    split.all.length = split.names.length + if split.rest = [] then 0 else 1 := by
  unfold PathSplit.all
  rw [List.length_append]
  split <;> rfl

theorem listablePath_iff (path : List UInt8) :
    ListablePath path ↔ (partSplit path).all.length = 1 ∨ (partSplit path).rest ≠ [] := by
  rcases path_cases path with hwhole | ⟨c, rest, rfl, hc, hne⟩
  · rw [partSplit_whole hwhole]
    refine iff_of_true ?_ (Or.inl rfl)
    rcases hwhole with h | h
    · exact Or.inl h
    · exact Or.inr (Or.inl h)
  · have hstart := not_starts (t := rest) hc hne
    have hmem' : (47 : UInt8) ∈ c ++ 47 :: rest := List.mem_append_right _ List.mem_cons_self
    rw [length_all, partSplit_cons hc hne]
    unfold ListablePath
    rw [noEmptyComponent_cons hc]
    by_cases hmem : 47 ∈ rest
    · -- at least two parts: the list ends if there is a last one
      have hpos := partSplit_names_pos rest
      have hrest := List.ne_nil_of_mem hmem
      have hone : ∀ c', (47 : UInt8) ∉ c' → c ++ 47 :: rest ≠ c' ++ [47] := by
        intro c' hc' heq
        have hcut := congrArg (List.takeWhile (· ≠ 47)) heq
        rw [takeWhile_ne hc, takeWhile_ne hc'] at hcut
        subst hcut
        exact hrest (List.cons.inj (List.append_cancel_left heq)).2
      rw [if_pos hmem, ← partSplit_rest_iff rest hmem]
      dsimp only
      rw [List.length_cons]
      constructor
      · rintro (h | h | h | ⟨c', hc', h⟩)
        · exact absurd hmem' h
        · exact absurd h hstart
        · exact Or.inr h.2
        · exact absurd h (hone c' hc')
      · rintro (h | h)
        · omega
        · exact Or.inr (Or.inr (Or.inl ⟨hrest, h⟩))
    · rw [if_neg hmem]
      refine iff_of_true ?_ ?_
      · rcases eq_or_ne rest [] with rfl | hrest
        · exact Or.inr (Or.inr (Or.inr ⟨c, hc, rfl⟩))
        · refine Or.inr (Or.inr (Or.inl ⟨hrest, ?_, noEmptyComponent_of_notMem hmem⟩))
          rintro ⟨t, rfl⟩
          exact hmem List.mem_cons_self
      · rcases eq_or_ne rest [] with rfl | hrest
        · exact Or.inl rfl
        · exact Or.inr hrest

/-- Only the empty path has a part with an empty name. -/
theorem partSplit_nil_mem (path : List UInt8) (h : [] ∈ (partSplit path).all) :
    path = [] := by
  rcases path_cases path with hwhole | ⟨c, rest, heq, hc, hne⟩
  · rw [partSplit_whole hwhole] at h
    simpa [PathSplit.all, eq_comm] using h
  · rw [heq, partSplit_cons hc hne] at h
    have hlast : ∀ t : List UInt8, [] ∉ (if t = [] then [] else [t] : List (List UInt8)) := by
      intro t hin
      split at hin
      · exact absurd hin List.not_mem_nil
      · next ht => exact ht (List.mem_singleton.mp hin).symm
    split at h
    · next hmem =>
      rcases List.mem_append.mp h with hin | hin
      · rcases List.mem_cons.mp hin with hin | hin
        · simp at hin
        · exact absurd (partSplit_nil_mem rest (List.mem_append_left _ hin)) (List.ne_nil_of_mem hmem)
      · exact absurd hin (hlast _)
    · rcases List.mem_append.mp h with hin | hin
      · simp at hin
      · exact absurd hin (hlast _)
termination_by path.length
decreasing_by
  rw [heq, List.length_append, List.length_cons]
  omega

theorem length_all_of_nil_mem {path : List UInt8} (h : [] ∈ (partSplit path).all) :
    (partSplit path).all.length = 1 := by
  obtain rfl := partSplit_nil_mem path h
  rw [partSplit_whole (Or.inl List.not_mem_nil)]
  rfl

end

/-! ## 3. When the list ends -/

theorem PartNodes.follows {m : Mem} : ∀ {l : List (Nat × Nat)} {p q : Nat} {ps : List Nat},
    PartNodes m p l q → Follows (nextPart m) 0 q ps →
      Follows (nextPart m) 0 p (l.map (fun x => blockAt x.1) ++ ps)
  | [], _, _, _, h, h' => by
    rw [show _ = _ from h]
    exact h'
  | (b, n) :: l, _, _, _, ⟨hp, _, hrest⟩, h' =>
    ⟨hp, Nat.ne_of_gt (blockAt_pos b), hrest.follows h'⟩

/-- The list begins at one of its parts, or at the one behind them. -/
theorem PartNodes.first {m : Mem} {l : List (Nat × Nat)} {p pb nb : Nat}
    (h : PartNodes m p l (blockAt pb)) : ∃ q ∈ l ++ [(pb, nb)], p = blockAt q.1 := by
  cases l with
  | nil => exact ⟨(pb, nb), by simp, h⟩
  | cons q l => exact ⟨q, by simp, h.1⟩

/-- From each part `next` leads to another one. -/
theorem PartNodes.next {m : Mem} {pb nb : Nat} : ∀ {l : List (Nat × Nat)} {p : Nat},
    PartNodes m p l (blockAt pb) → ∀ q ∈ l,
      ∃ r ∈ l ++ [(pb, nb)], nextPart m (blockAt q.1) = blockAt r.1
  | [], _, _, _, hq => absurd hq List.not_mem_nil
  | (b, n) :: l, _, ⟨_, _, hrest⟩, q, hq => by
    rcases List.mem_cons.mp hq with rfl | hq
    · obtain ⟨r, hr, heq⟩ := hrest.first
      exact ⟨r, List.mem_cons_of_mem _ hr, heq⟩
    · obtain ⟨r, hr, heq⟩ := hrest.next q hq
      exact ⟨r, List.mem_cons_of_mem _ hr, heq⟩

section

variable {base a : Arena} {root rtb first pb : Nat} {driveNo : UInt8} {S : Set Nat} {path : List UInt8}

/-- A list of one part ends with it, and so does a list with a part behind the loop. -/
theorem Parsed.follows (h : Parsed base a root driveNo (partSplit path) rtb first pb S)
    (hend : (partSplit path).all.length = 1 ∨ (partSplit path).rest ≠ []) :
    ∃ ps, Follows (nextPart a.mem) 0 (u32 a.mem (root + 4)) ps := by
  rw [h.part]
  have hpb : ∀ {p}, p = blockAt pb → p ≠ 0 := fun hp => hp ▸ Nat.ne_of_gt (blockAt_pos pb)
  by_cases hone : (partSplit path).all.length = 1
  · obtain ⟨ns, c, hall, hparts, -⟩ := h.chain.parts
    obtain rfl : ns = [] := by
      rw [hall, List.length_append, List.length_singleton] at hone
      exact List.eq_nil_of_length_eq_zero (by omega)
    exact ⟨[blockAt pb], hparts, hpb rfl, h.chain.next hone⟩
  · obtain ⟨l, nb, hopen, -⟩ := h.nodes fun hin => hone (length_all_of_nil_mem hin)
    exact ⟨_, hopen.nodes.follows
      (show Follows _ _ _ [blockAt pb] from ⟨rfl, hpb rfl, h.last (hend.resolve_left hone)⟩)⟩

/-- A longer list without one is a cycle: there is a set of parts that `next` never leaves. -/
theorem Parsed.cycle (h : Parsed base a root driveNo (partSplit path) rtb first pb S)
    (hone : (partSplit path).all.length ≠ 1) (hrest : (partSplit path).rest = []) :
    ∃ P : Nat → Prop, ¬ P 0 ∧ (∀ q, P q → P (nextPart a.mem q)) ∧ P (u32 a.mem (root + 4)) := by
  obtain ⟨l, nb, hopen, hback⟩ := h.nodes fun hin => hone (length_all_of_nil_mem hin)
  have hl : l ≠ [] := by
    rintro rfl
    exact hone hopen.length
  refine ⟨fun x => ∃ q ∈ l ++ [(pb, nb)], x = blockAt q.1, ?_, ?_, ?_⟩
  · rintro ⟨q, -, hq⟩
    exact absurd hq (Nat.ne_of_lt (blockAt_pos q.1))
  · rintro x ⟨q, hq, rfl⟩
    rcases List.mem_append.mp hq with hq | hq
    · exact hopen.nodes.next q hq
    · obtain rfl := List.mem_singleton.mp hq
      obtain ⟨r, hr, hnext⟩ := hback hrest hl
      exact ⟨r, List.mem_append_left _ hr, hnext⟩
  · rw [h.part]
    exact hopen.nodes.first

end

section

variable {a a' : Arena} {path root : Nat} {bytes : List UInt8}

/-- What the parser has built, if it has returned from an accepted path. -/
theorem parsePath_parsed (hk : KernelHeap a) (hstr : CString a.mem path bytes) (hnz : 0 ∉ bytes)
    (hoff : OffSlice path bytes) (hstored : Stored a path bytes) (hv : validPath bytes)
    (hrun : pathParserParsePath path a = .ok root a') : ∃ rtb first pb S,
      Parsed a a' root (getDigit (bytes.getD 0 0)) (partSplit (bytes.drop 3)) rtb first pb S := by
  obtain ⟨-, ⟨hno, -⟩ | ⟨-, -, hparsed⟩⟩ := Runs.value (parsePath_runs hk hstr hnz
    (Nat.lt_of_le_of_lt hv.1 (by decide)) hoff hstored fun _ _ => trivial) hrun
  · exact absurd hv hno
  · exact hparsed

/-- **The list of an accepted path ends at NULL if and only if the path is listable**: it has no
separator behind `d:/`, or one right there, or one at the very end only, or no empty component. -/
theorem parsedPath_ends_iff (hk : KernelHeap a) (hstr : CString a.mem path bytes) (hnz : 0 ∉ bytes)
    (hoff : OffSlice path bytes) (hstored : Stored a path bytes) (hv : validPath bytes)
    (hrun : pathParserParsePath path a = .ok root a') :
    EndsAtNull a' root ↔ ListablePath (bytes.drop 3) := by
  obtain ⟨rtb, first, pb, S, hparsed⟩ := parsePath_parsed hk hstr hnz hoff hstored hv hrun
  rw [listablePath_iff]
  constructor
  · intro hends
    by_contra hno
    obtain ⟨hone, hrest⟩ := not_or.mp hno
    obtain ⟨P, hnull, hnext, hfirst⟩ := hparsed.cycle hone (not_not.mp hrest)
    obtain ⟨ps, -, hps⟩ := hends.finite
    exact not_follows_of_closed hnull hnext hfirst hps
  · intro hend
    obtain ⟨ps, hps⟩ := hparsed.follows hend
    exact EndsAtNull.of_follows hps

end

/-! ## 4. Two paths -/

/-- The parser takes no more blocks than a path has bytes, and two. -/
theorem partSplit_need_le (path : List UInt8) : (partSplit path).need ≤ path.length + 2 := by
  rcases path_cases path with hwhole | ⟨c, rest, heq, hc, hne⟩
  · rw [partSplit_whole hwhole]
    exact Nat.le_add_left 2 _
  · have hpos := List.length_pos_iff.mpr hne
    rw [heq, partSplit_need_cons hc hne, List.length_append, List.length_cons]
    split
    · have := partSplit_need_le rest
      omega
    · omega
termination_by path.length
decreasing_by
  rw [heq, List.length_append, List.length_cons]
  omega

/-- On a fresh kernel an accepted path is parsed. -/
theorem pathKernel_returns {p : Nat} (hp : 0x10000000 ≤ p) {cs : List (List UInt8)}
    (hv : validPath (pathOf 0 cs)) (hnz : 0 ∉ pathOf 0 cs) :
    ∃ root a', pathParserParsePath p (pathKernel p cs) = .ok root a' := by
  obtain ⟨hstr, hoff, hstored⟩ := pathKernel_stored hp cs
  have hcard := freshKernel_free fun x => (pathOf 0 cs).getD (x - p) 0
  have hneed := partSplit_need_le ((pathOf 0 cs).drop 3)
  have hlen := hv.1
  rw [List.length_drop] at hneed
  obtain ⟨root, a', hrun, -⟩ := Runs.total (parsePath_runs (freshKernel_kernelHeap _) hstr hnz
    (by omega) hoff hstored fun h => absurd h (by omega))
  exact ⟨root, a', hrun⟩

/-- The list of `0:/a/b` ends. -/
theorem parsedPath_ends_ab : ∃ root a',
    pathParserParsePath 0x10000000 (pathKernel 0x10000000 [[97], [98]]) = .ok root a' ∧
      EndsAtNull a' root := by
  have hp := Nat.le_refl 0x10000000
  have hv : validPath (pathOf 0 [[97], [98]]) := ⟨by decide, by decide, rfl, rfl⟩
  have hnz : 0 ∉ pathOf 0 [[97], [98]] := by decide
  obtain ⟨root, a', hrun⟩ := pathKernel_returns hp hv hnz
  obtain ⟨hstr, hoff, hstored⟩ := pathKernel_stored hp [[97], [98]]
  refine ⟨root, a', hrun, (parsedPath_ends_iff (freshKernel_kernelHeap _) hstr hnz hoff hstored hv
    hrun).mpr (Or.inr (Or.inr (Or.inl ?_)))⟩
  change NoEmptyComponent [97, 47, 98]
  decide

/-- **The list of `0:/a//b` does not.** -/
theorem emptyComponent_cycle : ¬ ∀ (a a' : Arena) (path root : Nat) (bytes : List UInt8),
    KernelHeap a → CString a.mem path bytes → 0 ∉ bytes → OffSlice path bytes →
    Stored a path bytes → validPath bytes → pathParserParsePath path a = .ok root a' →
    EndsAtNull a' root := by
  intro hclaim
  have hp := Nat.le_refl 0x10000000
  have hv : validPath (pathOf 0 [[97], [], [98]]) := ⟨by decide, by decide, rfl, rfl⟩
  have hnz : 0 ∉ pathOf 0 [[97], [], [98]] := by decide
  obtain ⟨root, a', hrun⟩ := pathKernel_returns hp hv hnz
  obtain ⟨hstr, hoff, hstored⟩ := pathKernel_stored hp [[97], [], [98]]
  have hk := freshKernel_kernelHeap fun x => (pathOf 0 [[97], [], [98]]).getD (x - 0x10000000) 0
  obtain ⟨rtb, first, pb, S, hparsed⟩ := parsePath_parsed hk hstr hnz hoff hstored hv hrun
  have hends := hclaim _ a' _ root _ hk hstr hnz hoff hstored hv hrun
  have hsplit : partSplit ((pathOf 0 [[97], [], [98]]).drop 3) =
      ⟨[[97, 47], [47, 98]], [], true⟩ := by
    change partSplit ([97] ++ 47 :: [47, 98]) = _
    rw [partSplit_cons (by decide) (by decide), if_pos (by decide),
      partSplit_whole (Or.inr ⟨[98], rfl⟩)]
    rfl
  obtain ⟨P, hnull, hnext, hfirst⟩ := hparsed.cycle (by rw [hsplit]; decide) (by rw [hsplit])
  obtain ⟨ps, -, hps⟩ := hends.finite
  exact not_follows_of_closed hnull hnext hfirst hps

end KokoOs
