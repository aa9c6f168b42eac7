/-
# The path parser as a function of the path

`partSplit` says which names `path_parser_parse_path` gives to its parts: every component but the
last keeps its separator, a separator at the front ends the loop, and what is left behind the
last separator becomes one more part.  It also says what is left over, and whether the loop was left by
its `break`, for these decide how the list ends and what is freed.

The loop of the parser is followed once, for every path.

* **The list.**  While the loop runs it is a list of parts whose last one is still open (`OpenChain`): the
  `next` of that one refers back to the part before it.  A turn makes it one part longer
  (`Chain.extend`).
* **Its objects.**  `OpenNodes` says the same with the blocks of the parts and of their names, which are all
  different; this is what freeing the list needs.
* **The loop.**  `parserLoop_runs`, by induction on the turns with `LoopState` as the invariant.  It says
  how many blocks are needed, so the parser is known to return and not only to be right if it does.
* **The whole parser.**  `parsePath_runs`: nothing if the path is not valid, else a root whose list is as
  `partSplit` says (`Parsed`), whatever else is on the heap.

Everything that is later said of paths -- their names, the end of their list, what is freed, what an open
of a file leaves behind -- comes from this one theorem.
-/
import KokoOs.PathSpec
import KokoOs.StrCompare
import Mathlib.Data.List.TakeWhile

namespace KokoOs

open Bytes Prog

/-! ## 1. Splitting a path -/

/-- How the parser splits a path: the names its loop gives to parts, what is left of the path
after the loop, and whether the loop was left by its `break`. -/
structure PathSplit where
  names : List (List UInt8)
  rest : List UInt8
  broke : Bool

/-- The components of a path, as the loop of `path_parser_parse_path` takes them off. -/
def partSplit (bytes : List UInt8) : PathSplit :=
  let c := bytes.takeWhile (· ≠ 47)
  let rest := bytes.drop (c.length + 1)
  if h : c = [] ∨ c = bytes then ⟨[bytes], [], true⟩
  else if 47 ∈ rest then
    ⟨(c ++ [47]) :: (partSplit rest).names, (partSplit rest).rest, (partSplit rest).broke⟩
  else ⟨[c ++ [47]], rest, false⟩
termination_by bytes.length
decreasing_by
  all_goals
    simp only [List.length_drop]
    have : bytes ≠ [] := by
      rintro rfl
      exact h (Or.inl rfl)
    have := List.length_pos_iff.mpr this
    omega

theorem takeWhile_ne {c rest : List UInt8} (hc : (47 : UInt8) ∉ c) :
    (c ++ 47 :: rest).takeWhile (· ≠ 47) = c := by
  rw [List.takeWhile_append_of_pos fun x hx => ?_]
  · simp
  · have : x ≠ 47 := fun h => hc (h ▸ hx)
    simpa using this

/-- A path without a separator, or with one at its front, becomes one part. -/
theorem partSplit_whole {bytes : List UInt8} (h : (47 : UInt8) ∉ bytes ∨ ∃ t, bytes = 47 :: t) :
    partSplit bytes = ⟨[bytes], [], true⟩ := by
  rw [partSplit, dif_pos]
  rcases h with h | ⟨t, rfl⟩
  · refine Or.inr (List.takeWhile_eq_self_iff.mpr fun x hx => ?_)
    have : x ≠ 47 := fun heq => h (heq ▸ hx)
    simpa using this
  · exact Or.inl (by simp)

/-- The first component of any other path becomes a part, with its separator. -/
theorem partSplit_cons {c rest : List UInt8} (hc : (47 : UInt8) ∉ c) (hne : c ≠ []) :
    partSplit (c ++ 47 :: rest) = if 47 ∈ rest then
      ⟨(c ++ [47]) :: (partSplit rest).names, (partSplit rest).rest, (partSplit rest).broke⟩
      else ⟨[c ++ [47]], rest, false⟩ := by
  have hdrop : (c ++ 47 :: rest).drop (c.length + 1) = rest := by
    rw [List.drop_append]
    simp
  rw [partSplit]
  simp only [takeWhile_ne hc, hdrop]
  rw [dif_neg]
  rintro (h | h)
  · exact hne h
  · simp at h

/-- Every path is of one of the two kinds. -/
theorem path_cases (bytes : List UInt8) : ((47 : UInt8) ∉ bytes ∨ ∃ t, bytes = 47 :: t) ∨
    ∃ c rest, bytes = c ++ 47 :: rest ∧ (47 : UInt8) ∉ c ∧ c ≠ [] := by
  by_cases hmem : (47 : UInt8) ∈ bytes
  · obtain ⟨c, rest, rfl, hc⟩ := List.eq_append_cons_of_mem hmem
    rcases eq_or_ne c [] with rfl | hne
    · exact Or.inl (Or.inr ⟨rest, rfl⟩)
    · exact Or.inr ⟨c, rest, rfl, hc, hne⟩
  · exact Or.inl (Or.inl hmem)

/-! ## 2. The list while the loop runs -/

/-- A list of parts with the names `names`, from `first` to the part at block `pb`, whose `next`
the next turn will set.  The first part lies in a block that was free in `base`. -/
structure OpenChain (base a : Arena) (S : Set Nat) (first : Nat) (names : List (List UInt8))
    (pb : Nat) : Prop where
  held : ∀ b ∈ insert pb S, Held a b
  last : pb ∉ S
  parts : ∃ ns c, names = ns ++ [c] ∧ Parts a S first ns (blockAt pb) ∧ NameAt a S (blockAt pb) c
  next : names.length = 1 → u32 a.mem (blockAt pb + 4) = 0
  new : ∃ fb ∈ insert pb S, first = blockAt fb ∧ heapEntryIsFree (base.heap.table.entry fb) = true

/-- The list before a turn: nothing before the first one. -/
def Chain (base a : Arena) (S : Set Nat) (first : Nat) (names : List (List UInt8)) :
    Option Nat → Prop
  | none => first = 0 ∧ names = [] ∧ S = ∅ ∧ ∀ c < 25600,
      heapEntryIsFree (a.heap.table.entry c) = true → heapEntryIsFree (base.heap.table.entry c) = true
  | some pb => OpenChain base a S first names pb

/-- The blocks of the list. -/
def chainBlocks (S : Set Nat) : Option Nat → Set Nat
  | none => S
  | some pb => insert pb S

theorem OpenChain.keep {T W : Set Nat} {base a a' : Arena} {S : Set Nat} {first pb : Nat}
    {names : List (List UInt8)} (h : OpenChain base a S first names pb) (ht : Touches T W a a')
    (hT : ∀ b ∈ insert pb S, b ∉ T) : OpenChain base a' S first names pb where
  held b hb := ht.held b (hT b hb) (h.held b hb)
  last := h.last
  parts := by
    have hS : ∀ b ∈ S, Held a b ∧ b ∉ T := fun b hb =>
      ⟨h.held b (Set.mem_insert_of_mem _ hb), hT b (Set.mem_insert_of_mem _ hb)⟩
    obtain ⟨ns, c, hnames, hparts, hname⟩ := h.parts
    exact ⟨ns, c, hnames, hparts.keep ht hS, hname.keep ht hS
      (ht.firstWord (hT pb (Set.mem_insert _ _)) (h.held pb (Set.mem_insert _ _)))⟩
  next hlen := by
    rw [ht.word (hT pb (Set.mem_insert _ _)) (h.held pb (Set.mem_insert _ _)) (by omega)]
    exact h.next hlen
  new := h.new

/-- **The list grows by a part at block `b`**, once the open part has been linked to it. -/
theorem OpenChain.snoc {base a a' : Arena} {S N : Set Nat} {first pb b : Nat}
    {names : List (List UInt8)} {name : List UInt8} (h : OpenChain base a S first names pb)
    (ht : Touches {pb} ∅ a a') (hpb : Held a' pb)
    (hpbname : u32 a'.mem (blockAt pb) = u32 a.mem (blockAt pb))
    (hpbnext : u32 a'.mem (blockAt pb + 4) = blockAt b) (hb : Held a' b) (hbS : b ∉ insert pb S)
    (hN : ∀ n ∈ N, Held a' n ∧ n ≠ b) (hname : NameAt a' N (blockAt b) name) :
    OpenChain base a' (insert pb S ∪ N) first (names ++ [name]) b := by
  have hS : ∀ c ∈ S, Held a c ∧ c ∉ ({pb} : Set Nat) := fun c hc =>
    ⟨h.held c (Set.mem_insert_of_mem _ hc), fun heq => h.last (Set.mem_singleton_iff.mp heq ▸ hc)⟩
  obtain ⟨ns, c, rfl, hparts, hlast⟩ := h.parts
  obtain ⟨fb, hfb, rfl, hfree⟩ := h.new
  have hsub : S ⊆ insert pb S ∪ N := fun c hc => Or.inl (Set.mem_insert_of_mem _ hc)
  have hpart : Parts a' (insert pb S ∪ N) (blockAt pb) [c] (blockAt b) :=
    ⟨pb, Or.inl (Set.mem_insert _ _), rfl, (hlast.keep ht hS hpbname).mono hsub, hpbnext⟩
  refine ⟨?_, ?_, ⟨ns ++ [c], name, rfl, ((hparts.keep ht hS).mono hsub).append hpart,
    hname.mono Set.subset_union_right⟩, fun hlen => ?_,
    ⟨fb, Set.mem_insert_of_mem _ (Or.inl hfb), rfl, hfree⟩⟩
  · rintro d (rfl | (rfl | hd) | hd)
    · exact hb
    · exact hpb
    · exact ht.held d (hS d hd).2 (hS d hd).1
    · exact (hN d hd).1
  · rintro (hin | hin)
    · exact hbS hin
    · exact (hN b hin).2 rfl
  · simp at hlen

/-- **A turn makes the list one part longer.** -/
theorem Chain.extend {base a a' : Arena} {S N : Set Nat} {first b : Nat} {names : List (List UInt8)}
    {name : List UInt8} {prev : Option Nat} (h : Chain base a S first names prev)
    (hp : NewPart prev a a' b N name) :
    OpenChain base a' (chainBlocks S prev ∪ N) (if first = 0 then blockAt b else first)
      (names ++ [name]) b := by
  cases prev with
  | none =>
    obtain ⟨rfl, rfl, rfl, hbase⟩ := h
    refine ⟨?_, ?_, ⟨[], name, rfl, ?_, hp.name.mono Set.subset_union_right⟩, fun _ => hp.next,
      ⟨b, Set.mem_insert _ _, if_pos rfl, hbase b hp.part.lt hp.free⟩⟩
    · rintro c (rfl | hc | hc)
      · exact hp.part
      · exact hc.elim
      · exact (hp.names c hc).1
    · rintro (hc | hc)
      · exact hc.elim
      · exact (hp.names b hc).2.2 rfl
    · exact if_pos rfl
  | some pb =>
    obtain ⟨hpb, hpbname, hpbnext⟩ := hp.link pb rfl
    obtain ⟨fb, -, hfirst, -⟩ := h.new
    rw [if_neg (hfirst ▸ Nat.ne_of_gt (blockAt_pos fb))]
    exact OpenChain.snoc h (hp.touches.mono (fun c hc => Option.some_inj.mp hc.symm)
      (Set.empty_subset _)) hpb hpbname hpbnext hp.part (fun hin => hp.fresh (h.held b hin))
      (fun n hn => ⟨(hp.names n hn).1, (hp.names n hn).2.2⟩) hp.name

/-! ## 3. The objects of the list -/

/-- From `p` to `q` memory holds the parts of `l`: each at its block, with the block of its name. -/
def PartNodes (m : Mem) : Nat → List (Nat × Nat) → Nat → Prop
  | p, [], q => p = q
  | p, (b, n) :: l, q =>
    p = blockAt b ∧ u32 m (blockAt b) = blockAt n ∧ PartNodes m (u32 m (blockAt b + 4)) l q

/-- The blocks of the parts and of their names. -/
def nodeBlocks (l : List (Nat × Nat)) : List Nat := l.flatMap fun q => [q.1, q.2]

theorem mem_nodeBlocks {l : List (Nat × Nat)} {x : Nat} :
    x ∈ nodeBlocks l ↔ ∃ q ∈ l, x = q.1 ∨ x = q.2 := by
  simp [nodeBlocks]

theorem nodeBlocks_append (l l' : List (Nat × Nat)) :
    nodeBlocks (l ++ l') = nodeBlocks l ++ nodeBlocks l' :=
  List.flatMap_append

theorem PartNodes.append {m : Mem} : ∀ {l l' : List (Nat × Nat)} {p q r : Nat},
    PartNodes m p l q → PartNodes m q l' r → PartNodes m p (l ++ l') r
  | [], _, _, _, _, h, h' => by
    rw [show _ = _ from h]
    exact h'
  | _ :: _, _, _, _, _, ⟨hp, hname, hrest⟩, h' => ⟨hp, hname, hrest.append h'⟩

/-- A call that touches none of the parts leaves the list alone. -/
theorem PartNodes.keep {T W : Set Nat} {a a' : Arena} (ht : Touches T W a a') :
    ∀ {l : List (Nat × Nat)} {p q : Nat}, (∀ x ∈ l, Held a x.1 ∧ x.1 ∉ T) →
      PartNodes a.mem p l q → PartNodes a'.mem p l q
  | [], _, _, _, h => h
  | (b, n) :: l, _, _, hl, ⟨rfl, hname, hrest⟩ => by
    obtain ⟨hheld, hT⟩ := hl (b, n) List.mem_cons_self
    refine ⟨rfl, (ht.firstWord hT hheld).trans hname, ?_⟩
    rw [ht.word hT hheld (by omega)]
    exact hrest.keep ht fun x hx => hl x (List.mem_cons_of_mem _ hx)

/-- A list of parts that all have a name of their own: those of `l`, and the last one, at block `pb`.
Its blocks are all different, and they are `pb` and those of `S`. -/
structure OpenNodes (a : Arena) (S : Set Nat) (first : Nat) (names : List (List UInt8)) (pb : Nat)
    (l : List (Nat × Nat)) (nb : Nat) : Prop where
  nodes : PartNodes a.mem first l (blockAt pb)
  name : u32 a.mem (blockAt pb) = blockAt nb
  nodup : (nodeBlocks (l ++ [(pb, nb)])).Nodup
  blocks : ∀ x, x ∈ insert pb S ↔ x ∈ nodeBlocks (l ++ [(pb, nb)])
  length : names.length = l.length + 1

/-- The `next` of the last part refers to one of the others, if there are any. -/
def BackLink (a : Arena) (pb : Nat) (l : List (Nat × Nat)) : Prop :=
  l ≠ [] → ∃ q ∈ l, u32 a.mem (blockAt pb + 4) = blockAt q.1

theorem OpenNodes.keep {T W : Set Nat} {a a' : Arena} {S : Set Nat} {first pb nb : Nat}
    {names : List (List UInt8)} {l : List (Nat × Nat)} (h : OpenNodes a S first names pb l nb)
    (ht : Touches T W a a') (hS : ∀ b ∈ insert pb S, Held a b ∧ b ∉ T) :
    OpenNodes a' S first names pb l nb ∧ (BackLink a pb l → BackLink a' pb l) := by
  obtain ⟨hpb, hpbT⟩ := hS pb (Set.mem_insert _ _)
  refine ⟨⟨h.nodes.keep ht fun x hx => hS _ ((h.blocks _).mpr ?_),
    (ht.firstWord hpbT hpb).trans h.name, h.nodup, h.blocks, h.length⟩, fun hback hne => ?_⟩
  · exact mem_nodeBlocks.mpr ⟨x, List.mem_append_left _ hx, Or.inl rfl⟩
  · obtain ⟨q, hq, hnext⟩ := hback hne
    exact ⟨q, hq, (ht.word hpbT hpb (by omega)).trans hnext⟩

/-- **The list grows by a part at block `b`** with its name at block `n`, once the last part has been
linked to it. -/
theorem OpenNodes.snoc {a a' : Arena} {S : Set Nat} {first pb nb b n : Nat}
    {names : List (List UInt8)} {l : List (Nat × Nat)} {name : List UInt8}
    (h : OpenNodes a S first names pb l nb) (ht : Touches {pb} ∅ a a')
    (hS : ∀ c ∈ insert pb S, Held a c) (hpbname : u32 a'.mem (blockAt pb) = u32 a.mem (blockAt pb))
    (hpbnext : u32 a'.mem (blockAt pb + 4) = blockAt b) (hb : b ∉ insert pb S)
    (hn : n ∉ insert pb S) (hnb : n ≠ b) (hname : u32 a'.mem (blockAt b) = blockAt n) :
    OpenNodes a' (insert pb S ∪ {n}) first (names ++ [name]) b (l ++ [(pb, nb)]) n := by
  have hnodup := h.nodup
  have hparts : ∀ x ∈ l, Held a x.1 ∧ x.1 ∉ ({pb} : Set Nat) := by
    intro x hx
    refine ⟨hS _ ((h.blocks _).mpr (mem_nodeBlocks.mpr
      ⟨x, List.mem_append_left _ hx, Or.inl rfl⟩)), fun heq => ?_⟩
    rw [nodeBlocks_append] at hnodup
    exact (List.nodup_append.mp hnodup).2.2 x.1 (mem_nodeBlocks.mpr ⟨x, hx, Or.inl rfl⟩) pb
      (mem_nodeBlocks.mpr ⟨(pb, nb), List.mem_singleton_self _, Or.inl rfl⟩) heq
  refine ⟨(h.nodes.keep ht hparts).append ⟨rfl, hpbname.trans h.name, hpbnext⟩, hname, ?_,
    fun x => ?_, by simp [h.length]⟩
  · rw [nodeBlocks_append, List.nodup_append]
    refine ⟨hnodup, by simpa [nodeBlocks] using fun heq => hnb heq.symm, fun x hx y hy heq => ?_⟩
    have hxS := (h.blocks x).mpr hx
    obtain ⟨q, hq, hy⟩ := mem_nodeBlocks.mp hy
    rw [List.mem_singleton.mp hq] at hy
    rcases hy with rfl | rfl
    · exact hb (heq ▸ hxS)
    · exact hn (heq ▸ hxS)
  · rw [nodeBlocks_append, List.mem_append, ← h.blocks x]
    simp only [nodeBlocks, Set.mem_insert_iff, Set.mem_union, Set.mem_singleton_iff,
      List.flatMap_cons, List.flatMap_nil, List.append_nil, List.mem_cons, List.not_mem_nil, or_false]
    grind

/-- **A turn makes one part and one name**, and the new part refers back to the one before it. -/
theorem Chain.extend_nodes {base a a' : Arena} {S N : Set Nat} {first b : Nat}
    {names : List (List UInt8)} {name : List UInt8} {prev : Option Nat}
    (h : Chain base a S first names prev)
    (hnodes : [] ∉ names → ∀ pb, prev = some pb →
      ∃ l nb, OpenNodes a S first names pb l nb ∧ BackLink a pb l)
    (hp : NewPart prev a a' b N name) (hne : [] ∉ names ++ [name]) :
    ∃ l n, OpenNodes a' (chainBlocks S prev ∪ N) (if first = 0 then blockAt b else first)
      (names ++ [name]) b l n ∧ BackLink a' b l := by
  have hname : name ≠ [] := fun heq => hne (by simp [heq])
  obtain ⟨n, rfl⟩ := hp.one hname
  have hn := hp.names n rfl
  have hword : u32 a'.mem (blockAt b) = blockAt n := by
    rcases hp.name with ⟨heq, -⟩ | ⟨n', hn', hword, -⟩
    · exact absurd heq hname
    · rw [Set.mem_singleton_iff.mp hn'] at hword
      exact hword
  cases prev with
  | none =>
    obtain ⟨rfl, rfl, rfl, -⟩ := h
    refine ⟨[], n, ⟨if_pos rfl, hword, ?_, fun x => ?_, rfl⟩, fun hl => absurd rfl hl⟩
    · simpa [nodeBlocks] using fun heq => hn.2.2 heq.symm
    · simp [nodeBlocks, chainBlocks]
  | some pb =>
    obtain ⟨hpb, hpbname, hpbnext⟩ := hp.link pb rfl
    obtain ⟨fb, -, hfirst, -⟩ := h.new
    obtain ⟨l, nb, hopen, -⟩ := hnodes (fun hin => hne (List.mem_append_left _ hin)) pb rfl
    rw [if_neg (hfirst ▸ Nat.ne_of_gt (blockAt_pos fb))]
    refine ⟨l ++ [(pb, nb)], n, hopen.snoc (hp.touches.mono (fun c hc => Option.some_inj.mp hc.symm)
      (Set.empty_subset _)) h.held hpbname hpbnext (fun hin => hp.fresh (h.held b hin))
      (fun hin => hn.2.1 (h.held n hin)) hn.2.2 hword, fun _ => ⟨(pb, nb), by simp, hp.next⟩⟩

/-! ## 4. The loop -/

/-- How many blocks the parser takes for a path behind those it has freed again. -/
def PathSplit.need (split : PathSplit) : Nat :=
  2 * split.names.length + (if split.broke then 0 else 2)

theorem partSplit_need_pos (bytes : List UInt8) : 2 ≤ (partSplit bytes).need := by
  unfold PathSplit.need
  rcases path_cases bytes with hwhole | ⟨c, rest, rfl, hc, hne⟩
  · rw [partSplit_whole hwhole]
    exact Nat.le_refl 2
  · rw [partSplit_cons hc hne]
    split <;> simp only [List.length_cons] <;> omega

/-- A path of more than one component takes two blocks for the first one. -/
theorem partSplit_need_cons {c rest : List UInt8} (hc : (47 : UInt8) ∉ c) (hne : c ≠ []) :
    (partSplit (c ++ 47 :: rest)).need = if 47 ∈ rest then (partSplit rest).need + 2 else 4 := by
  unfold PathSplit.need
  rw [partSplit_cons hc hne]
  split
  · simp only [List.length_cons]
    omega
  · rfl

/-- Before and after a turn: a list of parts, and apart from it the rest of the path, both made since
`base`. -/
structure LoopState (base a : Arena) (S : Set Nat) (first : Nat) (names : List (List UInt8))
    (prev : Option Nat) (rb : Nat) (bytes : List UInt8) : Prop where
  touches : Touches ∅ ∅ base a
  held : Held a rb
  fresh : ¬ Held base rb
  str : CString a.mem (blockAt rb) bytes
  nz : 0 ∉ bytes
  len : bytes.length ≤ 256
  chain : Chain base a S first names prev
  blocks : ∀ b ∈ chainBlocks S prev, Held a b ∧ b ≠ rb ∧ ¬ Held base b
  owns : Owns base a (chainBlocks S prev ∪ {rb})
  nodes : [] ∉ names → ∀ pb, prev = some pb →
    ∃ l nb, OpenNodes a S first names pb l nb ∧ BackLink a pb l

section LoopState

variable {stop : Halt → Prop} {base a : Arena} {S : Set Nat} {first rb : Nat}
  {names : List (List UInt8)} {prev : Option Nat} {bytes c rest : List UInt8}

/-- A turn up to the `break` adds a part. -/
theorem LoopState.turn_runs (h : LoopState base a S first names prev rb bytes) {sep : Int}
    (hsep : sep ≤ bytes.length) (hs : (freeBlocks a.heap).card < 2 → ∀ e, stop e) :
    Runs stop (pathParserNewPart (linkTo prev) (blockAt rb) sep) a fun p a' =>
      ∃ b S', p = blockAt b ∧ LoopState base a' S' (if first = 0 then p else first)
        (names ++ [nextName bytes sep]) (some b) rb bytes ∧
        (freeBlocks a.heap).card ≤ (freeBlocks a'.heap).card + 2 := by
  have hlen := h.len
  have hprev : ∀ d, prev = some d → Held a d ∧ d ≠ rb ∧ ¬ Held base d := by
    rintro d rfl
    exact h.blocks d (Set.mem_insert _ _)
  refine (newPart_runs h.touches.kernel h.held (fun d hd => (hprev d hd).1) h.str h.nz (by omega)
    hsep hs).mono ?_
  rintro p a' ⟨b, N, rfl, hp⟩
  have hrb : rb ∉ {d | prev = some d} := fun hd => (hprev rb hd).2.1 rfl
  have hchain := h.chain.extend hp
  have hbase : ∀ d, ¬ Held a d → ¬ Held base d := fun d hd hc =>
    hd (h.touches.held d (Set.notMem_empty d) hc)
  refine ⟨b, _, rfl, ⟨h.touches.trans' hp.touches fun d hd => (hprev d hd).2.2,
    hp.touches.held rb hrb h.held, h.fresh, hp.touches.cstring hrb h.held (by omega) h.str, h.nz,
    h.len, hchain, fun d hd => ⟨hchain.held d hd, ?_, ?_⟩, ?_, fun hne pb hpb => ?_⟩, hp.card⟩
  · rintro rfl
    rcases hd with rfl | hd | hd
    · exact hp.fresh h.held
    · exact (h.blocks d hd).2.1 rfl
    · exact (hp.names d hd).2.1 h.held
  · rcases hd with rfl | hd | hd
    · exact hbase d hp.fresh
    · exact (h.blocks d hd).2.2
    · exact hbase d (hp.names d hd).2.1
  · have hset : chainBlocks (chainBlocks S prev ∪ N) (some b) ∪ {rb} =
        chainBlocks S prev ∪ {rb} ∪ insert b N := by
      ext x
      simp only [chainBlocks, Set.mem_union, Set.mem_insert_iff, Set.mem_singleton_iff]
      grind
    rw [hset]
    exact hp.makes base _ h.owns
  · obtain rfl := Option.some_inj.mp hpb
    exact h.chain.extend_nodes h.nodes hp hne

/-- The rest of a turn takes the component off the path. -/
theorem LoopState.rest_runs {pb : Nat}
    (h : LoopState base a S first names (some pb) rb (c ++ 47 :: rest))
    (hs : (freeBlocks a.heap).card = 0 → ∀ e, stop e) :
    Runs stop (pathParserRest (blockAt rb) c.length) a fun p a' => ∃ nb, p = blockAt nb ∧
      LoopState base a' S first names (some pb) nb rest ∧
      (freeBlocks a.heap).card ≤ (freeBlocks a'.heap).card := by
  have hlen := h.len
  rw [List.length_append, List.length_cons] at hlen
  refine (parserRest_runs h.touches.kernel h.held h.str h.nz h.len hs).mono ?_
  rintro p a' ⟨nb, rfl, hheld, hfresh, hstr, ht, hcard, howns⟩
  have hT : ∀ d ∈ insert pb S, d ∉ ({rb} : Set Nat) := fun d hd => (h.blocks d hd).2.1
  refine ⟨nb, rfl, ⟨h.touches.trans' ht fun d hd => Set.mem_singleton_iff.mp hd ▸ h.fresh, hheld,
    fun hc => hfresh (h.touches.held nb (Set.notMem_empty nb) hc), hstr,
    fun h0 => h.nz (by simp [h0]), by omega, OpenChain.keep h.chain ht hT,
    fun d hd => ⟨ht.held d (hT d hd) (h.blocks d hd).1, ?_, (h.blocks d hd).2.2⟩, ?_,
    fun hne pb' hpb => ?_⟩, hcard⟩
  · rintro rfl
    exact hfresh (h.blocks d hd).1
  · have hset : insert pb S ∪ {nb} = (insert pb S ∪ {rb} ∪ {nb}) \ {rb} := by
      ext x
      have hx : x ∈ insert pb S → x ≠ rb := fun hin => (h.blocks x hin).2.1
      have hnb : nb ≠ rb := fun heq => hfresh (heq ▸ h.held)
      simp only [Set.mem_union, Set.mem_sdiff, Set.mem_singleton_iff]
      constructor
      · rintro (hin | rfl)
        · exact ⟨Or.inl (Or.inl hin), hx hin⟩
        · exact ⟨Or.inr rfl, hnb⟩
      · rintro ⟨(hin | heq) | heq, hxrb⟩
        · exact Or.inl hin
        · exact absurd heq hxrb
        · exact Or.inr heq
    change Owns base a' (insert pb S ∪ {nb})
    rw [hset]
    exact howns base _ h.owns (Or.inr rfl)
  · obtain ⟨l, n, hopen, hback⟩ := h.nodes hne pb' hpb
    obtain rfl := Option.some_inj.mp hpb
    obtain ⟨hopen', hback'⟩ := hopen.keep ht fun d hd => ⟨(h.blocks d hd).1, hT d hd⟩
    exact ⟨l, n, hopen', hback' hback⟩

/-- A path of one part gives a separator index of at most 0. -/
theorem LoopState.sep_whole (h : LoopState base a S first names prev rb bytes)
    (hwhole : (47 : UInt8) ∉ bytes ∨ ∃ t, bytes = 47 :: t) :
    ∃ sep ≤ 0, strIndexOf (strAt a.mem (blockAt rb)) 47 = some sep := by
  have hlen := Nat.lt_of_le_of_lt h.len (by decide : 256 < 65536)
  rcases hwhole with hno | ⟨t, rfl⟩
  · exact ⟨-1, by decide, h.str.strIndexOf_none h.nz hlen (by decide) hno⟩
  · exact ⟨0, Int.le_refl 0, CString.strIndexOf_sep (c := []) h.str h.nz hlen List.not_mem_nil⟩

/-- A path of more than one part gives the length of its first component. -/
theorem LoopState.sep_cons (h : LoopState base a S first names prev rb (c ++ 47 :: rest))
    (hc : (47 : UInt8) ∉ c) :
    strIndexOf (strAt a.mem (blockAt rb)) 47 = some (c.length : Int) :=
  h.str.strIndexOf_sep h.nz (Nat.lt_of_le_of_lt h.len (by decide)) hc

end LoopState

/-- Where the loop ends: the list is complete but for what is left of the path. -/
structure LoopEnd (base a : Arena) (S : Set Nat) (first : Nat) (names : List (List UInt8))
    (pb rb : Nat) (split : PathSplit) : Prop where
  touches : Touches ∅ ∅ base a
  chain : OpenChain base a S first names pb
  fresh : ¬ Held base pb
  rest : CString a.mem (blockAt rb) split.rest
  apart : split.broke = false → Held a rb ∧ rb ∉ insert pb S
  small : 0 ∉ split.rest ∧ split.rest.length ≤ 256
  broke : split.broke = true → split.rest = []
  owns : Owns base a (insert pb S ∪ if split.broke then ∅ else {rb})
  nodes : [] ∉ names → ∃ l nb, OpenNodes a S first names pb l nb ∧ BackLink a pb l

/-- At the `break` the whole of the rest is the last name, and its buffer is freed. -/
theorem LoopState.break_runs {stop : Halt → Prop} {base a : Arena} {S : Set Nat} {first pb rb : Nat}
    {names : List (List UInt8)} {bytes : List UInt8}
    (h : LoopState base a S first names (some pb) rb bytes) (taken : List (List UInt8)) :
    Runs stop (heapFree (blockAt rb)) a fun _ a' =>
      LoopEnd base a' S first names pb rb ⟨taken, [], true⟩ ∧
        (freeBlocks a.heap).card + 1 ≤ (freeBlocks a'.heap).card := by
  refine (h.touches.kernel.releases_runs h.held).mono ?_
  rintro - a' ⟨ht, hmem, hcard, hrel⟩
  have hT : ∀ d ∈ insert pb S, Held a d ∧ d ∉ ({rb} : Set Nat) := fun d hd =>
    ⟨(h.blocks d hd).1, (h.blocks d hd).2.1⟩
  refine ⟨⟨?_, OpenChain.keep h.chain ht fun d hd => (hT d hd).2,
    (h.blocks pb (Set.mem_insert _ _)).2.2, ?_, fun hf => (by cases hf), by simp, fun _ => rfl, ?_,
    fun hin => ?_⟩, hcard⟩
  · exact h.touches.trans' ht fun d hd => Set.mem_singleton_iff.mp hd ▸ h.fresh
  · rw [hmem]
    intro i hi
    exact fill_of_mem (by simp at hi; omega)
  · have hset : insert pb S ∪ (∅ : Set Nat) = (insert pb S ∪ {rb}) \ {rb} := by
      rw [Set.union_empty, Set.union_sdiff_right, Set.sdiff_singleton_eq_self]
      exact fun hin => (h.blocks rb hin).2.1 rfl
    rw [if_pos rfl, hset]
    exact hrel base _ h.owns (Or.inr rfl)
  · obtain ⟨l, n, hopen, hback⟩ := h.nodes hin pb rfl
    obtain ⟨hopen', hback'⟩ := hopen.keep ht hT
    exact ⟨l, n, hopen', hback' hback⟩

/-- When there is no separator left, the rest is what the loop leaves. -/
theorem LoopState.loopEnd {base a : Arena} {S : Set Nat} {first pb rb : Nat}
    {names : List (List UInt8)} {bytes : List UInt8}
    (h : LoopState base a S first names (some pb) rb bytes) (taken : List (List UInt8)) :
    LoopEnd base a S first names pb rb ⟨taken, bytes, false⟩ where
  touches := h.touches
  chain := h.chain
  fresh := (h.blocks pb (Set.mem_insert _ _)).2.2
  rest := h.str
  apart _ := ⟨h.held, fun hin => (h.blocks rb hin).2.1 rfl⟩
  small := ⟨h.nz, h.len⟩
  broke hf := by cases hf
  owns := h.owns
  nodes hin := h.nodes hin pb rfl

/-- **The loop gives the parts the names of `partSplit`.**  By induction on the turns; the
invariant is `LoopState`. -/
theorem parserLoop_runs {stop : Halt → Prop} {base : Arena} : ∀ {fuel : Nat} {a : Arena}
    {S : Set Nat} {first rb : Nat} {names : List (List UInt8)} {prev : Option Nat} {sep : Int}
    {bytes : List UInt8}, bytes.length < fuel → LoopState base a S first names prev rb bytes →
    strIndexOf (strAt a.mem (blockAt rb)) 47 = some sep →
    ((freeBlocks a.heap).card < (partSplit bytes).need → ∀ e, stop e) →
    Runs stop (pathParserLoop fuel (linkTo prev) first (blockAt rb) sep) a fun r a' =>
      ∃ pb rb' S', r.1 = blockAt pb ∧ r.2.2 = blockAt rb' ∧
        LoopEnd base a' S' r.2.1 (names ++ (partSplit bytes).names) pb rb' (partSplit bytes) ∧
        (freeBlocks a.heap).card + (if (partSplit bytes).broke then 1 else 0)
          ≤ (freeBlocks a'.heap).card + 2 * (partSplit bytes).names.length
  | 0, _, _, _, _, _, _, _, _, hfuel, _, _, _ => absurd hfuel (by omega)
  | fuel + 1, a, S, first, rb, names, prev, sep, bytes, hfuel, h, hsep, hs => by
    have hneed := partSplit_need_pos bytes
    unfold pathParserLoop
    rcases path_cases bytes with hwhole | ⟨c, rest, rfl, hc, hne⟩
    · obtain ⟨sep', hsep0, hsep'⟩ := h.sep_whole hwhole
      cases hsep.symm.trans hsep'
      refine Runs.bind (h.turn_runs (by omega) fun h0 => hs (by omega)) ?_
      rintro p a1 ⟨b, S', rfl, h1, hcard1⟩
      have hname : nextName bytes sep = bytes := if_pos hsep0
      rw [hname] at h1
      rw [if_pos hsep0, partSplit_whole hwhole]
      refine Runs.bind (h1.break_runs [bytes]) ?_
      rintro - a2 ⟨hend, hcard2⟩
      refine Runs.pure ⟨b, rb, S', rfl, rfl, hend, ?_⟩
      simp only [if_pos, List.length_singleton]
      omega
    · cases hsep.symm.trans (h.sep_cons hc)
      have hcpos := List.length_pos_iff.mpr hne
      have hnot : ¬ (c.length : Int) ≤ 0 := by omega
      have hL : (c ++ 47 :: rest).length = c.length + 1 + rest.length := by
        simp
        omega
      have hname : nextName (c ++ 47 :: rest) c.length = c ++ [47] := by
        unfold nextName
        rw [if_neg hnot]
        simp [List.take_append]
      have hneed4 : 4 ≤ (partSplit (c ++ 47 :: rest)).need := by
        rw [partSplit_need_cons hc hne]
        have := partSplit_need_pos rest
        split <;> omega
      refine Runs.bind (h.turn_runs (by omega) fun h0 => hs (by omega)) ?_
      rintro p a1 ⟨b, S', rfl, h1, hcard1⟩
      rw [hname] at h1
      rw [if_neg hnot]
      refine Runs.bind (h1.rest_runs fun h0 => hs (by omega)) ?_
      rintro p a2 ⟨nb, rfl, h2, hcard2⟩
      refine Runs.get_bind ?_
      rw [partSplit_need_cons hc hne] at hs
      rw [partSplit_cons hc hne]
      by_cases hmem : 47 ∈ rest
      · obtain ⟨c', rest', rfl, hc'⟩ := List.eq_append_cons_of_mem hmem
        have hsep2 := h2.sep_cons hc'
        rw [hsep2]
        refine Runs.bind (Runs.of_ok (Q := fun i a' => i = (c'.length : Int) ∧ a2 = a') rfl
          ⟨rfl, rfl⟩) ?_
        rintro i a' ⟨rfl, rfl⟩
        rw [if_pos (by omega)]
        rw [if_pos hmem] at hs ⊢
        refine (parserLoop_runs (by omega) h2 hsep2 fun h0 => hs (by omega)).mono ?_
        rintro r a3 ⟨pb, rb', S3, h3, h4, h5, hcard3⟩
        refine ⟨pb, rb', S3, h3, h4, ?_, ?_⟩
        · rw [List.append_assoc] at h5
          exact ⟨h5.touches, h5.chain, h5.fresh, h5.rest, h5.apart, h5.small, h5.broke, h5.owns,
            h5.nodes⟩
        · simp only [List.length_cons]
          omega
      · rw [h2.str.strIndexOf_none h2.nz (Nat.lt_of_le_of_lt h2.len (by decide)) (by decide) hmem]
        refine Runs.bind (Runs.of_ok (Q := fun i a' => i = -1 ∧ a2 = a') rfl ⟨rfl, rfl⟩) ?_
        rintro i a' ⟨rfl, rfl⟩
        rw [if_neg (by decide), if_neg hmem]
        refine Runs.pure ⟨b, nb, S', rfl, rfl, h2.loopEnd [c ++ [47]], ?_⟩
        simp
        omega

/-! ## 5. The whole parser -/

/-- What `path_parser_is_path_valid` asks of a path. -/
def validPath (bytes : List UInt8) : Prop :=
  bytes.length ≤ 256 ∧ isDigit (bytes.getD 0 0) = true ∧ bytes.getD 1 0 = 58 ∧ bytes.getD 2 0 = 47

/-- The string is not in the bytes that the check of the path writes on the stack. -/
def OffSlice (path : Nat) (bytes : List UInt8) : Prop :=
  path + bytes.length < startPathSlice ∨ startPathSlice + 2 < path

/-- The bytes that the check of the path writes on the stack. -/
def pathSliceRange : Set Nat := {x | startPathSlice ≤ x ∧ x ≤ startPathSlice + 2}

theorem outside_pathSliceRange : ∀ x ∈ pathSliceRange, OutsideHeap x := by
  intro x hx
  have hx' : startPathSlice ≤ x ∧ x ≤ startPathSlice + 2 := hx
  refine Or.inl ?_
  simp only [startPathSlice, memoryHeapStartAddress] at *
  omega

/-- The slice that is compared with `":/"`: two characters, as far as the path has them. -/
theorem startPathSlice_spells {m : Mem} {path : Nat} {bytes : List UInt8}
    (h : CString m path bytes) (hnz : 0 ∉ bytes) (hpos : 0 < bytes.length)
    (hoff : OffSlice path bytes) : Spells
      (strAt (sliceMem m startPathSlice path 1 2) startPathSlice) ((bytes.drop 1).take 2) where
  nonzero hin := hnz (List.mem_of_mem_drop (List.mem_of_mem_take hin))
  byte i hi := by
    unfold OffSlice at hoff
    rw [List.length_take, List.length_drop] at hi
    unfold strAt sliceMem
    by_cases hlast : i = 2
    · rw [hlast, Function.update_self, List.getD_eq_default _ _ (by simp)]
    · rw [Function.update_of_ne (by omega), copyLoop_of_mem (Nat.zero_le _) (by omega) (by omega),
        Nat.add_assoc, h (1 + i) (by omega), List.getD_eq_getElem?_getD, List.getD_eq_getElem?_getD,
        List.getElem?_take, List.getElem?_drop, if_pos (by omega)]

/-- What the characters behind the drive are compared with. -/
theorem take_eq_colonSlash (bytes : List UInt8) :
    (bytes.drop 1).take 2 = [58, 47] ↔ bytes.getD 1 0 = 58 ∧ bytes.getD 2 0 = 47 := by
  rcases bytes with - | ⟨a, - | ⟨b, - | ⟨c, t⟩⟩⟩
  · simp
  · simp
  · simp
  · simp

theorem isPathValid_runs {stop : Halt → Prop} {a : Arena} {path : Nat} {bytes : List UInt8}
    (h : CString a.mem path bytes) (hnz : 0 ∉ bytes) (hlen : bytes.length < 65536)
    (hoff : OffSlice path bytes) : Runs stop (pathParserIsPathValid path) a fun v a' =>
      a'.heap = a.heap ∧ (∀ x ∉ pathSliceRange, a'.mem x = a.mem x) ∧
        (v = true ↔ validPath bytes) := by
  unfold pathParserIsPathValid
  refine Runs.get_bind ?_
  rw [h.strlen hnz hlen]
  refine Runs.bind (Runs.of_ok (Q := fun n a' => n = bytes.length ∧ a = a') rfl ⟨rfl, rfl⟩) ?_
  rintro n a' ⟨rfl, rfl⟩
  have hfirst : a.mem path = bytes.getD 0 0 := h 0 (Nat.zero_le _)
  split
  · exact Runs.pure ⟨rfl, fun _ _ => rfl, iff_of_false Bool.false_ne_true fun hv => by
      have := hv.1
      simp only [kernelMaxPathSize] at *
      omega⟩
  · split
    · next hdigit =>
      refine Runs.pure ⟨rfl, fun _ _ => rfl, iff_of_false Bool.false_ne_true fun hv => ?_⟩
      rw [hfirst, hv.2.1] at hdigit
      exact absurd hdigit (by decide)
    · next hdigit =>
      have hdigit' : isDigit (bytes.getD 0 0) = true := by
        rw [← hfirst]
        simpa using hdigit
      have hpos : 0 < bytes.length := by
        rcases bytes with - | ⟨c, t⟩
        · exact absurd hdigit' (by decide)
        · exact Nat.zero_lt_succ _
      refine Runs.bind (Runs.of_ok (strSlice_run (by omega) a)
        (Q := fun _ a' => a' = ⟨a.heap, sliceMem a.mem startPathSlice path 1 2⟩) rfl) ?_
      rintro - a' rfl
      refine Runs.get_bind ?_
      have hkeep : ∀ x ∉ pathSliceRange, sliceMem a.mem startPathSlice path 1 2 x = a.mem x := by
        intro x hx
        have hx' : ¬ (startPathSlice ≤ x ∧ x ≤ startPathSlice + 2) := hx
        exact sliceMem_of_not_mem (by omega) (by omega)
      have hslice := startPathSlice_spells h hnz hpos hoff
      have hshort : ((bytes.drop 1).take 2).length < 65536 :=
        Nat.lt_of_le_of_lt (List.length_take_le _ _) (by decide)
      have hlit : Spells (literal [58, 47]) [58, 47] := spells_literal (by decide)
      obtain ⟨r, hr, hr0⟩ := strCmp_eq hslice hlit hshort (by decide)
      rw [hr]
      refine Runs.bind (Runs.of_ok (Q := fun i a' => i = r ∧ a' = _) rfl ⟨rfl, rfl⟩) ?_
      rintro i a' ⟨rfl, rfl⟩
      refine Runs.pure ⟨rfl, hkeep, ?_⟩
      rw [beq_iff_eq, hr0, take_eq_colonSlash]
      exact ⟨fun hv => ⟨by simp only [kernelMaxPathSize] at *; omega, hdigit', hv⟩, fun hv => hv.2.2⟩

/-- The names of all parts. -/
def PathSplit.all (split : PathSplit) : List (List UInt8) :=
  split.names ++ if split.rest = [] then [] else [split.rest]

/-- The branch behind the loop adds the last part, and sets its `next`. -/
theorem parserLast_runs {stop : Halt → Prop} {base a : Arena} (hk : KernelHeap a) {S : Set Nat}
    {first pb rb : Nat} {names : List (List UInt8)} {rest : List UInt8}
    (h : OpenChain base a S first names pb) (hrest : CString a.mem (blockAt rb) rest)
    (hlen : rest.length < 4096) (hne : rest ≠ []) (hrb : Held a rb) (hrbS : rb ∉ insert pb S)
    (hs : (freeBlocks a.heap).card = 0 → ∀ e, stop e) :
    Runs stop (pathParserLast (blockAt pb) (blockAt rb)) a fun _ a' => ∃ lb S', Touches {pb} ∅ a a' ∧
      OpenChain base a' S' first (names ++ [rest]) lb ∧ u32 a'.mem (blockAt lb + 4) = 0 ∧
      (freeBlocks a.heap).card = (freeBlocks a'.heap).card + 1 ∧ S' = insert pb S ∪ {rb} ∧
      Makes {lb} a a' ∧ ∀ l nb, OpenNodes a S first names pb l nb →
        OpenNodes a' S' first (names ++ [rest]) lb (l ++ [(pb, nb)]) rb := by
  have hpb := h.held pb (Set.mem_insert _ _)
  have hrbpb : rb ≠ pb := fun heq => hrbS (heq ▸ Set.mem_insert _ _)
  unfold pathParserLast
  refine Runs.bind (hk.alloc_runs (by omega) (by omega) hs) ?_
  rintro p a1 ⟨lb, rfl, hnew⟩
  have hlbS : lb ∉ insert pb S := fun hin => hnew.fresh (h.held lb hin)
  have hpblb := hnew.ne hpb
  have hrblb := hnew.ne hrb
  have hpb1 := hnew.touches.held pb (Set.notMem_empty _) hpb
  have hrb1 := hnew.touches.held rb (Set.notMem_empty _) hrb
  have hlb := blockAt_lt hnew.held.lt
  have hrbl := blockAt_lt hrb.lt
  refine Runs.bind (storeWord_runs (k := 0) hnew.touches.kernel hnew.held (by omega)) ?_
  rintro - a2 ⟨ht2, hheap2, hmem2⟩
  have hlb2 : Held a2 lb := ⟨hnew.held.lt, hheap2 ▸ hnew.held.word⟩
  refine Runs.bind (storeWord_runs ht2.kernel hlb2 (by omega)) ?_
  rintro - a3 ⟨ht3, hheap3, hmem3⟩
  have hpb3 : Held a3 pb := ⟨hpb.lt, hheap3 ▸ hheap2 ▸ hpb1.word⟩
  have hlb3 : Held a3 lb := ⟨hlb2.lt, hheap3 ▸ hlb2.word⟩
  refine (storeWord_runs ht3.kernel hpb3 (by omega)).mono ?_
  rintro - a4 ⟨ht4, hheap4, hmem4⟩
  have hap := blockAt_le hpblb
  have hT3 : Touches {pb} ∅ a a3 :=
    ((hnew.touches.mono (Set.empty_subset _) (Set.empty_subset _)).trans' ht2
      fun c hc => Set.mem_singleton_iff.mp hc ▸ hnew.fresh).trans' ht3
      fun c hc => Set.mem_singleton_iff.mp hc ▸ hnew.fresh
  have hrb4 : Held a4 rb := ⟨hrb.lt, hheap4 ▸ hheap3 ▸ hheap2 ▸ hrb1.word⟩
  have hnext4 : u32 a4.mem (blockAt lb + 4) = 0 := by
    rw [ht4.word (fun hc => hpblb hc.symm) hlb3 (by omega), hmem3]
    exact u32_putU32 _ _ (by decide)
  have hname4 : u32 a4.mem (blockAt lb) = blockAt rb := by
    rw [ht4.firstWord (fun hc => hpblb hc.symm) hlb3, hmem3, u32_putU32_of_apart (by omega), hmem2]
    exact u32_putU32 _ _ (by omega)
  have hstr4 : CString a4.mem (blockAt rb) rest :=
    (hT3.trans ht4).cstring (fun hc => hrbpb hc) hrb hlen hrest
  have hpbname4 : u32 a4.mem (blockAt pb) = u32 a.mem (blockAt pb) := by
    rw [hmem4, u32_putU32_of_apart (by omega), ht3.firstWord (fun hc => hpblb hc) (ht2.held pb
      (fun hc => hpblb hc) hpb1), ht2.firstWord (fun hc => hpblb hc) hpb1, hnew.mem]
  have hpbnext4 : u32 a4.mem (blockAt pb + 4) = blockAt lb := by
    rw [hmem4]
    exact u32_putU32 _ _ (by omega)
  refine ⟨lb, insert pb S ∪ {rb}, hT3.trans ht4, ?_, hnext4, ?_, rfl,
    (hnew.makes hk).then_store (hheap4.trans (hheap3.trans hheap2)), fun l nb hopen =>
      hopen.snoc (hT3.trans ht4) h.held hpbname4 hpbnext4 hlbS hrbS hrblb hname4⟩
  · refine h.snoc (hT3.trans ht4) ⟨hpb.lt, hheap4 ▸ hpb3.word⟩ hpbname4 hpbnext4
      ⟨hlb2.lt, hheap4 ▸ hlb3.word⟩ hlbS (fun n hn => ?_) (Or.inr ⟨rb, rfl, hname4, hlen, hstr4, hne⟩)
    rw [Set.mem_singleton_iff.mp hn]
    exact ⟨hrb4, hrblb⟩
  · rw [hheap4, hheap3, hheap2]
    exact hnew.card.symm

/-- What is free later was free before. -/
theorem OpenChain.rebase {base base' a : Arena} {S : Set Nat} {first pb : Nat}
    {names : List (List UInt8)} (h : OpenChain base' a S first names pb)
    (hback : ∀ c < 25600, heapEntryIsFree (base'.heap.table.entry c) = true →
      heapEntryIsFree (base.heap.table.entry c) = true) : OpenChain base a S first names pb := by
  obtain ⟨fb, hfb, hfirst, hfree⟩ := h.new
  exact ⟨h.held, h.last, h.parts, h.next, fb, hfb, hfirst, hback fb (h.held fb hfb).lt hfree⟩

/-- The root a parsed path is given, and the list below it. -/
structure Parsed (base a : Arena) (root : Nat) (driveNo : UInt8) (split : PathSplit) (rtb first pb : Nat)
    (S : Set Nat) : Prop where
  kernel : KernelHeap a
  isBlock : root = blockAt rtb ∧ Held a rtb
  drive : a.mem root = driveNo
  part : u32 a.mem (root + 4) = first
  chain : OpenChain base a S first split.all pb
  last : split.rest ≠ [] → u32 a.mem (blockAt pb + 4) = 0
  apart : rtb ∉ insert pb S
  owns : ∃ lost, Owns base a (insert rtb (insert pb S) ∪ lost) ∧
    (∀ b ∈ lost, b ∉ insert rtb (insert pb S)) ∧
    (lost.Nonempty ↔ split.rest = [] ∧ split.broke = false)
  nodes : [] ∉ split.all → ∃ l nb, OpenNodes a S first split.all pb l nb ∧
    (split.rest = [] → BackLink a pb l)

theorem parserRoot_runs {stop : Halt → Prop} {base a : Arena} (hk : KernelHeap a) {S : Set Nat}
    {first pb : Nat} {split : PathSplit} {driveNo : UInt8}
    (h : OpenChain base a S first split.all pb)
    (hlast : split.rest ≠ [] → u32 a.mem (blockAt pb + 4) = 0) {lost : Set Nat}
    (howns : Owns base a (insert pb S ∪ lost)) (hlost : ∀ b ∈ lost, b ∉ insert pb S)
    (hsome : lost.Nonempty ↔ split.rest = [] ∧ split.broke = false)
    (hnodes : [] ∉ split.all → ∃ l nb, OpenNodes a S first split.all pb l nb ∧
      (split.rest = [] → BackLink a pb l))
    (hs : (freeBlocks a.heap).card = 0 → ∀ e, stop e) :
    Runs stop (pathParserRoot driveNo first) a fun root a' =>
      (∃ rtb, Parsed base a' root driveNo split rtb first pb S) ∧ Touches ∅ ∅ a a' ∧
        (freeBlocks a.heap).card = (freeBlocks a'.heap).card + 1 := by
  have hpb := h.held pb (Set.mem_insert _ _)
  unfold pathParserRoot
  refine Runs.bind (hk.alloc_runs (by omega) (by omega) hs) ?_
  rintro p a1 ⟨rtb, rfl, hnew⟩
  have hrtb := blockAt_lt hnew.held.lt
  let a2 : Arena := ⟨a1.heap, Function.update a1.mem (blockAt rtb) driveNo⟩
  have hnew2 : New a a2 rtb := hnew.toNew.store fun x hx => Function.update_of_ne (by omega) _ _
  refine Runs.bind (Runs.modify (Q := fun _ a' => a' = a2) rfl) ?_
  rintro - a' rfl
  refine Runs.bind (storeWord_runs hnew2.touches.kernel hnew2.held (by omega)) ?_
  rintro - a3 ⟨ht3, hheap3, hmem3⟩
  have hT : Touches ∅ ∅ a a3 := hnew2.touches.trans' ht3
    fun c hc => Set.mem_singleton_iff.mp hc ▸ hnew.fresh
  obtain ⟨fb, hfb, rfl, hfree⟩ := h.new
  have hfblt := blockAt_lt (h.held fb hfb).lt
  have hrtbS : ∀ b ∈ insert pb S ∪ lost, b ≠ rtb := by
    rintro b hb rfl
    exact hnew.fresh (howns.held b hb)
  refine Runs.pure ⟨⟨rtb, ht3.kernel, ⟨rfl, ⟨hnew.held.lt, hheap3 ▸ hnew2.held.word⟩⟩, ?_, ?_,
    h.keep hT (fun b _ => Set.notMem_empty b), fun hne => ?_, fun hin => hrtbS rtb (Or.inl hin) rfl,
    ⟨lost, ?_, fun b hb hin => ?_, hsome⟩, fun hne => ?_⟩, hT, ?_⟩
  · rw [hmem3, putU32_of_not_mem (by omega)]
    exact Function.update_self _ _ _
  · rw [hmem3]
    exact u32_putU32 _ _ (by omega)
  · rw [hT.word (Set.notMem_empty _) hpb (by omega)]
    exact hlast hne
  · have hset : insert rtb (insert pb S) ∪ lost = insert pb S ∪ lost ∪ {rtb} := by
      ext x
      simp only [Set.mem_union, Set.mem_insert_iff, Set.mem_singleton_iff]
      grind
    rw [hset]
    exact (hnew.makes hk).then_store hheap3 base _ howns
  · rcases hin with rfl | hin
    · exact hrtbS b (Or.inr hb) rfl
    · exact hlost b hb hin
  · obtain ⟨l, nb, hopen, hback⟩ := hnodes hne
    obtain ⟨hopen', hback'⟩ := hopen.keep hT fun b hb => ⟨h.held b hb, Set.notMem_empty b⟩
    exact ⟨l, nb, hopen', fun hrest => hback' (hback hrest)⟩
  · rw [hheap3]
    exact hnew.card.symm

/-- The bytes of the string are not in free blocks. -/
def Stored (a : Arena) (path : Nat) (bytes : List UInt8) : Prop :=
  ∀ i ≤ bytes.length, ¬ InFree a (path + i)

/-- A string that is stored does not overlap a new object. -/
theorem Stored.apart {a : Arena} {path : Nat} {bytes : List UInt8} (h : Stored a path bytes)
    (hk : KernelHeap a) {b : Nat} (hb : b < 25600)
    (hfree : heapEntryIsFree (a.heap.table.entry b) = true) :
    path + bytes.length < blockAt b ∨ blockAt b + 4096 ≤ path := by
  have hnot : ∀ i ≤ bytes.length, ¬ (blockAt b ≤ path + i ∧ path + i < blockAt b + 4096) := by
    intro i hi hin
    refine h i hi ⟨b, by rw [hk.total]; exact hb, hfree, ?_⟩
    rw [hk.blockAt_eq hb]
    exact hin
  by_contra hcon
  rcases Nat.lt_or_ge path (blockAt b) with hlt | hge
  · exact hnot (blockAt b - path) (by omega) (by omega)
  · exact hnot 0 (Nat.zero_le _) (by omega)

/-- How many blocks the parser keeps for a path. -/
def PathSplit.kept (split : PathSplit) : Nat := 2 * split.all.length + 2

theorem PathSplit.all_of_nil {split : PathSplit} (h : split.rest = []) : split.all = split.names := by
  unfold PathSplit.all
  rw [if_pos h, List.append_nil]

theorem PathSplit.all_of_ne_nil {split : PathSplit} (h : split.rest ≠ []) :
    split.all = split.names ++ [split.rest] := by
  unfold PathSplit.all
  rw [if_neg h]

section

variable {stop : Halt → Prop} {base base' a a' : Arena} {S : Set Nat} {first pb rb rtb root path : Nat}
  {split : PathSplit} {driveNo : UInt8} {bytes : List UInt8}

/-- If nothing is left of the path behind the loop, the list is complete. -/
theorem LoopEnd.whole_runs (h : LoopEnd base a S first split.names pb rb split)
    (hrest : split.rest = []) (hs : (freeBlocks a.heap).card = 0 → ∀ e, stop e) :
    Runs stop (pathParserRoot driveNo first) a fun root a' =>
      (∃ rtb, Parsed base a' root driveNo split rtb first pb S) ∧ Touches ∅ ∅ a a' ∧
        (freeBlocks a.heap).card = (freeBlocks a'.heap).card + 1 := by
  have hall := PathSplit.all_of_nil hrest
  -- the buffer of the rest is lost, unless the loop has freed it at its `break`
  have hlost : ∀ b ∈ (if split.broke then ∅ else {rb} : Set Nat), b ∉ insert pb S := by
    intro b hb
    split at hb
    · exact hb.elim
    · next hbroke =>
      rw [Set.mem_singleton_iff.mp hb]
      exact (h.apart (by simpa using hbroke)).2
  have hsome : (if split.broke then ∅ else {rb} : Set Nat).Nonempty ↔
      split.rest = [] ∧ split.broke = false := by
    cases split.broke with
    | true => simp
    | false => simp [hrest]
  refine parserRoot_runs h.touches.kernel (hall ▸ h.chain) (fun hne => absurd hrest hne) h.owns hlost
    hsome (fun hne => ?_) hs
  obtain ⟨l, nb, hopen, hback⟩ := h.nodes (hall ▸ hne)
  exact ⟨l, nb, hall ▸ hopen, fun _ => hback⟩

/-- Else what is left becomes the name of the last part. -/
theorem LoopEnd.last_runs (h : LoopEnd base a S first split.names pb rb split)
    (hrest : split.rest ≠ []) (hs : (freeBlocks a.heap).card < 2 → ∀ e, stop e) :
    Runs stop (do
      pathParserLast (blockAt pb) (blockAt rb)
      pathParserRoot driveNo first) a fun root a' =>
      (∃ rtb lb S', Parsed base a' root driveNo split rtb first lb S') ∧ Touches {pb} ∅ a a' ∧
        (freeBlocks a.heap).card = (freeBlocks a'.heap).card + 2 := by
  have hall := PathSplit.all_of_ne_nil hrest
  have hbroke : ¬ split.broke = true := fun hb => hrest (h.broke hb)
  obtain ⟨hrb, hrbS⟩ := h.apart (by simpa using hbroke)
  have howns := h.owns
  rw [if_neg hbroke] at howns
  refine Runs.bind (parserLast_runs h.touches.kernel h.chain h.rest
    (Nat.lt_of_le_of_lt h.small.2 (by decide)) hrest hrb hrbS fun h0 => hs (by omega)) ?_
  rintro - a1 ⟨lb, S', ht1, hchain, hlast, hcard1, rfl, hmakes, hnodes⟩
  have howns1 : Owns base a1 (insert lb (insert pb S ∪ {rb}) ∪ ∅) := by
    rw [Set.union_empty, Set.insert_eq, Set.union_comm]
    exact hmakes base _ howns
  refine (parserRoot_runs ht1.kernel (hall ▸ hchain) (fun _ => hlast) howns1 (fun b hb => hb.elim)
    (by simp [hrest]) (fun hne => ?_) fun h0 => hs (by omega)).mono ?_
  · obtain ⟨l, nb, hopen, -⟩ := h.nodes fun hin => hne (hall ▸ List.mem_append_left _ hin)
    exact ⟨_, _, hall ▸ hnodes l nb hopen, fun h0 => absurd h0 hrest⟩
  · rintro root a2 ⟨⟨rtb, hroot⟩, ht2, hcard2⟩
    refine ⟨⟨rtb, lb, _, hroot⟩, ht1.trans (ht2.mono (Set.empty_subset _) (Set.Subset.refl _)), ?_⟩
    omega

/-- What has been parsed depends on which blocks had been taken before only. -/
theorem Parsed.rebase (h : Parsed base' a root driveNo split rtb first pb S)
    (hheap : base'.heap = base.heap) : Parsed base a root driveNo split rtb first pb S where
  kernel := h.kernel
  isBlock := h.isBlock
  drive := h.drive
  part := h.part
  chain := h.chain.rebase fun c _ hfree => hheap ▸ hfree
  last := h.last
  apart := h.apart
  owns := by
    obtain ⟨lost, howns, hrest⟩ := h.owns
    exact ⟨lost, howns.congr hheap.symm rfl, hrest⟩
  nodes := h.nodes

/-- The path behind `d:/` is where the loop begins. -/
theorem LoopState.start (hk : KernelHeap base) (hnew : Alloc base a' rb) (ht : Touches {rb} ∅ a' a)
    (hheap : a.heap = a'.heap) (hstr : CString a.mem (blockAt rb) bytes) (hnz : 0 ∉ bytes)
    (hlen : bytes.length ≤ 256) : LoopState base a ∅ 0 [] none rb bytes where
  touches := hnew.touches.trans' ht fun c hc => Set.mem_singleton_iff.mp hc ▸ hnew.fresh
  held := ⟨hnew.held.lt, hheap ▸ hnew.held.word⟩
  fresh := hnew.fresh
  str := hstr
  nz := hnz
  len := hlen
  chain := ⟨rfl, rfl, rfl, fun c hc hfree => hnew.back c hc (hheap ▸ hfree)⟩
  blocks b hb := hb.elim
  owns := ((hnew.makes hk).then_store hheap) _ ∅ (Owns.refl base)
  nodes _ pb hpb := by cases hpb

/-- The search for a separator ends. -/
theorem LoopState.sep_some {names : List (List UInt8)} {prev : Option Nat}
    (h : LoopState base a S first names prev rb bytes) :
    ∃ sep, strIndexOf (strAt a.mem (blockAt rb)) 47 = some sep := by
  rcases path_cases bytes with hwhole | ⟨c, rest, rfl, hc, -⟩
  · obtain ⟨sep, -, hsep⟩ := h.sep_whole hwhole
    exact ⟨sep, hsep⟩
  · exact ⟨_, h.sep_cons hc⟩

/-- **What `path_parser_parse_path` builds**, for every path: nothing if it is not valid, else a
root whose parts have the names of `partSplit`. -/
theorem parsePath_runs (hk : KernelHeap a) (h : CString a.mem path bytes) (hnz : 0 ∉ bytes)
    (hlen : bytes.length < 65536) (hoff : OffSlice path bytes) (hstored : Stored a path bytes)
    (hs : (freeBlocks a.heap).card < (partSplit (bytes.drop 3)).need + 1 → ∀ e, stop e) :
    Runs stop (pathParserParsePath path) a fun root a' => Touches ∅ pathSliceRange a a' ∧
      ((¬ validPath bytes ∧ root = 0 ∧ a'.heap = a.heap) ∨
      (validPath bytes ∧ (freeBlocks a.heap).card
          ≤ (freeBlocks a'.heap).card + (partSplit (bytes.drop 3)).kept ∧
        ∃ rtb first pb S, Parsed a a' root (getDigit (bytes.getD 0 0))
          (partSplit (bytes.drop 3)) rtb first pb S)) := by
  unfold pathParserParsePath
  refine Runs.bind (isPathValid_runs h hnz hlen hoff) ?_
  rintro v a1 ⟨hheap1, hkeep1, hvalid⟩
  have ht1 : Touches ∅ pathSliceRange a a1 := by
    have hstore := Touches.store_outside hk outside_pathSliceRange hkeep1
    rwa [← hheap1] at hstore
  cases v with
  | false =>
    exact Runs.pure ⟨ht1, Or.inl ⟨fun hv => absurd (hvalid.mpr hv) (by decide), rfl, hheap1⟩⟩
  | true =>
    have hv := hvalid.mp rfl
    have hmax := hv.1
    have hlen3 : 3 ≤ bytes.length := by
      by_contra hlt
      have hslash := hv.2.2.2
      rw [List.getD_eq_default _ _ (by omega)] at hslash
      exact absurd hslash (by decide)
    have h1 : CString a1.mem path bytes := h.congr fun i hi => hkeep1 _ (by
      intro hin
      have hin' : startPathSlice ≤ path + i ∧ path + i ≤ startPathSlice + 2 := hin
      unfold OffSlice at hoff
      omega)
    have hk1 := ht1.kernel
    have hdrive : a1.mem path = bytes.getD 0 0 := h1 0 (Nat.zero_le _)
    have hcard1 : (freeBlocks a1.heap).card = (freeBlocks a.heap).card := by rw [hheap1]
    have hdrop : (bytes.drop 3).length = bytes.length - 3 := List.length_drop
    refine Runs.get_bind ?_
    rw [h1.strlen hnz hlen]
    refine Runs.bind (Runs.of_ok (Q := fun n a' => n = bytes.length ∧ a' = a1) rfl ⟨rfl, rfl⟩) ?_
    rintro n a' ⟨rfl, rfl⟩
    refine Runs.bind (hk1.alloc_runs (by omega) (by omega) fun h0 => hs (by omega)) ?_
    rintro p a2 ⟨rb, rfl, hnew⟩
    have hap := hstored.apart hk hnew.held.lt (hheap1 ▸ hnew.free)
    refine Runs.bind (strSlice_runs hnew.touches.kernel hnew.held (hnew.mem ▸ h1) (by omega) (by omega)
      (by omega) hap) ?_
    rintro - a3 ⟨ht3, hheap3, hstr3⟩
    rw [List.take_of_length_le (by omega)] at hstr3
    have hstate := LoopState.start hk1 hnew ht3 hheap3 hstr3 (fun h0 => hnz (List.mem_of_mem_drop h0))
      (by omega)
    obtain ⟨sep, hsep⟩ := hstate.sep_some
    have hcard2 := hnew.card
    have hcard3 : (freeBlocks a3.heap).card = (freeBlocks a2.heap).card := by rw [hheap3]
    refine Runs.get_bind ?_
    rw [hsep]
    refine Runs.bind (Runs.of_ok (Q := fun i a' => i = sep ∧ a' = a3) rfl ⟨rfl, rfl⟩) ?_
    rintro i a3 ⟨rfl, rfl⟩
    refine Runs.bind (parserLoop_runs (by omega) hstate hsep fun h0 => hs (by omega)) ?_
    rintro ⟨part, first, rest⟩ a4 ⟨pb, rb', S, rfl, rfl, hend, hcard4⟩
    rw [List.nil_append] at hend
    have ht4 : Touches ∅ pathSliceRange a a4 :=
      ht1.trans (hend.touches.mono (Set.Subset.refl _) (Set.empty_subset _))
    have hpb : ∀ b ∈ ({pb} : Set Nat), ¬ Held a b := fun b hb hheld =>
      Set.mem_singleton_iff.mp hb ▸ hend.fresh <| ht1.held b (Set.notMem_empty b) hheld
    refine Runs.get_bind ?_
    rw [hend.rest.strlen hend.small.1 (Nat.lt_of_le_of_lt hend.small.2 (by decide))]
    refine Runs.bind (Runs.of_ok (Q := fun n a' => n = (partSplit (bytes.drop 3)).rest.length ∧
      a' = a4) rfl ⟨rfl, rfl⟩) ?_
    rintro n a4 ⟨rfl, rfl⟩
    unfold PathSplit.need at hs
    unfold PathSplit.kept
    dsimp only
    by_cases hrest : (partSplit (bytes.drop 3)).rest = []
    · rw [hrest, if_neg (by decide), PathSplit.all_of_nil hrest]
      refine (hend.whole_runs hrest fun h0 => hs ?_).mono ?_
      · split at hcard4
        · next hb =>
          rw [if_pos hb]
          omega
        · next hb =>
          rw [if_neg hb]
          omega
      · rintro root a5 ⟨⟨rtb, hroot⟩, ht5, hcard5⟩
        exact ⟨ht4.trans (ht5.mono (Set.Subset.refl _) (Set.empty_subset _)), Or.inr ⟨hv, by omega,
          rtb, first, pb, S, hdrive ▸ hroot.rebase hheap1⟩⟩
    · have hbroke : ¬ (partSplit (bytes.drop 3)).broke = true := fun hb => hrest (hend.broke hb)
      rw [if_neg hbroke] at hs hcard4
      rw [if_pos (List.length_pos_iff.mpr hrest), PathSplit.all_of_ne_nil hrest, List.length_append,
        List.length_singleton]
      refine (hend.last_runs hrest fun h0 => hs (by omega)).mono ?_
      rintro root a5 ⟨⟨rtb, lb, S', hroot⟩, ht5, hcard5⟩
      exact ⟨ht4.trans' (ht5.mono (Set.Subset.refl _) (Set.empty_subset _)) hpb, Or.inr ⟨hv, by omega,
        rtb, first, lb, S', hdrive ▸ hroot.rebase hheap1⟩⟩

end

end KokoOs
