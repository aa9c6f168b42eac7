/-
# What a turn of the path parser does

`Parts` says that memory holds a list of parts with given names, from one address to another, and
`NameAt` that a word refers to a name.  Both speak about the objects that the list lies in, so a call
that touches none of these leaves the list alone (`Parts.keep`), and lists are put together like
segments (`Parts.append`).

The parser is then followed as far as one turn of its loop.

* **A new part.**  `newPart_runs`: the part is an object, and so is its name, which is the rest of the path
  or the first component *with its separator*.  Only the copy of an empty rest is no object, but the
  constant `""`.
* **The rest.**  `parserRest_runs`: what is behind the separator moves to an object of its own, and the
  object it was in is released.

The loop itself is the subject of `PathParse.lean`.
-/
import KokoOs.Path
import KokoOs.StrSpec

namespace KokoOs

open Bytes Prog

/-! ## 1. Lists of parts in memory -/

/-- The name word at `p` refers to `c`, in an object of `S`; an empty name is the constant `""`. -/
def NameAt (a : Arena) (S : Set Nat) (p : Nat) (c : List UInt8) : Prop :=
  (c = [] ∧ u32 a.mem p = emptyString) ∨
    ∃ n ∈ S, u32 a.mem p = blockAt n ∧ c.length < 4096 ∧ CString a.mem (blockAt n) c ∧ c ≠ []

/-- From `p` to `q` memory holds parts with the names `cs`, in objects of `S`. -/
def Parts (a : Arena) (S : Set Nat) : Nat → List (List UInt8) → Nat → Prop
  | p, [], q => p = q
  | p, c :: cs, q => ∃ b ∈ S, p = blockAt b ∧ NameAt a S p c ∧ Parts a S (u32 a.mem (p + 4)) cs q

theorem NameAt.mono {a : Arena} {S S' : Set Nat} {p : Nat} {c : List UInt8} (h : NameAt a S p c)
    (hS : S ⊆ S') : NameAt a S' p c := by
  rcases h with h | ⟨n, hn, h⟩
  · exact Or.inl h
  · exact Or.inr ⟨n, hS hn, h⟩

/-- A call that touches no object of `S`, nor the word itself, leaves the name alone. -/
theorem NameAt.keep {T W : Set Nat} {a a' : Arena} {S : Set Nat} {p : Nat} {c : List UInt8}
    (h : NameAt a S p c) (ht : Touches T W a a') (hS : ∀ b ∈ S, Held a b ∧ b ∉ T)
    (hw : u32 a'.mem p = u32 a.mem p) : NameAt a' S p c := by
  rcases h with ⟨hc, hp⟩ | ⟨n, hn, hp, hlen, hstr, hne⟩
  · exact Or.inl ⟨hc, hw.trans hp⟩
  · exact Or.inr ⟨n, hn, hw.trans hp, hlen, ht.cstring (hS n hn).2 (hS n hn).1 hlen hstr, hne⟩

theorem Parts.mono {a : Arena} {S S' : Set Nat} (hS : S ⊆ S') : ∀ {cs : List (List UInt8)}
    {p q : Nat}, Parts a S p cs q → Parts a S' p cs q
  | [], _, _, h => h
  | _ :: _, _, _, ⟨b, hb, hp, hname, hrest⟩ => ⟨b, hS hb, hp, hname.mono hS, hrest.mono hS⟩

theorem Parts.keep {T W : Set Nat} {a a' : Arena} {S : Set Nat} (ht : Touches T W a a')
    (hS : ∀ b ∈ S, Held a b ∧ b ∉ T) : ∀ {cs : List (List UInt8)} {p q : Nat},
    Parts a S p cs q → Parts a' S p cs q
  | [], _, _, h => h
  | _ :: _, _, _, ⟨b, hb, rfl, hname, hrest⟩ => by
    obtain ⟨hheld, hT⟩ := hS b hb
    refine ⟨b, hb, rfl, hname.keep ht hS (ht.firstWord hT hheld), ?_⟩
    rw [ht.word hT hheld (by omega)]
    exact hrest.keep ht hS

/-- Lists of parts are put together. -/
theorem Parts.append {a : Arena} {S : Set Nat} : ∀ {cs ds : List (List UInt8)} {p q r : Nat},
    Parts a S p cs q → Parts a S q ds r → Parts a S p (cs ++ ds) r
  | [], _, _, _, _, h, h' => by
    rw [show _ = _ from h]
    exact h'
  | _ :: _, _, _, _, _, ⟨b, hb, hp, hname, hrest⟩, h' => ⟨b, hb, hp, hname, hrest.append h'⟩

/-! ## 2. One turn of the loop -/

/-- The address a part has been given as the part before. -/
def linkTo : Option Nat → Nat
  | none => 0
  | some b => blockAt b

/-- What a turn gives as a name. -/
def nextName (bytes : List UInt8) (separatorIndex : Int) : List UInt8 :=
  if separatorIndex ≤ 0 then bytes else bytes.take (separatorIndex.toNat + 1)

/-- Storing a word of an object. -/
theorem storeWord_runs {stop : Halt → Prop} {a : Arena} (hk : KernelHeap a) {b k v : Nat}
    (hb : Held a b) (hk4 : k + 4 ≤ 4096) : Runs stop (storeWord (blockAt b + k) v) a fun _ a' =>
      Touches {b} ∅ a a' ∧ a'.heap = a.heap ∧ a'.mem = putU32 a.mem (blockAt b + k) v :=
  Runs.modify ⟨Touches.store hk b (fun x hx => putU32_of_not_mem (by omega)) hb.lt, rfl, rfl⟩

/-- Storing a slice of a string in an object of its own. -/
theorem strSlice_runs {stop : Halt → Prop} {a : Arena} (hk : KernelHeap a) {n str start end_ : Nat}
    (hn : Held a n) {bytes : List UInt8} (h : CString a.mem str bytes) (hse : start ≤ end_)
    (hend : end_ ≤ bytes.length) (hlen : bytes.length < 4000)
    (hap : str + bytes.length < blockAt n ∨ blockAt n + 4096 ≤ str) :
    Runs stop (strSlice (blockAt n) str start end_) a fun _ a' => Touches {n} ∅ a a' ∧
      a'.heap = a.heap ∧
      CString a'.mem (blockAt n) ((bytes.drop start).take (end_ + 1 - start)) :=
  Runs.of_ok (strSlice_run hse a)
    ⟨Touches.store hk n (fun x hx => sliceMem_of_not_mem hse (by omega)) hn.lt, rfl,
      h.slice hse hend (by omega)⟩

/-- What the naming of the part at block `b` does. -/
structure Named (a a' : Arena) (b : Nat) (N : Set Nat) (name : List UInt8) : Prop where
  touches : Touches {b} ∅ a a'
  held : ∀ n ∈ N, Held a' n ∧ ¬ Held a n
  one : name ≠ [] → ∃ n, N = {n}
  name : NameAt a' N (blockAt b) name
  next : u32 a'.mem (blockAt b + 4) = u32 a.mem (blockAt b + 4)
  part : Held a' b
  card : (freeBlocks a.heap).card ≤ (freeBlocks a'.heap).card + 1
  makes : Makes N a a'

section

variable {stop : Halt → Prop} {a : Arena} {b rb : Nat} {bytes : List UInt8}

/-- The rest of the path becomes the name as a whole.  The copy of an empty one is the constant `""`. -/
theorem copyName_runs (hk : KernelHeap a) (hb : Held a b) (hrb : Held a rb)
    (h : CString a.mem (blockAt rb) bytes) (hnz : 0 ∉ bytes) (hlen : bytes.length < 4000)
    (hs : (freeBlocks a.heap).card = 0 → ∀ e, stop e) :
    Runs stop (do
      let name ← strCopy (blockAt rb)
      storeWord (blockAt b) name) a fun _ a' => ∃ N, Named a a' b N bytes := by
  have hbpos := blockAt_lt hb.lt
  have hap : ∀ c, ¬ Held a c → blockAt rb + bytes.length < blockAt c ∨
      blockAt c + 4096 ≤ blockAt rb := by
    intro c hc
    have hle := blockAt_le fun heq : rb = c => hc (heq ▸ hrb)
    omega
  refine Runs.bind (strCopy_runs hk h hnz (by omega) hs hap) ?_
  rintro p a1 (⟨hnil, rfl, rfl⟩ | ⟨n, rfl, hnew, hstr, hcard, hmakes, hnil⟩)
  · refine (storeWord_runs (k := 0) hk hb (by omega)).mono fun _ a2 ⟨ht, hheap, hmem⟩ =>
      ⟨∅, ht, fun _ hn => hn.elim, fun hne => absurd hnil hne, Or.inl ⟨hnil, ?_⟩, ?_,
        ⟨hb.lt, hheap ▸ hb.word⟩, ?_, Makes.store hheap⟩
    · rw [hmem]
      exact u32_putU32 _ _ (by decide)
    · rw [hmem]
      exact u32_putU32_of_apart (by omega)
    · rw [hheap]
      omega
  · have hnb := hnew.ne hb
    have hb1 := hnew.touches.held b (Set.notMem_empty b) hb
    have hn := blockAt_lt hnew.held.lt
    refine (storeWord_runs (k := 0) hnew.touches.kernel hb1 (by omega)).mono
      fun _ a2 ⟨ht, hheap, hmem⟩ => ⟨{n}, ?_, ?_, fun _ => ⟨n, rfl⟩,
        Or.inr ⟨n, rfl, ?_, by omega, ?_, hnil⟩, ?_, ⟨hb.lt, hheap ▸ hb1.word⟩, ?_,
        hmakes.then_store hheap⟩
    · exact (hnew.touches.mono (Set.empty_subset _) (Set.empty_subset _)).trans ht
    · rintro c rfl
      exact ⟨⟨hnew.held.lt, hheap ▸ hnew.held.word⟩, hnew.fresh⟩
    · rw [hmem]
      exact u32_putU32 _ _ (by omega)
    · exact ht.cstring hnb.symm hnew.held (by omega) hstr
    · rw [hmem, u32_putU32_of_apart (by omega)]
      exact hnew.touches.word (Set.notMem_empty b) hb (by omega)
    · rw [hheap]
      omega

/-- The name is the path up to byte `k`, which is included. -/
theorem sliceName_runs (hk : KernelHeap a) (hb : Held a b) (hrb : Held a rb) (hne : rb ≠ b)
    (h : CString a.mem (blockAt rb) bytes) (hlen : bytes.length < 4000) {k : Nat}
    (hle : k ≤ bytes.length) (h0 : 0 < k) (hs : (freeBlocks a.heap).card = 0 → ∀ e, stop e) :
    Runs stop (do
      let name ← heapMalloc (k + 1)
      storeWord (blockAt b) name
      strSlice name (blockAt rb) 0 k) a fun _ a' => ∃ N, Named a a' b N (bytes.take (k + 1)) := by
  refine Runs.bind (hk.alloc_runs (by omega) (by omega) hs) ?_
  rintro p a1 ⟨n, rfl, hnew⟩
  have hcard := hnew.card
  have hnb := hnew.ne hb
  have hb1 := hnew.touches.held b (Set.notMem_empty b) hb
  have hn := blockAt_lt hnew.held.lt
  refine Runs.bind (storeWord_runs (k := 0) hnew.touches.kernel hb1 (by omega)) ?_
  rintro - a2 ⟨ht2, hheap2, hmem2⟩
  have hn2 := ht2.held n (fun hc => hnb hc.symm) hnew.held
  have hb2 : Held a2 b := ⟨hb.lt, hheap2 ▸ hb1.word⟩
  have h2 : CString a2.mem (blockAt rb) bytes := by
    refine ht2.cstring (fun hc => hne hc) (hnew.touches.held rb (Set.notMem_empty _) hrb)
      (by omega) ?_
    rw [hnew.mem]
    exact h
  have hrn := blockAt_le (hnew.ne hrb)
  refine (strSlice_runs ht2.kernel hn2 h2 (Nat.zero_le _) (by omega) (by omega)
    (by omega)).mono fun _ a3 ⟨ht3, hheap3, hstr⟩ => ⟨{n}, ?_, ?_, fun _ => ⟨n, rfl⟩,
      Or.inr ⟨n, rfl, ?_, ?_, ?_, ?_⟩, ?_, ⟨hb.lt, hheap3 ▸ hb2.word⟩, ?_,
      (hnew.makes hk).then_store (hheap3.trans hheap2)⟩
  · exact ((hnew.touches.mono (Set.empty_subset _) (Set.empty_subset _)).trans ht2).trans' ht3
      fun c hc => Set.mem_singleton_iff.mp hc ▸ hnew.fresh
  · rintro c rfl
    exact ⟨⟨hn2.lt, hheap3 ▸ hn2.word⟩, hnew.fresh⟩
  · rw [ht3.firstWord hnb hb2, hmem2]
    exact u32_putU32 _ _ (by omega)
  · exact Nat.lt_of_le_of_lt (List.length_take_le' _ _) (by omega)
  · exact hstr
  · refine List.ne_nil_of_length_pos ?_
    rw [List.length_take]
    omega
  · rw [ht3.word hnb hb2 (by omega), hmem2, u32_putU32_of_apart (by omega), hnew.mem]
  · rw [hheap3, hheap2]
    omega

theorem setName_runs (hk : KernelHeap a) (hb : Held a b) (hrb : Held a rb) (hne : rb ≠ b)
    (h : CString a.mem (blockAt rb) bytes) (hnz : 0 ∉ bytes) (hlen : bytes.length < 4000) {sep : Int}
    (hsep : sep ≤ bytes.length) (hs : (freeBlocks a.heap).card = 0 → ∀ e, stop e) :
    Runs stop (pathParserSetName (blockAt b) (blockAt rb) sep) a fun _ a' =>
      ∃ N, Named a a' b N (nextName bytes sep) := by
  unfold pathParserSetName nextName
  split
  · exact copyName_runs hk hb hrb h hnz hlen hs
  · exact sliceName_runs hk hb hrb hne h hlen (by omega) (by omega) hs

end

/-- What a turn does: a new part at block `b`, behind the part `prev`. -/
structure NewPart (prev : Option Nat) (a a' : Arena) (b : Nat) (N : Set Nat) (name : List UInt8) :
    Prop where
  touches : Touches {c | prev = some c} ∅ a a'
  part : Held a' b
  free : heapEntryIsFree (a.heap.table.entry b) = true
  fresh : ¬ Held a b
  names : ∀ n ∈ N, Held a' n ∧ ¬ Held a n ∧ n ≠ b
  one : name ≠ [] → ∃ n, N = {n}
  name : NameAt a' N (blockAt b) name
  next : u32 a'.mem (blockAt b + 4) = linkTo prev
  link : ∀ c, prev = some c → Held a' c ∧ u32 a'.mem (blockAt c) = u32 a.mem (blockAt c) ∧
    u32 a'.mem (blockAt c + 4) = blockAt b
  card : (freeBlocks a.heap).card ≤ (freeBlocks a'.heap).card + 2
  makes : Makes (insert b N) a a'

theorem newPart_runs {stop : Halt → Prop} {a : Arena} (hk : KernelHeap a) {prev : Option Nat}
    {rb : Nat} (hrb : Held a rb) (hprev : ∀ c, prev = some c → Held a c) {bytes : List UInt8}
    (h : CString a.mem (blockAt rb) bytes) (hnz : 0 ∉ bytes) (hlen : bytes.length < 4000) {sep : Int}
    (hsep : sep ≤ bytes.length) (hs : (freeBlocks a.heap).card < 2 → ∀ e, stop e) :
    Runs stop (pathParserNewPart (linkTo prev) (blockAt rb) sep) a fun p a' =>
      ∃ b N, p = blockAt b ∧ NewPart prev a a' b N (nextName bytes sep) := by
  unfold pathParserNewPart
  refine Runs.bind (hk.alloc_runs (by omega) (by omega) fun h0 => hs (by omega)) ?_
  rintro p a1 ⟨b, rfl, hnew⟩
  have hcard1 := hnew.card
  have hb := blockAt_lt hnew.held.lt
  have hprevlt : linkTo prev < 2 ^ 32 := by
    cases prev with
    | none => exact Nat.two_pow_pos 32
    | some c => exact Nat.lt_trans (blockAt_lt (hprev c rfl).lt) (by decide)
  have hT1 : Touches {c | prev = some c} ∅ a a1 :=
    hnew.touches.mono (Set.empty_subset _) (Set.empty_subset _)
  refine Runs.bind (storeWord_runs hnew.touches.kernel hnew.held (by omega)) ?_
  rintro - a2 ⟨ht2, hheap2, hmem2⟩
  have hT2 := hT1.trans' ht2 fun c hc => Set.mem_singleton_iff.mp hc ▸ hnew.fresh
  have hb2 : Held a2 b := ⟨hnew.held.lt, hheap2 ▸ hnew.held.word⟩
  have hrb1 := hnew.touches.held rb (Set.notMem_empty _) hrb
  have hrb2 := ht2.held rb (fun hc => hnew.ne hrb hc) hrb1
  have h2 : CString a2.mem (blockAt rb) bytes :=
    ht2.cstring (fun hc => hnew.ne hrb hc) hrb1 (by omega) (hnew.mem ▸ h)
  refine Runs.bind (setName_runs ht2.kernel hb2 hrb2 (hnew.ne hrb) h2 hnz hlen hsep
    fun h0 => hs ?_) ?_
  · rw [hheap2] at h0
    omega
  rintro - a3 ⟨N, h3⟩
  have hT3 := hT2.trans' h3.touches fun c hc => Set.mem_singleton_iff.mp hc ▸ hnew.fresh
  have hN : ∀ n ∈ N, Held a3 n ∧ ¬ Held a n ∧ n ≠ b := by
    intro n hn
    obtain ⟨hheld, hfresh⟩ := h3.held n hn
    have hnb : n ≠ b := by
      rintro rfl
      exact hfresh hb2
    exact ⟨hheld, fun hc => hfresh (ht2.held n (fun hc => hnb hc)
      (hnew.touches.held n (Set.notMem_empty _) hc)), hnb⟩
  have hnext : u32 a3.mem (blockAt b + 4) = linkTo prev := by
    rw [h3.next, hmem2]
    exact u32_putU32 _ _ hprevlt
  have hcard : (freeBlocks a.heap).card ≤ (freeBlocks a3.heap).card + 2 := by
    have := h3.card
    rw [hheap2] at this
    omega
  have hmakes : Makes (insert b N) a a3 :=
    ((hnew.makes hk).then_store hheap2).trans h3.makes
  cases prev with
  | none =>
    exact Runs.pure ⟨b, N, rfl, hT3, h3.part, hnew.free, hnew.fresh, hN, h3.one, h3.name, hnext,
      fun c hc => (by cases hc), hcard, hmakes⟩
  | some c =>
    have hc0 := hprev c rfl
    have hcb := hnew.ne hc0
    have hc1 := hnew.touches.held c (Set.notMem_empty _) hc0
    have hc2 := ht2.held c (fun hc => hcb hc) hc1
    have hc3 := h3.touches.held c (fun hc => hcb hc) hc2
    have hap := blockAt_le hcb
    have hlink : linkTo (some c) ≠ 0 := Nat.ne_of_gt (blockAt_pos c)
    dsimp only
    rw [if_pos hlink]
    refine Runs.bind (storeWord_runs h3.touches.kernel hc3 (by omega)) ?_
    rintro - a4 ⟨ht4, hheap4, hmem4⟩
    have hbc : b ∉ ({c} : Set Nat) := fun hc => hcb hc.symm
    refine Runs.pure ⟨b, N, rfl, hT3.trans (ht4.mono (fun d hd => ?_) (Set.empty_subset _)),
      ht4.held b hbc h3.part, hnew.free, hnew.fresh, fun n hn => ?_, h3.one, ?_, ?_, fun d hd => ?_,
      ?_, hmakes.then_store hheap4⟩
    · rw [Set.mem_singleton_iff.mp hd]
      rfl
    · obtain ⟨hheld, hfresh, hnb⟩ := hN n hn
      exact ⟨⟨hheld.lt, hheap4 ▸ hheld.word⟩, hfresh, hnb⟩
    · refine h3.name.keep ht4 (fun n hn => ⟨(hN n hn).1, ?_⟩)
        (ht4.firstWord hbc h3.part)
      intro hnc
      exact (hN n hn).2.1 (Set.mem_singleton_iff.mp hnc ▸ hc0)
    · rw [ht4.word hbc h3.part (by omega), hnext]
    · cases hd
      refine ⟨⟨hc3.lt, hheap4 ▸ hc3.word⟩, ?_, ?_⟩
      · rw [hmem4, u32_putU32_of_apart (by omega), h3.touches.firstWord (fun hc => hcb hc) hc2,
          ht2.firstWord (fun hc => hcb hc) hc1, hnew.touches.firstWord (Set.notMem_empty _) hc0]
      · rw [hmem4]
        exact u32_putU32 _ _ (by omega)
    · rw [hheap4]
      exact hcard

/-- What is behind a separator moves to an object of its own. -/
theorem parserRest_runs {stop : Halt → Prop} {a : Arena} (hk : KernelHeap a) {rb : Nat}
    (hrb : Held a rb) {c rest : List UInt8} (h : CString a.mem (blockAt rb) (c ++ 47 :: rest))
    (hnz : 0 ∉ c ++ 47 :: rest) (hlen : (c ++ 47 :: rest).length ≤ 256)
    (hs : (freeBlocks a.heap).card = 0 → ∀ e, stop e) :
    Runs stop (pathParserRest (blockAt rb) c.length) a fun p a' => ∃ nb, p = blockAt nb ∧
      Held a' nb ∧ ¬ Held a nb ∧ CString a'.mem (blockAt nb) rest ∧ Touches {rb} ∅ a a' ∧
      (freeBlocks a.heap).card ≤ (freeBlocks a'.heap).card ∧
      ∀ base L, Owns base a L → rb ∈ L → Owns base a' ((L ∪ {nb}) \ {rb}) := by
  have hL : (c ++ 47 :: rest).length = c.length + 1 + rest.length := by
    simp
    omega
  unfold pathParserRest
  refine Runs.get_bind ?_
  rw [h.strlen hnz (by omega)]
  refine Runs.bind (Runs.of_ok (Q := fun n a' => n = (c ++ 47 :: rest).length ∧ a = a') rfl
    ⟨rfl, rfl⟩) ?_
  rintro n a' ⟨rfl, rfl⟩
  refine Runs.bind (hk.alloc_runs (by omega) (by omega) hs) ?_
  rintro p a1 ⟨nb, rfl, hnew⟩
  have hcard1 := hnew.card
  have hrb1 := hnew.touches.held rb (Set.notMem_empty _) hrb
  have hne := hnew.ne hrb
  have hap := blockAt_le hne
  have h1 : CString a1.mem (blockAt rb) (c ++ 47 :: rest) := hnew.mem ▸ h
  refine Runs.bind (strSlice_runs hnew.touches.kernel hnew.held h1 (by omega) (by omega) (by omega)
    (by omega)) ?_
  rintro - a2 ⟨ht2, hheap2, hstr2⟩
  have hdrop : ((c ++ 47 :: rest).drop (c.length + 1)).take
      ((c ++ 47 :: rest).length + 1 - (c.length + 1)) = rest := by
    rw [List.drop_append]
    simp only [List.drop_eq_nil_of_le (Nat.le_succ c.length), Nat.add_sub_cancel_left, List.drop_one,
      List.tail_cons, List.nil_append]
    exact List.take_of_length_le (by omega)
  rw [hdrop] at hstr2
  have hrb2 := ht2.held rb (fun hc => hne hc) hrb1
  have hnb2 : Held a2 nb := ⟨hnew.held.lt, hheap2 ▸ hnew.held.word⟩
  refine Runs.bind (ht2.kernel.releases_runs hrb2) ?_
  rintro - a3 ⟨ht3, -, hcard3, hrel3⟩
  refine Runs.pure ⟨nb, rfl, ht3.held nb (fun hc => hne hc.symm) hnb2, hnew.fresh,
    ht3.cstring (fun hc => hne hc.symm) hnb2 (by omega) hstr2, ?_, ?_, fun base L hL hrbL =>
      hrel3 base _ ((hnew.makes hk).then_store hheap2 base L hL) (Or.inl hrbL)⟩
  · exact ((hnew.touches.mono (Set.empty_subset _) (Set.empty_subset _)).trans' ht2
      fun d hd => Set.mem_singleton_iff.mp hd ▸ hnew.fresh).trans ht3
  · rw [hheap2] at hcard3
    omega

end KokoOs
