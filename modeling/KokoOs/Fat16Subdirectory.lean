/-
# Subdirectories

A directory is loaded in four steps, and two of them are in the wrong order.  Its size is computed from
`directory->total` before that is set, so nothing is allocated for its items and the load is given up
(`loadFatDirectory_reads`); and whatever it returns is overwritten, for the union of the item gets the
pointer to the clone of the entry next.  So the pointer that is taken for a `Fat_Directory` designates
the 32 bytes of the entry: what would be the address of its array begins with the first character of
the name, which no address of a heap block does (`not_blockAt_of_first`).

What is wanted is `SubdirectoryLoaded`: an item that designates a directory with the entries that
its chain holds, or, if loading fails, nothing that stays allocated.  Neither is ever the case,
whichever the entries are (`subdirectory_never_loaded`); `SUB`, with the file `A` in it, is an
example.
-/
import KokoOs.Fat16Volume

namespace KokoOs

open Bytes Prog

/-! ## 1. What is wanted -/

/-- The chain that begins at `c` holds the entries, and an end marker behind them: entry `i` is in
cluster `32 * i / clusterBytes` of the chain. -/
structure ChainHolds (image : Mem) (header : FatHeader) (c : Nat)
    (entries : List FatDirectoryItem) : Prop where
  entry : ∀ i (h : i < entries.length), ∃ a,
    ChainTo image header (32 * i / clusterBytes header) c a ∧
    entries[i] = itemAt image (clusterStart header a + 32 * i % clusterBytes header) ∧
    image (clusterStart header a + 32 * i % clusterBytes header) ≠ 0
  marker : ∃ a, ChainTo image header (32 * entries.length / clusterBytes header) c a ∧
    image (clusterStart header a + 32 * entries.length % clusterBytes header) = 0

/-- At `directory` there is a `Fat_Directory` with the entries: its `item` is an array that has been
allocated, its `total` the number of them. -/
structure DesignatesDirectory (a : Arena) (directory : Nat) (entries : List FatDirectoryItem) :
    Prop where
  notNull : directory ≠ 0
  array : ∃ b, u32 a.mem directory = blockAt b ∧ heapEntryIsFree (a.heap.table.entry b) = false
  total : u32 a.mem (directory + 4) = entries.length
  items : ∀ i (h : i < entries.length), slice a.mem (u32 a.mem directory + 32 * i) 32 = entries[i]

/-- Making an item for a subdirectory that holds the entries gives an item that designates a directory
with them, or, if loading fails, leaves nothing allocated that was not before. -/
def SubdirectoryLoaded (s : Sys) (dirItem : FatDirectoryItem) (entries : List FatDirectoryItem) :
    Prop :=
  ∃ r s', fat16NewFatItemForDirectoryItem primaryDisk dirItem s = .ok r s' ∧
    ((∃ item, r = some item ∧ item.type = .directory ∧
        DesignatesDirectory s'.arena item.itemAddress entries) ∨
      ∀ b, Held s'.arena b → Held s.arena b)

section

variable {s s' : Sys} {p : FatPrivate} {dirItem : FatDirectoryItem}

/-! ## 2. What is done -/

/-- The item of a subdirectory designates the clone of its entry. -/
theorem newFatItem_clone (hsub : dirItem.isSubdirectory = true) {r : Option FatItem}
    (h : fat16NewFatItemForDirectoryItem primaryDisk dirItem s = .ok r s') {item : FatItem}
    (hitem : r = some item) :
    ∃ s1, fat16CloneDirectoryItem dirItem 32 s1 = .ok item.itemAddress s' := by
  unfold fat16NewFatItemForDirectoryItem at h
  obtain ⟨address, s1, -, h⟩ := (bind_ok_iff _ _ _ _ _).mp h
  split at h
  · obtain ⟨rfl, -⟩ := (pure_ok_iff _ _ _ _).mp h
    cases hitem
  · obtain ⟨_, s2, -, h⟩ := (bind_ok_iff _ _ _ _ _).mp h
    obtain ⟨q, s3, hclone, h⟩ := (bind_ok_iff _ _ _ _ _).mp h
    obtain ⟨rfl, rfl⟩ := (pure_ok_iff _ _ _ _).mp h
    cases hitem
    exact ⟨s2, hclone⟩

/-- The clone begins with the first character of the name. -/
theorem cloneDirectoryItem_first {q : Nat}
    (h : fat16CloneDirectoryItem dirItem 32 s = .ok q s') (hq : q ≠ 0)
    (hfirst : literal dirItem 0 ≠ 0) : s'.arena.mem q = literal dirItem 0 := by
  unfold fat16CloneDirectoryItem at h
  rw [if_neg (by omega)] at h
  obtain ⟨q', s1, -, h⟩ := (bind_ok_iff _ _ _ _ _).mp h
  split at h
  · obtain ⟨rfl, -⟩ := (pure_ok_iff _ _ _ _).mp h
    exact absurd rfl hq
  · obtain ⟨_, s2, hstore, h⟩ := (bind_ok_iff _ _ _ _ _).mp h
    obtain rfl := (modify_ok_iff _ _ _ _).mp hstore
    obtain ⟨rfl, rfl⟩ := (pure_ok_iff _ _ _ _).mp h
    cases dirItem with
    | nil => exact absurd rfl hfirst
    | cons c rest => exact blit_add (i := 0) (by simp)

/-- No heap block has an address whose first byte is not 0. -/
theorem not_blockAt_of_first {m : Mem} {x b : Nat} (hfirst : m x ≠ 0) : u32 m x ≠ blockAt b := by
  intro heq
  have hpos : (m x).toNat ≠ 0 := fun h0 => hfirst (UInt8.toNat_inj.mp h0)
  have hlt := (m x).toNat_lt
  unfold u32 u16 blockAt at heq
  simp only [memoryHeapStartAddress] at heq
  omega

/-- **The item of a subdirectory designates no directory**, whichever entries that is to hold. -/
theorem newFatItem_not_designates (hsub : dirItem.isSubdirectory = true)
    (hfirst : literal dirItem 0 ≠ 0) {item : FatItem}
    (hrun : fat16NewFatItemForDirectoryItem primaryDisk dirItem s = .ok (some item) s')
    (entries : List FatDirectoryItem) :
    ¬ DesignatesDirectory s'.arena item.itemAddress entries := by
  intro hdir
  obtain ⟨s1, hclone⟩ := newFatItem_clone hsub hrun rfl
  obtain ⟨b, harray, -⟩ := hdir.array
  have hname := cloneDirectoryItem_first hclone hdir.notNull hfirst
  exact not_blockAt_of_first (hname ▸ hfirst) harray

/-- **Making an item allocates something**: the item itself. -/
theorem newFatItem_allocates (hk : KernelHeap s.arena) (hm : Mounted s p) {r : Option FatItem}
    (hrun : fat16NewFatItemForDirectoryItem primaryDisk dirItem s = .ok r s') :
    ∃ b, Held s'.arena b ∧ ¬ Held s.arena b := by
  obtain ⟨-, ⟨item, -, -, b, c, -, -, -, hnew, -⟩, -⟩ :=
    (newFatItem_runs hk hm fun _ _ => trivial).value hrun
  exact ⟨b, hnew⟩

/-! ## 3. No subdirectory is ever loaded -/

/-- **A subdirectory is never loaded**: neither does its item designate a directory with the entries,
whichever these are, nor is nothing left of it. -/
theorem subdirectory_never_loaded (hk : KernelHeap s.arena) (hm : Mounted s p)
    (hsub : dirItem.isSubdirectory = true) (hfirst : literal dirItem 0 ≠ 0)
    (entries : List FatDirectoryItem) : ¬ SubdirectoryLoaded s dirItem entries := by
  rintro ⟨r, s', hrun, ⟨item, rfl, -, hdir⟩ | hnothing⟩
  · exact newFatItem_not_designates hsub hfirst hrun entries hdir
  · obtain ⟨b, hheld, hfresh⟩ := newFatItem_allocates hk hm hrun
    exact hfresh (hnothing b hheld)

end

/-- The entry of the directory `SUB`, in cluster 2. -/
def subItem : FatDirectoryItem :=
  [83, 85, 66, 32, 32, 32, 32, 32, 32, 32, 32, 16] ++ List.replicate 14 0 ++ [2, 0, 0, 0, 0, 0]

/-- The entry of the file `A` in it. -/
def innerItem : FatDirectoryItem :=
  [65, 32, 32, 32, 32, 32, 32, 32, 32, 32, 32, 0] ++ List.replicate 14 0 ++ [3, 0, 5, 0, 0, 0]

/-- A volume with that directory in its root directory. -/
def subdirectorySys : Sys := volumeSys
  (blit (blit (fun x => if x = 516 ∨ x = 517 then 0xFF else 0) 1536 subItem) 2048 innerItem)

theorem subdirectorySys_mounts : ∃ s p, fat16Resolve primaryDisk subdirectorySys = .ok ok s ∧
    KernelHeap s.arena ∧ Mounted s p ∧ p.header = ⟨1, 1, 2, 16, 1, 100, 41⟩ ∧
    s.ata.image = subdirectorySys.ata.image := by
  have hmount : Mountable subdirectorySys := by
    refine volumeSys_mountable (k := 1) (by decide) (by decide) fun j hj => ?_
    obtain rfl : j = 0 := by omega
    decide
  obtain ⟨s, p, hrun, hm, hacc, ht, hata, -⟩ := hmount.mounts (freshKernel_kernelHeap _) rfl rfl
  exact ⟨s, p, hrun, ht.kernel, hm, hacc.header.trans (volumeSys_header _), by rw [hata]⟩

/-- `SUB` is not loaded, whatever it is expected to hold. -/
theorem sub_never_loaded : ∃ s, fat16Resolve primaryDisk subdirectorySys = .ok ok s ∧
    ∀ entries, ¬ SubdirectoryLoaded s subItem entries := by
  obtain ⟨s, p, hrun, hk, hm, -⟩ := subdirectorySys_mounts
  exact ⟨s, hrun, subdirectory_never_loaded hk hm (by decide) (by decide)⟩

/-- **The chain of `SUB` holds the entry of `A` and an end marker, and `SUB` is not loaded.** -/
theorem subdirectory_not_loaded : ¬ ∀ (s : Sys) (p : FatPrivate) (dirItem : FatDirectoryItem)
    (entries : List FatDirectoryItem), KernelHeap s.arena → Mounted s p →
    dirItem.isSubdirectory = true → literal dirItem 0 ≠ 0 → 1 ≤ entries.length →
    ChainHolds s.ata.image p.header dirItem.low16BitsFirstCluster entries →
    SubdirectoryLoaded s dirItem entries := by
  intro hall
  obtain ⟨s, p, -, hk, hm, hhead, himage⟩ := subdirectorySys_mounts
  have hholds : ChainHolds s.ata.image p.header subItem.low16BitsFirstCluster [innerItem] := by
    rw [hhead, himage]
    refine ⟨fun i hi => ?_, 2, ChainTo.here 2, by decide⟩
    obtain rfl : i = 0 := Nat.lt_one_iff.mp hi
    refine ⟨2, ChainTo.here 2, ?_, by decide⟩
    change innerItem = itemAt subdirectorySys.ata.image 2048
    decide
  obtain ⟨r, s', hrun, ⟨item, rfl, -, hdir⟩ | hnothing⟩ :=
    hall s p subItem [innerItem] hk hm (by decide) (by decide) (Nat.le_refl 1) hholds
  · exact newFatItem_not_designates (by decide) (by decide) hrun _ hdir
  · obtain ⟨b, hheld, hfresh⟩ := newFatItem_allocates hk hm hrun
    exact hfresh (hnothing b hheld)

end KokoOs
