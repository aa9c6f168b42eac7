/-
# The files of a volume

A file is an item of a directory that has a first cluster; its data are in the clusters of its chain.
This file says what a volume is, as the table and the directories record it, and not as the driver
reads it.

* **Places.**  The table, the root directory and the clusters are apart (`Layout`, `InCluster`), and the
  driver computes where a cluster is (`Layout.clusterPos_eq`).
* **Well-formedness.**  No cluster is of two files, the items of a subdirectory are in its clusters, and
  those behind the end marker of the root directory are not used (`WellFormed`).
* **Storing.**  Bytes that are stored in the clusters of one file keep the volume well-formed, and
  all other files as they are (`WellFormed.store`).
* **Adding.**  So does an item that is added to the root directory, with a cluster that is free in
  the table and nobody's (`WellFormed.add`).

What other files keep is `OthersKept`: their items, and every byte of their clusters.
-/
import KokoOs.Fat16Chain
import KokoOs.Fat16Search

namespace KokoOs

open Bytes Prog

/-! ## 1. Where the clusters are -/

def clusterBytes (header : FatHeader) : Nat := 512 * header.sectorsPerCluster

/-- Where a cluster begins.  The first one has the number 2. -/
def clusterStart (header : FatHeader) (a : Nat) : Nat :=
  512 * dataSector header + (a - 2) * clusterBytes header

/-- A cluster whose bytes have positions of 32 bits. -/
def DataCluster (header : FatHeader) (a : Nat) : Prop :=
  2 ≤ a ∧ clusterStart header a + clusterBytes header ≤ 2 ^ 32

/-- The byte is one of the cluster. -/
def InCluster (header : FatHeader) (a x : Nat) : Prop :=
  clusterStart header a ≤ x ∧ x < clusterStart header a + clusterBytes header

/-- A header that a FAT16 volume can have. -/
structure Layout (header : FatHeader) : Prop where
  cluster : 0 < header.sectorsPerCluster
  copies : 0 < header.fatCopies
  entries : header.rootDirEntries % 16 = 0

section

variable {header : FatHeader} {a b x : Nat}

/-- No byte is of two clusters. -/
theorem InCluster.unique (ha : InCluster header a x) (hb : InCluster header b x) (ha2 : 2 ≤ a)
    (hb2 : 2 ≤ b) : a = b := by
  have hstep : ∀ {c d}, 2 ≤ c → c < d →
      clusterStart header c + clusterBytes header ≤ clusterStart header d := by
    intro c d hc hcd
    have hmul : (c - 2 + 1) * clusterBytes header ≤ (d - 2) * clusterBytes header :=
      Nat.mul_le_mul_right _ (by omega)
    rw [Nat.succ_mul] at hmul
    unfold clusterStart
    omega
  rcases Nat.lt_trichotomy a b with h | h | h
  · have hle := hstep ha2 h
    have := ha.2
    have := hb.1
    omega
  · exact h
  · have hle := hstep hb2 h
    have := ha.1
    have := hb.2
    omega

/-- The clusters are behind the root directory. -/
theorem InCluster.behind (h : InCluster header a x) : 512 * dataSector header ≤ x :=
  Nat.le_trans (Nat.le_add_right _ _) h.1

/-- The root directory is behind the table, and ends where the clusters begin. -/
theorem Layout.regions (h : Layout header) :
    512 * (header.reservedSectors + header.sectorsPerFat) ≤ rootPos header ∧
      rootPos header + 32 * header.rootDirEntries = 512 * dataSector header := by
  have hfat : header.sectorsPerFat ≤ header.fatCopies * header.sectorsPerFat :=
    Nat.le_mul_of_pos_left _ h.copies
  have hentries := h.entries
  unfold rootPos dataSector fat16RootDirectorySector
  omega

/-- The driver computes where a cluster of the volume is. -/
theorem Layout.clusterPos_eq {p : FatPrivate} (h : Layout p.header)
    (hend : p.rootDirectory.endingSectorPos = dataSector p.header) (ha : DataCluster p.header a) :
    clusterPos p a = clusterStart p.header a := by
  obtain ⟨b, rfl⟩ := Nat.exists_eq_add_of_le' ha.1
  have hlt := ha.2
  have hbytes : b * clusterBytes p.header = 512 * (b * p.header.sectorsPerCluster) := by
    unfold clusterBytes
    rw [Nat.mul_left_comm]
  have hpos : 0 < clusterBytes p.header := Nat.mul_pos (by omega) h.cluster
  unfold clusterPos
  unfold clusterStart at hlt ⊢
  rw [Nat.add_sub_cancel, hbytes] at hlt ⊢
  rw [fat16ClusterToSector_add_two, hend]
  omega

end

/-! ## 2. Files -/

/-- The item at byte `x` of the disk. -/
def itemAt (image : Mem) (x : Nat) : FatDirectoryItem := slice image x 32

/-- Where item `j` of the root directory is. -/
def rootSlot (header : FatHeader) (j : Nat) : Nat := rootPos header + 32 * j

/-- An item of the root directory is at `x`: neither it nor one before it is the end marker. -/
def RootItem (image : Mem) (header : FatHeader) (x : Nat) : Prop :=
  ∃ j < header.rootDirEntries, x = rootSlot header j ∧ ∀ i ≤ j, image (rootSlot header i) ≠ 0

/-- An item of a directory is at `x`.  Those of subdirectories, without `.` and `..`, are at the bytes
`sub`. -/
def Listed (image : Mem) (header : FatHeader) (sub : Set Nat) (x : Nat) : Prop :=
  RootItem image header x ∨ x ∈ sub

/-- The item at `x` is a file with data, or a subdirectory: it is not deleted, and has a first
cluster. -/
structure HasFile (image : Mem) (header : FatHeader) (sub : Set Nat) (x : Nat) : Prop where
  listed : Listed image header sub x
  kept : image x ≠ 0xE5
  first : (itemAt image x).low16BitsFirstCluster ≠ 0

/-- Cluster `a` is in the chain of the item at `x`. -/
def HasCluster (image : Mem) (header : FatHeader) (x a : Nat) : Prop :=
  ∃ k, ChainTo image header k (itemAt image x).low16BitsFirstCluster a

/-- The cluster is free in the table. -/
def EntryFree (image : Mem) (header : FatHeader) (a : Nat) : Prop :=
  InTable header a ∧ tableWord image header a = 0

/-- A well-formed volume whose subdirectories have the items at `sub`: the items behind the end marker
of the root directory are not used, those of a subdirectory are in its clusters, the clusters of
files are clusters of the volume, and none is of two files.  Only the first cluster of a file may
be free in the table: the driver does not record it there. -/
structure WellFormed (image : Mem) (header : FatHeader) (sub : Set Nat) : Prop where
  unused : ∀ i j, i < j → j < header.rootDirEntries → image (rootSlot header i) = 0 →
    image (rootSlot header j) = 0
  inside : ∀ x ∈ sub, ∃ d a, HasFile image header sub d ∧ (itemAt image d).isSubdirectory = true ∧
    HasCluster image header d a ∧ ∀ i < 32, InCluster header a (x + i)
  clusters : ∀ x a, HasFile image header sub x → HasCluster image header x a → DataCluster header a
  taken : ∀ x a, HasFile image header sub x → HasCluster image header x a →
    EntryFree image header a → a = (itemAt image x).low16BitsFirstCluster
  apart : ∀ x y a, HasFile image header sub x → HasFile image header sub y →
    HasCluster image header x a → HasCluster image header y a → x = y

/-- Between two images no item of a directory changes, and no byte of a file with another first cluster
than `c`. -/
structure OthersKept (image image' : Mem) (header : FatHeader) (sub : Set Nat) (c : Nat) : Prop where
  items : ∀ x, Listed image header sub x → itemAt image' x = itemAt image x
  data : ∀ x a, HasFile image header sub x → (itemAt image x).low16BitsFirstCluster ≠ c →
    HasCluster image header x a → ∀ y, InCluster header a y → image' y = image y

section

variable {image image' : Mem} {header : FatHeader} {sub : Set Nat} {k x y a c : Nat}

theorem HasCluster.here (image : Mem) (header : FatHeader) (x : Nat) :
    HasCluster image header x (itemAt image x).low16BitsFirstCluster := ⟨0, ChainTo.here _⟩

/-- A chain that begins with a free cluster has no other one. -/
theorem ChainTo.of_free (hc : ChainTo image header k c a) (hfree : EntryFree image header c) :
    a = c := by
  cases hc with
  | here => rfl
  | link hin hlink hrest => exact absurd (Or.inl hfree.2) hlink

/-- The bytes of an item of a subdirectory are behind the root directory. -/
theorem WellFormed.sub_behind (h : WellFormed image header sub) (hx : x ∈ sub) :
    512 * dataSector header ≤ x := by
  obtain ⟨d, a, -, -, -, hin⟩ := h.inside x hx
  exact (hin 0 (by omega)).behind

/-! ## 3. What stays -/

/-- Two images have the same 32 bytes at `x`. -/
def SameItem (image image' : Mem) (x : Nat) : Prop := ∀ i < 32, image' (x + i) = image (x + i)

theorem SameItem.symm (h : SameItem image image' x) : SameItem image' image x :=
  fun i hi => (h i hi).symm

theorem SameItem.head (h : SameItem image image' x) : image' x = image x := h 0 (by omega)

theorem SameItem.itemAt (h : SameItem image image' x) : itemAt image' x = itemAt image x :=
  slice_congr h

theorem SameItem.hasFile (h : SameItem image image' x) (hx : HasFile image header sub x)
    (hlisted : Listed image' header sub x) : HasFile image' header sub x := by
  refine ⟨hlisted, ?_, ?_⟩
  · rw [h.head]
    exact hx.kept
  · rw [h.itemAt]
    exact hx.first

/-- Two images have the same table. -/
def SameTable (image image' : Mem) (header : FatHeader) : Prop :=
  ∀ x < 512 * (header.reservedSectors + header.sectorsPerFat), image' x = image x

theorem SameTable.symm (h : SameTable image image' header) : SameTable image' image header :=
  fun x hx => (h x hx).symm

theorem SameTable.hasCluster (h : SameTable image image' header) (hitem : SameItem image image' x)
    (hx : HasCluster image header x a) : HasCluster image' header x a := by
  obtain ⟨k, hk⟩ := hx
  refine ⟨k, ?_⟩
  rw [hitem.itemAt]
  exact hk.congr h

theorem SameTable.entryFree (h : SameTable image image' header) (ha : EntryFree image header a) :
    EntryFree image' header a := by
  obtain ⟨hin, hword⟩ := ha
  refine ⟨hin, ?_⟩
  unfold InTable at hin
  rw [← hword]
  exact u16_congr (h _ (by omega)) (h _ (by omega))

/-! ## 4. Storing bytes in the clusters of a file -/

/-- Two images are the same up to the first cluster, and have the same items in subdirectories. -/
structure SameItems (image image' : Mem) (header : FatHeader) (sub : Set Nat) : Prop where
  root : ∀ x < 512 * dataSector header, image' x = image x
  sub : ∀ x ∈ sub, SameItem image image' x

theorem SameItems.symm (h : SameItems image image' header sub) : SameItems image' image header sub :=
  ⟨fun x hx => (h.root x hx).symm, fun x hx => (h.sub x hx).symm⟩

theorem SameItems.sameTable (h : SameItems image image' header sub) (hl : Layout header) :
    SameTable image image' header := fun x hx => h.root x (by have := hl.regions; omega)

theorem SameItems.slot (h : SameItems image image' header sub) (hl : Layout header) {j : Nat}
    (hj : j < header.rootDirEntries) : SameItem image image' (rootSlot header j) := fun i hi =>
  h.root _ (by have := hl.regions; unfold rootSlot; omega)

theorem SameItems.item (h : SameItems image image' header sub) (hl : Layout header)
    (hx : Listed image header sub x) : SameItem image image' x ∧ Listed image' header sub x := by
  rcases hx with ⟨j, hj, rfl, hused⟩ | hx
  · refine ⟨h.slot hl hj, Or.inl ⟨j, hj, rfl, fun i hi => ?_⟩⟩
    rw [(h.slot hl (by omega)).head]
    exact hused i hi
  · exact ⟨h.sub x hx, Or.inr hx⟩

theorem SameItems.hasFile (h : SameItems image image' header sub) (hl : Layout header)
    (hx : HasFile image header sub x) : HasFile image' header sub x := by
  obtain ⟨hsame, hlisted⟩ := h.item hl hx.listed
  exact hsame.hasFile hx hlisted

theorem SameItems.hasCluster (h : SameItems image image' header sub) (hl : Layout header)
    (hx : HasFile image header sub x) (ha : HasCluster image header x a) :
    HasCluster image' header x a := (h.sameTable hl).hasCluster (h.item hl hx.listed).1 ha

/-- **A volume stays well-formed if its table and its items stay.** -/
theorem WellFormed.congr (hw : WellFormed image header sub) (hl : Layout header)
    (h : SameItems image image' header sub) : WellFormed image' header sub := by
  have hfile : ∀ {x}, HasFile image' header sub x → HasFile image header sub x :=
    fun hx => h.symm.hasFile hl hx
  have hcluster : ∀ {x a}, HasFile image' header sub x → HasCluster image' header x a →
      HasCluster image header x a := fun hx ha => h.symm.hasCluster hl hx ha
  refine ⟨fun i j hij hj hzero => ?_, fun x hx => ?_,
    fun x a hx ha => hw.clusters x a (hfile hx) (hcluster hx ha), fun x a hx ha hfree => ?_,
    fun x y a hx hy hxa hya =>
      hw.apart x y a (hfile hx) (hfile hy) (hcluster hx hxa) (hcluster hy hya)⟩
  · rw [(h.slot hl (hij.trans hj)).head] at hzero
    rw [(h.slot hl hj).head]
    exact hw.unused i j hij hj hzero
  · obtain ⟨d, a, hd, hdir, ha, hin⟩ := hw.inside x hx
    refine ⟨d, a, h.hasFile hl hd, ?_, h.hasCluster hl hd ha, hin⟩
    rw [(h.item hl hd.listed).1.itemAt]
    exact hdir
  · rw [← (h.symm.item hl hx.listed).1.itemAt]
    exact hw.taken x a (hfile hx) (hcluster hx ha) ((h.sameTable hl).symm.entryFree hfree)

/-- Bytes that are stored in the clusters of one file are no bytes of any other. -/
theorem WellFormed.stored_apart (hw : WellFormed image header sub) (hx : HasFile image header sub x)
    (h : ∀ z, image' z ≠ image z → ∃ a, HasCluster image header x a ∧ InCluster header a z)
    (hy : HasFile image header sub y) (hne : y ≠ x) (ha : HasCluster image header y a) {z : Nat}
    (hz : InCluster header a z) : image' z = image z := by
  by_contra hdiff
  obtain ⟨b, hb, hbz⟩ := h z hdiff
  obtain rfl := hz.unique hbz (hw.clusters y a hy ha).1 (hw.clusters x b hx hb).1
  exact hne (hw.apart y x a hy hx ha hb)

/-- **Bytes that are stored in the clusters of a file change no item**: items are in the root directory and
in the clusters of subdirectories. -/
theorem WellFormed.stored_items (hw : WellFormed image header sub) (hx : HasFile image header sub x)
    (hfile : (itemAt image x).isSubdirectory = false)
    (h : ∀ z, image' z ≠ image z → ∃ a, HasCluster image header x a ∧ InCluster header a z) :
    SameItems image image' header sub := by
  refine ⟨fun z hz => ?_, fun y hy i hi => ?_⟩
  · by_contra hdiff
    obtain ⟨a, -, haz⟩ := h z hdiff
    have hbehind := haz.behind
    omega
  · obtain ⟨d, a, hd, hdir, ha, hin⟩ := hw.inside y hy
    refine hw.stored_apart hx h hd ?_ ha (hin i hi)
    rintro rfl
    rw [hfile] at hdir
    cases hdir

/-- **Storing bytes in the clusters of a file** keeps a volume well-formed, and the other files as they
are. -/
theorem WellFormed.store (hw : WellFormed image header sub) (hl : Layout header)
    (hx : HasFile image header sub x) (hfile : (itemAt image x).isSubdirectory = false)
    (h : ∀ z, image' z ≠ image z → ∃ a, HasCluster image header x a ∧ InCluster header a z) :
    WellFormed image' header sub ∧
      OthersKept image image' header sub (itemAt image x).low16BitsFirstCluster := by
  have hsame := hw.stored_items hx hfile h
  refine ⟨hw.congr hl hsame, fun y hy => (hsame.item hl hy).1.itemAt,
    fun y a hy hne ha z hz => hw.stored_apart hx h hy ?_ ha hz⟩
  rintro rfl
  exact hne rfl

/-! ## 5. Adding a file -/

/-- `image'` is `image` with the item of a new file in slot `k`, the end marker, and bytes in its
cluster `c`, which is free in the table and is the first cluster of no file. -/
structure Adds (image image' : Mem) (header : FatHeader) (sub : Set Nat) (k c : Nat) : Prop where
  slot : k < header.rootDirEntries
  ending : ItemEnd image (rootPos header) k
  data : DataCluster header c
  free : EntryFree image header c
  fresh : ∀ x, HasFile image header sub x → (itemAt image x).low16BitsFirstCluster ≠ c
  item : (itemAt image' (rootSlot header k)).low16BitsFirstCluster = c
  changes : ∀ x, image' x ≠ image x →
    rootSlot header k ≤ x ∧ x < rootSlot header k + 32 ∨ InCluster header c x

/-- Below the clusters, only the new item changes. -/
theorem Adds.same (h : Adds image image' header sub k c) (hx : x < 512 * dataSector header)
    (hout : x < rootSlot header k ∨ rootSlot header k + 32 ≤ x) : image' x = image x := by
  by_contra hdiff
  rcases h.changes x hdiff with hin | hin
  · omega
  · have hbehind := hin.behind
    omega

theorem Adds.sameTable (h : Adds image image' header sub k c) (hl : Layout header) :
    SameTable image image' header := fun x hx => by
  have hregions := hl.regions
  exact h.same (by omega) (Or.inl (by unfold rootSlot; omega))

/-- All slots but the new one stay. -/
theorem Adds.sameSlot (h : Adds image image' header sub k c) (hl : Layout header) {j : Nat}
    (hj : j < header.rootDirEntries) (hne : j ≠ k) : SameItem image image' (rootSlot header j) := by
  intro i hi
  have hregions := hl.regions
  unfold rootSlot at *
  exact h.same (by omega) (by unfold rootSlot; omega)

/-- The cluster of the new file is of no file that there was. -/
theorem Adds.not_hasCluster (h : Adds image image' header sub k c) (hw : WellFormed image header sub)
    (hx : HasFile image header sub x) : ¬ HasCluster image header x c :=
  fun hc => h.fresh x hx (hw.taken x c hx hc h.free).symm

/-- The data of the files that there were stay. -/
theorem Adds.sameData (h : Adds image image' header sub k c) (hl : Layout header)
    (hw : WellFormed image header sub) (hx : HasFile image header sub x)
    (ha : HasCluster image header x a) {z : Nat} (hz : InCluster header a z) :
    image' z = image z := by
  have hregions := hl.regions
  have hslot := h.slot
  have hbehind := hz.behind
  by_contra hdiff
  rcases h.changes z hdiff with hin | hin
  · unfold rootSlot at hin
    omega
  · obtain rfl := hz.unique hin (hw.clusters x a hx ha).1 h.data.1
    exact h.not_hasCluster hw hx ha

/-- **The items that there were stay.** -/
theorem Adds.item_kept (h : Adds image image' header sub k c) (hl : Layout header)
    (hw : WellFormed image header sub) (hx : Listed image header sub x) :
    x ≠ rootSlot header k ∧ SameItem image image' x ∧ Listed image' header sub x := by
  have hregions := hl.regions
  have hslot := h.slot
  rcases hx with ⟨j, hj, rfl, hused⟩ | hx
  · have hlt : j < k := by
      by_contra hle
      exact hused k (by omega) h.ending.marker
    refine ⟨by unfold rootSlot; omega, h.sameSlot hl hj (by omega), Or.inl ⟨j, hj, rfl, fun i hi => ?_⟩⟩
    rw [(h.sameSlot hl (by omega) (by omega)).head]
    exact hused i hi
  · obtain ⟨d, a, hd, -, ha, hin⟩ := hw.inside x hx
    have hbehind := hw.sub_behind hx
    exact ⟨by unfold rootSlot; omega, fun i hi => h.sameData hl hw hd ha (hin i hi), Or.inr hx⟩

/-- **The files are those there were, and perhaps the new one.** -/
theorem Adds.hasFile (h : Adds image image' header sub k c) (hl : Layout header)
    (hw : WellFormed image header sub) (hx : HasFile image' header sub x) :
    x = rootSlot header k ∨ SameItem image image' x ∧ HasFile image header sub x := by
  have hregions := hl.regions
  have hslot := h.slot
  rcases hx.listed with ⟨j, hj, rfl, hused⟩ | hsub
  · rcases Nat.lt_trichotomy j k with hlt | rfl | hgt
    · have hsame := h.sameSlot hl hj (by omega)
      refine Or.inr ⟨hsame, hsame.symm.hasFile hx (Or.inl ⟨j, hj, rfl, fun i hi => ?_⟩)⟩
      have hi' : i < header.rootDirEntries := by omega
      rw [← (h.sameSlot hl hi' (by omega)).head]
      exact hused i hi
    · exact Or.inl rfl
    · -- the item behind the new one is not used
      refine absurd ?_ (hused j (Nat.le_refl j))
      rw [(h.sameSlot hl hj (by omega)).head]
      exact hw.unused k j hgt hj h.ending.marker
  · have hsame := (h.item_kept hl hw (Or.inr hsub)).2.1
    exact Or.inr ⟨hsame, hsame.symm.hasFile hx (Or.inr hsub)⟩

/-- The clusters of the new file. -/
theorem Adds.hasCluster (h : Adds image image' header sub k c) (hl : Layout header)
    (ha : HasCluster image' header (rootSlot header k) a) : a = c := by
  obtain ⟨n, hchain⟩ := ha
  rw [h.item] at hchain
  exact hchain.of_free ((h.sameTable hl).entryFree h.free)

/-- **Adding a file** keeps a volume well-formed, and all files that there were as they are. -/
theorem WellFormed.add (hw : WellFormed image header sub) (hl : Layout header)
    (h : Adds image image' header sub k c) :
    WellFormed image' header sub ∧ OthersKept image image' header sub 0 := by
  have hslot := h.slot
  have htable := h.sameTable hl
  have hback : ∀ {x a}, SameItem image image' x → HasCluster image' header x a →
      HasCluster image header x a := fun hx ha => htable.symm.hasCluster hx.symm ha
  refine ⟨⟨fun i j hij hj hzero => ?_, fun x hx => ?_, fun x a hx ha => ?_, fun x a hx ha hfree => ?_,
    fun x y a hx hy hxa hya => ?_⟩, fun x hx => (h.item_kept hl hw hx).2.1.itemAt,
    fun x a hx _ ha z hz => h.sameData hl hw hx ha hz⟩
  · -- behind the new item nothing has changed
    have hi : k ≤ i := by
      by_contra hlt
      rw [(h.sameSlot hl (by omega) (by omega)).head] at hzero
      exact h.ending.items i (by omega) hzero
    rw [(h.sameSlot hl hj (by omega)).head]
    exact hw.unused k j (by omega) hj h.ending.marker
  · obtain ⟨d, a, hd, hdir, ha, hin⟩ := hw.inside x hx
    obtain ⟨-, hsame, hlisted⟩ := h.item_kept hl hw hd.listed
    refine ⟨d, a, hsame.hasFile hd hlisted, ?_, htable.hasCluster hsame ha, hin⟩
    rw [hsame.itemAt]
    exact hdir
  · rcases h.hasFile hl hw hx with rfl | ⟨hsame, hx⟩
    · exact h.hasCluster hl ha ▸ h.data
    · exact hw.clusters x a hx (hback hsame ha)
  · rcases h.hasFile hl hw hx with rfl | ⟨hsame, hx⟩
    · exact (h.hasCluster hl ha).trans h.item.symm
    · rw [hsame.itemAt]
      exact hw.taken x a hx (hback hsame ha) (htable.symm.entryFree hfree)
  · rcases h.hasFile hl hw hx with rfl | ⟨hsx, hx⟩ <;> rcases h.hasFile hl hw hy with rfl | ⟨hsy, hy⟩
    · rfl
    · exact absurd (h.hasCluster hl hxa ▸ hback hsy hya) (h.not_hasCluster hw hy)
    · exact absurd (h.hasCluster hl hya ▸ hback hsx hxa) (h.not_hasCluster hw hx)
    · exact hw.apart x y a hx hy (hback hsx hxa) (hback hsy hya)

end

end KokoOs
