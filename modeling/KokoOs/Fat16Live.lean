/-
# Live entries of the root directory

A directory entry whose first byte is 0xE5 has been deleted.  `fat16_get_total_items_for_directory` means
to leave such entries out, but it compares a signed character with 0xE5, which no character equals; so
they are counted like any other, and `fat16_find_item_in_directory`, which skips nothing either, goes
through as many entries as were counted.

* **The search.**  `findLoop_named` says what the lookup gives on any loaded directory: an item of the
  *last* entry of the name (`LastNamed`), whatever the entries are, as long as it returns.
* **What is loaded.**  The number of sectors to read is passed in eight bits, so of a root directory of
  more than 4096 entries only the first sectors are loaded.  As long as the sector of the end marker is
  among them (`MarkerLoaded`), the entries before the marker are loaded as they are on the disk, and have
  the same names, since no name is rendered past the NUL of the marker (`RootOf.sees`).
* **The result.**  The driver counts and finds the live entries, and no others, if and only if no entry
  before the end marker is deleted (`live_only_iff`).

The root directory of `deletedSys` has one entry, which is deleted and counted
(`deleted_entry_counted`).
-/
import KokoOs.Fat16Volume

namespace KokoOs

open Bytes Prog

/-! ## 1. Live entries -/

/-- The entry in slot `j`, before the end marker in slot `k`, is not deleted. -/
def LiveSlot (image : Mem) (header : FatHeader) (k j : Nat) : Prop :=
  j < k ∧ image (rootSlot header j) ≠ 0xE5

/-- How many entries before the end marker in slot `k` are live. -/
def liveCount (image : Mem) (header : FatHeader) (k : Nat) : Nat :=
  ((List.range k).filter fun j => image (rootSlot header j) ≠ 0xE5).length

/-- The name in slot `j` of the root directory, as the driver renders it, is `bytes` up to upper and
lower case. -/
def SlotNamed (image : Mem) (header : FatHeader) (j : Nat) (bytes : List UInt8) : Prop :=
  ∃ name, fat16GetFullRelativeFilename
      (slice image (rootSlot header j) (32 * (header.rootDirEntries - j))) = some name ∧
    name.map strToLower = bytes.map strToLower

/-- No entry before the end marker is deleted. -/
def NoneDeleted (image : Mem) (header : FatHeader) (k : Nat) : Prop :=
  ∀ j < k, image (rootSlot header j) ≠ 0xE5

/-- A name that is looked up: its bytes are in objects of the heap, or outside the heap and not where
the driver has its buffers. -/
structure NameString (a : Arena) (name : Nat) (bytes : List UInt8) : Prop where
  str : CString a.mem name bytes
  nz : 0 ∉ bytes
  short : bytes.length < 65536
  kept : ∀ i ≤ bytes.length,
    (∃ b, Held a b ∧ blockAt b ≤ name + i ∧ name + i < blockAt b + 4096) ∨
      (OutsideHeap (name + i) ∧ name + i ∉ stackRange)

/-- A lookup of the name can go through the entries of the root directory of `image`, up to the end marker
in slot `k`: all their names end, the heap has the blocks for an item of each, and those of the name that
are directories end. -/
structure CanLookUp (image : Mem) (s : Sys) (p : FatPrivate) (k : Nat) (bytes : List UInt8) : Prop where
  room : 3 * k ≤ (freeBlocks s.arena.heap).card
  renders : ∀ j < k, fat16GetFullRelativeFilename
    (slice image (rootSlot p.header j) (32 * (p.header.rootDirEntries - j))) ≠ none
  directories : ∀ j < k, SlotNamed image p.header j bytes →
    (itemAt image (rootSlot p.header j)).isSubdirectory = true →
      DirectoryEnds s.ata p (itemAt image (rootSlot p.header j))

/-- The driver counts and finds the live entries of the root directory on the disk of `s0`, whose end
marker is in slot `k`: when it mounts it, in every later scan, and in every lookup.  A scan returns
unless the heap is full, and a lookup if it can go through the entries. -/
structure LiveOnly (s0 : Sys) (p : FatPrivate) (k : Nat) : Prop where
  total : p.rootDirectory.total = liveCount s0.ata.image p.header k
  scan : ∀ s, KernelHeap s.arena → Mounted s p → s.ata = s0.ata →
    Runs (fun _ => (freeBlocks s.arena.heap).card = 0)
      (fat16GetTotalItemsForDirectory primaryDisk (fat16RootDirectorySector p.header)) s
      fun n _ => n = liveCount s0.ata.image p.header k
  lookup : ∀ s name bytes, KernelHeap s.arena → Mounted s p → NameString s.arena name bytes →
    Runs (fun _ => ¬ CanLookUp s0.ata.image s p k bytes)
      (fat16FindItemInDirectory primaryDisk p.rootDirectory name) s fun r _ =>
      (r ≠ none ↔ ∃ j, LiveSlot s0.ata.image p.header k j ∧
        SlotNamed s0.ata.image p.header j bytes) ∧
      ∀ item, r = some item → ∃ j, LiveSlot s0.ata.image p.header k j ∧
        SlotNamed s0.ata.image p.header j bytes ∧
        item.item = itemAt s0.ata.image (rootSlot p.header j)

section

variable {stop : Halt → Prop} {s s' : Sys} {p : FatPrivate} {image : Mem} {header : FatHeader} {k : Nat}

/-- All entries are live if none is deleted. -/
theorem liveCount_eq_iff : liveCount image header k = k ↔ NoneDeleted image header k := by
  have hlen := List.length_filter_eq_length_iff
    (l := List.range k) (p := fun j => decide (image (rootSlot header j) ≠ 0xE5))
  rw [List.length_range] at hlen
  refine hlen.trans ⟨fun h j hj => ?_, fun h j hj => ?_⟩
  · exact of_decide_eq_true (h j (List.mem_range.mpr hj))
  · exact decide_eq_true (h j (List.mem_range.mp hj))

/-! ## 2. The search -/

/-- A name stays what it is while the driver uses its buffers and makes objects. -/
theorem NameString.touches {a a' : Arena} {name : Nat} {bytes : List UInt8}
    (h : NameString a name bytes) (ht : Touches ∅ stackRange a a') : NameString a' name bytes where
  str := h.str.congr fun i hi => by
    rcases h.kept i hi with ⟨b, hb, hlo, hhi⟩ | ⟨hout, hstack⟩
    · have hbytes := ht.bytes b (Set.notMem_empty b) hb (name + i - blockAt b) (by omega)
      rwa [Nat.add_sub_cancel' hlo] at hbytes
    · exact ht.outside _ hout hstack
  nz := h.nz
  short := h.short
  kept i hi := (h.kept i hi).imp_left fun ⟨b, hb, hin⟩ => ⟨b, ht.held b (Set.notMem_empty b) hb, hin⟩

/-- The name of entry `j` of a loaded directory is `bytes` up to upper and lower case. -/
def EntryNamed (directory : FatDirectory) (j : Nat) (bytes : List UInt8) : Prop :=
  ∃ name, fat16GetFullRelativeFilename (directory.loaded.drop j).flatten = some name ∧
    name.map strToLower = bytes.map strToLower

/-- A search for the name can go through the entries from `i` to `n`. -/
structure Searchable (s : Sys) (p : FatPrivate) (directory : FatDirectory) (bytes : List UInt8)
    (i n : Nat) : Prop where
  room : 3 * (n - i) ≤ (freeBlocks s.arena.heap).card
  entries : ∀ j, i ≤ j → j < n → ∃ dirItem, directory.loaded[j]? = some dirItem ∧
    (EntryNamed directory j bytes → dirItem.isSubdirectory = true → DirectoryEnds s.ata p dirItem)
  renders : ∀ j, i ≤ j → j < n →
    fat16GetFullRelativeFilename (directory.loaded.drop j).flatten ≠ none

/-- An item can be made for the first of them, if it has the name. -/
theorem Searchable.canMake {directory : FatDirectory} {bytes : List UInt8} {i n : Nat}
    (h : Searchable s p directory bytes i n) (hi : i < n) {dirItem : FatDirectoryItem}
    (hget : directory.loaded[i]? = some dirItem) (hnamed : EntryNamed directory i bytes) :
    CanMake s p dirItem := by
  have hroom := h.room
  obtain ⟨dirItem', hget', hends⟩ := h.entries i (Nat.le_refl i) hi
  obtain rfl := Option.some_inj.mp (hget'.symm.trans hget)
  exact ⟨by omega, hends hnamed⟩

/-- After an item has been made the search can go on. -/
theorem Searchable.next {directory : FatDirectory} {bytes : List UInt8} {i n : Nat}
    (h : Searchable s p directory bytes i n) (hi : i < n) (hata : s'.ata = s.ata)
    (hcard : (freeBlocks s.arena.heap).card ≤ (freeBlocks s'.arena.heap).card + 3) :
    Searchable s' p directory bytes (i + 1) n := by
  have hroom := h.room
  refine ⟨by omega, fun j hlo hhi => ?_, fun j hlo hhi => h.renders j (Nat.le_of_succ_le hlo) hhi⟩
  rw [hata]
  exact h.entries j (Nat.le_of_succ_le hlo) hhi

/-- Entry `j` is the last one of the name among those from `i` to `n`. -/
structure LastNamed (directory : FatDirectory) (bytes : List UInt8) (i n j : Nat) : Prop where
  from_le : i ≤ j
  lt : j < n
  named : EntryNamed directory j bytes
  last : ∀ m, j < m → m < n → ¬ EntryNamed directory m bytes

/-- There is one last entry of a name at most. -/
theorem LastNamed.unique {directory : FatDirectory} {bytes : List UInt8} {i n j j' : Nat}
    (h : LastNamed directory bytes i n j) (h' : LastNamed directory bytes i n j') : j = j' := by
  rcases Nat.lt_trichotomy j j' with hlt | heq | hlt
  · exact absurd h'.named (h.last j' hlt h'.lt)
  · exact heq
  · exact absurd h.named (h'.last j hlt h.lt)

/-- What a search from entry `i` to `n` gives, that has begun with `item`: an item of the last entry of
the name, and still `item` if there is none. -/
inductive FoundNamed (directory : FatDirectory) (bytes : List UInt8) (i n : Nat)
    (item : Option FatItem) : Option FatItem → Prop
  | missing : (∀ j, i ≤ j → j < n → ¬ EntryNamed directory j bytes) →
      FoundNamed directory bytes i n item item
  | found {j : Nat} {dirItem : FatDirectoryItem} {x : FatItem} :
      LastNamed directory bytes i n j → directory.loaded[j]? = some dirItem → ItemOf dirItem x →
      FoundNamed directory bytes i n item (some x)

/-- An entry of the name is found, unless a later one is. -/
theorem FoundNamed.of_named {directory : FatDirectory} {bytes : List UInt8} {i n : Nat}
    {item r : Option FatItem} {x0 : FatItem} {dirItem : FatDirectoryItem}
    (h : FoundNamed directory bytes (i + 1) n (some x0) r) (hi : i < n)
    (hnamed : EntryNamed directory i bytes) (hget : directory.loaded[i]? = some dirItem)
    (hitem : ItemOf dirItem x0) : FoundNamed directory bytes i n item r := by
  cases h with
  | missing hnone => exact .found ⟨Nat.le_refl i, hi, hnamed, hnone⟩ hget hitem
  | found hlast hget' hitem' =>
    exact .found ⟨Nat.le_of_succ_le hlast.from_le, hlast.lt, hlast.named, hlast.last⟩ hget' hitem'

/-- An entry of another name is passed over. -/
theorem FoundNamed.of_other {directory : FatDirectory} {bytes : List UInt8} {i n : Nat}
    {item r : Option FatItem} (h : FoundNamed directory bytes (i + 1) n item r)
    (hother : ¬ EntryNamed directory i bytes) : FoundNamed directory bytes i n item r := by
  cases h with
  | missing hnone =>
    refine .missing fun j hlo hhi => ?_
    rcases Nat.eq_or_lt_of_le hlo with rfl | hlt
    · exact hother
    · exact hnone j hlt hhi
  | found hlast hget hitem =>
    exact .found ⟨Nat.le_of_succ_le hlast.from_le, hlast.lt, hlast.named, hlast.last⟩ hget hitem

/-- **The search goes through the entries one by one.** -/
theorem findLoop_named {directory : FatDirectory} {name : Nat} {bytes : List UInt8} {fuel i n : Nat}
    {item : Option FatItem} (hk : KernelHeap s.arena) (hm : Mounted s p)
    (hname : NameString s.arena name bytes) (hn : i + fuel = n)
    (hs : ¬ Searchable s p directory bytes i n → ∀ e, stop e) :
    Runs stop (fat16FindLoop primaryDisk directory name fuel i item) s fun r s' =>
      FoundNamed directory bytes i n item r ∧
      (freeBlocks s.arena.heap).card ≤ (freeBlocks s'.arena.heap).card + 3 * (n - i) := by
  induction fuel generalizing s i item with
  | zero =>
    exact Runs.pure ⟨.missing fun j hlo hhi => absurd hhi (by omega), Nat.le_add_right _ _⟩
  | succ fuel ih =>
    have hi : i < n := by omega
    have hnext : i + 1 + fuel = n := by omega
    unfold fat16FindLoop
    refine Runs.bind (orFault_runs fun hnone => hs fun h => ?_) ?_
    · obtain ⟨dirItem, hget, -⟩ := h.entries i (Nat.le_refl i) hi
      cases hget.symm.trans hnone
    rintro dirItem s1 ⟨hget, rfl⟩
    refine Runs.bind (orFault_runs fun hnone => hs fun h => h.renders i (Nat.le_refl i) hi hnone) ?_
    rintro tmp s2 ⟨htmp, rfl⟩
    obtain ⟨hnz, hlen⟩ := fullName_string htmp
    obtain ⟨cmp, hcmp, hiff⟩ := hname.str.strIcmp_eq hname.nz hname.short hnz (by omega)
    refine Runs.get_bind (Runs.bind (orHangs_runs fun hnone => ?_) ?_)
    · cases hcmp.symm.trans hnone
    rintro cmp' s3 ⟨hcmp', rfl⟩
    obtain rfl := Option.some_inj.mp (hcmp.symm.trans hcmp')
    split
    · next heq =>
      have hnamed : EntryNamed directory i bytes := ⟨tmp, htmp, hiff.mp heq⟩
      refine Runs.bind (newFatItem_runs hk hm fun hbad => hs fun h => hbad (h.canMake hi hget hnamed)) ?_
      rintro r1 s4 ⟨h4, ⟨x0, rfl, hitem, -⟩, hcard⟩
      refine (ih h4.kernel (h4.mounted hm) (hname.touches h4.touches) hnext
        fun hbad => hs fun h => hbad (h.next hi h4.ata hcard)).mono ?_
      rintro r s5 ⟨hfound, hcard5⟩
      exact ⟨hfound.of_named hi hnamed hget hitem, by omega⟩
    · next hne =>
      refine (ih hk hm hname hnext
        fun hbad => hs fun h => hbad (h.next hi rfl (Nat.le_add_right _ 3))).mono ?_
      rintro r s5 ⟨hfound, hcard5⟩
      refine ⟨hfound.of_other ?_, by omega⟩
      rintro ⟨tmp', htmp', hsame⟩
      obtain rfl := Option.some_inj.mp (htmp.symm.trans htmp')
      exact hne (hiff.mpr hsame)

/-! ## 3. The loaded root directory -/

/-- Pieces of 32 bytes, one behind the other, are one piece. -/
theorem flatten_slices (m : Mem) (pos : Nat) : ∀ (j n : Nat),
    ((List.range' j n).map fun i => slice m (pos + 32 * i) 32).flatten =
      slice m (pos + 32 * j) (32 * n)
  | _, 0 => rfl
  | j, n + 1 => by
    have hlen : 32 * (n + 1) = 32 + 32 * n := by omega
    have hpos : pos + 32 * (j + 1) = pos + 32 * j + 32 := by omega
    rw [List.range'_succ, List.map_cons, List.flatten_cons, flatten_slices m pos (j + 1) n, hlen,
      slice_add, hpos]

/-- The entries that are loaded are those of the disk. -/
theorem RootOf.loaded_eq {dir : FatDirectory} (h : RootOf image header dir)
    (hsector : fat16RootDirectorySector header < 2 ^ 23) (hentries : header.rootDirEntries ≤ 4096) :
    dir.loaded = (List.range header.rootDirEntries).map fun i => slice image (rootSlot header i) 32 := by
  refine List.ext_getElem? fun i => ?_
  rcases Nat.lt_or_ge i header.rootDirEntries with hi | hi
  · rw [h.loaded hsector hentries hi, List.getElem?_map, List.getElem?_range hi]
    rfl
  · rw [List.getElem?_eq_none (h.length ▸ hi), List.getElem?_eq_none (by simpa using hi)]

/-- From each entry on, the bytes are those on the disk. -/
theorem RootOf.loaded_drop {dir : FatDirectory} (h : RootOf image header dir)
    (hsector : fat16RootDirectorySector header < 2 ^ 23) (hentries : header.rootDirEntries ≤ 4096)
    (j : Nat) : (dir.loaded.drop j).flatten =
      slice image (rootSlot header j) (32 * (header.rootDirEntries - j)) := by
  rw [h.loaded_eq hsector hentries, ← List.map_drop, List.range_eq_range', List.drop_range']
  unfold rootSlot
  rw [flatten_slices, Nat.zero_add, Nat.mul_one]

/-- Entries of a larger root directory are loaded up to the last sector that is asked for. -/
theorem RootOf.loaded_front {dir : FatDirectory} (h : RootOf image header dir)
    (hsector : fat16RootDirectorySector header < 2 ^ 23) {j n : Nat}
    (hin : j + n ≤ header.rootDirEntries) (hasked : j + n ≤ 16 * (rootSectors header % 256)) :
    ∃ rest, (dir.loaded.drop j).flatten = slice image (rootSlot header j) (32 * n) ++ rest := by
  have htake : (dir.loaded.drop j).take n =
      (List.range' j n).map fun i => slice image (rootPos header + 32 * i) 32 := by
    refine List.ext_getElem? fun i => ?_
    rcases Nat.lt_or_ge i n with hi | hi
    · rw [List.getElem?_take_of_lt hi, List.getElem?_drop, h.front hsector _ (by omega) (by omega),
        List.getElem?_map, List.getElem?_range' hi, Nat.one_mul]
      rfl
    · rw [List.getElem?_eq_none (Nat.le_trans (List.length_take_le _ _) hi),
        List.getElem?_eq_none (by simpa using hi)]
  refine ⟨((dir.loaded.drop j).drop n).flatten, ?_⟩
  unfold rootSlot
  rw [← flatten_slices, ← htake, ← List.flatten_append, List.take_append_drop]

/-- What is copied of a name ends with a NUL, whatever is behind it. -/
theorem toProperString_front (front rest : List UInt8) :
    fat16ToProperString (front ++ 0 :: rest) =
      some (front.takeWhile fun c => c ≠ 0x00 ∧ c ≠ 0x20) := by
  have htake : (front ++ 0 :: rest).takeWhile (fun c => decide (c ≠ 0x00 ∧ c ≠ 0x20)) =
      front.takeWhile fun c => decide (c ≠ 0x00 ∧ c ≠ 0x20) := by
    rw [List.takeWhile_append]
    split
    · next hall =>
      rw [List.takeWhile_cons_of_neg (by decide), List.append_nil]
      exact (List.takeWhile_eq_self_iff.mpr (List.takeWhile_eq_self_iff.mp
        (List.IsPrefix.eq_of_length (List.takeWhile_prefix _) hall))).symm
    · rfl
  unfold fat16ToProperString
  rw [htake, if_pos]
  have hle := (List.takeWhile_prefix (l := front) fun c => decide (c ≠ 0x00 ∧ c ≠ 0x20)).length_le
  rw [List.length_append, List.length_cons]
  omega

/-- What is rendered of an entry that has a NUL behind its name does not depend on what follows the NUL. -/
theorem fullName_front {front : List UInt8} (h : 8 < front.length) (rest rest' : List UInt8) :
    fat16GetFullRelativeFilename (front ++ 0 :: rest) =
      fat16GetFullRelativeFilename (front ++ 0 :: rest') := by
  unfold fat16GetFullRelativeFilename
  rw [toProperString_front, toProperString_front, List.getElem?_append_left h,
    List.getElem?_append_left h, List.drop_append_of_le_length (Nat.le_of_lt h),
    List.drop_append_of_le_length (Nat.le_of_lt h), toProperString_front, toProperString_front]

/-- A name of one letter is rendered as it is. -/
theorem fullName_one {b : UInt8} (hb : b ≠ 0) (hb' : b ≠ 0x20) (rest : List UInt8) :
    fat16GetFullRelativeFilename ([b, 0, 0, 0, 0, 0, 0, 0, 0] ++ rest) = some [b] := by
  simp [fat16GetFullRelativeFilename, fat16ToProperString, hb, hb', kernelMaxPathSize]

/-! ## 4. What the driver sees of the root directory -/

/-- The sector of slot `k` is one of those that the driver asks for: all sectors of a root directory of
at most 4096 entries, and otherwise as many as their number is in eight bits. -/
def MarkerLoaded (header : FatHeader) (k : Nat) : Prop :=
  header.rootDirEntries ≤ 4096 ∨ k < 16 * (rootSectors header % 256)

/-- The entries before slot `k` are loaded as they are on the disk, and have the names that they have
there. -/
structure SeesSlots (image : Mem) (header : FatHeader) (dir : FatDirectory) (k : Nat) : Prop where
  item : ∀ j < k, j < header.rootDirEntries →
    dir.loaded[j]? = some (itemAt image (rootSlot header j))
  name : ∀ j < k, fat16GetFullRelativeFilename (dir.loaded.drop j).flatten =
    fat16GetFullRelativeFilename
      (slice image (rootSlot header j) (32 * (header.rootDirEntries - j)))

/-- **Up to an end marker that is loaded the driver sees what is on the disk.** -/
theorem RootOf.sees {dir : FatDirectory} (h : RootOf image header dir)
    (hsector : fat16RootDirectorySector header < 2 ^ 23) (hend : ItemEnd image (rootPos header) k)
    (hmarker : MarkerLoaded header k) : SeesSlots image header dir k := by
  by_cases hentries : header.rootDirEntries ≤ 4096
  · exact ⟨fun j _ hj => h.loaded hsector hentries hj, fun j _ => by rw [h.loaded_drop hsector hentries]⟩
  · have hasked := hmarker.resolve_left hentries
    have hk : k < header.rootDirEntries := by
      unfold rootSectors at hasked
      rw [affectedSectors_eq] at hasked
      omega
    refine ⟨fun j hj hlt => h.front hsector j hlt (by omega), fun j hj => ?_⟩
    obtain ⟨rest, hloaded⟩ := h.loaded_front hsector (j := j) (n := k - j + 1) (by omega) (by omega)
    -- the marker is behind the entries from `j` on
    have hfront : slice image (rootSlot header j) (32 * (k - j + 1)) =
        slice image (rootSlot header j) (32 * (k - j)) ++ 0 :: slice image (rootSlot header k + 1) 31 := by
      have hpos : rootSlot header j + 32 * (k - j) = rootSlot header k := by
        unfold rootSlot
        omega
      have hzero : slice image (rootSlot header k) 1 = [0] := congrArg (fun x => [x]) hend.marker
      rw [Nat.mul_succ, slice_add, hpos, slice_add image _ 1 31, hzero]
      rfl
    have hlen : 32 * (header.rootDirEntries - j) =
        32 * (k - j + 1) + 32 * (header.rootDirEntries - (k + 1)) := by omega
    rw [hloaded, hlen, slice_add, hfront, List.append_assoc, List.append_assoc, List.cons_append,
      List.cons_append]
    exact fullName_front (by rw [length_slice]; omega) _ _

section

variable {dir : FatDirectory} {bytes : List UInt8} {j : Nat}

theorem SeesSlots.entryNamed_iff (h : SeesSlots image header dir k) (hj : j < k) :
    EntryNamed dir j bytes ↔ SlotNamed image header j bytes := by
  unfold EntryNamed SlotNamed
  rw [h.name j hj]

/-- No name is rendered behind the last slot. -/
theorem slot_lt_of_renders (h : fat16GetFullRelativeFilename
    (slice image (rootSlot header j) (32 * (header.rootDirEntries - j))) ≠ none) :
    j < header.rootDirEntries := by
  by_contra hge
  have hzero : 32 * (header.rootDirEntries - j) = 0 := by omega
  rw [hzero] at h
  exact h rfl

/-- The entry in a slot is one that is loaded. -/
theorem SeesSlots.item_eq (h : SeesSlots image header dir k) (hlen : dir.loaded.length = header.rootDirEntries)
    (hj : j < k) {item : FatDirectoryItem} (hget : dir.loaded[j]? = some item) :
    item = itemAt image (rootSlot header j) :=
  Option.some_inj.mp (hget.symm.trans
    (h.item j hj (hlen ▸ (List.getElem?_eq_some_iff.mp hget).1)))

/-- A lookup that can go through the slots can go through what is loaded. -/
theorem CanLookUp.searchable (hcan : CanLookUp image s p k bytes)
    (h : SeesSlots image p.header dir k) : Searchable s p dir bytes 0 k where
  room := hcan.room
  entries j _ hj := ⟨_, h.item j hj (slot_lt_of_renders (hcan.renders j hj)), fun hnamed =>
    hcan.directories j hj ((h.entryNamed_iff hj).mp hnamed)⟩
  renders j _ hj := by
    rw [h.name j hj]
    exact hcan.renders j hj

end

/-! ## 5. When only live entries are counted and found -/

/-- On the disk that was mounted, the items of the root directory can be counted again. -/
theorem RootCounted.canScan (h : RootCounted s.ata p.header p.rootDirectory)
    (hroom : (freeBlocks s.arena.heap).card ≠ 0) : CanScan s (rootPos p.header) (2 ^ 27) :=
  ⟨_, h.1, h.2.1, h.2.2, hroom⟩

/-- Every later count of the root directory gives the number of the mount. -/
theorem RootCounted.scan_runs (h : RootCounted s.ata p.header p.rootDirectory)
    (hk : KernelHeap s.arena) (hm : Mounted s p) :
    Runs (fun _ => (freeBlocks s.arena.heap).card = 0)
      (fat16GetTotalItemsForDirectory primaryDisk (fat16RootDirectorySector p.header)) s
      fun n _ => n = p.rootDirectory.total := by
  refine (getTotalItems_scans hk hm fun hbad e => ?_).mono ?_
  · exact not_not.mp fun hroom => hbad (h.canScan hroom)
  · rintro n s' ⟨-, -, k, -, rfl, hend, -⟩
    rw [hend.unique h.2.1, Int.zero_add]

/-- If no entry is deleted, the live ones are counted and found. -/
theorem RootOf.liveOnly {s0 : Sys} (h : RootOf s0.ata.image p.header p.rootDirectory)
    (hcounted : RootCounted s0.ata p.header p.rootDirectory)
    (hend : ItemEnd s0.ata.image (rootPos p.header) k) (hmarker : MarkerLoaded p.header k)
    (hnone : NoneDeleted s0.ata.image p.header k) : LiveOnly s0 p k := by
  have hcount := liveCount_eq_iff.mpr hnone
  have htotal : p.rootDirectory.total = k := h.total k hend
  have hsector : fat16RootDirectorySector p.header < 2 ^ 23 := by
    have hfits := hend.fits
    unfold rootPos at hfits
    omega
  have hsees := h.sees hsector hend hmarker
  refine ⟨htotal.trans hcount.symm, fun s hk hm hata => ?_, fun s name bytes hk hm hname => ?_⟩
  · rw [hcount, ← htotal]
    exact RootCounted.scan_runs (hata ▸ hcounted) hk hm
  · refine (findLoop_named hk hm hname (Nat.zero_add _) fun hbad e hcan => ?_).mono ?_
    · rw [htotal] at hbad
      exact hbad (hcan.searchable hsees)
    rintro r s' ⟨hfound, -⟩
    rw [htotal] at hfound
    cases hfound with
    | missing hmissing =>
      refine ⟨⟨fun hr => absurd rfl hr, ?_⟩, fun x hx => by cases hx⟩
      rintro ⟨j, hlive, hnamed⟩
      exact absurd ((hsees.entryNamed_iff hlive.1).mpr hnamed)
        (hmissing j (Nat.zero_le j) hlive.1)
    | @found j dirItem x hlast hget hitem =>
      have hslot := (hsees.entryNamed_iff hlast.lt).mp hlast.named
      have hlive : LiveSlot s0.ata.image p.header k j := ⟨hlast.lt, hnone j hlast.lt⟩
      refine ⟨⟨fun _ => ⟨j, hlive, hslot⟩, fun _ => Option.some_ne_none x⟩, ?_⟩
      rintro x' hx
      cases hx
      exact ⟨j, hlive, hslot, hitem.item.trans (hsees.item_eq h.length hlast.lt hget)⟩

/-- **On a mounted volume whose root directory has an end marker only live entries are counted and found
if no entry before the marker is deleted** -- provided that the marker is in a sector that is loaded --,
**and only then.** -/
theorem live_only_iff {s0 : Sys} (hk : KernelHeap s0.arena) (hid : (s0.disks primaryDisk).id = 0)
    (hsize : (s0.disks primaryDisk).sectorSize = 512)
    (haccepted : fat16Resolve primaryDisk s0 = .ok ok s)
    (hend : ItemEnd s0.ata.image (rootPos (volumeHeader s0)) k) :
    ∃ p, (s.disks primaryDisk).fsPrivate = some p ∧ p.header = volumeHeader s0 ∧
      (MarkerLoaded (volumeHeader s0) k ∧ NoneDeleted s0.ata.image (volumeHeader s0) k →
        LiveOnly s0 p k) ∧
      (LiveOnly s0 p k → NoneDeleted s0.ata.image (volumeHeader s0) k) := by
  obtain ⟨-, p, hm, hacc, -⟩ :=
    Runs.value (fat16Resolve_runs hk hid hsize fun _ _ => trivial) haccepted
  have hroot := hacc.root
  have hcounted := hacc.counted
  refine ⟨p, hm.priv, hacc.header, ?_, fun h => ?_⟩
  · rw [← hacc.header] at hroot hcounted hend ⊢
    exact fun ⟨hmarker, hnone⟩ => hroot.liveOnly hcounted hend hmarker hnone
  · have htotal := h.total
    rw [hacc.header, hroot.total k hend] at htotal
    exact liveCount_eq_iff.mp htotal.symm

end

/-- A slot has the name of one letter that it begins with. -/
theorem slotNamed_one {image : Mem} {header : FatHeader} {j : Nat} {b : UInt8} (hb : b ≠ 0)
    (hb' : b ≠ 0x20) (hj : j < header.rootDirEntries)
    (hname : slice image (rootSlot header j) 9 = [b, 0, 0, 0, 0, 0, 0, 0, 0]) :
    SlotNamed image header j [b] := by
  have hlen : 32 * (header.rootDirEntries - j) = 9 + (32 * (header.rootDirEntries - j) - 9) := by omega
  refine ⟨[b], ?_, rfl⟩
  rw [hlen, slice_add, hname]
  exact fullName_one hb hb' _

/-- Behind the boot sector: a root directory with the files `A` and `B`. -/
def twoFiles : Mem := fun x => if x = 1536 then 65 else if x = 1568 then 66 else 0

/-- **Both files are counted and found.** -/
theorem live_only_two : ∃ s p, fat16Resolve primaryDisk (volumeSys twoFiles) = .ok ok s ∧
    (s.disks primaryDisk).fsPrivate = some p ∧ LiveOnly (volumeSys twoFiles) p 2 ∧
    liveCount (volumeSys twoFiles).ata.image p.header 2 = 2 ∧
    SlotNamed (volumeSys twoFiles).ata.image p.header 0 [65] ∧
    SlotNamed (volumeSys twoFiles).ata.image p.header 1 [66] := by
  have hhead := volumeSys_header twoFiles
  have hitems : ∀ j < 2, (volumeSys twoFiles).ata.image (1536 + 32 * j) ≠ 0 := fun j hj => by
    obtain rfl | rfl : j = 0 ∨ j = 1 := by omega
    · decide
    · decide
  have hmount : Mountable (volumeSys twoFiles) := volumeSys_mountable (k := 2) (by decide) rfl fun j hj => by
    obtain rfl | rfl : j = 0 ∨ j = 1 := by omega
    · decide
    · decide
  obtain ⟨s, q, hrun, -⟩ := hmount.mounts (freshKernel_kernelHeap _) rfl rfl
  have hend : ItemEnd (volumeSys twoFiles).ata.image (rootPos (volumeHeader (volumeSys twoFiles))) 2 := by
    rw [hhead]
    exact ⟨by decide, rfl, hitems⟩
  obtain ⟨p, hp, hheader, hiff, -⟩ := live_only_iff (freshKernel_kernelHeap _) rfl rfl hrun hend
  have hlive : LiveOnly (volumeSys twoFiles) p 2 := by
    refine hiff ⟨Or.inl (by rw [hhead]; decide), fun j hj => ?_⟩
    rw [hhead]
    obtain rfl | rfl : j = 0 ∨ j = 1 := by omega
    · decide
    · decide
  refine ⟨s, p, hrun, hp, hlive, ?_⟩
  rw [hheader, hhead]
  exact ⟨by decide, slotNamed_one (by decide) (by decide) (by decide) (by decide),
    slotNamed_one (by decide) (by decide) (by decide) (by decide)⟩

/-- A volume whose root directory holds one entry, which is deleted. -/
def deletedSys : Sys := volumeSys fun x => if x = 1536 then 0xE5 else 0

/-- **The deleted entry is counted.** -/
theorem deleted_entry_counted : ¬ ∀ (s0 s : Sys) (k : Nat), KernelHeap s0.arena →
    (s0.disks primaryDisk).id = 0 → (s0.disks primaryDisk).sectorSize = 512 →
    fat16Resolve primaryDisk s0 = .ok ok s →
    ItemEnd s0.ata.image (rootPos (volumeHeader s0)) k → k < (volumeHeader s0).rootDirEntries →
    ∃ p, (s.disks primaryDisk).fsPrivate = some p ∧ LiveOnly s0 p k := by
  intro hall
  have hhead : volumeHeader deletedSys = ⟨1, 1, 2, 16, 1, 100, 41⟩ := volumeSys_header _
  have hmount : Mountable deletedSys := by
    refine volumeSys_mountable (k := 1) (by decide) (if_neg (by decide)) fun j hj => ?_
    obtain rfl : j = 0 := by omega
    decide
  obtain ⟨s, q, hrun, hm, hacc, -⟩ := hmount.mounts (freshKernel_kernelHeap _) rfl rfl
  have hend : ItemEnd deletedSys.ata.image (rootPos (volumeHeader deletedSys)) 1 := by
    rw [hhead]
    refine ⟨by decide, rfl, fun j hj => ?_⟩
    obtain rfl : j = 0 := by omega
    decide
  obtain ⟨p, hp, hlive⟩ := hall deletedSys s 1 (freshKernel_kernelHeap _) rfl rfl hrun hend
    (by rw [hhead]; decide)
  obtain rfl : q = p := Option.some.inj (hm.priv.symm.trans hp)
  have htotal := hlive.total
  rw [hacc.root.total 1 hend, hacc.header, hhead] at htotal
  exact absurd htotal (by decide)

end KokoOs
