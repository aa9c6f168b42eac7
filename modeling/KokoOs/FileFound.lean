/-
# Opening files that are there

`fs_open` of a path looks the name of its first part up in the root directory that was loaded when the
volume was mounted.  This file says which entry is found, and what becomes of it.

* **The name.**  The first part of a parsed path has the first name that `partSplit` gives
  (`PathString.firstPart`).
* **The entry.**  The last entry of that name is found, and an item is made of it; the walk down the
  path answers with this item, or with nothing (`getDirectoryEntry_walks`).  It answers with nothing
  only if the item can be freed, which one of a subdirectory cannot: the union of the item holds the
  clone of the entry, so that the first four bytes of the name are freed instead of an array of
  entries (`FatItem.FreesName`).
* **The descriptor.**  So a descriptor is one that `fs_close` never returns from exactly if the path
  names such a subdirectory (`OpenedFor.freesName_iff`, `Asked.openedFor`).

The second half shows that opening a path of one part succeeds on every volume whose names can be
rendered (`fsOpen_named`), and puts a file on a small volume for runs that begin with one.
-/
import KokoOs.Fat16Live
import KokoOs.FileObjects
import KokoOs.PathList

namespace KokoOs

open Bytes Prog

/-! ## 1. The first name of a path -/

/-- The name of the first part that the parser makes of a path. -/
def firstName (path : List UInt8) : List UInt8 := (partSplit (path.drop 3)).names.headD []

section

variable {a a' : Arena} {path root : Nat} {bytes : List UInt8}

/-- The first name of the loop is the first of all names. -/
theorem headD_all (bytes : List UInt8) :
    (partSplit bytes).all.headD [] = (partSplit bytes).names.headD [] := by
  have hpos := partSplit_names_pos bytes
  unfold PathSplit.all
  cases hnames : (partSplit bytes).names with
  | nil => simp [hnames] at hpos
  | cons c cs => rfl

/-- A first name is a piece of the path. -/
theorem mem_headD_names {bytes : List UInt8} {x : UInt8}
    (h : x ∈ (partSplit bytes).names.headD []) : x ∈ bytes := by
  rcases path_cases bytes with hwhole | ⟨c, rest, rfl, hc, hne⟩
  · rwa [partSplit_whole hwhole] at h
  · rw [partSplit_cons hc hne] at h
    have hx : x ∈ c ++ [47] := by
      split at h <;> exact h
    rcases List.mem_append.mp hx with hx | hx
    · exact List.mem_append_left _ hx
    · exact List.mem_append_right _ (List.mem_singleton.mp hx ▸ List.mem_cons_self)

/-- The first name of `d:/c` is `c`. -/
theorem firstName_one {d : Nat} {c : List UInt8} (hc : IsComponent c) :
    firstName (pathOf d [c]) = c := by
  have hsplit : partSplit ((pathOf d [c]).drop 3) = ⟨[c], [], true⟩ := partSplit_whole (Or.inl hc.2.1)
  unfold firstName
  rw [hsplit]
  rfl

theorem zero_notMem_firstName (h : 0 ∉ bytes) : 0 ∉ firstName bytes :=
  fun hmem => h (List.mem_of_mem_drop (mem_headD_names hmem))

/-- The first name of a list of parts is at its beginning. -/
theorem OpenChain.firstAt {base : Arena} {S : Set Nat} {first pb : Nat} {names : List (List UInt8)}
    (h : OpenChain base a S first names pb) : NameAt a S first (names.headD []) := by
  obtain ⟨ns, c, rfl, hparts, hname⟩ := h.parts
  cases ns with
  | nil =>
    obtain rfl : first = blockAt pb := hparts
    exact hname
  | cons n ns =>
    obtain ⟨b, -, -, hfirst, -⟩ := hparts
    exact hfirst

/-- A name in an object, or the constant `""`, can be looked up. -/
theorem NameAt.nameString {S : Set Nat} {p : Nat} {c : List UInt8} (h : NameAt a S p c)
    (hheld : ∀ b ∈ S, Held a b) (hnz : 0 ∉ c) (hempty : c = [] → a.mem emptyString = 0) :
    NameString a (u32 a.mem p) c := by
  rcases h with ⟨rfl, hword⟩ | ⟨n, hn, hword, hlen, hstr, -⟩
  · rw [hword]
    refine ⟨fun i hi => ?_, hnz, by decide, fun i hi => Or.inr ?_⟩
    · obtain rfl := Nat.le_zero.mp hi
      exact hempty rfl
    · obtain rfl := Nat.le_zero.mp hi
      refine ⟨Or.inl (by decide), fun hin => ?_⟩
      have hin' := Set.mem_Ico.mp hin
      simp only [emptyString, stackBuffer] at hin'
      omega
  · rw [hword]
    exact ⟨hstr, hnz, by omega, fun i hi => Or.inl ⟨n, hheld n hn, Nat.le_add_right _ _, by omega⟩⟩

/-- The constant `""` is not overwritten. -/
theorem Touches.emptyString {T W : Set Nat} (ht : Touches T W a a') (hW : W ⊆ stackRange) :
    a'.mem emptyString = a.mem emptyString := by
  refine ht.outside _ (Or.inl (by decide)) fun hin => ?_
  have hin' := Set.mem_Ico.mp (hW hin)
  simp only [KokoOs.emptyString, stackBuffer] at hin'
  omega

/-- **The first part of a parsed path has the first name**, and keeps it while objects are made. -/
theorem PathString.firstPart (h : PathString a path bytes) (hk : KernelHeap a)
    (hempty : firstName bytes = [] → a.mem emptyString = 0)
    (hparse : pathParserParsePath path a = .ok root a')
    (hroot : root ≠ 0) {a'' : Arena} (ht : Touches ∅ stackRange a' a'') :
    NameString a'' (u32 a''.mem (u32 a'.mem (root + 4))) (firstName bytes) := by
  rcases Nat.lt_or_ge bytes.length 65536 with hlen | hlen
  · obtain ⟨ht', ⟨-, hnull, -⟩ | ⟨-, -, rtb, first, pb, S, hp⟩⟩ := Runs.value
      (parsePath_runs hk h.str h.nz hlen h.offSlice h.stored fun _ _ => trivial) hparse
    · exact absurd hnull hroot
    · have hfirst := hp.chain.firstAt
      obtain ⟨fb, hfb, hword, -⟩ := hp.chain.new
      rw [headD_all] at hfirst
      rw [hp.part, hword, ht.firstWord (Set.notMem_empty fb) (hp.chain.held fb hfb), ← hword]
      refine (hfirst.nameString (fun b hb => hp.chain.held b (Set.mem_insert_of_mem _ hb))
        (zero_notMem_firstName h.nz) fun hnil => ?_).touches ht
      exact (ht'.emptyString pathSliceRange_subset).trans (hempty hnil)
  · exact absurd hparse (h.parse_long hlen)

end

/-! ## 2. The entry that is found -/

/-- A name is that of a subdirectory, whose item can never be freed: the last entry of the name is one,
and does not begin with four NULs (as no entry before the end marker does). -/
def NamesDirectory (directory : FatDirectory) (bytes : List UInt8) : Prop :=
  ∃ j dirItem, LastNamed directory bytes 0 directory.total j ∧ directory.loaded[j]? = some dirItem ∧
    dirItem.isSubdirectory = true ∧ u32 (literal dirItem) 0 ≠ 0

/-- What the walk down a path gives, whose first part has this name. -/
inductive WalkedTo (directory : FatDirectory) (bytes : List UInt8) : Option FatItem → Prop
  | entry {j : Nat} {dirItem : FatDirectoryItem} {x : FatItem} :
      LastNamed directory bytes 0 directory.total j → directory.loaded[j]? = some dirItem →
      ItemOf dirItem x → WalkedTo directory bytes (some x)
  | nothing : ¬ NamesDirectory directory bytes → WalkedTo directory bytes none

/-- What a descriptor has for its item: one of the entry of this name, or of the entry that new files
are made with. -/
inductive OpenedFor (directory : FatDirectory) (bytes : List UInt8) (x : FatItem) : Prop
  | entry {j : Nat} {dirItem : FatDirectoryItem} :
      LastNamed directory bytes 0 directory.total j → directory.loaded[j]? = some dirItem →
      ItemOf dirItem x → OpenedFor directory bytes x
  | new : ¬ NamesDirectory directory bytes → x.item = kokoItem → x.type = .file →
      OpenedFor directory bytes x

section

variable {s : Sys} {p : FatPrivate} {directory : FatDirectory} {bytes : List UInt8} {part : Nat}

/-- The item of an entry cannot be freed if the entry is that of such a subdirectory. -/
theorem ItemOf.freesName_iff {dirItem : FatDirectoryItem} {x : FatItem} (h : ItemOf dirItem x) :
    x.FreesName ↔ dirItem.isSubdirectory = true ∧ u32 (literal dirItem) 0 ≠ 0 := by
  unfold FatItem.FreesName
  rw [h.item, h.type]
  cases dirItem.isSubdirectory <;> simp

theorem LastNamed.namesDirectory_iff {j : Nat} {dirItem : FatDirectoryItem} {x : FatItem}
    (h : LastNamed directory bytes 0 directory.total j) (hget : directory.loaded[j]? = some dirItem)
    (hitem : ItemOf dirItem x) : x.FreesName ↔ NamesDirectory directory bytes := by
  rw [hitem.freesName_iff]
  refine ⟨fun hfrees => ⟨j, dirItem, h, hget, hfrees⟩, ?_⟩
  rintro ⟨j', dirItem', h', hget', hfrees⟩
  obtain rfl := h.unique h'
  obtain rfl := Option.some_inj.mp (hget.symm.trans hget')
  exact hfrees

/-- **The item of a descriptor can never be freed exactly if the name is that of such a subdirectory.** -/
theorem OpenedFor.freesName_iff {x : FatItem} (h : OpenedFor directory bytes x) :
    x.FreesName ↔ NamesDirectory directory bytes := by
  cases h with
  | entry hlast hget hitem => exact hlast.namesDirectory_iff hget hitem
  | new hnot _ hfile => exact iff_of_false (fun h => by cases h.1.symm.trans hfile) hnot

/-- The walk begins with an item: it answers with that, or with nothing, for which it has freed it. -/
theorem directoryEntryLoop_walks {fuel nextPart : Nat} {item : FatItem} :
    Runs (fun _ => True) (fat16DirectoryEntryLoop fuel nextPart (some item)) s fun r _ =>
      r = some item ∨ (r = none ∧ ¬ item.FreesName) := by
  cases fuel with
  | zero => exact Runs.throw trivial
  | succ fuel =>
    unfold fat16DirectoryEntryLoop
    split
    · exact Runs.pure (Or.inl rfl)
    · refine Runs.bind (orFault_runs fun _ _ => trivial) ?_
      rintro it s1 ⟨hit, rfl⟩
      cases hit
      split
      · next hfile => exact Runs.pure (Or.inr ⟨rfl, fun h => hfile h.1⟩)
      · refine Runs.bind (Q := fun r _ => r = none) ?_ ?_
        · unfold fat16FindItemInItem
          split
          · exact Runs.pure rfl
          · exact Runs.throw trivial
        · rintro r s2 rfl
          refine Runs.bind (Q := fun _ _ => ¬ item.FreesName) ?_ ?_
          · exact Runs.of_returns fun _ _ hrun hfrees => freeItem_stops hfrees hrun
          · rintro - s3 hfrees
            refine Runs.get_bind (directoryEntryLoop_item.mono
              fun r _ (hr : ∀ x, r = some x → none = some x) => ?_)
            cases r with
            | none => exact Or.inr ⟨rfl, hfrees⟩
            | some x => cases hr x rfl

/-- **The walk down a path finds the last entry of its first name.** -/
theorem getDirectoryEntry_walks (hk : KernelHeap s.arena) (hm : Mounted s p)
    (hname : NameString s.arena (u32 s.arena.mem part) bytes) :
    Runs (fun _ => True) (fat16GetDirectoryEntry primaryDisk part) s fun r _ =>
      WalkedTo p.rootDirectory bytes r := by
  unfold fat16GetDirectoryEntry
  refine Runs.bind (hm.fsPrivate_runs (Q := fun q s' => q = p ∧ s' = s) ⟨rfl, rfl⟩) ?_
  rintro q s' ⟨rfl, rfl⟩
  refine Runs.get_bind (Runs.bind (findLoop_named hk hm hname (Nat.zero_add _) fun _ _ => trivial) ?_)
  rintro r s1 ⟨hfound, -⟩
  cases hfound with
  | missing hnone =>
    refine Runs.pure (.nothing ?_)
    rintro ⟨j, dirItem, hlast, -⟩
    exact hnone j (Nat.zero_le j) hlast.lt hlast.named
  | found hlast hget hitem =>
    refine Runs.get_bind (directoryEntryLoop_walks.mono fun r _ hr => ?_)
    rcases hr with rfl | ⟨rfl, hfrees⟩
    · exact .entry hlast hget hitem
    · exact .nothing fun hdir => hfrees ((hlast.namesDirectory_iff hget hitem).mpr hdir)

/-- **What is opened.** -/
theorem fat16Open_openedFor (hk : KernelHeap s.arena) (hm : Mounted s p) (mode : FileMode)
    (hpart : ∀ a, Touches ∅ stackRange s.arena a → NameString a (u32 a.mem part) bytes) :
    Runs (fun _ => True) (fat16Open primaryDisk part mode) s fun r _ =>
      ∀ desc, r = .ok desc → OpenedFor p.rootDirectory bytes desc.item := by
  cases mode with
  | append => exact Runs.pure fun _ h => by cases h
  | read =>
    change Runs _ (fat16OpenForRead primaryDisk part) s _
    unfold fat16OpenForRead
    refine Runs.bind (Sys.zalloc_runs hk (by omega) (by omega) fun _ _ => trivial) ?_
    rintro q s1 ⟨d, rfl, -, h1, -⟩
    rw [if_neg (Nat.ne_of_gt (blockAt_pos d))]
    refine Runs.bind (getDirectoryEntry_walks h1.kernel (h1.mounted hm) 
      (hpart _ (h1.touches.mono (Set.Subset.refl _) (Set.empty_subset _)))) ?_
    rintro r s2 hwalk
    cases hwalk with
    | nothing => exact Runs.bind (runs_any _ _) fun _ _ _ => Runs.pure fun _ h => by cases h
    | entry hlast hget hitem =>
      refine Runs.pure fun desc h => ?_
      cases h
      exact .entry hlast hget hitem
  | write =>
    change Runs _ (fat16OpenForWrite primaryDisk part) s _
    unfold fat16OpenForWrite
    refine Runs.bind (Sys.zalloc_runs hk (by omega) (by omega) fun _ _ => trivial) ?_
    rintro q s1 ⟨d, rfl, -, h1, -⟩
    rw [if_neg (Nat.ne_of_gt (blockAt_pos d))]
    refine Runs.bind (getDirectoryEntry_walks h1.kernel (h1.mounted hm) 
      (hpart _ (h1.touches.mono (Set.Subset.refl _) (Set.empty_subset _)))) ?_
    rintro r s2 hwalk
    cases hwalk with
    | nothing hnot =>
      refine Runs.bind (Q := fun item _ => item.item = kokoItem ∧ item.type = .file) ?_ ?_
      · unfold fat16NewFileItem
        refine Runs.bind (runs_any _ _) fun _ _ _ => Runs.bind (runs_any _ _) fun _ _ _ =>
          Runs.bind (runs_any _ _) fun _ _ _ => Runs.pure ⟨rfl, rfl⟩
      · rintro item s3 ⟨hkoko, hfile⟩
        refine Runs.pure fun desc h => ?_
        cases h
        exact .new hnot hkoko hfile
    | entry hlast hget hitem =>
      refine Runs.pure fun desc h => ?_
      cases h
      exact .entry hlast hget hitem

end

/-- **What `fs_open` has opened**: an item of the entry that the first name of the path finds, or a new
one. -/
theorem Asked.openedFor {f : FileState FatFileDescriptor} {p : FatPrivate} {filename root : Nat}
    {mode : FileMode} {bytes : List UInt8} {a : Arena} {disk : DiskRef} {fs : FileSystemRef}
    {data : FatFileDescriptor} {s : Sys}
    (h : Asked fileSystemOf f filename mode root a disk fs (.ok data) s)
    (hk : KernelHeap f.sys.arena) (hm : Mounted f.sys p)
    (hempty : firstName bytes = [] → f.sys.arena.mem emptyString = 0)
    (hpath : PathString f.sys.arena filename bytes) :
    OpenedFor p.rootDirectory (firstName bytes) data.item := by
  obtain ⟨ht, -⟩ := hpath.parse hk h.parsed
  have hm1 : Mounted { f.sys with arena := a } p := (Reads.of_arena ht).mounted hm
  obtain rfl := diskGet_some h.disk_eq
  cases fs
  exact Runs.value (fat16Open_openedFor (s := { f.sys with arena := a }) ht.kernel hm1 mode
    fun a' ht' => hpath.firstPart hk hempty h.parsed h.root_ne ht') h.answered data rfl

/-! ## 3. Opening a path of one part -/

/-- A lookup of the name can go through the entries of the root directory: all names end, and the
entries of the name that are directories do. -/
structure Lookable (ata : Ata) (p : FatPrivate) (bytes : List UInt8) : Prop where
  entries : ∀ j < p.rootDirectory.total, ∃ dirItem, p.rootDirectory.loaded[j]? = some dirItem ∧
    (EntryNamed p.rootDirectory j bytes → dirItem.isSubdirectory = true →
      DirectoryEnds ata p dirItem)
  renders : ∀ j < p.rootDirectory.total,
    fat16GetFullRelativeFilename (p.rootDirectory.loaded.drop j).flatten ≠ none

section

variable {stop : Halt → Prop} {s s' : Sys} {f f' : FileState FatFileDescriptor} {p : FatPrivate}
  {filename i pb nb : Nat} {c : List UInt8}

theorem Lookable.searchable (h : Lookable s.ata p c)
    (hroom : 3 * p.rootDirectory.total ≤ (freeBlocks s.arena.heap).card) :
    Searchable s p p.rootDirectory c 0 p.rootDirectory.total :=
  ⟨hroom, fun j _ hj => h.entries j hj, fun j _ hj => h.renders j hj⟩

/-- A part of a path has a name that can be looked up. -/
theorem NamedPart.nameString {a : Arena} (h : NamedPart a pb nb c) :
    NameString a (u32 a.mem (blockAt pb)) c := by
  have hshort := h.short
  rw [h.name]
  exact ⟨h.str, h.nz, by omega, fun i hi => Or.inl ⟨nb, h.held.2, Nat.le_add_right _ _, by omega⟩⟩

/-- The walk down a path of one part is the lookup of its name. -/
theorem getDirectoryEntry_named (hk : KernelHeap s.arena) (hm : Mounted s p)
    (hpart : NamedPart s.arena pb nb c) (hnext : u32 s.arena.mem (blockAt pb + 4) = 0)
    (hs : ¬ Searchable s p p.rootDirectory c 0 p.rootDirectory.total → ∀ e, stop e) :
    Runs stop (fat16GetDirectoryEntry primaryDisk (blockAt pb)) s fun r s' =>
      FoundNamed p.rootDirectory c 0 p.rootDirectory.total none r ∧
      (freeBlocks s.arena.heap).card ≤
        (freeBlocks s'.arena.heap).card + 3 * p.rootDirectory.total := by
  unfold fat16GetDirectoryEntry
  refine Runs.bind (hm.fsPrivate_runs (Q := fun q s' => q = p ∧ s' = s) ⟨rfl, rfl⟩) ?_
  rintro q s' ⟨rfl, rfl⟩
  refine Runs.get_bind (Runs.bind
    (findLoop_named hk hm hpart.nameString (Nat.zero_add _) hs).with_run ?_)
  rintro r s1 ⟨hrun, hfound, hcard⟩
  cases r with
  | none => exact Runs.pure ⟨hfound, hcard⟩
  | some x =>
    obtain ⟨hreads, -⟩ := Runs.value (findItemInDirectory_reads hk hm _ _) hrun
    refine Runs.get_bind ?_
    rw [hreads.touches.word (Set.notMem_empty pb) hpart.held.1 (by omega), hnext]
    unfold fat16DirectoryEntryLoop
    exact Runs.pure ⟨hfound, hcard⟩

/-- The item of a descriptor that has been opened under a name: one of the last entry of that name, or a
new one if there is none. -/
structure NamedItem (directory : FatDirectory) (bytes : List UInt8) (x : FatItem) : Prop where
  found : ∀ j, LastNamed directory bytes 0 directory.total j →
    ∃ dirItem, directory.loaded[j]? = some dirItem ∧ ItemOf dirItem x
  new : (∀ j < directory.total, ¬ EntryNamed directory j bytes) →
    x.item = kokoItem ∧ x.type = .file

/-- What an open for writing finds is opened; otherwise it makes a new file. -/
theorem openForWrite_named (hk : KernelHeap s.arena) (hm : Mounted s p)
    (hpart : NamedPart s.arena pb nb c) (hnext : u32 s.arena.mem (blockAt pb + 4) = 0)
    (hs : ¬ (3 * p.rootDirectory.total + 3 ≤ (freeBlocks s.arena.heap).card ∧
      Lookable s.ata p c) → ∀ e, stop e) :
    Runs stop (fat16Open primaryDisk (blockAt pb) .write) s fun r s' => ∃ desc, r = .ok desc ∧
      NamedItem p.rootDirectory c desc.item ∧
      (freeBlocks s.arena.heap).card ≤
        (freeBlocks s'.arena.heap).card + (3 * p.rootDirectory.total + 3) := by
  change Runs _ (fat16OpenForWrite primaryDisk (blockAt pb)) s _
  unfold fat16OpenForWrite
  refine Runs.bind (Sys.zalloc_runs hk (by omega) (by omega) fun h0 => hs fun h => by omega) ?_
  rintro q s1 ⟨d, rfl, -, h1, hcard1⟩
  rw [if_neg (Nat.ne_of_gt (blockAt_pos d))]
  have hnext1 : u32 s1.arena.mem (blockAt pb + 4) = 0 :=
    (h1.touches.word (Set.notMem_empty pb) hpart.held.1 (by omega)).trans hnext
  refine Runs.bind (getDirectoryEntry_named h1.kernel (h1.mounted hm) (hpart.touches h1.touches) hnext1
    fun hbad => hs fun h => hbad ?_).with_run ?_
  · exact Lookable.searchable (h1.ata ▸ h.2) (by omega)
  rintro r s2 ⟨hrun, hfound, hcard2⟩
  obtain ⟨h2, -⟩ := Runs.value (getDirectoryEntry_reads h1.kernel (h1.mounted hm) _) hrun
  cases hfound with
  | missing hnone =>
    refine Runs.bind (newFileItem_runs h2.kernel fun h0 => hs fun h => by omega) ?_
    rintro item s3 ⟨-, -, hkoko, hfile, hcard3⟩
    refine Runs.pure ⟨_, rfl, ⟨fun j hlast => ?_, fun _ => ⟨hkoko, hfile⟩⟩, by omega⟩
    exact absurd hlast.named (hnone j (Nat.zero_le j) hlast.lt)
  | found hlast hget hitem =>
    refine Runs.pure ⟨_, rfl, ⟨fun j hlast' => ?_, fun hnone => ?_⟩, by omega⟩
    · obtain rfl := hlast.unique hlast'
      exact ⟨_, hget, hitem⟩
    · exact absurd hlast.named (hnone _ hlast.lt)

/-- What an open of `0:/c` has done: slot `i` has a descriptor of what is named `c`, or of a new file. -/
structure OpenedNamed (f f' : FileState FatFileDescriptor) (p : FatPrivate) (c : List UInt8) (i : Nat)
    (desc : FileDescriptor FatFileDescriptor) : Prop where
  item : NamedItem p.rootDirectory c desc.privateData.item
  table : f'.fileDescriptors = Function.update f.fileDescriptors i (some desc)
  card : (freeBlocks f.sys.arena.heap).card ≤
    (freeBlocks f'.sys.arena.heap).card + (3 * p.rootDirectory.total + 8)

/-- **Opening `0:/c` for writing succeeds** if the lookup can go through the root directory, and the heap
has the blocks. -/
theorem fsOpen_named (hk : KernelHeap f.sys.arena) (hm : Mounted f.sys p)
    (hpath : PathString f.sys.arena filename (pathOf 0 [c])) (hc : IsComponent c)
    (hlen : c.length ≤ 253) (hslot : freeSlot f = some i)
    (hs : ¬ (3 * p.rootDirectory.total + 8 ≤ (freeBlocks f.sys.arena.heap).card ∧
      Lookable f.sys.ata p c) → ∀ e, stop e) :
    Runs stop (fsOpen fileSystemOf filename .write) f fun fd f' =>
      fd = i + 1 ∧ ∃ desc, OpenedNamed f f' p c i desc := by
  refine fsOpen_one hk hm hpath hc hlen (fun h0 => hs fun h => by omega) ?_
  intro root a pb nb hp
  have h0 : Reads ∅ stackRange f.sys { f.sys with arena := a } :=
    Reads.of_arena (hp.touches.mono (Set.Subset.refl _) pathSliceRange_subset)
  have hcard0 := hp.card
  unfold fsOpenOn
  refine Runs.bind (Q := fun r f1 => ∃ data, r = .ok data ∧ NamedItem p.rootDirectory c data.item ∧
    (freeBlocks a.heap).card ≤
      (freeBlocks f1.sys.arena.heap).card + (3 * p.rootDirectory.total + 3) ∧
    KernelHeap f1.sys.arena ∧ (∃ d, data.address = blockAt d ∧ Held f1.sys.arena d) ∧
    f1.fileDescriptors = f.fileDescriptors) ?_ ?_
  · have hm0 : Mounted { f.sys with arena := a } p := h0.mounted hm
    refine Runs.zoom (openForWrite_named (s := { f.sys with arena := a }) h0.kernel hm0
      (hp.namedPart hc hlen) hp.next fun hbad => hs fun h => hbad ⟨?_, h.2⟩).with_run ?_
    · change _ ≤ (freeBlocks a.heap).card
      omega
    · rintro r s ⟨hrun, data, rfl, hitem, hcard⟩
      obtain ⟨hreads, hnew⟩ := Runs.value (fat16Open_reads h0.kernel hm0 _ _) hrun
      obtain ⟨d, b, c, hdesc⟩ := hnew data rfl
      exact ⟨data, rfl, hitem, hcard, hreads.kernel, ⟨d, hdesc.address, (hdesc.held d (by simp)).1⟩, rfl⟩
  · rintro r f1 ⟨data, rfl, hitem, hcard, hk1, ⟨d, haddress, hheld⟩, htable⟩
    have haddr : ¬ ((fileSystemOf .fat16).addressOf data ≥ 2 ^ 31) := by
      change ¬ data.address ≥ 2 ^ 31
      rw [haddress]
      exact Nat.not_le_of_lt (blockAt_lt hheld.lt)
    dsimp only
    rw [if_neg haddr]
    have hslot1 : freeSlot f1 = some i := by
      unfold freeSlot
      rw [htable]
      exact hslot
    refine Runs.bind (fsNewFileDescriptor_runs hk1 hslot1 primaryDisk _ fun h0 => hs fun h => by omega) ?_
    rintro r f2 ⟨e, rfl, -, -, hcard2, htable2⟩
    exact Runs.pure ⟨rfl, _, hitem, by rw [htable2, htable], by omega⟩

end

/-! ## 4. A volume with a file and a directory -/

/-- Behind the boot sector: in the root directory, at byte 1536, the file `A`, which has cluster 5, and the
subdirectory `D`, which has cluster 6.  The tables are empty, and so are the clusters. -/
def filesContent : Mem := fun x =>
  if x = 1536 then 65 else if x = 1562 then 5
  else if x = 1568 then 68 else if x = 1579 then 0x10 else if x = 1594 then 6 else 0

/-- A kernel in front of this volume, with the path `0:/c` at `filename`. -/
def filesSys (filename : Nat) (c : List UInt8) : Sys :=
  { volumeSys filesContent with arena := pathKernel filename [c] }

theorem filesSys_header (filename : Nat) (c : List UInt8) :
    volumeHeader (filesSys filename c) = ⟨1, 1, 2, 16, 1, 100, 41⟩ := volumeSys_header filesContent

/-- The root directory has two entries. -/
theorem filesSys_itemEnd : ItemEnd (volumeSys filesContent).ata.image 1536 2 := by
  refine ⟨by decide, by decide, fun j hj => ?_⟩
  obtain rfl | rfl : j = 0 ∨ j = 1 := by omega
  · decide
  · decide

/-- The other slots are not used. -/
theorem filesSys_unused {j : Nat} (hj : 2 ≤ j) (hj16 : j < 16) :
    (volumeSys filesContent).ata.image (1536 + 32 * j) = 0 := by
  change (if 1536 + 32 * j < 62 then _ else filesContent (1536 + 32 * j)) = 0
  rw [if_neg (by omega)]
  unfold filesContent
  rw [if_neg (by omega), if_neg (by omega), if_neg (by omega), if_neg (by omega), if_neg (by omega)]

theorem filesSys_mountable (filename : Nat) (c : List UInt8) : Mountable (filesSys filename c) := by
  have hcard : (freeBlocks (filesSys filename c).arena.heap).card = 25600 := freshKernel_free _
  have hvol : Mountable (volumeSys filesContent) :=
    volumeSys_mountable (k := 2) (by decide) (by decide) fun j hj => by
      obtain rfl | rfl : j = 0 ∨ j = 1 := by omega
      · decide
      · decide
  exact ⟨by omega, hvol.signature, hvol.entries, hvol.sector, hvol.inside, hvol.ending⟩

/-- The volume has been mounted, and nothing written to it; the path is still there. -/
structure OnFiles (s : Sys) (q : FatPrivate) (filename : Nat) (c : List UInt8) : Prop where
  kernel : KernelHeap s.arena
  mounted : Mounted s q
  accepted : Accepted (filesSys filename c) q
  ata : s.ata = (filesSys filename c).ata
  str : CString s.arena.mem filename (pathOf 0 [c])

theorem files_mounts {filename : Nat} (hfile : 0x10000000 ≤ filename) (c : List UInt8) : ∃ s q,
    fat16Resolve primaryDisk (filesSys filename c) = .ok ok s ∧ OnFiles s q filename c ∧
      25595 ≤ (freeBlocks s.arena.heap).card := by
  have hcard : (freeBlocks (filesSys filename c).arena.heap).card = 25600 := freshKernel_free _
  obtain ⟨s, q, hrun, hm, hacc, ht, hata, hfree⟩ :=
    (filesSys_mountable filename c).mounts (freshKernel_kernelHeap _) rfl rfl
  refine ⟨s, q, hrun, ⟨ht.kernel, hm, hacc, hata, ?_⟩, by omega⟩
  refine (pathKernel_stored hfile [c]).1.congr fun i _ => ?_
  obtain ⟨hout, hstack⟩ := outside_above (by omega : 0x10000000 ≤ filename + i)
  exact ht.outside _ hout hstack

section

variable {s : Sys} {f : FileState FatFileDescriptor} {q : FatPrivate} {filename i : Nat}
  {c : List UInt8}

theorem OnFiles.pathString (h : OnFiles s q filename c) (hfile : 0x10000000 ≤ filename)
    (hc : IsComponent c) : PathString s.arena filename (pathOf 0 [c]) where
  str := h.str
  nz := zero_notMem_pathOf (by omega) fun x hx => List.mem_singleton.mp hx ▸ hc
  off := by
    refine Or.inr ?_
    simp only [stackBuffer]
    omega
  stored i _ := not_inFree_above h.kernel (by omega)

theorem OnFiles.header (h : OnFiles s q filename c) : q.header = ⟨1, 1, 2, 16, 1, 100, 41⟩ :=
  h.accepted.header.trans (filesSys_header filename c)

theorem OnFiles.root (h : OnFiles s q filename c) :
    RootOf (volumeSys filesContent).ata.image ⟨1, 1, 2, 16, 1, 100, 41⟩ q.rootDirectory :=
  filesSys_header filename c ▸ h.accepted.root

theorem OnFiles.total (h : OnFiles s q filename c) : q.rootDirectory.total = 2 :=
  h.root.total 2 filesSys_itemEnd

/-- The entries are loaded. -/
theorem OnFiles.entry (h : OnFiles s q filename c) {j : Nat} (hj : j < 16) :
    q.rootDirectory.loaded[j]? =
      some (slice (volumeSys filesContent).ata.image (1536 + 32 * j) 32) :=
  h.root.loaded (by decide) (by decide) hj

/-- The names are `A` and `D`. -/
theorem OnFiles.name (h : OnFiles s q filename c) {j : Nat} (hj : j < 2) :
    fat16GetFullRelativeFilename (q.rootDirectory.loaded.drop j).flatten =
      some [if j = 0 then 65 else 68] := by
  rw [h.root.loaded_drop (by decide) (by decide) j]
  have hlen : 32 * (16 - j) = 9 + (32 * (16 - j) - 9) := by omega
  change fat16GetFullRelativeFilename (slice _ (1536 + 32 * j) (32 * (16 - j))) = _
  rw [hlen, slice_add]
  obtain rfl | rfl : j = 0 ∨ j = 1 := by omega
  · exact fullName_one (by decide) (by decide) _
  · exact fullName_one (by decide) (by decide) _

theorem OnFiles.entryNamed_iff (h : OnFiles s q filename c) {j : Nat} (hj : j < 2) {b : UInt8} :
    EntryNamed q.rootDirectory j [b] ↔
      strToLower (if j = 0 then 65 else 68) = strToLower b := by
  unfold EntryNamed
  rw [h.name hj]
  constructor
  · rintro ⟨name, hname, hsame⟩
    obtain rfl := Option.some_inj.mp hname
    exact List.singleton_inj.mp hsame
  · exact fun hsame => ⟨_, rfl, List.singleton_inj.mpr hsame⟩

/-- `A` is entry 0. -/
theorem OnFiles.last_file (h : OnFiles s q filename c) :
    LastNamed q.rootDirectory [65] 0 q.rootDirectory.total 0 := by
  rw [h.total]
  refine ⟨Nat.le_refl 0, by omega, (h.entryNamed_iff (by omega)).mpr (by decide), fun m hm hlt => ?_⟩
  obtain rfl : m = 1 := by omega
  rw [h.entryNamed_iff hlt]
  decide

/-- `D` is entry 1. -/
theorem OnFiles.last_directory (h : OnFiles s q filename c) :
    LastNamed q.rootDirectory [68] 0 q.rootDirectory.total 1 := by
  rw [h.total]
  refine ⟨Nat.zero_le 1, by omega, (h.entryNamed_iff (by omega)).mpr (by decide), fun m hm hlt => ?_⟩
  omega

/-- A path to `A` finds no subdirectory, and one to `D` does. -/
theorem OnFiles.not_namesDirectory (h : OnFiles s q filename c) :
    ¬ NamesDirectory q.rootDirectory [65] := by
  rintro ⟨j, dirItem, hlast, hget, hdir, -⟩
  obtain rfl := hlast.unique h.last_file
  obtain rfl := Option.some_inj.mp (hget.symm.trans (h.entry (by omega)))
  exact absurd hdir (by decide)

theorem OnFiles.namesDirectory (h : OnFiles s q filename c) : NamesDirectory q.rootDirectory [68] :=
  ⟨1, _, h.last_directory, h.entry (by omega), by decide, by decide⟩

/-- The subdirectory ends, with its first entry. -/
theorem OnFiles.lookable (h : OnFiles s q filename c) (b : List UInt8) : Lookable s.ata q b where
  entries j hj := by
    rw [h.total] at hj
    refine ⟨_, h.entry (by omega), fun _ hdir => ?_⟩
    obtain rfl | rfl : j = 0 ∨ j = 1 := by omega
    · exact absurd hdir (by decide)
    · have hsector : fat16ClusterToSector q (fat16GetFirstCluster
          (slice (volumeSys filesContent).ata.image (1536 + 32 * 1) 32)) = 8 := by
        unfold fat16ClusterToSector
        rw [h.header, h.accepted.ending, filesSys_header]
        decide
      refine ⟨0, by omega, ?_, ?_⟩
      · rw [h.ata, hsector]
        refine (ItemEnd.zero (by decide) ?_).scan
        change (volumeSys filesContent).ata.image 4096 = 0
        decide
      · rw [h.ata, hsector]
        intro j hj
        obtain rfl := Nat.le_zero.mp hj
        change 4096 / 512 < 100
        omega
  renders j hj := by
    rw [h.total] at hj
    rw [h.name hj]
    exact Option.some_ne_none _

/-- **`0:/c` is opened** on this volume, in the first slot. -/
theorem OnFiles.opens (h : OnFiles s q filename c) (hfile : 0x10000000 ≤ filename)
    (hc : IsComponent c) (hlen : c.length ≤ 253) (hcard : 14 ≤ (freeBlocks s.arena.heap).card) :
    ∃ f desc, fsOpen fileSystemOf filename .write (initFiles s) = .ok 1 f ∧
      OpenedNamed (initFiles s) f q c 0 desc := by
  obtain ⟨fd, f, hrun, rfl, desc, hopened⟩ := Runs.total (fsOpen_named (f := initFiles s) (i := 0)
    h.kernel h.mounted (h.pathString hfile hc) hc hlen (by simp [freeSlot, fsFreeSlotLoop, initFiles])
    fun hbad => absurd ⟨by rw [h.total]; exact hcard, h.lookable c⟩ hbad)
  exact ⟨f, desc, hrun, hopened⟩

end

/-- The volume has been mounted, and `0:/A` opened for writing. -/
structure FileOpened (s : Sys) (f : FileState FatFileDescriptor) (q : FatPrivate)
    (desc : FileDescriptor FatFileDescriptor) : Prop where
  mount : fat16Resolve primaryDisk (filesSys 0x10000000 [65]) = .ok ok s
  before : OnFiles s q 0x10000000 [65]
  opened : fsOpen fileSystemOf 0x10000000 .write (initFiles s) = .ok 1 f
  table : OpenTable f
  mounted : Mounted f.sys q
  ata : f.sys.ata = (filesSys 0x10000000 [65]).ata
  found : fsFindFileDescriptor f 1 = some desc
  file : desc.privateData.item.type = .file
  entry : desc.privateData.item.item = slice (volumeSys filesContent).ata.image 1536 32
  card : 25581 ≤ (freeBlocks f.sys.arena.heap).card

/-- **The file is opened**, not a new one. -/
theorem file_opened : ∃ s f q desc, FileOpened s f q desc := by
  have hfile := Nat.le_refl 0x10000000
  have hc : IsComponent [65] := ⟨by simp, by decide, by decide⟩
  obtain ⟨s, q, hmount, hon, hcard⟩ := files_mounts hfile [65]
  obtain ⟨f, desc, hopen, hopened⟩ := hon.opens hfile hc (by decide) (by omega)
  have htable0 : OpenTable (initFiles s) := .empty hon.kernel fun _ => rfl
  obtain ⟨htable, hm, hata⟩ := htable0.openFile hon.mounted (hon.pathString hfile hc)
    hon.accepted.root.items hopen
  obtain ⟨dirItem, hget, hitem⟩ := hopened.item.found 0 hon.last_file
  obtain rfl := Option.some_inj.mp (hget.symm.trans (hon.entry (by omega)))
  have hcard' := hopened.card
  rw [hon.total] at hcard'
  change (freeBlocks s.arena.heap).card ≤ _ at hcard'
  refine ⟨s, f, q, desc, hmount, hon, hopen, htable, hm, hata.trans hon.ata, ?_, ?_, hitem.item,
    by omega⟩
  · rw [fsFindFileDescriptor_eq, if_pos (by decide), hopened.table]
    exact Function.update_self _ _ _
  · rw [hitem.type]
    decide

end KokoOs
