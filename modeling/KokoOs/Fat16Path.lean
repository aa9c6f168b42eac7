/-
# Resolving a path

`fat16_get_directory_entry` is a walk that uses the volume through six operations only: the root
directory, the `name` and the `next` of a part, the lookup of a name in a directory, what an item
designates, and freeing an item.  The walk is stated once over these operations (`Walk`); the driver's
is an instance (`fat16GetDirectoryEntry_eq`), and so is the walk through an arbitrary tree of
directories whose items are allocated in a ledger, where what becomes of every item can be said.

There a path is resolved as it should be exactly if its first part is missing, or every part but the
last is a directory that is found (`resolves_iff`).  A part that is missing further down, but not at
the end, is dereferenced on the next turn; and a file in the place of a directory is dropped without
being freed (`file_as_directory`).

The induction is over the parts.  What it carries along is the balance of the ledger: before each
turn the current item is all that has been allocated and not freed (`treeWalk_turn`).
-/
import KokoOs.Fat16
import KokoOs.PathList
import KokoOs.Lib.Ledger

namespace KokoOs

open Bytes Prog Links

/-! ## 1. The walk -/

/-- What the walk along a path uses.  `directory` reads the type of an item, and the directory that its
union designates if that is the type; `name` and `next` read a part. -/
structure Walk (σ Dir Item : Type) where
  rootDirectory : EStateM Halt σ Dir
  name : Nat → EStateM Halt σ Nat
  next : Nat → EStateM Halt σ Nat
  find : Dir → Nat → EStateM Halt σ (Option Item)
  directory : Item → EStateM Halt σ (Option Dir)
  free : Item → EStateM Halt σ Unit

section

variable {σ Dir Item : Type} (w : Walk σ Dir Item)

/-- The loop of `fat16_get_directory_entry`.  `current_item` is dereferenced for its type. -/
def directoryEntryLoop : Nat → Nat → Option Item → EStateM Halt σ (Option Item)
  | 0, _, _ => throw .hang
  | fuel + 1, nextPart, currentItem => do
    if nextPart = 0 then return currentItem
    else
      match currentItem with
      | none => throw .fault
      | some item =>
        match ← w.directory item with
        | none => return none
        | some directory =>
          let name ← w.name nextPart
          let tmpItem ← w.find directory name
          w.free item
          let nextPart ← w.next nextPart
          directoryEntryLoop fuel nextPart tmpItem

/-- `fat16_get_directory_entry`, over the operations that it uses. -/
def getDirectoryEntry (path : Nat) : EStateM Halt σ (Option Item) := do
  let root ← w.rootDirectory
  let name ← w.name path
  let rootItem ← w.find root name
  match rootItem with
  | none => return none
  | some rootItem =>
    let nextPart ← w.next path
    directoryEntryLoop w (2 ^ 32) nextPart (some rootItem)

variable {w} {s s' : σ} {p : Nat} {item : Item}

/-- At the end of the list the current item is returned. -/
theorem directoryEntryLoop_end (fuel : Nat) (currentItem : Option Item) :
    directoryEntryLoop w (fuel + 1) 0 currentItem s = .ok currentItem s := rfl

/-- A part after one that is missing goes through NULL. -/
theorem directoryEntryLoop_null (hp : p ≠ 0) (fuel : Nat) :
    directoryEntryLoop w (fuel + 1) p none s = .error .fault s := by
  rw [directoryEntryLoop, if_neg hp]
  rfl

/-- A part after a file ends the walk, with nothing done to the file. -/
theorem directoryEntryLoop_file (hp : p ≠ 0) (fuel : Nat) (hdir : w.directory item s = .ok none s') :
    directoryEntryLoop w (fuel + 1) p (some item) s = .ok none s' := by
  rw [directoryEntryLoop, if_neg hp]
  rw [bind_of_ok hdir]
  rfl

/-- A part after a directory: it is looked up there, and the directory freed. -/
theorem directoryEntryLoop_directory (hp : p ≠ 0) (fuel : Nat) {d : Dir} {name q : Nat}
    {tmpItem : Option Item} {s1 s2 s3 s4 s5 : σ} (hdir : w.directory item s = .ok (some d) s1)
    (hname : w.name p s1 = .ok name s2) (hfind : w.find d name s2 = .ok tmpItem s3)
    (hfree : w.free item s3 = .ok () s4) (hnext : w.next p s4 = .ok q s5) :
    directoryEntryLoop w (fuel + 1) p (some item) s = directoryEntryLoop w fuel q tmpItem s5 := by
  rw [directoryEntryLoop, if_neg hp]
  rw [bind_of_ok hdir]
  change (w.name p >>= _) s1 = _
  rw [bind_of_ok hname, bind_of_ok hfind, bind_of_ok hfree, bind_of_ok hnext]

end

/-- The operations of the driver: a directory is the cached root, or what an item is taken for. -/
def fat16Walk (disk : DiskRef) : Walk Sys (FatDirectory ⊕ FatItem) FatItem where
  rootDirectory := do
    let fatPrivate ← fsPrivate disk
    return .inl fatPrivate.rootDirectory
  name part := do
    let s ← get
    return u32 s.arena.mem part
  next part := do
    let s ← get
    return u32 s.arena.mem (part + 4)
  find directory name :=
    match directory with
    | .inl root => fat16FindItemInDirectory disk root name
    | .inr item => fat16FindItemInItem item
  directory item := return if item.type = .directory then some (.inr item) else none
  free := fat16FreeItem

theorem fat16DirectoryEntryLoop_eq (disk : DiskRef) : ∀ (fuel nextPart : Nat)
    (currentItem : Option FatItem), fat16DirectoryEntryLoop fuel nextPart currentItem =
      directoryEntryLoop (fat16Walk disk) fuel nextPart currentItem
  | 0, _, _ => rfl
  | fuel + 1, nextPart, currentItem => by
    unfold fat16DirectoryEntryLoop directoryEntryLoop
    refine if_congr Iff.rfl rfl ?_
    cases currentItem with
    | none => rfl
    | some item =>
      by_cases htype : item.type = .directory
      · simp only [orFault, fat16Walk, htype, ne_eq, not_true_eq_false, if_true, if_false, pure_bind,
          bind_assoc]
        refine bind_congr fun tmpItem => bind_congr fun _ => bind_congr fun s => ?_
        exact fat16DirectoryEntryLoop_eq disk fuel _ tmpItem
      · simp only [orFault, fat16Walk, htype, ne_eq, not_false_eq_true, if_true, if_false, pure_bind]

/-- **The walk of the driver is the walk over its operations.** -/
theorem fat16GetDirectoryEntry_eq (disk : DiskRef) (path : Nat) :
    fat16GetDirectoryEntry disk path = getDirectoryEntry (fat16Walk disk) path := by
  unfold fat16GetDirectoryEntry getDirectoryEntry
  simp only [fat16Walk, bind_assoc, pure_bind]
  refine bind_congr fun fatPrivate => bind_congr fun s => bind_congr fun rootItem => ?_
  cases rootItem with
  | none => rfl
  | some rootItem =>
    exact bind_congr fun s => fat16DirectoryEntryLoop_eq disk _ _ _

/-! ## 2. Trees of directories -/

/-- What a directory holds under a name. -/
inductive Node (File Dir : Type) where
  | file (file : File)
  | directory (directory : Dir)

section

variable {File Dir : Type}

/-- An item of the lookup: where it is, what it stands for, the object that its union designates --
the clone of an entry, or a `Fat_Directory` -- and the array of that directory. -/
structure TreeItem (File Dir : Type) where
  address : Nat
  node : Node File Dir
  designated : Nat
  array : Nat

/-- The addresses that `fat16_free_item` frees, in that order. -/
def TreeItem.blocks (item : TreeItem File Dir) : List Nat :=
  match item.node with
  | .directory _ => [item.array, item.designated, item.address]
  | .file _ => [item.designated, item.address]

/-- Programs over a ledger. -/
abbrev LedgerM := EStateM Halt Ledger

/-- `free`: the address has to be live. -/
def freeLive (address : Nat) : LedgerM Unit := do
  let l ← get
  match l.release address with
  | some l => set l
  | none => throw .fault

/-- Read objects, which have to be live. -/
def touch (addresses : List Nat) : LedgerM Unit := do
  let l ← get
  if addresses.all l.live then return else throw .fault

/-- `fat16_free_item`, with `fat16_free_directory`. -/
def freeItem (item : TreeItem File Dir) : LedgerM Unit :=
  match item.node with
  | .directory _ => do
    freeLive item.array
    freeLive item.designated
    freeLive item.address
  | .file _ => do
    freeLive item.designated
    freeLive item.address

/-- A new item for a node. -/
def newItem (node : Node File Dir) : LedgerM (TreeItem File Dir) := do
  let l ← get
  match node with
  | .directory _ =>
    set (l.alloc 3)
    return { address := l.next, node, designated := l.next + 1, array := l.next + 2 }
  | .file _ =>
    set (l.alloc 2)
    return { address := l.next, node, designated := l.next + 1, array := 0 }

/-- The walk through the directories of which `lookup` says what they hold, from `root` on, along parts
that are stored in `m`.  A directory that is not the root is looked up in through its two objects. -/
def treeWalk (lookup : Dir → Nat → Option (Node File Dir)) (root : Dir) (m : Mem) :
    Walk Ledger (Dir × List Nat) (TreeItem File Dir) where
  rootDirectory := return (root, [])
  name part := if part = 0 then throw .fault else return u32 m part
  next part := if part = 0 then throw .fault else return nextPart m part
  find directory name := do
    touch directory.2
    match lookup directory.1 name with
    | none => return none
    | some node =>
      let item ← newItem node
      return some item
  directory item := do
    touch [item.address]
    match item.node with
    | .directory d => return some (d, [item.designated, item.array])
    | .file _ => return none
  free := freeItem

/-- What the names lead to from `node` on: nothing, if one of them is missing or comes after a file. -/
def resolveFrom (lookup : Dir → Nat → Option (Node File Dir)) :
    Option (Node File Dir) → List Nat → Option (Node File Dir)
  | node, [] => node
  | some (.directory d), name :: names => resolveFrom lookup (lookup d name) names
  | _, _ :: _ => none

/-- What a path is resolved to: what its names lead to from the root. -/
def resolvePath (lookup : Dir → Nat → Option (Node File Dir)) (root : Dir) (names : List Nat) :
    Option (Node File Dir) :=
  resolveFrom lookup (some (.directory root)) names

/-- The item of the last part is returned, or NULL if the path does not resolve; and of all that was
allocated exactly the blocks of the item that is returned are live, the others were freed once. -/
def ResolvesTo (node : Option (Node File Dir)) (l : Ledger) (item : Option (TreeItem File Dir))
    (l' : Ledger) : Prop :=
  item.map TreeItem.node = node ∧ l.Balanced l' (item.elim [] TreeItem.blocks)

/-- Every name but the last leads to a directory, from `node` on. -/
def LeadsOn (lookup : Dir → Nat → Option (Node File Dir)) :
    Option (Node File Dir) → List Nat → Prop
  | _, [] => True
  | some (.directory d), name :: names => LeadsOn lookup (lookup d name) names
  | _, _ :: _ => False

/-- The path has a part, and its first part is missing, or every part but the last is found and is a
directory. -/
def WalkablePath (lookup : Dir → Nat → Option (Node File Dir)) (root : Dir) : List Nat → Prop
  | [] => False
  | name :: names => lookup root name = none ∨ LeadsOn lookup (lookup root name) names

/-! ## 3. The operations on a balanced ledger -/

variable {l l' : Ledger} {owned : List Nat}

/-- Owned objects can be read. -/
theorem touch_owned (h : l.Balanced l' owned) {addresses : List Nat}
    (hsub : ∀ a ∈ addresses, a ∈ owned) : touch addresses l' = .ok () l' := by
  have hall : addresses.all l'.live = true :=
    List.all_eq_true.mpr fun a ha => (h.live a (hsub a ha)).2.2.1
  unfold touch
  rw [get_bind, if_pos hall]
  rfl

theorem freeLive_owned {a : Nat} (h : l.Balanced l' (a :: owned)) :
    ∃ l'', freeLive a l' = .ok () l'' ∧ l.Balanced l'' owned := by
  obtain ⟨l'', hrel, hbal⟩ := h.release
  refine ⟨l'', ?_, hbal⟩
  unfold freeLive
  rw [get_bind, hrel]
  rfl

/-- **Freeing an item** frees its blocks, and they are not owned any more. -/
theorem freeItem_owned {item : TreeItem File Dir} (h : l.Balanced l' (item.blocks ++ owned)) :
    ∃ l'', freeItem item l' = .ok () l'' ∧ l.Balanced l'' owned := by
  obtain ⟨address, node, designated, array⟩ := item
  cases node with
  | directory d =>
    obtain ⟨l1, hfree1, h1⟩ := freeLive_owned h
    obtain ⟨l2, hfree2, h2⟩ := freeLive_owned h1
    obtain ⟨l3, hfree3, h3⟩ := freeLive_owned h2
    refine ⟨l3, ?_, h3⟩
    change (freeLive array >>= fun _ => freeLive designated >>= fun _ => freeLive address) l' = _
    rw [bind_of_ok hfree1, bind_of_ok hfree2, hfree3]
  | file f =>
    obtain ⟨l1, hfree1, h1⟩ := freeLive_owned h
    obtain ⟨l2, hfree2, h2⟩ := freeLive_owned h1
    refine ⟨l2, ?_, h2⟩
    change (freeLive designated >>= fun _ => freeLive address) l' = _
    rw [bind_of_ok hfree1, hfree2]

/-- A new item owns its blocks. -/
theorem newItem_owned (h : l.Balanced l' owned) (node : Node File Dir) :
    ∃ item l'', newItem node l' = .ok item l'' ∧ item.node = node ∧
      l.Balanced l'' (item.blocks ++ owned) := by
  cases node with
  | directory d =>
    refine ⟨_, _, rfl, rfl, (h.alloc 3).perm (List.Perm.append_right _ ?_)⟩
    exact (List.reverse_perm _).symm
  | file f =>
    refine ⟨_, _, rfl, rfl, (h.alloc 2).perm (List.Perm.append_right _ ?_)⟩
    exact (List.reverse_perm _).symm

variable (lookup : Dir → Nat → Option (Node File Dir)) (root : Dir) (m : Mem)

/-- **Looking a name up** in a directory whose objects are owned gives what the directory holds under
the name, in an item of its own. -/
theorem treeFind_owned (h : l.Balanced l' owned) {d : Dir} {objects : List Nat}
    (hsub : ∀ a ∈ objects, a ∈ owned) (name : Nat) :
    ∃ item l'', (treeWalk lookup root m).find (d, objects) name l' = .ok item l'' ∧
      item.map TreeItem.node = lookup d name ∧
      l.Balanced l'' (item.elim [] TreeItem.blocks ++ owned) := by
  change ∃ item l'', (touch objects >>= fun _ => _) l' = _ ∧ _
  rw [bind_of_ok (touch_owned h hsub)]
  cases hlookup : lookup d name with
  | none =>
    simp only
    exact ⟨none, l', rfl, rfl, h⟩
  | some node =>
    obtain ⟨item, l'', hnew, hnode, hbal⟩ := newItem_owned h node
    simp only
    exact ⟨some item, l'', by rw [bind_of_ok hnew]; rfl, congrArg some hnode, hbal⟩

/-- Reading a part that is not NULL. -/
theorem treeWalk_part {p : Nat} (hp : p ≠ 0) (l : Ledger) :
    (treeWalk lookup root m).name p l = .ok (u32 m p) l ∧
      (treeWalk lookup root m).next p l = .ok (nextPart m p) l := by
  refine ⟨?_, ?_⟩
  · change (if p = 0 then throw .fault else pure _ : LedgerM Nat) l = _
    rw [if_neg hp]
    rfl
  · change (if p = 0 then throw .fault else pure _ : LedgerM Nat) l = _
    rw [if_neg hp]
    rfl

/-- Reading what a live item is. -/
theorem treeWalk_directory {item : TreeItem File Dir} (h : l.Balanced l' item.blocks) :
    (treeWalk lookup root m).directory item l' =
      .ok (match item.node with
        | .directory d => some (d, [item.designated, item.array])
        | .file _ => none) l' := by
  have hmem : ∀ a ∈ [item.address], a ∈ item.blocks := by
    intro a ha
    unfold TreeItem.blocks
    split <;> simp_all
  change (touch [item.address] >>= fun _ => _) l' = _
  rw [bind_of_ok (touch_owned h hmem)]
  cases item.node with
  | directory d => rfl
  | file f => rfl

/-! ## 4. The walk through a tree -/

/-- **One turn**: in the place of a directory comes what the next name leads to, and the directory has
been freed. -/
theorem treeWalk_turn {item : TreeItem File Dir} {d : Dir} (hnode : item.node = .directory d)
    (h : l.Balanced l' item.blocks) {p : Nat} (hp : p ≠ 0) (fuel : Nat) :
    ∃ tmpItem l'', ResolvesTo (lookup d (u32 m p)) l tmpItem l'' ∧
      directoryEntryLoop (treeWalk lookup root m) (fuel + 1) p (some item) l' =
        directoryEntryLoop (treeWalk lookup root m) fuel (nextPart m p) tmpItem l'' := by
  have hobjects : ∀ a ∈ [item.designated, item.array], a ∈ item.blocks := by
    simp [TreeItem.blocks, hnode]
  have hdir := treeWalk_directory lookup root m h
  rw [hnode] at hdir
  obtain ⟨tmpItem, l1, hfind, hfound, h1⟩ := treeFind_owned lookup root m h hobjects (u32 m p)
  obtain ⟨l2, hfree, h2⟩ := freeItem_owned (h1.perm List.perm_append_comm)
  exact ⟨tmpItem, l2, ⟨hfound, h2⟩, directoryEntryLoop_directory hp fuel hdir
    (treeWalk_part lookup root m hp l').1 hfind hfree (treeWalk_part lookup root m hp l2).2⟩

/-- An item owns something. -/
theorem TreeItem.blocks_ne_nil (item : TreeItem File Dir) : item.blocks ≠ [] := by
  unfold TreeItem.blocks
  split
  · exact List.cons_ne_nil _ _
  · exact List.cons_ne_nil _ _

/-- **The loop resolves the rest of a path if and only if every name but the last leads to a
directory.** -/
theorem treeLoop_resolves_iff : ∀ {fuel p : Nat} {parts : List Nat}
    {item : Option (TreeItem File Dir)} {node : Option (Node File Dir)} {l' : Ledger},
    Follows (nextPart m) 0 p parts → parts.length < fuel → ResolvesTo node l item l' →
      ((∃ item' l'', directoryEntryLoop (treeWalk lookup root m) fuel p item l' = .ok item' l'' ∧
        ResolvesTo (resolveFrom lookup node (parts.map (u32 m))) l item' l'') ↔
          LeadsOn lookup node (parts.map (u32 m)))
  | 0, _, _, _, _, _, _, hlen, _ => absurd hlen (Nat.not_lt_zero _)
  | fuel + 1, p, [], item, node, l', hp, _, h => by
    obtain rfl : p = 0 := hp
    refine iff_of_true ⟨item, l', directoryEntryLoop_end fuel item, ?_⟩ ?_
    · cases node <;> exact h
    · cases node <;> trivial
  | fuel + 1, p, q :: parts, item, node, l', hp, hlen, h => by
    obtain ⟨rfl, hne, hp⟩ := hp
    obtain ⟨hitem, hbal⟩ := h
    cases item with
    | none =>
      obtain rfl : none = node := hitem
      refine iff_of_false (fun ⟨item', l'', hrun, _⟩ => ?_) not_false
      rw [directoryEntryLoop_null hne] at hrun
      cases hrun
    | some item =>
      obtain rfl : some item.node = node := hitem
      cases hnode : item.node with
      | directory d =>
        obtain ⟨tmpItem, l1, h1, hturn⟩ := treeWalk_turn lookup root m hnode hbal hne fuel
        rw [hturn]
        have hrest := treeLoop_resolves_iff hp (Nat.lt_of_succ_lt_succ hlen) h1
        exact hrest
      | file f =>
        -- the item stays allocated, but NULL is returned
        refine iff_of_false (fun ⟨item', l'', hrun, hres⟩ => ?_) not_false
        have hdir := treeWalk_directory lookup root m hbal
        rw [hnode] at hdir
        rw [directoryEntryLoop_file hne fuel hdir] at hrun
        obtain ⟨rfl, rfl⟩ : none = item' ∧ l' = l'' := by
          cases hrun
          exact ⟨rfl, rfl⟩
        obtain ⟨a, ha⟩ := List.exists_mem_of_ne_nil _ item.blocks_ne_nil
        exact List.not_mem_nil ((hbal.mem_iff hres.2).mp ha)

/-- **A path is resolved as it should be if and only if its first part is missing, or every part but
the last is a directory that is found.** -/
theorem resolves_iff (l : Ledger) {path : Nat} {parts : List Nat}
    (hparts : Follows (nextPart m) 0 path parts) :
    (∃ item l', getDirectoryEntry (treeWalk lookup root m) path l = .ok item l' ∧
      ResolvesTo (resolvePath lookup root (parts.map (u32 m))) l item l') ↔
        WalkablePath lookup root (parts.map (u32 m)) := by
  cases parts with
  | nil =>
    -- there is no part to read
    obtain rfl : path = 0 := hparts
    refine iff_of_false (fun ⟨item, l', hrun, _⟩ => ?_) not_false
    cases hrun
  | cons q parts =>
    obtain ⟨rfl, hne, hparts⟩ := hparts
    obtain ⟨item, l1, hfind, hfound, h1⟩ :=
      treeFind_owned lookup root m (Ledger.Balanced.refl l) (d := root) (fun _ h => h) (u32 m path)
    rw [List.append_nil] at h1
    unfold getDirectoryEntry
    change (∃ item l', ((treeWalk lookup root m).name path >>= _) l = _ ∧ _) ↔ _
    rw [bind_of_ok (treeWalk_part lookup root m hne l).1, bind_of_ok hfind]
    cases item with
    | none =>
      -- the first part is missing, which is found out before the loop
      have hmissing : lookup root (u32 m path) = none := hfound.symm
      refine iff_of_true ⟨none, l1, rfl, ?_, h1⟩ (Or.inl hmissing)
      change none = resolveFrom lookup (lookup root (u32 m path)) _
      rw [hmissing]
      cases parts <;> rfl
    | some item =>
      have hsome : lookup root (u32 m path) ≠ none := by
        rw [← hfound]
        exact Option.some_ne_none _
      have hlen : parts.length < 2 ^ 32 := parts_length_lt hparts (u32_lt _ _)
      have hloop := treeLoop_resolves_iff lookup root m hparts hlen ⟨hfound, h1⟩
      change (∃ item' l', ((treeWalk lookup root m).next path >>= _) l1 = _ ∧ _) ↔ _
      rw [bind_of_ok (treeWalk_part lookup root m hne l1).2]
      exact hloop.trans (or_iff_right hsome).symm

/-! ## 5. A directory with one file -/

/-- A tree whose root, `0`, holds the file `7` under the name at `100`, and the directory `1`, which is
empty, under the name at `200`. -/
def smallTree (directory name : Nat) : Option (Node Nat Nat) :=
  if directory = 0 ∧ name = 100 then some (.file 7)
  else if directory = 0 ∧ name = 200 then some (.directory 1)
  else none

/-- Two parts, at `16` and `32`, with the names that are at `name` and at `100`. -/
def twoParts (name : UInt8) : Mem := fun a =>
  if a = 16 then name else if a = 20 then 32 else if a = 32 then 100 else 0

theorem twoParts_follows (name : UInt8) : Follows (nextPart (twoParts name)) 0 16 [16, 32] :=
  ⟨rfl, by decide, rfl, by decide, rfl⟩

/-- **A name in an empty directory** is not found, and nothing stays allocated. -/
theorem resolves_missing : ∃ item l',
    getDirectoryEntry (treeWalk smallTree 0 (twoParts 200)) 16 Ledger.empty = .ok item l' ∧
      ResolvesTo (resolvePath smallTree 0 ([16, 32].map (u32 (twoParts 200)))) Ledger.empty item l' :=
  (resolves_iff smallTree 0 (twoParts 200) Ledger.empty (twoParts_follows 200)).mpr
    (Or.inr (show LeadsOn smallTree (some (.directory 1)) [100] from trivial))

/-- **A file in the place of a directory is not freed.** -/
theorem file_as_directory : ¬ ∀ (lookup : Nat → Nat → Option (Node Nat Nat)) (root : Nat) (m : Mem)
    (l : Ledger) (path : Nat) (parts : List Nat), Follows (nextPart m) 0 path parts →
      ∃ item l', getDirectoryEntry (treeWalk lookup root m) path l = .ok item l' ∧
        ResolvesTo (resolvePath lookup root (parts.map (u32 m))) l item l' := by
  intro hall
  obtain ⟨item, l', hrun, hres⟩ := hall smallTree 0 (twoParts 100) Ledger.empty 16 [16, 32]
    (twoParts_follows 100)
  cases hrun
  have hlive := (hres.2.freed 0 (Nat.le_refl _) (by decide) List.not_mem_nil).1
  revert hlive
  decide

end

end KokoOs
