/-
# The slots of the root directory

The scan of the root directory ends at an end marker, wherever that is; the directory ends after
`root_dir_entries` slots.  So what relies on the count -- the lookup, which takes it for the number
of entries in its array, and a first write, which takes the next slot for free -- stays inside the
directory if and only if one of the slots has the end marker (`scan_inside_iff`).

One direction is what the count is worth if there is a marker (`EndsInside.scanInside`).  For the
other, the first write after the mount is looked at: it goes to where the count of the mount ended
(`RootCounted.next_runs`), and if that is one of the slots, the marker is in it.

A root directory of 16 slots with 15 entries is never left (`scan_inside_fifteen`); if it is full,
16 more entries are counted in the sector behind it (`full_root_overrun`).
-/
import KokoOs.Fat16Live

namespace KokoOs

open Bytes Prog

/-! ## 1. Staying inside -/

/-- The byte is the first one of a slot of the root directory that holds no live entry. -/
def FreeSlot (image : Mem) (header : FatHeader) (x : Nat) : Prop :=
  ∃ j < header.rootDirEntries, x = rootSlot header j ∧ (image x = 0 ∨ image x = 0xE5)

/-- On the disk of `s0` the root directory is never left: its items are counted, when it is mounted and
in every later scan, as no more than it has slots; every index of the lookup is one of the array; and
a new entry goes to a free slot.  A scan, and the search for a slot, return unless the heap is full. -/
structure ScanInside (s0 : Sys) (p : FatPrivate) : Prop where
  total : p.rootDirectory.total ≤ p.header.rootDirEntries
  scan : ∀ s, KernelHeap s.arena → Mounted s p → s.ata = s0.ata →
    Runs (fun _ => (freeBlocks s.arena.heap).card = 0)
      (fat16GetTotalItemsForDirectory primaryDisk (fat16RootDirectorySector p.header)) s
      fun n _ => n ≤ p.header.rootDirEntries
  index : ∀ i < p.rootDirectory.total, i < p.rootDirectory.loaded.length
  slot : ∀ s, KernelHeap s.arena → Mounted s p → s.ata = s0.ata →
    Runs (fun _ => (freeBlocks s.arena.heap).card = 0) (fat16GetNextItemPosition primaryDisk) s
      fun x _ => FreeSlot s0.ata.image p.header x

/-- One of the slots has the end marker. -/
def EndsInside (image : Mem) (header : FatHeader) : Prop :=
  ∃ k < header.rootDirEntries, ItemEnd image (rootPos header) k

section

variable {s : Sys} {p : FatPrivate} {k : Nat}

/-- A new entry goes to where the count of the mount ended. -/
theorem RootCounted.next_runs (h : RootCounted s.ata p.header p.rootDirectory)
    (hk : KernelHeap s.arena) (hm : Mounted s p) :
    Runs (fun _ => (freeBlocks s.arena.heap).card = 0) (fat16GetNextItemPosition primaryDisk) s
      fun x _ => x = (rootPos p.header + 32 * p.rootDirectory.total) % 2 ^ 32 := by
  refine (getNextItemPosition_scans hk hm fun hbad e => ?_).mono ?_
  · exact not_not.mp fun hroom => hbad (h.canScan hroom)
  · rintro x s' ⟨-, -, k, -, hend, rfl⟩
    rw [hend.unique h.2.1]

/-- **With a marker in one of its slots the directory is not left.** -/
theorem EndsInside.scanInside {s0 : Sys} (h : EndsInside s0.ata.image p.header)
    (hroot : RootOf s0.ata.image p.header p.rootDirectory)
    (hcounted : RootCounted s0.ata p.header p.rootDirectory) : ScanInside s0 p := by
  obtain ⟨k, hlt, hend⟩ := h
  have htotal := hroot.total k hend
  have hle : p.rootDirectory.total ≤ p.header.rootDirEntries := htotal ▸ Nat.le_of_lt hlt
  refine ⟨hle, fun s hk hm hata => ?_, fun i hi => ?_, fun s hk hm hata => ?_⟩
  · refine (RootCounted.scan_runs (hata ▸ hcounted) hk hm).mono fun n s' hn => ?_
    rw [hn]
    exact Int.ofNat_le.mpr hle
  · rw [hroot.length]
    exact (htotal ▸ hi).trans hlt
  · refine (RootCounted.next_runs (hata ▸ hcounted) hk hm).mono fun x s' hx => ?_
    rw [hx, htotal, Nat.mod_eq_of_lt hend.fits]
    exact ⟨k, hlt, rfl, Or.inl hend.marker⟩

/-- A heap that is not full. -/
def withFreshHeap (s : Sys) : Sys := { s with arena := freshKernel fun _ => 0 }

theorem withFreshHeap_mounted (hm : Mounted s p) : Mounted (withFreshHeap s) p :=
  hm.congr rfl fun _ h => h

/-- With a heap that is not full the next position is found. -/
theorem nextPosition_found (hm : Mounted s p)
    (hcounted : RootCounted s.ata p.header p.rootDirectory) : ∃ s',
      fat16GetNextItemPosition primaryDisk (withFreshHeap s) =
        .ok ((rootPos p.header + 32 * p.rootDirectory.total) % 2 ^ 32) s' := by
  have hroom : (freeBlocks (withFreshHeap s).arena.heap).card ≠ 0 := by
    change (freeBlocks (freshKernel _).heap).card ≠ 0
    rw [freshKernel_free]
    decide
  obtain ⟨x, s', hnext, rfl⟩ := (RootCounted.next_runs (s := withFreshHeap s) hcounted
    (freshKernel_kernelHeap _) (withFreshHeap_mounted hm)).returns fun _ hfull => hroom hfull
  exact ⟨s', hnext⟩

/-- **If a new entry goes to a free slot, the marker that was found is in one of the slots.** -/
theorem RootCounted.endsInside (h : RootCounted s.ata p.header p.rootDirectory)
    (hslot : FreeSlot s.ata.image p.header
      ((rootPos p.header + 32 * p.rootDirectory.total) % 2 ^ 32))
    (hentries : p.header.rootDirEntries < 2 ^ 16) : EndsInside s.ata.image p.header := by
  obtain ⟨hturns, hend, -⟩ := h
  obtain ⟨j, hj, heq, -⟩ := hslot
  unfold rootSlot at heq
  have hpos : rootPos p.header + 32 * j < 2 ^ 32 := by
    rw [← heq]
    exact Nat.mod_lt _ (by decide)
  have hmult : rootPos p.header % 32 = 0 := by
    unfold rootPos
    omega
  obtain rfl : p.rootDirectory.total = j := by omega
  refine ⟨_, hj, hpos, ?_, fun i hi => ?_⟩
  · rw [← heq]
    exact hend.marker
  · have hitem := hend.items i hi
    rwa [Nat.mod_eq_of_lt (by omega)] at hitem

/-- **The root directory of an accepted volume is never left if and only if one of its slots has the end
marker.** -/
theorem scan_inside_iff {s0 : Sys} (hk : KernelHeap s0.arena) (hid : (s0.disks primaryDisk).id = 0)
    (hsize : (s0.disks primaryDisk).sectorSize = 512)
    (haccepted : fat16Resolve primaryDisk s0 = .ok ok s) :
    ∃ p, (s.disks primaryDisk).fsPrivate = some p ∧ p.header = volumeHeader s0 ∧
      (ScanInside s0 p ↔ EndsInside s0.ata.image (volumeHeader s0)) := by
  obtain ⟨-, p, hm, hacc, -, hata, -⟩ :=
    Runs.value (fat16Resolve_runs hk hid hsize fun _ _ => trivial) haccepted
  have hroot := hacc.root
  have hcounted := hacc.counted
  have hentries : (volumeHeader s0).rootDirEntries < 2 ^ 16 := u16_lt _ _
  refine ⟨p, hm.priv, hacc.header, ?_⟩
  rw [← hacc.header] at hroot hcounted hentries ⊢
  refine ⟨fun h => ?_, fun h => h.scanInside hroot hcounted⟩
  rw [← hata] at hcounted ⊢
  obtain ⟨s', hnext⟩ := nextPosition_found hm hcounted
  have hslot := (h.slot (withFreshHeap s) (freshKernel_kernelHeap _) (withFreshHeap_mounted hm)
    hata).ok hnext
  rw [← hata] at hslot
  exact hcounted.endsInside hslot hentries

end

/-- On a volume that is filled up to byte `b`, the first `n` slots are used. -/
theorem filled_items {b n : Nat} (hb : 1536 + 32 * n ≤ b + 31) : ∀ j < n,
    (volumeSys fun x => if x < b then 65 else 0).ata.image (1536 + 32 * j) ≠ 0 := by
  intro j hj
  change (if 1536 + 32 * j < 62 then _ else if 1536 + 32 * j < b then 65 else 0 : UInt8) ≠ 0
  rw [if_neg (by omega), if_pos (by omega)]
  decide

/-- **With 15 entries in 16 slots** the root directory is not left: the marker is in the last slot. -/
theorem scan_inside_fifteen : ∃ s p,
    fat16Resolve primaryDisk (volumeSys fun x => if x < 2016 then 65 else 0) = .ok ok s ∧
    (s.disks primaryDisk).fsPrivate = some p ∧ p.rootDirectory.total = 15 ∧
    ScanInside (volumeSys fun x => if x < 2016 then 65 else 0) p := by
  have hitems : ∀ j < 15, (volumeSys fun x => if x < 2016 then 65 else 0).ata.image (1536 + 32 * j) ≠ 0 :=
    filled_items (by decide)
  have hmount : Mountable (volumeSys fun x => if x < 2016 then 65 else 0) :=
    volumeSys_mountable (k := 15) (by decide) (if_neg (by decide)) fun j hj => by
      rw [if_pos (by omega)]
      decide
  obtain ⟨s, q, hrun, hm, hacc, -⟩ := hmount.mounts (freshKernel_kernelHeap _) rfl rfl
  obtain ⟨p, hp, -, hiff⟩ := scan_inside_iff (freshKernel_kernelHeap _) rfl rfl hrun
  obtain rfl : q = p := Option.some.inj (hm.priv.symm.trans hp)
  have hroot := hacc.root
  rw [volumeSys_header] at hroot hiff
  have hend : ItemEnd (volumeSys fun x => if x < 2016 then 65 else 0).ata.image
      (rootPos ⟨1, 1, 2, 16, 1, 100, 41⟩) 15 := ⟨by decide, rfl, hitems⟩
  exact ⟨s, q, hrun, hp, hroot.total 15 hend, hiff.mpr ⟨15, by decide, hend⟩⟩

/-- A volume whose root directory is full, and the sector behind it is not empty. -/
def fullRootSys : Sys := volumeSys fun x => if x < 2560 then 65 else 0

/-- **The scan of a full root directory goes on behind it**, where 16 more entries are counted. -/
theorem full_root_overrun : ¬ ∀ s0 s : Sys, KernelHeap s0.arena → (s0.disks primaryDisk).id = 0 →
    (s0.disks primaryDisk).sectorSize = 512 → fat16Resolve primaryDisk s0 = .ok ok s →
    ∃ p, (s.disks primaryDisk).fsPrivate = some p ∧ ScanInside s0 p := by
  intro hall
  have hhead : volumeHeader fullRootSys = ⟨1, 1, 2, 16, 1, 100, 41⟩ := volumeSys_header _
  have hitems : ∀ j < 32, (if 1536 + 32 * j < 2560 then 65 else 0 : UInt8) ≠ 0 := by
    intro j hj
    rw [if_pos (by omega)]
    decide
  have hmount : Mountable fullRootSys :=
    volumeSys_mountable (k := 32) (by decide) (if_neg (by decide)) hitems
  obtain ⟨s, q, hrun, hm, hacc, -⟩ := hmount.mounts (freshKernel_kernelHeap _) rfl rfl
  obtain ⟨p, hp, hinside⟩ := hall fullRootSys s (freshKernel_kernelHeap _) rfl rfl hrun
  obtain rfl : q = p := Option.some.inj (hm.priv.symm.trans hp)
  have hend : ItemEnd fullRootSys.ata.image (rootPos (volumeHeader fullRootSys)) 32 := by
    rw [hhead]
    exact ⟨by decide, rfl, filled_items (by decide)⟩
  have htotal := hinside.total
  rw [hacc.root.total 32 hend, hacc.header, hhead] at htotal
  exact absurd htotal (by decide)

end KokoOs
