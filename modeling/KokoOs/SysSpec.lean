/-
# What calls of the kernel leave alone

Everything the drivers do is made of few calls: making and releasing objects, and transfers
through a stream.  `Quiet T W` is the frame of such a call on the whole state: apart from the
objects in `T` and the bytes in `W` memory keeps what is somebody's, no disk is mounted or
unmounted, and no stream leaves the primary disk.  `Reads T W` adds that the device keeps its bytes.
Both are preorders, and what becomes of objects that did not exist before does not matter
(`Quiet.trans'`, `Reads.trans'`), so a driver is framed by what it was given.

* **Objects.**  `zalloc` of one to 4096 bytes makes an object, and freeing one releases it.
* **Reading.**  `diskStreamRead_runs` is about a read of any length, whatever it answers; a read within one
  sector returns `OK` with the bytes of the device (`diskStreamRead_sector`).  Almost all reads of the
  driver are of that kind.
* **Writing.**  `diskStreamWrite_any`: a write changes the bytes at its position only, and no memory.
* **Returning.**  `Transferable` is what a transfer needs so that it returns: a run of free blocks for its
  local buffer, and the sectors that it asks the device for.
-/
import KokoOs.DiskStreamSpec
import KokoOs.KernelObject

namespace KokoOs

open Bytes Prog

/-! ## 1. Frames of the whole state -/

/-- Apart from the objects in `T`, the bytes in `W` and the positions of streams, only the bytes
of the device change. -/
structure Quiet (T W : Set Nat) (s s' : Sys) : Prop where
  touches : Touches T W s.arena s'.arena
  disks : s'.disks = s.disks
  streams : ∀ st, (s.streams st).disk = primaryDisk → (s'.streams st).disk = primaryDisk
  sectors : s'.ata.sectors = s.ata.sectors

/-- A call that is `Quiet` and leaves the bytes of the device alone, too. -/
structure Reads (T W : Set Nat) (s s' : Sys) : Prop extends Quiet T W s s' where
  image : s'.ata.image = s.ata.image

section

variable {T T' W W' : Set Nat} {s s' s'' : Sys}

theorem Quiet.refl (hk : KernelHeap s.arena) (T W : Set Nat) : Quiet T W s s :=
  ⟨Touches.refl hk T W, rfl, fun _ h => h, rfl⟩

theorem Quiet.trans (h : Quiet T W s s') (h' : Quiet T W s' s'') : Quiet T W s s'' :=
  ⟨h.touches.trans h'.touches, h'.disks.trans h.disks,
    fun st hst => h'.streams st (h.streams st hst), h'.sectors.trans h.sectors⟩

/-- What becomes of objects that did not exist before does not matter. -/
theorem Quiet.trans' (h : Quiet T W s s') (h' : Quiet T' W s' s'')
    (hf : ∀ b ∈ T', ¬ Held s.arena b) : Quiet T W s s'' :=
  ⟨h.touches.trans' h'.touches hf, h'.disks.trans h.disks,
    fun st hst => h'.streams st (h.streams st hst), h'.sectors.trans h.sectors⟩

theorem Quiet.mono (h : Quiet T W s s') (hT : T ⊆ T') (hW : W ⊆ W') : Quiet T' W' s s' :=
  ⟨h.touches.mono hT hW, h.disks, h.streams, h.sectors⟩

theorem Quiet.kernel (h : Quiet T W s s') : KernelHeap s'.arena := h.touches.kernel

theorem Reads.refl (hk : KernelHeap s.arena) (T W : Set Nat) : Reads T W s s :=
  ⟨Quiet.refl hk T W, rfl⟩

theorem Reads.trans (h : Reads T W s s') (h' : Reads T W s' s'') : Reads T W s s'' :=
  ⟨h.toQuiet.trans h'.toQuiet, h'.image.trans h.image⟩

theorem Reads.trans' (h : Reads T W s s') (h' : Reads T' W s' s'')
    (hf : ∀ b ∈ T', ¬ Held s.arena b) : Reads T W s s'' :=
  ⟨h.toQuiet.trans' h'.toQuiet hf, h'.image.trans h.image⟩

theorem Reads.mono (h : Reads T W s s') (hT : T ⊆ T') (hW : W ⊆ W') : Reads T' W' s s' :=
  ⟨h.toQuiet.mono hT hW, h.image⟩

theorem Reads.ata (h : Reads T W s s') : s'.ata = s.ata := by
  have h1 := h.sectors
  have h2 := h.image
  rcases hs : s.ata with ⟨sectors, image⟩
  rcases hs' : s'.ata with ⟨sectors', image'⟩
  rw [hs, hs'] at h1 h2
  dsimp only at h1 h2
  rw [h1, h2]

/-- A call of the heap reads. -/
theorem Reads.of_arena {a : Arena} (h : Touches T W s.arena a) :
    Reads T W s { s with arena := a } :=
  ⟨⟨h, rfl, fun _ hst => hst, rfl⟩, rfl⟩

end

/-! ## 2. Objects -/

section

variable {stop : Halt → Prop} {s : Sys} {b n : Nat}

/-- `zalloc` of one to 4096 bytes makes an object. -/
theorem zalloc_runs {a : Arena} (hk : KernelHeap a) (h0 : 0 < n) (hn : n ≤ 4096)
    (hs : (freeBlocks a.heap).card = 0 → ∀ e, stop e) : Runs stop (zalloc n) a fun p a' =>
      ∃ b, p = blockAt b ∧ New a a' b ∧
        (freeBlocks a'.heap).card + 1 = (freeBlocks a.heap).card := by
  unfold zalloc
  refine Runs.bind (hk.alloc_runs h0 hn hs) ?_
  rintro p a1 ⟨b, rfl, hnew⟩
  let a2 : Arena := ⟨a1.heap, memset a1.mem (blockAt b) 0 n⟩
  refine Runs.bind (Runs.modify (Q := fun _ a' => a' = a2) rfl) ?_
  rintro - a' rfl
  refine Runs.pure ⟨b, rfl, hnew.toNew.store fun x hx => ?_, hnew.card⟩
  rw [memset_zero]
  exact fill_of_not_mem (by omega)

theorem Sys.zalloc_runs (hk : KernelHeap s.arena) (h0 : 0 < n) (hn : n ≤ 4096)
    (hs : (freeBlocks s.arena.heap).card = 0 → ∀ e, stop e) :
    Runs stop (Sys.zalloc n) s fun p s' => ∃ b, p = blockAt b ∧ New s.arena s'.arena b ∧
      Reads ∅ ∅ s s' ∧ (freeBlocks s'.arena.heap).card + 1 = (freeBlocks s.arena.heap).card := by
  refine Runs.zoom (KokoOs.zalloc_runs hk h0 hn hs) ?_
  rintro p a ⟨b, rfl, hnew, hcard⟩
  exact ⟨b, rfl, hnew, Reads.of_arena hnew.touches, hcard⟩

theorem Sys.free_runs (hk : KernelHeap s.arena) (hb : Held s.arena b) :
    Runs stop (Sys.free (blockAt b)) s fun _ s' => Reads {b} ∅ s s' ∧
      (freeBlocks s.arena.heap).card + 1 ≤ (freeBlocks s'.arena.heap).card := by
  refine Runs.zoom (hk.release_runs hb) ?_
  rintro - a ⟨ht, -, hcard⟩
  exact ⟨Reads.of_arena ht, hcard⟩

/-- Writing into an object. -/
theorem storeMem_runs (hk : KernelHeap s.arena) (hb : Held s.arena b) {f : Mem → Mem}
    (hf : ∀ x, ¬ (blockAt b ≤ x ∧ x < blockAt b + 4096) → f s.arena.mem x = s.arena.mem x) :
    Runs stop (storeMem f) s fun _ s' => Reads {b} ∅ s s' ∧ s'.arena.heap = s.arena.heap ∧
      s'.arena.mem = f s.arena.mem :=
  Runs.modify ⟨Reads.of_arena (Touches.store hk b hf hb.lt), rfl, rfl⟩

end

/-! ## 3. Streams -/

section

variable {stop : Halt → Prop} {s : Sys} {stream buffer n : Nat}

/-- Moving a stream is no change to anything else. -/
theorem setPos_runs (hk : KernelHeap s.arena) (pos : Nat) :
    Runs stop (setStream stream fun st => { st with pos }) s fun _ s' => Reads ∅ ∅ s s' ∧
      s'.arena = s.arena ∧ (s'.streams stream).pos = pos := by
  refine Runs.modify ⟨⟨⟨Touches.refl hk ∅ ∅, rfl, fun st hd => ?_, rfl⟩, rfl⟩, rfl, ?_⟩
  · dsimp only
    by_cases hst : st = stream
    · rw [hst, Function.update_self]
      exact hst ▸ hd
    · rwa [Function.update_of_ne hst]
  · dsimp only
    rw [Function.update_self]

theorem diskStreamSeek_runs (hk : KernelHeap s.arena) (pos : Nat) :
    Runs stop (diskStreamSeek stream pos) s fun code s' => code = ok ∧ Reads ∅ ∅ s s' ∧
      s'.arena = s.arena ∧ (s'.streams stream).pos = pos :=
  Runs.bind (setPos_runs hk pos) fun _ _ h => Runs.pure ⟨rfl, h⟩

theorem advance_disk {st : Nat} : (Function.update s.streams stream
    ((s.streams stream).advance n) st).disk = (s.streams st).disk := by
  by_cases hst : st = stream
  · subst hst
    rw [Function.update_self]
    rfl
  · rw [Function.update_of_ne hst]

/-- The objects that lie in `n` bytes at `buffer`. -/
def objectsIn (buffer n : Nat) : Set Nat :=
  {b | ∃ x ∈ Set.Ico buffer (buffer + n), blockAt b ≤ x ∧ x < blockAt b + 4096}

/-- What a read of `n` bytes into `buffer` does whatever it answers: it changes the bytes of the
buffer only. -/
structure ReadInto (buffer n : Nat) (s s' : Sys) : Prop where
  reads : Reads (objectsIn buffer n) (Set.Ico buffer (buffer + n)) s s'
  held : ∀ b, Held s.arena b → Held s'.arena b

/-- **A read of any length.** -/
theorem diskStreamRead_runs (hk : KernelHeap s.arena) (hd : (s.streams stream).disk = primaryDisk)
    (h0 : n ≠ 0) (hn : n < 2 ^ 32) :
    Runs (fun _ => True) (diskStreamRead stream buffer n) s fun _ s' => ReadInto buffer n s s' := by
  refine Runs.of_returns fun code s' h => ?_
  obtain ⟨hk', hata, hdisks, ⟨-, -, hst, hf⟩ | ⟨-, -, hst, hf, -⟩⟩ := diskStreamRead_spec hk hd h0 hn h
  · refine ⟨⟨⟨(hf.mono (Set.empty_subset _)).touches hk hk', hdisks, fun st hdst => ?_,
      by rw [hata]⟩, by rw [hata]⟩, fun b hb => hf.held hk hb⟩
    rwa [hst]
  · refine ⟨⟨⟨hf.touches hk hk', hdisks, fun st hdst => ?_, by rw [hata]⟩, by rw [hata]⟩,
      fun b hb => hf.held hk hb⟩
    rw [hst]
    exact advance_disk.trans hdst

/-- What a read within one sector delivers. -/
structure SectorRead (stream buffer n : Nat) (s s' : Sys) : Prop extends ReadInto buffer n s s' where
  pos : (s'.streams stream).pos = ((s.streams stream).pos + n) % 2 ^ 32
  bytes : Owned s.arena buffer n → ∀ i < n, (s.streams stream).pos % 512 + i < 512 →
    s'.arena.mem (buffer + i) = s.ata.image ((s.streams stream).pos + i)
  card : (freeBlocks s.arena.heap).card ≤ (freeBlocks s'.arena.heap).card
  needs : (freeBlocks s.arena.heap).card ≠ 0 ∧ (s.streams stream).pos / 512 < s.ata.sectors

theorem affectedSectors_one (h0 : 0 < n) (hn : n ≤ 512) : diskStreamGetAffectedSectors n = 1 := by
  rw [affectedSectors_eq]
  omega

theorem localBufferSize_one (h0 : 0 < n) (hn : n ≤ 512) : localBufferSize n = 512 := by
  unfold localBufferSize
  rw [affectedSectors_one h0 hn]
  rfl

/-- A local buffer of one sector is an object, and it is given back. -/
theorem localBuffer_card {a a1 a2 : Arena} (hk : KernelHeap a) {p : Nat} {m : Mem}
    (h : heapMalloc 512 a = .ok p a1) (hf : heapFree p ⟨a1.heap, m⟩ = .ok () a2) :
    (freeBlocks a.heap).card ≤ (freeBlocks a2.heap).card := by
  obtain ⟨b, rfl, hnew⟩ := hk.alloc (by omega) (by omega) h
  have hk1 : KernelHeap ⟨a1.heap, m⟩ := hnew.touches.kernel.congr rfl
  obtain ⟨-, -, hcard⟩ := hk1.release ⟨hnew.held.lt, hnew.held.word⟩ hf
  have := hnew.card
  dsimp only at hcard
  omega

theorem localBuffer_returns {a : Arena} (hk : KernelHeap a) (hfree : (freeBlocks a.heap).card ≠ 0) :
    ∃ p a1, heapMalloc 512 a = .ok p a1 ∧ ∀ m, ∃ a2, heapFree p ⟨a1.heap, m⟩ = .ok () a2 := by
  obtain ⟨p, a1, h, b, rfl, hnew⟩ := Runs.total (hk.alloc_runs (n := 512) (by omega) (by omega)
    fun h0 => absurd h0 hfree)
  refine ⟨_, a1, h, fun m => ?_⟩
  have hk1 : KernelHeap ⟨a1.heap, m⟩ := hnew.touches.kernel.congr rfl
  obtain ⟨_, a2, hf, -⟩ := Runs.total (hk1.release_runs ⟨hnew.held.lt, hnew.held.word⟩)
  exact ⟨a2, hf⟩

/-- **A read of at most 512 bytes** returns `OK` with the bytes of the device, as far as they are in
the sector of the position, unless the heap is full or the disk ends. -/
theorem diskStreamRead_sector (hk : KernelHeap s.arena)
    (hd : (s.streams stream).disk = primaryDisk) (h0 : 0 < n) (hn : n ≤ 512)
    (hs : (freeBlocks s.arena.heap).card = 0 ∨ s.ata.sectors < (s.streams stream).pos / 512 + 1 →
      ∀ e, stop e) :
    Runs stop (diskStreamRead stream buffer n) s fun code s' =>
      code = ok ∧ SectorRead stream buffer n s s' := by
  have hone := affectedSectors_one h0 hn
  have hsize := localBufferSize_one h0 hn
  refine runs_iff.mpr ⟨fun code s' h => ?_, fun e s' h => hs ?_ e⟩
  · have hreads := (diskStreamRead_runs hk hd (by omega) (by omega)).ok h
    obtain ⟨p, a1, hm, hcase⟩ := (diskStreamRead_ok_iff (by omega) hd).mp h
    rw [hsize] at hm
    obtain ⟨-, -, -, ⟨hc, -⟩ | ⟨-, rfl, hst, -, hbytes⟩⟩ :=
      diskStreamRead_spec hk hd (by omega) (by omega) h
    · rw [hone] at hc
      exact absurd hc (by decide)
    · rcases hcase with ⟨hc, -⟩ | ⟨-, -, hin, a2, hf, rfl⟩
      · rw [hone] at hc
        exact absurd hc (by decide)
      · refine ⟨rfl, hreads, ?_, fun hown i hi hsec => hbytes hown i hi (by rw [hone]; omega),
          localBuffer_card hk hm hf, ?_, ?_⟩
        · rw [hst, Function.update_self]
          rfl
        · obtain ⟨b, -, hnew⟩ := hk.alloc (by omega) (by omega) hm
          have := hnew.card
          omega
        · rw [hone] at hin
          omega
  · by_contra hcon
    obtain ⟨p, a1, hm, hf⟩ := localBuffer_returns hk fun h0 => hcon (Or.inl h0)
    obtain ⟨a2, ha2⟩ := hf (readMem s a1.mem stream buffer p n)
    have hok : ∃ s', diskStreamRead stream buffer n s = .ok ok s' := ⟨_,
      (diskStreamRead_ok_iff (by omega) hd).mpr ⟨p, a1, by rw [hsize]; exact hm,
        Or.inr ⟨by rw [hone]; decide, rfl, by rw [hone]; omega, a2, ha2, rfl⟩⟩⟩
    obtain ⟨s', hok⟩ := hok
    rw [hok] at h
    cases h

/-- A read of any length cannot fail if it is of one sector or less.  If it is not refused, it delivers
the bytes of its sectors. -/
theorem diskStreamRead_any (hk : KernelHeap s.arena) (hd : (s.streams stream).disk = primaryDisk)
    (hn : n < 2 ^ 32) (hs : (freeBlocks s.arena.heap).card = 0 ∨
      s.ata.sectors < (s.streams stream).pos / 512 + 1 ∨ n = 0 ∨ 512 < n → ∀ e, stop e) :
    Runs stop (diskStreamRead stream buffer n) s fun code s' => ReadInto buffer n s s' ∧
      (0 < n ∧ n ≤ 512 → code = ok ∧
        (freeBlocks s.arena.heap).card ≤ (freeBlocks s'.arena.heap).card) ∧
      (code = ok → diskStreamGetAffectedSectors n % 256 ≠ 0 ∧
        (Owned s.arena buffer n → (s.streams stream).pos % 512 = 0 →
          ∀ i < n, i < 512 * (diskStreamGetAffectedSectors n % 256) →
            s'.arena.mem (buffer + i) = s.ata.image ((s.streams stream).pos + i))) := by
  rcases (by omega : (0 < n ∧ n ≤ 512) ∨ n = 0 ∨ 512 < n) with hsmall | hbig
  · refine (diskStreamRead_sector hk hd hsmall.1 hsmall.2 fun hbad =>
      hs (hbad.imp id Or.inl)).mono ?_
    rintro code s' ⟨rfl, hr⟩
    refine ⟨hr.toReadInto, fun _ => ⟨rfl, hr.card⟩, fun _ => ⟨?_, ?_⟩⟩
    · rw [affectedSectors_one hsmall.1 hsmall.2]
      decide
    · exact fun hown h0 i hi _ => hr.bytes hown i hi (by omega)
  · refine runs_iff.mpr ⟨fun code s' h => ?_, fun e _ _ => hs (Or.inr (Or.inr hbig)) e⟩
    by_cases h0 : n = 0
    · unfold diskStreamRead at h
      rw [if_pos h0] at h
      obtain ⟨rfl, rfl⟩ := (pure_ok_iff _ _ _ _).mp h
      exact ⟨⟨Reads.refl hk _ _, fun _ hb => hb⟩, fun h => absurd h (by omega),
        fun hbad => absurd hbad (by decide)⟩
    · refine ⟨(diskStreamRead_runs hk hd h0 hn).value h, fun h => absurd h (by omega), fun hcode => ?_⟩
      obtain ⟨-, -, -, ⟨-, hbad, -⟩ | ⟨hc, -, -, -, hbytes⟩⟩ := diskStreamRead_spec hk hd h0 hn h
      · exact absurd (hbad.symm.trans hcode) (by decide)
      · exact ⟨hc, fun hown hpos i hi hin => hbytes hown i hi (by omega)⟩

/-- What a write of the `n` bytes at `buffer` to `pos` does whatever it answers: of the device, it
changes the bytes at `pos` only, and no memory.  In one sector it writes what it has been given. -/
structure WriteAt (buffer pos n : Nat) (s s' : Sys) : Prop where
  quiet : Quiet ∅ ∅ s s'
  image : ∀ x, ¬ (pos ≤ x ∧ x < pos + n) → s'.ata.image x = s.ata.image x
  bytes : n ≤ 512 → Owned s.arena buffer n → ∀ i < n, s'.ata.image (pos + i) = s.arena.mem (buffer + i)

/-- **A write of any length** that fits its sectors.  It is refused if its sectors come to 0 in eight
bits; it cannot fail if it is of one sector or less. -/
theorem diskStreamWrite_any (hk : KernelHeap s.arena) (hd : (s.streams stream).disk = primaryDisk)
    (hn : n < 2 ^ 32) (hfit : FitsSectors (s.streams stream).pos n)
    (hs : (freeBlocks s.arena.heap).card = 0 ∨ s.ata.sectors < (s.streams stream).pos / 512 + 1 ∨
      n = 0 ∨ 512 < n → ∀ e, stop e) :
    Runs stop (diskStreamWrite stream buffer n) s fun code s' =>
      WriteAt buffer (s.streams stream).pos n s s' ∧ (0 < n ∧ n ≤ 512 → code = ok ∧
        (freeBlocks s.arena.heap).card ≤ (freeBlocks s'.arena.heap).card) ∧
      (code = ok ↔ n ≠ 0 ∧ diskStreamGetAffectedSectors n % 256 ≠ 0) := by
  by_cases h0 : n = 0
  · refine runs_iff.mpr ⟨fun code s' h => ?_, fun e _ _ => hs (Or.inr (Or.inr (Or.inl h0))) e⟩
    unfold diskStreamWrite at h
    rw [if_pos h0] at h
    obtain ⟨rfl, rfl⟩ := (pure_ok_iff _ _ _ _).mp h
    exact ⟨⟨Quiet.refl hk _ _, fun _ _ => rfl, fun _ _ i hi => absurd hi (by omega)⟩,
      fun h => absurd h (by omega), iff_of_false (by decide) fun h => h.1 h0⟩
  · refine runs_iff.mpr ⟨fun code s' h => ?_, fun e s' h => hs ?_ e⟩
    · obtain ⟨hk', hdisks, hsectors, hf, hcase⟩ := diskStreamWrite_effect hk hd h0 hn hfit h
      have ht : Touches ∅ ∅ s.arena s'.arena := by
        refine (hf.touches hk hk').mono ?_ (Set.empty_subset _)
        rintro c ⟨x, hx, -⟩
        exact hx.elim
      refine ⟨?_, fun hsmall => ⟨?_, ?_⟩, ?_⟩
      · rcases hcase with ⟨hc, -, hst, himage⟩ | ⟨-, -, hst, v, hv, himage⟩
        · refine ⟨⟨ht, hdisks, fun st hdst => by rwa [hst], hsectors⟩, fun x _ => by rw [himage],
            fun hsmall _ => ?_⟩
          rw [affectedSectors_one (by omega) hsmall] at hc
          exact absurd hc (by decide)
        · refine ⟨⟨ht, hdisks, fun st hdst => ?_, hsectors⟩, fun x hx => ?_, fun hsmall hown i hi => ?_⟩
          · rw [hst]
            exact advance_disk.trans hdst
          · rw [himage, if_neg fun hc => hx ⟨hc.1, hc.2.1⟩]
          · unfold FitsSectors at hfit
            rw [affectedSectors_one (by omega) hsmall] at hfit himage
            rw [himage, if_pos (by omega)]
            exact hv hown i hi
      · rcases hcase with ⟨hc, -⟩ | ⟨-, rfl, -⟩
        · rw [affectedSectors_one hsmall.1 hsmall.2] at hc
          exact absurd hc (by decide)
        · rfl
      · obtain ⟨p, a1, hm, hcase⟩ := (diskStreamWrite_ok_iff h0 hd).mp h
        rw [localBufferSize_one hsmall.1 hsmall.2] at hm
        rcases hcase with ⟨-, -, a2, hfree, rfl⟩ | ⟨-, -, -, a2, hfree, rfl⟩
        · exact localBuffer_card hk hm hfree
        · exact localBuffer_card hk hm hfree
      · rcases hcase with ⟨hc, rfl, -⟩ | ⟨hc, rfl, -⟩
        · exact iff_of_false (by decide) fun h => h.2 hc
        · exact iff_of_true rfl ⟨h0, hc⟩
    · by_contra hcon
      have hsmall : 0 < n ∧ n ≤ 512 := by omega
      obtain ⟨p, a1, hm, hf⟩ := localBuffer_returns hk fun h0 => hcon (Or.inl h0)
      obtain ⟨a2, ha2⟩ := hf (writeMem s a1.mem stream buffer p n)
      have hone := affectedSectors_one hsmall.1 hsmall.2
      have hok : ∃ s', diskStreamWrite stream buffer n s = .ok ok s' := ⟨_,
        (diskStreamWrite_ok_iff h0 hd).mpr ⟨p, a1,
          by rw [localBufferSize_one hsmall.1 hsmall.2]; exact hm,
          Or.inr ⟨by rw [hone]; decide, rfl, by rw [hone]; omega, a2, ha2, rfl⟩⟩⟩
      obtain ⟨s', hok⟩ := hok
      rw [hok] at h
      cases h

/-! ## 4. Transfers that return -/

/-- A transfer of `n` bytes through the stream has what it needs: a run of free blocks for its local
buffer, and the sectors that it asks the device for. -/
structure Transferable (s : Sys) (stream n : Nat) : Prop where
  pos : 0 < blocksOf (localBufferSize n)
  buffer : ∃ b, b + blocksOf (localBufferSize n) ≤ 25600 ∧
    FreeRun s.arena.heap.table b (blocksOf (localBufferSize n))
  sectors : diskStreamGetAffectedSectors n % 256 ≠ 0 →
    (s.streams stream).pos / 512 + diskStreamGetAffectedSectors n % 256 ≤ s.ata.sectors

/-- A heap that is nearly empty has room for every buffer that is not too long. -/
theorem Transferable.of_card (hk : KernelHeap s.arena) (hpos : 0 < blocksOf (localBufferSize n))
    (hcard : 25600 < 25600 / blocksOf (localBufferSize n) + (freeBlocks s.arena.heap).card)
    (hsectors : diskStreamGetAffectedSectors n % 256 ≠ 0 →
      (s.streams stream).pos / 512 + diskStreamGetAffectedSectors n % 256 ≤ s.ata.sectors) :
    Transferable s stream n := by
  refine ⟨hpos, ?_, hsectors⟩
  have hfew : s.arena.heap.table.total - (freeBlocks s.arena.heap).card <
      s.arena.heap.table.total / blocksOf (localBufferSize n) := by
    rw [hk.total]
    have hle : (freeBlocks s.arena.heap).card ≤ 25600 := by
      rw [← hk.total, ← Finset.card_range s.arena.heap.table.total]
      exact Finset.card_le_card (Finset.filter_subset _ _)
    omega
  obtain ⟨b, hb, hrun⟩ := exists_freeRun hpos hfew
  exact ⟨b, hk.total ▸ hb, hrun⟩

theorem Transferable.allocates (hk : KernelHeap s.arena)
    (h : Transferable s stream n) : ∃ p a1, heapMalloc (localBufferSize n) s.arena = .ok p a1 ∧
      ∀ m, ∃ a2, heapFree p ⟨a1.heap, m⟩ = .ok () a2 := by
  obtain ⟨b, hb, hrun⟩ := h.buffer
  obtain ⟨p, a1, hm⟩ := heapMalloc_returns (s := s.arena) (by rw [hk.total]; exact hb) hrun
  have hsize : localBufferSize n < 2 ^ 32 := Nat.mod_lt _ (by omega)
  refine ⟨p, a1, hm, fun m => ?_⟩
  rcases hk.malloc hsize hm with ⟨h0, -⟩ | ⟨c, rfl, hpos, -, hadd⟩
  · have hpos := h.pos
    unfold blocksOf at hpos
    rw [h0] at hpos
    exact absurd hpos (by decide)
  · exact hadd.free_returns hpos m

/-- **A write returns** if it has what a transfer needs. -/
theorem diskStreamWrite_returns (hk : KernelHeap s.arena)
    (hd : (s.streams stream).disk = primaryDisk) (h0 : n ≠ 0)
    (h : Transferable s stream n) : ∃ code s', diskStreamWrite stream buffer n s = .ok code s' := by
  obtain ⟨p, a1, hm, hf⟩ := h.allocates hk
  by_cases hc : diskStreamGetAffectedSectors n % 256 = 0
  · obtain ⟨a2, ha2⟩ := hf a1.mem
    exact ⟨_, _, (diskStreamWrite_ok_iff h0 hd).mpr ⟨p, a1, hm, Or.inl ⟨hc, rfl, a2, ha2, rfl⟩⟩⟩
  · obtain ⟨a2, ha2⟩ := hf (writeMem s a1.mem stream buffer p n)
    exact ⟨_, _, (diskStreamWrite_ok_iff h0 hd).mpr ⟨p, a1, hm,
      Or.inr ⟨hc, rfl, h.sectors hc, a2, ha2, rfl⟩⟩⟩

end

end KokoOs
