/-
# Numbers written and read back

`itoa` measures the numeral of a number on an unsigned copy, takes a block for it, and fills it from
the back.  `atoi` reads it back.

* **What is written.**  The counting loop adds the number of digits, and the writing loop stores
  them (`itoaLength_eq`, `itoaDigits_eq`).  So what is in memory then is the numeral, with the sign
  in front and the NUL behind (`itoaStore_cstring`), if the two loops have gone over the same
  number.
* **What is read.**  A canonical numeral that is stored is read back as its number
  (`atoi_of_canonical`).
* **The exception** is the least `int`: its negation wraps to itself, so the copy has ten digits,
  but there is nothing positive to write digits of (`itoa_min`).  Only the sign and the NUL are
  stored, and what is between them is what memory held.

`itoaRight_iff` says that all numbers but the least survive the round trip.
-/
import KokoOs.StrNumber

namespace KokoOs

open Bytes Prog Decimal

/-! ## 1. The loops -/

/-- The counting loop adds the number of digits. -/
theorem itoaLength_eq (n length : Nat) : itoaLength n length = length + (decimal n).length := by
  induction n using Nat.strong_induction_on generalizing length with
  | h n ih =>
    rw [itoaLength]
    split
    · next hpos =>
      rw [ih (n / 10) (by omega), decimal_pos hpos, List.length_append, List.length_singleton]
      omega
    · next hzero =>
      obtain rfl : n = 0 := by omega
      simp

/-- **The writing loop stores the digits**, the last of them at the index it begins with. -/
theorem itoaDigits_eq (string : Nat) {n index first : Nat} (m : Mem) (hlt : index < 2 ^ 32)
    (hindex : 0 < n → index + 1 = first + (decimal n).length) :
    itoaDigits string n index m = blit m (string + first) (decimal n) := by
  induction n using Nat.strong_induction_on generalizing index m with
  | h n ih =>
    rw [itoaDigits]
    split
    · next hpos =>
      have hpos' : 0 < n := by omega
      have hdiv : ((n : Int) / 10) = ((n / 10 : Nat) : Int) := by omega
      have hmod : ((n : Int) % 10).toNat = n % 10 := by omega
      have hlen := hindex hpos'
      rw [decimal_pos hpos', List.length_append, List.length_singleton] at hlen
      rw [hdiv, hmod, ih (n / 10) (by omega) _ (Nat.mod_lt _ (by decide)), decimal_pos hpos', ← blit_snoc,
        show string + index = string + first + (decimal (n / 10)).length by omega]
      · rfl
      · intro hmore
        have hne : 0 < (decimal (n / 10)).length :=
          List.length_pos_iff.mpr fun h0 => hmore.ne' (decimal_eq_nil.mp h0)
        omega
    · next hzero =>
      obtain rfl : n = 0 := by omega
      funext x
      rw [decimal_zero, blit_of_not_mem (by simp)]

/-! ## 2. What is in memory -/

/-- What `itoa` stores at `string`. -/
def itoaStore (m : Mem) (string : Nat) (number : Int) (isNegative length : Nat) : Mem :=
  Function.update (itoaDigits string number (length - 2)
    (if isNegative ≠ 0 then Function.update m string 45 else m)) (string + (length - 1)) 0

/-- **`itoa` takes a block and fills it**, if there is one. -/
theorem itoa_run {a : Arena} (hk : KernelHeap a) (hfree : (freeBlocks a.heap).card ≠ 0) {n m : Int}
    {neg : Nat} (h0 : n ≠ 0) (hneg : (if n < 0 then 1 else 0) = neg)
    (hm : (if n < 0 then toInt (n * -1) else n) = m)
    (hsmall : itoaLength (m % 2 ^ 32).toNat 0 + 1 + neg ≤ 4096) :
    ∃ b a', Alloc a a' b ∧ itoa n a = .ok (blockAt b) ⟨a'.heap,
      itoaStore a.mem (blockAt b) m neg (itoaLength (m % 2 ^ 32).toNat 0 + 1 + neg)⟩ := by
  obtain ⟨p, a', hrun, b, rfl, hnew⟩ := Runs.total (hk.alloc_runs
    (n := itoaLength (m % 2 ^ 32).toNat 0 + 1 + neg) (by omega) hsmall fun hcard => absurd hcard hfree)
  refine ⟨b, a', hnew, ?_⟩
  have hmem := hnew.mem
  unfold itoa
  rw [if_neg h0]
  simp only [hneg, hm]
  rw [bind_of_ok hrun, ← hmem]
  unfold itoaStore
  split
  · rfl
  · rfl

/-- The numeral of a number other than 0. -/
def signedDecimal (n : Int) : List UInt8 := (if n < 0 then [45] else []) ++ decimal n.natAbs

theorem length_signedDecimal (n : Int) : (signedDecimal n).length
    = (if n < 0 then 1 else 0) + (decimal n.natAbs).length := by
  unfold signedDecimal
  split
  · rw [List.length_append, List.length_singleton]
  · simp

theorem signedDecimal_canonical {n : Int} (h0 : n ≠ 0) : Canonical n (signedDecimal n) := by
  have hne : decimal n.natAbs ≠ [] := fun hnil => h0 (by simpa using hnil)
  have hds : ∀ c ∈ decimal n.natAbs, IsDigit c := fun c hc => isDigit_of_mem_decimal hc
  have hval := decimalFrom_decimal n.natAbs
  have hlead := head?_decimal_ne_zero n.natAbs
  unfold signedDecimal
  by_cases hneg : n < 0
  · rw [if_pos hneg]
    have hnum := Numeral.negative hne hds
    rw [hval, show -(n.natAbs : Int) = n by omega] at hnum
    refine ⟨hnum, iff_of_true rfl hneg, fun t ht => ?_⟩
    rcases ht with heq | heq
    · simp at heq
    · simp at heq
      simp [heq] at hlead
  · rw [if_neg hneg, List.nil_append]
    have hnum := Numeral.positive hne hds
    rw [hval, show (n.natAbs : Int) = n by omega] at hnum
    refine ⟨hnum, iff_of_false (fun hhead => ?_) hneg, fun t ht => ?_⟩
    · exact ne_minus_of_isDigit (hds 45 (List.mem_of_head? hhead)) rfl
    · rcases ht with heq | heq
      · simp [heq] at hlead
      · exact absurd rfl (ne_minus_of_isDigit (hds 45 (by simp [heq])))

/-- A sign, perhaps, and digits behind it, with a NUL. -/
theorem signed_cstring (m : Mem) (string : Nat) (sign ds : List UInt8) (hsign : ∀ i < sign.length,
    m (string + i) = sign.getD i 0) : CString (Function.update (blit m (string + sign.length) ds)
      (string + (sign.length + ds.length)) 0) string (sign ++ ds) := by
  intro i hi
  rw [List.length_append] at hi
  by_cases hlast : i = sign.length + ds.length
  · rw [hlast, Function.update_self, List.getD_eq_default _ _ (by simp)]
  · rw [Function.update_of_ne (by omega)]
    rcases Nat.lt_or_ge i sign.length with hlt | hge
    · rw [blit_of_not_mem (by omega), List.getD_append _ _ _ _ hlt]
      exact hsign i hlt
    · rw [blit_of_mem (by omega), List.getD_append_right _ _ _ _ hge,
        show string + i - (string + sign.length) = i - sign.length by omega]

/-- **What `itoa` stores is the numeral**, if the digits are those of the absolute value. -/
theorem itoaStore_cstring (m : Mem) (string : Nat) {n : Int} (h0 : n ≠ 0) (h1 : n.natAbs < 2 ^ 31) :
    CString (itoaStore m string n.natAbs (if n < 0 then 1 else 0)
      ((decimal n.natAbs).length + 1 + (if n < 0 then 1 else 0))) string (signedDecimal n) := by
  have hlen : (decimal n.natAbs).length ≤ 10 := length_decimal_le_iff.mpr (by omega)
  have hpos : 0 < (decimal n.natAbs).length :=
    List.length_pos_iff.mpr fun hnil => h0 (by simpa using hnil)
  unfold itoaStore signedDecimal
  by_cases hneg : n < 0
  · have hwrite : itoaDigits string n.natAbs ((decimal n.natAbs).length + 1 + 1 - 2)
        (Function.update m string 45) = blit (Function.update m string 45) (string + 1) (decimal n.natAbs) :=
      itoaDigits_eq string _ (by omega) fun _ => by omega
    have hend : (decimal n.natAbs).length + 1 + 1 - 1 = 1 + (decimal n.natAbs).length := by omega
    simp only [if_pos hneg]
    rw [if_pos (by decide), hwrite, hend]
    refine signed_cstring (Function.update m string 45) string [45] (decimal n.natAbs) fun i hi => ?_
    obtain rfl : i = 0 := by simpa using hi
    exact Function.update_self _ _ _
  · have hwrite : itoaDigits string n.natAbs ((decimal n.natAbs).length + 1 + 0 - 2) m
        = blit m (string + 0) (decimal n.natAbs) :=
      itoaDigits_eq string _ (by omega) fun _ => by omega
    have hend : (decimal n.natAbs).length + 1 + 0 - 1 = 0 + (decimal n.natAbs).length := by omega
    simp only [if_neg hneg]
    rw [if_neg (by decide), hwrite, hend]
    exact signed_cstring m string [] (decimal n.natAbs) fun i hi => absurd hi (by simp)

/-! ## 3. The round trip -/

/-- `itoa(n)` is the canonical numeral of `n`, and `atoi` of it is `n`; with the constant `"0"` where
it is, and a free block. -/
def ItoaRight (n : Int) : Prop :=
  ∀ a, KernelHeap a → CString a.mem zeroString [48] → (freeBlocks a.heap).card ≠ 0 →
    ∃ p a' bytes, itoa n a = .ok p a' ∧ CString a'.mem p bytes ∧ Canonical n bytes ∧
      atoi (strAt a'.mem p) = .ok n

theorem canonical_zero : Canonical 0 [48] where
  numeral := Numeral.positive (by simp) (by simp [IsDigit])
  sign := iff_of_false (by simp) (lt_irrefl 0)
  leading t h := rfl

/-- No byte of a numeral is the NUL. -/
theorem Numeral.zero_not_mem {bytes : List UInt8} {v : Int} (h : Numeral bytes v) : 0 ∉ bytes := by
  intro hin
  rcases h.shape.1 0 hin with h0 | h0
  · exact absurd h0 (by decide)
  · exact absurd h0 (by decide)

/-- A stored canonical numeral is read back. -/
theorem atoi_of_canonical {m : Mem} {p : Nat} {bytes : List UInt8} {n : Int} (h : CString m p bytes)
    (hc : Canonical n bytes) (hlen : bytes.length < 65536) (h1 : -2 ^ 31 ≤ n) (h2 : n < 2 ^ 31) :
    atoi (strAt m p) = .ok n :=
  atoi_numeral (h.spells hc.numeral.zero_not_mem) hlen hc.numeral h1 h2

/-- The numbers with an absolute value come out right. -/
theorem itoaRight_of_natAbs {n : Int} (h : n.natAbs < 2 ^ 31) : ItoaRight n := by
  intro a hk hzero hfree
  have h1 : -2 ^ 31 ≤ n := by omega
  have h2 : n < 2 ^ 31 := by omega
  by_cases h0 : n = 0
  · subst h0
    exact ⟨zeroString, a, [48], rfl, hzero, canonical_zero,
      atoi_of_canonical hzero canonical_zero (by decide) h1 h2⟩
  · have hlen : (decimal n.natAbs).length ≤ 10 := length_decimal_le_iff.mpr (by omega)
    have hm : (if n < 0 then toInt (n * -1) else n) = n.natAbs := by
      split
      · rw [toInt_of_fits (by omega) (by omega)]
        omega
      · omega
    have hcopy : (((n.natAbs : Nat) : Int) % 2 ^ 32).toNat = n.natAbs := by omega
    have hcount : itoaLength (((n.natAbs : Nat) : Int) % 2 ^ 32).toNat 0 = (decimal n.natAbs).length := by
      rw [itoaLength_eq, hcopy, Nat.zero_add]
    obtain ⟨b, a', -, hrun⟩ := itoa_run hk hfree h0 rfl hm (by
      rw [hcount]
      split
      · omega
      · omega)
    rw [hcount] at hrun
    have hstr := itoaStore_cstring a.mem (blockAt b) h0 h
    have hcanon := signedDecimal_canonical h0
    refine ⟨_, _, _, hrun, hstr, hcanon, atoi_of_canonical hstr hcanon ?_ h1 h2⟩
    rw [length_signedDecimal]
    split
    · omega
    · omega

/-- Of the least `int`, the sign is stored, and the NUL behind room for ten digits. -/
theorem itoa_min {a : Arena} (hk : KernelHeap a) (hfree : (freeBlocks a.heap).card ≠ 0) :
    ∃ b a', itoa (-2 ^ 31) a = .ok (blockAt b) ⟨a', Function.update
      (Function.update a.mem (blockAt b) 45) (blockAt b + 11) 0⟩ := by
  have hm : (if (-2 ^ 31 : Int) < 0 then toInt (-2 ^ 31 * -1) else -2 ^ 31) = -2 ^ 31 := by decide
  have hcount : itoaLength (((-2 ^ 31 : Int) % 2 ^ 32)).toNat 0 = 10 := by
    have h1 : (decimal (2 ^ 31)).length ≤ 10 := length_decimal_le_iff.mpr (by decide)
    have h2 : ¬ (decimal (2 ^ 31)).length ≤ 9 := fun h => absurd (length_decimal_le_iff.mp h) (by decide)
    have hcopy : ((-2 ^ 31 : Int) % 2 ^ 32).toNat = 2 ^ 31 := by decide
    rw [itoaLength_eq, hcopy]
    omega
  obtain ⟨b, a', -, hrun⟩ := itoa_run hk hfree (by decide) rfl hm (by
    rw [hcount]
    decide)
  refine ⟨b, a'.heap, hrun.trans ?_⟩
  rw [hcount]
  unfold itoaStore
  rw [itoaDigits, if_neg (by decide)]
  rfl

/-- Where the memory was empty, that is the string `-`. -/
theorem itoa_min_minus : ∃ a p a', KernelHeap a ∧ CString a.mem zeroString [48] ∧
    (freeBlocks a.heap).card ≠ 0 ∧ itoa (-2 ^ 31) a = .ok p a' ∧ CString a'.mem p [45] := by
  have hk := freshKernel_kernelHeap fun x => if x = zeroString then 48 else 0
  have hcard := freshKernel_free fun x => if x = zeroString then 48 else 0
  obtain ⟨b, h', hrun⟩ := itoa_min hk (by omega)
  have hb : zeroString + 1 < blockAt b := by
    unfold blockAt
    simp only [zeroString, memoryHeapStartAddress]
    omega
  refine ⟨_, _, _, hk, fun i hi => ?_, by omega, hrun, fun i hi => ?_⟩
  · rcases Nat.le_one_iff_eq_zero_or_eq_one.mp hi with rfl | rfl
    · rfl
    · rfl
  · rcases Nat.le_one_iff_eq_zero_or_eq_one.mp hi with rfl | rfl
    · exact (Function.update_of_ne (by omega) _ _).trans (Function.update_self _ _ _)
    · refine (Function.update_of_ne (by omega) _ _).trans ((Function.update_of_ne (by omega) _ _).trans ?_)
      exact if_neg (by omega)

/-- The least `int` does not come out right: `-` is the numeral of no number. -/
theorem not_itoaRight_min : ¬ ItoaRight (-2 ^ 31) := by
  intro hright
  obtain ⟨a, p, a', hk, hzero, hfree, hrun, hstr⟩ := itoa_min_minus
  obtain ⟨p1, a1, bytes, hrun1, hstr1, hcanon, -⟩ := hright a hk hzero hfree
  obtain ⟨rfl, rfl⟩ := EStateM.Result.ok.inj (hrun.symm.trans hrun1)
  have hbytes := hstr1.unique hstr hcanon.numeral.zero_not_mem (by decide)
  exact hcanon.numeral.shape.2.2 hbytes

/-- **Which numbers survive the round trip**: all but the least. -/
theorem itoaRight_iff {n : Int} (h1 : -2 ^ 31 ≤ n) (h2 : n < 2 ^ 31) : ItoaRight n ↔ n ≠ -2 ^ 31 := by
  constructor
  · rintro hright rfl
    exact not_itoaRight_min hright
  · intro hne
    exact itoaRight_of_natAbs (by omega)

/-- The greatest `int`, and the least but one. -/
theorem itoaRight_extremes : ItoaRight (2 ^ 31 - 1) ∧ ItoaRight (-(2 ^ 31 - 1)) :=
  ⟨(itoaRight_iff (by decide) (by decide)).mpr (by decide),
    (itoaRight_iff (by decide) (by decide)).mpr (by decide)⟩

/-- **The least `int` is written as `-`** where the memory was empty. -/
theorem itoa_loses_min : (∃ a p a', KernelHeap a ∧ CString a.mem zeroString [48] ∧
    (freeBlocks a.heap).card ≠ 0 ∧ itoa (-2 ^ 31) a = .ok p a' ∧ CString a'.mem p [45]) ∧
    ¬ ItoaRight (-2 ^ 31) :=
  ⟨itoa_min_minus, not_itoaRight_min⟩

end KokoOs
