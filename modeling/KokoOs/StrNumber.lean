/-
# Numbers as strings (`lib/string.c`)

`atoi` reads a decimal numeral, `itoa` writes one.  An `int` has 32 bits and wraps around, as in the
code the kernel is built to (`-O0`).

* **Reading.**  `atoi` takes a `-` for the sign wherever it stands and however often, and does not
  ask for a digit.  The loop is followed over any bytes: it refuses as soon as one is neither a
  digit nor a sign (`atoiLoop_refuses`), and goes through if none is (`atoiLoop_accepts`).
* **What is wanted.**  `Numeral` says which strings are numerals, and of which number.  `AtoiRight`
  asks that the others be refused, and that the value of one that fits be returned.
* **The result.**  `atoiRight_iff` says on which strings this is so: on those with a byte that is
  neither, and on those whose only sign, if any, is in front of a digit.
* **Writing.**  `itoa` counts the digits on an unsigned copy, and then writes them from the back as
  long as the number itself is positive, which the negative number without a positive one never is.
  Only the functions are here; `StrRoundTrip.lean` is about what they write.
-/
import KokoOs.StrSpec
import KokoOs.Lib.Decimal

namespace KokoOs

open Bytes Prog Decimal

/-- A value as a 32-bit `int`. -/
def toInt (x : Int) : Int := x.bmod (2 ^ 32)

/-! ## 1. The functions -/

/-- The loop of `atoi` from index `i` on, with `is_negative` and `assembled_number`. -/
def atoiLoop (number : CStr) : Nat → Nat → Bool → Int → Except Halt (Bool × Int)
  | 0, _, isNegative, assembledNumber => .ok (isNegative, assembledNumber)
  | fuel + 1, i, isNegative, assembledNumber =>
    if number i = 45 then atoiLoop number fuel (i + 1) true assembledNumber
    else
      let assembledNumber := toInt (assembledNumber * 10)
      if !isDigit (number i) then .error (.panic "String is not a number!")
      else
        atoiLoop number fuel (i + 1) isNegative
          (toInt (assembledNumber + signedChar (getDigit (number i))))

/-- `atoi`. -/
def atoi (number : CStr) : Except Halt Int :=
  match strlen number with
  | none => .error .hang
  | some length =>
    if length = 0 then .ok 0
    else do
      let (isNegative, assembledNumber) ← atoiLoop number length 0 false 0
      return if isNegative then toInt (assembledNumber * -1) else assembledNumber

/-- The loop of `itoa` that counts the digits of the unsigned copy. -/
def itoaLength (numberCopy length : Nat) : Nat :=
  if numberCopy > 0 then itoaLength (numberCopy / 10) (length + 1) else length
termination_by numberCopy

/-- The loop of `itoa` that writes the digits, from `index` downwards. -/
def itoaDigits (string : Nat) (number : Int) (index : Nat) (m : Mem) : Mem :=
  if number > 0 then
    itoaDigits string (number / 10) ((index + 2 ^ 32 - 1) % 2 ^ 32)
      (Function.update m (string + index) (UInt8.ofNat (48 + (number % 10).toNat)))
  else m
termination_by number.toNat
decreasing_by omega

/-- Where the constant `"0"` is. -/
abbrev zeroString : Nat := 0x00110002

/-- `itoa`. -/
def itoa (number : Int) : HeapM Nat := do
  if number = 0 then return zeroString
  else
    let isNegative := if number < 0 then 1 else 0
    let number := if number < 0 then toInt (number * -1) else number
    let length := itoaLength (number % 2 ^ 32).toNat 0
    let length := length + 1 + isNegative
    let string ← heapMalloc length
    if isNegative ≠ 0 then storeHeap fun m => Function.update m string 45
    storeHeap (itoaDigits string number (length - 2))
    storeHeap fun m => Function.update m (string + (length - 1)) 0
    return string

/-! ## 2. Numerals -/

/-- `bytes` is one or more digits, perhaps with a `-` in front, and `v` is their value. -/
inductive Numeral : List UInt8 → Int → Prop
  | positive {ds : List UInt8} (hne : ds ≠ []) (hds : ∀ c ∈ ds, IsDigit c) :
      Numeral ds (decimalFrom 0 ds)
  | negative {ds : List UInt8} (hne : ds ≠ []) (hds : ∀ c ∈ ds, IsDigit c) :
      Numeral (45 :: ds) (-decimalFrom 0 ds)

/-- The canonical numeral: a `-` for a negative number only, and no leading zero. -/
structure Canonical (n : Int) (bytes : List UInt8) : Prop where
  numeral : Numeral bytes n
  sign : bytes.head? = some 45 ↔ n < 0
  leading : ∀ t, bytes = 48 :: t ∨ bytes = 45 :: 48 :: t → bytes = [48]

theorem isDigit_iff {c : UInt8} : isDigit c = true ↔ IsDigit c := by
  have hc := c.toNat_lt
  unfold isDigit signedChar IsDigit
  rw [Bool.and_eq_true, decide_eq_true_iff, decide_eq_true_iff]
  split
  · omega
  · omega

/-- A digit is not the sign. -/
theorem ne_minus_of_isDigit {c : UInt8} (h : IsDigit c) : c ≠ 45 := by
  rintro rfl
  exact absurd h (by decide)

theorem signedChar_getDigit {c : UInt8} (h : IsDigit c) : signedChar (getDigit c) = (c.toNat - 48 : Nat) := by
  obtain ⟨h1, h2⟩ := h
  have hsub : (c - 48).toNat = c.toNat - 48 := by
    rw [UInt8.toNat_sub_of_le]
    · rfl
    · exact UInt8.le_iff_toNat_le.mpr h1
  unfold signedChar getDigit
  rw [hsub, if_pos (by omega)]

theorem toInt_of_fits {x : Int} (h1 : -2 ^ 31 ≤ x) (h2 : x < 2 ^ 31) : toInt x = x := by
  unfold toInt
  exact Int.bmod_eq_of_le (by omega) (by omega)

/-! ## 3. What `atoi` accepts -/

/-- A digit turns the number that was read into the next one. -/
theorem toInt_step (v d : Nat) :
    toInt (toInt (toInt v * 10) + (d : Int)) = toInt ((10 * v + d : Nat) : Int) := by
  unfold toInt
  rw [Int.bmod_mul_bmod, Int.bmod_add_bmod]
  push_cast
  ring_nf

/-- **Digits are read as the number they are the digits of**, whatever the sign. -/
theorem atoiLoop_digits {number : CStr} {neg : Bool} {ds : List UInt8} {i v : Nat}
    (h : ReadsAt number i ds) (hds : ∀ c ∈ ds, IsDigit c) :
    atoiLoop number ds.length i neg (toInt v) = .ok (neg, toInt (decimalFrom v ds)) := by
  induction ds generalizing i v with
  | nil => rfl
  | cons c ds ih =>
    obtain ⟨hc, hrest⟩ := readsAt_cons.mp h
    have hdigit := hds c List.mem_cons_self
    rw [List.length_cons, atoiLoop, hc, if_neg (ne_minus_of_isDigit hdigit), isDigit_iff.mpr hdigit,
      signedChar_getDigit hdigit]
    simp only [Bool.not_true, Bool.false_eq_true, if_false, decimalFrom_cons]
    rw [toInt_step]
    exact ih hrest fun d hd => hds d (List.mem_cons_of_mem _ hd)

/-- A byte that is neither is refused, wherever it stands. -/
theorem atoiLoop_refuses {number : CStr} {bytes : List UInt8} {i : Nat} {neg : Bool} {n : Int}
    (h : ReadsAt number i bytes) (hbad : ∃ c ∈ bytes, c ≠ 45 ∧ ¬ IsDigit c) :
    atoiLoop number bytes.length i neg n = .error (.panic "String is not a number!") := by
  induction bytes generalizing i neg n with
  | nil => simp at hbad
  | cons c bytes ih =>
    obtain ⟨hc, hrest⟩ := readsAt_cons.mp h
    rw [List.length_cons, atoiLoop, hc]
    by_cases hfirst : c ≠ 45 ∧ ¬ IsDigit c
    · simp [hfirst.1, isDigit_iff, hfirst.2]
    · have hbad' : ∃ d ∈ bytes, d ≠ 45 ∧ ¬ IsDigit d := by
        obtain ⟨d, hd, hbad⟩ := hbad
        rcases List.mem_cons.mp hd with rfl | hd
        · exact absurd hbad hfirst
        · exact ⟨d, hd, hbad⟩
      split
      · exact ih hrest hbad'
      · next hminus =>
        have hdigit : IsDigit c := by_contra fun hno => hfirst ⟨hminus, hno⟩
        simp only [isDigit_iff.mpr hdigit, Bool.not_true, Bool.false_eq_true, if_false]
        exact ih hrest hbad'

/-- If there is none, the loop goes through, however many signs there are. -/
theorem atoiLoop_accepts {number : CStr} {bytes : List UInt8} {i : Nat} {neg : Bool} {n : Int}
    (h : ReadsAt number i bytes) (hgood : ∀ c ∈ bytes, c = 45 ∨ IsDigit c) :
    ∃ r, atoiLoop number bytes.length i neg n = .ok r := by
  induction bytes generalizing i neg n with
  | nil => exact ⟨_, rfl⟩
  | cons c bytes ih =>
    obtain ⟨hc, hrest⟩ := readsAt_cons.mp h
    have hgood' : ∀ d ∈ bytes, d = 45 ∨ IsDigit d := fun d hd => hgood d (List.mem_cons_of_mem _ hd)
    rw [List.length_cons, atoiLoop, hc]
    rcases hgood c List.mem_cons_self with hminus | hdigit
    · rw [if_pos hminus]
      exact ih hrest hgood'
    · simp only [if_neg (ne_minus_of_isDigit hdigit), isDigit_iff.mpr hdigit, Bool.not_true,
        Bool.false_eq_true, if_false]
      exact ih hrest hgood'

/-- `atoi` is right about a string: it panics if that is no numeral, and returns the value of one that
fits. -/
structure AtoiRight (number : CStr) (bytes : List UInt8) : Prop where
  refuses : (∀ v, ¬ Numeral bytes v) → atoi number = .error (.panic "String is not a number!")
  returns : ∀ v, Numeral bytes v → -2 ^ 31 ≤ v → v < 2 ^ 31 → atoi number = .ok v

section

variable {number : CStr} {bytes : List UInt8}

theorem Numeral.ne_nil {v : Int} (h : Numeral bytes v) : bytes ≠ [] := by
  cases h with
  | positive hne _ => exact hne
  | negative _ _ => exact List.cons_ne_nil _ _

/-- A numeral consists of digits and signs, and has no sign behind its first byte. -/
theorem Numeral.shape {v : Int} (h : Numeral bytes v) :
    (∀ c ∈ bytes, c = 45 ∨ IsDigit c) ∧ 45 ∉ bytes.tail ∧ bytes ≠ [45] := by
  cases h with
  | positive hne hds =>
    refine ⟨fun c hc => Or.inr (hds c hc), fun hin => ?_, fun heq => ?_⟩
    · exact ne_minus_of_isDigit (hds 45 (List.mem_of_mem_tail hin)) rfl
    · exact ne_minus_of_isDigit (hds 45 (by simp [heq])) rfl
  | negative hne hds =>
    refine ⟨fun c hc => ?_, fun hin => ne_minus_of_isDigit (hds 45 hin) rfl, fun heq => ?_⟩
    · rcases List.mem_cons.mp hc with hminus | hin
      · exact Or.inl hminus
      · exact Or.inr (hds c hin)
    · exact hne (List.cons_eq_cons.mp heq).2

/-- Every string of that shape is a numeral. -/
theorem numeral_of_shape (hne : bytes ≠ []) (hgood : ∀ c ∈ bytes, c = 45 ∨ IsDigit c)
    (htail : 45 ∉ bytes.tail) (hminus : bytes ≠ [45]) : ∃ v, Numeral bytes v := by
  obtain ⟨c, ds, rfl⟩ := List.exists_cons_of_ne_nil hne
  have hds : ∀ d ∈ ds, IsDigit d := fun d hd =>
    (hgood d (List.mem_cons_of_mem _ hd)).resolve_left fun heq => htail (heq ▸ hd)
  rcases hgood c List.mem_cons_self with rfl | hdigit
  · exact ⟨_, Numeral.negative (fun hnil => hminus (by rw [hnil])) hds⟩
  · refine ⟨_, Numeral.positive hne fun d hd => ?_⟩
    rcases List.mem_cons.mp hd with rfl | hd
    · exact hdigit
    · exact hds d hd

theorem atoi_eq (h : Spells number bytes) (hne : bytes ≠ []) (hlen : bytes.length < 65536) :
    atoi number = (do
      let (isNegative, assembledNumber) ← atoiLoop number bytes.length 0 false 0
      return if isNegative then toInt (assembledNumber * -1) else assembledNumber) := by
  have hpos := List.length_pos_iff.mpr hne
  unfold atoi
  rw [h.strlen hlen]
  exact if_neg (by omega)

/-- **The value of a numeral that fits into an `int` is returned.** -/
theorem atoi_numeral (h : Spells number bytes) (hlen : bytes.length < 65536) {v : Int}
    (hv : Numeral bytes v) (h1 : -2 ^ 31 ≤ v) (h2 : v < 2 ^ 31) : atoi number = .ok v := by
  have hreads := h.readsAt
  have h0 : toInt ((0 : Nat) : Int) = 0 := toInt_of_fits (by decide) (by decide)
  rw [atoi_eq h hv.ne_nil hlen]
  cases hv with
  | positive hne hds =>
    have hloop : atoiLoop number bytes.length 0 false (toInt (0 : Nat)) = _ :=
      atoiLoop_digits hreads hds
    rw [h0, toInt_of_fits h1 h2] at hloop
    rw [hloop]
    rfl
  | @negative ds hne hds =>
    obtain ⟨hc, hrest⟩ := readsAt_cons.mp hreads
    have hloop : atoiLoop number ds.length (0 + 1) true (toInt (0 : Nat)) = _ :=
      atoiLoop_digits hrest hds
    have hval : toInt (toInt (decimalFrom 0 ds) * -1) = -(decimalFrom 0 ds : Int) := by
      rw [← toInt_of_fits h1 h2]
      unfold toInt
      rw [Int.bmod_mul_bmod, Int.mul_neg_one]
    rw [h0] at hloop
    rw [List.length_cons, atoiLoop, if_pos hc, hloop, ← hval]
    simp only [Bind.bind, Except.bind, Pure.pure, Except.pure, if_true]

/-- **On which strings `atoi` is right.** -/
theorem atoiRight_iff (h : Spells number bytes) (hne : bytes ≠ []) (hlen : bytes.length < 65536) :
    AtoiRight number bytes ↔
      (∃ c ∈ bytes, c ≠ 45 ∧ isDigit c = false) ∨ (45 ∉ bytes.tail ∧ bytes ≠ [45]) := by
  have hbad_iff : (∃ c ∈ bytes, c ≠ 45 ∧ isDigit c = false) ↔ ∃ c ∈ bytes, c ≠ 45 ∧ ¬ IsDigit c := by
    simp [← isDigit_iff]
  rw [hbad_iff]
  by_cases hbad : ∃ c ∈ bytes, c ≠ 45 ∧ ¬ IsDigit c
  · refine iff_of_true ⟨fun _ => ?_, fun v hv _ _ => ?_⟩ (Or.inl hbad)
    · rw [atoi_eq h hne hlen, atoiLoop_refuses h.readsAt hbad]
      rfl
    · obtain ⟨c, hc, hminus, hdigit⟩ := hbad
      exact absurd (hv.shape.1 c hc) (not_or.mpr ⟨hminus, hdigit⟩)
  · have hgood : ∀ c ∈ bytes, c = 45 ∨ IsDigit c := fun c hc =>
      or_iff_not_imp_left.mpr fun hminus => by_contra fun hdigit => hbad ⟨c, hc, hminus, hdigit⟩
    rw [or_iff_right hbad]
    constructor
    · intro hright
      by_contra hshape
      have hpanic := hright.refuses fun v hv => hshape hv.shape.2
      obtain ⟨⟨isNegative, n⟩, hr⟩ : ∃ r, atoiLoop number bytes.length 0 false 0 = .ok r :=
        atoiLoop_accepts h.readsAt hgood
      rw [atoi_eq h hne hlen, hr] at hpanic
      cases hpanic
    · rintro ⟨htail, hminus⟩
      obtain ⟨v, hv⟩ := numeral_of_shape hne hgood htail hminus
      exact ⟨fun hno => absurd hv (hno v), fun w hw h1 h2 => atoi_numeral h hlen hw h1 h2⟩

end

/-- `-42` is read, and `4x` refused. -/
theorem atoiRight_numeral : AtoiRight (literal [45, 52, 50]) [45, 52, 50] ∧
    AtoiRight (literal [52, 120]) [52, 120] :=
  ⟨(atoiRight_iff (spells_literal (by decide)) (by decide) (by decide)).mpr (by decide),
    (atoiRight_iff (spells_literal (by decide)) (by decide) (by decide)).mpr (by decide)⟩

/-- **`1-2` is read as -12, `--5` as -5 and `-` as 0.** -/
theorem atoi_takes_any_sign :
    (atoi (literal [49, 45, 50]) = .ok (-12) ∧ ¬ AtoiRight (literal [49, 45, 50]) [49, 45, 50]) ∧
    (atoi (literal [45, 45, 53]) = .ok (-5) ∧ ¬ AtoiRight (literal [45, 45, 53]) [45, 45, 53]) ∧
    atoi (literal [45]) = .ok 0 ∧ ¬ AtoiRight (literal [45]) [45] := by
  have hwrong : ∀ {bytes : List UInt8} {n : Int}, atoi (literal bytes) = .ok n →
      45 ∈ bytes.tail ∨ bytes = [45] → ¬ AtoiRight (literal bytes) bytes := by
    intro bytes n hn hshape hright
    have hpanic := hright.refuses fun v hv => hshape.elim hv.shape.2.1 hv.shape.2.2
    rw [hn] at hpanic
    cases hpanic
  have h12 : atoi (literal [49, 45, 50]) = .ok (-12) := by decide
  have h5 : atoi (literal [45, 45, 53]) = .ok (-5) := by decide
  have h0 : atoi (literal [45]) = .ok 0 := by decide
  exact ⟨⟨h12, hwrong h12 (by decide)⟩, ⟨h5, hwrong h5 (by decide)⟩, h0, hwrong h0 (by decide)⟩

end KokoOs
