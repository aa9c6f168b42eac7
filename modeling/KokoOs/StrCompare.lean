/-
# What `str_cmp` and `str_icmp` compare

Both compare the lengths first and then character by character, so they compare two keys -- the length
and the list of the characters, as signed numbers after `str_to_lower` or as they are -- in the
lexicographic order (`strCmpWith_eq`).  That they are total preorders is then a fact about linear
orders (`comparesBy_keys`).

Which strings they take for equal is a matter of `str_to_lower`.  Its test for characters that are no
upper case letters is never true, so it moves everything but the lower case letters; but nothing else
is moved onto a lower case letter than its upper case one (`strToLower_eq_iff`).  So `str_icmp` takes
strings for equal that are the same up to the case of ASCII letters, as it was meant to, and only the
order of unequal strings is odd.

`str_compare_preorders` puts both together, over all strings that `strlen` can measure.
-/
import KokoOs.StrSpec
import Mathlib.Data.List.Lex
import Mathlib.Data.Prod.Lex
import Mathlib.Data.Int.Order.Basic

namespace KokoOs

open Bytes

/-! ## 1. Comparing by a key -/

section

variable {α : Type} [LinearOrder α] {x y : α}

/-- The answer of a comparison function of C. -/
def comparison (x y : α) : Int := if y < x then 1 else if x < y then -1 else 0

theorem comparison_swap : comparison y x = -comparison x y := by
  unfold comparison
  rcases lt_trichotomy x y with h | rfl | h
  · rw [if_pos h, if_neg (not_lt_of_gt h), if_pos h, neg_neg]
  · rw [if_neg (lt_irrefl x), if_neg (lt_irrefl x), neg_zero]
  · rw [if_neg (not_lt_of_gt h), if_pos h, if_pos h]

theorem comparison_eq_zero : comparison x y = 0 ↔ x = y := by
  unfold comparison
  rcases lt_trichotomy x y with h | rfl | h
  · rw [if_neg (not_lt_of_gt h), if_pos h]
    exact iff_of_false (by decide) h.ne
  · rw [if_neg (lt_irrefl x), if_neg (lt_irrefl x)]
    exact iff_of_true rfl rfl
  · rw [if_pos h]
    exact iff_of_false (by decide) h.ne'

theorem comparison_nonpos : comparison x y ≤ 0 ↔ x ≤ y := by
  unfold comparison
  rcases lt_trichotomy x y with h | rfl | h
  · rw [if_neg (not_lt_of_gt h), if_pos h]
    exact iff_of_true (by decide) h.le
  · rw [if_neg (lt_irrefl x), if_neg (lt_irrefl x)]
    exact iff_of_true le_rfl le_rfl
  · rw [if_pos h]
    exact iff_of_false (by decide) (not_le_of_gt h)

/-- Only how the two compare counts. -/
theorem comparison_congr {β : Type} [LinearOrder β] {x' y' : β} (h : x < y ↔ x' < y')
    (h' : y < x ↔ y' < x') : comparison x y = comparison x' y' := if_congr h' rfl (if_congr h rfl rfl)

/-- Lists that begin with the same element are compared by the rest. -/
theorem comparison_cons_self (x : α) (l l' : List α) : comparison (x :: l) (x :: l') = comparison l l' := by
  have hlt : ∀ l l' : List α, x :: l < x :: l' ↔ l < l' := fun l l' =>
    List.cons_lt_cons_iff.trans ⟨fun h => h.elim (fun h => absurd h (lt_irrefl x)) And.right,
      fun h => Or.inr ⟨rfl, h⟩⟩
  exact comparison_congr (hlt l l') (hlt l' l)

/-- Other lists by where they first differ. -/
theorem comparison_cons_of_ne (h : x ≠ y) (l l' : List α) :
    comparison (x :: l) (y :: l') = comparison x y := by
  have hlt : ∀ {x y : α}, x ≠ y → ∀ l l' : List α, x :: l < y :: l' ↔ x < y := fun hne l l' =>
    List.cons_lt_cons_iff.trans ⟨fun h => h.elim id fun h => absurd h.1 hne, Or.inl⟩
  exact comparison_congr (hlt h l l') (hlt h.symm l' l)

/-- Pairs are compared by their first components, and by the second ones if these are equal. -/
theorem comparison_toLex_of_ne {β : Type} [LinearOrder β] {u v : β} (h : x ≠ y) :
    comparison (toLex (x, u)) (toLex (y, v)) = comparison x y := by
  have hlt : ∀ {x y : α} {u v : β}, x ≠ y → (toLex (x, u) < toLex (y, v) ↔ x < y) := fun hne =>
    Prod.Lex.toLex_lt_toLex.trans ⟨fun h => h.elim id fun h => absurd h.1 hne, Or.inl⟩
  exact comparison_congr (hlt h) (hlt h.symm)

theorem comparison_toLex_self {β : Type} [LinearOrder β] (u v : β) :
    comparison (toLex (x, u)) (toLex (x, v)) = comparison u v := by
  have hlt : ∀ u v : β, toLex (x, u) < toLex (x, v) ↔ u < v := fun u v =>
    Prod.Lex.toLex_lt_toLex.trans ⟨fun h => h.elim (fun h => absurd h (lt_irrefl x)) And.right,
      fun h => Or.inr ⟨rfl, h⟩⟩
  exact comparison_congr (hlt u v) (hlt v u)

end

/-! ## 2. The keys -/

/-- The characters of a string as they are compared. -/
def charKeys (conv : UInt8 → UInt8) (bytes : List UInt8) : List Int :=
  bytes.map fun c => signedChar (conv c)

/-- What a string is compared by. -/
def strKey (conv : UInt8 → UInt8) (bytes : List UInt8) : ℕ ×ₗ List Int :=
  toLex (bytes.length, charKeys conv bytes)

/-- The loop compares the characters of strings of one length. -/
theorem strCmpLoop_eq {conv : UInt8 → UInt8} {str1 str2 : CStr} {xs ys : List UInt8} {i : Nat}
    (hlen : xs.length = ys.length) (h1 : ReadsAt str1 i xs) (h2 : ReadsAt str2 i ys) :
    strCmpLoop conv str1 str2 xs.length i = comparison (charKeys conv xs) (charKeys conv ys) := by
  induction xs generalizing ys i with
  | nil =>
    obtain rfl := List.length_eq_zero_iff.mp hlen.symm
    rfl
  | cons x xs ih =>
    obtain ⟨y, ys, rfl⟩ := List.exists_cons_of_length_eq_add_one hlen.symm
    obtain ⟨hx, hxs⟩ := readsAt_cons.mp h1
    obtain ⟨hy, hys⟩ := readsAt_cons.mp h2
    rw [List.length_cons, strCmpLoop, hx, hy]
    unfold charKeys at ih ⊢
    rw [List.map_cons, List.map_cons]
    rcases lt_trichotomy (signedChar (conv x)) (signedChar (conv y)) with h | h | h
    · rw [if_neg (not_lt_of_gt h), if_pos h, comparison_cons_of_ne h.ne, comparison,
        if_neg (not_lt_of_gt h), if_pos h]
    · rw [h, if_neg (lt_irrefl _), if_neg (lt_irrefl _), comparison_cons_self]
      exact ih (by simpa using hlen) hxs hys
    · rw [if_pos h, comparison_cons_of_ne h.ne', comparison, if_pos h]

/-- **Both functions compare keys.** -/
theorem strCmpWith_eq {conv : UInt8 → UInt8} {str1 str2 : CStr} {xs ys : List UInt8}
    (h1 : Spells str1 xs) (h2 : Spells str2 ys) (hx : xs.length < 65536) (hy : ys.length < 65536) :
    strCmpWith conv str1 str2 = some (comparison (strKey conv xs) (strKey conv ys)) := by
  unfold strCmpWith
  rw [h1.strlen hx, h2.strlen hy]
  simp only [Option.bind_eq_bind, Option.bind_some]
  unfold strKey
  rcases Nat.lt_trichotomy xs.length ys.length with h | h | h
  · rw [if_neg (by omega), if_pos h, comparison_toLex_of_ne h.ne, comparison, if_neg (by omega), if_pos h]
    rfl
  · rw [if_neg (by omega), if_neg (by omega), h, comparison_toLex_self, ← h,
      strCmpLoop_eq h h1.readsAt h2.readsAt]
    rfl
  · rw [if_pos h, comparison_toLex_of_ne h.ne', comparison, if_pos h]
    rfl

/-! ## 3. Which strings are equal -/

/-- The lower case of an ASCII letter; other bytes have none. -/
def asciiLower (c : UInt8) : UInt8 := if 65 ≤ c ∧ c ≤ 90 then c + 32 else c

/-- As long, and the same byte by byte up to the case of ASCII letters. -/
def SameUpToCase (xs ys : List UInt8) : Prop := xs.map asciiLower = ys.map asciiLower

/-- The number of a character after `str_to_lower`. -/
theorem toNat_strToLower (c : UInt8) : (strToLower c).toNat =
    if 97 ≤ c.toNat ∧ c.toNat ≤ 122 then c.toNat else (c.toNat + 32) % 256 := by
  have hc := c.toNat_lt
  have hcode : (signedChar c ≥ 97 ∧ signedChar c ≤ 122) ↔ 97 ≤ c.toNat ∧ c.toNat ≤ 122 := by
    unfold signedChar
    split <;> omega
  unfold strToLower
  dsimp only
  by_cases h : 97 ≤ c.toNat ∧ c.toNat ≤ 122
  · rw [if_pos (hcode.mpr h), if_pos h]
  · rw [if_neg (mt hcode.mp h), if_neg h, if_neg (by omega), UInt8.toNat_add]
    rfl

theorem toNat_asciiLower (c : UInt8) : (asciiLower c).toNat =
    if 65 ≤ c.toNat ∧ c.toNat ≤ 90 then c.toNat + 32 else c.toNat := by
  have hc : (65 ≤ c ∧ c ≤ 90) ↔ 65 ≤ c.toNat ∧ c.toNat ≤ 90 := Iff.rfl
  unfold asciiLower
  by_cases h : 65 ≤ c.toNat ∧ c.toNat ≤ 90
  · rw [if_pos (hc.mpr h), if_pos h, UInt8.toNat_add]
    change (c.toNat + 32) % 256 = c.toNat + 32
    omega
  · rw [if_neg (mt hc.mp h), if_neg h]

/-- **No two characters collide in `str_to_lower` but the two cases of a letter.** -/
theorem strToLower_eq_iff {c d : UInt8} : strToLower c = strToLower d ↔ asciiLower c = asciiLower d := by
  have hc := c.toNat_lt
  have hd := d.toNat_lt
  rw [← UInt8.toNat_inj, ← UInt8.toNat_inj, toNat_strToLower, toNat_strToLower, toNat_asciiLower,
    toNat_asciiLower]
  split <;> split <;> split <;> split <;> omega

/-- Two functions that identify the same characters identify the same strings. -/
theorem map_eq_map_congr {conv conv' : UInt8 → UInt8} (h : ∀ c d, conv c = conv d ↔ conv' c = conv' d)
    (xs ys : List UInt8) : xs.map conv = ys.map conv ↔ xs.map conv' = ys.map conv' := by
  have hforall : ∀ f : UInt8 → UInt8, xs.map f = ys.map f ↔ List.Forall₂ (fun c d => f c = f d) xs ys := by
    intro f
    rw [← List.forall₂_eq_eq_eq, List.forall₂_map_left_iff, List.forall₂_map_right_iff]
  rw [hforall, hforall]
  simp only [h]

/-- Strings have the same key when their characters are the same. -/
theorem strKey_eq_iff {conv : UInt8 → UInt8} {xs ys : List UInt8} :
    strKey conv xs = strKey conv ys ↔ xs.map conv = ys.map conv := by
  have hchars : charKeys conv xs = charKeys conv ys ↔ xs.map conv = ys.map conv := by
    have hmap : ∀ bytes, charKeys conv bytes = (bytes.map conv).map signedChar := fun bytes => by
      rw [List.map_map]
      rfl
    rw [hmap, hmap]
    exact (List.map_injective_iff.mpr fun _ _ => signedChar_inj).eq_iff
  unfold strKey
  rw [toLex_inj, Prod.mk.injEq, hchars]
  exact ⟨And.right, fun h => ⟨by simpa using congrArg List.length h, h⟩⟩

/-! ## 4. Total preorders -/

/-- `cmp` compares strings by a total preorder whose equivalence is `same`: an answer is 0 for the same
strings, changes its sign when the strings are swapped, and at most 0 is transitive. -/
structure ComparesBy (cmp : CStr → CStr → Option Int) (same : List UInt8 → List UInt8 → Prop) :
    Prop where
  answers : ∀ {a b : CStr} {xs ys : List UInt8}, Spells a xs → Spells b ys → xs.length < 65536 →
    ys.length < 65536 → ∃ r, cmp a b = some r ∧ (r = 0 ↔ same xs ys) ∧ cmp b a = some (-r)
  trans : ∀ {a b c : CStr} {xs ys zs : List UInt8}, Spells a xs → Spells b ys → Spells c zs →
    xs.length < 65536 → ys.length < 65536 → zs.length < 65536 → ∀ r r', cmp a b = some r →
    cmp b c = some r' → r ≤ 0 → r' ≤ 0 → ∃ r'', cmp a c = some r'' ∧ r'' ≤ 0

/-- What compares keys is a total preorder. -/
theorem comparesBy_keys (conv : UInt8 → UInt8) :
    ComparesBy (strCmpWith conv) fun xs ys => xs.map conv = ys.map conv where
  answers ha hb hx hy :=
    ⟨_, strCmpWith_eq ha hb hx hy, comparison_eq_zero.trans strKey_eq_iff, by
      rw [strCmpWith_eq hb ha hy hx, comparison_swap]⟩
  trans ha hb hc hx hy hz r r' h h' hr hr' := by
    rw [strCmpWith_eq ha hb hx hy] at h
    rw [strCmpWith_eq hb hc hy hz] at h'
    cases h
    cases h'
    exact ⟨_, strCmpWith_eq ha hc hx hz, comparison_nonpos.mpr
      ((comparison_nonpos.mp hr).trans (comparison_nonpos.mp hr'))⟩

/-- A constant equals a string of memory for `str_icmp` if they differ in upper and lower case only. -/
theorem CString.strIcmp_eq {m : Mem} {p : Nat} {xs bytes : List UInt8} (h : CString m p bytes)
    (hnz : 0 ∉ bytes) (hlen : bytes.length < 65536) (hxz : 0 ∉ xs) (hxlen : xs.length < 65536) :
    ∃ cmp, strIcmp (literal xs) (strAt m p) = some cmp ∧
      (cmp = ok ↔ xs.map strToLower = bytes.map strToLower) := by
  obtain ⟨cmp, hcmp, hzero, -⟩ :=
    (comparesBy_keys strToLower).answers (spells_literal hxz) (h.spells hnz) hxlen hlen
  exact ⟨cmp, hcmp, hzero⟩

/-- `str_cmp` takes strings for equal if they are. -/
theorem strCmp_eq {str1 str2 : CStr} {xs ys : List UInt8} (h1 : Spells str1 xs) (h2 : Spells str2 ys)
    (hx : xs.length < 65536) (hy : ys.length < 65536) :
    ∃ r, strCmp str1 str2 = some r ∧ (r = 0 ↔ xs = ys) := by
  obtain ⟨r, hr, hzero, -⟩ := (comparesBy_keys id).answers h1 h2 hx hy
  rw [List.map_id, List.map_id] at hzero
  exact ⟨r, hr, hzero⟩

/-- Only what is the same counts. -/
theorem ComparesBy.congr {cmp : CStr → CStr → Option Int} {same same' : List UInt8 → List UInt8 → Prop}
    (h : ComparesBy cmp same) (hsame : ∀ xs ys, same xs ys ↔ same' xs ys) : ComparesBy cmp same' where
  answers ha hb hx hy := by
    obtain ⟨r, hr, hzero, hswap⟩ := h.answers ha hb hx hy
    exact ⟨r, hr, hzero.trans (hsame _ _), hswap⟩
  trans := h.trans

/-- **The comparisons are total preorders**: `str_icmp` up to the case of ASCII letters, `str_cmp` up to
nothing. -/
theorem str_compare_preorders : ComparesBy strIcmp SameUpToCase ∧ ComparesBy strCmp Eq := by
  constructor
  · exact (comparesBy_keys strToLower).congr (map_eq_map_congr fun _ _ => strToLower_eq_iff)
  · refine (comparesBy_keys id).congr fun xs ys => ?_
    rw [List.map_id, List.map_id]

end KokoOs
