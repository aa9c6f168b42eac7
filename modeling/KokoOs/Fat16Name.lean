/-
# The name of a directory entry

A name is a field of eight bytes and an extension of three, and neither is terminated when it is
full.  `fat16_to_proper_string` has no bound: it goes on until it meets a space or a NUL.  What it makes
of the entry, and what it reads and stores for that, is told apart by a copy of the two functions that
keeps a log (`fullNameLogged`, `fullNameLogged_erases`).

* **One field.**  The loop takes the field up to its end, if it has one, and runs on into what comes
  behind it if it has none (`cutField_of_ends`, `cutField_of_full`).
* **The whole name.**  It is rendered, and from the eleven bytes of the two fields alone, exactly if
  there is no extension or both fields end by themselves (`rendersName_iff`).

A full name takes the extension for its own and then has it a second time; a full extension goes on with
the attributes, so that the read-only attribute of `KOKO.TXT` becomes a byte of the name
(`readOnly_name`).
-/
import KokoOs.Fat16

namespace KokoOs

open Bytes

/-! ## 1. What is wanted -/

/-- A space or a NUL ends a field. -/
abbrev EndsField (c : UInt8) : Prop := c = 0x00 ∨ c = 0x20

/-- A field up to its end. -/
def cutField (field : List UInt8) : List UInt8 := field.takeWhile fun c => c ≠ 0x00 ∧ c ≠ 0x20

/-- `item->filename` and `item->ext`. -/
def filenameField (item : FatDirectoryItem) : List UInt8 := item.take 8
def extField (item : FatDirectoryItem) : List UInt8 := (item.drop 8).take 3

/-- The name, a dot and the extension; or the name alone, if the extension is empty. -/
def properName (item : FatDirectoryItem) : List UInt8 :=
  if EndsField ((extField item).headD 0) then cutField (filenameField item)
  else cutField (filenameField item) ++ 46 :: cutField (extField item)

/-! ## 2. The functions, with a log -/

/-- The string that has been made, the offsets in the entry that have been read for it, and the offsets
in the buffer that have been stored to. -/
structure Rendering where
  text : List UInt8
  reads : List Nat
  writes : List Nat

/-- `fat16_to_proper_string`, from offset `i` of the entry and offset `o` of the buffer on. -/
def properStringLogged : List UInt8 → Nat → Nat → Option Rendering
  | [], _, _ => none
  | c :: rest, i, o =>
    if c ≠ 0x00 ∧ c ≠ 0x20 then do
      let r ← properStringLogged rest (i + 1) (o + 1)
      return { text := c :: r.text, reads := i :: r.reads, writes := o :: r.writes }
    else
      some { text := [], reads := [i], writes := if c = 0x20 then [o] else [] }

/-- `fat16_get_full_relative_filename`, behind the `memset` of the buffer. -/
def fullNameLogged (bytes : List UInt8) : Option Rendering := do
  let name ← properStringLogged bytes 0 0
  let ext0 ← bytes[8]?
  let full ←
    if ext0 ≠ 0x00 ∧ ext0 ≠ 0x20 then do
      let ext ← properStringLogged (bytes.drop 8) 8 (name.text.length + 1)
      pure { text := name.text ++ 46 :: ext.text, reads := name.reads ++ 8 :: ext.reads,
             writes := name.writes ++ name.text.length :: ext.writes : Rendering }
    else pure { name with reads := name.reads ++ [8] }
  if full.text.length < kernelMaxPathSize then some full else none

/-- **The log takes nothing away**: the loop with it makes the same string. -/
theorem properStringLogged_erases (input : List UInt8) (i o : Nat) :
    (properStringLogged input i o).map Rendering.text = fat16ToProperString input := by
  induction input generalizing i o with
  | nil => rfl
  | cons c rest ih =>
    have hrest := ih (i + 1) (o + 1)
    unfold properStringLogged
    by_cases hc : c ≠ 0x00 ∧ c ≠ 0x20
    · rw [if_pos hc]
      have hcons : fat16ToProperString (c :: rest) = (fat16ToProperString rest).map (c :: ·) := by
        unfold fat16ToProperString
        rw [List.takeWhile_cons_of_pos (by simpa using hc)]
        dsimp only
        rw [List.length_cons, List.length_cons]
        split
        · next hlt => rw [if_pos (Nat.lt_of_succ_lt_succ hlt), Option.map_some]
        · next hlt => rw [if_neg fun h => hlt (Nat.succ_lt_succ h), Option.map_none]
      rw [hcons, ← hrest]
      cases properStringLogged rest (i + 1) (o + 1) with
      | none => rfl
      | some r => rfl
    · rw [if_neg hc]
      unfold fat16ToProperString
      rw [List.takeWhile_cons_of_neg (by simpa using hc)]
      rfl

/-- The whole function with the log makes the same name. -/
theorem fullNameLogged_erases (bytes : List UInt8) :
    (fullNameLogged bytes).map Rendering.text = fat16GetFullRelativeFilename bytes := by
  unfold fullNameLogged fat16GetFullRelativeFilename
  rw [← properStringLogged_erases bytes 0 0]
  cases properStringLogged bytes 0 0 with
  | none => rfl
  | some name =>
    cases bytes[8]? with
    | none => rfl
    | some ext0 =>
      simp only [Option.bind_eq_bind, Option.bind_some, Option.map_some]
      by_cases hext : ext0 ≠ 0x00 ∧ ext0 ≠ 0x20
      · rw [if_pos hext, if_pos hext,
          ← properStringLogged_erases (bytes.drop 8) 8 (name.text.length + 1)]
        cases properStringLogged (bytes.drop 8) 8 (name.text.length + 1) with
        | none => rfl
        | some ext =>
          simp only [Option.bind_some, Option.map_some, Option.pure_def]
          split
          · rfl
          · rfl
      · rw [if_neg hext, if_neg hext]
        simp only [Option.bind_some, Option.pure_def]
        split
        · rfl
        · rfl

/-! ## 3. One field -/

section

variable {field t : List UInt8}

theorem cutField_cons {c : UInt8} (hc : c ≠ 0x00 ∧ c ≠ 0x20) :
    cutField (c :: field) = c :: cutField field :=
  List.takeWhile_cons_of_pos (by simpa using hc)

theorem cutField_end {c : UInt8} (hc : ¬ (c ≠ 0x00 ∧ c ≠ 0x20)) : cutField (c :: field) = [] :=
  List.takeWhile_cons_of_neg (by simpa using hc)

/-- A field that has an end is cut there, whatever comes behind it. -/
theorem cutField_of_ends (h : ∃ c ∈ field, EndsField c) :
    cutField (field ++ t) = cutField field ∧ (cutField field).length < field.length := by
  induction field with
  | nil => simp at h
  | cons c field ih =>
    by_cases hc : c ≠ 0x00 ∧ c ≠ 0x20
    · have htail : ∃ c ∈ field, EndsField c := by
        obtain ⟨c', hmem, hends⟩ := h
        rcases List.mem_cons.mp hmem with rfl | hmem
        · rcases hends with h0 | h0
          · exact absurd h0 hc.1
          · exact absurd h0 hc.2
        · exact ⟨c', hmem, hends⟩
      obtain ⟨heq, hlt⟩ := ih htail
      rw [List.cons_append, cutField_cons hc, cutField_cons hc, heq]
      exact ⟨rfl, Nat.succ_lt_succ hlt⟩
    · rw [List.cons_append, cutField_end hc, cutField_end hc]
      exact ⟨rfl, Nat.succ_pos _⟩

/-- A full field runs on into what comes behind it. -/
theorem cutField_of_full (h : ¬ ∃ c ∈ field, EndsField c) :
    cutField (field ++ t) = field ++ cutField t := by
  unfold cutField
  refine List.takeWhile_append_of_pos fun c hc => ?_
  have hends : ¬ EndsField c := fun he => h ⟨c, hc, he⟩
  simpa [not_or] using hends

theorem cutField_eq_self (h : ¬ ∃ c ∈ field, EndsField c) : cutField field = field := by
  have hfull := cutField_of_full (t := []) h
  have hnil : cutField [] = [] := rfl
  rwa [List.append_nil, hnil, List.append_nil] at hfull

theorem cutField_length_le : (cutField field).length ≤ field.length :=
  (List.takeWhile_sublist _).length_le

/-- With more bytes behind it, no less of a field is taken. -/
theorem cutField_length_mono : (cutField field).length ≤ (cutField (field ++ t)).length := by
  by_cases h : ∃ c ∈ field, EndsField c
  · rw [(cutField_of_ends h).1]
  · rw [cutField_of_full h, List.length_append]
    exact Nat.le_trans cutField_length_le (Nat.le_add_right _ _)

/-- What the loop has made, read and stored, if it has come to an end. -/
theorem properStringLogged_some {input : List UInt8} {i o : Nat} {r : Rendering}
    (h : properStringLogged input i o = some r) : r.text = cutField input ∧
      r.reads = List.range' i (r.text.length + 1) ∧ ∀ x ∈ r.writes, x ≤ o + r.text.length := by
  induction input generalizing i o r with
  | nil => cases h
  | cons c rest ih =>
    unfold properStringLogged at h
    split at h
    · next hc =>
      obtain ⟨r', hr', hr⟩ := Option.bind_eq_some_iff.mp h
      obtain rfl := Option.some_inj.mp hr
      obtain ⟨htext, hreads, hwrites⟩ := ih hr'
      rw [cutField_cons hc]
      refine ⟨congrArg (c :: ·) htext, ?_, fun x hx => ?_⟩
      · rw [List.length_cons, List.range'_succ, hreads]
      · rw [List.length_cons]
        rcases List.mem_cons.mp hx with rfl | hx
        · omega
        · have := hwrites x hx
          omega
    · next hc =>
      obtain rfl := Option.some_inj.mp h
      rw [cutField_end hc]
      refine ⟨rfl, rfl, fun x hx => ?_⟩
      dsimp only at hx
      split at hx
      · rw [List.mem_singleton.mp hx]
        exact Nat.le_add_right _ _
      · cases hx

/-- The loop comes to an end in a field that has one. -/
theorem properStringLogged_of_ends {i o : Nat} (h : ∃ c ∈ field, EndsField c) :
    ∃ r, properStringLogged (field ++ t) i o = some r ∧ r.text = cutField field := by
  obtain ⟨heq, hlt⟩ := cutField_of_ends (t := t) h
  have hsome : fat16ToProperString (field ++ t) = some (cutField field) := by
    unfold fat16ToProperString
    rw [← heq]
    refine if_pos ?_
    change (cutField (field ++ t)).length < _
    rw [heq, List.length_append]
    omega
  rw [← properStringLogged_erases _ i o] at hsome
  exact Option.map_eq_some_iff.mp hsome

end

/-! ## 4. Both fields -/

/-- The fields of an entry, and what lies behind them: the rest of the entry, and of its array. -/
theorem entry_fields {item : FatDirectoryItem} (hlen : item.length = 32) (rest : List UInt8) :
    item ++ rest = filenameField item ++ (extField item ++ (item.drop 11 ++ rest)) ∧
      (filenameField item).length = 8 ∧ (extField item).length = 3 := by
  unfold filenameField extField
  refine ⟨?_, by simp [hlen], by simp [hlen]⟩
  have hext : (item.drop 8).take 3 ++ item.drop 11 = item.drop 8 := by
    have := List.take_append_drop 3 (item.drop 8)
    rwa [List.drop_drop] at this
  rw [← List.append_assoc, ← List.append_assoc, List.append_assoc (List.take 8 item), hext,
    List.take_append_drop]

/-- Where the extension is. -/
theorem entry_ext {item : FatDirectoryItem} (hlen : item.length = 32) (rest : List UInt8) :
    (item ++ rest)[8]? = some ((extField item).headD 0) ∧
      (item ++ rest).drop 8 = extField item ++ (item.drop 11 ++ rest) := by
  obtain ⟨hsplit, hf, he⟩ := entry_fields hlen rest
  have hdrop : (item ++ rest).drop 8 = extField item ++ (item.drop 11 ++ rest) := by
    rw [hsplit, ← hf, List.drop_left]
  refine ⟨?_, hdrop⟩
  have hget : (item ++ rest)[8]? = ((item ++ rest).drop 8)[0]? := by simp
  rw [hget, hdrop]
  cases hext : extField item with
  | nil => rw [hext] at he; cases he
  | cons e0 e => rfl

/-- The function renders the name, reads the eleven bytes of the fields and nothing else, and stores
at most thirteen bytes. -/
structure RendersName (item : FatDirectoryItem) (rest : List UInt8) : Prop where
  renders : ∃ r, fullNameLogged (item ++ rest) = some r ∧ r.text = properName item ∧
    (∀ i ∈ r.reads, i < 11) ∧ ∀ o ∈ r.writes, o < 13

/-- The extension is empty, or both fields end by themselves. -/
def FieldsEnd (item : FatDirectoryItem) : Prop :=
  EndsField ((extField item).headD 0) ∨
    ((∃ c ∈ filenameField item, EndsField c) ∧ ∃ c ∈ extField item, EndsField c)

instance (item : FatDirectoryItem) : Decidable (FieldsEnd item) :=
  inferInstanceAs (Decidable (_ ∨ _))

theorem not_endsField {c : UInt8} : c ≠ 0x00 ∧ c ≠ 0x20 ↔ ¬ EndsField c := by
  rw [not_or]

/-- What the whole function has done, if the loops have come to an end: the name alone, or the name, a
dot and the extension. -/
theorem fullNameLogged_some {bytes : List UInt8} {r : Rendering} (h : fullNameLogged bytes = some r) :
    ∃ name ext0, properStringLogged bytes 0 0 = some name ∧ bytes[8]? = some ext0 ∧
      ((EndsField ext0 ∧ r = { name with reads := name.reads ++ [8] }) ∨
        (¬ EndsField ext0 ∧ ∃ ext,
          properStringLogged (bytes.drop 8) 8 (name.text.length + 1) = some ext ∧
          r = { text := name.text ++ 46 :: ext.text, reads := name.reads ++ 8 :: ext.reads,
                writes := name.writes ++ name.text.length :: ext.writes })) := by
  have hfits : ∀ full : Rendering,
      (if full.text.length < kernelMaxPathSize then some full else none) = some r → r = full := by
    intro full hfull
    split at hfull
    · exact (Option.some_inj.mp hfull).symm
    · cases hfull
  unfold fullNameLogged at h
  obtain ⟨name, hname, h⟩ := Option.bind_eq_some_iff.mp h
  obtain ⟨ext0, hext0, h⟩ := Option.bind_eq_some_iff.mp h
  refine ⟨name, ext0, hname, hext0, ?_⟩
  dsimp only at h
  split at h
  · next hc =>
    obtain ⟨ext, hext, h⟩ := Option.bind_eq_some_iff.mp h
    exact Or.inr ⟨not_endsField.mp hc, ext, hext, hfits _ h⟩
  · next hc => exact Or.inl ⟨not_not.mp (mt not_endsField.mpr hc), hfits _ h⟩

/-- Without an extension it comes to an end when the name does. -/
theorem fullNameLogged_short {bytes : List UInt8} {name : Rendering} {ext0 : UInt8}
    (hname : properStringLogged bytes 0 0 = some name) (hext0 : bytes[8]? = some ext0)
    (hends : EndsField ext0) (hlen : name.text.length < kernelMaxPathSize) :
    fullNameLogged bytes = some { name with reads := name.reads ++ [8] } := by
  unfold fullNameLogged
  simp only [hname, hext0, Option.bind_eq_bind, Option.bind_some]
  rw [if_neg (mt not_endsField.mp (not_not.mpr hends))]
  exact if_pos hlen

/-- With an extension it comes to an end when both fields do. -/
theorem fullNameLogged_long {bytes : List UInt8} {name ext : Rendering} {ext0 : UInt8}
    (hname : properStringLogged bytes 0 0 = some name) (hext0 : bytes[8]? = some ext0)
    (hends : ¬ EndsField ext0)
    (hext : properStringLogged (bytes.drop 8) 8 (name.text.length + 1) = some ext)
    (hlen : (name.text ++ 46 :: ext.text).length < kernelMaxPathSize) :
    fullNameLogged bytes = some
      { text := name.text ++ 46 :: ext.text, reads := name.reads ++ 8 :: ext.reads,
        writes := name.writes ++ name.text.length :: ext.writes } := by
  unfold fullNameLogged
  simp only [hname, hext0, hext, Option.bind_eq_bind, Option.bind_some]
  rw [if_pos (not_endsField.mpr hends)]
  exact if_pos hlen

/-! ## 5. When the name is rendered -/

section

variable {item : FatDirectoryItem} {rest : List UInt8}

/-- Without an extension the loop over the name ends in its field, or at the first byte behind it. -/
theorem rendersName_of_short (hlen : item.length = 32) (hends : EndsField ((extField item).headD 0)) :
    RendersName item rest := by
  obtain ⟨hsplit, hf, he⟩ := entry_fields hlen rest
  obtain ⟨hext0, -⟩ := entry_ext hlen rest
  have hmem : ∃ c ∈ filenameField item ++ extField item, EndsField c := by
    cases hext : extField item with
    | nil => rw [hext] at he; cases he
    | cons e0 e =>
      rw [hext] at hends
      exact ⟨e0, by simp, hends⟩
  have hcut : cutField (filenameField item ++ extField item) = cutField (filenameField item) := by
    by_cases h : ∃ c ∈ filenameField item, EndsField c
    · exact (cutField_of_ends h).1
    · have hnone : cutField (extField item) = [] := by
        cases hext : extField item with
        | nil => rfl
        | cons e0 e =>
          rw [hext] at hends
          exact cutField_end (mt not_endsField.mp (not_not.mpr hends))
      rw [cutField_of_full h, hnone, List.append_nil, cutField_eq_self h]
  obtain ⟨name, hname, htext⟩ := properStringLogged_of_ends (t := item.drop 11 ++ rest)
    (i := 0) (o := 0) hmem
  rw [List.append_assoc, ← hsplit] at hname
  rw [hcut] at htext
  have hle : name.text.length ≤ 8 := by
    rw [htext, ← hf]
    exact cutField_length_le
  obtain ⟨-, hreads, hwrites⟩ := properStringLogged_some hname
  refine ⟨_, fullNameLogged_short hname hext0 hends (Nat.lt_of_le_of_lt hle (by decide)), ?_, ?_, ?_⟩
  · unfold properName
    rw [if_pos hends]
    exact htext
  · intro i hi
    rcases List.mem_append.mp hi with hi | hi
    · rw [hreads, List.mem_range'_1] at hi
      omega
    · rw [List.mem_singleton.mp hi]
      decide
  · intro o ho
    have := hwrites o ho
    omega

/-- With an extension both loops end in their fields if these have an end. -/
theorem rendersName_of_ends (hlen : item.length = 32) (hext : ¬ EndsField ((extField item).headD 0))
    (hfend : ∃ c ∈ filenameField item, EndsField c) (heend : ∃ c ∈ extField item, EndsField c) :
    RendersName item rest := by
  obtain ⟨hsplit, hf, he⟩ := entry_fields hlen rest
  obtain ⟨hext0, hdrop⟩ := entry_ext hlen rest
  obtain ⟨name, hname, hntext⟩ := properStringLogged_of_ends (i := 0) (o := 0)
    (t := extField item ++ (item.drop 11 ++ rest)) hfend
  rw [← hsplit] at hname
  obtain ⟨ext, hextL, hetext⟩ := properStringLogged_of_ends (i := 8) (o := name.text.length + 1)
    (t := item.drop 11 ++ rest) heend
  rw [← hdrop] at hextL
  have hnlt : name.text.length < 8 := by
    rw [hntext, ← hf]
    exact (cutField_of_ends (t := []) hfend).2
  have helt : ext.text.length < 3 := by
    rw [hetext, ← he]
    exact (cutField_of_ends (t := []) heend).2
  obtain ⟨-, hnreads, hnwrites⟩ := properStringLogged_some hname
  obtain ⟨-, hereads, hewrites⟩ := properStringLogged_some hextL
  have hfits : (name.text ++ 46 :: ext.text).length < kernelMaxPathSize := by
    rw [List.length_append, List.length_cons]
    have hmax : 12 ≤ kernelMaxPathSize := by decide
    omega
  refine ⟨_, fullNameLogged_long hname hext0 hext hextL hfits, ?_, fun i hi => ?_, fun o ho => ?_⟩
  · unfold properName
    rw [if_neg hext, ← hntext, ← hetext]
  · rcases List.mem_append.mp hi with hi | hi
    · rw [hnreads, List.mem_range'_1] at hi
      omega
    · rcases List.mem_cons.mp hi with rfl | hi
      · decide
      · rw [hereads, List.mem_range'_1] at hi
        omega
  · rcases List.mem_append.mp ho with ho | ho
    · have := hnwrites o ho
      omega
    · rcases List.mem_cons.mp ho with rfl | ho
      · omega
      · have := hewrites o ho
        omega

/-- A full name runs on into the extension, which then stands in it twice. -/
theorem not_rendersName_of_full_name (hlen : item.length = 32)
    (hext : ¬ EndsField ((extField item).headD 0))
    (hfull : ¬ ∃ c ∈ filenameField item, EndsField c) : ¬ RendersName item rest := by
  rintro ⟨r, hr, htext, -, -⟩
  obtain ⟨hsplit, hf, he⟩ := entry_fields hlen rest
  obtain ⟨hext0, hdrop⟩ := entry_ext hlen rest
  obtain ⟨name, ext0, hname, hext0', h⟩ := fullNameLogged_some hr
  obtain rfl := Option.some_inj.mp (hext0.symm.trans hext0')
  rcases h with ⟨hends, -⟩ | ⟨-, ext, hextL, rfl⟩
  · exact hext hends
  have hntext := (properStringLogged_some hname).1
  have hetext := (properStringLogged_some hextL).1
  rw [hdrop] at hetext
  rw [hsplit, cutField_of_full hfull, ← hetext] at hntext
  have hpos : 0 < ext.text.length := by
    rw [hetext]
    cases hx : extField item with
    | nil => rw [hx] at he; cases he
    | cons e0 e =>
      rw [hx] at hext
      rw [List.cons_append, cutField_cons (c := e0) (not_endsField.mpr hext)]
      exact Nat.succ_pos _
  have hle : (cutField (extField item)).length ≤ ext.text.length := by
    rw [hetext]
    exact cutField_length_mono
  unfold properName at htext
  rw [if_neg hext, cutField_eq_self hfull] at htext
  have hcount := congrArg List.length htext
  rw [List.length_append, List.length_append, List.length_cons, List.length_cons, hntext,
    List.length_append] at hcount
  omega

/-- A full extension is read as far as the attributes at least. -/
theorem not_rendersName_of_full_ext (hlen : item.length = 32)
    (hext : ¬ EndsField ((extField item).headD 0))
    (hfull : ¬ ∃ c ∈ extField item, EndsField c) : ¬ RendersName item rest := by
  rintro ⟨r, hr, -, hreads, -⟩
  obtain ⟨hsplit, hf, he⟩ := entry_fields hlen rest
  obtain ⟨hext0, hdrop⟩ := entry_ext hlen rest
  obtain ⟨name, ext0, hname, hext0', h⟩ := fullNameLogged_some hr
  obtain rfl := Option.some_inj.mp (hext0.symm.trans hext0')
  rcases h with ⟨hends, -⟩ | ⟨-, ext, hextL, rfl⟩
  · exact hext hends
  obtain ⟨hetext, hereads, -⟩ := properStringLogged_some hextL
  rw [hdrop, cutField_of_full hfull] at hetext
  have hlong : 3 ≤ ext.text.length := by
    rw [hetext, List.length_append, he]
    exact Nat.le_add_right _ _
  have hattributes : 11 ∈ ext.reads := by
    rw [hereads, List.mem_range'_1]
    omega
  exact absurd (hreads 11 (by simp [hattributes])) (by decide)

/-- **The name of an entry is rendered, from its own bytes, if and only if there is no extension or
both fields end by themselves.** -/
theorem rendersName_iff (hlen : item.length = 32) (rest : List UInt8) :
    RendersName item rest ↔ FieldsEnd item := by
  constructor
  · intro h
    by_contra hno
    obtain ⟨hext, hfields⟩ := not_or.mp hno
    rcases not_and_or.mp hfields with hfull | hfull
    · exact not_rendersName_of_full_name hlen hext hfull h
    · exact not_rendersName_of_full_ext hlen hext hfull h
  · rintro (hends | ⟨hfend, heend⟩)
    · exact rendersName_of_short hlen hends
    · by_cases hext : EndsField ((extField item).headD 0)
      · exact rendersName_of_short hlen hext
      · exact rendersName_of_ends hlen hext hfend heend

end

/-- The entry `KOKO.TX`, followed by another. -/
theorem rendersName_koko : RendersName
    ([75, 79, 75, 79, 32, 32, 32, 32, 84, 88, 32, 0x01] ++ List.replicate 20 0) kokoItem :=
  (rendersName_iff (by decide) kokoItem).mpr (by decide)

/-- **The entry `KOKO.TXT` with the read-only attribute**: the attribute becomes a byte of the name. -/
theorem readOnly_name : ¬ ∀ (item : FatDirectoryItem) (rest : List UInt8), item.length = 32 →
    RendersName item rest := by
  intro hclaim
  obtain ⟨r, hr, htext, -⟩ := (hclaim
    ([75, 79, 75, 79, 32, 32, 32, 32, 84, 88, 84, 0x01] ++ List.replicate 20 0) []
    (by decide)).renders
  have hname := fullNameLogged_erases
    ([75, 79, 75, 79, 32, 32, 32, 32, 84, 88, 84, 0x01] ++ List.replicate 20 0 ++ [])
  rw [hr, Option.map_some, htext] at hname
  exact absurd hname (by decide)

end KokoOs
