/-
# Strings (`lib/string.c`)

A C string is read through a function from indices to bytes: `strAt m p` for the string at
address `p`, `literal bytes` for a constant of the program.  The functions that only read are
functions of such strings; `strlen` counts in 16 bits and never ends on a string that is longer,
which is the `none` of those that call it.  The functions that write work on the heap's memory.

`str_cmp` and `str_icmp` are one function with two arguments, the conversion that a character goes
through being one of them (`strCmpWith`).  `str_slice` includes both its ends, and `str_copy` of the
empty string allocates nothing and answers the constant `""`: two habits that the parser of paths
does not reckon with.
-/
import KokoOs.Heap

namespace KokoOs

open Bytes

/-- A string as its bytes by index. -/
abbrev CStr := Nat → UInt8

/-- The string at an address. -/
def strAt (m : Mem) (p : Nat) : CStr := fun i => m (p + i)

/-- A string constant of the program. -/
def literal (bytes : List UInt8) : CStr := fun i => bytes.getD i 0

/-- The value of a byte as a (signed) `char`. -/
def signedChar (c : UInt8) : Int := if c.toNat < 128 then c.toNat else (c.toNat : Int) - 256

/-! ## 1. Reading -/

/-- The loop of `strlen` from index `len` on; `fuel` values of the 16-bit counter are left. -/
def strlenLoop (str : CStr) : Nat → Nat → Option Nat
  | 0, _ => none
  | fuel + 1, len => if str len = 0 then some len else strlenLoop str fuel (len + 1)

def strlen (str : CStr) : Option Nat := strlenLoop str 65536 0

def isDigit (c : UInt8) : Bool := decide (signedChar c ≥ 48) && decide (signedChar c ≤ 57)

/-- `get_digit`, stored in a `uint8_t`. -/
def getDigit (c : UInt8) : UInt8 := c - 48

/-- `str_to_lower`.  The test for characters that are no upper case letters is never true, so
everything but a lower case letter is moved by 32. -/
def strToLower (c : UInt8) : UInt8 :=
  let code := signedChar c
  if code ≥ 97 ∧ code ≤ 122 then c
  else if code < 65 ∧ code > 90 then c
  else c + 32

/-- The loop of `str_cmp` and `str_icmp`, which compare the characters after `conv`. -/
def strCmpLoop (conv : UInt8 → UInt8) (str1 str2 : CStr) : Nat → Nat → Int
  | 0, _ => 0
  | fuel + 1, i =>
    if signedChar (conv (str1 i)) > signedChar (conv (str2 i)) then 1
    else if signedChar (conv (str1 i)) < signedChar (conv (str2 i)) then -1
    else strCmpLoop conv str1 str2 fuel (i + 1)

/-- `str_cmp` and `str_icmp`, which differ in what they do to each character. -/
def strCmpWith (conv : UInt8 → UInt8) (str1 str2 : CStr) : Option Int := do
  let str1Len ← strlen str1
  let str2Len ← strlen str2
  if str1Len > str2Len then return 1
  else if str1Len < str2Len then return -1
  else return strCmpLoop conv str1 str2 str1Len 0

def strCmp (str1 str2 : CStr) : Option Int := strCmpWith id str1 str2

def strIcmp (str1 str2 : CStr) : Option Int := strCmpWith strToLower str1 str2

/-- The loop of `str_index_of`. -/
def strIndexLoop (str : CStr) (needle : UInt8) : Nat → Nat → Int
  | 0, _ => -1
  | fuel + 1, i => if str i = needle then i else strIndexLoop str needle fuel (i + 1)

/-- `str_index_of`. -/
def strIndexOf (str : CStr) (needle : UInt8) : Option Int :=
  if str 0 = needle then some 0
  else do
    let sizeOfStr ← strlen str
    return strIndexLoop str needle sizeOfStr 0

/-! ## 2. Writing -/

/-- What a loop that never ends means for the caller. -/
def orHang {α : Type} : Option α → HeapM α
  | some x => pure x
  | none => throw .hang

/-- Rewrite the memory of the heap. -/
def storeHeap (f : Mem → Mem) : HeapM Unit := modify fun s => { s with mem := f s.mem }

/-- The copying loop of `str_ref_copy` and `str_copy`, from byte `i` on, with the NUL. -/
def strCopyLoop (dest src : Nat) : Nat → Nat → Mem → Option Mem
  | 0, _, _ => none
  | fuel + 1, i, m =>
    if m (src + i) = 0 then some (Function.update m (dest + i) 0)
    else strCopyLoop dest src fuel (i + 1) (Function.update m (dest + i) (m (src + i)))

/-- `str_ref_copy`: it copies until it has met a NUL. -/
def strRefCopy (dest src : Nat) : HeapM Unit := do
  let s ← get
  let m ← orHang (strCopyLoop dest src (2 ^ 32) 0 s.mem)
  storeHeap fun _ => m

/-- Where the constant `""` is. -/
abbrev emptyString : Nat := 0x00110000

/-- `str_copy`. -/
def strCopy (str : Nat) : HeapM Nat := do
  let s ← get
  let strSize ← orHang (strlen (strAt s.mem str))
  if strSize ≤ 0 then return emptyString
  else
    let copyStr ← heapMalloc (strSize + 1)
    strRefCopy copyStr str
    return copyStr

/-- `str_slice`: both ends are included. -/
def strSlice (output str start end_ : Nat) : HeapM Unit :=
  if start > end_ then strRefCopy output str
  else
    let index := end_ + 1 - start
    storeHeap fun m => Function.update (copyLoop output (str + start) index 0 m) (output + index) 0

end KokoOs
