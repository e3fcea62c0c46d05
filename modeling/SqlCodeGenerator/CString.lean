import Mathlib.Data.List.DropRight
import Mathlib.Tactic

/-!
# C strings and character buffers

A C string is the list of its bytes before the terminating NUL.  The NUL itself
is therefore the end of the list: `*p == '\0'` is `p = []`, a pointer into a
string is the suffix it points at, and advancing the pointer drops a character.
No character of a string is NUL, which the type of characters records.

The second half of the module embeds the string helpers of `model.c` that work
on raw text: `trim_inplace`, `ci_starts`, `ci_find` and `skip_ws`, with the
`<ctype.h>` tests of the C locale they rest on.
-/

namespace SqlCodeGenerator

/-- A character of a C string: any byte but the terminating NUL. -/
abbrev CChar := { byte : UInt8 // byte ≠ 0 }

/-- The bytes of a C string before its NUL. -/
abbrev CString := List CChar

/-- The C character literal of an ASCII character other than NUL. -/
def chr (c : Char) (h : UInt8.ofNat c.toNat ≠ 0 := by decide) : CChar :=
  ⟨UInt8.ofNat c.toNat, h⟩

/-- The C string literal of an ASCII text. -/
def lit (text : String) : CString :=
  text.toList.filterMap fun c =>
    if h : UInt8.ofNat c.toNat ≠ 0 then some ⟨UInt8.ofNat c.toNat, h⟩ else none

/-! ### The punctuation the scanners look for -/

def apostrophe : CChar := ⟨39, by decide⟩
def backslash : CChar := ⟨92, by decide⟩
def backtick : CChar := ⟨96, by decide⟩
def closeParen : CChar := chr ')'
def comma : CChar := chr ','
def dot : CChar := chr '.'
def doubleQuote : CChar := ⟨34, by decide⟩
def openParen : CChar := chr '('
def semicolon : CChar := chr ';'

/-- The C string that starts at the first byte of a buffer: it ends at the first
NUL. -/
def cstr : List UInt8 → CString
  | [] => []
  | byte :: rest => if h : byte ≠ 0 then ⟨byte, h⟩ :: cstr rest else []

/-- `%d` of a natural number. -/
def decimal (n : Nat) : CString := lit (toString n)

/-- `isspace` in the C locale: space, and the bytes 9 to 13. -/
def isSpace (c : CChar) : Bool :=
  c.val == 32 || (9 ≤ c.val && c.val ≤ 13)

/-- `isalnum` in the C locale. -/
def isAlnum (c : CChar) : Bool :=
  (48 ≤ c.val && c.val ≤ 57) || (65 ≤ c.val && c.val ≤ 90) || (97 ≤ c.val && c.val ≤ 122)

/-- `tolower` in the C locale. -/
def toLower (c : CChar) : CChar :=
  if h : 65 ≤ c.val ∧ c.val ≤ 90 then
    ⟨c.val + 32, by
      intro hzero
      have hbytes := congrArg UInt8.toNat hzero
      have hupper := UInt8.le_iff_toNat_le.mp h.2
      simp [UInt8.toNat_add] at hbytes hupper
      omega⟩
  else c

/-- `skip_ws`: the first position that is not white space. -/
def skipWs (p : CString) : CString := p.dropWhile isSpace

/-- `trim_inplace`: white space is cut at the end, then at the beginning. -/
def trimInplace (s : CString) : CString := (s.rdropWhile isSpace).dropWhile isSpace

/-- `ci_starts`: does the text start with the word, letter case aside? -/
def ciStarts : CString → CString → Bool
  | _, [] => true
  | [], _ :: _ => false
  | c :: s, d :: word => toLower c = toLower d && ciStarts s word

/-- `ci_find`: the first position at which the word stands, letter case aside.
The inner loop of the source is `ciStarts`. -/
def ciFind : CString → CString → Option CString
  | p, [] => some p
  | [], _ :: _ => none
  | c :: p, word => if ciStarts (c :: p) word then some (c :: p) else ciFind p word

/-- A `char` array of size `size` that holds a NUL-terminated string. -/
structure CBuf (size : Nat) where
  chars : CString
  fits : chars.length < size
  deriving DecidableEq

namespace CBuf

variable {size : Nat}

@[ext] theorem ext {a b : CBuf size} (h : a.chars = b.chars) : a = b := by
  cases a
  cases b
  simpa using h

end CBuf

/-- `snprintf(out, size, "%s", s)`: the string is cut to the room there is. -/
def snprintf {size : Nat} [NeZero size] (s : CString) : CBuf size :=
  ⟨s.take (size - 1), by
    have hsize := Nat.pos_of_ne_zero (NeZero.ne size)
    simp
    omega⟩

end SqlCodeGenerator
