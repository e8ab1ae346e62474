import Outlay.Data.Separated

/-!
# Strings

The functions on strings that paths and the environment are read with, as the
standard library documents them. Strings are measured in bytes.
-/

namespace Outlay.Str

open Separated

/-- A letter with the Unicode property `White_Space`. -/
def isWhitespace (c : Char) : Bool :=
  (0x9 ≤ c.toNat && c.toNat ≤ 0xD) || c.toNat == 0x20 || c.toNat == 0x85 || c.toNat == 0xA0 ||
    c.toNat == 0x1680 || (0x2000 ≤ c.toNat && c.toNat ≤ 0x200A) || c.toNat == 0x2028 ||
    c.toNat == 0x2029 || c.toNat == 0x202F || c.toNat == 0x205F || c.toNat == 0x3000

/-- `str::trim`. -/
def trim (s : String) : String := .ofList (Separated.trim isWhitespace s.toList)

/-- `str::split` at a letter. -/
def split (s : String) (sep : Char) : List String := (s.toList.splitOn sep).map .ofList

/-- `str::len`. -/
def len (s : String) : ℕ := s.utf8ByteSize

/-- `char::is_ascii_hexdigit`. -/
def isAsciiHexdigit (c : Char) : Bool :=
  c.isDigit || ('a' ≤ c && c ≤ 'f') || ('A' ≤ c && c ≤ 'F')

/-- `str::to_ascii_lowercase`. -/
def toAsciiLowercase (s : String) : String := .ofList (s.toList.map Char.toLower)

/-- The number written by decimal digits. -/
def decimal (l : List Char) : ℕ := l.foldl (fun n c => 10 * n + (c.toNat - '0'.toNat)) 0

/-- `str::parse` at the unsigned integers of `w` bits: an optional plus sign and
    decimal digits, unless the number does not fit. -/
def parseUnsigned (w : ℕ) (s : String) : Option ℕ :=
  let digits := match s.toList with
    | '+' :: l => l
    | l => l
  if !digits.isEmpty && digits.all Char.isDigit && decimal digits < 2 ^ w then
    some (decimal digits)
  else none

variable {s : String} {c : Char}

/-! ## Trimming -/

@[simp] theorem toList_trim (s : String) :
    (trim s).toList = Separated.trim isWhitespace s.toList := String.toList_ofList

/-- The string is whitespace. -/
def AllWhitespace (s : String) : Prop := Blank isWhitespace s.toList

/-- Trimming twice is trimming once. -/
theorem trim_trim (s : String) : trim (trim s) = trim s := by
  rw [trim, toList_trim, Separated.trim_trim, trim]

/-- Whitespace on either side does not matter. -/
theorem trim_surrounded {w w' : String} (hw : AllWhitespace w) (hw' : AllWhitespace w')
    (s : String) : trim (w ++ s ++ w') = trim s := by
  rw [trim, String.toList_append, String.toList_append, trim_append_blank hw',
    trim_blank_append hw, trim]

/-- Whitespace is trimmed to nothing. -/
theorem trim_of_allWhitespace (h : AllWhitespace s) : trim s = "" := by
  rw [trim, trim_blank h, String.ofList_nil]

/-- A string without whitespace stays as it is. -/
theorem trim_of_not_whitespace (h : ∀ c ∈ s.toList, ¬isWhitespace c) : trim s = s := by
  rw [trim, Separated.trim_of_not_blank h, String.ofList_toList]

/-! ## Hexadecimal digits -/

/-- The hexadecimal digits, of either case. -/
def hexDigits : List Char := "0123456789abcdefABCDEF".toList

theorem mem_hexDigits (h : isAsciiHexdigit c) : c ∈ hexDigits := by
  -- The last of them is the letter f.
  have hlast : c.toNat < 103 := by
    simp only [isAsciiHexdigit, Char.isDigit, Bool.or_eq_true, Bool.and_eq_true,
      decide_eq_true_eq, Char.le_def, ge_iff_le, UInt32.le_iff_toNat_le] at h
    rcases h with (⟨-, h⟩ | ⟨-, h⟩) | ⟨-, h⟩ <;> exact lt_of_le_of_lt h (by decide)
  have hall : ∀ n < 103, isAsciiHexdigit (Char.ofNat n) → Char.ofNat n ∈ hexDigits := by decide
  simpa only [Char.ofNat_toNat] using hall c.toNat hlast (by rwa [Char.ofNat_toNat])

/-- What holds of all of them holds of every hexadecimal digit. -/
theorem of_isAsciiHexdigit {P : Char → Prop} [DecidablePred P] (h : isAsciiHexdigit c)
    (hall : hexDigits.all fun d => P d) : P c :=
  of_decide_eq_true (List.all_eq_true.1 hall c (mem_hexDigits h))

/-- A hexadecimal digit is not whitespace. -/
theorem not_isWhitespace_of_isAsciiHexdigit (h : isAsciiHexdigit c) : ¬isWhitespace c :=
  of_isAsciiHexdigit (P := fun d => ¬isWhitespace d) h (by decide)

/-- A hexadecimal digit is one byte long. -/
theorem utf8Size_of_isAsciiHexdigit (h : isAsciiHexdigit c) : c.utf8Size = 1 :=
  of_isAsciiHexdigit (P := fun d => d.utf8Size = 1) h (by decide)

/-- No hexadecimal digit is the letter n, of either case. -/
theorem toLower_ne_of_isAsciiHexdigit (h : isAsciiHexdigit c) : c.toLower ≠ 'n' :=
  of_isAsciiHexdigit (P := fun d => d.toLower ≠ 'n') h (by decide)

/-- A string of hexadecimal digits has as many bytes as letters. -/
theorem len_of_isAsciiHexdigit (h : ∀ c ∈ s.toList, isAsciiHexdigit c) : len s = s.length := by
  have hlen : ∀ l : List Char, (∀ c ∈ l, isAsciiHexdigit c) → String.utf8Len l = l.length :=
    fun l hl => by
      induction l with
      | nil => rfl
      | cons c l ih =>
        obtain ⟨hc, hl⟩ := List.forall_mem_cons.1 hl
        rw [String.utf8Len_cons, ih hl, utf8Size_of_isAsciiHexdigit hc, List.length_cons]
  rw [len, ← String.ofList_toList (s := s), String.utf8ByteSize_ofList, hlen _ h,
    String.length_ofList]

end Outlay.Str
