import Mathlib.Data.List.Infix
import Mathlib.Data.List.Lex
import Mathlib.Logic.Function.Basic
import Std.Data.ExtTreeSet
import XrayBridge.Lib.Separator

/-! Text as the program has it.  A `String` is a sequence of Unicode scalar values, as Rust's `str`
is, and `utf8` gives the bytes that Rust stores.  The functions below are the methods of `str` that
the program calls. -/

namespace XrayBridge

abbrev Bytes := List UInt8

def utf8 (s : String) : Bytes := s.toList.flatMap String.utf8EncodeChar

theorem toByteArray_utf8 (s : String) : (utf8 s).toByteArray = s.toByteArray :=
  String.utf8Encode_toList

theorem utf8_injective : Function.Injective utf8 := by
  intro s t h
  rw [← String.toByteArray_inj, ← toByteArray_utf8, ← toByteArray_utf8, h]

/-- `str::from_utf8`. -/
def decodeUtf8 (bytes : Bytes) : Option String := String.fromUTF8? bytes.toByteArray

theorem decodeUtf8_utf8 (s : String) : decodeUtf8 (utf8 s) = some s := by
  rw [decodeUtf8, toByteArray_utf8, String.fromUTF8?, dif_pos s.isValidUTF8]
  rfl

/-- `Ord for str`: the order of the bytes. -/
def byteOrder : String → String → Ordering := compareOn utf8

instance : Std.TransCmp byteOrder := inferInstanceAs (Std.TransCmp (compareOn utf8))

instance : Std.LawfulEqCmp byteOrder where
  eq_of_compare h := utf8_injective (Std.LawfulEqCmp.eq_of_compare h)

/-- The bytes that `HeaderValue::to_str` lets through: the printable ASCII characters, the space and
the tab. -/
def visibleByte (b : UInt8) : Bool := (32 ≤ b && b < 127) || b == 9

/-- `visibleByte` on characters. -/
def visibleChar (c : Char) : Bool := (32 ≤ c.toNat && c.toNat < 127) || c.toNat == 9

def byteChar (b : UInt8) : Char := Char.ofNat b.toNat

/-- `str::contains` with a string pattern. -/
def contains (s pattern : String) : Bool := decide (pattern.toList <:+: s.toList)

/-- `str::strip_prefix`. -/
def stripStart (start s : String) : Option String :=
  if start.toList <+: s.toList then some (String.ofList (s.toList.drop start.toList.length))
  else none

/-- `str::starts_with`. -/
def startsWith (s start : String) : Bool := decide (start.toList <+: s.toList)

/-- `str::split` with a string pattern that is not empty. -/
def splitStr (separator s : String) : List String :=
  (Separator.split separator.toList s.toList).map String.ofList

/-- How many parts `str::split` cuts off, the count of `str::matches`. -/
def matchCount (separator s : String) : Nat :=
  Separator.occurrences separator.toList 0 s.toList

/-- The characters from byte `n` on, where a character starts at byte `n`. -/
def dropBytes : Nat → List Char → Option (List Char)
  | 0, l => some l
  | _ + 1, [] => none
  | n + 1, c :: l => if c.utf8Size ≤ n + 1 then dropBytes (n + 1 - c.utf8Size) l else none

/-- The slice `&s[n..]`; `none` is the panic of a slice that starts past the end of the string or
inside a character. -/
def sliceFrom (n : Nat) (s : String) : Option String := (dropBytes n s.toList).map String.ofList

/-- The decimal numeral that `digits` spells, most significant digit first. -/
def decimalValue (digits : List Char) : Nat :=
  digits.foldl (fun value c => 10 * value + (c.toNat - '0'.toNat)) 0

/-- `u16::from_str`: an optional plus sign, then one or more decimal digits whose value fits. -/
def parseU16 (s : String) : Option UInt16 :=
  let digits := match s.toList with
    | '+' :: rest => rest
    | chars => chars
  if digits.isEmpty || !digits.all Char.isDigit then none
  else if decimalValue digits < 65536 then some (UInt16.ofNat (decimalValue digits)) else none

/-- How `format!` prints a `u16`. -/
def showU16 (n : UInt16) : String := toString n.toNat

theorem toList_showU16 (n : UInt16) : (showU16 n).toList = Nat.toDigits 10 n.toNat := by
  rw [showU16, Nat.toString_eq_repr, Nat.toList_repr]

theorem isDigit_of_mem_showU16 {n : UInt16} {c : Char} (h : c ∈ (showU16 n).toList) :
    c.isDigit = true := by
  rw [toList_showU16] at h
  exact Nat.isDigit_of_mem_toDigits (by decide) (by decide) h

theorem decimalValue_toDigits (n : Nat) : decimalValue (Nat.toDigits 10 n) = n := by
  induction n using Nat.strong_induction_on with
  | _ n ih =>
    have hdigit : ∀ d < 10, (Nat.digitChar d).toNat - '0'.toNat = d := by decide
    rw [Nat.toDigits_eq_if (by decide)]
    split
    · rename_i hlt
      rw [decimalValue, List.foldl_cons, List.foldl_nil, hdigit n hlt]
      omega
    · rename_i hge
      have ih := ih (n / 10) (by omega)
      rw [decimalValue] at ih
      rw [decimalValue, List.foldl_append, ih, List.foldl_cons, List.foldl_nil,
        hdigit _ (Nat.mod_lt n (by decide))]
      omega

theorem decimalValue_showU16 (n : UInt16) : decimalValue (showU16 n).toList = n.toNat := by
  rw [toList_showU16, decimalValue_toDigits]

/-- `bool::from_str`. -/
def parseBool (s : String) : Option Bool :=
  if s = "true" then some true else if s = "false" then some false else none

end XrayBridge
