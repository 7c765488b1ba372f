import Mathlib.Data.List.Basic

/-! The wire format of protocol buffers: a message is a list of fields, each with a number and a
value that is a varint or a sequence of bytes.  What is written is read back, and a field that is
looked up in a message comes from the part of the message that writes this number. -/

namespace WireFormat

inductive Value where
  | varint (n : Nat)
  | bytes (content : List UInt8)
  deriving DecidableEq

structure Field where
  number : Nat
  value : Value
  deriving DecidableEq

/-! ### Writing -/

/-- The groups of seven bits of a number, the lowest first, all but the last one marked; `fuel`
bounds the groups. -/
def writeGroups (fuel n : Nat) : List UInt8 :=
  match fuel with
  | 0 => []
  | fuel + 1 =>
    if n < 128 then [UInt8.ofNat n] else UInt8.ofNat (n % 128 + 128) :: writeGroups fuel (n / 128)

def writeVarint (n : Nat) : List UInt8 := writeGroups (n + 1) n

def writeField (field : Field) : List UInt8 :=
  match field.value with
  | .varint n => writeVarint (8 * field.number) ++ writeVarint n
  | .bytes content =>
    writeVarint (8 * field.number + 2) ++ writeVarint content.length ++ content

def write (fields : List Field) : List UInt8 := fields.flatMap writeField

/-! ### Reading -/

def readVarint : List UInt8 → Option (Nat × List UInt8)
  | [] => none
  | b :: rest =>
    if b.toNat < 128 then some (b.toNat, rest)
    else (readVarint rest).map fun (n, rest) => (b.toNat - 128 + 128 * n, rest)

def readField (input : List UInt8) : Option (Field × List UInt8) := do
  let (key, rest) ← readVarint input
  if key % 8 = 0 then
    let (n, rest) ← readVarint rest
    return (⟨key / 8, .varint n⟩, rest)
  else if key % 8 = 2 then
    let (length, rest) ← readVarint rest
    if length ≤ rest.length then
      return (⟨key / 8, .bytes (rest.take length)⟩, rest.drop length)
    else none
  else none

/-- The items that follow each other in an input; `fuel` bounds their number. -/
def readMany {α : Type} (item : List UInt8 → Option (α × List UInt8)) (fuel : Nat)
    (input : List UInt8) : Option (List α) :=
  match fuel, input with
  | _, [] => some []
  | 0, _ :: _ => none
  | fuel + 1, b :: input => do
    let (a, rest) ← item (b :: input)
    return a :: (← readMany item fuel rest)

def read (input : List UInt8) : Option (List Field) := readMany readField input.length input

/-- The numbers of a packed field. -/
def writePacked (numbers : List Nat) : List UInt8 := numbers.flatMap writeVarint

def readPacked (input : List UInt8) : Option (List Nat) := readMany readVarint input.length input

/-! ### What is written is read back -/

theorem writeGroups_ne_nil {fuel n : Nat} (h : n < fuel) : writeGroups fuel n ≠ [] := by
  obtain ⟨fuel, rfl⟩ : ∃ k, fuel = k + 1 := ⟨fuel - 1, by omega⟩
  rw [writeGroups]
  split <;> exact List.cons_ne_nil _ _

theorem readVarint_writeGroups {fuel n : Nat} (h : n < fuel) (rest : List UInt8) :
    readVarint (writeGroups fuel n ++ rest) = some (n, rest) := by
  induction fuel generalizing n with
  | zero => omega
  | succ fuel ih =>
    rw [writeGroups]
    split
    · rename_i hlt
      have hbyte : (UInt8.ofNat n).toNat = n := UInt8.toNat_ofNat_of_lt' (Nat.lt_trans hlt (by decide))
      rw [List.singleton_append, readVarint, hbyte, if_pos hlt]
    · rename_i hge
      have hbyte : (UInt8.ofNat (n % 128 + 128)).toNat = n % 128 + 128 := by
        apply UInt8.toNat_ofNat_of_lt'
        show n % 128 + 128 < 256
        omega
      have hdiv : n / 128 < fuel := by omega
      rw [List.cons_append, readVarint, hbyte, if_neg (by omega), ih hdiv, Option.map_some]
      show some (n % 128 + 128 - 128 + 128 * (n / 128), rest) = some (n, rest)
      congr 2
      omega

theorem readVarint_writeVarint (n : Nat) (rest : List UInt8) :
    readVarint (writeVarint n ++ rest) = some (n, rest) :=
  readVarint_writeGroups (Nat.lt_succ_self n) rest

theorem writeVarint_ne_nil (n : Nat) : writeVarint n ≠ [] :=
  writeGroups_ne_nil (Nat.lt_succ_self n)

theorem writeField_ne_nil (field : Field) : writeField field ≠ [] := by
  obtain ⟨number, value⟩ := field
  cases value <;> simp [writeField, writeVarint_ne_nil]

theorem readField_writeField (field : Field) (rest : List UInt8) :
    readField (writeField field ++ rest) = some (field, rest) := by
  obtain ⟨number, value⟩ := field
  cases value with
  | varint n =>
    have hkey : 8 * number % 8 = 0 ∧ 8 * number / 8 = number := by omega
    simp [writeField, readField, readVarint_writeVarint, hkey]
  | bytes content =>
    have hkey : (8 * number + 2) % 8 = 2 ∧ (8 * number + 2) / 8 = number := by omega
    simp [writeField, readField, readVarint_writeVarint, hkey]

theorem readMany_flatMap {α : Type} {item : List UInt8 → Option (α × List UInt8)}
    {write : α → List UInt8} (hne : ∀ a, write a ≠ [])
    (hitem : ∀ a rest, item (write a ++ rest) = some (a, rest)) {items : List α} {fuel : Nat}
    (h : items.length ≤ fuel) : readMany item fuel (items.flatMap write) = some items := by
  induction items generalizing fuel with
  | nil => cases fuel <;> rfl
  | cons a items ih =>
    obtain ⟨fuel, rfl⟩ : ∃ k, fuel = k + 1 := ⟨fuel - 1, by simp at h; omega⟩
    have ha := hitem a (items.flatMap write)
    have hrest : readMany item fuel (items.flatMap write) = some items := ih (by simpa using h)
    rw [List.flatMap_cons]
    cases hinput : write a ++ items.flatMap write with
    | nil => exact absurd (List.append_eq_nil_iff.mp hinput).1 (hne a)
    | cons b input =>
      rw [hinput] at ha
      simp [readMany, ha, hrest]

theorem length_le_flatMap {α : Type} {write : α → List UInt8} (hne : ∀ a, write a ≠ [])
    (items : List α) : items.length ≤ (items.flatMap write).length := by
  induction items with
  | nil => exact Nat.zero_le _
  | cons a items ih =>
    have hpos := List.length_pos_of_ne_nil (hne a)
    rw [List.flatMap_cons, List.length_append, List.length_cons]
    omega

/-- Reading inverts writing. -/
theorem read_write (fields : List Field) : read (write fields) = some fields :=
  readMany_flatMap writeField_ne_nil readField_writeField
    (length_le_flatMap writeField_ne_nil fields)

theorem readPacked_writePacked (numbers : List Nat) :
    readPacked (writePacked numbers) = some numbers :=
  readMany_flatMap writeVarint_ne_nil readVarint_writeVarint
    (length_le_flatMap writeVarint_ne_nil numbers)

/-! ### Fields of a message -/

/-- The value of a field; of several with its number, the last one counts. -/
def get (number : Nat) (fields : List Field) : Option Value :=
  (fields.reverse.find? (·.number = number)).map (·.value)

@[simp] theorem get_nil (number : Nat) : get number [] = none := rfl

@[simp] theorem get_singleton (number : Nat) (field : Field) :
    get number [field] = if field.number = number then some field.value else none := by
  by_cases h : field.number = number <;> simp [get, h]

@[simp] theorem get_append (number : Nat) (a b : List Field) :
    get number (a ++ b) = (get number b).or (get number a) := by
  simp [get, List.find?_append, Option.map_or]

/-- A number that is left out where it is 0. -/
def numberField (number n : Nat) : List Field := if n = 0 then [] else [⟨number, .varint n⟩]

/-- Bytes that are left out where there are none. -/
def bytesField (number : Nat) (content : List UInt8) : List Field :=
  if content = [] then [] else [⟨number, .bytes content⟩]

/-- A message inside of another one. -/
def messageField (number : Nat) (message : Option (List Field)) : List Field :=
  (message.map fun fields => ⟨number, .bytes (write fields)⟩).toList

def getNumber (number : Nat) (fields : List Field) : Option Nat :=
  match get number fields with
  | none => some 0
  | some (.varint n) => some n
  | some (.bytes _) => none

def getBytes (number : Nat) (fields : List Field) : Option (List UInt8) :=
  match get number fields with
  | none => some []
  | some (.bytes content) => some content
  | some (.varint _) => none

def getMessage (number : Nat) (fields : List Field) : Option (Option (List Field)) :=
  match get number fields with
  | none => some none
  | some (.bytes content) => (read content).map some
  | some (.varint _) => none

@[simp] theorem get_numberField {j number : Nat} (n : Nat) (h : number ≠ j) :
    get j (numberField number n) = none := by
  rw [numberField]
  split <;> simp [h]

@[simp] theorem get_bytesField {j number : Nat} (content : List UInt8) (h : number ≠ j) :
    get j (bytesField number content) = none := by
  rw [bytesField]
  split <;> simp [h]

@[simp] theorem get_messageField {j number : Nat} (message : Option (List Field)) (h : number ≠ j) :
    get j (messageField number message) = none := by
  cases message <;> simp [messageField, h]

/-! A field is read back from every message in which its number is written once. -/

theorem getNumber_eq {number n : Nat} {fields : List Field}
    (h : get number fields = get number (numberField number n)) :
    getNumber number fields = some n := by
  rw [getNumber, h, numberField]
  by_cases hzero : n = 0
  · rw [if_pos hzero, hzero]
    rfl
  · rw [if_neg hzero, get_singleton, if_pos rfl]

theorem getBytes_eq {number : Nat} {content : List UInt8} {fields : List Field}
    (h : get number fields = get number (bytesField number content)) :
    getBytes number fields = some content := by
  rw [getBytes, h, bytesField]
  by_cases hempty : content = []
  · rw [if_pos hempty, hempty]
    rfl
  · rw [if_neg hempty, get_singleton, if_pos rfl]

theorem getMessage_eq {number : Nat} {message : Option (List Field)} {fields : List Field}
    (h : get number fields = get number (messageField number message)) :
    getMessage number fields = some message := by
  rw [getMessage, h]
  cases message <;> simp [messageField, read_write]

end WireFormat
