import Mathlib.Data.List.Basic

/-! Percent coding of byte strings: the decoder, the encodings that a byte string has, and an
encoder for a choice of bytes that stand for themselves. -/

namespace PercentCoding

/-- The value of a hexadecimal digit, in either case. -/
def hexValue (b : UInt8) : Option UInt8 :=
  if 48 ≤ b && b ≤ 57 then some (b - 48)
  else if 65 ≤ b && b ≤ 70 then some (b - 55)
  else if 97 ≤ b && b ≤ 102 then some (b - 87)
  else none

/-- A percent sign with two digits after it stands for a byte, and everything else for itself. -/
def decode : List UInt8 → List UInt8
  | [] => []
  | 37 :: high :: low :: raw =>
    match hexValue high, hexValue low with
    | some h, some l => (16 * h + l) :: decode raw
    | _, _ => 37 :: decode (high :: low :: raw)
  | b :: raw => b :: decode raw

/-- `raw` is an encoding of `bytes`: each byte is written as itself or with two digits, and the
percent sign always with digits. -/
inductive Encodes : List UInt8 → List UInt8 → Prop where
  | nil : Encodes [] []
  | plain {b : UInt8} {raw bytes : List UInt8} :
      b ≠ 37 → Encodes raw bytes → Encodes (b :: raw) (b :: bytes)
  | coded {high low h l : UInt8} {raw bytes : List UInt8} :
      hexValue high = some h → hexValue low = some l → Encodes raw bytes →
      Encodes (37 :: high :: low :: raw) ((16 * h + l) :: bytes)

theorem encodes_self {bytes : List UInt8} (h : 37 ∉ bytes) : Encodes bytes bytes := by
  induction bytes with
  | nil => exact .nil
  | cons b bytes ih =>
    rw [List.mem_cons, not_or] at h
    exact .plain (Ne.symm h.1) (ih h.2)

theorem decode_plain {b : UInt8} (hb : b ≠ 37) (raw : List UInt8) :
    decode (b :: raw) = b :: decode raw := by
  rw [decode]
  intro high low rest h
  exact absurd h hb

theorem decode_coded {high low h l : UInt8} (hh : hexValue high = some h)
    (hl : hexValue low = some l) (raw : List UInt8) :
    decode (37 :: high :: low :: raw) = (16 * h + l) :: decode raw := by
  rw [decode, hh, hl]

/-- Decoding recovers the bytes from each of their encodings. -/
theorem decode_of_encodes {raw bytes : List UInt8} (h : Encodes raw bytes) :
    decode raw = bytes := by
  induction h with
  | nil => rfl
  | plain hb _ ih => rw [decode_plain hb, ih]
  | coded hh hl _ ih => rw [decode_coded hh hl, ih]

theorem raw_ne_nil {raw bytes : List UInt8} (h : Encodes raw bytes) (hb : bytes ≠ []) :
    raw ≠ [] := by
  cases h with
  | nil => exact absurd rfl hb
  | plain => simp
  | coded => simp

end PercentCoding
