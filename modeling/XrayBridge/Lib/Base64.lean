import Mathlib.Data.List.Basic

/-! Base64 with the standard alphabet and padding.  The decoder takes exactly the texts of the
encoder: no other padding, and no bits left over. -/

namespace Base64

def alphabet : List Char :=
  "ABCDEFGHIJKLMNOPQRSTUVWXYZabcdefghijklmnopqrstuvwxyz0123456789+/".toList

/-- The character of six bits. -/
def symbol (n : Nat) : Char := alphabet[n]?.getD 'A'

def value (c : Char) : Option Nat := alphabet.findIdx? (· = c)

def encode : List UInt8 → List Char
  | [] => []
  | [a] => [symbol (a.toNat / 4), symbol (a.toNat % 4 * 16), '=', '=']
  | [a, b] =>
    [symbol (a.toNat / 4), symbol (a.toNat % 4 * 16 + b.toNat / 16), symbol (b.toNat % 16 * 4), '=']
  | a :: b :: c :: rest =>
    symbol (a.toNat / 4) :: symbol (a.toNat % 4 * 16 + b.toNat / 16) ::
      symbol (b.toNat % 16 * 4 + c.toNat / 64) :: symbol (c.toNat % 64) :: encode rest

/-- The byte of the last characters of a text with two paddings. -/
def decodeOne (c d : Char) : Option (List UInt8) := do
  let m ← value c
  let n ← value d
  if n % 16 = 0 then some [UInt8.ofNat (m * 4 + n / 16)] else none

/-- The bytes of the last characters of a text with one padding. -/
def decodeTwo (c d e : Char) : Option (List UInt8) := do
  let m ← value c
  let n ← value d
  let k ← value e
  if k % 4 = 0 then some [UInt8.ofNat (m * 4 + n / 16), UInt8.ofNat (n % 16 * 16 + k / 4)]
  else none

def decodeThree (c d e f : Char) : Option (List UInt8) := do
  let m ← value c
  let n ← value d
  let k ← value e
  let l ← value f
  return [UInt8.ofNat (m * 4 + n / 16), UInt8.ofNat (n % 16 * 16 + k / 4),
    UInt8.ofNat (k % 4 * 64 + l)]

def decode : List Char → Option (List UInt8)
  | [] => some []
  | c :: d :: e :: f :: rest =>
    if rest = [] ∧ e = '=' ∧ f = '=' then decodeOne c d
    else if rest = [] ∧ f = '=' then decodeTwo c d e
    else do return (← decodeThree c d e f) ++ (← decode rest)
  | _ => none

/-! ### Characters -/

theorem value_symbol {n : Nat} (h : n < 64) : value (symbol n) = some n := by
  have hall : ∀ n < 64, value (symbol n) = some n := by decide +kernel
  exact hall n h

theorem symbol_ne_pad {n : Nat} (h : n < 64) : symbol n ≠ '=' := by
  have hall : ∀ n < 64, symbol n ≠ '=' := by decide +kernel
  exact hall n h

theorem value_eq_some {c : Char} {n : Nat} (h : value c = some n) : n < 64 ∧ symbol n = c := by
  obtain ⟨hlt, hn, -⟩ := List.findIdx?_eq_some_iff_getElem.mp h
  refine ⟨hlt, ?_⟩
  rw [symbol, List.getElem?_eq_getElem hlt]
  exact of_decide_eq_true hn

theorem ofNat_eq {n : Nat} {a : UInt8} (h : n = a.toNat) : UInt8.ofNat n = a := by
  rw [h, UInt8.ofNat_toNat]

theorem toNat_ofNat_lt {n : Nat} (h : n < 256) : (UInt8.ofNat n).toNat = n :=
  UInt8.toNat_ofNat_of_lt' h

/-! ### Groups -/

theorem decodeOne_encode (a : UInt8) :
    decodeOne (symbol (a.toNat / 4)) (symbol (a.toNat % 4 * 16)) = some [a] := by
  have ha := a.toNat_lt
  rw [decodeOne, value_symbol (by omega), value_symbol (by omega)]
  simp only [Option.bind_eq_bind, Option.bind_some, Nat.mul_mod_left, if_true]
  rw [ofNat_eq (a := a) (by omega)]

theorem decodeTwo_encode (a b : UInt8) :
    decodeTwo (symbol (a.toNat / 4)) (symbol (a.toNat % 4 * 16 + b.toNat / 16))
      (symbol (b.toNat % 16 * 4)) = some [a, b] := by
  have ha := a.toNat_lt
  have hb := b.toNat_lt
  rw [decodeTwo, value_symbol (by omega), value_symbol (by omega), value_symbol (by omega)]
  simp only [Option.bind_eq_bind, Option.bind_some, Nat.mul_mod_left, if_true]
  rw [ofNat_eq (a := a) (by omega), ofNat_eq (a := b) (by omega)]

theorem decodeThree_encode (a b c : UInt8) :
    decodeThree (symbol (a.toNat / 4)) (symbol (a.toNat % 4 * 16 + b.toNat / 16))
      (symbol (b.toNat % 16 * 4 + c.toNat / 64)) (symbol (c.toNat % 64)) = some [a, b, c] := by
  have ha := a.toNat_lt
  have hb := b.toNat_lt
  have hc := c.toNat_lt
  rw [decodeThree, value_symbol (by omega), value_symbol (by omega), value_symbol (by omega),
    value_symbol (by omega)]
  simp only [Option.bind_eq_bind, Option.bind_some, Option.pure_def]
  rw [ofNat_eq (a := a) (by omega), ofNat_eq (a := b) (by omega), ofNat_eq (a := c) (by omega)]

theorem decode_encode (bytes : List UInt8) : decode (encode bytes) = some bytes := by
  induction bytes using encode.induct with
  | case1 => rfl
  | case2 a => rw [encode, decode, if_pos ⟨rfl, rfl, rfl⟩, decodeOne_encode]
  | case3 a b =>
    have hb := b.toNat_lt
    have hpad : symbol (b.toNat % 16 * 4) ≠ '=' := symbol_ne_pad (by omega)
    rw [encode, decode, if_neg (fun h => hpad h.2.1), if_pos ⟨rfl, rfl⟩, decodeTwo_encode]
  | case4 a b c rest ih =>
    have hpad : symbol (c.toNat % 64) ≠ '=' := symbol_ne_pad (by omega)
    rw [encode, decode, if_neg (fun h => hpad h.2.2), if_neg (fun h => hpad h.2),
      decodeThree_encode, ih]
    rfl

theorem encode_of_decodeOne {c d : Char} {bytes : List UInt8} (h : decodeOne c d = some bytes) :
    encode bytes = [c, d, '=', '='] := by
  rw [decodeOne] at h
  obtain ⟨m, hm, h₁⟩ := Option.bind_eq_some_iff.mp h
  obtain ⟨n, hn, h₂⟩ := Option.bind_eq_some_iff.mp h₁
  obtain ⟨hm, rfl⟩ := value_eq_some hm
  obtain ⟨hn, rfl⟩ := value_eq_some hn
  obtain ⟨hzero, hbytes⟩ := Option.ite_none_right_eq_some.mp h₂
  cases hbytes
  rw [encode, toNat_ofNat_lt (by omega)]
  have hfirst : (m * 4 + n / 16) / 4 = m := by omega
  have hsecond : (m * 4 + n / 16) % 4 * 16 = n := by omega
  rw [hfirst, hsecond]

theorem encode_of_decodeTwo {c d e : Char} {bytes : List UInt8}
    (h : decodeTwo c d e = some bytes) : encode bytes = [c, d, e, '='] := by
  rw [decodeTwo] at h
  obtain ⟨m, hm, h₁⟩ := Option.bind_eq_some_iff.mp h
  obtain ⟨n, hn, h₂⟩ := Option.bind_eq_some_iff.mp h₁
  obtain ⟨k, hk, h₃⟩ := Option.bind_eq_some_iff.mp h₂
  obtain ⟨hm, rfl⟩ := value_eq_some hm
  obtain ⟨hn, rfl⟩ := value_eq_some hn
  obtain ⟨hk, rfl⟩ := value_eq_some hk
  obtain ⟨hzero, hbytes⟩ := Option.ite_none_right_eq_some.mp h₃
  cases hbytes
  rw [encode, toNat_ofNat_lt (by omega), toNat_ofNat_lt (by omega)]
  have hfirst : (m * 4 + n / 16) / 4 = m := by omega
  have hsecond : (m * 4 + n / 16) % 4 * 16 + (n % 16 * 16 + k / 4) / 16 = n := by omega
  have hthird : (n % 16 * 16 + k / 4) % 16 * 4 = k := by omega
  rw [hfirst, hsecond, hthird]

theorem encode_of_decodeThree {c d e f : Char} {bytes rest : List UInt8}
    (h : decodeThree c d e f = some bytes) :
    encode (bytes ++ rest) = c :: d :: e :: f :: encode rest := by
  rw [decodeThree] at h
  obtain ⟨m, hm, h₁⟩ := Option.bind_eq_some_iff.mp h
  obtain ⟨n, hn, h₂⟩ := Option.bind_eq_some_iff.mp h₁
  obtain ⟨k, hk, h₃⟩ := Option.bind_eq_some_iff.mp h₂
  obtain ⟨l, hl, h₄⟩ := Option.bind_eq_some_iff.mp h₃
  obtain ⟨hm, rfl⟩ := value_eq_some hm
  obtain ⟨hn, rfl⟩ := value_eq_some hn
  obtain ⟨hk, rfl⟩ := value_eq_some hk
  obtain ⟨hl, rfl⟩ := value_eq_some hl
  cases h₄
  simp only [List.cons_append, List.nil_append]
  rw [encode, toNat_ofNat_lt (by omega), toNat_ofNat_lt (by omega), toNat_ofNat_lt (by omega)]
  have hfirst : (m * 4 + n / 16) / 4 = m := by omega
  have hsecond : (m * 4 + n / 16) % 4 * 16 + (n % 16 * 16 + k / 4) / 16 = n := by omega
  have hthird : (n % 16 * 16 + k / 4) % 16 * 4 + (k % 4 * 64 + l) / 64 = k := by omega
  have hfourth : (k % 4 * 64 + l) % 64 = l := by omega
  rw [hfirst, hsecond, hthird, hfourth]

theorem encode_of_decode {text : List Char} {bytes : List UInt8} (h : decode text = some bytes) :
    encode bytes = text := by
  induction text using decode.induct generalizing bytes with
  | case1 =>
    cases h
    rfl
  | case2 c d e f rest hpad =>
    obtain ⟨rfl, rfl, rfl⟩ := hpad
    rw [decode, if_pos ⟨rfl, rfl, rfl⟩] at h
    exact encode_of_decodeOne h
  | case3 c d e f rest hnot hpad =>
    rw [decode, if_neg hnot, if_pos hpad] at h
    obtain ⟨rfl, rfl⟩ := hpad
    exact encode_of_decodeTwo h
  | case4 c d e f rest hnot hnot' ih =>
    rw [decode, if_neg hnot, if_neg hnot'] at h
    obtain ⟨first, hfirst, h⟩ := Option.bind_eq_some_iff.mp h
    obtain ⟨others, hothers, h⟩ := Option.bind_eq_some_iff.mp h
    cases h
    rw [encode_of_decodeThree hfirst, ih hothers]
  | case5 text hnil hcons =>
    rw [decode] at h
    · cases h
    · exact hnil
    · exact hcons

/-- Exactly the texts of the encoder are decoded. -/
theorem decode_eq_some_iff {text : List Char} {bytes : List UInt8} :
    decode text = some bytes ↔ encode bytes = text := by
  constructor
  · exact encode_of_decode
  · rintro rfl
    exact decode_encode bytes

end Base64
