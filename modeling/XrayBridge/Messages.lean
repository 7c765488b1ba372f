import XrayBridge.Lib.WireFormat
import XrayBridge.Proto

/-! The encoded messages of the program: the fields of each message, with the numbers of the
protocol files, and the message that fields stand for. -/

namespace XrayBridge

namespace Reference

open WireFormat

/-! ### Types of fields -/

abbrev stringField (number : Nat) (s : String) : List Field := bytesField number (utf8 s)

def getString (number : Nat) (fields : List Field) : Option String :=
  (getBytes number fields).bind decodeUtf8

abbrev u32Field (number : Nat) (n : UInt32) : List Field := numberField number n.toNat

def getU32 (number : Nat) (fields : List Field) : Option UInt32 :=
  (getNumber number fields).map UInt32.ofNat

abbrev boolField (number : Nat) (b : Bool) : List Field := numberField number b.toNat

def getBool (number : Nat) (fields : List Field) : Option Bool :=
  (getNumber number fields).map (· != 0)

/-- An enumeration, in two's complement of 64 bits. -/
abbrev enumField (number : Nat) (value : Int) : List Field :=
  numberField number (value % 18446744073709551616).toNat

def getEnum (number : Nat) (fields : List Field) : Option Int :=
  (getNumber number fields).map fun n : Nat => (n : Int).bmod 4294967296

/-- A field of a message type, whose fields `read` reads. -/
def getSub {α : Type} (read : List Field → Option α) (number : Nat) (fields : List Field) :
    Option (Option α) :=
  match getMessage number fields with
  | none => none
  | some none => some none
  | some (some sub) => (read sub).map some

section

variable {number : Nat} {fields : List Field}

theorem getString_eq {s : String} (h : get number fields = get number (stringField number s)) :
    getString number fields = some s := by
  rw [getString, getBytes_eq h, Option.bind_some, decodeUtf8_utf8]

theorem getU32_eq {n : UInt32} (h : get number fields = get number (u32Field number n)) :
    getU32 number fields = some n := by
  rw [getU32, getNumber_eq h, Option.map_some, UInt32.ofNat_toNat]

theorem getBool_eq {b : Bool} (h : get number fields = get number (boolField number b)) :
    getBool number fields = some b := by
  rw [getBool, getNumber_eq h]
  cases b <;> rfl

theorem getEnum_eq {value : Int} (hvalue : FitsI32 value)
    (h : get number fields = get number (enumField number value)) :
    getEnum number fields = some value := by
  have hbmod : ((value % 18446744073709551616).toNat : Int).bmod 4294967296 = value := by
    obtain ⟨hlow, hhigh⟩ := hvalue
    rw [Int.toNat_of_nonneg (Int.emod_nonneg _ (by decide))]
    rw [Int.bmod_def]
    omega
  rw [getEnum, getNumber_eq h, Option.map_some, hbmod]

theorem getSub_eq {α : Type} {read : List Field → Option α} {write : α → List Field}
    {message : Option α} (hread : ∀ a ∈ message, read (write a) = some a)
    (h : get number fields = get number (messageField number (message.map write))) :
    getSub read number fields = some message := by
  rw [getSub, getMessage_eq h]
  cases message with
  | none => rfl
  | some a =>
    show (read (write a)).map some = _
    rw [hread a rfl, Option.map_some]

end

/-! ### Messages -/

def typedMessageFields (m : TypedMessage) : List Field :=
  stringField 1 m.type ++ bytesField 2 m.value

def typedMessageOf (fields : List Field) : Option TypedMessage := do
  return { type := ← getString 1 fields, value := ← getBytes 2 fields }

def userFields (m : User) : List Field :=
  u32Field 1 m.level ++ stringField 2 m.email ++
    messageField 3 (m.account.map typedMessageFields)

def userOf (fields : List Field) : Option User := do
  return {
    level := ← getU32 1 fields
    email := ← getString 2 fields
    account := ← getSub typedMessageOf 3 fields }

def reverseFields (m : VlessReverse) : List Field := stringField 1 m.tag

def reverseOf (fields : List Field) : Option VlessReverse := do
  return { tag := ← getString 1 fields }

def securityFields (m : SecurityConfig) : List Field := enumField 1 m.type

def securityOf (fields : List Field) : Option SecurityConfig := do
  return { type := ← getEnum 1 fields }

def vlessFields (m : VlessAccount) : List Field :=
  stringField 1 m.id ++ stringField 2 m.flow ++ stringField 3 m.encryption ++
    u32Field 4 m.xorMode ++ u32Field 5 m.seconds ++ stringField 6 m.padding ++
    messageField 7 (m.reverse.map reverseFields) ++ u32Field 8 m.testpre ++
    bytesField 9 (writePacked (m.testseed.map UInt32.toNat))

def vlessOf (fields : List Field) : Option VlessAccount := do
  return {
    id := ← getString 1 fields
    flow := ← getString 2 fields
    encryption := ← getString 3 fields
    xorMode := ← getU32 4 fields
    seconds := ← getU32 5 fields
    padding := ← getString 6 fields
    reverse := ← getSub reverseOf 7 fields
    testpre := ← getU32 8 fields
    testseed := ((← readPacked (← getBytes 9 fields)).map UInt32.ofNat) }

def vmessFields (m : VmessAccount) : List Field :=
  stringField 1 m.id ++ messageField 3 (m.securitySettings.map securityFields) ++
    stringField 4 m.testsEnabled

def vmessOf (fields : List Field) : Option VmessAccount := do
  return {
    id := ← getString 1 fields
    securitySettings := ← getSub securityOf 3 fields
    testsEnabled := ← getString 4 fields }

def shadowsocksFields (m : ShadowsocksAccount) : List Field :=
  stringField 1 m.password ++ enumField 2 m.cipherType ++ boolField 3 m.ivCheck

def shadowsocksOf (fields : List Field) : Option ShadowsocksAccount := do
  return {
    password := ← getString 1 fields
    cipherType := ← getEnum 2 fields
    ivCheck := ← getBool 3 fields }

def fieldsOf (k : MessageKind) (m : k.Payload) : List Field :=
  match k, m with
  | .addUserOperation, (m : AddUserOperation) => messageField 1 (m.user.map userFields)
  | .removeUserOperation, (m : RemoveUserOperation) => stringField 1 m.email
  | .vlessAccount, (m : VlessAccount) => vlessFields m
  | .vmessAccount, (m : VmessAccount) => vmessFields m
  | .trojanAccount, (m : TrojanAccount) => stringField 1 m.password
  | .shadowsocksAccount, (m : ShadowsocksAccount) => shadowsocksFields m

def messageOf (k : MessageKind) (fields : List Field) : Option k.Payload :=
  match k with
  | .addUserOperation => (getSub userOf 1 fields).map AddUserOperation.mk
  | .removeUserOperation => (getString 1 fields).map RemoveUserOperation.mk
  | .vlessAccount => vlessOf fields
  | .vmessAccount => vmessOf fields
  | .trojanAccount => (getString 1 fields).map TrojanAccount.mk
  | .shadowsocksAccount => shadowsocksOf fields

/-! ### Messages are read back -/

theorem typedMessageOf_fields (m : TypedMessage) :
    typedMessageOf (typedMessageFields m) = some m := by
  have htype : getString 1 (typedMessageFields m) = some m.type :=
    getString_eq (by simp [typedMessageFields])
  have hvalue : getBytes 2 (typedMessageFields m) = some m.value :=
    getBytes_eq (by simp [typedMessageFields])
  rw [typedMessageOf, htype, hvalue]
  rfl

theorem userOf_fields (m : User) : userOf (userFields m) = some m := by
  have hlevel : getU32 1 (userFields m) = some m.level := getU32_eq (by simp [userFields])
  have hemail : getString 2 (userFields m) = some m.email := getString_eq (by simp [userFields])
  have haccount : getSub typedMessageOf 3 (userFields m) = some m.account :=
    getSub_eq (fun a _ => typedMessageOf_fields a) (by simp [userFields])
  rw [userOf, hlevel, hemail, haccount]
  rfl

theorem reverseOf_fields (m : VlessReverse) : reverseOf (reverseFields m) = some m := by
  have htag : getString 1 (reverseFields m) = some m.tag := getString_eq rfl
  rw [reverseOf, htag]
  rfl

theorem securityOf_fields {m : SecurityConfig} (h : FitsI32 m.type) :
    securityOf (securityFields m) = some m := by
  have htype : getEnum 1 (securityFields m) = some m.type := getEnum_eq h rfl
  rw [securityOf, htype]
  rfl

theorem packed_ofNat_toNat (numbers : List UInt32) :
    (numbers.map UInt32.toNat).map UInt32.ofNat = numbers := by
  rw [List.map_map]
  exact (List.map_congr_left fun n _ => UInt32.ofNat_toNat).trans (List.map_id _)

theorem vlessOf_fields (m : VlessAccount) : vlessOf (vlessFields m) = some m := by
  have hid : getString 1 (vlessFields m) = some m.id := getString_eq (by simp [vlessFields])
  have hflow : getString 2 (vlessFields m) = some m.flow := getString_eq (by simp [vlessFields])
  have hencryption : getString 3 (vlessFields m) = some m.encryption :=
    getString_eq (by simp [vlessFields])
  have hxorMode : getU32 4 (vlessFields m) = some m.xorMode := getU32_eq (by simp [vlessFields])
  have hseconds : getU32 5 (vlessFields m) = some m.seconds := getU32_eq (by simp [vlessFields])
  have hpadding : getString 6 (vlessFields m) = some m.padding :=
    getString_eq (by simp [vlessFields])
  have hreverse : getSub reverseOf 7 (vlessFields m) = some m.reverse :=
    getSub_eq (fun a _ => reverseOf_fields a) (by simp [vlessFields])
  have htestpre : getU32 8 (vlessFields m) = some m.testpre := getU32_eq (by simp [vlessFields])
  have htestseed : getBytes 9 (vlessFields m) =
      some (writePacked (m.testseed.map UInt32.toNat)) :=
    getBytes_eq (by simp [vlessFields])
  rw [vlessOf, hid, hflow, hencryption, hxorMode, hseconds, hpadding, hreverse, htestpre,
    htestseed]
  simp only [Option.bind_eq_bind, Option.bind_some, readPacked_writePacked, packed_ofNat_toNat]
  rfl

theorem vmessOf_fields {m : VmessAccount} (h : ∀ c ∈ m.securitySettings, FitsI32 c.type) :
    vmessOf (vmessFields m) = some m := by
  have hid : getString 1 (vmessFields m) = some m.id := getString_eq (by simp [vmessFields])
  have hsecurity : getSub securityOf 3 (vmessFields m) = some m.securitySettings :=
    getSub_eq (fun c hc => securityOf_fields (h c hc)) (by simp [vmessFields])
  have htests : getString 4 (vmessFields m) = some m.testsEnabled :=
    getString_eq (by simp [vmessFields])
  rw [vmessOf, hid, hsecurity, htests]
  rfl

theorem shadowsocksOf_fields {m : ShadowsocksAccount} (h : FitsI32 m.cipherType) :
    shadowsocksOf (shadowsocksFields m) = some m := by
  have hpassword : getString 1 (shadowsocksFields m) = some m.password :=
    getString_eq (by simp [shadowsocksFields])
  have hcipher : getEnum 2 (shadowsocksFields m) = some m.cipherType :=
    getEnum_eq h (by simp [shadowsocksFields])
  have hcheck : getBool 3 (shadowsocksFields m) = some m.ivCheck :=
    getBool_eq (by simp [shadowsocksFields])
  rw [shadowsocksOf, hpassword, hcipher, hcheck]
  rfl

/-- The fields of a message stand for the message. -/
theorem messageOf_fieldsOf (k : MessageKind) (m : k.Payload) (h : k.Representable m) :
    messageOf k (fieldsOf k m) = some m := by
  cases k with
  | addUserOperation =>
    have huser : getSub userOf 1 (fieldsOf .addUserOperation m) =
        some (AddUserOperation.user m) :=
      getSub_eq (fun a _ => userOf_fields a) rfl
    rw [messageOf, huser]
    rfl
  | removeUserOperation =>
    have hemail : getString 1 (fieldsOf .removeUserOperation m) =
        some (RemoveUserOperation.email m) :=
      getString_eq rfl
    rw [messageOf, hemail]
    rfl
  | vlessAccount => exact vlessOf_fields m
  | vmessAccount => exact vmessOf_fields h
  | trojanAccount =>
    have hpassword : getString 1 (fieldsOf .trojanAccount m) = some (TrojanAccount.password m) :=
      getString_eq rfl
    rw [messageOf, hpassword]
    rfl
  | shadowsocksAccount => exact shadowsocksOf_fields h

end Reference

end XrayBridge
