import XrayBridge.Error

/-! The accounts of the four protocols, as typed messages. -/

namespace XrayBridge

open Platform

variable [Platform]

def vlessAccountType : String := "xray.proxy.vless.Account"
def vmessAccountType : String := "xray.proxy.vmess.Account"
def trojanAccountType : String := "xray.proxy.trojan.Account"
def ssAccountType : String := "xray.proxy.shadowsocks.Account"
def addUserOpType : String := "xray.app.proxyman.command.AddUserOperation"
def removeUserOpType : String := "xray.app.proxyman.command.RemoveUserOperation"

def vmessSecurityToInt (name : String) : Int :=
  let upper := toUppercase name
  if upper = "AUTO" then SecurityType.auto.toInt
  else if upper = "AES128_GCM" then SecurityType.aes128Gcm.toInt
  else if upper = "CHACHA20_POLY1305" then SecurityType.chacha20Poly1305.toInt
  else if upper = "NONE" then SecurityType.none.toInt
  else if upper = "ZERO" then SecurityType.zero.toInt
  else SecurityType.auto.toInt

def ssCipherToInt (name : String) : Int :=
  let upper := toUppercase name
  if upper = "AES_128_GCM" then CipherType.aes128Gcm.toInt
  else if upper = "AES_256_GCM" then CipherType.aes256Gcm.toInt
  else if upper = "CHACHA20_POLY1305" then CipherType.chacha20Poly1305.toInt
  else if upper = "XCHACHA20_POLY1305" then CipherType.xchacha20Poly1305.toInt
  else if upper = "NONE" then CipherType.none.toInt
  else CipherType.chacha20Poly1305.toInt

/-- `build_account_typed_message`. -/
def buildAccountTypedMessage (proto uuid flow vmessSecurity password ssCipher : String) :
    Except AppError TypedMessage :=
  if proto = "vless" then
    let account : VlessAccount := { id := uuid, flow, encryption := "none" }
    .ok { type := vlessAccountType, value := encodeToVec .vlessAccount account }
  else if proto = "vmess" then
    let secInt := vmessSecurityToInt vmessSecurity
    let account : VmessAccount := { id := uuid, securitySettings := some { type := secInt } }
    .ok { type := vmessAccountType, value := encodeToVec .vmessAccount account }
  else if proto = "trojan" then
    if password.isEmpty then
      .error (.unprocessableEntity "Trojan protocol requires password")
    else
      let account : TrojanAccount := { password }
      .ok { type := trojanAccountType, value := encodeToVec .trojanAccount account }
  else if proto = "shadowsocks" then
    if password.isEmpty then
      .error (.unprocessableEntity "Shadowsocks protocol requires password")
    else
      let cipherInt := ssCipherToInt ssCipher
      let account : ShadowsocksAccount := { password, cipherType := cipherInt }
      .ok { type := ssAccountType, value := encodeToVec .shadowsocksAccount account }
  else
    .error (.unprocessableEntity
      ("Unknown protocol '" ++ proto ++ "'. Supported: vless, vmess, trojan, shadowsocks"))

end XrayBridge
