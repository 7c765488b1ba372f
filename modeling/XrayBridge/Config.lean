import XrayBridge.Text

/-! The settings of the program. -/

namespace XrayBridge

structure Settings where
  bridgeToken : String
  port : UInt16
  deriving DecidableEq

/-- What `std::env::var` reports of a variable. -/
inductive EnvVar where
  | present (value : String)
  | notPresent
  | notUnicode
  deriving DecidableEq

def EnvVar.value : EnvVar → Option String
  | .present value => some value
  | .notPresent | .notUnicode => none

/-- `Settings::from_env`, with the text of the error that ends the program. -/
def Settings.fromEnv (env : String → EnvVar) : Except String Settings :=
  match (env "BRIDGE_TOKEN").value with
  | none => .error "BRIDGE_TOKEN environment variable is required"
  | some bridgeToken =>
    if bridgeToken.isEmpty then .error "BRIDGE_TOKEN must not be empty"
    else
      let port := ((env "PORT").value.bind parseU16).getD 8080
      .ok { bridgeToken, port }

end XrayBridge
