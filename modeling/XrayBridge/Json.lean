import XrayBridge.Text

/-! JSON documents and the parts of `serde_json` and of `serde`'s derived deserializers that are
fixed by the program's own declarations. -/

namespace XrayBridge

/-- A JSON document.  The fields of an object stand in the order of the text, with every duplicate
that the text has; `float` keeps the text of a number that is not an integer of 64 bits. -/
inductive Json where
  | null
  | bool (value : Bool)
  | int (value : Int)
  | float (text : String)
  | str (value : String)
  | arr (elems : List Json)
  | obj (fields : List (String × Json))

namespace Json

/-- `Value::get` with a string index: a field of an object, the last one of that name. -/
def get (field : String) : Json → Option Json
  | .obj fields => (fields.reverse.find? (·.1 = field)).map (·.2)
  | _ => none

/-- `Value::as_str`. -/
def asStr : Json → Option String
  | .str value => some value
  | _ => none

/-- A `u32` of a document. -/
def asU32 : Json → Option UInt32
  | .int value =>
    if 0 ≤ value ∧ value < 4294967296 then some (UInt32.ofNat value.toNat) else none
  | _ => none

end Json

/-! ### Derived deserializers

The visitor that `#[derive(Deserialize)]` writes for a structure takes an object, whose unknown
fields it skips and whose duplicates it refuses, or an array that starts with the fields in the
order of their declaration. -/

/-- The values that a document gives to the fields `names`, where it has the shape of a structure
with these fields. -/
def structFields (names : List String) : Json → Option (List (Option Json))
  | .obj fields =>
    if names.all fun name => (fields.filter (·.1 = name)).length ≤ 1 then
      some (names.map fun name => (fields.find? (·.1 = name)).map (·.2))
    else none
  | .arr elems =>
    some ((elems.take names.length).map some ++ List.replicate (names.length - elems.length) none)
  | _ => none

/-- An array with more elements than a structure has fields.  `serde_json` finds that it does not
end there after the visitor has read the fields. -/
def Json.overfull (names : List String) : Json → Bool
  | .arr elems => names.length < elems.length
  | _ => false

/-- The strings that the pairs of a query give to the fields `names`. -/
def queryFields (names : List String) (pairs : List (String × String)) :
    Option (List (Option String)) :=
  if names.all fun name => (pairs.filter (·.1 = name)).length ≤ 1 then
    some (names.map fun name => (pairs.find? (·.1 = name)).map (·.2))
  else none

/-- A field without a default. -/
def required {α β : Type} (read : α → Option β) (value : Option α) : Option β := value.bind read

/-- A field with `#[serde(default)]`: the default stands in for a missing field only. -/
def withDefault {α β : Type} (read : α → Option β) (default : β) : Option α → Option β
  | none => some default
  | some value => read value

end XrayBridge
