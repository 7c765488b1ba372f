import Mathlib.Data.PNat.Defs
import XrayBridge.Http
import XrayBridge.Proto
import XrayBridge.Lib.Base64
import XrayBridge.Lib.PathTemplate
import XrayBridge.Lib.Recency
import XrayBridge.Lib.UriAuthority

/-! The code that the program calls and that is not part of its repository, as a class of
parameters, and the documented behaviour of that code that results rely on, as structures of laws.
No definition of the model uses a law. -/

namespace XrayBridge

open PathTemplate (Template Captures)

/-- The crates and the tables that the program is linked with. -/
class Platform where
  /-- How the standard library puts a character that is not ASCII into lower case, between the
  characters before and after it: the mapping of a final sigma depends on them. -/
  lowerNonAscii : List Char → Char → List Char → List Char
  upperNonAscii : Char → List Char
  /-- `lru::LruCache`, with the methods that the program calls. -/
  LruCache : Type → Type → Type
  lruNew {K V : Type} : ℕ+ → LruCache K V
  lruGet {K V : Type} [DecidableEq K] : LruCache K V → K → Option V × LruCache K V
  lruPut {K V : Type} [DecidableEq K] : LruCache K V → K → V → LruCache K V
  lruPeek {K V : Type} : LruCache K V → Option (K × V)
  lruLen {K V : Type} : LruCache K V → Nat
  lruCap {K V : Type} : LruCache K V → Nat
  /-- `LruCache::iter`, the entries from the most to the least recently used; only statements call
  it. -/
  lruIter {K V : Type} : LruCache K V → List (K × V)
  /-- `HeaderValue::to_str`. -/
  toStr : Bytes → Option String
  /-- `http::Uri`, its `FromStr`, its host, and its port, which is the scheme's where the text has
  none. -/
  Uri : Type
  parseUri : String → Except String Uri
  uriHost : Uri → String
  uriPort : Uri → Nat
  /-- Whether `Endpoint::tls_config` takes the program's TLS configuration for a URI. -/
  tlsConfig : Uri → Except String Unit
  /-- `MetadataValue::try_from` on a `str`, with the bytes of the value. -/
  metadataTryFrom : String → Option Bytes
  /-- How the router of `axum` finds the template of a path. -/
  matchRoute : List Template → String → Option (Template × Captures)
  /-- The content type check, the body and the syntax of `axum::Json`. -/
  jsonBody : Headers → Bytes → Except AxumRejection Json
  /-- `form_urlencoded::parse`. -/
  formPairs : String → List (String × String)
  /-- What `axum` answers for a rejection of its own. -/
  rejectionResponse : HttpRequest → AxumRejection → Response
  /-- The standard engine of the `base64` crate. -/
  b64Decode : String → Except String Bytes
  b64Encode : Bytes → String
  /-- `prost::Message::encode_to_vec` and `decode`. -/
  encodeToVec (k : MessageKind) : k.Payload → Bytes
  decode (k : MessageKind) : Bytes → Option k.Payload

open Platform

/-! ### Case mappings -/

section Case

variable [Platform]

/-- The characters of a string in lower case, after the characters `before`. -/
def lowerFrom (before : List Char) : List Char → List Char
  | [] => []
  | c :: rest =>
    (if c.toNat < 128 then [c.toLower] else lowerNonAscii before c rest) ++
      lowerFrom (before ++ [c]) rest

/-- `str::to_lowercase`. -/
def toLowercase (s : String) : String := String.ofList (lowerFrom [] s.toList)

/-- `str::to_uppercase`. -/
def toUppercase (s : String) : String :=
  String.ofList (s.toList.flatMap fun c =>
    if c.toNat < 128 then [c.toUpper] else upperNonAscii c)

end Case

/-! ### Laws -/

/-- What `lru` documents: `get` finds the value of a key and makes its entry the most recent one,
`put` stores a value as the most recent entry and drops the last entry of a full cache for a new
key, and `peek_lru` is the last entry. -/
structure LruLaws [Platform] : Prop where
  iter_new {K V : Type} (n : ℕ+) : lruIter (lruNew n : LruCache K V) = []
  cap_new {K V : Type} (n : ℕ+) : lruCap (lruNew n : LruCache K V) = n
  get_value {K V : Type} [DecidableEq K] (c : LruCache K V) (k : K) :
    (lruGet c k).1 = Recency.lookup k (lruIter c)
  iter_get {K V : Type} [DecidableEq K] (c : LruCache K V) (k : K) :
    lruIter (lruGet c k).2 = Recency.promote k (lruIter c)
  cap_get {K V : Type} [DecidableEq K] (c : LruCache K V) (k : K) :
    lruCap (lruGet c k).2 = lruCap c
  iter_put {K V : Type} [DecidableEq K] (c : LruCache K V) (k : K) (v : V) :
    lruIter (lruPut c k v) = Recency.insert (lruCap c) k v (lruIter c)
  cap_put {K V : Type} [DecidableEq K] (c : LruCache K V) (k : K) (v : V) :
    lruCap (lruPut c k v) = lruCap c
  peek {K V : Type} (c : LruCache K V) : lruPeek c = (lruIter c).getLast?
  len {K V : Type} (c : LruCache K V) : lruLen c = (lruIter c).length

/-- `HeaderValue::to_str` reads exactly the values of visible bytes, a character for each byte. -/
structure HeaderLaws [Platform] : Prop where
  toStr_iff (v : Bytes) (s : String) :
    toStr v = some s ↔ v.all visibleByte = true ∧ s.toList = v.map byteChar

/-- `MetadataValue::try_from` takes the texts of visible characters, as they are. -/
structure MetadataLaws [Platform] : Prop where
  tryFrom (s : String) (h : s.toList.all visibleChar = true) : metadataTryFrom s = some (utf8 s)

/-- How `http` reads the authority of an `https` URI that it accepts. -/
structure UriLaws [Platform] : Prop where
  host (rest : String) (u : Uri) (h : parseUri ("https://" ++ rest) = .ok u) :
    (uriHost u).toList = UriAuthority.hostOf rest.toList
  /-- The digits after the last colon are the port. -/
  port (rest : String) (u : Uri) (before : List Char) (p : UInt16)
    (h : parseUri ("https://" ++ rest) = .ok u)
    (hport : UriAuthority.afterUserInfo (UriAuthority.authority rest.toList) =
      before ++ ':' :: (showU16 p).toList) : uriPort u = p.toNat
  /-- Without a port the scheme's is used. -/
  noPort (rest : String) (u : Uri) (h : parseUri ("https://" ++ rest) = .ok u)
    (hport : ':' ∉ UriAuthority.afterUserInfo (UriAuthority.authority rest.toList)) :
    uriPort u = 443

/-- The router finds a template that matches the path whenever the table has one, and no other
template of the table that matches is preferred to it. -/
structure RouteLaws [Platform] : Prop where
  sound (table : List Template) (path : String) (t : Template) (caps : Captures)
    (h : matchRoute table path = some (t, caps)) :
    t ∈ table ∧ PathTemplate.capture t (PathTemplate.segments path) = some caps
  complete (table : List Template) (path : String) (t : Template) (ht : t ∈ table)
    (h : (PathTemplate.capture t (PathTemplate.segments path)).isSome) :
    (matchRoute table path).isSome
  prefers (table : List Template) (path : String) (t t' : Template) (caps : Captures)
    (h : matchRoute table path = some (t, caps)) (ht : t' ∈ table)
    (hmatch : (PathTemplate.capture t' (PathTemplate.segments path)).isSome) :
    ¬PathTemplate.Preferred t' t

/-- `axum` answers its own rejections with a status of the 400s and a plain text. -/
structure RejectionLaws [Platform] : Prop where
  status (request : HttpRequest) (r : AxumRejection) :
    400 ≤ (rejectionResponse request r).status
  text (request : HttpRequest) (r : AxumRejection) :
    ∃ message, (rejectionResponse request r).body = .text message

/-- The standard engine of `base64` writes the standard alphabet with padding, and reads exactly
what it writes. -/
structure Base64Laws [Platform] : Prop where
  encode (bytes : Bytes) : b64Encode bytes = String.ofList (Base64.encode bytes)
  decode_iff (text : String) (bytes : Bytes) : b64Decode text = .ok bytes ↔ b64Encode bytes = text

/-- Decoding inverts encoding. -/
structure ProstLaws [Platform] : Prop where
  decode_encode (k : MessageKind) (m : k.Payload) (h : k.Representable m) :
    decode k (encodeToVec k m) = some m

end XrayBridge
