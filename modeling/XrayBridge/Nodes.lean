import XrayBridge.Config
import XrayBridge.Error

/-! The cache of clients, and the extractor that reads the `X-Node-*` headers of a request and
takes a client from the cache. -/

namespace XrayBridge

open Platform

variable [Platform]

/-- A `tonic` channel: the URI that it was built from, and which of the channels that the program
has built it is. -/
structure Channel where
  uri : Uri
  serial : Nat

structure XrayClient where
  channel : Channel
  token : String
  name : Option String

abbrev Key := String × UInt16 × String

/-- The events that the program emits. -/
inductive TraceEvent where
  | evictingOldest (domain : String) (port : UInt16)
  | createdClient (domain : String) (port : UInt16) (cached max : Nat)
  | nodeContextResolved (domain : String) (port : UInt16) (name : Option String)
  | grpcCall (method : String) (target : Option String)
  deriving DecidableEq

/-- The cache, with two records that the program does not read: how many channels have been built
and which events have been emitted. -/
structure XrayClientCache where
  inner : LruCache Key XrayClient
  connects : Nat
  events : List TraceEvent

namespace XrayClientCache

/-- An empty cache.  The source panics for a capacity of 0. -/
def new (maxEntries : ℕ+) : XrayClientCache := ⟨lruNew maxEntries, 0, []⟩

def emit (cache : XrayClientCache) (event : TraceEvent) : XrayClientCache :=
  { cache with events := cache.events ++ [event] }

/-- The event of an eviction to come, on a full cache. -/
def logEviction (cache : XrayClientCache) : XrayClientCache :=
  if lruCap cache.inner ≤ lruLen cache.inner then
    match lruPeek cache.inner with
    | some ((domain, port, _), _) => cache.emit (.evictingOldest domain port)
    | none => cache
  else cache

def endpointText (domain : String) (port : UInt16) : String :=
  "https://" ++ domain ++ ":" ++ showU16 port

/-- The URI of an endpoint that takes the program's TLS configuration. -/
def endpoint (domain : String) (port : UInt16) : Except AppError Uri :=
  match parseUri (endpointText domain port) with
  | .error e => .error (.internal ("invalid URI: " ++ e))
  | .ok uri =>
    match tlsConfig uri with
    | .error e => .error (.internal ("TLS config error: " ++ e))
    | .ok () => .ok uri

/-- `get_or_create`, one critical section under the mutex of the cache. -/
def getOrCreate (cache : XrayClientCache) (domain : String) (port : UInt16) (token : String)
    (name : Option String) : Except AppError XrayClient × XrayClientCache :=
  let key : Key := (domain, port, token)
  match lruGet cache.inner key with
  | (some client, inner) => (.ok client, { cache with inner })
  | (none, inner) =>
    let cache := logEviction { cache with inner }
    match endpoint domain port with
    | .error e => (.error e, cache)
    | .ok uri =>
      let client : XrayClient := { channel := ⟨uri, cache.connects⟩, token, name }
      let cache := cache.emit
        (.createdClient domain port (lruLen cache.inner + 1) (lruCap cache.inner))
      (.ok client,
        { cache with inner := lruPut cache.inner key client, connects := cache.connects + 1 })

end XrayClientCache

def defaultMaxEntries : ℕ+ := 256

structure AppState where
  settings : Settings
  cache : XrayClientCache

def AppState.new (settings : Settings) : AppState :=
  { settings, cache := .new defaultMaxEntries }

/-- What the `X-Node-*` headers of a request say. -/
structure NodeParams where
  domain : String
  port : UInt16
  token : String
  name : Option String
  deriving DecidableEq

/-- A header that must be there, readable and not empty. -/
def requiredHeader (headers : Headers) (header missing : String) : Except AppError String :=
  match ((headers.get header).bind toStr).filter (!·.isEmpty) with
  | some value => .ok value
  | none => .error (.invalidArgument missing)

/-- The part of `NodeContext::from_request_parts` that reads the headers. -/
def nodeParams (headers : Headers) : Except AppError NodeParams := do
  let domain ← requiredHeader headers "x-node-domain" "缺少 X-Node-Domain header"
  let token ← requiredHeader headers "x-node-token" "缺少 X-Node-Token header"
  let port := (((headers.get "x-node-port").bind toStr).bind parseU16).getD 443
  let name := (headers.get "x-node-name").bind toStr
  return { domain, port, token, name }

/-- `NodeContext::from_request_parts`. -/
def nodeContext (headers : Headers) (cache : XrayClientCache) :
    Except AppError XrayClient × XrayClientCache :=
  match nodeParams headers with
  | .error e => (.error e, cache)
  | .ok { domain, port, token, name } =>
    let cache := cache.emit (.nodeContextResolved domain port name)
    cache.getOrCreate domain port token name

end XrayBridge
