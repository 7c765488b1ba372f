import Mathlib.Logic.Relation
import XrayBridge.Routes.Router

/-! The program as it runs: requests arrive, and the tasks that serve them take turns.  The
extractors of a request run at its arrival, since `NodeContext` is the only one that touches what
requests share, and does so under the mutex of the cache. -/

namespace XrayBridge

open Platform

variable [Platform]

/-- A request, and the cache that it found. -/
structure Arrival where
  request : HttpRequest
  cache : XrayClientCache

/-- A state of the program.  Request number `i` is `arrivals[i]`, and `tasks[i]` is what remains to
be done for it.  `sent` holds the gRPC requests so far, the latest first, each with the number of
the request that it was sent for. -/
structure Server where
  cache : XrayClientCache
  arrivals : List Arrival
  tasks : List (Grpc Response)
  sent : List (Nat × GrpcRequest)

def Server.start (state : AppState) : Server := ⟨state.cache, [], [], []⟩

/-- The gRPC requests that an effect is. -/
def Effect.calls : Effect → List GrpcRequest
  | .rpc request => [request]
  | .trace _ => []

/-- A step: a request arrives, or a task has its next effect and goes on with what comes back. -/
inductive Server.Step (settings : Settings) : Server → Server → Prop where
  | arrive (s : Server) (request : HttpRequest) :
      Step settings s { s with
        cache := (handle settings request s.cache).2
        arrivals := s.arrivals ++ [⟨request, s.cache⟩]
        tasks := s.tasks ++ [(handle settings request s.cache).1] }
  | act (s : Server) (i : Nat) (e : Effect) (next : e.Answer → Grpc Response) (answer : e.Answer)
      (h : s.tasks[i]? = some (.ask e next)) :
      Step settings s { s with
        tasks := s.tasks.set i (next answer)
        sent := e.calls.map (i, ·) ++ s.sent }

/-- The states that the program reaches from a start with the settings and a capacity. -/
def Server.Run (settings : Settings) (n : ℕ+) (s : Server) : Prop :=
  Relation.ReflTransGen (Server.Step settings) (.start ⟨settings, .new n⟩) s

end XrayBridge
