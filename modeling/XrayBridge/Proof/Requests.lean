import XrayBridge.Proof.ClientCache
import XrayBridge.Routes.Router

/-! What the extractors of a handler come to, what a request does to the cache, and runs of
requests. -/

namespace XrayBridge

open Platform

/-! ### Rejections of `axum` -/

theorem path_error {parts : Parts} {abort : Abort} (h : path parts = .error abort) :
    ∃ r, abort = .axum r := by
  unfold path at h
  split at h
  · exact ⟨_, (Except.error.inj h).symm⟩
  · cases h
  · exact ⟨_, (Except.error.inj h).symm⟩

variable [Platform]

theorem query_error {T : Type} {deserialize : List (String × String) → Option T} {parts : Parts}
    {abort : Abort} (h : query deserialize parts = .error abort) : ∃ r, abort = .axum r := by
  unfold query at h
  split at h
  · cases h
  · exact ⟨_, (Except.error.inj h).symm⟩

theorem json_error {T : Type} {names : List String} {deserialize : Json → Option T} {parts : Parts}
    {abort : Abort} (h : json names deserialize parts = .error abort) : ∃ r, abort = .axum r := by
  unfold json at h
  split at h
  · exact ⟨_, (Except.error.inj h).symm⟩
  · split at h
    · exact ⟨_, (Except.error.inj h).symm⟩
    · split at h
      · exact ⟨_, (Except.error.inj h).symm⟩
      · cases h

theorem path_query_error {T : Type} {deserialize : List (String × String) → Option T}
    {parts : Parts} {abort : Abort}
    (h : (do return (← path parts, ← query deserialize parts) : Except Abort (String × T)) =
      .error abort) : ∃ r, abort = .axum r := by
  rcases bind_eq_error_iff.mp h with hpath | ⟨name, -, h⟩
  · exact path_error hpath
  rcases bind_eq_error_iff.mp h with hquery | ⟨q, -, h⟩
  · exact query_error hquery
  · cases h

theorem params_error (e : Endpoint) {parts : Parts} {abort : Abort}
    (h : e.handler.params parts = .error abort) : ∃ r, abort = .axum r := by
  cases e with
  | getUsersStats | queryStats => exact query_error h
  | getStat | removeUser => exact path_query_error h
  | removeInbound | removeOutbound | removeRule | getBalancer | overrideBalancer =>
    exact path_error h
  | _ => cases h

theorem body_error (e : Endpoint) {parts : Parts} {abort : Abort}
    (h : e.handler.body parts = .error abort) : ∃ r, abort = .axum r := by
  cases e with
  | addUser | addInbound | addOutbound | testRoute | overrideBalancer => exact json_error h
  | _ => cases h

/-! ### Extractors -/

/-- What the extractors of a handler come to: the first rejection, in the order of the arguments, or
the run of the handler. -/
inductive Extraction (h : Handler) (settings : Settings) (parts : Parts) (cache : XrayClientCache) :
    Except Abort (Call Response) → Prop where
  | node {e : AppError} (node : (nodeContext parts.request.headers cache).1 = .error e) :
      Extraction h settings parts cache (.error (.app e))
  | params {client : XrayClient} {abort : Abort}
      (node : (nodeContext parts.request.headers cache).1 = .ok client)
      (params : h.params parts = .error abort) : Extraction h settings parts cache (.error abort)
  | auth {client : XrayClient} {ps : h.Params} {abort : Abort}
      (node : (nodeContext parts.request.headers cache).1 = .ok client)
      (params : h.params parts = .ok ps)
      (auth : bearerAuth settings parts.request.headers = .error abort) :
      Extraction h settings parts cache (.error abort)
  | body {client : XrayClient} {ps : h.Params} {abort : Abort}
      (node : (nodeContext parts.request.headers cache).1 = .ok client)
      (params : h.params parts = .ok ps)
      (auth : bearerAuth settings parts.request.headers = .ok ())
      (body : h.body parts = .error abort) : Extraction h settings parts cache (.error abort)
  | run {client : XrayClient} {ps : h.Params} {b : h.Body}
      (node : (nodeContext parts.request.headers cache).1 = .ok client)
      (params : h.params parts = .ok ps)
      (auth : bearerAuth settings parts.request.headers = .ok ())
      (body : h.body parts = .ok b) :
      Extraction h settings parts cache (.ok (h.run client ps b))

theorem extract_spec (h : Handler) (settings : Settings) (parts : Parts)
    (cache : XrayClientCache) :
    Extraction h settings parts cache (h.extract settings parts cache).1 := by
  unfold Handler.extract
  rcases hnode : nodeContext parts.request.headers cache with ⟨result, cache'⟩
  have hnode := congrArg Prod.fst hnode
  cases result with
  | error e => exact .node hnode
  | ok client =>
    cases hparams : h.params parts with
    | error abort => exact .params hnode hparams
    | ok ps =>
      cases hauth : bearerAuth settings parts.request.headers with
      | error abort => exact .auth hnode hparams hauth
      | ok _ =>
        cases hbody : h.body parts with
        | error abort => exact .body hnode hparams hauth hbody
        | ok b => exact .run hnode hparams hauth hbody

theorem extract_of_error {h : Handler} {settings : Settings} {parts : Parts}
    {cache : XrayClientCache} {e : AppError}
    (hnode : (nodeContext parts.request.headers cache).1 = .error e) :
    (h.extract settings parts cache).1 = .error (.app e) := by
  unfold Handler.extract
  rcases hrun : nodeContext parts.request.headers cache with ⟨result, after⟩
  rw [hrun] at hnode
  obtain rfl : result = .error e := hnode
  rfl

theorem extract_of_ok {h : Handler} {settings : Settings} {parts : Parts}
    {cache : XrayClientCache} {client : XrayClient}
    (hnode : (nodeContext parts.request.headers cache).1 = .ok client) :
    (h.extract settings parts cache).1 = (do
      let params ← h.params parts
      bearerAuth settings parts.request.headers
      let body ← h.body parts
      return h.run client params body) := by
  unfold Handler.extract
  rcases hrun : nodeContext parts.request.headers cache with ⟨result, after⟩
  rw [hrun] at hnode
  obtain rfl : result = .ok client := hnode
  rfl

/-! ### Requests -/

theorem serve_fst (h : Handler) (settings : Settings) (parts : Parts) (cache : XrayClientCache) :
    (h.serve settings parts cache).1 =
      match (h.extract settings parts cache).1 with
      | .ok call => toResponse call
      | .error abort => pure (abort.intoResponse parts.request) := by
  unfold Handler.serve
  rcases h.extract settings parts cache with ⟨result, cache'⟩
  cases result <;> rfl

theorem serve_snd (h : Handler) (settings : Settings) (parts : Parts) (cache : XrayClientCache) :
    (h.serve settings parts cache).2 = (nodeContext parts.request.headers cache).2 := by
  unfold Handler.serve Handler.extract
  rcases nodeContext parts.request.headers cache with ⟨result, cache'⟩
  cases result with
  | error e => rfl
  | ok client =>
    dsimp only
    split
    · rename_i heq
      exact (congrArg Prod.snd heq).symm
    · rename_i heq
      exact (congrArg Prod.snd heq).symm

theorem handle_fst {request : HttpRequest} {e : Endpoint} {captures : PathTemplate.Captures}
    (hdispatch : dispatch request.method request.path = .ok (.endpoint e, captures))
    (hmethod : request.method ≠ .head) (settings : Settings) (cache : XrayClientCache) :
    (handle settings request cache).1 =
      (e.handler.serve settings ⟨request, captures⟩ cache).1 := by
  unfold handle
  rw [hdispatch]
  exact if_neg hmethod

def hasEndpoint (request : HttpRequest) : Bool :=
  match dispatch request.method request.path with
  | .ok (.endpoint _, _) => true
  | _ => false

/-- A request changes the cache through `NodeContext` only. -/
theorem handle_snd (settings : Settings) (request : HttpRequest) (cache : XrayClientCache) :
    (handle settings request cache).2 =
      if hasEndpoint request then (nodeContext request.headers cache).2 else cache := by
  unfold handle hasEndpoint
  match dispatch request.method request.path with
  | .error response => rfl
  | .ok (.healthz, captures) => rfl
  | .ok (.endpoint e, captures) => exact serve_snd e.handler settings ⟨request, captures⟩ cache

theorem Reachable.handle {n : ℕ+} {cache : XrayClientCache} (h : Reachable n cache)
    (settings : Settings) (request : HttpRequest) :
    Reachable n (handle settings request cache).2 := by
  rw [handle_snd]
  split
  · exact .request _ h
  · exact h

def serveAll (settings : Settings) (requests : List HttpRequest) (cache : XrayClientCache) :
    XrayClientCache :=
  requests.foldl (fun cache request => (handle settings request cache).2) cache

theorem serveAll_of_hasEndpoint {settings : Settings} {requests : List HttpRequest}
    {cache : XrayClientCache} (h : ∀ request ∈ requests, hasEndpoint request = true) :
    serveAll settings requests cache =
      requests.foldl (fun cache request => (nodeContext request.headers cache).2) cache := by
  induction requests generalizing cache with
  | nil => rfl
  | cons request requests ih =>
    have hstep : (XrayBridge.handle settings request cache).2 =
        (nodeContext request.headers cache).2 := by
      rw [handle_snd, if_pos (h request List.mem_cons_self)]
    rw [List.foldl_cons, ← hstep]
    exact ih fun request hmem => h request (List.mem_cons_of_mem _ hmem)

theorem Reachable.serveAll {n : ℕ+} {cache : XrayClientCache} (h : Reachable n cache)
    (settings : Settings) (requests : List HttpRequest) :
    Reachable n (serveAll settings requests cache) := by
  induction requests generalizing cache with
  | nil => exact h
  | cons request requests ih => exact ih (h.handle settings request)

end XrayBridge
