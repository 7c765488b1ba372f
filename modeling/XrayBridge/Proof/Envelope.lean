import XrayBridge.Proof.Authentication

/-! The envelope of responses: which requests are answered with a result or with the rendering of
an error of the program. -/

namespace XrayBridge

open Platform Dialogue

/-! ### Results -/

def Succeeds (r : Response) : Prop := r.status = 200 ∨ r.status = 201

theorem succeeds_okJson (value : Json) : Succeeds (okJson value) := Or.inl rfl

theorem succeeds_createdJson (value : Json) : Succeeds (createdJson value) := Or.inr rfl

/-! ### Missing fields -/

theorem field_eq_none {α : Type} {fields : List (String × α)} {name : String}
    (h : name ∉ fields.map Prod.fst) :
    (fields.find? (·.1 = name)).map (·.2) = none := by
  rw [Option.map_eq_none_iff, List.find?_eq_none]
  intro field hmem hname
  have hname : field.1 = name := by simpa using hname
  exact h (hname ▸ List.mem_map_of_mem hmem)

theorem structFields_obj (names : List String) (fields : List (String × Json)) :
    structFields names (.obj fields) = none ∨ structFields names (.obj fields) =
      some (names.map fun name => (fields.find? (·.1 = name)).map (·.2)) := by
  rw [structFields]
  split
  · exact Or.inr rfl
  · exact Or.inl rfl

theorem queryFields_cases (names : List String) (pairs : List (String × String)) :
    queryFields names pairs = none ∨ queryFields names pairs =
      some (names.map fun name => (pairs.find? (·.1 = name)).map (·.2)) := by
  unfold queryFields
  split
  · exact Or.inr rfl
  · exact Or.inl rfl

theorem addUserBody_eq_none {fields : List (String × Json)}
    (h : "tag" ∉ fields.map Prod.fst ∨ "email" ∉ fields.map Prod.fst) :
    AddUserBody.deserialize (.obj fields) = none := by
  unfold AddUserBody.deserialize
  rcases structFields_obj AddUserBody.fields fields with hfields | hfields
  · rw [hfields]
  · rw [hfields]
    simp only [AddUserBody.fields, List.map_cons, List.map_nil]
    rcases h with h | h
    · rw [field_eq_none h]
      rfl
    · rw [field_eq_none h]
      cases required Json.asStr _ <;> rfl

theorem inboundConfigBody_eq_none {fields : List (String × Json)}
    (h : "config" ∉ fields.map Prod.fst) : InboundConfigBody.deserialize (.obj fields) = none := by
  unfold InboundConfigBody.deserialize
  rcases structFields_obj InboundConfigBody.fields fields with hfields | hfields
  · rw [hfields]
  · rw [hfields, InboundConfigBody.fields, List.map_singleton, field_eq_none h]
    rfl

theorem overrideBalancerBody_eq_none {fields : List (String × Json)}
    (h : "target" ∉ fields.map Prod.fst) :
    OverrideBalancerBody.deserialize (.obj fields) = none := by
  unfold OverrideBalancerBody.deserialize
  rcases structFields_obj OverrideBalancerBody.fields fields with hfields | hfields
  · rw [hfields]
  · rw [hfields, OverrideBalancerBody.fields, List.map_singleton, field_eq_none h]
    rfl

theorem removeUserQuery_eq_none {pairs : List (String × String)}
    (h : "tag" ∉ pairs.map Prod.fst) : RemoveUserQuery.deserialize pairs = none := by
  unfold RemoveUserQuery.deserialize
  rcases queryFields_cases ["tag", "ignore_missing"] pairs with hfields | hfields
  · rw [hfields]
  · rw [hfields, List.map_cons, field_eq_none h]
    rfl

section

variable [Platform]

/-- Whatever a node answers, a result of the call satisfies `P`. -/
def Yields {α : Type} (P : α → Prop) (call : Call α) : Prop :=
  ∀ a, call.run.Returns (.ok a) → P a

theorem yields_pure {α : Type} {P : α → Prop} {a : α} (h : P a) : Yields P (pure a) := by
  intro b hb
  cases returns_done.mp hb
  exact h

theorem yields_throw {α : Type} {P : α → Prop} (e : AppError) : Yields P (throw e : Call α) := by
  intro b hb
  cases returns_done.mp hb

theorem yields_bind {α β : Type} {P : β → Prop} {call : Call α} {next : α → Call β}
    (h : ∀ a, Yields P (next a)) : Yields P (call >>= next) := by
  intro b hb
  obtain ⟨result, -, hresult⟩ := returns_bind.mp hb
  cases result with
  | ok a => exact h a b hresult
  | error e => cases returns_done.mp hresult

theorem yields_addConfig {C : Type} {action : String} {convert : Json → Except AppError C}
    {add : C → Call Unit} {body : InboundConfigBody} :
    Yields Succeeds (addConfig action convert add body) := by
  unfold addConfig
  split
  · exact yields_throw _
  · exact yields_bind fun _ => yields_bind fun _ => yields_pure (succeeds_createdJson _)

theorem yields_run (e : Endpoint) (client : XrayClient) (params : e.handler.Params)
    (body : e.handler.Body) : Yields Succeeds (e.handler.run client params body) := by
  cases e with
  | addUser => exact yields_bind fun _ => yields_pure (succeeds_createdJson _)
  | addInbound | addOutbound => exact yields_addConfig
  | removeUser =>
    refine yields_bind fun outcome => ?_
    cases outcome with
    | ok _ => exact yields_pure (succeeds_okJson _)
    | error e =>
      cases e with
      | grpc code details =>
        dsimp only
        split
        · exact yields_pure (succeeds_okJson _)
        · exact yields_throw _
      | _ => exact yields_throw _
  | _ => exact yields_bind fun _ => yields_pure (succeeds_okJson _)

/-! ### Answers -/

/-- A result, or the rendering of an error of the program. -/
def Enveloped (r : Response) : Prop := Succeeds r ∨ ∃ e : AppError, r = e.intoResponse

theorem enveloped_toResponse {call : Call Response} (h : Yields Succeeds call) {response : Response}
    (hreturns : (toResponse call).Returns response) : Enveloped response := by
  obtain ⟨result, hresult, hdone⟩ := returns_bind.mp hreturns
  cases result with
  | ok r =>
    cases returns_done.mp hdone
    exact Or.inl (h _ hresult)
  | error e =>
    cases returns_done.mp hdone
    exact Or.inr ⟨e, rfl⟩

theorem not_enveloped_axum (laws : RejectionLaws) (request : HttpRequest) (r : AxumRejection) :
    ¬Enveloped (Abort.intoResponse request (.axum r)) := by
  rintro (h | ⟨e, he⟩)
  · have := laws.status request r
    rw [Succeeds, Abort.intoResponse] at h
    omega
  · obtain ⟨text, htext⟩ := laws.text request r
    obtain ⟨code, error, hbody⟩ := e.body_eq
    rw [Abort.intoResponse] at he
    rw [← he, htext] at hbody
    cases hbody

/-- Whether an extractor of `axum` that a request reaches rejects it: those of the path and the
query come after `NodeContext`, and that of the body after `BearerAuth`. -/
def axumRejects (settings : Settings) (e : Endpoint) (parts : Parts) : Bool :=
  admitted parts.request.headers &&
    (!(e.handler.params parts).isOk ||
      ((bearerAuth settings parts.request.headers).isOk && !(e.handler.body parts).isOk))

/-- The fields that an endpoint requires in its body and in its query. -/
def Endpoint.requiredInBody : Endpoint → List String
  | .addUser => ["tag", "email"]
  | .addInbound | .addOutbound => ["config"]
  | .overrideBalancer => ["target"]
  | _ => []

def Endpoint.requiredInQuery : Endpoint → List String
  | .removeUser => ["tag"]
  | _ => []

/-- The body is an object that lacks a required field, or the query lacks one. -/
def LacksField (e : Endpoint) (request : HttpRequest) : Prop :=
  (∃ fields, jsonBody request.headers request.body = .ok (.obj fields) ∧
    ∃ name ∈ e.requiredInBody, name ∉ fields.map Prod.fst) ∨
  ∃ name ∈ e.requiredInQuery, name ∉ (formPairs request.query).map Prod.fst

def RefusedAs422 (r : Response) : Prop :=
  r.status = 422 ∧ ∃ msg, r.body = errorBody "INVALID_ARGUMENT" msg

/-- What is documented of an answer: it has the envelope, and a missing field is named by a 422. -/
def AsDocumented (e : Endpoint) (request : HttpRequest) (answer : Grpc Response) : Prop :=
  (∀ response, answer.Returns response → Enveloped response) ∧
  (LacksField e request → ∀ response, answer.Returns response → RefusedAs422 response)

/-! ### Requests that lack a field -/

theorem json_eq_error {T : Type} {names : List String} {deserialize : Json → Option T}
    {parts : Parts} {document : Json}
    (hbody : jsonBody parts.request.headers parts.request.body = .ok document)
    (h : deserialize document = none) : (json names deserialize parts).isOk = false := by
  rw [json, hbody]
  dsimp only
  rw [h]
  rfl

theorem LacksField.rejected {e : Endpoint} {parts : Parts} (h : LacksField e parts.request) :
    (e.handler.params parts).isOk = false ∨ (e.handler.body parts).isOk = false := by
  rcases h with ⟨fields, hbody, name, hname, hmissing⟩ | ⟨name, hname, hmissing⟩
  · refine Or.inr ?_
    cases e with
    | addUser =>
      refine json_eq_error hbody (addUserBody_eq_none ?_)
      rcases List.mem_cons.mp hname with rfl | hname
      · exact Or.inl hmissing
      · exact Or.inr (List.mem_singleton.mp hname ▸ hmissing)
    | addInbound | addOutbound =>
      exact json_eq_error hbody
        (inboundConfigBody_eq_none (List.mem_singleton.mp hname ▸ hmissing))
    | overrideBalancer =>
      exact json_eq_error hbody
        (overrideBalancerBody_eq_none (List.mem_singleton.mp hname ▸ hmissing))
    | _ => cases hname
  · refine Or.inl ?_
    cases e with
    | removeUser =>
      have hnone := removeUserQuery_eq_none (List.mem_singleton.mp hname ▸ hmissing)
      show (do return (← path parts, ← query RemoveUserQuery.deserialize parts) :
        Except Abort (String × RemoveUserQuery)).isOk = false
      rw [query, hnone]
      cases path parts <;> rfl
    | _ => cases hname

/-! ### The answer of an endpoint -/

theorem not_refusedAs422_axum (laws : RejectionLaws) (request : HttpRequest) (r : AxumRejection) :
    ¬RefusedAs422 (Abort.intoResponse request (.axum r)) := by
  rintro ⟨-, msg, hbody⟩
  obtain ⟨text, htext⟩ := laws.text request r
  rw [Abort.intoResponse, htext] at hbody
  cases hbody

section Serve

variable {n : ℕ+} {cache : XrayClientCache} {settings : Settings} {e : Endpoint} {parts : Parts}

/-- The envelope is kept exactly when no extractor of `axum` that is reached rejects. -/
theorem enveloped_iff (lru : LruLaws) (header : HeaderLaws) (rejection : RejectionLaws)
    (hcache : Reachable n cache) :
    (∀ response, (e.handler.serve settings parts cache).1.Returns response →
      Enveloped response) ↔ axumRejects settings e parts = false := by
  have hadmitted := nodeContext_isOk lru hcache parts.request.headers
  rw [serve_fst, axumRejects, ← hadmitted]
  have hspec := extract_spec e.handler settings parts cache
  generalize (e.handler.extract settings parts cache).1 = result at hspec ⊢
  cases hspec with
  | node node =>
    rw [node]
    refine iff_of_true (fun response hreturns => ?_) rfl
    cases Dialogue.returns_done.mp hreturns
    exact Or.inr ⟨_, rfl⟩
  | params node params =>
    rw [node, params]
    refine iff_of_false (fun h => ?_) (by simp [Except.isOk, Except.toBool])
    obtain ⟨r, rfl⟩ := params_error e params
    exact not_enveloped_axum rejection parts.request r (h _ .done)
  | auth node params auth =>
    rw [node, params, auth]
    refine iff_of_true (fun response hreturns => ?_) rfl
    obtain ⟨msg, rfl⟩ := bearerAuth_error header auth
    cases Dialogue.returns_done.mp hreturns
    exact Or.inr ⟨.unauthenticated msg, rfl⟩
  | body node params auth body =>
    rw [node, params, auth, body]
    refine iff_of_false (fun h => ?_) (by simp [Except.isOk, Except.toBool])
    obtain ⟨r, rfl⟩ := body_error e body
    exact not_enveloped_axum rejection parts.request r (h _ .done)
  | run node params auth body =>
    rw [node, params, auth, body]
    refine iff_of_true (fun response hreturns => ?_) rfl
    exact enveloped_toResponse (yields_run e _ _ _) hreturns

theorem LacksField.not_refusedAs422 (lru : LruLaws) (header : HeaderLaws)
    (rejection : RejectionLaws) {parts : Parts} (h : LacksField e parts.request) :
    ∃ response, (e.handler.serve settings parts cache).1.Returns response ∧
      ¬RefusedAs422 response := by
  rw [serve_fst]
  have hspec := extract_spec e.handler settings parts cache
  generalize (e.handler.extract settings parts cache).1 = result at hspec ⊢
  cases hspec with
  | node node =>
    refine ⟨_, .done, fun hrefused => ?_⟩
    have hstatus := hrefused.1
    rcases nodeContext_error lru node with h | h <;> rw [Abort.intoResponse, h] at hstatus <;>
      cases hstatus
  | params node params =>
    obtain ⟨r, rfl⟩ := params_error e params
    exact ⟨_, .done, not_refusedAs422_axum rejection parts.request r⟩
  | auth node params auth =>
    obtain ⟨msg, rfl⟩ := bearerAuth_error header auth
    have hstatus : (401 : Nat) ≠ 422 := by decide
    exact ⟨_, .done, fun hrefused => hstatus hrefused.1⟩
  | body node params auth body =>
    obtain ⟨r, rfl⟩ := body_error e body
    exact ⟨_, .done, not_refusedAs422_axum rejection parts.request r⟩
  | run node params auth body =>
    rcases h.rejected with h | h
    · rw [params] at h
      cases h
    · rw [body] at h
      cases h

end Serve

/-- A request to an endpoint is answered as documented, whatever the node answers, exactly when no
extractor of `axum` that it reaches rejects it and it lacks no required field. -/
theorem asDocumented_iff (lru : LruLaws) (header : HeaderLaws) (rejection : RejectionLaws) {n : ℕ+}
    {cache : XrayClientCache} (hcache : Reachable n cache) {settings : Settings}
    {request : HttpRequest} {e : Endpoint} {captures : PathTemplate.Captures}
    (hdispatch : dispatch request.method request.path = .ok (.endpoint e, captures))
    (hmethod : request.method ≠ .head) :
    AsDocumented e request (handle settings request cache).1 ↔
      axumRejects settings e ⟨request, captures⟩ = false ∧ ¬LacksField e request := by
  rw [handle_fst hdispatch hmethod, AsDocumented, enveloped_iff lru header rejection hcache]
  refine and_congr_right fun _ => ⟨fun h hlacks => ?_, fun h hlacks => absurd hlacks h⟩
  have hlacks' : LacksField e (Parts.mk request captures).request := hlacks
  obtain ⟨response, hreturns, hnot⟩ := hlacks'.not_refusedAs422 lru header rejection
  exact hnot (h hlacks response hreturns)

/-- The same, if a missing field is to be named by a 422 only to requests that pass both checks of
their headers. -/
def AsDocumentedOnceChecked (settings : Settings) (e : Endpoint) (request : HttpRequest)
    (answer : Grpc Response) : Prop :=
  (∀ response, answer.Returns response → Enveloped response) ∧
  (admitted request.headers = true → bearerAuth settings request.headers = .ok () →
    LacksField e request → ∀ response, answer.Returns response → RefusedAs422 response)

/-- Read so, the documentation is kept exactly when no extractor of `axum` that is reached rejects:
one of them is reached by a request that passes both checks, and rejects it if it lacks a field. -/
theorem asDocumentedOnceChecked_iff (lru : LruLaws) (header : HeaderLaws)
    (rejection : RejectionLaws) {n : ℕ+} {cache : XrayClientCache} (hcache : Reachable n cache)
    {settings : Settings} {request : HttpRequest} {e : Endpoint} {captures : PathTemplate.Captures}
    (hdispatch : dispatch request.method request.path = .ok (.endpoint e, captures))
    (hmethod : request.method ≠ .head) :
    AsDocumentedOnceChecked settings e request (handle settings request cache).1 ↔
      axumRejects settings e ⟨request, captures⟩ = false := by
  rw [handle_fst hdispatch hmethod, AsDocumentedOnceChecked,
    enveloped_iff lru header rejection hcache]
  refine and_iff_left_of_imp fun hkept hadmitted hauth hlacks => ?_
  have hlacks' : LacksField e (Parts.mk request captures).request := hlacks
  have hauthenticated : (bearerAuth settings request.headers).isOk = true := by rw [hauth]; rfl
  have hrejects : axumRejects settings e ⟨request, captures⟩ = true := by
    rw [axumRejects, hadmitted, hauthenticated]
    rcases hlacks'.rejected with h | h <;> simp [h]
  rw [hkept] at hrejects
  cases hrejects

end

open Reference

/-- A request to add a user, with an object without fields as its body. -/
def addUserRequest : HttpRequest where
  method := .post
  path := "/v1/users"
  query := ""
  headers := [("authorization", utf8 "Bearer secret"), ("x-node-domain", utf8 "a.example"),
    ("x-node-token", utf8 "t"), ("content-type", utf8 "application/json")]
  body := utf8 "\x7b\x7d"

theorem dispatch_addUserRequest : dispatch addUserRequest.method addUserRequest.path =
    .ok (.endpoint .addUser, []) := by
  refine dispatch_eq (matchRoute_fixed routeLaws ?_) ?_
  · rw [templates, buildRouter_eq]
    decide +kernel
  · rw [buildRouter_eq]
    decide +kernel

theorem not_asDocumented_addUser :
    LacksField .addUser addUserRequest ∧
      ¬AsDocumented .addUser addUserRequest
        (handle ⟨"secret", 8080⟩ addUserRequest (.new 1)).1 := by
  refine ⟨Or.inl ⟨[], rfl, "tag", by decide, by decide⟩, fun h => ?_⟩
  have hanswer : (handle ⟨"secret", 8080⟩ addUserRequest (.new 1)).1 =
      .done ⟨422, .text "rejected"⟩ := by
    rw [handle_fst dispatch_addUserRequest (by decide)]
    rfl
  rw [hanswer] at h
  rcases h.1 _ .done with (hstatus | hstatus) | ⟨e, he⟩
  · cases hstatus
  · cases hstatus
  · obtain ⟨code, error, hbody⟩ := e.body_eq
    rw [← he] at hbody
    cases hbody

theorem asDocumented_sys :
    AsDocumented .getSysStats (sysRequest "secret" "a.example")
      (handle ⟨"secret", 8080⟩ (sysRequest "secret" "a.example") (.new 1)).1 :=
  (asDocumented_iff lruLaws headerLaws rejectionLaws .new (dispatch_sysRequest _ _)
    (by decide)).mpr ⟨rfl, by simp [LacksField, Endpoint.requiredInBody, Endpoint.requiredInQuery]⟩

end XrayBridge
