import XrayBridge.Proof.Dispatch
import XrayBridge.Proof.Node
import XrayBridge.Proof.Requests

/-! Failed authentication: the error of `BearerAuth`, and the requests that are answered with it. -/

namespace XrayBridge

open Platform

/-! ### Slices of ASCII texts -/

theorem lt_of_visibleChar {c : Char} (h : visibleChar c = true) : c.toNat < 128 := by
  simp only [visibleChar, Bool.or_eq_true, Bool.and_eq_true, decide_eq_true_eq, beq_iff_eq] at h
  omega

theorem utf8Size_of_lt {c : Char} (h : c.toNat < 128) : c.utf8Size = 1 := by
  rw [Char.utf8Size_eq_one_iff, UInt32.le_iff_toNat_le]
  exact Nat.le_of_lt_succ h

/-- In a list of ASCII characters, the characters from byte `n` on are those from position `n`
on. -/
theorem dropBytes_ascii {n : Nat} {l : List Char} (hl : ∀ c ∈ l, c.toNat < 128)
    (hn : n ≤ l.length) : dropBytes n l = some (l.drop n) := by
  induction n generalizing l with
  | zero => rw [dropBytes, List.drop_zero]
  | succ n ih =>
    cases l with
    | nil => simp at hn
    | cons c l =>
      rw [dropBytes, utf8Size_of_lt (hl c List.mem_cons_self), if_pos (by omega)]
      exact ih (fun d hd => hl d (List.mem_cons_of_mem _ hd)) (by simpa using hn)

section

variable [Platform]

theorem lowerFrom_ascii (before : List Char) {l : List Char} (hl : ∀ c ∈ l, c.toNat < 128) :
    lowerFrom before l = l.map Char.toLower := by
  induction l generalizing before with
  | nil => rfl
  | cons c l ih =>
    rw [lowerFrom, if_pos (hl c List.mem_cons_self),
      ih _ fun d hd => hl d (List.mem_cons_of_mem _ hd)]
    rfl

theorem sliceFrom_of_bearer {s : String} (hs : ∀ c ∈ s.toList, c.toNat < 128)
    (h : startsWith (toLowercase s) "bearer " = true) :
    sliceFrom 7 s = some (String.ofList (s.toList.drop 7)) := by
  rw [startsWith, decide_eq_true_eq, toLowercase, lowerFrom_ascii [] hs] at h
  have hlength : 7 ≤ s.toList.length := by
    have hle := h.length_le
    rwa [String.toList_ofList (l := s.toList.map Char.toLower), List.length_map] at hle
  rw [sliceFrom, dropBytes_ascii hs hlength]
  rfl

/-! ### Errors of the extractors -/

theorem ascii_of_toStr (laws : HeaderLaws) {v : Bytes} {s : String} (h : toStr v = some s) :
    ∀ c ∈ s.toList, c.toNat < 128 := fun c hc =>
  lt_of_visibleChar (List.all_eq_true.mp (visible_of_toStr laws h) c hc)

theorem bearerToken_error {s : String} (hs : ∀ c ∈ s.toList, c.toNat < 128) {abort : Abort}
    (h : bearerToken s = .error abort) : abort = .app malformedAuthorization := by
  unfold bearerToken at h
  split at h
  · cases h
  · split at h
    · rename_i hlower
      rw [sliceFrom_of_bearer hs hlower] at h
      cases h
    · exact (Except.error.inj h).symm

theorem bearerAuth_error (laws : HeaderLaws) {settings : Settings} {headers : Headers}
    {abort : Abort} (h : bearerAuth settings headers = .error abort) :
    ∃ msg, abort = .app (.unauthenticated msg) := by
  unfold bearerAuth at h
  cases hstr : (headers.get "authorization").bind toStr with
  | none =>
    rw [hstr] at h
    exact ⟨_, (Except.error.inj h).symm⟩
  | some authStr =>
    rw [hstr] at h
    obtain ⟨v, -, hv⟩ := Option.bind_eq_some_iff.mp hstr
    cases htoken : bearerToken authStr with
    | error abort' =>
      rw [bearerToken_error (ascii_of_toStr laws hv) htoken] at htoken
      simp only [htoken] at h
      exact ⟨_, (Except.error.inj h).symm⟩
    | ok token =>
      simp only [htoken] at h
      change (if token.isEmpty then _ else _) = _ at h
      split at h
      · exact ⟨_, (Except.error.inj h).symm⟩
      · split at h
        · exact ⟨_, (Except.error.inj h).symm⟩
        · cases h

theorem requiredHeader_error {headers : Headers} {name missing : String} {e : AppError}
    (h : requiredHeader headers name missing = .error e) : e = .invalidArgument missing := by
  unfold requiredHeader at h
  split at h
  · cases h
  · exact (Except.error.inj h).symm

theorem nodeParams_error {headers : Headers} {e : AppError}
    (h : nodeParams headers = .error e) : e.intoResponse.status = 400 := by
  rcases bind_eq_error_iff.mp h with hdomain | ⟨domain, -, h⟩
  · rw [requiredHeader_error hdomain]
    rfl
  rcases bind_eq_error_iff.mp h with htoken | ⟨token, -, h⟩
  · rw [requiredHeader_error htoken]
    rfl
  · cases h

theorem endpoint_error {domain : String} {port : UInt16} {e : AppError}
    (h : XrayClientCache.endpoint domain port = .error e) : e.intoResponse.status = 500 := by
  unfold XrayClientCache.endpoint at h
  split at h
  · rw [← Except.error.inj h]
    rfl
  · split at h
    · rw [← Except.error.inj h]
      rfl
    · cases h

/-- What `NodeContext` rejects a request with: the status is 400 or 500. -/
theorem nodeContext_error (laws : LruLaws) {headers : Headers} {cache : XrayClientCache}
    {e : AppError} (h : (nodeContext headers cache).1 = .error e) :
    e.intoResponse.status = 400 ∨ e.intoResponse.status = 500 := by
  cases hparams : nodeParams headers with
  | error e' =>
    rw [nodeContext_of_error hparams] at h
    cases h
    exact Or.inl (nodeParams_error hparams)
  | ok params =>
    rcases hrun : nodeContext headers cache with ⟨result, cache'⟩
    rw [hrun] at h
    obtain rfl : result = .error e := h
    exact Or.inr (endpoint_error (nodeContext_spec laws hparams hrun).error_eq)

/-! ### Answers -/

/-- Every answer is the error of `BearerAuth`, which depends on the `Authorization` header only. -/
def AnsweredUnauthenticated (settings : Settings) (headers : Headers) (answer : Grpc Response) :
    Prop :=
  ∀ response, answer.Returns response →
    ∃ msg, bearerAuth settings headers = .error (.app (.unauthenticated msg)) ∧
      response = ⟨401, errorBody "UNAUTHENTICATED" msg⟩

/-- A request that fails authentication is answered so exactly when `NodeContext` and the
extractors of the path and the query, which come first, accept it. -/
theorem answeredUnauthenticated_iff (lru : LruLaws) (header : HeaderLaws)
    (rejection : RejectionLaws) {n : ℕ+} {cache : XrayClientCache} (hcache : Reachable n cache)
    {settings : Settings} {request : HttpRequest} {e : Endpoint} {captures : PathTemplate.Captures}
    (hdispatch : dispatch request.method request.path = .ok (.endpoint e, captures))
    (hmethod : request.method ≠ .head) (hauth : bearerAuth settings request.headers ≠ .ok ()) :
    AnsweredUnauthenticated settings request.headers (handle settings request cache).1 ↔
      admitted request.headers = true ∧ (e.handler.params ⟨request, captures⟩).isOk = true := by
  have hadmitted := nodeContext_isOk lru hcache request.headers
  rw [handle_fst hdispatch hmethod, serve_fst, AnsweredUnauthenticated]
  have hspec := extract_spec e.handler settings ⟨request, captures⟩ cache
  generalize (e.handler.extract settings ⟨request, captures⟩ cache).1 = result at hspec ⊢
  cases hspec with
  | node node =>
    rw [← hadmitted, node]
    refine iff_of_false (fun h => ?_) (by simp [Except.isOk, Except.toBool])
    obtain ⟨msg, -, hresponse⟩ := h _ .done
    have hstatus := congrArg Response.status hresponse
    rcases nodeContext_error lru node with h | h <;> rw [Abort.intoResponse, h] at hstatus <;>
      cases hstatus
  | params node params =>
    rw [params]
    refine iff_of_false (fun h => ?_) (by simp [Except.isOk, Except.toBool])
    obtain ⟨r, rfl⟩ := params_error e params
    obtain ⟨msg, -, hresponse⟩ := h _ .done
    obtain ⟨text, htext⟩ := rejection.text request r
    have hbody := congrArg Response.body hresponse
    rw [Abort.intoResponse, htext] at hbody
    cases hbody
  | auth node params auth =>
    rw [← hadmitted, node, params]
    refine iff_of_true (fun response hreturns => ?_) (by simp [Except.isOk, Except.toBool])
    obtain ⟨msg, rfl⟩ := bearerAuth_error header auth
    exact ⟨msg, auth, Dialogue.returns_done.mp hreturns⟩
  | body node params auth => exact absurd auth hauth
  | run node params auth => exact absurd auth hauth

end

open Reference

theorem bearerAuth_wrong (domain : String) :
    bearerAuth ⟨"secret", 8080⟩ (sysRequest "wrong" domain).headers =
      .error (.app (.unauthenticated "Token 无效")) :=
  rfl

theorem not_answeredUnauthenticated_domain :
    bearerAuth ⟨"secret", 8080⟩ (sysRequest "wrong" "").headers ≠ .ok () ∧
      ¬AnsweredUnauthenticated ⟨"secret", 8080⟩ (sysRequest "wrong" "").headers
        (handle ⟨"secret", 8080⟩ (sysRequest "wrong" "") (.new 1)).1 := by
  refine ⟨by rw [bearerAuth_wrong]; exact nofun, fun h => ?_⟩
  rw [handle_fst (dispatch_sysRequest _ _) (by decide)] at h
  obtain ⟨msg, -, hresponse⟩ := h _ .done
  cases congrArg Response.status hresponse

theorem answeredUnauthenticated_sys :
    AnsweredUnauthenticated ⟨"secret", 8080⟩ (sysRequest "wrong" "a.example").headers
      (handle ⟨"secret", 8080⟩ (sysRequest "wrong" "a.example") (.new 1)).1 :=
  (answeredUnauthenticated_iff lruLaws headerLaws rejectionLaws .new (dispatch_sysRequest _ _)
    (by decide) (by rw [bearerAuth_wrong]; exact nofun)).mpr ⟨by decide, rfl⟩

end XrayBridge
