import XrayBridge.Proof.Counters

/-! Failures of a node: the places that recognise a missing resource agree, and every other failure
is handed on as it is. -/

namespace XrayBridge

open Platform Dialogue StatsService HandlerService

section

variable [Platform]

/-- What the handler of removals and the counters take for a missing resource. -/
def Status.saysMissing (status : Status) : Bool :=
  status.code = .notFound ||
    (status.code = .unknown && contains (toLowercase status.message) "not found")

theorem grpcCodeToHttp_eq_404_iff (status : Status) :
    grpcCodeToHttp status.code status.message = 404 ↔ status.saysMissing = true := by
  obtain ⟨code, message⟩ := status
  cases code with
  | unknown =>
    have hmissing : Status.saysMissing ⟨.unknown, message⟩ =
        contains (toLowercase message) "not found" := by
      simp [Status.saysMissing]
    rw [hmissing]
    simp only [grpcCodeToHttp]
    split
    · rename_i hfound
      exact iff_of_true rfl hfound
    · rename_i hfound
      refine iff_of_false ?_ hfound
      split <;> decide
  | _ => simp [grpcCodeToHttp, Status.saysMissing]

/-- An environment in which every call fails with the status. -/
def FailsWith (status : Status) (answers : Answers) : Prop :=
  ∀ request, answers (.rpc request) = (.error status : Except Status request.rpc.Reply)

/-- Either the call sends nothing, or it ends with the failure as it is. -/
def Forwards (client : XrayClient) (status : Status) (answers : Answers) {α : Type}
    (call : Call α) : Prop :=
  Calls client 0 call ∨ outcome answers call = .error (.ofStatus status)

section Rules

variable {client : XrayClient} {status : Status} {answers : Answers} {α β : Type}

theorem Forwards.bind {call : Call α} {next : α → Call β} (h : Forwards client status answers call)
    (hnext : ∀ a, Calls client 0 (next a)) : Forwards client status answers (call >>= next) := by
  rcases h with hsilent | hfails
  · exact Or.inl (hsilent.bind hnext)
  · refine Or.inr ?_
    rw [outcome_bind, hfails]
    rfl

theorem Forwards.debugCall_bind {method : String} {next : Unit → Call α}
    (h : Forwards client status answers (next ())) :
    Forwards client status answers (debugCall method client >>= next) := by
  rcases h with hsilent | hfails
  · exact Or.inl ((calls_debugCall method).bind fun _ => hsilent)
  · exact Or.inr hfails

theorem forwards_send (h : FailsWith status answers) {message : Rpc} :
    Forwards client status answers
      (orError (send client.channel (withApiToken (.new message) client.token))) := by
  refine Or.inr ?_
  rw [outcome_send, h (client.request message)]
  rfl

theorem forwards_operation (h : FailsWith status answers) {method : String} {message : Rpc}
    {read : message.Reply → Call α} (hread : ∀ reply, Calls client 0 (read reply)) :
    Forwards client status answers (do
      debugCall method client
      let reply ← orError (send client.channel (withApiToken (.new message) client.token))
      read reply) :=
  ((forwards_send h).bind hread).debugCall_bind

theorem forwards_ofResult_bind {result : Except AppError α} {next : α → Call β}
    (hnext : ∀ a, Forwards client status answers (next a)) :
    Forwards client status answers (ofResult result >>= next) := by
  cases result with
  | ok a => exact hnext a
  | error e => exact Or.inl (calls_throw e)

theorem forwards_addConfig {C : Type} {action : String} {convert : Json → Except AppError C}
    {add : C → Call Unit} {body : InboundConfigBody}
    (hadd : ∀ config, Forwards client status answers (add config)) :
    Forwards client status answers (addConfig action convert add body) := by
  unfold addConfig
  split
  · exact Or.inl (calls_throw _)
  · exact forwards_ofResult_bind fun config => (hadd config).bind fun _ => calls_pure _

/-- Every handler other than those of removals and of a counter hands the failure of its call on. -/
theorem forwards_run (h : FailsWith status answers) {e : Endpoint} (hremove : e ≠ .removeUser)
    (hstat : e ≠ .getStat) (params : e.handler.Params) (body : e.handler.Body) :
    Forwards client status answers (e.handler.run client params body) := by
  have hpure {α : Type} (a : α) : Calls client 0 (pure a) := calls_pure a
  cases e with
  | removeUser => exact absurd rfl hremove
  | getStat => exact absurd rfl hstat
  | addUser =>
    refine Forwards.bind ?_ fun _ => hpure _
    apply Forwards.debugCall_bind
    exact forwards_ofResult_bind fun _ => (forwards_send h).bind fun _ => hpure _
  | addInbound | addOutbound =>
    exact forwards_addConfig fun _ => forwards_operation h fun _ => hpure _
  | getOnlineUsers => exact (forwards_send h).debugCall_bind.bind fun _ => hpure _
  | listUsers =>
    refine Forwards.bind ?_ fun _ => hpure _
    exact (forwards_operation h fun _ => hpure _).bind fun _ => hpure _
  | _ => exact (forwards_operation h fun _ => hpure _).bind fun _ => hpure _

end Rules

/-! ### Removals and counters -/

theorem outcome_removeUser {status : Status} {answers : Answers} (h : FailsWith status answers)
    (client : XrayClient) (tag email : String) :
    outcome answers (removeUser client tag email) = .error (.ofStatus status) :=
  outcome_operation answers (h _)

theorem outcome_removeUserHandler {status : Status} {answers : Answers}
    (h : FailsWith status answers) (client : XrayClient) (email : String) (q : RemoveUserQuery) :
    outcome answers (removeUserHandler.run client (email, q) ()) =
      if status.saysMissing && q.ignoreMissing then
        .ok (okJson (operationResult "remove-user" (.obj [
          ("tag", .str q.tag), ("email", .str email), ("note", .str "not found, ignored")])))
      else .error (.ofStatus status) := by
  have hrun : Dialogue.run answers (removeUser client q.tag email).run =
      .error (.grpc status.code status.message) :=
    outcome_removeUser h client q.tag email
  simp only [removeUserHandler]
  rw [outcome_lift_bind, hrun]
  show outcome answers (if status.saysMissing && q.ignoreMissing then _ else _) = _
  split <;> rfl

theorem outcome_getStat {status : Status} {answers : Answers} (h : FailsWith status answers)
    (client : XrayClient) (name : String) (reset : Bool) :
    outcome answers (getStat client name reset) =
      if status.saysMissing then .ok 0 else .error (.ofStatus status) := by
  let reply : Grpc (Except Status (Option Stat)) :=
    send client.channel (StatsService.addToken (.new (.getStats name reset)) client.token)
  have hrun : Dialogue.run answers reply = .error status := h (client.request (.getStats name reset))
  rw [getStat, outcome_bind, outcome_debugCall]
  refine (outcome_lift_bind answers reply _).trans ?_
  rw [hrun]
  show outcome answers (if status.saysMissing then _ else _) = _
  split <;> rfl

theorem answered_removeUserHandler {status : Status} {answers : Answers}
    (h : FailsWith status answers) (client : XrayClient) (email : String) (q : RemoveUserQuery) :
    answered answers (removeUserHandler.run client (email, q) ()) =
      if status.saysMissing && q.ignoreMissing then
        okJson (operationResult "remove-user" (.obj [
          ("tag", .str q.tag), ("email", .str email), ("note", .str "not found, ignored")]))
      else (AppError.ofStatus status).intoResponse := by
  rw [answered_eq, outcome_removeUserHandler h]
  cases status.saysMissing && q.ignoreMissing <;> rfl

theorem outcome_getStatHandler_error {answers : Answers} {client : XrayClient} {name : String}
    {q : ResetQuery} {e : AppError} (h : outcome answers (getStat client name q.reset) = .error e) :
    outcome answers (getStatHandler.run client (name, q) ()) = .error e := by
  rw [outcome_getStatHandler_eq, h]
  rfl

/-- For every failure of a node: a removal that ignores missing users succeeds exactly when one that
does not answers 404, when a counter counts as 0 and when the failure itself maps to 404.  Every
other failure comes out of both as it is, and is answered as by each operation that only hands it
on. -/
theorem missingResource_agree {status : Status} {answers : Answers} (h : FailsWith status answers)
    (client : XrayClient) (tag email name : String) (reset : Bool) :
    let remove (ignoreMissing : Bool) := removeUserHandler.run client (email, ⟨tag, ignoreMissing⟩) ()
    let failure : AppError := .grpc status.code status.message
    ((answered answers (remove true)).status = 200 ↔
      (answered answers (remove false)).status = 404) ∧
    ((answered answers (remove false)).status = 404 ↔
      outcome answers (getStat client name reset) = .ok 0) ∧
    (outcome answers (getStat client name reset) = .ok 0 ↔
      grpcCodeToHttp status.code status.message = 404) ∧
    (grpcCodeToHttp status.code status.message ≠ 404 →
      (∀ ignoreMissing, outcome answers (remove ignoreMissing) = .error failure ∧
        answered answers (remove ignoreMissing) = failure.intoResponse) ∧
      outcome answers (getStat client name reset) = .error failure ∧
      answered answers (getStatHandler.run client (name, ⟨reset⟩) ()) = failure.intoResponse) ∧
    ∀ (e : Endpoint) (params : e.handler.Params) (body : e.handler.Body),
      e ≠ .removeUser → e ≠ .getStat → ¬Calls client 0 (e.handler.run client params body) →
      answered answers (e.handler.run client params body) = failure.intoResponse := by
  intro remove failure
  have h404 := grpcCodeToHttp_eq_404_iff status
  have hstrict : (answered answers (remove false)).status =
      grpcCodeToHttp status.code status.message := by
    rw [answered_removeUserHandler h, Bool.and_false]
    rfl
  have hignore : (answered answers (remove true)).status = 200 ↔ status.saysMissing = true := by
    rw [answered_removeUserHandler h, Bool.and_true]
    split
    · rename_i hmissing
      exact iff_of_true rfl hmissing
    · rename_i hmissing
      have hge := (AppError.ofStatus status).status_ge
      exact iff_of_false (by omega) hmissing
  have hstat : outcome answers (getStat client name reset) = .ok 0 ↔ status.saysMissing = true := by
    rw [outcome_getStat h]
    split
    · rename_i hmissing
      exact iff_of_true rfl hmissing
    · rename_i hmissing
      exact iff_of_false nofun hmissing
  refine ⟨by rw [hignore, hstrict, h404], by rw [hstrict, h404, hstat], by rw [hstat, h404], ?_, ?_⟩
  · intro hother
    rw [Ne, h404, Bool.not_eq_true] at hother
    have hvalue : outcome answers (getStat client name reset) = .error failure := by
      rw [outcome_getStat h, hother]
      rfl
    refine ⟨fun ignoreMissing => ⟨?_, ?_⟩, hvalue, ?_⟩
    · rw [outcome_removeUserHandler h, hother]
      rfl
    · rw [answered_removeUserHandler h, hother]
      rfl
    · rw [answered_eq, outcome_getStatHandler_error hvalue]
  · intro e params body hremove hgetStat hsends
    rw [answered_eq, (forwards_run h hremove hgetStat params body).resolve_left hsends]
    rfl

end

open Reference

/-- Every call fails with a text that says so in capitals. -/
def notFoundAnswers : Answers
  | .trace _ => ()
  | .rpc _ => .error ⟨.unknown, "User NOT FOUND"⟩

theorem missingResource_agree_capitals :
    (answered notFoundAnswers
      (removeUserHandler.run statsClient ("a", ⟨"inbound", true⟩) ())).status = 200 :=
  (missingResource_agree (fun _ => rfl) statsClient "inbound" "a" "user>>>a" false).1.mpr rfl

end XrayBridge
