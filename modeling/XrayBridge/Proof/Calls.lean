import XrayBridge.Routes.Router

/-! What the operations send: every operation makes at most one call, through the channel of its
client and with the metadata of its client's token. -/

namespace XrayBridge

open Platform Dialogue

variable [Platform]

def Effect.cost : Effect → Nat
  | .rpc _ => 1
  | .trace _ => 0

/-- A request goes through the client's channel with the client's token, and an event names the
client. -/
def Effect.SentBy (client : XrayClient) : Effect → Prop
  | .rpc request => request.channel = client.channel ∧
      request.metadata = (withApiToken (.new request.rpc) client.token).metadata
  | .trace event => ∃ method, event = .grpcCall method client.name

/-- Whatever a node answers, the call sends at most `n` requests, each of them for the client. -/
def Calls (client : XrayClient) (n : Nat) {α : Type} (call : Call α) : Prop :=
  Within (Effect.SentBy client) Effect.cost n call.run

section Rules

variable {client : XrayClient} {n k : Nat} {α β : Type}

theorem calls_pure (a : α) : Calls client n (pure a) := within_done _

theorem calls_throw (e : AppError) : Calls client n (throw e : Call α) := within_done _

theorem calls_ofResult (result : Except AppError α) : Calls client n (ofResult result) :=
  within_done _

theorem Calls.bind {call : Call α} {next : α → Call β} (h : Calls client n call)
    (hnext : ∀ a, Calls client k (next a)) : Calls client (n + k) (call >>= next) := by
  refine Within.bind h fun result => ?_
  cases result with
  | ok a => exact hnext a
  | error e => exact within_done _

theorem Calls.mono {call : Call α} (h : Calls client n call) (hnk : n ≤ k) :
    Calls client k call :=
  Within.mono h hnk

theorem calls_lift {reply : Grpc α} {next : α → Call β}
    (h : Within (Effect.SentBy client) Effect.cost n reply)
    (hnext : ∀ a, Calls client k (next a)) :
    Calls client (n + k) ((reply : Call α) >>= next) := by
  refine Calls.bind ?_ hnext
  exact Within.bind (k := 0) h fun a => within_done _

theorem within_send {message : Rpc} :
    Within (Effect.SentBy client) Effect.cost 1
      (send client.channel (withApiToken (.new message) client.token)) :=
  within_question ⟨rfl, rfl⟩ le_rfl

theorem calls_send {message : Rpc} :
    Calls client 1
      (orError (send client.channel (withApiToken (.new message) client.token))) :=
  Within.bind (k := 0) within_send fun _ => within_done _

theorem calls_debugCall (method : String) : Calls client 0 (debugCall method client) :=
  within_question ⟨method, rfl⟩ le_rfl

/-- An operation that computes its message, sends it and returns what it reads in the reply. -/
theorem calls_operation {method : String} {message : Rpc} {read : message.Reply → Call α}
    (hread : ∀ reply, Calls client 0 (read reply)) :
    Calls client 1 (do
      debugCall method client
      let reply ← orError (send client.channel (withApiToken (.new message) client.token))
      read reply) :=
  (calls_debugCall method).bind fun _ => calls_send.bind hread

theorem calls_addConfig {C : Type} {action : String} {convert : Json → Except AppError C}
    {add : C → Call Unit} {body : InboundConfigBody}
    (hadd : ∀ config, Calls client 1 (add config)) :
    Calls client 1 (addConfig action convert add body) := by
  unfold addConfig
  split
  · exact calls_throw _
  · exact (calls_ofResult (n := 0) _).bind fun config =>
      (hadd config).bind (k := 0) fun _ => calls_pure _

end Rules

theorem within_toResponse {n : Nat} {client : XrayClient} {call : Call Response}
    (h : Calls client n call) :
    Within (Effect.SentBy client) Effect.cost n (toResponse call) := by
  refine Within.bind (k := 0) h fun result => ?_
  cases result <;> exact within_done _

/-! ### Outcomes -/

/-- How the environment of the program answers. -/
abbrev Answers := (e : Effect) → e.Answer

def outcome {α : Type} (answers : Answers) (call : Call α) : Except AppError α :=
  Dialogue.run answers call.run

/-- The request that takes a message to the node of a client. -/
def XrayClient.request (client : XrayClient) (message : Rpc) : GrpcRequest :=
  ⟨client.channel, (withApiToken (.new message) client.token).metadata, message⟩

section Outcomes

variable (answers : Answers) {α β : Type}

theorem outcome_bind (call : Call α) (next : α → Call β) :
    outcome answers (call >>= next) =
      outcome answers call >>= fun a => outcome answers (next a) := by
  show Dialogue.run answers (call.run >>= _) = _
  rw [Dialogue.run_bind]
  show _ = Dialogue.run answers call.run >>= _
  cases Dialogue.run answers call.run <;> rfl

@[simp] theorem outcome_debugCall (method : String) (client : XrayClient) :
    outcome answers (debugCall method client) = .ok () := rfl

@[simp] theorem outcome_ofResult (result : Except AppError α) :
    outcome answers (ofResult result) = result := rfl

theorem outcome_lift_bind (reply : Grpc α) (next : α → Call β) :
    outcome answers ((reply : Call α) >>= next) =
      outcome answers (next (Dialogue.run answers reply)) := by
  rw [outcome_bind]
  show Dialogue.run answers (reply >>= fun a => pure (Except.ok a)) >>= _ = _
  rw [Dialogue.run_bind]
  rfl

theorem outcome_send (client : XrayClient) (message : Rpc) :
    outcome answers (orError (send client.channel (withApiToken (.new message) client.token))) =
      Except.mapError AppError.ofStatus (answers (.rpc (client.request message))) := rfl

theorem outcome_operation {method : String} {client : XrayClient} {message : Rpc}
    {read : message.Reply → Call α} {answer : Except Status message.Reply}
    (h : answers (.rpc (client.request message)) = answer) :
    outcome answers (do
      debugCall method client
      let reply ← orError (send client.channel (withApiToken (.new message) client.token))
      read reply) =
    (answer.mapError AppError.ofStatus >>= fun reply => outcome answers (read reply)) := by
  rw [outcome_bind, outcome_debugCall]
  show outcome answers (_ >>= read) = _
  rw [outcome_bind, outcome_send, ← h]
  rfl

/-- The response that a handler's call comes to. -/
def answered (call : Call Response) : Response := Dialogue.run answers (toResponse call)

theorem answered_eq (call : Call Response) :
    answered answers call =
      match outcome answers call with
      | .ok response => response
      | .error e => e.intoResponse := by
  show Dialogue.run answers (call.run >>= _) = _
  rw [Dialogue.run_bind, outcome]
  cases Dialogue.run answers call.run <;> rfl

end Outcomes

/-! ### Requests -/

/-- Some answers lead the call to send the request. -/
def Sends {α : Type} (call : Call α) (r : GrpcRequest) : Prop := call.run.Asks (.rpc r)

section Sends

variable {client : XrayClient} {r : GrpcRequest} {α β : Type}

theorem Calls.not_sends {call : Call α} (h : Calls client 0 call) : ¬Sends call r := fun hsends =>
  absurd (Within.cost_le h hsends) (by simp [Effect.cost])

theorem sends_debugCall_bind {method : String} {next : Unit → Call α} :
    Sends (debugCall method client >>= next) r ↔ Sends (next ()) r := by
  show (ask (.trace (.grpcCall method client.name)) fun _ => (next ()).run).Asks _ ↔ _
  rw [asks_ask]
  constructor
  · rintro (heq | ⟨_, h⟩)
    · cases heq
    · exact h
  · intro h
    exact Or.inr ⟨(), h⟩

theorem sends_ofResult_bind {result : Except AppError α} {next : α → Call β} :
    Sends (ofResult result >>= next) r ↔ ∃ a, result = .ok a ∧ Sends (next a) r := by
  cases result with
  | ok a =>
    show Sends (next a) r ↔ _
    simp
  | error e =>
    show (done _).Asks _ ↔ _
    simp

theorem sends_send_bind {message : Rpc} {next : message.Reply → Call α}
    (hnext : ∀ reply, Calls client 0 (next reply)) :
    Sends (orError (send client.channel (withApiToken (.new message) client.token)) >>= next) r ↔
      r = client.request message := by
  constructor
  · intro h
    rcases asks_ask.mp h with heq | ⟨reply, h⟩
    · cases heq
      rfl
    · cases reply with
      | ok reply => exact absurd h (hnext reply).not_sends
      | error status => exact absurd h not_asks_done
  · rintro rfl
    exact .here

/-- What goes on without sending anything adds no request. -/
theorem sends_bind_iff_left {call : Call α} {next : α → Call β}
    (hnext : ∀ a, Calls client 0 (next a)) : Sends (call >>= next) r ↔ Sends call r := by
  refine asks_bind.trans (or_iff_left ?_)
  rintro ⟨result, -, h⟩
  cases result with
  | ok a => exact (hnext a).not_sends h
  | error e => exact not_asks_done h

end Sends

/-! ### Operations -/

/-- The handler of each endpoint makes at most one call, for the client that it is given. -/
theorem calls_run (e : Endpoint) (client : XrayClient) (params : e.handler.Params)
    (body : e.handler.Body) : Calls client 1 (e.handler.run client params body) := by
  cases e with
  | addUser =>
    refine Calls.bind (k := 0) ?_ fun _ => calls_pure _
    exact (calls_debugCall _).bind fun _ => (calls_ofResult (n := 0) _).bind fun _ =>
      calls_send.bind (k := 0) fun _ => calls_pure _
  | removeUser =>
    refine calls_lift (k := 0) (calls_operation fun _ => calls_pure _) fun outcome => ?_
    cases outcome with
    | ok _ => exact calls_pure _
    | error e =>
      cases e with
      | grpc code details =>
        dsimp only
        split
        · exact calls_pure _
        · exact calls_throw _
      | _ => exact calls_throw _
  | getStat =>
    refine Calls.bind (k := 0) ?_ fun _ => calls_pure _
    refine (calls_debugCall _).bind fun _ => calls_lift (k := 0) within_send fun reply => ?_
    cases reply with
    | ok stat => exact calls_pure _
    | error status =>
      dsimp only
      split
      · exact calls_pure _
      · exact calls_throw _
  | addInbound => exact calls_addConfig fun _ => calls_operation fun _ => calls_pure _
  | addOutbound => exact calls_addConfig fun _ => calls_operation fun _ => calls_pure _
  | getOnlineUsers =>
    exact Calls.bind (k := 0) ((calls_debugCall _).bind fun _ => calls_send) fun _ => calls_pure _
  | listUsers =>
    refine Calls.bind (k := 0) ?_ fun _ => calls_pure _
    exact Calls.bind (k := 0) (calls_operation fun _ => calls_pure _) fun _ => calls_pure _
  | _ => exact Calls.bind (k := 0) (calls_operation fun _ => calls_pure _) fun _ => calls_pure _

end XrayBridge
