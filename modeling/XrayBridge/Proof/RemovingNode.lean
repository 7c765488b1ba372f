import Mathlib.Data.Set.Insert
import XrayBridge.Proof.MissingResource
import XrayBridge.Proof.Users

/-! Nodes that remove users: what a removal may do and answer, what the program asks a node for, and
the response that it makes of the answer. -/

namespace XrayBridge

open Platform Dialogue HandlerService

/-! ### Texts -/

/-- The text has `not found` in it, in any letter case. -/
def SaysNotFound (text : String) : Prop :=
  ∃ before word after : String, text = before ++ word ++ after ∧ word.toLower = "not found"

theorem lt_of_toLower {c : Char} (h : c.toLower.toNat < 128) : c.toNat < 128 := by
  unfold Char.toLower at h
  split at h
  · rename_i hupper
    have hle : c.toNat ≤ 'Z'.toNat := hupper.2
    exact Nat.lt_of_le_of_lt hle (by decide)
  · exact h

/-! ### Nodes -/

/-- A user of a node: the tag of an inbound and an email. -/
abbrev NodeUser := String × String

/-- How nodes say that a user is not there. -/
def Status.IsNotFound (status : Status) : Prop :=
  status.code = .notFound ∨ status.code = .unknown ∧ SaysNotFound status.message

/-- A node whose removals either delete a user who is there and succeed, or change nothing and fail
because the user is not there. -/
structure RemovingNode where
  State : Type
  users : State → Set NodeUser
  /-- What a removal may answer, and the state that it may leave. -/
  Removes : State → NodeUser → Except Status Unit → State → Prop
  total (state : State) (user : NodeUser) : ∃ answer state', Removes state user answer state'
  present {state state' : State} {user : NodeUser} {answer : Except Status Unit}
    (h : Removes state user answer state') (huser : user ∈ users state) :
    answer = .ok () ∧ users state' = users state \ {user}
  absent {state state' : State} {user : NodeUser} {answer : Except Status Unit}
    (h : Removes state user answer state') (huser : user ∉ users state) :
    (∃ status : Status, status.IsNotFound ∧ answer = .error status) ∧ state' = state

theorem RemovingNode.users_eq {node : RemovingNode} {state state' : node.State} {user : NodeUser}
    {answer : Except Status Unit} (h : node.Removes state user answer state') :
    node.users state' = node.users state \ {user} := by
  by_cases huser : user ∈ node.users state
  · exact (node.present h huser).2
  · rw [(node.absent h huser).2]
    ext other
    constructor
    · rintro hother
      refine ⟨hother, ?_⟩
      rintro rfl
      exact huser hother
    · exact fun hother => hother.1

section

variable [Platform]

/-! ### Lower case -/

theorem lowerFrom_append (before l rest : List Char) :
    ∃ lowered, lowerFrom before (l ++ rest) = lowered ++ lowerFrom (before ++ l) rest := by
  induction l generalizing before with
  | nil => exact ⟨[], by simp⟩
  | cons c l ih =>
    obtain ⟨lowered, hlowered⟩ := ih (before ++ [c])
    rw [List.cons_append, lowerFrom, hlowered, ← List.append_assoc, List.append_assoc before]
    exact ⟨_, rfl⟩

theorem lowerFrom_ascii_append (before : List Char) {word : List Char} (rest : List Char)
    (h : ∀ c ∈ word, c.toNat < 128) :
    lowerFrom before (word ++ rest) =
      word.map Char.toLower ++ lowerFrom (before ++ word) rest := by
  induction word generalizing before with
  | nil => simp
  | cons c word ih =>
    rw [List.cons_append, lowerFrom, if_pos (h c List.mem_cons_self),
      ih _ fun d hd => h d (List.mem_cons_of_mem _ hd), List.append_assoc]
    rfl

theorem contains_notFound {text : String} (h : SaysNotFound text) :
    contains (toLowercase text) "not found" = true := by
  obtain ⟨before, word, after, rfl, hword⟩ := h
  have hlist : word.toList.map Char.toLower = "not found".toList := by
    rw [← hword]
    exact String.toList_map.symm
  have hascii : ∀ c ∈ word.toList, c.toNat < 128 := by
    intro c hc
    have hmem : c.toLower ∈ "not found".toList := hlist ▸ List.mem_map_of_mem hc
    have hall : "not found".toList.all (fun d => decide (d.toNat < 128)) = true := by decide
    exact lt_of_toLower (of_decide_eq_true (List.all_eq_true.mp hall _ hmem))
  obtain ⟨lowered, hlowered⟩ := lowerFrom_append [] before.toList (word.toList ++ after.toList)
  have htoList : (toLowercase (before ++ word ++ after)).toList =
      lowered ++ ("not found".toList ++ lowerFrom (before.toList ++ word.toList) after.toList) := by
    rw [toLowercase, String.toList_ofList, String.toList_append, String.toList_append,
      List.append_assoc, hlowered, lowerFrom_ascii_append _ _ hascii, hlist, List.nil_append]
  rw [contains, decide_eq_true_eq, htoList, ← List.append_assoc]
  exact List.infix_append ..

/-! ### Requests to nodes -/

/-- The user whom a request asks a node to remove. -/
def AlterInboundRequest.removedUser (request : AlterInboundRequest) : Option NodeUser :=
  match request.operation.bind decodeTyped with
  | some ⟨.removeUserOperation, (operation : RemoveUserOperation)⟩ =>
    some (request.tag, operation.email)
  | _ => none

def removeUserRequest (user : NodeUser) : AlterInboundRequest where
  tag := user.1
  operation := some (typed ⟨.removeUserOperation, ({ email := user.2 } : RemoveUserOperation)⟩)

theorem removedUser_removeUserRequest (laws : ProstLaws) (user : NodeUser) :
    (removeUserRequest user).removedUser = some user := by
  have hoperation : (removeUserRequest user).operation.bind decodeTyped = some _ :=
    decodeTyped_typed laws (m := ⟨.removeUserOperation, _⟩) trivial
  rw [AlterInboundRequest.removedUser, hoperation]
  rfl

/-! ### Tasks -/

/-- The response to a removal, from what its node answers. -/
def removeUserResponse (email : String) (q : RemoveUserQuery) : Except Status Unit → Response
  | .ok () => okJson (operationResult "remove-user" (.obj [
      ("tag", .str q.tag), ("email", .str email)]))
  | .error status =>
    if status.saysMissing && q.ignoreMissing then
      okJson (operationResult "remove-user" (.obj [
        ("tag", .str q.tag), ("email", .str email), ("note", .str "not found, ignored")]))
    else (AppError.ofStatus status).intoResponse

def removeUserCall (client : XrayClient) (email : String) (q : RemoveUserQuery) : Grpc Response :=
  .ask (.rpc (client.request (.alterInbound (removeUserRequest (q.tag, email)))))
    fun answer => .done (removeUserResponse email q answer)

/-- A removal has one event and one call, and is then answered. -/
theorem toResponse_removeUser (client : XrayClient) (email : String) (q : RemoveUserQuery) :
    toResponse (removeUserHandler.run client (email, q) ()) =
      .ask (.trace (.grpcCall "AlterInbound/RemoveUser" client.name))
        fun _ => removeUserCall client email q := by
  refine congrArg (Dialogue.ask _) (funext fun _ => congrArg (Dialogue.ask _) (funext ?_))
  rintro (status | _)
  · show toResponse (if status.saysMissing && q.ignoreMissing then _ else _) =
      .done (if status.saysMissing && q.ignoreMissing then _ else _)
    split <;> rfl
  · rfl

/-- The status of a removal: 404 only if the user is not there and the request does not ignore
that. -/
inductive RemovalStatus (isThere : Prop) (ignoreMissing : Bool) : Nat → Prop where
  | ok (h : isThere ∨ ignoreMissing = true) : RemovalStatus isThere ignoreMissing 200
  | missing (gone : ¬isThere) (strict : ignoreMissing = false) :
      RemovalStatus isThere ignoreMissing 404

theorem removalStatus {node : RemovingNode} {state state' : node.State}
    {answer : Except Status Unit} {email : String} {q : RemoveUserQuery}
    (h : node.Removes state (q.tag, email) answer state') :
    RemovalStatus ((q.tag, email) ∈ node.users state) q.ignoreMissing
      (removeUserResponse email q answer).status := by
  by_cases huser : (q.tag, email) ∈ node.users state
  · rw [(node.present h huser).1]
    exact .ok (Or.inl huser)
  · obtain ⟨⟨status, hstatus, rfl⟩, -⟩ := node.absent h huser
    have hmissing : status.saysMissing = true := by
      rcases hstatus with hcode | ⟨hcode, htext⟩
      · simp [Status.saysMissing, hcode]
      · simp [Status.saysMissing, hcode, contains_notFound htext]
    rw [removeUserResponse, hmissing, Bool.true_and]
    cases hignore : q.ignoreMissing with
    | true => exact .ok (Or.inr rfl)
    | false =>
      have h404 : (AppError.ofStatus status).intoResponse.status = 404 :=
        (grpcCodeToHttp_eq_404_iff status).mpr hmissing
      show RemovalStatus _ false (AppError.ofStatus status).intoResponse.status
      rw [h404]
      exact .missing huser rfl

end

end XrayBridge
