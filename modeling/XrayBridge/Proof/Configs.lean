import XrayBridge.Proof.Counters

/-! Configurations of inbounds and outbounds: which documents are sent to a node, and as what. -/

namespace XrayBridge

open Platform HandlerService

/-! ### The grammar of configurations -/

/-- An object with a string in a field. -/
def HasString (document : Json) (field value : String) : Prop :=
  (∃ fields, document = .obj fields) ∧ document.get field = some (.str value)

/-- What a field says of a setting: nothing where it is missing, and otherwise the type and the
bytes of an object with the type and the bytes in padded base64. -/
inductive IsSetting (config : Json) (field : String) : Option TypedMessage → Prop where
  | missing (missing : config.get field = none) : IsSetting config field none
  | present {sub : Json} {name text : String} {bytes : Bytes} (found : config.get field = some sub)
      (type : HasString sub "type" name) (value : HasString sub "value" text)
      (encoded : text = String.ofList (Base64.encode bytes)) :
      IsSetting config field (some { type := name, value := bytes })

/-- A configuration: an object with a tag, and with two settings in the fields `first` and
`second`. -/
structure IsConfig (first second : String) (config : Json) (tag : String)
    (a b : Option TypedMessage) : Prop where
  tag : HasString config "tag" tag
  first : IsSetting config first a
  second : IsSetting config second b

theorem bind_asStr_eq_some_iff {document : Json} {field value : String} :
    (document.get field).bind Json.asStr = some value ↔ HasString document field value := by
  constructor
  · intro h
    obtain ⟨found, hfound, hstr⟩ := Option.bind_eq_some_iff.mp h
    cases found with
    | str s =>
      cases hstr
      cases document with
      | obj fields => exact ⟨⟨fields, rfl⟩, hfound⟩
      | _ => cases hfound
    | _ => cases hstr
  · rintro ⟨-, h⟩
    rw [h]
    rfl

theorem configTag_eq_ok_iff {config : Json} {tag : String} :
    configTag config = .ok tag ↔ HasString config "tag" tag := by
  rw [← bind_asStr_eq_some_iff, configTag]
  cases (config.get "tag").bind Json.asStr <;> simp

theorem configTag_error {config : Json} {e : AppError} (h : configTag config = .error e) :
    ∃ msg, e = .unprocessableEntity msg := by
  rw [configTag] at h
  split at h
  · cases h
  · cases h
    exact ⟨_, rfl⟩

section

variable [Platform]

theorem b64Decode_eq_ok_iff (laws : Base64Laws) {text : String} {bytes : Bytes} :
    b64Decode text = .ok bytes ↔ text = String.ofList (Base64.encode bytes) := by
  rw [laws.decode_iff, laws.encode, eq_comm]

/-- What the extraction of a setting comes to: a setting of the grammar or a refusal. -/
inductive Extracted (config : Json) (field : String) :
    Except AppError (Option TypedMessage) → Prop where
  | setting {s : Option TypedMessage} (h : IsSetting config field s) : Extracted config field (.ok s)
  | refused (msg : String) : Extracted config field (.error (.unprocessableEntity msg))

theorem extracted (laws : Base64Laws) (config : Json) (field : String) :
    Extracted config field (extractTypedMessage config field) := by
  unfold extractTypedMessage
  cases hget : config.get field with
  | none => exact .setting (.missing hget)
  | some sub =>
    dsimp only
    cases htype : (sub.get "type").bind Json.asStr with
    | none => exact .refused _
    | some name =>
      cases hvalue : (sub.get "value").bind Json.asStr with
      | none => exact .refused _
      | some text =>
        dsimp only
        cases hdecode : b64Decode text with
        | error e => exact .refused _
        | ok bytes =>
          exact .setting (.present hget (bind_asStr_eq_some_iff.mp htype)
            (bind_asStr_eq_some_iff.mp hvalue) ((b64Decode_eq_ok_iff laws).mp hdecode))

theorem extractTypedMessage_eq_ok_iff (laws : Base64Laws) {config : Json} {field : String}
    {setting : Option TypedMessage} :
    extractTypedMessage config field = .ok setting ↔ IsSetting config field setting := by
  constructor
  · intro h
    have hspec := extracted laws config field
    rw [h] at hspec
    cases hspec with
    | setting h => exact h
  · intro h
    unfold extractTypedMessage
    cases h with
    | missing missing => rw [missing]
    | present found type value encoded =>
      rw [found]
      simp only [bind_asStr_eq_some_iff.mpr type, bind_asStr_eq_some_iff.mpr value,
        (b64Decode_eq_ok_iff laws).mpr encoded]
      rfl

theorem extractTypedMessage_error (laws : Base64Laws) {config : Json} {field : String}
    {e : AppError} (h : extractTypedMessage config field = .error e) :
    ∃ msg, e = .unprocessableEntity msg := by
  have hspec := extracted laws config field
  rw [h] at hspec
  cases hspec with
  | refused msg => exact ⟨msg, rfl⟩

/-! ### Conversions -/

section Conversions

variable {C : Type} {mk : String → Option TypedMessage → Option TypedMessage → C}
  {first second : String} {config : Json}

/-- The conversion that reads the settings from two fields. -/
def convertConfig (mk : String → Option TypedMessage → Option TypedMessage → C)
    (first second : String) (v : Json) : Except AppError C := do
  let tag ← configTag v
  let a ← extractTypedMessage v first
  let b ← extractTypedMessage v second
  return mk tag a b

theorem convertConfig_eq_ok_iff (laws : Base64Laws) {c : C} :
    convertConfig mk first second config = .ok c ↔
      ∃ tag a b, IsConfig first second config tag a b ∧ c = mk tag a b := by
  unfold convertConfig
  simp only [bind_eq_ok_iff]
  constructor
  · rintro ⟨tag, htag, a, ha, b, hb, h⟩
    cases h
    exact ⟨tag, a, b, ⟨configTag_eq_ok_iff.mp htag, (extractTypedMessage_eq_ok_iff laws).mp ha,
      (extractTypedMessage_eq_ok_iff laws).mp hb⟩, rfl⟩
  · rintro ⟨tag, a, b, h, rfl⟩
    exact ⟨tag, configTag_eq_ok_iff.mpr h.tag, a, (extractTypedMessage_eq_ok_iff laws).mpr h.first,
      b, (extractTypedMessage_eq_ok_iff laws).mpr h.second, rfl⟩

theorem convertConfig_error (laws : Base64Laws) {e : AppError}
    (h : convertConfig mk first second config = .error e) : ∃ msg, e = .unprocessableEntity msg := by
  unfold convertConfig at h
  rcases bind_eq_error_iff.mp h with htag | ⟨tag, -, h⟩
  · exact configTag_error htag
  rcases bind_eq_error_iff.mp h with ha | ⟨a, -, h⟩
  · exact extractTypedMessage_error laws ha
  rcases bind_eq_error_iff.mp h with hb | ⟨b, -, h⟩
  · exact extractTypedMessage_error laws hb
  · cases h

end Conversions

/-! ### Handlers -/

/-- An operation that sends a message and drops the reply. -/
def command (method : String) (client : XrayClient) (message : Rpc) : Call Unit := do
  debugCall method client
  let _ ← orError (send client.channel (withApiToken (.new message) client.token))
  return ()

/-- The handler `run` sends `request tag a b` for a configuration with the tag and the settings,
reports the tag when the node takes it, and refuses every other document without sending
anything. -/
structure AddsConfig (run : Json → Call Response)
    (request : String → Option TypedMessage → Option TypedMessage → GrpcRequest)
    (action first second : String) : Prop where
  sends (config : Json) (r : GrpcRequest) :
    Sends (run config) r ↔ ∃ tag a b, IsConfig first second config tag a b ∧ r = request tag a b
  created {config : Json} {tag : String} {a b : Option TypedMessage}
    (h : IsConfig first second config tag a b) (answers : Answers)
    (reply : (request tag a b).rpc.Reply) (hreply : answers (.rpc (request tag a b)) = .ok reply) :
    answered answers (run config) =
      createdJson (operationResult action (.obj [("tag", .str tag)]))
  refused {config : Json} (h : ∀ tag a b, ¬IsConfig first second config tag a b) :
    (∀ r, ¬Sends (run config) r) ∧
      ∀ answers, ∃ msg, outcome answers (run config) = .error (.unprocessableEntity msg)

section Handlers

variable {C : Type} {client : XrayClient} {action method : String} {message : C → Rpc}
  {convert : Json → Except AppError C} {config : Json} {r : GrpcRequest}

theorem sends_addConfig (htag : (config.get "tag").isSome) :
    Sends (addConfig action convert (fun c => command method client (message c)) ⟨config⟩) r ↔
      ∃ c, convert config = .ok c ∧ r = client.request (message c) := by
  have hsome : (config.get "tag").isNone = false := by simpa using htag
  rw [addConfig, hsome]
  refine sends_ofResult_bind.trans (exists_congr fun c => and_congr_right fun _ => ?_)
  refine (sends_bind_iff_left fun _ => (calls_pure _ : Calls client 0 _)).trans ?_
  refine sends_debugCall_bind.trans ?_
  exact sends_send_bind fun _ => calls_pure _

theorem answered_addConfig {answers : Answers} {tag : String} {c : C}
    {reply : (message c).Reply} (htag : config.get "tag" = some (.str tag))
    (hconvert : convert config = .ok c)
    (hreply : answers (.rpc (client.request (message c))) = .ok reply) :
    answered answers
        (addConfig action convert (fun c => command method client (message c)) ⟨config⟩) =
      createdJson (operationResult action (.obj [("tag", .str tag)])) := by
  have hcommand : outcome answers (command method client (message c)) = .ok () :=
    outcome_operation answers hreply
  have houtcome : outcome answers
      (addConfig action convert (fun c => command method client (message c)) ⟨config⟩) =
        .ok (createdJson (operationResult action (.obj [("tag", .str tag)]))) := by
    rw [addConfig]
    dsimp only
    rw [htag, hconvert]
    show outcome answers (command method client (message c) >>= _) = _
    rw [outcome_bind, hcommand]
    rfl
  rw [answered_eq, houtcome]

theorem addConfig_of_error {msg : String}
    (hconvert : convert config = .error (.unprocessableEntity msg)) :
    ∃ msg', addConfig action convert (fun c => command method client (message c)) ⟨config⟩ =
      throw (.unprocessableEntity msg') := by
  unfold addConfig
  split
  · exact ⟨_, rfl⟩
  · refine ⟨msg, ?_⟩
    rw [hconvert]
    rfl

theorem addsConfig (laws : Base64Laws) (client : XrayClient) (action method : String)
    (message : C → Rpc) (mk : String → Option TypedMessage → Option TypedMessage → C)
    (first second : String) :
    AddsConfig
      (fun config => addConfig action (convertConfig mk first second)
        (fun c => command method client (message c)) ⟨config⟩)
      (fun tag a b => client.request (message (mk tag a b))) action first second := by
  have hconvert (config : Json) (c : C) : convertConfig mk first second config = .ok c ↔
      ∃ tag a b, IsConfig first second config tag a b ∧ c = mk tag a b :=
    convertConfig_eq_ok_iff laws
  have hsilent {e : AppError} {r : GrpcRequest} : ¬Sends (throw e : Call Response) r :=
    (calls_throw e : Calls client 0 _).not_sends
  have hrefused {config : Json} (h : ∀ tag a b, ¬IsConfig first second config tag a b) :
      ∃ msg, addConfig action (convertConfig mk first second)
        (fun c => command method client (message c)) ⟨config⟩ =
          throw (.unprocessableEntity msg) := by
    cases hresult : convertConfig mk first second config with
    | ok c =>
      obtain ⟨tag, a, b, hconfig, -⟩ := (hconvert config c).mp hresult
      exact absurd hconfig (h tag a b)
    | error e =>
      obtain ⟨msg, rfl⟩ := convertConfig_error laws hresult
      exact addConfig_of_error hresult
  constructor
  · intro config r
    by_cases h : ∃ tag a b, IsConfig first second config tag a b
    · obtain ⟨tag, a, b, hconfig⟩ := h
      refine (sends_addConfig (by simp [hconfig.tag.2])).trans ?_
      constructor
      · rintro ⟨c, hc, rfl⟩
        obtain ⟨tag, a, b, hconfig, rfl⟩ := (hconvert config c).mp hc
        exact ⟨tag, a, b, hconfig, rfl⟩
      · rintro ⟨tag, a, b, hconfig, rfl⟩
        exact ⟨_, (hconvert config _).mpr ⟨tag, a, b, hconfig, rfl⟩, rfl⟩
    · simp only [not_exists] at h
      obtain ⟨msg, hrun⟩ := hrefused h
      refine iff_of_false ?_ fun ⟨tag, a, b, hconfig, _⟩ => h tag a b hconfig
      rw [hrun]
      exact hsilent
  · intro config tag a b h answers reply hreply
    exact answered_addConfig h.tag.2 ((hconvert config _).mpr ⟨tag, a, b, h, rfl⟩) hreply
  · intro config h
    obtain ⟨msg, hrun⟩ := hrefused h
    rw [hrun]
    exact ⟨fun r => hsilent, fun answers => ⟨msg, rfl⟩⟩

end Handlers

/-- The base64 text of a setting is the encoding of the bytes that are read in it. -/
theorem IsSetting.reencode (laws : Base64Laws) {config : Json} {field : String} {m : TypedMessage}
    (h : IsSetting config field (some m)) :
    ∃ sub, config.get field = some sub ∧ HasString sub "type" m.type ∧
      HasString sub "value" (b64Encode m.value) := by
  cases h with
  | present found type value encoded =>
    rw [laws.encode, ← encoded]
    exact ⟨_, found, type, value⟩

/-- Both handlers of new configurations send exactly the documents of the grammar, as the messages
that they describe. -/
theorem addConfig_exact (laws : Base64Laws) (client : XrayClient) :
    AddsConfig (fun config => addInboundHandler.run client () ⟨config⟩)
      (fun tag a b => client.request
        (.addInbound (some { tag, receiverSettings := a, proxySettings := b })))
      "add-inbound" "receiver_settings" "proxy_settings" ∧
    AddsConfig (fun config => addOutboundHandler.run client () ⟨config⟩)
      (fun tag a b => client.request
        (.addOutbound (some { tag, senderSettings := a, proxySettings := b })))
      "add-outbound" "sender_settings" "proxy_settings" ∧
    ∀ config field m, IsSetting config field (some m) → ∃ sub, config.get field = some sub ∧
      HasString sub "type" m.type ∧ HasString sub "value" (b64Encode m.value) := by
  refine ⟨?_, ?_, fun config field m h => h.reencode laws⟩
  · exact addsConfig laws client "add-inbound" "AddInbound" (fun c => .addInbound (some c))
      (fun tag a b => { tag, receiverSettings := a, proxySettings := b }) _ _
  · exact addsConfig laws client "add-outbound" "AddOutbound" (fun c => .addOutbound (some c))
      (fun tag a b => { tag, senderSettings := a, proxySettings := b }) _ _

end

open Reference

/-- A configuration without receiver settings. -/
def proxyConfig : Json := .obj [("tag", .str "inbound"),
  ("proxy_settings", .obj [("type", .str "t"), ("value", .str "aGk=")])]

theorem addConfig_exact_proxy :
    Sends (addInboundHandler.run statsClient () ⟨proxyConfig⟩) (statsClient.request
      (.addInbound (some
        { tag := "inbound", proxySettings := some { type := "t", value := utf8 "hi" } }))) := by
  refine ((addConfig_exact base64Laws statsClient).1.sends proxyConfig _).mpr
    ⟨"inbound", none, some { type := "t", value := utf8 "hi" }, ?_, rfl⟩
  refine ⟨⟨⟨_, rfl⟩, rfl⟩, .missing rfl, ?_⟩
  exact .present rfl ⟨⟨_, rfl⟩, rfl⟩ ⟨⟨_, rfl⟩, rfl⟩ (by decide)

end XrayBridge
