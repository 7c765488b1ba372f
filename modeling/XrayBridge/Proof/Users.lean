import XrayBridge.Proof.Counters

/-! New users: what the node reads in the request of a body, and which bodies are sent. -/

namespace XrayBridge

open Platform HandlerService

/-! ### Names -/

/-- The names of the protocol files. -/
def SecurityType.name : SecurityType → String
  | .unknown => "UNKNOWN"
  | .auto => "AUTO"
  | .aes128Gcm => "AES128_GCM"
  | .chacha20Poly1305 => "CHACHA20_POLY1305"
  | .none => "NONE"
  | .zero => "ZERO"

/-- The type that a name in capitals asks for.  A type that is not set cannot be asked for. -/
def SecurityType.ofName (upper : String) : SecurityType :=
  ([.auto, .aes128Gcm, .chacha20Poly1305, .none, .zero].find? (·.name = upper)).getD .auto

def CipherType.name : CipherType → String
  | .unknown => "UNKNOWN"
  | .aes128Gcm => "AES_128_GCM"
  | .aes256Gcm => "AES_256_GCM"
  | .chacha20Poly1305 => "CHACHA20_POLY1305"
  | .xchacha20Poly1305 => "XCHACHA20_POLY1305"
  | .none => "NONE"

def CipherType.ofName (upper : String) : CipherType :=
  ([.aes128Gcm, .aes256Gcm, .chacha20Poly1305, .xchacha20Poly1305, .none].find?
    (·.name = upper)).getD .chacha20Poly1305

theorem SecurityType.toInt_injective : Function.Injective SecurityType.toInt := by
  intro a b h
  cases a <;> cases b <;> first | rfl | cases h

theorem CipherType.toInt_injective : Function.Injective CipherType.toInt := by
  intro a b h
  cases a <;> cases b <;> first | rfl | cases h

theorem SecurityType.fitsI32 (t : SecurityType) : FitsI32 t.toInt := by
  cases t <;> exact ⟨by decide, by decide⟩

theorem CipherType.fitsI32 (t : CipherType) : FitsI32 t.toInt := by
  cases t <;> exact ⟨by decide, by decide⟩

inductive Protocol where
  | vless
  | vmess
  | trojan
  | shadowsocks
  deriving DecidableEq

def Protocol.name : Protocol → String
  | .vless => "vless"
  | .vmess => "vmess"
  | .trojan => "trojan"
  | .shadowsocks => "shadowsocks"

def Protocol.ofName (name : String) : Option Protocol :=
  [.vless, .vmess, .trojan, .shadowsocks].find? (·.name = name)

theorem Protocol.ofName_eq_some_iff {name : String} {p : Protocol} :
    Protocol.ofName name = some p ↔ name = p.name := by
  constructor
  · intro h
    have hname := List.find?_some h
    exact (of_decide_eq_true hname).symm
  · rintro rfl
    cases p <;> rfl

theorem Protocol.name_injective : Function.Injective Protocol.name := by
  intro p q h
  cases p <;> cases q <;> first | rfl | exact absurd h (by decide)

def MessageKind.ofFullName (name : String) : Option MessageKind :=
  [.addUserOperation, .removeUserOperation, .vlessAccount, .vmessAccount, .trojanAccount,
    .shadowsocksAccount].find? (·.fullName = name)

theorem MessageKind.ofFullName_fullName (k : MessageKind) : ofFullName k.fullName = some k := by
  cases k <;> rfl

section

variable [Platform]

theorem vmessSecurityToInt_eq (name : String) :
    vmessSecurityToInt name = (SecurityType.ofName (toUppercase name)).toInt := by
  unfold vmessSecurityToInt
  generalize toUppercase name = upper
  dsimp only
  split_ifs with hauto haes hchacha hnone hzero
  · rw [hauto]
    rfl
  · rw [haes]
    rfl
  · rw [hchacha]
    rfl
  · rw [hnone]
    rfl
  · rw [hzero]
    rfl
  · simp [SecurityType.ofName, SecurityType.name, eq_comm (b := upper), *]

theorem ssCipherToInt_eq (name : String) :
    ssCipherToInt name = (CipherType.ofName (toUppercase name)).toInt := by
  unfold ssCipherToInt
  generalize toUppercase name = upper
  dsimp only
  split_ifs with haes128 haes256 hchacha hxchacha hnone
  · rw [haes128]
    rfl
  · rw [haes256]
    rfl
  · rw [hchacha]
    rfl
  · rw [hxchacha]
    rfl
  · rw [hnone]
    rfl
  · simp [CipherType.ofName, CipherType.name, eq_comm (b := upper), *]

/-! ### Bodies -/

namespace AddUserBody

variable (body : AddUserBody)

def protocol : Option Protocol := Protocol.ofName (toLowercase body.proto)

/-- The account of a body for a protocol, with all other fields at their defaults. -/
def account : Protocol → Sigma MessageKind.Payload
  | .vless =>
    ⟨.vlessAccount,
      ({ id := body.uuid, flow := body.flow, encryption := "none" } : VlessAccount)⟩
  | .vmess =>
    ⟨.vmessAccount,
      ({ id := body.uuid
         securitySettings := some
          { type := (SecurityType.ofName (toUppercase body.vmessSecurity)).toInt } } :
        VmessAccount)⟩
  | .trojan => ⟨.trojanAccount, ({ password := body.password } : TrojanAccount)⟩
  | .shadowsocks =>
    ⟨.shadowsocksAccount,
      ({ password := body.password
         cipherType := (CipherType.ofName (toUppercase body.ssCipher)).toInt } :
        ShadowsocksAccount)⟩

/-- What a protocol authenticates a user with. -/
def credential : Protocol → String
  | .vless | .vmess => body.uuid
  | .trojan | .shadowsocks => body.password

end AddUserBody

/-- A message with the name of its type. -/
def typed (m : Sigma MessageKind.Payload) : TypedMessage :=
  { type := m.1.fullName, value := encodeToVec m.1 m.2 }

/-- What `build_account_typed_message` makes of a body: the account of its protocol, or an error if
there is no such protocol or no password for a protocol that checks it. -/
inductive Built (body : AddUserBody) : Except AppError TypedMessage → Prop where
  | account {p : Protocol} (protocol : body.protocol = some p)
      (checked : p = .trojan ∨ p = .shadowsocks → body.password ≠ "") :
      Built body (.ok (typed (body.account p)))
  | noPassword {p : Protocol} {msg : String} (protocol : body.protocol = some p)
      (checked : p = .trojan ∨ p = .shadowsocks) (missing : body.password = "") :
      Built body (.error (.unprocessableEntity msg))
  | unknown {msg : String} (protocol : body.protocol = none) :
      Built body (.error (.unprocessableEntity msg))

theorem built (body : AddUserBody) :
    Built body (buildAccountTypedMessage (toLowercase body.proto) body.uuid body.flow
      body.vmessSecurity body.password body.ssCipher) := by
  have hprotocol {p : Protocol} (h : toLowercase body.proto = p.name) : body.protocol = some p :=
    Protocol.ofName_eq_some_iff.mpr h
  unfold buildAccountTypedMessage
  split_ifs with hvless hvmess htrojan hempty hshadowsocks hempty
  · exact .account (hprotocol (p := .vless) hvless) nofun
  · rw [vmessSecurityToInt_eq]
    exact .account (hprotocol (p := .vmess) hvmess) nofun
  · exact .noPassword (hprotocol (p := .trojan) htrojan) (Or.inl rfl) (String.isEmpty_iff.mp hempty)
  · exact .account (hprotocol (p := .trojan) htrojan) fun _ => mt String.isEmpty_iff.mpr hempty
  · exact .noPassword (hprotocol (p := .shadowsocks) hshadowsocks) (Or.inr rfl)
      (String.isEmpty_iff.mp hempty)
  · rw [ssCipherToInt_eq]
    exact .account (hprotocol (p := .shadowsocks) hshadowsocks) fun _ =>
      mt String.isEmpty_iff.mpr hempty
  · refine .unknown (Option.eq_none_iff_forall_ne_some.mpr fun p hp => ?_)
    have hname := Protocol.ofName_eq_some_iff.mp hp
    cases p with
    | vless => exact hvless hname
    | vmess => exact hvmess hname
    | trojan => exact htrojan hname
    | shadowsocks => exact hshadowsocks hname

/-! ### Requests -/

/-- The request that adds a user with an account. -/
def AddUserBody.request (body : AddUserBody) (account : TypedMessage) : AlterInboundRequest where
  tag := body.tag
  operation := some (typed ⟨.addUserOperation,
    ({ user := some { level := body.level, email := body.email, account := some account } } :
      AddUserOperation)⟩)

theorem sends_add {client : XrayClient} {body : AddUserBody} {r : GrpcRequest} :
    Sends (body.add client) r ↔
      ∃ account, buildAccountTypedMessage (toLowercase body.proto) body.uuid body.flow
          body.vmessSecurity body.password body.ssCipher = .ok account ∧
        r = client.request (.alterInbound (body.request account)) := by
  unfold AddUserBody.add addUser
  rw [sends_debugCall_bind, sends_ofResult_bind]
  refine exists_congr fun account => and_congr_right fun _ => ?_
  have hnext (reply : Unit) : Calls client 0 (pure () : Call Unit) := calls_pure ()
  exact (sends_send_bind hnext : _ ↔ r = client.request (.alterInbound (body.request account)))

/-- The handler sends what the operation sends. -/
theorem sends_addUserHandler {client : XrayClient} {body : AddUserBody} {r : GrpcRequest} :
    Sends (addUserHandler.run client () body) r ↔ Sends (body.add client) r :=
  sends_bind_iff_left fun _ => (calls_pure _ : Calls client 0 _)

theorem outcome_add_error {answers : Answers} {client : XrayClient} {body : AddUserBody}
    {e : AppError}
    (h : buildAccountTypedMessage (toLowercase body.proto) body.uuid body.flow
      body.vmessSecurity body.password body.ssCipher = .error e) :
    outcome answers (body.add client) = .error e := by
  unfold AddUserBody.add addUser
  rw [h]
  rfl

theorem exists_protocol {client : XrayClient} {body : AddUserBody} {r : GrpcRequest}
    (h : Sends (body.add client) r) :
    ∃ p, body.protocol = some p ∧
      r = client.request (.alterInbound (body.request (typed (body.account p)))) := by
  obtain ⟨account, hbuilt, rfl⟩ := sends_add.mp h
  have hspec := built body
  rw [hbuilt] at hspec
  cases hspec with
  | account protocol => exact ⟨_, protocol, rfl⟩

/-- The message of a `TypedMessage`, decoded as what its type names. -/
def decodeTyped (m : TypedMessage) : Option (Sigma MessageKind.Payload) := do
  let k ← MessageKind.ofFullName m.type
  return ⟨k, ← decode k m.value⟩

/-- What a node reads in a request that adds a user. -/
structure AddedUser where
  tag : String
  level : UInt32
  email : String
  account : Sigma MessageKind.Payload

def AlterInboundRequest.addedUser (request : AlterInboundRequest) : Option AddedUser :=
  match request.operation.bind decodeTyped with
  | some ⟨.addUserOperation, (operation : AddUserOperation)⟩ => do
    let user ← operation.user
    let account ← user.account.bind decodeTyped
    return { tag := request.tag, level := user.level, email := user.email, account }
  | _ => none

def AddUserBody.added (body : AddUserBody) (p : Protocol) : AddedUser :=
  { tag := body.tag, level := body.level, email := body.email, account := body.account p }

theorem decodeTyped_typed (laws : ProstLaws) {m : Sigma MessageKind.Payload}
    (h : m.1.Representable m.2) : decodeTyped (typed m) = some m := by
  rw [decodeTyped, typed, MessageKind.ofFullName_fullName, Option.bind_eq_bind, Option.bind_some,
    laws.decode_encode m.1 m.2 h]
  rfl

theorem representable_account (body : AddUserBody) (p : Protocol) :
    (body.account p).1.Representable (body.account p).2 := by
  cases p with
  | vmess =>
    intro c hc
    cases hc
    exact SecurityType.fitsI32 _
  | shadowsocks => exact CipherType.fitsI32 _
  | _ => trivial

theorem addedUser_request (laws : ProstLaws) (body : AddUserBody) (p : Protocol) :
    (body.request (typed (body.account p))).addedUser = some (body.added p) := by
  have haccount := decodeTyped_typed laws (representable_account body p)
  have hoperation : (body.request (typed (body.account p))).operation.bind decodeTyped = some _ :=
    decodeTyped_typed laws (m := ⟨.addUserOperation, _⟩) trivial
  rw [AlterInboundRequest.addedUser, hoperation]
  show ((some (typed (body.account p))).bind decodeTyped).bind _ = _
  rw [Option.bind_some, haccount]
  rfl

/-- The bodies give the same values to the fields that a protocol uses. -/
def SameFields (a b : AddUserBody) : Protocol → Prop
  | .vless => a.uuid = b.uuid ∧ a.flow = b.flow
  | .vmess => a.uuid = b.uuid ∧
      SecurityType.ofName (toUppercase a.vmessSecurity) =
        SecurityType.ofName (toUppercase b.vmessSecurity)
  | .trojan => a.password = b.password
  | .shadowsocks => a.password = b.password ∧
      CipherType.ofName (toUppercase a.ssCipher) = CipherType.ofName (toUppercase b.ssCipher)

theorem account_kind_inj {a b : AddUserBody} {p q : Protocol}
    (h : (a.account p).1 = (b.account q).1) : p = q := by
  cases p <;> cases q <;> first | rfl | cases h

theorem account_eq_iff {a b : AddUserBody} {p q : Protocol} :
    a.account p = b.account q ↔ p = q ∧ SameFields a b p := by
  constructor
  · intro h
    obtain rfl := account_kind_inj (congrArg Sigma.fst h)
    refine ⟨rfl, ?_⟩
    cases p with
    | vless =>
      obtain ⟨hid, hflow, -⟩ := VlessAccount.mk.inj (eq_of_heq (Sigma.mk.inj h).2)
      exact ⟨hid, hflow⟩
    | vmess =>
      obtain ⟨hid, hsettings, -⟩ := VmessAccount.mk.inj (eq_of_heq (Sigma.mk.inj h).2)
      have htype := SecurityConfig.mk.inj (Option.some.inj hsettings)
      exact ⟨hid, SecurityType.toInt_injective htype⟩
    | trojan => exact TrojanAccount.mk.inj (eq_of_heq (Sigma.mk.inj h).2)
    | shadowsocks =>
      obtain ⟨hpassword, hcipher, -⟩ :=
        ShadowsocksAccount.mk.inj (eq_of_heq (Sigma.mk.inj h).2)
      exact ⟨hpassword, CipherType.toInt_injective hcipher⟩
  · rintro ⟨rfl, h⟩
    cases p with
    | trojan =>
      have hpassword : a.password = b.password := h
      rw [AddUserBody.account, hpassword]
      rfl
    | _ =>
      rw [AddUserBody.account, h.1, h.2]
      rfl

/-- The bodies describe the same user. -/
def SameUser (a b : AddUserBody) : Prop :=
  a.tag = b.tag ∧ a.level = b.level ∧ a.email = b.email ∧
    toLowercase a.proto = toLowercase b.proto ∧ ∀ p, a.protocol = some p → SameFields a b p

theorem request_eq_iff (laws : ProstLaws) {a b : AddUserBody} {p q : Protocol}
    (ha : a.protocol = some p) (hb : b.protocol = some q) :
    a.request (typed (a.account p)) = b.request (typed (b.account q)) ↔ SameUser a b := by
  have hproto : toLowercase a.proto = toLowercase b.proto ↔ p = q := by
    rw [Protocol.ofName_eq_some_iff.mp ha, Protocol.ofName_eq_some_iff.mp hb]
    exact Protocol.name_injective.eq_iff
  have hfields : (∀ p', a.protocol = some p' → SameFields a b p') ↔ SameFields a b p := by
    rw [ha]
    simp
  rw [SameUser, hproto, hfields, ← account_eq_iff]
  constructor
  · intro h
    -- Both sides are what a node reads in the request.
    have hadded := congrArg AlterInboundRequest.addedUser h
    rw [addedUser_request laws, addedUser_request laws, Option.some.injEq] at hadded
    simpa [AddUserBody.added] using hadded
  · rintro ⟨htag, hlevel, hemail, haccount⟩
    rw [AddUserBody.request, htag, hlevel, hemail, haccount]
    rfl

/-- A node that decodes the request of a body reads exactly the tag, the level, the email and the
account of the body's protocol, and two bodies make the same request exactly when they agree on
these and on the fields that the protocol uses.  The request is the one that the handler sends. -/
theorem addUser_faithful (laws : ProstLaws) (client client' : XrayClient) :
    (∀ (body : AddUserBody) r, Sends (body.add client) r →
      ∃ request p, r = client.request (.alterInbound request) ∧
        toLowercase body.proto = p.name ∧ request.addedUser = some (body.added p)) ∧
    (∀ (a b : AddUserBody) x y, Sends (a.add client) (client.request (.alterInbound x)) →
      Sends (b.add client') (client'.request (.alterInbound y)) → (x = y ↔ SameUser a b)) ∧
    ∀ (body : AddUserBody) r,
      Sends (addUserHandler.run client () body) r ↔ Sends (body.add client) r := by
  refine ⟨?_, ?_, fun body r => sends_addUserHandler⟩
  · intro body r hsends
    obtain ⟨p, hp, rfl⟩ := exists_protocol hsends
    exact ⟨_, p, rfl, Protocol.ofName_eq_some_iff.mp hp, addedUser_request laws body p⟩
  · intro a b x y ha hb
    obtain ⟨p, hp, hx⟩ := exists_protocol ha
    obtain ⟨q, hq, hy⟩ := exists_protocol hb
    cases congrArg GrpcRequest.rpc hx
    cases congrArg GrpcRequest.rpc hy
    exact request_eq_iff laws hp hq

/-! ### Credentials -/

/-- The body names a protocol and has what that protocol authenticates the user with. -/
def HasCredential (body : AddUserBody) : Prop :=
  ∃ p, body.protocol = some p ∧ body.credential p ≠ ""

/-- The credential in the account that a node reads. -/
def AddedUser.credential (user : AddedUser) : String :=
  match user.account with
  | ⟨.vlessAccount, (m : VlessAccount)⟩ => m.id
  | ⟨.vmessAccount, (m : VmessAccount)⟩ => m.id
  | ⟨.trojanAccount, (m : TrojanAccount)⟩ => m.password
  | ⟨.shadowsocksAccount, (m : ShadowsocksAccount)⟩ => m.password
  | _ => ""

/-- A body is sent exactly when it has a credential, is refused otherwise, and no node reads an
account without one. -/
structure ChecksCredential (client : XrayClient) (body : AddUserBody) : Prop where
  sends : (∃ request, Sends (body.add client) (client.request (.alterInbound request))) ↔
    HasCredential body
  refused : ¬HasCredential body → (∀ r, ¬Sends (body.add client) r) ∧
    ∀ answers, ∃ msg, outcome answers (body.add client) = .error (.unprocessableEntity msg)
  received : ∀ request user, Sends (body.add client) (client.request (.alterInbound request)) →
    request.addedUser = some user → user.credential ≠ ""

theorem credential_added (body : AddUserBody) (p : Protocol) :
    (body.added p).credential = body.credential p := by
  cases p <;> rfl

theorem hasCredential_iff {body : AddUserBody} {p : Protocol} (h : body.protocol = some p) :
    HasCredential body ↔ body.credential p ≠ "" := by
  rw [HasCredential, h]
  simp

theorem checksCredential_of_error {client : XrayClient} {body : AddUserBody} {msg : String}
    (hbuilt : buildAccountTypedMessage (toLowercase body.proto) body.uuid body.flow
      body.vmessSecurity body.password body.ssCipher = .error (.unprocessableEntity msg))
    (hnone : ¬HasCredential body) : ChecksCredential client body := by
  have hsilent (r : GrpcRequest) : ¬Sends (body.add client) r := by
    rw [sends_add, hbuilt]
    rintro ⟨account, h, -⟩
    cases h
  constructor
  · exact iff_of_false (fun ⟨request, h⟩ => hsilent _ h) hnone
  · intro _
    exact ⟨hsilent, fun answers => ⟨msg, outcome_add_error hbuilt⟩⟩
  · intro request user h
    exact absurd h (hsilent _)

theorem checksCredential_of_ok (laws : ProstLaws) {client : XrayClient} {body : AddUserBody}
    {p : Protocol} (hprotocol : body.protocol = some p)
    (hbuilt : buildAccountTypedMessage (toLowercase body.proto) body.uuid body.flow
      body.vmessSecurity body.password body.ssCipher = .ok (typed (body.account p)))
    (hcredential : body.credential p ≠ "") : ChecksCredential client body := by
  have hhas : HasCredential body := ⟨p, hprotocol, hcredential⟩
  constructor
  · exact iff_of_true ⟨_, sends_add.mpr ⟨_, hbuilt, rfl⟩⟩ hhas
  · intro hnone
    exact absurd hhas hnone
  · intro request user hsends hread
    obtain ⟨q, hq, hrequest⟩ := exists_protocol hsends
    rw [hprotocol] at hq
    cases hq
    cases congrArg GrpcRequest.rpc hrequest
    rw [addedUser_request laws] at hread
    cases hread
    rwa [credential_added]

/-- The handler answers a body that is refused with a 422, and sends nothing. -/
theorem ChecksCredential.handler_refuses {client : XrayClient} {body : AddUserBody}
    (h : ChecksCredential client body) (hnone : ¬HasCredential body) :
    (∀ r, ¬Sends (addUserHandler.run client () body) r) ∧
      ∀ answers, (answered answers (addUserHandler.run client () body)).status = 422 := by
  obtain ⟨hsilent, hrefused⟩ := h.refused hnone
  refine ⟨fun r hsends => hsilent r (sends_addUserHandler.mp hsends), fun answers => ?_⟩
  obtain ⟨msg, hmsg⟩ := hrefused answers
  have houtcome : outcome answers (addUserHandler.run client () body) =
      .error (.unprocessableEntity msg) := by
    show outcome answers (body.add client >>= _) = _
    rw [outcome_bind, hmsg]
    rfl
  rw [answered_eq, houtcome]
  rfl

theorem usesUuid_iff {body : AddUserBody} :
    toLowercase body.proto = "vless" ∨ toLowercase body.proto = "vmess" ↔
      body.protocol = some .vless ∨ body.protocol = some .vmess := by
  rw [AddUserBody.protocol, Protocol.ofName_eq_some_iff, Protocol.ofName_eq_some_iff]
  rfl

/-- The check misses exactly the bodies of the protocols that authenticate with a UUID and have
none. -/
theorem checksCredential_iff (laws : ProstLaws) (client : XrayClient) (body : AddUserBody) :
    ChecksCredential client body ↔
      (toLowercase body.proto = "vless" ∨ toLowercase body.proto = "vmess" → body.uuid ≠ "") := by
  rw [usesUuid_iff]
  have hspec := built body
  generalize hbuilt : buildAccountTypedMessage (toLowercase body.proto) body.uuid body.flow
    body.vmessSecurity body.password body.ssCipher = result at hspec
  cases hspec with
  | @account p protocol checked =>
    have hcredential : (body.protocol = some .vless ∨ body.protocol = some .vmess →
        body.uuid ≠ "") ↔ body.credential p ≠ "" := by
      rw [protocol]
      cases p with
      | vless | vmess => simp [AddUserBody.credential]
      | trojan | shadowsocks => simpa [AddUserBody.credential] using checked
    rw [hcredential]
    constructor
    · intro h
      rw [← hasCredential_iff protocol]
      exact h.sends.mp ⟨_, sends_add.mpr ⟨_, hbuilt, rfl⟩⟩
    · exact checksCredential_of_ok laws protocol hbuilt
  | @noPassword p msg protocol checked missing =>
    refine iff_of_true (checksCredential_of_error hbuilt ?_) ?_
    · rw [hasCredential_iff protocol]
      rcases checked with rfl | rfl <;> exact not_not.mpr missing
    · rw [protocol]
      rcases checked with rfl | rfl <;> simp
  | unknown protocol =>
    refine iff_of_true (checksCredential_of_error hbuilt ?_) ?_
    · rintro ⟨p, hp, -⟩
      rw [protocol] at hp
      cases hp
    · rw [protocol]
      simp

end

open Reference

/-- A body in capitals. -/
def capitalBody : AddUserBody := { vlessBody "a" with proto := "VLESS", uuid := "id" }

theorem addUser_faithful_capitals :
    (capitalBody.request (typed (capitalBody.account .vless))).addedUser =
      some (capitalBody.added .vless) := by
  obtain ⟨request, p, hrequest, hproto, hadded⟩ :=
    (addUser_faithful prostLaws statsClient statsClient).1 capitalBody _
      (sends_add.mpr ⟨_, rfl, rfl⟩)
  have hp : Protocol.vless = p := Protocol.name_injective hproto
  cases congrArg GrpcRequest.rpc hrequest
  rw [← hp] at hadded
  exact hadded

/-- The defaults of a body that gives a tag and an email only. -/
theorem not_checksCredential :
    AddUserBody.deserialize (.obj [("tag", .str "inbound"), ("email", .str "a")]) =
      some (vlessBody "a") ∧ ¬ChecksCredential statsClient (vlessBody "a") := by
  refine ⟨by rfl, fun h => ?_⟩
  obtain ⟨p, hp, hcredential⟩ := h.sends.mp ⟨_, sends_add.mpr ⟨_, rfl, rfl⟩⟩
  have hvless : (vlessBody "a").protocol = some .vless := by decide
  rw [hvless] at hp
  cases hp
  exact hcredential rfl

theorem checksCredential_capitals : ChecksCredential statsClient capitalBody :=
  (checksCredential_iff prostLaws statsClient capitalBody).mpr fun _ => by decide

end XrayBridge
