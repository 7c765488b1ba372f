import XrayBridge.Proof.Bearer

/-! The bridge tokens that the program starts with, and the requests that present them. -/

namespace XrayBridge

open Platform

/-! ### Startup -/

/-- The program starts exactly with a token that is text and not empty; whatever the port is, it is
no obstacle. -/
theorem fromEnv_eq_ok_iff {env : String → EnvVar} {settings : Settings} :
    Settings.fromEnv env = .ok settings ↔
      env "BRIDGE_TOKEN" = .present settings.bridgeToken ∧ settings.bridgeToken ≠ "" ∧
        settings.port = ((env "PORT").value.bind parseU16).getD 8080 := by
  obtain ⟨bridgeToken, port⟩ := settings
  unfold Settings.fromEnv
  cases henv : env "BRIDGE_TOKEN" with
  | notPresent | notUnicode => simp [EnvVar.value]
  | present value =>
    simp only [EnvVar.value, EnvVar.present.injEq]
    split
    · rename_i hempty
      refine iff_of_false nofun ?_
      rintro ⟨rfl, hnonempty, -⟩
      exact hnonempty (String.isEmpty_iff.mp hempty)
    · rename_i hnonempty
      rw [Except.ok.injEq, Settings.mk.injEq]
      rw [String.isEmpty_iff] at hnonempty
      constructor
      · rintro ⟨rfl, rfl⟩
        exact ⟨rfl, hnonempty, rfl⟩
      · rintro ⟨rfl, -, rfl⟩
        exact ⟨rfl, rfl⟩

/-! ### Presented tokens -/

/-- The header value that presents a token. -/
def presented (token : String) : Bytes := utf8 "Bearer " ++ utf8 token

/-- What HTTP lets a header value consist of: no control characters other than the tab. -/
def IsHeaderValue (v : Bytes) : Prop := ∀ b ∈ v, (32 ≤ b ∨ b = 9) ∧ b ≠ 127

section

variable [Platform]

/-- The token of an environment can be used: a request that presents it in a header value is
accepted, and a token that no header value presents is refused at startup. -/
structure TokenUsable (env : String → EnvVar) : Prop where
  accepted : ∀ settings headers, Settings.fromEnv env = .ok settings →
    headers.get "authorization" = some (presented settings.bridgeToken) →
      IsHeaderValue (presented settings.bridgeToken) → bearerAuth settings headers = .ok ()
  refused : ∀ token, env "BRIDGE_TOKEN" = .present token → ¬IsHeaderValue (presented token) →
    ∃ msg, Settings.fromEnv env = .error msg

/-- A readable value is a header value. -/
theorem isHeaderValue_of_toStr (laws : HeaderLaws) {v : Bytes} {s : String}
    (h : toStr v = some s) : IsHeaderValue v := by
  intro b hb
  have hvisible := List.all_eq_true.mp ((laws.toStr_iff v s).mp h).1 b hb
  rcases visibleByte_iff.mp hvisible with ⟨hlow, hhigh⟩ | rfl
  · refine ⟨Or.inl hlow, ?_⟩
    rintro rfl
    exact absurd hhigh (by decide)
  · exact ⟨Or.inr rfl, by decide⟩

/-- The bridge token of every request that authenticates consists of visible characters. -/
theorem visible_of_bearerAuth (laws : HeaderLaws) {settings : Settings} {headers : Headers}
    (h : bearerAuth settings headers = .ok ()) :
    settings.bridgeToken.toList.all visibleChar = true := by
  obtain ⟨v, start, -, -, hstr, -⟩ := (bearerAuth_eq_ok_iff_toStr laws).mp h
  have hvisible := visible_of_toStr laws hstr
  rw [String.toList_append, List.all_append, Bool.and_eq_true] at hvisible
  exact hvisible.2

/-- The header value of a visible token is read back as the text that it encodes. -/
theorem toStr_presented (laws : HeaderLaws) {token : String}
    (h : token.toList.all visibleChar = true) :
    toStr (presented token) = some ("Bearer " ++ token) := by
  rw [presented, ← utf8_append]
  apply toStr_of_visible laws
  rw [String.toList_append, List.all_append, h, Bool.and_true]
  decide

theorem bearerAuth_presented (laws : HeaderLaws) {settings : Settings} {headers : Headers}
    (hnonempty : settings.bridgeToken ≠ "")
    (hget : headers.get "authorization" = some (presented settings.bridgeToken))
    (hvisible : settings.bridgeToken.toList.all visibleChar = true) :
    bearerAuth settings headers = .ok () :=
  (bearerAuth_eq_ok_iff_toStr laws).mpr
    ⟨_, "Bearer ", hget, by decide +kernel, toStr_presented laws hvisible, hnonempty⟩

/-- The token of an environment can be used exactly when all its characters are visible. -/
theorem tokenUsable_iff (laws : HeaderLaws) (env : String → EnvVar) :
    TokenUsable env ↔ ∀ token, env "BRIDGE_TOKEN" = .present token →
      token.toList.all visibleChar = true := by
  constructor
  · intro h token henv
    -- The program does not start with the empty token, and every other one has to be accepted.
    by_cases hempty : token = ""
    · rw [hempty]
      rfl
    obtain ⟨settings, hstarts, rfl⟩ : ∃ settings, Settings.fromEnv env = .ok settings ∧
        settings.bridgeToken = token :=
      ⟨⟨token, _⟩, fromEnv_eq_ok_iff.mpr ⟨henv, hempty, rfl⟩, rfl⟩
    have hvalue : IsHeaderValue (presented settings.bridgeToken) := by
      by_contra hnot
      obtain ⟨msg, herror⟩ := h.refused _ henv hnot
      rw [hstarts] at herror
      cases herror
    exact visible_of_bearerAuth laws
      (h.accepted settings [("authorization", presented settings.bridgeToken)] hstarts rfl hvalue)
  · intro hvisible
    constructor
    case accepted =>
      intro settings headers hstarts hget _
      obtain ⟨henv, hnonempty, -⟩ := fromEnv_eq_ok_iff.mp hstarts
      exact bearerAuth_presented laws hnonempty hget (hvisible _ henv)
    case refused =>
      intro token henv hnot
      exact absurd (isHeaderValue_of_toStr laws (toStr_presented laws (hvisible token henv))) hnot

end

open Reference

/-- An environment with a bridge token only. -/
def tokenEnv (token : String) (name : String) : EnvVar :=
  if name = "BRIDGE_TOKEN" then .present token else .notPresent

/-- The program starts with a token that has a letter outside ASCII, and does not accept it.  It
also starts with a token of two lines, which no header value presents. -/
theorem not_tokenUsable_accented :
    ¬TokenUsable (tokenEnv "café") ∧ ¬TokenUsable (tokenEnv "two\nlines") := by
  refine ⟨fun h => ?_, fun h => ?_⟩
  · have haccepted := h.accepted ⟨"café", 8080⟩ [("authorization", presented "café")] rfl rfl
      (by unfold IsHeaderValue; decide +kernel)
    have hrejected : bearerAuth ⟨"café", 8080⟩ [("authorization", presented "café")] =
        .error (.app missingAuthorization) := rfl
    rw [hrejected] at haccepted
    cases haccepted
  · obtain ⟨msg, herror⟩ := h.refused "two\nlines" rfl (by unfold IsHeaderValue; decide +kernel)
    cases herror

theorem tokenUsable_secret : TokenUsable (tokenEnv "secret") :=
  (tokenUsable_iff headerLaws _).mpr fun token htoken => by
    cases EnvVar.present.inj htoken
    decide

end XrayBridge
