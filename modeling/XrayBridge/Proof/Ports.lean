import Mathlib.Data.Nat.Digits.Defs
import XrayBridge.Proof.Bearer

/-! The port of a request: which values of the `X-Node-Port` header name a port, and what becomes
of the others. -/

namespace XrayBridge

open Platform XrayClientCache

/-! ### Numerals -/

/-- The numerals of a port: an optional plus sign and one or more decimal digits. -/
def IsNumeral (s : String) (port : UInt16) : Prop :=
  ∃ sign ∈ ["", "+"], ∃ digits : List Nat, digits ≠ [] ∧ (∀ d ∈ digits, d < 10) ∧
    s = sign ++ String.ofList (digits.map Nat.digitChar) ∧
    Nat.ofDigits 10 digits.reverse = port.toNat

theorem digitChar_spec {d : Nat} (h : d < 10) :
    d.digitChar.isDigit = true ∧ d.digitChar.toNat - '0'.toNat = d ∧ d.digitChar ≠ '+' ∧
      visibleChar d.digitChar = true := by
  have hall : ∀ d < 10, d.digitChar.isDigit = true ∧ d.digitChar.toNat - '0'.toNat = d ∧
      d.digitChar ≠ '+' ∧ visibleChar d.digitChar = true := by
    decide
  exact hall d h

theorem exists_digitChar {c : Char} (h : c.isDigit = true) : ∃ d < 10, d.digitChar = c := by
  rw [Char.isDigit, Bool.and_eq_true, decide_eq_true_eq, decide_eq_true_eq] at h
  have hall : ∀ n < 10, (n.digitChar).toNat = 48 + n := by decide
  have hlow : 48 ≤ c.toNat := UInt32.le_iff_toNat_le.mp h.1
  have hhigh : c.toNat ≤ 57 := UInt32.le_iff_toNat_le.mp h.2
  refine ⟨c.toNat - 48, by omega, Char.toNat_inj.mp ?_⟩
  rw [hall _ (by omega)]
  omega

theorem exists_digits {chars : List Char} (h : chars.all Char.isDigit = true) :
    ∃ digits : List Nat, (∀ d ∈ digits, d < 10) ∧ chars = digits.map Nat.digitChar := by
  induction chars with
  | nil => exact ⟨[], by simp, rfl⟩
  | cons c chars ih =>
    rw [List.all_cons, Bool.and_eq_true] at h
    obtain ⟨d, hd, rfl⟩ := exists_digitChar h.1
    obtain ⟨digits, hdigits, rfl⟩ := ih h.2
    exact ⟨d :: digits, by simpa using ⟨hd, hdigits⟩, rfl⟩

theorem decimalValue_digits {digits : List Nat} (h : ∀ d ∈ digits, d < 10) :
    decimalValue (digits.map Nat.digitChar) = Nat.ofDigits 10 digits.reverse := by
  induction digits using List.reverseRecOn with
  | nil => rfl
  | append_singleton digits d ih =>
    have ih := ih fun d hd => h d (List.mem_append_left _ hd)
    have hd := (digitChar_spec (h d (by simp))).2.1
    rw [decimalValue] at ih
    rw [decimalValue, List.map_append, List.foldl_append, ih, List.reverse_append]
    simp only [List.map_cons, List.map_nil, List.foldl_cons, List.foldl_nil, hd,
      List.reverse_singleton, List.singleton_append, Nat.ofDigits_cons]
    omega

theorem parseDigits_iff {chars : List Char} {port : UInt16} :
    (if chars.isEmpty || !chars.all Char.isDigit then none
      else if decimalValue chars < 65536 then some (UInt16.ofNat (decimalValue chars))
      else none) = some port ↔
    ∃ digits : List Nat, digits ≠ [] ∧ (∀ d ∈ digits, d < 10) ∧
      chars = digits.map Nat.digitChar ∧ Nat.ofDigits 10 digits.reverse = port.toNat := by
  constructor
  · intro h
    rw [Option.ite_none_left_eq_some, Option.ite_none_right_eq_some] at h
    obtain ⟨hchars, hlt, hport⟩ := h
    rw [Bool.or_eq_true, not_or, Bool.not_eq_true, Bool.not_eq_true, Bool.not_eq_false'] at hchars
    obtain ⟨digits, hdigits, rfl⟩ := exists_digits hchars.2
    refine ⟨digits, ?_, hdigits, rfl, ?_⟩
    · rintro rfl
      exact absurd hchars.1 (by decide)
    · rw [← decimalValue_digits hdigits, ← Option.some.inj hport, UInt16.toNat_ofNat_of_lt' hlt]
  · rintro ⟨digits, hne, hdigits, rfl, hvalue⟩
    have hall : (digits.map Nat.digitChar).all Char.isDigit = true := by
      rw [List.all_map, List.all_eq_true]
      intro d hd
      exact (digitChar_spec (hdigits d hd)).1
    have hempty : (digits.map Nat.digitChar).isEmpty = false := by
      rw [List.isEmpty_eq_false_iff]
      simpa using hne
    rw [hall, hempty, decimalValue_digits hdigits, hvalue]
    rw [if_neg (by decide), if_pos port.toNat_lt, UInt16.ofNat_toNat]

theorem parseU16_eq_some_iff {s : String} {port : UInt16} :
    parseU16 s = some port ↔ IsNumeral s port := by
  unfold parseU16
  dsimp only
  rw [parseDigits_iff]
  constructor
  · rintro ⟨digits, hne, hdigits, hchars, hvalue⟩
    split at hchars
    · rename_i rest hs
      refine ⟨"+", by decide, digits, hne, hdigits, ?_, hvalue⟩
      apply String.toList_inj.mp
      rw [hs, hchars, String.toList_append]
      exact congrArg _ String.toList_ofList.symm
    · refine ⟨"", by decide, digits, hne, hdigits, ?_, hvalue⟩
      rw [← hchars, String.ofList_toList, String.empty_append]
  · rintro ⟨sign, hsign, digits, hne, hdigits, rfl, hvalue⟩
    refine ⟨digits, hne, hdigits, ?_, hvalue⟩
    rw [String.toList_append, String.toList_ofList]
    rcases List.mem_cons.mp hsign with rfl | hsign
    · split
      · rename_i rest hs
        cases digits with
        | nil => exact absurd rfl hne
        | cons d digits =>
          have hplus := (digitChar_spec (hdigits d List.mem_cons_self)).2.2.1
          exact absurd (List.cons.inj hs).1 hplus
      · rfl
    · rw [List.mem_singleton.mp hsign]
      rfl

theorem IsNumeral.visible {s : String} {port : UInt16} (h : IsNumeral s port) :
    s.toList.all visibleChar = true := by
  obtain ⟨sign, hsign, digits, -, hdigits, rfl, -⟩ := h
  rw [String.toList_append, String.toList_ofList, List.all_append, List.all_map, Bool.and_eq_true,
    List.all_eq_true (l := digits)]
  refine ⟨?_, fun d hd => (digitChar_spec (hdigits d hd)).2.2.2⟩
  revert hsign
  revert sign
  decide

/-- The ports that a request names: the numeral of its first `X-Node-Port`, and 443 where that is
missing, unreadable or no numeral of a port. -/
inductive NamesPort (headers : Headers) : UInt16 → Prop where
  | numeral {s : String} {port : UInt16} (value : headers.get "x-node-port" = some (utf8 s))
      (numeral : IsNumeral s port) : NamesPort headers port
  | default (none : ∀ s port, headers.get "x-node-port" = some (utf8 s) → ¬IsNumeral s port) :
      NamesPort headers 443

section

variable [Platform]

/-- The text of a value that is read is a numeral exactly when the value is its bytes. -/
theorem bind_parseU16_eq_some_iff (laws : HeaderLaws) {headers : Headers} {port : UInt16} :
    ((headers.get "x-node-port").bind toStr).bind parseU16 = some port ↔
      ∃ s, headers.get "x-node-port" = some (utf8 s) ∧ IsNumeral s port := by
  rw [Option.bind_assoc]
  constructor
  · intro h
    obtain ⟨v, hv, h⟩ := Option.bind_eq_some_iff.mp h
    obtain ⟨s, hs, h⟩ := Option.bind_eq_some_iff.mp h
    refine ⟨s, ?_, parseU16_eq_some_iff.mp h⟩
    rw [utf8_of_toStr laws hs, hv]
  · rintro ⟨s, hv, hnumeral⟩
    rw [hv, Option.bind_some, toStr_of_visible laws hnumeral.visible, Option.bind_some]
    exact parseU16_eq_some_iff.mpr hnumeral

theorem namesPort_iff (laws : HeaderLaws) {headers : Headers} {params : NodeParams}
    (h : nodeParams headers = .ok params) (port : UInt16) :
    NamesPort headers port ↔ port = params.port := by
  rw [(nodeParams_eq_ok h).2.2.1]
  cases hparse : ((headers.get "x-node-port").bind toStr).bind parseU16 with
  | none =>
    have hnone : ∀ s port, headers.get "x-node-port" = some (utf8 s) → ¬IsNumeral s port := by
      intro s port hvalue hnumeral
      have hsome := (bind_parseU16_eq_some_iff laws).mpr ⟨s, hvalue, hnumeral⟩
      rw [hparse] at hsome
      cases hsome
    rw [Option.getD_none]
    constructor
    · rintro (⟨value, numeral⟩ | _)
      · exact absurd numeral (hnone _ _ value)
      · rfl
    · rintro rfl
      exact .default hnone
  | some port' =>
    have hsome {port : UInt16} {s : String} (value : headers.get "x-node-port" = some (utf8 s))
        (numeral : IsNumeral s port) : port = port' := by
      have h := (bind_parseU16_eq_some_iff laws).mpr ⟨s, value, numeral⟩
      rw [hparse] at h
      exact (Option.some.inj h).symm
    obtain ⟨s, value, numeral⟩ := (bind_parseU16_eq_some_iff laws).mp hparse
    rw [Option.getD_some]
    constructor
    · rintro (⟨value, numeral⟩ | ⟨none⟩)
      · exact hsome value numeral
      · exact absurd numeral (none s port' value)
    · rintro rfl
      exact .numeral value numeral

/-- A request that is admitted gets the port that it gives: it gives none and gets 443, or the first
`X-Node-Port` is a numeral of the port. -/
def KeepsPort (headers : Headers) : Prop :=
  ∀ n cache params client, Reachable n cache → nodeParams headers = .ok params →
    (nodeContext headers cache).1 = .ok client →
    (headers.get "x-node-port" = none ∧ params.port = 443) ∨
    ∃ s, headers.get "x-node-port" = some (utf8 s) ∧ IsNumeral s params.port

theorem requiredHeader_cons_port (v : Bytes) (headers : Headers) {header missing : String}
    (h : header ≠ "x-node-port") :
    requiredHeader (("x-node-port", v) :: headers) header missing =
      requiredHeader headers header missing := by
  rw [requiredHeader, requiredHeader, Headers.get, List.find?_cons_of_neg (by simpa using h.symm),
    Headers.get]

/-- The channel of the client of a request is built from the text of its domain and of the one port
that the request names, which is 443 unless its first `X-Node-Port` is a numeral of another one, and
no `X-Node-Port` makes a request fail that names a domain and a token. -/
theorem nodeContext_port (lru : LruLaws) (header : HeaderLaws) {n : ℕ+} {cache : XrayClientCache}
    (hcache : Reachable n cache) (headers : Headers) :
    (∀ client, (nodeContext headers cache).1 = .ok client →
      ∃ params, nodeParams headers = .ok params ∧
        (∀ port, NamesPort headers port ↔ port = params.port) ∧
        parseUri (endpointText params.domain params.port) = .ok client.channel.uri) ∧
    ∀ v, (nodeParams (("x-node-port", v) :: headers)).map (fun p => (p.domain, p.token)) =
      (nodeParams headers).map fun p => (p.domain, p.token) := by
  constructor
  · intro client hclient
    cases hparams : nodeParams headers with
    | error e =>
      rw [nodeContext_of_error hparams] at hclient
      cases hclient
    | ok params =>
      refine ⟨params, rfl, namesPort_iff header hparams, ?_⟩
      rcases hrun : nodeContext headers cache with ⟨result, cache'⟩
      rw [hrun] at hclient
      obtain rfl : result = .ok client := hclient
      have hspec := nodeContext_spec lru hparams hrun
      exact endpoint_eq_ok (hspec.client_eq (hcache.faithful lru)).2
  · intro v
    unfold nodeParams
    rw [requiredHeader_cons_port v headers (by decide),
      requiredHeader_cons_port v headers (by decide)]
    cases requiredHeader headers "x-node-domain" "缺少 X-Node-Domain header" with
    | error e => rfl
    | ok domain =>
      cases requiredHeader headers "x-node-token" "缺少 X-Node-Token header" with
      | error e => rfl
      | ok token => rfl

end

open Reference

/-- The headers of a request for a node, with a port for the node. -/
def portHeaders (port : String) : Headers :=
  [("x-node-domain", utf8 "a.example"), ("x-node-token", utf8 "t"), ("x-node-port", utf8 port)]

/-- A port that is out of range becomes 443. -/
theorem not_keepsPort :
    nodeParams (portHeaders "70000") = .ok ⟨"a.example", 443, "t", none⟩ ∧
      ¬KeepsPort (portHeaders "70000") := by
  have hparams : nodeParams (portHeaders "70000") = .ok ⟨"a.example", 443, "t", none⟩ := by decide
  refine ⟨hparams, fun h => ?_⟩
  rcases h 1 (.new 1) _ ⟨⟨⟨"a.example", 443⟩, 0⟩, "t", none⟩ .new hparams rfl with
    ⟨hnone, -⟩ | ⟨s, hvalue, hnumeral⟩
  · cases hnone
  · obtain rfl : "70000" = s := utf8_injective (Option.some.inj hvalue)
    have hparse := parseU16_eq_some_iff.mpr hnumeral
    revert hparse
    decide

theorem nodeContext_port_signed : NamesPort (portHeaders "+8443") 8443 := by
  obtain ⟨params, hparams, hport, -⟩ :=
    (nodeContext_port lruLaws headerLaws (.new (n := 1)) (portHeaders "+8443")).1
      ⟨⟨⟨"a.example", 8443⟩, 0⟩, "t", none⟩ rfl
  have hsigned : nodeParams (portHeaders "+8443") = .ok ⟨"a.example", 8443, "t", none⟩ := by decide
  rw [hsigned] at hparams
  cases hparams
  exact (hport 8443).mpr rfl

end XrayBridge
