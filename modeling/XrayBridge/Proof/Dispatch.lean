import XrayBridge.Routes.Router
import XrayBridge.Reference

/-! Which handler a request reaches. -/

namespace XrayBridge

open Platform
open PathTemplate

theorem buildRouter_eq : buildRouter = [
    ([.fixed "", .fixed "healthz"], [(.get, .healthz)]),
    ([.fixed "", .fixed "v1", .fixed "sys"], [(.get, .endpoint .getSysStats)]),
    ([.fixed "", .fixed "v1", .fixed "users"],
      [(.get, .endpoint .listUsers), (.post, .endpoint .addUser)]),
    ([.fixed "", .fixed "v1", .fixed "users", .fixed "online"],
      [(.get, .endpoint .getOnlineUsers)]),
    ([.fixed "", .fixed "v1", .fixed "users", .fixed "stats"], [(.get, .endpoint .getUsersStats)]),
    ([.fixed "", .fixed "v1", .fixed "stats"], [(.get, .endpoint .queryStats)]),
    ([.fixed "", .fixed "v1", .fixed "stats", .rest "name"], [(.get, .endpoint .getStat)]),
    ([.fixed "", .fixed "v1", .fixed "users", .param "email"],
      [(.delete, .endpoint .removeUser)]),
    ([.fixed "", .fixed "v1", .fixed "inbounds"],
      [(.get, .endpoint .listInbounds), (.post, .endpoint .addInbound)]),
    ([.fixed "", .fixed "v1", .fixed "inbounds", .param "tag"],
      [(.delete, .endpoint .removeInbound)]),
    ([.fixed "", .fixed "v1", .fixed "outbounds"],
      [(.get, .endpoint .listOutbounds), (.post, .endpoint .addOutbound)]),
    ([.fixed "", .fixed "v1", .fixed "outbounds", .param "tag"],
      [(.delete, .endpoint .removeOutbound)]),
    ([.fixed "", .fixed "v1", .fixed "logger", .fixed "restart"],
      [(.post, .endpoint .restartLogger)]),
    ([.fixed "", .fixed "v1", .fixed "routing", .fixed "test"], [(.post, .endpoint .testRoute)]),
    ([.fixed "", .fixed "v1", .fixed "routing", .fixed "rules"], [(.get, .endpoint .listRules)]),
    ([.fixed "", .fixed "v1", .fixed "routing", .fixed "rules", .param "tag"],
      [(.delete, .endpoint .removeRule)]),
    ([.fixed "", .fixed "v1", .fixed "routing", .fixed "balancers", .param "tag"],
      [(.get, .endpoint .getBalancer), (.put, .endpoint .overrideBalancer)])] := by
  decide +kernel

/-! ### Resources -/

/-- The operations whose path has a parameter. -/
inductive ResourceOperation where
  | removeUser
  | removeInbound
  | removeOutbound
  | removeRule
  | getBalancer
  | overrideBalancer
  | getStat
  deriving DecidableEq

namespace ResourceOperation

def endpoint : ResourceOperation → Endpoint
  | removeUser => .removeUser
  | removeInbound => .removeInbound
  | removeOutbound => .removeOutbound
  | removeRule => .removeRule
  | getBalancer => .getBalancer
  | overrideBalancer => .overrideBalancer
  | getStat => .getStat

def method : ResourceOperation → Method
  | removeUser | removeInbound | removeOutbound | removeRule => .delete
  | getBalancer | getStat => .get
  | overrideBalancer => .put

def collection : ResourceOperation → String
  | removeUser => "/v1/users"
  | removeInbound => "/v1/inbounds"
  | removeOutbound => "/v1/outbounds"
  | removeRule => "/v1/routing/rules"
  | getBalancer | overrideBalancer => "/v1/routing/balancers"
  | getStat => "/v1/stats"

def parameter : ResourceOperation → Segment
  | removeUser => .param "email"
  | getStat => .rest "name"
  | _ => .param "tag"

def template (op : ResourceOperation) : Template :=
  (segments op.collection).map .fixed ++ [op.parameter]

end ResourceOperation

theorem segments_collection (op : ResourceOperation) : segments op.collection = match op with
    | .removeUser => ["", "v1", "users"]
    | .removeInbound => ["", "v1", "inbounds"]
    | .removeOutbound => ["", "v1", "outbounds"]
    | .removeRule => ["", "v1", "routing", "rules"]
    | .getBalancer | .overrideBalancer => ["", "v1", "routing", "balancers"]
    | .getStat => ["", "v1", "stats"] := by
  cases op <;> rfl

theorem ResourceOperation.template_mem (op : ResourceOperation) : op.template ∈ templates := by
  rw [templates, buildRouter_eq]
  cases op <;> simp [template, segments_collection, parameter]

theorem ResourceOperation.service_eq (op : ResourceOperation) :
    ((buildRouter.lookup op.template).getD []).service op.method =
      some (.endpoint op.endpoint) := by
  rw [buildRouter_eq]
  cases op <;> rfl

/-- `raw` is a percent-encoding of `s` that is a single segment, or several ones where the
parameter is the rest of the path. -/
structure EncodedInto (op : ResourceOperation) (raw s : String) : Prop where
  encodes : PercentCoding.Encodes (utf8 raw) (utf8 s)
  slash : op ≠ .getStat → '/' ∉ raw.toList

section Capture

variable {op : ResourceOperation} {raw s : String}

theorem EncodedInto.ne_empty (h : EncodedInto op raw s) (hs : s ≠ "") : raw ≠ "" := by
  intro hraw
  subst hraw
  have hbytes : utf8 s ≠ [] := fun e => hs (utf8_injective (e.trans (by rfl)))
  exact PercentCoding.raw_ne_nil h.encodes hbytes rfl

theorem EncodedInto.capture (h : EncodedInto op raw s) (hs : s ≠ "") :
    ∃ name, PathTemplate.capture op.template (segments (op.collection ++ "/" ++ raw)) =
      some [(name, raw)] := by
  rw [segments_append, ResourceOperation.template, capture_fixed_append]
  have hraw := h.ne_empty hs
  by_cases hop : op = .getStat
  · subst hop
    obtain ⟨part, parts, hparts⟩ := List.exists_cons_of_ne_nil (segments_ne_nil raw)
    refine ⟨"name", ?_⟩
    have hjoined := joined_segments raw
    rw [hparts] at hjoined
    rw [hparts, ResourceOperation.parameter, PathTemplate.capture, hjoined, if_neg hraw]
  · rw [segments_of_notMem (h.slash hop)]
    cases op with
    | getStat => exact absurd rfl hop
    | removeUser =>
      exact ⟨"email", by simp [ResourceOperation.parameter, PathTemplate.capture, hraw]⟩
    | _ => exact ⟨"tag", by simp [ResourceOperation.parameter, PathTemplate.capture, hraw]⟩

theorem EncodedInto.path_eq (h : EncodedInto op raw s) (name : String) (request : HttpRequest) :
    XrayBridge.path ⟨request, [(name, raw)]⟩ = .ok s := by
  have hdecoded : percentDecoded raw = some s := by
    rw [percentDecoded, PercentCoding.decode_of_encodes h.encodes, decodeUtf8_utf8]
  simp [XrayBridge.path, hdecoded]

/-- No other template of the table matches, unless it is one of the two routes below `/v1/users`. -/
theorem EncodedInto.template_eq (h : EncodedInto op raw s) {t : Template} (ht : t ∈ templates)
    (hmatch : (PathTemplate.capture t (segments (op.collection ++ "/" ++ raw))).isSome) :
    t = op.template ∨ (op = .removeUser ∧ (raw = "online" ∨ raw = "stats")) := by
  rw [segments_append, segments_collection] at hmatch
  rw [templates, buildRouter_eq] at ht
  simp only [List.map_cons, List.map_nil, List.mem_cons, List.not_mem_nil, or_false] at ht
  by_cases hop : op = .getStat
  · subst hop
    obtain ⟨part, parts, hparts⟩ := List.exists_cons_of_ne_nil (segments_ne_nil raw)
    rw [hparts] at hmatch
    rcases ht with rfl | rfl | rfl | rfl | rfl | rfl | rfl | rfl | rfl | rfl | rfl | rfl | rfl |
      rfl | rfl | rfl | rfl <;> first | exact Or.inl rfl | simp [PathTemplate.capture] at hmatch
  · rw [segments_of_notMem (h.slash hop)] at hmatch
    rcases ht with rfl | rfl | rfl | rfl | rfl | rfl | rfl | rfl | rfl | rfl | rfl | rfl | rfl |
      rfl | rfl | rfl | rfl <;> cases op <;>
      first
      | exact Or.inl rfl
      | simp [PathTemplate.capture] at hmatch
    · exact Or.inr ⟨rfl, Or.inl hmatch⟩
    · exact Or.inr ⟨rfl, Or.inr hmatch⟩

end Capture

section

variable [Platform]

theorem matchRoute_eq (laws : RouteLaws) {path : String} {t : Template} {captures : Captures}
    (ht : t ∈ templates) (hcapture : capture t (segments path) = some captures)
    (hbest : ∀ t' ∈ templates, (capture t' (segments path)).isSome → t' ≠ t → Preferred t t') :
    matchRoute templates path = some (t, captures) := by
  have hsome := laws.complete templates path t ht (by rw [hcapture]; rfl)
  obtain ⟨⟨t', captures'⟩, hmatch⟩ := Option.isSome_iff_exists.mp hsome
  obtain ⟨ht', hcapture'⟩ := laws.sound templates path t' captures' hmatch
  by_cases heq : t' = t
  · subst heq
    rw [hcapture] at hcapture'
    rw [hmatch, Option.some.inj hcapture']
  · have hpreferred := hbest t' ht' (by rw [hcapture']; rfl) heq
    exact absurd hpreferred
      (laws.prefers templates path t' t captures' hmatch ht (by rw [hcapture]; rfl))

theorem matchRoute_fixed (laws : RouteLaws) {path : String}
    (ht : (segments path).map .fixed ∈ templates) :
    matchRoute templates path = some ((segments path).map .fixed, []) :=
  matchRoute_eq laws ht (capture_fixed _) fun _ _ h hne => preferred_of_fixed h hne

/-- Once the path has selected a template, the method selects the service. -/
theorem dispatch_of_match {method : Method} {path : String} {t : Template} {captures : Captures}
    (h : matchRoute templates path = some (t, captures)) :
    dispatch method path = (((buildRouter.lookup t).getD []).service method).elim
      (.error .methodNotAllowed) fun service => .ok (service, captures) := by
  -- The table becomes a variable, so that comparing the two sides does not evaluate it.
  obtain ⟨routes, hroutes⟩ : ∃ routes, routes = buildRouter := ⟨_, rfl⟩
  rw [dispatch, h, ← hroutes]
  dsimp only
  cases ((routes.lookup t).getD []).service method with
  | none => rfl
  | some service => rfl

theorem dispatch_eq {method : Method} {path : String} {t : Template} {captures : Captures}
    {service : Service} (h : matchRoute templates path = some (t, captures))
    (hservice : ((buildRouter.lookup t).getD []).service method = some service) :
    dispatch method path = .ok (service, captures) := by
  rw [dispatch_of_match h, hservice, Option.elim_some]

theorem dispatch_eq_methodNotAllowed {method : Method} {path : String} {t : Template}
    {captures : Captures} (h : matchRoute templates path = some (t, captures))
    (hservice : ((buildRouter.lookup t).getD []).service method = none) :
    dispatch method path = .error .methodNotAllowed := by
  rw [dispatch_of_match h, hservice, Option.elim_none]

theorem dispatch_sys (laws : RouteLaws) :
    dispatch .get "/v1/sys" = .ok (.endpoint .getSysStats, []) := by
  refine dispatch_eq (matchRoute_fixed laws ?_) ?_
  · rw [templates, buildRouter_eq]
    decide +kernel
  · rw [buildRouter_eq]
    decide +kernel

/-- A request with the operation's method and with `raw` in place of the parameter reaches the
operation's handler, and `Path` gives it the string `s`. -/
def Addresses (op : ResourceOperation) (raw s : String) : Prop :=
  ∃ captures, dispatch op.method (op.collection ++ "/" ++ raw) =
      .ok (.endpoint op.endpoint, captures) ∧
    ∀ request, XrayBridge.path ⟨request, captures⟩ = .ok s

/-- The routes of two other operations answer for these two paths. -/
theorem dispatch_shadowed (laws : RouteLaws) {raw : String} (h : raw = "online" ∨ raw = "stats") :
    dispatch .delete (ResourceOperation.removeUser.collection ++ "/" ++ raw) =
      .error .methodNotAllowed := by
  have hsegments : segments (ResourceOperation.removeUser.collection ++ "/" ++ raw) =
      ["", "v1", "users", raw] := by
    rw [segments_append, segments_collection]
    rcases h with rfl | rfl <;> rfl
  refine dispatch_eq_methodNotAllowed (matchRoute_fixed laws ?_) ?_
  · rw [hsegments, templates, buildRouter_eq]
    rcases h with rfl | rfl <;> decide +kernel
  · rw [hsegments, buildRouter_eq]
    rcases h with rfl | rfl <;> decide +kernel

theorem EncodedInto.addresses (laws : RouteLaws) {op : ResourceOperation} {raw s : String}
    (h : EncodedInto op raw s) (hs : s ≠ "")
    (hshadow : ¬(op = .removeUser ∧ (raw = "online" ∨ raw = "stats"))) : Addresses op raw s := by
  obtain ⟨name, hcapture⟩ := h.capture hs
  refine ⟨[(name, raw)], ?_, fun request => h.path_eq name request⟩
  refine dispatch_eq (matchRoute_eq laws op.template_mem hcapture ?_) op.service_eq
  intro t ht hmatch hne
  exact absurd ((h.template_eq ht hmatch).resolve_right hshadow) hne

/-- Every resource can be addressed, in every way to encode its name, except for the users whose
names are written as one of the two fixed segments below `/v1/users`. -/
theorem addresses_iff (laws : RouteLaws) {op : ResourceOperation} {raw s : String} (hs : s ≠ "")
    (h : EncodedInto op raw s) :
    Addresses op raw s ↔ ¬(op = .removeUser ∧ (raw = "online" ∨ raw = "stats")) := by
  constructor
  · rintro ⟨captures, hdispatch, -⟩ ⟨rfl, hraw⟩
    rw [ResourceOperation.method, dispatch_shadowed laws hraw] at hdispatch
    cases hdispatch
  · exact h.addresses laws hs

end

open Reference in
theorem not_addresses_online :
    "online" ≠ "" ∧ EncodedInto .removeUser "online" "online" ∧
      ¬Addresses .removeUser "online" "online" := by
  refine ⟨by decide, ⟨PercentCoding.encodes_self (by decide), fun _ => by decide⟩, ?_⟩
  rintro ⟨captures, hdispatch, -⟩
  rw [ResourceOperation.method, dispatch_shadowed routeLaws (Or.inl rfl)] at hdispatch
  cases hdispatch

open Reference in
theorem addresses_slash : Addresses .removeUser "a%2Fb" "a/b" := by
  have hcoded : PercentCoding.Encodes [97, 37, 50, 70, 98] [97, 47, 98] :=
    .plain (by decide) (.coded (h := 2) (l := 15) rfl rfl (.plain (by decide) .nil))
  have hencoded : EncodedInto .removeUser "a%2Fb" "a/b" := ⟨hcoded, fun _ => by decide⟩
  exact (addresses_iff routeLaws (by decide) hencoded).mpr (by decide)

def sysRequest (bridgeToken domain : String) : HttpRequest where
  method := .get
  path := "/v1/sys"
  query := ""
  headers := [("authorization", utf8 ("Bearer " ++ bridgeToken)), ("x-node-domain", utf8 domain),
    ("x-node-token", utf8 "t")]
  body := []

open Reference in
theorem dispatch_sysRequest (bridgeToken domain : String) :
    dispatch (sysRequest bridgeToken domain).method (sysRequest bridgeToken domain).path =
      .ok (.endpoint .getSysStats, []) :=
  dispatch_sys routeLaws

end XrayBridge
