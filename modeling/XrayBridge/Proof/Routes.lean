import XrayBridge.Proof.Dispatch

/-! The URLs of the program: which requests reach which service, what its parameter holds there, and
what becomes of the other requests. -/

namespace XrayBridge

open Platform PathTemplate

/-! ### Services and their URLs -/

/-- What comes after the fixed part of a path: nothing, one segment, or one or more of them. -/
inductive Parameter where
  | none
  | segment (name : String)
  | rest (name : String)

def Parameter.template : Parameter → Template
  | none => []
  | segment name => [.param name]
  | rest name => [.rest name]

/-- The method, the fixed part of the path and the parameter of a service. -/
structure Location where
  method : Method
  base : String
  parameter : Parameter

def Service.location : Service → Location
  | .healthz => ⟨.get, "/healthz", .none⟩
  | .endpoint .getSysStats => ⟨.get, "/v1/sys", .none⟩
  | .endpoint .listUsers => ⟨.get, "/v1/users", .none⟩
  | .endpoint .addUser => ⟨.post, "/v1/users", .none⟩
  | .endpoint .removeUser => ⟨.delete, "/v1/users", .segment "email"⟩
  | .endpoint .getOnlineUsers => ⟨.get, "/v1/users/online", .none⟩
  | .endpoint .getUsersStats => ⟨.get, "/v1/users/stats", .none⟩
  | .endpoint .queryStats => ⟨.get, "/v1/stats", .none⟩
  | .endpoint .getStat => ⟨.get, "/v1/stats", .rest "name"⟩
  | .endpoint .listInbounds => ⟨.get, "/v1/inbounds", .none⟩
  | .endpoint .addInbound => ⟨.post, "/v1/inbounds", .none⟩
  | .endpoint .removeInbound => ⟨.delete, "/v1/inbounds", .segment "tag"⟩
  | .endpoint .listOutbounds => ⟨.get, "/v1/outbounds", .none⟩
  | .endpoint .addOutbound => ⟨.post, "/v1/outbounds", .none⟩
  | .endpoint .removeOutbound => ⟨.delete, "/v1/outbounds", .segment "tag"⟩
  | .endpoint .restartLogger => ⟨.post, "/v1/logger/restart", .none⟩
  | .endpoint .testRoute => ⟨.post, "/v1/routing/test", .none⟩
  | .endpoint .listRules => ⟨.get, "/v1/routing/rules", .none⟩
  | .endpoint .removeRule => ⟨.delete, "/v1/routing/rules", .segment "tag"⟩
  | .endpoint .getBalancer => ⟨.get, "/v1/routing/balancers", .segment "tag"⟩
  | .endpoint .overrideBalancer => ⟨.put, "/v1/routing/balancers", .segment "tag"⟩

/-- A service for `GET` also takes `HEAD`. -/
def Service.Takes (service : Service) (method : Method) : Prop :=
  method = service.location.method ∨ (method = .head ∧ service.location.method = .get)

theorem Service.Takes.get_of_head {service : Service} (h : service.Takes .head) :
    service.location.method = .get := by
  rcases h with hhead | ⟨-, hget⟩
  · have hnever : service.location.method ≠ .head := by
      cases service with
      | healthz => decide
      | endpoint e => cases e <;> decide
    exact absurd hhead.symm hnever
  · exact hget

/-- The path is one of a location, and its parameter holds the captures there. -/
inductive Location.At (location : Location) : String → Captures → Prop where
  | fixed (parameter : location.parameter = .none) : At location location.base []
  | segment {name raw : String} (parameter : location.parameter = .segment name)
      (nonempty : raw ≠ "") (slash : '/' ∉ raw.toList) :
      At location (location.base ++ "/" ++ raw) [(name, raw)]
  | rest {name raw : String} (parameter : location.parameter = .rest name) (nonempty : raw ≠ "") :
      At location (location.base ++ "/" ++ raw) [(name, raw)]

/-- A path of the service, with what its parameter holds there.  Two paths of users are those of
other services. -/
def Service.Url (service : Service) (path : String) (captures : Captures) : Prop :=
  service.location.At path captures ∧
    ¬(service = .endpoint .removeUser ∧ path ∈ ["/v1/users/online", "/v1/users/stats"])

/-! ### Templates -/

def Location.template (location : Location) : Template :=
  (segments location.base).map .fixed ++ location.parameter.template

theorem Location.At.capture {location : Location} {path : String} {captures : Captures}
    (h : location.At path captures) :
    capture location.template (segments path) = some captures := by
  rw [Location.template, capture_append_iff]
  cases h with
  | fixed parameter => exact ⟨[], (List.append_nil _).symm, by rw [parameter]; rfl⟩
  | segment parameter nonempty slash =>
    refine ⟨[_], ?_, by rw [parameter]; exact capture_param_iff.mpr ⟨_, rfl, nonempty, rfl⟩⟩
    rw [segments_append, segments_of_notMem slash]
  | @rest name raw parameter nonempty =>
    refine ⟨segments raw, segments_append _ _, ?_⟩
    rw [parameter, Parameter.template, capture_rest_iff, joined_segments]
    exact ⟨segments_ne_nil raw, nonempty, rfl⟩

theorem Location.capture_iff {location : Location} {path : String} {captures : Captures} :
    PathTemplate.capture location.template (segments path) = some captures ↔
      location.At path captures := by
  refine ⟨fun h => ?_, At.capture⟩
  rw [Location.template, capture_append_iff] at h
  obtain ⟨rest, hsegments, hrest⟩ := h
  cases hparameter : location.parameter with
  | none =>
    rw [hparameter] at hrest
    obtain ⟨rfl, rfl⟩ := capture_nil_iff.mp hrest
    rw [List.append_nil] at hsegments
    rw [segments_injective hsegments]
    exact .fixed hparameter
  | segment name =>
    rw [hparameter] at hrest
    obtain ⟨raw, rfl, hraw, rfl⟩ := capture_param_iff.mp hrest
    have hmem : raw ∈ segments path := by
      rw [hsegments]
      exact List.mem_append_right _ (List.mem_singleton_self raw)
    have hslash := notMem_of_mem_segments hmem
    have hpath : path = location.base ++ "/" ++ raw := segments_injective
      (by rw [hsegments, segments_append, segments_of_notMem hslash])
    rw [hpath]
    exact .segment hparameter hraw hslash
  | rest name =>
    rw [hparameter] at hrest
    obtain ⟨hne, hraw, rfl⟩ := capture_rest_iff.mp hrest
    rw [((segments_eq_append_iff hne).mp hsegments).1]
    exact .rest hparameter hraw

/-! ### The table -/

def services : List Service :=
  .healthz :: [Endpoint.getSysStats, .listUsers, .addUser, .removeUser, .getOnlineUsers,
    .getUsersStats, .queryStats, .getStat, .listInbounds, .addInbound, .removeInbound,
    .listOutbounds, .addOutbound, .removeOutbound, .restartLogger, .testRoute, .listRules,
    .removeRule, .getBalancer, .overrideBalancer].map .endpoint

theorem mem_services (service : Service) : service ∈ services := by
  cases service with
  | healthz => exact List.mem_cons_self
  | endpoint e => cases e <;> decide

theorem mem_templates {t : Template} :
    t ∈ templates ↔ ∃ service : Service, t = service.location.template := by
  have htemplates : ∀ t ∈ templates, ∃ service ∈ services, t = service.location.template := by
    rw [templates, buildRouter_eq]
    decide +kernel
  have hservices : ∀ service ∈ services, service.location.template ∈ templates := by
    rw [templates, buildRouter_eq]
    decide +kernel
  constructor
  · intro h
    obtain ⟨service, -, ht⟩ := htemplates t h
    exact ⟨service, ht⟩
  · rintro ⟨service, rfl⟩
    exact hservices service (mem_services service)

theorem unambiguous_templates : Unambiguous templates := by
  rw [templates, buildRouter_eq]
  decide +kernel

theorem mem_of_lookup_eq_some {A B : Type} [BEq A] [LawfulBEq A] {a : A} {b : B}
    {l : List (A × B)} (h : l.lookup a = some b) : (a, b) ∈ l := by
  obtain ⟨before, after, rfl, -⟩ := List.lookup_eq_some_iff.mp h
  exact List.mem_append_right _ List.mem_cons_self

theorem MethodRouter.mem_of_service {methods : MethodRouter} {method : Method} {service : Service}
    (h : methods.service method = some service) :
    (method, service) ∈ methods ∨ (method = .head ∧ (.get, service) ∈ methods) := by
  unfold MethodRouter.service at h
  split at h
  · rename_i hlookup
    cases h
    exact Or.inl (mem_of_lookup_eq_some hlookup)
  · split at h
    · rename_i hhead
      exact Or.inr ⟨hhead, mem_of_lookup_eq_some h⟩
    · cases h

theorem service_of_takes {service : Service} {method : Method} (h : service.Takes method) :
    ((buildRouter.lookup service.location.template).getD []).service method = some service := by
  have htable : ∀ service ∈ services,
      ((buildRouter.lookup service.location.template).getD []).service service.location.method =
          some service ∧
        (service.location.method = .get →
          ((buildRouter.lookup service.location.template).getD []).service .head =
            some service) := by
    rw [buildRouter_eq]
    decide +kernel
  obtain ⟨hmethod, hhead⟩ := htable service (mem_services service)
  rcases h with rfl | ⟨rfl, hget⟩
  · exact hmethod
  · exact hhead hget

theorem service_iff {t : Template} {method : Method} {service : Service} :
    ((buildRouter.lookup t).getD []).service method = some service ↔
      t = service.location.template ∧ service.Takes method := by
  constructor
  · intro h
    have htable : ∀ route ∈ buildRouter, ∀ entry ∈ route.2,
        route.1 = entry.2.location.template ∧ entry.1 = entry.2.location.method := by
      rw [buildRouter_eq]
      decide +kernel
    cases hlookup : buildRouter.lookup t with
    | none =>
      rw [hlookup] at h
      rcases MethodRouter.mem_of_service h with hmem | ⟨-, hmem⟩ <;> cases hmem
    | some methods =>
      rw [hlookup] at h
      have hroute := htable _ (mem_of_lookup_eq_some hlookup)
      rcases MethodRouter.mem_of_service h with hmem | ⟨rfl, hmem⟩
      · obtain ⟨ht, hmethod⟩ := hroute _ hmem
        exact ⟨ht, Or.inl hmethod⟩
      · obtain ⟨ht, hmethod⟩ := hroute _ hmem
        exact ⟨ht, Or.inr ⟨rfl, hmethod.symm⟩⟩
  · rintro ⟨rfl, htakes⟩
    exact service_of_takes htakes

/-- The only templates that are preferred to another one which matches the same path. -/
theorem preferred_overlaps {service : Service} {t : Template} (ht : t ∈ templates)
    (hpreferred : Preferred t service.location.template)
    (hoverlaps : Overlaps t service.location.template = true) :
    service = .endpoint .removeUser ∧
      (t = (segments "/v1/users/online").map .fixed ∨
        t = (segments "/v1/users/stats").map .fixed) := by
  have htable : ∀ service ∈ services, ∀ t ∈ templates, Preferred t service.location.template →
      Overlaps t service.location.template = true →
      service = .endpoint .removeUser ∧
        (t = (segments "/v1/users/online").map .fixed ∨
          t = (segments "/v1/users/stats").map .fixed) := by
    rw [templates, buildRouter_eq]
    decide +kernel
  exact htable service (mem_services service) t ht hpreferred hoverlaps

theorem notFound_ne_methodNotAllowed : Response.notFound ≠ Response.methodNotAllowed := fun h =>
  absurd (congrArg Response.status h) (by decide)

section

variable [Platform]

/-- The router of a table without ambiguity finds the template that matches and that no other one
which matches is preferred to. -/
theorem matchRoute_iff (laws : RouteLaws) {table : List Template} (htable : Unambiguous table)
    {path : String} {t : Template} {captures : Captures} :
    matchRoute table path = some (t, captures) ↔
      t ∈ table ∧ capture t (segments path) = some captures ∧
        ∀ t' ∈ table, (capture t' (segments path)).isSome → ¬Preferred t' t := by
  constructor
  · intro h
    obtain ⟨ht, hcapture⟩ := laws.sound table path t captures h
    exact ⟨ht, hcapture, fun t' ht' hmatch => laws.prefers table path t t' captures h ht' hmatch⟩
  · rintro ⟨ht, hcapture, hbest⟩
    have hmatch : (capture t (segments path)).isSome := by rw [hcapture]; rfl
    obtain ⟨⟨t', captures'⟩, h⟩ :=
      Option.isSome_iff_exists.mp (laws.complete table path t ht hmatch)
    obtain ⟨ht', hcapture'⟩ := laws.sound table path t' captures' h
    have hmatch' : (capture t' (segments path)).isSome := by rw [hcapture']; rfl
    rcases htable t ht t' ht' (overlaps_of_capture hmatch hmatch') with rfl | hleft | hright
    · rw [hcapture] at hcapture'
      rw [h, Option.some.inj hcapture']
    · exact absurd hleft (laws.prefers table path t' t captures' h ht hmatch)
    · exact absurd hright (hbest t' ht' hmatch')

theorem matchRoute_url (laws : RouteLaws) {service : Service} {path : String}
    {captures : Captures} :
    matchRoute templates path = some (service.location.template, captures) ↔
      service.Url path captures := by
  rw [matchRoute_iff laws unambiguous_templates, Location.capture_iff, Service.Url]
  constructor
  · rintro ⟨-, hat, hbest⟩
    refine ⟨hat, ?_⟩
    rintro ⟨rfl, hpath⟩
    have hshadow : ∀ path ∈ ["/v1/users/online", "/v1/users/stats"],
        (segments path).map .fixed ∈ templates ∧
          Preferred ((segments path).map .fixed)
            (Service.endpoint .removeUser).location.template := by
      rw [templates, buildRouter_eq]
      decide +kernel
    obtain ⟨hmem, hpreferred⟩ := hshadow path hpath
    exact hbest _ hmem (by rw [capture_fixed]; rfl) hpreferred
  · rintro ⟨hat, hshadow⟩
    refine ⟨mem_templates.mpr ⟨service, rfl⟩, hat, fun t ht hmatch hpreferred => hshadow ?_⟩
    have hmatch' := Option.isSome_iff_exists.mpr ⟨captures, hat.capture⟩
    obtain ⟨hservice, hfixed⟩ := preferred_overlaps ht hpreferred (overlaps_of_capture hmatch hmatch')
    rcases hfixed with rfl | rfl
    · exact ⟨hservice, by rw [eq_of_capture_fixed hmatch]; simp⟩
    · exact ⟨hservice, by rw [eq_of_capture_fixed hmatch]; simp⟩

theorem dispatch_of_none {method : Method} {path : String}
    (h : matchRoute templates path = none) : dispatch method path = .error .notFound := by
  rw [dispatch, h]

/-- What the router may come to. -/
theorem dispatch_cases (method : Method) (path : String) :
    (matchRoute templates path = none ∧ dispatch method path = .error .notFound) ∨
    (∃ t captures, matchRoute templates path = some (t, captures) ∧
      dispatch method path = .error .methodNotAllowed) ∨
    ∃ service captures, matchRoute templates path = some (service.location.template, captures) ∧
      service.Takes method ∧ dispatch method path = .ok (service, captures) := by
  cases hmatch : matchRoute templates path with
  | none => exact Or.inl ⟨rfl, dispatch_of_none hmatch⟩
  | some found =>
    obtain ⟨t, captures⟩ := found
    cases hservice : ((buildRouter.lookup t).getD []).service method with
    | none => exact Or.inr (Or.inl ⟨t, captures, rfl, dispatch_eq_methodNotAllowed hmatch hservice⟩)
    | some service =>
      obtain ⟨rfl, htakes⟩ := service_iff.mp hservice
      exact Or.inr (Or.inr ⟨service, captures, rfl, htakes, dispatch_eq hmatch hservice⟩)

theorem dispatch_eq_ok {method : Method} {path : String} {service : Service}
    {captures : Captures} (h : dispatch method path = .ok (service, captures)) :
    matchRoute templates path = some (service.location.template, captures) ∧
      service.Takes method := by
  rcases dispatch_cases method path with ⟨-, heq⟩ | ⟨_, _, -, heq⟩ | ⟨service', captures', hmatch,
    htakes, heq⟩
  · rw [heq] at h
    cases h
  · rw [heq] at h
    cases h
  · rw [heq] at h
    cases h
    exact ⟨hmatch, htakes⟩

theorem dispatch_eq_ok_iff (laws : RouteLaws) {method : Method} {path : String} {service : Service}
    {captures : Captures} :
    dispatch method path = .ok (service, captures) ↔
      service.Takes method ∧ service.Url path captures := by
  constructor
  · intro h
    obtain ⟨hmatch, htakes⟩ := dispatch_eq_ok h
    exact ⟨htakes, (matchRoute_url laws).mp hmatch⟩
  · rintro ⟨htakes, hurl⟩
    exact dispatch_eq ((matchRoute_url laws).mpr hurl) (service_of_takes htakes)

theorem matchRoute_eq_none_iff (laws : RouteLaws) {path : String} :
    matchRoute templates path = none ↔
      ∀ (service : Service) captures, ¬service.Url path captures := by
  constructor
  · intro h service captures hurl
    rw [(matchRoute_url laws).mpr hurl] at h
    cases h
  · intro h
    refine Option.eq_none_iff_forall_ne_some.mpr fun found hmatch => ?_
    obtain ⟨t, captures⟩ := found
    obtain ⟨service, rfl⟩ := mem_templates.mp (laws.sound templates path t captures hmatch).1
    exact h service captures ((matchRoute_url laws).mp hmatch)

theorem dispatch_eq_notFound_iff (laws : RouteLaws) {method : Method} {path : String} :
    dispatch method path = .error .notFound ↔
      ∀ (service : Service) captures, ¬service.Url path captures := by
  rw [← matchRoute_eq_none_iff laws]
  refine ⟨fun h => ?_, dispatch_of_none⟩
  rcases dispatch_cases method path with ⟨hnone, -⟩ | ⟨_, _, -, heq⟩ | ⟨_, _, -, -, heq⟩
  · exact hnone
  · rw [heq] at h
    exact absurd (Except.error.inj h).symm notFound_ne_methodNotAllowed
  · rw [heq] at h
    cases h

/-- The requests that reach a service are those for its URLs with a method that it takes.  The
others are answered as not found where no service has the URL, and as not allowed where the services
that have it do not take the method. -/
theorem dispatch_iff (laws : RouteLaws) (method : Method) (path : String) :
    (∀ (service : Service) captures, dispatch method path = .ok (service, captures) ↔
      service.Takes method ∧ service.Url path captures) ∧
    (dispatch method path = .error .notFound ↔
      ∀ (service : Service) captures, ¬service.Url path captures) ∧
    (dispatch method path = .error .methodNotAllowed ↔
      (∃ (service : Service) (captures : Captures), service.Url path captures) ∧
        ∀ (service : Service) captures, service.Url path captures → ¬service.Takes method) := by
  refine ⟨fun _ _ => dispatch_eq_ok_iff laws, dispatch_eq_notFound_iff laws, ?_⟩
  constructor
  · intro h
    constructor
    · by_contra hnone
      rw [(dispatch_eq_notFound_iff laws).mpr fun service captures hurl =>
        hnone ⟨service, captures, hurl⟩] at h
      exact notFound_ne_methodNotAllowed (Except.error.inj h)
    · intro service captures hurl htakes
      rw [(dispatch_eq_ok_iff laws).mpr ⟨htakes, hurl⟩] at h
      cases h
  · rintro ⟨⟨service, captures, hurl⟩, hrefused⟩
    rcases dispatch_cases method path with ⟨hnone, -⟩ | ⟨_, _, -, heq⟩ | ⟨_, _, hmatch, htakes, -⟩
    · exact absurd hurl ((matchRoute_eq_none_iff laws).mp hnone service captures)
    · exact heq
    · exact absurd htakes (hrefused _ _ ((matchRoute_url laws).mp hmatch))

end

open Reference in
/-- A counter whose name has a slash, asked for without its value. -/
theorem dispatch_iff_stat :
    dispatch .head ("/v1/stats" ++ "/" ++ "inbound/api") =
      .ok (.endpoint .getStat, [("name", "inbound/api")]) := by
  have hraw : "inbound/api" ≠ "" := by decide
  obtain ⟨hreaches, -, -⟩ := dispatch_iff routeLaws .head ("/v1/stats" ++ "/" ++ "inbound/api")
  exact (hreaches (.endpoint .getStat) _).mpr
    ⟨Or.inr ⟨rfl, rfl⟩, .rest rfl hraw, fun h => by cases h.1⟩

end XrayBridge
