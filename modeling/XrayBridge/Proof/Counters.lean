import XrayBridge.Proof.Calls
import XrayBridge.Reference

/-! The names of counters: which emails survive the way into a counter's name and back, and which
counters a list of users is made of. -/

namespace XrayBridge

open Platform StatsService HandlerService

/-! ### Names -/

theorem separator_eq : (">>>" : String).toList = List.replicate (2 + 1) '>' := rfl

theorem map_toList_splitStr (separator s : String) :
    (splitStr separator s).map String.toList = Separator.split separator.toList s.toList := by
  have hid : String.toList ∘ String.ofList = id := funext fun l => String.toList_ofList
  rw [splitStr, List.map_map, hid, List.map_id]

theorem intercalate_splitStr (name : String) : ">>>".intercalate (splitStr ">>>" name) = name := by
  apply String.toList_inj.mp
  rw [String.toList_intercalate, map_toList_splitStr, Separator.intercalate_split (by decide)]

/-- Splitting recovers the fields of a name exactly when they are splittable. -/
theorem splitStr_intercalate_iff {fields : List String} :
    splitStr ">>>" (">>>".intercalate fields) = fields ↔
      Separator.Splittable ">>>".toList (fields.map String.toList) := by
  have hinj : Function.Injective (List.map String.toList) :=
    List.map_injective_iff.mpr fun _ _ => String.toList_inj.mp
  rw [← Separator.split_intercalate_iff (by decide), ← String.toList_intercalate,
    ← map_toList_splitStr, hinj.eq_iff]

/-- The lists of fields that a name is read back into. -/
def IsFieldList (fields : List String) : Prop :=
  fields ≠ [] ∧ (∀ field ∈ fields, contains field ">>>" = false) ∧
    ∀ field ∈ fields.dropLast, field.toList.getLast? ≠ some '>'

theorem splittable_iff_isFieldList {fields : List String} :
    Separator.Splittable ">>>".toList (fields.map String.toList) ↔ IsFieldList fields := by
  rw [separator_eq, Separator.splittable_replicate_iff, IsFieldList]
  simp [contains, separator_eq, ← List.map_dropLast]

theorem isFieldList_splitStr (name : String) : IsFieldList (splitStr ">>>" name) := by
  rw [← splittable_iff_isFieldList, ← splitStr_intercalate_iff, intercalate_splitStr]

theorem length_splitStr (separator s : String) :
    (splitStr separator s).length = matchCount separator s + 1 := by
  rw [splitStr, List.length_map, Separator.split, Separator.length_cut, matchCount]

/-- Names and lists of fields correspond one to one: the parts of a name join to the name and are a
list of fields, with a part at each place up to the number of separators, and the parts of the name
of a list are this list exactly for the lists of fields. -/
theorem parseStatName_fields :
    (∀ name, ">>>".intercalate (parseStatName name).parts = name ∧
      IsFieldList (parseStatName name).parts ∧
      (parseStatName name).scope = (parseStatName name).parts[0]? ∧
      (parseStatName name).id = (parseStatName name).parts[1]? ∧
      (parseStatName name).category = (parseStatName name).parts[2]? ∧
      (parseStatName name).metric = (parseStatName name).parts[3]? ∧
      ∀ k, (parseStatName name).parts[k]? = none ↔ matchCount ">>>" name < k) ∧
    ∀ fields, (parseStatName (">>>".intercalate fields)).parts = fields ↔ IsFieldList fields := by
  refine ⟨fun name => ?_, fun fields => ?_⟩
  · refine ⟨intercalate_splitStr name, isFieldList_splitStr name, rfl, rfl, rfl, rfl, fun k => ?_⟩
    show (splitStr ">>>" name)[k]? = none ↔ _
    rw [List.getElem?_eq_none_iff, length_splitStr]
    omega
  · show splitStr ">>>" (">>>".intercalate fields) = fields ↔ _
    rw [splitStr_intercalate_iff, splittable_iff_isFieldList]

/-! ### Traffic counters -/

/-- The name of a counter of a user's traffic. -/
def trafficName (email metric : String) : String :=
  "user>>>" ++ email ++ ">>>traffic>>>" ++ metric

def metrics : List String := ["uplink", "downlink"]

/-- The fields of a record are those of such a counter. -/
def IsTraffic (email metric : String) (r : StatRecord) : Prop :=
  r.scope = some "user" ∧ r.id = some email ∧ r.category = some "traffic" ∧ r.metric = some metric

theorem trafficName_eq (email metric : String) :
    trafficName email metric = ">>>".intercalate ["user", email, "traffic", metric] := by
  apply String.toList_inj.mp
  rw [String.toList_intercalate]
  simp [trafficName, List.intercalate_cons_cons]

theorem contains_trafficName (email metric : String) :
    contains (trafficName email metric) "user>>>" = true := by
  rw [contains, decide_eq_true_iff, trafficName]
  simp only [String.toList_append, List.append_assoc]
  exact (List.prefix_append _ _).isInfix

theorem cutFree_iff (s : String) : Separator.CutFree ">>>".toList s.toList ↔
    contains s ">>>" = false ∧ s.toList.getLast? ≠ some '>' := by
  rw [separator_eq, Separator.cutFree_replicate_iff, contains, decide_eq_false_iff_not,
    separator_eq]

theorem splittable_traffic {email metric : String} (hmetric : metric ∈ metrics) :
    Separator.Splittable ">>>".toList (["user", email, "traffic", metric].map String.toList) ↔
      contains email ">>>" = false ∧ email.toList.getLast? ≠ some '>' := by
  have hlast : ¬">>>".toList <:+: metric.toList := by
    rcases List.mem_cons.mp hmetric with rfl | h
    · decide
    · rw [List.mem_singleton.mp h]
      decide
  have hfixed : Separator.CutFree ">>>".toList "user".toList ∧
      Separator.CutFree ">>>".toList "traffic".toList := by
    rw [cutFree_iff, cutFree_iff]
    decide
  rw [← cutFree_iff]
  exact ⟨fun h => h.2.1, fun h => ⟨hfixed.1, h, hfixed.2, hlast⟩⟩

theorem exists_of_getElem? {α : Type} {l : List α} {a b c d : α} (ha : l[0]? = some a)
    (hb : l[1]? = some b) (hc : l[2]? = some c) (hd : l[3]? = some d) :
    ∃ rest, l = a :: b :: c :: d :: rest := by
  match l with
  | [] | [_] | [_, _] | [_, _, _] => simp at hd
  | _ :: _ :: _ :: _ :: rest =>
    cases ha
    cases hb
    cases hc
    cases hd
    exact ⟨rest, rfl⟩

theorem rest_eq_nil {a b c d : String} {rest : List String}
    (h : ">>>".intercalate (a :: b :: c :: d :: rest) = ">>>".intercalate [a, b, c, d]) :
    rest = [] := by
  cases rest with
  | nil => rfl
  | cons e rest =>
    have hlist := congrArg String.toList h
    simp [String.toList_intercalate] at hlist

/-- Exactly the emails that have no separator and do not end with its character are read back from
the names of their counters. -/
theorem isTraffic_parse_iff {email metric : String} (hmetric : metric ∈ metrics) :
    IsTraffic email metric (parseStatName (trafficName email metric)) ↔
      contains email ">>>" = false ∧ email.toList.getLast? ≠ some '>' := by
  rw [← splittable_traffic hmetric, trafficName_eq]
  constructor
  · rintro ⟨hscope, hid, hcategory, hmetric⟩
    obtain ⟨rest, hparts⟩ := exists_of_getElem? hscope hid hcategory hmetric
    have hjoin := intercalate_splitStr (">>>".intercalate ["user", email, "traffic", metric])
    rw [hparts] at hjoin
    rw [rest_eq_nil hjoin] at hparts
    exact splitStr_intercalate_iff.mp hparts
  · intro h
    rw [IsTraffic, parseStatName, splitStr_intercalate_iff.mpr h]
    exact ⟨rfl, rfl, rfl, rfl⟩

/-! ### Sets of identifiers -/

theorem mem_foldl_ids {records : List StatRecord} {emails : Std.ExtTreeSet String byteOrder}
    {id : String} :
    id ∈ records.foldl (fun emails record => record.id.elim emails emails.insert) emails ↔
      id ∈ emails ∨ ∃ r ∈ records, r.id = some id := by
  induction records generalizing emails with
  | nil => simp
  | cons record records ih =>
    rw [List.foldl_cons, ih]
    cases hid : record.id with
    | none => simp [hid]
    | some email =>
      rw [Option.elim_some, Std.ExtTreeSet.mem_insert, Std.LawfulEqCmp.compare_eq_iff_eq]
      simp [hid, or_assoc, or_left_comm]

theorem mem_collectIds {records : List StatRecord} {id : String} :
    id ∈ (collectIds records).toList ↔ ∃ r ∈ records, r.id = some id := by
  rw [Std.ExtTreeSet.mem_toList, collectIds, mem_foldl_ids]
  simp

def StatsService.StatRecord.ofStat (s : Stat) : StatRecord :=
  { parseStatName s.name with value := s.value }

theorem mem_collectIds_ofStat {stats : List Stat} {id : String} :
    id ∈ (collectIds (stats.map StatRecord.ofStat)).toList ↔
      ∃ s ∈ stats, (parseStatName s.name).id = some id := by
  rw [mem_collectIds]
  simp only [List.mem_map, exists_exists_and_eq_and]
  rfl

/-! ### Stores of counters -/

inductive Scope where
  | user
  | inbound
  | outbound
  deriving DecidableEq

def Scope.name : Scope → String
  | .user => "user"
  | .inbound => "inbound"
  | .outbound => "outbound"

/-- A counter of a node: its name is its fields with `>>>` between them, and no field has a `>`. -/
structure Counter where
  scope : Scope
  rest : List String
  value : Int
  plain : ∀ field ∈ rest, '>' ∉ field.toList

namespace Counter

def fields (c : Counter) : List String := c.scope.name :: c.rest

def name (c : Counter) : String := ">>>".intercalate c.fields

def id (c : Counter) : Option String := c.rest.head?

def stat (c : Counter) : Stat := { name := c.name, value := c.value }

/-- A field between the first and the last one ends with `user`. -/
def Confusable (c : Counter) : Prop :=
  ∃ field ∈ c.rest.dropLast, "user".toList <:+ field.toList

def Listed (c : Counter) : Prop := (c.scope = .user ∧ c.rest ≠ []) ∨ c.Confusable

theorem plain_fields (c : Counter) : ∀ field ∈ c.fields.map String.toList, '>' ∉ field := by
  intro l hl
  obtain ⟨field, hmem, rfl⟩ := List.mem_map.mp hl
  rw [fields] at hmem
  rcases List.mem_cons.mp hmem with rfl | hmem
  · cases c.scope <;> decide
  · exact c.plain field hmem

theorem splitStr_name (c : Counter) : splitStr ">>>" c.name = c.fields :=
  splitStr_intercalate_iff.mpr
    (Separator.splittable_of_notMem (n := 2) (by simp [fields]) c.plain_fields)

theorem id_parse (c : Counter) : (parseStatName c.name).id = c.id := by
  rw [parseStatName, c.splitStr_name, id, List.head?_eq_getElem?]
  rfl

theorem contains_name_iff (c : Counter) : contains c.name "user>>>" = true ↔ c.Listed := by
  have hpattern : ("user>>>" : String).toList = "user".toList ++ List.replicate (2 + 1) '>' := rfl
  have hscope : "user".toList <:+ c.scope.name.toList ↔ c.scope = .user := by
    cases c.scope <;> decide
  rw [contains, decide_eq_true_iff, name, String.toList_intercalate, hpattern, separator_eq,
    Separator.infix_intercalate_iff (by decide) (by decide) c.plain_fields, Listed, Confusable,
    ← hscope, fields]
  cases c.rest with
  | nil => simp
  | cons field rest =>
    rw [List.map_cons, List.map_cons, List.dropLast_cons_cons, ← List.map_cons,
      ← List.map_dropLast]
    simp only [List.mem_cons, exists_eq_or_imp, List.mem_map, exists_exists_and_eq_and, ne_eq,
      reduceCtorEq, not_false_eq_true, and_true]

theorem Confusable.isSome_id {c : Counter} (h : c.Confusable) : c.id.isSome := by
  obtain ⟨field, hmem, -⟩ := h
  rw [id]
  cases hrest : c.rest with
  | nil =>
    rw [hrest] at hmem
    cases hmem
  | cons => rfl

theorem exists_listed_iff {counters : List Counter} {id : String} :
    (∃ c ∈ counters, c.Listed ∧ c.id = some id) ↔
      (∃ c ∈ counters, c.scope = .user ∧ c.id = some id) ∨
      ∃ c ∈ counters, c.scope ≠ .user ∧ c.Confusable ∧ c.id = some id := by
  constructor
  · rintro ⟨c, hc, hlisted, hid⟩
    by_cases hscope : c.scope = .user
    · exact Or.inl ⟨c, hc, hscope, hid⟩
    · have hconfusable := hlisted.resolve_left fun hlisted => hscope hlisted.1
      exact Or.inr ⟨c, hc, hscope, hconfusable, hid⟩
  · rintro (⟨c, hc, hscope, hid⟩ | ⟨c, hc, -, hconfusable, hid⟩)
    · refine ⟨c, hc, Or.inl ⟨hscope, fun hrest => ?_⟩, hid⟩
      rw [Counter.id, hrest] at hid
      cases hid
    · exact ⟨c, hc, Or.inr hconfusable, hid⟩

end Counter

/-! ### Nodes -/

section

variable [Platform]

/-- A node that answers every query with counters of which `P` holds for the pattern. -/
def Replies (P : String → List Stat → Prop) (answers : Answers) : Prop :=
  ∀ channel metadata pattern reset, ∃ stats : List Stat,
    answers (.rpc ⟨channel, metadata, .queryStats pattern reset⟩) =
      (.ok stats : Except Status (List Stat)) ∧ P pattern stats

/-- A node that reports, for a pattern, every counter whose name contains it. -/
def Reports (counters : List Stat) : Answers → Prop :=
  Replies fun pattern stats => ∀ s ∈ counters, contains s.name pattern = true → s ∈ stats

/-- A node that reports exactly these counters, in any order and any number of times. -/
def ReportsExactly (counters : List Stat) : Answers → Prop :=
  Replies fun pattern stats => ∀ s, s ∈ stats ↔ s ∈ counters ∧ contains s.name pattern = true

theorem outcome_queryStats {answers : Answers} {client : XrayClient} {pattern : String}
    {reset : Bool} {stats : List Stat}
    (h : answers (.rpc ⟨client.channel,
        (StatsService.addToken (.new (.queryStats pattern reset)) client.token).metadata,
        .queryStats pattern reset⟩) = (.ok stats : Except Status (List Stat))) :
    outcome answers (queryStats client pattern reset) = .ok (stats.map StatRecord.ofStat) :=
  outcome_operation answers h

theorem Replies.queryStats {P : String → List Stat → Prop} {answers : Answers}
    (h : Replies P answers) (client : XrayClient) (pattern : String) (reset : Bool) :
    ∃ stats : List Stat,
      outcome answers (queryStats client pattern reset) = .ok (stats.map StatRecord.ofStat) ∧
      P pattern stats := by
  obtain ⟨stats, hstats, hP⟩ := h client.channel
    (StatsService.addToken (.new (.queryStats pattern reset)) client.token).metadata pattern reset
  exact ⟨stats, outcome_queryStats hstats, hP⟩

theorem outcome_listUsers {answers : Answers} {client : XrayClient} {records : List StatRecord}
    (h : outcome answers (queryStats client "user>>>" false) = .ok records) :
    outcome answers (listUsers client) = .ok (collectIds records).toList := by
  rw [listUsers, outcome_bind, h]
  rfl

/-- A node that answers from a list of counters and accepts every change of its users. -/
def replyFrom (counters : List Stat) : (message : Rpc) → Except Status message.Reply
  | .queryStats pattern _ => .ok (counters.filter fun s => contains s.name pattern)
  | .getStats name _ => .ok (counters.find? (·.name = name))
  | .alterInbound _ => .ok ()
  | _ => .error ⟨.unimplemented, ""⟩

def answersFrom (counters : List Stat) : Answers
  | .trace _ => ()
  | .rpc request => replyFrom counters request.rpc

theorem reportsExactly_answersFrom (counters : List Stat) :
    ReportsExactly counters (answersFrom counters) :=
  fun _ _ _ _ => ⟨_, rfl, fun _ => List.mem_filter⟩

theorem ReportsExactly.reports {counters : List Stat} {answers : Answers}
    (h : ReportsExactly counters answers) : Reports counters answers := by
  intro channel metadata pattern reset
  obtain ⟨stats, hstats, hmem⟩ := h channel metadata pattern reset
  exact ⟨stats, hstats, fun s hs hcontains => (hmem s).mpr ⟨hs, hcontains⟩⟩

/-! ### Emails -/

/-- A request to add a user with the email succeeds, with some answer of the node. -/
def AddSucceeds (client : XrayClient) (email : String) : Prop :=
  ∃ answers, ∃ body : AddUserBody, body.email = email ∧
    ∃ result, outcome answers (addUserHandler.run client () body) = .ok (createdJson result)

def vlessBody (email : String) : AddUserBody where
  tag := "inbound"
  email := email
  proto := defaultProto
  level := 0
  uuid := ""
  flow := ""
  vmessSecurity := defaultVmessSecurity
  password := ""
  ssCipher := defaultSsCipher

theorem addSucceeds (client : XrayClient) (email : String) : AddSucceeds client email := by
  have hproto : toLowercase defaultProto = "vless" := rfl
  refine ⟨answersFrom [], vlessBody email, rfl, operationResult "add-user" (.obj [
    ("tag", .str "inbound"), ("email", .str email), ("proto", .str defaultProto)]), ?_⟩
  have hadd : outcome (answersFrom []) (addUser client "inbound" email defaultProto 0 "" ""
      defaultVmessSecurity "" defaultSsCipher) = .ok () := by
    rw [addUser, hproto, buildAccountTypedMessage, if_pos rfl]
    rfl
  show outcome _ (addUser client "inbound" email defaultProto 0 "" "" defaultVmessSecurity ""
    defaultSsCipher >>= _) = _
  rw [outcome_bind, hadd]
  rfl

/-- The list of users shows the email, and so do the records of the traffic counters of the user,
on every node that has these counters. -/
def SurvivesListing (client : XrayClient) (email : String) : Prop :=
  ∀ answers counters, Reports counters answers →
    (∀ metric ∈ metrics, ∃ s ∈ counters, s.name = trafficName email metric) →
    (∃ users : List String, outcome answers (listUsersHandler.run client () ()) =
      .ok (okJson (.arr (users.map .str))) ∧ email ∈ users) ∧
    ∀ metric ∈ metrics,
      (∀ pattern reset, ∃ records : List StatRecord,
        outcome answers (queryStats client pattern reset) = .ok records ∧
        (contains (trafficName email metric) pattern = true →
          ∃ r ∈ records, r.name = trafficName email metric) ∧
        ∀ r ∈ records, r.name = trafficName email metric → IsTraffic email metric r) ∧
      ∀ q response,
        outcome answers (getStatHandler.run client (trafficName email metric, q) ()) =
          .ok response →
        ∃ r : StatRecord, response = okJson r.toJson ∧ r.name = trafficName email metric ∧
          IsTraffic email metric r

theorem outcome_getStatHandler_eq (answers : Answers) (client : XrayClient) (name : String)
    (q : ResetQuery) :
    outcome answers (getStatHandler.run client (name, q) ()) =
      outcome answers (getStat client name q.reset) >>= fun value =>
        .ok (okJson (StatRecord.toJson { parseStatName name with value })) :=
  outcome_bind ..

theorem outcome_getStatHandler {answers : Answers} {client : XrayClient} {name : String}
    {q : ResetQuery} {response : Response}
    (h : outcome answers (getStatHandler.run client (name, q) ()) = .ok response) :
    ∃ value, response = okJson (StatRecord.toJson { parseStatName name with value }) := by
  rw [outcome_getStatHandler_eq] at h
  obtain ⟨value, -, hresponse⟩ := bind_eq_ok_iff.mp h
  exact ⟨value, (Except.ok.inj hresponse).symm⟩

theorem SurvivesListing.isTraffic {client : XrayClient} {email metric : String}
    (h : SurvivesListing client email) (hmetric : metric ∈ metrics) :
    IsTraffic email metric (parseStatName (trafficName email metric)) := by
  let counter (metric : String) : Stat := { name := trafficName email metric }
  have hcounters : ∀ metric ∈ metrics,
      ∃ s ∈ metrics.map counter, s.name = trafficName email metric :=
    fun metric hmetric => ⟨_, List.mem_map_of_mem hmetric, rfl⟩
  obtain ⟨-, h⟩ := h _ _ (reportsExactly_answersFrom _).reports hcounters
  obtain ⟨records, hrecords, hexists, hall⟩ := (h metric hmetric).1 "user>>>" false
  obtain ⟨r, hr, hname⟩ := hexists (contains_trafficName email metric)
  have htraffic := hall r hr hname
  rw [outcome_queryStats rfl] at hrecords
  cases hrecords
  obtain ⟨s, -, rfl⟩ := List.mem_map.mp hr
  have hname : s.name = trafficName email metric := hname
  rwa [← hname]

theorem survivesListing {client : XrayClient} {email : String}
    (h : ∀ metric ∈ metrics, IsTraffic email metric (parseStatName (trafficName email metric))) :
    SurvivesListing client email := by
  intro answers counters hreports hcounters
  refine ⟨?_, fun metric hmetric => ⟨fun pattern reset => ?_, fun q response hresponse => ?_⟩⟩
  · obtain ⟨stats, hstats, hmem⟩ := Replies.queryStats hreports client "user>>>" false
    refine ⟨(collectIds (stats.map StatRecord.ofStat)).toList, ?_, mem_collectIds_ofStat.mpr ?_⟩
    · show outcome answers (listUsers client >>= _) = _
      rw [outcome_bind, outcome_listUsers hstats]
      rfl
    · obtain ⟨s, hs, hname⟩ := hcounters "uplink" (by decide)
      refine ⟨s, hmem s hs ?_, ?_⟩
      · rw [hname, contains_trafficName]
      · rw [hname, (h "uplink" (by decide)).2.1]
  · obtain ⟨stats, hstats, hmem⟩ := Replies.queryStats hreports client pattern reset
    refine ⟨_, hstats, fun hcontains => ?_, fun r hr hname => ?_⟩
    · obtain ⟨s, hs, hname⟩ := hcounters metric hmetric
      rw [← hname] at hcontains
      exact ⟨StatRecord.ofStat s, List.mem_map_of_mem (hmem s hs hcontains), hname⟩
    · obtain ⟨s, -, rfl⟩ := List.mem_map.mp hr
      have hname : s.name = trafficName email metric := hname
      have htraffic := h metric hmetric
      rwa [← hname] at htraffic
  · obtain ⟨value, rfl⟩ := outcome_getStatHandler hresponse
    exact ⟨_, rfl, rfl, h metric hmetric⟩

/-- An email with which a user can be added is shown by the list of users and by the records of its
counters exactly when it does not contain the separator of names and does not end with `>`. -/
theorem survivesListing_iff (client : XrayClient) (email : String) :
    (AddSucceeds client email → SurvivesListing client email) ↔
      contains email ">>>" = false ∧ email.toList.getLast? ≠ some '>' := by
  constructor
  · intro h
    have hmetric : "uplink" ∈ metrics := by decide
    exact (isTraffic_parse_iff hmetric).mp ((h (addSucceeds client email)).isTraffic hmetric)
  · intro h _
    exact survivesListing fun metric hmetric => (isTraffic_parse_iff hmetric).mpr h

/-! ### Users -/

/-- The users that a list of counters has. -/
def ListsUsers (client : XrayClient) (counters : List Counter) : Prop :=
  ∀ answers, ReportsExactly (counters.map Counter.stat) answers →
    ∃ users : List String, outcome answers (listUsers client) = .ok users ∧
      users.Pairwise (fun a b => byteOrder a b = .lt) ∧
      (∀ id, id ∈ users ↔ ∃ c ∈ counters, c.scope = .user ∧ c.id = some id) ∧
      ∀ answers', ReportsExactly (counters.map Counter.stat) answers' →
        outcome answers' (listUsers client) = .ok users

theorem outcome_listUsers_exactly {counters : List Counter} {answers : Answers}
    (h : ReportsExactly (counters.map Counter.stat) answers) (client : XrayClient) :
    ∃ emails : Std.ExtTreeSet String byteOrder,
      outcome answers (listUsers client) = .ok emails.toList ∧
      ∀ id, id ∈ emails ↔ ∃ c ∈ counters, c.Listed ∧ c.id = some id := by
  obtain ⟨stats, hstats, hmem⟩ := Replies.queryStats h client "user>>>" false
  refine ⟨collectIds (stats.map StatRecord.ofStat), outcome_listUsers hstats, fun id => ?_⟩
  rw [← Std.ExtTreeSet.mem_toList, mem_collectIds_ofStat]
  constructor
  · rintro ⟨s, hs, hid⟩
    obtain ⟨hs, hcontains⟩ := (hmem s).mp hs
    obtain ⟨c, hc, rfl⟩ := List.mem_map.mp hs
    exact ⟨c, hc, c.contains_name_iff.mp hcontains, c.id_parse ▸ hid⟩
  · rintro ⟨c, hc, hlisted, hid⟩
    refine ⟨c.stat, (hmem _).mpr ⟨List.mem_map_of_mem hc, c.contains_name_iff.mpr hlisted⟩, ?_⟩
    exact c.id_parse.trans hid

/-- Order and repetitions in the answers of a node do not matter. -/
theorem outcome_listUsers_congr {counters : List Counter} {a b : Answers}
    (ha : ReportsExactly (counters.map Counter.stat) a)
    (hb : ReportsExactly (counters.map Counter.stat) b) (client : XrayClient) :
    outcome a (listUsers client) = outcome b (listUsers client) := by
  obtain ⟨emails, hemails, hmem⟩ := outcome_listUsers_exactly ha client
  obtain ⟨emails', hemails', hmem'⟩ := outcome_listUsers_exactly hb client
  have heq : emails = emails' := Std.ExtTreeSet.ext_mem fun id => (hmem id).trans (hmem' id).symm
  rw [hemails, hemails', heq]

/-- The list of users of a store of counters is the strictly ascending list of the identifiers of
its user counters, whatever order and repetitions the node answers with, exactly when each counter
of another scope that has `user` at the end of a field before its last one shares its identifier
with a user counter. -/
theorem listsUsers_iff (client : XrayClient) (counters : List Counter) :
    ListsUsers client counters ↔
      ∀ c ∈ counters, c.scope ≠ .user → c.Confusable →
        ∃ u ∈ counters, u.scope = .user ∧ u.id = c.id := by
  constructor
  · intro h c hc hscope hconfusable
    have hreports := reportsExactly_answersFrom (counters.map Counter.stat)
    obtain ⟨users, husers, -, hmem, -⟩ := h _ hreports
    obtain ⟨emails, hemails, hmem'⟩ := outcome_listUsers_exactly hreports client
    rw [hemails] at husers
    cases husers
    obtain ⟨id, hid⟩ := Option.isSome_iff_exists.mp hconfusable.isSome_id
    rw [hid]
    have hlisted := (hmem' id).mpr ⟨c, hc, Or.inr hconfusable, hid⟩
    exact (hmem id).mp (Std.ExtTreeSet.mem_toList.mpr hlisted)
  · intro h answers hreports
    obtain ⟨emails, hemails, hmem⟩ := outcome_listUsers_exactly hreports client
    refine ⟨emails.toList, hemails, Std.ExtTreeSet.ordered_toList, fun id => ?_, ?_⟩
    · rw [Std.ExtTreeSet.mem_toList, hmem, Counter.exists_listed_iff]
      refine or_iff_left_of_imp ?_
      rintro ⟨c, hc, hscope, hconfusable, hid⟩
      rw [← hid]
      exact h c hc hscope hconfusable
    · intro answers' hreports'
      rw [outcome_listUsers_congr hreports' hreports, hemails]

end

open Reference

def statsClient : XrayClient where
  channel := ⟨(⟨"a.example", 443⟩ : Reference.Uri), 0⟩
  token := "t"
  name := none

/-- The counters of a user whose email ends with a character of the separator. -/
def edgeCounters : List Stat := metrics.map fun metric => { name := trafficName "a>" metric }

theorem not_survivesListing :
    AddSucceeds statsClient "a>" ∧
      outcome (answersFrom edgeCounters) (listUsersHandler.run statsClient () ()) =
        .ok (okJson (.arr [.str "a"])) ∧
      ¬SurvivesListing statsClient "a>" := by
  refine ⟨addSucceeds statsClient "a>", rfl, fun h => ?_⟩
  have huplink : "uplink" ∈ metrics := by decide
  exact absurd (h.isTraffic huplink).2.1 (by decide)

/-- A counter of an inbound whose tag ends with `user`. -/
def superuserCounter : Counter where
  scope := .inbound
  rest := ["superuser", "traffic", "uplink"]
  value := 0
  plain := by decide

theorem outcome_listUsers_superuser :
    outcome (answersFrom [superuserCounter.stat]) (listUsers statsClient) = .ok ["superuser"] := by
  rfl

theorem not_listsUsers : ¬ListsUsers statsClient [superuserCounter] := by
  intro h
  obtain ⟨users, husers, -, hmem, -⟩ := h _ (reportsExactly_answersFrom [superuserCounter.stat])
  rw [outcome_listUsers_superuser] at husers
  cases husers
  obtain ⟨c, hc, hscope, -⟩ := (hmem "superuser").mp (by decide)
  rw [List.mem_singleton.mp hc] at hscope
  cases hscope

end XrayBridge
