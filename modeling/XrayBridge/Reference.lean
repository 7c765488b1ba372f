import XrayBridge.Messages
import XrayBridge.Platform

/-! A platform that satisfies the laws: small, computable versions of what the program is linked
with.  Statements about fixed inputs are evaluated on it. -/

namespace XrayBridge

namespace Reference

open PathTemplate (Template Captures Preferred capture segments)

/-- A cache: its capacity and its entries, the most recently used first. -/
structure Lru (K V : Type) where
  capacity : ℕ+
  entries : List (K × V)

structure Uri where
  host : String
  port : Nat
  deriving DecidableEq

/-- The bytes of header values: no control character but the tab. -/
def valueByte (b : UInt8) : Bool := (32 ≤ b && b != 127) || b == 9

def uriChar (c : Char) : Bool := c.isAlphanum || "-._~:/?#[]@!$&()*+,;=%".toList.contains c

def afterLastColon (l : List Char) : List Char := (l.reverse.takeWhile (· ≠ ':')).reverse

def portOf (l : List Char) : Nat := if ':' ∈ l then decimalValue (afterLastColon l) else 443

def parseUri (text : String) : Except String Uri :=
  match stripStart "https://" text with
  | none => .error "invalid format"
  | some rest =>
    let hostPort := UriAuthority.afterUserInfo (UriAuthority.authority rest.toList)
    if rest.toList.all uriChar && UriAuthority.isHost (UriAuthority.host hostPort) then
      .ok ⟨String.ofList (UriAuthority.hostOf rest.toList), portOf hostPort⟩
    else .error "invalid uri character"

/-- The template of a table that the path matches and that no other one is preferred to: the best
one so far, and the templates that are still to be looked at. -/
def bestRoute (parts : List String) (best : Option (Template × Captures)) :
    List Template → Option (Template × Captures)
  | [] => best
  | t :: table =>
    match capture t parts, best with
    | none, best => bestRoute parts best table
    | some caps, none => bestRoute parts (some (t, caps)) table
    | some caps, some (t', caps') =>
      bestRoute parts (if Preferred t t' then some (t, caps) else some (t', caps')) table

def jsonBody (headers : Headers) (body : Bytes) : Except AxumRejection Json :=
  if headers.get "content-type" ≠ some (utf8 "application/json") then
    .error .missingJsonContentType
  else if body = utf8 "\x7b\x7d" then .ok (.obj [])
  else .error .jsonSyntax

/-- The pairs of a query without encoded characters. -/
def formPairs (text : String) : List (String × String) :=
  ((text.toList.splitOn '&').filter (· ≠ [])).map fun pair =>
    (String.ofList (pair.takeWhile (· ≠ '=')), String.ofList ((pair.dropWhile (· ≠ '=')).drop 1))

def rejectionStatus : AxumRejection → Nat
  | .missingJsonContentType => 415
  | .jsonData => 422
  | .wrongNumberOfParameters => 500
  | _ => 400

scoped instance platform : Platform where
  lowerNonAscii _ c _ := [c]
  upperNonAscii c := [c]
  LruCache := Lru
  lruNew n := ⟨n, []⟩
  lruGet c k := (Recency.lookup k c.entries, { c with entries := Recency.promote k c.entries })
  lruPut c k v := { c with entries := Recency.insert c.capacity k v c.entries }
  lruPeek c := c.entries.getLast?
  lruLen c := c.entries.length
  lruCap c := c.capacity
  lruIter c := c.entries
  toStr v := if v.all visibleByte then some (String.ofList (v.map byteChar)) else none
  Uri := Uri
  parseUri := parseUri
  uriHost := Uri.host
  uriPort := Uri.port
  tlsConfig _ := .ok ()
  metadataTryFrom s := if (utf8 s).all valueByte then some (utf8 s) else none
  matchRoute table path := bestRoute (segments path) none table
  jsonBody := jsonBody
  formPairs := formPairs
  rejectionResponse _ r := ⟨rejectionStatus r, .text "rejected"⟩
  b64Decode text :=
    match Base64.decode text.toList with
    | some bytes => .ok bytes
    | none => .error "invalid base64"
  b64Encode bytes := String.ofList (Base64.encode bytes)
  encodeToVec k m := WireFormat.write (fieldsOf k m)
  decode k bytes := (WireFormat.read bytes).bind (messageOf k)

theorem lruLaws : LruLaws where
  iter_new _ := rfl
  cap_new _ := rfl
  get_value _ _ := rfl
  iter_get _ _ := rfl
  cap_get _ _ := rfl
  iter_put _ _ _ := rfl
  cap_put _ _ _ := rfl
  peek _ := rfl
  len _ := rfl

theorem headerLaws : HeaderLaws where
  toStr_iff v s := by
    simp only [Platform.toStr, Option.ite_none_right_eq_some, Option.some.injEq]
    refine and_congr_right fun _ => ⟨?_, ?_⟩
    · rintro rfl
      rw [String.toList_ofList]
    · intro h
      rw [← h, String.ofList_toList]

theorem valueByte_utf8EncodeChar {c : Char} (h : visibleChar c = true) :
    (String.utf8EncodeChar c).all valueByte = true := by
  have hall : ∀ n < 128, visibleChar (Char.ofNat n) = true →
      (String.utf8EncodeChar (Char.ofNat n)).all valueByte = true := by
    decide +kernel
  have hlt : c.toNat < 128 := by
    simp only [visibleChar, Bool.or_eq_true, Bool.and_eq_true, decide_eq_true_eq, beq_iff_eq] at h
    omega
  have hc := hall c.toNat hlt
  rw [Char.ofNat_toNat] at hc
  exact hc h

theorem metadataLaws : MetadataLaws where
  tryFrom s h := by
    rw [List.all_eq_true] at h
    refine if_pos (List.all_eq_true.mpr fun b hb => ?_)
    obtain ⟨c, hc, hbyte⟩ := List.mem_flatMap.mp hb
    exact List.all_eq_true.mp (valueByte_utf8EncodeChar (h c hc)) b hbyte

theorem rejectionLaws : RejectionLaws where
  status request r := by
    show 400 ≤ rejectionStatus r
    cases r <;> decide
  text _ _ := ⟨_, rfl⟩

theorem base64Laws : Base64Laws where
  encode _ := rfl
  decode_iff text bytes := by
    have hiff : Base64.decode text.toList = some bytes ↔
        String.ofList (Base64.encode bytes) = text := by
      rw [Base64.decode_eq_some_iff, ← String.toList_inj, String.toList_ofList]
    rw [show Platform.b64Encode bytes = String.ofList (Base64.encode bytes) from rfl, ← hiff]
    show (match Base64.decode text.toList with
      | some bytes => .ok bytes
      | none => .error "invalid base64" : Except String Bytes) = _ ↔ _
    cases Base64.decode text.toList <;> simp

theorem prostLaws : ProstLaws where
  decode_encode k m h := by
    show (WireFormat.read (WireFormat.write (fieldsOf k m))).bind (messageOf k) = some m
    rw [WireFormat.read_write, Option.bind_some, messageOf_fieldsOf k m h]

/-! ### URIs -/

theorem stripStart_append (start rest : String) : stripStart start (start ++ rest) = some rest := by
  rw [stripStart, if_pos (by simp), String.toList_append, List.drop_left, String.ofList_toList]

theorem afterLastColon_append {before digits : List Char} (h : ':' ∉ digits) :
    afterLastColon (before ++ ':' :: digits) = digits := by
  have hrev : (before ++ ':' :: digits).reverse = digits.reverse ++ ':' :: before.reverse := by
    simp
  rw [afterLastColon, hrev, UriAuthority.takeWhile_ne_append_cons (by simpa using h),
    List.reverse_reverse]

theorem parseUri_eq {rest : String} {u : Uri} (h : parseUri ("https://" ++ rest) = .ok u) :
    u = ⟨String.ofList (UriAuthority.hostOf rest.toList),
      portOf (UriAuthority.afterUserInfo (UriAuthority.authority rest.toList))⟩ := by
  rw [parseUri, stripStart_append] at h
  dsimp only at h
  split at h
  · exact (Except.ok.inj h).symm
  · cases h

theorem uriLaws : UriLaws where
  host rest u h := by
    rw [parseUri_eq h]
    exact String.toList_ofList
  port rest u before p h hport := by
    have hcolon : ':' ∉ (showU16 p).toList := by
      intro hc
      have := isDigit_of_mem_showU16 hc
      revert this
      decide
    rw [parseUri_eq h]
    show portOf _ = _
    rw [hport, portOf, if_pos (by simp), afterLastColon_append hcolon, decimalValue_showU16]
  noPort rest u h hport := by
    rw [parseUri_eq h]
    exact if_neg hport

/-! ### Routes -/

theorem not_preferred_self (t : Template) : ¬Preferred t t := by
  induction t with
  | nil => exact id
  | cons a t ih =>
    rintro (h | ⟨-, h⟩)
    · exact absurd h (lt_irrefl _)
    · exact ih h

theorem Preferred.trans {a b c : Template} (hab : Preferred a b) (hbc : Preferred b c) :
    Preferred a c := by
  match a, b, c, hab, hbc with
  | x :: a, y :: b, z :: c, hab, hbc =>
    rcases hab with hab | ⟨hxy, hab⟩
    · rcases hbc with hbc | ⟨hyz, -⟩
      · exact Or.inl (hab.trans hbc)
      · exact Or.inl (hyz ▸ hab)
    · rcases hbc with hbc | ⟨hyz, hbc⟩
      · exact Or.inl (hxy ▸ hbc)
      · exact Or.inr ⟨hxy.trans hyz, Preferred.trans hab hbc⟩

/-- What a search holds after it has looked at the templates of `seen`: nothing if none of them
matches, and otherwise one that matches and that none of them is preferred to. -/
def Best (parts : List String) (seen : List Template) : Option (Template × Captures) → Prop
  | none => ∀ t ∈ seen, capture t parts = none
  | some (t, caps) => t ∈ seen ∧ capture t parts = some caps ∧
      ∀ t' ∈ seen, (capture t' parts).isSome → ¬Preferred t' t

theorem Best.cons_of_none {parts : List String} {best : Option (Template × Captures)}
    {seen : List Template} {t : Template} (h : Best parts seen best)
    (ht : capture t parts = none) : Best parts (seen ++ [t]) best := by
  cases best with
  | none =>
    intro t' ht'
    rcases List.mem_append.mp ht' with ht' | ht'
    · exact h t' ht'
    · rwa [List.mem_singleton.mp ht']
  | some best =>
    refine ⟨List.mem_append_left _ h.1, h.2.1, fun t' ht' hsome => ?_⟩
    rcases List.mem_append.mp ht' with ht' | ht'
    · exact h.2.2 t' ht' hsome
    · rw [List.mem_singleton.mp ht', ht] at hsome
      cases hsome

theorem best_bestRoute {parts : List String} {best : Option (Template × Captures)}
    {seen table : List Template} (h : Best parts seen best) :
    Best parts (seen ++ table) (bestRoute parts best table) := by
  induction table generalizing seen best with
  | nil => simpa [bestRoute] using h
  | cons t table ih =>
    have hassoc : seen ++ t :: table = (seen ++ [t]) ++ table := by simp
    rw [hassoc]
    unfold bestRoute
    cases hcaps : capture t parts with
    | none => exact ih (h.cons_of_none hcaps)
    | some caps =>
      cases best with
      | none =>
        refine ih ⟨by simp, hcaps, fun t' ht' hsome => ?_⟩
        rcases List.mem_append.mp ht' with ht' | ht'
        · rw [h t' ht'] at hsome
          cases hsome
        · rw [List.mem_singleton.mp ht']
          exact not_preferred_self t
      | some best =>
        obtain ⟨t₀, caps₀⟩ := best
        by_cases hpref : Preferred t t₀
        · simp only [if_pos hpref]
          refine ih ⟨by simp, hcaps, fun t' ht' hsome hp => ?_⟩
          rcases List.mem_append.mp ht' with ht' | ht'
          · exact h.2.2 t' ht' hsome (Preferred.trans hp hpref)
          · rw [List.mem_singleton.mp ht'] at hp
            exact not_preferred_self t hp
        · simp only [if_neg hpref]
          refine ih ⟨List.mem_append_left _ h.1, h.2.1, fun t' ht' hsome => ?_⟩
          rcases List.mem_append.mp ht' with ht' | ht'
          · exact h.2.2 t' ht' hsome
          · rwa [List.mem_singleton.mp ht']

theorem best_matchRoute (table : List Template) (path : String) :
    Best (segments path) table (Platform.matchRoute table path) := by
  have hnone : Best (segments path) [] none := by simp [Best]
  exact best_bestRoute hnone

theorem routeLaws : RouteLaws where
  sound table path t caps h := by
    have hbest := best_matchRoute table path
    rw [h] at hbest
    exact ⟨hbest.1, hbest.2.1⟩
  complete table path t ht h := by
    have hbest := best_matchRoute table path
    rw [Option.isSome_iff_ne_none]
    intro hnone
    rw [hnone] at hbest
    rw [hbest t ht] at h
    cases h
  prefers table path t t' caps h ht hmatch := by
    have hbest := best_matchRoute table path
    rw [h] at hbest
    exact hbest.2.2 t' ht hmatch

end Reference

end XrayBridge
