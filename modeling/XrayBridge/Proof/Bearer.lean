import XrayBridge.Proof.Authentication

/-! The grammar of `BearerAuth`: which values of the `Authorization` header authenticate a
request. -/

namespace XrayBridge

open Platform

/-! ### Comparison -/

/-- The bits that the loop of `constant_time_eq` has collected are all zero exactly when no pair of
bytes has differed so far. -/
theorem foldl_or_xor_eq_zero_iff {pairs : List (UInt8 × UInt8)} {result : UInt8} :
    pairs.foldl (fun result pair => result ||| (pair.1 ^^^ pair.2)) result = 0 ↔
      result = 0 ∧ ∀ pair ∈ pairs, pair.1 = pair.2 := by
  induction pairs generalizing result with
  | nil => simp
  | cons pair pairs ih =>
    rw [List.foldl_cons, ih, UInt8.or_eq_zero_iff, UInt8.xor_eq_zero_iff, List.forall_mem_cons,
      and_assoc]

theorem eq_of_zip_eq {a b : Bytes} (hlength : a.length = b.length)
    (h : ∀ pair ∈ a.zip b, pair.1 = pair.2) : a = b :=
  calc
    a = (a.zip b).map Prod.fst := (List.map_fst_zip hlength.le).symm
    _ = (a.zip b).map Prod.snd := List.map_congr_left h
    _ = b := List.map_snd_zip hlength.ge

theorem constantTimeEq_iff {a b : Bytes} : constantTimeEq a b = true ↔ a = b := by
  unfold constantTimeEq
  split
  · rename_i hlength
    refine iff_of_false Bool.false_ne_true ?_
    rintro rfl
    exact hlength rfl
  · rename_i hlength
    rw [beq_iff_eq, foldl_or_xor_eq_zero_iff]
    constructor
    · rintro ⟨-, hpairs⟩
      exact eq_of_zip_eq (not_not.mp hlength) hpairs
    · rintro rfl
      refine ⟨rfl, fun pair hpair => ?_⟩
      rw [List.zip_eq_zipWith, List.zipWith_self] at hpair
      obtain ⟨byte, -, rfl⟩ := List.mem_map.mp hpair
      rfl

/-! ### Readable values -/

theorem utf8EncodeChar_byteChar {b : UInt8} (h : visibleByte b = true) :
    String.utf8EncodeChar (byteChar b) = [b] := by
  have hall : ∀ n < 256, visibleByte (UInt8.ofNat n) = true →
      String.utf8EncodeChar (byteChar (UInt8.ofNat n)) = [UInt8.ofNat n] := by
    decide +kernel
  have hb := hall b.toNat b.toNat_lt
  rw [UInt8.ofNat_toNat] at hb
  exact hb h

theorem flatMap_utf8EncodeChar {v : Bytes} (h : v.all visibleByte = true) :
    (v.map byteChar).flatMap String.utf8EncodeChar = v := by
  rw [List.all_eq_true] at h
  rw [List.flatMap_map]
  induction v with
  | nil => rfl
  | cons b v ih =>
    rw [List.flatMap_cons, utf8EncodeChar_byteChar (h b List.mem_cons_self),
      ih fun b' hb' => h b' (List.mem_cons_of_mem _ hb')]
    rfl

theorem byteChar_ofNat {c : Char} (h : visibleChar c = true) :
    byteChar (UInt8.ofNat c.toNat) = c := by
  have hlt : c.toNat < UInt8.size := (lt_of_visibleChar h).trans (by decide)
  rw [byteChar, UInt8.toNat_ofNat_of_lt' hlt, Char.ofNat_toNat]

/-- The values that `BearerAuth` accepts for a token: visible bytes, `bearer ` in any case, and the
token. -/
def IsBearer (bridgeToken : String) (v : Bytes) : Prop :=
  (∀ b ∈ v, (32 ≤ b ∧ b ≤ 126) ∨ b = 9) ∧
    ∃ start : String, start.length = 7 ∧ start.toLower = "bearer " ∧
      v = utf8 start ++ utf8 bridgeToken

theorem visibleByte_iff {b : UInt8} : visibleByte b = true ↔ (32 ≤ b ∧ b ≤ 126) ∨ b = 9 := by
  have hle : b < 127 ↔ b ≤ 126 := by
    rw [UInt8.lt_iff_toNat_lt, UInt8.le_iff_toNat_le]
    exact Nat.lt_succ_iff
  simp only [visibleByte, Bool.or_eq_true, Bool.and_eq_true, decide_eq_true_eq, beq_iff_eq, hle]

theorem utf8_append (s t : String) : utf8 (s ++ t) = utf8 s ++ utf8 t := by
  rw [utf8, String.toList_append, List.flatMap_append, utf8, utf8]

theorem toList_toLower (s : String) : s.toLower.toList = s.toList.map Char.toLower :=
  String.toList_map

theorem length_of_toLower {start : String} (h : start.toLower = "bearer ") :
    start.toList.length = 7 := by
  rw [← List.length_map Char.toLower, ← toList_toLower, h]
  rfl

theorem append_bearer_inj {start start' rest rest' : String} (h : start.toLower = "bearer ")
    (h' : start'.toLower = "bearer ") (heq : start ++ rest = start' ++ rest') : rest = rest' := by
  have hlists := congrArg String.toList heq
  rw [String.toList_append, String.toList_append] at hlists
  have hlength := (length_of_toLower h).trans (length_of_toLower h').symm
  exact String.toList_inj.mp (List.append_inj hlists hlength).2

theorem stripStart_eq_some_iff {start s rest : String} :
    stripStart start s = some rest ↔ s = start ++ rest := by
  rw [stripStart, Option.ite_none_right_eq_some, Option.some.injEq]
  constructor
  · rintro ⟨⟨tail, htail⟩, rfl⟩
    rw [← htail, List.drop_left, ← String.toList_inj, String.toList_append, String.toList_ofList,
      htail]
  · rintro rfl
    rw [String.toList_append, List.drop_left, String.ofList_toList]
    exact ⟨List.prefix_append _ _, rfl⟩

section

variable [Platform]

theorem utf8_of_toStr (laws : HeaderLaws) {v : Bytes} {s : String} (h : toStr v = some s) :
    utf8 s = v := by
  obtain ⟨hall, hlist⟩ := (laws.toStr_iff v s).mp h
  rw [utf8, hlist, flatMap_utf8EncodeChar hall]

theorem toStr_utf8_iff (laws : HeaderLaws) (v : Bytes) (s : String) :
    toStr v = some s ↔ v.all visibleByte = true ∧ v = utf8 s := by
  constructor
  · intro h
    exact ⟨((laws.toStr_iff v s).mp h).1, (utf8_of_toStr laws h).symm⟩
  · rintro ⟨hall, hv⟩
    have h := (laws.toStr_iff v (String.ofList (v.map byteChar))).mpr ⟨hall, String.toList_ofList⟩
    have heq := (utf8_of_toStr laws h).trans hv
    rwa [utf8_injective heq] at h

/-- A text of visible characters is read back from its bytes. -/
theorem toStr_of_visible (laws : HeaderLaws) {s : String} (h : s.toList.all visibleChar = true) :
    toStr (utf8 s) = some s := by
  rw [List.all_eq_true] at h
  have hbytes : toStr (s.toList.map fun c => UInt8.ofNat c.toNat) = some s := by
    rw [laws.toStr_iff, List.all_map, List.all_eq_true, List.map_map]
    constructor
    · intro c hc
      show visibleByte (UInt8.ofNat c.toNat) = true
      rw [← visibleChar_byteChar, byteChar_ofNat (h c hc)]
      exact h c hc
    · exact ((List.map_congr_left fun c hc => byteChar_ofNat (h c hc)).trans (List.map_id' _)).symm
  rw [utf8_of_toStr laws hbytes]
  exact hbytes

/-! ### Tokens -/

theorem startsWith_toLowercase_iff {s : String} (hs : ∀ c ∈ s.toList, c.toNat < 128) :
    startsWith (toLowercase s) "bearer " = true ↔
      ∃ start rest : String, start.toLower = "bearer " ∧ s = start ++ rest := by
  rw [startsWith, decide_eq_true_eq, toLowercase, lowerFrom_ascii [] hs]
  rw [String.toList_ofList (l := s.toList.map Char.toLower)]
  constructor
  · intro h
    have htake : "bearer ".toList = (s.toList.map Char.toLower).take 7 :=
      List.prefix_iff_eq_take.mp h
    refine ⟨String.ofList (s.toList.take 7), String.ofList (s.toList.drop 7), ?_, ?_⟩
    · apply String.toList_inj.mp
      rw [toList_toLower, String.toList_ofList, List.map_take, htake]
    · rw [← String.ofList_append, List.take_append_drop, String.ofList_toList]
  · rintro ⟨start, rest, hstart, rfl⟩
    rw [String.toList_append, List.map_append, ← toList_toLower, hstart]
    exact List.prefix_append _ _

/-- Both paths find the same token: what follows seven characters that are `bearer ` in some
case. -/
theorem bearerToken_eq_ok_iff {s token : String} (hs : ∀ c ∈ s.toList, c.toNat < 128) :
    bearerToken s = .ok token ↔ ∃ start, start.toLower = "bearer " ∧ s = start ++ token := by
  have hlower : ("Bearer " : String).toLower = "bearer " := by decide +kernel
  unfold bearerToken
  split
  · rename_i rest hstrip
    rw [stripStart_eq_some_iff] at hstrip
    rw [Except.ok.injEq]
    constructor
    · rintro rfl
      exact ⟨_, hlower, hstrip⟩
    · rintro ⟨start, hstart, hs'⟩
      exact append_bearer_inj hlower hstart (hstrip.symm.trans hs')
  · split
    · rename_i hstarts
      rw [sliceFrom_of_bearer hs hstarts]
      obtain ⟨start, rest, hstart, rfl⟩ := (startsWith_toLowercase_iff hs).mp hstarts
      have hdrop : String.ofList ((start ++ rest).toList.drop 7) = rest := by
        rw [String.toList_append, List.drop_left' (length_of_toLower hstart),
          String.ofList_toList]
      dsimp only
      rw [hdrop, Except.ok.injEq]
      constructor
      · rintro rfl
        exact ⟨start, hstart, rfl⟩
      · rintro ⟨start', hstart', hs'⟩
        exact append_bearer_inj hstart hstart' hs'
    · rename_i hstarts
      rw [startsWith_toLowercase_iff hs] at hstarts
      refine iff_of_false nofun ?_
      rintro ⟨start, hstart, hs'⟩
      exact hstarts ⟨start, token, hstart, hs'⟩

/-! ### Requests -/

theorem bearerAuth_eq_ok_iff {settings : Settings} {headers : Headers} :
    bearerAuth settings headers = .ok () ↔
      ∃ v s token, headers.get "authorization" = some v ∧ toStr v = some s ∧
        bearerToken s = .ok token ∧ token ≠ "" ∧ token = settings.bridgeToken := by
  unfold bearerAuth
  cases hstr : (headers.get "authorization").bind toStr with
  | none =>
    refine iff_of_false nofun ?_
    rintro ⟨v, s, token, hget, hs, -⟩
    rw [hget, Option.bind_some, hs] at hstr
    cases hstr
  | some s =>
    obtain ⟨v, hget, hs⟩ := Option.bind_eq_some_iff.mp hstr
    cases hbearer : bearerToken s with
    | error abort =>
      simp only [hbearer]
      refine iff_of_false nofun ?_
      rintro ⟨v', s', token, hget', hs', hbearer', -⟩
      rw [hget', Option.bind_some, hs'] at hstr
      cases hstr
      rw [hbearer] at hbearer'
      cases hbearer'
    | ok token =>
      simp only [hbearer]
      constructor
      · intro h
        change (if token.isEmpty then _ else if !constantTimeEq _ _ then _ else _) = _ at h
        split at h
        · cases h
        · rename_i hempty
          split at h
          · cases h
          · rename_i hequal
            rw [Bool.not_eq_true, Bool.not_eq_false', constantTimeEq_iff] at hequal
            rw [String.isEmpty_iff] at hempty
            exact ⟨v, s, token, hget, hs, hbearer, hempty, utf8_injective hequal⟩
      · rintro ⟨v', s', token', hget', hs', hbearer', hempty, heq⟩
        rw [hget', Option.bind_some, hs'] at hstr
        cases hstr
        rw [hbearer] at hbearer'
        cases hbearer'
        change (if token.isEmpty then _ else if !constantTimeEq _ _ then _ else _) = _
        rw [if_neg (by rwa [String.isEmpty_iff]), ← heq, constantTimeEq_iff.mpr rfl]
        rfl

/-- What is read in the header is seven characters that are `bearer ` in some case and the bridge
token. -/
theorem bearerAuth_eq_ok_iff_toStr (laws : HeaderLaws) {settings : Settings} {headers : Headers} :
    bearerAuth settings headers = .ok () ↔
      ∃ v start, headers.get "authorization" = some v ∧ start.toLower = "bearer " ∧
        toStr v = some (start ++ settings.bridgeToken) ∧ settings.bridgeToken ≠ "" := by
  rw [bearerAuth_eq_ok_iff]
  constructor
  · rintro ⟨v, s, token, hget, hstr, hbearer, hnonempty, rfl⟩
    obtain ⟨start, hstart, rfl⟩ := (bearerToken_eq_ok_iff (ascii_of_toStr laws hstr)).mp hbearer
    exact ⟨v, start, hget, hstart, hstr, hnonempty⟩
  · rintro ⟨v, start, hget, hstart, hstr, hnonempty⟩
    have hbearer := (bearerToken_eq_ok_iff (ascii_of_toStr laws hstr)).mpr ⟨start, hstart, rfl⟩
    exact ⟨v, _, _, hget, hstr, hbearer, hnonempty, rfl⟩

/-- `BearerAuth` accepts exactly the requests whose first `Authorization` value is readable and is
`bearer ` in any case with the bridge token after it, answers all others with its own error, never
slices a text outside its characters, and compares tokens by their bytes. -/
theorem bearerAuth_accepts (laws : HeaderLaws) {settings : Settings}
    (htoken : settings.bridgeToken ≠ "") (headers : Headers) :
    (bearerAuth settings headers = .ok () ↔
      ∃ v, headers.get "authorization" = some v ∧ IsBearer settings.bridgeToken v) ∧
    (bearerAuth settings headers ≠ .ok () →
      ∃ msg, bearerAuth settings headers = .error (.app (.unauthenticated msg))) ∧
    (∀ v s, headers.get "authorization" = some v → toStr v = some s →
      startsWith (toLowercase s) "bearer " = true → (sliceFrom 7 s).isSome) ∧
    ∀ a b : Bytes, constantTimeEq a b = true ↔ a = b := by
  refine ⟨?_, ?_, ?_, fun a b => constantTimeEq_iff⟩
  · rw [bearerAuth_eq_ok_iff_toStr laws]
    constructor
    · rintro ⟨v, start, hget, hstart, hstr, -⟩
      obtain ⟨hvisible, hv⟩ := (toStr_utf8_iff laws v _).mp hstr
      refine ⟨v, hget, fun b hb => visibleByte_iff.mp (List.all_eq_true.mp hvisible b hb), start,
        ?_, hstart, ?_⟩
      · rw [← String.length_toList, length_of_toLower hstart]
      · rw [hv, utf8_append]
    · rintro ⟨v, hget, hvisible, start, -, hstart, hv⟩
      have hall : v.all visibleByte = true :=
        List.all_eq_true.mpr fun b hb => visibleByte_iff.mpr (hvisible b hb)
      rw [← utf8_append] at hv
      exact ⟨v, start, hget, hstart, (toStr_utf8_iff laws v _).mpr ⟨hall, hv⟩, htoken⟩
  · intro h
    cases hresult : bearerAuth settings headers with
    | ok _ => exact absurd hresult h
    | error abort =>
      obtain ⟨msg, rfl⟩ := bearerAuth_error laws hresult
      exact ⟨msg, rfl⟩
  · intro v s _ hstr hstarts
    rw [sliceFrom_of_bearer (ascii_of_toStr laws hstr) hstarts]
    rfl

end

open Reference in
/-- A token in lower case after a prefix in upper case. -/
theorem bearerAuth_upperCase :
    bearerAuth ⟨"secret", 8080⟩ [("authorization", utf8 "BEARER secret")] = .ok () :=
  (bearerAuth_accepts headerLaws (by decide) _).1.mpr
    ⟨_, rfl, by decide +kernel, "BEARER ", by decide, by decide +kernel, by decide⟩

end XrayBridge
