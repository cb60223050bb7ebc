import AiHiring.Tokens.SignedPayload

namespace AiHiring.Tokens

open Library

abbrev UUID := Fin (2 ^ 128)

-- `str(uuid)`
def uuidText (uuid : UUID) : List Char :=
  let hex := Hex.ofNat 32 uuid.val
  hex.take 8 ++ '-' :: (hex.drop 8).take 4 ++ '-' :: (hex.drop 12).take 4 ++
    '-' :: (hex.drop 16).take 4 ++ '-' :: hex.drop 20

-- `text.replace(sub, "")`; the first argument counts what is left to drop.
def removeAll (sub : List Char) : ℕ → List Char → List Char
  | _, [] => []
  | skip + 1, _ :: rest => removeAll sub skip rest
  | 0, c :: rest =>
    if sub.isPrefixOf (c :: rest) then removeAll sub (sub.length - 1) rest
    else c :: removeAll sub 0 rest

def isBrace (c : Char) : Bool := c.toNat = 123 ∨ c.toNat = 125

-- `UUID(text)`, none for its ValueError.
def parseUuid (text : List Char) : Option UUID :=
  let bare := removeAll "uuid:".toList 0 (removeAll "urn:".toList 0 text)
  let hex := ((bare.dropWhile isBrace).rdropWhile isBrace).filter fun c => c ≠ '-'
  if hex.length = 32 then
    (Hex.toNat hex).bind fun n => if h : n < 2 ^ 128 then some ⟨n, h⟩ else none
  else none

theorem removeAll_of_not_mem {c : Char} {sub text : List Char} (h : c ∉ text) :
    removeAll (c :: sub) 0 text = text := by
  induction text with
  | nil => rfl
  | cons d rest ih =>
    have hd : c ≠ d := fun heq => h (heq ▸ List.mem_cons_self)
    have hrest : c ∉ rest := fun hmem => h (List.mem_cons_of_mem d hmem)
    have hprefix : (c :: sub).isPrefixOf (d :: rest) = false := by
      simp [List.isPrefixOf, hd]
    rw [removeAll, hprefix, ih hrest]
    rfl

theorem digit_spec {n : ℕ} (h : n < 16) :
    Hex.digit n ≠ 'u' ∧ Hex.digit n ≠ '-' ∧ isBrace (Hex.digit n) = false := by
  have hall : ∀ n : Fin 16,
      Hex.digit n ≠ 'u' ∧ Hex.digit n ≠ '-' ∧ isBrace (Hex.digit n) = false := by decide
  exact hall ⟨n, h⟩

theorem mem_hex {uuid : UUID} {c : Char} (h : c ∈ Hex.ofNat 32 uuid.val) :
    c ≠ 'u' ∧ c ≠ '-' ∧ isBrace c = false := by
  obtain ⟨n, hn, rfl⟩ := Hex.mem_ofNat h
  exact digit_spec hn

theorem mem_uuidText {uuid : UUID} {c : Char} (h : c ∈ uuidText uuid) :
    c = '-' ∨ c ∈ Hex.ofNat 32 uuid.val := by
  simp only [uuidText, List.mem_append, List.mem_cons] at h
  obtain (((h | h | h) | h | h) | h | h) | h | h := h
  · exact .inr (List.mem_of_mem_take h)
  · exact .inl h
  · exact .inr (List.mem_of_mem_drop (List.mem_of_mem_take h))
  · exact .inl h
  · exact .inr (List.mem_of_mem_drop (List.mem_of_mem_take h))
  · exact .inl h
  · exact .inr (List.mem_of_mem_drop (List.mem_of_mem_take h))
  · exact .inl h
  · exact .inr (List.mem_of_mem_drop h)

theorem filter_uuidText (uuid : UUID) :
    ((uuidText uuid).filter fun c => c ≠ '-') = Hex.ofNat 32 uuid.val := by
  have hkept (l : List Char) (hl : ∀ c ∈ l, c ∈ Hex.ofNat 32 uuid.val) :
      (l.filter fun c => c ≠ '-') = l :=
    List.filter_eq_self.mpr fun c hc => decide_eq_true (mem_hex (hl c hc)).2.1
  have hpart (n : ℕ) : (((Hex.ofNat 32 uuid.val).drop n).take 4).filter (fun c => c ≠ '-') =
      ((Hex.ofNat 32 uuid.val).drop n).take 4 :=
    hkept _ fun _ hc => List.mem_of_mem_drop (List.mem_of_mem_take hc)
  have hdash (l : List Char) : (('-' :: l).filter fun c => c ≠ '-') = l.filter fun c => c ≠ '-' :=
    rfl
  have hsplit (n m : ℕ) (l : List Char) : (l.drop n).take m ++ l.drop (n + m) = l.drop n := by
    rw [← List.drop_drop, List.take_append_drop]
  simp only [uuidText, List.filter_append, hdash]
  rw [hkept _ fun _ hc => List.mem_of_mem_take hc, hpart 8, hpart 12, hpart 16,
    hkept _ fun _ hc => List.mem_of_mem_drop hc, List.append_assoc, List.append_assoc,
    List.append_assoc, hsplit 16 4, hsplit 12 4, hsplit 8 4, List.take_append_drop]

theorem strip_braces {text : List Char} (h : ∀ c ∈ text, isBrace c = false) :
    (text.dropWhile isBrace).rdropWhile isBrace = text := by
  have hleft : text.dropWhile isBrace = text := by
    rw [List.dropWhile_eq_self_iff]
    intro hpos
    rw [h _ (List.getElem_mem hpos)]
    exact Bool.false_ne_true
  rw [hleft, List.rdropWhile_eq_self_iff]
  intro hne
  rw [h _ (List.getLast_mem hne)]
  exact Bool.false_ne_true

theorem parseUuid_uuidText (uuid : UUID) : parseUuid (uuidText uuid) = some uuid := by
  have hplain : ∀ c ∈ uuidText uuid, c ≠ 'u' ∧ isBrace c = false := by
    intro c hc
    obtain rfl | hhex := mem_uuidText hc
    · decide
    · exact ⟨(mem_hex hhex).1, (mem_hex hhex).2.2⟩
  have hnot : 'u' ∉ uuidText uuid := fun hmem => (hplain _ hmem).1 rfl
  have hurn : removeAll "urn:".toList 0 (uuidText uuid) = uuidText uuid := removeAll_of_not_mem hnot
  have hbare : removeAll "uuid:".toList 0 (uuidText uuid) = uuidText uuid :=
    removeAll_of_not_mem hnot
  have hvalue : uuid.val % 16 ^ 32 = uuid.val := Nat.mod_eq_of_lt uuid.isLt
  simp only [parseUuid, hurn, hbare, strip_braces fun c hc => (hplain c hc).2, filter_uuidText,
    Hex.length_ofNat, if_true, Hex.toNat_ofNat, hvalue, Option.bind_some, uuid.isLt, dite_true]

section Modules

variable (mac : List UInt8 → List UInt8) (loads : List UInt8 → Option Json)

-- A call of `sign_feedback_token` and its time.
structure FeedbackIssue where
  (interviewScheduleId interviewerId : UUID)
  ttlSeconds : ℤ
  time : ℚ

def FeedbackIssue.fields (issue : FeedbackIssue) : List (String × Scalar) :=
  [("interview_schedule_id", .str (uuidText issue.interviewScheduleId)),
    ("interviewer_id", .str (uuidText issue.interviewerId)),
    ("issued_at", .int (truncate issue.time)), ("ttl", .int issue.ttlSeconds)]

def signFeedbackToken (issue : FeedbackIssue) : Except PyError (List Char) :=
  signPayload mac issue.fields

def feedbackTexts : TokenTexts where
  malformed := "Malformed feedback token."
  invalidSignature := "Feedback token signature is invalid."
  expired := "Feedback token has expired."

def defaultFeedbackTtlSeconds : ℤ := 14 * 24 * 60 * 60

def verifyFeedbackToken (token : List Char) (now : ℚ) : Except PyError (UUID × UUID) :=
  match openPayload mac loads feedbackTexts token with
  | .error error => .error error
  | .ok payload =>
    let ttl := (payload.lookup "ttl").getD (.int defaultFeedbackTtlSeconds)
    match (payload.lookup "issued_at").bind Json.asInt, payload.lookup "interview_schedule_id",
      payload.lookup "interviewer_id" with
    | some issuedAt, some (.str interviewScheduleId), some (.str interviewerId) =>
      match checkExpiry feedbackTexts now issuedAt ttl with
      | .error error => .error error
      | .ok () =>
        match parseUuid interviewScheduleId, parseUuid interviewerId with
        | some interviewScheduleId, some interviewerId =>
          .ok (interviewScheduleId, interviewerId)
        | _, _ => .error (.valueError feedbackTexts.malformed)
    | _, _, _ => .error (.valueError feedbackTexts.malformed)

-- A call of `sign_state` and its time.
structure StateIssue where
  (userId provider : List Char)
  ttlSeconds : ℤ
  time : ℚ

def StateIssue.fields (issue : StateIssue) : List (String × Scalar) :=
  [("user_id", .str issue.userId), ("provider", .str issue.provider),
    ("issued_at", .int (truncate issue.time)), ("ttl", .int issue.ttlSeconds)]

def signState (issue : StateIssue) : Except PyError (List Char) := signPayload mac issue.fields

def stateTexts : TokenTexts where
  malformed := "Malformed state parameter."
  invalidSignature := "State parameter signature is invalid."
  expired := "State parameter has expired."

def otherProvider : String := "State parameter was issued for a different provider."

def defaultStateTtlSeconds : ℤ := 600

def verifyState (expectedProvider token : List Char) (now : ℚ) :
    Except PyError (List Char) :=
  match openPayload mac loads stateTexts token with
  | .error error => .error error
  | .ok payload =>
    let ttl := (payload.lookup "ttl").getD (.int defaultStateTtlSeconds)
    match (payload.lookup "issued_at").bind Json.asInt, payload.lookup "user_id",
      payload.lookup "provider" with
    | some issuedAt, some (.str userId), some (.str provider) =>
      if provider ≠ expectedProvider then .error (.valueError otherProvider)
      else
        match checkExpiry stateTexts now issuedAt ttl with
        | .error error => .error error
        | .ok () => .ok userId
    | _, _, _ => .error (.valueError stateTexts.malformed)

end Modules

section Contract

variable {ι ρ : Type*}

-- What a module's callers rely on for one string: where it was issued it is good up to
-- its deadline, and in every other case there is a ValueError.
structure Contract (sign : ι → Except PyError (List Char)) (value : ι → ρ) (deadline : ι → ℚ)
    (verify : List Char → ℚ → Except PyError ρ) (issues : List ι) (token : List Char) : Prop where
  issued : ∀ issue ∈ issues, sign issue = .ok token → ∀ now,
    (now ≤ deadline issue → verify token now = .ok (value issue)) ∧
      (deadline issue < now → RaisesValueError (verify token now))
  other : (∀ issue ∈ issues, sign issue ≠ .ok token) → ∀ now, RaisesValueError (verify token now)

variable {sign : ι → Except PyError (List Char)} {value : ι → ρ} {deadline : ι → ℚ}
  {verify : List Char → ℚ → Except PyError ρ} {issues : List ι} {token : List Char}

theorem contract_iff {guard : Prop} (hissued : ∀ issue ∈ issues, sign issue = .ok token → ∀ now,
      (now ≤ deadline issue → verify token now = .ok (value issue)) ∧
        (deadline issue < now → RaisesValueError (verify token now)))
    (hguard : ∀ issue ∈ issues, sign issue = .ok token → ¬guard)
    (hother : (∀ issue ∈ issues, sign issue ≠ .ok token) →
      ∃ error, (∀ now, verify token now = .error error) ∧ (error.isValueError = true ↔ ¬guard)) :
    Contract sign value deadline verify issues token ↔ ¬guard := by
  by_cases hany : ∃ issue ∈ issues, sign issue = .ok token
  · obtain ⟨issue, hmem, hsign⟩ := hany
    refine iff_of_true ⟨hissued, fun hnone => ?_⟩ (hguard issue hmem hsign)
    exact absurd hsign (hnone issue hmem)
  · have hnone : ∀ issue ∈ issues, sign issue ≠ .ok token :=
      fun issue hmem hsign => hany ⟨issue, hmem, hsign⟩
    obtain ⟨error, herror, hvalue⟩ := hother hnone
    rw [← hvalue]
    constructor
    · intro hcontract
      obtain ⟨raised, hraised, hkind⟩ := hcontract.other hnone 0
      rw [herror 0] at hraised
      obtain rfl := Except.error.inj hraised
      exact hkind
    · intro hkind
      exact ⟨hissued, fun _ now => ⟨error, herror now, hkind⟩⟩

end Contract

section Issued

variable {mac : List UInt8 → List UInt8} {loads : List UInt8 → Option Json} {token : List Char}

def decoded (fields : List (String × Scalar)) : List (String × Json) :=
  fields.map fun field => (field.1, field.2.toJson)

-- `json.loads` reads back what `json.dumps` wrote of these payloads.
def DecodesOwn (loads : List UInt8 → Option Json) (signed : List (List (String × Scalar))) : Prop :=
  ∀ fields ∈ signed, loads (utf8 (dumps fields)) = some (.object (decoded fields))

def FeedbackIssue.deadline (issue : FeedbackIssue) : ℚ :=
  (truncate issue.time : ℚ) + issue.ttlSeconds

def StateIssue.deadline (issue : StateIssue) : ℚ := (truncate issue.time : ℚ) + issue.ttlSeconds

def FeedbackContract (mac : List UInt8 → List UInt8) (loads : List UInt8 → Option Json)
    (issues : List FeedbackIssue) (token : List Char) : Prop :=
  Contract (signFeedbackToken mac) (fun issue => (issue.interviewScheduleId, issue.interviewerId))
    FeedbackIssue.deadline (verifyFeedbackToken mac loads) issues token

-- A state is issued for one provider; to the others it is a string like any other.
def StateContract (mac : List UInt8 → List UInt8) (loads : List UInt8 → Option Json)
    (issues : List StateIssue) (expectedProvider token : List Char) : Prop :=
  Contract (signState mac) StateIssue.userId StateIssue.deadline
    (verifyState mac loads expectedProvider)
    (issues.filter fun issue => issue.provider = expectedProvider) token

theorem verifyFeedbackToken_signed {issue : FeedbackIssue}
    (hopen : openPayload mac loads feedbackTexts token = .ok (decoded issue.fields)) (now : ℚ) :
    verifyFeedbackToken mac loads token now =
      if issue.deadline < now then .error (.valueError feedbackTexts.expired)
      else .ok (issue.interviewScheduleId, issue.interviewerId) := by
  have hissuedAt : (decoded issue.fields).lookup "issued_at" =
      some (.int (truncate issue.time)) := rfl
  have httl : (decoded issue.fields).lookup "ttl" = some (.int issue.ttlSeconds) := rfl
  have hschedule : (decoded issue.fields).lookup "interview_schedule_id" =
      some (.str (uuidText issue.interviewScheduleId)) := rfl
  have hinterviewer : (decoded issue.fields).lookup "interviewer_id" =
      some (.str (uuidText issue.interviewerId)) := rfl
  have hcheck : checkExpiry feedbackTexts now (truncate issue.time) (.int issue.ttlSeconds) =
      if issue.deadline < now then .error (.valueError feedbackTexts.expired) else .ok () := rfl
  simp only [verifyFeedbackToken, hopen, hissuedAt, httl, hschedule, hinterviewer, Option.bind_some,
    Json.asInt, Option.getD_some, hcheck]
  by_cases hexpired : issue.deadline < now
  · rw [if_pos hexpired, if_pos hexpired]
  · rw [if_neg hexpired, if_neg hexpired]
    simp only [parseUuid_uuidText]

theorem verifyState_signed {issue : StateIssue}
    (hopen : openPayload mac loads stateTexts token = .ok (decoded issue.fields))
    (expectedProvider : List Char) (now : ℚ) : verifyState mac loads expectedProvider token now =
      if issue.provider ≠ expectedProvider then .error (.valueError otherProvider)
      else if issue.deadline < now then .error (.valueError stateTexts.expired)
      else .ok issue.userId := by
  have hissuedAt : (decoded issue.fields).lookup "issued_at" =
      some (.int (truncate issue.time)) := rfl
  have httl : (decoded issue.fields).lookup "ttl" = some (.int issue.ttlSeconds) := rfl
  have huser : (decoded issue.fields).lookup "user_id" = some (.str issue.userId) := rfl
  have hprovider : (decoded issue.fields).lookup "provider" = some (.str issue.provider) := rfl
  have hcheck : checkExpiry stateTexts now (truncate issue.time) (.int issue.ttlSeconds) =
      if issue.deadline < now then .error (.valueError stateTexts.expired) else .ok () := rfl
  simp only [verifyState, hopen, hissuedAt, httl, huser, hprovider, Option.bind_some,
    Json.asInt, Option.getD_some, hcheck]
  by_cases hother : issue.provider ≠ expectedProvider
  · rw [if_pos hother, if_pos hother]
  · rw [if_neg hother, if_neg hother]
    by_cases hexpired : issue.deadline < now
    · rw [if_pos hexpired, if_pos hexpired]
    · rw [if_neg hexpired, if_neg hexpired]

-- The signed part of the contract, and the error of a string that nobody signed.
theorem feedbackContract_iff {issues : List FeedbackIssue}
    (hloads : DecodesOwn loads (issues.map FeedbackIssue.fields))
    (hunforged : Unforged mac (issues.map FeedbackIssue.fields) token) :
    FeedbackContract mac loads issues token ↔ ¬NonAsciiSignature token := by
  have hopen : ∀ issue ∈ issues, signFeedbackToken mac issue = .ok token →
      openPayload mac loads feedbackTexts token = .ok (decoded issue.fields) := by
    intro issue hissue hsign
    exact openPayload_signed mac feedbackTexts hsign (hloads _ (List.mem_map_of_mem hissue))
  apply contract_iff
  · intro issue hissue hsign now
    rw [verifyFeedbackToken_signed (hopen issue hissue hsign)]
    constructor
    · intro hnow
      rw [if_neg (not_lt.mpr hnow)]
    · intro hexpired
      rw [if_pos hexpired]
      exact ⟨_, rfl, rfl⟩
  · exact fun issue _ hsign => not_nonAscii_of_signed mac hsign
  · intro hnone
    have hunsigned := unsigned_of_unforged mac hunforged
      (List.forall_mem_map.mpr fun issue hissue => hnone issue hissue)
    obtain ⟨error, herror, hvalue⟩ :
        ∃ error, openPayload mac loads feedbackTexts token = .error error ∧
          (error.isValueError = true ↔ ¬NonAsciiSignature token) :=
      openPayload_unsigned mac feedbackTexts hunsigned
    exact ⟨error, fun _ => by rw [verifyFeedbackToken, herror], hvalue⟩

theorem stateContract_iff {issues : List StateIssue} {expectedProvider : List Char}
    (hloads : DecodesOwn loads (issues.map StateIssue.fields))
    (hunforged : Unforged mac (issues.map StateIssue.fields) token) :
    StateContract mac loads issues expectedProvider token ↔ ¬NonAsciiSignature token := by
  have hopen : ∀ issue ∈ issues, signState mac issue = .ok token →
      openPayload mac loads stateTexts token = .ok (decoded issue.fields) := by
    intro issue hissue hsign
    exact openPayload_signed mac stateTexts hsign (hloads _ (List.mem_map_of_mem hissue))
  apply contract_iff
  · intro issue hissue hsign now
    obtain ⟨hmem, hprovider⟩ := List.mem_filter.mp hissue
    have hsame : ¬issue.provider ≠ expectedProvider := not_not.mpr (of_decide_eq_true hprovider)
    rw [verifyState_signed (hopen issue hmem hsign), if_neg hsame]
    constructor
    · intro hnow
      rw [if_neg (not_lt.mpr hnow)]
    · intro hexpired
      rw [if_pos hexpired]
      exact ⟨_, rfl, rfl⟩
  · exact fun issue _ hsign => not_nonAscii_of_signed mac hsign
  · intro hnone
    by_cases hother : ∃ issue ∈ issues, signState mac issue = .ok token
    · -- issued for another provider
      obtain ⟨issue, hissue, hsign⟩ := hother
      have hprovider : issue.provider ≠ expectedProvider := fun heq =>
        hnone issue (List.mem_filter.mpr ⟨hissue, decide_eq_true heq⟩) hsign
      refine ⟨.valueError otherProvider, fun now => ?_,
        iff_of_true rfl (not_nonAscii_of_signed mac hsign)⟩
      rw [verifyState_signed (hopen issue hissue hsign), if_pos hprovider]
    · have hunsigned := unsigned_of_unforged mac hunforged
        (List.forall_mem_map.mpr fun issue hissue hsign => hother ⟨issue, hissue, hsign⟩)
      obtain ⟨error, herror, hvalue⟩ :
          ∃ error, openPayload mac loads stateTexts token = .error error ∧
            (error.isValueError = true ↔ ¬NonAsciiSignature token) :=
        openPayload_unsigned mac stateTexts hunsigned
      exact ⟨error, fun _ => by rw [verifyState, herror], hvalue⟩

end Issued

theorem signed_tokens (feedbackMac stateMac : List UInt8 → List UInt8)
    (loads : List UInt8 → Option Json) (feedbackIssues : List FeedbackIssue)
    (stateIssues : List StateIssue) (token expectedProvider : List Char)
    (hfeedback : DecodesOwn loads (feedbackIssues.map FeedbackIssue.fields))
    (hstate : DecodesOwn loads (stateIssues.map StateIssue.fields))
    (hfeedbackMac : Unforged feedbackMac (feedbackIssues.map FeedbackIssue.fields) token)
    (hstateMac : Unforged stateMac (stateIssues.map StateIssue.fields) token) :
    (∀ issue, ∃ issued, signFeedbackToken feedbackMac issue = .ok issued) ∧
    (∀ issue, ∃ issued, signState stateMac issue = .ok issued) ∧
    (FeedbackContract feedbackMac loads feedbackIssues token ↔ ¬NonAsciiSignature token) ∧
    (StateContract stateMac loads stateIssues expectedProvider token ↔
      ¬NonAsciiSignature token) := by
  refine ⟨fun issue => ?_, fun issue => ?_, feedbackContract_iff hfeedback hfeedbackMac,
    stateContract_iff hstate hstateMac⟩
  · obtain ⟨signature, htoken, -⟩ := signPayload_spec feedbackMac issue.fields
    exact ⟨_, htoken⟩
  · obtain ⟨signature, htoken, -⟩ := signPayload_spec stateMac issue.fields
    exact ⟨_, htoken⟩

def testMac : List UInt8 → List UInt8 := fun _ =>
  [179, 241, 137, 4, 117, 127, 177, 180, 213, 196, 179, 56, 149, 87, 61, 195, 249, 16, 32, 113,
    184, 41, 82, 140, 147, 124, 36, 201, 126, 48, 167, 84]

def googleIssue : StateIssue := ⟨"user-1".toList, "GOOGLE".toList, 600, 1700000000⟩

def googleState : List Char :=
  ("eyJ1c2VyX2lkIjoidXNlci0xIiwicHJvdmlkZXIiOiJHT09HTEUiLCJpc3N1ZWRfYXQiOjE3MDAwMDAwMDAsInR0bCI6" ++
    "NjAwfQ.s_GJBHV_sbTVxLM4lVc9w_kQIHG4KVKMk3wkyX4wp1Q").toList

def googleLoads (bytes : List UInt8) : Option Json :=
  if bytes = utf8 (dumps googleIssue.fields) then some (.object (decoded googleIssue.fields))
  else none

theorem googleState_issued : signState testMac googleIssue = .ok googleState := by
  decide +kernel

def testFeedbackMac : List UInt8 → List UInt8 := fun _ =>
  [28, 165, 222, 108, 138, 86, 15, 76, 9, 211, 248, 145, 203, 126, 133, 102, 254, 162, 17,
    12, 217, 107, 84, 78, 158, 238, 0, 221, 87, 84, 55, 68]

theorem googleState_unforged : Unforged testFeedbackMac [] googleState := by
  intro payloadB64 signature hsplit hsign
  have hdot : (splitDot googleState).all fun parts =>
      decide (sign testFeedbackMac parts.1 ≠ .ok parts.2) := by decide +kernel
  rw [hsplit, Option.all_some, decide_eq_true_eq] at hdot
  exact absurd hsign hdot

theorem signed_tokens_google :
    (∀ issue, ∃ issued, signFeedbackToken testFeedbackMac issue = .ok issued) ∧
    (∀ issue, ∃ issued, signState testMac issue = .ok issued) ∧
    (FeedbackContract testFeedbackMac googleLoads [] googleState ↔ ¬NonAsciiSignature googleState) ∧
    (StateContract testMac googleLoads [googleIssue] "GOOGLE".toList googleState ↔
      ¬NonAsciiSignature googleState) := by
  have hloads : DecodesOwn googleLoads ([googleIssue].map StateIssue.fields) := by
    intro fields hfields
    obtain rfl := List.mem_singleton.mp hfields
    exact if_pos rfl
  exact signed_tokens testFeedbackMac testMac googleLoads [] [googleIssue] googleState
    "GOOGLE".toList (fun _ hfields => absurd hfields List.not_mem_nil) hloads googleState_unforged
    (unforged_of_signed testMac (List.mem_singleton_self _) googleState_issued)

def accented : List Char := "x.é".toList

theorem accented_unforged : Unforged testMac [] accented := by
  intro payloadB64 signature hsplit hsign
  have hdot : (splitDot accented).all fun parts =>
      decide (sign testMac parts.1 ≠ .ok parts.2) := by decide +kernel
  rw [hsplit, Option.all_some, decide_eq_true_eq] at hdot
  exact absurd hsign hdot

theorem accented_signature_raises : Unforged testMac [] accented ∧
    verifyFeedbackToken testMac googleLoads accented 0 = .error .typeError ∧
    ¬FeedbackContract testMac googleLoads [] accented ∧
    ¬StateContract testMac googleLoads [] "GOOGLE".toList accented := by
  have hraises : verifyFeedbackToken testMac googleLoads accented 0 = .error .typeError := by
    decide +kernel
  have hstate : verifyState testMac googleLoads "GOOGLE".toList accented 0 = .error .typeError := by
    decide +kernel
  refine ⟨accented_unforged, hraises, fun hcontract => ?_, fun hcontract => ?_⟩
  · obtain ⟨error, herror, hvalue⟩ := hcontract.other (by simp) 0
    rw [hraises] at herror
    obtain rfl := Except.error.inj herror
    cases hvalue
  · obtain ⟨error, herror, hvalue⟩ := hcontract.other (by simp) 0
    rw [hstate] at herror
    obtain rfl := Except.error.inj herror
    cases hvalue

end AiHiring.Tokens
