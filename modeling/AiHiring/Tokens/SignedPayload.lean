import AiHiring.Library.Encoding
import AiHiring.Library.Fallible
import Mathlib.Data.Rat.Floor

namespace AiHiring.Tokens

open Library

-- The exceptions that reading a token can raise.
inductive PyError where
  | valueError (message : String)
  | unicodeEncodeError
  | typeError
  | attributeError
  deriving DecidableEq, Repr

-- What `except ValueError` catches; UnicodeEncodeError is a subclass.
def PyError.isValueError : PyError → Bool
  | valueError _ | unicodeEncodeError => true
  | typeError | attributeError => false

def RaisesValueError {ρ : Type*} (result : Except PyError ρ) : Prop :=
  ∃ error, result = .error error ∧ error.isValueError

inductive Json where
  | null
  | bool (b : Bool)
  | int (n : ℤ)
  | float (q : ℚ)
  | str (text : List Char)
  | array (items : List Json)
  | object (fields : List (String × Json))

-- Whether `isinstance(value, int)`; so is a boolean.
def Json.asInt : Json → Option ℤ
  | .int n => some n
  | .bool b => some (if b then 1 else 0)
  | _ => none

-- What a string shows a character as; outside printable ASCII by its UTF-16 code.
def escapeChar (c : Char) : List Char :=
  let n := c.toNat
  if n = 34 then "\\\"".toList
  else if n = 92 then "\\\\".toList
  else if n = 10 then "\\n".toList
  else if n = 13 then "\\r".toList
  else if n = 9 then "\\t".toList
  else if n = 12 then "\\f".toList
  else if n = 8 then "\\b".toList
  else if 32 ≤ n ∧ n ≤ 126 then [c]
  else if n < 0x10000 then "\\u".toList ++ Hex.ofNat 4 n
  else "\\u".toList ++ Hex.ofNat 4 (0xD800 + (n - 0x10000) / 0x400) ++
    "\\u".toList ++ Hex.ofNat 4 (0xDC00 + (n - 0x10000) % 0x400)

def dumpString (text : List Char) : List Char :=
  Char.ofNat 34 :: text.flatMap escapeChar ++ [Char.ofNat 34]

inductive Scalar where
  | int (n : ℤ)
  | str (text : List Char)

def Scalar.toJson : Scalar → Json
  | .int n => .int n
  | .str text => .str text

def Scalar.dump : Scalar → List Char
  | .int n => (toString n).toList
  | .str text => dumpString text

-- `json.dumps` without spaces.
def dumps (fields : List (String × Scalar)) : List Char :=
  "\x7b".toList ++ List.intercalate ",".toList (fields.map fun field =>
    dumpString field.1.toList ++ ":".toList ++ field.2.dump) ++ "\x7d".toList

def utf8 (text : List Char) : List UInt8 := text.flatMap String.utf8EncodeChar

def isAscii (text : List Char) : Bool := text.all fun c => c.toNat < 128

def encodeAscii (text : List Char) : Except PyError (List UInt8) :=
  if isAscii text then .ok (text.map fun c => UInt8.ofNat c.toNat) else .error .unicodeEncodeError

-- `hmac.compare_digest` of two strings takes ASCII only.
def compareDigest (a b : List Char) : Except PyError Bool :=
  if isAscii a ∧ isAscii b then .ok (a = b) else .error .typeError

-- `split(".", 1)`, when there is a dot.
def splitDot : List Char → Option (List Char × List Char)
  | [] => none
  | c :: rest =>
    if c = '.' then some ([], rest)
    else (splitDot rest).map fun parts => (c :: parts.1, parts.2)

-- What the two modules say when they turn a token down.
structure TokenTexts where
  (malformed invalidSignature expired : String)

section Signing

-- The digest under the module's key, and `json.loads` of bytes; it is none for a ValueError.
variable (mac : List UInt8 → List UInt8) (loads : List UInt8 → Option Json) (texts : TokenTexts)

-- `_sign`
def sign (payloadB64 : List Char) : Except PyError (List Char) :=
  (encodeAscii payloadB64).map fun message => Base64.strip (Base64.encode (mac message))

def payloadText (fields : List (String × Scalar)) : List Char :=
  Base64.strip (Base64.encode (utf8 (dumps fields)))

def signPayload (fields : List (String × Scalar)) : Except PyError (List Char) :=
  (sign mac (payloadText fields)).map fun signature => payloadText fields ++ '.' :: signature

-- The part of both verifications up to the fields.
def openPayload (token : List Char) : Except PyError (List (String × Json)) :=
  match splitDot token with
  | none => .error (.valueError texts.malformed)
  | some (payloadB64, signature) =>
    match sign mac payloadB64 with
    | .error error => .error error
    | .ok expected =>
      match compareDigest signature expected with
      | .error error => .error error
      | .ok false => .error (.valueError texts.invalidSignature)
      | .ok true =>
        match (Base64.decode (Base64.pad payloadB64)).bind loads with
        | none => .error (.valueError texts.malformed)
        | some (.object fields) => .ok fields
        | some _ => .error .attributeError

-- `time.time() > issued_at + ttl`
def checkExpiry (now : ℚ) (issuedAt : ℤ) (ttl : Json) : Except PyError Unit :=
  match ttl.asInt, ttl with
  | some seconds, _ =>
    if (issuedAt : ℚ) + seconds < now then .error (.valueError texts.expired) else .ok ()
  | none, .float seconds =>
    if (issuedAt : ℚ) + seconds < now then .error (.valueError texts.expired) else .ok ()
  | none, _ => .error .typeError

end Signing

-- `int(time.time())`
def truncate (time : ℚ) : ℤ := time.num.tdiv time.den

-- The comparison of the signatures is reached, and one of them is not ASCII.
def NonAsciiSignature (token : List Char) : Prop :=
  ∃ payloadB64 signature, splitDot token = some (payloadB64, signature) ∧
    isAscii payloadB64 = true ∧ isAscii signature = false

section Lemmas

theorem splitDot_append {payloadB64 : List Char} (h : '.' ∉ payloadB64) (signature : List Char) :
    splitDot (payloadB64 ++ '.' :: signature) = some (payloadB64, signature) := by
  induction payloadB64 with
  | nil => rfl
  | cons c rest ih =>
    have hc : c ≠ '.' := fun heq => h (heq ▸ List.mem_cons_self)
    have hrest : '.' ∉ rest := fun hmem => h (List.mem_cons_of_mem c hmem)
    rw [List.cons_append, splitDot, if_neg hc, ih hrest]
    rfl

theorem eq_of_splitDot {token payloadB64 signature : List Char}
    (h : splitDot token = some (payloadB64, signature)) :
    token = payloadB64 ++ '.' :: signature := by
  induction token generalizing payloadB64 with
  | nil => cases h
  | cons c rest ih =>
    unfold splitDot at h
    split at h
    · next hdot =>
        cases h
        rw [hdot]
        rfl
    · obtain ⟨parts, hparts, heq⟩ := Option.map_eq_some_iff.mp h
      cases heq
      rw [ih hparts]
      rfl

variable (mac : List UInt8 → List UInt8) {loads : List UInt8 → Option Json} (texts : TokenTexts)
  {token payloadB64 signature : List Char}

theorem isAscii_encoded (bytes : List UInt8) :
    isAscii (Base64.strip (Base64.encode bytes)) = true :=
  List.all_eq_true.mpr fun _ hc => decide_eq_true (Base64.mem_strip_encode hc).2

theorem sign_ascii (h : isAscii payloadB64 = true) :
    ∃ bytes, sign mac payloadB64 = .ok (Base64.strip (Base64.encode bytes)) := by
  refine ⟨mac (payloadB64.map fun c => UInt8.ofNat c.toNat), ?_⟩
  rw [sign, encodeAscii, if_pos h]
  rfl

theorem sign_not_ascii (h : isAscii payloadB64 = false) :
    sign mac payloadB64 = .error .unicodeEncodeError := by
  rw [sign, encodeAscii, h]
  rfl

-- Signing never fails, and gives a text that splits into what was signed and the signature.
theorem signPayload_spec (fields : List (String × Scalar)) :
    ∃ signature, signPayload mac fields = .ok (payloadText fields ++ '.' :: signature) ∧
      sign mac (payloadText fields) = .ok signature ∧ isAscii signature = true ∧
      splitDot (payloadText fields ++ '.' :: signature) = some (payloadText fields, signature) := by
  obtain ⟨bytes, hsign⟩ := sign_ascii mac (isAscii_encoded (utf8 (dumps fields)))
  have hdot : '.' ∉ payloadText fields := fun hmem => (Base64.mem_strip_encode hmem).1 rfl
  refine ⟨_, ?_, hsign, isAscii_encoded bytes, splitDot_append hdot _⟩
  rw [signPayload, payloadText, hsign]
  rfl

theorem openPayload_signed {fields : List (String × Scalar)} {payload : List (String × Json)}
    (htoken : signPayload mac fields = .ok token)
    (hloads : loads (utf8 (dumps fields)) = some (.object payload)) :
    openPayload mac loads texts token = .ok payload := by
  obtain ⟨signature, heq, hsign, hascii, hsplit⟩ := signPayload_spec mac fields
  rw [heq] at htoken
  cases htoken
  have hsame : compareDigest signature signature = .ok true := by
    rw [compareDigest, if_pos ⟨hascii, hascii⟩, decide_eq_true rfl]
  have hdecode : (Base64.decode (Base64.pad (payloadText fields))).bind loads =
      some (.object payload) := by
    rw [payloadText, Base64.pad_strip, Base64.decode_encode, Option.bind_some, hloads]
  simp only [openPayload, hsplit, hsign, hsame, hdecode]

-- A token that carries no signature of its payload is turned down, with a ValueError
-- unless the signature cannot be compared.
theorem openPayload_unsigned (h : ∀ payloadB64 signature,
      splitDot token = some (payloadB64, signature) → sign mac payloadB64 ≠ .ok signature) :
    ∃ error, openPayload mac loads texts token = .error error ∧
      (error.isValueError = true ↔ ¬NonAsciiSignature token) := by
  cases hsplit : splitDot token with
  | none =>
    refine ⟨.valueError texts.malformed, by simp only [openPayload, hsplit], ?_⟩
    refine iff_of_true rfl ?_
    rintro ⟨payloadB64, signature, hsome, -⟩
    rw [hsplit] at hsome
    cases hsome
  | some parts =>
    obtain ⟨payloadB64, signature⟩ := parts
    have hnon : NonAsciiSignature token ↔
        isAscii payloadB64 = true ∧ isAscii signature = false := by
      constructor
      · rintro ⟨payload', signature', hsome, hascii⟩
        rw [hsplit] at hsome
        cases hsome
        exact hascii
      · exact fun hascii => ⟨payloadB64, signature, hsplit, hascii⟩
    rw [hnon]
    cases hpayload : isAscii payloadB64 with
    | false =>
      refine ⟨.unicodeEncodeError, ?_, iff_of_true rfl (by simp)⟩
      simp only [openPayload, hsplit, sign_not_ascii mac hpayload]
    | true =>
      obtain ⟨bytes, hsign⟩ := sign_ascii mac hpayload
      cases hsignature : isAscii signature with
      | false =>
        have hcompare : compareDigest signature (Base64.strip (Base64.encode bytes)) =
            .error .typeError := by
          rw [compareDigest, if_neg (by simp [hsignature])]
        refine ⟨.typeError, ?_, iff_of_false Bool.false_ne_true (by simp)⟩
        simp only [openPayload, hsplit, hsign, hcompare]
      | true =>
        have hne : signature ≠ Base64.strip (Base64.encode bytes) := by
          rintro rfl
          exact h _ _ hsplit hsign
        have hcompare : compareDigest signature (Base64.strip (Base64.encode bytes)) =
            .ok false := by
          rw [compareDigest, if_pos ⟨hsignature, isAscii_encoded bytes⟩, decide_eq_false hne]
        refine ⟨.valueError texts.invalidSignature, ?_, iff_of_true rfl (by simp)⟩
        simp only [openPayload, hsplit, hsign, hcompare]

-- The signature of a string is only had of strings that were signed.
def Unforged (signed : List (List (String × Scalar))) (token : List Char) : Prop :=
  ∀ payloadB64 signature, splitDot token = some (payloadB64, signature) →
    sign mac payloadB64 = .ok signature → payloadB64 ∈ signed.map payloadText

theorem unsigned_of_unforged {signed : List (List (String × Scalar))}
    (h : Unforged mac signed token) (hnone : ∀ fields ∈ signed, signPayload mac fields ≠ .ok token)
    (payloadB64 signature : List Char) (hsplit : splitDot token = some (payloadB64, signature)) :
    sign mac payloadB64 ≠ .ok signature := by
  intro hsign
  obtain ⟨fields, hfields, heq⟩ := List.mem_map.mp (h payloadB64 signature hsplit hsign)
  obtain ⟨signature', htoken, hsign', -⟩ := signPayload_spec mac fields
  rw [heq, hsign] at hsign'
  cases hsign'
  rw [heq, ← eq_of_splitDot hsplit] at htoken
  exact hnone fields hfields htoken

theorem unforged_of_signed {signed : List (List (String × Scalar))}
    {fields : List (String × Scalar)} (hfields : fields ∈ signed)
    (htoken : signPayload mac fields = .ok token) : Unforged mac signed token := by
  intro payloadB64 signature hsplit _
  obtain ⟨signature', heq, -, -, hsplit'⟩ := signPayload_spec mac fields
  rw [heq] at htoken
  cases htoken
  rw [hsplit'] at hsplit
  cases hsplit
  exact List.mem_map_of_mem hfields

theorem not_nonAscii_of_signed {fields : List (String × Scalar)}
    (htoken : signPayload mac fields = .ok token) : ¬NonAsciiSignature token := by
  obtain ⟨signature, heq, -, hascii, hsplit⟩ := signPayload_spec mac fields
  rw [heq] at htoken
  cases htoken
  rintro ⟨payload', signature', hsome, -, hnot⟩
  rw [hsplit] at hsome
  cases hsome
  rw [hascii] at hnot
  cases hnot

end Lemmas

end AiHiring.Tokens
