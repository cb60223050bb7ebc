import AiHiring.Library.Fallible
import AiHiring.Resume.CandidateIntake

namespace AiHiring

open Library CandidateIntake

namespace CandidateEncryption

inductive KeyStatus where
  | active
  | rotating
  | retired
deriving DecidableEq

structure EncryptionKey where
  id : Uuid
  keyAlias : String
  keyStatus : KeyStatus
  purpose : String

inductive EncryptionError where
  | encryptionUnavailable (message : String)
  | value (message : String)
  | decryption (message : String)

-- What each statement of a run sees of encryption_keys. Others may change and add rows
-- between two statements and delete none; `first()` takes any row that matches.
structure KeyReads where
  rows : ℕ → List EncryptionKey
  nodup : ∀ n, ((rows n).map (·.id)).Nodup
  kept : ∀ n, ∀ key ∈ rows n, ∃ after ∈ rows (n + 1),
    after.id = key.id ∧ after.keyAlias = key.keyAlias
  first : ℕ → List EncryptionKey → Option EncryptionKey
  first_mem : ∀ n matching key, first n matching = some key → key ∈ matching
  first_none : ∀ n matching, first n matching = none → matching = []

-- The cipher: what is encrypted is decrypted with the key that produced it, and no other.
structure Fernet (τ : Type) where
  key : String → Option String
  encrypt : String → ℕ → String → τ
  decrypt : String → τ → Option String
  decrypt_encrypt : ∀ secret time value, decrypt secret (encrypt secret time value) = some value
  decrypt_other : ∀ secret other time value, other ≠ secret →
    decrypt other (encrypt secret time value) = none

structure Environment where
  upper : String → String
  environ : String → Option String
  dotenv : String → Option String

-- A row of candidates as it is inserted.
structure EncryptedCandidate (τ : Type) where
  orgId : Option Uuid
  (fullNameEncrypted emailEncrypted : τ)
  emailHash : String
  phoneEncrypted : Option τ
  phoneHash : Option String
  encryptionKeyId : Uuid
  jurisdiction : String
  sourceCampaignId : Option Uuid

def candidatePiiPurpose : String := "CANDIDATE_PII"

section Service

variable {τ : Type} (fernet : Fernet τ) (environment : Environment) (reads : KeyReads)

def aliasToEnvVar (keyAlias : String) : String :=
  "ENCRYPTION_KEY_" ++ String.ofList ((environment.upper keyAlias).toList.map fun c =>
    if c = '-' ∨ c = ' ' then '_' else c)

def resolveKeyMaterial (keyAlias : String) : Except EncryptionError String :=
  let envVar := aliasToEnvVar environment keyAlias
  match ((environment.environ envVar).filter (· ≠ "")).or
      ((environment.dotenv envVar).filter (· ≠ "")) with
  | some raw => .ok raw
  | none => .error (.value (s!"No key material configured for encryption key alias '{keyAlias}' " ++
      s!"(expected environment variable '{envVar}')."))

def secretOf (keyAlias : String) : Except EncryptionError String := do
  let keyMaterial ← resolveKeyMaterial environment keyAlias
  match fernet.key keyMaterial with
  | some secret => return secret
  | none => throw (.value "Fernet key must be 32 url-safe base64-encoded bytes.")

def getByPurpose (n : ℕ) (purpose : String) (keyStatus : KeyStatus) : Option EncryptionKey :=
  reads.first n ((reads.rows n).filter fun key =>
    key.purpose = purpose ∧ key.keyStatus = keyStatus)

def getActiveByPurpose (n : ℕ) (purpose : String) : Option EncryptionKey :=
  getByPurpose reads n purpose .active

def getRotatingByPurpose (n : ℕ) (purpose : String) : Option EncryptionKey :=
  getByPurpose reads n purpose .rotating

def getById (n : ℕ) (keyId : Uuid) : Option EncryptionKey :=
  reads.first n ((reads.rows n).filter fun key => key.id = keyId)

-- The second component is the number of the next statement.
def resolveUsableKey (n : ℕ) (purpose : String) : Except EncryptionError (EncryptionKey × ℕ) :=
  match getActiveByPurpose reads n purpose with
  | some key => .ok (key, n + 1)
  | none =>
    match getRotatingByPurpose reads (n + 1) purpose with
    | some key => .ok (key, n + 2)
    | none => .error (.encryptionUnavailable
        s!"No ACTIVE or ROTATING encryption key configured for purpose '{purpose}'.")

def encrypt (n : ℕ) (value purpose : String) : Except EncryptionError ((τ × Uuid) × ℕ) := do
  let (key, next) ← resolveUsableKey reads n purpose
  let secret ← secretOf fernet environment key.keyAlias
  return ((fernet.encrypt secret n value, key.id), next)

def decrypt (n : ℕ) (ciphertext : τ) (encryptionKeyId : Uuid) : Except EncryptionError String :=
  match getById reads n encryptionKeyId with
  | none => .error (.decryption s!"Encryption key '{encryptionKeyId}' not found.")
  | some key => do
    let secret ← secretOf fernet environment key.keyAlias
    match fernet.decrypt secret ciphertext with
    | some value => return value
    | none =>
      throw (.decryption "Unable to decrypt value — invalid key or corrupted ciphertext.")

def buildEncryptedCandidate (md5 lower : String → String) (n : ℕ) (request : Request) :
    Except EncryptionError (EncryptedCandidate τ × ℕ) := do
  let (name, n) ← encrypt fernet environment reads n request.fullName candidatePiiPurpose
  let (email, n) ← encrypt fernet environment reads n request.email candidatePiiPurpose
  let row : EncryptedCandidate τ := {
    orgId := request.orgId
    fullNameEncrypted := name.1
    emailEncrypted := email.1
    emailHash := generateHash md5 lower request.email
    phoneEncrypted := none
    phoneHash := none
    encryptionKeyId := name.2
    jurisdiction := request.jurisdiction
    sourceCampaignId := request.sourceCampaignId }
  match request.phone.filter (· ≠ "") with
  | none => return (row, n)
  | some phone => do
    let (encrypted, n) ← encrypt fernet environment reads n phone candidatePiiPurpose
    return ({ row with
      phoneEncrypted := some encrypted.1
      phoneHash := some (generateHash md5 lower phone) }, n)

-- The rows that the key queries of one call find, one value after the other.
def keysFound (purpose : String) : ℕ → ℕ → List EncryptionKey
  | 0, _ => []
  | values + 1, n =>
    match resolveUsableKey reads n purpose with
    | .ok (key, next) => key :: keysFound purpose values next
    | .error _ => []

-- Every value was encrypted with the material of the first one's key.
def OneMaterial (n : ℕ) (request : Request) : Prop :=
  ∀ stored ∈ keysFound reads candidatePiiPurpose 1 n, ∀ key ∈ keysFound reads candidatePiiPurpose
        (2 + (request.phone.filter (· ≠ "")).toList.length) n,
      secretOf fernet environment key.keyAlias = secretOf fernet environment stored.keyAlias

-- The stored columns give back the values of the request from then on.
def Decryptable (n : ℕ) (request : Request) (row : EncryptedCandidate τ) : Prop :=
  ∀ m, n ≤ m → decrypt fernet environment reads m row.fullNameEncrypted row.encryptionKeyId =
      .ok request.fullName ∧
    decrypt fernet environment reads m row.emailEncrypted row.encryptionKeyId = .ok request.email ∧
    ∀ ciphertext ∈ row.phoneEncrypted, ∃ phone ∈ request.phone,
      decrypt fernet environment reads m ciphertext row.encryptionKeyId = .ok phone

end Service

section Keys

variable {τ : Type} {fernet : Fernet τ} {environment : Environment} {reads : KeyReads}
variable {key : EncryptionKey} {n m : ℕ} {purpose : String}

theorem kept_le (hkey : key ∈ reads.rows n) (hle : n ≤ m) :
    ∃ after ∈ reads.rows m, after.id = key.id ∧ after.keyAlias = key.keyAlias := by
  induction m, hle using Nat.le_induction with
  | base => exact ⟨key, hkey, rfl, rfl⟩
  | succ m hle ih =>
    obtain ⟨before, hbefore, hid, halias⟩ := ih
    obtain ⟨after, hafter, hid', halias'⟩ := reads.kept m before hbefore
    exact ⟨after, hafter, hid'.trans hid, halias'.trans halias⟩

-- A row is found by its id ever after, whatever has become of its status.
theorem getById_later (hkey : key ∈ reads.rows n) (hle : n ≤ m) :
    ∃ found, getById reads m key.id = some found ∧ found.keyAlias = key.keyAlias := by
  obtain ⟨after, hafter, hid, halias⟩ := kept_le hkey hle
  have hmatch : after ∈ (reads.rows m).filter fun other => other.id = key.id :=
    List.mem_filter.mpr ⟨hafter, decide_eq_true hid⟩
  cases hfound : getById reads m key.id with
  | none =>
    rw [reads.first_none _ _ hfound] at hmatch
    simp at hmatch
  | some found =>
    obtain ⟨hmem, hsame⟩ := List.mem_filter.mp (reads.first_mem _ _ _ hfound)
    have heq : found = after := List.inj_on_of_nodup_map (reads.nodup m) hmem hafter
      ((of_decide_eq_true hsame).trans hid.symm)
    exact ⟨found, rfl, heq ▸ halias⟩

theorem getByPurpose_mem {keyStatus : KeyStatus}
    (h : getByPurpose reads n purpose keyStatus = some key) : key ∈ reads.rows n :=
  (List.mem_filter.mp (reads.first_mem _ _ _ h)).1

theorem resolveUsableKey_mem {next : ℕ} (h : resolveUsableKey reads n purpose = .ok (key, next)) :
    n < next ∧ ∃ k < next, key ∈ reads.rows k := by
  unfold resolveUsableKey at h
  split at h
  · next found hfound =>
    cases h
    exact ⟨by omega, n, by omega, getByPurpose_mem hfound⟩
  · split at h
    · next found hfound =>
      cases h
      exact ⟨by omega, n + 1, by omega, getByPurpose_mem hfound⟩
    · simp at h

theorem encrypt_eq_ok {value : String} {ciphertext : τ} {keyId : Uuid} {next : ℕ}
    (h : encrypt fernet environment reads n value purpose = .ok ((ciphertext, keyId), next)) :
    ∃ key secret, resolveUsableKey reads n purpose = .ok (key, next) ∧ keyId = key.id ∧
      secretOf fernet environment key.keyAlias = .ok secret ∧
      ciphertext = fernet.encrypt secret n value := by
  obtain ⟨⟨key, after⟩, hkey, h⟩ := (bind_eq_ok _ _ _).mp h
  obtain ⟨secret, hsecret, h⟩ := (bind_eq_ok _ _ _).mp h
  obtain ⟨hpair, rfl⟩ := Prod.mk.inj (Except.ok.inj h)
  cases hpair
  exact ⟨key, secret, hkey, rfl, hsecret, rfl⟩

-- Under the key of another value a value is decrypted exactly if the material is the same.
theorem decrypt_later (key : EncryptionKey) (time : ℕ) (value : String) {stored : EncryptionKey}
    {secret secret' : String} {k : ℕ}
    (hstored : stored ∈ reads.rows k) (hle : k ≤ m)
    (hsecret : secretOf fernet environment stored.keyAlias = .ok secret)
    (hsecret' : secretOf fernet environment key.keyAlias = .ok secret') :
    decrypt fernet environment reads m (fernet.encrypt secret' time value) stored.id = .ok value ↔
      secretOf fernet environment key.keyAlias = secretOf fernet environment stored.keyAlias := by
  obtain ⟨found, hfound, halias⟩ := getById_later hstored hle
  have hdecrypt : decrypt fernet environment reads m (fernet.encrypt secret' time value)
      stored.id = match fernet.decrypt secret (fernet.encrypt secret' time value) with
        | some value => .ok value
        | none => .error (.decryption
            "Unable to decrypt value — invalid key or corrupted ciphertext.") := by
    rw [decrypt, hfound]
    dsimp only
    rw [halias, hsecret]
    rfl
  rw [hdecrypt, hsecret, hsecret', Except.ok.injEq]
  by_cases hsame : secret = secret'
  · subst hsame
    simp [fernet.decrypt_encrypt]
  · rw [fernet.decrypt_other _ _ _ _ hsame]
    simp [Ne.symm hsame]

theorem keysFound_succ {values next : ℕ} (h : resolveUsableKey reads n purpose = .ok (key, next)) :
    keysFound reads purpose (values + 1) n = key :: keysFound reads purpose values next := by
  rw [keysFound, h]

end Keys

section Stored

variable {τ : Type}

-- A stored candidate can be decrypted exactly if no key switch with other material
-- fell between the values.
theorem stored_candidate_decrypts_iff (fernet : Fernet τ) (environment : Environment)
    (reads : KeyReads) (md5 lower : String → String) (n next : ℕ) (request : Request)
    (row : EncryptedCandidate τ)
    (h : buildEncryptedCandidate fernet environment reads md5 lower n request = .ok (row, next)) :
    Decryptable fernet environment reads next request row ↔
      OneMaterial fernet environment reads n request := by
  obtain ⟨⟨⟨name, nameId⟩, n₁⟩, hname, h⟩ := (bind_eq_ok _ _ _).mp h
  obtain ⟨⟨⟨email, emailId⟩, n₂⟩, hemail, h⟩ := (bind_eq_ok _ _ _).mp h
  obtain ⟨key, secret, hkey, rfl, hsecret, rfl⟩ := encrypt_eq_ok hname
  obtain ⟨key', secret', hkey', -, hsecret', rfl⟩ := encrypt_eq_ok hemail
  obtain ⟨-, k, hk, hmem⟩ := resolveUsableKey_mem hkey
  have hnext := (resolveUsableKey_mem hkey').1
  have hone : keysFound reads candidatePiiPurpose 1 n = [key] := keysFound_succ hkey
  have hself (m : ℕ) (hle : n₂ ≤ m) := (decrypt_later key n request.fullName hmem
    (by omega : k ≤ m) hsecret hsecret).mpr rfl
  have hother (m : ℕ) (hle : n₂ ≤ m) := decrypt_later key' n₁ request.email hmem
    (by omega : k ≤ m) hsecret hsecret'
  rw [OneMaterial, hone]
  dsimp only at h
  cases hphone : request.phone.filter (· ≠ "") with
  | none =>
    rw [hphone] at h
    obtain ⟨rfl, rfl⟩ := Prod.mk.inj (Except.ok.inj h)
    have hfound : keysFound reads candidatePiiPurpose 2 n = [key, key'] := by
      rw [keysFound_succ hkey, keysFound_succ hkey']
      rfl
    simp only [Option.toList_none, List.length_nil, Nat.add_zero, hfound, List.mem_cons,
      List.not_mem_nil, or_false, forall_eq, forall_eq_or_imp, true_and]
    constructor
    · exact fun hdec => (hother n₂ le_rfl).mp (hdec n₂ le_rfl).2.1
    · exact fun hsame m hle => ⟨hself m hle, (hother m hle).mpr hsame, by simp⟩
  | some phone =>
    rw [hphone] at h
    obtain ⟨⟨⟨ciphertext, phoneId⟩, n₃⟩, hencrypt, h⟩ := (bind_eq_ok _ _ _).mp h
    cases h
    obtain ⟨key₃, secret₃, hkey₃, -, hsecret₃, rfl⟩ := encrypt_eq_ok hencrypt
    have hlast := (resolveUsableKey_mem hkey₃).1
    have hgiven : request.phone = some phone := (Option.filter_eq_some_iff.mp hphone).1
    have hthird (m : ℕ) (hle : n₃ ≤ m) := decrypt_later key₃ n₂ phone hmem
      (by omega : k ≤ m) hsecret hsecret₃
    have hfound : keysFound reads candidatePiiPurpose 3 n = [key, key', key₃] := by
      rw [keysFound_succ hkey, keysFound_succ hkey', keysFound_succ hkey₃]
      rfl
    simp only [Option.toList_some, List.length_singleton, Nat.reduceAdd, hfound, List.mem_cons,
      List.not_mem_nil, or_false, forall_eq, forall_eq_or_imp, true_and]
    constructor
    · intro hdec
      obtain ⟨-, hmail, hcall⟩ := hdec n₃ le_rfl
      obtain ⟨given, hsome, hdecrypted⟩ := hcall _ rfl
      cases hgiven.symm.trans hsome
      exact ⟨(hother n₃ hlast.le).mp hmail, (hthird n₃ le_rfl).mp hdecrypted⟩
    · rintro ⟨hmail, hcall⟩ m hle
      refine ⟨hself m (by omega), (hother m (by omega)).mpr hmail, ?_⟩
      rintro _ ⟨⟩
      exact ⟨phone, hgiven, (hthird m hle).mpr hcall⟩

end Stored

def tokens : Fernet (String × String) where
  key := some
  encrypt := fun secret _ value => (secret, value)
  decrypt := fun secret token => if token.1 = secret then some token.2 else none
  decrypt_encrypt := by simp
  decrypt_other := by
    intro secret other time value hne
    exact if_neg (Ne.symm hne)

def ownMaterial : Environment where
  upper := id
  environ := some
  dotenv := fun _ => none

def firstKey (keyStatus : KeyStatus) : EncryptionKey := ⟨0, "first", keyStatus, "CANDIDATE_PII"⟩

-- The first key gives way to a second one after so many statements.
def switchedAfter (statements : ℕ) : KeyReads where
  rows := fun n => if n < statements then [firstKey .active]
    else [firstKey .rotating, ⟨1, "second", .active, "CANDIDATE_PII"⟩]
  nodup := by
    intro n
    split_ifs <;> simp [firstKey]
  kept := by
    intro n key hkey
    split_ifs at hkey with hbefore
    · obtain rfl := List.mem_singleton.mp hkey
      split_ifs <;> exact ⟨_, List.mem_cons_self, rfl, rfl⟩
    · rw [if_neg (by omega)]
      exact ⟨key, hkey, rfl, rfl⟩
  first := fun _ => List.head?
  first_mem := fun _ _ _ => List.mem_of_head?
  first_none := fun _ _ => List.head?_eq_none_iff.mp

def applicant : Request :=
  ⟨"Ada", "ada@example.org", "IN", "upload", "hr", none, none, none, none, none, none⟩

def stored : EncryptedCandidate (String × String) :=
  ⟨none, ("ENCRYPTION_KEY_first", "Ada"), ("ENCRYPTION_KEY_first", "ada@example.org"),
    "ada@example.org", none, none, 0, "IN", none⟩

theorem stored_candidate_decrypts_iff_unswitched :
    Decryptable tokens ownMaterial (switchedAfter 2) 2 applicant stored := by
  refine (stored_candidate_decrypts_iff tokens ownMaterial (switchedAfter 2) id id 0 2 applicant
    stored rfl).mpr ?_
  rintro stored hstored key hkey
  rw [List.mem_singleton.mp hstored]
  rcases List.mem_cons.mp hkey with rfl | hkey
  · rfl
  · rw [List.mem_singleton.mp hkey]

theorem switched_key_loses_email :
    ¬∀ (fernet : Fernet (String × String)) (environment : Environment) (reads : KeyReads)
      (md5 lower : String → String) (n next : ℕ) (request : Request)
      (row : EncryptedCandidate (String × String)),
      buildEncryptedCandidate fernet environment reads md5 lower n request = .ok (row, next) →
        Decryptable fernet environment reads next request row := by
  intro h
  have hlost := (h tokens ownMaterial (switchedAfter 1) id id 0 2 applicant
    { stored with emailEncrypted := ("ENCRYPTION_KEY_second", "ada@example.org") } rfl 2
    le_rfl).2.1
  have hwrong : decrypt tokens ownMaterial (switchedAfter 1) 2
      ("ENCRYPTION_KEY_second", "ada@example.org") 0 =
        .error (.decryption "Unable to decrypt value — invalid key or corrupted ciphertext.") := rfl
  exact absurd (hlost.symm.trans hwrong) (by simp)

end CandidateEncryption

end AiHiring
