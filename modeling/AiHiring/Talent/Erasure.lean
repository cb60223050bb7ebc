import AiHiring.Talent.Embedding

namespace AiHiring

open Library TalentRepository CandidateErasureService

variable {V : Type}

-- What `zero_out_embeddings_for_candidate` leaves of a row.
def ResumeEmbedding.Blank [Zero V] (e : ResumeEmbedding V) : Prop :=
  e.embedding = 0 ∧ e.isTalentPoolEligible = false

instance [Zero V] [DecidableEq V] (e : ResumeEmbedding V) : Decidable e.Blank :=
  inferInstanceAs (Decidable (_ ∧ _))

namespace TalentDb

def Requested (db : TalentDb V) (candidateId : Uuid) : Prop :=
  ∃ c ∈ db.candidates.rows, c.id = candidateId ∧ c.erasureRequestedAt ≠ none

instance (db : TalentDb V) (candidateId : Uuid) : Decidable (db.Requested candidateId) :=
  inferInstanceAs (Decidable (∃ c ∈ db.candidates.rows, _ ∧ _))

def Blanked [Zero V] (db : TalentDb V) : Prop :=
  ∀ e ∈ db.embeddings.rows, db.Requested e.candidateId → e.Blank

-- What a request for erasure promises, whatever counts as a fresh resume.
structure Final [Zero V] (db : TalentDb V) : Prop where
  blanked : db.Blanked
  unfound (fresh : ResumeRow → Bool) :
    ∀ r ∈ TalentPool.searchable db fresh, ¬db.Requested r.candidateId
  unselected (fresh : ResumeRow → Bool) (candidateId : Uuid) : db.Requested candidateId →
      TalentPool.eligibleResumes db fresh candidateId = .error noEligibleResume

-- A resume, if it is there, is the candidate's.
def OwnedBy (db : TalentDb V) (resumeId candidateId : Uuid) : Prop :=
  ∀ r ∈ db.resumes.rows, r.id = resumeId → r.candidateId = candidateId

def Owned (db : TalentDb V) : Prop :=
  ∀ e ∈ db.embeddings.rows, db.OwnedBy e.resumeId e.candidateId

theorem OwnedBy.of_mem {db : TalentDb V} {r : ResumeRow} (hr : r ∈ db.resumes.rows) :
    db.OwnedBy r.id r.candidateId := by
  intro r' hr' hid
  rw [db.resumes.eq_of_key_eq hr' hr hid]

theorem OwnedBy.parsed {db : TalentDb V} {resumeId r c : Uuid} {text : Option String}
    (h : db.OwnedBy r c) :
    OwnedBy { db with
      resumes := db.resumes.modify (TalentRepository.parsed resumeId) (parsed_id resumeId)
      embeddingText := Function.update db.embeddingText resumeId text } r c := by
  intro row hrow hid
  obtain ⟨old, hold, rfl⟩ := List.mem_map.mp hrow
  rw [parsed_id] at hid
  have hcand : (TalentRepository.parsed resumeId old).candidateId = old.candidateId := by
    unfold TalentRepository.parsed
    split_ifs <;> rfl
  rw [hcand]
  exact h old hold hid

theorem Blanked.final [Zero V] {db : TalentDb V} (h : db.Blanked) (howned : db.Owned) :
    db.Final := by
  have hrow {e : ResumeEmbedding V} (he : e ∈ db.embeddings.rows) {r : ResumeRow}
      (hr : r ∈ db.resumes.rows) (hre : e.resumeId = r.id) (hreq : db.Requested r.candidateId) :
      e.isTalentPoolEligible = false := by
    rw [howned e he r hr hre.symm] at hreq
    exact (h e he hreq).2
  refine ⟨h, ?_, ?_⟩
  · intro fresh r hr hreq
    simp only [TalentPool.searchable, List.mem_filter, decide_eq_true_eq, List.any_eq_true] at hr
    obtain ⟨hmem, -, ⟨e, he, hre, heligible⟩, -⟩ := hr
    simp [hrow he hmem hre hreq] at heligible
  · intro fresh candidateId hreq
    have hnone : (db.resumes.rows.filter fun r => r.candidateId = candidateId ∧
        TalentPool.isEligible db fresh r) = [] := by
      rw [List.filter_eq_nil_iff]
      intro r hr hsel
      simp only [TalentPool.isEligible, decide_eq_true_eq, Option.any_eq_true] at hsel
      obtain ⟨rfl, -, ⟨e, he, heligible⟩, -⟩ := hsel
      have hre : e.resumeId = r.id := by
        have := List.find?_some he
        simpa using this
      have hblank := hrow (List.mem_of_find?_eq_some he) hr hre hreq
      simp [hblank] at heligible
    exact if_pos hnone

end TalentDb

-- The resume and the candidate that an activity is about to insert a row for.
def TalentActivity.source : TalentActivity V → Option (Uuid × Uuid)
  | .embedding resume _ => some (resume.id, resume.candidateId)
  | .inserting fields => some (fields.resumeId, fields.candidateId)
  | _ => none

structure TalentWorld.Owned (w : TalentWorld V) : Prop where
  rows : w.db.Owned
  sources : ∀ a ∈ w.crew, ∀ p, a.source = some p → w.db.OwnedBy p.1 p.2

theorem TalentWorld.Owned.hire {w : TalentWorld V} (h : w.Owned) {a : TalentActivity V} (ha : a.source = none) :
    TalentWorld.Owned { w with crew := w.crew ++ [a] } := by
  refine ⟨h.rows, ?_⟩
  intro x hx p hp
  rcases List.mem_append.mp hx with hx | hx
  · exact h.sources x hx p hp
  · rw [List.mem_singleton.mp hx, ha] at hp
    simp at hp

-- What the corrections so far say of a row; the last one counts.
def pending (flushed : List (List Uuid × Bool)) (id : Uuid) : Option Bool :=
  flushed.foldl (fun found f => if id ∈ f.1 then some f.2 else found) none

def corrected (flushed : List (List Uuid × Bool)) (e : ResumeEmbedding V) : ResumeEmbedding V :=
  { e with isTalentPoolEligible := (pending flushed e.id).getD e.isTalentPoolEligible }

section Corrections

variable {flushed : List (List Uuid × Bool)}

theorem pending_append (f : List Uuid × Bool) (id : Uuid) :
    pending (flushed ++ [f]) id = if id ∈ f.1 then some f.2 else pending flushed id := by
  simp [pending, List.foldl_append]

theorem corrected_append (f : List Uuid × Bool) (e : ResumeEmbedding V) :
    corrected (flushed ++ [f]) e = withEligibility f.1 f.2 (corrected flushed e) := by
  by_cases h : e.id ∈ f.1
  · simp [corrected, pending_append, withEligibility, h]
  · simp [corrected, pending_append, withEligibility, h]

theorem applyFlushed_rows (db : TalentDb V) :
    (TalentActivity.applyFlushed db flushed).embeddings.rows =
      db.embeddings.rows.map (corrected flushed) := by
  induction flushed using List.reverseRecOn with
  | nil =>
    have hid : corrected ([] : List (List Uuid × Bool)) = (id : ResumeEmbedding V → _) := rfl
    simp [TalentActivity.applyFlushed, hid]
  | append_singleton flushed f ih =>
    have hstep : TalentActivity.applyFlushed db (flushed ++ [f]) =
        setTalentPoolEligibility (TalentActivity.applyFlushed db flushed) f.1 f.2 := by
      simp [TalentActivity.applyFlushed, List.foldl_append]
    rw [hstep, setTalentPoolEligibility, Table.rows_modify, ih, List.map_map]
    exact List.map_congr_left fun e _ => (corrected_append f e).symm

theorem applyFlushed_frame (db : TalentDb V) :
    (TalentActivity.applyFlushed db flushed).candidates = db.candidates ∧
      (TalentActivity.applyFlushed db flushed).resumes = db.resumes := by
  induction flushed using List.reverseRecOn with
  | nil => exact ⟨rfl, rfl⟩
  | append_singleton flushed f ih =>
    rw [TalentActivity.applyFlushed, List.foldl_append]
    exact ih

end Corrections

namespace TalentActivity

variable [Zero V] (model : EmbeddingModel V)

def written (db : TalentDb V) (now : Instant) : TalentActivity V → TalentDb V
  | inserting fields => createResumeEmbedding db fields model.versionId
  | validating [] flushed => applyFlushed db flushed
  | zeroing candidateId ids => requestErasure db candidateId ids now
  | _ => db

variable {model} {db db' : TalentDb V} {locked : List Uuid} {choice : TalentChoice}
  {a a' : TalentActivity V}

theorem advance_written (h : a.advance model db locked choice = some (db', a')) :
    db' = a.written model db choice.now := by
  cases a with
  | generating resumeId =>
    simp only [advance] at h
    split at h
    · exact (congrArg Prod.fst (Option.some.inj h)).symm
    · split at h <;> exact (congrArg Prod.fst (Option.some.inj h)).symm
  | embedding resume inputText =>
    simp only [advance] at h
    split at h
    · split at h
      · simp at h
      · split_ifs at h
        exact (congrArg Prod.fst (Option.some.inj h)).symm
    · split_ifs at h
      exact (congrArg Prod.fst (Option.some.inj h)).symm
  | inserting fields => exact (congrArg Prod.fst (Option.some.inj h)).symm
  | validating rest flushed =>
    cases rest with
    | nil => exact (congrArg Prod.fst (Option.some.inj h)).symm
    | cons candidateId rest =>
      simp only [advance] at h
      split at h <;> exact (congrArg Prod.fst (Option.some.inj h)).symm
  | correcting candidateId eligible rest flushed =>
    simp only [advance] at h
    split_ifs at h <;> exact (congrArg Prod.fst (Option.some.inj h)).symm
  | requesting candidateId =>
    simp only [advance] at h
    split at h
    · exact (congrArg Prod.fst (Option.some.inj h)).symm
    · split_ifs at h
      exact (congrArg Prod.fst (Option.some.inj h)).symm
  | zeroing candidateId ids => exact (congrArg Prod.fst (Option.some.inj h)).symm
  | done => exact (congrArg Prod.fst (Option.some.inj h)).symm

theorem source_advance (h : a.advance model db locked choice = some (db', a'))
    {p : Uuid × Uuid} (hp : a'.source = some p) : a.source = some p ∨ db.OwnedBy p.1 p.2 := by
  cases a with
  | generating resumeId =>
    simp only [advance] at h
    split at h
    · cases h
      simp [source] at hp
    · next resume hfind =>
        have hmem := ((db.resumes.find?_eq_some resumeId resume).mp hfind).1
        split at h
        · cases h
          simp [source] at hp
        · cases h
          cases hp
          exact .inr (TalentDb.OwnedBy.of_mem hmem)
  | embedding resume inputText =>
    simp only [advance] at h
    split at h
    · split at h
      · simp at h
      · split_ifs at h
        cases h
        exact .inl hp
    · split_ifs at h
      cases h
      exact .inl hp
  | validating rest flushed =>
    cases rest with
    | nil =>
      cases h
      simp [source] at hp
    | cons candidateId rest =>
      simp only [advance] at h
      split at h <;>
        cases h <;>
        simp [source] at hp
  | correcting candidateId eligible rest flushed =>
    simp only [advance] at h
    split_ifs at h <;>
      cases h <;>
      simp [source] at hp
  | requesting candidateId =>
    simp only [advance] at h
    split at h
    · cases h
      simp [source] at hp
    · split_ifs at h
      cases h
      simp [source] at hp
  | inserting fields | zeroing candidateId ids | done =>
    cases h
    simp [source] at hp

-- The rows that an open transaction is about to write say nothing against the
-- requests that have been committed meanwhile.
def Respects (model : EmbeddingModel V) (db : TalentDb V) : TalentActivity V → Prop
  | inserting fields =>
    embedded db fields.resumeId model.versionId ∨ ¬db.Requested fields.candidateId
  | validating [] flushed =>
    ∀ e ∈ db.embeddings.rows, db.Requested e.candidateId → pending flushed e.id ≠ some true
  | zeroing candidateId ids =>
    (∃ c ∈ db.candidates.rows, c.id = candidateId) →
      ∀ e ∈ embeddingsOf db candidateId, e.id ∈ ids ∨ e.Blank
  | _ => True

theorem blanked_insert (fields : NewEmbedding V) (versionId : Uuid) (h : db.Blanked) :
    (createResumeEmbedding db fields versionId).Blanked ↔
      embedded db fields.resumeId versionId ∨ ¬db.Requested fields.candidateId := by
  by_cases hemb : embedded db fields.resumeId versionId
  · simp [createResumeEmbedding, hemb, h]
  · have hnew : ¬(newRow fields versionId db.embeddings.next).Blank := by
      simp [ResumeEmbedding.Blank, newRow]
    have hrows : (createResumeEmbedding db fields versionId).Blanked ↔
        ∀ e ∈ db.embeddings.rows ++ [newRow fields versionId db.embeddings.next],
          db.Requested e.candidateId → e.Blank := by
      rw [createResumeEmbedding, if_neg hemb]
      exact Iff.rfl
    have hold : ∀ e ∈ db.embeddings.rows, db.Requested e.candidateId → e.Blank := h
    rw [hrows, List.forall_mem_append, and_iff_right hold, List.forall_mem_singleton]
    rw [or_iff_right hemb]
    constructor
    · intro hblank hreq
      exact hnew (hblank hreq)
    · intro hnot hreq
      exact absurd hreq hnot

theorem blanked_correct (flushed : List (List Uuid × Bool)) (h : db.Blanked) :
    (applyFlushed db flushed).Blanked ↔
      ∀ e ∈ db.embeddings.rows, db.Requested e.candidateId → pending flushed e.id ≠ some true := by
  have hreq (candidateId : Uuid) : (applyFlushed db flushed).Requested candidateId ↔
      db.Requested candidateId := by
    rw [TalentDb.Requested, (applyFlushed_frame db).1]
    exact Iff.rfl
  have hrow {e : ResumeEmbedding V} (hblank : e.Blank) :
      (corrected flushed e).Blank ↔ pending flushed e.id ≠ some true := by
    obtain ⟨hzero, hfalse⟩ := hblank
    cases hp : pending flushed e.id with
    | none => simp [ResumeEmbedding.Blank, corrected, hp, hzero, hfalse]
    | some eligible => simp [ResumeEmbedding.Blank, corrected, hp, hzero]
  unfold TalentDb.Blanked
  rw [applyFlushed_rows, List.forall_mem_map]
  refine forall_congr' fun e => forall_congr' fun he => ?_
  rw [hreq]
  exact imp_congr_right fun hc => hrow (h e he hc)

theorem requested_requestErasure (candidateId : Uuid) (ids : List Uuid) (now : Instant)
    (other : Uuid) :
    (requestErasure db candidateId ids now).Requested other ↔
      db.Requested other ∨ other = candidateId ∧ ∃ c ∈ db.candidates.rows, c.id = candidateId := by
  have hrows : (requestErasure db candidateId ids now).candidates.rows =
      db.candidates.rows.map (erasureRequested candidateId now) := rfl
  unfold TalentDb.Requested
  rw [hrows]
  constructor
  · rintro ⟨c', hc', rfl, hsome⟩
    obtain ⟨c, hc, rfl⟩ := List.mem_map.mp hc'
    by_cases hid : c.id = candidateId
    · exact .inr ⟨by rw [erasureRequested_id, hid], c, hc, hid⟩
    · have hsame : erasureRequested candidateId now c = c := if_neg hid
      rw [hsame] at hsome ⊢
      exact .inl ⟨c, hc, rfl, hsome⟩
  · rintro (⟨c, hc, rfl, hsome⟩ | ⟨rfl, c, hc, rfl⟩)
    · refine ⟨_, List.mem_map_of_mem hc, erasureRequested_id candidateId now c, ?_⟩
      unfold erasureRequested
      split_ifs
      · exact Option.some_ne_none now
      · exact hsome
    · exact ⟨_, List.mem_map_of_mem hc, erasureRequested_id c.id now c, by simp [erasureRequested]⟩

theorem blank_zeroed (ids : List Uuid) (e : ResumeEmbedding V) :
    (zeroed ids e).Blank ↔ e.id ∈ ids ∨ e.Blank := by
  by_cases h : e.id ∈ ids
  · simp [zeroed, h, ResumeEmbedding.Blank]
  · simp [zeroed, h]

theorem candidateId_zeroed (ids : List Uuid) (e : ResumeEmbedding V) :
    (zeroed ids e).candidateId = e.candidateId := by
  unfold zeroed
  split_ifs <;> rfl

theorem blanked_request (candidateId : Uuid) (ids : List Uuid) (now : Instant) (h : db.Blanked) :
    (requestErasure db candidateId ids now).Blanked ↔
      ((∃ c ∈ db.candidates.rows, c.id = candidateId) →
        ∀ e ∈ embeddingsOf db candidateId, e.id ∈ ids ∨ e.Blank) := by
  have hrows : (requestErasure db candidateId ids now).embeddings.rows =
      db.embeddings.rows.map (zeroed ids) := rfl
  unfold TalentDb.Blanked
  rw [hrows, List.forall_mem_map]
  constructor
  · intro hall hc e he
    obtain ⟨hmem, hcand⟩ := List.mem_filter.mp he
    have hcand : e.candidateId = candidateId := by simpa using hcand
    have hreq := (requested_requestErasure candidateId ids now e.candidateId).mpr
      (.inr ⟨hcand, hc⟩)
    rw [← candidateId_zeroed ids e] at hreq
    exact (blank_zeroed ids e).mp (hall e hmem hreq)
  · intro hguard e he hreq
    rw [candidateId_zeroed, requested_requestErasure] at hreq
    rw [blank_zeroed]
    rcases hreq with hreq | ⟨hcand, hc⟩
    · exact .inr (h e he hreq)
    · exact hguard hc e (List.mem_filter.mpr ⟨he, by simpa using hcand⟩)

theorem blanked_written (now : Instant) (h : db.Blanked) :
    (a.written model db now).Blanked ↔ a.Respects model db := by
  cases a with
  | inserting fields => exact blanked_insert fields model.versionId h
  | validating rest flushed =>
    cases rest with
    | nil => exact blanked_correct flushed h
    | cons candidateId rest => exact iff_of_true h trivial
  | zeroing candidateId ids => exact blanked_request candidateId ids now h
  | generating resumeId | embedding resume inputText
  | correcting candidateId eligible rest flushed | requesting candidateId | done =>
    exact iff_of_true h trivial

theorem resumes_written (now : Instant) : (a.written model db now).resumes = db.resumes := by
  cases a with
  | inserting fields =>
    simp only [written, createResumeEmbedding]
    split_ifs <;> rfl
  | validating rest flushed =>
    cases rest with
    | nil => exact (applyFlushed_frame db).2
    | cons candidateId rest => rfl
  | generating resumeId | embedding resume inputText | requesting candidateId
  | correcting candidateId eligible rest flushed | zeroing candidateId ids | done => rfl

-- What a write leaves of a row: all but its vector and its mark.
structure Rewrites (e e' : ResumeEmbedding V) : Prop where
  id : e'.id = e.id
  resumeId : e'.resumeId = e.resumeId
  candidateId : e'.candidateId = e.candidateId
  inputTextHash : e'.inputTextHash = e.inputTextHash
  embedding : e'.embedding = e.embedding ∨ e'.embedding = 0

theorem rewrites_refl (e : ResumeEmbedding V) : Rewrites e e :=
  ⟨rfl, rfl, rfl, rfl, .inl rfl⟩

theorem rewrites_zeroed (ids : List Uuid) (e : ResumeEmbedding V) : Rewrites e (zeroed ids e) := by
  unfold zeroed
  split_ifs
  · exact ⟨rfl, rfl, rfl, rfl, .inr rfl⟩
  · exact rewrites_refl e

theorem rows_written {now : Instant} {e : ResumeEmbedding V}
    (he : e ∈ (a.written model db now).embeddings.rows) :
    (∃ old ∈ db.embeddings.rows, Rewrites old e) ∨
      ∃ fields, a = inserting fields ∧ e = newRow fields model.versionId db.embeddings.next := by
  cases a with
  | inserting fields =>
    simp only [written, createResumeEmbedding] at he
    split_ifs at he
    · exact .inl ⟨e, he, rewrites_refl e⟩
    · rw [Table.rows_insert, List.mem_append, List.mem_singleton] at he
      rcases he with he | he
      · exact .inl ⟨e, he, rewrites_refl e⟩
      · exact .inr ⟨fields, rfl, he⟩
  | validating rest flushed =>
    cases rest with
    | nil =>
      rw [written, applyFlushed_rows] at he
      obtain ⟨old, hold, rfl⟩ := List.mem_map.mp he
      exact .inl ⟨old, hold, rfl, rfl, rfl, rfl, .inl rfl⟩
    | cons candidateId rest => exact .inl ⟨e, he, rewrites_refl e⟩
  | zeroing candidateId ids =>
    obtain ⟨old, hold, rfl⟩ := List.mem_map.mp he
    exact .inl ⟨old, hold, rewrites_zeroed ids old⟩
  | generating resumeId | embedding resume inputText | requesting candidateId
  | correcting candidateId eligible rest flushed | done =>
    exact .inl ⟨e, he, rewrites_refl e⟩

theorem owned_written (now : Instant) (h : db.Owned)
    (hsource : ∀ p, a.source = some p → db.OwnedBy p.1 p.2) :
    (a.written model db now).Owned := by
  intro e he
  unfold TalentDb.OwnedBy
  rw [resumes_written]
  rcases rows_written he with ⟨old, hold, hrewrites⟩ | ⟨fields, rfl, rfl⟩
  · rw [hrewrites.resumeId, hrewrites.candidateId]
    exact h old hold
  · exact hsource _ rfl

end TalentActivity

namespace TalentWorld

variable [Zero V] (model : EmbeddingModel V) {w w' : TalentWorld V} {action : TalentAction}

-- What a step of a run must not do.
def Respects (w : TalentWorld V) : TalentAction → Prop
  | .advance index _ => ∀ a, w.crew[index]? = some a → a.Respects model w.db
  | _ => True

variable {model}

theorem advance_cases {index : ℕ} {choice : TalentChoice}
    (h : Step model w (.advance index choice) w') :
    ∃ a a', w.crew[index]? = some a ∧
      a.advance model w.db (w.lockedBut index) choice = some (w'.db, a') ∧
      w'.crew = w.crew.set index a' := by
  simp only [Step, next] at h
  cases hi : w.crew[index]? with
  | none => simp [hi] at h
  | some a =>
    simp only [hi, Option.map_eq_some_iff] at h
    obtain ⟨⟨db', a'⟩, ha, rfl⟩ := h
    exact ⟨a, a', rfl, ha, rfl⟩

theorem Owned.step (h : w.Owned) (hs : Step model w action w') : w'.Owned := by
  cases action with
  | parsed resumeId text =>
    cases hs
    exact ⟨fun e he => (h.rows e he).parsed, fun a ha p hp => (h.sources a ha p hp).parsed⟩
  | enqueueEmbedding resumeId | validateEligibility | requestErasure candidateId =>
    cases hs
    exact h.hire rfl
  | eraseCandidate candidateId =>
    simp only [Step, next] at hs
    split_ifs at hs
    cases hs
    have hkept {r c : Uuid} (hr : w.db.OwnedBy r c) :
        (eraseCandidate w.db candidateId).OwnedBy r c :=
      fun row hrow => hr row (List.mem_filter.mp hrow).1
    exact ⟨fun e he => hkept (h.rows e (List.mem_filter.mp he).1),
      fun a ha p hp => hkept (h.sources a ha p hp)⟩
  | advance index choice =>
    obtain ⟨a, a', hi, ha, hcrew⟩ := advance_cases hs
    have hmem := List.mem_of_getElem? hi
    have hdb := TalentActivity.advance_written ha
    have hkept {r c : Uuid} (hr : w.db.OwnedBy r c) : w'.db.OwnedBy r c := by
      unfold TalentDb.OwnedBy
      rw [hdb, TalentActivity.resumes_written]
      exact hr
    refine ⟨?_, ?_⟩
    · rw [hdb]
      exact TalentActivity.owned_written choice.now h.rows (h.sources a hmem)
    · intro x hx p hp
      rw [hcrew] at hx
      rcases mem_of_mem_set hx with rfl | hx
      · rcases TalentActivity.source_advance ha hp with hp | howned
        · exact hkept (h.sources a hmem p hp)
        · exact hkept howned
      · exact hkept (h.sources x hx p hp)
  | abandon index =>
    cases hs
    refine ⟨h.rows, ?_⟩
    intro x hx p hp
    rcases mem_of_mem_set hx with rfl | hx
    · simp [TalentActivity.source] at hp
    · exact h.sources x hx p hp

theorem blanked_step (h : w.db.Blanked) (hs : Step model w action w') :
    w'.db.Blanked ↔ w.Respects model action := by
  cases action with
  | parsed resumeId text | enqueueEmbedding resumeId | validateEligibility
  | requestErasure candidateId | abandon index =>
    cases hs
    exact iff_of_true h trivial
  | eraseCandidate candidateId =>
    simp only [Step, next] at hs
    split_ifs at hs
    cases hs
    refine iff_of_true ?_ trivial
    rintro e he ⟨c, hc, hid, hsome⟩
    exact h e (List.mem_filter.mp he).1 ⟨c, (List.mem_filter.mp hc).1, hid, hsome⟩
  | advance index choice =>
    obtain ⟨a, a', hi, ha, -⟩ := advance_cases hs
    rw [TalentActivity.advance_written ha, TalentActivity.blanked_written choice.now h]
    constructor
    · intro hrespects b hb
      cases hi.symm.trans hb
      exact hrespects
    · intro hall
      exact hall a hi

theorem erasure_final {path : List (TalentAction × TalentWorld V)}
    (hp : Path (Step model) w path) (howned : w.Owned) (hfinal : w.db.Final) :
    (∀ t ∈ visited w path, t.db.Final) ↔
      EveryStep (fun w action _ => w.Respects model action) w path := by
  refine hp.visited_iff_everyStep howned (fun s action t hs => hs.step) hfinal ?_
  intro s action t hinv hgood hs
  rw [← blanked_step hgood.blanked hs]
  exact ⟨fun hfinal => hfinal.blanked, fun hblanked => hblanked.final (hinv.step hs).rows⟩

-- Erasures or not, an embedding always names the candidate whose resume it is of.
theorem embeddings_owned {path : List (TalentAction × TalentWorld V)} (howned : w.Owned)
    (hp : Path (Step model) w path) : ∀ t ∈ visited w path, t.Owned :=
  hp.invariant howned fun _ _ _ h hs => h.step hs

def lengthModel : EmbeddingModel ℕ where
  versionId := 0
  generate inputText := inputText.length + 1
  md5 := id

def pooledResume (candidateId : Uuid) : ResumeRow :=
  { ResumeRepository.newVersion
      { candidateId := candidateId, filePath := "resume", fileFormat := .pdf, fileHash := "resume",
        uploadedBy := "recruiter", bulkUploadJobId := none, taskId := none } 1 candidateId with
    parseStatus := .parsed, parserVersion := some ResumeService.parserVersion }

theorem pooledResume_id (candidateId : Uuid) : (pooledResume candidateId).id = candidateId := rfl

theorem newCandidate_key (emailHash : String) (id : Uuid) :
    (CandidateService.newCandidate emailHash id).id = id := rfl

def pooledDb : TalentDb ℕ where
  candidates := (Table.empty.insert (CandidateService.newCandidate "first")
    (newCandidate_key "first")).insert (CandidateService.newCandidate "second")
    (newCandidate_key "second")
  resumes := (Table.empty.insert pooledResume pooledResume_id).insert pooledResume pooledResume_id
  embeddings := Table.empty
  embeddingText _ := some "python"

def pooled : TalentWorld ℕ := ⟨pooledDb, []⟩

def run (actions : List TalentAction) : List (TalentAction × TalentWorld ℕ) :=
  execute (next lengthModel) pooled actions

theorem path_run (actions : List TalentAction) : Path (Step lengthModel) pooled (run actions) :=
  execute_path _ (fun _ _ _ h => h) pooled actions

theorem owned_pooled : pooled.Owned where
  rows _ he := absurd he List.not_mem_nil
  sources _ ha := absurd ha List.not_mem_nil

theorem final_pooled : pooled.db.Final :=
  TalentDb.Blanked.final (fun _ he => absurd he List.not_mem_nil) owned_pooled.rows

def unmatched : TalentChoice := ⟨none, none, 0⟩

def embedResume (resumeId : Uuid) (index : ℕ) : List TalentAction :=
  [.enqueueEmbedding resumeId, .advance index unmatched, .advance index unmatched,
   .advance index unmatched]

def embeddedThenRequested : List TalentAction :=
  embedResume 0 0 ++ [.requestErasure 0, .advance 1 unmatched, .advance 1 unmatched]

theorem erasure_final_embedded :
    pooled.db.Final ∧ ∀ t ∈ visited pooled (run embeddedThenRequested), t.db.Final := by
  refine ⟨final_pooled, (erasure_final (path_run _) owned_pooled final_pooled).mpr ?_⟩
  refine ⟨trivial, ?_, ?_, ?_, trivial, ?_, ?_, trivial⟩
  all_goals
    intro a ha
    cases ha
  · trivial
  · trivial
  · exact .inr (by decide)
  · trivial
  · exact fun _ => by decide

theorem embeddings_owned_embedded : (final pooled (run embeddedThenRequested)).Owned :=
  embeddings_owned owned_pooled (path_run _) _ (final_mem_visited _ _)

def requestedMeanwhile : List TalentAction :=
  [.enqueueEmbedding 0, .advance 0 unmatched, .requestErasure 0, .advance 1 unmatched,
   .advance 1 unmatched, .advance 0 unmatched, .advance 0 unmatched]

theorem erasure_not_final :
    ¬∀ path : List (TalentAction × TalentWorld ℕ), Path (Step lengthModel) pooled path →
      ∀ t ∈ visited pooled path, t.db.Final := by
  intro h
  have hfinal := h _ (path_run requestedMeanwhile) _ (final_mem_visited _ _)
  have hrows : (final pooled (run requestedMeanwhile)).db.embeddings.rows =
      [newRow (TalentActivity.fresh lengthModel (pooledResume 0) "python") 0 0] := rfl
  have hblank := hfinal.blanked _ (hrows ▸ List.mem_singleton_self _)
  exact absurd (hblank (by decide)).2 (by decide)

end TalentWorld

end AiHiring
