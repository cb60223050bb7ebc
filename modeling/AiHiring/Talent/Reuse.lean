import AiHiring.Talent.Erasure

namespace AiHiring

open Library TalentRepository CandidateErasureService

variable {V : Type} [Zero V] (model : EmbeddingModel V)

namespace TalentDb

def Unrequested (db : TalentDb V) (candidateId : Uuid) : Prop :=
  ∃ c ∈ db.candidates.rows, c.id = candidateId ∧ c.erasureRequestedAt = none

-- Every vector that is in use belongs to the text of its own resume.
def Belongs (db : TalentDb V) : Prop :=
  ∀ e ∈ db.embeddings.rows, db.Unrequested e.candidateId →
    ∃ inputText, db.embeddingText e.resumeId = some inputText ∧
      e.embedding = model.generate inputText

-- The hash is that of the resume's text, the vector its own or overwritten.
def OfText (db : TalentDb V) (resumeId : Uuid) (inputTextHash : String) (vector : V) : Prop :=
  ∃ inputText, db.embeddingText resumeId = some inputText ∧
    inputTextHash = model.md5 inputText ∧ (vector = model.generate inputText ∨ vector = 0)

def Traced (db : TalentDb V) : Prop :=
  ∀ e ∈ db.embeddings.rows, db.OfText model e.resumeId e.inputTextHash e.embedding

variable {model} {db : TalentDb V}

theorem belongs_iff (hgenerate : ∀ inputText, model.generate inputText ≠ 0)
    (htraced : db.Traced model) :
    db.Belongs model ↔
      ∀ e ∈ db.embeddings.rows, db.Unrequested e.candidateId → e.embedding ≠ 0 := by
  refine forall_congr' fun e => forall_congr' fun he => imp_congr_right fun _ => ?_
  obtain ⟨inputText, htext, -, hvector⟩ := htraced e he
  constructor
  · rintro ⟨own, -, hown⟩
    rw [hown]
    exact hgenerate own
  · intro hne
    exact ⟨inputText, htext, hvector.resolve_right hne⟩

end TalentDb

namespace TalentActivity

-- What an activity has read agrees with the texts, and the rows it has zeroed
-- are the candidate's.
def Traced (db : TalentDb V) : TalentActivity V → Prop
  | embedding resume inputText => db.embeddingText resume.id = some inputText
  | inserting fields => db.OfText model fields.resumeId fields.inputTextHash fields.embedding
  | zeroing candidateId ids => ∀ id ∈ ids, id < db.embeddings.next ∧
      ∀ e ∈ db.embeddings.rows, e.id = id → e.candidateId = candidateId
  | _ => True

-- The vector that goes into a new row has not been overwritten, as long as its
-- candidate has made no request.
def ReusesOwn (db : TalentDb V) : TalentActivity V → Prop
  | inserting fields => embedded db fields.resumeId model.versionId ∨
      (db.Unrequested fields.candidateId → fields.embedding ≠ 0)
  | _ => True

variable {model} {db db' : TalentDb V} {locked : List Uuid} {choice : TalentChoice}
  {a a' : TalentActivity V}

theorem traced_advance (hmd5 : Function.Injective model.md5) (hrows : db.Traced model)
    (ha : a.Traced model db) (h : a.advance model db locked choice = some (db', a')) :
    a'.Traced model db := by
  cases a with
  | generating resumeId =>
    simp only [advance] at h
    split at h
    · cases h
      trivial
    · next resume hfind =>
        have hid := ((db.resumes.find?_eq_some resumeId resume).mp hfind).2
        split at h
        · cases h
          trivial
        · next inputText htext =>
            cases h
            show db.embeddingText resume.id = some inputText
            rw [hid]
            exact htext
  | embedding resume inputText =>
    have htext : db.embeddingText resume.id = some inputText := ha
    simp only [advance] at h
    split at h
    · split at h
      · simp at h
      · next e hfind =>
          split_ifs at h with hhash
          cases h
          have he := ((db.embeddings.find?_eq_some _ e).mp hfind).1
          obtain ⟨matched, -, hmatched, hvector⟩ := hrows e he
          have hequal : e.inputTextHash = model.md5 inputText := by
            simp only [hasHash, decide_eq_true_eq] at hhash
            exact hhash.1
          -- equal hashes are those of equal texts
          have hsame : matched = inputText := hmd5 (hmatched.symm.trans hequal)
          exact ⟨inputText, htext, rfl, hsame ▸ hvector⟩
    · split_ifs at h
      cases h
      exact ⟨inputText, htext, rfl, .inl rfl⟩
  | validating rest flushed =>
    cases rest with
    | nil =>
      cases h
      trivial
    | cons candidateId rest =>
      simp only [advance] at h
      split at h <;>
        cases h <;>
        trivial
  | correcting candidateId eligible rest flushed =>
    simp only [advance] at h
    split_ifs at h <;>
      cases h <;>
      trivial
  | requesting candidateId =>
    simp only [advance] at h
    split at h
    · cases h
      trivial
    · split_ifs at h
      cases h
      intro id hid
      obtain ⟨e, he, rfl⟩ := List.mem_map.mp hid
      obtain ⟨hmem, hcand⟩ := List.mem_filter.mp he
      refine ⟨db.embeddings.below e hmem, ?_⟩
      intro e' he' hkey
      rw [db.embeddings.eq_of_key_eq he' hmem hkey]
      simpa using hcand
  | inserting fields | zeroing candidateId ids | done =>
    cases h
    trivial

theorem embeddingText_written (now : Instant) :
    (a.written model db now).embeddingText = db.embeddingText := by
  cases a with
  | inserting fields =>
    simp only [written, createResumeEmbedding]
    split_ifs <;> rfl
  | validating rest flushed =>
    cases rest with
    | nil =>
      show (applyFlushed db flushed).embeddingText = db.embeddingText
      induction flushed using List.reverseRecOn with
      | nil => rfl
      | append_singleton flushed f ih =>
        rw [applyFlushed, List.foldl_append]
        exact ih
    | cons candidateId rest => rfl
  | generating resumeId | embedding resume inputText | requesting candidateId
  | correcting candidateId eligible rest flushed | zeroing candidateId ids | done => rfl

theorem next_written (now : Instant) :
    db.embeddings.next ≤ (a.written model db now).embeddings.next := by
  cases a with
  | inserting fields =>
    simp only [written, createResumeEmbedding]
    split_ifs
    · exact le_rfl
    · exact Nat.le_succ _
  | validating rest flushed =>
    cases rest with
    | nil =>
      show db.embeddings.next ≤ (applyFlushed db flushed).embeddings.next
      induction flushed using List.reverseRecOn with
      | nil => exact le_rfl
      | append_singleton flushed f ih =>
        rw [applyFlushed, List.foldl_append]
        exact ih
    | cons candidateId rest => exact le_rfl
  | generating resumeId | embedding resume inputText | requesting candidateId
  | correcting candidateId eligible rest flushed | zeroing candidateId ids | done => exact le_rfl

theorem Traced.written {b : TalentActivity V} (h : b.Traced model db) (now : Instant) :
    b.Traced model (a.written model db now) := by
  have htext : (a.written model db now).embeddingText = db.embeddingText :=
    embeddingText_written now
  cases b with
  | embedding resume inputText =>
    show (a.written model db now).embeddingText resume.id = some inputText
    rw [htext]
    exact h
  | inserting fields =>
    show TalentDb.OfText model (a.written model db now) _ _ _
    unfold TalentDb.OfText
    rw [htext]
    exact h
  | zeroing candidateId ids =>
    intro id hid
    obtain ⟨hlt, hall⟩ := h id hid
    refine ⟨lt_of_lt_of_le hlt (next_written now), ?_⟩
    intro e he hkey
    rcases rows_written he with ⟨old, hold, hrewrites⟩ | ⟨fields, -, rfl⟩
    · rw [hrewrites.candidateId]
      exact hall old hold (hrewrites.id.symm.trans hkey)
    · have hnew : db.embeddings.next = id := hkey
      exact absurd hnew (Nat.ne_of_gt hlt)
  | generating resumeId | requesting candidateId | validating rest flushed
  | correcting candidateId eligible rest flushed | done => trivial

theorem traced_written (now : Instant) (hrows : db.Traced model) (ha : a.Traced model db) :
    (a.written model db now).Traced model := by
  intro e he
  unfold TalentDb.OfText
  rw [embeddingText_written]
  rcases rows_written he with ⟨old, hold, hrewrites⟩ | ⟨fields, rfl, rfl⟩
  · obtain ⟨inputText, htext, hhash, hvector⟩ := hrows old hold
    rw [hrewrites.resumeId, hrewrites.inputTextHash]
    refine ⟨inputText, htext, hhash, ?_⟩
    rcases hrewrites.embedding with hsame | hzero
    · rw [hsame]
      exact hvector
    · exact .inr hzero
  · exact ha

-- The rows of candidates without a request hold a vector that is in use.
def InUse (db : TalentDb V) : Prop :=
  ∀ e ∈ db.embeddings.rows, db.Unrequested e.candidateId → e.embedding ≠ 0

theorem inUse_insert (fields : NewEmbedding V) (versionId : Uuid) (h : InUse db) :
    InUse (createResumeEmbedding db fields versionId) ↔ embedded db fields.resumeId versionId ∨
        (db.Unrequested fields.candidateId → fields.embedding ≠ 0) := by
  by_cases hemb : embedded db fields.resumeId versionId
  · simp [createResumeEmbedding, hemb, h]
  · have hold : ∀ e ∈ db.embeddings.rows, db.Unrequested e.candidateId → e.embedding ≠ 0 := h
    have hrows : InUse (createResumeEmbedding db fields versionId) ↔
        ∀ e ∈ db.embeddings.rows ++ [newRow fields versionId db.embeddings.next],
          db.Unrequested e.candidateId → e.embedding ≠ 0 := by
      rw [createResumeEmbedding, if_neg hemb]
      exact Iff.rfl
    rw [hrows, List.forall_mem_append, and_iff_right hold, List.forall_mem_singleton,
      or_iff_right hemb]
    exact Iff.rfl

theorem inUse_correct (flushed : List (List Uuid × Bool)) (h : InUse db) :
    InUse (applyFlushed db flushed) := by
  unfold InUse TalentDb.Unrequested
  rw [applyFlushed_rows, (applyFlushed_frame db).1, List.forall_mem_map]
  exact h

theorem unrequested_requestErasure {candidateId other : Uuid} {ids : List Uuid} {now : Instant}
    (h : (requestErasure db candidateId ids now).Unrequested other) :
    db.Unrequested other ∧ other ≠ candidateId := by
  obtain ⟨c', hc', rfl, hnone⟩ := h
  obtain ⟨c, hc, rfl⟩ := List.mem_map.mp hc'
  by_cases hid : c.id = candidateId
  · simp [erasureRequested, hid] at hnone
  · have hsame : erasureRequested candidateId now c = c := if_neg hid
    rw [hsame] at hnone ⊢
    exact ⟨⟨c, hc, rfl, hnone⟩, hid⟩

theorem inUse_request {candidateId : Uuid} {ids : List Uuid} (now : Instant) (h : InUse db)
    (hids : (zeroing candidateId ids : TalentActivity V).Traced model db) :
    InUse (requestErasure db candidateId ids now) := by
  intro e' he' hun
  obtain ⟨e, he, rfl⟩ := List.mem_map.mp he'
  rw [candidateId_zeroed] at hun
  obtain ⟨hun, hother⟩ := unrequested_requestErasure hun
  have hout : e.id ∉ ids := fun hin => hother ((hids e.id hin).2 e he rfl)
  have hsame : zeroed ids e = e := if_neg hout
  rw [hsame]
  exact h e he hun

theorem inUse_written (now : Instant) (h : InUse db) (ha : a.Traced model db) :
    InUse (a.written model db now) ↔ a.ReusesOwn model db := by
  cases a with
  | inserting fields => exact inUse_insert fields model.versionId h
  | validating rest flushed =>
    cases rest with
    | nil => exact iff_of_true (inUse_correct flushed h) trivial
    | cons candidateId rest => exact iff_of_true h trivial
  | zeroing candidateId ids => exact iff_of_true (inUse_request now h ha) trivial
  | generating resumeId | embedding resume inputText | requesting candidateId
  | correcting candidateId eligible rest flushed | done => exact iff_of_true h trivial

end TalentActivity

-- The actions that leave the texts as they are.
def TalentAction.keepsTexts : TalentAction → Bool
  | .parsed _ _ => false
  | _ => true

namespace TalentWorld

structure Traced (w : TalentWorld V) : Prop where
  rows : w.db.Traced model
  crew : ∀ a ∈ w.crew, a.Traced model w.db

def EmbeddingStep (w : TalentWorld V) (action : TalentAction) (w' : TalentWorld V) : Prop :=
  action.keepsTexts ∧ Step model w action w'

def ReusesOwn (w : TalentWorld V) : TalentAction → Prop
  | .advance index _ => ∀ a, w.crew[index]? = some a → a.ReusesOwn model w.db
  | _ => True

variable {model} {w w' : TalentWorld V} {action : TalentAction}

theorem Traced.hire (h : w.Traced model) {a : TalentActivity V} (ha : a.Traced model w.db) :
    Traced model { w with crew := w.crew ++ [a] } := by
  refine ⟨h.rows, ?_⟩
  intro x hx
  rcases List.mem_append.mp hx with hx | hx
  · exact h.crew x hx
  · rw [List.mem_singleton.mp hx]
    exact ha

theorem Traced.erase (h : w.Traced model) (candidateId : Uuid) :
    Traced model { w with db := eraseCandidate w.db candidateId } := by
  refine ⟨fun e he => h.rows e (List.mem_filter.mp he).1, ?_⟩
  intro a ha
  have htraced := h.crew a ha
  cases a with
  | zeroing other ids =>
    intro id hid
    obtain ⟨hlt, hall⟩ := htraced id hid
    exact ⟨hlt, fun e he => hall e (List.mem_filter.mp he).1⟩
  | embedding resume inputText | inserting fields => exact htraced
  | generating resumeId | requesting other | validating rest flushed
  | correcting other eligible rest flushed | done => trivial

theorem Traced.step (h : w.Traced model) (hmd5 : Function.Injective model.md5)
    (hs : EmbeddingStep model w action w') : w'.Traced model := by
  obtain ⟨htexts, hs⟩ := hs
  cases action with
  | parsed resumeId text => exact absurd htexts Bool.false_ne_true
  | enqueueEmbedding resumeId | validateEligibility | requestErasure candidateId =>
    cases hs
    exact h.hire trivial
  | eraseCandidate candidateId =>
    simp only [Step, next] at hs
    split_ifs at hs
    cases hs
    exact h.erase candidateId
  | advance index choice =>
    obtain ⟨a, a', hi, ha, hcrew⟩ := advance_cases hs
    have hmem := h.crew a (List.mem_of_getElem? hi)
    have hdb := TalentActivity.advance_written ha
    refine ⟨?_, ?_⟩
    · rw [hdb]
      exact TalentActivity.traced_written choice.now h.rows hmem
    · intro x hx
      rw [hcrew] at hx
      rw [hdb]
      rcases mem_of_mem_set hx with rfl | hx
      · exact (TalentActivity.traced_advance hmd5 h.rows hmem ha).written choice.now
      · exact (h.crew x hx).written choice.now
  | abandon index =>
    cases hs
    refine ⟨h.rows, ?_⟩
    intro x hx
    rcases mem_of_mem_set hx with rfl | hx
    · trivial
    · exact h.crew x hx

theorem inUse_step (h : TalentActivity.InUse w.db) (htraced : w.Traced model)
    (hs : EmbeddingStep model w action w') :
    TalentActivity.InUse w'.db ↔ w.ReusesOwn model action := by
  obtain ⟨htexts, hs⟩ := hs
  cases action with
  | parsed resumeId text => exact absurd htexts Bool.false_ne_true
  | enqueueEmbedding resumeId | validateEligibility | requestErasure candidateId
  | abandon index =>
    cases hs
    exact iff_of_true h trivial
  | eraseCandidate candidateId =>
    simp only [Step, next] at hs
    split_ifs at hs
    cases hs
    refine iff_of_true ?_ trivial
    rintro e he ⟨c, hc, hid, hnone⟩
    exact h e (List.mem_filter.mp he).1 ⟨c, (List.mem_filter.mp hc).1, hid, hnone⟩
  | advance index choice =>
    obtain ⟨a, a', hi, ha, -⟩ := advance_cases hs
    have hmem := htraced.crew a (List.mem_of_getElem? hi)
    rw [TalentActivity.advance_written ha, TalentActivity.inUse_written choice.now h hmem]
    constructor
    · intro hreuses b hb
      cases hi.symm.trans hb
      exact hreuses
    · intro hall
      exact hall a hi

-- Even a vector that was reused or overwritten is stored under the hash of its own text.
theorem embeddings_traced {path : List (TalentAction × TalentWorld V)}
    (hmd5 : Function.Injective model.md5) (htraced : w.Traced model)
    (hp : Path (EmbeddingStep model) w path) : ∀ t ∈ visited w path, t.Traced model :=
  hp.invariant htraced fun _ _ _ h hs => h.step hmd5 hs

def reusing (id : Uuid) : TalentChoice := ⟨some id, none, 0⟩

def reused (index : ℕ) : List TalentAction :=
  [.enqueueEmbedding 1, .advance index unmatched, .advance index (reusing 0),
   .advance index unmatched]

theorem path_embeddings (actions : List TalentAction) (h : ∀ a ∈ actions, a.keepsTexts) :
    Path (EmbeddingStep lengthModel) pooled (run actions) :=
  execute_path_of _ (fun _ _ _ hkeeps hnext => ⟨hkeeps, hnext⟩) pooled actions h

theorem traced_pooled : pooled.Traced lengthModel where
  rows _ he := absurd he List.not_mem_nil
  crew _ ha := absurd ha List.not_mem_nil

theorem belongs_pooled : pooled.db.Belongs lengthModel :=
  fun _ he => absurd he List.not_mem_nil

theorem lengthModel_injective : Function.Injective lengthModel.md5 := Function.injective_id

theorem lengthModel_generate (inputText : String) : lengthModel.generate inputText ≠ 0 :=
  Nat.succ_ne_zero inputText.length

def reusedThenRequested : List TalentAction :=
  embedResume 0 0 ++ reused 1 ++ [.requestErasure 0, .advance 2 unmatched, .advance 2 unmatched]

theorem embeddings_traced_reused :
    (final pooled (run reusedThenRequested)).Traced lengthModel :=
  embeddings_traced lengthModel_injective traced_pooled (path_embeddings _ (by decide)) _
    (final_mem_visited _ _)

def requestedThenReused : List TalentAction :=
  embedResume 0 0 ++ [.requestErasure 0, .advance 1 unmatched, .advance 1 unmatched] ++ reused 2

def overwritten : NewEmbedding ℕ where
  resumeId := 1
  candidateId := 1
  embedding := 0
  inputTextHash := "python"
  isAnonymized := true

end TalentWorld

end AiHiring
