import AiHiring.Library.Listing
import AiHiring.Scoring.Agreement

namespace AiHiring

open Library

-- What the searches read beside the tables of the selection. A resume's
-- candidate_id is a foreign key.
structure SearchDb (V : Type) extends SelectionDb V where
  resumeCreatedAt : Uuid → Instant
  candidateCreatedAt : Uuid → Instant
  owned : ∀ r ∈ resumes.rows, r.candidateId ∈ candidates.rows.map CandidateRow.id

-- When a request runs, and RESUME_FRESHNESS_MAX_AGE_DAYS.
structure FreshnessLimit where
  now : Instant
  maxAgeDays : ℤ

namespace FreshnessLimit

def secondsPerDay : ℤ := 24 * 60 * 60

-- `created_at >= now - timedelta(days=...)` of the SQL
def notBeforeCutoff (limit : FreshnessLimit) (createdAt : Instant) : Bool :=
  limit.now - limit.maxAgeDays * secondsPerDay ≤ createdAt

-- `_is_fresh`
def isFresh (limit : FreshnessLimit) (createdAt : Instant) : Bool :=
  (limit.now : ℤ) - createdAt ≤ limit.maxAgeDays * secondsPerDay

theorem notBeforeCutoff_eq (limit : FreshnessLimit) (createdAt : Instant) :
    limit.notBeforeCutoff createdAt = limit.isFresh createdAt := by
  simp only [notBeforeCutoff, isFresh]
  congr 1
  exact propext (by omega)

end FreshnessLimit

namespace TalentPoolSearch

variable {V : Type} (db : SearchDb V) (limit : FreshnessLimit)

-- What the window of `_eligible_picked_resume_ids` runs over.
def eligibleRows : List (ResumeRow × ResumeEmbedding V) :=
  db.resumes.rows.flatMap fun resume =>
    (db.embeddings.rows.filter fun embedding =>
      embedding.resumeId = resume.id ∧ resume.parseStatus = .parsed ∧
        embedding.isTalentPoolEligible ∧
        limit.notBeforeCutoff (db.resumeCreatedAt resume.id)).map fun embedding =>
      (resume, embedding)

def Window (window : List (ResumeRow × ResumeEmbedding V)) : Prop :=
  Listing (fun row => db.resumeCreatedAt row.1.id) (eligibleRows db limit) window

def pickedResumeIds (window : List (ResumeRow × ResumeEmbedding V)) : List Uuid :=
  (firstOfEach (fun row => row.1.candidateId) window).map fun row => row.1.id

-- The rows that both searches count; `conditions` are the filters of the request.
def filtered (window : List (ResumeRow × ResumeEmbedding V)) (conditions : ResumeRow → Bool) :
    List ResumeRow :=
  db.resumes.rows.filter fun r => r.id ∈ pickedResumeIds window ∧ conditions r

def joinCandidates (resumes : List ResumeRow) : List ResumeRow :=
  resumes.filter fun r => r.candidateId ∈ db.candidates.rows.map CandidateRow.id

-- What `search_talent_pool` cuts its pages from.
def SearchListing (window : List (ResumeRow × ResumeEmbedding V)) (conditions : ResumeRow → Bool)
    (listed : List ResumeRow) : Prop :=
  Listing (fun r => toLex (db.candidateCreatedAt r.candidateId, r.candidateId))
    (joinCandidates db (filtered db window conditions)) listed

def fresh (resume : ResumeRow) : Bool := limit.isFresh (db.resumeCreatedAt resume.id)

def Searchable (resume : ResumeRow) : Prop :=
  resume ∈ TalentPool.searchable db.toTalentDb (fresh db limit)

-- No searchable version of the candidate was created after it.
structure Newest (resume : ResumeRow) : Prop where
  searchable : Searchable db limit resume
  newest : ∀ other, Searchable db limit other → other.candidateId = resume.candidateId →
    db.resumeCreatedAt other.id ≤ db.resumeCreatedAt resume.id

variable {db limit} {window : List (ResumeRow × ResumeEmbedding V)}
  {conditions : ResumeRow → Bool} {resume other : ResumeRow}

theorem searchable_iff : Searchable db limit resume ↔
    ∃ embedding, (resume, embedding) ∈ eligibleRows db limit := by
  simp only [Searchable, TalentPool.searchable, eligibleRows, fresh,
    FreshnessLimit.notBeforeCutoff_eq, List.mem_filter, List.mem_flatMap, List.mem_map,
    List.any_eq_true, decide_eq_true_eq, Prod.mk.injEq]
  constructor
  · rintro ⟨hrow, hparsed, ⟨embedding, hembedding, hresume, heligible⟩, hfresh⟩
    exact ⟨embedding, resume, hrow, embedding, ⟨hembedding, hresume, hparsed, heligible, hfresh⟩,
      rfl, rfl⟩
  · rintro ⟨embedding, r, hrow, e, ⟨hembedding, hresume, hparsed, heligible, hfresh⟩, rfl, rfl⟩
    exact ⟨hrow, hparsed, ⟨_, hembedding, hresume, heligible⟩, hfresh⟩

theorem Searchable.mem (h : Searchable db limit resume) : resume ∈ db.resumes.rows :=
  (List.mem_filter.mp h).1

theorem Window.searchable (h : Window db limit window) {row : ResumeRow × ResumeEmbedding V}
    (hrow : row ∈ firstOfEach (fun row => row.1.candidateId) window) :
    Searchable db limit row.1 :=
  searchable_iff.mpr ⟨row.2, h.mem_iff.mp ((firstOfEach_sublist _).mem hrow)⟩

theorem Window.newest (h : Window db limit window) (hrow : resume ∈ db.resumes.rows)
    (hpicked : resume.id ∈ pickedResumeIds window) : Newest db limit resume := by
  obtain ⟨first, hfirst, hid⟩ := List.mem_map.mp hpicked
  have hsearchable := h.searchable hfirst
  obtain rfl : first.1 = resume := db.resumes.eq_of_key_eq hsearchable.mem hrow hid
  refine ⟨hsearchable, fun other hother hcandidate => ?_⟩
  obtain ⟨embedding, helig⟩ := searchable_iff.mp hother
  obtain heq | hle := firstOfEach_before h.sorted hfirst (h.mem_iff.mpr helig) hcandidate
  · rw [← heq]
  · exact hle

theorem Window.exists_picked (h : Window db limit window)
    (hsearchable : Searchable db limit resume) :
    ∃ picked ∈ db.resumes.rows, picked.id ∈ pickedResumeIds window ∧
      picked.candidateId = resume.candidateId := by
  obtain ⟨embedding, helig⟩ := searchable_iff.mp hsearchable
  obtain ⟨first, hfirst, hcandidate⟩ :=
    exists_firstOfEach (fun row => row.1.candidateId) (h.mem_iff.mpr helig)
  exact ⟨first.1, (h.searchable hfirst).mem, List.mem_map_of_mem hfirst, hcandidate⟩

theorem Window.picked_unique (h : Window db limit window) (hrow : resume ∈ db.resumes.rows)
    (hpicked : resume.id ∈ pickedResumeIds window) (hother : other ∈ db.resumes.rows)
    (hpickedOther : other.id ∈ pickedResumeIds window)
    (hcandidate : resume.candidateId = other.candidateId) : resume = other := by
  obtain ⟨first, hfirst, hid⟩ := List.mem_map.mp hpicked
  obtain ⟨second, hsecond, hidOther⟩ := List.mem_map.mp hpickedOther
  obtain rfl := db.resumes.eq_of_key_eq (h.searchable hfirst).mem hrow hid
  obtain rfl := db.resumes.eq_of_key_eq (h.searchable hsecond).mem hother hidOther
  rw [List.inj_on_of_nodup_map firstOfEach_parts hfirst hsecond hcandidate]

theorem exists_window_picking (hresume : Newest db limit resume) (hother : Newest db limit other)
    (hone : resume.candidateId = other.candidateId → resume = other) :
    ∃ window, Window db limit window ∧ resume.id ∈ pickedResumeIds window ∧
      other.id ∈ pickedResumeIds window := by
  obtain ⟨window, hwindow, hpreferred⟩ := exists_listing_preferring
    (fun row : ResumeRow × ResumeEmbedding V => db.resumeCreatedAt row.1.id)
    (eligibleRows db limit) fun row => row.1.id = resume.id ∨ row.1.id = other.id
  have hwindow : Window db limit window := hwindow
  have htaken (r : ResumeRow) (hr : Newest db limit r) (hmine : r.id = resume.id ∨ r.id = other.id)
      (honly : ∀ s ∈ db.resumes.rows, s.candidateId = r.candidateId →
        s.id = resume.id ∨ s.id = other.id → s.id = r.id) :
      r.id ∈ pickedResumeIds window := by
    obtain ⟨embedding, helig⟩ := searchable_iff.mp hr.searchable
    obtain ⟨first, hfirst, hcandidate⟩ := exists_firstOfEach
      (fun row => row.1.candidateId) (hwindow.mem_iff.mpr helig)
    refine List.mem_map.mpr ⟨first, hfirst, ?_⟩
    have hsearchable := hwindow.searchable hfirst
    apply honly _ hsearchable.mem hcandidate
    -- it is as new as the preferred one, which comes no later
    obtain heq | hbefore := firstOfEach_before (hwindow.sorted.and hpreferred) hfirst
      (hwindow.mem_iff.mpr helig) hcandidate.symm
    · rw [← heq]
      exact hmine
    · have hkey := le_antisymm (hr.newest _ hsearchable hcandidate) hbefore.1
      exact of_decide_eq_true (hbefore.2 hkey (decide_eq_true hmine))
  refine ⟨window, hwindow, htaken resume hresume (.inl rfl) ?_,
    htaken other hother (.inr rfl) ?_⟩
  · rintro s hs hcandidate (hid | hid)
    · exact hid
    · obtain rfl := db.resumes.eq_of_key_eq hs hother.searchable.mem hid
      rw [hone hcandidate.symm]
  · rintro s hs hcandidate (hid | hid)
    · obtain rfl := db.resumes.eq_of_key_eq hs hresume.searchable.mem hid
      rw [hone hcandidate]
    · exact hid

theorem mem_filtered : resume ∈ filtered db window conditions ↔
    resume ∈ db.resumes.rows ∧ resume.id ∈ pickedResumeIds window ∧ conditions resume := by
  rw [filtered, List.mem_filter, decide_eq_true_eq]

theorem joinCandidates_filtered :
    joinCandidates db (filtered db window conditions) = filtered db window conditions :=
  List.filter_eq_self.mpr fun r hr => decide_eq_true (db.owned r (mem_filtered.mp hr).1)

theorem SearchListing.mem_iff {listed : List ResumeRow}
    (h : SearchListing db window conditions listed) :
    resume ∈ listed ↔ resume ∈ filtered db window conditions := by
  rw [Listing.mem_iff h, joinCandidates_filtered]

end TalentPoolSearch

end AiHiring
