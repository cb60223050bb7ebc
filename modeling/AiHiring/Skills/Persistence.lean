import AiHiring.Skills.OpenOccurrences

namespace AiHiring

open Library SkillRepository

-- The arguments of `persist_processed_resume` that reach the skill tables.
structure ResumeRequest where
  (candidateId resumeId : Uuid)
  skillMatches : List SkillMatchResult

namespace ResumeService

variable (request : ResumeRequest)

-- The first match of each canonical skill.
def matchedBySkill (skillMatches : List SkillMatchResult) : List SkillMatchResult :=
  skillMatches.foldl (fun kept m =>
      if m.canonicalSkillId = none ∨ kept.any (·.canonicalSkillId = m.canonicalSkillId) then kept
      else kept ++ [m])
    []

def candidateSkillRow (m : SkillMatchResult) (unknownSkillId : Option Uuid) (id : Uuid) :
    CandidateSkill where
  id := id
  candidateId := request.candidateId
  resumeId := request.resumeId
  canonicalSkillId := m.canonicalSkillId
  unknownSkillId := unknownSkillId
  rawExtractedText := m.rawText
  confidence := m.confidence
  matchTier := m.matchTier
  scoringWeight := scoringWeightForTier m.matchTier
  status := verificationStatusForTier m.matchTier

def addCandidateSkill (s : SkillStore) (m : SkillMatchResult) : SkillStore :=
  if m.canonicalSkillId = none then s
  else createCandidateSkill s (candidateSkillRow request m none) fun _ => rfl

def addUnmatchedSkill (s : SkillStore) (m : SkillMatchResult) : SkillStore :=
  match m.canonicalSkillId with
  | some _ => s
  | none =>
    let (s', unknownSkill, _) := upsertUnknownSkill s m.rawText (some m.normalizedText)
    createCandidateSkill s' (candidateSkillRow request m (some unknownSkill.id)) fun _ => rfl

-- The partial unique index on (resume_id, canonical_skill_id).
def persistProcessedResume (db : JdDatabase) : Except SkillError JdDatabase :=
  let matched := matchedBySkill request.skillMatches
  if matched.any fun m => db.candidateSkills.rows.any fun c =>
      c.resumeId = request.resumeId ∧ c.canonicalSkillId = m.canonicalSkillId then
    .error (.integrity "uq_candidate_skills_resume_canonical")
  else
    let s := matched.foldl (addCandidateSkill request) db.toSkillStore
    .ok { db with toSkillStore := request.skillMatches.foldl (addUnmatchedSkill request) s }

end ResumeService

namespace SkillStore

variable {s s' s'' : SkillStore}

def byText (s : SkillStore) (rawText : String) : Option UnknownSkill :=
  s.unknownSkills.rows.find? fun u => u.rawText = rawText

def textStatus (s : SkillStore) (rawText : String) : Option UnknownSkillStatus :=
  (s.byText rawText).map (·.status)

-- The status that an occurrence of the text gets to see.
def seen (s : SkillStore) (rawText : String) : UnknownSkillStatus :=
  (s.textStatus rawText).getD .pending

section Upsert

variable (rawText : String) (normalizedKey : Option String)

theorem upsert_frame :
    (upsertUnknownSkill s rawText normalizedKey).1.jdUnknownSkills = s.jdUnknownSkills ∧
      (upsertUnknownSkill s rawText normalizedKey).1.candidateSkills = s.candidateSkills := by
  rw [upsertUnknownSkill]
  split <;> exact ⟨rfl, rfl⟩

theorem bump_rows (existing : UnknownSkill) (hexisting : existing ∈ s.unknownSkills.rows) :
    (s.unknownSkills.replace (bump existing)).rows =
      s.unknownSkills.rows.map fun u => if u.id = existing.id then bump u else u := by
  rw [Table.rows_replace]
  apply List.map_congr_left
  intro u hu
  by_cases hid : u.id = existing.id
  · have heq := s.unknownSkills.eq_of_key_eq hu hexisting hid
    rw [heq, if_pos rfl]
    exact if_pos rfl
  · rw [if_neg hid]
    exact if_neg hid

theorem bump_textStatus (existing : UnknownSkill) (hexisting : existing ∈ s.unknownSkills.rows)
    (t : String) :
    textStatus { s with unknownSkills := s.unknownSkills.replace (bump existing) } t =
      s.textStatus t := by
  have hsame (u : UnknownSkill) : (if u.id = existing.id then bump u else u).rawText = u.rawText ∧
      (if u.id = existing.id then bump u else u).status = u.status := by
    split_ifs <;> exact ⟨rfl, rfl⟩
  rw [textStatus, byText, bump_rows existing hexisting, List.find?_map, textStatus, byText]
  have hpred : ((fun u : UnknownSkill => decide (u.rawText = t)) ∘
      fun u => if u.id = existing.id then bump u else u) = fun u => decide (u.rawText = t) := by
    funext u
    rw [Function.comp_apply, (hsame u).1]
  rw [hpred]
  cases s.unknownSkills.rows.find? fun u => decide (u.rawText = t) with
  | none => rfl
  | some u => exact congrArg some (hsame u).2

theorem bump_statusOf (existing : UnknownSkill) (hexisting : existing ∈ s.unknownSkills.rows)
    (v : Uuid) :
    statusOf { s with unknownSkills := s.unknownSkills.replace (bump existing) } v =
      s.statusOf v := by
  have hfound : s.unknownSkills.find? existing.id = some existing :=
    (s.unknownSkills.find?_eq_some _ _).mpr ⟨hexisting, rfl⟩
  by_cases hv : v = existing.id
  · have hself := s.unknownSkills.find?_replace_self (bump existing) existing hfound
    rw [hv, statusOf, statusOf, hfound]
    exact congrArg (Option.map (·.status)) hself
  · exact congrArg (Option.map (·.status)) (s.unknownSkills.find?_replace_ne (bump existing) v hv)

-- What an upsert does to the unknown skills: the row of the text has the status
-- that was seen, and no status changes.
structure Upserted (s s' : SkillStore) (rawText : String) (u : UnknownSkill) : Prop where
  texts : ∀ t, s'.textStatus t = if t = rawText then some (s.seen rawText) else s.textStatus t
  statuses : ∀ v status, s.statusOf v = some status → s'.statusOf v = some status
  status : s'.statusOf u.id = some (s.seen rawText)

theorem upsert_upserted : Upserted s (upsertUnknownSkill s rawText normalizedKey).1 rawText
      (upsertUnknownSkill s rawText normalizedKey).2.1 := by
  rw [upsertUnknownSkill]
  split
  · next existing hfound =>
      have hexisting := List.mem_of_find?_eq_some hfound
      have htext : s.textStatus rawText = some existing.status := by
        rw [textStatus, byText, hfound]
        rfl
      have hseen : s.seen rawText = existing.status := by rw [seen, htext, Option.getD_some]
      constructor
      · intro t
        change textStatus { s with unknownSkills := s.unknownSkills.replace (bump existing) } t = _
        rw [bump_textStatus existing hexisting]
        split_ifs with ht
        · rw [ht, htext, hseen]
        · rfl
      · intro v status hv
        exact (bump_statusOf existing hexisting v).trans hv
      · change statusOf { s with unknownSkills := s.unknownSkills.replace (bump existing) }
          existing.id = _
        have hid : s.unknownSkills.find? existing.id = some existing :=
          (s.unknownSkills.find?_eq_some _ _).mpr ⟨hexisting, rfl⟩
        rw [bump_statusOf existing hexisting, hseen, statusOf, hid]
        rfl
  · next hfound =>
      have htext : s.textStatus rawText = none := by
        rw [textStatus, byText, hfound]
        rfl
      have hseen : s.seen rawText = .pending := by rw [seen, htext, Option.getD_none]
      let created (id : Uuid) : UnknownSkill := {
        id := id
        rawText := rawText
        frequency := 1
        normalizedKey := normalizedKey
        status := .pending }
      have hstatus (v : Uuid) :
          statusOf { s with unknownSkills := s.unknownSkills.insert created fun _ => rfl } v =
            if v = s.unknownSkills.next then some .pending else s.statusOf v := by
        change ((s.unknownSkills.insert created fun _ => rfl).find? v).map (·.status) = _
        rw [Table.find?_insert]
        split_ifs <;> rfl
      constructor
      · intro t
        change (((s.unknownSkills.insert created fun _ => rfl).rows.find? fun u =>
          decide (u.rawText = t)).map (·.status)) = _
        rw [Table.rows_insert, List.find?_append]
        split_ifs with ht
        · subst ht
          rw [hfound, hseen]
          simp [created]
        · have hnew : [created s.unknownSkills.next].find? (fun u => decide (u.rawText = t)) =
              none := by simp [created, Ne.symm ht]
          rw [hnew, Option.or_none]
          rfl
      · intro v status hv
        obtain ⟨row, hrow, -⟩ := Option.map_eq_some_iff.mp hv
        obtain ⟨hmem, hid⟩ := (s.unknownSkills.find?_eq_some _ _).mp hrow
        have hlt := s.unknownSkills.below row hmem
        rw [hid] at hlt
        rw [hstatus, if_neg (Nat.ne_of_lt hlt), hv]
      · rw [hseen]
        exact (hstatus _).trans (if_pos rfl)

end Upsert

-- One unmatched text is upserted and an occurrence of it is left open.
structure Attaches (s s' : SkillStore) (rawText : String) : Prop where
  texts : ∀ t, s'.textStatus t = if t = rawText then some (s.seen rawText) else s.textStatus t
  statuses : ∀ v status, s.statusOf v = some status → s'.statusOf v = some status
  grows : ∀ v, s.Open v → s'.Open v
  new : ∀ v, s'.Open v → s.Open v ∨ s'.statusOf v = some (s.seen rawText)
  attached : ∃ v, s'.Open v ∧ s'.statusOf v = some (s.seen rawText)

-- Every open occurrence points to an unknown skill that is still pending.
def Attended (s : SkillStore) : Prop := ∀ v, s.Open v → s.statusOf v = some .pending

theorem Attaches.seen_eq {rawText : String} (h : Attaches s s' rawText) (t : String) :
    s'.seen t = s.seen t := by
  rw [seen, h.texts]
  by_cases ht : t = rawText
  · rw [if_pos ht, Option.getD_some, ht]
  · rw [if_neg ht]
    rfl

theorem Attaches.attended {rawText : String} (h : Attaches s s' rawText) (ha : s.Attended) :
    s'.Attended ↔ s.seen rawText = .pending := by
  constructor
  · intro ha'
    obtain ⟨v, hopen, hstatus⟩ := h.attached
    have hpending := ha' v hopen
    rw [hstatus] at hpending
    exact Option.some.inj hpending
  · intro hseen v hv
    rcases h.new v hv with hold | hnew
    · exact h.statuses v _ (ha v hold)
    · rw [hnew, hseen]

def unmatchedTexts (skillMatches : List SkillMatchResult) : List String :=
  (skillMatches.filter fun m => m.canonicalSkillId = none).map (·.rawText)

section Fold

variable (add : SkillStore → SkillMatchResult → SkillStore) (ok : SkillStore → Prop)

-- Once an occurrence is attached to a resolved unknown skill, later ones do not
-- change that; so the document leaves all attended exactly when every text does.
theorem fold_attended (skillMatches : List SkillMatchResult)
    (hmatched : ∀ s m, m.canonicalSkillId ≠ none → add s m = s)
    (hunmatched : ∀ s m, ok s → m.canonicalSkillId = none →
      Attaches s (add s m) m.rawText ∧ ok (add s m))
    (s : SkillStore) (hok : ok s) (ha : s.Attended) :
    (skillMatches.foldl add s).Attended ↔
      ∀ t ∈ unmatchedTexts skillMatches, s.seen t = .pending := by
  have hstuck (rest : List SkillMatchResult) (s : SkillStore) (hok : ok s) (v : Uuid)
      (status : UnknownSkillStatus) (hopen : s.Open v) (hstatus : s.statusOf v = some status) :
      (rest.foldl add s).Open v ∧ (rest.foldl add s).statusOf v = some status := by
    induction rest generalizing s with
    | nil => exact ⟨hopen, hstatus⟩
    | cons m rest ih =>
      by_cases hm : m.canonicalSkillId = none
      · obtain ⟨hattach, hok'⟩ := hunmatched s m hok hm
        exact ih (add s m) hok' (hattach.grows v hopen) (hattach.statuses v status hstatus)
      · rw [List.foldl_cons, hmatched s m hm]
        exact ih s hok hopen hstatus
  induction skillMatches generalizing s with
  | nil => simpa [unmatchedTexts] using ha
  | cons m rest ih =>
    rw [List.foldl_cons]
    by_cases hm : m.canonicalSkillId = none
    · obtain ⟨hattach, hok'⟩ := hunmatched s m hok hm
      have htexts : unmatchedTexts (m :: rest) = m.rawText :: unmatchedTexts rest := by
        simp [unmatchedTexts, hm]
      rw [htexts, List.forall_mem_cons]
      by_cases hseen : s.seen m.rawText = .pending
      · have hrest := ih (add s m) hok' ((hattach.attended ha).mpr hseen)
        simp only [hattach.seen_eq] at hrest
        exact hrest.trans (and_iff_right hseen).symm
      · have hbad : ¬(rest.foldl add (add s m)).Attended := by
          intro hall
          obtain ⟨v, hopen, hstatus⟩ := hattach.attached
          obtain ⟨hopen', hstatus'⟩ := hstuck rest (add s m) hok' v _ hopen hstatus
          have hpending := hall v hopen'
          rw [hstatus'] at hpending
          exact hseen (Option.some.inj hpending)
        exact iff_of_false hbad fun h => hseen h.1
    · have htexts : unmatchedTexts (m :: rest) = unmatchedTexts rest := by
        simp [unmatchedTexts, hm]
      rw [htexts, hmatched s m hm]
      exact ih s hok ha

end Fold

section Resume

open ResumeService

variable (request : ResumeRequest)

theorem addCandidateSkill_frame (matched : List SkillMatchResult) :
    (matched.foldl (addCandidateSkill request) s).unknownSkills = s.unknownSkills ∧
      (matched.foldl (addCandidateSkill request) s).jdUnknownSkills = s.jdUnknownSkills ∧
      ∀ c, (matched.foldl (addCandidateSkill request) s).Unmatched c ↔ s.Unmatched c := by
  induction matched generalizing s with
  | nil => exact ⟨rfl, rfl, fun _ => Iff.rfl⟩
  | cons m rest ih =>
    obtain ⟨hunknown, hlinks, hcandidates⟩ := @ih (addCandidateSkill request s m)
    have hfirst : (addCandidateSkill request s m).unknownSkills = s.unknownSkills ∧
        (addCandidateSkill request s m).jdUnknownSkills = s.jdUnknownSkills ∧
        ∀ c, (addCandidateSkill request s m).Unmatched c ↔ s.Unmatched c := by
      rw [addCandidateSkill]
      split_ifs with hm
      · exact ⟨rfl, rfl, fun _ => Iff.rfl⟩
      · refine ⟨rfl, rfl, fun c => ?_⟩
        have hrows : (createCandidateSkill s (candidateSkillRow request m none)
            fun _ => rfl).candidateSkills.rows = s.candidateSkills.rows ++
              [candidateSkillRow request m none s.candidateSkills.next] := rfl
        rw [Unmatched, hrows, List.mem_append, List.mem_singleton]
        constructor
        · rintro ⟨hold | rfl, hnone⟩
          · exact ⟨hold, hnone⟩
          · exact absurd hnone hm
        · rintro ⟨hold, hnone⟩
          exact ⟨.inl hold, hnone⟩
    refine ⟨hunknown.trans hfirst.1, hlinks.trans hfirst.2.1, fun c => ?_⟩
    exact (hcandidates c).trans (hfirst.2.2 c)

theorem addUnmatchedSkill_attaches (m : SkillMatchResult) (hm : m.canonicalSkillId = none) :
    Attaches s (addUnmatchedSkill request s m) m.rawText := by
  have hup := @upsert_upserted s m.rawText (some m.normalizedText)
  obtain ⟨hlinks, hcandidates⟩ := @upsert_frame s m.rawText (some m.normalizedText)
  let up := (upsertUnknownSkill s m.rawText (some m.normalizedText)).1
  let u := (upsertUnknownSkill s m.rawText (some m.normalizedText)).2.1
  let row := candidateSkillRow request m (some u.id) up.candidateSkills.next
  have hs' : addUnmatchedSkill request s m =
      createCandidateSkill up (candidateSkillRow request m (some u.id)) fun _ => rfl := by
    rw [addUnmatchedSkill, hm]
  have hlink (link : JDUnknownSkill) :
      (addUnmatchedSkill request s m).PendingLink link ↔ s.PendingLink link := by
    rw [hs', PendingLink, PendingLink, ← hlinks]
    exact Iff.rfl
  have hrow (c : CandidateSkill) :
      (addUnmatchedSkill request s m).Unmatched c ↔ s.Unmatched c ∨ c = row := by
    rw [hs', Unmatched, Unmatched, ← hcandidates]
    have hrows : (createCandidateSkill up (candidateSkillRow request m (some u.id))
        fun _ => rfl).candidateSkills.rows = up.candidateSkills.rows ++ [row] := rfl
    rw [hrows, List.mem_append, List.mem_singleton]
    constructor
    · rintro ⟨hold | hnew, hnone⟩
      · exact .inl ⟨hold, hnone⟩
      · exact .inr hnew
    · rintro (⟨hold, hnone⟩ | rfl)
      · exact ⟨.inl hold, hnone⟩
      · exact ⟨.inr rfl, hm⟩
  have hopen : (addUnmatchedSkill request s m).Open u.id :=
    .inr ⟨row, (hrow row).mpr (.inr rfl), rfl⟩
  have hstatus (v : Uuid) : (addUnmatchedSkill request s m).statusOf v = up.statusOf v := by
    rw [hs']
    rfl
  constructor
  · intro t
    rw [hs']
    exact hup.texts t
  · intro v status hv
    rw [hstatus]
    exact hup.statuses v status hv
  · rintro v (⟨link, hl, hv⟩ | ⟨c, hc, hv⟩)
    · exact .inl ⟨link, (hlink link).mpr hl, hv⟩
    · exact .inr ⟨c, (hrow c).mpr (.inl hc), hv⟩
  · rintro v (⟨link, hl, hv⟩ | ⟨c, hc, hv⟩)
    · exact .inl (.inl ⟨link, (hlink link).mp hl, hv⟩)
    · rcases (hrow c).mp hc with hold | rfl
      · exact .inl (.inr ⟨c, hold, hv⟩)
      · right
        rw [← Option.some.inj hv, hstatus]
        exact hup.status
  · exact ⟨u.id, hopen, (hstatus u.id).trans hup.status⟩

theorem persistResume_frame (db db' : JdDatabase)
    (h : persistProcessedResume request db = .ok db') :
    db'.jdUnknownSkills = db.jdUnknownSkills ∧ db'.jobDescriptions = db.jobDescriptions := by
  rw [persistProcessedResume] at h
  split_ifs at h
  cases h
  have hfold (skillMatches : List SkillMatchResult) (s : SkillStore) :
      (skillMatches.foldl (addUnmatchedSkill request) s).jdUnknownSkills =
        s.jdUnknownSkills := by
    induction skillMatches generalizing s with
    | nil => rfl
    | cons m rest ih =>
      rw [List.foldl_cons, ih, addUnmatchedSkill]
      split
      · rfl
      · exact (@upsert_frame s m.rawText (some m.normalizedText)).1
  exact ⟨(hfold _ _).trans (addCandidateSkill_frame request _).2.1, rfl⟩

theorem persistResume_attended (db db' : JdDatabase) (ha : db.toSkillStore.Attended)
    (h : persistProcessedResume request db = .ok db') :
    db'.toSkillStore.Attended ↔
      ∀ t ∈ unmatchedTexts request.skillMatches, db.toSkillStore.seen t = .pending := by
  rw [persistProcessedResume] at h
  split_ifs at h
  cases h
  let matched := matchedBySkill request.skillMatches
  obtain ⟨hunknown, hlinks, hcandidates⟩ :=
    @addCandidateSkill_frame db.toSkillStore request matched
  have hseen (t : String) : (matched.foldl (addCandidateSkill request) db.toSkillStore).seen t =
      db.toSkillStore.seen t := by
    rw [seen, textStatus, byText, hunknown]
    rfl
  have hattended : (matched.foldl (addCandidateSkill request) db.toSkillStore).Attended := by
    intro v hv
    have hstatus : (matched.foldl (addCandidateSkill request) db.toSkillStore).statusOf v =
        db.toSkillStore.statusOf v := by
      rw [statusOf, hunknown]
      rfl
    rw [hstatus]
    apply ha
    rcases hv with ⟨link, hl, hv⟩ | ⟨c, hc, hv⟩
    · rw [PendingLink, hlinks] at hl
      exact .inl ⟨link, hl, hv⟩
    · exact .inr ⟨c, (hcandidates c).mp hc, hv⟩
  have hfold := fold_attended (addUnmatchedSkill request) (fun _ => True) request.skillMatches
    (fun s m hm => by
      obtain ⟨c, hc⟩ := Option.ne_none_iff_exists'.mp hm
      rw [addUnmatchedSkill, hc])
    (fun s m _ hm => ⟨addUnmatchedSkill_attaches request m hm, trivial⟩)
    _ trivial hattended
  simp only [hseen] at hfold
  exact hfold

end Resume

section Jd

open JDService

variable (jdId : Uuid)

theorem addJdSkill_frame (skillMatches matched : List SkillMatchResult) :
    (matched.foldl (addJdSkill jdId skillMatches) s).unknownSkills = s.unknownSkills ∧
      (matched.foldl (addJdSkill jdId skillMatches) s).jdUnknownSkills = s.jdUnknownSkills ∧
      (matched.foldl (addJdSkill jdId skillMatches) s).candidateSkills = s.candidateSkills := by
  induction matched generalizing s with
  | nil => exact ⟨rfl, rfl, rfl⟩
  | cons m rest ih =>
    obtain ⟨hunknown, hlinks, hcandidates⟩ := @ih (addJdSkill jdId skillMatches s m)
    have hfirst : (addJdSkill jdId skillMatches s m).unknownSkills = s.unknownSkills ∧
        (addJdSkill jdId skillMatches s m).jdUnknownSkills = s.jdUnknownSkills ∧
        (addJdSkill jdId skillMatches s m).candidateSkills = s.candidateSkills := by
      rw [addJdSkill]
      split <;> exact ⟨rfl, rfl, rfl⟩
    exact ⟨hunknown.trans hfirst.1, hlinks.trans hfirst.2.1, hcandidates.trans hfirst.2.2⟩

-- The JD is new: all its links have just been made.
def LinksPending (s : SkillStore) : Prop :=
  ∀ link ∈ s.jdUnknownSkills.rows, link.jdId = jdId → link.status = .pending

-- The JD gets a pending link; no link of another JD is touched.
structure Linked (s s' : SkillStore) : Prop where
  others : ∀ link, link.jdId ≠ jdId →
    (link ∈ s'.jdUnknownSkills.rows ↔ link ∈ s.jdUnknownSkills.rows)
  kept : ∀ link ∈ s.jdUnknownSkills.rows, link ∈ s'.jdUnknownSkills.rows
  pending : LinksPending jdId s'

theorem Linked.trans (h : Linked jdId s s') (h' : Linked jdId s' s'') : Linked jdId s s'' := by
  refine ⟨?_, ?_, h'.pending⟩
  · intro link hne
    rw [h'.others link hne, h.others link hne]
  · intro link hlink
    exact h'.kept link (h.kept link hlink)

theorem linkUnknownSkillToJd_linked (u : Uuid) (mandatory : Option Bool)
    (hpending : LinksPending jdId s) :
    Linked jdId s (linkUnknownSkillToJd s jdId u mandatory) ∧
      ∃ row ∈ (linkUnknownSkillToJd s jdId u mandatory).jdUnknownSkills.rows,
        row.jdId = jdId ∧ row.unknownSkillId = u ∧
        ∀ link ∈ (linkUnknownSkillToJd s jdId u mandatory).jdUnknownSkills.rows,
          link ∈ s.jdUnknownSkills.rows ∨ link = row := by
  rw [linkUnknownSkillToJd]
  split
  · next existing hfound =>
      have hexisting := List.mem_of_find?_eq_some hfound
      have hsame : existing.jdId = jdId ∧ existing.unknownSkillId = u := by
        simpa using List.find?_some hfound
      exact ⟨⟨fun _ _ => Iff.rfl, fun _ h => h, hpending⟩, existing, hexisting, hsame.1, hsame.2,
        fun _ h => .inl h⟩
  · let row : JDUnknownSkill := ⟨s.jdUnknownSkills.next, jdId, u, mandatory, .pending⟩
    have hmem (link : JDUnknownSkill) : link ∈ s.jdUnknownSkills.rows ++ [row] ↔
        link ∈ s.jdUnknownSkills.rows ∨ link = row := by
      rw [List.mem_append, List.mem_singleton]
    refine ⟨⟨?_, ?_, ?_⟩, row, (hmem row).mpr (.inr rfl), rfl, rfl, fun link => (hmem link).mp⟩
    · intro link hne
      refine (hmem link).trans (or_iff_left ?_)
      rintro rfl
      exact hne rfl
    · intro link hlink
      exact (hmem link).mpr (.inl hlink)
    · intro link hlink hid
      rcases (hmem link).mp hlink with hold | rfl
      · exact hpending link hold hid
      · rfl

theorem addUnknownSkill_attaches (m : SkillMatchResult) (hm : m.canonicalSkillId = none)
    (hpending : LinksPending jdId s) :
    Attaches s (addUnknownSkill jdId s m) m.rawText ∧ Linked jdId s (addUnknownSkill jdId s m) ∧
      ∃ row ∈ (addUnknownSkill jdId s m).jdUnknownSkills.rows, row.jdId = jdId := by
  have hup := @upsert_upserted s m.rawText (some m.normalizedText)
  obtain ⟨hlinks, hcandidates⟩ := @upsert_frame s m.rawText (some m.normalizedText)
  let up := (upsertUnknownSkill s m.rawText (some m.normalizedText)).1
  let u := (upsertUnknownSkill s m.rawText (some m.normalizedText)).2.1
  have hs' : addUnknownSkill jdId s m = linkUnknownSkillToJd up jdId u.id (some m.mandatory) := by
    rw [addUnknownSkill, hm]
  have hframe : (addUnknownSkill jdId s m).unknownSkills = up.unknownSkills ∧
      (addUnknownSkill jdId s m).candidateSkills = s.candidateSkills := by
    rw [hs', linkUnknownSkillToJd, ← hcandidates]
    split <;> exact ⟨rfl, rfl⟩
  have hpending' : LinksPending jdId up := by
    intro link hlink
    rw [hlinks] at hlink
    exact hpending link hlink
  obtain ⟨hlinked, row, hrow, hjd, hunknown, hrows⟩ :=
    linkUnknownSkillToJd_linked jdId u.id (some m.mandatory) hpending'
  rw [← hs'] at hlinked hrow hrows
  have hlinked' : Linked jdId s (addUnknownSkill jdId s m) := by
    refine ⟨?_, ?_, hlinked.pending⟩
    · intro link hne
      rw [hlinked.others link hne, hlinks]
    · intro link hlink
      exact hlinked.kept link (by rwa [hlinks])
  have hstatus (v : Uuid) : (addUnknownSkill jdId s m).statusOf v = up.statusOf v := by
    rw [statusOf, hframe.1]
    rfl
  have hunmatched (c : CandidateSkill) :
      (addUnknownSkill jdId s m).Unmatched c ↔ s.Unmatched c := by
    rw [Unmatched, Unmatched, hframe.2]
  have hopen : (addUnknownSkill jdId s m).Open u.id :=
    .inl ⟨row, ⟨hrow, hlinked.pending row hrow hjd⟩, hunknown⟩
  refine ⟨?_, hlinked', row, hrow, hjd⟩
  constructor
  · intro t
    have htext := hup.texts t
    rw [textStatus, byText, hframe.1]
    exact htext
  · intro v status hv
    rw [hstatus]
    exact hup.statuses v status hv
  · rintro v (⟨link, ⟨hl, hp⟩, hv⟩ | ⟨c, hc, hv⟩)
    · exact .inl ⟨link, ⟨hlinked'.kept link hl, hp⟩, hv⟩
    · exact .inr ⟨c, (hunmatched c).mpr hc, hv⟩
  · rintro v (⟨link, ⟨hl, hp⟩, hv⟩ | ⟨c, hc, hv⟩)
    · rcases hrows link hl with hold | rfl
      · rw [hlinks] at hold
        exact .inl (.inl ⟨link, ⟨hold, hp⟩, hv⟩)
      · right
        rw [← hv, hunknown, hstatus]
        exact hup.status
    · exact .inl (.inr ⟨c, (hunmatched c).mp hc, hv⟩)
  · exact ⟨u.id, hopen, (hstatus u.id).trans hup.status⟩

theorem fold_linked (skillMatches : List SkillMatchResult) (hpending : LinksPending jdId s) :
    Linked jdId s (skillMatches.foldl (addUnknownSkill jdId) s) ∧
      ((∃ m ∈ skillMatches, m.canonicalSkillId = none) →
        ∃ row ∈ (skillMatches.foldl (addUnknownSkill jdId) s).jdUnknownSkills.rows,
          row.jdId = jdId) ∧
      ((∀ m ∈ skillMatches, m.canonicalSkillId ≠ none) →
        skillMatches.foldl (addUnknownSkill jdId) s = s) := by
  induction skillMatches generalizing s with
  | nil => exact ⟨⟨fun _ _ => Iff.rfl, fun _ h => h, hpending⟩, by simp, fun _ => rfl⟩
  | cons m rest ih =>
    rw [List.foldl_cons]
    cases hm : m.canonicalSkillId with
    | none =>
      obtain ⟨-, hlinked, row, hrow, hjd⟩ := addUnknownSkill_attaches jdId m hm hpending
      obtain ⟨hrest, -, -⟩ := ih hlinked.pending
      refine ⟨hlinked.trans jdId hrest, fun _ => ⟨row, hrest.kept row hrow, hjd⟩, ?_⟩
      intro hall
      exact absurd hm (hall m List.mem_cons_self)
    | some canonicalSkillId =>
      have hsame : addUnknownSkill jdId s m = s := by rw [addUnknownSkill, hm]
      obtain ⟨hrest, hsome, hnone⟩ := ih hpending
      rw [hsame]
      refine ⟨hrest, ?_, fun hall => hnone fun m' hm' => hall m' (List.mem_cons_of_mem _ hm')⟩
      rintro ⟨m', hm', hunmatched⟩
      rcases List.mem_cons.mp hm' with rfl | hm'
      · rw [hm] at hunmatched
        simp at hunmatched
      · exact hsome ⟨m', hm', hunmatched⟩

theorem persistSkills_links (skillMatches : List SkillMatchResult)
    (hfresh : ∀ link ∈ s.jdUnknownSkills.rows, link.jdId ≠ jdId) :
    Linked jdId s (persistSkills s jdId skillMatches) ∧
      ((∃ link, (persistSkills s jdId skillMatches).PendingLink link ∧ link.jdId = jdId) ↔
        ∃ m ∈ skillMatches, m.canonicalSkillId = none) := by
  let s1 := (matchedBySkill skillMatches).foldl (addJdSkill jdId skillMatches) s
  obtain ⟨-, hlinks, -⟩ := @addJdSkill_frame s jdId skillMatches (matchedBySkill skillMatches)
  change s1.jdUnknownSkills = s.jdUnknownSkills at hlinks
  have hpending : LinksPending jdId s1 := by
    intro link hlink hid
    rw [hlinks] at hlink
    exact absurd hid (hfresh link hlink)
  obtain ⟨hlinked, hsome, hnone⟩ := fold_linked jdId skillMatches hpending
  constructor
  · refine ⟨?_, ?_, hlinked.pending⟩
    · intro link hne
      rw [← hlinks]
      exact hlinked.others link hne
    · intro link hlink
      exact hlinked.kept link (by rwa [hlinks])
  · constructor
    · rintro ⟨link, ⟨hlink, -⟩, hid⟩
      by_contra hall
      have hsame := hnone fun m hm hc => hall ⟨m, hm, hc⟩
      change link ∈ (skillMatches.foldl (addUnknownSkill jdId) s1).jdUnknownSkills.rows at hlink
      rw [hsame, hlinks] at hlink
      exact hfresh link hlink hid
    · intro hm
      obtain ⟨row, hrow, hjd⟩ := hsome hm
      exact ⟨row, ⟨hrow, hlinked.pending row hrow hjd⟩, hjd⟩

theorem persistSkills_attended (skillMatches : List SkillMatchResult)
    (hfresh : ∀ link ∈ s.jdUnknownSkills.rows, link.jdId ≠ jdId) (ha : s.Attended) :
    (persistSkills s jdId skillMatches).Attended ↔
      ∀ t ∈ unmatchedTexts skillMatches, s.seen t = .pending := by
  let s1 := (matchedBySkill skillMatches).foldl (addJdSkill jdId skillMatches) s
  obtain ⟨hunknown, hlinks, hcandidates⟩ :=
    @addJdSkill_frame s jdId skillMatches (matchedBySkill skillMatches)
  have hseen (t : String) : s1.seen t = s.seen t := by
    rw [seen, textStatus, byText, hunknown]
    rfl
  have hpending : LinksPending jdId s1 := by
    intro link hlink hid
    rw [hlinks] at hlink
    exact absurd hid (hfresh link hlink)
  have hattended : s1.Attended := by
    intro v hv
    have hstatus : s1.statusOf v = s.statusOf v := by
      rw [statusOf, hunknown]
      rfl
    rw [hstatus]
    apply ha
    rcases hv with ⟨link, hl, hv⟩ | ⟨c, hc, hv⟩
    · rw [PendingLink, hlinks] at hl
      exact .inl ⟨link, hl, hv⟩
    · rw [Unmatched, hcandidates] at hc
      exact .inr ⟨c, hc, hv⟩
  have hfold := fold_attended (addUnknownSkill jdId) (LinksPending jdId) skillMatches
    (fun s m hm => by
      obtain ⟨c, hc⟩ := Option.ne_none_iff_exists'.mp hm
      rw [addUnknownSkill, hc])
    (fun s m hok hm => by
      obtain ⟨hattach, hlinked, -⟩ := addUnknownSkill_attaches jdId m hm hok
      exact ⟨hattach, hlinked.pending⟩)
    s1 hpending hattended
  simp only [hseen] at hfold
  exact hfold

end Jd

end SkillStore

end AiHiring
