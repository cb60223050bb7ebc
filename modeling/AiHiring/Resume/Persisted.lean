import AiHiring.Skills.Persistence

namespace AiHiring

open SkillRepository

-- What tells the rows of a resume apart: the skill a text was matched to, and
-- the text.
def SkillMatchResult.key (m : SkillMatchResult) : Option Uuid × String :=
  (m.canonicalSkillId, m.rawText)

namespace SkillStore

def skillsOf (s : SkillStore) (resumeId : Uuid) : List (Option Uuid × String) :=
  (s.candidateSkills.rows.filter fun c => c.resumeId = resumeId).map fun c =>
    (c.canonicalSkillId, c.rawExtractedText)

end SkillStore

namespace ResumeService

open SkillStore

def unmatched (skillMatches : List SkillMatchResult) : List SkillMatchResult :=
  skillMatches.filter fun m => m.canonicalSkillId = none

-- One row for each canonical skill, then one for each text without.
def extractedSkills (skillMatches : List SkillMatchResult) : List (Option Uuid × String) :=
  (matchedBySkill skillMatches).map (·.key) ++ (unmatched skillMatches).map (·.key)

section Matched

variable {skillMatches kept : List SkillMatchResult}

private theorem foldl_kept (hkept : ∀ m ∈ kept, m.canonicalSkillId ≠ none)
    (hnodup : (kept.map (·.canonicalSkillId)).Nodup) :
    (∀ m ∈ skillMatches.foldl (fun kept m =>
        if m.canonicalSkillId = none ∨ kept.any (·.canonicalSkillId = m.canonicalSkillId) then kept
        else kept ++ [m]) kept, m.canonicalSkillId ≠ none) ∧
      ((skillMatches.foldl (fun kept m =>
        if m.canonicalSkillId = none ∨ kept.any (·.canonicalSkillId = m.canonicalSkillId) then kept
        else kept ++ [m]) kept).map (·.canonicalSkillId)).Nodup ∧
      ∀ k, some k ∈ (skillMatches.foldl (fun kept m =>
        if m.canonicalSkillId = none ∨ kept.any (·.canonicalSkillId = m.canonicalSkillId) then kept
        else kept ++ [m]) kept).map (·.canonicalSkillId) ↔ some k ∈ kept.map (·.canonicalSkillId) ∨
            some k ∈ skillMatches.map (·.canonicalSkillId) := by
  induction skillMatches generalizing kept with
  | nil => exact ⟨hkept, hnodup, fun k => by simp⟩
  | cons m rest ih =>
    have hany : kept.any (·.canonicalSkillId = m.canonicalSkillId) = true ↔
        m.canonicalSkillId ∈ kept.map (·.canonicalSkillId) := by
      simp
    rw [List.foldl_cons]
    by_cases hskip : m.canonicalSkillId = none ∨
        kept.any (·.canonicalSkillId = m.canonicalSkillId) = true
    · rw [if_pos hskip]
      obtain ⟨hsome, hdistinct, hmem⟩ := ih hkept hnodup
      refine ⟨hsome, hdistinct, fun k => ?_⟩
      rw [hmem, List.map_cons, List.mem_cons]
      have hold : some k = m.canonicalSkillId → some k ∈ kept.map (·.canonicalSkillId) := by
        intro hk
        rcases hskip with hnone | htaken
        · rw [hnone] at hk
          simp at hk
        · rw [hk]
          exact hany.mp htaken
      tauto
    · rw [if_neg hskip]
      have hnew : m.canonicalSkillId ≠ none ∧ m.canonicalSkillId ∉ kept.map (·.canonicalSkillId) :=
        ⟨fun h => hskip (.inl h), fun h => hskip (.inr (hany.mpr h))⟩
      obtain ⟨hsome, hdistinct, hmem⟩ := @ih (kept ++ [m]) (by
          intro x hx
          rcases List.mem_append.mp hx with hx | hx
          · exact hkept x hx
          · rw [List.mem_singleton.mp hx]
            exact hnew.1)
        (by
          rw [List.map_append, List.map_singleton, List.nodup_append]
          refine ⟨hnodup, by simp, ?_⟩
          intro x hx y hy hxy
          rw [List.mem_singleton] at hy
          exact hnew.2 (hy ▸ hxy ▸ hx))
      refine ⟨hsome, hdistinct, fun k => ?_⟩
      rw [hmem, List.map_append, List.mem_append, List.map_singleton, List.mem_singleton,
        List.map_cons, List.mem_cons, or_assoc]

theorem matched_some : ∀ m ∈ matchedBySkill skillMatches, m.canonicalSkillId ≠ none :=
  (foldl_kept (by simp) (by simp)).1

theorem mem_matched (k : Uuid) : some k ∈ (matchedBySkill skillMatches).map (·.canonicalSkillId) ↔
      some k ∈ skillMatches.map (·.canonicalSkillId) := by
  have hmem := (@foldl_kept skillMatches [] (by simp) (by simp)).2.2 k
  simpa [matchedBySkill] using hmem

end Matched

section Persist

variable {s : SkillStore} {db db' : JdDatabase} (request : ResumeRequest) (resumeId : Uuid)

theorem skillsOf_create (row : Uuid → CandidateSkill) (hrow : ∀ id, (row id).id = id) :
    (createCandidateSkill s row hrow).skillsOf resumeId = s.skillsOf resumeId ++
      if (row s.candidateSkills.next).resumeId = resumeId then
        [((row s.candidateSkills.next).canonicalSkillId,
          (row s.candidateSkills.next).rawExtractedText)] else [] := by
  unfold skillsOf
  have hrows : (createCandidateSkill s row hrow).candidateSkills.rows =
      s.candidateSkills.rows ++ [row s.candidateSkills.next] := rfl
  rw [hrows, List.filter_append, List.map_append]
  split_ifs with hid
  · simp [hid]
  · simp [hid]

theorem skillsOf_matched (matched : List SkillMatchResult)
    (hmatched : ∀ m ∈ matched, m.canonicalSkillId ≠ none) :
    (matched.foldl (addCandidateSkill request) s).skillsOf resumeId =
      s.skillsOf resumeId ++ if request.resumeId = resumeId then matched.map (·.key) else [] := by
  induction matched generalizing s with
  | nil => simp
  | cons m rest ih =>
    have hfirst : (addCandidateSkill request s m).skillsOf resumeId =
        s.skillsOf resumeId ++ if request.resumeId = resumeId then [m.key] else [] := by
      rw [addCandidateSkill, if_neg (hmatched m List.mem_cons_self)]
      exact skillsOf_create resumeId (candidateSkillRow request m none) fun _ => rfl
    rw [List.foldl_cons, ih fun x hx => hmatched x (List.mem_cons_of_mem _ hx), hfirst]
    split_ifs <;> simp

theorem skillsOf_unmatched (skillMatches : List SkillMatchResult) :
    (skillMatches.foldl (addUnmatchedSkill request) s).skillsOf resumeId = s.skillsOf resumeId ++
        if request.resumeId = resumeId then (unmatched skillMatches).map (·.key) else [] := by
  induction skillMatches generalizing s with
  | nil => simp [unmatched]
  | cons m rest ih =>
    rw [List.foldl_cons, ih]
    cases hm : m.canonicalSkillId with
    | some k =>
      have hfirst : addUnmatchedSkill request s m = s := by rw [addUnmatchedSkill, hm]
      rw [hfirst]
      simp [unmatched, hm]
    | none =>
      have hupsert : (upsertUnknownSkill s m.rawText (some m.normalizedText)).1.skillsOf
          resumeId = s.skillsOf resumeId := by
        unfold skillsOf
        rw [(@upsert_frame s m.rawText (some m.normalizedText)).2]
      have hfirst : (addUnmatchedSkill request s m).skillsOf resumeId =
          s.skillsOf resumeId ++ if request.resumeId = resumeId then [(none, m.rawText)]
            else [] := by
        have hcreate := @skillsOf_create
          (upsertUnknownSkill s m.rawText (some m.normalizedText)).1 resumeId
          (candidateSkillRow request m
            (some (upsertUnknownSkill s m.rawText (some m.normalizedText)).2.1.id)) fun _ => rfl
        rw [addUnmatchedSkill, hm, ← hupsert]
        rw [candidateSkillRow, hm] at hcreate
        exact hcreate
      rw [hfirst]
      split_ifs
      · simp [unmatched, SkillMatchResult.key, hm]
      · simp

theorem skillsOf_persist (h : persistProcessedResume request db = .ok db') :
    db'.skillsOf resumeId = db.skillsOf resumeId ++
      if request.resumeId = resumeId then extractedSkills request.skillMatches else [] := by
  rw [persistProcessedResume] at h
  split_ifs at h
  cases h
  have hfirst := @skillsOf_matched db.toSkillStore request resumeId
    (matchedBySkill request.skillMatches) matched_some
  change ((request.skillMatches.foldl (addUnmatchedSkill request) _)).skillsOf resumeId = _
  rw [skillsOf_unmatched, hfirst]
  split_ifs with hid
  · rw [extractedSkills, List.append_assoc]
  · simp

theorem persist_ok_iff : (∃ db', persistProcessedResume request db = .ok db') ↔
      ∀ k, some k ∈ request.skillMatches.map (·.canonicalSkillId) →
        some k ∉ (db.skillsOf request.resumeId).map Prod.fst := by
  have hany : ((matchedBySkill request.skillMatches).any fun m =>
      db.candidateSkills.rows.any fun c =>
        c.resumeId = request.resumeId ∧ c.canonicalSkillId = m.canonicalSkillId) = true ↔
      ∃ k, some k ∈ request.skillMatches.map (·.canonicalSkillId) ∧
        some k ∈ (db.skillsOf request.resumeId).map Prod.fst := by
    rw [List.any_eq_true]
    constructor
    · rintro ⟨m, hm, htaken⟩
      obtain ⟨c, hc, hrow⟩ := List.any_eq_true.mp htaken
      obtain ⟨hresume, hskill⟩ := of_decide_eq_true hrow
      cases hk : m.canonicalSkillId with
      | none => exact absurd hk (matched_some m hm)
      | some k =>
        refine ⟨k, (mem_matched k).mp (List.mem_map.mpr ⟨m, hm, hk⟩), ?_⟩
        rw [skillsOf, List.map_map]
        exact List.mem_map.mpr ⟨c, List.mem_filter.mpr ⟨hc, decide_eq_true hresume⟩,
          hskill.trans hk⟩
    · rintro ⟨k, hmatch, htaken⟩
      obtain ⟨m, hm, hk⟩ := List.mem_map.mp ((mem_matched k).mpr hmatch)
      rw [skillsOf, List.map_map] at htaken
      obtain ⟨c, hc, hskill⟩ := List.mem_map.mp htaken
      obtain ⟨hrow, hresume⟩ := List.mem_filter.mp hc
      refine ⟨m, hm, List.any_eq_true.mpr ⟨c, hrow, decide_eq_true ?_⟩⟩
      exact ⟨of_decide_eq_true hresume, hskill.trans hk.symm⟩
  rw [persistProcessedResume]
  constructor
  · rintro ⟨db', hok⟩ k hmatch htaken
    rw [if_pos (hany.mpr ⟨k, hmatch, htaken⟩)] at hok
    simp at hok
  · intro hfree
    refine ⟨_, if_neg fun htaken => ?_⟩
    obtain ⟨k, hmatch, hrow⟩ := hany.mp htaken
    exact hfree k hmatch hrow

end Persist

end ResumeService

end AiHiring
