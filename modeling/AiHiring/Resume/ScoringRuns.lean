import AiHiring.Resume.Scored

namespace AiHiring

open Library Transaction ResumeRepository ResumeDb
open CampaignCandidateRepository (getByCampaignAndCandidate)

namespace Activity

-- The resume whose scoring an activity is to enqueue, or is enqueueing.
def owner : Activity → Option Uuid
  | linkingUpload _ resume => some resume.id
  | queueing _ resume => some resume.id
  | parsing _ resume => some resume.id
  | linkingParsed _ resume => some resume.id
  | processing r => some r
  | moving r => some r
  | screening r _ => some r
  | parsed r => some r
  | scoring r _ => some r
  | creating r _ _ => some r
  | _ => none

-- The list of the resume's candidates is still to be read, or a task that will
-- read it is about to be sent.
def Ahead (b : ScoringBoard) (r : Uuid) : Activity → Prop
  | processing r' => r' = r
  | moving r' => r' = r
  | screening r' _ => r' = r
  | parsing _ resume => resume.id = r
  | linkingParsed _ resume => resume.id = r
  | parsed r' => r' = r
  | evaluating rest => (∃ p ∈ rest, p.2 = r) ∧ b.Outdated r ∧ ¬b.keys (processingKey r)
  | reparsing r' rest =>
    (r' = r ∨ ∃ p ∈ rest, p.2 = r) ∧ b.Outdated r ∧ ¬b.keys (processingKey r)
  | _ => False

def Lists (cc r : Uuid) : Activity → Prop
  | scoring r' rest => r' = r ∧ cc ∈ rest
  | creating r' cc' rest => r' = r ∧ (cc = cc' ∨ cc ∈ rest)
  | _ => False

def Covers (b : ScoringBoard) (cc r : Uuid) (a : Activity) : Prop := a.Ahead b r ∨ a.Lists cc r

-- What an activity takes for granted of the board.
def Grounded (b : ScoringBoard) : Activity → Prop
  | linkingUpload _ resume => ¬b.Parsed resume.id
  | queueing _ resume => ¬b.Parsed resume.id
  | evaluating rest => ∀ p ∈ rest, b.Parsed p.2
  | reparsing r rest =>
    (b.keys (processingKey r) ∨ b.Outdated r) ∧ ∀ p ∈ rest, b.Parsed p.2
  | creating r cc _ => ¬b.keys (scoringKey cc r)
  | _ => True

end Activity

open Activity

-- An activity of every link to a parsed resume is still to see it.
structure ScoringInv (b : ScoringBoard) (activities : List Activity) : Prop where
  labelled : ∀ cc r, b.keys (scoringKey cc r) → b.scored cc r
  covered : ∀ cc c r, b.links cc = some (c, r) → b.active c → b.Parsed r →
    b.scored cc r ∨ ∃ a ∈ activities, a.Covers b cc r
  exclusive : SoleOwner owner activities
  owned : ∀ a ∈ activities, ∀ r, a.owner = some r →
    (b.resumes r).isSome ∧ (b.keys (processingKey r) ∨ ¬b.Outdated r)
  grounded : ∀ a ∈ activities, a.Grounded b

section Board

variable {b : ScoringBoard} {activities : List Activity} {i : ℕ} {a a' : Activity}

theorem ScoringInv.move (h : ScoringInv b activities) (hi : activities[i]? = some a)
    (hcovers : ∀ cc c r, b.links cc = some (c, r) → a.Covers b cc r →
      a'.Covers b cc r ∨ b.scored cc r)
    (howner : ∀ r, a'.owner = some r → a.owner = some r ∨
      (∀ x ∈ activities, x.owner ≠ some r) ∧ (b.resumes r).isSome ∧
        (b.keys (processingKey r) ∨ ¬b.Outdated r))
    (hgrounded : a'.Grounded b) : ScoringInv b (activities.set i a') where
  labelled := h.labelled
  covered := by
    intro cc c r hlink hactive hparsed
    rcases h.covered cc c r hlink hactive hparsed with hscored | hcover
    · exact .inl hscored
    · by_cases hscored : b.scored cc r
      · exact .inl hscored
      · refine .inr (exists_mem_set hi hcover fun ha => ?_)
        exact (hcovers cc c r hlink ha).resolve_right hscored
  exclusive := h.exclusive.set hi fun r hr => (howner r hr).imp_right And.left
  owned := by
    intro x hx r hr
    rcases mem_of_mem_set hx with rfl | hx
    · rcases howner r hr with ha | ⟨-, hsome, hkey⟩
      · exact h.owned a (List.mem_of_getElem? hi) r ha
      · exact ⟨hsome, hkey⟩
    · exact h.owned x hx r hr
  grounded := by
    intro x hx
    rcases mem_of_mem_set hx with rfl | hx
    · exact hgrounded
    · exact h.grounded x hx

theorem ScoringInv.hire (h : ScoringInv b activities) (howner : a.owner = none)
    (hgrounded : a.Grounded b) : ScoringInv b (activities ++ [a]) where
  labelled := h.labelled
  covered := by
    intro cc c r hlink hactive hparsed
    rcases h.covered cc c r hlink hactive hparsed with hscored | ⟨x, hx, hcover⟩
    · exact .inl hscored
    · exact .inr ⟨x, List.mem_append_left _ hx, hcover⟩
  exclusive := h.exclusive.hire fun r hr => by simp [howner] at hr
  owned := by
    intro x hx r hr
    rcases List.mem_append.mp hx with hx | hx
    · exact h.owned x hx r hr
    · rw [List.mem_singleton.mp hx, howner] at hr
      simp at hr
  grounded := by
    intro x hx
    rcases List.mem_append.mp hx with hx | hx
    · exact h.grounded x hx
    · rwa [List.mem_singleton.mp hx]

theorem ScoringInv.link (h : ScoringInv b activities) (cc c r : Uuid)
    (hcover : b.Parsed r → ∃ a ∈ activities, a.Ahead b r) :
    ScoringInv (b.link cc c r) activities where
  labelled := h.labelled
  covered := by
    intro cc' c' r' hlink hactive hparsed
    by_cases hcc : cc' = cc
    · have hnew : (b.link cc c r).links cc' = some (c, r) := by
        rw [hcc]
        exact Function.update_self _ _ _
      obtain ⟨-, rfl⟩ := Prod.mk.inj (Option.some.inj (hnew.symm.trans hlink))
      obtain ⟨a, ha, hahead⟩ := hcover hparsed
      exact .inr ⟨a, ha, .inl hahead⟩
    · have hold : b.links cc' = some (c', r') :=
        (Function.update_of_ne hcc _ _).symm.trans hlink
      exact h.covered cc' c' r' hold hactive hparsed
  exclusive := h.exclusive
  owned := h.owned
  grounded := h.grounded

theorem resumes_store (r r' : Uuid) :
    (b.store r).resumes r' = if r' = r then some (.pending, none) else b.resumes r' :=
  Function.update_apply _ _ _ _

theorem resumes_parse (r r' : Uuid) : (b.parse r).resumes r' =
    if r' = r then (b.resumes r).map fun _ => (.parsed, some ResumeService.parserVersion)
    else b.resumes r' :=
  Function.update_apply _ _ _ _

theorem parsed_store {r : Uuid} (hnone : b.resumes r = none) (r' : Uuid) :
    (b.store r).Parsed r' ↔ b.Parsed r' := by
  rw [ScoringBoard.Parsed, resumes_store, ScoringBoard.Parsed]
  by_cases hr : r' = r
  · rw [if_pos hr, hr, hnone]
    simp
  · rw [if_neg hr]

theorem outdated_store {r : Uuid} (hnone : b.resumes r = none) (r' : Uuid) :
    (b.store r).Outdated r' ↔ b.Outdated r' := by
  rw [ScoringBoard.Outdated, resumes_store, ScoringBoard.Outdated]
  by_cases hr : r' = r
  · rw [if_pos hr, hr, hnone]
    simp
  · rw [if_neg hr]

theorem isSome_store (r r' : Uuid) (h : (b.resumes r').isSome) :
    ((b.store r).resumes r').isSome := by
  rw [resumes_store]
  split_ifs
  · rfl
  · exact h

theorem ScoringInv.change {b' : ScoringBoard} (h : ScoringInv b activities)
    (hlabelled : ∀ cc r, b'.keys (scoringKey cc r) → b'.scored cc r)
    (hcovered : ∀ cc c r, b'.links cc = some (c, r) → b'.active c → b'.Parsed r →
      b'.scored cc r ∨ ∃ a ∈ activities, a.Covers b' cc r)
    (howned : ∀ a ∈ activities, ∀ r, a.owner = some r → (b.resumes r).isSome →
      b.keys (processingKey r) ∨ ¬b.Outdated r →
        (b'.resumes r).isSome ∧ (b'.keys (processingKey r) ∨ ¬b'.Outdated r))
    (hgrounded : ∀ a ∈ activities, a.Grounded b → a.Grounded b') :
    ScoringInv b' activities where
  labelled := hlabelled
  covered := hcovered
  exclusive := h.exclusive
  owned := by
    intro a ha r hr
    obtain ⟨hsome, hkey⟩ := h.owned a ha r hr
    exact howned a ha r hr hsome hkey
  grounded := fun a ha => hgrounded a ha (h.grounded a ha)

theorem Activity.Covers.mono {b' : ScoringBoard} {cc r : Uuid} (h : a.Covers b cc r)
    (houtdated : b.Outdated r → b'.Outdated r)
    (hkeys : b'.keys (processingKey r) → b.keys (processingKey r)) : a.Covers b' cc r := by
  rcases h with h | h
  · refine .inl ?_
    cases a with
    | evaluating rest => exact ⟨h.1, houtdated h.2.1, fun hk => h.2.2 (hkeys hk)⟩
    | reparsing r' rest => exact ⟨h.1, houtdated h.2.1, fun hk => h.2.2 (hkeys hk)⟩
    | _ => exact h
  · exact .inr h

theorem ScoringInv.store (h : ScoringInv b activities) {r : Uuid} (hnone : b.resumes r = none) :
    ScoringInv (b.store r) activities := by
  apply h.change
  · exact h.labelled
  · intro cc c r' hlink hactive hparsed
    refine (h.covered cc c r' hlink hactive ((parsed_store hnone r').mp hparsed)).imp_right ?_
    rintro ⟨a, ha, hcover⟩
    exact ⟨a, ha, hcover.mono (outdated_store hnone r').mpr id⟩
  · intro a _ r' _ hsome hkey
    exact ⟨isSome_store r r' hsome, hkey.imp_right fun h => (outdated_store hnone r').not.mpr h⟩
  · intro a _ hgrounded
    cases a with
    | linkingUpload request resume => exact (parsed_store hnone _).not.mpr hgrounded
    | queueing request resume => exact (parsed_store hnone _).not.mpr hgrounded
    | evaluating rest => exact fun p hp => (parsed_store hnone p.2).mpr (hgrounded p hp)
    | reparsing r' rest =>
      exact ⟨hgrounded.1.imp_right (outdated_store hnone r').mpr,
        fun p hp => (parsed_store hnone p.2).mpr (hgrounded.2 p hp)⟩
    | _ => exact hgrounded

theorem parsed_parse (r r' : Uuid) (hr : r' ≠ r) : (b.parse r).Parsed r' ↔ b.Parsed r' := by
  rw [ScoringBoard.Parsed, resumes_parse, if_neg hr, ScoringBoard.Parsed]

theorem Parsed.parse {r' : Uuid} (h : b.Parsed r') (r : Uuid) : (b.parse r).Parsed r' := by
  by_cases hr : r' = r
  · obtain ⟨version, hversion⟩ := h
    refine ⟨some ResumeService.parserVersion, ?_⟩
    rw [resumes_parse, if_pos hr, ← hr, hversion]
    rfl
  · exact (parsed_parse r r' hr).mpr h

theorem outdated_parse (r r' : Uuid) : (b.parse r).Outdated r' ↔ b.Outdated r' ∧ r' ≠ r := by
  rw [ScoringBoard.Outdated, resumes_parse, ScoringBoard.Outdated]
  by_cases hr : r' = r
  · rw [if_pos hr]
    cases b.resumes r <;> simp [hr]
  · rw [if_neg hr]
    simp [hr]

theorem isSome_parse (r r' : Uuid) : ((b.parse r).resumes r').isSome = (b.resumes r').isSome := by
  rw [resumes_parse]
  split_ifs with hr
  · rw [hr, Option.isSome_map]
  · rfl

theorem ScoringInv.parse (h : ScoringInv b activities) {r : Uuid} (hi : activities[i]? = some a)
    (hahead : ∀ b, a.Ahead b r) (howner : a.owner = some r) (hplain : ∀ b, a.Grounded b) :
    ScoringInv (b.parse r) activities := by
  have ha := List.mem_of_getElem? hi
  -- nobody else owns the resume
  have hother (x : Activity) (hx : x ∈ activities) (hxr : x.owner = some r) : x = a := by
    obtain ⟨j, hj⟩ := List.mem_iff_getElem?.mp hx
    have hij := h.exclusive i j a x r hi hj howner hxr
    exact Option.some.inj ((hij ▸ hj).symm.trans hi)
  apply h.change
  · exact h.labelled
  · intro cc c r' hlink hactive hparsed
    by_cases hr : r' = r
    · subst hr
      exact .inr ⟨a, ha, .inl (hahead _)⟩
    · refine (h.covered cc c r' hlink hactive ((parsed_parse r r' hr).mp hparsed)).imp_right ?_
      rintro ⟨x, hx, hcover⟩
      exact ⟨x, hx, hcover.mono (fun ho => (outdated_parse r r').mpr ⟨ho, hr⟩) id⟩
  · intro x _ r' _ hsome hkey
    refine ⟨(isSome_parse r r').trans hsome, hkey.imp_right fun hno ho => ?_⟩
    exact hno ((outdated_parse r r').mp ho).1
  · intro x hx hgrounded
    cases x with
    | linkingUpload request resume =>
      by_cases hr : resume.id = r
      · exact (hother _ hx (congrArg some hr)) ▸ hplain _
      · exact (parsed_parse r _ hr).not.mpr hgrounded
    | queueing request resume =>
      by_cases hr : resume.id = r
      · exact (hother _ hx (congrArg some hr)) ▸ hplain _
      · exact (parsed_parse r _ hr).not.mpr hgrounded
    | evaluating rest => exact fun p hp => Parsed.parse (hgrounded p hp) r
    | reparsing r' rest =>
      refine ⟨?_, fun p hp => Parsed.parse (hgrounded.2 p hp) r⟩
      by_cases hr : r' = r
      · -- an outdated resume is parsed only under its key
        subst hr
        exact .inl (hgrounded.1.elim id fun ho =>
          (h.owned a ha r' howner).2.resolve_right (not_not.mpr ho))
      · exact hgrounded.1.imp_right fun ho => (outdated_parse r r').mpr ⟨ho, hr⟩
    | _ => exact hgrounded

-- A scoring task, once nobody is about to insert the same.
theorem ScoringInv.score (h : ScoringInv b activities) (cc r : Uuid)
    (hfree : ∀ rest, creating r cc rest ∉ activities) :
    ScoringInv (b.score cc r) activities := by
  have hprocessing (r' : Uuid) :
      (b.score cc r).keys (processingKey r') ↔ b.keys (processingKey r') :=
    or_iff_left (scoringKey_ne_processingKey cc r r').symm
  apply h.change
  · intro cc' r' hkey
    rcases hkey with hkey | hkey
    · exact .inl (h.labelled cc' r' hkey)
    · exact .inr (scoringKey_inj.mp hkey)
  · intro cc' c r' hlink hactive hparsed
    rcases h.covered cc' c r' hlink hactive hparsed with hscored | ⟨x, hx, hcover⟩
    · exact .inl (.inl hscored)
    · exact .inr ⟨x, hx, hcover.mono id (hprocessing r').mp⟩
  · intro x _ r' _ hsome hkey
    exact ⟨hsome, hkey.imp_left (hprocessing r').mpr⟩
  · intro x hx hgrounded
    cases x with
    | reparsing r' rest => exact ⟨hgrounded.1.imp_left (hprocessing r').mpr, hgrounded.2⟩
    | creating r' cc' rest =>
      intro hkey
      rcases hkey with hkey | hkey
      · exact hgrounded hkey
      · obtain ⟨rfl, rfl⟩ := scoringKey_inj.mp hkey
        exact hfree rest hx
    | _ => exact hgrounded

theorem ScoringInv.dispatch (h : ScoringInv b activities) (r : Uuid)
    (hnone : ∀ x ∈ activities, x.owner ≠ some r) (hsome : (b.resumes r).isSome) :
    ScoringInv (b.take (processingKey r)) (activities ++ [processing r]) where
  labelled := by
    intro cc r' hkey
    exact h.labelled cc r' (Or.resolve_right hkey (scoringKey_ne_processingKey cc r' r))
  covered := by
    intro cc c r' hlink hactive hparsed
    rcases h.covered cc c r' hlink hactive hparsed with hscored | ⟨x, hx, hcover⟩
    · exact .inl hscored
    · by_cases hr : r = r'
      · exact .inr ⟨processing r, by simp, .inl hr⟩
      · refine .inr ⟨x, List.mem_append_left _ hx, hcover.mono id fun hkey => ?_⟩
        exact Or.resolve_right hkey fun heq => hr (processingKey_inj.mp heq).symm
  exclusive := by
    apply h.exclusive.hire
    intro k hk
    exact Option.some.inj hk ▸ hnone
  owned := by
    intro x hx r' hr'
    rcases List.mem_append.mp hx with hx | hx
    · exact (h.owned x hx r' hr').imp_right fun hkey => hkey.imp_left .inl
    · rw [List.mem_singleton.mp hx] at hr'
      cases hr'
      exact ⟨hsome, .inl (.inr rfl)⟩
  grounded := by
    intro x hx
    rcases List.mem_append.mp hx with hx | hx
    · have hgrounded := h.grounded x hx
      cases x with
      | reparsing r' rest => exact ⟨hgrounded.1.imp_left .inl, hgrounded.2⟩
      | creating r' cc rest =>
        intro hkey
        exact hgrounded (Or.resolve_right hkey (scoringKey_ne_processingKey cc r' r))
      | _ => exact hgrounded
    · rw [List.mem_singleton.mp hx]
      exact trivial

end Board

namespace ScoringWorld

-- A link to a resume that is parsed already is only made while the candidates
-- of the resume are still to be listed, or if it has the resume parsed again.
def LinksSeen (w : ScoringWorld) : ScoringAction → ScoringWorld → Prop
  | .addCandidates _ selections, _ => ∀ s ∈ selections,
      (observe w.db).Outdated s.resumeId ∧ ¬(observe w.db).keys (processingKey s.resumeId) ∨
        ∃ a ∈ w.activities, a.Ahead (observe w.db) s.resumeId
  | .advance index _ _, _ => ∀ file matched,
      w.activities[index]? = some (.duplicate file matched) →
        getByCampaignAndCandidate w.db file.campaignId
            matched.candidateId = none →
          (observe w.db).Parsed matched.id → ∃ a ∈ w.activities, a.Ahead (observe w.db) matched.id
  | _, _ => True

section Advance

variable {table : TransitionTable} {taskId : String} {now : Instant} {db : ResumeDb}
  {activities : List Activity} {index : ℕ} {a : Activity} {made : Advance}

theorem mem_getByResumeId {cc c r : Uuid} (h : (observe db).links cc = some (c, r)) :
    cc ∈ (CampaignCandidateRepository.getByResumeId db r).map (·.id) := by
  obtain ⟨row, hrow, hlink⟩ := Option.map_eq_some_iff.mp h
  obtain ⟨hmem, hid⟩ := (db.campaignCandidates.find?_eq_some _ _).mp hrow
  refine List.mem_map.mpr ⟨row, List.mem_filter.mpr ⟨hmem, ?_⟩, hid⟩
  simpa using (Prod.mk.inj hlink).2

theorem inv_goOn (h : ScoringInv (observe made.db) (activities.set index made.next))
    (hsent : made.sent = none) :
    ScoringInv (observe made.db) (activities.set index made.next ++ made.sent.toList) := by
  rw [hsent]
  simpa using h

variable (h : ScoringInv (observe db) activities) (hi : activities[index]? = some a)
include h hi

theorem inv_same {db' : ResumeDb} {next : Activity} (hdb : observe db' = observe db)
    (hcovers : ∀ cc c r, (observe db).links cc = some (c, r) → a.Covers (observe db) cc r →
      next.Covers (observe db) cc r ∨ (observe db).scored cc r)
    (howner : ∀ r, next.owner = some r → a.owner = some r)
    (hgrounded : next.Grounded (observe db)) :
    ScoringInv (observe (Activity.goOn db' next).db)
      (activities.set index (Activity.goOn db' next).next ++
        (Activity.goOn db' next).sent.toList) := by
  apply inv_goOn _ rfl
  change ScoringInv (observe db') (activities.set index next)
  rw [hdb]
  exact h.move hi hcovers (fun r hr => .inl (howner r hr)) hgrounded

theorem inv_stores {resume : ResumeRow} {next : Activity} {b : ScoringBoard}
    (hstores : Stores db resume b) (hnext : next.owner = some resume.id)
    (ha : ∀ b cc r, ¬a.Covers b cc r)
    (hgrounded : ¬b.Parsed resume.id → next.Grounded b) :
    ScoringInv b (activities.set index next) := by
  obtain ⟨hnone, rfl⟩ := hstores
  have hstored := h.store hnone
  have hpending : ((observe db).store resume.id).resumes resume.id = some (.pending, none) :=
    Function.update_self _ _ _
  have hparsed : ¬((observe db).store resume.id).Parsed resume.id := by
    rintro ⟨version, hversion⟩
    rw [hpending] at hversion
    simp at hversion
  refine hstored.move hi (fun cc c r _ hcover => absurd hcover (ha _ cc r)) ?_ (hgrounded hparsed)
  intro r hr
  obtain rfl : resume.id = r := Option.some.inj (hnext.symm.trans hr)
  refine .inr ⟨fun x hx hxr => ?_, by rw [hpending]; rfl, .inr ?_⟩
  · -- an activity owns a resume that is there
    have hsome := (h.owned x hx resume.id hxr).1
    rw [hnone] at hsome
    simp at hsome
  · rintro ⟨version, hversion, -⟩
    exact hparsed ⟨version, hversion⟩

theorem inv_advance (hmade : a.advance table taskId now db = some made)
    (hseen : ∀ file matched, a = .duplicate file matched →
      getByCampaignAndCandidate db file.campaignId
          matched.candidateId = none →
        (observe db).Parsed matched.id → ∃ x ∈ activities, x.Ahead (observe db) matched.id) :
    ScoringInv (observe made.db) (activities.set index made.next ++ made.sent.toList) := by
  have hmem := List.mem_of_getElem? hi
  have hends (hcovers : ∀ b cc r, ¬a.Covers b cc r) :
      ScoringInv (observe db) (activities.set index .done) :=
    h.move hi (fun cc _ r _ hcover => absurd hcover (hcovers _ cc r)) (fun r hr => nomatch hr)
      trivial
  cases a with
  | done => simp [advance] at hmade
  | storing request fileFormat matched =>
    cases hmade
    obtain ⟨hleaves, hsent⟩ := (leaves_storeResume request fileFormat matched).ofRequest
    apply inv_goOn _ hsent
    rcases hleaves with ⟨resume, hnext, hstores⟩ | ⟨hnext, hdb⟩
    · rw [hnext]
      exact inv_stores h hi hstores rfl (fun b cc r hc => hc.elim id id) id
    · rw [hnext, hdb]
      exact hends fun b cc r hc => hc.elim id id
  | linkingUpload request resume =>
    cases hmade
    obtain ⟨hleaves, hsent⟩ := (leaves_linkUpload request resume).ofRequest
    have hunparsed : ¬(observe db).Parsed resume.id := h.grounded _ hmem
    apply inv_goOn _ hsent
    rcases hleaves with ⟨hnext, hdb⟩ | ⟨hnext, hdb⟩
    · rw [hnext, hdb]
      have hlinked := h.link db.campaignCandidates.next request.campaignId resume.id
        fun hparsed => absurd hparsed hunparsed
      refine hlinked.move hi ?_ (fun r hr => .inl hr) hunparsed
      rintro cc c r _ (hc | hc) <;> exact hc.elim
    · rw [hnext, hdb]
      exact hends fun b cc r hc => hc.elim id id
  | queueing request resume =>
    cases hmade
    have hsome := (h.owned _ hmem resume.id rfl).1
    obtain ⟨hnext, hqueued⟩ := @observe_queueUpload db request resume
    have hdone := hends fun b cc r hc => hc.elim id id
    rw [hnext]
    rcases hqueued with ⟨-, hdb, hsent⟩ | ⟨-, hdb, hsent⟩
    · rw [hsent, hdb]
      simpa using hdone
    · rw [hsent, hdb]
      apply hdone.dispatch resume.id _ hsome
      exact h.exclusive.released hi rfl (by simp [owner])
  | processing r =>
    rw [advance] at hmade
    cases hrow : getById db r with
    | none => simp [hrow] at hmade
    | some row =>
      rw [hrow] at hmade
      cases hmade
      apply inv_goOn _ rfl
      change ScoringInv (observe (ResumeService.updateParsedResult db r)) _
      rw [observe_updateParsedResult]
      have hparsed := h.parse hi (fun _ => rfl) rfl fun _ => trivial
      refine hparsed.move hi ?_ (fun r hr => .inl hr) trivial
      exact fun cc c r' _ hcover => .inl hcover
  | moving r =>
    cases hmade
    refine inv_same h hi rfl ?_ (fun r hr => hr) trivial
    exact fun cc c r' _ hcover => .inl hcover
  | screening r rest =>
    cases rest with
    | nil =>
      cases hmade
      refine inv_same h hi rfl ?_ (fun r hr => hr) trivial
      exact fun cc c r' _ hcover => .inl hcover
    | cons cc rest =>
      cases hmade
      refine inv_same h hi (observe_moveToScreening db table now cc) ?_ (fun r hr => hr) trivial
      exact fun cc c r' _ hcover => .inl hcover
  | extracting file =>
    obtain ⟨⟨resume, hnext, hstores⟩, hsent⟩ := (leaves_extract file).ofTask hmade
    apply inv_goOn _ hsent
    rw [hnext]
    exact inv_stores h hi hstores rfl (fun b cc r hc => hc.elim id id) fun _ => trivial
  | parsing file resume =>
    cases hmade
    apply inv_goOn _ rfl
    change ScoringInv (observe (ResumeService.updateParsedResult db resume.id)) _
    rw [observe_updateParsedResult]
    have hparsed := h.parse hi (fun _ => rfl) rfl fun _ => trivial
    refine hparsed.move hi ?_ (fun r hr => .inl hr) trivial
    exact fun cc c r' _ hcover => .inl hcover
  | linkingParsed file resume =>
    obtain ⟨⟨hnext, hdb⟩, hsent⟩ := (leaves_linkParsed file resume).ofTask hmade
    apply inv_goOn _ hsent
    rw [hnext, hdb]
    have hlinked := h.link db.campaignCandidates.next file.campaignId resume.id
      fun _ => ⟨_, hmem, rfl⟩
    refine hlinked.move hi ?_ (fun r hr => .inl hr) trivial
    exact fun cc c r' _ hcover => .inl hcover
  | duplicate file matched =>
    obtain ⟨⟨hnext, hdb⟩, hsent⟩ := (leaves_linkDuplicate file matched).ofTask hmade
    apply inv_goOn _ hsent
    rw [hnext]
    have hnocover : ∀ b cc r, ¬(duplicate file matched).Covers b cc r :=
      fun b cc r hc => hc.elim id id
    rcases hdb with hdb | ⟨hunlisted, hdb⟩
    · rw [hdb]
      exact hends hnocover
    · rw [hdb]
      have hlinked := h.link db.campaignCandidates.next file.campaignId matched.id
        (hseen file matched rfl hunlisted)
      refine hlinked.move hi ?_ (fun r hr => nomatch hr) trivial
      exact fun cc c r _ hcover => absurd hcover (hnocover _ cc r)
  | parsed r =>
    cases hmade
    refine inv_same h hi rfl ?_ (fun r hr => hr) trivial
    rintro cc c r' hlink (rfl | hc)
    · exact .inl (.inr ⟨rfl, mem_getByResumeId hlink⟩)
    · exact hc.elim
  | scoring r rest =>
    cases rest with
    | nil =>
      cases hmade
      refine inv_same h hi rfl ?_ (fun r hr => nomatch hr) trivial
      rintro cc c r' _ (hc | hc)
      · exact hc.elim
      · exact absurd hc.2 List.not_mem_nil
    | cons cc rest =>
      have hkey := getByIdempotencyKey_isSome db (scoringKey cc r)
      rw [advance] at hmade
      split_ifs at hmade with htaken
      · -- the task is there already
        cases hmade
        refine inv_same h hi rfl ?_ (fun r hr => hr) trivial
        rintro cc' c r' _ (hc | ⟨rfl, hc⟩)
        · exact hc.elim
        · rcases List.mem_cons.mp hc with rfl | hc
          · exact .inr (h.labelled cc' r (hkey.mp htaken))
          · exact .inl (.inr ⟨rfl, hc⟩)
      · cases hmade
        refine inv_same h hi rfl ?_ (fun r hr => hr) fun hk => htaken (hkey.mpr hk)
        rintro cc' c r' _ (hc | ⟨rfl, hc⟩)
        · exact hc.elim
        · exact .inl (.inr ⟨rfl, List.mem_cons.mp hc⟩)
  | creating r cc rest =>
    have hfree : ¬(observe db).keys (scoringKey cc r) := h.grounded _ hmem
    have hkey := getByIdempotencyKey_isSome db (scoringKey cc r)
    rw [advance, if_neg fun htaken => hfree (hkey.mp htaken)] at hmade
    cases hmade
    apply inv_goOn _ rfl
    change ScoringInv (observe (ResumeTaskLogRepository.createLog db _ _ _ _ _)) _
    rw [observe_createLog_scoring]
    -- back on the list, then scored, then off it
    have hback : ScoringInv (observe db) (activities.set index (scoring r (cc :: rest))) := by
      refine h.move hi ?_ (fun r hr => .inl hr) trivial
      rintro cc' c r' _ (hc | ⟨rfl, hc⟩)
      · exact hc.elim
      · exact .inl (.inr ⟨rfl, List.mem_cons.mpr hc⟩)
    obtain ⟨hlt, -⟩ := List.getElem?_eq_some_iff.mp hi
    have hset : (activities.set index (scoring r (cc :: rest)))[index]? =
        some (scoring r (cc :: rest)) := List.getElem?_set_self hlt
    have hscored := hback.score cc r fun rest' hrest' => by
      obtain ⟨j, hj⟩ := List.mem_iff_getElem?.mp hrest'
      have hij := hback.exclusive index j _ _ r hset hj rfl rfl
      subst hij
      exact Activity.noConfusion (Option.some.inj (hset.symm.trans hj))
    have hoff : ScoringInv ((observe db).score cc r)
        ((activities.set index (scoring r (cc :: rest))).set index (scoring r rest)) := by
      refine hscored.move hset ?_ (fun r hr => .inl hr) trivial
      rintro cc' c r' _ (hc | ⟨rfl, hc⟩)
      · exact hc.elim
      · rcases List.mem_cons.mp hc with rfl | hc
        · exact .inr (.inr ⟨rfl, rfl⟩)
        · exact .inl (.inr ⟨rfl, hc⟩)
    rwa [List.set_set] at hoff
  | evaluating rest =>
    cases rest with
    | nil =>
      cases hmade
      refine inv_same h hi rfl ?_ (fun r hr => nomatch hr) trivial
      rintro cc c r _ (⟨⟨p, hp, -⟩, -⟩ | hc)
      · simp at hp
      · exact hc.elim
    | cons pick rest =>
      obtain ⟨cc, r⟩ := pick
      rw [advance] at hmade
      cases hrow : getById db r with
      | none => simp [hrow] at hmade
      | some row =>
        obtain ⟨hparsed, hrest⟩ := List.forall_mem_cons.mp (h.grounded _ hmem)
        obtain ⟨version, hversion⟩ := hparsed
        have hread : (observe db).resumes r = some (row.parseStatus, row.parserVersion) :=
          Option.map_eq_some_iff.mpr ⟨row, hrow, rfl⟩
        obtain ⟨-, rfl⟩ := Prod.mk.inj (Option.some.inj (hread.symm.trans hversion))
        simp only [hrow] at hmade
        split_ifs at hmade with houtdated
        · cases hmade
          refine inv_same h hi (observe_setTaskId db r taskId) ?_ (fun r hr => nomatch hr)
            ⟨.inr ⟨_, hversion, by simpa [TalentPoolService.isOutdated] using houtdated⟩, hrest⟩
          rintro cc' c r' _ (⟨⟨p, hp, rfl⟩, hc⟩ | hc)
          · refine .inl (.inl ⟨?_, hc⟩)
            rcases List.mem_cons.mp hp with rfl | hp
            · exact .inl rfl
            · exact .inr ⟨p, hp, rfl⟩
          · exact hc.elim
        · cases hmade
          refine inv_same h hi (observe_createLog_unkeyed db taskId _ (by decide) _ _) ?_
            (fun r hr => nomatch hr) hrest
          rintro cc' c r' _ (⟨⟨p, hp, rfl⟩, ho, hc⟩ | hc)
          · rcases List.mem_cons.mp hp with rfl | hp
            · -- it is up to date
              obtain ⟨version, hv, hne⟩ := ho
              rw [hversion] at hv
              cases hv
              simp [TalentPoolService.isOutdated, hne] at houtdated
            · exact .inl (.inl ⟨⟨p, hp, rfl⟩, ho, hc⟩)
          · exact hc.elim
  | reparsing r rest =>
    obtain ⟨hground, hrest⟩ := h.grounded _ hmem
    have hkey := getByIdempotencyKey_isSome db (processingKey r)
    rw [advance] at hmade
    split_ifs at hmade with htaken
    · cases hmade
      refine inv_same h hi rfl ?_ (fun r hr => nomatch hr) hrest
      rintro cc c r' _ (⟨rfl | hp, ho, hc⟩ | hc)
      · exact absurd (hkey.mp htaken) hc
      · exact .inl (.inl ⟨hp, ho, hc⟩)
      · exact hc.elim
    · cases hmade
      have hfree : ¬(observe db).keys (processingKey r) := fun hk => htaken (hkey.mpr hk)
      obtain ⟨version, hversion, hne⟩ := hground.resolve_left hfree
      -- an owner would have the key, or the resume up to date
      have hnone (x : Activity) (hx : x ∈ activities) : x.owner ≠ some r := by
        intro hxr
        exact (h.owned x hx r hxr).2.resolve_left hfree ⟨version, hversion, hne⟩
      have hsent := h.dispatch r hnone (by rw [hversion]; rfl)
      obtain ⟨hlt, -⟩ := List.getElem?_eq_some_iff.mp hi
      have hi' : (activities ++ [processing r])[index]? = some (reparsing r rest) := by
        rw [List.getElem?_append_left hlt, hi]
      have hmoved : ScoringInv ((observe db).take (processingKey r))
          ((activities ++ [processing r]).set index (evaluating rest)) := by
        refine hsent.move hi' ?_ (fun r hr => nomatch hr) hrest
        rintro cc c r' _ (⟨rfl | hp, ho, hc⟩ | hc)
        · exact absurd (.inr rfl) hc
        · exact .inl (.inl ⟨hp, ho, hc⟩)
        · exact hc.elim
      rw [List.set_append_left _ _ hlt] at hmoved
      change ScoringInv (observe (ResumeTaskLogRepository.createLog db _ _ _ _ _)) _
      rw [observe_createLog_processing]
      exact hmoved

end Advance

theorem observe_link (request : TalentPoolService.AddRequest) (db : ResumeDb)
    (s : TalentPoolService.Selection) :
    observe (TalentPoolService.link request db s) =
      (observe db).link db.campaignCandidates.next request.campaignId s.resumeId :=
  observe_linked db _
    (CampaignCandidateService.newCandidate request.campaignId s.candidateId s.resumeId _) rfl rfl
    rfl

theorem inv_addCandidates (request : TalentPoolService.AddRequest) {activities : List Activity}
    (selections : List TalentPoolService.Selection) {db : ResumeDb}
    (h : ScoringInv (observe db) activities)
    (hahead : ∀ s ∈ selections, ∃ a ∈ activities, a.Ahead (observe db) s.resumeId) :
    ScoringInv (observe (TalentPoolService.addCandidates request db selections)) activities := by
  induction selections generalizing db with
  | nil => exact h
  | cons s rest ih =>
    obtain ⟨hs, hrest⟩ := List.forall_mem_cons.mp hahead
    apply ih
    · rw [observe_link]
      exact h.link _ _ _ fun _ => hs
    · -- a link changes nothing that the others wait for
      intro t ht
      rw [observe_link]
      obtain ⟨a, ha, hat⟩ := hrest t ht
      refine ⟨a, ha, ?_⟩
      cases a with
      | _ => exact hat

theorem inv_step {table : TransitionTable} {w w' : ScoringWorld} {action : ScoringAction}
    (h : ScoringInv (observe w.db) w.activities) (hseen : LinksSeen w action w')
    (hstep : Step table w action w') : ScoringInv (observe w'.db) w'.activities := by
  cases action with
  | uploadResume request =>
    obtain rfl := hstep
    obtain ⟨hleaves, -⟩ := (@leaves_checkUpload w.db request).ofRequest
    rcases hleaves with ⟨hnext | ⟨fileFormat, matched, hnext⟩, hdb⟩ | ⟨hnext, hdb⟩
    · rw [hnext, hdb]
      exact h.hire rfl trivial
    · rw [hnext, hdb]
      exact h.hire rfl trivial
    · rw [hnext, hdb]
      exact h.hire rfl trivial
  | parseBulkFile file =>
    obtain rfl := hstep
    rw [checkFile]
    cases getByFileHashGlobal w.db file.fileHash with
    | none => exact h.hire rfl trivial
    | some matched => exact h.hire rfl trivial
  | addCandidates request selections =>
    obtain ⟨hadmits, rfl⟩ := hstep
    have hadded : (TalentPoolService.added w.db selections).map Prod.snd =
        selections.map (·.resumeId) := List.map_snd_zip (by simp)
    have hhired : ScoringInv (observe w.db)
        (w.activities ++ [.evaluating (TalentPoolService.added w.db selections)]) := by
      refine h.hire rfl fun p hp => ?_
      have hmem : p.2 ∈ selections.map (·.resumeId) :=
        hadded ▸ List.mem_map.mpr ⟨p, hp, rfl⟩
      obtain ⟨s, hs, hresume⟩ := List.mem_map.mp hmem
      obtain ⟨row, hrow, -, hparsed⟩ := hadmits.eligible s hs
      exact ⟨row.parserVersion, Option.map_eq_some_iff.mpr ⟨row, hresume ▸ hrow, by rw [hparsed]⟩⟩
    refine inv_addCandidates request selections hhired fun s hs => ?_
    rcases hseen s hs with ⟨houtdated, hkey⟩ | ⟨a, ha, hahead⟩
    · have hmem : s.resumeId ∈ (TalentPoolService.added w.db selections).map Prod.snd :=
        hadded ▸ List.mem_map.mpr ⟨s, hs, rfl⟩
      obtain ⟨p, hp, hresume⟩ := List.mem_map.mp hmem
      exact ⟨_, List.mem_append_right _ (List.mem_singleton.mpr rfl), ⟨p, hp, hresume⟩,
        houtdated, hkey⟩
    · exact ⟨a, List.mem_append_left _ ha, hahead⟩
  | advance index taskId now =>
    obtain ⟨a, made, hi, hmade, rfl⟩ := hstep
    refine inv_advance h hi hmade fun file matched ha hunlisted hparsed => ?_
    exact hseen file matched (ha ▸ hi) hunlisted hparsed

theorem scored_iff (db : ResumeDb) : Scored db ↔ ∀ cc c r, (observe db).links cc = some (c, r) →
    (observe db).active c → (observe db).Parsed r → (observe db).scored cc r := by
  constructor
  · intro h cc c r hlink hactive hparsed
    obtain ⟨row, hrow, hids⟩ := Option.map_eq_some_iff.mp hlink
    cases hids
    obtain ⟨hmem, rfl⟩ := (db.campaignCandidates.find?_eq_some _ _).mp hrow
    obtain ⟨campaign, hcampaign, hstatus⟩ := hactive
    obtain ⟨version, hversion⟩ := hparsed
    obtain ⟨resume, hresume, hstate⟩ := Option.map_eq_some_iff.mp hversion
    exact h row hmem campaign hcampaign hstatus resume hresume (Prod.mk.inj hstate).1
  · intro h cc hcc campaign hcampaign hstatus resume hresume hparsed
    apply h cc.id cc.campaignId cc.resumeId
    · exact Option.map_eq_some_iff.mpr
        ⟨cc, (db.campaignCandidates.find?_eq_some _ _).mpr ⟨hcc, rfl⟩, rfl⟩
    · exact ⟨campaign, hcampaign, hstatus⟩
    · exact ⟨resume.parserVersion, Option.map_eq_some_iff.mpr ⟨resume, hresume, by rw [hparsed]⟩⟩

-- A database to start from: its linked candidates are scored, and a key of a
-- scoring task is the key of one.
structure Settled (db : ResumeDb) : Prop where
  scored : Scored db
  labelled : ∀ cc r, (observe db).keys (scoringKey cc r) → (observe db).scored cc r

theorem Settled.inv {db : ResumeDb} (h : Settled db) : ScoringInv (observe db) [] where
  labelled := h.labelled
  covered := by
    intro cc c r hlink hactive hparsed
    exact .inl ((scored_iff db).mp h.scored cc c r hlink hactive hparsed)
  exclusive := soleOwner_nil
  owned := fun _ ha => absurd ha List.not_mem_nil
  grounded := fun _ ha => absurd ha List.not_mem_nil

theorem scored_of_quiet {w : ScoringWorld} (h : ScoringInv (observe w.db) w.activities)
    (hquiet : Quiet w) : Scored w.db := by
  rw [scored_iff]
  intro cc c r hlink hactive hparsed
  refine (h.covered cc c r hlink hactive hparsed).resolve_right ?_
  rintro ⟨a, ha, hcover⟩
  rw [hquiet a ha] at hcover
  rcases hcover with hcover | hcover <;> exact hcover

-- Whatever the order of the steps, a state with nothing under way leaves no
-- linked candidate unscored, provided the links to parsed resumes are seen.
theorem linked_candidates_scored (table : TransitionTable) (db : ResumeDb) (hdb : Settled db)
    (path : List (ScoringAction × ScoringWorld)) (hpath : Path (Step table) ⟨db, []⟩ path)
    (hseen : EveryStep LinksSeen ⟨db, []⟩ path) :
    ∀ w ∈ visited ⟨db, []⟩ path, Quiet w → Scored w.db := by
  intro w hw
  apply scored_of_quiet
  exact hpath.guarded_invariant hdb.inv hseen (fun _ _ _ h hs hstep => inv_step h hs hstep) w hw

section Unseen

variable {db : ResumeDb} {file : BulkFile} {matched : ResumeRow} {campaign : HiringCampaign}

def withDuplicate (db : ResumeDb) (file : BulkFile) (matched : ResumeRow) : ResumeDb :=
  { db with
    toDb := (CampaignCandidateService.addCandidate db.toDb file.campaignId matched.candidateId
      matched.id file.uploadedBy none).1 }

theorem advance_duplicate (table : TransitionTable) (taskId : String) (now : Instant)
    (hcampaign : CampaignRepository.getById db.toDb file.campaignId = some campaign)
    (hactive : campaign.status = .active)
    (hunlisted : getByCampaignAndCandidate db file.campaignId
      matched.candidateId = none) :
    (duplicate file matched).advance table taskId now db =
      some (goOn (withDuplicate db file matched) .done) := by
  have hcreated : CampaignCandidateService.createCampaignCandidate db.toDb file.campaignId
      matched.candidateId matched.id file.uploadedBy none =
        .ok ((withDuplicate db file matched).toDb, db.campaignCandidates.next) :=
    createCampaignCandidate_eq_ok.mpr ⟨⟨campaign, hcampaign, hactive⟩, hunlisted, rfl⟩
  have hlink := normal_createCampaignCandidate hcreated
  have hrun : (linkDuplicate file matched).normal db =
      ⟨.ok .done, withDuplicate db file matched,
        [(.link, withDuplicate db file matched)], none⟩ := by
    rw [linkDuplicate, normal_query_bind, hunlisted]
    exact (normal_bind _ _ _ _ _ _ hlink).trans rfl
  change ofTask db (linkDuplicate file matched) = _
  rw [ofTask, hrun]
  rfl

-- Such a link to a parsed resume is never scored when nothing else sees it.
theorem not_scored_withDuplicate
    (hcampaign : CampaignRepository.getById db.toDb file.campaignId = some campaign)
    (hactive : campaign.status = .active)
    (hparsed : (observe db).Parsed matched.id)
    (hnew : ¬(observe db).scored db.campaignCandidates.next matched.id) :
    ¬Scored (withDuplicate db file matched) := by
  have hobserve : observe (withDuplicate db file matched) =
      (observe db).link db.campaignCandidates.next file.campaignId matched.id :=
    observe_linked db _ (CampaignCandidateService.newCandidate file.campaignId
      matched.candidateId matched.id _) rfl rfl rfl
  rw [scored_iff, hobserve]
  intro h
  apply hnew
  apply h db.campaignCandidates.next file.campaignId matched.id
  · exact Function.update_self _ _ _
  · exact ⟨campaign, hcampaign, hactive⟩
  · exact hparsed

end Unseen

def parsedDb : ResumeDb := ResumeService.updateParsedResult uploadedDb 0

def matchedFile : BulkFile where
  jobId := 0
  taskId := "bulk"
  storagePath := "bulk/first"
  fileFormat := .pdf
  fileHash := "first"
  emailHash := "candidate"
  uploadedBy := "recruiter"
  campaignId := 0

def storedResume (status : ParseStatus) (parserVersion : Option String) : ResumeRow :=
  { newVersion
      { candidateId := 0, filePath := "resume/first", fileFormat := .pdf, fileHash := "first",
        uploadedBy := "recruiter", bulkUploadJobId := none, taskId := some "first" } 1 0 with
    parseStatus := status, parserVersion := parserVersion }

def duplicateRun (db : ResumeDb) (matched : ResumeRow) : List (ScoringAction × ScoringWorld) :=
  [(.parseBulkFile matchedFile, ⟨db, [duplicate matchedFile matched]⟩),
   (.advance 0 "bulk" 0, ⟨withDuplicate db matchedFile matched, [.done]⟩)]

theorem settled_of_empty (db : ResumeDb) (hlinks : db.campaignCandidates.rows = [])
    (hlogs : db.taskLogs.rows = []) : Settled db where
  scored := by
    intro cc hcc
    rw [hlinks] at hcc
    simp at hcc
  labelled := by
    rintro cc r ⟨log, hlog, -⟩
    rw [hlogs] at hlog
    simp at hlog

theorem path_duplicateRun (db : ResumeDb) (matched : ResumeRow) (campaign : HiringCampaign)
    (hmatched : getByFileHashGlobal db matchedFile.fileHash = some matched)
    (hcampaign : CampaignRepository.getById db.toDb 0 = some campaign)
    (hactive : campaign.status = .active) (hlinks : db.campaignCandidates.rows = []) :
    Path (Step seededTransitions) ⟨db, []⟩ (duplicateRun db matched) := by
  have hunlisted : getByCampaignAndCandidate db
      matchedFile.campaignId matched.candidateId = none := by
    rw [getByCampaignAndCandidate, hlinks]
    rfl
  refine ⟨?_, ?_, trivial⟩
  · have hcheck : checkFile db matchedFile = duplicate matchedFile matched := by
      rw [checkFile, hmatched]
    rw [Step, hcheck]
    rfl
  · exact ⟨_, _, rfl, advance_duplicate seededTransitions "bulk" 0 hcampaign hactive hunlisted, rfl⟩

-- A bulk duplicate of a resume that is parsed already is linked and left.
theorem duplicate_left_unscored : ¬∀ (table : TransitionTable) (db : ResumeDb), Settled db →
      ∀ path : List (ScoringAction × ScoringWorld), Path (Step table) ⟨db, []⟩ path →
        ∀ w ∈ visited ⟨db, []⟩ path, Quiet w → Scored w.db := by
  intro h
  have hpath := path_duplicateRun parsedDb
    (storedResume .parsed (some ResumeService.parserVersion)) (openCampaign 0) rfl rfl rfl rfl
  have hscored := h seededTransitions parsedDb (settled_of_empty parsedDb rfl rfl) _ hpath _
    (final_mem_visited _ _) fun a ha => List.mem_singleton.mp ha
  have hcampaign : CampaignRepository.getById parsedDb.toDb matchedFile.campaignId =
      some (openCampaign 0) := rfl
  refine not_scored_withDuplicate hcampaign rfl ?_ ?_ hscored
  · exact ⟨some ResumeService.parserVersion, rfl⟩
  · rintro ⟨log, hlog, -⟩
    exact absurd hlog List.not_mem_nil

-- The same file while the resume is not parsed yet.
theorem linked_candidates_scored_pending : Settled uploadedDb ∧
      Path (Step seededTransitions) ⟨uploadedDb, []⟩ (duplicateRun uploadedDb (storedResume .pending none)) ∧
      EveryStep LinksSeen ⟨uploadedDb, []⟩ (duplicateRun uploadedDb (storedResume .pending none)) ∧
      ∀ w ∈ visited ⟨uploadedDb, []⟩ (duplicateRun uploadedDb (storedResume .pending none)),
        Quiet w → Scored w.db := by
  have hsettled : Settled uploadedDb := settled_of_empty uploadedDb rfl rfl
  have hpath := path_duplicateRun uploadedDb (storedResume .pending none) (openCampaign 0) rfl rfl
    rfl rfl
  have hseen : EveryStep LinksSeen ⟨uploadedDb, []⟩
      (duplicateRun uploadedDb (storedResume .pending none)) := by
    refine ⟨trivial, ?_, trivial⟩
    intro file matched hfile _ hparsed
    obtain ⟨-, rfl⟩ := Activity.duplicate.inj (Option.some.inj hfile)
    obtain ⟨version, hversion⟩ := hparsed
    exact absurd (Prod.mk.inj (Option.some.inj hversion)).1 (by decide)
  exact ⟨hsettled, hpath, hseen, linked_candidates_scored seededTransitions uploadedDb hsettled _ hpath hseen⟩

end ScoringWorld

end AiHiring
