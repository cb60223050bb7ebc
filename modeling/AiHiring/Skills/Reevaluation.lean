import AiHiring.Pipeline.Intake
import AiHiring.Skills.ReviewQueue

namespace AiHiring

open Library SkillRepository

-- `reevaluate_candidates_for_unknown_skill_task` and the message it is sent.
namespace Reevaluation

structure Message where
  resumeIds : List Uuid
  unknownSkillId : Uuid

-- The resumes whose rows a resolution migrates.
def affectedResumeIds (db : JdDatabase) (unknownSkillId : Uuid) : List Uuid :=
  ((getCandidateSkillsByUnknownSkillId db.toSkillStore unknownSkillId).map
    CandidateSkill.resumeId).dedup

-- One of the two calls that resolve an unknown skill.
inductive Resolution where
  | resolve (canonicalSkillId : Uuid) (resolutionType : UnknownSkillResolutionType)
  | createCanonical (fields : SkillCurationService.CanonicalFields)

def Resolution.run (lower : String → String) (db : JdDatabase) (unknownSkillId : Uuid) :
    Resolution → Except SkillError JdDatabase
  | resolve canonicalSkillId resolutionType =>
    SkillCurationService.resolveUnknownSkill lower db unknownSkillId canonicalSkillId resolutionType
  | createCanonical fields =>
    SkillCurationService.createCanonicalSkillFromUnknown lower db unknownSkillId fields

-- `_trigger_reevaluation` after an accepted resolution; the set has no order.
def Queued (lower : String → String) (db : JdDatabase) (unknownSkillId : Uuid)
    (resolution : Resolution) (message : Message) : Prop :=
  (∃ db', resolution.run lower db unknownSkillId = .ok db') ∧
    message.unknownSkillId = unknownSkillId ∧ message.resumeIds ≠ [] ∧
    message.resumeIds.Perm (affectedResumeIds db unknownSkillId)

-- What a delivery reads when it comes to a resume or to a campaign candidate, and the
-- calls that raise.
structure Delivery where
  campaignCandidates : Uuid → List CampaignCandidate
  candidate : Uuid → Option Candidate
  campaign : Uuid → Option HiringCampaign
  createRaises : Uuid → Bool
  dispatchRaises : Uuid → Bool

structure World where
  -- the idempotency keys of the committed task logs
  keys : List String
  -- the campaign candidates sent a DETERMINISTIC_SCORE for the unknown skill
  sent : List Uuid
  -- those whose row is committed and whose message was not sent
  unsent : List Uuid
  history : List Delivery
  -- no call of the last delivery has raised
  clean : Bool

def unseen (seen : List Uuid) : List CampaignCandidate → List CampaignCandidate
  | [] => []
  | cc :: rest => if cc.id ∈ seen then unseen seen rest else cc :: unseen (cc.id :: seen) rest

namespace Delivery

variable (delivery : Delivery)

def examined (resumeIds : List Uuid) : List CampaignCandidate :=
  unseen [] (resumeIds.flatMap delivery.campaignCandidates)

def allowed (cc : CampaignCandidate) : Bool :=
  (CandidateReEvaluationValidator.evaluate cc (delivery.candidate cc.id)
    (delivery.campaign cc.id)).allowed

end Delivery

def idempotencyKey (campaignCandidateId unknownSkillId : Uuid) : String :=
  s!"UNKNOWN_SKILL_REEVAL:{text campaignCandidateId}:{text unknownSkillId}"

def reevaluate (unknownSkillId : Uuid) (delivery : Delivery) :
    List CampaignCandidate → World → World
  | [], w => w
  | cc :: rest, w =>
    if !delivery.allowed cc then reevaluate unknownSkillId delivery rest w
    else if idempotencyKey cc.id unknownSkillId ∈ w.keys then
      reevaluate unknownSkillId delivery rest w
    -- the error of `create_log` ends the delivery
    else if delivery.createRaises cc.id then { w with clean := false }
    else
      let w := { w with keys := w.keys ++ [idempotencyKey cc.id unknownSkillId] }
      -- the one of `apply_async` is logged
      if delivery.dispatchRaises cc.id then
        reevaluate unknownSkillId delivery rest
          { w with unsent := w.unsent ++ [cc.id], clean := false }
      else
        reevaluate unknownSkillId delivery rest { w with sent := w.sent ++ [cc.id] }

def deliver (message : Message) (delivery : Delivery) (w : World) : World :=
  reevaluate message.unknownSkillId delivery (delivery.examined message.resumeIds)
    { w with history := w.history ++ [delivery], clean := true }

def Step (message : Message) (w : World) (delivery : Delivery) (w' : World) : Prop :=
  deliver message delivery w = w'

-- The candidate belongs to one of the resumes, and the validator does not refuse it.
def Delivery.Allows (delivery : Delivery) (message : Message) (affected : List Uuid)
    (ccId : Uuid) : Prop :=
  (∃ resumeId ∈ affected, ∃ cc ∈ delivery.campaignCandidates resumeId, cc.id = ccId) ∧
    ∀ cc ∈ delivery.examined message.resumeIds, cc.id = ccId → delivery.allowed cc = true

def World.AlwaysAllowed (w : World) (message : Message) (affected : List Uuid)
    (ccId : Uuid) : Prop :=
  ∀ delivery ∈ w.history, delivery.Allows message affected ccId

-- Nobody is sent two messages, and after a delivery without a failing call everybody
-- who was allowed at every delivery has been sent one.
structure RescoredOnce (message : Message) (affected : List Uuid) (w : World) : Prop where
  atMostOnce : w.sent.Nodup
  complete : w.clean = true → ∀ ccId, w.AlwaysAllowed message affected ccId → ccId ∈ w.sent

-- The delivery does not pass for complete while somebody who was always allowed waits
-- for a message that was never sent.
def NothingLost (message : Message) (affected : List Uuid) (w : World) (_ : Delivery)
    (w' : World) : Prop :=
  w'.clean = true → ∀ ccId ∈ w.unsent, ¬w'.AlwaysAllowed message affected ccId

-- The rows of the unknown skill are those of the messages sent and of the lost ones.
structure Recorded (unknownSkillId : Uuid) (w : World) : Prop where
  once : w.sent.Nodup
  apart : ∀ ccId ∈ w.sent, ccId ∉ w.unsent
  keys : ∀ ccId, idempotencyKey ccId unknownSkillId ∈ w.keys ↔ ccId ∈ w.sent ∨ ccId ∈ w.unsent

-- The message is not delivered yet; an earlier one for the unknown skill may have been.
structure Undelivered (unknownSkillId : Uuid) (w : World) : Prop where
  recorded : Recorded unknownSkillId w
  history : w.history = []
  clean : w.clean = false

section Steps

variable {unknownSkillId : Uuid} {delivery : Delivery} {w : World}

theorem idempotencyKey_toList (ccId unknownSkillId : Uuid) :
    (idempotencyKey ccId unknownSkillId).toList =
      "UNKNOWN_SKILL_REEVAL:".toList ++ ((text ccId).toList ++ (":".toList ++
        (text unknownSkillId).toList)) := by
  have hkey : idempotencyKey ccId unknownSkillId =
      "UNKNOWN_SKILL_REEVAL:" ++ text ccId ++ ":" ++ text unknownSkillId := rfl
  simp only [hkey, String.toList_append, List.append_assoc]

theorem idempotencyKey_inj {ccId other : Uuid} :
    idempotencyKey ccId unknownSkillId = idempotencyKey other unknownSkillId ↔ ccId = other := by
  rw [← String.toList_inj, idempotencyKey_toList, idempotencyKey_toList,
    List.append_cancel_left_eq, List.append_cancel_right_eq, String.toList_inj, text_inj]

theorem Recorded.add (h : Recorded unknownSkillId w) (ccId other : Uuid) :
    idempotencyKey other unknownSkillId ∈ w.keys ++ [idempotencyKey ccId unknownSkillId] ↔
      other ∈ w.sent ∨ other ∈ w.unsent ∨ other = ccId := by
  rw [List.mem_append, List.mem_singleton, h.keys, idempotencyKey_inj, or_assoc]

theorem Recorded.sends (h : Recorded unknownSkillId w) {ccId : Uuid}
    (hnew : idempotencyKey ccId unknownSkillId ∉ w.keys) :
    Recorded unknownSkillId { w with
      keys := w.keys ++ [idempotencyKey ccId unknownSkillId]
      sent := w.sent ++ [ccId] } := by
  have hnone := mt (h.keys ccId).mpr hnew
  rw [not_or] at hnone
  refine ⟨?_, ?_, ?_⟩
  · rw [List.nodup_append]
    refine ⟨h.once, List.nodup_singleton _, fun a ha b hb hab => ?_⟩
    rw [List.mem_singleton.mp hb] at hab
    exact hnone.1 (hab ▸ ha)
  · intro other hother
    obtain hold | hlast := List.mem_append.mp hother
    · exact h.apart other hold
    · rw [List.mem_singleton.mp hlast]
      exact hnone.2
  · intro other
    rw [h.add, List.mem_append, List.mem_singleton]
    tauto

theorem Recorded.loses (h : Recorded unknownSkillId w) {ccId : Uuid}
    (hnew : idempotencyKey ccId unknownSkillId ∉ w.keys) :
    Recorded unknownSkillId { w with
      keys := w.keys ++ [idempotencyKey ccId unknownSkillId]
      unsent := w.unsent ++ [ccId]
      clean := false } := by
  have hnone := mt (h.keys ccId).mpr hnew
  rw [not_or] at hnone
  refine ⟨h.once, ?_, ?_⟩
  · intro other hother hunsent
    obtain hold | hlast := List.mem_append.mp hunsent
    · exact h.apart other hother hold
    · rw [List.mem_singleton.mp hlast] at hother
      exact hnone.1 hother
  · intro other
    rw [h.add, List.mem_append, List.mem_singleton]

-- What a delivery does from one of its candidates on.
structure Goes (unknownSkillId : Uuid) (delivery : Delivery) (batch : List CampaignCandidate)
    (w w' : World) : Prop where
  recorded : Recorded unknownSkillId w'
  history : w'.history = w.history
  kept : ∀ key ∈ w.keys, key ∈ w'.keys
  clean : w'.clean = true → w.clean = true ∧ w'.unsent = w.unsent ∧
    ∀ cc ∈ batch, delivery.allowed cc = true → idempotencyKey cc.id unknownSkillId ∈ w'.keys

theorem reevaluate_goes (batch : List CampaignCandidate) (h : Recorded unknownSkillId w) :
    Goes unknownSkillId delivery batch w (reevaluate unknownSkillId delivery batch w) := by
  induction batch generalizing w with
  | nil => exact ⟨h, rfl, fun _ hkey => hkey, fun hclean => ⟨hclean, rfl, by simp⟩⟩
  | cons cc rest ih =>
    rw [reevaluate]
    split_ifs with hallowed hrow hcreate hdispatch
    · have hrest := ih h
      refine ⟨hrest.recorded, hrest.history, hrest.kept, fun hclean => ?_⟩
      obtain ⟨hbefore, hunsent, hkeys⟩ := hrest.clean hclean
      refine ⟨hbefore, hunsent, List.forall_mem_cons.mpr ⟨fun hyes => ?_, hkeys⟩⟩
      simp [hyes] at hallowed
    · have hrest := ih h
      refine ⟨hrest.recorded, hrest.history, hrest.kept, fun hclean => ?_⟩
      obtain ⟨hbefore, hunsent, hkeys⟩ := hrest.clean hclean
      exact ⟨hbefore, hunsent, List.forall_mem_cons.mpr ⟨fun _ => hrest.kept _ hrow, hkeys⟩⟩
    · exact ⟨⟨h.once, h.apart, h.keys⟩, rfl, fun _ hkey => hkey, fun hclean => nomatch hclean⟩
    · have hrest := ih (h.loses hrow)
      refine ⟨hrest.recorded, hrest.history, ?_, fun hclean => ?_⟩
      · intro key hkey
        exact hrest.kept key (List.mem_append_left _ hkey)
      · exact absurd (hrest.clean hclean).1 (by simp)
    · have hrest := ih (h.sends hrow)
      refine ⟨hrest.recorded, hrest.history, ?_, fun hclean => ?_⟩
      · intro key hkey
        exact hrest.kept key (List.mem_append_left _ hkey)
      · obtain ⟨hbefore, hunsent, hkeys⟩ := hrest.clean hclean
        refine ⟨hbefore, hunsent, List.forall_mem_cons.mpr ⟨fun _ => ?_, hkeys⟩⟩
        exact hrest.kept _ (List.mem_append_right _ (List.mem_singleton_self _))

theorem mem_unseen (ccId : Uuid) (seen : List Uuid) (batch : List CampaignCandidate) :
    ccId ∈ (unseen seen batch).map CampaignCandidate.id ↔
      ccId ∈ batch.map CampaignCandidate.id ∧ ccId ∉ seen := by
  induction batch generalizing seen with
  | nil => simp [unseen]
  | cons cc rest ih =>
    rw [unseen]
    by_cases hseen : cc.id ∈ seen
    · rw [if_pos hseen, ih, List.map_cons, List.mem_cons]
      constructor
      · exact fun h => ⟨.inr h.1, h.2⟩
      · rintro ⟨rfl | hrest, hnew⟩
        · exact absurd hseen hnew
        · exact ⟨hrest, hnew⟩
    · rw [if_neg hseen, List.map_cons, List.mem_cons, ih, List.map_cons, List.mem_cons,
        List.mem_cons, not_or]
      constructor
      · rintro (rfl | ⟨hrest, -, hnew⟩)
        · exact ⟨.inl rfl, hseen⟩
        · exact ⟨.inr hrest, hnew⟩
      · rintro ⟨rfl | hrest, hnew⟩
        · exact .inl rfl
        · by_cases hid : ccId = cc.id
          · exact .inl hid
          · exact .inr ⟨hrest, hid, hnew⟩

theorem Delivery.exists_examined {resumeIds : List Uuid} {resumeId ccId : Uuid}
    (hresume : resumeId ∈ resumeIds)
    (h : ∃ cc ∈ delivery.campaignCandidates resumeId, cc.id = ccId) :
    ∃ cc ∈ delivery.examined resumeIds, cc.id = ccId := by
  obtain ⟨cc, hcc, hid⟩ := h
  refine List.mem_map.mp ((mem_unseen ccId [] _).mpr ⟨?_, List.not_mem_nil⟩)
  exact List.mem_map.mpr ⟨cc, List.mem_flatMap.mpr ⟨resumeId, hresume, hcc⟩, hid⟩

variable {message : Message} {affected : List Uuid} {w' : World}

theorem deliver_goes (h : Recorded message.unknownSkillId w) :
    Goes message.unknownSkillId delivery (delivery.examined message.resumeIds)
      { w with history := w.history ++ [delivery], clean := true } (deliver message delivery w) :=
  have hbegins : Recorded message.unknownSkillId
      { w with history := w.history ++ [delivery], clean := true } := ⟨h.once, h.apart, h.keys⟩
  reevaluate_goes _ hbegins

theorem recorded_step (h : Recorded message.unknownSkillId w)
    (hstep : Step message w delivery w') : Recorded message.unknownSkillId w' := by
  rw [← hstep]
  exact (deliver_goes h).recorded

-- A candidate that was always allowed has its row once the delivery is through, so it
-- can only miss its message by a dispatch that failed before.
theorem rescoredOnce_step (haffected : ∀ resumeId ∈ affected, resumeId ∈ message.resumeIds)
    (h : Recorded message.unknownSkillId w) (hstep : Step message w delivery w') :
    RescoredOnce message affected w' ↔ NothingLost message affected w delivery w' := by
  have hgoes : Goes message.unknownSkillId delivery (delivery.examined message.resumeIds)
      { w with history := w.history ++ [delivery], clean := true } w' :=
    hstep ▸ deliver_goes h
  constructor
  · intro hrescored hclean ccId hlost halways
    have hsent := hrescored.complete hclean ccId halways
    rw [← (hgoes.clean hclean).2.1] at hlost
    exact hgoes.recorded.apart ccId hsent hlost
  · intro hlost
    refine ⟨hgoes.recorded.once, fun hclean ccId halways => ?_⟩
    obtain ⟨-, hunsent, hkeys⟩ := hgoes.clean hclean
    have hlast : delivery ∈ w'.history := by
      rw [hgoes.history]
      exact List.mem_append_right _ (List.mem_singleton_self _)
    obtain ⟨⟨resumeId, hresume, hbelongs⟩, hallowed⟩ := halways delivery hlast
    obtain ⟨cc, hexamined, rfl⟩ := Delivery.exists_examined (haffected resumeId hresume) hbelongs
    have hkey := hkeys cc hexamined (hallowed cc hexamined rfl)
    obtain hsent | hwaits := (hgoes.recorded.keys cc.id).mp hkey
    · exact hsent
    · rw [hunsent] at hwaits
      exact absurd halways (hlost hclean cc.id hwaits)

theorem rescoredOnce_iff_nothingLost (lower : String → String) (db : JdDatabase)
    (unknownSkillId : Uuid) (resolution : Resolution) (message : Message) (start : World)
    (path : List (Delivery × World)) (hqueued : Queued lower db unknownSkillId resolution message)
    (hstart : Undelivered unknownSkillId start) (hp : Path (Step message) start path) :
    (∀ w ∈ visited start path, RescoredOnce message (affectedResumeIds db unknownSkillId) w) ↔
      EveryStep (NothingLost message (affectedResumeIds db unknownSkillId)) start path := by
  obtain ⟨-, rfl, -, hperm⟩ := hqueued
  apply hp.visited_iff_everyStep hstart.recorded
  · exact fun w delivery w' h hstep => recorded_step h hstep
  · refine ⟨hstart.recorded.once, fun hclean => ?_⟩
    rw [hstart.clean] at hclean
    cases hclean
  · intro w delivery w' h _ hstep
    exact rescoredOnce_step (fun resumeId hresume => hperm.mem_iff.mpr hresume) h hstep

end Steps

def withUnknownSkill : JdDatabase :=
  final SkillRun.noSkills (SkillRun.skillRun [.persistResume (SkillRun.unmatchedResume 0 "Go")])

def goMessage : Message := ⟨[0], 0⟩

theorem goMessage_queued :
    Queued id withUnknownSkill 0 (.createCanonical SkillCurationService.bulkFields) goMessage :=
  ⟨⟨_, rfl⟩, rfl, by decide, by decide +kernel⟩

def goDelivery (dispatchRaises : Bool) : Delivery where
  campaignCandidates _ := [CampaignCandidateService.newCandidate 0 0 0 0]
  candidate _ := some ⟨false⟩
  campaign _ := some (openCampaign 0)
  createRaises _ := false
  dispatchRaises _ := dispatchRaises

def undelivered : World := ⟨[], [], [], [], false⟩

theorem undelivered_undelivered : Undelivered 0 undelivered := by
  refine ⟨⟨List.nodup_nil, by simp [undelivered], ?_⟩, rfl, rfl⟩
  intro ccId
  simp [undelivered]

def goDelivered (w : World) (delivery : Delivery) : Option World :=
  some (deliver goMessage delivery w)

def goRun (batch : List Delivery) : List (Delivery × World) :=
  execute goDelivered undelivered batch

theorem goRun_path (batch : List Delivery) : Path (Step goMessage) undelivered (goRun batch) :=
  execute_path goDelivered (fun _ _ _ h => Option.some.inj h) undelivered batch

theorem rescoredOnce_goRun : RescoredOnce goMessage (affectedResumeIds withUnknownSkill 0)
      (final undelivered (goRun [goDelivery false, goDelivery false])) := by
  apply (rescoredOnce_iff_nothingLost id withUnknownSkill 0 _ goMessage undelivered _
    goMessage_queued undelivered_undelivered (goRun_path _)).mpr _ _ (final_mem_visited _ _)
  refine ⟨?_, ?_, trivial⟩
  · intro _ ccId hlost
    exact absurd hlost List.not_mem_nil
  · intro _ ccId hlost
    exact absurd hlost List.not_mem_nil

-- The dispatch of the first delivery raises after the row is committed, and the second
-- delivery skips the candidate by that row.
theorem lost_dispatch : ¬∀ (lower : String → String) (db : JdDatabase) (unknownSkillId : Uuid)
      (resolution : Resolution) (message : Message) (start : World)
      (path : List (Delivery × World)),
      Queued lower db unknownSkillId resolution message → Undelivered unknownSkillId start →
      Path (Step message) start path →
      ∀ w ∈ visited start path, RescoredOnce message (affectedResumeIds db unknownSkillId) w := by
  intro h
  have hall := h id withUnknownSkill 0 _ goMessage undelivered
    (goRun [goDelivery true, goDelivery false]) goMessage_queued undelivered_undelivered
    (goRun_path _)
  have hrescored := hall _ (final_mem_visited _ _)
  have hsent : 0 ∈ (final undelivered (goRun [goDelivery true, goDelivery false])).sent := by
    refine hrescored.complete (by decide +kernel) 0 fun delivery hdelivery => ?_
    have hhistory : (final undelivered (goRun [goDelivery true, goDelivery false])).history =
        [goDelivery true, goDelivery false] := rfl
    rw [hhistory] at hdelivery
    have hallows (dispatchRaises : Bool) : (goDelivery dispatchRaises).Allows goMessage
        (affectedResumeIds withUnknownSkill 0) 0 := by
      refine ⟨⟨0, by decide +kernel, _, List.mem_singleton_self _, rfl⟩, ?_⟩
      intro cc hcc _
      obtain rfl := List.mem_singleton.mp hcc
      rfl
    simp only [List.mem_cons, List.not_mem_nil, or_false] at hdelivery
    obtain rfl | rfl := hdelivery
    · exact hallows true
    · exact hallows false
  exact absurd hsent (by decide +kernel)

end Reevaluation

end AiHiring
