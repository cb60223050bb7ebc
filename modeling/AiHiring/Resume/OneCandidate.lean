import AiHiring.Resume.CandidateIntake

namespace AiHiring

open Library

namespace CandidateIntake

-- The candidate and the consent written together.
def Phase.pair : Phase → Option (CandidateRow × ConsentRow)
  | .auditing row consent | .committing row consent _ => some (row, consent)
  | _ => none

def Apart (a b : Call) : Prop :=
  ∀ row row', a.phase.held = some row → b.phase.held = some row' →
    row.emailHash ≠ row'.emailHash ∧ row.id ≠ row'.id

theorem Apart.symm {a b : Call} (h : Apart a b) : Apart b a := by
  intro row row' hrow hrow'
  obtain ⟨hhash, hid⟩ := h row' row hrow' hrow
  exact ⟨Ne.symm hhash, Ne.symm hid⟩

section Service

variable (md5 lower : String → String)

structure WellFormed (w : World) : Prop where
  hashes : (w.earlierCandidates.map CandidateRow.emailHash).Nodup
  ids : (w.earlierCandidates.map CandidateRow.id).Nodup
  rows : ∀ row ∈ w.earlierCandidates, row.id < w.nextId ∧
    row.emailHash = generateHash md5 lower row.email
  references : ∀ consent ∈ w.earlierConsents, ∃ row ∈ w.earlierCandidates,
    row.id = consent.candidateId
  creations : w.creations = []
  calls : w.calls = []

-- What holds whatever the calls do; `emails` are those that the tables and the calls
-- bring in.
structure Inv (emails : String → Prop) (w : World) : Prop where
  hashes : (w.candidates.map CandidateRow.emailHash).Nodup
  ids : (w.candidates.map CandidateRow.id).Nodup
  apart : AllApart Apart w.calls
  uncommitted : ∀ call ∈ w.calls, ∀ row, call.phase.held = some row → row.id < w.nextId ∧
    ∀ other ∈ w.candidates, other.emailHash ≠ row.emailHash ∧ other.id ≠ row.id
  rows : ∀ row ∈ w.candidates, row.id < w.nextId ∧
    row.emailHash = generateHash md5 lower row.email ∧ emails row.email
  requests : ∀ call ∈ w.calls, emails call.request.email
  drafts : ∀ call ∈ w.calls, ∀ row, call.phase.held = some row →
    row.email = call.request.email ∧ row.emailHash = generateHash md5 lower call.request.email
  pairs : ∀ call ∈ w.calls, ∀ row consent, call.phase.pair = some (row, consent) →
    consent.candidateId = row.id ∧ consent.consentGiven = true
  answers : ∀ call ∈ w.calls, ∀ row, call.phase = .returned row → row ∈ w.candidates ∧
    row.emailHash = generateHash md5 lower call.request.email
  authors : ∀ creation ∈ w.creations, ∃ call row, w.calls[creation.call]? = some call ∧
    call.phase = .returned row
  paired : ∀ creation ∈ w.creations, creation.candidate.consentGiven = true ∧
    creation.consent.candidateId = creation.candidate.id ∧ creation.consent.consentGiven = true
  references : ∀ consent ∈ w.earlierConsents, ∃ row ∈ w.earlierCandidates,
    row.id = consent.candidateId

section Steps

variable {md5 lower} {emails : String → Prop} {w : World} {i : ℕ} {call : Call} {phase : Phase}

theorem getByEmailHash_some {emailHash : String} {row : CandidateRow}
    (h : w.getByEmailHash emailHash = some row) :
    row ∈ w.candidates ∧ row.emailHash = emailHash := by
  have hselected := List.find?_some h
  exact ⟨List.mem_of_find?_eq_some h, of_decide_eq_true hselected⟩

theorem getByEmailHash_none {emailHash : String} (h : w.getByEmailHash emailHash = none) :
    ∀ row ∈ w.candidates, row.emailHash ≠ emailHash := by
  intro row hrow heq
  exact List.find?_eq_none.mp h row hrow (decide_eq_true heq)

theorem Inv.authors_set (h : Inv md5 lower emails w) (hi : w.calls[i]? = some call)
    (hlive : call.phase.live = true) (next : Call) (creation : Creation)
    (hcreation : creation ∈ w.creations) :
    ∃ author row, (w.calls.set i next)[creation.call]? = some author ∧
      author.phase = .returned row := by
  obtain ⟨author, row, hauthor, hreturned⟩ := h.authors creation hcreation
  have hne : i ≠ creation.call := by
    intro heq
    rw [← heq, hi] at hauthor
    cases hauthor
    rw [hreturned] at hlive
    cases hlive
  exact ⟨author, row, (List.getElem?_set_ne hne).trans hauthor, hreturned⟩

theorem Inv.move (h : Inv md5 lower emails w) (hi : w.calls[i]? = some call)
    (hlive : call.phase.live = true)
    (hheld : ∀ row, phase.held = some row → call.phase.held = some row)
    (hpair : ∀ row consent, phase.pair = some (row, consent) →
      consent.candidateId = row.id ∧ consent.consentGiven = true)
    (hanswer : ∀ row, phase = .returned row → row ∈ w.candidates ∧
      row.emailHash = generateHash md5 lower call.request.email) :
    Inv md5 lower emails (w.move i call phase) := by
  have hcall : call ∈ w.calls := List.mem_of_getElem? hi
  refine ⟨h.hashes, h.ids, ?_, ?_, h.rows, ?_, ?_, ?_, ?_, h.authors_set hi hlive _, h.paired,
    h.references⟩
  · refine h.apart.set (fun a b hab => hab.symm) fun j b hij hj row row' hrow hrow' => ?_
    exact h.apart i j call b hij hi hj row row' (hheld row hrow) hrow'
  · refine forall_mem_set h.uncommitted fun row hrow => ?_
    exact h.uncommitted call hcall row (hheld row hrow)
  · exact forall_mem_set h.requests (h.requests call hcall)
  · refine forall_mem_set h.drafts fun row hrow => ?_
    exact h.drafts call hcall row (hheld row hrow)
  · exact forall_mem_set h.pairs hpair
  · exact forall_mem_set h.answers hanswer

theorem Inv.bump (h : Inv md5 lower emails w) :
    Inv md5 lower emails { w with nextId := w.nextId + 1 } := by
  refine ⟨h.hashes, h.ids, h.apart, ?_, ?_, h.requests, h.drafts, h.pairs, h.answers, h.authors,
    h.paired, h.references⟩
  · intro other hother row hrow
    obtain ⟨hlt, hnew⟩ := h.uncommitted other hother row hrow
    exact ⟨Nat.lt_succ_of_lt hlt, hnew⟩
  · intro row hrow
    obtain ⟨hlt, hrest⟩ := h.rows row hrow
    exact ⟨Nat.lt_succ_of_lt hlt, hrest⟩

-- An INSERT that nobody else stands in the way of.
theorem Inv.insert (h : Inv md5 lower emails w) (hi : w.calls[i]? = some call)
    (encryptionKeyId : Uuid)
    (hfree : ∀ other ∈ w.calls, ∀ row, other.phase.held = some row →
      row.emailHash ≠ generateHash md5 lower call.request.email)
    (hnew : ∀ row ∈ w.candidates, row.emailHash ≠ generateHash md5 lower call.request.email)
    (hlive : call.phase.live = true) :
    Inv md5 lower emails ({ w with nextId := w.nextId + 1 }.move i call (.refreshing
      (buildEncryptedCandidate md5 lower call.request encryptionKeyId w.nextId))) := by
  have hcall : call ∈ w.calls := List.mem_of_getElem? hi
  refine ⟨h.hashes, h.ids, ?_, ?_, h.bump.rows, ?_, ?_, ?_, ?_, h.authors_set hi hlive _, h.paired,
    h.references⟩
  · refine h.apart.set (fun a b hab => hab.symm) fun j b hij hj inserted other hrow hother => ?_
    cases hrow
    have hb := List.mem_of_getElem? hj
    have hbelow := (h.uncommitted b hb other hother).1
    exact ⟨(hfree b hb other hother).symm, hbelow.ne'⟩
  · refine forall_mem_set h.bump.uncommitted fun inserted hrow => ?_
    cases hrow
    refine ⟨Nat.lt_succ_self _, fun stored hstored => ?_⟩
    exact ⟨hnew stored hstored, (h.rows stored hstored).1.ne⟩
  · exact forall_mem_set h.requests (h.requests call hcall)
  · refine forall_mem_set h.drafts fun inserted hrow => ?_
    cases hrow
    exact ⟨rfl, rfl⟩
  · refine forall_mem_set h.pairs fun inserted consent hrow => ?_
    cases hrow
  · refine forall_mem_set h.answers fun inserted hrow => ?_
    cases hrow

theorem Inv.commit (h : Inv md5 lower emails w) (hi : w.calls[i]? = some call)
    {row : CandidateRow} {consent : ConsentRow} {entry : ConsentRecorded}
    (hphase : call.phase = .committing row consent entry) (now : Instant) :
    let creation : Creation := ⟨i, consented call.request row now, consent, entry⟩
    Inv md5 lower emails ({ w with creations := w.creations ++ [creation] }.move i call
      (.returned creation.candidate)) := by
  intro creation
  have hcall : call ∈ w.calls := List.mem_of_getElem? hi
  have hlive : call.phase.live = true := by
    rw [hphase]
    rfl
  have hheld : call.phase.held = some row := by
    rw [hphase]
    rfl
  obtain ⟨hbelow, hnew⟩ := h.uncommitted call hcall row hheld
  obtain ⟨hemail, hhash⟩ := h.drafts call hcall row hheld
  obtain ⟨hpair, hgiven⟩ := h.pairs call hcall row consent (by rw [hphase]; rfl)
  have hcandidates : ({ w with creations := w.creations ++ [creation] }.move i call
      (.returned creation.candidate)).candidates = w.candidates ++ [creation.candidate] := by
    simp [World.move, World.candidates]
  have hin {other : CandidateRow} (hother : other ∈ w.candidates) :
      other ∈ w.candidates ++ [creation.candidate] := List.mem_append_left _ hother
  refine ⟨?_, ?_, ?_, ?_, ?_, ?_, ?_, ?_, ?_, ?_, ?_, h.references⟩
  · rw [hcandidates, List.map_append, List.nodup_append]
    refine ⟨h.hashes, List.nodup_singleton _, fun a ha b hb hab => ?_⟩
    obtain ⟨other, hother, rfl⟩ := List.mem_map.mp ha
    obtain rfl := List.mem_singleton.mp hb
    exact (hnew other hother).1 hab
  · rw [hcandidates, List.map_append, List.nodup_append]
    refine ⟨h.ids, List.nodup_singleton _, fun a ha b hb hab => ?_⟩
    obtain ⟨other, hother, rfl⟩ := List.mem_map.mp ha
    obtain rfl := List.mem_singleton.mp hb
    exact (hnew other hother).2 hab
  · refine h.apart.set (fun a b hab => hab.symm) fun j b hij hj inserted other hrow hother => ?_
    cases hrow
  · intro other hother inserted hrow
    obtain rfl | ⟨j, hij, hj⟩ := mem_set_other hother
    · cases hrow
    · obtain ⟨hlt, hapart⟩ := h.uncommitted other (List.mem_of_getElem? hj) inserted hrow
      refine ⟨hlt, fun stored hstored => ?_⟩
      rw [hcandidates, List.mem_append, List.mem_singleton] at hstored
      obtain hold | rfl := hstored
      · exact hapart stored hold
      · exact h.apart i j call other hij hi hj row inserted hheld hrow
  · intro stored hstored
    rw [hcandidates, List.mem_append, List.mem_singleton] at hstored
    obtain hold | rfl := hstored
    · exact h.rows stored hold
    · refine ⟨hbelow, ?_, ?_⟩
      · change row.emailHash = generateHash md5 lower row.email
        rw [hemail, hhash]
      · change emails row.email
        rw [hemail]
        exact h.requests call hcall
  · exact forall_mem_set h.requests (h.requests call hcall)
  · refine forall_mem_set h.drafts fun inserted hrow => ?_
    cases hrow
  · refine forall_mem_set h.pairs fun inserted consent hrow => ?_
    cases hrow
  · intro other hother stored hstored
    rw [hcandidates]
    obtain rfl | hold := mem_of_mem_set hother
    · obtain rfl := Phase.returned.inj hstored
      exact ⟨List.mem_append_right _ (List.mem_singleton_self _), hhash⟩
    · obtain ⟨hmem, hsame⟩ := h.answers other hold stored hstored
      exact ⟨hin hmem, hsame⟩
  · intro other hother
    obtain hold | hlast := List.mem_append.mp hother
    · exact h.authors_set hi hlive _ other hold
    · obtain rfl := List.mem_singleton.mp hlast
      obtain ⟨hlt, -⟩ := List.getElem?_eq_some_iff.mp hi
      exact ⟨_, creation.candidate, List.getElem?_set_self hlt, rfl⟩
  · exact forall_mem_hire h.paired ⟨rfl, hpair, hgiven⟩

theorem Inv.hire (h : Inv md5 lower emails w) (request : Request) (hemail : emails request.email) :
    Inv md5 lower emails { w with calls := w.calls ++ [⟨request, .selecting⟩] } := by
  refine ⟨h.hashes, h.ids, ?_, ?_, h.rows, ?_, ?_, ?_, ?_, ?_, h.paired, h.references⟩
  · refine h.apart.hire (fun a b hab => hab.symm) fun b _ row row' hrow => ?_
    cases hrow
  -- the new call holds nothing yet
  · refine forall_mem_hire h.uncommitted fun row hrow => ?_
    cases hrow
  · exact forall_mem_hire h.requests hemail
  · refine forall_mem_hire h.drafts fun row hrow => ?_
    cases hrow
  · refine forall_mem_hire h.pairs fun row consent hrow => ?_
    cases hrow
  · refine forall_mem_hire h.answers fun row hrow => ?_
    cases hrow
  · intro creation hcreation
    obtain ⟨author, row, hauthor, hreturned⟩ := h.authors creation hcreation
    obtain ⟨hlt, -⟩ := List.getElem?_eq_some_iff.mp hauthor
    exact ⟨author, row, (List.getElem?_append_left hlt).trans hauthor, hreturned⟩

theorem Inv.answered (h : Inv md5 lower emails w) (hi : w.calls[i]? = some call)
    (hlive : call.phase.live = true) {existing : CandidateRow}
    (hfound : w.getByEmailHash (generateHash md5 lower call.request.email) = some existing) :
    Inv md5 lower emails (w.move i call (answer existing)) := by
  have hnone : (answer existing).held = none ∧ (answer existing).pair = none := by
    unfold answer
    split_ifs <;> exact ⟨rfl, rfl⟩
  refine h.move hi hlive ?_ ?_ ?_
  · intro row hrow
    rw [hnone.1] at hrow
    cases hrow
  · intro row consent hrow
    rw [hnone.2] at hrow
    cases hrow
  · intro row hrow
    unfold answer at hrow
    split_ifs at hrow
    obtain rfl := Phase.returned.inj hrow
    exact getByEmailHash_some hfound

theorem Inv.leave (h : Inv md5 lower emails w) (hi : w.calls[i]? = some call)
    (hlive : call.phase.live = true) (hheld : phase.held = none) (hpair : phase.pair = none)
    (hreturned : ∀ row, phase ≠ .returned row) : Inv md5 lower emails (w.move i call phase) := by
  refine h.move hi hlive ?_ ?_ ?_
  · intro row hrow
    rw [hheld] at hrow
    cases hrow
  · intro row consent hrow
    rw [hpair] at hrow
    cases hrow
  · intro row hrow
    exact absurd hrow (hreturned row)

theorem Inv.runStatement (h : Inv md5 lower emails w) (hi : w.calls[i]? = some call)
    {reading : Reading} {w' : World}
    (hstep : runStatement md5 lower w i call reading = some w') : Inv md5 lower emails w' := by
  have hcall : call ∈ w.calls := List.mem_of_getElem? hi
  simp only [CandidateIntake.runStatement] at hstep
  cases hphase : call.phase with
  | selecting =>
    have hlive : call.phase.live = true := by rw [hphase]; rfl
    rw [hphase] at hstep
    cases hfound : w.getByEmailHash (generateHash md5 lower call.request.email) with
    | some existing =>
      simp only [hfound, Option.some.injEq] at hstep
      exact hstep ▸ h.answered hi hlive hfound
    | none =>
      simp only [hfound, Option.some.injEq] at hstep
      exact hstep ▸ h.leave hi hlive rfl rfl (fun row hrow => nomatch hrow)
  | encrypting =>
    have hlive : call.phase.live = true := by rw [hphase]; rfl
    simp only [hphase, Option.some.injEq] at hstep
    exact hstep ▸ h.leave hi hlive rfl rfl (fun row hrow => nomatch hrow)
  | inserting encryptionKeyId =>
    have hlive : call.phase.live = true := by rw [hphase]; rfl
    simp only [hphase] at hstep
    split_ifs at hstep with hwaits hexists
    · cases hstep
      exact h.leave hi hlive rfl rfl (fun row hrow => nomatch hrow)
    · cases hstep
      refine h.insert hi encryptionKeyId ?_ ?_ hlive
      · intro other hother row hrow heq
        refine hwaits (List.any_eq_true.mpr ⟨other, hother, ?_⟩)
        simp [holds, hrow, heq]
      · exact getByEmailHash_none (by simpa using hexists)
  | rereading =>
    have hlive : call.phase.live = true := by rw [hphase]; rfl
    rw [hphase] at hstep
    cases hfound : w.getByEmailHash (generateHash md5 lower call.request.email) with
    | some existing =>
      simp only [hfound, Option.some.injEq] at hstep
      exact hstep ▸ h.answered hi hlive hfound
    | none =>
      simp only [hfound, Option.some.injEq] at hstep
      exact hstep ▸ h.leave hi hlive rfl rfl (fun row hrow => nomatch hrow)
  | refreshing row =>
    have hlive : call.phase.live = true := by rw [hphase]; rfl
    simp only [hphase, Option.some.injEq] at hstep
    refine hstep ▸ h.move hi hlive ?_ (fun other consent hpair => nomatch hpair)
      (fun other hother => nomatch hother)
    intro other hother
    rw [hphase]
    exact hother
  | consenting row =>
    have hlive : call.phase.live = true := by rw [hphase]; rfl
    simp only [hphase, Option.some.injEq] at hstep
    refine hstep ▸ h.bump.move hi hlive ?_ ?_ (fun other hother => nomatch hother)
    · intro other hother
      rw [hphase]
      exact hother
    · intro other consent hpair
      cases hpair
      exact ⟨rfl, rfl⟩
  | auditing row consent =>
    have hlive : call.phase.live = true := by rw [hphase]; rfl
    simp only [hphase, Option.some.injEq] at hstep
    refine hstep ▸ h.move hi hlive ?_ ?_ (fun other hother => nomatch hother)
    · intro other hother
      rw [hphase]
      exact hother
    · intro other otherConsent hpair
      exact h.pairs call hcall other otherConsent (by rw [hphase]; exact hpair)
  | committing row consent entry =>
    simp only [hphase, Option.some.injEq] at hstep
    exact hstep ▸ h.commit hi hphase reading.now
  | returned row =>
    rw [hphase] at hstep
    cases hstep
  | raised =>
    rw [hphase] at hstep
    cases hstep

theorem Inv.step (h : Inv md5 lower emails w) {event : Event} {w' : World}
    (hemails : ∀ request, event = .call request → emails request.email)
    (hstep : Step md5 lower w event w') : Inv md5 lower emails w' := by
  unfold Step at hstep
  cases event with
  | call request =>
    cases hstep
    exact h.hire request (hemails request rfl)
  | run i reading =>
    cases hi : w.calls[i]? with
    | none => simp [next?, hi] at hstep
    | some call =>
      simp only [next?, hi] at hstep
      exact h.runStatement hi hstep
  | violate i =>
    cases hi : w.calls[i]? with
    | none => simp [next?, hi] at hstep
    | some call =>
      simp only [next?, hi] at hstep
      cases hphase : call.phase with
      | inserting encryptionKeyId =>
        simp only [hphase, Option.some.injEq] at hstep
        exact hstep ▸ h.leave hi (by rw [hphase]; rfl) rfl rfl (fun row hrow => nomatch hrow)
      | _ => simp [hphase] at hstep
  | fail i =>
    cases hi : w.calls[i]? with
    | none => simp [next?, hi] at hstep
    | some call =>
      simp only [next?, hi] at hstep
      split_ifs at hstep with hlive
      cases hstep
      exact h.leave hi hlive rfl rfl (fun row hrow => nomatch hrow)

end Steps

-- One candidate for each e-mail, each with its consent, and nothing but committed
-- candidates for the callers.
structure OnePerPerson (w : World) : Prop where
  distinct : (w.creations.map fun creation => normalized lower creation.candidate.email).Nodup
  consented : ∀ creation ∈ w.creations, creation.candidate.consentGiven = true ∧
    creation.consent.consentGiven = true ∧
    w.consents.filter (fun consent => consent.candidateId = creation.candidate.id) =
      [creation.consent]
  returned : ∀ call ∈ w.calls, ∀ row, call.phase = .returned row → row ∈ w.candidates ∧
    normalized lower row.email = normalized lower call.request.email
  raised : ∀ i call, w.calls[i]? = some call → call.phase = .raised →
    ∀ creation ∈ w.creations, creation.call ≠ i

def Brought (w : World) (path : List (Event × World)) (email : String) : Prop :=
  (∃ row ∈ w.earlierCandidates, row.email = email) ∨
    ∃ step ∈ path, ∃ request, step.1 = .call request ∧ request.email = email

variable {md5 lower}

theorem WellFormed.inv {w : World} (h : WellFormed md5 lower w) {emails : String → Prop}
    (hemails : ∀ row ∈ w.earlierCandidates, emails row.email) : Inv md5 lower emails w := by
  have hcandidates : w.candidates = w.earlierCandidates := by
    rw [World.candidates, h.creations]
    exact List.append_nil _
  refine ⟨?_, ?_, ?_, ?_, ?_, ?_, ?_, ?_, ?_, ?_, ?_, h.references⟩
  · exact hcandidates ▸ h.hashes
  · exact hcandidates ▸ h.ids
  · exact h.calls ▸ allApart_nil
  · simp [h.calls]
  · intro row hrow
    rw [hcandidates] at hrow
    obtain ⟨hlt, hhash⟩ := h.rows row hrow
    exact ⟨hlt, hhash, hemails row hrow⟩
  · simp [h.calls]
  · simp [h.calls]
  · simp [h.calls]
  · simp [h.calls]
  · simp [h.creations]
  · simp [h.creations]

theorem filter_consents {creations : List Creation} {creation : Creation}
    (hids : (creations.map fun creation => creation.candidate.id).Nodup)
    (hpaired : ∀ creation ∈ creations, creation.consent.candidateId = creation.candidate.id)
    (hmem : creation ∈ creations) :
    (creations.map Creation.consent).filter
      (fun consent => consent.candidateId = creation.candidate.id) = [creation.consent] := by
  induction creations with
  | nil => cases hmem
  | cons first rest ih =>
    rw [List.map_cons, List.nodup_cons] at hids
    rw [List.forall_mem_cons] at hpaired
    obtain rfl | hrest := List.mem_cons.mp hmem
    · rw [List.map_cons, List.filter_cons_of_pos (by simpa using hpaired.1)]
      have hnone : (rest.map Creation.consent).filter
          (fun consent => consent.candidateId = creation.candidate.id) = [] := by
        refine List.filter_eq_nil_iff.mpr fun consent hconsent hselected => ?_
        obtain ⟨other, hother, rfl⟩ := List.mem_map.mp hconsent
        have heq : other.consent.candidateId = creation.candidate.id :=
          of_decide_eq_true hselected
        rw [hpaired.2 other hother] at heq
        exact hids.1 (List.mem_map.mpr ⟨other, hother, heq⟩)
      rw [hnone]
    · have hne : first.consent.candidateId ≠ creation.candidate.id := by
        rw [hpaired.1]
        intro heq
        exact hids.1 (List.mem_map.mpr ⟨creation, hrest, heq.symm⟩)
      rw [List.map_cons, List.filter_cons_of_neg (by simpa using hne)]
      exact ih hids.2 hpaired.2 hrest

theorem Inv.separate {emails : String → Prop} {w : World} (h : Inv md5 lower emails w)
    (hcollision : ∀ email other, emails email → emails other →
      generateHash md5 lower email = generateHash md5 lower other →
      normalized lower email = normalized lower other) : OnePerPerson lower w := by
  have hin {creation : Creation} (hcreation : creation ∈ w.creations) :
      creation.candidate ∈ w.candidates :=
    List.mem_append_right _ (List.mem_map_of_mem hcreation)
  have hids := h.ids
  rw [World.candidates, List.map_append, List.nodup_append, List.map_map] at hids
  obtain ⟨-, hcreated, hapart⟩ := hids
  refine ⟨?_, ?_, ?_, ?_⟩
  · have hhashes := h.hashes
    rw [World.candidates, List.map_append, List.nodup_append, List.map_map] at hhashes
    have hmd5 : (w.creations.map fun creation =>
        md5 (normalized lower creation.candidate.email)) =
          w.creations.map (CandidateRow.emailHash ∘ Creation.candidate) :=
      List.map_congr_left fun creation hcreation =>
        ((h.rows creation.candidate (hin hcreation)).2.1).symm
    refine List.Nodup.of_map md5 ?_
    rw [List.map_map]
    exact hmd5 ▸ hhashes.2.1
  · intro creation hcreation
    obtain ⟨hgiven, hpair, hconsent⟩ := h.paired creation hcreation
    refine ⟨hgiven, hconsent, ?_⟩
    rw [World.consents, List.filter_append]
    have hearlier : w.earlierConsents.filter
        (fun consent => consent.candidateId = creation.candidate.id) = [] := by
      refine List.filter_eq_nil_iff.mpr fun consent hmem hselected => ?_
      have heq : consent.candidateId = creation.candidate.id := of_decide_eq_true hselected
      obtain ⟨row, hrow, hid⟩ := h.references consent hmem
      exact hapart row.id (List.mem_map_of_mem hrow) creation.candidate.id
        (List.mem_map.mpr ⟨creation, hcreation, rfl⟩) (hid.trans heq)
    rw [hearlier, List.nil_append]
    exact filter_consents hcreated (fun other hother => (h.paired other hother).2.1) hcreation
  · intro call hcall row hrow
    obtain ⟨hmem, hhash⟩ := h.answers call hcall row hrow
    obtain ⟨-, hsound, hemail⟩ := h.rows row hmem
    exact ⟨hmem, hcollision _ _ hemail (h.requests call hcall) (hsound.symm.trans hhash)⟩
  · intro i call hi hraised creation hcreation heq
    obtain ⟨author, row, hauthor, hreturned⟩ := h.authors creation hcreation
    rw [heq, hi] at hauthor
    cases hauthor
    rw [hraised] at hreturned
    cases hreturned

theorem onePerPerson (md5 lower : String → String) (start : World) (path : List (Event × World))
    (hstart : WellFormed md5 lower start)
    (hcollision : ∀ email other, Brought start path email → Brought start path other →
      generateHash md5 lower email = generateHash md5 lower other →
      normalized lower email = normalized lower other)
    (hp : Path (Step md5 lower) start path) :
    ∀ w ∈ visited start path, OnePerPerson lower w := by
  have hinv : Inv md5 lower (Brought start path) start := hstart.inv fun row hrow =>
    .inl ⟨row, hrow, rfl⟩
  have hbrought : EveryStep (fun _ event _ => ∀ request, event = .call request →
      Brought start path request.email) start path := by
    refine everyStep_of_mem fun step hstep request hrequest => ?_
    exact .inr ⟨step, hstep, request, hrequest, rfl⟩
  intro w hw
  have hall := hp.guarded_invariant hinv hbrought (fun w event w' h hemails hstep =>
    h.step hemails hstep) w hw
  exact hall.separate hcollision

end Service

def applicant (email : String) : Request where
  fullName := "Ann"
  email := email
  jurisdiction := "GLOBAL"
  consentSource := "UPLOAD"
  actorId := "recruiter"
  actorRole := none
  phone := none
  orgId := none
  sourceCampaignId := none
  ipAddress := none
  userAgent := none

def emptyTables : World where
  earlierCandidates := []
  earlierConsents := []
  creations := []
  calls := []
  nextId := 0

def reading : Reading := ⟨0, "1.0", 1⟩

def race : List Event :=
  [.call (applicant "ann@example.org"), .call (applicant " ann@example.org "),
    .run 0 reading, .run 1 reading, .run 0 reading, .run 1 reading, .run 0 reading,
    .run 0 reading, .run 0 reading, .run 0 reading, .run 0 reading, .run 1 reading,
    .run 1 reading]

def raceRun : List (Event × World) := execute (next? id id) emptyTables race

theorem onePerPerson_race : OnePerPerson id (final emptyTables raceRun) := by
  refine onePerPerson id id emptyTables raceRun ?_ (fun _ _ _ _ h => h)
    (execute_path (next? id id) (fun _ _ _ h => h) emptyTables race) _ (final_mem_visited _ _)
  exact ⟨List.nodup_nil, List.nodup_nil, by simp [emptyTables], by simp [emptyTables], rfl, rfl⟩

example : (final emptyTables raceRun).creations.length = 1 ∧
    (final emptyTables raceRun).calls.map (fun call => call.phase.live) = [false, false] := by
  decide

end CandidateIntake

end AiHiring
