import AiHiring.Library.Run
import AiHiring.Pipeline.Model

namespace AiHiring

open Library

structure DeadLetterEntry where
  id : Uuid
  taskType : String
  (resumeId campaignCandidateId : Option Uuid)
  replayedAt : Option Instant
  replayedBy : Option String
  resolvedAt : Option Instant

namespace DeadLetterReplay

-- What one call is asked for; the first two lists are the candidates and the
-- resumes of its campaign.
structure Request where
  (candidateIds resumeIds dlqIds : List Uuid)
  replayedBy : String

structure ResultItem where
  dlqId : Uuid
  reason : Option String

-- How far a call is: the entries it loaded and has still to look at, and the one
-- whose chain it has counted.
inductive Phase where
  | start
  | scanning (rest : List DeadLetterEntry)
  | counted (entry : DeadLetterEntry) (rest : List DeadLetterEntry)
  | committed
  | done

def Phase.pending : Phase → List DeadLetterEntry
  | scanning rest => rest
  | counted entry rest => entry :: rest
  | start | committed | done => []

-- The UPDATE of `mark_replayed`, not committed yet.
structure Mark where
  session : ℕ
  entry : DeadLetterEntry
  replayedAt : Instant

-- A committed replay; its task is enqueued after the commit.
structure Ticket where
  session : ℕ
  entry : DeadLetterEntry
  enqueued : Bool

structure World where
  entries : Table DeadLetterEntry DeadLetterEntry.id
  phase : ℕ → Phase
  results : ℕ → List ResultItem
  marks : List Mark
  tickets : List Ticket

inductive Event where
  | read (session : ℕ)
  | examine (session : ℕ) (embedSkip : Option String)
  | mark (session : ℕ) (now : Instant)
  | commit (session : ℕ)
  | enqueue (session : ℕ)
  | fail (session : ℕ)
  | deadLetter (taskType : String) (resumeId campaignCandidateId : Option Uuid)
  | resolve (id : Uuid) (now : Instant)

-- `_DLQ_REPLAY_BUILDERS`: the keyword the task gets and the id it is rebuilt from.
def builder (entry : DeadLetterEntry) : Option (String × Option Uuid) :=
  if entry.taskType ∈ ["DETERMINISTIC_SCORE", "AI_EVALUATE"] then
    some ("campaign_candidate_id", entry.campaignCandidateId)
  else if entry.taskType ∈ ["RESUME_DOCUMENT_PROCESSING", "EMBED_RESUME"] then
    some ("resume_id", entry.resumeId)
  else
    none

def inCampaign (request : Request) (entry : DeadLetterEntry) : Bool :=
  entry.campaignCandidateId.any (· ∈ request.candidateIds) ||
    entry.resumeId.any (· ∈ request.resumeIds)

def inChain (taskType : String) (campaignCandidateId : Uuid) (entry : DeadLetterEntry) : Bool :=
  entry.taskType = taskType ∧ entry.campaignCandidateId = some campaignCandidateId

namespace World

def setPhase (w : World) (session : ℕ) (phase : Phase) : World :=
  { w with phase := Function.update w.phase session phase }

def report (w : World) (session : ℕ) (items : List ResultItem) : World :=
  { w with results := Function.update w.results session (w.results session ++ items) }

def marksOf (w : World) (session : ℕ) : List Mark := w.marks.filter (·.session = session)

-- `get_dlq_entries_by_ids`, the newest first.
def getDlqEntriesByIds (w : World) (request : Request) : List DeadLetterEntry :=
  w.entries.rows.reverse.filter fun entry =>
    inCampaign request entry ∧ entry.id ∈ request.dlqIds

-- A session sees the committed marks and its own.
def seesReplayed (w : World) (session : ℕ) (row : DeadLetterEntry) : Bool :=
  row.replayedAt.isSome || (w.marksOf session).any fun m => m.entry.id = row.id

def countDlqChainReplays (w : World) (session : ℕ) (entry : DeadLetterEntry) : ℕ :=
  match entry.campaignCandidateId with
  | some campaignCandidateId =>
    w.entries.rows.countP fun row =>
      inChain entry.taskType campaignCandidateId row && w.seesReplayed session row
  | none =>
    match entry.resumeId with
    | some resumeId =>
      w.entries.rows.countP fun row =>
        row.taskType = entry.taskType ∧ row.resumeId = some resumeId ∧ w.seesReplayed session row
    | none => 0

-- Why an entry is skipped; `embedSkip` is what the pre-checks of EMBED_RESUME
-- find in the resume at this moment.
def skipReason (w : World) (maxReplays session : ℕ) (entry : DeadLetterEntry)
    (embedSkip : Option String) : Option String :=
  if entry.resolvedAt.isSome then
    some "Already resolved - a later run of this task succeeded."
  else if entry.replayedAt.isSome then
    some "Already replayed."
  else
    match builder entry with
    | none => some s!"Replay not supported for task type '{entry.taskType}'."
    | some (_, none) => some "Entry has no entity reference to rebuild the task from."
    | some (_, some _) =>
      let embedSkip := if entry.taskType = "EMBED_RESUME" then embedSkip else none
      match embedSkip with
      | some reason => some reason
      | none =>
        if maxReplays ≤ w.countDlqChainReplays session entry then
          some s!"Replay limit reached ({maxReplays})."
        else
          none

def stamp (marks : List Mark) (replayedBy : String) (row : DeadLetterEntry) : DeadLetterEntry :=
  match marks.find? fun m => m.entry.id = row.id with
  | some m => { row with replayedAt := some m.replayedAt, replayedBy := some replayedBy }
  | none => row

theorem stamp_id (marks : List Mark) (replayedBy : String) (row : DeadLetterEntry) :
    (stamp marks replayedBy row).id = row.id := by
  rw [stamp]
  split <;> rfl

def resolved (id : Uuid) (now : Instant) (row : DeadLetterEntry) : DeadLetterEntry :=
  if row.id = id ∧ row.resolvedAt = none then { row with resolvedAt := some now } else row

theorem resolved_id (id : Uuid) (now : Instant) (row : DeadLetterEntry) :
    (resolved id now row).id = row.id := by
  rw [resolved]
  split_ifs <;> rfl

def newEntry (taskType : String) (resumeId campaignCandidateId : Option Uuid) (id : Uuid) :
    DeadLetterEntry where
  id := id
  taskType := taskType
  resumeId := resumeId
  campaignCandidateId := campaignCandidateId
  replayedAt := none
  replayedBy := none
  resolvedAt := none

def commitMarks (w : World) (session : ℕ) (replayedBy : String) : World :=
  { w with
    entries := w.entries.modify (stamp (w.marksOf session) replayedBy) (stamp_id _ _)
    marks := w.marks.filter (·.session ≠ session)
    tickets := w.tickets ++ (w.marksOf session).map fun m => ⟨session, m.entry, false⟩ }

def launch (w : World) (session : ℕ) (ticket : Ticket) : World :=
  { w with tickets := w.tickets.map fun other =>
      if other.session = session ∧ other.entry.id = ticket.entry.id then
        { other with enqueued := true }
      else
        other }

variable (maxReplays : ℕ) (requests : ℕ → Request)

def next? (w : World) : Event → Option World
  | .read session =>
    match w.phase session with
    | .start =>
      let entries := w.getDlqEntriesByIds (requests session)
      let missing := (requests session).dlqIds.dedup.filter (· ∉ entries.map (·.id))
      some ((w.setPhase session (.scanning entries)).report session
        (missing.map fun id => ⟨id, some "Entry not found for this campaign."⟩))
    | _ => none
  | .examine session embedSkip =>
    match w.phase session with
    | .scanning (entry :: rest) =>
      match w.skipReason maxReplays session entry embedSkip with
      | some reason =>
        some ((w.setPhase session (.scanning rest)).report session [⟨entry.id, some reason⟩])
      | none => some (w.setPhase session (.counted entry rest))
    | _ => none
  | .mark session now =>
    match w.phase session with
    | .counted entry rest =>
      -- the row lock of another session's UPDATE is waited for
      if w.marks.any fun m => m.session ≠ session ∧ m.entry.id = entry.id then
        none
      else
        some (World.report { w.setPhase session (.scanning rest) with
          marks := w.marks ++ [⟨session, entry, now⟩] } session [⟨entry.id, none⟩])
    | _ => none
  | .commit session =>
    match w.phase session with
    | .scanning [] =>
      some ((w.commitMarks session (requests session).replayedBy).setPhase session .committed)
    | _ => none
  | .enqueue session =>
    match w.phase session with
    | .committed =>
      (w.tickets.find? fun t => t.session = session ∧ !t.enqueued).map (w.launch session)
    | _ => none
  | .fail session =>
    some (World.setPhase { w with
      marks := w.marks.filter (·.session ≠ session)
      tickets := w.tickets.filter fun t => t.session ≠ session ∨ t.enqueued } session .done)
  | .deadLetter taskType resumeId campaignCandidateId =>
    some { w with
      entries := w.entries.insert (newEntry taskType resumeId campaignCandidateId) fun _ => rfl }
  | .resolve id now =>
    some { w with entries := w.entries.modify (resolved id now) (resolved_id id now) }

def Step (w : World) (event : Event) (w' : World) : Prop :=
  w.next? maxReplays requests event = some w'

def begin (entries : Table DeadLetterEntry DeadLetterEntry.id) : World where
  entries := entries
  phase := fun _ => .start
  results := fun _ => []
  marks := []
  tickets := []

-- The entries whose tasks have been enqueued, one for each task.
def enqueued (w : World) : List DeadLetterEntry := (w.tickets.filter (·.enqueued)).map (·.entry)

-- No entry has caused two tasks, and no chain more than its limit.
def Safe (maxReplays : ℕ) (w : World) : Prop :=
  (w.enqueued.map (·.id)).Nodup ∧ ∀ taskType campaignCandidateId,
      w.enqueued.countP (inChain taskType campaignCandidateId) ≤ maxReplays

def replaysOf (w : World) (taskType : String) (campaignCandidateId : Uuid) : ℕ :=
  w.entries.rows.countP fun row =>
    inChain taskType campaignCandidateId row && row.replayedAt.isSome

-- When the call commits, no row it marks has been replayed by then, and the
-- replays committed in each chain leave room for the ones it adds.
def Clean (maxReplays : ℕ) (w : World) : Event → Prop
  | .commit session => ∀ m ∈ w.marksOf session,
      (∀ row ∈ w.entries.rows, row.id = m.entry.id → row.replayedAt = none) ∧
      ∀ c, m.entry.campaignCandidateId = some c → w.replaysOf m.entry.taskType c +
          (w.marksOf session).countP (fun other => inChain m.entry.taskType c other.entry) ≤
            maxReplays
  | _ => True

end World

section Ledger

variable {rows rows' : List DeadLetterEntry} {maxReplays : ℕ}

def Same (row entry : DeadLetterEntry) : Prop :=
  row.id = entry.id ∧ row.taskType = entry.taskType ∧
    row.campaignCandidateId = entry.campaignCandidateId

variable {entry : DeadLetterEntry} {replays : List DeadLetterEntry}

theorem Same.inChain {row : DeadLetterEntry} (h : Same row entry) (taskType : String)
    (c : Uuid) : inChain taskType c row = inChain taskType c entry := by
  rw [DeadLetterReplay.inChain, DeadLetterReplay.inChain, h.2.1, h.2.2]

def Stored (rows : List DeadLetterEntry) (entry : DeadLetterEntry) : Prop :=
  ∃ row ∈ rows, Same row entry

def Replayed (rows : List DeadLetterEntry) (entry : DeadLetterEntry) : Prop :=
  ∃ row ∈ rows, Same row entry ∧ row.replayedAt.isSome = true

-- Rows are never deleted, and a replay is never taken back.
def Kept (rows rows' : List DeadLetterEntry) : Prop :=
  ∀ row ∈ rows, ∃ row' ∈ rows', Same row' row ∧
    (row.replayedAt.isSome = true → row'.replayedAt.isSome = true)

theorem Kept.refl (rows : List DeadLetterEntry) : Kept rows rows :=
  fun row hrow => ⟨row, hrow, ⟨rfl, rfl, rfl⟩, fun h => h⟩

theorem Same.trans {a b c : DeadLetterEntry} (h : Same a b) (h' : Same b c) : Same a c :=
  ⟨h.1.trans h'.1, h.2.1.trans h'.2.1, h.2.2.trans h'.2.2⟩

theorem Stored.kept (h : Stored rows entry) (hk : Kept rows rows') :
    Stored rows' entry := by
  obtain ⟨row, hrow, hsame⟩ := h
  obtain ⟨row', hrow', hsame', -⟩ := hk row hrow
  exact ⟨row', hrow', hsame'.trans hsame⟩

theorem Replayed.kept (h : Replayed rows entry) (hk : Kept rows rows') : Replayed rows' entry := by
  obtain ⟨row, hrow, hsame, hreplayed⟩ := h
  obtain ⟨row', hrow', hsame', hkeep⟩ := hk row hrow
  exact ⟨row', hrow', hsame'.trans hsame, hkeep hreplayed⟩

theorem kept_map (f : DeadLetterEntry → DeadLetterEntry) (hf : ∀ row, Same (f row) row ∧
      (row.replayedAt.isSome = true → (f row).replayedAt.isSome = true)) :
    Kept rows (rows.map f) :=
  fun row hrow => ⟨f row, List.mem_map.mpr ⟨row, hrow, rfl⟩, hf row⟩

-- The committed replays of a run, in the rows they were committed to.
structure Ledger (rows : List DeadLetterEntry) (maxReplays : ℕ)
    (replays : List DeadLetterEntry) : Prop where
  known : ∀ entry ∈ replays, Replayed rows entry
  once : (replays.map (·.id)).Nodup
  limit : ∀ taskType c, replays.countP (inChain taskType c) ≤ maxReplays

theorem Ledger.kept (h : Ledger rows maxReplays replays)
    (hk : Kept rows rows') : Ledger rows' maxReplays replays :=
  ⟨fun entry hentry => (h.known entry hentry).kept hk, h.once, h.limit⟩

theorem Ledger.sublist {fewer : List DeadLetterEntry}
    (h : Ledger rows maxReplays replays) (hsub : fewer.Sublist replays) :
    Ledger rows maxReplays fewer := by
  constructor
  · intro entry hentry
    exact h.known entry (hsub.subset hentry)
  · exact h.once.sublist (hsub.map _)
  · intro taskType c
    exact (hsub.countP_le).trans (h.limit taskType c)

theorem Ledger.countP_le (h : Ledger rows maxReplays replays) (taskType : String) (c : Uuid) :
    replays.countP (inChain taskType c) ≤
      rows.countP fun row => inChain taskType c row && row.replayedAt.isSome := by
  rw [List.countP_eq_length_filter, List.countP_eq_length_filter]
  have hids : ((replays.filter (inChain taskType c)).map (·.id)).Nodup :=
    h.once.sublist (List.filter_sublist.map _)
  have hsub : (replays.filter (inChain taskType c)).map (·.id) ⊆
      (rows.filter fun row => inChain taskType c row && row.replayedAt.isSome).map (·.id) := by
    intro id hid
    obtain ⟨entry, hentry, rfl⟩ := List.mem_map.mp hid
    obtain ⟨hmem, hchain⟩ := List.mem_filter.mp hentry
    obtain ⟨row, hrow, hsame, hreplayed⟩ := h.known entry hmem
    refine List.mem_map.mpr ⟨row, List.mem_filter.mpr ⟨hrow, ?_⟩, hsame.1⟩
    rw [hsame.inChain, hchain, hreplayed]
    rfl
  have hlen := (List.subperm_of_subset hids hsub).length_le
  rwa [List.length_map, List.length_map] at hlen

theorem Ledger.extend {added : List DeadLetterEntry}
    (h : Ledger rows maxReplays replays) (hk : Kept rows rows')
    (hstored : ∀ entry ∈ added, Replayed rows' entry) (honce : (added.map (·.id)).Nodup)
    (hopen : ∀ entry ∈ added, ∀ row ∈ rows, row.id = entry.id → row.replayedAt = none)
    (hroom : ∀ entry ∈ added, ∀ c, entry.campaignCandidateId = some c →
      (rows.countP fun row => inChain entry.taskType c row && row.replayedAt.isSome) +
        added.countP (inChain entry.taskType c) ≤ maxReplays) :
    Ledger rows' maxReplays (replays ++ added) := by
  constructor
  · intro entry hentry
    rcases List.mem_append.mp hentry with hold | hnew
    · exact (h.known entry hold).kept hk
    · exact hstored entry hnew
  · rw [List.map_append, List.nodup_append]
    refine ⟨h.once, honce, ?_⟩
    intro a ha b hb hab
    obtain ⟨old, hold, rfl⟩ := List.mem_map.mp ha
    obtain ⟨new, hnew, rfl⟩ := List.mem_map.mp hb
    obtain ⟨row, hrow, hsame, hreplayed⟩ := h.known old hold
    rw [hopen new hnew row hrow (hsame.1.trans hab)] at hreplayed
    simp at hreplayed
  · intro taskType c
    rw [List.countP_append]
    by_cases hany : ∃ entry ∈ added, inChain taskType c entry = true
    · obtain ⟨entry, hentry, hchain⟩ := hany
      have hkey : entry.taskType = taskType ∧ entry.campaignCandidateId = some c := by
        simpa [inChain] using hchain
      have hle := h.countP_le taskType c
      have hsum := hroom entry hentry c hkey.2
      rw [hkey.1] at hsum
      omega
    · have hzero : added.countP (inChain taskType c) = 0 := by
        rw [List.countP_eq_zero]
        intro entry hentry hchain
        exact hany ⟨entry, hentry, hchain⟩
      have hlimit := h.limit taskType c
      omega

end Ledger

section Steps

open World

variable (maxReplays : ℕ) (requests : ℕ → Request)

-- What the rows promise a session: it works on stored rows, on each of them once.
structure SessionOk (rows : List DeadLetterEntry) (phase : Phase) (marks : List Mark) : Prop where
  snapshot : ∀ entry ∈ phase.pending, Stored rows entry
  marked : ∀ m ∈ marks, Stored rows m.entry
  distinct : (phase.pending.map (·.id) ++ marks.map (·.entry.id)).Nodup
  fresh : phase = .start → marks = []

structure Inv (w : World) : Prop where
  sessions : ∀ s, SessionOk w.entries.rows (w.phase s) (w.marksOf s)
  ledger : Ledger w.entries.rows maxReplays (w.tickets.map (·.entry))

theorem SessionOk.kept {rows rows' : List DeadLetterEntry} {phase : Phase} {marks : List Mark}
    (h : SessionOk rows phase marks) (hk : Kept rows rows') : SessionOk rows' phase marks :=
  ⟨fun entry he => (h.snapshot entry he).kept hk, fun m hm => (h.marked m hm).kept hk,
    h.distinct, h.fresh⟩

theorem SessionOk.sublist {rows : List DeadLetterEntry} {phase phase' : Phase}
    {marks : List Mark} (h : SessionOk rows phase marks)
    (hsub : phase'.pending.Sublist phase.pending) (hstart : phase' ≠ .start) :
    SessionOk rows phase' marks := by
  constructor
  · intro entry hentry
    exact h.snapshot entry (hsub.subset hentry)
  · exact h.marked
  · exact h.distinct.sublist ((hsub.map _).append_right _)
  · intro heq
    exact absurd heq hstart

theorem sessionOk_nil (rows : List DeadLetterEntry) (phase : Phase) (h : phase.pending = []) :
    SessionOk rows phase [] := by
  constructor
  · simp [h]
  · simp
  · simp [h]
  · exact fun _ => rfl

variable {w w' : World}

theorem sessions_moved (session : ℕ) (hs : ∀ s, SessionOk w.entries.rows (w.phase s) (w.marksOf s))
    (hk : Kept w.entries.rows w'.entries.rows)
    (hothers : ∀ s, s ≠ session → w'.phase s = w.phase s ∧ w'.marksOf s = w.marksOf s)
    (hself : SessionOk w'.entries.rows (w'.phase session) (w'.marksOf session)) :
    ∀ s, SessionOk w'.entries.rows (w'.phase s) (w'.marksOf s) := by
  intro s
  by_cases hsession : s = session
  · rw [hsession]
    exact hself
  · obtain ⟨hphase, hmarks⟩ := hothers s hsession
    rw [hphase, hmarks]
    exact (hs s).kept hk

theorem marksOf_filter (w : World) (session s : ℕ) :
    (w.marks.filter (·.session ≠ session)).filter (·.session = s) =
      if s = session then [] else w.marksOf s := by
  rw [List.filter_filter]
  by_cases hs : s = session
  · rw [if_pos hs, List.filter_eq_nil_iff]
    intro m _
    simp [hs]
  · rw [if_neg hs]
    apply List.filter_congr
    intro m _
    by_cases hm : m.session = s <;> simp [hm, hs]

theorem kept_stamp (rows : List DeadLetterEntry) (marks : List Mark) (replayedBy : String) :
    Kept rows (rows.map (stamp marks replayedBy)) := by
  apply kept_map
  intro row
  rw [stamp]
  split
  · exact ⟨⟨rfl, rfl, rfl⟩, fun _ => rfl⟩
  · exact ⟨⟨rfl, rfl, rfl⟩, fun h => h⟩

theorem replayed_stamp (rows : List DeadLetterEntry) (marks : List Mark) (replayedBy : String)
    (m : Mark) (hm : m ∈ marks) (h : Stored rows m.entry) :
    Replayed (rows.map (stamp marks replayedBy)) m.entry := by
  obtain ⟨row, hrow, hsame⟩ := h
  refine ⟨stamp marks replayedBy row, List.mem_map.mpr ⟨row, hrow, rfl⟩, ?_⟩
  have hfound : (marks.find? fun other => other.entry.id = row.id).isSome = true := by
    rw [List.find?_isSome]
    exact ⟨m, hm, by simp [hsame.1]⟩
  obtain ⟨found, hfound⟩ := Option.isSome_iff_exists.mp hfound
  simp only [stamp, hfound]
  exact ⟨hsame, rfl⟩

theorem commit_inv (session : ℕ) (hi : Inv maxReplays w)
    (hclean : w.Clean maxReplays (.commit session))
    (h : w.Step maxReplays requests (.commit session) w') : Inv maxReplays w' := by
  rw [Step, next?] at h
  cases hphase : w.phase session with
  | scanning rest =>
    cases rest with
    | cons entry rest => simp [hphase] at h
    | nil =>
      simp only [hphase, Option.some.injEq] at h
      subst h
      have hk := kept_stamp w.entries.rows (w.marksOf session) (requests session).replayedBy
      have hok := hi.sessions session
      constructor
      · apply sessions_moved session hi.sessions hk
        · intro s hs
          refine ⟨Function.update_of_ne hs _ _, ?_⟩
          exact (marksOf_filter w session s).trans (if_neg hs)
        · change SessionOk _ (Function.update w.phase session .committed session)
            ((w.marks.filter (·.session ≠ session)).filter (·.session = session))
          rw [Function.update_self, marksOf_filter, if_pos rfl]
          exact sessionOk_nil _ _ rfl
      · change Ledger (w.entries.rows.map (stamp (w.marksOf session)
          (requests session).replayedBy)) maxReplays ((w.tickets ++ (w.marksOf session).map
            fun m => (⟨session, m.entry, false⟩ : Ticket)).map Ticket.entry)
        rw [List.map_append, List.map_map]
        apply hi.ledger.extend hk
        · intro entry hentry
          obtain ⟨m, hm, rfl⟩ := List.mem_map.mp hentry
          exact replayed_stamp _ _ _ m hm (hok.marked m hm)
        · have hdistinct := hok.distinct
          rw [hphase] at hdistinct
          rw [List.map_map]
          exact hdistinct
        · intro entry hentry
          obtain ⟨m, hm, rfl⟩ := List.mem_map.mp hentry
          exact (hclean m hm).1
        · intro entry hentry c hc
          obtain ⟨m, hm, rfl⟩ := List.mem_map.mp hentry
          rw [List.countP_map]
          exact (hclean m hm).2 c hc
  | start => simp [hphase] at h
  | counted entry rest => simp [hphase] at h
  | committed => simp [hphase] at h
  | done => simp [hphase] at h

theorem read_inv (session : ℕ) (hi : Inv maxReplays w)
    (h : w.Step maxReplays requests (.read session) w') : Inv maxReplays w' := by
  rw [Step, next?] at h
  cases hphase : w.phase session with
  | start =>
    simp only [hphase, Option.some.injEq] at h
    subst h
    refine ⟨?_, hi.ledger⟩
    refine sessions_moved session hi.sessions (Kept.refl w.entries.rows) ?_ ?_
    · intro s hs
      exact ⟨Function.update_of_ne hs _ _, rfl⟩
    · change SessionOk _ (Function.update w.phase session _ session) (w.marksOf session)
      rw [Function.update_self, (hi.sessions session).fresh hphase]
      have hsub : (w.getDlqEntriesByIds (requests session)).Sublist w.entries.rows.reverse :=
        List.filter_sublist
      constructor
      · intro entry hentry
        exact ⟨entry, List.mem_reverse.mp (hsub.subset hentry), rfl, rfl, rfl⟩
      · simp
      · have hnodup : (w.entries.rows.reverse.map (·.id)).Nodup := by
          rw [List.map_reverse, List.nodup_reverse]
          exact w.entries.nodup
        rw [List.map_nil, List.append_nil]
        exact hnodup.sublist (hsub.map _)
      · exact fun _ => rfl
  | scanning rest => simp [hphase] at h
  | counted entry rest => simp [hphase] at h
  | committed => simp [hphase] at h
  | done => simp [hphase] at h

theorem examine_inv (session : ℕ) (embedSkip : Option String) (hi : Inv maxReplays w)
    (h : w.Step maxReplays requests (.examine session embedSkip) w') : Inv maxReplays w' := by
  rw [Step, next?] at h
  cases hphase : w.phase session with
  | scanning rest =>
    cases rest with
    | nil => simp [hphase] at h
    | cons entry rest =>
      have hok := hi.sessions session
      rw [hphase] at hok
      cases hskip : w.skipReason maxReplays session entry embedSkip with
      | some reason =>
        simp only [hphase, hskip, Option.some.injEq] at h
        subst h
        refine ⟨?_, hi.ledger⟩
        refine sessions_moved session hi.sessions (Kept.refl w.entries.rows) ?_ ?_
        · intro s hs
          exact ⟨Function.update_of_ne hs _ _, rfl⟩
        · change SessionOk _ (Function.update w.phase session _ session) (w.marksOf session)
          rw [Function.update_self]
          exact hok.sublist (List.sublist_cons_self _ _) (by simp)
      | none =>
        simp only [hphase, hskip, Option.some.injEq] at h
        subst h
        refine ⟨?_, hi.ledger⟩
        refine sessions_moved session hi.sessions (Kept.refl w.entries.rows) ?_ ?_
        · intro s hs
          exact ⟨Function.update_of_ne hs _ _, rfl⟩
        · change SessionOk _ (Function.update w.phase session _ session) (w.marksOf session)
          rw [Function.update_self]
          exact hok.sublist (List.Sublist.refl _) (by simp)
  | start => simp [hphase] at h
  | counted entry rest => simp [hphase] at h
  | committed => simp [hphase] at h
  | done => simp [hphase] at h

theorem mark_inv (session : ℕ) (now : Instant) (hi : Inv maxReplays w)
    (h : w.Step maxReplays requests (.mark session now) w') : Inv maxReplays w' := by
  rw [Step, next?] at h
  cases hphase : w.phase session with
  | counted entry rest =>
    simp only [hphase] at h
    split_ifs at h
    cases h
    have hok := hi.sessions session
    rw [hphase] at hok
    have hmarks (s : ℕ) : (w.marks ++ [(⟨session, entry, now⟩ : Mark)]).filter (·.session = s) =
        w.marksOf s ++ if s = session then [⟨session, entry, now⟩] else [] := by
      rw [List.filter_append, marksOf]
      by_cases hs : s = session
      · simp [hs]
      · simp [hs, Ne.symm hs]
    refine ⟨?_, hi.ledger⟩
    refine sessions_moved session hi.sessions (Kept.refl w.entries.rows) ?_ ?_
    · intro s hs
      refine ⟨Function.update_of_ne hs _ _, (hmarks s).trans ?_⟩
      rw [if_neg hs, List.append_nil]
    · change SessionOk _ (Function.update w.phase session _ session)
        ((w.marks ++ [(⟨session, entry, now⟩ : Mark)]).filter (·.session = session))
      rw [Function.update_self, hmarks, if_pos rfl]
      constructor
      · intro other hother
        exact hok.snapshot other (List.mem_cons_of_mem _ hother)
      · intro m hm
        rcases List.mem_append.mp hm with hm | hm
        · exact hok.marked m hm
        · rw [List.mem_singleton.mp hm]
          exact hok.snapshot entry List.mem_cons_self
      · -- the entry moves from the entries to look at to the marks
        have hperm : ((Phase.counted entry rest).pending.map (·.id) ++
            (w.marksOf session).map (·.entry.id)).Perm
            ((Phase.scanning rest).pending.map (·.id) ++
              (w.marksOf session ++ [(⟨session, entry, now⟩ : Mark)]).map (·.entry.id)) := by
          rw [List.map_append, ← List.append_assoc]
          exact List.perm_append_singleton entry.id _ |>.symm
        exact hperm.nodup_iff.mp hok.distinct
      · exact fun hstart => absurd hstart (by simp)
  | start => simp [hphase] at h
  | scanning rest => simp [hphase] at h
  | committed => simp [hphase] at h
  | done => simp [hphase] at h

theorem enqueue_inv (session : ℕ) (hi : Inv maxReplays w)
    (h : w.Step maxReplays requests (.enqueue session) w') : Inv maxReplays w' := by
  rw [Step, next?] at h
  cases hphase : w.phase session with
  | committed =>
    simp only [hphase, Option.map_eq_some_iff] at h
    obtain ⟨ticket, -, rfl⟩ := h
    refine ⟨hi.sessions, ?_⟩
    have hentries : (w.launch session ticket).tickets.map (·.entry) = w.tickets.map (·.entry) := by
      rw [launch, List.map_map]
      apply List.map_congr_left
      intro other _
      rw [Function.comp_apply]
      split_ifs <;> rfl
    rw [hentries]
    exact hi.ledger
  | start => simp [hphase] at h
  | scanning rest => simp [hphase] at h
  | counted entry rest => simp [hphase] at h
  | done => simp [hphase] at h

theorem fail_inv (session : ℕ) (hi : Inv maxReplays w)
    (h : w.Step maxReplays requests (.fail session) w') : Inv maxReplays w' := by
  simp only [Step, next?, Option.some.injEq] at h
  subst h
  constructor
  · refine sessions_moved session hi.sessions (Kept.refl w.entries.rows) ?_ ?_
    · intro s hs
      refine ⟨Function.update_of_ne hs _ _, ?_⟩
      exact (marksOf_filter w session s).trans (if_neg hs)
    · change SessionOk _ (Function.update w.phase session .done session)
        ((w.marks.filter (·.session ≠ session)).filter (·.session = session))
      rw [Function.update_self, marksOf_filter, if_pos rfl]
      exact sessionOk_nil _ _ rfl
  · exact hi.ledger.sublist (List.filter_sublist.map _)

theorem rows_inv (hi : Inv maxReplays w) (hk : Kept w.entries.rows w'.entries.rows)
    (hsame : w'.phase = w.phase ∧ w'.marks = w.marks ∧ w'.tickets = w.tickets) :
    Inv maxReplays w' := by
  obtain ⟨hphase, hmarks, htickets⟩ := hsame
  constructor
  · intro s
    rw [hphase, marksOf, hmarks]
    exact (hi.sessions s).kept hk
  · rw [htickets]
    exact hi.ledger.kept hk

theorem inv_step (event : Event) (hi : Inv maxReplays w)
    (hclean : w.Clean maxReplays event) (h : w.Step maxReplays requests event w') :
    Inv maxReplays w' := by
  cases event with
  | read session => exact read_inv maxReplays requests session hi h
  | examine session embedSkip => exact examine_inv maxReplays requests session embedSkip hi h
  | mark session now => exact mark_inv maxReplays requests session now hi h
  | commit session => exact commit_inv maxReplays requests session hi hclean h
  | enqueue session => exact enqueue_inv maxReplays requests session hi h
  | fail session => exact fail_inv maxReplays requests session hi h
  | deadLetter taskType resumeId campaignCandidateId =>
    simp only [Step, next?, Option.some.injEq] at h
    subst h
    refine rows_inv maxReplays hi ?_ ⟨rfl, rfl, rfl⟩
    intro row hrow
    exact ⟨row, List.mem_append_left _ hrow, ⟨rfl, rfl, rfl⟩, fun hr => hr⟩
  | resolve id now =>
    simp only [Step, next?, Option.some.injEq] at h
    subst h
    refine rows_inv maxReplays hi ?_ ⟨rfl, rfl, rfl⟩
    apply kept_map
    intro row
    rw [resolved]
    split_ifs
    · exact ⟨⟨rfl, rfl, rfl⟩, fun hr => hr⟩
    · exact ⟨⟨rfl, rfl, rfl⟩, fun hr => hr⟩

theorem inv_begin (entries : Table DeadLetterEntry DeadLetterEntry.id) :
    Inv maxReplays (begin entries) := by
  constructor
  · intro s
    exact sessionOk_nil _ _ rfl
  · constructor
    · simp [begin]
    · simp [begin]
    · simp [begin]

theorem Inv.safe (hi : Inv maxReplays w) : w.Safe maxReplays := by
  have hsub : w.enqueued.Sublist (w.tickets.map (·.entry)) := List.filter_sublist.map _
  have hledger := hi.ledger.sublist hsub
  exact ⟨hledger.once, hledger.limit⟩

-- No entry causes two tasks and no chain goes over its limit, in any run whose
-- commits are all clean.
theorem replays_safe (entries : Table DeadLetterEntry DeadLetterEntry.id)
    (path : List (Event × World)) (hp : Path (World.Step maxReplays requests) (begin entries) path)
    (hclean : EveryStep (fun w event _ => w.Clean maxReplays event) (begin entries) path) :
    ∀ w ∈ visited (begin entries) path, w.Safe maxReplays := by
  intro w hw
  have hi := hp.guarded_invariant (inv_begin maxReplays entries) hclean
    (fun _ event _ hi hclean h => inv_step maxReplays requests event hi hclean h) w hw
  exact hi.safe

end Steps

section Runs

open World

def oneEntry : Table DeadLetterEntry DeadLetterEntry.id :=
  Table.empty.insert (newEntry "DETERMINISTIC_SCORE" none (some 0)) fun _ => rfl

def replayZero (_ : ℕ) : Request where
  candidateIds := [0]
  resumeIds := []
  dlqIds := [0]
  replayedBy := "admin"

def replayRun (events : List Event) : List (Event × World) :=
  execute (next? 1 replayZero) (begin oneEntry) events

theorem replayRun_path (events : List Event) :
    Path (World.Step 1 replayZero) (begin oneEntry) (replayRun events) :=
  execute_path (next? 1 replayZero) (fun _ _ _ h => h) (begin oneEntry) events

def aloneEvents : List Event := [.read 0, .examine 0 none, .mark 0 0, .commit 0, .enqueue 0]

-- Both calls read the entry before either commits; the UPDATE of the second
-- waits for the first and then overwrites it.
def overlappingEvents : List Event :=
  [.read 0, .read 1, .examine 0 none, .examine 1 none, .mark 0 0, .commit 0, .mark 1 1, .commit 1,
    .enqueue 0, .enqueue 1]

theorem replays_safe_alone : (final (begin oneEntry) (replayRun aloneEvents)).Safe 1 := by
  refine replays_safe 1 replayZero oneEntry (replayRun aloneEvents) (replayRun_path aloneEvents)
    ?_ _ (final_mem_visited _ _)
  refine ⟨trivial, trivial, trivial, ?_, trivial, trivial⟩
  intro m hm
  obtain rfl := List.mem_singleton.mp hm
  constructor
  · intro row hrow _
    rw [List.mem_singleton.mp hrow]
    rfl
  · intro c hc
    cases hc
    decide

theorem overlapping_calls_replay_twice : ¬∀ (maxReplays : ℕ) (requests : ℕ → Request)
      (entries : Table DeadLetterEntry DeadLetterEntry.id) (path : List (Event × World)),
      1 ≤ maxReplays → Path (World.Step maxReplays requests) (begin entries) path →
      ∀ w ∈ visited (begin entries) path, w.Safe maxReplays := by
  intro h
  have hsafe := h 1 replayZero oneEntry (replayRun overlappingEvents) (Nat.le_refl 1)
    (replayRun_path overlappingEvents) _ (final_mem_visited _ _)
  have htwice : (final (begin oneEntry) (replayRun overlappingEvents)).enqueued.map (·.id) =
      [0, 0] := by decide
  have honce := hsafe.1
  rw [htwice] at honce
  exact absurd honce (by decide)

end Runs

end DeadLetterReplay

end AiHiring
