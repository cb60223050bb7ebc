import AiHiring.Jd.Service
import AiHiring.Library.Run

namespace AiHiring

open Library

namespace JdLineage

-- How far a call is between its reads and its commit. A queued call is a creation
-- or carries what `update_jd` has returned.
inductive Phase where
  | idle
  | queued (required : Option JDReprocessRequired)
  | persisting (required : Option JDReprocessRequired) (content : PersistRequest)
  | updating (request : UpdateJDRequest) (updatedBy : String) (existing : JobDescription)
      (lineageRootId : Uuid)
  | closing (existing : JobDescription)
  | done

-- The version that a call has read, with the lineage and the number that its
-- own version will get.
structure Target where
  (existingJdId lineageRootId : Uuid)
  versionNumber : ℕ

def Target.ofRequired (required : JDReprocessRequired) : Target :=
  ⟨required.existingJdId, required.lineageRootId, required.versionNumber⟩

def Phase.target : Phase → Option Target
  | queued required | persisting required _ => required.map Target.ofRequired
  | updating _ _ existing lineageRootId =>
    some ⟨existing.id, lineageRootId, existing.versionNumber + 1⟩
  | closing existing => some ⟨existing.id, existing.lineage, existing.versionNumber + 1⟩
  | idle | done => none

-- The version that the commit of the call replaces.
def Phase.supersedes : Phase → Option Uuid
  | persisting required _ => required.map (·.existingJdId)
  | updating _ _ existing _ => some existing.id
  | idle | queued _ | closing _ | done => none

-- The task's arguments around what the stages of the pipeline produce.
def persistRequest (required : Option JDReprocessRequired) (content : PersistRequest) :
    PersistRequest :=
  match required with
  | none =>
    { content with
      existingJdId := none
      versionNumber := 1
      parentJdId := none
      lineageRootId := none }
  | some r =>
    { content with
      title := r.title
      jurisdiction := some r.jurisdiction
      minExperienceYears := some r.minExperienceYears
      maxExperienceYears := some r.maxExperienceYears
      noticePeriod := some r.noticePeriod
      educationCriteria := some r.educationCriteria
      filePath := r.filePath
      originalFilename := r.originalFilename
      createdBy := r.updatedBy
      promptTemplateId := r.promptTemplateId
      existingJdId := some r.existingJdId
      versionNumber := r.versionNumber
      parentJdId := some r.parentJdId
      lineageRootId := some r.lineageRootId }

-- `closed` lists the lineages whose active version `deactivate_jd` has closed.
structure World where
  db : JdDatabase
  phase : ℕ → Phase
  closed : List Uuid

inductive Event where
  | submit (session : ℕ)
  | update (session : ℕ) (jdId : Uuid) (request : UpdateJDRequest) (updatedBy : String)
      (filePath originalFilename : Option String)
  | check (session : ℕ) (content : PersistRequest)
  | deactivate (session : ℕ) (jdId : Uuid)
  | commit (session : ℕ) (now : Instant)
  | fail (session : ℕ)
  | campaign (jdId : Uuid) (active : Bool)

namespace World

def rows (w : World) : List JobDescription := w.db.jobDescriptions.rows

def setPhase (w : World) (session : ℕ) (phase : Phase) : World :=
  { w with phase := Function.update w.phase session phase }

def write (w : World) (session : ℕ) (result : Except JdError (JdDatabase × Uuid)) :
    Option World :=
  match result with
  | .ok (db, _) => some (World.setPhase { w with db := db } session .done)
  | .error _ => none

def isActive (w : World) (jdId : Uuid) : Bool :=
  w.rows.any fun jd => jd.id = jdId ∧ jd.isActiveVersion

def close (w : World) (existing : JobDescription) (now : Instant) : World :=
  { w with
    db := JDService.closeWrites w.db existing now
    closed := if w.isActive existing.id then w.closed ++ [existing.lineage] else w.closed }

variable (generateHash : String → String)

-- A call whose checks raise does not move; a commit that the index refuses is
-- rolled back, which is a `fail`.
def next? (w : World) : Event → Option World
  | .submit session =>
    match w.phase session with
    | .idle => some (w.setPhase session (.queued none))
    | _ => none
  | .update session jdId request updatedBy filePath originalFilename =>
    match w.phase session with
    | .idle =>
      match JDService.updateJd w.db generateHash jdId request updatedBy filePath
          originalFilename with
      | .ok (.reprocess required) => some (w.setPhase session (.queued (some required)))
      | .ok (.metadata existing lineageRootId) =>
        some (w.setPhase session (.updating request updatedBy existing lineageRootId))
      | .error _ => none
    | _ => none
  | .check session content =>
    match w.phase session with
    | .queued required =>
      match JDService.persistChecks w.db (persistRequest required content) with
      | .ok () => some (w.setPhase session (.persisting required content))
      | .error _ => none
    | _ => none
  | .deactivate session jdId =>
    match w.phase session with
    | .idle =>
      match JDService.deactivateJd w.db jdId with
      | .ok existing => some (w.setPhase session (.closing existing))
      | .error _ => none
    | _ => none
  | .commit session now =>
    match w.phase session with
    | .persisting required content =>
      w.write session (JDService.persistWrites w.db (persistRequest required content))
    | .updating request updatedBy existing lineageRootId =>
      w.write session (JDService.metadataWrites w.db generateHash request updatedBy existing
        lineageRootId)
    | .closing existing => some ((w.close existing now).setPhase session .done)
    | _ => none
  | .fail session =>
    -- a task whose persistence fails is tried again
    match w.phase session with
    | .persisting required _ => some (w.setPhase session (.queued required))
    | _ => some (w.setPhase session .done)
  | .campaign jdId active =>
    some { w with db := { w.db with
      activeCampaigns := Function.update w.db.activeCampaigns jdId active } }

def Step (w : World) (event : Event) (w' : World) : Prop :=
  w.next? generateHash event = some w'

def begin (db : JdDatabase) : World where
  db := { db with jobDescriptions := JobDescriptionTable.empty }
  phase := fun _ => .idle
  closed := []

-- Each lineage has at most one active version, its version numbers are pairwise
-- distinct, and a lineage that was closed stays closed.
def Safe (w : World) : Prop :=
  (∀ a ∈ w.rows, ∀ b ∈ w.rows, a.lineage = b.lineage → a.isActiveVersion = true →
    b.isActiveVersion = true → a = b) ∧
  (∀ a ∈ w.rows, ∀ b ∈ w.rows, a.lineage = b.lineage → a.versionNumber = b.versionNumber → a = b) ∧
  ∀ a ∈ w.rows, a.lineage ∈ w.closed → a.isActiveVersion = false

def supersedes (w : World) : Event → Option Uuid
  | .commit session _ => (w.phase session).supersedes
  | _ => none

-- A commit that replaces a version finds it still active.
def Timely (w : World) (event : Event) : Prop :=
  ∀ jdId, w.supersedes event = some jdId → ∃ jd ∈ w.rows, jd.id = jdId ∧ jd.isActiveVersion = true

end World

section Versions

variable {t t' : JobDescriptionTable} {closed : List Uuid} {f : JobDescription → JobDescription}
  {e row : JobDescription}

-- A write that deactivates one version and leaves all else of a lineage alone.
structure Retires (jdId : Uuid) (f : JobDescription → JobDescription) : Prop where
  id : ∀ a, (f a).id = a.id
  root : ∀ a, (f a).lineageRootId = a.lineageRootId
  number : ∀ a, (f a).versionNumber = a.versionNumber
  active : ∀ a, (f a).isActiveVersion = true ↔ a.isActiveVersion = true ∧ a.id ≠ jdId

theorem Retires.lineage {jdId : Uuid} (h : Retires jdId f) (a : JobDescription) :
    (f a).lineage = a.lineage := by
  rw [JobDescription.lineage, JobDescription.lineage, h.root, h.id]

theorem retires_deactivation (jdId : Uuid) : Retires jdId (JDRepository.deactivation jdId).write := by
  constructor
  · exact (JDRepository.deactivation jdId).id
  · exact (JDRepository.deactivation jdId).lineageRootId
  · exact (JDRepository.deactivation jdId).versionNumber
  · intro a
    by_cases ha : a.id = jdId <;> simp [JDRepository.deactivation, ha]

theorem retires_closing (jdId : Uuid) (now : Instant) :
    Retires jdId (JDRepository.closing jdId now).write := by
  constructor
  · exact (JDRepository.closing jdId now).id
  · exact (JDRepository.closing jdId now).lineageRootId
  · exact (JDRepository.closing jdId now).versionNumber
  · intro a
    by_cases ha : a.id = jdId <;> simp [JDRepository.closing, ha]

-- What every run keeps: roots exist, an active root is the whole of its lineage,
-- and a lineage without an active version has been closed.
structure Lineages (t : JobDescriptionTable) (closed : List Uuid) : Prop where
  rooted : ∀ a ∈ t.rows, ∃ root ∈ t.rows, root.id = a.lineage ∧ root.lineageRootId = none
  alone : ∀ root ∈ t.rows, root.isActiveVersion = true → root.lineageRootId = none →
    ∀ a ∈ t.rows, a.lineageRootId ≠ some root.id
  attended : ∀ a ∈ t.rows, a.lineage ∈ closed ∨
    ∃ b ∈ t.rows, b.lineage = a.lineage ∧ b.isActiveVersion = true
  known : ∀ r ∈ closed, ∃ root ∈ t.rows, root.id = r

-- What a run keeps as long as it replaces only active versions.
structure Numbered (t : JobDescriptionTable) (closed : List Uuid) : Prop where
  distinct : ∀ a ∈ t.rows, ∀ b ∈ t.rows, a.lineage = b.lineage →
    a.versionNumber = b.versionNumber → a = b
  latest : ∀ a ∈ t.rows, ∀ b ∈ t.rows, a.lineage = b.lineage → a.isActiveVersion = true →
    b.versionNumber ≤ a.versionNumber
  shut : ∀ a ∈ t.rows, a.lineage ∈ closed → a.isActiveVersion = false

theorem eq_of_id (ha : e ∈ t.rows) (hb : row ∈ t.rows) (h : e.id = row.id) : e = row :=
  t.versions.eq_of_key_eq ha hb h

theorem lineage_root (h : e.lineageRootId = none) : e.lineage = e.id := by
  rw [JobDescription.lineage, h, Option.getD_none]

theorem lineage_some {r : Uuid} (h : e.lineageRootId = some r) : e.lineage = r := by
  rw [JobDescription.lineage, h, Option.getD_some]

theorem root_or_some (e : JobDescription) :
    e.lineageRootId = none ∧ e.lineage = e.id ∨ e.lineageRootId = some e.lineage := by
  cases h : e.lineageRootId with
  | none => exact .inl ⟨rfl, lineage_root h⟩
  | some r => exact .inr (by rw [lineage_some h])

theorem Lineages.single (h : Lineages t closed) : ∀ a ∈ t.rows, ∀ b ∈ t.rows,
    a.lineage = b.lineage → a.isActiveVersion = true → b.isActiveVersion = true → a = b := by
  intro a ha b hb hab hactive hactive'
  rcases root_or_some a with ⟨hroot, hid⟩ | hsome
  · rcases root_or_some b with ⟨-, hid'⟩ | hsome'
    · exact eq_of_id ha hb (hid.symm.trans (hab.trans hid'))
    · rw [← hab, hid] at hsome'
      exact absurd hsome' (h.alone a ha hactive hroot b hb)
  · rcases root_or_some b with ⟨hroot', hid'⟩ | hsome'
    · rw [hab, hid'] at hsome
      exact absurd hsome (h.alone b hb hactive' hroot' a ha)
    · have hsame : sameActiveLineage a b :=
        ⟨hactive, hactive', by rw [hsome, hsome', hab], by simp [hsome]⟩
      exact t.uqActiveLineage a ha b hb hsame

theorem Lineages.fresh (h : Lineages t closed) {a : JobDescription} (ha : a ∈ t.rows) :
    a.lineage < t.versions.next := by
  obtain ⟨root, hroot, hid, -⟩ := h.rooted a ha
  rw [← hid]
  exact t.versions.below root hroot

section Create

variable (hrows : t'.rows = t.rows ++ [row]) (hid : row.id = t.versions.next)
  (hroot : row.lineageRootId = none) (hactive : row.isActiveVersion = true)

include hid hroot

theorem created_lineage_ne (h : Lineages t closed) {a : JobDescription} (ha : a ∈ t.rows) :
    a.lineage ≠ row.lineage := by
  have hlt := h.fresh ha
  rw [lineage_root hroot, hid]
  exact Nat.ne_of_lt hlt

include hrows

theorem Numbered.created (hn : Numbered t closed) (h : Lineages t closed) : Numbered t' closed := by
  have hne : ∀ a ∈ t.rows, a.lineage ≠ row.lineage := fun a ha =>
    created_lineage_ne hid hroot h ha
  have hcases : ∀ a ∈ t'.rows, a ∈ t.rows ∨ a = row := by
    intro a ha
    rw [hrows, List.mem_append, List.mem_singleton] at ha
    exact ha
  constructor
  · intro a ha b hb hab hnumber
    rcases hcases a ha with ha | rfl
    · rcases hcases b hb with hb | rfl
      · exact hn.distinct a ha b hb hab hnumber
      · exact absurd hab (hne a ha)
    · rcases hcases b hb with hb | rfl
      · exact absurd hab.symm (hne b hb)
      · rfl
  · intro a ha b hb hab haa
    rcases hcases a ha with ha | rfl
    · rcases hcases b hb with hb | rfl
      · exact hn.latest a ha b hb hab haa
      · exact absurd hab (hne a ha)
    · rcases hcases b hb with hb | rfl
      · exact absurd hab.symm (hne b hb)
      · exact Nat.le_refl _
  · intro a ha hclosed
    rcases hcases a ha with ha | rfl
    · exact hn.shut a ha hclosed
    · obtain ⟨root, hr, hrid⟩ := h.known _ hclosed
      have hlt := t.versions.below root hr
      rw [hrid, lineage_root hroot, hid] at hlt
      exact absurd hlt (Nat.lt_irrefl _)

include hactive

theorem Lineages.created (h : Lineages t closed) : Lineages t' closed := by
  have hkeep : ∀ a ∈ t.rows, a ∈ t'.rows := fun a ha => hrows ▸ List.mem_append_left _ ha
  have hnew : row ∈ t'.rows := by simp [hrows]
  have hcases : ∀ a ∈ t'.rows, a ∈ t.rows ∨ a = row := by
    intro a ha
    rw [hrows, List.mem_append, List.mem_singleton] at ha
    exact ha
  constructor
  · intro a ha
    rcases hcases a ha with hold | rfl
    · obtain ⟨root, hr, hrid⟩ := h.rooted a hold
      exact ⟨root, hkeep root hr, hrid⟩
    · exact ⟨a, hnew, (lineage_root hroot).symm, hroot⟩
  · intro root hr hra hrr a ha hsome
    rcases hcases a ha with hold | rfl
    · rcases hcases root hr with hr | rfl
      · exact h.alone root hr hra hrr a hold hsome
      · have hlt := h.fresh hold
        rw [lineage_some hsome, hid] at hlt
        exact Nat.lt_irrefl _ hlt
    · rw [hroot] at hsome
      simp at hsome
  · intro a ha
    rcases hcases a ha with hold | rfl
    · refine (h.attended a hold).imp id ?_
      rintro ⟨b, hb, hba, hbactive⟩
      exact ⟨b, hkeep b hb, hba, hbactive⟩
    · exact .inr ⟨a, hnew, rfl, hactive⟩
  · intro r hr
    obtain ⟨root, hroot, hrid⟩ := h.known r hr
    exact ⟨root, hkeep root hroot, hrid⟩

end Create

section Supersede

variable (hf : Retires e.id f) (he : e ∈ t.rows) (hrows : t'.rows = t.rows.map f ++ [row])
  (hroot : row.lineageRootId = some e.lineage) (hactive : row.isActiveVersion = true)

include hf he hrows hroot hactive

theorem Lineages.superseded (h : Lineages t closed) : Lineages t' closed := by
  have hkeep : ∀ a ∈ t.rows, f a ∈ t'.rows := fun a ha =>
    hrows ▸ List.mem_append_left _ (List.mem_map_of_mem ha)
  have hnew : row ∈ t'.rows := by simp [hrows]
  have hcases : ∀ a' ∈ t'.rows, (∃ a ∈ t.rows, f a = a') ∨ a' = row := by
    intro a ha
    rw [hrows, List.mem_append, List.mem_singleton, List.mem_map] at ha
    exact ha
  have hlineage := lineage_some hroot
  constructor
  · intro a' ha'
    have hof (a : JobDescription) (ha : a ∈ t.rows) :
        ∃ root ∈ t'.rows, root.id = a.lineage ∧ root.lineageRootId = none := by
      obtain ⟨root, hr, hrid, hrr⟩ := h.rooted a ha
      exact ⟨f root, hkeep root hr, (hf.id root).trans hrid, (hf.root root).trans hrr⟩
    rcases hcases a' ha' with ⟨a, ha, rfl⟩ | rfl
    · rw [hf.lineage]
      exact hof a ha
    · rw [hlineage]
      exact hof e he
  · intro root' hr' hra hrr a' ha' hsome
    rcases hcases root' hr' with ⟨root, hr, rfl⟩ | rfl
    · obtain ⟨hra, hne⟩ := (hf.active root).mp hra
      rw [hf.root] at hrr
      rw [hf.id] at hsome
      rcases hcases a' ha' with ⟨a, ha, rfl⟩ | rfl
      · exact h.alone root hr hra hrr a ha ((hf.root a).symm.trans hsome)
      · -- the lineage of the replaced version would have a second, active root
        have hid : e.lineage = root.id := Option.some.inj (hroot.symm.trans hsome)
        rcases root_or_some e with ⟨-, hee⟩ | hes
        · exact hne (hid.symm.trans hee)
        · exact h.alone root hr hra hrr e he (hes.trans (by rw [hid]))
    · rw [hroot] at hrr
      simp at hrr
  · intro a' ha'
    rcases hcases a' ha' with ⟨a, ha, rfl⟩ | rfl
    · rw [hf.lineage]
      by_cases hae : a.lineage = e.lineage
      · exact .inr ⟨row, hnew, hlineage.trans hae.symm, hactive⟩
      · refine (h.attended a ha).imp id ?_
        rintro ⟨b, hb, hba, hbactive⟩
        have hbe : b.id ≠ e.id := fun hid => hae (by rw [← hba, eq_of_id hb he hid])
        exact ⟨f b, hkeep b hb, (hf.lineage b).trans hba, (hf.active b).mpr ⟨hbactive, hbe⟩⟩
    · exact .inr ⟨a', hnew, rfl, hactive⟩
  · intro r hr
    obtain ⟨root, hroot, hrid⟩ := h.known r hr
    exact ⟨f root, hkeep root hroot, (hf.id root).trans hrid⟩

theorem Numbered.superseded (hn : Numbered t closed) (h : Lineages t closed)
    (hnumber : row.versionNumber = e.versionNumber + 1) (hea : e.isActiveVersion = true) :
    Numbered t' closed := by
  have hcases : ∀ a' ∈ t'.rows, (∃ a ∈ t.rows, f a = a') ∨ a' = row := by
    intro a ha
    rw [hrows, List.mem_append, List.mem_singleton, List.mem_map] at ha
    exact ha
  have hlineage := lineage_some hroot
  have hlt : ∀ a ∈ t.rows, a.lineage = e.lineage → a.versionNumber < row.versionNumber := by
    intro a ha hae
    have hle := hn.latest e he a ha hae.symm hea
    omega
  constructor
  · intro a' ha' b' hb' hab heq
    rcases hcases a' ha' with ⟨a, ha, rfl⟩ | rfl
    · rw [hf.lineage, hf.number] at *
      rcases hcases b' hb' with ⟨b, hb, rfl⟩ | rfl
      · rw [hf.lineage] at hab
        rw [hf.number] at heq
        rw [hn.distinct a ha b hb hab heq]
      · have := hlt a ha (hab.trans hlineage)
        omega
    · rcases hcases b' hb' with ⟨b, hb, rfl⟩ | rfl
      · rw [hf.lineage] at hab
        rw [hf.number] at heq
        have := hlt b hb (hab.symm.trans hlineage)
        omega
      · rfl
  · intro a' ha' b' hb' hab haa
    rcases hcases a' ha' with ⟨a, ha, rfl⟩ | rfl
    · obtain ⟨haa, hne⟩ := (hf.active a).mp haa
      rw [hf.lineage] at hab
      rw [hf.number]
      rcases hcases b' hb' with ⟨b, hb, rfl⟩ | rfl
      · rw [hf.lineage] at hab
        rw [hf.number]
        exact hn.latest a ha b hb hab haa
      · have hae := h.single a ha e he (hab.trans hlineage) haa hea
        exact absurd (congrArg JobDescription.id hae) hne
    · rcases hcases b' hb' with ⟨b, hb, rfl⟩ | rfl
      · rw [hf.lineage] at hab
        rw [hf.number]
        have := hlt b hb (hab.symm.trans hlineage)
        omega
      · exact Nat.le_refl _
  · intro a' ha' hclosed
    rcases hcases a' ha' with ⟨a, ha, rfl⟩ | rfl
    · rw [hf.lineage] at hclosed
      have hshut := hn.shut a ha hclosed
      by_contra hactive'
      have haa := ((hf.active a).mp (by simpa using hactive')).1
      rw [hshut] at haa
      simp at haa
    · rw [hlineage] at hclosed
      rw [hn.shut e he hclosed] at hea
      simp at hea

-- Replacing an inactive version opens a closed lineage again: were the lineage
-- not closed, the index would have refused the new version.
theorem Lineages.reopened (h : Lineages t closed) (hid : row.id = t.versions.next)
    (hea : e.isActiveVersion = false) : row.lineage ∈ closed := by
  rw [lineage_some hroot]
  rcases h.attended e he with hclosed | ⟨b, hb, hbe, hba⟩
  · exact hclosed
  · have hne : b.id ≠ e.id := by
      intro hid
      rw [eq_of_id hb he hid, hea] at hba
      simp at hba
    rcases root_or_some b with ⟨hbroot, hbid⟩ | hbsome
    · rcases root_or_some e with ⟨-, hee⟩ | hes
      · exact absurd (hbid.symm.trans (hbe.trans hee)) hne
      · rw [← hbe, hbid] at hes
        exact absurd hes (h.alone b hb hba hbroot e he)
    · have hsame : sameActiveLineage (f b) row := by
        refine ⟨(hf.active b).mpr ⟨hba, hne⟩, hactive, ?_, ?_⟩
        · rw [hf.root, hbsome, hroot, hbe]
        · simp [hf.root, hbsome]
      have hfb : f b ∈ t'.rows := hrows ▸ List.mem_append_left _ (List.mem_map_of_mem hb)
      have hnew : row ∈ t'.rows := by simp [hrows]
      have heq := t'.uqActiveLineage (f b) hfb row hnew hsame
      have hlt := t.versions.below b hb
      rw [← hf.id b, heq, hid] at hlt
      exact absurd hlt (Nat.lt_irrefl _)

end Supersede

section Close

variable (hf : Retires e.id f) (he : e ∈ t.rows) (hrows : t'.rows = t.rows.map f)

include hf he hrows

theorem Lineages.retired (h : Lineages t closed) :
    Lineages t' (if e.isActiveVersion then closed ++ [e.lineage] else closed) := by
  have hkeep : ∀ a ∈ t.rows, f a ∈ t'.rows := fun a ha => hrows ▸ List.mem_map_of_mem ha
  have hcases : ∀ a' ∈ t'.rows, ∃ a ∈ t.rows, f a = a' := by
    intro a ha
    rw [hrows, List.mem_map] at ha
    exact ha
  constructor
  · intro a' ha'
    obtain ⟨a, ha, rfl⟩ := hcases a' ha'
    obtain ⟨root, hr, hrid, hrr⟩ := h.rooted a ha
    exact ⟨f root, hkeep root hr, by rw [hf.id, hf.lineage, hrid], (hf.root root).trans hrr⟩
  · intro root' hr' hra hrr a' ha' hsome
    obtain ⟨root, hr, rfl⟩ := hcases root' hr'
    obtain ⟨a, ha, rfl⟩ := hcases a' ha'
    rw [hf.root] at hrr hsome
    rw [hf.id] at hsome
    exact h.alone root hr ((hf.active root).mp hra).1 hrr a ha hsome
  · intro a' ha'
    obtain ⟨a, ha, rfl⟩ := hcases a' ha'
    rw [hf.lineage]
    rcases h.attended a ha with hclosed | ⟨b, hb, hba, hbactive⟩
    · left
      split_ifs
      · exact List.mem_append_left _ hclosed
      · exact hclosed
    · by_cases hbe : b.id = e.id
      · left
        obtain rfl := eq_of_id hb he hbe
        rw [if_pos hbactive, ← hba]
        simp
      · exact .inr ⟨f b, hkeep b hb, (hf.lineage b).trans hba, (hf.active b).mpr ⟨hbactive, hbe⟩⟩
  · intro r hr
    have hof : r ∈ closed ∨ r = e.lineage := by
      split_ifs at hr
      · rwa [List.mem_append, List.mem_singleton] at hr
      · exact .inl hr
    rcases hof with hold | rfl
    · obtain ⟨root, hroot, hrid⟩ := h.known r hold
      exact ⟨f root, hkeep root hroot, (hf.id root).trans hrid⟩
    · obtain ⟨root, hroot, hrid, -⟩ := h.rooted e he
      exact ⟨f root, hkeep root hroot, (hf.id root).trans hrid⟩

theorem Numbered.retired (hn : Numbered t closed) (h : Lineages t closed) :
    Numbered t' (if e.isActiveVersion then closed ++ [e.lineage] else closed) := by
  have hcases : ∀ a' ∈ t'.rows, ∃ a ∈ t.rows, f a = a' := by
    intro a ha
    rw [hrows, List.mem_map] at ha
    exact ha
  constructor
  · intro a' ha' b' hb' hab heq
    obtain ⟨a, ha, rfl⟩ := hcases a' ha'
    obtain ⟨b, hb, rfl⟩ := hcases b' hb'
    rw [hf.lineage, hf.lineage] at hab
    rw [hf.number, hf.number] at heq
    rw [hn.distinct a ha b hb hab heq]
  · intro a' ha' b' hb' hab haa
    obtain ⟨a, ha, rfl⟩ := hcases a' ha'
    obtain ⟨b, hb, rfl⟩ := hcases b' hb'
    rw [hf.lineage, hf.lineage] at hab
    rw [hf.number, hf.number]
    exact hn.latest a ha b hb hab ((hf.active a).mp haa).1
  · intro a' ha' hclosed
    obtain ⟨a, ha, rfl⟩ := hcases a' ha'
    rw [hf.lineage] at hclosed
    by_contra hactive
    obtain ⟨haa, hne⟩ := (hf.active a).mp (by simpa using hactive)
    have hopen : a.lineage ∉ closed := by
      intro hin
      rw [hn.shut a ha hin] at haa
      simp at haa
    split_ifs at hclosed with hea
    · rw [List.mem_append, List.mem_singleton] at hclosed
      have hae := h.single a ha e he (hclosed.resolve_left hopen) haa hea
      exact hne (congrArg JobDescription.id hae)
    · exact hopen hclosed

end Close

end Versions

section Steps

open JDService World

variable (generateHash : String → String)

def Pending (rows : List JobDescription) (target : Target) : Prop :=
  ∃ e ∈ rows, e.id = target.existingJdId ∧ e.lineage = target.lineageRootId ∧
    target.versionNumber = e.versionNumber + 1

structure Inv (w : World) : Prop where
  lineages : Lineages w.db.jobDescriptions w.closed
  pending : ∀ session target, (w.phase session).target = some target → Pending w.rows target

-- What a step does to the versions, with the version that it replaces.
inductive Effect (w w' : World) : Option Uuid → Prop where
  | quiet (hrows : w'.db.jobDescriptions = w.db.jobDescriptions) (hclosed : w'.closed = w.closed) :
      Effect w w' none
  | created (row : JobDescription) (hrows : w'.rows = w.rows ++ [row])
      (hid : row.id = w.db.jobDescriptions.versions.next) (hroot : row.lineageRootId = none)
      (hactive : row.isActiveVersion = true) (hclosed : w'.closed = w.closed) : Effect w w' none
  | superseded (f : JobDescription → JobDescription) (e row : JobDescription)
      (hf : Retires e.id f) (he : e ∈ w.rows) (hrows : w'.rows = w.rows.map f ++ [row])
      (hid : row.id = w.db.jobDescriptions.versions.next)
      (hroot : row.lineageRootId = some e.lineage) (hactive : row.isActiveVersion = true)
      (hnumber : row.versionNumber = e.versionNumber + 1) (hclosed : w'.closed = w.closed) :
      Effect w w' (some e.id)
  | retired (f : JobDescription → JobDescription) (e : JobDescription) (hf : Retires e.id f)
      (he : e ∈ w.rows) (hrows : w'.rows = w.rows.map f)
      (hclosed : w'.closed = if e.isActiveVersion then w.closed ++ [e.lineage] else w.closed) :
      Effect w w' none

variable {w w' : World} {replaced : Option Uuid}

theorem Effect.pending (h : Effect w w' replaced)
    (target : Target) (hp : Pending w.rows target) : Pending w'.rows target := by
  obtain ⟨e, he, hfacts⟩ := hp
  have hmap (f : JobDescription → JobDescription) (jdId : Uuid) (hf : Retires jdId f)
      (hin : f e ∈ w'.rows) : Pending w'.rows target := by
    refine ⟨f e, hin, ?_⟩
    rw [hf.id, hf.lineage, hf.number]
    exact hfacts
  cases h with
  | quiet hrows => exact ⟨e, by rw [rows, hrows]; exact he, hfacts⟩
  | created row hrows => exact ⟨e, hrows ▸ List.mem_append_left _ he, hfacts⟩
  | superseded f old row hf _ hrows =>
    exact hmap f old.id hf (hrows ▸ List.mem_append_left _ (List.mem_map_of_mem he))
  | retired f old hf _ hrows => exact hmap f old.id hf (hrows ▸ List.mem_map_of_mem he)

theorem deactivateExisting_rows (db : JdDatabase) (request : PersistRequest)
    (e : JobDescription) (he : e ∈ db.jobDescriptions.rows)
    (hexisting : request.existingJdId = some e.id) :
    (deactivateExisting db request).jobDescriptions =
      db.jobDescriptions.amend (JDRepository.deactivation e.id) := by
  have hfound : JDRepository.getById db e.id = some e :=
    (Table.find?_eq_some _ _ _).mpr ⟨he, rfl⟩
  rw [deactivateExisting, hexisting, Option.bind_some, hfound]
  rfl

theorem commit_created (session : ℕ) (content : PersistRequest)
    (h : w.write session (persistWrites w.db (persistRequest none content)) = some w') :
    Effect w w' none ∧ w'.phase = Function.update w.phase session .done := by
  simp only [World.write] at h
  split at h
  · next db id hwrites =>
      cases h
      obtain ⟨columns, jobDescriptions, hinsert, hdb⟩ := persistWrites_eq_ok _ _ _ hwrites
      obtain ⟨-, hversions, -⟩ := JobDescriptionTable.insert_eq_ok _ _ _ _ hinsert
      have hdb' : db.jobDescriptions = jobDescriptions := congrArg JdDatabase.jobDescriptions hdb
      refine ⟨.created (persistRow (persistRequest none content) columns
        w.db.jobDescriptions.versions.next) ?_ rfl rfl rfl rfl, rfl⟩
      change db.jobDescriptions.versions.rows = _
      rw [hdb', hversions]
      rfl
  · simp at h

theorem commit_persisted (session : ℕ) (r : JDReprocessRequired)
    (content : PersistRequest) (hp : Pending w.rows (.ofRequired r))
    (h : w.write session (persistWrites w.db (persistRequest (some r) content)) = some w') :
    Effect w w' (some r.existingJdId) ∧ w'.phase = Function.update w.phase session .done := by
  obtain ⟨e, he, hid, hlineage, hnumber⟩ := hp
  simp only [World.write] at h
  split at h
  · next db id hwrites =>
      cases h
      obtain ⟨columns, jobDescriptions, hinsert, hdb⟩ := persistWrites_eq_ok _ _ _ hwrites
      obtain ⟨-, hversions, -⟩ := JobDescriptionTable.insert_eq_ok _ _ _ _ hinsert
      have hdb' : db.jobDescriptions = jobDescriptions := congrArg JdDatabase.jobDescriptions hdb
      have hold := deactivateExisting_rows w.db (persistRequest (some r) content) e he
        (congrArg some hid.symm)
      refine ⟨?_, rfl⟩
      change Effect w _ (some (Target.ofRequired r).existingJdId)
      rw [← hid]
      refine .superseded _ e (persistRow (persistRequest (some r) content) columns
        w.db.jobDescriptions.versions.next) (retires_deactivation e.id) he ?_ rfl
        (congrArg some hlineage.symm) rfl hnumber rfl
      change db.jobDescriptions.versions.rows = _
      rw [hdb', hversions, hold]
      rfl
  · simp at h

theorem commit_updated (session : ℕ) (request : UpdateJDRequest)
    (updatedBy : String) (existing : JobDescription) (lineageRootId : Uuid)
    (hp : Pending w.rows ⟨existing.id, lineageRootId, existing.versionNumber + 1⟩)
    (h : w.write session (metadataWrites w.db generateHash request updatedBy existing
      lineageRootId) = some w') :
    Effect w w' (some existing.id) ∧ w'.phase = Function.update w.phase session .done := by
  obtain ⟨e, he, hid, hlineage, hnumber⟩ := hp
  simp only [World.write] at h
  split at h
  · next db id hwrites =>
      cases h
      obtain ⟨title, jobDescriptions, hinsert, hdb⟩ := metadataWrites_eq_ok _ _ _ _ _ _ _ hwrites
      obtain ⟨-, hversions, -⟩ := JobDescriptionTable.insert_eq_ok _ _ _ _ hinsert
      have hdb' : db.jobDescriptions = jobDescriptions := congrArg JdDatabase.jobDescriptions hdb
      refine ⟨?_, rfl⟩
      change e.id = existing.id at hid
      rw [← hid]
      refine .superseded _ e (nextVersion generateHash request title updatedBy existing
        lineageRootId w.db.jobDescriptions.versions.next) (retires_deactivation e.id) he ?_ rfl
        (congrArg some hlineage.symm) rfl hnumber rfl
      change db.jobDescriptions.versions.rows = _
      rw [hdb', hversions, hid]
      rfl
  · simp at h

theorem isActive_eq {e : JobDescription} (he : e ∈ w.rows) :
    w.isActive e.id = e.isActiveVersion := by
  have hiff : w.isActive e.id = true ↔ e.isActiveVersion = true := by
    rw [isActive, List.any_eq_true]
    constructor
    · rintro ⟨jd, hjd, hsame⟩
      obtain ⟨hid, hactive⟩ := of_decide_eq_true hsame
      rwa [eq_of_id hjd he hid] at hactive
    · intro hactive
      exact ⟨e, he, by simp [hactive]⟩
  exact Bool.eq_iff_iff.mpr hiff

theorem commit_closed (w : World) (session : ℕ) (existing : JobDescription) (now : Instant)
    (hp : Pending w.rows ⟨existing.id, existing.lineage, existing.versionNumber + 1⟩) :
    Effect w ((w.close existing now).setPhase session .done) none := by
  obtain ⟨e, he, hid, hlineage, -⟩ := hp
  change e.id = existing.id at hid
  change e.lineage = existing.lineage at hlineage
  refine .retired _ e (retires_closing e.id now) he ?_ ?_
  · rw [hid]
    rfl
  · change (if w.isActive existing.id then w.closed ++ [existing.lineage] else w.closed) = _
    rw [← hid, ← hlineage, isActive_eq he]

-- What a session has read after the step was there before it or is read by it.
def Reads (w w' : World) : Prop :=
  ∀ session target, (w'.phase session).target = some target →
    (w.phase session).target = some target ∨ Pending w.rows target

theorem reads_update (w w' : World) (session : ℕ) (phase : Phase)
    (hphase : w'.phase = Function.update w.phase session phase)
    (hread : ∀ target, phase.target = some target →
      (w.phase session).target = some target ∨ Pending w.rows target) : Reads w w' := by
  intro s target htarget
  rw [hphase] at htarget
  by_cases hs : s = session
  · subst hs
    rw [Function.update_self] at htarget
    exact hread target htarget
  · rw [Function.update_of_ne hs] at htarget
    exact .inl htarget

theorem reads_done (w w' : World) (session : ℕ)
    (hphase : w'.phase = Function.update w.phase session .done) : Reads w w' :=
  reads_update w w' session .done hphase fun _ h => absurd h (by simp [Phase.target])

theorem effect_moved (w : World) (session : ℕ) (phase : Phase)
    (hread : ∀ target, phase.target = some target →
      (w.phase session).target = some target ∨ Pending w.rows target) :
    Effect w (w.setPhase session phase) none ∧ Reads w (w.setPhase session phase) :=
  ⟨.quiet rfl rfl, reads_update w _ session phase rfl hread⟩

theorem found_pending (w : World) (jdId : Uuid) (e : JobDescription)
    (h : JDRepository.getById w.db jdId = some e) :
    Pending w.rows ⟨e.id, e.lineage, e.versionNumber + 1⟩ := by
  obtain ⟨he, -⟩ := (Table.find?_eq_some _ _ _).mp h
  exact ⟨e, he, rfl, rfl, rfl⟩

theorem update_effect (session : ℕ) (jdId : Uuid) (request : UpdateJDRequest)
    (updatedBy : String) (filePath originalFilename : Option String)
    (h : w.Step generateHash (.update session jdId request updatedBy filePath originalFilename)
      w') : Effect w w' none ∧ Reads w w' := by
  rw [Step, next?] at h
  split at h
  · split at h
    · next required hupdate =>
        cases h
        obtain ⟨e, hfound, -, hmeta | ⟨changed, hrequired⟩⟩ := updateJd_eq_ok _ _ _ _ _ _ _ _ hupdate
        · simp at hmeta
        · obtain rfl := UpdateOutcome.reprocess.inj hrequired
          apply effect_moved
          intro target htarget
          cases htarget
          exact .inr (found_pending w jdId e hfound)
    · next existing lineageRootId hupdate =>
        cases h
        obtain ⟨e, hfound, -, hmeta | ⟨changed, hrequired⟩⟩ := updateJd_eq_ok _ _ _ _ _ _ _ _ hupdate
        · obtain ⟨rfl, rfl⟩ := UpdateOutcome.metadata.inj hmeta
          apply effect_moved
          intro target htarget
          cases htarget
          exact .inr (found_pending w jdId _ hfound)
        · simp at hrequired
    · simp at h
  · simp at h

theorem commit_effect (session : ℕ) (now : Instant) (hi : Inv w)
    (h : w.Step generateHash (.commit session now) w') :
    Effect w w' (w.phase session).supersedes ∧ Reads w w' := by
  have hpending := hi.pending session
  rw [Step, next?] at h
  cases hphase : w.phase session with
  | persisting required content =>
    rw [hphase] at hpending
    simp only [hphase] at h
    cases required with
    | none =>
      obtain ⟨heffect, hnext⟩ := commit_created session content h
      exact ⟨heffect, reads_done w w' session hnext⟩
    | some r =>
      obtain ⟨heffect, hnext⟩ := commit_persisted session r content (hpending _ rfl) h
      exact ⟨heffect, reads_done w w' session hnext⟩
  | updating request updatedBy existing lineageRootId =>
    rw [hphase] at hpending
    simp only [hphase] at h
    obtain ⟨heffect, hnext⟩ := commit_updated generateHash session request updatedBy existing
      lineageRootId (hpending _ rfl) h
    exact ⟨heffect, reads_done w w' session hnext⟩
  | closing existing =>
    rw [hphase] at hpending
    simp only [hphase] at h
    cases h
    exact ⟨commit_closed w session existing now (hpending _ rfl), reads_done w _ session rfl⟩
  | idle => simp [hphase] at h
  | queued required => simp [hphase] at h
  | done => simp [hphase] at h

theorem step_effect (event : Event) (hi : Inv w)
    (h : w.Step generateHash event w') : Effect w w' (w.supersedes event) ∧ Reads w w' := by
  cases event with
  | submit session =>
    rw [Step, next?] at h
    split at h
    · cases h
      exact effect_moved w session _ fun _ htarget => absurd htarget (by simp [Phase.target])
    · simp at h
  | update session jdId request updatedBy filePath originalFilename =>
    exact update_effect generateHash session jdId request updatedBy filePath originalFilename h
  | check session content =>
    rw [Step, next?] at h
    split at h
    · next required hphase =>
        split at h
        · cases h
          apply effect_moved
          intro target htarget
          rw [hphase]
          exact .inl htarget
        · simp at h
    · simp at h
  | deactivate session jdId =>
    rw [Step, next?] at h
    split at h
    · split at h
      · next existing hdeactivate =>
          cases h
          apply effect_moved
          intro target htarget
          cases htarget
          exact .inr (found_pending w jdId existing (deactivateJd_eq_ok _ _ _ hdeactivate).1)
      · simp at h
    · simp at h
  | commit session now => exact commit_effect generateHash session now hi h
  | fail session =>
    rw [Step, next?] at h
    split at h
    · next required content hphase =>
        cases h
        apply effect_moved
        intro target htarget
        rw [hphase]
        exact .inl htarget
    · cases h
      exact effect_moved w session _ fun _ htarget => absurd htarget (by simp [Phase.target])
  | campaign jdId active =>
    rw [Step, next?] at h
    cases h
    exact ⟨.quiet rfl rfl, fun _ _ htarget => .inl htarget⟩

theorem Effect.lineages (h : Effect w w' replaced)
    (hl : Lineages w.db.jobDescriptions w.closed) : Lineages w'.db.jobDescriptions w'.closed := by
  cases h with
  | quiet hrows hclosed => rwa [hrows, hclosed]
  | created row hrows hid hroot hactive hclosed =>
    rw [hclosed]
    exact hl.created hrows hid hroot hactive
  | superseded f e row hf he hrows _ hroot hactive _ hclosed =>
    rw [hclosed]
    exact hl.superseded hf he hrows hroot hactive
  | retired f e hf he hrows hclosed =>
    rw [hclosed]
    exact hl.retired hf he hrows

theorem inv_step (event : Event) (hi : Inv w) (h : w.Step generateHash event w') : Inv w' := by
  obtain ⟨heffect, hreads⟩ := step_effect generateHash event hi h
  constructor
  · exact heffect.lineages hi.lineages
  · intro session target htarget
    apply heffect.pending
    rcases hreads session target htarget with hold | hnew
    · exact hi.pending session target hold
    · exact hnew

theorem Effect.numbered (h : Effect w w' replaced)
    (hl : Lineages w.db.jobDescriptions w.closed) (hn : Numbered w.db.jobDescriptions w.closed)
    (htimely : ∀ jdId, replaced = some jdId →
      ∃ jd ∈ w.rows, jd.id = jdId ∧ jd.isActiveVersion = true) :
    Numbered w'.db.jobDescriptions w'.closed := by
  cases h with
  | quiet hrows hclosed => rwa [hrows, hclosed]
  | created row hrows hid hroot hactive hclosed =>
    rw [hclosed]
    exact hn.created hrows hid hroot hl
  | superseded f e row hf he hrows _ hroot hactive hnumber hclosed =>
    rw [hclosed]
    obtain ⟨jd, hjd, hid, hea⟩ := htimely e.id rfl
    rw [eq_of_id hjd he hid] at hea
    exact hn.superseded hf he hrows hroot hactive hl hnumber hea
  | retired f e hf he hrows hclosed =>
    rw [hclosed]
    exact hn.retired hf he hrows hl

theorem Effect.timely (h : Effect w w' replaced) (hl : Lineages w.db.jobDescriptions w.closed)
    (hshut : ∀ a ∈ w'.rows, a.lineage ∈ w'.closed → a.isActiveVersion = false) :
    ∀ jdId, replaced = some jdId → ∃ jd ∈ w.rows, jd.id = jdId ∧ jd.isActiveVersion = true := by
  intro jdId hjdId
  cases h with
  | superseded f e row hf he hrows hid hroot hactive hnumber hclosed =>
    cases hjdId
    refine ⟨e, he, rfl, ?_⟩
    by_contra hinactive
    have hopened := hl.reopened hf he hrows hroot hactive hid (by simpa using hinactive)
    have hnot := hshut row (hrows ▸ by simp) (hclosed ▸ hopened)
    rw [hactive] at hnot
    simp at hnot
  | quiet => simp at hjdId
  | created => simp at hjdId
  | retired => simp at hjdId

theorem inv_begin (db : JdDatabase) : Inv (begin db) := by
  constructor
  · constructor <;> simp [begin, JobDescriptionTable.rows, JobDescriptionTable.empty, Table.empty]
  · intro session target htarget
    simp [begin, Phase.target] at htarget

theorem numbered_begin (db : JdDatabase) :
    Numbered (begin db).db.jobDescriptions (begin db).closed := by
  constructor <;> simp [begin, JobDescriptionTable.rows, JobDescriptionTable.empty, Table.empty]

def Kept (w : World) : Prop := Inv w ∧ Numbered w.db.jobDescriptions w.closed

theorem Kept.safe (h : Kept w) : w.Safe :=
  ⟨h.1.lineages.single, h.2.distinct, h.2.shut⟩

theorem lineages_throughout (db : JdDatabase) (path : List (Event × World))
    (hp : Path (World.Step generateHash) (begin db) path) :
    ∀ w ∈ visited (begin db) path, Lineages w.db.jobDescriptions w.closed := by
  intro w hw
  exact (hp.invariant (inv_begin db) (fun _ event _ => inv_step generateHash event) w hw).lineages

-- A run keeps its lineages exactly when every commit that replaces a version
-- finds this version still active.
theorem lineages_safe_iff (db : JdDatabase) (path : List (Event × World))
    (hp : Path (World.Step generateHash) (begin db) path) :
    (∀ w ∈ visited (begin db) path, w.Safe) ↔
      EveryStep (fun w event _ => w.Timely event) (begin db) path := by
  have h0 : Kept (begin db) := ⟨inv_begin db, numbered_begin db⟩
  refine hp.visited_iff_everyStep_of h0 (fun w hw => hw.safe) ?_ ?_
  · intro w event w' hw htimely hstep
    have heffect := (step_effect generateHash event hw.1 hstep).1
    exact ⟨inv_step generateHash event hw.1 hstep, heffect.numbered hw.1.lineages hw.2 htimely⟩
  · intro w event w' hw hstep hsafe
    have heffect := (step_effect generateHash event hw.1 hstep).1
    exact heffect.timely hw.1.lineages hsafe.2.2

end Steps

section Runs

open World

def emptySkills : SkillStore where
  ontology := SkillOntologyTable.empty
  unknownSkills := Table.empty
  jdSkills := Table.empty
  jdUnknownSkills := Table.empty
  candidateSkills := Table.empty

def jdParse (id : Uuid) : PromptTemplate := ⟨id, "JD_PARSE", "default", true⟩

def emptyDb : JdDatabase where
  toSkillStore := emptySkills
  jobDescriptions := JobDescriptionTable.empty
  promptTemplates := Table.empty.insert jdParse fun _ => rfl
  activeCampaigns := fun _ => false

def content (rawText : String) : PersistRequest where
  title := some "Engineer"
  rawText := rawText
  jurisdiction := some "IN"
  minExperienceYears := some 1
  maxExperienceYears := some 5
  noticePeriod := some 30
  educationCriteria := some ⟨none, none⟩
  sourceFormat := .text
  filePath := none
  originalFilename := none
  createdBy := "hr"
  contentHash := rawText
  promptTemplateId := 0
  extraction := JDExtractionResponse.empty
  skillMatches := []
  existingJdId := none
  versionNumber := 1
  parentJdId := none
  lineageRootId := none

def rewrite (rawText : Option String) : UpdateJDRequest where
  title := some "Engineer"
  rawText := rawText
  jurisdiction := "IN"
  minExperienceYears := 1
  maxExperienceYears := 5
  noticePeriod := 30
  educationCriteria := ⟨none, none⟩
  promptTemplateId := 0

def lineageRun (events : List Event) : List (Event × World) :=
  execute (next? id) (begin emptyDb) events

theorem lineageRun_path (events : List Event) :
    Path (World.Step id) (begin emptyDb) (lineageRun events) :=
  execute_path (next? id) (fun _ _ _ h => h) (begin emptyDb) events

def creation : List Event := [.submit 0, .check 0 (content "first"), .commit 0 0]

def inOrder : List Event := creation ++
  [.update 1 0 (rewrite (some "second")) "hr" none none, .check 1 (content "second"), .commit 1 1,
    .deactivate 2 1, .commit 2 2]

def closedMeanwhile : List Event := creation ++
  [.update 1 0 (rewrite (some "second")) "hr" none none, .deactivate 2 0, .commit 2 1,
    .check 1 (content "second"), .commit 1 2]

theorem timely_of_active (w : World) (event : Event)
    (h : (w.supersedes event).all w.isActive = true) : w.Timely event := by
  intro jdId hjdId
  rw [hjdId, Option.all_some, isActive, List.any_eq_true] at h
  obtain ⟨jd, hjd, hfound⟩ := h
  exact ⟨jd, hjd, of_decide_eq_true hfound⟩

theorem lineages_safe_in_order : (final (begin emptyDb) (lineageRun inOrder)).Safe := by
  have hall := (lineages_safe_iff id emptyDb (lineageRun inOrder) (lineageRun_path inOrder)).mpr (by
      refine ⟨?_, ?_, ?_, ?_, ?_, ?_, ?_, ?_, trivial⟩
      all_goals exact timely_of_active _ _ (by decide))
  exact hall _ (final_mem_visited _ _)

theorem lineages_throughout_inOrder :
    let w := final (begin emptyDb) (lineageRun inOrder)
    Lineages w.db.jobDescriptions w.closed :=
  lineages_throughout id emptyDb _ (lineageRun_path inOrder) _ (final_mem_visited _ _)

theorem queued_update_reopens :
    ¬∀ (generateHash : String → String) (db : JdDatabase) (path : List (Event × World)),
      Path (World.Step generateHash) (begin db) path → ∀ w ∈ visited (begin db) path, w.Safe := by
  intro h
  have hsafe := h id emptyDb (lineageRun closedMeanwhile) (lineageRun_path closedMeanwhile) _
    (final_mem_visited _ _)
  have hreopened : (final (begin emptyDb) (lineageRun closedMeanwhile)).rows.map
      (fun jd => (jd.lineage, jd.isActiveVersion)) = [(0, false), (0, true)] := by decide
  have hclosed : (final (begin emptyDb) (lineageRun closedMeanwhile)).closed = [0] := by decide
  have hin : (0, true) ∈ (final (begin emptyDb) (lineageRun closedMeanwhile)).rows.map
      (fun jd => (jd.lineage, jd.isActiveVersion)) := by
    rw [hreopened]
    simp
  obtain ⟨jd, hjd, hpair⟩ := List.mem_map.mp hin
  obtain ⟨hlineage, hactive⟩ := Prod.mk.inj hpair
  have hinactive := hsafe.2.2 jd hjd (by rw [hlineage, hclosed]; simp)
  rw [hactive] at hinactive
  simp at hinactive

end Runs

end JdLineage

end AiHiring
