import AiHiring.Jd.EmbeddingRuns
import AiHiring.Library.Crew

namespace AiHiring.EmbedJd

open Library

variable {V H : Type}

section Properties

variable (service : Service V H) (w : World V H)

def currentText : String := service.text w.skills

def current : JDEmbedding V H := service.embeddingOf (currentText service w)

def Quiet : Prop :=
  w.due = 0 ∧ w.messages = [] ∧ ∀ run ∈ w.runs, ∃ force, run = ⟨force, .finished⟩

def Follows : Prop := w.changed = true → Quiet w → w.row = some (current service w)

def Computed (row : JDEmbedding V H) : Prop := ∃ text, row = service.embeddingOf text

-- A job description without a message yet; the pipeline may have embedded it.
structure Fresh : Prop where
  unchanged : w.changed = false
  due : w.due = 0
  messages : w.messages = []
  runs : w.runs = []
  row : ∀ row, w.row = some row → Computed service row
  others : ∀ row ∈ w.others, Computed service row

-- A forced run that has the current text, or will read it.
def Hopeful (text : String) (run : Run V H) : Prop :=
  run.forceRegenerate = true ∧
    match run.stage with
    | .started | .admitted => True
    | .read own | .resolved own _ _ | .looked own _ _ => own = text
    | .written _ | .finished => False

-- The row will still be written from the current text.
structure Hope : Prop where
  pending : w.due ≠ 0 ∨ true ∈ w.messages ∨ ∃ run ∈ w.runs, Hopeful (currentText service w) run

def HopeElsewhere (i : ℕ) (run : Run V H) : Prop := Hope service (moveTo w i run .finished)

-- The row has the hash it had where the run looked it up, if that was the hash of
-- the run's text; and a run whose text is out of date does not overwrite the row of
-- the current text, unless that will be written again.
def OverwritesInOrder (i : ℕ) (run : Run V H) (text : String) (existing : JDEmbedding V H) :
    Prop :=
  ∀ row, w.row = some row → (existing.inputTextHash = service.generateHash text →
      row.inputTextHash = service.generateHash text) ∧
    (row.inputTextHash = service.generateHash (currentText service w) →
      text = currentText service w ∨ HopeElsewhere service w i run)

-- A forced run with the current text does not give way to a row of another text,
-- unless the current one will be written again.
def InsertsInOrder (i : ℕ) (run : Run V H) (text : String) : Prop :=
  run.forceRegenerate = true → text = currentText service w → ∀ row, w.row = some row →
      row.inputTextHash = service.generateHash text ∨ HopeElsewhere service w i run

def InOrder : Event → World V H → Prop
  | .advance i _, _ => ∀ run, w.runs[i]? = some run →
      match run.stage with
      | .looked text _ (some existing) => OverwritesInOrder service w i run text existing
      | .looked text _ none => InsertsInOrder service w i run text
      | _ => True
  | _, _ => True

-- Once every flushed row is committed, the current one is stored.
structure Promised : Prop where
  flushed : ∀ run ∈ w.runs, ∀ row, run.stage = .written row → row = current service w
  stored : isLocked w = false → w.row = some (current service w)

-- What a run holds was computed from its text.
def Ready (run : Run V H) : Prop :=
  match run.stage with
  | .resolved text vector _ => vector = service.generateEmbedding text
  | .looked text vector _ => vector = service.generateEmbedding text
  | .written row => Computed service row
  | _ => True

structure Inv : Prop where
  row : ∀ row, w.row = some row → Computed service row
  others : ∀ row ∈ w.others, Computed service row
  ready : ∀ run ∈ w.runs, Ready service run
  follows : w.changed = true → Hope service w ∨ Promised service w

end Properties

variable {service : Service V H} {w t : World V H} {i : ℕ} {run : Run V H}

theorem isLocked_eq_false :
    isLocked w = false ↔ ∀ run ∈ w.runs, ∀ row, run.stage ≠ .written row := by
  rw [isLocked, List.any_eq_false]
  refine forall_congr' fun run => forall_congr' fun _ => ?_
  cases run.stage <;> simp [Stage.isWritten]

theorem Computed.eq_embeddingOf (hinj : Function.Injective service.generateHash)
    {row : JDEmbedding V H} {text : String} (h : Computed service row)
    (hrow : row.inputTextHash = service.generateHash text) : row = service.embeddingOf text := by
  obtain ⟨own, rfl⟩ := h
  rw [hinj hrow]

theorem Inv.follows_of_quiet (hi : Inv service w) : Follows service w := by
  intro hchanged ⟨hdue, hmessages, hruns⟩
  rcases hi.follows hchanged with ⟨hdue' | hmessage | ⟨run, hrun, hhopeful⟩⟩ | hpromised
  · exact absurd hdue hdue'
  · rw [hmessages] at hmessage
    simp at hmessage
  · obtain ⟨force, rfl⟩ := hruns run hrun
    exact hhopeful.2.elim
  · refine hpromised.stored (isLocked_eq_false.mpr fun run hrun row hwritten => ?_)
    obtain ⟨force, rfl⟩ := hruns run hrun
    simp at hwritten

theorem Fresh.inv (h : Fresh service w) : Inv service w :=
  { row := h.row
    others := h.others
    ready := by simp [h.runs]
    follows := by simp [h.unchanged] }

theorem vector_of_found [DecidableEq H] (hinj : Function.Injective service.generateHash)
    (hi : Inv service w) (text : String) (ownFirst : Bool) :
    ((getEmbeddingByContentHash service w text ownFirst).map JDEmbedding.embedding).getD
      (service.generateEmbedding text) = service.generateEmbedding text := by
  have hcomputed (row : JDEmbedding V H) (h : Computed service row)
      (hhash : hasHash service text row = true) :
      row.embedding = service.generateEmbedding text := by
    rw [h.eq_embeddingOf hinj (by simpa [hasHash] using hhash)]
    rfl
  unfold getEmbeddingByContentHash
  cases hown : loadOwn service w text ownFirst with
  | some row =>
    unfold loadOwn at hown
    split at hown
    · rw [Option.filter_eq_some_iff] at hown
      exact hcomputed row (hi.row row hown.1) hown.2
    · simp at hown
  | none =>
    cases hother : w.others.find? (hasHash service text) with
    | none => rfl
    | some row =>
      exact hcomputed row (hi.others row (List.mem_of_find?_eq_some hother))
        (List.find?_some hother)

section Moves

variable {stage : Stage V H}

theorem ready_moved (hi : Inv service w) (hready : Ready service { run with stage := stage }) :
    ∀ x ∈ (moveTo w i run stage).runs, Ready service x := by
  intro x hx
  rcases mem_of_mem_set hx with rfl | hx
  · exact hready
  · exact hi.ready x hx

theorem Hope.moved (h : Hope service w) (hrun : w.runs[i]? = some run)
    (hstep : Hopeful (currentText service w) run →
      Hopeful (currentText service w) { run with stage := stage }) :
    Hope service (moveTo w i run stage) := by
  rcases h.pending with hdue | hmessage | hopeful
  · exact ⟨.inl hdue⟩
  · exact ⟨.inr (.inl hmessage)⟩
  · exact ⟨.inr (.inr (exists_mem_set hrun hopeful hstep))⟩

theorem HopeElsewhere.moved (h : HopeElsewhere service w i run) :
    Hope service (moveTo w i run stage) := by
  rcases h.pending with hdue | hmessage | ⟨x, hx, hhopeful⟩
  · exact ⟨.inl hdue⟩
  · exact ⟨.inr (.inl hmessage)⟩
  · rcases mem_set_other hx with rfl | ⟨j, hij, hj⟩
    · exact hhopeful.2.elim
    · have hset : (moveTo w i run stage).runs[j]? = some x := (List.getElem?_set_ne hij).trans hj
      exact ⟨.inr (.inr ⟨x, List.mem_of_getElem? hset, hhopeful⟩)⟩

theorem inv_moved (hi : Inv service w) (hrun : w.runs[i]? = some run)
    (hready : Ready service { run with stage := stage })
    (hold : ∀ row, run.stage ≠ .written row) (hnew : ∀ row, stage ≠ .written row)
    (hstep : Hopeful (currentText service w) run →
      Hopeful (currentText service w) { run with stage := stage } ∨ HopeElsewhere service w i run ∨
        (isLocked w = false ∧ w.row = some (current service w))) :
    Inv service (moveTo w i run stage) := by
  have hflushed (x : Run V H) (hx : x ∈ (moveTo w i run stage).runs) (row : JDEmbedding V H)
      (hwritten : x.stage = .written row) : x ∈ w.runs := by
    rcases mem_of_mem_set hx with rfl | hx
    · exact absurd hwritten (hnew row)
    · exact hx
  have hlocked (h : isLocked (moveTo w i run stage) = false) : isLocked w = false := by
    rw [isLocked_eq_false] at h ⊢
    intro x hx row hwritten
    obtain ⟨j, hj⟩ := List.mem_iff_getElem?.mp hx
    by_cases hij : i = j
    · subst hij
      obtain rfl : run = x := Option.some.inj (hrun.symm.trans hj)
      exact hold row hwritten
    · refine h x (List.mem_of_getElem? (i := j) ?_) row hwritten
      exact (List.getElem?_set_ne hij).trans hj
  refine ⟨hi.row, hi.others, ready_moved hi hready, fun hchanged => ?_⟩
  rcases hi.follows hchanged with hhope | hpromised
  · by_cases hhopeful : Hopeful (currentText service w) run
    · rcases hstep hhopeful with hnext | helsewhere | ⟨hopen, hrow⟩
      · exact .inl (hhope.moved hrun fun _ => hnext)
      · exact .inl helsewhere.moved
      · rw [isLocked_eq_false] at hopen
        refine .inr ⟨fun x hx row hwritten => ?_, fun _ => hrow⟩
        exact absurd hwritten (hopen x (hflushed x hx row hwritten) row)
    · exact .inl (hhope.moved hrun fun h => absurd h hhopeful)
  · exact .inr ⟨fun x hx row hwritten => hpromised.flushed x (hflushed x hx row hwritten) row
      hwritten, fun h => hpromised.stored (hlocked h)⟩

theorem inv_written (hi : Inv service w) (hrun : w.runs[i]? = some run)
    (hopen : isLocked w = false) {text : String}
    (hown : Hopeful (currentText service w) run → text = currentText service w)
    (horder : w.row = some (current service w) →
      text = currentText service w ∨ HopeElsewhere service w i run) :
    Inv service (moveTo w i run (.written (service.embeddingOf text))) := by
  refine ⟨hi.row, hi.others, ready_moved hi ⟨text, rfl⟩, fun hchanged => ?_⟩
  rw [isLocked_eq_false] at hopen
  by_cases htext : text = currentText service w
  · refine .inr ⟨fun x hx row hwritten => ?_, fun hunlocked => ?_⟩
    · rcases mem_of_mem_set hx with rfl | hx
      · rw [← Stage.written.inj hwritten, htext]
        rfl
      · exact absurd hwritten (hopen x hx row)
    · rw [isLocked_eq_false] at hunlocked
      exact absurd rfl (hunlocked _ (mem_set_self hrun) _)
  · rcases hi.follows hchanged with hhope | hpromised
    · exact .inl (hhope.moved hrun fun h => absurd (hown h) htext)
    · rcases horder (hpromised.stored (isLocked_eq_false.mpr hopen)) with heq | helsewhere
      · exact absurd heq htext
      · exact .inl helsewhere.moved

end Moves

section Steps

-- An insert flushes where there is no row, and otherwise leaves the one there is.
theorem inv_insert (hinj : Function.Injective service.generateHash) (hi : Inv service w)
    (hrun : w.runs[i]? = some run) {text : String} {vector : V}
    (hvector : vector = service.generateEmbedding text)
    (hold : ∀ row, run.stage ≠ .written row)
    (hown : Hopeful (currentText service w) run → text = currentText service w)
    (horder : Hopeful (currentText service w) run → ∀ row, w.row = some row →
      row.inputTextHash = service.generateHash text ∨ HopeElsewhere service w i run)
    (h : createJdEmbeddingIdempotent service w i run text vector = some t) : Inv service t := by
  unfold createJdEmbeddingIdempotent at h
  cases hopen : isLocked w with
  | true => simp [hopen] at h
  | false =>
    rw [hopen, if_neg (by simp)] at h
    cases hrow : w.row with
    | none =>
      simp only [hrow, Option.some.injEq] at h
      subst h hvector
      exact inv_written hi hrun hopen hown fun hcurrent => by simp [hrow] at hcurrent
    | some row =>
      simp only [hrow, Option.some.injEq] at h
      subst h
      refine inv_moved hi hrun trivial hold (by simp) fun hhopeful => .inr ?_
      rcases horder hhopeful row hrow with hhash | helsewhere
      · refine .inr ⟨hopen, ?_⟩
        have htext := hown hhopeful
        rw [hrow, (hi.row row hrow).eq_embeddingOf hinj hhash, htext]
        rfl
      · exact .inl helsewhere

theorem inv_overwrite [DecidableEq H] (hi : Inv service w) (hrun : w.runs[i]? = some run)
    {text : String} {vector : V} {existing : JDEmbedding V H}
    (hvector : vector = service.generateEmbedding text)
    (hown : Hopeful (currentText service w) run → text = currentText service w)
    (horder : OverwritesInOrder service w i run text existing)
    (h : replaceJdEmbedding service w i run text vector existing = some t) : Inv service t := by
  unfold replaceJdEmbedding at h
  cases hopen : isLocked w with
  | true => simp [hopen] at h
  | false =>
    rw [hopen, if_neg (by simp), Option.map_eq_some_iff] at h
    obtain ⟨row, hrow, rfl⟩ := h
    obtain ⟨hsame, hlate⟩ := horder row hrow
    have hwritten : overwrite service row existing text vector = service.embeddingOf text := by
      unfold overwrite
      split_ifs with hloaded
      · rw [hsame hloaded, hvector]
        rfl
      · rw [hvector]
        rfl
    rw [hwritten]
    refine inv_written hi hrun hopen hown fun hcurrent => hlate ?_
    cases hrow.symm.trans hcurrent
    rfl

theorem inv_commit (hi : Inv service w) (hrun : w.runs[i]? = some run)
    {row : JDEmbedding V H} (hstage : run.stage = .written row) :
    Inv service { moveTo w i run .finished with row := some row } := by
  have hmem := List.mem_of_getElem? hrun
  have hready := hi.ready run hmem
  unfold Ready at hready
  rw [hstage] at hready
  refine ⟨fun other hother => ?_, hi.others, ready_moved hi trivial, fun hchanged => ?_⟩
  · cases hother
    exact hready
  · rcases hi.follows hchanged with hhope | hpromised
    · have hkept : Hope service (moveTo w i run .finished) := by
        refine hhope.moved hrun fun h => ?_
        have hfalse := h.2
        rw [hstage] at hfalse
        exact hfalse.elim
      exact .inl ⟨hkept.pending⟩
    · refine .inr ⟨fun x hx other hwritten => ?_, fun _ => ?_⟩
      · rcases mem_of_mem_set hx with rfl | hx
        · simp at hwritten
        · exact hpromised.flushed x hx other hwritten
      · exact congrArg some (hpromised.flushed run hmem row hstage)

theorem deliver_inv {k : ℕ} {force : Bool} (hi : Inv service w) (hk : w.messages[k]? = some force) :
    Inv service
      { w with
        messages := w.messages.eraseIdx k
        runs := w.runs ++ [⟨force, .started⟩] } := by
  have hrun (x : Run V H) (hx : x ∈ w.runs ++ [⟨force, .started⟩]) :
      x ∈ w.runs ∨ x = ⟨force, .started⟩ := by
    simpa using hx
  refine ⟨hi.row, hi.others, fun x hx => ?_, fun hchanged => ?_⟩
  · rcases hrun x hx with hold | rfl
    · exact hi.ready x hold
    · trivial
  rcases hi.follows hchanged with hhope | hpromised
  · refine .inl ⟨?_⟩
    rcases hhope.pending with hdue | hmessage | ⟨x, hx, hhopeful⟩
    · exact .inl hdue
    · obtain ⟨j, hj⟩ := List.mem_iff_getElem?.mp hmessage
      by_cases hjk : k = j
      · subst hjk
        cases hk.symm.trans hj
        exact .inr (.inr ⟨⟨true, .started⟩, by simp, rfl, trivial⟩)
      · exact .inr (.inl (List.mem_eraseIdx_iff_getElem?.mpr ⟨j, Ne.symm hjk, hj⟩))
    · exact .inr (.inr ⟨x, List.mem_append_left _ hx, hhopeful⟩)
  · refine .inr ⟨fun x hx row hwritten => ?_, fun hopen => hpromised.stored ?_⟩
    · rcases hrun x hx with hold | rfl
      · exact hpromised.flushed x hold row hwritten
      · simp at hwritten
    · rw [isLocked_eq_false] at hopen ⊢
      exact fun x hx => hopen x (List.mem_append_left _ hx)

variable [DecidableEq H]

theorem advance_inv (hinj : Function.Injective service.generateHash) (hi : Inv service w)
    (hrun : w.runs[i]? = some run) {ownFirst : Bool}
    (horder : InOrder service w (.advance i ownFirst) t)
    (h : advance service w i run ownFirst = some t) : Inv service t := by
  obtain ⟨force, stage⟩ := run
  have hready := hi.ready _ (List.mem_of_getElem? hrun)
  have horder := horder _ hrun
  cases stage with
  | started =>
    simp only [advance] at h
    split at h
    · rename_i hkept
      cases h
      refine inv_moved hi hrun trivial (by simp) (by simp) fun hhopeful => ?_
      exact absurd (hhopeful.1.symm.trans hkept.1) (by simp)
    · cases h
      exact inv_moved hi hrun trivial (by simp) (by simp) fun hhopeful => .inl hhopeful
  | admitted =>
    cases h
    exact inv_moved hi hrun trivial (by simp) (by simp) fun hhopeful => .inl ⟨hhopeful.1, rfl⟩
  | read text =>
    cases h
    exact inv_moved hi hrun (vector_of_found hinj hi text ownFirst) (by simp) (by simp)
      fun hhopeful => .inl hhopeful
  | resolved text vector loaded =>
    simp only [advance] at h
    split at h
    · cases h
      exact inv_moved hi hrun hready (by simp) (by simp) fun hhopeful => .inl hhopeful
    · rename_i hforce
      exact inv_insert hinj hi hrun hready (by simp) (fun hhopeful => hhopeful.2)
        (fun hhopeful => absurd hhopeful.1 hforce) h
  | looked text vector existing =>
    cases existing with
    | none =>
      exact inv_insert hinj hi hrun hready (by simp) (fun hhopeful => hhopeful.2)
        (fun hhopeful => horder hhopeful.1 hhopeful.2) h
    | some existing =>
      exact inv_overwrite hi hrun hready (fun hhopeful => hhopeful.2) horder h
  | written row =>
    cases h
    exact inv_commit hi hrun rfl
  | finished => simp [advance] at h

theorem step_inv (hinj : Function.Injective service.generateHash) {event : Event}
    (hi : Inv service w) (horder : InOrder service w event t) (h : Step service w event t) :
    Inv service t := by
  cases event with
  | curate skills =>
    cases h
    exact ⟨hi.row, hi.others, hi.ready, fun _ => .inl ⟨.inl (Nat.succ_ne_zero _)⟩⟩
  | queue =>
    simp only [Step, next] at h
    split at h
    · simp at h
    · cases h
      exact ⟨hi.row, hi.others, hi.ready,
        fun _ => .inl ⟨.inr (.inl (List.mem_append_right _ (List.mem_singleton_self _)))⟩⟩
  | create =>
    cases h
    refine ⟨hi.row, hi.others, hi.ready, fun hchanged => ?_⟩
    rcases hi.follows hchanged with hhope | hpromised
    · refine .inl ⟨?_⟩
      rcases hhope.pending with hdue | hmessage | hopeful
      · exact .inl hdue
      · exact .inr (.inl (List.mem_append_left _ hmessage))
      · exact .inr (.inr hopeful)
    · exact .inr ⟨hpromised.flushed, hpromised.stored⟩
  | embedOthers texts =>
    cases h
    refine ⟨hi.row, fun row hrow => ?_, hi.ready, fun hchanged => ?_⟩
    · obtain ⟨text, -, rfl⟩ := List.mem_map.mp hrow
      exact ⟨text, rfl⟩
    · rcases hi.follows hchanged with hhope | hpromised
      · exact .inl ⟨hhope.pending⟩
      · exact .inr ⟨hpromised.flushed, hpromised.stored⟩
  | deliver k =>
    obtain ⟨force, hforce, rfl⟩ := Option.map_eq_some_iff.mp h
    exact deliver_inv hi hforce
  | advance i ownFirst =>
    obtain ⟨run, hrun, hadvance⟩ := Option.bind_eq_some_iff.mp h
    exact advance_inv hinj hi hrun horder hadvance

end Steps

section Runs

variable [DecidableEq H] {s : World V H} {path : List (Event × World V H)}

-- Where every overwrite and every insert is in order, the row follows the skills.
theorem row_follows (hinj : Function.Injective service.generateHash) (h0 : Fresh service s)
    (hp : Path (Step service) s path) (horder : EveryStep (InOrder service) s path) :
    ∀ t ∈ visited s path, Follows service t := by
  intro t ht
  have hinv := hp.guarded_invariant h0.inv horder
    (fun _ _ _ hi hq hs => step_inv hinj hi hq hs) t ht
  exact hinv.follows_of_quiet

end Runs

def plain : Service String String :=
  { title := ""
    rawText := none
    maxChars := 2000
    generateEmbedding := id
    generateHash := id }

def skill (name : String) : JDSkillRow := ⟨true, name⟩

def embedded : World String String :=
  { skills := []
    row := some (plain.embeddingOf "")
    others := []
    due := 0
    messages := []
    runs := []
    changed := false }

def runThrough (i n : ℕ) : List Event := List.replicate n (.advance i true)

def changeSkills (names : List String) : List Event :=
  [.curate (names.map skill), .queue, .deliver 0]

def oneRun : List Event := changeSkills ["A"] ++ runThrough 0 6

def overtaken : List Event :=
  changeSkills ["A"] ++ runThrough 0 2 ++ changeSkills ["B"] ++ runThrough 1 6 ++ runThrough 0 4

theorem fresh_embedded : Fresh plain embedded where
  unchanged := rfl
  due := rfl
  messages := rfl
  runs := rfl
  row := by
    intro row hrow
    exact ⟨"", (Option.some.inj hrow).symm⟩
  others := by simp [embedded]

theorem quiet_of_finished {w : World String String} (hdue : w.due = 0) (hmessages : w.messages = [])
    (hruns : w.runs.all fun run => run.stage matches .finished) : Quiet w := by
  refine ⟨hdue, hmessages, fun run hrun => ?_⟩
  have hfinished := List.all_eq_true.mp hruns run hrun
  obtain ⟨force, stage⟩ := run
  cases stage with
  | finished => exact ⟨force, rfl⟩
  | _ => simp at hfinished

theorem oneRun_inOrder :
    EveryStep (InOrder plain) embedded (execute (next plain) embedded oneRun) := by
  refine ⟨trivial, trivial, trivial, ?_, ?_, ?_, ?_, ?_, ?_, trivial⟩
  · intro run hrun
    cases hrun
    trivial
  · intro run hrun
    cases hrun
    trivial
  · intro run hrun
    cases hrun
    trivial
  · intro run hrun
    cases hrun
    trivial
  · intro run hrun
    cases hrun
    intro row hrow
    cases hrow
    exact ⟨fun hsame => absurd hsame (by decide), fun _ => .inl rfl⟩
  · intro run hrun
    cases hrun
    trivial

theorem row_follows_oneRun : (final embedded (execute (next plain) embedded oneRun)).row =
      some (plain.embeddingOf (plain.text [skill "A"])) :=
  row_follows Function.injective_id fresh_embedded
    (execute_path (next plain) (fun _ _ _ hn => hn) embedded oneRun) oneRun_inOrder _
    (final_mem_visited _ _) rfl (quiet_of_finished rfl rfl (by decide))

theorem overtaken_row_stale :
    ¬∀ path, Path (Step plain) embedded path → ∀ t ∈ visited embedded path, Follows plain t := by
  intro h
  have hp : Path (Step plain) embedded (execute (next plain) embedded overtaken) :=
    execute_path (next plain) (fun _ _ _ hn => hn) embedded overtaken
  have hrow := h _ hp _ (final_mem_visited _ _) rfl (quiet_of_finished rfl rfl (by decide))
  have hvector := congrArg (Option.map JDEmbedding.embedding) hrow
  exact absurd hvector (by decide)

end AiHiring.EmbedJd
