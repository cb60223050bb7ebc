import AiHiring.Library.Crew
import AiHiring.Library.Run

namespace AiHiring.EmbedSkill

open Library

-- How far a run of `generate_skill_embedding` has come, with the name it has read.
inductive Stage where
  | started
  | computing (canonicalName : String)
  -- the row is there still; the session's object keeps the name that it has
  | refetched (canonicalName : String)
  | finished
  deriving DecidableEq

-- One skill: what is committed, the messages that renames still have to queue, those
-- at the broker, and the runs.
structure World (V : Type) where
  canonicalName : String
  embedding : Option V
  (due messages : ℕ)
  runs : List Stage

inductive Event where
  | updateSkill (canonicalName : String)
  | queueSkillEmbedding
  -- the broker may deliver the message again
  | deliver (again : Bool)
  | advance (i : ℕ)

variable {V : Type}

section Steps

variable (embed : String → V) (w : World V)

-- A run up to its next query or its commit.
def generateSkillEmbedding (i : ℕ) : Stage → Option (World V)
  | .started => some { w with runs := w.runs.set i (.computing w.canonicalName) }
  | .computing canonicalName => some { w with runs := w.runs.set i (.refetched canonicalName) }
  | .refetched canonicalName =>
    some { w with embedding := some (embed canonicalName), runs := w.runs.set i .finished }
  | .finished => none

def next : Event → Option (World V)
  | .updateSkill canonicalName =>
    some { w with canonicalName := canonicalName, due := w.due + 1 }
  | .queueSkillEmbedding =>
    if w.due = 0 then none else some { w with due := w.due - 1, messages := w.messages + 1 }
  | .deliver again =>
    if w.messages = 0 then none
    else some { w with
      messages := if again then w.messages else w.messages - 1
      runs := w.runs ++ [.started] }
  | .advance i => w.runs[i]?.bind (generateSkillEmbedding embed w i)

def Step (event : Event) (t : World V) : Prop := next embed w event = some t

def Quiet : Prop := w.due = 0 ∧ w.messages = 0 ∧ ∀ run ∈ w.runs, run = .finished

def Follows : Prop := Quiet w → w.embedding = some (embed w.canonicalName)

-- A run that will write the embedding of the name, if the skill keeps it.
def Hopeful (canonicalName : String) : Stage → Prop
  | .started => True
  | .computing own | .refetched own => embed own = embed canonicalName
  | .finished => False

-- The current name will be embedded again.
def Pending : Prop :=
  w.due ≠ 0 ∨ w.messages ≠ 0 ∨ ∃ run ∈ w.runs, Hopeful embed w.canonicalName run

-- A run that writes the embedding of another name does so before the current one is
-- embedded again.
def InOrder : Event → World V → Prop
  | .advance i, _ => ∀ own, w.runs[i]? = some (.refetched own) →
      embed own = embed w.canonicalName ∨
        Pending embed { w with runs := w.runs.set i .finished }
  | _, _ => True

def Inv : Prop := Pending embed w ∨ w.embedding = some (embed w.canonicalName)

end Steps

variable {embed : String → V} {w t : World V}

theorem Inv.follows (h : Inv embed w) : Follows embed w := by
  intro ⟨hdue, hmessages, hruns⟩
  rcases h with (hdue' | hmessages' | ⟨run, hrun, hhopeful⟩) | hcurrent
  · exact absurd hdue hdue'
  · exact absurd hmessages hmessages'
  · rw [hruns run hrun] at hhopeful
    exact hhopeful.elim
  · exact hcurrent

-- A run that does not commit stays hopeful.
theorem Inv.moved {i : ℕ} {run stage : Stage} (h : Inv embed w) (hrun : w.runs[i]? = some run)
    (hstep : Hopeful embed w.canonicalName run → Hopeful embed w.canonicalName stage) :
    Inv embed { w with runs := w.runs.set i stage } := by
  rcases h with (hdue | hmessages | hhopeful) | hcurrent
  · exact .inl (.inl hdue)
  · exact .inl (.inr (.inl hmessages))
  · exact .inl (.inr (.inr (exists_mem_set hrun hhopeful hstep)))
  · exact .inr hcurrent

theorem inv_advance {i : ℕ} {run : Stage} (h : Inv embed w) (hrun : w.runs[i]? = some run)
    (horder : InOrder embed w (.advance i) t)
    (hstep : generateSkillEmbedding embed w i run = some t) : Inv embed t := by
  cases run with
  | started =>
    cases hstep
    exact h.moved hrun fun _ => rfl
  | computing own =>
    cases hstep
    exact h.moved hrun id
  | refetched own =>
    cases hstep
    rcases horder own hrun with hsame | hpending
    · exact .inr (congrArg some hsame)
    · exact .inl hpending
  | finished => simp [generateSkillEmbedding] at hstep

theorem inv_step (event : Event) (h : Inv embed w) (horder : InOrder embed w event t)
    (hstep : Step embed w event t) : Inv embed t := by
  cases event with
  | updateSkill canonicalName =>
    cases hstep
    exact .inl (.inl (Nat.succ_ne_zero _))
  | queueSkillEmbedding =>
    simp only [Step, next] at hstep
    split_ifs at hstep
    cases hstep
    exact .inl (.inr (.inl (Nat.succ_ne_zero _)))
  | deliver again =>
    simp only [Step, next] at hstep
    split_ifs at hstep <;> cases hstep <;>
      exact .inl (.inr (.inr ⟨.started, List.mem_append_right _ (by simp), trivial⟩))
  | advance i =>
    obtain ⟨run, hrun, hstep⟩ := Option.bind_eq_some_iff.mp hstep
    exact inv_advance h hrun horder hstep

-- The embedding follows the name in every run that writes no other name's embedding
-- last.
theorem embedding_follows (hstart : Follows embed w) (hruns : w.runs = [])
    (path : List (Event × World V)) (hpath : Path (Step embed) w path)
    (horder : EveryStep (InOrder embed) w path) : ∀ t ∈ visited w path, Follows embed t := by
  have hinv : Inv embed w := by
    by_cases hpending : Pending embed w
    · exact .inl hpending
    · obtain ⟨hdue, hmessages⟩ := not_or.mp hpending
      refine .inr (hstart ⟨not_not.mp hdue, not_not.mp (not_or.mp hmessages).1, ?_⟩)
      simp [hruns]
  have hkept := hpath.guarded_invariant hinv horder fun _ event _ => inv_step event
  exact fun t ht => (hkept t ht).follows

def embedded : World String := ⟨"Java", some "Java", 0, 0, []⟩

def rename (canonicalName : String) : List Event :=
  [.updateSkill canonicalName, .queueSkillEmbedding, .deliver false]

def runThrough (i n : ℕ) : List Event := List.replicate n (.advance i)

def run (events : List Event) : List (Event × World String) := execute (next id) embedded events

theorem run_path (events : List Event) : Path (Step id) embedded (run events) :=
  execute_path (next id) (fun _ _ _ h => h) embedded events

theorem embedding_follows_renamed :
    Follows id (final embedded (run (rename "Kotlin" ++ runThrough 0 3))) := by
  refine embedding_follows (fun _ => rfl) rfl _ (run_path _) ?_ _ (final_mem_visited _ _)
  refine ⟨trivial, trivial, trivial, fun own h => ?_, fun own h => ?_, fun own h => ?_, trivial⟩
  · cases h
  · cases h
  · cases h
    exact .inl rfl

-- Two renames, and the run of the first one writes last.
theorem overtaken_embedding_stale :
    ¬∀ (embed : String → String) (w : World String) (path : List (Event × World String)),
      Follows embed w → w.runs = [] → Path (Step embed) w path →
        ∀ t ∈ visited w path, Follows embed t := by
  intro h
  have hfollows := h id embedded (run (rename "Kotlin" ++ runThrough 0 1 ++ rename "Scala" ++
    runThrough 1 3 ++ runThrough 0 2)) (fun _ => rfl) rfl (run_path _) _ (final_mem_visited _ _)
  exact absurd (hfollows ⟨rfl, rfl, by decide⟩) (by decide)

end AiHiring.EmbedSkill
