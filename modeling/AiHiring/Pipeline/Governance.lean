import AiHiring.Library.Shadow
import AiHiring.Pipeline.Model

namespace AiHiring

open Library

structure AllowedTransition where
  previousStage : Option PipelineStage
  (fromStage toStage : PipelineStage)
  allowedRoles : List String
  requiresReason : Bool
  notes : Option String

namespace AllowedTransition

def SameMove (r s : AllowedTransition) : Prop :=
  r.fromStage = s.fromStage ∧ r.toStage = s.toStage

instance (r s : AllowedTransition) : Decidable (SameMove r s) :=
  inferInstanceAs (Decidable (_ ∧ _))

end AllowedTransition

-- allowed_transitions with its two uniqueness constraints: the compound one
-- sees the rows with a previous stage, the partial index the wildcard rows.
structure TransitionTable where
  rows : List AllowedTransition
  uqPreviousFromTo : rows.Pairwise fun r s =>
    r.previousStage ≠ none → r.previousStage = s.previousStage → ¬r.SameMove s
  uqFromToNoPrevious : rows.Pairwise fun r s =>
    r.previousStage = none → s.previousStage = none → ¬r.SameMove s

theorem TransitionTable.oneRow (table : TransitionTable) :
    table.rows.Pairwise fun r s => r.previousStage = s.previousStage → ¬r.SameMove s := by
  refine (table.uqPreviousFromTo.and table.uqFromToNoPrevious).imp ?_
  rintro r s ⟨hexact, hwild⟩ heq
  by_cases hnone : r.previousStage = none
  · exact hwild hnone (heq ▸ hnone)
  · exact hexact hnone heq

namespace AllowedTransitionRepository

variable (table : TransitionTable)

variable (fromStage : PipelineStage) (previousStage : Option PipelineStage)

def exact (toStage previousStage : PipelineStage) : Option AllowedTransition :=
  table.rows.find? fun r =>
    r.previousStage = some previousStage ∧ r.fromStage = fromStage ∧ r.toStage = toStage

def wildcard (toStage : PipelineStage) : Option AllowedTransition :=
  table.rows.find? fun r =>
    r.previousStage = none ∧ r.fromStage = fromStage ∧ r.toStage = toStage

def get (toStage : PipelineStage) (previousStage : Option PipelineStage) :
    Option AllowedTransition :=
  match previousStage with
  | none => wildcard table fromStage toStage
  | some previous =>
    match exact table fromStage toStage previous with
    | some row => some row
    | none => wildcard table fromStage toStage

def isTransitionAllowed (toStage : PipelineStage) (previousStage : Option PipelineStage) : Bool :=
  (get table fromStage toStage previousStage).isSome

def listEligible :
    List AllowedTransition :=
  let rows := table.rows.filter fun r =>
    r.fromStage = fromStage ∧ (r.previousStage = none ∨ r.previousStage = previousStage)
  (shadow AllowedTransition.previousStage AllowedTransition.toStage rows).map Prod.snd

private theorem find?_eligible (fromStage toStage : PipelineStage)
    (context previousStage : Option PipelineStage)
    (hcontext : context = none ∨ context = previousStage) :
    ruleFor AllowedTransition.previousStage AllowedTransition.toStage (table.rows.filter fun r =>
          r.fromStage = fromStage ∧ (r.previousStage = none ∨ r.previousStage = previousStage))
        context toStage =
      table.rows.find? fun r =>
        r.previousStage = context ∧ r.fromStage = fromStage ∧ r.toStage = toStage := by
  rw [ruleFor, List.find?_filter]
  congr 1
  funext r
  by_cases hr : r.previousStage = context
  · by_cases hf : r.fromStage = fromStage <;> simp [hr, hf, hcontext]
  · simp [hr]

theorem get_eq_governing (toStage : PipelineStage) (previousStage : Option PipelineStage) :
    get table fromStage toStage previousStage =
      governing AllowedTransition.previousStage AllowedTransition.toStage
        (table.rows.filter fun r =>
          r.fromStage = fromStage ∧ (r.previousStage = none ∨ r.previousStage = previousStage))
        previousStage toStage := by
  have hwild := find?_eligible table fromStage toStage none previousStage (.inl rfl)
  have hexact := find?_eligible table fromStage toStage previousStage previousStage (.inr rfl)
  cases previousStage with
  | none => rw [governing, hwild]; rfl
  | some previous =>
    simp only [governing, Option.bind_some, hwild, hexact]
    cases hrow : exact table fromStage toStage previous with
    | none =>
      simp only [get, hrow]
      rw [exact] at hrow
      rw [hrow, Option.none_or]
      rfl
    | some row =>
      simp only [get, hrow]
      rw [exact] at hrow
      rw [hrow, Option.some_or]

theorem get_some (toStage : PipelineStage) (previousStage : Option PipelineStage)
    (row : AllowedTransition) (h : get table fromStage toStage previousStage = some row) :
    row ∈ table.rows ∧ row.fromStage = fromStage ∧ row.toStage = toStage ∧
      (row.previousStage = none ∨ row.previousStage = previousStage) := by
  rw [get_eq_governing] at h
  obtain ⟨hm, hto, hprev⟩ := governing_some _ _ _ _ _ _ h
  obtain ⟨hmem, hfilter⟩ := List.mem_filter.mp hm
  exact ⟨hmem, (of_decide_eq_true hfilter).1, hto, hprev⟩

private theorem oneRule_eligible (fromStage : PipelineStage)
    (previousStage : Option PipelineStage) :
    OneRule AllowedTransition.previousStage AllowedTransition.toStage (table.rows.filter fun r =>
        r.fromStage = fromStage ∧ (r.previousStage = none ∨ r.previousStage = previousStage)) := by
  refine List.pairwise_filter.mpr (table.oneRow.imp ?_)
  intro r s hone hr hs hsame
  have hfr := (of_decide_eq_true hr).1
  have hfs := (of_decide_eq_true hs).1
  exact hone hsame.1 ⟨hfr.trans hfs.symm, hsame.2⟩

theorem mem_listEligible (row : AllowedTransition) :
    row ∈ listEligible table fromStage previousStage ↔
      get table fromStage row.toStage previousStage = some row := by
  have hone := oneRule_eligible table fromStage previousStage
  have hlookup (k : PipelineStage) := lookup_shadow _ _ _ previousStage hone
    (fun r hr => (of_decide_eq_true (List.mem_filter.mp hr).2).2) k
  have hnodup := shadow_keys_nodup AllowedTransition.previousStage AllowedTransition.toStage
    (table.rows.filter fun r =>
      r.fromStage = fromStage ∧ (r.previousStage = none ∨ r.previousStage = previousStage))
  rw [get_eq_governing, ← hlookup, ← mem_iff_lookup _ hnodup, listEligible, List.mem_map]
  constructor
  · rintro ⟨⟨k, found⟩, hm, rfl⟩
    have hg := (mem_iff_lookup _ hnodup k found).mp hm
    rw [hlookup] at hg
    rwa [(governing_some _ _ _ _ _ _ hg).2.1]
  · intro hm
    exact ⟨(row.toStage, row), hm, rfl⟩

end AllowedTransitionRepository

end AiHiring
