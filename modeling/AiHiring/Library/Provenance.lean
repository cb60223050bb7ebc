import Mathlib.Tactic.Common

namespace AiHiring.Library

-- Stored values that remember the reads they were computed from, and a session that
-- writes only what differs from what it had loaded.
section Provenance

variable {κ ν ρ : Type*}

structure Cell (ν ρ : Type*) where
  value : ν
  sources : List ρ

abbrev Cells (κ ν ρ : Type*) : Type _ := κ → Option (Cell ν ρ)

-- What was read of the cells was computed from these reads.
def sourcesOf (cells : Cells κ ν ρ) (keys : List κ) : List ρ :=
  keys.flatMap fun k => (cells k).elim [] Cell.sources

def AllFrom (good : ρ → Prop) (cells : Cells κ ν ρ) : Prop :=
  ∀ k cell, cells k = some cell → ∀ r ∈ cell.sources, good r

variable {good : ρ → Prop} {loaded stored : Cells κ ν ρ} {sources : List ρ}

theorem AllFrom.sourcesOf (h : AllFrom good stored) (keys : List κ) :
    ∀ r ∈ sourcesOf stored keys, good r := by
  intro r hr
  obtain ⟨k, -, hk⟩ := List.mem_flatMap.mp hr
  cases hcell : stored k with
  | none =>
    rw [hcell] at hk
    simp at hk
  | some cell =>
    rw [hcell] at hk
    exact h k cell hcell r hk

variable [DecidableEq κ]

theorem lookup_map_none (keys : List κ) (k : κ) :
    (keys.map fun k => (k, (none : Option ν))).lookup k = if k ∈ keys then some none else none := by
  induction keys with
  | nil => rfl
  | cons first rest ih =>
    rw [List.map_cons, List.lookup_cons, ih]
    by_cases hfirst : k = first
    · simp [hfirst]
    · simp [hfirst, beq_false_of_ne hfirst]

variable [DecidableEq ν]

def storeChanged (loaded stored : Option (Cell ν ρ)) (sources : List ρ) (new : Option ν) :
    Option (Cell ν ρ) :=
  if loaded.map Cell.value = new then stored else new.map fun value => ⟨value, sources⟩

def writeBack (loaded stored : Cells κ ν ρ) (sources : List ρ) (writes : List (κ × Option ν)) :
    Cells κ ν ρ := fun k =>
  match writes.lookup k with
  | none => stored k
  | some new => storeChanged (loaded k) (stored k) sources new

def cleared (keys : List κ) (loaded stored : Cells κ ν ρ) : Cells κ ν ρ :=
  writeBack loaded stored [] (keys.map fun k => (k, none))

theorem AllFrom.writeBack (h : AllFrom good stored) (hsources : ∀ r ∈ sources, good r)
    (writes : List (κ × Option ν)) : AllFrom good (writeBack loaded stored sources writes) := by
  intro k cell hcell
  unfold Library.writeBack at hcell
  cases hwrite : writes.lookup k with
  | none =>
    rw [hwrite] at hcell
    exact h k cell hcell
  | some new =>
    rw [hwrite] at hcell
    dsimp only [storeChanged] at hcell
    split_ifs at hcell with hsame
    · exact h k cell hcell
    · obtain ⟨value, -, rfl⟩ := Option.map_eq_some_iff.mp hcell
      exact hsources

theorem cleared_eq_some {keys : List κ} {k : κ} {cell : Cell ν ρ}
    (h : cleared keys loaded stored k = some cell) :
    stored k = some cell ∧ (k ∈ keys → loaded k = none) := by
  unfold cleared Library.writeBack at h
  rw [lookup_map_none] at h
  by_cases hk : k ∈ keys
  · rw [if_pos hk] at h
    dsimp only [storeChanged] at h
    split_ifs at h with hsame
    · exact ⟨h, fun _ => Option.map_eq_none_iff.mp hsame⟩
    · cases h
  · rw [if_neg hk] at h
    exact ⟨h, fun hin => absurd hin hk⟩

end Provenance

end AiHiring.Library
