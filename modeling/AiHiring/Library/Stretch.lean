import Mathlib.Tactic.Common

namespace AiHiring.Library

-- A stretch of statements, each of which may raise. The first one that does ends
-- it; what the ones before it did stays.
section Stretch

variable {κ σ ε : Type*} (effect : κ → σ → σ) (fault : κ → Option ε)

def runStretch : List κ → σ → σ × Option (κ × ε)
  | [], s => (s, none)
  | c :: rest, s =>
    match fault c with
    | some e => (s, some (c, e))
    | none => runStretch rest (effect c s)

def firstFault (code : List κ) : Option (κ × ε) :=
  code.findSome? fun c => (fault c).map (Prod.mk c)

variable {effect fault} {c : κ} {code rest : List κ} {s : σ} {e : ε}

@[simp] theorem runStretch_nil : runStretch effect fault [] s = (s, none) := rfl

theorem runStretch_cons_some (h : fault c = some e) :
    runStretch effect fault (c :: rest) s = (s, some (c, e)) := by
  simp only [runStretch, h]

theorem runStretch_cons_none (h : fault c = none) :
    runStretch effect fault (c :: rest) s = runStretch effect fault rest (effect c s) := by
  simp only [runStretch, h]

theorem runStretch_snd (code : List κ) (s : σ) :
    (runStretch effect fault code s).2 = firstFault fault code := by
  induction code generalizing s with
  | nil => rfl
  | cons c rest ih =>
    cases h : fault c with
    | none =>
      rw [runStretch_cons_none h, ih]
      simp [firstFault, h]
    | some e => simp [runStretch_cons_some h, firstFault, h]

theorem fault_of_firstFault (h : firstFault fault code = some (c, e)) :
    c ∈ code ∧ fault c = some e := by
  obtain ⟨x, hx, heq⟩ := List.exists_of_findSome?_eq_some h
  obtain ⟨e', he, hpair⟩ := Option.map_eq_some_iff.mp heq
  cases hpair
  exact ⟨hx, he⟩

theorem runStretch_keeps (inv : σ → Prop) (code : List κ) (hs : inv s)
    (hkeep : ∀ c ∈ code, ∀ s, inv s → inv (effect c s)) :
    inv (runStretch effect fault code s).1 := by
  induction code generalizing s with
  | nil => exact hs
  | cons c rest ih =>
    rw [List.forall_mem_cons] at hkeep
    cases h : fault c with
    | none =>
      rw [runStretch_cons_none h]
      exact ih (hkeep.1 s hs) hkeep.2
    | some e =>
      rw [runStretch_cons_some h]
      exact hs

theorem runStretch_append (code rest : List κ) (s : σ) : runStretch effect fault (code ++ rest) s =
      match runStretch effect fault code s with
      | (s', none) => runStretch effect fault rest s'
      | (s', some raised) => (s', some raised) := by
  induction code generalizing s with
  | nil => rfl
  | cons c code ih =>
    rw [List.cons_append]
    cases h : fault c with
    | none => rw [runStretch_cons_none h, runStretch_cons_none h, ih]
    | some e => rw [runStretch_cons_some h, runStretch_cons_some h]

end Stretch

end AiHiring.Library
