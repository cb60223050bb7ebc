import Mathlib.Tactic.Common

namespace AiHiring.Library

-- A source with the views of it that are cached, one under each key.
structure Cached (σ : Type*) {κ : Type*} (ν : κ → Type*) where
  source : σ
  entries : ∀ k, Option (ν k)

namespace Cached

variable {σ κ ε : Type*} {ν : κ → Type*} [DecidableEq κ]

def empty (source : σ) : Cached σ ν where
  source := source
  entries _ := none

-- A change of the source, and the keys that are deleted after it.
def write (c : Cached σ ν) (source : σ) (keys : List κ) : Cached σ ν where
  source := source
  entries k := if k ∈ keys then none else c.entries k

section Load

variable (load : σ → ∀ k, Except ε (ν k)) (c : Cached σ ν)

-- A view is loaded when it is not cached, and then stored unless `stores` says
-- that an invalidation kept it out. A load that raises stores nothing.
def getOrSet (k : κ) (stores : Bool) : Except ε (ν k) × Cached σ ν :=
  match c.entries k with
  | some v => (.ok v, c)
  | none =>
    match load c.source k with
    | .error e => (.error e, c)
    | .ok v =>
      if stores then (.ok v, { c with entries := Function.update c.entries k (some v) })
      else (.ok v, c)

-- What is cached is what would be loaded.
def Coherent : Prop :=
  ∀ k v, c.entries k = some v → load c.source k = .ok v

end Load

variable {load : σ → ∀ k, Except ε (ν k)} {c : Cached σ ν} {source : σ} {keys : List κ}

omit [DecidableEq κ] in
theorem coherent_empty : Coherent load (empty source) := by
  intro k v h
  simp [empty] at h

theorem getOrSet_source (k : κ) (stores : Bool) :
    (getOrSet load c k stores).2.source = c.source := by
  unfold getOrSet
  cases c.entries k with
  | some v => rfl
  | none =>
    cases load c.source k with
    | error e => rfl
    | ok v => cases stores <;> rfl

theorem Coherent.get_eq (h : Coherent load c) (k : κ) (stores : Bool) :
    (getOrSet load c k stores).1 = load c.source k := by
  unfold getOrSet
  cases hk : c.entries k with
  | some v => exact (h k v hk).symm
  | none =>
    cases load c.source k with
    | error e => rfl
    | ok v => cases stores <;> rfl

-- Every read returns what would be loaded exactly when the cache is coherent.
theorem coherent_iff_get :
    Coherent load c ↔ ∀ k stores, (getOrSet load c k stores).1 = load c.source k := by
  constructor
  · exact fun h k stores => h.get_eq k stores
  · intro hall k v hk
    have hget := hall k false
    simp only [getOrSet, hk] at hget
    exact hget.symm

theorem Coherent.getOrSet (h : Coherent load c) (k : κ) (stores : Bool) :
    Coherent load (getOrSet load c k stores).2 := by
  unfold Cached.getOrSet
  cases hk : c.entries k with
  | some v => exact h
  | none =>
    cases hload : load c.source k with
    | error e => exact h
    | ok v =>
      cases stores with
      | false => exact h
      | true =>
        intro k' v' hk'
        by_cases heq : k' = k
        · subst heq
          have hv : v = v' := by simpa using hk'
          exact hv ▸ hload
        · have hold : c.entries k' = some v' := by simpa [heq] using hk'
          exact h k' v' hold

-- A change keeps the cache coherent exactly when it deletes every cached view
-- that would now be loaded differently.
theorem Coherent.write_iff (h : Coherent load c) : Coherent load (c.write source keys) ↔
      ∀ k, k ∉ keys → c.entries k ≠ none → load source k = load c.source k := by
  constructor
  · intro hafter k hkeys hcached
    obtain ⟨v, hv⟩ := Option.ne_none_iff_exists'.mp hcached
    have hentry : (c.write source keys).entries k = some v := by simp [write, hkeys, hv]
    exact (hafter k v hentry).trans (h k v hv).symm
  · intro hsame k v hv
    have hkeys : k ∉ keys := fun hk => by simp [write, hk] at hv
    have hold : c.entries k = some v := by simpa [write, hkeys] using hv
    have hne : c.entries k ≠ none := by simp [hold]
    exact (hsame k hkeys hne).trans (h k v hold)

end Cached

end AiHiring.Library
