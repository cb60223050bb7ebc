import Mathlib.Algebra.Order.Ring.Defs
import Mathlib.Tactic.Common

namespace AiHiring.Library

-- A ladder of rungs, each with the share it pays and the best weight found on it. The
-- first rung with a weight pays, the rungs after it do not count.
section Ladder

variable {K : Type*}

def reached (ladder : List (K × Option K)) : Bool := ladder.any fun rung => rung.2.isSome

theorem reached_mono {ladder ladder' : List (K × Option K)}
    (h : List.Forall₂ (fun old new : K × Option K => old.2.isSome → new.2.isSome) ladder ladder')
    (hreached : reached ladder = true) : reached ladder' = true := by
  induction h with
  | nil => exact hreached
  | cons hrung hrest ih =>
    rw [reached, List.any_cons, Bool.or_eq_true] at hreached ⊢
    exact hreached.imp hrung ih

variable [Semiring K] [PartialOrder K]

def pay : List (K × Option K) → K
  | [] => 0
  | (share, some weight) :: _ => weight * share
  | (_, none) :: rest => pay rest

-- A rung gets better as long as no rung above it has been reached.
inductive Improves : List (K × Option K) → List (K × Option K) → Prop where
  | nil : Improves [] []
  | cons (share : K) (old new : Option K) (rest rest' : List (K × Option K))
      (hbest : ∀ weight ∈ old, ∃ weight' ∈ new, weight ≤ weight')
      (hrest : new = none → Improves rest rest') :
      Improves ((share, old) :: rest) ((share, new) :: rest')

-- The lowest weight on a rung is worth the highest one on every rung below.
def Dominant (lowest highest : K) (ladder : List (K × Option K)) : Prop :=
  ladder.Pairwise fun rung below => highest * below.1 ≤ lowest * rung.1

variable [IsOrderedRing K] {lowest highest bound : K} {ladder ladder' : List (K × Option K)}

theorem pay_le (hbound : 0 ≤ bound) (hshare : ∀ rung ∈ ladder, 0 ≤ rung.1)
    (hweight : ∀ rung ∈ ladder, ∀ weight ∈ rung.2, weight ≤ highest)
    (hworth : ∀ rung ∈ ladder, highest * rung.1 ≤ bound) : pay ladder ≤ bound := by
  induction ladder with
  | nil => exact hbound
  | cons rung rest ih =>
    obtain ⟨share, best⟩ := rung
    cases best with
    | some weight =>
      have hle := hweight _ List.mem_cons_self weight rfl
      have hmul : weight * share ≤ highest * share :=
        mul_le_mul_of_nonneg_right hle (hshare _ List.mem_cons_self)
      exact hmul.trans (hworth _ List.mem_cons_self)
    | none =>
      apply ih
      · exact fun rung hrung => hshare rung (List.mem_cons_of_mem _ hrung)
      · exact fun rung hrung => hweight rung (List.mem_cons_of_mem _ hrung)
      · exact fun rung hrung => hworth rung (List.mem_cons_of_mem _ hrung)

theorem pay_mono (lowest highest : K) (h : Improves ladder ladder') (hlowest : 0 ≤ lowest)
    (hdominant : Dominant lowest highest ladder) (hshare : ∀ rung ∈ ladder, 0 ≤ rung.1)
    (hold : ∀ rung ∈ ladder, ∀ weight ∈ rung.2, weight ≤ highest)
    (hnew : ∀ rung ∈ ladder', ∀ weight ∈ rung.2, lowest ≤ weight) : pay ladder ≤ pay ladder' := by
  induction h with
  | nil => exact le_rfl
  | cons share old new rest rest' hbest hrest ih =>
    obtain ⟨hworth, hbelow⟩ := List.pairwise_cons.mp hdominant
    obtain ⟨hfirst, hshares⟩ := List.forall_mem_cons.mp hshare
    obtain ⟨-, holds⟩ := List.forall_mem_cons.mp hold
    cases old with
    | some weight =>
      obtain ⟨weight', hnew', hle⟩ := hbest weight rfl
      obtain rfl := Option.mem_def.mp hnew'
      exact mul_le_mul_of_nonneg_right hle hfirst
    | none =>
      cases new with
      | some weight' =>
        -- what the rungs below paid is worth no more than this rung
        have hle : lowest ≤ weight' := hnew _ List.mem_cons_self weight' rfl
        have hrests : pay rest ≤ lowest * share :=
          pay_le (mul_nonneg hlowest hfirst) hshares holds hworth
        exact hrests.trans (mul_le_mul_of_nonneg_right hle hfirst)
      | none =>
        exact ih rfl hbelow hshares holds fun rung hrung =>
          hnew rung (List.mem_cons_of_mem _ hrung)

end Ladder

end AiHiring.Library
