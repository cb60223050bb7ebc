import Mathlib.Data.List.Induction

namespace AiHiring.Library

section Claiming

variable {β : Type*} (span : β → ℕ × ℕ)

def Inside (s : ℕ × ℕ) (i : ℕ) : Prop := s.1 ≤ i ∧ i < s.2

instance (s : ℕ × ℕ) (i : ℕ) : Decidable (Inside s i) := inferInstanceAs (Decidable (_ ∧ _))

def overlaps (s t : ℕ × ℕ) : Bool := s.1 < t.2 && t.1 < s.2

theorem overlaps_comm (s t : ℕ × ℕ) : overlaps s t = overlaps t s := Bool.and_comm _ _

-- First come, first served: what overlaps a span already claimed is dropped.
def serve (claimed : List β) (x : β) : List β :=
  if claimed.any fun y => overlaps (span x) (span y) then claimed else claimed ++ [x]

def claim (xs : List β) : List β := xs.foldl (serve span) []

theorem claim_append_singleton (xs : List β) (x : β) :
    claim span (xs ++ [x]) = serve span (claim span xs) x := by
  rw [claim, List.foldl_append]
  rfl

theorem claim_subset_append (xs ys : List β) : claim span xs ⊆ claim span (xs ++ ys) := by
  induction ys using List.reverseRecOn with
  | nil =>
    rw [List.append_nil]
    exact List.Subset.refl _
  | append_singleton ys y ih =>
    rw [← List.append_assoc, claim_append_singleton, serve]
    split
    · exact ih
    · exact fun z hz => List.mem_append_left _ (ih hz)

theorem mem_claim_append {xs ys : List β} {x : β} (h : x ∈ claim span (xs ++ ys)) :
    x ∈ claim span xs ∨ x ∈ ys := by
  induction ys using List.reverseRecOn with
  | nil =>
    rw [List.append_nil] at h
    exact .inl h
  | append_singleton ys y ih =>
    rw [← List.append_assoc, claim_append_singleton, serve] at h
    have hold (hx : x ∈ claim span (xs ++ ys)) : x ∈ claim span xs ∨ x ∈ ys ++ [y] :=
      (ih hx).imp id fun hys => List.mem_append_left _ hys
    split at h
    · exact hold h
    · rcases List.mem_append.mp h with hx | hnew
      · exact hold hx
      · exact .inr (List.mem_append_right _ hnew)

theorem mem_of_mem_claim {xs : List β} {x : β} (h : x ∈ claim span xs) : x ∈ xs := by
  rw [← List.nil_append xs] at h
  exact (mem_claim_append span h).resolve_left List.not_mem_nil

theorem claim_pairwise (xs : List β) :
    (claim span xs).Pairwise fun x y => overlaps (span y) (span x) = false := by
  induction xs using List.reverseRecOn with
  | nil => exact List.Pairwise.nil
  | append_singleton xs y ih =>
    rw [claim_append_singleton, serve]
    split
    · exact ih
    · rename_i hfree
      rw [List.pairwise_append]
      refine ⟨ih, List.pairwise_singleton _ _, ?_⟩
      intro x hx z hz
      rw [List.mem_singleton.mp hz]
      by_contra hoverlap
      exact hfree (List.any_eq_true.mpr ⟨x, hx, by simpa using hoverlap⟩)

theorem overlaps_of_inside {s t : ℕ × ℕ} {i : ℕ} (hs : Inside s i) (ht : Inside t i) :
    overlaps s t = true := by
  obtain ⟨hs1, hs2⟩ := hs
  obtain ⟨ht1, ht2⟩ := ht
  rw [overlaps, Bool.and_eq_true, decide_eq_true_eq, decide_eq_true_eq]
  omega

theorem exists_inside_of_overlaps {s t : ℕ × ℕ} (hs : s.1 < s.2) (ht : t.1 < t.2)
    (h : overlaps s t = true) : ∃ i, Inside s i ∧ Inside t i := by
  rw [overlaps, Bool.and_eq_true, decide_eq_true_eq, decide_eq_true_eq] at h
  refine ⟨max s.1 t.1, ⟨?_, ?_⟩, ?_, ?_⟩ <;> omega

-- What was dropped is covered by what came before it.
def Sheltered (xs : List β) : Prop :=
  ∀ before x after, xs = before ++ x :: after → (∀ y ∈ before, overlaps (span x) (span y) = false) ∨
      ∀ i, Inside (span x) i → ∃ y ∈ before, Inside (span y) i

variable {span}

theorem Sheltered.of_append {xs ys : List β} (h : Sheltered span (xs ++ ys)) :
    Sheltered span xs := by
  intro before x after hxs
  refine h before x (after ++ ys) ?_
  rw [hxs, List.append_assoc, List.cons_append]

theorem sheltered_nil : Sheltered span [] := by
  intro before x after h
  simp at h

theorem Sheltered.concat {xs : List β} {x : β} (h : Sheltered span xs)
    (hx : (∀ y ∈ xs, overlaps (span x) (span y) = false) ∨
      ∀ i, Inside (span x) i → ∃ y ∈ xs, Inside (span y) i) : Sheltered span (xs ++ [x]) := by
  intro before y after heq
  rcases List.eq_nil_or_concat after with rfl | ⟨rest, z, rfl⟩
  · obtain ⟨rfl, hlast⟩ := List.append_inj' heq rfl
    obtain rfl := List.head_eq_of_cons_eq hlast
    exact hx
  · have hsame : xs ++ [x] = (before ++ y :: rest) ++ [z] := by simpa using heq
    obtain ⟨rfl, -⟩ := List.append_inj' hsame rfl
    exact h before y rest rfl

theorem covered_of_sheltered {xs : List β} (h : Sheltered span xs) {x : β} (hx : x ∈ xs) {i : ℕ}
    (hi : Inside (span x) i) : ∃ y ∈ claim span xs, Inside (span y) i := by
  induction xs using List.reverseRecOn generalizing x i with
  | nil => simp at hx
  | append_singleton xs y ih =>
    have hkept := claim_subset_append span xs [y]
    have hold {z : β} (hz : z ∈ xs) {j : ℕ} (hj : Inside (span z) j) :
        ∃ u ∈ claim span (xs ++ [y]), Inside (span u) j := by
      obtain ⟨u, hu, hin⟩ := ih h.of_append hz hj
      exact ⟨u, hkept hu, hin⟩
    rcases List.mem_append.mp hx with hmem | hlast
    · exact hold hmem hi
    · obtain rfl := List.mem_singleton.mp hlast
      rcases h xs x [] rfl with hfree | hcovered
      · refine ⟨x, ?_, hi⟩
        rw [claim_append_singleton, serve, if_neg]
        · exact List.mem_append_right _ (List.mem_singleton.mpr rfl)
        · intro hany
          obtain ⟨u, hu, hoverlap⟩ := List.any_eq_true.mp hany
          rw [hfree u (mem_of_mem_claim span hu)] at hoverlap
          exact Bool.false_ne_true hoverlap
      · obtain ⟨z, hz, hin⟩ := hcovered i hi
        exact hold hz hin

-- The first one that does stick out is dropped, and the place where it sticks
-- out stays open unless a later one covers it.
theorem open_of_not_sheltered {before after : List β} {x y : β} {i : ℕ}
    (hproper : ∀ z ∈ before ++ x :: after, (span z).1 < (span z).2)
    (hbefore : Sheltered span before) (hy : y ∈ before)
    (hoverlap : overlaps (span x) (span y) = true)
    (hi : ∀ z ∈ before ++ after, ¬Inside (span z) i) :
    ¬∃ z ∈ claim span (before ++ x :: after), Inside (span z) i := by
  rintro ⟨z, hz, hin⟩
  have hsplit : z ∈ claim span ((before ++ [x]) ++ after) := by simpa using hz
  rcases mem_claim_append span hsplit with hfirst | hafter
  · have hproper' (u : β) (hu : u ∈ before ++ [x]) : (span u).1 < (span u).2 := by
      refine hproper u ?_
      rcases List.mem_append.mp hu with hbefore' | hx
      · exact List.mem_append_left _ hbefore'
      · rw [List.mem_singleton.mp hx]
        simp
    obtain ⟨j, hxj, hyj⟩ := exists_inside_of_overlaps (hproper' x (by simp))
      (hproper' y (List.mem_append_left _ hy)) hoverlap
    obtain ⟨u, hu, huj⟩ := covered_of_sheltered hbefore hy hyj
    rw [claim_append_singleton, serve, if_pos] at hfirst
    · exact hi z (List.mem_append_left _ (mem_of_mem_claim span hfirst)) hin
    · exact List.any_eq_true.mpr ⟨u, hu, overlaps_of_inside hxj huj⟩
  · exact hi z (List.mem_append_right _ hafter) hin

end Claiming

end AiHiring.Library
