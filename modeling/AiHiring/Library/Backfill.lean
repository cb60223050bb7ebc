import Mathlib.Data.List.Nodup

namespace AiHiring.Library

variable {σ ι ρ κ : Type*} (ownerOf : ρ → κ) (owner : ι → κ) (made : ι → ρ → Prop)

-- One turn: the owner has a row already, or gets one.
inductive Backfill (item : ι) (rows : List ρ) : List ρ → Prop where
  | kept (row : ρ) (hrow : row ∈ rows) (howner : ownerOf row = owner item) : Backfill item rows rows
  | added (row : ρ) (hnone : ∀ old ∈ rows, ownerOf old ≠ owner item)
      (howner : ownerOf row = owner item) (hmade : made item row) :
      Backfill item rows (rows ++ [row])

-- What a whole batch adds to the rows.
structure Backfilled (batch : List ι) (rows new : List ρ) : Prop where
  fresh : ∀ row ∈ new, ∀ old ∈ rows, ownerOf old ≠ ownerOf row
  once : (new.map ownerOf).Nodup
  origin : ∀ row ∈ new, ∃ item ∈ batch, ownerOf row = owner item ∧ made item row
  served : ∀ item ∈ batch, ∃ row ∈ rows ++ new, ownerOf row = owner item

variable {ownerOf owner made}

variable {batch : List ι} {rows new : List ρ}

theorem Backfilled.kept {item : ι} (row : ρ) (hrow : row ∈ rows) (howner : ownerOf row = owner item)
    (h : Backfilled ownerOf owner made batch rows new) :
    Backfilled ownerOf owner made (item :: batch) rows new := by
  refine ⟨h.fresh, h.once, ?_, ?_⟩
  · intro added hadded
    obtain ⟨origin, horigin, hmade⟩ := h.origin added hadded
    exact ⟨origin, List.mem_cons_of_mem _ horigin, hmade⟩
  · intro other hother
    rcases List.mem_cons.mp hother with rfl | hother
    · exact ⟨row, List.mem_append_left _ hrow, howner⟩
    · exact h.served other hother

theorem Backfilled.added {item : ι} (row : ρ)
    (hnone : ∀ old ∈ rows, ownerOf old ≠ owner item) (howner : ownerOf row = owner item)
    (hmade : made item row) (h : Backfilled ownerOf owner made batch (rows ++ [row]) new) :
    Backfilled ownerOf owner made (item :: batch) rows (row :: new) := by
  have hfresh : ∀ added ∈ new, ownerOf row ≠ ownerOf added := fun added hadded =>
    h.fresh added hadded row (List.mem_append_right _ (List.mem_singleton.mpr rfl))
  constructor
  · intro added hadded old hold
    rcases List.mem_cons.mp hadded with rfl | hadded
    · rw [howner]
      exact hnone old hold
    · exact h.fresh added hadded old (List.mem_append_left _ hold)
  · rw [List.map_cons]
    apply List.nodup_cons.mpr ⟨?_, h.once⟩
    intro hmem
    obtain ⟨added, hadded, hsame⟩ := List.mem_map.mp hmem
    exact hfresh added hadded hsame.symm
  · intro added hadded
    rcases List.mem_cons.mp hadded with rfl | hadded
    · exact ⟨item, List.mem_cons_self, howner, hmade⟩
    · obtain ⟨origin, horigin, hfrom⟩ := h.origin added hadded
      exact ⟨origin, List.mem_cons_of_mem _ horigin, hfrom⟩
  · intro other hother
    rcases List.mem_cons.mp hother with rfl | hother
    · exact ⟨row, List.mem_append_right _ List.mem_cons_self, howner⟩
    · obtain ⟨found, hfound, hsame⟩ := h.served other hother
      rw [List.append_assoc, List.singleton_append] at hfound
      exact ⟨found, hfound, hsame⟩

theorem backfilled_foldl (f : σ → ι → σ) (view : σ → List ρ) (count : σ → ℕ) (inv : σ → Prop)
    (batch : List ι) (hstep : ∀ s, inv s → ∀ item ∈ batch, inv (f s item) ∧
      Backfill ownerOf owner made item (view s) (view (f s item)) ∧
      count (f s item) + (view s).length = count s + (view (f s item)).length)
    (s : σ) (h : inv s) :
    ∃ new, view (batch.foldl f s) = view s ++ new ∧
      Backfilled ownerOf owner made batch (view s) new ∧
      count (batch.foldl f s) = count s + new.length ∧ inv (batch.foldl f s) := by
  induction batch generalizing s with
  | nil => exact ⟨[], by simp, ⟨by simp, by simp, by simp, by simp⟩, by simp, h⟩
  | cons item rest ih =>
    obtain ⟨hinv, hturn, hcount⟩ := hstep s h item List.mem_cons_self
    obtain ⟨new, hview, hfilled, htotal, hfinal⟩ :=
      ih (fun s hs other hother => hstep s hs other (List.mem_cons_of_mem _ hother)) (f s item) hinv
    rw [List.foldl_cons]
    generalize view (f s item) = next at *
    cases hturn with
    | kept row hrow howner =>
      refine ⟨new, hview, hfilled.kept row hrow howner, ?_, hfinal⟩
      omega
    | added row hnone howner hmade =>
      refine ⟨row :: new, ?_, hfilled.added row hnone howner hmade, ?_, hfinal⟩
      · rw [hview, List.append_assoc, List.singleton_append]
      · rw [List.length_append, List.length_singleton] at hcount
        rw [List.length_cons]
        omega

theorem Backfilled.exactlyOne (h : Backfilled ownerOf owner made batch rows new)
    (hunique : ∀ a ∈ rows, ∀ b ∈ rows, ownerOf a = ownerOf b → a = b) (item : ι)
    (hitem : item ∈ batch) : ∃! row, row ∈ rows ++ new ∧ ownerOf row = owner item := by
  obtain ⟨row, hrow, howner⟩ := h.served item hitem
  refine ⟨row, ⟨hrow, howner⟩, ?_⟩
  rintro other ⟨hother, hsame⟩
  have hboth : ownerOf other = ownerOf row := hsame.trans howner.symm
  rcases List.mem_append.mp hother with hother | hother
  · rcases List.mem_append.mp hrow with hrow | hrow
    · exact hunique other hother row hrow hboth
    · exact absurd hboth (h.fresh row hrow other hother)
  · rcases List.mem_append.mp hrow with hrow | hrow
    · exact absurd hboth.symm (h.fresh other hother row hrow)
    · exact List.inj_on_of_nodup_map h.once hother hrow hboth

end AiHiring.Library
