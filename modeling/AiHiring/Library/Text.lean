import Mathlib.Data.List.DropRight

namespace AiHiring.Library

-- The code points for which `str.isspace` holds, which `str.strip` removes.
def isSpace (c : Char) : Bool :=
  c.toNat ∈ [0x09, 0x0A, 0x0B, 0x0C, 0x0D, 0x1C, 0x1D, 0x1E, 0x1F, 0x20, 0x85, 0xA0, 0x1680,
    0x2000, 0x2001, 0x2002, 0x2003, 0x2004, 0x2005, 0x2006, 0x2007, 0x2008, 0x2009, 0x200A,
    0x2028, 0x2029, 0x202F, 0x205F, 0x3000]

def strip (s : String) : String :=
  String.ofList ((s.toList.dropWhile isSpace).rdropWhile isSpace)

-- Some character of the text is not a space.
def NonBlank (s : String) : Prop := ∃ c ∈ s.toList, isSpace c = false

instance (s : String) : Decidable (NonBlank s) :=
  List.decidableBEx (fun c => isSpace c = false) s.toList

theorem strip_eq_empty (s : String) : strip s = "" ↔ ∀ c ∈ s.toList, isSpace c = true := by
  have hempty (cs : List Char) : String.ofList cs = "" ↔ cs = [] := by
    rw [← String.toList_inj, String.toList_ofList]
    rfl
  rw [strip, hempty, List.rdropWhile_eq_nil_iff]
  constructor
  · intro h c hc
    by_contra hspace
    -- the first character that is not a space survives the first pass
    have hne : s.toList.dropWhile isSpace ≠ [] := by
      rw [Ne, List.dropWhile_eq_nil_iff]
      exact fun hall => hspace (hall c hc)
    have hhead := List.head_dropWhile_not isSpace hne
    rw [h _ (List.head_mem hne)] at hhead
    simp at hhead
  · intro h c hc
    exact h c ((List.dropWhile_sublist isSpace).subset hc)

theorem strip_ne_empty (s : String) : strip s ≠ "" ↔ NonBlank s := by
  rw [Ne, strip_eq_empty, NonBlank]
  simp

theorem NonBlank.ne_empty {s : String} (h : NonBlank s) : s ≠ "" := by
  rintro rfl
  obtain ⟨c, hc, -⟩ := h
  simp at hc

theorem strip_strip (s : String) : strip (strip s) = strip s := by
  have hleft : ((s.toList.dropWhile isSpace).rdropWhile isSpace).dropWhile isSpace =
      (s.toList.dropWhile isSpace).rdropWhile isSpace := by
    obtain ⟨rest, hrest⟩ := List.rdropWhile_prefix isSpace (s.toList.dropWhile isSpace)
    cases hkept : (s.toList.dropWhile isSpace).rdropWhile isSpace with
    | nil => rfl
    | cons c cs =>
      -- what is left begins where the first pass stopped
      rw [hkept] at hrest
      have hne : s.toList.dropWhile isSpace ≠ [] := by simp [← hrest]
      have hhead := List.head_dropWhile_not isSpace hne
      simp only [← hrest, List.cons_append, List.head_cons] at hhead
      simp [hhead]
  rw [strip, strip, String.toList_ofList, hleft, List.rdropWhile_idempotent]

end AiHiring.Library
