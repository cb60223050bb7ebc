import Mathlib.Logic.Relation
import Mathlib.Tactic.Common

namespace AiHiring.Library

section Forest

open Relation

variable {α β : Type*}

-- A parent map gives each node at most one parent. `Ancestor parent a b` says
-- that climbing from `a` at least one step reaches `b`.
def Ancestor (parent : α → Option α) : α → α → Prop :=
  TransGen fun a b => parent a = some b

-- No node is its own ancestor.
def Forest (parent : α → Option α) : Prop := ∀ a, ¬Ancestor parent a a

variable {parent parent' : α → Option α}

theorem Ancestor.single {a b : α} (h : parent a = some b) : Ancestor parent a b :=
  TransGen.single h

theorem Ancestor.trans {a b c : α} (h : Ancestor parent a b) (h' : Ancestor parent b c) :
    Ancestor parent a c :=
  TransGen.trans h h'

theorem ancestor_iff {a b : α} (h : parent a = some b) (c : α) :
    Ancestor parent a c ↔ c = b ∨ Ancestor parent b c := by
  constructor
  · intro hac
    rcases TransGen.head'_iff.mp hac with ⟨next, hnext, hrest⟩
    obtain rfl : b = next := Option.some.inj (h.symm.trans hnext)
    rcases reflTransGen_iff_eq_or_transGen.mp hrest with rfl | hrest
    · exact .inl rfl
    · exact .inr hrest
  · intro hc
    rcases hc with rfl | hc
    · exact Ancestor.single h
    · exact (Ancestor.single h).trans hc

theorem Ancestor.exists_parent {a c : α} (h : Ancestor parent a c) : ∃ b, parent a = some b := by
  obtain ⟨b, hb, -⟩ := TransGen.head'_iff.mp h
  exact ⟨b, hb⟩

theorem Ancestor.exists_child {a c : α} (h : Ancestor parent a c) : ∃ b, parent b = some c := by
  obtain ⟨b, -, hb⟩ := TransGen.tail'_iff.mp h
  exact ⟨b, hb⟩

theorem forest_empty : Forest (fun _ : α => none) := by
  intro a h
  obtain ⟨b, hb⟩ := h.exists_parent
  simp at hb

-- A map whose links shorten climbs of a forest is a forest: links removed, and
-- nodes moved up to one of their ancestors.
theorem Forest.shorten (hf : Forest parent)
    (hsub : ∀ a b, parent' a = some b → Ancestor parent a b) : Forest parent' := by
  have hlift (a b : α) (h : Ancestor parent' a b) : Ancestor parent a b := by
    induction h with
    | single h => exact hsub _ _ h
    | tail _ hlast ih => exact ih.trans (hsub _ _ hlast)
  intro a h
  exact hf a (hlift a a h)

section Update

variable [DecidableEq α]

-- Setting the parent of `a` keeps the forest exactly when the new parent does
-- not lie below `a`.
theorem forest_update_iff (hf : Forest parent) (a p : α) :
    Forest (Function.update parent a (some p)) ↔ p ≠ a ∧ ¬Ancestor parent p a := by
  have hself : Function.update parent a (some p) a = some p := Function.update_self ..
  have hother (x : α) (hx : x ≠ a) : Function.update parent a (some p) x = parent x :=
    Function.update_of_ne hx ..
  constructor
  · intro hnew
    constructor
    · rintro rfl
      exact hnew p (Ancestor.single hself)
    · intro hbelow
      -- a climb to a uses no link of a before it gets there, so it is kept
      have hkept (y : α) (h : Ancestor parent y a) :
          Ancestor (Function.update parent a (some p)) y a := by
        induction h using TransGen.head_induction_on with
        | @single x hx =>
          by_cases hxa : x = a
          · exact absurd (Ancestor.single (hxa ▸ hx)) (hf a)
          · exact Ancestor.single ((hother x hxa).trans hx)
        | @head x z hx hrest ih =>
          by_cases hxa : x = a
          · exact absurd ((Ancestor.single hx).trans hrest) (hxa ▸ hf a)
          · exact (Ancestor.single ((hother x hxa).trans hx)).trans ih
      exact hnew a ((Ancestor.single hself).trans (hkept p hbelow))
  · rintro ⟨hne, hbelow⟩ x hx
    -- a climb in the new map is one in the old map, or passes from a to p
    have hsplit (y : α) (h : Ancestor (Function.update parent a (some p)) x y) :
        Ancestor parent x y ∨ (x = a ∨ Ancestor parent x a) ∧ (y = p ∨ Ancestor parent p y) := by
      induction h with
      | @single y h =>
        by_cases hxa : x = a
        · rw [hxa, hself] at h
          exact .inr ⟨.inl hxa, .inl (Option.some.inj h).symm⟩
        · exact .inl (Ancestor.single ((hother x hxa).symm.trans h))
      | @tail y z _ h ih =>
        by_cases hya : y = a
        · rw [hya, hself] at h
          rcases ih with hxy | ⟨hxa, -⟩
          · exact .inr ⟨.inr (hya ▸ hxy), .inl (Option.some.inj h).symm⟩
          · exact .inr ⟨hxa, .inl (Option.some.inj h).symm⟩
        · have hyz : Ancestor parent y z := Ancestor.single ((hother y hya).symm.trans h)
          rcases ih with hxy | ⟨hxa, hpy⟩
          · exact .inl (hxy.trans hyz)
          · rcases hpy with rfl | hpy
            · exact .inr ⟨hxa, .inr hyz⟩
            · exact .inr ⟨hxa, .inr (hpy.trans hyz)⟩
    rcases hsplit x hx with hxx | ⟨hxa, hpx⟩
    · exact hf x hxx
    · rcases hxa with rfl | hxa
      · exact hpx.elim (fun h => hne h.symm) hbelow
      · rcases hpx with rfl | hpx
        · exact hbelow hxa
        · exact hbelow (hpx.trans hxa)

theorem Forest.update_none (hf : Forest parent) (a : α) :
    Forest (Function.update parent a none) := by
  apply hf.shorten
  intro x y hxy
  by_cases hx : x = a
  · rw [hx, Function.update_self] at hxy
    simp at hxy
  · rw [Function.update_of_ne hx] at hxy
    exact Ancestor.single hxy

theorem Forest.attach_leaf (hf : Forest parent) (a : α) (p : Option α)
    (hleaf : ∀ x, parent x ≠ some a) (hne : p ≠ some a) :
    Forest (Function.update parent a p) := by
  cases p with
  | none => exact hf.update_none a
  | some p =>
    refine (forest_update_iff hf a p).mpr ⟨fun h => hne (congrArg some h), ?_⟩
    intro hbelow
    obtain ⟨x, hx⟩ := hbelow.exists_child
    exact hleaf x hx

end Update

-- Every child of `old` gets the parent of `old`, or none.
theorem Forest.promote [DecidableEq α] (hf : Forest parent) (old : α) (target : Option α)
    (htarget : target = none ∨ target = parent old) :
    Forest fun a => if parent a = some old then target else parent a := by
  apply hf.shorten
  intro a b hab
  by_cases ha : parent a = some old
  · rw [if_pos ha] at hab
    rcases htarget with rfl | rfl
    · simp at hab
    · exact (Ancestor.single ha).trans (Ancestor.single hab)
  · rw [if_neg ha] at hab
    exact Ancestor.single hab

-- Renaming the nodes of a parent map: the links correspond, and no two nodes
-- that have a link take one name.
theorem forest_rename {other : β → Option β} (rename : α → β → Prop)
    (hforth : ∀ a b x, parent a = some b → rename a x → ∃ y, rename b y ∧ other x = some y)
    (hback : ∀ x y a, other x = some y → rename a x → ∃ b, rename b y ∧ parent a = some b)
    (hnamed : ∀ a b, parent a = some b → ∃ x, rename a x)
    (hnamed' : ∀ x y, other x = some y → ∃ a, rename a x)
    (hfun : ∀ a x y, rename a x → rename a y → x = y)
    (hinj : ∀ a b x, rename a x → rename b x → a = b) :
    Forest parent ↔ Forest other := by
  have hup (a b : α) (x : β) (h : Ancestor parent a b) (hx : rename a x) :
      ∃ y, rename b y ∧ Ancestor other x y := by
    induction h with
    | single h =>
      obtain ⟨y, hy, hxy⟩ := hforth _ _ _ h hx
      exact ⟨y, hy, Ancestor.single hxy⟩
    | tail _ h ih =>
      obtain ⟨y, hy, hxy⟩ := ih
      obtain ⟨z, hz, hyz⟩ := hforth _ _ _ h hy
      exact ⟨z, hz, hxy.trans (Ancestor.single hyz)⟩
  have hdown (x y : β) (a : α) (h : Ancestor other x y) (ha : rename a x) :
      ∃ b, rename b y ∧ Ancestor parent a b := by
    induction h with
    | single h =>
      obtain ⟨b, hb, hab⟩ := hback _ _ _ h ha
      exact ⟨b, hb, Ancestor.single hab⟩
    | tail _ h ih =>
      obtain ⟨b, hb, hab⟩ := ih
      obtain ⟨c, hc, hbc⟩ := hback _ _ _ h hb
      exact ⟨c, hc, hab.trans (Ancestor.single hbc)⟩
  constructor
  · intro hf x hx
    obtain ⟨y, hxy⟩ := hx.exists_parent
    obtain ⟨a, ha⟩ := hnamed' x y hxy
    obtain ⟨b, hb, hab⟩ := hdown x x a hx ha
    exact hf a (hinj b a x hb ha ▸ hab)
  · intro hf a ha
    obtain ⟨b, hab⟩ := ha.exists_parent
    obtain ⟨x, hx⟩ := hnamed a b hab
    obtain ⟨y, hy, hxy⟩ := hup a a x ha hx
    exact hf x (hfun a y x hy hx ▸ hxy)

end Forest

end AiHiring.Library
