import Mathlib.Tactic.Common

namespace AiHiring.Library

section Fallible

universe u

variable {ε α : Type*} {σ τ : Type u}

theorem bind_eq_ok (x : Except ε σ) (f : σ → Except ε τ) (b : τ) :
    (x >>= f) = .ok b ↔ ∃ a, x = .ok a ∧ f a = .ok b := by
  cases x <;> simp [bind, Except.bind]

theorem map_eq_ok {β : Type*} (x : Except ε α) (f : α → β) (b : β) :
    x.map f = .ok b ↔ ∃ a, x = .ok a ∧ f a = b := by
  cases x <;> simp [Except.map]

-- A check that raises before the rest runs.
theorem raise_eq_ok (c : Prop) [Decidable c] (e : ε) (x : Except ε α) (a : α) :
    (if c then .error e else x) = .ok a ↔ ¬c ∧ x = .ok a := by
  by_cases hc : c <;> simp [hc]

theorem foldlM_nil_eq_ok (f : σ → α → Except ε σ) (s t : σ) :
    ([] : List α).foldlM f s = .ok t ↔ s = t := by
  simp [pure, Except.pure]

theorem foldlM_cons_eq_ok (f : σ → α → Except ε σ) (x : α) (xs : List α) (s t : σ) :
    (x :: xs).foldlM f s = .ok t ↔ ∃ mid, f s x = .ok mid ∧ xs.foldlM f mid = .ok t := by
  rw [List.foldlM_cons, bind_eq_ok]

theorem foldlM_total (f : σ → α → Except ε σ) (xs : List α) (s : σ)
    (hf : ∀ s x, ∃ t, f s x = .ok t) : ∃ t, xs.foldlM f s = .ok t := by
  induction xs generalizing s with
  | nil => exact ⟨s, (foldlM_nil_eq_ok f s s).mpr rfl⟩
  | cons x rest ih =>
    obtain ⟨mid, hmid⟩ := hf s x
    obtain ⟨t, ht⟩ := ih mid
    exact ⟨t, (foldlM_cons_eq_ok f x rest s t).mpr ⟨mid, hmid, ht⟩⟩

end Fallible

-- A computation that sends messages as it goes and may raise. What has been sent
-- stays sent.
structure Sending (μ ε α : Type*) where
  sent : List μ
  result : Except ε α

namespace Sending

variable {μ ε : Type*} {α β : Type}

protected def bind (p : Sending μ ε α) (f : α → Sending μ ε β) : Sending μ ε β :=
  match p.result with
  | .ok a => ⟨p.sent ++ (f a).sent, (f a).result⟩
  | .error e => ⟨p.sent, .error e⟩

instance instMonad : Monad (Sending μ ε) where
  pure a := ⟨[], .ok a⟩
  bind := Sending.bind

def raise (e : ε) : Sending μ ε α := ⟨[], .error e⟩

def send (m : μ) : Sending μ ε Unit := ⟨[m], .ok ()⟩

-- A loop; the first element that raises ends it.
def forEach (xs : List β) (f : β → Sending μ ε Unit) : Sending μ ε Unit :=
  match xs with
  | [] => pure ()
  | x :: rest => f x >>= fun _ => forEach rest f

theorem bind_of_ok {p : Sending μ ε α} {sent : List μ} {a : α} (h : p = ⟨sent, .ok a⟩)
    (f : α → Sending μ ε β) : p >>= f = ⟨sent ++ (f a).sent, (f a).result⟩ := by
  subst h
  rfl

theorem bind_of_error {p : Sending μ ε α} {sent : List μ} {e : ε} (h : p = ⟨sent, .error e⟩)
    (f : α → Sending μ ε β) : p >>= f = ⟨sent, .error e⟩ := by
  subst h
  rfl

theorem forEach_of_ok {xs : List β} {f : β → Sending μ ε Unit} {messages : β → List μ}
    (h : ∀ x ∈ xs, f x = ⟨messages x, .ok ()⟩) :
    forEach xs f = ⟨xs.flatMap messages, .ok ()⟩ := by
  induction xs with
  | nil => rfl
  | cons x rest ih =>
    rw [List.forall_mem_cons] at h
    rw [forEach, bind_of_ok h.1, ih h.2, List.flatMap_cons]

theorem forEach_of_error {before after : List β} {x : β} {f : β → Sending μ ε Unit}
    {messages : β → List μ} {e : ε} (h : ∀ y ∈ before, f y = ⟨messages y, .ok ()⟩)
    (hx : f x = ⟨[], .error e⟩) :
    forEach (before ++ x :: after) f = ⟨before.flatMap messages, .error e⟩ := by
  induction before with
  | nil =>
    rw [List.nil_append, forEach, bind_of_error hx]
    rfl
  | cons y rest ih =>
    rw [List.forall_mem_cons] at h
    rw [List.cons_append, forEach, bind_of_ok h.1, ih h.2, List.flatMap_cons]

end Sending

end AiHiring.Library
