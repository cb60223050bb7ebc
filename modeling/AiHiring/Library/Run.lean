import Mathlib.Data.List.Chain
import Mathlib.Tactic.Common

namespace AiHiring.Library

section Run

variable {σ α : Type*}

-- A path lists each action together with the state it led to.
def Path (step : σ → α → σ → Prop) : σ → List (α × σ) → Prop
  | _, [] => True
  | s, (a, t) :: rest => step s a t ∧ Path step t rest

def visited (s : σ) (path : List (α × σ)) : List σ :=
  s :: path.map Prod.snd

def final : σ → List (α × σ) → σ
  | s, [] => s
  | _, (_, t) :: rest => final t rest

def EveryStep (q : σ → α → σ → Prop) : σ → List (α × σ) → Prop
  | _, [] => True
  | s, (a, t) :: rest => q s a t ∧ EveryStep q t rest

variable {step q r : σ → α → σ → Prop} {inv : σ → Prop}

@[simp] theorem path_nil (s : σ) : Path step s [] := trivial

@[simp] theorem path_cons (s t : σ) (a : α) (rest : List (α × σ)) :
    Path step s ((a, t) :: rest) ↔ step s a t ∧ Path step t rest := Iff.rfl

@[simp] theorem everyStep_nil (s : σ) : EveryStep q s [] := trivial

@[simp] theorem everyStep_cons (s t : σ) (a : α) (rest : List (α × σ)) :
    EveryStep q s ((a, t) :: rest) ↔ q s a t ∧ EveryStep q t rest := Iff.rfl

@[simp] theorem visited_nil (s : σ) : visited s ([] : List (α × σ)) = [s] := rfl

@[simp] theorem visited_cons (s t : σ) (a : α) (rest : List (α × σ)) :
    visited s ((a, t) :: rest) = s :: visited t rest := rfl

theorem mem_visited_self (s : σ) (path : List (α × σ)) : s ∈ visited s path :=
  List.mem_cons_self

theorem final_mem_visited (s : σ) (path : List (α × σ)) : final s path ∈ visited s path := by
  induction path generalizing s with
  | nil => exact List.mem_cons_self
  | cons entry rest ih => exact List.mem_cons_of_mem _ (ih entry.2)

theorem EveryStep.imp (h : EveryStep q s path) (hqr : ∀ s a t, q s a t → r s a t) :
    EveryStep r s path := by
  induction path generalizing s with
  | nil => trivial
  | cons entry rest ih => exact ⟨hqr _ _ _ h.1, ih h.2⟩

theorem everyStep_of_mem {good : α → Prop} {s : σ} {path : List (α × σ)}
    (h : ∀ entry ∈ path, good entry.1) : EveryStep (fun _ a _ => good a) s path := by
  induction path generalizing s with
  | nil => trivial
  | cons entry rest ih =>
    exact ⟨h entry List.mem_cons_self, ih fun a ha => h a (List.mem_cons_of_mem entry ha)⟩

theorem EveryStep.final {good : σ → Prop} (h : EveryStep (fun _ _ t => good t) s path)
    (h0 : good s) : good (final s path) := by
  induction path generalizing s with
  | nil => exact h0
  | cons entry rest ih => exact ih h.2 h.1

theorem pairwise_visited_iff {rel : σ → σ → Prop} (htrans : ∀ a b c, rel a b → rel b c → rel a c) :
    (visited s path).Pairwise rel ↔ EveryStep (fun s _ t => rel s t) s path := by
  induction path generalizing s with
  | nil => simp
  | cons entry rest ih =>
    rcases entry with ⟨a, t⟩
    rw [visited_cons, List.pairwise_cons, everyStep_cons, ih]
    constructor
    · intro h
      exact ⟨h.1 t (mem_visited_self t rest), h.2⟩
    · intro h
      obtain ⟨hst, hrest⟩ := h
      refine ⟨fun x hx => ?_, hrest⟩
      have hpair : (visited t rest).Pairwise rel := ih.mpr hrest
      cases rest with
      | nil => exact List.mem_singleton.mp hx ▸ hst
      | cons next later =>
        rcases List.mem_cons.mp hx with rfl | hx
        · exact hst
        · exact htrans s t x hst (List.rel_of_pairwise_cons hpair hx)

theorem Path.invariant (hp : Path step s path) (h0 : inv s)
    (hstep : ∀ s a t, inv s → step s a t → inv t) : ∀ t ∈ visited s path, inv t := by
  induction path generalizing s with
  | nil =>
    intro t ht
    rw [visited_nil, List.mem_singleton] at ht
    exact ht ▸ h0
  | cons entry rest ih =>
    rcases entry with ⟨a, next⟩
    intro t ht
    rcases List.mem_cons.mp ht with rfl | ht
    · exact h0
    · exact ih hp.2 (hstep s a next h0 hp.1) t ht

-- The same for a fact about single steps, which may use the invariant before the step.
theorem Path.everyStep (hp : Path step s path) (h0 : inv s)
    (hstep : ∀ s a t, inv s → step s a t → inv t)
    (hq : ∀ s a t, inv s → step s a t → q s a t) : EveryStep q s path := by
  induction path generalizing s with
  | nil => trivial
  | cons entry rest ih =>
    exact ⟨hq _ _ _ h0 hp.1, ih hp.2 (hstep _ _ _ h0 hp.1)⟩

theorem Path.everyStep_congr (hp : Path step s path) (h0 : inv s)
    (hstep : ∀ s a t, inv s → step s a t → inv t)
    (hqr : ∀ s a t, inv s → step s a t → (q s a t ↔ r s a t)) :
    EveryStep q s path ↔ EveryStep r s path := by
  induction path generalizing s with
  | nil => exact Iff.rfl
  | cons entry rest ih =>
    exact and_congr (hqr _ _ _ h0 hp.1) (ih hp.2 (hstep _ _ _ h0 hp.1))

theorem Path.visited_iff_everyStep {good : σ → Prop} (hp : Path step s path) (h0 : inv s)
    (hstep : ∀ s a t, inv s → step s a t → inv t) (hgood : good s)
    (hguard : ∀ s a t, inv s → good s → step s a t → (good t ↔ q s a t)) :
    (∀ t ∈ visited s path, good t) ↔ EveryStep q s path := by
  induction path generalizing s with
  | nil => simpa using hgood
  | cons entry rest ih =>
    rcases entry with ⟨a, next⟩
    have hn := hstep s a next h0 hp.1
    have hg := hguard s a next h0 hgood hp.1
    rw [visited_cons, List.forall_mem_cons, everyStep_cons, and_iff_right hgood]
    constructor
    · intro hall
      have hnext := hall next (mem_visited_self next rest)
      exact ⟨hg.mp hnext, (ih hp.2 hn hnext).mp hall⟩
    · rintro ⟨hq, hrest⟩
      exact (ih hp.2 hn (hg.mpr hq)).mpr hrest

-- The same when the induction needs more than the property itself: `strong` is
-- kept by the steps that meet the guard, and the property is lost by the others.
theorem Path.visited_iff_everyStep_of {good strong : σ → Prop} (hp : Path step s path)
    (h0 : strong s) (hgood : ∀ s, strong s → good s)
    (hkeep : ∀ s a t, strong s → q s a t → step s a t → strong t)
    (hguard : ∀ s a t, strong s → step s a t → good t → q s a t) :
    (∀ t ∈ visited s path, good t) ↔ EveryStep q s path := by
  constructor
  · intro hall
    induction path generalizing s with
    | nil => trivial
    | cons entry rest ih =>
      rcases entry with ⟨a, next⟩
      rw [visited_cons, List.forall_mem_cons] at hall
      have hq := hguard s a next h0 hp.1 (hall.2 next (mem_visited_self next rest))
      exact ⟨hq, ih hp.2 (hkeep s a next h0 hq hp.1) hall.2⟩
  · intro hevery
    induction path generalizing s with
    | nil => simpa using hgood s h0
    | cons entry rest ih =>
      rcases entry with ⟨a, next⟩
      rw [visited_cons, List.forall_mem_cons]
      exact ⟨hgood s h0, ih hp.2 (hkeep s a next h0 hevery.1 hp.1) hevery.2⟩

theorem Path.everyStep_iff_of {strong : σ → Prop} (hp : Path step s path) (h0 : strong s)
    (hkeep : ∀ s a t, strong s → q s a t → step s a t → strong t)
    (hiff : ∀ s a t, strong s → step s a t → (r s a t ↔ q s a t)) :
    EveryStep r s path ↔ EveryStep q s path := by
  induction path generalizing s with
  | nil => exact Iff.rfl
  | cons entry rest ih =>
    rcases entry with ⟨a, next⟩
    have hstep := hiff s a next h0 hp.1
    rw [everyStep_cons, everyStep_cons, hstep]
    exact and_congr_right fun hq => ih hp.2 (hkeep s a next h0 hq hp.1)

theorem Path.guarded (hp : Path step s path) (hguard : EveryStep q s path) :
    Path (fun s a t => q s a t ∧ step s a t) s path := by
  induction path generalizing s with
  | nil => trivial
  | cons entry rest ih => exact ⟨⟨hguard.1, hp.1⟩, ih hp.2 hguard.2⟩

-- A guarded invariant: it is kept by the steps that meet the guard, so it holds
-- along every path whose steps all meet it.
theorem Path.guarded_invariant (hp : Path step s path) (h0 : inv s) (hguard : EveryStep q s path)
    (hstep : ∀ s a t, inv s → q s a t → step s a t → inv t) : ∀ t ∈ visited s path, inv t :=
  (hp.guarded hguard).invariant h0 fun s a t hi hs => hstep s a t hi hs.1 hs.2

theorem Path.guarded_everyStep (hp : Path step s path) (h0 : inv s) (hguard : EveryStep q s path)
    (hstep : ∀ s a t, inv s → q s a t → step s a t → inv t)
    (hr : ∀ s a t, inv s → q s a t → step s a t → r s a t) : EveryStep r s path :=
  (hp.guarded hguard).everyStep h0 (fun s a t hi hs => hstep s a t hi hs.1 hs.2)
    fun s a t hi hs => hr s a t hi hs.1 hs.2

theorem path_append (s : σ) (first second : List (α × σ)) :
    Path step s (first ++ second) ↔ Path step s first ∧ Path step (final s first) second := by
  induction first generalizing s with
  | nil => simp [final]
  | cons entry rest ih =>
    rcases entry with ⟨a, next⟩
    rw [List.cons_append, path_cons, path_cons, ih, and_assoc]
    rfl

theorem everyStep_append (s : σ) (first second : List (α × σ)) :
    EveryStep q s (first ++ second) ↔ EveryStep q s first ∧ EveryStep q (final s first) second := by
  induction first generalizing s with
  | nil => simp [final]
  | cons entry rest ih =>
    rcases entry with ⟨a, next⟩
    rw [List.cons_append, everyStep_cons, everyStep_cons, ih, and_assoc]
    rfl

-- Every step satisfies `q`, which may look back at the states visited up to it.
def EveryStepSince (q : List σ → σ → α → σ → Prop) (s : σ) (path : List (α × σ)) : Prop :=
  ∀ before a t after, path = before ++ (a, t) :: after → q (visited s before) (final s before) a t

theorem Path.everyStepSince_congr {q r : List σ → σ → α → σ → Prop} (hp : Path step s path)
    (hqr : ∀ past s a t, step s a t → (q past s a t ↔ r past s a t)) :
    EveryStepSince q s path ↔ EveryStepSince r s path := by
  have hsplit (before after : List (α × σ)) (a : α) (t : σ)
      (h : path = before ++ (a, t) :: after) : step (final s before) a t := by
    rw [h, path_append] at hp
    exact hp.2.1
  constructor
  · intro hall before a t after h
    exact (hqr _ _ a t (hsplit before after a t h)).mp (hall before a t after h)
  · intro hall before a t after h
    exact (hqr _ _ a t (hsplit before after a t h)).mpr (hall before a t after h)

-- A run of a step that computes; it ends at the first action that fails.
def execute (next : σ → α → Option σ) : σ → List α → List (α × σ)
  | _, [] => []
  | s, a :: rest =>
    match next s a with
    | none => []
    | some t => (a, t) :: execute next t rest

theorem execute_path_of (next : σ → α → Option σ) {allowed : α → Prop}
    (hnext : ∀ s a t, allowed a → next s a = some t → step s a t) (s : σ) (actions : List α)
    (h : ∀ a ∈ actions, allowed a) : Path step s (execute next s actions) := by
  induction actions generalizing s with
  | nil => trivial
  | cons a rest ih =>
    rw [List.forall_mem_cons] at h
    cases hn : next s a with
    | none => simp [execute, hn]
    | some t =>
      simp only [execute, hn, path_cons]
      exact ⟨hnext s a t h.1 hn, ih t h.2⟩

theorem execute_path (next : σ → α → Option σ) (hnext : ∀ s a t, next s a = some t → step s a t)
    (s : σ) (actions : List α) : Path step s (execute next s actions) :=
  execute_path_of next (fun s a t (_ : True) => hnext s a t) s actions fun _ _ => trivial

end Run

section Trail

variable {S : Type*}

-- A trail lists the moves of one traveller, each with the place it left.
-- It is chained when every move leaves the place the one before it reached.
def Chained (trail : List (Option S × S)) : Prop :=
  trail.IsChain fun earlier later => later.1 = some earlier.2

def here (trail : List (Option S × S)) : Option S := trail.getLast?.map Prod.snd

def cameFrom (trail : List (Option S × S)) : Option S := trail.getLast?.bind Prod.fst

@[simp] theorem here_snoc (trail : List (Option S × S)) (source : Option S) (target : S) :
    here (trail ++ [(source, target)]) = some target := by
  simp [here]

theorem chained_snoc (trail : List (Option S × S)) (source : Option S) (target : S) :
    Chained (trail ++ [(source, target)]) ↔
      Chained trail ∧ ∀ place, here trail = some place → source = some place := by
  rw [Chained, List.isChain_append]
  constructor
  · rintro ⟨htrail, -, hlink⟩
    refine ⟨htrail, fun place hplace => ?_⟩
    obtain ⟨last, hlast, rfl⟩ := Option.map_eq_some_iff.mp hplace
    exact hlink last hlast _ rfl
  · rintro ⟨htrail, hlink⟩
    refine ⟨htrail, List.isChain_singleton _, fun last hlast next hnext => ?_⟩
    obtain rfl : (source, target) = next := by simpa using hnext
    exact hlink last.2 (Option.map_eq_some_iff.mpr ⟨last, hlast, rfl⟩)

end Trail

end AiHiring.Library
