import Mathlib.Data.List.Basic

namespace AiHiring.Library

-- What a database knows of a row: the key it is found by, and the keys its
-- foreign keys name. None of them has an action for a deletion.
structure Schema (ρ κ : Type*) where
  key : ρ → Option κ
  refs : ρ → List κ

namespace Schema

variable {ρ κ : Type*}

def Refers (S : Schema ρ κ) (s r : ρ) : Prop := ∃ k ∈ S.refs s, S.key r = some k

instance [DecidableEq κ] (S : Schema ρ κ) (s r : ρ) : Decidable (S.Refers s r) :=
  inferInstanceAs (Decidable (∃ k ∈ _, _))

-- A row that stays names a row that goes.
def Blocked (S : Schema ρ κ) (p : ρ → Bool) (rows : List ρ) : Prop :=
  ∃ s ∈ rows, p s = false ∧ ∃ r ∈ rows, p r = true ∧ S.Refers s r

variable [DecidableEq κ] (S : Schema ρ κ)

instance (p : ρ → Bool) (rows : List ρ) : Decidable (S.Blocked p rows) :=
  inferInstanceAs (Decidable (∃ s ∈ rows, _ ∧ ∃ r ∈ rows, _ ∧ _))

-- `DELETE … WHERE`, refused as a whole by a foreign key.
def delete (p : ρ → Bool) (rows : List ρ) : Option (List ρ) :=
  if S.Blocked p rows then none else some (rows.filter fun r => !p r)

def deleteAll : List (ρ → Bool) → List ρ → Option (List ρ)
  | [], rows => some rows
  | p :: ps, rows => (S.delete p rows).bind (deleteAll ps)

end Schema

section Turns

variable {ρ α : Type*}

-- The statement that takes a row; past the last one when none does.
def turn (ps : List (ρ → Bool)) (r : ρ) : ℕ := ps.findIdx fun p => p r

def takes (ps : List (ρ → Bool)) (r : ρ) : Bool := ps.any fun p => p r

-- `s` is gone, at the latest, with `r`.
def NoLater (ps : List (ρ → Bool)) (s r : ρ) : Prop := turn ps s ≤ turn ps r

@[simp] theorem turn_nil (r : ρ) : turn [] r = 0 := rfl

theorem turn_cons (p : ρ → Bool) (ps : List (ρ → Bool)) (r : ρ) :
    turn (p :: ps) r = bif p r then 0 else turn ps r + 1 :=
  List.findIdx_cons

@[simp] theorem takes_nil (r : ρ) : takes [] r = false := rfl

@[simp] theorem takes_cons (p : ρ → Bool) (ps : List (ρ → Bool)) (r : ρ) :
    takes (p :: ps) r = (p r || takes ps r) := rfl

@[simp] theorem takes_append (ps qs : List (ρ → Bool)) (r : ρ) :
    takes (ps ++ qs) r = (takes ps r || takes qs r) :=
  List.any_append

theorem takes_flatMap (xs : List α) (f : α → List (ρ → Bool)) (r : ρ) :
    takes (xs.flatMap f) r = xs.any fun x => takes (f x) r := by
  simp only [takes, List.any_flatMap]

theorem turn_lt_iff (ps : List (ρ → Bool)) (r : ρ) : turn ps r < ps.length ↔ takes ps r = true := by
  rw [turn, List.findIdx_lt_length, takes, List.any_eq_true]

theorem turn_le_length (ps : List (ρ → Bool)) (r : ρ) : turn ps r ≤ ps.length :=
  List.findIdx_le_length

variable {ps : List (ρ → Bool)}

theorem turn_of_not_takes {r : ρ} (h : takes ps r = false) :
    turn ps r = ps.length := by
  have hnot : ¬turn ps r < ps.length := by
    rw [turn_lt_iff, h]
    exact Bool.false_ne_true
  have hle := turn_le_length ps r
  omega

theorem noLater_cons (p : ρ → Bool) (ps : List (ρ → Bool)) (s r : ρ) :
    NoLater (p :: ps) s r ↔ p s = true ∨ p r = false ∧ NoLater ps s r := by
  rw [NoLater, NoLater, turn_cons, turn_cons]
  cases p s <;> cases p r <;> simp

@[simp] theorem noLater_nil (s r : ρ) : NoLater [] s r := Nat.le_refl _

theorem NoLater.takes {s r : ρ} (h : NoLater ps s r) (hr : takes ps r = true) : takes ps s = true :=
  (turn_lt_iff ps s).mp (Nat.lt_of_le_of_lt h ((turn_lt_iff ps r).mpr hr))

theorem noLater_of_not_takes {s r : ρ} (h : takes ps r = false) :
    NoLater ps s r := by
  rw [NoLater, turn_of_not_takes h]
  exact turn_le_length ps s

theorem noLater_append (ps qs : List (ρ → Bool)) (s r : ρ) :
    NoLater (ps ++ qs) s r ↔ NoLater ps s r ∧ (takes ps s = true ∨ NoLater qs s r) := by
  induction ps with
  | nil => simp
  | cons p ps ih =>
    rw [List.cons_append, noLater_cons, noLater_cons, ih, takes_cons, Bool.or_eq_true]
    by_cases hs : p s = true
    · simp [hs]
    · simp [hs, and_assoc]

theorem noLater_flatMap (xs : List α) (f : α → List (ρ → Bool)) (s r : ρ)
    (hround : ∀ x ∈ xs, takes (f x) s = true → NoLater (f x) s r) :
    NoLater (xs.flatMap f) s r ↔
      (xs.findIdx fun x => takes (f x) s) ≤ xs.findIdx fun x => takes (f x) r := by
  induction xs with
  | nil => simp
  | cons x xs ih =>
    rw [List.flatMap_cons, noLater_append, List.findIdx_cons, List.findIdx_cons,
      ih fun y hy => hround y (List.mem_cons_of_mem x hy)]
    cases hs : takes (f x) s with
    | true => simp [hround x List.mem_cons_self hs]
    | false =>
      cases hr : takes (f x) r with
      | true =>
        have hnot : ¬NoLater (f x) s r := fun h => by simp [h.takes hr] at hs
        simp [hnot]
      | false => simp [noLater_of_not_takes hr]

theorem noLater_loops {β : Type*} (xs : List α) (f : α → List (ρ → Bool)) (ys : List β)
    (g : β → List (ρ → Bool)) (s r : ρ)
    (hf : ∀ x ∈ xs, takes (f x) s = true → NoLater (f x) s r)
    (hg : ∀ y ∈ ys, takes (g y) s = true → NoLater (g y) s r) :
    NoLater (xs.flatMap f ++ ys.flatMap g) s r ↔
      (xs.findIdx fun x => takes (f x) s) ≤ (xs.findIdx fun x => takes (f x) r) ∧
        ((∃ x ∈ xs, takes (f x) s = true) ∨
          (ys.findIdx fun y => takes (g y) s) ≤ ys.findIdx fun y => takes (g y) r) := by
  rw [noLater_append, noLater_flatMap xs f s r hf, noLater_flatMap ys g s r hg, takes_flatMap,
    List.any_eq_true]

end Turns

namespace Schema

variable {ρ κ : Type*} [DecidableEq κ] (S : Schema ρ κ)

theorem deleteAll_eq_some (ps : List (ρ → Bool)) (rows rows' : List ρ) :
    S.deleteAll ps rows = some rows' ↔ (∀ s ∈ rows, ∀ r ∈ rows, S.Refers s r → NoLater ps s r) ∧
        rows' = rows.filter fun r => !takes ps r := by
  induction ps generalizing rows with
  | nil => simp [deleteAll, eq_comm]
  | cons p ps ih =>
    rw [deleteAll, delete]
    by_cases hblocked : S.Blocked p rows
    · rw [if_pos hblocked]
      obtain ⟨s, hs, hstays, r, hr, hgoes, hrefers⟩ := hblocked
      refine iff_of_false (by simp) ?_
      rintro ⟨horder, -⟩
      have h := (noLater_cons p ps s r).mp (horder s hs r hr hrefers)
      simp [hstays, hgoes] at h
    · rw [if_neg hblocked, Option.bind_some, ih, List.filter_filter]
      refine and_congr ?_ (by simp [Bool.and_comm])
      simp only [List.mem_filter, Bool.not_eq_true', noLater_cons]
      constructor
      · intro h s hs r hr hrefers
        by_cases hps : p s = true
        · exact .inl hps
        · have hstays : p s = false := by simpa using hps
          have hpr : p r = false := by
            by_contra hgoes
            exact hblocked ⟨s, hs, hstays, r, hr, by simpa using hgoes, hrefers⟩
          exact .inr ⟨hpr, h s ⟨hs, hstays⟩ r ⟨hr, hpr⟩ hrefers⟩
      · intro h s hs r hr hrefers
        rcases h s hs.1 r hr.1 hrefers with hps | ⟨-, hlater⟩
        · simp [hs.2] at hps
        · exact hlater

theorem deleteAll_isSome (ps : List (ρ → Bool)) (rows : List ρ) :
    (S.deleteAll ps rows).isSome ↔ ∀ s ∈ rows, ∀ r ∈ rows, S.Refers s r → NoLater ps s r := by
  rw [Option.isSome_iff_exists]
  simp only [deleteAll_eq_some]
  constructor
  · intro ⟨_, h, _⟩
    exact h
  · intro h
    exact ⟨_, h, rfl⟩

end Schema

-- What a deletion written by hand does: statements of one transaction, files
-- that it removes on its way, and calls that change neither.
inductive Call (ρ φ : Type*) where
  | delete (p : ρ → Bool)
  | remove (file : φ)
  | other

structure Store (ρ φ : Type*) where
  rows : List ρ
  files : List φ

namespace Call

variable {ρ φ : Type*}

def statement : Call ρ φ → Option (ρ → Bool)
  | delete p => some p
  | _ => none

def file : Call ρ φ → Option φ
  | remove file => some file
  | _ => none

def statements (calls : List (Call ρ φ)) : List (ρ → Bool) := calls.filterMap statement

def files (calls : List (Call ρ φ)) : List φ := calls.filterMap file

section Lists

variable (calls : List (Call ρ φ))

@[simp] theorem statements_nil : statements ([] : List (Call ρ φ)) = [] := rfl

@[simp] theorem statements_delete (p : ρ → Bool) :
    statements (delete p :: calls) = p :: statements calls := rfl

@[simp] theorem statements_remove (f : φ) : statements (remove f :: calls) = statements calls := rfl

@[simp] theorem statements_other : statements (other :: calls) = statements calls := rfl

@[simp] theorem files_nil : files ([] : List (Call ρ φ)) = [] := rfl

@[simp] theorem files_delete (p : ρ → Bool) : files (delete p :: calls) = files calls := rfl

@[simp] theorem files_remove (f : φ) : files (remove f :: calls) = f :: files calls := rfl

@[simp] theorem files_other : files (other :: calls) = files calls := rfl

end Lists

@[simp] theorem statements_append (calls calls' : List (Call ρ φ)) :
    statements (calls ++ calls') = statements calls ++ statements calls' :=
  List.filterMap_append

@[simp] theorem files_append (calls calls' : List (Call ρ φ)) :
    files (calls ++ calls') = files calls ++ files calls' :=
  List.filterMap_append

theorem statements_flatMap {α : Type*} (xs : List α) (f : α → List (Call ρ φ)) :
    statements (xs.flatMap f) = xs.flatMap fun x => statements (f x) :=
  List.filterMap_flatMap

theorem files_flatMap {α : Type*} (xs : List α) (f : α → List (Call ρ φ)) :
    files (xs.flatMap f) = xs.flatMap fun x => files (f x) :=
  List.filterMap_flatMap

end Call

section Calls

variable {ρ κ φ : Type*} [DecidableEq κ] [DecidableEq φ] (S : Schema ρ κ)

-- `fails n` makes the `n`-th call raise. What a file raises is logged and forgotten.
def carryOn : List (Call ρ φ) → (ℕ → Bool) → Store ρ φ → Option (List ρ) × List φ
  | [], _, w => (some w.rows, w.files)
  | .delete p :: calls, fails, w =>
    match if fails 0 then none else S.delete p w.rows with
    | none => (none, w.files)
    | some rows => carryOn calls (fun n => fails (n + 1)) { w with rows := rows }
  | .remove file :: calls, fails, w =>
    carryOn calls (fun n => fails (n + 1))
      (if fails 0 then w else { w with files := w.files.filter (· ≠ file) })
  | .other :: calls, fails, w =>
    if fails 0 then (none, w.files) else carryOn calls (fun n => fails (n + 1)) w

-- The transaction is rolled back when a call raises; a removed file is not put back.
def carryOut (calls : List (Call ρ φ)) (fails : ℕ → Bool) (w : Store ρ φ) : Bool × Store ρ φ :=
  match carryOn S calls fails w with
  | (some rows, files) => (true, ⟨rows, files⟩)
  | (none, files) => (false, ⟨w.rows, files⟩)

variable {S}

variable {w : Store ρ φ}

theorem carryOn_some {calls : List (Call ρ φ)} {fails : ℕ → Bool} {rows : List ρ}
    (h : (carryOn S calls fails w).1 = some rows) :
    S.deleteAll (Call.statements calls) w.rows = some rows := by
  induction calls generalizing fails w with
  | nil => exact h
  | cons call calls ih =>
    cases call with
    | delete p =>
      rw [carryOn] at h
      show S.deleteAll (p :: Call.statements calls) w.rows = some rows
      rw [Schema.deleteAll]
      by_cases hfails : fails 0 = true
      · simp [hfails] at h
      · cases hdelete : S.delete p w.rows with
        | none => simp [hfails, hdelete] at h
        | some rows' =>
          simp only [hfails, hdelete] at h
          exact ih h
    | remove file =>
      have hrest := ih h
      have hrows : (if fails 0 then w else { w with files := w.files.filter (· ≠ file) }).rows =
          w.rows := by split <;> rfl
      rw [hrows] at hrest
      exact hrest
    | other =>
      rw [carryOn] at h
      by_cases hfails : fails 0 = true
      · simp [hfails] at h
      · rw [if_neg hfails] at h
        exact ih h

-- Without a failing call the foreign keys alone decide.
theorem carryOn_undisturbed (calls : List (Call ρ φ)) (w : Store ρ φ) :
    (carryOn S calls (fun _ => false) w).1 = S.deleteAll (Call.statements calls) w.rows := by
  induction calls generalizing w with
  | nil => rfl
  | cons call calls ih =>
    cases call with
    | delete p =>
      show _ = S.deleteAll (p :: Call.statements calls) w.rows
      rw [carryOn, Schema.deleteAll, if_neg Bool.false_ne_true]
      cases S.delete p w.rows with
      | none => rfl
      | some rows => exact ih { w with rows := rows }
    | remove file => exact ih { w with files := w.files.filter (· ≠ file) }
    | other => exact ih w

theorem carryOn_files {calls : List (Call ρ φ)} (fails : ℕ → Bool)
    (h : ∀ f ∈ Call.files calls, f ∉ w.files) : (carryOn S calls fails w).2 = w.files := by
  induction calls generalizing fails w with
  | nil => rfl
  | cons call calls ih =>
    cases call with
    | delete p =>
      rw [carryOn]
      cases (if fails 0 then none else S.delete p w.rows) with
      | none => rfl
      | some rows => exact ih (w := { w with rows := rows }) _ h
    | remove file =>
      have hfile : file ∉ w.files := h file List.mem_cons_self
      have hkept : (if fails 0 then w else { w with files := w.files.filter (· ≠ file) }) = w := by
        have hall : w.files.filter (· ≠ file) = w.files := by
          rw [List.filter_eq_self]
          intro f hf
          exact decide_eq_true fun heq => hfile (heq ▸ hf)
        rw [hall]
        split <;> rfl
      rw [carryOn, hkept]
      exact ih _ fun f hf => h f (List.mem_cons_of_mem _ hf)
    | other =>
      rw [carryOn]
      split
      · rfl
      · exact ih _ h

-- The last call is the one that fails: every file is gone by then.
theorem carryOn_last {calls : List (Call ρ φ)}
    (h : (S.deleteAll (Call.statements calls) w.rows).isSome) :
    carryOn S (calls ++ [.other]) (fun n => n = calls.length) w =
      (none, w.files.filter fun f => f ∉ Call.files calls) := by
  induction calls generalizing w with
  | nil => simp [carryOn, Call.files]
  | cons call calls ih =>
    have hzero : decide (0 = (call :: calls).length) = false := by simp
    have hshift : (fun n => decide (n + 1 = (call :: calls).length)) =
        fun n => decide (n = calls.length) := by
      funext n
      simp only [List.length_cons, Nat.add_right_cancel_iff]
    cases call with
    | delete p =>
      have hall : (S.deleteAll (p :: Call.statements calls) w.rows).isSome := h
      rw [Schema.deleteAll] at hall
      rw [List.cons_append, carryOn, hzero, if_neg Bool.false_ne_true, hshift]
      cases hdelete : S.delete p w.rows with
      | none => simp [hdelete] at hall
      | some rows =>
        rw [hdelete] at hall
        exact ih (w := { w with rows := rows }) hall
    | remove file =>
      rw [List.cons_append, carryOn, hzero, if_neg Bool.false_ne_true, hshift,
        ih (w := { w with files := w.files.filter (· ≠ file) }) h]
      show (none, (w.files.filter (· ≠ file)).filter fun f => f ∉ Call.files calls) =
        (none, w.files.filter fun f => f ∉ file :: Call.files calls)
      rw [List.filter_filter]
      congr 2
      funext f
      simp [Bool.and_comm]
    | other =>
      rw [List.cons_append, carryOn, hzero, if_neg Bool.false_ne_true, hshift]
      exact ih h

theorem carryOut_restores_iff {calls : List (Call ρ φ)}
    (h : (S.deleteAll (Call.statements calls) w.rows).isSome) :
    (∀ fails, (carryOut S (calls ++ [.other]) fails w).1 = false →
        (carryOut S (calls ++ [.other]) fails w).2 = w) ↔
      ∀ f ∈ Call.files calls, f ∉ w.files := by
  constructor
  · intro hrestores f hf hmem
    have hlast : carryOut S (calls ++ [.other]) (fun n => n = calls.length) w =
        (false, ⟨w.rows, w.files.filter fun f => f ∉ Call.files calls⟩) := by
      rw [carryOut, carryOn_last h]
    have hsame := hrestores fun n => n = calls.length
    rw [hlast] at hsame
    have hfiles : (w.files.filter fun f => f ∉ Call.files calls) = w.files :=
      congrArg Store.files (hsame rfl)
    rw [List.filter_eq_self] at hfiles
    exact of_decide_eq_true (hfiles f hmem) hf
  · intro habsent fails hraises
    have hfiles : (carryOn S (calls ++ [.other]) fails w).2 = w.files := by
      refine carryOn_files fails fun f hf => habsent f ?_
      simpa [Call.files, Call.file] using hf
    cases hcarried : carryOn S (calls ++ [.other]) fails w with
    | mk left files =>
      rw [hcarried] at hfiles
      cases left with
      | none => rw [carryOut, hcarried, show files = w.files from hfiles]
      | some rows => simp [carryOut, hcarried] at hraises

theorem carryOut_rows {calls : List (Call ρ φ)} {fails : ℕ → Bool}
    (h : (carryOut S calls fails w).1 = true) :
    S.deleteAll (Call.statements calls) w.rows = some (carryOut S calls fails w).2.rows := by
  cases hcarried : carryOn S calls fails w with
  | mk left files =>
    cases left with
    | none => simp [carryOut, hcarried] at h
    | some rows =>
      have hrows : (carryOut S calls fails w).2.rows = rows := by rw [carryOut, hcarried]
      rw [hrows]
      exact carryOn_some (congrArg Prod.fst hcarried)

theorem carryOut_undisturbed (calls : List (Call ρ φ)) (w : Store ρ φ) :
    (carryOut S calls (fun _ => false) w).1 = true ↔
      (S.deleteAll (Call.statements calls) w.rows).isSome := by
  rw [← carryOn_undisturbed calls w, carryOut]
  rcases carryOn S calls (fun _ => false) w with ⟨left, files⟩
  cases left <;> simp

end Calls

end AiHiring.Library
