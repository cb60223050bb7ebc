import Mathlib.Tactic.Common

namespace AiHiring.Library

section Session

variable {ρ ν : Type*}

-- A query that finds an object the session already holds gives back that
-- object; its loaded attributes are replaced by the fetched row only when the
-- query asks for it.
def refetch (populateExisting : Bool) (loaded fetched : ρ) : ρ :=
  if populateExisting then fetched else loaded

-- An UPDATE names only the columns whose value differs from the loaded one.
def flushColumn [DecidableEq ν] (stored loaded current : ν) : ν :=
  if current = loaded then stored else current

@[simp] theorem refetch_false (loaded fetched : ρ) : refetch false loaded fetched = loaded := rfl

variable [DecidableEq ν]

-- On a row nobody else has written, the flush stores what the session holds.
@[simp] theorem flushColumn_fresh (loaded current : ν) :
    flushColumn loaded loaded current = current := by
  by_cases h : current = loaded <;> simp [flushColumn, h]

theorem flushColumn_dirty (stored loaded current : ν) (h : current ≠ loaded) :
    flushColumn stored loaded current = current := by
  simp [flushColumn, h]

end Session

-- What a caller of a transaction sees raised: a database call that failed, or
-- an error of the code's own.
inductive Raised (ε : Type*) where
  | database
  | error (e : ε)

-- A program over a session. A call sends its writes to the open transaction
-- and reads what that transaction holds; a commit publishes them under a tag
-- that says which line of the code asked for it.
inductive Transaction (τ σ ε α : Type*) where
  | done (result : Except ε α)
  | call (write : σ → σ) (next : σ → Transaction τ σ ε α)
  | commit (tag : τ) (next : Transaction τ σ ε α)

-- Where a run stopped: the open transaction's view, every state it committed,
-- and how many calls are left before the one that raises.
structure Finished (τ σ ε α : Type*) where
  result : Except (Raised ε) α
  working : σ
  commits : List (τ × σ)
  failIn : Option ℕ

namespace Finished

variable {τ σ ε : Type*} {α β : Type}

def after (commits : List (τ × σ)) (o : Finished τ σ ε α) : Finished τ σ ε α :=
  { o with commits := commits ++ o.commits }

-- The database as the run leaves it to everybody else.
def committed (db : σ) (o : Finished τ σ ε α) : σ := (o.commits.map Prod.snd).getLastD db

@[simp] theorem after_nil (o : Finished τ σ ε α) : o.after [] = o := rfl

theorem after_append (first second : List (τ × σ)) (o : Finished τ σ ε α) :
    o.after (first ++ second) = (o.after second).after first := by
  simp [after]

theorem committed_of_all {P : σ → Prop} (db : σ) (o : Finished τ σ ε α) (hdb : P db)
    (h : ∀ c ∈ o.commits, P c.2) : P (o.committed db) := by
  rw [committed]
  cases hlast : o.commits.map Prod.snd with
  | nil => exact hdb
  | cons first rest =>
    have hmem : (first :: rest).getLastD db ∈ o.commits.map Prod.snd := by
      rw [hlast, List.getLastD_cons]
      exact List.getLastD_mem_cons
    obtain ⟨c, hc, hstate⟩ := List.mem_map.mp hmem
    rw [← hstate]
    exact h c hc

end Finished

namespace Transaction

variable {τ σ ε : Type*} {α β : Type}

protected def bind : Transaction τ σ ε α → (α → Transaction τ σ ε β) → Transaction τ σ ε β
  | done (.ok a), f => f a
  | done (.error e), _ => done (.error e)
  | call write next, f => call write fun db => (next db).bind f
  | commit tag next, f => commit tag (next.bind f)

instance : Monad (Transaction τ σ ε) where
  pure a := done (.ok a)
  bind := Transaction.bind

def raise (e : ε) : Transaction τ σ ε α := done (.error e)

def query (read : σ → α) : Transaction τ σ ε α := call id fun db => done (.ok (read db))

def flush (write : σ → σ) : Transaction τ σ ε Unit := call write fun _ => done (.ok ())

def commitAs (tag : τ) : Transaction τ σ ε Unit := commit tag (done (.ok ()))

-- `failIn = some n` makes the call after the next `n` raise; only one does.
def run : Transaction τ σ ε α → Option ℕ → σ → Finished τ σ ε α
  | done result, failIn, db => ⟨result.mapError .error, db, [], failIn⟩
  | call write next, failIn, db =>
    if failIn = some 0 then ⟨.error .database, db, [], none⟩
    else (next db).run (failIn.map Nat.pred) (write db)
  | commit tag next, failIn, db =>
    if failIn = some 0 then ⟨.error .database, db, [], none⟩
    else (next.run (failIn.map Nat.pred) db).after [(tag, db)]

section Normal

variable (db : σ)

def normal (p : Transaction τ σ ε α) (db : σ) : Finished τ σ ε α := p.run none db

@[simp] theorem normal_pure (a : α) :
    (pure a : Transaction τ σ ε α).normal db = ⟨.ok a, db, [], none⟩ := rfl

@[simp] theorem normal_raise (e : ε) :
    (raise e : Transaction τ σ ε α).normal db = ⟨.error (.error e), db, [], none⟩ := rfl

@[simp] theorem normal_query (read : σ → α) :
    (query read : Transaction τ σ ε α).normal db = ⟨.ok (read db), db, [], none⟩ := rfl

@[simp] theorem normal_flush (write : σ → σ) :
    (flush write : Transaction τ σ ε Unit).normal db = ⟨.ok (), write db, [], none⟩ := rfl

@[simp] theorem normal_commitAs (tag : τ) :
    (commitAs tag : Transaction τ σ ε Unit).normal db = ⟨.ok (), db, [(tag, db)], none⟩ := rfl

@[simp] theorem normal_query_bind (read : σ → α) (f : α → Transaction τ σ ε β) :
    (query read >>= f).normal db = (f (read db)).normal db := rfl

@[simp] theorem normal_flush_bind (write : σ → σ) (f : Unit → Transaction τ σ ε β) :
    (flush write >>= f).normal db = (f ()).normal (write db) := rfl

theorem normal_bind (p : Transaction τ σ ε α) (f : α → Transaction τ σ ε β) (a : α) (db' : σ)
    (commits : List (τ × σ)) (h : p.normal db = ⟨.ok a, db', commits, none⟩) :
    (p >>= f).normal db = ((f a).normal db').after commits := by
  induction p generalizing db commits with
  | done result =>
    cases result with
    | error e => simp [normal, run, Except.mapError] at h
    | ok value =>
      simp only [normal, run, Except.mapError, Finished.mk.injEq, Except.ok.injEq] at h
      obtain ⟨rfl, rfl, rfl, -⟩ := h
      rfl
  | call write next ih => exact ih db (write db) commits h
  | commit tag next ih =>
    obtain ⟨o, ho⟩ : ∃ o, next.normal db = o := ⟨_, rfl⟩
    have hafter : o.after [(tag, db)] = ⟨.ok a, db', commits, none⟩ := ho ▸ h
    simp only [Finished.after, Finished.mk.injEq] at hafter
    obtain ⟨hresult, hworking, hcommits, hfail⟩ := hafter
    have hnext : next.normal db = ⟨.ok a, db', o.commits, none⟩ := by
      rw [ho, ← hresult, ← hworking, ← hfail]
    have hrest := ih db o.commits hnext
    rw [← hcommits, Finished.after_append, ← hrest]
    rfl

theorem normal_bind_error (p : Transaction τ σ ε α) (f : α → Transaction τ σ ε β)
    (raised : Raised ε) (db' : σ) (commits : List (τ × σ))
    (h : p.normal db = ⟨.error raised, db', commits, none⟩) :
    (p >>= f).normal db = ⟨.error raised, db', commits, none⟩ := by
  induction p generalizing db commits with
  | done result =>
    cases result with
    | ok value => simp [normal, run, Except.mapError] at h
    | error e =>
      simp only [normal, run, Except.mapError, Finished.mk.injEq, Except.error.injEq] at h
      obtain ⟨rfl, rfl, rfl, -⟩ := h
      rfl
  | call write next ih => exact ih db (write db) commits h
  | commit tag next ih =>
    obtain ⟨o, ho⟩ : ∃ o, next.normal db = o := ⟨_, rfl⟩
    have hafter : o.after [(tag, db)] = ⟨.error raised, db', commits, none⟩ := ho ▸ h
    simp only [Finished.after, Finished.mk.injEq] at hafter
    obtain ⟨hresult, hworking, hcommits, hfail⟩ := hafter
    have hnext : next.normal db = ⟨.error raised, db', o.commits, none⟩ := by
      rw [ho, ← hresult, ← hworking, ← hfail]
    have hbind : (commit tag next >>= f).normal db = ((next >>= f).normal db).after [(tag, db)] :=
      rfl
    rw [hbind, ih db o.commits hnext, ← hcommits]
    rfl

end Normal

theorem run_query_bind (read : σ → α) (f : α → Transaction τ σ ε β) (failIn : Option ℕ) (db : σ) :
    (query read >>= f).run failIn db =
      if failIn = some 0 then ⟨.error .database, db, [], none⟩
      else (f (read db)).run (failIn.map Nat.pred) db := rfl

theorem run_flush_bind (write : σ → σ) (f : Unit → Transaction τ σ ε β) (failIn : Option ℕ)
    (db : σ) :
    (flush write >>= f).run failIn db =
      if failIn = some 0 then ⟨.error .database, db, [], none⟩
      else (f ()).run (failIn.map Nat.pred) (write db) := rfl

theorem run_commitAs (tag : τ) (failIn : Option ℕ) (db : σ) :
    (commitAs tag : Transaction τ σ ε Unit).run failIn db =
      if failIn = some 0 then ⟨.error .database, db, [], none⟩
      else ⟨.ok (), db, [(tag, db)], failIn.map Nat.pred⟩ := rfl

-- A call that fails cuts the run short after some of its commits; the rest of
-- the run, and all of it when the call is never reached, is the normal one.
theorem run_some (p : Transaction τ σ ε α) (n : ℕ) (db : σ) :
    (∃ k, p.run (some n) db = { p.normal db with failIn := some k }) ∨
      ((p.run (some n) db).result = .error .database ∧ (p.run (some n) db).failIn = none ∧
        (p.run (some n) db).commits <+: (p.normal db).commits) := by
  induction p generalizing n db with
  | done result => exact .inl ⟨n, rfl⟩
  | call write next ih =>
    cases n with
    | zero => exact .inr ⟨rfl, rfl, List.nil_prefix⟩
    | succ n => exact ih db n (write db)
  | commit tag next ih =>
    cases n with
    | zero => exact .inr ⟨rfl, rfl, List.nil_prefix⟩
    | succ n =>
      have hrun : (commit tag next).run (some (n + 1)) db =
          (next.run (some n) db).after [(tag, db)] := rfl
      have hnormal : (commit tag next).normal db = (next.normal db).after [(tag, db)] := rfl
      rw [hrun, hnormal]
      cases ih n db with
      | inl h =>
        obtain ⟨k, hk⟩ := h
        rw [hk]
        exact .inl ⟨k, rfl⟩
      | inr h =>
        obtain ⟨hresult, hfail, hinitial⟩ := h
        exact .inr ⟨hresult, hfail, (List.prefix_append_right_inj [(tag, db)]).mpr hinitial⟩

theorem run_commits_initial (p : Transaction τ σ ε α) (failIn : Option ℕ) (db : σ) :
    (p.run failIn db).commits <+: (p.normal db).commits := by
  cases failIn with
  | none => exact List.prefix_rfl
  | some n =>
    cases run_some p n db with
    | inl h =>
      obtain ⟨k, hk⟩ := h
      exact hk ▸ List.prefix_rfl
    | inr h => exact h.2.2

theorem run_eq_normal (p : Transaction τ σ ε α) (failIn : Option ℕ) (db : σ)
    (h : (p.run failIn db).result ≠ .error .database) :
    ∃ k, p.run failIn db = { p.normal db with failIn := k } := by
  cases failIn with
  | none => exact ⟨(p.normal db).failIn, rfl⟩
  | some n =>
    cases run_some p n db with
    | inl hrun =>
      obtain ⟨k, hk⟩ := hrun
      exact ⟨some k, hk⟩
    | inr hraised => exact absurd hraised.1 h

-- Every commit but the first can be the next call to fail, so each way to cut
-- the commits of the normal run short is the outcome of some failure.
theorem exists_failure (p : Transaction τ σ ε α) (db : σ) (before : List (τ × σ)) (c : τ × σ)
    (rest : List (τ × σ)) (h : (p.normal db).commits = before ++ c :: rest) :
    ∃ n, (p.run (some n) db).result = .error .database ∧
      (p.run (some n) db).failIn = none ∧ (p.run (some n) db).commits = before := by
  induction p generalizing db before with
  | done result => simp [normal, run] at h
  | call write next ih =>
    obtain ⟨n, hn⟩ := ih db (write db) before h
    exact ⟨n + 1, hn⟩
  | commit tag next ih =>
    have hcommits : (tag, db) :: (next.normal db).commits = before ++ c :: rest := h
    cases before with
    | nil => exact ⟨0, rfl, rfl, rfl⟩
    | cons first before =>
      rw [List.cons_append, List.cons.injEq] at hcommits
      obtain ⟨n, hresult, hfail, hn⟩ := ih db before hcommits.2
      refine ⟨n + 1, hresult, hfail, ?_⟩
      have hrun : (commit tag next).run (some (n + 1)) db =
          (next.run (some n) db).after [(tag, db)] := rfl
      rw [hrun, Finished.after, hn, hcommits.1]
      rfl

theorem exists_delay (p : Transaction τ σ ε α) (db : σ) (n : ℕ) :
    ∃ m, p.run (some m) db = { p.normal db with failIn := some n } := by
  induction p generalizing db with
  | done result => exact ⟨n, rfl⟩
  | call write next ih =>
    obtain ⟨m, hm⟩ := ih db (write db)
    exact ⟨m + 1, hm⟩
  | commit tag next ih =>
    obtain ⟨m, hm⟩ := ih db
    refine ⟨m + 1, ?_⟩
    have hrun : (commit tag next).run (some (m + 1)) db =
        (next.run (some m) db).after [(tag, db)] := rfl
    rw [hrun, hm]
    rfl

-- `try: body; except: rollback; handler; raise`
def tryExcept (body : Transaction τ σ ε α) (handler : Raised ε → Transaction τ σ ε Unit)
    (failIn : Option ℕ) (db : σ) : Finished τ σ ε α :=
  let o := body.run failIn db
  match o.result with
  | .ok _ => o
  | .error raised =>
    let handled := ((handler raised).run o.failIn (o.committed db)).after o.commits
    { result := .error raised, working := handled.working, commits := handled.commits,
      failIn := handled.failIn }

section Ending

variable {τ σ ε : Type*} {α β : Type}

-- How a run may end, whichever call of it fails: `post` speaks of what the
-- program returns or raises itself, of the view of its transaction and of its
-- commits, `failed` of the commits made before a call that fails.
def Ends (post : Except ε α → σ → List (τ × σ) → Prop) (failed : List (τ × σ) → Prop) :
    Transaction τ σ ε α → σ → List (τ × σ) → Prop
  | done result, db, commits => post result db commits
  | call write next, db, commits => failed commits ∧ Ends post failed (next db) (write db) commits
  | commit tag next, db, commits =>
    failed commits ∧ Ends post failed next db (commits ++ [(tag, db)])

variable {post post' : Except ε α → σ → List (τ × σ) → Prop} {failed : List (τ × σ) → Prop}
  {p : Transaction τ σ ε α} {db : σ} {commits : List (τ × σ)}

@[simp] theorem ends_pure (a : α) :
    Ends post failed (pure a : Transaction τ σ ε α) db commits ↔ post (.ok a) db commits := Iff.rfl

@[simp] theorem ends_done (result : Except ε α) :
    Ends post failed (done result : Transaction τ σ ε α) db commits ↔ post result db commits :=
  Iff.rfl

@[simp] theorem ends_raise (e : ε) :
    Ends post failed (raise e : Transaction τ σ ε α) db commits ↔ post (.error e) db commits :=
  Iff.rfl

@[simp] theorem ends_query_bind (read : σ → β) (f : β → Transaction τ σ ε α) :
    Ends post failed (query read >>= f) db commits ↔
      failed commits ∧ Ends post failed (f (read db)) db commits := Iff.rfl

@[simp] theorem ends_flush_bind (write : σ → σ) (f : Unit → Transaction τ σ ε α) :
    Ends post failed (flush write >>= f) db commits ↔
      failed commits ∧ Ends post failed (f ()) (write db) commits := Iff.rfl

@[simp] theorem ends_commitAs_bind (tag : τ) (f : Unit → Transaction τ σ ε α) :
    Ends post failed (commitAs tag >>= f) db commits ↔
      failed commits ∧ Ends post failed (f ()) db (commits ++ [(tag, db)]) := Iff.rfl

theorem Ends.imp (h : Ends post failed p db commits)
    (hpost : ∀ result db commits, post result db commits → post' result db commits) :
    Ends post' failed p db commits := by
  induction p generalizing db commits with
  | done result => exact hpost _ _ _ h
  | call write next ih => exact ⟨h.1, ih db h.2⟩
  | commit tag next ih => exact ⟨h.1, ih h.2⟩

theorem ends_bind (p : Transaction τ σ ε β) (f : β → Transaction τ σ ε α) (db : σ)
    (commits : List (τ × σ)) :
    Ends post failed (p >>= f) db commits ↔ Ends (fun result db commits =>
        match result with
        | .ok b => Ends post failed (f b) db commits
        | .error e => post (.error e) db commits) failed p db commits := by
  induction p generalizing db commits with
  | done result => cases result <;> exact Iff.rfl
  | call write next ih => exact and_congr Iff.rfl (ih db (write db) commits)
  | commit tag next ih => exact and_congr Iff.rfl (ih db (commits ++ [(tag, db)]))

theorem bind_bind {γ : Type} (p : Transaction τ σ ε γ) (f : γ → Transaction τ σ ε β)
    (g : β → Transaction τ σ ε α) : p >>= f >>= g = p >>= fun c => f c >>= g := by
  induction p with
  | done result => cases result <;> rfl
  | call write next ih => exact congrArg (call write) (funext ih)
  | commit tag next ih => exact congrArg (commit tag) ih

theorem Ends.run {initial : List (τ × σ)} (h : Ends post failed p db initial) (failIn : Option ℕ) :
    match (p.run failIn db).result with
    | .ok a => post (.ok a) (p.run failIn db).working (initial ++ (p.run failIn db).commits)
    | .error (.error e) =>
      post (.error e) (p.run failIn db).working (initial ++ (p.run failIn db).commits)
    | .error .database => failed (initial ++ (p.run failIn db).commits) := by
  induction p generalizing db failIn initial with
  | done result => cases result <;> simpa [Transaction.run, Except.mapError] using h
  | call write next ih =>
    rw [Transaction.run]
    by_cases hfail : failIn = some 0
    · simpa [hfail] using h.1
    · simpa [hfail] using ih db h.2 (failIn.map Nat.pred)
  | commit tag next ih =>
    rw [Transaction.run]
    by_cases hfail : failIn = some 0
    · simpa [hfail] using h.1
    · have hrest := ih h.2 (failIn.map Nat.pred)
      simpa [hfail, Finished.after, List.append_assoc] using hrest

theorem Ends.normal {initial : List (τ × σ)} (h : Ends post failed p db initial) :
    (∃ a, (p.normal db).result = .ok a ∧
      post (.ok a) (p.normal db).working (initial ++ (p.normal db).commits)) ∨
    ∃ e, (p.normal db).result = .error (.error e) ∧
      post (.error e) (p.normal db).working (initial ++ (p.normal db).commits) := by
  induction p generalizing db initial with
  | done result =>
    cases result with
    | ok a => exact .inl ⟨a, rfl, by simpa [Transaction.normal, Transaction.run] using h⟩
    | error e => exact .inr ⟨e, rfl, by simpa [Transaction.normal, Transaction.run] using h⟩
  | call write next ih => exact ih db h.2
  | commit tag next ih =>
    have hrun : (commit tag next).normal db = (next.normal db).after [(tag, db)] := rfl
    have hrest := ih h.2
    rw [hrun]
    simpa only [Finished.after, List.append_assoc] using hrest

theorem Ends.committed {P : σ → Prop} (start : σ)
    (h : Ends (fun _ _ commits => P ((commits.map Prod.snd).getLastD start))
      (fun commits => P ((commits.map Prod.snd).getLastD start)) p db [])
    (failIn : Option ℕ) : P ((p.run failIn db).committed start) := by
  have hrun := h.run failIn
  rw [Finished.committed]
  cases hresult : (p.run failIn db).result with
  | ok a => simpa [hresult] using hrun
  | error raised =>
    cases raised with
    | database => simpa [hresult] using hrun
    | error e => simpa [hresult] using hrun

end Ending

end Transaction

end AiHiring.Library
