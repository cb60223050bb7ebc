import AiHiring.Library.Table

namespace AiHiring.Library

section Mirror

variable {ρ ε : Type*} {key : ρ → ℕ} (holds : ρ → Option ε)

-- Rows may each hold one outside resource. A register of the live ones mirrors
-- the rows when it lists exactly what they hold.
def Mirrors (rows : List ρ) (live : List ε) : Prop :=
  ∀ x, x ∈ live ↔ ∃ r ∈ rows, holds r = some x

def Exclusive (rows : List ρ) : Prop :=
  ∀ r ∈ rows, ∀ s ∈ rows, ∀ x, holds r = some x → holds s = some x → r = s

-- The register gives up what a row held for what it holds now.
def Exchanged (live live' : List ε) (old new : Option ε) : Prop :=
  ∀ x, x ∈ live' ↔ (x ∈ live ∧ old ≠ some x) ∨ new = some x

variable {live mid live' : List ε} {old new : Option ε}

theorem exchanged_same (h : ∀ x, old = some x → x ∈ live) : Exchanged live live old old := by
  intro x
  constructor
  · intro hx
    by_cases hold : old = some x
    · exact .inr hold
    · exact .inl ⟨hx, hold⟩
  · intro hx
    rcases hx with ⟨hx, -⟩ | hold
    · exact hx
    · exact h x hold

theorem exchanged_cons (x : ε) : Exchanged live (x :: live) none (some x) := by
  intro y
  rw [List.mem_cons, Option.some.injEq, or_comm, eq_comm]
  simp

theorem exchanged_filter [DecidableEq ε] (x : ε) :
    Exchanged live (live.filter (· ≠ x)) (some x) none := by
  intro y
  have hne : y ≠ x ↔ some x ≠ some y := by
    rw [Ne, Ne, Option.some.injEq, eq_comm]
  rw [List.mem_filter, decide_eq_true_iff, hne]
  simp

theorem Exchanged.trans (hfirst : Exchanged live mid old none)
    (hsecond : Exchanged mid live' none new) : Exchanged live live' old new := by
  intro x
  rw [hsecond x, hfirst x]
  simp

variable {holds}

theorem mirrors_replace (t : Table ρ key) (row before : ρ)
    (hfind : t.find? (key row) = some before) (hone : Exclusive holds t.rows)
    (hlive : Exchanged live live' (holds before) (holds row)) (h : Mirrors holds t.rows live) :
    Mirrors holds (t.replace row).rows live' := by
  obtain ⟨hbefore, hkey⟩ := (t.find?_eq_some _ _).mp hfind
  intro x
  rw [hlive x, h x]
  constructor
  · intro hheld
    rcases hheld with ⟨⟨r, hr, hx⟩, hgone⟩ | hx
    · refine ⟨r, (t.mem_replace row r).mpr (.inl ⟨hr, ?_⟩), hx⟩
      intro hsame
      have heq := t.eq_of_key_eq hr hbefore (hsame.trans hkey.symm)
      exact hgone (heq ▸ hx)
    · exact ⟨row, (t.mem_replace row row).mpr (.inr ⟨rfl, before, hbefore, hkey⟩), hx⟩
  · intro hheld
    obtain ⟨r, hr, hx⟩ := hheld
    rcases (t.mem_replace row r).mp hr with ⟨hold, hne⟩ | ⟨rfl, -⟩
    · refine .inl ⟨⟨r, hold, hx⟩, fun hheld => ?_⟩
      have heq := hone r hold before hbefore x hx hheld
      exact hne (heq ▸ hkey)
    · exact .inr hx

theorem mirrors_append (rows : List ρ) (row : ρ) (hlive : Exchanged live live' none (holds row))
    (h : Mirrors holds rows live) : Mirrors holds (rows ++ [row]) live' := by
  intro x
  rw [hlive x, h x]
  constructor
  · intro hheld
    rcases hheld with ⟨⟨r, hr, hx⟩, -⟩ | hx
    · exact ⟨r, List.mem_append_left _ hr, hx⟩
    · exact ⟨row, by simp, hx⟩
  · intro hheld
    obtain ⟨r, hr, hx⟩ := hheld
    rcases List.mem_append.mp hr with hr | hr
    · exact .inl ⟨⟨r, hr, hx⟩, by simp⟩
    · rw [List.mem_singleton.mp hr] at hx
      exact .inr hx

-- Rows that let go of what they held, with nobody told.
theorem mirrors_map_iff (f : ρ → ρ) (rows : List ρ) (hone : Exclusive holds rows)
    (hf : ∀ r, holds (f r) = holds r ∨ holds (f r) = none) (h : Mirrors holds rows live) :
    Mirrors holds (rows.map f) live ↔ ∀ r ∈ rows, holds (f r) = holds r := by
  have hback (r : ρ) (x : ε) (hx : holds (f r) = some x) : holds r = some x := by
    rcases hf r with hsame | hnone
    · exact hsame ▸ hx
    · exact absurd (hnone.symm.trans hx) (by simp)
  constructor
  · intro hmap r hr
    cases hx : holds r with
    | none => exact (hf r).elim (fun hsame => hsame.trans hx) id
    | some x =>
      obtain ⟨s', hs', hsx⟩ := (hmap x).mp ((h x).mpr ⟨r, hr, hx⟩)
      obtain ⟨s, hs, rfl⟩ := List.mem_map.mp hs'
      have heq := hone s hs r hr x (hback s x hsx) hx
      exact heq ▸ hsx
  · intro hall x
    rw [h x]
    constructor
    · intro hheld
      obtain ⟨r, hr, hx⟩ := hheld
      exact ⟨f r, List.mem_map.mpr ⟨r, hr, rfl⟩, (hall r hr).trans hx⟩
    · intro hheld
      obtain ⟨s, hs, hx⟩ := hheld
      obtain ⟨r, hr, rfl⟩ := List.mem_map.mp hs
      exact ⟨r, hr, hback r x hx⟩

theorem exclusive_replace (t : Table ρ key) (row before : ρ)
    (hfind : t.find? (key row) = some before) (hone : Exclusive holds t.rows)
    (hrow : ∀ x, holds row = some x → holds before = some x ∨ ∀ r ∈ t.rows, holds r ≠ some x) :
    Exclusive holds (t.replace row).rows := by
  obtain ⟨hbefore, hkey⟩ := (t.find?_eq_some _ _).mp hfind
  -- another row never holds what the rewritten one holds now
  have hother (r : ρ) (hr : r ∈ t.rows) (hne : key r ≠ key row) (x : ε)
      (hx : holds r = some x) (hrowx : holds row = some x) : False := by
    rcases hrow x hrowx with hheld | hfree
    · have heq := hone r hr before hbefore x hx hheld
      exact hne (heq ▸ hkey)
    · exact hfree r hr hx
  intro r hr s hs x hx hy
  rcases (t.mem_replace row r).mp hr with ⟨hrold, hrne⟩ | ⟨hrow, -⟩
  · rcases (t.mem_replace row s).mp hs with ⟨hsold, -⟩ | ⟨hsrow, -⟩
    · exact hone r hrold s hsold x hx hy
    · exact (hother r hrold hrne x hx (hsrow ▸ hy)).elim
  · rcases (t.mem_replace row s).mp hs with ⟨hsold, hsne⟩ | ⟨hsrow, -⟩
    · exact (hother s hsold hsne x hy (hrow ▸ hx)).elim
    · rw [hrow, hsrow]

theorem exclusive_append (rows : List ρ) (row : ρ) (hone : Exclusive holds rows)
    (hrow : ∀ x, holds row = some x → ∀ r ∈ rows, holds r ≠ some x) :
    Exclusive holds (rows ++ [row]) := by
  intro r hr s hs x hx hy
  rw [List.mem_append, List.mem_singleton] at hr hs
  rcases hr with hr | rfl
  · rcases hs with hs | rfl
    · exact hone r hr s hs x hx hy
    · exact absurd hx (hrow x hy r hr)
  · rcases hs with hs | rfl
    · exact absurd hy (hrow x hx s hs)
    · rfl

theorem exclusive_map (f : ρ → ρ) (rows : List ρ) (hone : Exclusive holds rows)
    (hf : ∀ r, holds (f r) = holds r) : Exclusive holds (rows.map f) := by
  intro r hr s hs x hx hy
  obtain ⟨r', hr', rfl⟩ := List.mem_map.mp hr
  obtain ⟨s', hs', rfl⟩ := List.mem_map.mp hs
  rw [hf] at hx hy
  rw [hone r' hr' s' hs' x hx hy]

end Mirror

end AiHiring.Library
