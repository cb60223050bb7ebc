import Mathlib.Tactic.Common

namespace AiHiring.Library

-- A list in which some stretches give way to others.
section Splice

variable {α : Type*}

def stretch (text : List α) (start stop : ℕ) : List α := (text.drop start).take (stop - start)

-- A stretch, and what stands in its place.
abbrev Cut (α : Type*) := (ℕ × ℕ) × List α

def splice (text : List α) : ℕ → List (Cut α) → List α
  | cursor, [] => text.drop cursor
  | cursor, (span, fill) :: rest => stretch text cursor span.1 ++ (fill ++ splice text span.2 rest)

def Ordered (length : ℕ) : ℕ → List (Cut α) → Prop
  | cursor, [] => cursor ≤ length
  | cursor, (span, _) :: rest => cursor ≤ span.1 ∧ span.1 < span.2 ∧ Ordered length span.2 rest

def places : ℕ → ℕ → List (Cut α) → List (ℕ × ℕ)
  | _, _, [] => []
  | cursor, offset, (span, fill) :: rest =>
    let start := offset + (span.1 - cursor)
    (start, start + fill.length) :: places span.2 (start + fill.length) rest

-- The same by positions: what stands at one of them.
def spliced (cuts : List (Cut α)) (text : List α) (i : ℕ) : List α :=
  match cuts.find? fun cut => cut.1.1 ≤ i ∧ i < cut.1.2 with
  | none => text[i]?.toList
  | some (span, fill) => if i = span.1 then fill else []

variable {text : List α} {cursor offset start stop : ℕ} {span : ℕ × ℕ} {fill : List α}
  {cuts rest : List (Cut α)}

theorem Ordered.le_length (h : Ordered text.length cursor cuts) : cursor ≤ text.length := by
  induction cuts generalizing cursor with
  | nil => exact h
  | cons cut rest ih =>
    obtain ⟨hcursor, hproper, hrest⟩ := h
    have := ih hrest
    omega

theorem Ordered.le_start (h : Ordered text.length cursor cuts) :
    ∀ cut ∈ cuts, cursor ≤ cut.1.1 := by
  induction cuts generalizing cursor with
  | nil =>
    intro cut hcut
    simp at hcut
  | cons first rest ih =>
    intro cut hcut
    obtain ⟨hcursor, hproper, hrest⟩ := h
    rcases List.mem_cons.mp hcut with rfl | hcut
    · exact hcursor
    · have := ih hrest cut hcut
      omega

theorem stretch_append_drop (h : start ≤ stop) :
    stretch text start stop ++ text.drop stop = text.drop start := by
  have hsplit := List.take_append_drop (stop - start) (text.drop start)
  rw [List.drop_drop] at hsplit
  have hstop : start + (stop - start) = stop := by omega
  rwa [hstop] at hsplit

theorem length_stretch (hstart : start ≤ stop) (hstop : stop ≤ text.length) :
    (stretch text start stop).length = stop - start := by
  rw [stretch, List.length_take, List.length_drop]
  omega

theorem splice_own (h : Ordered text.length cursor cuts)
    (hown : ∀ cut ∈ cuts, cut.2 = stretch text cut.1.1 cut.1.2) :
    splice text cursor cuts = text.drop cursor := by
  induction cuts generalizing cursor with
  | nil => rfl
  | cons cut rest ih =>
    rcases cut with ⟨span, fill⟩
    obtain ⟨hcursor, hproper, hrest⟩ := h
    obtain ⟨hfirst, hlater⟩ := List.forall_mem_cons.mp hown
    have hfill : fill = stretch text span.1 span.2 := hfirst
    rw [splice, ih hrest hlater, hfill,
      stretch_append_drop (Nat.le_of_lt hproper), stretch_append_drop hcursor]

-- Other fills at the places of the first ones: as if the others had been taken at once.
theorem splice_places {fills : List (List α)} (h : Ordered text.length cursor cuts)
    (before : List α) (hlength : fills.length = cuts.length) :
    splice (before ++ splice text cursor cuts) before.length
        ((places cursor before.length cuts).zip fills) =
      splice text cursor ((cuts.map Prod.fst).zip fills) := by
  induction cuts generalizing cursor before fills with
  | nil =>
    show (before ++ text.drop cursor).drop before.length = text.drop cursor
    exact List.drop_left
  | cons cut rest ih =>
    rcases cut with ⟨span, fill⟩
    obtain ⟨hcursor, hproper, hrest⟩ := h
    cases fills with
    | nil => simp at hlength
    | cons other fills =>
      obtain ⟨start, hstart⟩ : ∃ start, start = before.length + (span.1 - cursor) := ⟨_, rfl⟩
      have hle : span.1 ≤ text.length := by
        have := hrest.le_length
        omega
      have hgap := length_stretch hcursor hle
      have hupto : (before ++ stretch text cursor span.1).length = start := by
        rw [List.length_append, hgap, hstart]
      have hfilled : (before ++ stretch text cursor span.1 ++ fill).length =
          start + fill.length := by
        rw [List.length_append, hupto]
      have hout : before ++ (stretch text cursor span.1 ++ (fill ++ splice text span.2 rest)) =
          before ++ stretch text cursor span.1 ++ fill ++ splice text span.2 rest := by
        simp only [List.append_assoc]
      -- the gap before the place is the gap before the cut
      have hsame : stretch (before ++ stretch text cursor span.1 ++ fill ++
          splice text span.2 rest) before.length start = stretch text cursor span.1 := by
        rw [stretch, List.append_assoc, List.append_assoc, List.drop_left, List.take_left']
        rw [hgap, hstart]
        omega
      have hnext := ih hrest (before ++ stretch text cursor span.1 ++ fill) (Nat.succ.inj hlength)
      rw [hfilled] at hnext
      rw [splice, hout, places, ← hstart, List.zip_cons_cons, splice, List.map_cons,
        List.zip_cons_cons, splice, hsame, hnext]

theorem flatMap_range'_spliced_nil (text : List α) (cursor : ℕ) :
    (List.range' cursor (text.length - cursor)).flatMap (spliced [] text) = text.drop cursor := by
  obtain ⟨n, hn⟩ : ∃ n, n = text.length - cursor := ⟨_, rfl⟩
  induction n generalizing cursor with
  | zero =>
    rw [← hn, List.range'_zero, List.drop_eq_nil_of_le (by omega)]
    rfl
  | succ n ih =>
    have hlt : cursor < text.length := by omega
    have hrest := ih (cursor + 1) (by omega)
    have hn' : text.length - (cursor + 1) = n := by omega
    rw [hn'] at hrest
    rw [← hn, List.range'_succ, List.flatMap_cons, hrest, List.drop_eq_getElem_cons hlt]
    simp [spliced, hlt]

theorem flatMap_range'_congr {f g : ℕ → List α} {start length : ℕ}
    (h : ∀ i, start ≤ i → i < start + length → f i = g i) :
    (List.range' start length).flatMap f = (List.range' start length).flatMap g := by
  have hmem : ∀ i ∈ List.range' start length, f i = g i := by
    intro i hi
    obtain ⟨hle, hlt⟩ := List.mem_range'_1.mp hi
    exact h i hle hlt
  rw [List.flatMap_def, List.flatMap_def, List.map_congr_left hmem]

theorem splice_eq_flatMap (h : Ordered text.length cursor cuts) : splice text cursor cuts =
      (List.range' cursor (text.length - cursor)).flatMap (spliced cuts text) := by
  induction cuts generalizing cursor with
  | nil => exact (flatMap_range'_spliced_nil text cursor).symm
  | cons cut rest ih =>
    rcases cut with ⟨span, fill⟩
    obtain ⟨hcursor, hproper, hrest⟩ := h
    have hend := hrest.le_length
    have hfirst (i : ℕ) (hi : i < span.1) : spliced ((span, fill) :: rest) text i =
        spliced [] text i := by
      have hnone : (((span, fill) :: rest).find? fun cut => cut.1.1 ≤ i ∧ i < cut.1.2) =
          none := by
        rw [List.find?_eq_none]
        intro cut hcut
        have hle : span.1 ≤ cut.1.1 := by
          rcases List.mem_cons.mp hcut with rfl | hcut
          · exact Nat.le_refl _
          · have := hrest.le_start cut hcut
            omega
        simp only [decide_eq_true_eq, not_and]
        omega
      rw [spliced, hnone]
      rfl
    have hinside (i : ℕ) (hle : span.1 ≤ i) (hlt : i < span.2) :
        spliced ((span, fill) :: rest) text i = if i = span.1 then fill else [] := by
      rw [spliced, List.find?_cons_of_pos (by simp [hle, hlt])]
    have hlater (i : ℕ) (hle : span.2 ≤ i) : spliced ((span, fill) :: rest) text i =
        spliced rest text i := by
      rw [spliced, List.find?_cons_of_neg (by simp; omega)]
      rfl
    have hgap : (List.range' cursor (span.1 - cursor)).flatMap
        (spliced ((span, fill) :: rest) text) = stretch text cursor span.1 := by
      have hall := flatMap_range'_spliced_nil (text.take span.1) cursor
      have hlength : (text.take span.1).length = span.1 := by
        rw [List.length_take]
        omega
      rw [hlength] at hall
      rw [stretch, ← List.drop_take, ← hall]
      refine flatMap_range'_congr fun i hle hlt => ?_
      rw [hfirst i (by omega), spliced, spliced]
      simp only [List.find?_nil]
      rw [List.getElem?_take_of_lt (by omega)]
    have hfill : (List.range' span.1 (span.2 - span.1)).flatMap
        (spliced ((span, fill) :: rest) text) = fill := by
      obtain ⟨n, hn⟩ : ∃ n, span.2 - span.1 = n + 1 := ⟨span.2 - span.1 - 1, by omega⟩
      have hempty : (List.range' (span.1 + 1) n).flatMap
          (spliced ((span, fill) :: rest) text) = [] := by
        rw [List.flatMap_eq_nil_iff]
        intro i hi
        obtain ⟨hle, hlt⟩ := List.mem_range'_1.mp hi
        rw [hinside i (by omega) (by omega), if_neg (by omega)]
      rw [hn, List.range'_succ, List.flatMap_cons, hempty, hinside span.1 (Nat.le_refl _) hproper,
        if_pos rfl, List.append_nil]
    have htail : (List.range' span.2 (text.length - span.2)).flatMap
        (spliced ((span, fill) :: rest) text) = splice text span.2 rest := by
      rw [ih hrest]
      exact flatMap_range'_congr fun i hle _ => hlater i hle
    have hrange : List.range' cursor (text.length - cursor) =
        List.range' cursor (span.1 - cursor) ++ (List.range' span.1 (span.2 - span.1) ++
          List.range' span.2 (text.length - span.2)) := by
      have hmid : List.range' span.1 (span.2 - span.1) ++
          List.range' (span.1 + (span.2 - span.1)) (text.length - span.2) =
            List.range' span.1 (span.2 - span.1 + (text.length - span.2)) :=
        List.range'_append_1
      have hall : List.range' cursor (span.1 - cursor) ++
          List.range' (cursor + (span.1 - cursor)) (text.length - span.1) =
            List.range' cursor (span.1 - cursor + (text.length - span.1)) :=
        List.range'_append_1
      have hto : span.1 + (span.2 - span.1) = span.2 := by omega
      have hfrom : cursor + (span.1 - cursor) = span.1 := by omega
      have hsum : span.2 - span.1 + (text.length - span.2) = text.length - span.1 := by omega
      have hsum' : span.1 - cursor + (text.length - span.1) = text.length - cursor := by omega
      rw [hto] at hmid
      rw [hfrom] at hall
      rw [hmid, hsum, hall, hsum']
    rw [splice, hrange, List.flatMap_append, List.flatMap_append, hgap, hfill, htail]

end Splice

end AiHiring.Library
