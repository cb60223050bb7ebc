import AiHiring.Pii.Detection

namespace AiHiring.Pii

open Library Regex

namespace PIIDetectionService

variable (T : CharTable) (text : List Char)

variable (piiType : PIIType) (spec : PatternSpec) (findings : List PIIFinding)

-- What one match amounts to, whatever has been claimed before.
def toFinding (m : ℕ × ℕ) : Option PIIFinding :=
  let start := m.1
  let stop := if spec.isUrlLike then trimTrailingPunctuation text start m.2 else m.2
  if spec.isUrlLike ∧ stop ≤ start then none
  else if piiType = .phone ∧ !isPlausiblePhone T (slice text start stop) then none
  else if spec.requiresContext ∧ !hasNearbyContext T text start then none
  else some ⟨piiType, start, stop, slice text start stop⟩

def recognised (scan : PIIType × PatternSpec) : List PIIFinding :=
  (finditer scan.2.pattern text).filterMap (toFinding T text scan.1 scan.2)

-- The matches of the patterns without a context requirement, in the order of
-- the scan, and those of the others.
def contextless : List PIIFinding :=
  ((scans T).filter fun scan => !scan.2.requiresContext).flatMap (recognised T text)

def contextual : List PIIFinding :=
  ((scans T).filter fun scan => scan.2.requiresContext).flatMap (recognised T text)

theorem scans_eq : scans T = ((scans T).filter fun scan => !scan.2.requiresContext) ++
    (scans T).filter fun scan => scan.2.requiresContext := rfl

theorem examine_eq (m : ℕ × ℕ) : examine T text piiType spec findings m =
      ((toFinding T text piiType spec m).map (serve PIIFinding.span findings)).getD findings := by
  obtain ⟨start, stop⟩ := m
  obtain ⟨trimmed, htrimmed⟩ : ∃ trimmed, trimmed =
    if spec.isUrlLike then trimTrailingPunctuation text start stop else stop := ⟨_, rfl⟩
  have hoverlaps : overlapsClaimed start trimmed (findings.map PIIFinding.span) =
      findings.any fun y => overlaps (start, trimmed) y.span := by
    rw [overlapsClaimed, List.any_map]
    rfl
  simp only [examine, toFinding, ← htrimmed]
  by_cases hempty : spec.isUrlLike = true ∧ trimmed ≤ start
  · rw [if_pos hempty, if_pos hempty]
    rfl
  · rw [if_neg hempty, if_neg hempty, hoverlaps]
    by_cases hphone : piiType = .phone ∧ (!isPlausiblePhone T (slice text start trimmed)) = true
    · rw [if_pos hphone, if_pos hphone]
      exact ite_self _
    · rw [if_neg hphone, if_neg hphone]
      by_cases hcontext : spec.requiresContext = true ∧ (!hasNearbyContext T text start) = true
      · rw [if_pos hcontext, if_pos hcontext]
        exact ite_self _
      · rw [if_neg hcontext, if_neg hcontext]
        rfl

theorem foldl_examine (found : List (ℕ × ℕ)) (findings : List PIIFinding) :
    found.foldl (examine T text piiType spec) findings =
      (found.filterMap (toFinding T text piiType spec)).foldl (serve PIIFinding.span)
        findings := by
  induction found generalizing findings with
  | nil => rfl
  | cons m rest ih =>
    rw [List.foldl_cons, ih, examine_eq, List.filterMap_cons]
    cases toFinding T text piiType spec m with
    | none => rfl
    | some f => rfl

theorem scanSpec_eq (scan : PIIType × PatternSpec) :
    scanSpec T text findings scan =
      (recognised T text scan).foldl (serve PIIFinding.span) findings :=
  foldl_examine T text scan.1 scan.2 _ findings

theorem finditer_nil (r : Regex) : finditer r [] = [] := by
  rw [List.eq_nil_iff_forall_not_mem]
  intro m hm
  have hbounds := finditer_bounds hm
  rw [List.length_nil] at hbounds
  omega

theorem detect_perm : (detect T text).Perm
    (claim PIIFinding.span (contextless T text ++ contextual T text)) := by
  have hall : (scans T).foldl (scanSpec T text) [] =
      claim PIIFinding.span (contextless T text ++ contextual T text) := by
    rw [contextless, contextual, ← List.flatMap_append, ← scans_eq, claim, List.foldl_flatMap]
    congr 1
    funext findings scan
    exact scanSpec_eq T text findings scan
  by_cases htext : text = []
  · subst htext
    have hnone (scan : PIIType × PatternSpec) : recognised T [] scan = [] := by
      rw [recognised, finditer_nil]
      rfl
    have hfirst : contextless T [] = [] := List.flatMap_eq_nil_iff.mpr fun scan _ => hnone scan
    have hlater : contextual T [] = [] := List.flatMap_eq_nil_iff.mpr fun scan _ => hnone scan
    rw [hfirst, hlater]
    exact List.Perm.refl _
  · rw [detect, if_neg htext, ← hall]
    exact List.perm_insertionSort _ _

theorem trim_le (start stop : ℕ) : trimTrailingPunctuation text start stop ≤ stop := by
  induction stop with
  | zero => exact Nat.le_refl _
  | succ stop ih =>
    rw [trimTrailingPunctuation]
    split
    · exact Nat.le_succ_of_le ih
    · exact Nat.le_refl _

theorem toFinding_eq_some {piiType : PIIType} {spec : PatternSpec} {m : ℕ × ℕ} {f : PIIFinding}
    (h : toFinding T text piiType spec m = some f) : f.start = m.1 ∧ if spec.isUrlLike then
      f.stop = trimTrailingPunctuation text m.1 m.2 ∧ m.1 < f.stop else f.stop = m.2 := by
  obtain ⟨trimmed, htrimmed⟩ : ∃ trimmed, trimmed =
    if spec.isUrlLike then trimTrailingPunctuation text m.1 m.2 else m.2 := ⟨_, rfl⟩
  simp only [toFinding, ← htrimmed] at h
  by_cases hempty : spec.isUrlLike = true ∧ trimmed ≤ m.1
  · rw [if_pos hempty] at h
    simp at h
  · rw [if_neg hempty] at h
    by_cases hphone : piiType = .phone ∧ (!isPlausiblePhone T (slice text m.1 trimmed)) = true
    · rw [if_pos hphone] at h
      simp at h
    · rw [if_neg hphone] at h
      by_cases hcontext : spec.requiresContext = true ∧ (!hasNearbyContext T text m.1) = true
      · rw [if_pos hcontext] at h
        simp at h
      · rw [if_neg hcontext] at h
        cases h
        refine ⟨rfl, ?_⟩
        by_cases hurl : spec.isUrlLike = true
        · rw [if_pos hurl] at htrimmed ⊢
          refine ⟨htrimmed, ?_⟩
          by_contra hle
          exact hempty ⟨hurl, Nat.not_lt.mp hle⟩
        · rw [if_neg hurl] at htrimmed ⊢
          exact htrimmed

theorem toFinding_bounds {piiType : PIIType} {spec : PatternSpec} {m : ℕ × ℕ} {f : PIIFinding}
    (hm : m.1 < m.2 ∧ m.2 ≤ text.length) (h : toFinding T text piiType spec m = some f) :
    f.start < f.stop ∧ f.stop ≤ text.length := by
  obtain ⟨hstart, hstop⟩ := toFinding_eq_some T text h
  by_cases hurl : spec.isUrlLike = true
  · rw [if_pos hurl] at hstop
    have htrim := trim_le text m.1 m.2
    omega
  · rw [if_neg hurl] at hstop
    omega

theorem recognised_bounds {scan : PIIType × PatternSpec} {f : PIIFinding}
    (h : f ∈ recognised T text scan) : f.start < f.stop ∧ f.stop ≤ text.length := by
  obtain ⟨m, hm, hfinding⟩ := List.mem_filterMap.mp h
  exact toFinding_bounds T text (finditer_bounds hm) hfinding

theorem candidate_bounds {f : PIIFinding} (h : f ∈ contextless T text ++ contextual T text) :
    f.start < f.stop ∧ f.stop ≤ text.length := by
  rcases List.mem_append.mp h with h | h
  · obtain ⟨scan, -, hf⟩ := List.mem_flatMap.mp h
    exact recognised_bounds T text hf
  · obtain ⟨scan, -, hf⟩ := List.mem_flatMap.mp h
    exact recognised_bounds T text hf

end PIIDetectionService

instance startOrder_total : Std.Total fun f g : PIIFinding => f.start ≤ g.start :=
  ⟨fun _ _ => Nat.le_total _ _⟩

instance startOrder_trans : IsTrans PIIFinding fun f g => f.start ≤ g.start :=
  ⟨fun _ _ _ => Nat.le_trans⟩

namespace PIIRedactionService

variable (text : List Char)

-- The character at this place is part of the result.
def Survives (findings : List PIIFinding) (i : ℕ) : Prop :=
  ∃ start stop, .copied start stop ∈ parts text findings ∧ Inside (start, stop) i

theorem survives_partsFrom {findings : List PIIFinding} {cursor i : ℕ}
    (hsorted : findings.Pairwise fun f g => f.start ≤ g.start)
    (hapart : findings.Pairwise fun f g => overlaps f.span g.span = false)
    (hproper : ∀ f ∈ findings, f.start < f.stop ∧ cursor ≤ f.start) (hi : i < text.length) :
    (∃ start stop, .copied start stop ∈ partsFrom text cursor findings ∧ Inside (start, stop) i) ↔
      cursor ≤ i ∧ ∀ f ∈ findings, ¬Inside f.span i := by
  induction findings generalizing cursor with
  | nil =>
    constructor
    · rintro ⟨start, stop, hmem, hin⟩
      obtain ⟨rfl, rfl⟩ : start = cursor ∧ stop = text.length := by
        simpa [partsFrom] using hmem
      exact ⟨hin.1, fun f hf => absurd hf List.not_mem_nil⟩
    · rintro ⟨hcursor, -⟩
      exact ⟨cursor, text.length, List.mem_singleton.mpr rfl, hcursor, hi⟩
  | cons f rest ih =>
    obtain ⟨hfirst, hsorted⟩ := List.pairwise_cons.mp hsorted
    obtain ⟨hfree, hapart⟩ := List.pairwise_cons.mp hapart
    obtain ⟨hf, hcursor⟩ := hproper f List.mem_cons_self
    -- the rest starts where this finding stops, or later
    have hlater (g : PIIFinding) (hg : g ∈ rest) : g.start < g.stop ∧ f.stop ≤ g.start := by
      have hg' := (hproper g (List.mem_cons_of_mem f hg)).1
      have hle := hfirst g hg
      have hno := hfree g hg
      refine ⟨hg', ?_⟩
      by_contra hlt
      have hyes : overlaps f.span g.span = true := by
        rw [overlaps, Bool.and_eq_true, decide_eq_true_eq, decide_eq_true_eq]
        show f.start < g.stop ∧ g.start < f.stop
        omega
      rw [hno] at hyes
      exact Bool.false_ne_true hyes
    have hrest := ih hsorted hapart hlater
    rw [partsFrom, if_neg (Nat.not_lt.mpr hcursor)]
    constructor
    · rintro ⟨start, stop, hmem, hin⟩
      rcases List.mem_cons.mp hmem with heq | hmem
      · obtain ⟨rfl, rfl⟩ := Part.copied.inj heq
        refine ⟨hin.1, ?_⟩
        intro g hg hing
        have hstop : i < f.start := hin.2
        have hstart : g.start ≤ i := hing.1
        rcases List.mem_cons.mp hg with rfl | hg
        · omega
        · have := hfirst g hg
          omega
      · have hmem' := (List.mem_cons.mp hmem).resolve_left (by simp)
        obtain ⟨hstop, hnone⟩ := hrest.mp ⟨start, stop, hmem', hin⟩
        refine ⟨by omega, ?_⟩
        intro g hg hing
        rcases List.mem_cons.mp hg with rfl | hg
        · have : i < g.stop := hing.2
          omega
        · exact hnone g hg hing
    · rintro ⟨hle, hnone⟩
      by_cases hbefore : i < f.start
      · exact ⟨cursor, f.start, List.mem_cons_self, hle, hbefore⟩
      · have hstop : f.stop ≤ i := by
          by_contra hlt
          exact hnone f List.mem_cons_self ⟨Nat.not_lt.mp hbefore, Nat.not_le.mp hlt⟩
        obtain ⟨start, stop, hmem, hin⟩ :=
          hrest.mpr ⟨hstop, fun g hg => hnone g (List.mem_cons_of_mem f hg)⟩
        exact ⟨start, stop, List.mem_cons_of_mem _ (List.mem_cons_of_mem _ hmem), hin⟩

theorem survives_iff {findings : List PIIFinding} {i : ℕ}
    (hapart : findings.Pairwise fun f g => overlaps f.span g.span = false)
    (hproper : ∀ f ∈ findings, f.start < f.stop) (hi : i < text.length) :
    Survives text findings i ↔ ∀ f ∈ findings, ¬Inside f.span i := by
  have hperm := List.perm_insertionSort (fun f g : PIIFinding => f.start ≤ g.start) findings
  rw [Survives, parts]
  by_cases hnone : findings = []
  · rw [if_pos hnone, hnone]
    refine iff_of_true ⟨0, text.length, List.mem_singleton.mpr rfl, Nat.zero_le i, hi⟩ ?_
    intro f hf
    simp at hf
  · rw [if_neg hnone, survives_partsFrom text ?_ ?_ ?_ hi]
    · simp only [Nat.zero_le, true_and, hperm.mem_iff]
    · exact List.pairwise_insertionSort _ _
    · rw [hperm.pairwise_iff]
      · exact hapart
      · intro f g h
        rwa [overlaps_comm]
    · intro f hf
      exact ⟨hproper f (hperm.mem_iff.mp hf), Nat.zero_le _⟩

end PIIRedactionService

section Leaks

open PIIDetectionService PIIRedactionService

variable (T : CharTable) (text : List Char)

theorem survives_detect {i : ℕ} (hi : i < text.length) : Survives text (detect T text) i ↔
    ¬∃ f ∈ claim PIIFinding.span (contextless T text ++ contextual T text), Inside f.span i := by
  have hperm := detect_perm T text
  rw [survives_iff text ?_ ?_ hi]
  · simp only [hperm.mem_iff, not_exists, not_and]
  · rw [hperm.pairwise_iff]
    · exact (claim_pairwise PIIFinding.span _).imp fun h => by rwa [overlaps_comm]
    · intro f g h
      rwa [overlaps_comm]
  · intro f hf
    exact (candidate_bounds T text (mem_of_mem_claim _ (hperm.mem_iff.mp hf))).1

-- Nothing of a match is left when every match that overlaps an earlier one is
-- covered by earlier ones; the first one that sticks out leaks what no other
-- match covers.
theorem redacted_of_sheltered :
    (Sheltered PIIFinding.span (contextless T text) → ∀ f ∈ contextless T text,
      ∀ i, Inside f.span i → ¬Survives text (detect T text) i) ∧
    ∀ before f after, contextless T text = before ++ f :: after →
      Sheltered PIIFinding.span before → (∃ g ∈ before, overlaps f.span g.span = true) →
      ∀ i, Inside f.span i → (∀ g ∈ before ++ (after ++ contextual T text), ¬Inside g.span i) →
        Survives text (detect T text) i := by
  have hlength {f : PIIFinding} (hf : f ∈ contextless T text) {i : ℕ} (hi : Inside f.span i) :
      i < text.length := by
    have hbounds := (candidate_bounds T text (List.mem_append_left _ hf)).2
    have hstop : i < f.stop := hi.2
    omega
  constructor
  · intro hsheltered f hf i hi
    rw [survives_detect T text (hlength hf hi), not_not]
    obtain ⟨g, hg, hin⟩ := covered_of_sheltered hsheltered hf hi
    exact ⟨g, claim_subset_append _ _ _ hg, hin⟩
  · intro before f after heq hbefore hoverlap i hi hopen
    obtain ⟨g, hg, hgf⟩ := hoverlap
    have hf : f ∈ contextless T text := by
      rw [heq]
      exact List.mem_append_right _ List.mem_cons_self
    have hall : contextless T text ++ contextual T text =
        before ++ f :: (after ++ contextual T text) := by
      rw [heq, List.append_assoc, List.cons_append]
    rw [survives_detect T text (hlength hf hi), hall]
    refine open_of_not_sheltered ?_ hbefore hg hgf hopen
    intro z hz
    exact (candidate_bounds T text (hall ▸ hz)).1

end Leaks

section Ascii

open PIIDetectionService PIIRedactionService

def asciiTable : CharTable where
  isDecimal := Char.isDigit
  isDigit := Char.isDigit
  isWord c := c.isAlphanum || c = '_'
  lower := List.map Char.toLower

def profile : List Char := "www.linkedin.com/in/ann".toList

def queried : List Char := "https://x.io?mail=a@b.co".toList

theorem contextless_queried : contextless asciiTable queried =
    [⟨.email, 18, 24, "a@b.co".toList⟩, ⟨.portfolio, 0, 24, queried⟩] := by decide +kernel

theorem redacted_of_sheltered_examples :
    (∀ f ∈ contextless asciiTable profile, ∀ i, Inside f.span i →
      ¬Survives profile (detect asciiTable profile) i) ∧
    Survives queried (detect asciiTable queried) 0 := by
  have hprofile : contextless asciiTable profile =
      [] ++ [⟨.linkedin, 0, 23, profile⟩] ++ [⟨.portfolio, 0, 23, profile⟩] := by decide +kernel
  refine ⟨(redacted_of_sheltered asciiTable profile).1 ?_,
    (redacted_of_sheltered asciiTable queried).2 [⟨.email, 18, 24, "a@b.co".toList⟩]
      ⟨.portfolio, 0, 24, queried⟩ [] contextless_queried ?_ ⟨_, List.mem_singleton.mpr rfl, rfl⟩ 0
      ?_ ?_⟩
  · rw [hprofile]
    refine (sheltered_nil.concat (.inl ?_)).concat (.inr ?_)
    · intro y hy
      simp at hy
    · intro i hi
      exact ⟨_, List.mem_singleton.mpr rfl, hi⟩
  · refine sheltered_nil.concat (.inl ?_)
    intro y hy
    simp at hy
  · decide
  · have hcontextual : contextual asciiTable queried = [] := by decide +kernel
    rw [hcontextual]
    decide

-- The address is claimed first, so the link around it stays in the text.
theorem link_survives : ¬∀ f ∈ contextless asciiTable queried, ∀ i, Inside f.span i →
    ¬Survives queried (detect asciiTable queried) i := by
  intro h
  refine h ⟨.portfolio, 0, 24, queried⟩ (by decide +kernel) 0 (by decide) ⟨0, 18, ?_, by decide⟩
  decide +kernel

end Ascii

end AiHiring.Pii
