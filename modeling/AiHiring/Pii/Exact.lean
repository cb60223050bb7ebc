import AiHiring.Library.Splice
import AiHiring.Pii.Covered

namespace AiHiring.Pii

open Library

namespace PIIDetectionService

section Registries

-- `finditer` of the pattern engine, for any registry in any order.
variable (T : CharTable) (finditer : Regex → List Char → List (ℕ × ℕ))
  (registry : PIIType → List PatternSpec) (order : List PIIType) (text : List Char)

def scansIn : List (PIIType × PatternSpec) :=
  order.flatMap fun piiType => (registry piiType).map fun spec => (piiType, spec)

def scanSpecIn (findings : List PIIFinding) (scan : PIIType × PatternSpec) : List PIIFinding :=
  (finditer scan.2.pattern text).foldl (examine T text scan.1 scan.2) findings

def detectIn : List PIIFinding :=
  if text = [] then []
  else ((scansIn registry order).foldl (scanSpecIn T finditer text) []).insertionSort
    fun f g => f.start ≤ g.start

theorem detect_eq_detectIn :
    detect T text = detectIn T Regex.finditer (patternRegistry T) detectionOrder text := rfl

-- No pattern matches the empty string, and a match lies in the text.
def NeverEmpty : Prop :=
  ∀ piiType ∈ order, ∀ spec ∈ registry piiType, ∀ m ∈ finditer spec.pattern text,
    m.1 < m.2 ∧ m.2 ≤ text.length

def candidatesIn : List PIIFinding :=
  (scansIn registry order).flatMap fun scan =>
    (finditer scan.2.pattern text).filterMap (toFinding T text scan.1 scan.2)

variable {T finditer registry order text}

theorem foldl_scanSpecIn (findings : List PIIFinding) (scans : List (PIIType × PatternSpec)) :
    scans.foldl (scanSpecIn T finditer text) findings =
      (scans.flatMap fun scan => (finditer scan.2.pattern text).filterMap
        (toFinding T text scan.1 scan.2)).foldl (serve PIIFinding.span) findings := by
  rw [List.foldl_flatMap]
  congr 1
  funext found scan
  exact foldl_examine T text scan.1 scan.2 _ found

theorem toFinding_matchedText {piiType : PIIType} {spec : PatternSpec} {m : ℕ × ℕ}
    {f : PIIFinding} (h : toFinding T text piiType spec m = some f) :
    f.matchedText = slice text f.start f.stop := by
  obtain ⟨trimmed, htrimmed⟩ : ∃ trimmed, trimmed =
    if spec.isUrlLike then trimTrailingPunctuation text m.1 m.2 else m.2 := ⟨_, rfl⟩
  simp only [toFinding, ← htrimmed] at h
  split at h
  · simp at h
  · split at h
    · simp at h
    · split at h
      · simp at h
      · exact Option.some.inj h ▸ rfl

theorem candidate_spec (hempty : NeverEmpty finditer registry order text) {f : PIIFinding}
    (h : f ∈ candidatesIn T finditer registry order text) :
    (f.start < f.stop ∧ f.stop ≤ text.length) ∧ f.matchedText = slice text f.start f.stop := by
  obtain ⟨scan, hscan, hf⟩ := List.mem_flatMap.mp h
  obtain ⟨m, hm, hfinding⟩ := List.mem_filterMap.mp hf
  obtain ⟨piiType, htype, hspec⟩ := List.mem_flatMap.mp hscan
  obtain ⟨spec, hmem, rfl⟩ := List.mem_map.mp hspec
  exact ⟨toFinding_bounds T text (hempty piiType htype spec hmem m hm) hfinding,
    toFinding_matchedText hfinding⟩

theorem detectIn_perm (htext : text ≠ []) : (detectIn T finditer registry order text).Perm
    (claim PIIFinding.span (candidatesIn T finditer registry order text)) := by
  rw [detectIn, if_neg htext, foldl_scanSpecIn]
  exact List.perm_insertionSort _ _

theorem detectIn_spec (hempty : NeverEmpty finditer registry order text) {f : PIIFinding}
    (h : f ∈ detectIn T finditer registry order text) :
    (f.start < f.stop ∧ f.stop ≤ text.length) ∧ f.matchedText = slice text f.start f.stop := by
  by_cases htext : text = []
  · rw [detectIn, if_pos htext] at h
    simp at h
  · exact candidate_spec hempty (mem_of_mem_claim _ ((detectIn_perm htext).mem_iff.mp h))

theorem detectIn_pairwise (hempty : NeverEmpty finditer registry order text) :
    (detectIn T finditer registry order text).Pairwise fun f g => f.stop ≤ g.start := by
  by_cases htext : text = []
  · rw [detectIn, if_pos htext]
    exact List.Pairwise.nil
  · have hsorted : (detectIn T finditer registry order text).Pairwise
        fun f g => f.start ≤ g.start := by
      rw [detectIn, if_neg htext]
      exact List.pairwise_insertionSort _ _
    have hapart : (detectIn T finditer registry order text).Pairwise
        fun f g => overlaps f.span g.span = false := by
      rw [(detectIn_perm htext).pairwise_iff]
      · exact (claim_pairwise PIIFinding.span _).imp fun h => by rwa [overlaps_comm]
      · intro f g h
        rwa [overlaps_comm]
    have hspec : ∀ f ∈ detectIn T finditer registry order text, f.start < f.stop :=
      fun f hf => (detectIn_spec hempty hf).1.1
    refine (hsorted.and hapart).imp_of_mem ?_
    rintro f g hf hg ⟨hle, hfree⟩
    by_contra hlt
    have hyes : overlaps f.span g.span = true := by
      rw [overlaps, Bool.and_eq_true, decide_eq_true_eq, decide_eq_true_eq]
      show f.start < g.stop ∧ g.start < f.stop
      have := hspec g hg
      omega
    rw [hfree] at hyes
    exact Bool.false_ne_true hyes

end Registries

end PIIDetectionService

namespace PIIRedactionService

-- The findings that the loop of `redact` passes over.
def skipped : ℕ → List PIIFinding → List PIIFinding
  | _, [] => []
  | cursor, f :: rest =>
    if f.start < cursor then f :: skipped cursor rest else skipped f.stop rest

def placeholder (piiType : PIIType) : List Char := ("[" ++ piiType.value ++ "]").toList

-- Every span gives way to its placeholder.
def redactions (findings : List PIIFinding) : List (Cut Char) :=
  findings.map fun f => (f.span, placeholder f.piiType)

def replaced (text : List Char) (findings : List PIIFinding) : List Char :=
  (List.range text.length).flatMap (spliced (redactions findings) text)

-- The matched texts put where `redact` has put the placeholders.
def restored (findings : List PIIFinding) (redacted : List Char) : List Char :=
  splice redacted 0 ((places 0 0 (redactions findings)).zip (findings.map PIIFinding.matchedText))

variable {text : List Char} {findings : List PIIFinding} {cursor : ℕ}

theorem ordered_cuts (fill : PIIFinding → List Char)
    (hproper : ∀ f ∈ findings, f.start < f.stop ∧ f.stop ≤ text.length)
    (hapart : findings.Pairwise fun f g => f.stop ≤ g.start)
    (hcursor : ∀ f ∈ findings, cursor ≤ f.start) (hlength : cursor ≤ text.length) :
    Ordered text.length cursor (findings.map fun f => (f.span, fill f)) := by
  induction findings generalizing cursor with
  | nil => exact hlength
  | cons f rest ih =>
    obtain ⟨hfirst, hapart⟩ := List.pairwise_cons.mp hapart
    obtain ⟨hf, hrest⟩ := List.forall_mem_cons.mp hproper
    exact ⟨hcursor f List.mem_cons_self, hf.1, ih hrest hapart hfirst hf.2⟩

theorem skipped_eq_nil (hproper : ∀ f ∈ findings, f.start < f.stop)
    (hapart : findings.Pairwise fun f g => f.stop ≤ g.start)
    (hcursor : ∀ f ∈ findings, cursor ≤ f.start) : skipped cursor findings = [] := by
  induction findings generalizing cursor with
  | nil => rfl
  | cons f rest ih =>
    obtain ⟨hfirst, hapart⟩ := List.pairwise_cons.mp hapart
    obtain ⟨hf, hrest⟩ := List.forall_mem_cons.mp hproper
    have hle := hcursor f List.mem_cons_self
    rw [skipped, if_neg (by omega)]
    exact ih hrest hapart hfirst

theorem flatMap_partsFrom (hskipped : skipped cursor findings = []) :
    (partsFrom text cursor findings).flatMap (Part.render text) =
      splice text cursor (redactions findings) := by
  induction findings generalizing cursor with
  | nil =>
    show slice text cursor text.length ++ [] = text.drop cursor
    rw [List.append_nil, slice, List.take_of_length_le]
    rw [List.length_drop]
  | cons f rest ih =>
    rw [skipped] at hskipped
    split at hskipped
    · exact absurd hskipped (List.cons_ne_nil _ _)
    · rename_i hle
      rw [partsFrom, if_neg hle, List.flatMap_cons, List.flatMap_cons, ih hskipped]
      rfl

theorem redact_eq_splice (hsorted : findings.Pairwise fun f g => f.start ≤ g.start)
    (hskipped : skipped 0 findings = []) :
    redact text findings = splice text 0 (redactions findings) := by
  rw [redact, parts]
  by_cases hnone : findings = []
  · rw [if_pos hnone, hnone]
    have hempty : skipped 0 [] = [] := rfl
    exact flatMap_partsFrom hempty
  · rw [if_neg hnone, hsorted.insertionSort_eq]
    exact flatMap_partsFrom hskipped

theorem restored_splice (hproper : ∀ f ∈ findings, f.start < f.stop ∧ f.stop ≤ text.length)
    (hapart : findings.Pairwise fun f g => f.stop ≤ g.start)
    (htext : ∀ f ∈ findings, f.matchedText = slice text f.start f.stop) :
    restored findings (splice text 0 (redactions findings)) = text := by
  have hcursor : ∀ f ∈ findings, 0 ≤ f.start := fun f _ => Nat.zero_le f.start
  have hordered (fill : PIIFinding → List Char) :=
    ordered_cuts fill hproper hapart hcursor (Nat.zero_le text.length)
  have hlength : (findings.map PIIFinding.matchedText).length = (redactions findings).length := by
    rw [redactions, List.length_map, List.length_map]
  have hzip : ((redactions findings).map Prod.fst).zip (findings.map PIIFinding.matchedText) =
      findings.map fun f => (f.span, f.matchedText) := by
    rw [redactions, List.map_map, List.zip_map']
    rfl
  have hown : splice text 0 (findings.map fun f => (f.span, f.matchedText)) = text.drop 0 := by
    refine splice_own (hordered PIIFinding.matchedText) fun cut hcut => ?_
    obtain ⟨f, hf, rfl⟩ := List.mem_map.mp hcut
    exact htext f hf
  have hredactions : Ordered text.length 0 (redactions findings) :=
    hordered fun f => placeholder f.piiType
  have hback := splice_places hredactions [] hlength
  rw [hzip, hown] at hback
  exact hback

end PIIRedactionService

section Exact

open PIIDetectionService PIIRedactionService

-- The redaction is exact, and the findings undo it.
theorem redaction_exact (T : CharTable) (finditer : Regex → List Char → List (ℕ × ℕ))
    (registry : PIIType → List PatternSpec) (order : List PIIType) (text : List Char)
    (hempty : NeverEmpty finditer registry order text) :
    let findings := detectIn T finditer registry order text
    (findings.Pairwise fun f g => f.start < g.start ∧ f.stop ≤ g.start) ∧
      (∀ f ∈ findings, (f.start < f.stop ∧ f.stop ≤ text.length) ∧
        f.matchedText = slice text f.start f.stop) ∧
      redact text findings = replaced text findings ∧
      restored findings (redact text findings) = text ∧
      skipped 0 (findings.insertionSort fun f g => f.start ≤ g.start) = [] := by
  intro findings
  have hspec : ∀ f ∈ findings, (f.start < f.stop ∧ f.stop ≤ text.length) ∧
      f.matchedText = slice text f.start f.stop := fun f hf => detectIn_spec hempty hf
  have hproper : ∀ f ∈ findings, f.start < f.stop ∧ f.stop ≤ text.length :=
    fun f hf => (hspec f hf).1
  have hapart : findings.Pairwise fun f g => f.stop ≤ g.start := detectIn_pairwise hempty
  have hsorted : findings.Pairwise fun f g => f.start < g.start ∧ f.stop ≤ g.start := by
    refine hapart.imp_of_mem fun {f g} hf _ hle => ⟨?_, hle⟩
    have := (hproper f hf).1
    omega
  have hstarts : findings.Pairwise fun f g => f.start ≤ g.start :=
    hsorted.imp fun h => Nat.le_of_lt h.1
  have hcursor : ∀ f ∈ findings, 0 ≤ f.start := fun f _ => Nat.zero_le f.start
  have hskipped : skipped 0 findings = [] :=
    skipped_eq_nil (fun f hf => (hproper f hf).1) hapart hcursor
  have hredact : redact text findings = splice text 0 (redactions findings) :=
    redact_eq_splice hstarts hskipped
  refine ⟨hsorted, hspec, ?_, ?_, ?_⟩
  · have hordered : Ordered text.length 0 (redactions findings) :=
      ordered_cuts _ hproper hapart hcursor (Nat.zero_le text.length)
    rw [hredact, splice_eq_flatMap hordered, Nat.sub_zero, ← List.range_eq_range']
    rfl
  · rw [hredact]
    exact restored_splice hproper hapart fun f hf => (hspec f hf).2
  · rw [hstarts.insertionSort_eq]
    exact hskipped

theorem neverEmpty_finditer (registry : PIIType → List PatternSpec) (order : List PIIType)
    (text : List Char) : NeverEmpty Regex.finditer registry order text :=
  fun _ _ _ _ _ hm => Regex.finditer_bounds hm

def mailed : List Char := "mail a@b.co or a@b.co".toList

theorem redaction_exact_mailed : detect asciiTable mailed =
        [⟨.email, 5, 11, "a@b.co".toList⟩, ⟨.email, 15, 21, "a@b.co".toList⟩] ∧
      redact mailed (detect asciiTable mailed) = "mail [EMAIL] or [EMAIL]".toList ∧
      restored (detect asciiTable mailed) (redact mailed (detect asciiTable mailed)) = mailed := by
  have hexact := redaction_exact asciiTable Regex.finditer (patternRegistry asciiTable)
    detectionOrder mailed (neverEmpty_finditer _ _ _)
  refine ⟨by decide +kernel, by decide +kernel, ?_⟩
  rw [detect_eq_detectIn]
  exact hexact.2.2.2.1

end Exact

end AiHiring.Pii
