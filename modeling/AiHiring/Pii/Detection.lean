import AiHiring.Library.Claiming
import AiHiring.Pii.Patterns
import Mathlib.Data.List.Sort

namespace AiHiring.Pii

open Library Regex

structure PIIFinding where
  piiType : PIIType
  (start stop : ℕ)
  matchedText : List Char
  deriving DecidableEq, Repr

def PIIFinding.span (f : PIIFinding) : ℕ × ℕ := (f.start, f.stop)

def slice (text : List Char) (start stop : ℕ) : List Char := (text.drop start).take (stop - start)

namespace PIIDetectionService

def trimTrailingPunctuation (text : List Char) (start : ℕ) : ℕ → ℕ
  | 0 => 0
  | stop + 1 =>
    if start < stop + 1 ∧ text[stop]?.any (· ∈ trailingStripChars) then
      trimTrailingPunctuation text start stop
    else stop + 1

def overlapsClaimed (start stop : ℕ) (claimed : List (ℕ × ℕ)) : Bool :=
  claimed.any fun c => start < c.2 && stop > c.1

variable (T : CharTable)

def isPlausiblePhone (matchedText : List Char) : Bool :=
  let digitCount := matchedText.countP T.isDigit
  minPhoneDigits ≤ digitCount && digitCount ≤ maxPhoneDigits

def hasNearbyContext (text : List Char) (matchStart : ℕ) : Bool :=
  let windowStart := matchStart - portfolioContextWindow
  let window := T.lower (slice text windowStart matchStart)
  portfolioContextKeywords.any fun keyword => keyword.toList <:+: window

-- One match of one pattern; the claimed spans are those of the findings.
def examine (text : List Char) (piiType : PIIType) (spec : PatternSpec)
    (findings : List PIIFinding) (m : ℕ × ℕ) : List PIIFinding :=
  let start := m.1
  let stop := if spec.isUrlLike then trimTrailingPunctuation text start m.2 else m.2
  if spec.isUrlLike ∧ stop ≤ start then findings
  else if overlapsClaimed start stop (findings.map PIIFinding.span) then findings
  else if piiType = .phone ∧ !isPlausiblePhone T (slice text start stop) then findings
  else if spec.requiresContext ∧ !hasNearbyContext T text start then findings
  else findings ++ [⟨piiType, start, stop, slice text start stop⟩]

def scanSpec (text : List Char) (findings : List PIIFinding) (scan : PIIType × PatternSpec) :
    List PIIFinding :=
  (finditer scan.2.pattern text).foldl (examine T text scan.1 scan.2) findings

-- The two outer loops, as one list of what they go through.
def scans : List (PIIType × PatternSpec) :=
  detectionOrder.flatMap fun piiType => (patternRegistry T piiType).map fun spec => (piiType, spec)

def detect (text : List Char) : List PIIFinding :=
  if text = [] then []
  else ((scans T).foldl (scanSpec T text) []).insertionSort fun f g => f.start ≤ g.start

end PIIDetectionService

namespace PIIRedactionService

-- A part of the result: a stretch of the text, or a placeholder.
inductive Part where
  | copied (start stop : ℕ)
  | placeholder (piiType : PIIType)
  deriving DecidableEq, Repr

def Part.render (text : List Char) : Part → List Char
  | copied start stop => slice text start stop
  | placeholder piiType => ("[" ++ piiType.value ++ "]").toList

def partsFrom (text : List Char) : ℕ → List PIIFinding → List Part
  | cursor, [] => [.copied cursor text.length]
  | cursor, f :: rest =>
    if f.start < cursor then partsFrom text cursor rest
    else .copied cursor f.start :: .placeholder f.piiType :: partsFrom text f.stop rest

def parts (text : List Char) (findings : List PIIFinding) : List Part :=
  if findings = [] then [.copied 0 text.length]
  else partsFrom text 0 (findings.insertionSort fun f g => f.start ≤ g.start)

def redact (text : List Char) (findings : List PIIFinding) : List Char :=
  (parts text findings).flatMap (Part.render text)

end PIIRedactionService

end AiHiring.Pii
