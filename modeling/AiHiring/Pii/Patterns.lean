import AiHiring.Library.Regex
import AiHiring.Library.Text

namespace AiHiring.Pii

open Library Regex

-- What the Unicode database says of a character: `\d`, `str.isdigit` and `\w`;
-- and `str.lower`.
structure CharTable where
  isDecimal : Char → Bool
  isDigit : Char → Bool
  isWord : Char → Bool
  lower : List Char → List Char

inductive PIIType where
  | email
  | phone
  | linkedin
  | github
  | portfolio
  deriving DecidableEq, Repr

def PIIType.value : PIIType → String
  | email => "EMAIL"
  | phone => "PHONE"
  | linkedin => "LINKEDIN"
  | github => "GITHUB"
  | portfolio => "PORTFOLIO"

structure PatternSpec where
  pattern : Regex
  (isUrlLike requiresContext : Bool)

def isLetter (c : Char) : Bool := c.isAlpha

def isAlnum (c : Char) : Bool := c.isAlphanum

-- The letters outside ASCII that `re.IGNORECASE` takes for one inside.
def foldedTo (c : Char) : Option Char :=
  if c.toNat = 0x130 ∨ c.toNat = 0x131 then some 'i'
  else if c.toNat = 0x17F then some 's'
  else if c.toNat = 0x212A then some 'k'
  else none

def isLetterI (c : Char) : Bool := isLetter c || (foldedTo c).isSome

def isAlnumI (c : Char) : Bool := isAlnum c || (foldedTo c).isSome

def one (x : Char) : Regex := char (· = x)

def oneOf (xs : String) : Regex := char (· ∈ xs.toList)

-- A lower-case letter of a pattern under `re.IGNORECASE`.
def oneI (x : Char) : Regex := char fun c => c.toLower = x || foldedTo c = some x

def literalI (s : String) : Regex := seqs (s.toList.map oneI)

def notSpaces : Regex := plus (char fun c => !isSpace c)

def separator : Regex := char fun c => isSpace c || c = '.' || c = '-'

section Registry

variable (T : CharTable)

def digits (least most : ℕ) : Regex := many (char T.isDecimal) least (some most)

def emailPatterns : List PatternSpec :=
  [⟨seqs [char isAlnum, star (char fun c => isAlnum c || c ∈ ['.', '_', '%', '+', '-']),
      one '@',
      char isAlnum,
      opt (seqs [star (char fun c => isAlnum c || c ∈ ['.', '-']), char isAlnum]),
      one '.',
      many (char isLetter) 2 none], false, false⟩]

def phonePatterns : List PatternSpec :=
  [⟨seqs [notBehind T.isDecimal, one '+',
      digits T 1 3,
      opt separator,
      opt (one '('),
      digits T 2 4,
      opt (one ')'),
      many (seqs [opt separator, digits T 2 4]) 2 (some 4),
      opt (seqs [opt (char isSpace), alt (seqs [literalI "ext", opt (one '.')]) (oneI 'x'),
        opt (char isSpace),
        digits T 1 6]),
      notAhead T.isDecimal], false, false⟩,
    ⟨seqs [notBehind T.isDecimal, one '(',
      digits T 2 4,
      one ')',
      opt separator,
      digits T 3 4,
      opt separator,
      digits T 3 4,
      notAhead T.isDecimal], false, false⟩,
    ⟨seqs [notBehind T.isDecimal, digits T 3 4,
      separator,
      digits T 3 4,
      separator,
      digits T 3 4,
      opt (seqs [separator, digits T 1 4]),
      notAhead T.isDecimal], false, false⟩,
    ⟨seqs [notBehind T.isDecimal, digits T 9 13, notAhead T.isDecimal], false, false⟩]

def scheme : Regex := seqs [literalI "http", opt (oneI 's'), literalI "://"]

-- `linkedin.com/…` and `github.com/…` differ in the host only.
def profilePatterns (host : String) : List PatternSpec :=
  [⟨seqs [opt scheme, opt (literalI "www."), literalI host, notSpaces], true, false⟩]

def linkedinPatterns : List PatternSpec := profilePatterns "linkedin.com/"

def githubPatterns : List PatternSpec := profilePatterns "github.com/"

def portfolioContextKeywords : List String :=
  ["portfolio", "website", "personal site", "personal website", "blog", "site:", "web:"]

def portfolioContextWindow : ℕ := 30

def portfolioPatterns : List PatternSpec :=
  [⟨alt (seqs [scheme, notSpaces])
      (seqs [literalI "www.", plus (char fun c => isAlnumI c || c = '-'),
        plus (seqs [one '.', plus (char fun c => isAlnumI c || c = '-')]),
        star (char fun c => !isSpace c)]), true, false⟩,
    ⟨seqs [boundary T.isWord, char isAlnumI,
      star (char fun c => isAlnumI c || c = '-'),
      one '.',
      many (char isLetterI) 2 none,
      opt (seqs [one '.', many (char isLetterI) 2 none]),
      opt (seqs [one '/', star (char fun c => !isSpace c)])], true, true⟩]

def patternRegistry : PIIType → List PatternSpec
  | .email => emailPatterns
  | .phone => phonePatterns T
  | .linkedin => linkedinPatterns
  | .github => githubPatterns
  | .portfolio => portfolioPatterns T

def detectionOrder : List PIIType := [.email, .phone, .linkedin, .github, .portfolio]

def trailingStripChars : List Char :=
  [')', ']', '}', '>', '\'', '"', '.', ',', ';', ':', '!', '?']

def minPhoneDigits : ℕ := 7

def maxPhoneDigits : ℕ := 15

end Registry

end AiHiring.Pii
