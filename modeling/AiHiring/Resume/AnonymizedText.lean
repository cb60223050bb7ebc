import AiHiring.Jd.Extraction
import AiHiring.Pii.Patterns
import Mathlib.Data.Bool.AllAny

namespace AiHiring

open Library Regex Pii

-- The characters that `\d` matches, which the Unicode database lists, and `str` of a
-- value that is not a string.
structure PythonText where
  isDecimal : Char → Bool
  ascii : ∀ c, c.toNat < 128 → isDecimal c = c.isDigit
  strOther : JsonValue → List Char

namespace JsonValue

def truthy : JsonValue → Bool
  | .null => false
  | .bool value => value
  | .number value => value ≠ 0
  | .string value => value ≠ ""
  | .array items => !items.isEmpty
  | .object fields => !fields.isEmpty

def str (T : PythonText) : JsonValue → List Char
  | .string value => value.toList
  | value => T.strOther value

-- What `for` goes through; it raises on what is left.
def iterate : JsonValue → Option (List JsonValue)
  | .array items => some items
  | .object fields => some (fields.map fun field => .string field.1)
  | .string value => some (value.toList.map fun c => .string (String.singleton c))
  | _ => none

end JsonValue

namespace AnonymizedEmbeddingText

section Patterns

variable (T : PythonText)

def emailPattern : Regex :=
  seqs [plus (char fun c => isAlnum c || c ∈ ['.', '_', '%', '+', '-']), one '@',
    plus (char fun c => isAlnum c || c ∈ ['.', '-']), one '.', many (char isLetter) 2 none]

def urlPattern : Regex :=
  alt (seqs [scheme, notSpaces]) (alt (seqs [literalI "www.", notSpaces])
    (alt (seqs [literalI "linkedin.com", star (char fun c => !isSpace c)])
      (seqs [literalI "github.com", star (char fun c => !isSpace c)])))

def inPhone (c : Char) : Bool :=
  T.isDecimal c || c = '-' || isSpace c || c = '(' || c = ')'

def phoneNumber : Regex :=
  seqs [opt (one '+'), char T.isDecimal, many (char (inPhone T)) 8 none, char T.isDecimal]

def phonePattern : Regex := seqs [notBehind T.isDecimal, phoneNumber T, notAhead T.isDecimal]

def verifyAnonymizedText (text : List Char) : Bool × Option String :=
  if search emailPattern text then
    (false, some "Anonymised text appears to contain an email address.")
  else if search urlPattern text then
    (false, some "Anonymised text appears to contain a URL or social-profile link.")
  else if search (phonePattern T) text then
    (false, some "Anonymised text appears to contain a phone number.")
  else (true, none)

end Patterns

section Builder

variable (T : PythonText)

structure Sections where
  (skills workExperience education : List JsonValue)

-- `parsed_json.get(key) or []`
def section? (parsedJson : List (String × JsonValue)) (key : String) : Option (List JsonValue) :=
  match parsedJson.lookup key with
  | none => some []
  | some value => if value.truthy then value.iterate else some []

def sections (parsedJson : List (String × JsonValue)) : Option Sections := do
  let skills ← section? parsedJson "skills"
  let workExperience ← section? parsedJson "work_experience"
  let education ← section? parsedJson "education"
  return ⟨skills, workExperience, education⟩

def cleanSkills (skills : List JsonValue) : List (List Char) :=
  (skills.filter JsonValue.truthy).map (JsonValue.str T)

def skillParts (skills : List JsonValue) : List (List Char) :=
  if cleanSkills T skills = [] then []
  else ["Skills: ".toList ++ ", ".toList.intercalate (cleanSkills T skills)]

-- `str(entry[key])`, when `entry.get(key)` is truthy
def value (entry : List (String × JsonValue)) (key : String) : Option (List Char) :=
  ((entry.lookup key).filter JsonValue.truthy).map (JsonValue.str T)

def headerBits (entry : List (String × JsonValue)) : List (List Char) :=
  (value T entry "title").toList ++
    ((value T entry "company").map fun company => "at ".toList ++ company).toList

def header (entry : List (String × JsonValue)) : List Char :=
  " ".toList.intercalate (headerBits T entry)

def dates (entry : List (String × JsonValue)) : List (List Char) :=
  ["start_date", "end_date"].filterMap (value T entry)

def dateRange (entry : List (String × JsonValue)) : List Char :=
  "-".toList.intercalate (dates T entry)

def segment (entry : List (String × JsonValue)) : List Char :=
  if dateRange T entry = [] then header T entry
  else if header T entry = [] then dateRange T entry
  else header T entry ++ " (".toList ++ dateRange T entry ++ ")".toList

def workPart : JsonValue → Option (List Char)
  | .object entry =>
    if segment T entry = [] then none else some ("Experience: ".toList ++ segment T entry)
  | _ => none

def educationBits (entry : List (String × JsonValue)) : List (List Char) :=
  ["degree", "field", "institution"].filterMap (value T entry)

def educationPart : JsonValue → Option (List Char)
  | .object entry =>
    if educationBits T entry = [] then none
    else some ("Education: ".toList ++ " ".toList.intercalate (educationBits T entry))
  | _ => none

def composed (s : Sections) : List Char :=
  "\n".toList.intercalate (skillParts T s.skills ++ s.workExperience.filterMap (workPart T) ++
    s.education.filterMap (educationPart T))

def buildAnonymizedEmbeddingText (parsedJson : List (String × JsonValue)) : Option (List Char) :=
  (sections parsedJson).map (composed T)

-- Every value of a field that the builder puts into the text.
def usedValues (s : Sections) : List (List Char) :=
  cleanSkills T s.skills ++ s.workExperience.flatMap (fun
      | .object entry => ["title", "company", "start_date", "end_date"].filterMap (value T entry)
      | _ => []) ++
    s.education.flatMap fun
      | .object entry => educationBits T entry
      | _ => []

end Builder

section Email

variable {a b w : List Char} {c : Char}

def inEmail (c : Char) : Bool := isAlnum c || c ∈ ['.', '_', '%', '+', '-', '@']

theorem plain_emailPattern : Plain emailPattern := by
  refine plain_seqs ?_
  simp only [List.forall_mem_cons, List.not_mem_nil, false_implies, implies_true, and_true]
  refine ⟨⟨trivial, ?_⟩, trivial, ⟨trivial, ?_⟩, trivial, trivial, ?_⟩ <;>
    rintro ⟨c, -, hnil⟩ <;> exact absurd hnil (by simp)

theorem inEmail_of_word (hw : Word emailPattern w) : ∀ c ∈ w, inEmail c = true := by
  refine Within.word (p := fun c => inEmail c = true) (within_seqs ?_) hw
  simp only [List.forall_mem_cons, List.not_mem_nil, false_implies, implies_true, and_true]
  refine ⟨fun c hc => ?_, fun c hc => ?_, fun c hc => ?_, fun c hc => ?_, fun c hc => ?_⟩
  · simp only [inEmail, Bool.or_eq_true, decide_eq_true_eq, List.mem_cons] at hc ⊢
    tauto
  · rw [of_decide_eq_true hc]
    decide
  · simp only [inEmail, Bool.or_eq_true, decide_eq_true_eq, List.mem_cons] at hc ⊢
    tauto
  · rw [of_decide_eq_true hc]
    decide
  · have hletter : c.isAlpha = true := hc
    simp [inEmail, isAlnum, Char.isAlphanum, hletter]

theorem at_mem_of_word (hw : Word emailPattern w) : '@' ∈ w := by
  obtain ⟨_, _, -, ⟨_, _, ⟨c, hc, rfl⟩, -, rfl⟩, rfl⟩ := hw
  rw [of_decide_eq_true hc]
  simp

end Email

section Phone

variable {T : PythonText} {text v w : List Char} {c : Char}

variable (T) in
-- A digit, eight or more characters that may stand in a number, and a digit.
structure PhoneSpan (w : List Char) : Prop where
  long : 10 ≤ w.length
  inside : ∀ c ∈ w, inPhone T c
  first : ∃ d, w.head? = some d ∧ T.isDecimal d
  last : ∃ d, w.getLast? = some d ∧ T.isDecimal d

theorem inPhone_of_isDecimal (h : T.isDecimal c) : inPhone T c := by
  simp [inPhone, h]

theorem phoneSpan_iff : PhoneSpan T w ↔ ∃ d x d', T.isDecimal d ∧ (∀ c ∈ x, inPhone T c) ∧
    8 ≤ x.length ∧ T.isDecimal d' ∧ w = d :: (x ++ [d']) := by
  constructor
  · rintro ⟨hlong, hinside, ⟨d, hfirst, hd⟩, ⟨d', hlast, hd'⟩⟩
    obtain ⟨rest, rfl⟩ := List.head?_eq_some_iff.mp hfirst
    obtain rfl | ⟨x, e, rfl⟩ := List.eq_nil_or_concat rest
    · simp at hlong
    · rw [List.concat_eq_append] at hlong hinside hlast ⊢
      rw [← List.cons_append, List.getLast?_concat] at hlast
      obtain rfl := Option.some.inj hlast
      refine ⟨d, x, e, hd, fun c hc => hinside c ?_, ?_, hd', rfl⟩
      · exact List.mem_cons_of_mem _ (List.mem_append_left _ hc)
      · simp only [List.length_cons, List.length_append, List.length_nil] at hlong
        omega
  · rintro ⟨d, x, d', hd, hx, hlong, hd', rfl⟩
    refine ⟨?_, ?_, ⟨d, rfl, hd⟩, ⟨d', ?_, hd'⟩⟩
    · simp only [List.length_cons, List.length_append, List.length_nil]
      omega
    · intro c hc
      obtain rfl | hc := List.mem_cons.mp hc
      · exact inPhone_of_isDecimal hd
      · obtain hc | hc := List.mem_append.mp hc
        · exact hx c hc
        · exact List.mem_singleton.mp hc ▸ inPhone_of_isDecimal hd'
    · rw [← List.cons_append, List.getLast?_concat]

theorem plain_phoneNumber : Plain (phoneNumber T) := by
  refine plain_seqs ?_
  simp only [List.forall_mem_cons, List.not_mem_nil, false_implies, implies_true, and_true]
  refine ⟨⟨trivial, ?_⟩, trivial, ⟨trivial, ?_⟩, trivial⟩ <;>
    rintro ⟨c, -, hnil⟩ <;> exact absurd hnil (by simp)

theorem word_phoneNumber : Word (phoneNumber T) w ↔
    ∃ sign v, (sign = [] ∨ sign = ['+']) ∧ PhoneSpan T v ∧ w = sign ++ v := by
  constructor
  · rintro ⟨sign, v, hsign, ⟨_, _, ⟨d, hd, rfl⟩, ⟨x, _, hx, ⟨d', hd', rfl⟩, rfl⟩, rfl⟩, rfl⟩
    obtain ⟨hx, hlong⟩ := word_many_char.mp hx
    refine ⟨sign, _, ?_, phoneSpan_iff.mpr ⟨d, x, d', hd, hx, hlong, hd', rfl⟩, rfl⟩
    refine (word_opt.mp hsign).imp_right ?_
    rintro ⟨c, hc, rfl⟩
    rw [of_decide_eq_true hc]
  · rintro ⟨sign, v, hsign, hv, rfl⟩
    obtain ⟨d, x, d', hd, hx, hlong, hd', rfl⟩ := phoneSpan_iff.mp hv
    refine ⟨sign, _, word_opt.mpr (hsign.imp_right fun hplus => ⟨'+', rfl, hplus⟩),
      ⟨[d], _, ⟨d, hd, rfl⟩, ⟨x, [d'], word_many_char.mpr ⟨hx, hlong⟩, ⟨d', hd', rfl⟩, rfl⟩, rfl⟩,
      rfl⟩

theorem PhoneSpan.extend (h : PhoneSpan T w) {u v : List Char} (hu : ∀ c ∈ u, T.isDecimal c)
    (hv : ∀ c ∈ v, T.isDecimal c) : PhoneSpan T (u ++ w ++ v) := by
  obtain ⟨hlong, hinside, ⟨d, hfirst, hd⟩, ⟨d', hlast, hd'⟩⟩ := h
  refine ⟨?_, ?_, ?_, ?_⟩
  · simp only [List.length_append]
    omega
  · intro c hc
    obtain hc | hc := List.mem_append.mp hc
    · obtain hc | hc := List.mem_append.mp hc
      · exact inPhone_of_isDecimal (hu c hc)
      · exact hinside c hc
    · exact inPhone_of_isDecimal (hv c hc)
  · cases u with
    | nil => exact ⟨d, by simp [hfirst], hd⟩
    | cons c u => exact ⟨c, by simp, hu c List.mem_cons_self⟩
  · obtain rfl | ⟨v, c, rfl⟩ := List.eq_nil_or_concat v
    · exact ⟨d', by simp [hlast], hd'⟩
    · rw [List.concat_eq_append] at hv ⊢
      refine ⟨c, ?_, hv c (List.mem_append_right _ (List.mem_singleton_self c))⟩
      rw [← List.append_assoc, List.getLast?_concat]

theorem head?_dropWhile {p : Char → Bool} (l : List Char) :
    (l.dropWhile p).head?.any p = false := by
  have h := List.head?_dropWhile_not p l
  cases hhead : (l.dropWhile p).head? with
  | none => rfl
  | some c =>
    rw [hhead] at h
    exact h

theorem search_phonePattern : search (phonePattern T) text = true ↔ Found (PhoneSpan T) text := by
  rw [search_iff]
  constructor
  · rintro ⟨u, v, rfl, hends⟩
    obtain ⟨there, hthere⟩ := List.exists_mem_of_ne_nil _ hends
    obtain ⟨-, -, w, hw, hafter, -⟩ := (mem_ends_guarded plain_phoneNumber).mp hthere
    obtain ⟨sign, span, -, hspan, rfl⟩ := word_phoneNumber.mp hw
    dsimp only at hafter
    exact ⟨span, hspan, u ++ sign, there.after, by rw [hafter]; simp⟩
  · rintro ⟨w, hspan, u, v, rfl⟩
    let before := u.reverse.dropWhile T.isDecimal
    let digits := (u.reverse.takeWhile T.isDecimal).reverse
    have hu : u = before.reverse ++ digits := by
      rw [← List.reverse_append, List.takeWhile_append_dropWhile, List.reverse_reverse]
    have hextended := hspan.extend
      (fun c hc => List.mem_takeWhile_imp (List.mem_reverse.mp (show c ∈ digits from hc)))
      fun c (hc : c ∈ v.takeWhile T.isDecimal) => List.mem_takeWhile_imp hc
    refine ⟨before.reverse, digits ++ w ++ v.takeWhile T.isDecimal ++ v.dropWhile T.isDecimal,
      ?_, ?_⟩
    · conv_lhs => rw [hu, ← List.takeWhile_append_dropWhile (p := T.isDecimal) (l := v)]
      simp only [List.append_assoc]
    · have hends : (⟨(digits ++ w ++ v.takeWhile T.isDecimal).reverse ++ before,
          v.dropWhile T.isDecimal⟩ : Place) ∈ ends (phonePattern T) ⟨before.reverse.reverse,
            digits ++ w ++ v.takeWhile T.isDecimal ++ v.dropWhile T.isDecimal⟩ := by
        rw [List.reverse_reverse]
        refine (mem_ends_guarded plain_phoneNumber).mpr ⟨head?_dropWhile _, head?_dropWhile _,
          _, word_phoneNumber.mpr ⟨[], _, .inl rfl, hextended, rfl⟩, rfl, rfl⟩
      exact List.ne_nil_of_mem hends

end Phone

section Url

variable {a b text w : List Char} {c : Char}

-- Where a link begins that goes on with any character that is no space.
def stubPattern : Regex := alt scheme (literalI "www.")

def hostPattern : Regex := alt (literalI "linkedin.com") (literalI "github.com")

def UrlSpan (w : List Char) : Prop :=
  (∃ stub c, Word stubPattern stub ∧ isSpace c = false ∧ w = stub ++ [c]) ∨ Word hostPattern w

def EndsInStub (text : List Char) : Prop := ∃ stub, Word stubPattern stub ∧ stub <:+ text

-- What the builder puts between values, and every space.
def separates (c : Char) : Bool := isSpace c || c ∈ [',', '-', '(', ')']

theorem toLower_eq_self (h : c.toNat < 65 ∨ 90 < c.toNat) : c.toLower = c := by
  have hupper : ¬(c.val ≥ 'A'.val ∧ c.val ≤ 'Z'.val) := by
    rintro ⟨hlow, hhigh⟩
    have hlow : 65 ≤ c.toNat := hlow
    have hhigh : c.toNat ≤ 90 := hhigh
    omega
  exact dif_neg hupper

theorem separates_unfolded (h : separates c) : c.toLower = c ∧ foldedTo c = none := by
  simp only [separates, isSpace, Bool.or_eq_true, decide_eq_true_eq] at h
  obtain h | h := h
  · simp only [List.mem_cons, List.not_mem_nil, or_false] at h
    constructor
    · exact toLower_eq_self (by omega)
    · rw [foldedTo, if_neg (by omega), if_neg (by omega), if_neg (by omega)]
  · simp only [List.mem_cons, List.not_mem_nil, or_false] at h
    rcases h with rfl | rfl | rfl | rfl <;> decide

theorem within_oneI {x : Char} (hx : separates x = false) :
    Within (fun c => separates c = false) (oneI x) := by
  intro c hc
  by_contra hseparates
  obtain ⟨hlower, hfolded⟩ := separates_unfolded (by simpa using hseparates)
  have hmatches : c.toLower = x ∨ foldedTo c = some x := by simpa using hc
  rw [hlower, hfolded] at hmatches
  obtain rfl | hnone := hmatches
  · exact hseparates hx
  · simp at hnone

theorem within_literalI {s : String} (h : ∀ x ∈ s.toList, separates x = false) :
    Within (fun c => separates c = false) (literalI s) := by
  refine within_seqs fun r hr => ?_
  obtain ⟨x, hx, rfl⟩ := List.mem_map.mp hr
  exact within_oneI (h x hx)

theorem plain_literalI (s : String) : Plain (literalI s) := by
  refine plain_seqs fun r hr => ?_
  obtain ⟨x, -, rfl⟩ := List.mem_map.mp hr
  trivial

theorem not_separates_of_stub (h : Word stubPattern w) : ∀ c ∈ w, separates c = false := by
  have hscheme : Within (fun c => separates c = false) scheme := by
    refine within_seqs ?_
    simp only [List.forall_mem_cons, List.not_mem_nil, false_implies, implies_true, and_true]
    exact ⟨within_literalI (List.all_iff_forall_prop.mp (by decide)), within_oneI (by decide),
      within_literalI (List.all_iff_forall_prop.mp (by decide))⟩
  have hwithin : Within (fun c => separates c = false) stubPattern :=
    ⟨hscheme, within_literalI (List.all_iff_forall_prop.mp (by decide))⟩
  exact hwithin.word h

theorem not_separates_of_host (h : Word hostPattern w) : ∀ c ∈ w, separates c = false := by
  have hwithin : Within (fun c => separates c = false) hostPattern :=
    ⟨within_literalI (List.all_iff_forall_prop.mp (by decide)),
      within_literalI (List.all_iff_forall_prop.mp (by decide))⟩
  exact hwithin.word h

theorem plain_urlPattern : Plain urlPattern := by
  have hspaces : ¬Word (char fun c => !isSpace c) [] := by
    rintro ⟨c, -, hnil⟩
    simp at hnil
  have hs : ¬Word (oneI 's') [] := by
    rintro ⟨c, -, hnil⟩
    simp at hnil
  exact ⟨⟨⟨plain_literalI _, ⟨trivial, hs⟩, plain_literalI _⟩, trivial, hspaces⟩,
    ⟨plain_literalI _, trivial, hspaces⟩, ⟨plain_literalI _, trivial, hspaces⟩,
    plain_literalI _, trivial, hspaces⟩

theorem search_urlPattern : search urlPattern text = true ↔ Found UrlSpan text := by
  have hstub {u v : List Char} (hu : Word stubPattern u) (hv : Word notSpaces v) :
      Found UrlSpan (u ++ v) := by
    obtain ⟨hspaces, hlong⟩ := word_many_char.mp hv
    cases v with
    | nil => simp at hlong
    | cons c v =>
      have hspace : isSpace c = false := by simpa using hspaces c List.mem_cons_self
      exact ⟨u ++ [c], .inl ⟨u, c, hu, hspace, rfl⟩, [], v, by simp⟩
  have hhost {u v : List Char} (hu : Word hostPattern u) : Found UrlSpan (u ++ v) :=
    ⟨u, .inr hu, (List.prefix_append u v).isInfix⟩
  rw [search_plain plain_urlPattern]
  refine found_congr ?_ ?_
  · rintro w (hw | hw | hw | hw)
    · obtain ⟨u, v, hu, hv, rfl⟩ := hw
      exact hstub (.inl hu) hv
    · obtain ⟨u, v, hu, hv, rfl⟩ := hw
      exact hstub (.inr hu) hv
    · obtain ⟨u, v, hu, -, rfl⟩ := hw
      exact hhost (.inl hu)
    · obtain ⟨u, v, hu, -, rfl⟩ := hw
      exact hhost (.inr hu)
  · rintro w (⟨stub, c, hword, hspace, rfl⟩ | hword)
    · have hone : Word notSpaces [c] := word_many_char.mpr ⟨by simpa using hspace, by simp⟩
      refine ⟨stub ++ [c], ?_, List.infix_refl _⟩
      obtain hscheme | hwww := hword
      · exact .inl ⟨stub, [c], hscheme, hone, rfl⟩
      · exact .inr (.inl ⟨stub, [c], hwww, hone, rfl⟩)
    · have hnone : Word (star (char fun c => !isSpace c)) [] :=
        word_many_char.mpr ⟨by simp, Nat.zero_le _⟩
      refine ⟨w, ?_, List.infix_refl _⟩
      obtain hlinkedin | hgithub := hword
      · exact .inr (.inr (.inl ⟨w, [], hlinkedin, hnone, (List.append_nil w).symm⟩))
      · exact .inr (.inr (.inr ⟨w, [], hgithub, hnone, (List.append_nil w).symm⟩))

end Url

section Composes

variable {T : PythonText} {word : List Char → Prop} {a b w : List Char} {c : Char}

def labels : List (List Char) := ["Skills".toList, "Experience".toList, "Education".toList]

-- A labelled line gives a pattern no more than what stands on it.
structure Composes (word : List Char → Prop) : Prop where
  nil : ¬Found word []
  label : ∀ label ∈ labels, ∀ body, Found word (label ++ ':' :: ' ' :: body) ↔ Found word body
  line : ∀ c ∈ ['S', 'E'], ∀ a b,
    Found word (a ++ '\n' :: c :: b) ↔ Found word a ∨ Found word (c :: b)

theorem email_excludes (hc : inEmail c = false) (hw : Word emailPattern w) : c ∉ w :=
  fun hmem => absurd (inEmail_of_word hw c hmem) (by simp [hc])

theorem not_found_email (h : '@' ∉ a) : ¬Found (Word emailPattern) a :=
  not_found (· = '@') (fun _ hw => ⟨'@', at_mem_of_word hw, rfl⟩) fun _ hc heq => h (heq ▸ hc)

theorem composes_email : Composes (Word emailPattern) where
  nil := not_found_email (by simp)
  label label hlabel body := by
    have hnone : ¬Found (Word emailPattern) label := not_found_email (by
      revert label
      decide)
    rw [found_append_cons fun _ => email_excludes (by decide), or_iff_right hnone,
      found_cons_of_not_mem (not_found_email (by simp)) fun _ => email_excludes (by decide)]
  line c _ a b := found_append_cons fun _ => email_excludes (by decide)

theorem phone_excludes (hc : inPhone T c = false) (hw : PhoneSpan T w) : c ∉ w :=
  fun hmem => absurd (hw.inside c hmem) (by simp [hc])

theorem inPhone_eq_false (h : c.toNat < 128)
    (hc : (c.isDigit || c = '-' || isSpace c || c = '(' || c = ')') = false) :
    inPhone T c = false := by
  rw [inPhone, T.ascii c h]
  exact hc

theorem ne_of_isDecimal {d : Char} (h : c.toNat < 128) (hc : c.isDigit = false)
    (hd : T.isDecimal d = true) : d ≠ c := by
  rintro rfl
  rw [T.ascii d h, hc] at hd
  simp at hd

theorem phone_first (h : c.toNat < 128) (hc : c.isDigit = false) (hw : PhoneSpan T w) :
    ∃ d, w.head? = some d ∧ d ≠ c := by
  obtain ⟨d, hfirst, hd⟩ := hw.first
  exact ⟨d, hfirst, ne_of_isDecimal h hc hd⟩

theorem phone_last (h : c.toNat < 128) (hc : c.isDigit = false) (hw : PhoneSpan T w) :
    ∃ d, w.getLast? = some d ∧ d ≠ c := by
  obtain ⟨d, hlast, hd⟩ := hw.last
  exact ⟨d, hlast, ne_of_isDecimal h hc hd⟩

theorem not_found_phone (h : ∀ c ∈ a, c.toNat < 128 ∧ c.isDigit = false) :
    ¬Found (PhoneSpan T) a := by
  refine not_found (fun c => T.isDecimal c = true) (fun w hw => ?_) fun c hc hdecimal => ?_
  · obtain ⟨d, hfirst, hd⟩ := hw.first
    exact ⟨d, List.mem_of_mem_head? hfirst, hd⟩
  · obtain ⟨hascii, hdigit⟩ := h c hc
    exact ne_of_isDecimal hascii hdigit hdecimal rfl

theorem composes_phone : Composes (PhoneSpan T) where
  nil := not_found_phone (by simp)
  label label hlabel body := by
    have hnone : ¬Found (PhoneSpan T) label :=
      not_found_phone (List.all_iff_forall_prop.mp (by
        revert label
        decide))
    rw [found_append_cons fun _ => phone_excludes (inPhone_eq_false (by decide) (by decide)),
      or_iff_right hnone, found_cons fun _ => phone_first (by decide) (by decide)]
  line c hc a b := by
    have hletter : inPhone T c = false ∧ c.toNat < 128 ∧ c.isDigit = false := by
      simp only [List.mem_cons, List.not_mem_nil, or_false] at hc
      rcases hc with rfl | rfl
      · exact ⟨inPhone_eq_false (by decide) (by decide), by decide, by decide⟩
      · exact ⟨inPhone_eq_false (by decide) (by decide), by decide, by decide⟩
    have hsplit : a ++ '\n' :: c :: b = (a ++ ['\n']) ++ c :: b := by simp
    rw [hsplit, found_append_cons fun _ => phone_excludes hletter.1,
      found_concat fun _ => phone_last (by decide) (by decide),
      found_cons fun _ => phone_first hletter.2.1 hletter.2.2]

theorem exists_mem_of_literalI (xs : List Char) (x : Char) (hx : x ∈ xs)
    (hw : Word (seqs (xs.map oneI)) w) : ∃ c ∈ w, c.toLower = x ∨ foldedTo c = some x := by
  have hone {y : Char} {u : List Char} (hu : Word (oneI y) u) :
      ∃ c ∈ u, c.toLower = y ∨ foldedTo c = some y := by
    obtain ⟨c, hc, rfl⟩ := hu
    exact ⟨c, List.mem_singleton_self c, by simpa using hc⟩
  induction xs generalizing w with
  | nil => simp at hx
  | cons y ys ih =>
    cases ys with
    | nil =>
      obtain rfl := List.mem_singleton.mp hx
      exact hone hw
    | cons z zs =>
      obtain ⟨u, v, hu, hv, rfl⟩ := hw
      obtain rfl | hx := List.mem_cons.mp hx
      · obtain ⟨c, hc, hmatches⟩ := hone hu
        exact ⟨c, List.mem_append_left _ hc, hmatches⟩
      · obtain ⟨c, hc, hmatches⟩ := ih hx hv
        exact ⟨c, List.mem_append_right _ hc, hmatches⟩

def marksLink (c : Char) : Prop := c.toLower = '/' ∨ c.toLower = '.'

instance : DecidablePred marksLink := fun c =>
  inferInstanceAs (Decidable (c.toLower = '/' ∨ c.toLower = '.'))

theorem foldedTo_ne {x : Char} (hx : x ∉ ['i', 's', 'k']) : foldedTo c ≠ some x := by
  unfold foldedTo
  split_ifs <;> simp_all [eq_comm]

theorem stub_marked (h : Word stubPattern w) : ∃ c ∈ w, marksLink c := by
  obtain ⟨_, _, -, ⟨_, _, -, hrest, rfl⟩, rfl⟩ | hwww := h
  · obtain ⟨c, hc, hmatches⟩ :=
      exists_mem_of_literalI "://".toList '/' (by decide) hrest
    exact ⟨c, by simp [hc], .inl (hmatches.resolve_right (foldedTo_ne (by decide)))⟩
  · obtain ⟨c, hc, hmatches⟩ :=
      exists_mem_of_literalI "www.".toList '.' (by decide) hwww
    exact ⟨c, hc, .inr (hmatches.resolve_right (foldedTo_ne (by decide)))⟩

theorem host_marked (h : Word hostPattern w) : ∃ c ∈ w, marksLink c := by
  have hdot (xs : List Char) (hmem : '.' ∈ xs) (hw : Word (seqs (xs.map oneI)) w) :
      ∃ c ∈ w, marksLink c := by
    obtain ⟨c, hc, hmatches⟩ := exists_mem_of_literalI xs '.' hmem hw
    exact ⟨c, hc, .inr (hmatches.resolve_right (foldedTo_ne (by decide)))⟩
  obtain hlinkedin | hgithub := h
  · exact hdot "linkedin.com".toList (by decide) hlinkedin
  · exact hdot "github.com".toList (by decide) hgithub

theorem not_found_url (h : ∀ c ∈ a, ¬marksLink c) : ¬Found UrlSpan a := by
  refine not_found marksLink ?_ h
  rintro w (⟨stub, c, hstub, -, rfl⟩ | hhost)
  · obtain ⟨d, hd, hmarks⟩ := stub_marked hstub
    exact ⟨d, List.mem_append_left _ hd, hmarks⟩
  · exact host_marked hhost

theorem url_excludes (hc : isSpace c) (hw : UrlSpan w) : c ∉ w := by
  have hseparates : separates c := by simp [separates, hc]
  intro hmem
  obtain ⟨stub, d, hstub, hspace, rfl⟩ | hhost := hw
  · obtain hmem | hmem := List.mem_append.mp hmem
    · exact absurd (not_separates_of_stub hstub c hmem) (by simp [hseparates])
    · rw [← List.mem_singleton.mp hmem, hc] at hspace
      simp at hspace
  · exact absurd (not_separates_of_host hhost c hmem) (by simp [hseparates])

theorem url_first (hc : separates c) (hw : UrlSpan w) : ∃ d, w.head? = some d ∧ d ≠ c := by
  have hhead {u : List Char} (hu : ∃ c ∈ u, marksLink c)
      (hseparates : ∀ c ∈ u, separates c = false) : ∃ d, u.head? = some d ∧ d ≠ c := by
    obtain ⟨e, he, -⟩ := hu
    obtain ⟨d, rest, rfl⟩ := List.exists_cons_of_ne_nil (List.ne_nil_of_mem he)
    refine ⟨d, rfl, ?_⟩
    rintro rfl
    exact absurd (hseparates d List.mem_cons_self) (by simp [hc])
  obtain ⟨stub, d, hstub, -, rfl⟩ | hhost := hw
  · obtain ⟨e, he, hne⟩ := hhead (stub_marked hstub) (not_separates_of_stub hstub)
    exact ⟨e, by rw [List.head?_append, he, Option.some_or], hne⟩
  · exact hhead (host_marked hhost) (not_separates_of_host hhost)

theorem endsInStub_append (hc : separates c) : EndsInStub (a ++ c :: b) ↔ EndsInStub b := by
  constructor
  · rintro ⟨stub, hstub, hsuffix⟩
    have hnot : c ∉ stub := fun hmem =>
      absurd (not_separates_of_stub hstub c hmem) (by simp [hc])
    obtain hinside | houtside :=
      List.suffix_or_suffix_of_suffix hsuffix (List.suffix_append a (c :: b))
    · obtain rfl | hrest := List.suffix_cons_iff.mp hinside
      · exact absurd List.mem_cons_self hnot
      · exact ⟨stub, hstub, hrest⟩
    · exact absurd (houtside.mem List.mem_cons_self) hnot
  · rintro ⟨stub, hstub, hsuffix⟩
    exact ⟨stub, hstub, hsuffix.trans ((List.suffix_cons c b).trans (List.suffix_append _ _))⟩

theorem not_endsInStub_nil : ¬EndsInStub [] := by
  rintro ⟨stub, hstub, hsuffix⟩
  obtain ⟨c, hc, -⟩ := stub_marked hstub
  rw [List.suffix_nil.mp hsuffix] at hc
  simp at hc

theorem found_url_seam (hc : separates c) (hspace : isSpace c = false) :
    Found UrlSpan (a ++ c :: b) ↔ Found UrlSpan a ∨ Found UrlSpan b ∨ EndsInStub a := by
  constructor
  · rintro ⟨w, ⟨stub, d, hstub, hd, rfl⟩ | hhost, hpart⟩
    · have hnot : c ∉ stub := fun hmem =>
        absurd (not_separates_of_stub hstub c hmem) (by simp [hc])
      have hspan : UrlSpan (stub ++ [d]) := .inl ⟨stub, d, hstub, hd, rfl⟩
      obtain hleft | hright | ⟨-, hsuffix⟩ := infix_concat_or hnot hpart
      · exact .inl ⟨_, hspan, hleft⟩
      · exact .inr (.inl ⟨_, hspan, hright⟩)
      · exact .inr (.inr ⟨stub, hstub, hsuffix⟩)
    · have hnot : c ∉ w := fun hmem =>
        absurd (not_separates_of_host hhost c hmem) (by simp [hc])
      obtain hleft | hright := infix_or_of_not_mem hnot hpart
      · exact .inl ⟨w, .inr hhost, hleft⟩
      · exact .inr (.inl ⟨w, .inr hhost, hright⟩)
  · rintro (hleft | hright | ⟨stub, hstub, u, rfl⟩)
    · exact hleft.mono (List.prefix_append _ _).isInfix
    · exact hright.mono ((List.suffix_cons c b).trans (List.suffix_append _ _)).isInfix
    · exact ⟨stub ++ [c], .inl ⟨stub, c, hstub, hspace, rfl⟩, u, b, by simp⟩

theorem composes_url : Composes UrlSpan where
  nil := not_found_url (by simp)
  label label hlabel body := by
    have hnone : ¬Found UrlSpan (label ++ [':']) :=
      not_found_url (List.all_iff_forall_prop.mp (by
        revert label
        decide))
    have hsplit : label ++ ':' :: ' ' :: body = (label ++ [':']) ++ ' ' :: body := by simp
    rw [hsplit, found_append_cons fun _ => url_excludes (by decide), or_iff_right hnone]
  line c _ a b := found_append_cons fun _ => url_excludes (by decide)

end Composes

section Lines

variable {T : PythonText} {word : List Char → Prop}

def Labelled (part : List Char) : Prop :=
  ∃ label ∈ labels, ∃ body, part = label ++ ':' :: ' ' :: body

theorem Labelled.head {part : List Char} (h : Labelled part) :
    ∃ c ∈ ['S', 'E'], ∃ rest, part = c :: rest := by
  obtain ⟨label, hlabel, body, rfl⟩ := h
  simp only [labels, List.mem_cons, List.not_mem_nil, or_false] at hlabel
  rcases hlabel with rfl | rfl | rfl
  · exact ⟨'S', by simp, _, rfl⟩
  · exact ⟨'E', by simp, _, rfl⟩
  · exact ⟨'E', by simp, _, rfl⟩

theorem Composes.lines (h : Composes word) {parts : List (List Char)}
    (hparts : ∀ part ∈ parts, Labelled part) :
    Found word ("\n".toList.intercalate parts) ↔ ∃ part ∈ parts, Found word part := by
  induction parts with
  | nil => simpa using h.nil
  | cons first rest ih =>
    obtain ⟨-, hrest⟩ := List.forall_mem_cons.mp hparts
    cases rest with
    | nil => simp
    | cons second rest =>
      obtain ⟨c, hc, body, hsecond⟩ := (hparts second (by simp)).head
      have hhead : ∃ b, "\n".toList.intercalate (second :: rest) = c :: b := by
        rw [hsecond]
        cases rest with
        | nil => exact ⟨body, by simp⟩
        | cons third rest => exact ⟨_, by rw [List.intercalate_cons_cons]; rfl⟩
      obtain ⟨b, hb⟩ := hhead
      have hline : first ++ "\n".toList ++ (c :: b) = first ++ '\n' :: c :: b := by
        simp only [List.append_assoc]
        rfl
      rw [List.intercalate_cons_cons, hb, hline, h.line c hc, ← hb, ih hrest]
      exact (List.exists_mem_cons_iff (Found word) first (second :: rest)).symm

theorem labelled_skills {skills : List JsonValue} {part : List Char}
    (h : part ∈ skillParts T skills) :
    part = "Skills".toList ++ ':' :: ' ' :: ", ".toList.intercalate (cleanSkills T skills) := by
  unfold skillParts at h
  split_ifs at h
  · simp at h
  · exact List.mem_singleton.mp h

theorem workPart_some {value : JsonValue} {part : List Char} (h : workPart T value = some part) :
    ∃ entry, value = .object entry ∧
      part = "Experience".toList ++ ':' :: ' ' :: segment T entry := by
  unfold workPart at h
  split at h
  · next entry =>
      split_ifs at h
      exact ⟨entry, rfl, (Option.some.inj h).symm⟩
  · simp at h

theorem educationPart_some {value : JsonValue} {part : List Char}
    (h : educationPart T value = some part) :
    ∃ entry, value = .object entry ∧ part =
      "Education".toList ++ ':' :: ' ' :: " ".toList.intercalate (educationBits T entry) := by
  unfold educationPart at h
  split at h
  · next entry =>
      split_ifs at h
      exact ⟨entry, rfl, (Option.some.inj h).symm⟩
  · simp at h

theorem workPart_object {entry : List (String × JsonValue)} (h : segment T entry ≠ []) :
    workPart T (.object entry) = some ("Experience".toList ++ ':' :: ' ' :: segment T entry) := by
  rw [workPart, if_neg h]
  rfl

theorem educationPart_object {entry : List (String × JsonValue)}
    (h : " ".toList.intercalate (educationBits T entry) ≠ []) :
    educationPart T (.object entry) = some
      ("Education".toList ++ ':' :: ' ' :: " ".toList.intercalate (educationBits T entry)) := by
  have hbits : educationBits T entry ≠ [] := by
    intro hnil
    rw [hnil] at h
    exact h rfl
  rw [educationPart, if_neg hbits]
  rfl

theorem Composes.found_parts (h : Composes word) {label : List Char} (hlabel : label ∈ labels)
    {part : JsonValue → Option (List Char)} {content : List (String × JsonValue) → List Char}
    (hsome : ∀ value text, part value = some text →
      ∃ entry, value = .object entry ∧ text = label ++ ':' :: ' ' :: content entry)
    (hpart : ∀ entry, content entry ≠ [] →
      part (.object entry) = some (label ++ ':' :: ' ' :: content entry))
    (values : List JsonValue) :
    (∃ text ∈ values.filterMap part, Found word text) ↔
      ∃ entry, .object entry ∈ values ∧ Found word (content entry) := by
  constructor
  · rintro ⟨text, htext, hfound⟩
    obtain ⟨value, hvalue, hmade⟩ := List.mem_filterMap.mp htext
    obtain ⟨entry, rfl, rfl⟩ := hsome value text hmade
    exact ⟨entry, hvalue, (h.label label hlabel _).mp hfound⟩
  · rintro ⟨entry, hentry, hfound⟩
    have hne : content entry ≠ [] := by
      intro hnil
      rw [hnil] at hfound
      exact h.nil hfound
    exact ⟨_, List.mem_filterMap.mpr ⟨_, hentry, hpart entry hne⟩,
      (h.label label hlabel _).mpr hfound⟩

theorem Composes.found_skillParts (h : Composes word) (skills : List JsonValue) :
    (∃ text ∈ skillParts T skills, Found word text) ↔
      Found word (", ".toList.intercalate (cleanSkills T skills)) := by
  have hlabel : "Skills".toList ∈ labels := by simp [labels]
  constructor
  · rintro ⟨text, htext, hfound⟩
    rwa [labelled_skills htext, h.label _ hlabel] at hfound
  · intro hfound
    have hne : cleanSkills T skills ≠ [] := by
      intro hnil
      rw [hnil] at hfound
      exact h.nil hfound
    refine ⟨_, ?_, (h.label _ hlabel _).mpr hfound⟩
    rw [skillParts, if_neg hne]
    exact List.mem_singleton_self _

theorem Composes.composed (h : Composes word) (s : Sections) :
    Found word (composed T s) ↔ Found word (", ".toList.intercalate (cleanSkills T s.skills)) ∨
      (∃ entry, .object entry ∈ s.workExperience ∧ Found word (segment T entry)) ∨
      ∃ entry, .object entry ∈ s.education ∧
        Found word (" ".toList.intercalate (educationBits T entry)) := by
  have hskills : "Skills".toList ∈ labels := by simp [labels]
  have hwork : "Experience".toList ∈ labels := by simp [labels]
  have heducation : "Education".toList ∈ labels := by simp [labels]
  have hlabelled : ∀ part ∈ skillParts T s.skills ++ s.workExperience.filterMap (workPart T) ++
      s.education.filterMap (educationPart T), Labelled part := by
    intro part hpart
    simp only [List.mem_append, List.mem_filterMap] at hpart
    rcases hpart with (hpart | ⟨value, -, hvalue⟩) | ⟨value, -, hvalue⟩
    · exact ⟨_, hskills, _, labelled_skills hpart⟩
    · obtain ⟨entry, -, rfl⟩ := workPart_some hvalue
      exact ⟨_, hwork, _, rfl⟩
    · obtain ⟨entry, -, rfl⟩ := educationPart_some hvalue
      exact ⟨_, heducation, _, rfl⟩
  have hworkParts := h.found_parts hwork (fun _ _ => @workPart_some T _ _)
    (fun _ hne => workPart_object hne) s.workExperience
  have heducationParts := h.found_parts heducation (fun _ _ => @educationPart_some T _ _)
    (fun _ hne => educationPart_object hne) s.education
  rw [AnonymizedEmbeddingText.composed, h.lines hlabelled, ← h.found_skillParts, ← hworkParts,
    ← heducationParts]
  simp only [List.mem_append, or_and_right, exists_or, or_assoc]

end Lines

section Seams

variable (T : PythonText) (entry : List (String × JsonValue))

-- What stands right before the dates.
def lastHeader : List Char := ((value T entry "company").or (value T entry "title")).getD []

-- The dates that a dash or a parenthesis follows.
def followedDates : List (List Char) :=
  if header T entry = [] then (dates T entry).dropLast else dates T entry

-- Nothing is found across the values of an entry of the work experience.
structure WorkApart : Prop where
  phone : search (phonePattern T) (lastHeader T entry ++ " (".toList ++ dateRange T entry) = false
  email : search emailPattern (dateRange T entry) = false
  url : ∀ date ∈ followedDates T entry, ¬EndsInStub date

structure SeamsApart (s : Sections) : Prop where
  skills : ∀ skill ∈ (cleanSkills T s.skills).dropLast, ¬EndsInStub skill
  work : ∀ entry, .object entry ∈ s.workExperience → WorkApart T entry
  education : ∀ entry, .object entry ∈ s.education →
    search (phonePattern T) (" ".toList.intercalate (educationBits T entry)) = false

variable {T entry} {word : List Char → Prop} {values : List (List Char)}

theorem verify_iff {text : List Char} : (verifyAnonymizedText T text).1 = true ↔
    ¬Found (Word emailPattern) text ∧ ¬Found UrlSpan text ∧ ¬Found (PhoneSpan T) text := by
  rw [← search_plain plain_emailPattern, ← search_urlPattern, ← search_phonePattern]
  unfold verifyAnonymizedText
  split_ifs with hemail hurl hphone
  · simp [hemail]
  · simp [hurl]
  · simp [hphone]
  · simp [hemail, hurl, hphone]

theorem found_spaced (hnil : ¬Found word []) (hspace : ∀ w, word w → ' ' ∉ w) :
    Found word (" ".toList.intercalate values) ↔ ∃ v ∈ values, Found word v := by
  rw [found_intercalate (fun _ => False) hnil]
  · simp
  · intro a b
    have hsplit : a ++ " ".toList ++ b = a ++ ' ' :: b := by simp
    rw [hsplit, found_append_cons hspace, or_false]

theorem not_found_header (hnil : ¬Found word []) (hspace : ∀ w, word w → ' ' ∉ w)
    (hat : ¬Found word "at".toList)
    (hclean : ∀ key ∈ ["title", "company"], ∀ v, value T entry key = some v → ¬Found word v) :
    ¬Found word (header T entry) := by
  rw [header, found_spaced hnil hspace]
  rintro ⟨bit, hbit, hfound⟩
  obtain htitle | hcompany := List.mem_append.mp hbit
  · exact hclean "title" (by simp) bit (Option.mem_toList.mp htitle) hfound
  · obtain ⟨company, hvalue, rfl⟩ := Option.map_eq_some_iff.mp (Option.mem_toList.mp hcompany)
    have hsplit : "at ".toList ++ company = "at".toList ++ ' ' :: company := rfl
    rw [hsplit, found_append_cons hspace, or_iff_right hat] at hfound
    exact hclean "company" (by simp) company hvalue hfound

theorem found_segment_email (hheader : ¬Found (Word emailPattern) (header T entry)) :
    Found (Word emailPattern) (segment T entry) ↔
      Found (Word emailPattern) (dateRange T entry) := by
  unfold segment
  split_ifs with hrange hempty
  · rw [hrange]
    exact iff_of_false hheader composes_email.nil
  · rfl
  · have hsplit : header T entry ++ " (".toList ++ dateRange T entry ++ ")".toList =
        header T entry ++ ' ' :: '(' :: (dateRange T entry ++ ')' :: []) := by simp
    rw [hsplit, found_append_cons fun _ => email_excludes (by decide), or_iff_right hheader,
      found_cons_of_not_mem composes_email.nil fun _ => email_excludes (by decide),
      found_append_cons fun _ => email_excludes (by decide), or_iff_left composes_email.nil]

theorem found_dashed_url : Found UrlSpan ("-".toList.intercalate values) ↔
    (∃ v ∈ values, Found UrlSpan v) ∨ ∃ v ∈ values.dropLast, EndsInStub v := by
  refine found_intercalate EndsInStub composes_url.nil (fun a b => ?_) values
  have hsplit : a ++ "-".toList ++ b = a ++ '-' :: b := by simp
  rw [hsplit, found_url_seam (by decide) (by decide)]

theorem endsInStub_dashed : EndsInStub ("-".toList.intercalate values) ↔
    ∃ v ∈ values.getLast?, EndsInStub v := by
  induction values with
  | nil => simpa using not_endsInStub_nil
  | cons first rest ih =>
    cases rest with
    | nil => simp
    | cons second rest =>
      have hsplit (b : List Char) : first ++ "-".toList ++ b = first ++ '-' :: b := by simp
      rw [List.intercalate_cons_cons, hsplit, endsInStub_append (by decide), ih,
        List.getLast?_cons_cons]

theorem found_segment_url (hheader : ¬Found UrlSpan (header T entry))
    (hdates : ∀ v ∈ dates T entry, ¬Found UrlSpan v) :
    Found UrlSpan (segment T entry) ↔ ∃ v ∈ followedDates T entry, EndsInStub v := by
  have hrange : Found UrlSpan (dateRange T entry) ↔
      ∃ v ∈ (dates T entry).dropLast, EndsInStub v := by
    rw [dateRange, found_dashed_url, or_iff_right]
    rintro ⟨v, hv, hfound⟩
    exact hdates v hv hfound
  have hall : (∃ v ∈ (dates T entry).dropLast, EndsInStub v) ∨
      EndsInStub (dateRange T entry) ↔ ∃ v ∈ dates T entry, EndsInStub v := by
    rw [dateRange, endsInStub_dashed]
    obtain hnil | ⟨front, last, hlast⟩ := List.eq_nil_or_concat (dates T entry)
    · simp [hnil]
    · rw [hlast]
      simp [or_and_right, exists_or]
  unfold segment followedDates
  by_cases hempty : header T entry = []
  · rw [if_pos hempty, if_pos hempty, hempty]
    split_ifs with hnone
    · rw [← hrange, hnone]
    · exact hrange
  · rw [if_neg hempty, if_neg hempty, ← hall]
    split_ifs with hnone
    · rw [← hrange, hnone]
      exact iff_of_false hheader fun h => h.elim composes_url.nil not_endsInStub_nil
    · have hsplit : header T entry ++ " (".toList ++ dateRange T entry ++ ")".toList =
          header T entry ++ ' ' :: '(' :: (dateRange T entry ++ ')' :: []) := by simp
      rw [hsplit, found_append_cons fun _ => url_excludes (by decide), or_iff_right hheader,
        found_cons fun _ => url_first (by decide), found_url_seam (by decide) (by decide),
        or_iff_right composes_url.nil, hrange]

-- The dates and the value before them are what a number can run through.
theorem found_segment_phone
    (htitle : ∀ v, value T entry "title" = some v → ¬Found (PhoneSpan T) v) :
    Found (PhoneSpan T) (segment T entry) ↔
      Found (PhoneSpan T) (lastHeader T entry ++ " (".toList ++ dateRange T entry) := by
  have hfirst (c : Char) (hc : c ∈ [' ', '(', 'a', 't']) (b : List Char) :
      Found (PhoneSpan T) (c :: b) ↔ Found (PhoneSpan T) b := by
    have hplain : ∀ d ∈ [' ', '(', 'a', 't'], d.toNat < 128 ∧ d.isDigit = false :=
      List.all_iff_forall_prop.mp (by decide)
    exact found_cons fun _ => phone_first (hplain c hc).1 (hplain c hc).2
  have hlast (c : Char) (hc : c ∈ [' ', '(', ')']) (a : List Char) :
      Found (PhoneSpan T) (a ++ [c]) ↔ Found (PhoneSpan T) a := by
    have hplain : ∀ d ∈ [' ', '(', ')'], d.toNat < 128 ∧ d.isDigit = false :=
      List.all_iff_forall_prop.mp (by decide)
    exact found_concat fun _ => phone_last (hplain c hc).1 (hplain c hc).2
  have hsegment : Found (PhoneSpan T) (segment T entry) ↔
      Found (PhoneSpan T) (header T entry ++ ' ' :: '(' :: dateRange T entry) := by
    unfold segment
    split_ifs with hrange hempty
    · have hsplit : header T entry ++ [' ', '('] = (header T entry ++ [' ']) ++ ['('] := by simp
      rw [hrange, hsplit, hlast '(' (by simp), hlast ' ' (by simp)]
    · rw [hempty, List.nil_append, hfirst ' ' (by simp), hfirst '(' (by simp)]
    · have hsplit : header T entry ++ " (".toList ++ dateRange T entry ++ ")".toList =
          (header T entry ++ ' ' :: '(' :: dateRange T entry) ++ [')'] := by simp
      rw [hsplit, hlast ')' (by simp)]
  have hjoined : lastHeader T entry ++ " (".toList ++ dateRange T entry =
      lastHeader T entry ++ ' ' :: '(' :: dateRange T entry := by simp
  rw [hsegment, hjoined]
  generalize ' ' :: '(' :: dateRange T entry = rest
  cases ht : value T entry "title" with
  | none =>
    cases hc : value T entry "company" with
    | none => simp [header, headerBits, lastHeader, ht, hc]
    | some company =>
      have hheader : header T entry ++ rest = 'a' :: 't' :: ' ' :: (company ++ rest) := by
        simp [header, headerBits, ht, hc]
      rw [hheader, hfirst 'a' (by simp), hfirst 't' (by simp), hfirst ' ' (by simp)]
      simp [lastHeader, hc]
  | some title =>
    cases hc : value T entry "company" with
    | none => simp [header, headerBits, lastHeader, ht, hc]
    | some company =>
      have hheader : header T entry ++ rest =
          (title ++ [' ']) ++ 'a' :: 't' :: ' ' :: (company ++ rest) := by
        simp [header, headerBits, ht, hc]
      rw [hheader, found_append_cons fun _ =>
          phone_excludes (inPhone_eq_false (by decide) (by decide)),
        hlast ' ' (by simp), or_iff_right (htitle title ht), hfirst 't' (by simp),
        hfirst ' ' (by simp)]
      simp [lastHeader, hc]

end Seams

section Verified

variable {T : PythonText} {s : Sections} {word : List Char → Prop}

theorem mem_usedValues_skill {v : List Char} (h : v ∈ cleanSkills T s.skills) :
    v ∈ usedValues T s :=
  List.mem_append_left _ (List.mem_append_left _ h)

theorem mem_usedValues_work {entry : List (String × JsonValue)} {key : String} {v : List Char}
    (hentry : .object entry ∈ s.workExperience)
    (hkey : key ∈ ["title", "company", "start_date", "end_date"])
    (hvalue : value T entry key = some v) : v ∈ usedValues T s := by
  refine List.mem_append_left _ (List.mem_append_right _ (List.mem_flatMap.mpr ⟨_, hentry, ?_⟩))
  exact List.mem_filterMap.mpr ⟨key, hkey, hvalue⟩

theorem mem_usedValues_education {entry : List (String × JsonValue)} {v : List Char}
    (hentry : .object entry ∈ s.education) (h : v ∈ educationBits T entry) :
    v ∈ usedValues T s :=
  List.mem_append_right _ (List.mem_flatMap.mpr ⟨_, hentry, h⟩)

theorem found_skills (followed : List Char → Prop) (h : Composes word)
    (hsep : ∀ a b, Found word (a ++ ',' :: ' ' :: b) ↔ Found word a ∨ Found word b ∨ followed a)
    (hclean : ∀ v ∈ usedValues T s, ¬Found word v) :
    Found word (", ".toList.intercalate (cleanSkills T s.skills)) ↔
      ∃ skill ∈ (cleanSkills T s.skills).dropLast, followed skill := by
  rw [found_intercalate followed h.nil, or_iff_right]
  · rintro ⟨v, hv, hfound⟩
    exact hclean v (mem_usedValues_skill hv) hfound
  · intro a b
    have hsplit : a ++ ", ".toList ++ b = a ++ ',' :: ' ' :: b := by simp
    rw [hsplit, hsep]

theorem not_found_skills (h : Composes word)
    (hsep : ∀ a b, Found word (a ++ ',' :: ' ' :: b) ↔ Found word a ∨ Found word b)
    (hclean : ∀ v ∈ usedValues T s, ¬Found word v) :
    ¬Found word (", ".toList.intercalate (cleanSkills T s.skills)) := by
  rw [found_skills (fun _ => False) h _ hclean]
  · simp
  · intro a b
    rw [hsep, or_false]

theorem not_found_education (h : Composes word) (hspace : ∀ w, word w → ' ' ∉ w)
    (hclean : ∀ v ∈ usedValues T s, ¬Found word v) :
    ¬∃ entry, .object entry ∈ s.education ∧
      Found word (" ".toList.intercalate (educationBits T entry)) := by
  rintro ⟨entry, hentry, hfound⟩
  obtain ⟨v, hv, hfound⟩ := (found_spaced h.nil hspace).mp hfound
  exact hclean v (mem_usedValues_education hentry hv) hfound

theorem not_found_values {entry : List (String × JsonValue)} {keys : List String}
    (hclean : ∀ v ∈ usedValues T s, ¬Found word v) (hentry : .object entry ∈ s.workExperience)
    (hkeys : keys ⊆ ["title", "company", "start_date", "end_date"]) :
    ∀ key ∈ keys, ∀ v, value T entry key = some v → ¬Found word v :=
  fun _ hkey v hvalue => hclean v (mem_usedValues_work hentry (hkeys hkey) hvalue)

theorem found_email_composed (hclean : ∀ v ∈ usedValues T s, ¬Found (Word emailPattern) v) :
    Found (Word emailPattern) (composed T s) ↔ ∃ entry, .object entry ∈ s.workExperience ∧
        Found (Word emailPattern) (dateRange T entry) := by
  have hspace : ∀ w, Word emailPattern w → ' ' ∉ w := fun _ => email_excludes (by decide)
  have hskills : ¬Found (Word emailPattern) (", ".toList.intercalate (cleanSkills T s.skills)) := by
    refine not_found_skills composes_email (fun a b => ?_) hclean
    rw [found_append_cons fun _ => email_excludes (by decide),
      found_cons_of_not_mem composes_email.nil hspace]
  rw [composes_email.composed, or_iff_right hskills,
    or_iff_left (not_found_education composes_email hspace hclean)]
  refine exists_congr fun entry => and_congr_right fun hentry => found_segment_email ?_
  exact not_found_header composes_email.nil hspace (not_found_email (by decide))
    (not_found_values hclean hentry (by simp))

theorem found_url_composed (hclean : ∀ v ∈ usedValues T s, ¬Found UrlSpan v) :
    Found UrlSpan (composed T s) ↔ (∃ skill ∈ (cleanSkills T s.skills).dropLast, EndsInStub skill) ∨
        ∃ entry, .object entry ∈ s.workExperience ∧
          ∃ date ∈ followedDates T entry, EndsInStub date := by
  have hspace : ∀ w, UrlSpan w → ' ' ∉ w := fun _ => url_excludes (by decide)
  have hseam (a b : List Char) : Found UrlSpan (a ++ ',' :: ' ' :: b) ↔
      Found UrlSpan a ∨ Found UrlSpan b ∨ EndsInStub a := by
    rw [found_url_seam (by decide) (by decide), found_cons_of_not_mem composes_url.nil hspace]
  rw [composes_url.composed, found_skills EndsInStub composes_url hseam hclean,
    or_iff_left (not_found_education composes_url hspace hclean)]
  refine or_congr_right (exists_congr fun entry => and_congr_right fun hentry => ?_)
  refine found_segment_url ?_ ?_
  · exact not_found_header composes_url.nil hspace
      (not_found_url (List.all_iff_forall_prop.mp (by decide)))
      (not_found_values hclean hentry (by simp))
  · intro v hv
    obtain ⟨key, hkey, hvalue⟩ := List.mem_filterMap.mp hv
    exact not_found_values hclean hentry (by simp) key hkey v hvalue

theorem found_phone_composed (hclean : ∀ v ∈ usedValues T s, ¬Found (PhoneSpan T) v) :
    Found (PhoneSpan T) (composed T s) ↔ (∃ entry, .object entry ∈ s.workExperience ∧
        Found (PhoneSpan T) (lastHeader T entry ++ " (".toList ++ dateRange T entry)) ∨
      ∃ entry, .object entry ∈ s.education ∧
        Found (PhoneSpan T) (" ".toList.intercalate (educationBits T entry)) := by
  have hskills : ¬Found (PhoneSpan T) (", ".toList.intercalate (cleanSkills T s.skills)) := by
    refine not_found_skills composes_phone (fun a b => ?_) hclean
    rw [found_append_cons fun _ => phone_excludes (inPhone_eq_false (by decide) (by decide)),
      found_cons fun _ => phone_first (by decide) (by decide)]
  rw [composes_phone.composed, or_iff_right hskills]
  refine or_congr_left (exists_congr fun entry => and_congr_right fun hentry => ?_)
  refine found_segment_phone fun v hvalue => ?_
  exact hclean v (mem_usedValues_work hentry (by simp) hvalue)

end Verified

theorem no_false_alarm_iff (T : PythonText) (parsedJson : List (String × JsonValue))
    (s : Sections) (hsections : sections parsedJson = some s)
    (hclean : ∀ v ∈ usedValues T s, (verifyAnonymizedText T v).1 = true) :
    ∃ text, buildAnonymizedEmbeddingText T parsedJson = some text ∧
      ((verifyAnonymizedText T text).1 = true ↔ SeamsApart T s) := by
  refine ⟨composed T s, by rw [buildAnonymizedEmbeddingText, hsections]; rfl, ?_⟩
  simp only [verify_iff] at hclean
  rw [verify_iff, found_email_composed fun v hv => (hclean v hv).1,
    found_url_composed fun v hv => (hclean v hv).2.1,
    found_phone_composed fun v hv => (hclean v hv).2.2]
  constructor
  · rintro ⟨hemail, hurl, hphone⟩
    obtain ⟨hskills, hdates⟩ := not_or.mp hurl
    obtain ⟨hwork, heducation⟩ := not_or.mp hphone
    refine ⟨fun skill hskill hends => hskills ⟨skill, hskill, hends⟩,
      fun entry hentry => ⟨?_, ?_, ?_⟩, fun entry hentry => ?_⟩
    · exact Bool.eq_false_iff.mpr fun h => hwork ⟨entry, hentry, search_phonePattern.mp h⟩
    · exact Bool.eq_false_iff.mpr fun h =>
        hemail ⟨entry, hentry, (search_plain plain_emailPattern).mp h⟩
    · exact fun date hdate hends => hdates ⟨entry, hentry, date, hdate, hends⟩
    · exact Bool.eq_false_iff.mpr fun h => heducation ⟨entry, hentry, search_phonePattern.mp h⟩
  · rintro ⟨hskills, hwork, heducation⟩
    refine ⟨?_, ?_, ?_⟩
    · rintro ⟨entry, hentry, hfound⟩
      exact Bool.eq_false_iff.mp (hwork entry hentry).email
        ((search_plain plain_emailPattern).mpr hfound)
    · rintro (⟨skill, hskill, hends⟩ | ⟨entry, hentry, date, hdate, hends⟩)
      · exact hskills skill hskill hends
      · exact (hwork entry hentry).url date hdate hends
    · rintro (⟨entry, hentry, hfound⟩ | ⟨entry, hentry, hfound⟩)
      · exact Bool.eq_false_iff.mp (hwork entry hentry).phone (search_phonePattern.mpr hfound)
      · exact Bool.eq_false_iff.mp (heducation entry hentry) (search_phonePattern.mpr hfound)

def asciiText : PythonText := ⟨Char.isDigit, fun _ _ => rfl, fun _ => []⟩

def employed (startDate endDate : String) : List (String × JsonValue) :=
  [("work_experience", .array [.object [("title", .string "Engineer"),
    ("start_date", .string startDate), ("end_date", .string endDate)]])]

def employedSections (startDate endDate : String) : Sections :=
  ⟨[], [.object [("title", .string "Engineer"), ("start_date", .string startDate),
    ("end_date", .string endDate)]], []⟩

theorem no_false_alarm_iff_years :
    ∃ text, buildAnonymizedEmbeddingText asciiText (employed "2019" "2022") = some text ∧
      ((verifyAnonymizedText asciiText text).1 = true ↔
        SeamsApart asciiText (employedSections "2019" "2022")) :=
  no_false_alarm_iff asciiText (employed "2019" "2022") (employedSections "2019" "2022") rfl
    (by decide +kernel)

-- Two months make a number of the dash between them.
theorem months_taken_for_phone :
    ¬∀ (T : PythonText) (parsedJson : List (String × JsonValue)) (s : Sections),
      sections parsedJson = some s →
      (∀ v ∈ usedValues T s, (verifyAnonymizedText T v).1 = true) →
      ∃ text, buildAnonymizedEmbeddingText T parsedJson = some text ∧
        (verifyAnonymizedText T text).1 = true := by
  intro h
  obtain ⟨text, htext, haccepted⟩ := h asciiText (employed "2019-01" "2020-02")
    (employedSections "2019-01" "2020-02") rfl (by decide +kernel)
  have hbuilt : buildAnonymizedEmbeddingText asciiText (employed "2019-01" "2020-02") =
      some "Experience: Engineer (2019-01-2020-02)".toList := by decide +kernel
  cases htext.symm.trans hbuilt
  exact absurd haccepted (by decide +kernel)

end AnonymizedEmbeddingText

end AiHiring
