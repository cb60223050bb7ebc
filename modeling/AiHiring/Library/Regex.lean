import Mathlib.Data.List.Infix

namespace AiHiring.Library

-- Regular expressions of a backtracking matcher. The assertions look at one
-- neighbour only.
inductive Regex where
  | empty
  | char (p : Char → Bool)
  | seq (r s : Regex)
  | alt (r s : Regex)
  | many (r : Regex) (least : ℕ) (most : Option ℕ)
  | notBehind (p : Char → Bool)
  | notAhead (p : Char → Bool)
  | boundary (word : Char → Bool)

-- A place in a text: what stands before it, the nearest character first, and
-- what follows.
structure Place where
  (before after : List Char)
  deriving DecidableEq, Repr

namespace Place

def index (at_ : Place) : ℕ := at_.before.length

def start (text : List Char) : Place := ⟨[], text⟩

def text (at_ : Place) : List Char := at_.before.reverse ++ at_.after

def next : Place → Option Place
  | ⟨_, []⟩ => none
  | ⟨before, c :: after⟩ => some ⟨c :: before, after⟩

end Place

namespace Regex

-- Greedy repetition: first what goes on, then what stops. No expression of a
-- repetition matches the empty text, so the length of the text bounds it.
def manyEnds (step : Place → List Place) : ℕ → ℕ → Option ℕ → Place → List Place
  | 0, least, _, here => if least = 0 then [here] else []
  | fuel + 1, least, most, here =>
    (if most = some 0 then []
      else (step here).flatMap (manyEnds step fuel (least - 1) (most.map Nat.pred))) ++
    if least = 0 then [here] else []

-- Where a match that starts here may end, in the order in which the matcher
-- finds it.
def ends : Regex → Place → List Place
  | empty, here => [here]
  | char p, here =>
    match here.next with
    | some there => if there.before.head?.any p then [there] else []
    | none => []
  | seq r s, here => (ends r here).flatMap (ends s)
  | alt r s, here => ends r here ++ ends s here
  | many r least most, here => manyEnds (ends r) (here.after.length + 1) least most here
  | notBehind p, here => if here.before.head?.any p then [] else [here]
  | notAhead p, here => if here.after.head?.any p then [] else [here]
  | boundary word, here =>
    if here.before.head?.any word = here.after.head?.any word then [] else [here]

def seqs : List Regex → Regex
  | [] => empty
  | [r] => r
  | r :: rs => seq r (seqs rs)

def opt (r : Regex) : Regex := many r 0 (some 1)

def star (r : Regex) : Regex := many r 0 none

def plus (r : Regex) : Regex := many r 1 none

-- From here on: each match starts where the last one ended, or later.
def scan (r : Regex) : ℕ → Place → List (ℕ × ℕ)
  | 0, _ => []
  | fuel + 1, here =>
    match (ends r here).head? with
    | some there =>
      if here.index < there.index then (here.index, there.index) :: scan r fuel there
      else (here.next.map (scan r fuel)).getD []
    | none => (here.next.map (scan r fuel)).getD []

def finditer (r : Regex) (text : List Char) : List (ℕ × ℕ) :=
  scan r (text.length + 1) (Place.start text)

theorem text_of_mem_ite {p : Prop} [Decidable p] {here there : Place}
    (h : there ∈ if p then [here] else []) : there.text = here.text := by
  split at h
  · rw [List.mem_singleton.mp h]
  · simp at h

theorem manyEnds_text {step : Place → List Place}
    (hstep : ∀ here, ∀ there ∈ step here, there.text = here.text) (fuel least : ℕ)
    (most : Option ℕ) (here there : Place) (h : there ∈ manyEnds step fuel least most here) :
    there.text = here.text := by
  induction fuel generalizing here least most with
  | zero => exact text_of_mem_ite h
  | succ fuel ih =>
    rcases List.mem_append.mp h with hmore | hdone
    · split at hmore
      · simp at hmore
      · obtain ⟨between, hbetween, hrest⟩ := List.mem_flatMap.mp hmore
        exact (ih _ _ between hrest).trans (hstep here between hbetween)
    · exact text_of_mem_ite hdone

theorem ends_text (r : Regex) (here there : Place) (h : there ∈ ends r here) :
    there.text = here.text := by
  induction r generalizing here there with
  | empty => rw [List.mem_singleton.mp h]
  | char p =>
    rcases here with ⟨before, after⟩
    cases after with
    | nil => exact absurd h List.not_mem_nil
    | cons c after =>
      simp only [ends, Place.next] at h
      split at h
      · rw [List.mem_singleton.mp h]
        simp [Place.text]
      · simp at h
  | seq r s ihr ihs =>
    obtain ⟨between, hbetween, hrest⟩ := List.mem_flatMap.mp h
    exact (ihs between there hrest).trans (ihr here between hbetween)
  | alt r s ihr ihs =>
    rcases List.mem_append.mp h with hleft | hright
    · exact ihr here there hleft
    · exact ihs here there hright
  | many r least most ih => exact manyEnds_text ih _ _ _ here there h
  | notBehind p | notAhead p =>
    simp only [ends] at h
    split at h
    · simp at h
    · rw [List.mem_singleton.mp h]
  | boundary word =>
    simp only [ends] at h
    split at h
    · simp at h
    · rw [List.mem_singleton.mp h]

theorem scan_bounds (r : Regex) (fuel : ℕ) (here : Place) (m : ℕ × ℕ) (h : m ∈ scan r fuel here) :
    m.1 < m.2 ∧ m.2 ≤ here.text.length := by
  have hskip (fuel : ℕ) (ih : ∀ here, m ∈ scan r fuel here → m.1 < m.2 ∧ m.2 ≤ here.text.length)
      (here : Place) (h : m ∈ (here.next.map (scan r fuel)).getD []) :
      m.1 < m.2 ∧ m.2 ≤ here.text.length := by
    rcases here with ⟨before, after⟩
    cases after with
    | nil => exact absurd h List.not_mem_nil
    | cons c after =>
      have := ih ⟨c :: before, after⟩ h
      simpa [Place.text] using this
  induction fuel generalizing here with
  | zero => exact absurd h List.not_mem_nil
  | succ fuel ih =>
    simp only [scan] at h
    split at h
    · rename_i there hthere
      have htext := ends_text r here there (List.mem_of_mem_head? hthere)
      split at h
      · rename_i hmoves
        rcases List.mem_cons.mp h with rfl | hrest
        · refine ⟨hmoves, ?_⟩
          rw [← htext]
          simp [Place.text, Place.index]
        · rw [← htext]
          exact ih there hrest
      · exact hskip fuel ih here h
    · exact hskip fuel ih here h

theorem finditer_bounds {r : Regex} {text : List Char} {m : ℕ × ℕ} (h : m ∈ finditer r text) :
    m.1 < m.2 ∧ m.2 ≤ text.length :=
  scan_bounds r _ (Place.start text) m h

def Word : Regex → List Char → Prop
  | empty, w => w = []
  | char p, w => ∃ c, p c ∧ w = [c]
  | seq r s, w => ∃ u v, Word r u ∧ Word s v ∧ w = u ++ v
  | alt r s, w => Word r w ∨ Word s w
  | many r least most, w => ∃ parts : List (List Char), (∀ u ∈ parts, Word r u) ∧
      least ≤ parts.length ∧ (∀ m ∈ most, parts.length ≤ m) ∧ w = parts.flatten
  | notBehind _, _ => False
  | notAhead _, _ => False
  | boundary _, _ => False

-- No assertions, and no repetition of the empty word.
def Plain : Regex → Prop
  | empty => True
  | char _ => True
  | seq r s => Plain r ∧ Plain s
  | alt r s => Plain r ∧ Plain s
  | many r _ _ => Plain r ∧ ¬Word r []
  | notBehind _ => False
  | notAhead _ => False
  | boundary _ => False

-- The word stands between the two places.
def Reads (w : List Char) (here there : Place) : Prop :=
  here.after = w ++ there.after ∧ there.before = w.reverse ++ here.before

-- `re.search`, by whether it finds something.
def searchFrom (r : Regex) (before : List Char) : List Char → Bool
  | [] => !(ends r ⟨before, []⟩).isEmpty
  | c :: after => !(ends r ⟨before, c :: after⟩).isEmpty || searchFrom r (c :: before) after

def search (r : Regex) (text : List Char) : Bool := searchFrom r [] text

variable {r : Regex} {here there between : Place} {text u v w : List Char}

theorem reads_nil : Reads [] here there ↔ there = here := by
  rcases here with ⟨before, after⟩
  rcases there with ⟨before', after'⟩
  simp only [Reads, List.nil_append, List.reverse_nil, Place.mk.injEq]
  exact ⟨fun h => ⟨h.2, h.1.symm⟩, fun h => ⟨h.2.symm, h.1⟩⟩

theorem Reads.append (h : Reads u here between) (h' : Reads v between there) :
    Reads (u ++ v) here there := by
  refine ⟨?_, ?_⟩
  · rw [h.1, h'.1, List.append_assoc]
  · rw [h'.2, h.2, List.reverse_append, List.append_assoc]

theorem Reads.split (h : Reads (u ++ v) here there) :
    ∃ between, Reads u here between ∧ Reads v between there := by
  refine ⟨⟨u.reverse ++ here.before, v ++ there.after⟩, ⟨?_, rfl⟩, rfl, ?_⟩
  · rw [h.1, List.append_assoc]
  · rw [h.2, List.reverse_append, List.append_assoc]

theorem mem_manyEnds {step : Place → List Place} {word : List Char → Prop}
    (hstep : ∀ here there, there ∈ step here ↔ ∃ w, word w ∧ Reads w here there)
    (hne : ¬word []) (fuel least : ℕ) (most : Option ℕ) (here there : Place)
    (hfuel : here.after.length < fuel) :
    there ∈ manyEnds step fuel least most here ↔
      ∃ parts : List (List Char), (∀ u ∈ parts, word u) ∧ least ≤ parts.length ∧
        (∀ m ∈ most, parts.length ≤ m) ∧ Reads parts.flatten here there := by
  induction fuel generalizing here least most with
  | zero => exact absurd hfuel (Nat.not_lt_zero _)
  | succ fuel ih =>
    -- a word is not empty, so less is left after it
    have hshorter {u : List Char} {between : Place} (hu : word u)
        (hreads : Reads u here between) : between.after.length < fuel := by
      have hlength := congrArg List.length hreads.1
      rw [List.length_append] at hlength
      have hpos : 0 < u.length := List.length_pos_of_ne_nil fun hnil => hne (hnil ▸ hu)
      omega
    rw [manyEnds, List.mem_append]
    constructor
    · rintro (hmore | hdone)
      · split_ifs at hmore with hmost
        · simp at hmore
        · obtain ⟨between, hbetween, hrest⟩ := List.mem_flatMap.mp hmore
          obtain ⟨u, hu, hreads⟩ := (hstep here between).mp hbetween
          obtain ⟨parts, hparts, hleast, hatMost, hflatten⟩ :=
            (ih _ _ between (hshorter hu hreads)).mp hrest
          refine ⟨u :: parts, List.forall_mem_cons.mpr ⟨hu, hparts⟩, ?_, ?_, hreads.append hflatten⟩
          · rw [List.length_cons]
            omega
          · intro m hm
            obtain rfl := Option.mem_def.mp hm
            have hpred := hatMost m.pred rfl
            have hpos : m ≠ 0 := fun hzero => hmost (by rw [hzero])
            rw [List.length_cons]
            simp only [Nat.pred_eq_sub_one] at hpred
            omega
      · split_ifs at hdone with hleast
        · refine ⟨[], by simp, hleast.le, by simp, ?_⟩
          exact reads_nil.mpr (List.mem_singleton.mp hdone)
        · simp at hdone
    · rintro ⟨parts, hparts, hleast, hatMost, hreads⟩
      cases parts with
      | nil =>
        have hzero : least = 0 := Nat.le_zero.mp hleast
        rw [if_pos hzero]
        exact .inr (List.mem_singleton.mpr (reads_nil.mp hreads))
      | cons u parts =>
        obtain ⟨hu, hparts⟩ := List.forall_mem_cons.mp hparts
        obtain ⟨between, hfirst, hrest⟩ := Reads.split hreads
        have hmost : most ≠ some 0 := fun hzero =>
          absurd (hatMost 0 hzero) (by simp)
        rw [if_neg hmost]
        refine .inl (List.mem_flatMap.mpr
          ⟨between, (hstep here between).mpr ⟨u, hu, hfirst⟩, ?_⟩)
        refine (ih _ _ between (hshorter hu hfirst)).mpr ⟨parts, hparts, ?_, ?_, hrest⟩
        · rw [List.length_cons] at hleast
          omega
        · intro m hm
          obtain ⟨m', hm', rfl⟩ := Option.map_eq_some_iff.mp hm
          have hlength := hatMost m' hm'
          rw [List.length_cons] at hlength
          exact Nat.le_pred_of_lt hlength

theorem mem_ends (hr : Plain r) : there ∈ ends r here ↔ ∃ w, Word r w ∧ Reads w here there := by
  induction r generalizing here there with
  | empty =>
    rw [ends, List.mem_singleton]
    exact ⟨fun h => ⟨[], rfl, reads_nil.mpr h⟩, fun ⟨w, hw, h⟩ => reads_nil.mp (hw ▸ h)⟩
  | char p =>
    rcases here with ⟨before, after⟩
    constructor
    · intro h
      cases after with
      | nil => exact absurd h List.not_mem_nil
      | cons c after =>
        simp only [ends, Place.next] at h
        split at h
        · next hp =>
            obtain rfl := List.mem_singleton.mp h
            exact ⟨[c], ⟨c, hp, rfl⟩, rfl, rfl⟩
        · simp at h
    · rintro ⟨w, ⟨c, hp, rfl⟩, hafter, hbefore⟩
      rcases there with ⟨before', after'⟩
      simp only [List.singleton_append, List.reverse_singleton] at hafter hbefore
      rw [hafter, hbefore]
      simp [ends, Place.next, hp]
  | seq r s ihr ihs =>
    rw [ends, List.mem_flatMap]
    constructor
    · rintro ⟨between, hbetween, hthere⟩
      obtain ⟨u, hu, hreads⟩ := (ihr hr.1).mp hbetween
      obtain ⟨v, hv, hreads'⟩ := (ihs hr.2).mp hthere
      exact ⟨u ++ v, ⟨u, v, hu, hv, rfl⟩, hreads.append hreads'⟩
    · rintro ⟨w, ⟨u, v, hu, hv, rfl⟩, hreads⟩
      obtain ⟨between, hfirst, hrest⟩ := hreads.split
      exact ⟨between, (ihr hr.1).mpr ⟨u, hu, hfirst⟩, (ihs hr.2).mpr ⟨v, hv, hrest⟩⟩
  | alt r s ihr ihs =>
    rw [ends, List.mem_append, ihr hr.1, ihs hr.2]
    constructor
    · rintro (⟨w, hw, hreads⟩ | ⟨w, hw, hreads⟩)
      · exact ⟨w, .inl hw, hreads⟩
      · exact ⟨w, .inr hw, hreads⟩
    · rintro ⟨w, hw | hw, hreads⟩
      · exact .inl ⟨w, hw, hreads⟩
      · exact .inr ⟨w, hw, hreads⟩
  | many r least most ih =>
    rw [ends, mem_manyEnds (fun _ _ => ih hr.1) hr.2 _ _ _ _ _ (Nat.lt_succ_self _)]
    constructor
    · rintro ⟨parts, hparts, hleast, hmost, hreads⟩
      exact ⟨parts.flatten, ⟨parts, hparts, hleast, hmost, rfl⟩, hreads⟩
    · rintro ⟨w, ⟨parts, hparts, hleast, hmost, rfl⟩, hreads⟩
      exact ⟨parts, hparts, hleast, hmost, hreads⟩
  | notBehind p => exact absurd hr id
  | notAhead p => exact absurd hr id
  | boundary word => exact absurd hr id

theorem word_many_char {p : Char → Bool} {least : ℕ} :
    Word (many (char p) least none) w ↔ (∀ c ∈ w, p c) ∧ least ≤ w.length := by
  constructor
  · rintro ⟨parts, hparts, hleast, -, rfl⟩
    have hlength : parts.flatten.length = parts.length := by
      rw [List.length_flatten, List.map_congr_left (g := fun _ => 1)]
      · simp
      · intro u hu
        obtain ⟨c, -, rfl⟩ := hparts u hu
        rfl
    refine ⟨fun c hc => ?_, hlength ▸ hleast⟩
    obtain ⟨u, hu, hcu⟩ := List.mem_flatten.mp hc
    obtain ⟨d, hd, rfl⟩ := hparts u hu
    exact List.mem_singleton.mp hcu ▸ hd
  · rintro ⟨hall, hleast⟩
    refine ⟨w.map fun c => [c], ?_, by simpa using hleast, by simp, ?_⟩
    · intro u hu
      obtain ⟨c, hc, rfl⟩ := List.mem_map.mp hu
      exact ⟨c, hall c hc, rfl⟩
    · rw [← List.flatMap_def, List.flatMap_singleton']

theorem word_opt : Word (opt r) w ↔ w = [] ∨ Word r w := by
  constructor
  · rintro ⟨parts, hparts, -, hmost, rfl⟩
    cases parts with
    | nil => exact .inl rfl
    | cons u parts =>
      obtain ⟨hu, -⟩ := List.forall_mem_cons.mp hparts
      have hlength := hmost 1 rfl
      rw [List.length_cons] at hlength
      obtain rfl : parts = [] := List.length_eq_zero_iff.mp (by omega)
      exact .inr (by simpa using hu)
  · rintro (rfl | hw)
    · exact ⟨[], by simp, le_rfl, by simp, rfl⟩
    · exact ⟨[w], by simpa using hw, Nat.zero_le _, by simp, by simp⟩

-- Every character that the expression takes is one of these.
def Within (p : Char → Prop) : Regex → Prop
  | char q => ∀ c, q c → p c
  | seq r s => Within p r ∧ Within p s
  | alt r s => Within p r ∧ Within p s
  | many r _ _ => Within p r
  | _ => True

theorem Within.word {p : Char → Prop} (hr : Within p r) (hw : Word r w) : ∀ c ∈ w, p c := by
  induction r generalizing w with
  | empty =>
    obtain rfl : w = [] := hw
    exact fun c hc => absurd hc List.not_mem_nil
  | char q =>
    obtain ⟨d, hd, rfl⟩ := hw
    intro c hc
    exact List.mem_singleton.mp hc ▸ hr d hd
  | seq r s ihr ihs =>
    obtain ⟨u, v, hu, hv, rfl⟩ := hw
    intro c hc
    exact (List.mem_append.mp hc).elim (ihr hr.1 hu c) (ihs hr.2 hv c)
  | alt r s ihr ihs => exact hw.elim (ihr hr.1) (ihs hr.2)
  | many r least most ih =>
    obtain ⟨parts, hparts, -, -, rfl⟩ := hw
    intro c hc
    obtain ⟨u, hu, hcu⟩ := List.mem_flatten.mp hc
    exact ih hr (hparts u hu) c hcu
  | notBehind q => exact absurd hw id
  | notAhead q => exact absurd hw id
  | boundary word => exact absurd hw id

theorem plain_seqs {rs : List Regex} (h : ∀ r ∈ rs, Plain r) : Plain (seqs rs) := by
  induction rs with
  | nil => trivial
  | cons r rs ih =>
    obtain ⟨hr, hrs⟩ := List.forall_mem_cons.mp h
    cases rs with
    | nil => exact hr
    | cons s rs => exact ⟨hr, ih hrs⟩

theorem within_seqs {p : Char → Prop} {rs : List Regex} (h : ∀ r ∈ rs, Within p r) :
    Within p (seqs rs) := by
  induction rs with
  | nil => trivial
  | cons r rs ih =>
    obtain ⟨hr, hrs⟩ := List.forall_mem_cons.mp h
    cases rs with
    | nil => exact hr
    | cons s rs => exact ⟨hr, ih hrs⟩

theorem mem_ends_guarded {p q : Char → Bool} (hr : Plain r) :
    there ∈ ends (seqs [notBehind p, r, notAhead q]) here ↔
      here.before.head?.any p = false ∧ there.after.head?.any q = false ∧
        ∃ w, Word r w ∧ Reads w here there := by
  simp only [seqs, ends, List.mem_flatMap]
  constructor
  · rintro ⟨first, hfirst, between, hbetween, hthere⟩
    split_ifs at hfirst with hbehind
    · simp at hfirst
    · split_ifs at hthere with hahead
      · simp at hthere
      · obtain rfl := List.mem_singleton.mp hfirst
        obtain rfl := List.mem_singleton.mp hthere
        exact ⟨Bool.eq_false_iff.mpr hbehind, Bool.eq_false_iff.mpr hahead,
          (mem_ends hr).mp hbetween⟩
  · rintro ⟨hbehind, hahead, hword⟩
    refine ⟨here, ?_, there, (mem_ends hr).mpr hword, ?_⟩
    · simp [hbehind]
    · simp [hahead]

theorem searchFrom_iff (before after : List Char) : searchFrom r before after = true ↔
    ∃ u v, after = u ++ v ∧ ends r ⟨u.reverse ++ before, v⟩ ≠ [] := by
  induction after generalizing before with
  | nil =>
    simp only [searchFrom, Bool.not_eq_true', List.isEmpty_eq_false_iff]
    constructor
    · exact fun h => ⟨[], [], rfl, h⟩
    · rintro ⟨u, v, hnil, h⟩
      obtain ⟨rfl, rfl⟩ := List.append_eq_nil_iff.mp hnil.symm
      exact h
  | cons c after ih =>
    simp only [searchFrom, Bool.or_eq_true, Bool.not_eq_true', List.isEmpty_eq_false_iff, ih]
    constructor
    · rintro (h | ⟨u, v, rfl, h⟩)
      · exact ⟨[], c :: after, rfl, h⟩
      · exact ⟨c :: u, v, rfl, by simpa using h⟩
    · rintro ⟨u, v, hsplit, h⟩
      cases u with
      | nil =>
        obtain rfl : c :: after = v := hsplit
        exact .inl h
      | cons d u =>
        obtain ⟨rfl, rfl⟩ := List.cons_eq_cons.mp hsplit
        exact .inr ⟨u, v, rfl, by simpa using h⟩

theorem search_iff : search r text = true ↔ ∃ u v, text = u ++ v ∧ ends r ⟨u.reverse, v⟩ ≠ [] := by
  simp only [search, searchFrom_iff, List.append_nil]

end Regex

section Found

def Found (word : List Char → Prop) (text : List Char) : Prop := ∃ w, word w ∧ w <:+: text

variable {word word' : List Char → Prop} {a b text w : List Char} {c : Char}

theorem Regex.search_plain {r : Regex} (hr : Regex.Plain r) :
    Regex.search r text = true ↔ Found (Regex.Word r) text := by
  rw [Regex.search_iff]
  constructor
  · rintro ⟨u, v, rfl, hends⟩
    obtain ⟨there, hthere⟩ := List.exists_mem_of_ne_nil _ hends
    obtain ⟨w, hw, hafter, -⟩ := (Regex.mem_ends hr).mp hthere
    exact ⟨w, hw, u, there.after, by rw [List.append_assoc, ← hafter]⟩
  · rintro ⟨w, hw, u, v, rfl⟩
    have hends : (⟨w.reverse ++ u.reverse, v⟩ : Place) ∈ Regex.ends r ⟨u.reverse, w ++ v⟩ :=
      (Regex.mem_ends hr).mpr ⟨w, hw, rfl, rfl⟩
    exact ⟨u, w ++ v, List.append_assoc _ _ _, List.ne_nil_of_mem hends⟩

theorem Found.mono (h : Found word a) (hpart : a <:+: b) : Found word b := by
  obtain ⟨w, hw, hfound⟩ := h
  exact ⟨w, hw, hfound.trans hpart⟩

theorem found_congr (h : ∀ w, word w → Found word' w) (h' : ∀ w, word' w → Found word w) :
    Found word text ↔ Found word' text := by
  constructor
  · rintro ⟨w, hw, hpart⟩
    exact (h w hw).mono hpart
  · rintro ⟨w, hw, hpart⟩
    exact (h' w hw).mono hpart

theorem found_or (h : ∀ w, word w → w <:+: text → w <:+: a ∨ w <:+: b) (ha : a <:+: text)
    (hb : b <:+: text) : Found word text ↔ Found word a ∨ Found word b := by
  constructor
  · rintro ⟨w, hw, hpart⟩
    exact (h w hw hpart).imp (fun hfound => ⟨w, hw, hfound⟩) fun hfound => ⟨w, hw, hfound⟩
  · rintro (hfound | hfound)
    · exact hfound.mono ha
    · exact hfound.mono hb

theorem infix_or_of_not_mem (hc : c ∉ w) (h : w <:+: a ++ c :: b) : w <:+: a ∨ w <:+: b := by
  induction a with
  | nil =>
    obtain hprefix | hpart := List.infix_cons_iff.mp h
    · cases w with
      | nil => exact .inl List.nil_infix
      | cons d w =>
        obtain ⟨rfl, -⟩ := List.cons_prefix_cons.mp hprefix
        exact absurd List.mem_cons_self hc
    · exact .inr hpart
  | cons d a ih =>
    rw [List.cons_append] at h
    obtain hprefix | hpart := List.infix_cons_iff.mp h
    · have hhere : d :: a <+: d :: (a ++ c :: b) := List.prefix_append (d :: a) (c :: b)
      obtain hshort | ⟨rest, rfl⟩ := List.prefix_or_prefix_of_prefix hprefix hhere
      · exact .inl hshort.isInfix
      · cases rest with
        | nil => exact .inl (by rw [List.append_nil])
        | cons e rest =>
          have hrest : e :: rest <+: c :: b :=
            (List.prefix_append_right_inj (d :: a)).mp hprefix
          obtain ⟨rfl, -⟩ := List.cons_prefix_cons.mp hrest
          exact absurd (List.mem_append_right _ List.mem_cons_self) hc
    · exact (ih hpart).imp_left fun hfound => hfound.trans (List.suffix_cons d a).isInfix

theorem infix_concat_or {stub : List Char} {d : Char} (hc : c ∉ stub)
    (h : stub ++ [d] <:+: a ++ c :: b) :
    stub ++ [d] <:+: a ∨ stub ++ [d] <:+: b ∨ d = c ∧ stub <:+ a := by
  by_cases hd : d = c
  · obtain ⟨p, q, hpq⟩ := h
    have hsplit : (p ++ stub) ++ d :: q = a ++ c :: b := by
      rw [← hpq]
      simp
    obtain ⟨t, rfl, ht⟩ | ⟨t, ha, hb⟩ := List.append_eq_append_iff.mp hsplit
    · cases t with
      | nil => exact .inr (.inr ⟨hd, by simp⟩)
      | cons e t =>
        obtain ⟨rfl, -⟩ := List.cons_eq_cons.mp ht
        exact .inl ⟨p, t, by simp⟩
    · cases t with
      | nil =>
        rw [List.append_nil] at ha
        exact .inr (.inr ⟨hd, p, ha⟩)
      | cons e t =>
        obtain ⟨rfl, rfl⟩ := List.cons_eq_cons.mp hb
        have hstub : stub <:+ a ++ c :: t := ha ▸ List.suffix_append p stub
        obtain hinside | houtside :=
          List.suffix_or_suffix_of_suffix hstub (List.suffix_append a (c :: t))
        · obtain rfl | ⟨s, rfl⟩ := List.suffix_cons_iff.mp hinside
          · exact absurd List.mem_cons_self hc
          · exact .inr (.inl ⟨s, q, by simp⟩)
        · exact absurd (houtside.mem List.mem_cons_self) hc
  · have hnot : c ∉ stub ++ [d] := by
      rw [List.mem_append, List.mem_singleton]
      exact fun hmem => hmem.elim hc fun heq => hd heq.symm
    exact (infix_or_of_not_mem hnot h).imp_right .inl

theorem found_append_cons (h : ∀ w, word w → c ∉ w) :
    Found word (a ++ c :: b) ↔ Found word a ∨ Found word b :=
  found_or (fun w hw => infix_or_of_not_mem (h w hw)) (List.prefix_append _ _).isInfix
    ((List.suffix_cons c b).trans (List.suffix_append a (c :: b))).isInfix

theorem found_cons_of_not_mem (hnil : ¬Found word []) (h : ∀ w, word w → c ∉ w) :
    Found word (c :: b) ↔ Found word b := by
  have hsides := found_append_cons (a := []) (b := b) h
  rwa [List.nil_append, or_iff_right hnil] at hsides

theorem found_cons (h : ∀ w, word w → ∃ d, w.head? = some d ∧ d ≠ c) :
    Found word (c :: b) ↔ Found word b := by
  constructor
  · rintro ⟨w, hw, hpart⟩
    obtain ⟨d, hd, hne⟩ := h w hw
    obtain hprefix | hrest := List.infix_cons_iff.mp hpart
    · cases w with
      | nil => simp at hd
      | cons e w =>
        obtain ⟨rfl, -⟩ := List.cons_prefix_cons.mp hprefix
        exact absurd (Option.some.inj hd).symm hne
    · exact ⟨w, hw, hrest⟩
  · exact fun hfound => hfound.mono (List.suffix_cons c b).isInfix

theorem found_concat (h : ∀ w, word w → ∃ d, w.getLast? = some d ∧ d ≠ c) :
    Found word (a ++ [c]) ↔ Found word a := by
  constructor
  · rintro ⟨w, hw, hpart⟩
    obtain ⟨d, hd, hne⟩ := h w hw
    obtain hsuffix | hrest := List.infix_concat_iff.mp hpart
    · obtain ⟨u, hu⟩ := hsuffix
      have hlast := congrArg List.getLast? hu
      rw [List.getLast?_append, hd, List.getLast?_concat] at hlast
      exact absurd (Option.some.inj hlast) hne
    · exact ⟨w, hw, hrest⟩
  · exact fun hfound => hfound.mono (List.prefix_append a [c]).isInfix

-- A separator between values: something is found in one of them, or at the end of one that
-- is followed.
theorem found_intercalate {sep : List Char} (followed : List Char → Prop) (hnil : ¬Found word [])
    (hsep : ∀ a b, Found word (a ++ sep ++ b) ↔ Found word a ∨ Found word b ∨ followed a)
    (values : List (List Char)) :
    Found word (sep.intercalate values) ↔
      (∃ v ∈ values, Found word v) ∨ ∃ v ∈ values.dropLast, followed v := by
  induction values with
  | nil => simpa using hnil
  | cons first rest ih =>
    cases rest with
    | nil => simp
    | cons second rest =>
      rw [List.intercalate_cons_cons, hsep, ih, List.dropLast_cons_cons]
      simp only [List.exists_mem_cons_iff, or_assoc, or_left_comm, or_comm]

theorem not_found (marked : Char → Prop) (h : ∀ w, word w → ∃ c ∈ w, marked c)
    (htext : ∀ c ∈ text, ¬marked c) : ¬Found word text := by
  rintro ⟨w, hw, hpart⟩
  obtain ⟨c, hc, hmarked⟩ := h w hw
  exact htext c (hpart.subset hc) hmarked

end Found

end AiHiring.Library
