import AiHiring.Library.Labels
import AiHiring.Skills.Hierarchy
import AiHiring.Jd.Verification

namespace AiHiring

open Library

-- The tiers of `_match_skill` that compare texts; `lower` is `str.lower`.
namespace SkillNormalizationService

def matchExact (rawText : String) (catalog : List SkillOntology) : Option SkillOntology :=
  catalog.find? fun skill => skill.canonicalName = rawText

def matchAlias (rawText : String) (catalog : List SkillOntology) : Option SkillOntology :=
  catalog.find? fun skill => rawText ∈ skill.aliases

def matchCaseInsensitive (lower : String → String) (rawText : String)
    (catalog : List SkillOntology) : Option SkillOntology :=
  catalog.find? fun skill =>
    lower skill.canonicalName = lower rawText ∨ ∃ given ∈ skill.aliases, lower given = lower rawText

end SkillNormalizationService

-- `list_active_skills`
def SkillOntologyRepository.listActiveSkills (t : SkillOntologyTable) : List SkillOntology :=
  t.skills.rows.filter SkillOntology.isActive

def textsOf (lower : String → String) (canonicalName : String) (aliases : List String) :
    List String :=
  lower canonicalName :: aliases.map lower

def SkillOntology.texts (lower : String → String) (skill : SkillOntology) : List String :=
  textsOf lower skill.canonicalName skill.aliases

namespace SkillOntologyTable

open SkillOntologyRepository SkillNormalizationService

variable (lower : String → String) (t : SkillOntologyTable)

-- No text is a canonical name or alias of two different skills.
def Unambiguous : Prop := ClearLabels SkillOntology.id (SkillOntology.texts lower) t.skills.rows

-- Every match by text is the same in whatever order the catalog is loaded.
def OrderIndependent : Prop :=
  ∀ catalog, catalog.Perm (listActiveSkills t) → ∀ rawText,
    matchExact rawText catalog = matchExact rawText (listActiveSkills t) ∧
    matchAlias rawText catalog = matchAlias rawText (listActiveSkills t) ∧
    matchCaseInsensitive lower rawText catalog =
      matchCaseInsensitive lower rawText (listActiveSkills t)

structure NamesClear : Prop where
  unambiguous : t.Unambiguous lower
  independent : t.OrderIndependent lower

variable {lower t}

theorem Unambiguous.orderIndependent (h : t.Unambiguous lower) : t.OrderIndependent lower := by
  intro catalog hperm rawText
  have hactive : ∀ r ∈ catalog, r ∈ t.skills.rows := by
    intro r hr
    exact (List.mem_filter.mp (hperm.mem_iff.mp hr)).1
  have hclear : ClearLabels SkillOntology.id (SkillOntology.texts lower) catalog :=
    ClearLabels.subset h hactive
  have hkey : ∀ r ∈ catalog, ∀ s ∈ catalog, r.id = s.id → r = s := by
    intro r hr s hs hid
    exact t.skills.eq_of_key_eq (hactive r hr) (hactive s hs) hid
  have hname (r : SkillOntology) (hr : lower r.canonicalName = lower rawText) :
      lower rawText ∈ r.texts lower := by
    rw [← hr]
    exact List.mem_cons_self
  have halias (r : SkillOntology) (hr : ∃ given ∈ r.aliases, lower given = lower rawText) :
      lower rawText ∈ r.texts lower := by
    exact List.mem_cons_of_mem _ (List.mem_map.mpr hr)
  refine ⟨?_, ?_, ?_⟩
  · refine hclear.find?_perm hkey hperm (lower rawText) _ fun r _ hr => ?_
    exact hname r (congrArg lower (of_decide_eq_true hr))
  · refine hclear.find?_perm hkey hperm (lower rawText) _ fun r _ hr => ?_
    exact halias r ⟨rawText, of_decide_eq_true hr, rfl⟩
  · refine hclear.find?_perm hkey hperm (lower rawText) _ fun r _ hr => ?_
    exact (of_decide_eq_true hr).elim (hname r) (halias r)

theorem namesClear_iff : t.NamesClear lower ↔ t.Unambiguous lower := by
  constructor
  · intro h
    exact h.unambiguous
  · intro h
    exact ⟨h, h.orderIndependent⟩

-- The aliases, told by the canonical names.
def aliasesOf (t : SkillOntologyTable) (name : String) : Option (List String) :=
  (getByCanonicalNameExact t name).map SkillOntology.aliases

theorem aliasesOf_eq_some (name : String) (aliases : List String) :
    t.aliasesOf name = some aliases ↔
      ∃ r ∈ t.skills.rows, r.canonicalName = name ∧ r.aliases = aliases := by
  simp only [aliasesOf, Option.map_eq_some_iff, getByCanonicalNameExact_eq_some, and_assoc]

-- No two names of a directory share a text.
def ClearDirectory (lower : String → String) (directory : String → Option (List String)) : Prop :=
  ∀ name other aliases others, directory name = some aliases → directory other = some others →
    name ≠ other → List.Disjoint (textsOf lower name aliases) (textsOf lower other others)

theorem unambiguous_iff_directory : t.Unambiguous lower ↔ ClearDirectory lower t.aliasesOf := by
  constructor
  · intro h name other aliases others hname hother hne
    obtain ⟨r, hr, rfl, rfl⟩ := (aliasesOf_eq_some name aliases).mp hname
    obtain ⟨s, hs, rfl, rfl⟩ := (aliasesOf_eq_some other others).mp hother
    refine h r hr s hs fun hid => hne ?_
    rw [t.skills.eq_of_key_eq hr hs hid]
  · intro h r hr s hs hid
    refine h r.canonicalName s.canonicalName r.aliases s.aliases
      ((aliasesOf_eq_some _ _).mpr ⟨r, hr, rfl, rfl⟩)
      ((aliasesOf_eq_some _ _).mpr ⟨s, hs, rfl, rfl⟩) fun hname => hid ?_
    rw [t.uqCanonicalName r hr s hs hname]

section Writes

variable {t' : SkillOntologyTable} {skill : SkillOntology}

-- The other skills have none of these texts.
def FreeFor (lower : String → String) (t : SkillOntologyTable) (skillId : Uuid)
    (texts : List String) : Prop :=
  ∀ r ∈ t.skills.rows, r.id ≠ skillId → List.Disjoint (r.texts lower) texts

theorem createSkill_unambiguous (hclear : t.Unambiguous lower) (h : createSkill t skill = .ok t') :
    t'.Unambiguous lower ↔ FreeFor lower t skill.id (skill.texts lower) := by
  have hwrote := wrote_createSkill t t' skill h
  have hwritten : WrittenRow SkillOntology.id t.skills.rows t'.skills.rows skill :=
    ⟨hwrote.stored, hwrote.only, hwrote.kept⟩
  exact hwritten.clearLabels_iff hclear

theorem updateSkill_unambiguous (hclear : t.Unambiguous lower) {old : SkillOntology}
    (hold : old ∈ t.skills.rows) (hid : old.id = skill.id) (h : updateSkill t skill = .ok t') :
    t'.Unambiguous lower ↔ FreeFor lower t skill.id (skill.texts lower) := by
  obtain ⟨-, -, hskills⟩ := updateSkill_ok t t' skill h
  have hmem (r : SkillOntology) := t.skills.mem_replace skill r
  have hwritten : WrittenRow SkillOntology.id t.skills.rows t'.skills.rows skill := by
    rw [hskills]
    refine ⟨(hmem skill).mpr (.inr ⟨rfl, old, hold, hid⟩), ?_, ?_⟩
    · intro r hr
      obtain hkept | ⟨hnew, -⟩ := (hmem r).mp hr
      · exact .inr hkept
      · exact .inl hnew
    · intro r hr hne
      exact (hmem r).mpr (.inl ⟨hr, hne⟩)
  exact hwritten.clearLabels_iff hclear

theorem freeFor_congr {skillId : Uuid} {name : String} {aliases aliases' : List String}
    (h : ∀ given, given ∈ aliases ↔ given ∈ aliases') :
    FreeFor lower t skillId (textsOf lower name aliases) ↔
      FreeFor lower t skillId (textsOf lower name aliases') := by
  have hsame (x : String) : x ∈ textsOf lower name aliases ↔ x ∈ textsOf lower name aliases' := by
    simp only [textsOf, List.mem_cons, List.mem_map, h]
  simp only [FreeFor, List.disjoint_right, hsame]

end Writes

end SkillOntologyTable

section Requests

open SkillOntologyRepository SkillOntologyService

variable {t t' : SkillOntologyTable}

-- A new skill that the service creates.
structure SkillCreateRequest.Accepted (t : SkillOntologyTable) (request : SkillCreateRequest) :
    Prop where
  named : strip request.canonicalName ≠ ""
  new : strip request.canonicalName ∉ t.names
  parent : ∀ p ∈ request.parentSkillId, p ∈ t.ids

theorem createSkill_accepted {request : SkillCreateRequest}
    (h : SkillOntologyService.createSkill t request = .ok t') :
    request.Accepted t ∧
      SkillOntologyRepository.createSkill t (newSkill t.skills.next request) = .ok t' := by
  simp only [SkillOntologyService.createSkill, raise_eq_ok] at h
  obtain ⟨hnamed, hnew, h⟩ := h
  have hname : strip request.canonicalName ∉ t.names :=
    (t.getByCanonicalNameExact_eq_none _).mp (by simpa using hnew)
  cases hparent : request.parentSkillId with
  | none =>
    simp only [hparent] at h
    exact ⟨⟨hnamed, hname, by simp [hparent]⟩, h⟩
  | some parentSkillId =>
    simp only [hparent, raise_eq_ok] at h
    obtain ⟨hfound, h⟩ := h
    obtain ⟨parent, hrow⟩ := Option.ne_none_iff_exists'.mp (by simpa using hfound)
    have hmem := mem_ids_of_getSkillById t parentSkillId parent hrow
    refine ⟨⟨hnamed, hname, ?_⟩, h⟩
    intro p hp
    rw [hparent] at hp
    exact Option.some.inj hp ▸ hmem

theorem SkillCreateRequest.Accepted.creates {request : SkillCreateRequest}
    (h : request.Accepted t) : ∃ t', SkillOntologyService.createSkill t request = .ok t' := by
  have hnew := (t.getByCanonicalNameExact_eq_none _).mpr h.new
  have hpk : (newSkill t.skills.next request).id ∉ t.ids := by
    intro hmem
    obtain ⟨row, hrow, hid⟩ := List.mem_map.mp hmem
    have hlt : row.id < t.skills.next := t.skills.below row hrow
    exact absurd hid hlt.ne
  have huq : ∀ r ∈ t.skills.rows,
      r.canonicalName ≠ (newSkill t.skills.next request).canonicalName :=
    fun r hr hsame => h.new (List.mem_map.mpr ⟨r, hr, hsame⟩)
  have hwrite (hfk : parentIn t.ids request.parentSkillId = true) :=
    createSkill_total t (newSkill t.skills.next request) hpk huq
      (parentIn_mono _ _ _ (List.subset_cons_self _ _) hfk)
  simp only [SkillOntologyService.createSkill, if_neg h.named, hnew, Option.isSome_none,
    Bool.false_eq_true, if_false]
  cases hparent : request.parentSkillId with
  | none => exact hwrite (by rw [hparent]; rfl)
  | some parentSkillId =>
    have hmem : parentSkillId ∈ t.ids := h.parent parentSkillId hparent
    obtain ⟨parent, hrow, hid⟩ := List.mem_map.mp hmem
    have hfound : getSkillById t parentSkillId = some parent :=
      (t.skills.find?_eq_some _ _).mpr ⟨hrow, hid⟩
    simp only [hfound, Option.isNone_some, Bool.false_eq_true, if_false]
    refine hwrite ?_
    rw [hparent]
    exact decide_eq_true hmem

-- The aliases of a field of the body, as they are cleaned; a missing one has none.
def givenAliases (field : Option (Option (List String))) : List String :=
  cleanAliases (field.join.getD [])

-- The name and the aliases that an update asks for.
def requestedName (skill : SkillOntology) (request : SkillOntologyUpdateRequest) : String :=
  match request.canonicalName.join with
  | some canonicalName => strip canonicalName
  | none => skill.canonicalName

def requestedAliases (skill : SkillOntology) (request : SkillOntologyUpdateRequest) :
    List String :=
  (skill.aliases ++ givenAliases request.aliases).filter fun given =>
    given ∉ givenAliases request.removeAliases

-- An update that the service makes of this skill.
structure SkillOntologyUpdateRequest.Accepted (t : SkillOntologyTable) (affected : String → ℕ)
    (skill : SkillOntology) (request : SkillOntologyUpdateRequest) : Prop where
  name : ∀ field ∈ request.canonicalName, ∃ canonicalName ∈ field, strip canonicalName ≠ "" ∧
    ∀ r ∈ t.skills.rows, r.canonicalName = strip canonicalName → r.id = skill.id
  aliases : ∀ given ∈ givenAliases request.aliases, given ∉ skill.aliases →
    ∀ r ∈ t.skills.rows, r.id ≠ skill.id → given ∉ r.aliases
  removal : request.confirmAliasRemoval = true ∨ ∀ given ∈ givenAliases request.removeAliases,
      given ∈ skill.aliases ++ givenAliases request.aliases → affected given = 0
  parent : ∃ parent, updatedParent t skill request.parentSkillId = .ok parent
  confidence : request.confidence ≠ some none
  isActive : request.isActive ≠ some none

section Merge

variable {skill : SkillOntology} {affected : String → ℕ}

theorem findSkillByAlias_eq_none (given : String) (excludeId : Uuid) :
    findSkillByAlias t given excludeId = none ↔
      ∀ r ∈ t.skills.rows, r.id ≠ excludeId → given ∉ r.aliases := by
  rw [findSkillByAlias, List.find?_eq_none]
  constructor
  · intro h r hr hne hin
    exact h r hr (decide_eq_true ⟨hin, hne⟩)
  · intro h r hr hfound
    obtain ⟨hin, hne⟩ := of_decide_eq_true hfound
    exact h r hr hne hin

theorem mergeAliases_ok {current merged : List String} {incoming : Option (List String)}
    (h : mergeAliases t skill current incoming = .ok merged) :
    (∀ given ∈ cleanAliases (incoming.getD []), given ∉ current →
      ∀ r ∈ t.skills.rows, r.id ≠ skill.id → given ∉ r.aliases) ∧
    ∀ given, given ∈ merged ↔ given ∈ current ++ cleanAliases (incoming.getD []) := by
  unfold mergeAliases at h
  generalize cleanAliases (incoming.getD []) = cleaned at h ⊢
  induction cleaned generalizing current with
  | nil =>
    obtain rfl := (foldlM_nil_eq_ok _ _ _).mp h
    refine ⟨fun given hgiven => absurd hgiven List.not_mem_nil, fun given => ?_⟩
    rw [List.append_nil]
  | cons first rest ih =>
    rw [foldlM_cons_eq_ok] at h
    obtain ⟨next, hfirst, hrest⟩ := h
    obtain ⟨hfree, hmem⟩ := ih hrest
    by_cases hin : first ∈ current
    · rw [if_pos hin] at hfirst
      cases hfirst
      refine ⟨?_, fun given => ?_⟩
      · intro given hgiven hnew
        obtain rfl | hgiven := List.mem_cons.mp hgiven
        · exact absurd hin hnew
        · exact hfree given hgiven hnew
      · rw [hmem, List.mem_append, List.mem_append, List.mem_cons]
        have hsame : given = first → given ∈ current := fun heq => heq ▸ hin
        tauto
    · rw [if_neg hin] at hfirst
      cases hfound : findSkillByAlias t first skill.id with
      | some conflicting =>
        rw [hfound] at hfirst
        cases hfirst
      | none =>
        rw [hfound] at hfirst
        cases hfirst
        have hfirst' := (findSkillByAlias_eq_none first skill.id).mp hfound
        refine ⟨?_, fun given => ?_⟩
        · intro given hgiven hnew
          by_cases heq : given = first
          · exact heq ▸ hfirst'
          · have hrest := (List.mem_cons.mp hgiven).resolve_left heq
            refine hfree given hrest ?_
            simp [hnew, heq]
        · rw [hmem]
          simp only [List.mem_append, List.mem_cons, List.not_mem_nil, or_false, or_assoc]

theorem mergeAliases_total {current : List String} {incoming : Option (List String)}
    (h : ∀ given ∈ cleanAliases (incoming.getD []), given ∉ current →
      ∀ r ∈ t.skills.rows, r.id ≠ skill.id → given ∉ r.aliases) :
    ∃ merged, mergeAliases t skill current incoming = .ok merged := by
  unfold mergeAliases
  generalize cleanAliases (incoming.getD []) = cleaned at h ⊢
  induction cleaned generalizing current with
  | nil => exact ⟨current, rfl⟩
  | cons first rest ih =>
    have hlater {next : List String} (hsub : current ⊆ next) : ∀ given ∈ rest, given ∉ next →
        ∀ r ∈ t.skills.rows, r.id ≠ skill.id → given ∉ r.aliases := by
      intro given hgiven hnew
      exact h given (List.mem_cons_of_mem _ hgiven) fun hin => hnew (hsub hin)
    by_cases hin : first ∈ current
    · obtain ⟨merged, hmerged⟩ := ih (hlater (List.Subset.refl current))
      refine ⟨merged, (foldlM_cons_eq_ok _ _ _ _ _).mpr ⟨current, ?_, hmerged⟩⟩
      rw [if_pos hin]
    · obtain ⟨merged, hmerged⟩ := ih (hlater (List.subset_append_left current [first]))
      refine ⟨merged, (foldlM_cons_eq_ok _ _ _ _ _).mpr ⟨current ++ [first], ?_, hmerged⟩⟩
      have hfree := (findSkillByAlias_eq_none first skill.id).mpr (h first List.mem_cons_self hin)
      rw [if_neg hin, hfree]

theorem removeAliases_ok {current left : List String} {toRemove : Option (List String)}
    {confirmed : Bool} (h : removeAliases affected current toRemove confirmed = .ok left) :
    (confirmed = true ∨ ∀ given ∈ cleanAliases (toRemove.getD []), given ∈ current →
      affected given = 0) ∧
    ∀ given, given ∈ left ↔ given ∈ current ∧ given ∉ cleanAliases (toRemove.getD []) := by
  unfold removeAliases at h
  generalize cleanAliases (toRemove.getD []) = cleaned at h ⊢
  dsimp only at h
  split_ifs at h with hnone hwarn
  · cases h
    have hapart : ∀ given ∈ cleaned, given ∉ current := by
      simpa [List.filter_eq_nil_iff] using hnone
    refine ⟨.inr fun given hgiven hin => absurd hin (hapart given hgiven), fun given => ?_⟩
    exact ⟨fun hin => ⟨hin, fun hgiven => hapart given hgiven hin⟩, fun h => h.1⟩
  · cases h
    refine ⟨?_, fun given => ?_⟩
    · by_cases hconfirmed : confirmed = true
      · exact .inl hconfirmed
      · refine .inr fun given hgiven hin => ?_
        by_contra hpos
        refine hwarn ⟨List.ne_nil_of_mem (a := given) ?_, by simpa using hconfirmed⟩
        simp only [List.mem_filter, decide_eq_true_eq]
        exact ⟨⟨hgiven, hin⟩, by omega⟩
    · simp only [List.mem_filter, decide_eq_true_eq]
      tauto

theorem removeAliases_total {current : List String} {toRemove : Option (List String)}
    {confirmed : Bool} (h : confirmed = true ∨ ∀ given ∈ cleanAliases (toRemove.getD []),
      given ∈ current → affected given = 0) :
    ∃ left, removeAliases affected current toRemove confirmed = .ok left := by
  unfold removeAliases
  generalize cleanAliases (toRemove.getD []) = cleaned at h ⊢
  dsimp only
  split_ifs with hnone hwarn
  · exact ⟨current, rfl⟩
  · obtain ⟨hne, hconfirmed⟩ := hwarn
    obtain ⟨given, hgiven⟩ := List.exists_mem_of_ne_nil _ hne
    simp only [List.mem_filter, decide_eq_true_eq] at hgiven
    have hzero := h.resolve_left (by simpa using hconfirmed) given hgiven.1.1 hgiven.1.2
    omega
  · exact ⟨_, rfl⟩

end Merge

section Update

variable {affected : String → ℕ} {skillId : Uuid} {skill renamed : SkillOntology}
  {request : SkillOntologyUpdateRequest}

theorem updatedName_ok (h : updatedName t skill request.canonicalName = .ok renamed) :
    renamed = { skill with canonicalName := requestedName skill request } ∧
      ((skill ∈ t.skills.rows) → ∀ field ∈ request.canonicalName, ∃ canonicalName ∈ field,
        strip canonicalName ≠ "" ∧
          ∀ r ∈ t.skills.rows, r.canonicalName = strip canonicalName → r.id = skill.id) := by
  unfold requestedName
  cases hfield : request.canonicalName with
  | none =>
    rw [hfield] at h
    exact ⟨(Except.ok.inj h).symm, fun _ field hnone => by cases hnone⟩
  | some field =>
    cases field with
    | none =>
      rw [hfield] at h
      cases h
    | some canonicalName =>
      simp only [hfield, updatedName, applyCanonicalName, raise_eq_ok] at h
      obtain ⟨hnamed, hfree, hrenamed⟩ := h
      refine ⟨(Except.ok.inj hrenamed).symm, fun hskill given hgiven => ?_⟩
      cases hgiven
      refine ⟨canonicalName, rfl, hnamed, fun r hr hname => ?_⟩
      by_cases hsame : strip canonicalName = skill.canonicalName
      · rw [t.uqCanonicalName r hr skill hskill (hname.trans hsame)]
      · by_contra hid
        have hget := (t.getByCanonicalNameExact_eq_some (strip canonicalName) r).mpr ⟨hr, hname⟩
        refine hfree ⟨hsame, ?_⟩
        rw [hget, Option.filter_some, if_pos (decide_eq_true hid)]
        rfl

theorem updatedName_total (h : ∀ field ∈ request.canonicalName, ∃ canonicalName ∈ field,
    strip canonicalName ≠ "" ∧
      ∀ r ∈ t.skills.rows, r.canonicalName = strip canonicalName → r.id = skill.id) :
    updatedName t skill request.canonicalName =
      .ok { skill with canonicalName := requestedName skill request } := by
  unfold requestedName
  cases hfield : request.canonicalName with
  | none => rfl
  | some field =>
    obtain ⟨canonicalName, hname, hnamed, hfree⟩ := h field hfield
    obtain rfl : field = some canonicalName := hname
    have hnone : (getByCanonicalNameExact t (strip canonicalName)).filter
        (fun d => d.id ≠ skill.id) = none := by
      rw [Option.filter_eq_none_iff]
      intro d hd hne
      obtain ⟨hrow, hsame⟩ := (t.getByCanonicalNameExact_eq_some _ d).mp hd
      exact (of_decide_eq_true hne) (hfree d hrow hsame)
    simp only [updatedName, applyCanonicalName, if_neg hnamed, hnone, Option.isSome_none,
      Bool.false_eq_true, and_false, if_false]
    rfl

theorem updatedAliases_ok {aliases : List String}
    (h : updatedAliases t affected skill request = .ok aliases) :
    (∀ given ∈ givenAliases request.aliases, given ∉ skill.aliases →
      ∀ r ∈ t.skills.rows, r.id ≠ skill.id → given ∉ r.aliases) ∧
    (request.confirmAliasRemoval = true ∨ ∀ given ∈ givenAliases request.removeAliases,
      given ∈ skill.aliases ++ givenAliases request.aliases → affected given = 0) ∧
    ∀ given, given ∈ aliases ↔ given ∈ requestedAliases skill request := by
  rw [updatedAliases, bind_eq_ok] at h
  obtain ⟨merged, hmerged, hremoved⟩ := h
  have hmerge : (∀ given ∈ givenAliases request.aliases, given ∉ skill.aliases →
      ∀ r ∈ t.skills.rows, r.id ≠ skill.id → given ∉ r.aliases) ∧
      ∀ given, given ∈ merged ↔ given ∈ skill.aliases ++ givenAliases request.aliases := by
    unfold givenAliases
    cases hfield : request.aliases with
    | none =>
      rw [hfield] at hmerged
      cases hmerged
      simp [cleanAliases]
    | some incoming =>
      rw [hfield] at hmerged
      exact mergeAliases_ok hmerged
  obtain ⟨hfree, hmem⟩ := hmerge
  have hremove : (request.confirmAliasRemoval = true ∨
      ∀ given ∈ givenAliases request.removeAliases, given ∈ merged → affected given = 0) ∧
      ∀ given, given ∈ aliases ↔ given ∈ merged ∧ given ∉ givenAliases request.removeAliases := by
    unfold givenAliases
    cases hfield : request.removeAliases with
    | none =>
      rw [hfield] at hremoved
      cases hremoved
      simp [cleanAliases]
    | some toRemove =>
      rw [hfield] at hremoved
      exact removeAliases_ok hremoved
  simp only [hmem] at hremove
  refine ⟨hfree, hremove.1, fun given => ?_⟩
  rw [hremove.2, requestedAliases, List.mem_filter, decide_eq_true_eq]

theorem updatedAliases_total (h : request.Accepted t affected skill) :
    ∃ aliases, updatedAliases t affected skill request = .ok aliases := by
  have hmerged : ∃ merged, mergedAliases t skill request.aliases = .ok merged ∧
      ∀ given, given ∈ merged ↔ given ∈ skill.aliases ++ givenAliases request.aliases := by
    have hfree := h.aliases
    unfold givenAliases at hfree ⊢
    cases hfield : request.aliases with
    | none => exact ⟨skill.aliases, rfl, by simp [cleanAliases]⟩
    | some incoming =>
      rw [hfield] at hfree
      obtain ⟨merged, hmerged⟩ := mergeAliases_total hfree
      exact ⟨merged, hmerged, (mergeAliases_ok hmerged).2⟩
  obtain ⟨merged, hmerged, hmem⟩ := hmerged
  have hremoval := h.removal
  simp only [← hmem] at hremoval
  unfold givenAliases at hremoval
  cases hfield : request.removeAliases with
  | none =>
    refine ⟨merged, (bind_eq_ok _ _ _).mpr ⟨merged, hmerged, ?_⟩⟩
    rw [hfield]
  | some toRemove =>
    rw [hfield] at hremoval
    obtain ⟨left, hleft⟩ := removeAliases_total hremoval
    refine ⟨left, (bind_eq_ok _ _ _).mpr ⟨merged, hmerged, ?_⟩⟩
    rw [hfield]
    exact hleft

theorem updateSkill_accepted (h : SkillOntologyService.updateSkill t affected skillId request =
    .ok t') : ∃ skill written, skill ∈ t.skills.rows ∧ skill.id = skillId ∧
      request.Accepted t affected skill ∧ written.id = skillId ∧
      written.canonicalName = requestedName skill request ∧
      (∀ given, given ∈ written.aliases ↔ given ∈ requestedAliases skill request) ∧
      SkillOntologyRepository.updateSkill t written = .ok t' := by
  simp only [SkillOntologyService.updateSkill, bind_eq_ok] at h
  obtain ⟨skill, hskill, renamed, hrename, aliases, haliases, parentSkillId, hparent, confidence,
    hconfidence, isActive, hactive, hflush⟩ := h
  have hrow := (getSkillOr404_eq_ok t skillId skill).mp hskill
  obtain ⟨hmem, hid⟩ := (t.skills.find?_eq_some skillId skill).mp hrow
  obtain ⟨rfl, hname⟩ := updatedName_ok hrename
  obtain ⟨hfree, hremoval, hrequested⟩ := updatedAliases_ok haliases
  have hset {α : Type} {column : String} {old new : α} {field : Option (Option α)}
      (h : required column old field = .ok new) : field ≠ some none := by
    intro hnull
    rw [hnull] at h
    cases h
  have haccepted : request.Accepted t affected skill := ⟨hname hmem, hfree, hremoval,
    ⟨parentSkillId, hparent⟩, hset hconfidence, hset hactive⟩
  refine ⟨skill, _, hmem, hid, haccepted, ?_, ?_, ?_, hflush⟩
  · exact hid
  · rfl
  · exact hrequested

theorem updatedParent_stored {parentSkillId : Option Uuid} (hskill : skill ∈ t.skills.rows)
    (h : updatedParent t skill request.parentSkillId = .ok parentSkillId) :
    parentIn t.ids parentSkillId = true := by
  cases hfield : request.parentSkillId with
  | none =>
    rw [hfield] at h
    cases h
    exact t.fkParentSkill skill hskill
  | some given =>
    rw [hfield] at h
    cases given with
    | none =>
      cases h
      rfl
    | some parentId =>
      simp only [updatedParent, resolveParentSkillId, raise_eq_ok] at h
      obtain ⟨-, h⟩ := h
      cases hrow : getSkillById t parentId with
      | none =>
        rw [hrow] at h
        cases h
      | some parent =>
        simp only [hrow, raise_eq_ok] at h
        obtain ⟨-, -, h⟩ := h
        cases h
        exact decide_eq_true (mem_ids_of_getSkillById t parentId parent hrow)

theorem SkillOntologyUpdateRequest.Accepted.name_free (hskill : skill ∈ t.skills.rows)
    (h : request.Accepted t affected skill) :
    ∀ r ∈ t.skills.rows, r.id ≠ skill.id → r.canonicalName ≠ requestedName skill request := by
  intro r hr hid hname
  unfold requestedName at hname
  cases hfield : request.canonicalName with
  | none =>
    rw [hfield] at hname
    exact hid (t.uqCanonicalName r hr skill hskill hname ▸ rfl)
  | some field =>
    obtain ⟨canonicalName, hgiven, -, hfree⟩ := h.name field hfield
    obtain rfl : field = some canonicalName := hgiven
    rw [hfield] at hname
    exact hid (hfree r hr hname)

theorem SkillOntologyUpdateRequest.Accepted.updates (hskill : t.skills.find? skillId = some skill)
    (h : request.Accepted t affected skill) :
    ∃ t', SkillOntologyService.updateSkill t affected skillId request = .ok t' := by
  obtain ⟨hmem, hid⟩ := (t.skills.find?_eq_some skillId skill).mp hskill
  obtain ⟨aliases, haliases⟩ := updatedAliases_total h
  obtain ⟨parentSkillId, hparent⟩ := h.parent
  have hset {α : Type} (column : String) (old : α) {field : Option (Option α)}
      (hfield : field ≠ some none) : ∃ new, required column old field = .ok new := by
    cases field with
    | none => exact ⟨old, rfl⟩
    | some given =>
      cases given with
      | none => exact absurd rfl hfield
      | some new => exact ⟨new, rfl⟩
  obtain ⟨confidence, hconfidence⟩ := hset "confidence" skill.confidence h.confidence
  obtain ⟨isActive, hactive⟩ := hset "is_active" skill.isActive h.isActive
  have hwrite (category source : Option String) :=
    updateSkill_total t
      { skill with
        canonicalName := requestedName skill request
        aliases := aliases
        category := category
        parentSkillId := parentSkillId
        confidence := confidence
        source := source
        isActive := isActive }
      (h.name_free hmem) (updatedParent_stored hmem hparent)
  obtain ⟨t', ht'⟩ := hwrite (updatedCategory skill request.category)
    (request.source.getD skill.source)
  refine ⟨t', ?_⟩
  simp only [SkillOntologyService.updateSkill, bind_eq_ok]
  exact ⟨skill, (getSkillOr404_eq_ok t skillId skill).mpr hskill, _, updatedName_total h.name,
    aliases, haliases, parentSkillId, hparent, confidence, hconfidence, isActive, hactive, ht'⟩

end Update

-- The aliases that a file leaves, told by its names.
def importedAliases (t : SkillOntologyTable) (rows : List ImportRow) :
    String → Option (List String) :=
  laidOver (fun row => some (cleanAliases row.aliases)) (writtenRows t.names [] rows) t.aliasesOf

theorem aliasesOf_executeBulkImport (t : SkillOntologyTable) (rows : List ImportRow) :
    (executeBulkImport t rows).skills.aliasesOf = importedAliases t rows := by
  refine executeBulkImport_column SkillOntologyTable.aliasesOf _ t rows ?_
  intro before after row skill hskill hwrote
  constructor
  · rw [SkillOntologyTable.aliasesOf_eq_some]
    exact ⟨skill, hwrote.stored, hskill.name, hskill.aliases⟩
  · intro name hne
    ext aliases
    rw [SkillOntologyTable.aliasesOf_eq_some, SkillOntologyTable.aliasesOf_eq_some]
    constructor
    · rintro ⟨r, hr, hname, haliases⟩
      obtain rfl | ⟨hold, -⟩ := hwrote.only r hr
      · exact absurd (hname.symm.trans hskill.name) hne
      · exact ⟨r, hold, hname, haliases⟩
    · rintro ⟨r, hr, hname, haliases⟩
      refine ⟨r, hwrote.kept r hr fun hid => hne ?_, hname, haliases⟩
      rw [← hname, hwrote.sameName r hr hid, hskill.name]

end Requests

namespace SkillCurationService

open SkillOntologyRepository SkillRepository

section Guarded

variable {lower : String → String} {t t' : SkillOntologyTable} {db db' : JdDatabase}

theorem findSkillByNameOrAlias_eq_none (name : String) :
    findSkillByNameOrAlias lower t name = none ↔
      ∀ r ∈ t.skills.rows, lower name ∉ r.texts lower := by
  rw [findSkillByNameOrAlias, List.find?_eq_none]
  have hhas (r : SkillOntology) : lower name ∈ r.texts lower ↔
      lower r.canonicalName = lower name ∨ ∃ given ∈ r.aliases, lower given = lower name := by
    rw [SkillOntology.texts, textsOf, List.mem_cons, List.mem_map, eq_comm]
  simp only [hhas, decide_eq_true_eq]

theorem createSkill_guarded (hclear : t.Unambiguous lower) {skill : SkillOntology}
    (hname : findSkillByNameOrAlias lower t skill.canonicalName = none)
    (haliases : ∀ given ∈ skill.aliases, findSkillByNameOrAlias lower t given = none)
    (h : createSkill t skill = .ok t') : t'.Unambiguous lower := by
  rw [SkillOntologyTable.createSkill_unambiguous hclear h]
  intro r hr _
  rw [List.disjoint_right]
  intro x hx
  obtain rfl | hx := List.mem_cons.mp hx
  · exact (findSkillByNameOrAlias_eq_none _).mp hname r hr
  · obtain ⟨given, hgiven, rfl⟩ := List.mem_map.mp hx
    exact (findSkillByNameOrAlias_eq_none _).mp (haliases given hgiven) r hr

theorem appendAliasValidated_clear (hclear : db.ontology.Unambiguous lower)
    {skill : SkillOntology} (hskill : skill ∈ db.ontology.skills.rows) {given : String}
    (h : appendAliasValidated lower db skill given = .ok t') : t'.Unambiguous lower := by
  rw [appendAliasValidated] at h
  cases hfound : findSkillByNameOrAlias lower db.ontology given with
  | none =>
    rw [hfound] at h
    have hupdated : updateSkill db.ontology { skill with aliases := skill.aliases ++ [given] } =
        .ok t' := h
    refine (SkillOntologyTable.updateSkill_unambiguous hclear hskill ?_ hupdated).mpr ?_
    · rfl
    intro r hr hne
    have hold := hclear r hr skill hskill hne
    have hnew := (findSkillByNameOrAlias_eq_none given).mp hfound r hr
    rw [List.disjoint_right] at hold ⊢
    intro x hx
    simp only [SkillOntology.texts, textsOf, List.map_append, List.map_cons, List.map_nil,
      ← List.cons_append, List.mem_append, List.mem_singleton] at hx
    obtain hx | rfl := hx
    · exact hold hx
    · exact hnew
  | some collision =>
    rw [hfound] at h
    dsimp only at h
    split_ifs at h
    cases h
    exact hclear

theorem createCanonicalSkill_clear (hclear : t.Unambiguous lower) {rawText : String}
    {fields : CanonicalFields} (h : createCanonicalSkill lower t rawText fields = .ok t') :
    t'.Unambiguous lower := by
  simp only [createCanonicalSkill, raise_eq_ok] at h
  obtain ⟨-, h⟩ := h
  cases hname : findSkillByNameOrAlias lower t (strip (fields.canonicalName.getD rawText)) with
  | some existing =>
    rw [hname] at h
    cases h
  | none =>
    simp only [hname, bind_eq_ok] at h
    obtain ⟨-, -, h⟩ := h
    cases halias : (cleanAliases (fields.aliases.getD [])).findSome? fun given =>
        (findSkillByNameOrAlias lower t given).map fun collision => (given, collision) with
    | some found =>
      rw [halias] at h
      cases h
    | none =>
      rw [halias] at h
      refine createSkill_guarded hclear hname (fun given hgiven => ?_) h
      have hnone := List.findSome?_eq_none_iff.mp halias given hgiven
      simpa using hnone

end Guarded

section Frames

theorem foldl_keeps {σ α β : Type*} (column : σ → β) (step : σ → α → σ)
    (hstep : ∀ s a, column (step s a) = column s) (s : σ) (l : List α) :
    column (l.foldl step s) = column s := by
  induction l generalizing s with
  | nil => rfl
  | cons a rest ih => exact (ih (step s a)).trans (hstep s a)

variable (s : SkillStore) (db : JdDatabase) (unknownSkillId canonicalSkillId : Uuid)

theorem createRetroactiveJdSkills_ontology :
    (createRetroactiveJdSkills s unknownSkillId canonicalSkillId).ontology = s.ontology := by
  refine foldl_keeps SkillStore.ontology _ (fun s link => ?_) s _
  rw [retroactiveJdSkill]
  cases getJdSkill s link.jdId canonicalSkillId <;> rfl

theorem migrateOccurrences_ontology :
    (migrateOccurrences s unknownSkillId canonicalSkillId).ontology = s.ontology := by
  have hjds := createRetroactiveJdSkills_ontology s unknownSkillId canonicalSkillId
  have hlinks := foldl_keeps SkillStore.ontology deleteJdUnknownSkill (fun _ _ => rfl)
    (createRetroactiveJdSkills s unknownSkillId canonicalSkillId)
    (getPendingJdLinks s unknownSkillId)
  refine Eq.trans ?_ (hlinks.trans hjds)
  refine foldl_keeps SkillStore.ontology _ (fun s c => ?_) _ _
  rw [migrateCandidateSkill]
  cases getCandidateSkillByCanonical s c.resumeId canonicalSkillId <;> rfl

theorem refreshJdVerificationStatus_ontology (jdIds : List Uuid) :
    (refreshJdVerificationStatus db jdIds).ontology = db.ontology :=
  congrArg SkillStore.ontology (refresh_refreshed db jdIds).store

theorem settle_ontology (unknownSkill : UnknownSkill) (status : UnknownSkillStatus) :
    (settle db unknownSkill canonicalSkillId status).ontology = db.ontology :=
  createRetroactiveJdSkills_ontology db.toSkillStore unknownSkill.id canonicalSkillId

end Frames

section Calls

variable {lower : String → String} {db db' : JdDatabase}

theorem getSkillOr404_stored {skillId : Uuid} {skill : SkillOntology}
    (h : getSkillOr404 db skillId = .ok skill) :
    skill ∈ db.ontology.skills.rows ∧ skill.id = skillId := by
  rw [getSkillOr404] at h
  split at h
  · next found hfound =>
      cases h
      exact (db.ontology.skills.find?_eq_some _ _).mp hfound
  · cases h

theorem mapToExistingSkill_clear (hclear : db.ontology.Unambiguous lower)
    {unknownSkillId targetSkillId : Uuid} {saveAsAlias : Bool}
    (h : mapToExistingSkill lower db unknownSkillId targetSkillId saveAsAlias = .ok db') :
    db'.ontology.Unambiguous lower := by
  simp only [mapToExistingSkill, bind_eq_ok] at h
  obtain ⟨unknownSkill, -, targetSkill, htarget, h⟩ := h
  have hsettled := settle_ontology db targetSkill.id unknownSkill .mappedToExisting
  obtain ⟨hstored, -⟩ := getSkillOr404_stored htarget
  split_ifs at h
  · obtain ⟨ontology, hontology, rfl⟩ := (map_eq_ok _ _ _).mp h
    rw [← hsettled] at hclear hstored
    exact appendAliasValidated_clear hclear hstored hontology
  · cases h
    rw [hsettled]
    exact hclear

theorem promoteToCanonical_clear (hclear : db.ontology.Unambiguous lower)
    {unknownSkillId : Uuid} {category : Option String}
    (h : promoteToCanonical lower db unknownSkillId category = .ok db') :
    db'.ontology.Unambiguous lower := by
  simp only [promoteToCanonical, bind_eq_ok] at h
  obtain ⟨unknownSkill, -, h⟩ := h
  cases hname : findSkillByNameOrAlias lower db.ontology unknownSkill.rawText with
  | some existing =>
    rw [hname] at h
    cases h
  | none =>
    rw [hname] at h
    obtain ⟨ontology, hcreate, rfl⟩ := (map_eq_ok _ _ _).mp h
    rw [settle_ontology]
    refine createSkill_guarded hclear hname (fun given hgiven => ?_) hcreate
    cases hgiven

theorem createCanonicalSkillFromUnknown_clear (hclear : db.ontology.Unambiguous lower)
    {unknownSkillId : Uuid} {fields : CanonicalFields}
    (h : createCanonicalSkillFromUnknown lower db unknownSkillId fields = .ok db') :
    db'.ontology.Unambiguous lower := by
  simp only [createCanonicalSkillFromUnknown, bind_eq_ok] at h
  obtain ⟨unknownSkill, -, h⟩ := h
  obtain ⟨ontology, hcreate, rfl⟩ := (map_eq_ok _ _ _).mp h
  have hkept : (finalizeUnknownSkillResolution (withOntology db ontology) unknownSkill
      (some db.ontology.skills.next)).ontology = ontology := by
    rw [finalizeUnknownSkillResolution]
    rw [refreshJdVerificationStatus_ontology]
    exact migrateOccurrences_ontology _ _ _
  rw [hkept]
  exact createCanonicalSkill_clear hclear hcreate

theorem resolveUnknownSkill_clear (hclear : db.ontology.Unambiguous lower)
    {unknownSkillId canonicalSkillId : Uuid} {resolutionType : UnknownSkillResolutionType}
    (h : resolveUnknownSkill lower db unknownSkillId canonicalSkillId resolutionType = .ok db') :
    db'.ontology.Unambiguous lower := by
  simp only [resolveUnknownSkill, bind_eq_ok] at h
  obtain ⟨unknownSkill, -, targetSkill, htarget, h⟩ := h
  split_ifs at h
  obtain ⟨ontology, hontology, h⟩ := (bind_eq_ok _ _ _).mp h
  cases h
  rw [refreshJdVerificationStatus_ontology]
  have hkept : (migrateOccurrences (withOntology db ontology).toSkillStore unknownSkill.id
      targetSkill.id).ontology = ontology := migrateOccurrences_ontology _ _ _
  change (migrateOccurrences (withOntology db ontology).toSkillStore unknownSkill.id
    targetSkill.id).ontology.Unambiguous lower
  rw [hkept]
  cases resolutionType with
  | addAsAlias => exact appendAliasValidated_clear hclear (getSkillOr404_stored htarget).1 hontology
  | mapToExisting =>
    cases hontology
    exact hclear

end Calls

end SkillCurationService

namespace SkillNames

open SkillCurationService SkillOntologyTable

-- The writers of names and aliases; `affected` counts the candidates that an alias matched.
inductive Event where
  | createSkill (request : SkillCreateRequest)
  | updateSkill (affected : String → ℕ) (skillId : Uuid) (request : SkillOntologyUpdateRequest)
  | bulkImport (rows : List ImportRow)
  | promote (unknownSkillId : Uuid) (category : Option String)
  | createCanonical (unknownSkillId : Uuid) (fields : CanonicalFields)
  | mapToExisting (unknownSkillId targetSkillId : Uuid) (saveAsAlias : Bool)
  | resolve (unknownSkillId canonicalSkillId : Uuid) (resolutionType : UnknownSkillResolutionType)

variable (lower : String → String)

def outcome (db : JdDatabase) : Event → Except SkillError JdDatabase
  | .createSkill request =>
    (SkillOntologyService.createSkill db.ontology request).map (withOntology db)
  | .updateSkill affected skillId request =>
    (SkillOntologyService.updateSkill db.ontology affected skillId request).map (withOntology db)
  | .bulkImport rows =>
    .ok (withOntology db (SkillOntologyService.executeBulkImport db.ontology rows).skills)
  | .promote unknownSkillId category => promoteToCanonical lower db unknownSkillId category
  | .createCanonical unknownSkillId fields =>
    createCanonicalSkillFromUnknown lower db unknownSkillId fields
  | .mapToExisting unknownSkillId targetSkillId saveAsAlias =>
    mapToExistingSkill lower db unknownSkillId targetSkillId saveAsAlias
  | .resolve unknownSkillId canonicalSkillId resolutionType =>
    resolveUnknownSkill lower db unknownSkillId canonicalSkillId resolutionType

-- An operation that raises is rolled back.
def next (db : JdDatabase) (event : Event) : JdDatabase :=
  match outcome lower db event with
  | .ok db' => db'
  | .error _ => db

def Step (db : JdDatabase) (event : Event) (db' : JdDatabase) : Prop := db' = next lower db event

-- What is written brings no text of another skill. The curation service checks that itself.
def KeepsNames (db : JdDatabase) : Event → Prop
  | .createSkill request => request.Accepted db.ontology →
      FreeFor lower db.ontology db.ontology.skills.next
        (textsOf lower (strip request.canonicalName) (cleanAliases request.aliases))
  | .updateSkill affected skillId request => ∀ skill ∈ db.ontology.skills.rows,
      skill.id = skillId → request.Accepted db.ontology affected skill →
      FreeFor lower db.ontology skillId
        (textsOf lower (requestedName skill request) (requestedAliases skill request))
  | .bulkImport rows => ClearDirectory lower (importedAliases db.ontology rows)
  | _ => True

variable {lower} {db : JdDatabase}

theorem createSkill_next_iff (hclear : db.ontology.Unambiguous lower)
    (request : SkillCreateRequest) :
    (next lower db (.createSkill request)).ontology.Unambiguous lower ↔
      KeepsNames lower db (.createSkill request) := by
  simp only [next, outcome, KeepsNames]
  cases hout : SkillOntologyService.createSkill db.ontology request with
  | error raised =>
    refine iff_of_true hclear fun haccepted => ?_
    obtain ⟨t', ht'⟩ := haccepted.creates
    rw [hout] at ht'
    cases ht'
  | ok t' =>
    obtain ⟨haccepted, hcreate⟩ := createSkill_accepted hout
    have hiff := createSkill_unambiguous hclear hcreate
    exact hiff.trans ⟨fun hfree _ => hfree, fun h => h haccepted⟩

theorem updateSkill_next_iff (hclear : db.ontology.Unambiguous lower) (affected : String → ℕ)
    (skillId : Uuid) (request : SkillOntologyUpdateRequest) :
    (next lower db (.updateSkill affected skillId request)).ontology.Unambiguous lower ↔
      KeepsNames lower db (.updateSkill affected skillId request) := by
  simp only [next, outcome, KeepsNames]
  cases hout : SkillOntologyService.updateSkill db.ontology affected skillId request with
  | error raised =>
    refine iff_of_true hclear fun skill hskill hid haccepted => ?_
    have hrow := (db.ontology.skills.find?_eq_some skillId skill).mpr ⟨hskill, hid⟩
    obtain ⟨t', ht'⟩ := haccepted.updates hrow
    rw [hout] at ht'
    cases ht'
  | ok t' =>
    obtain ⟨skill, written, hskill, hid, haccepted, hwritten, hname, haliases, hflush⟩ :=
      updateSkill_accepted hout
    have hiff := updateSkill_unambiguous hclear hskill (hid.trans hwritten.symm) hflush
    rw [hwritten, SkillOntology.texts, hname, freeFor_congr haliases] at hiff
    refine hiff.trans ⟨fun hfree other hother hsame _ => ?_, fun h => ?_⟩
    · rw [db.ontology.skills.eq_of_key_eq hother hskill (hsame.trans hid.symm)]
      exact hfree
    · exact h skill hskill hid haccepted

theorem next_unambiguous_iff (hclear : db.ontology.Unambiguous lower) (event : Event) :
    (next lower db event).ontology.Unambiguous lower ↔ KeepsNames lower db event := by
  -- the calls of the curation service keep the names clear by themselves
  have hguarded (hok : ∀ db', outcome lower db event = .ok db' → db'.ontology.Unambiguous lower) :
      (next lower db event).ontology.Unambiguous lower := by
    rw [next]
    cases hout : outcome lower db event with
    | ok db' => exact hok db' hout
    | error raised => exact hclear
  cases event with
  | createSkill request => exact createSkill_next_iff hclear request
  | updateSkill affected skillId request =>
    exact updateSkill_next_iff hclear affected skillId request
  | bulkImport rows =>
    rw [KeepsNames, ← aliasesOf_executeBulkImport, ← unambiguous_iff_directory]
    rfl
  | promote unknownSkillId category =>
    exact iff_of_true (hguarded fun db' hok => promoteToCanonical_clear hclear hok) trivial
  | createCanonical unknownSkillId fields =>
    exact iff_of_true
      (hguarded fun db' hok => createCanonicalSkillFromUnknown_clear hclear hok) trivial
  | mapToExisting unknownSkillId targetSkillId saveAsAlias =>
    exact iff_of_true (hguarded fun db' hok => mapToExistingSkill_clear hclear hok) trivial
  | resolve unknownSkillId canonicalSkillId resolutionType =>
    exact iff_of_true (hguarded fun db' hok => resolveUnknownSkill_clear hclear hok) trivial

-- From an empty ontology the names stay clear exactly as long as nothing is written
-- with a text of another skill.
theorem names_stay_clear_iff (lower : String → String) (start : JdDatabase)
    (hempty : start.ontology = SkillOntologyTable.empty) (path : List (Event × JdDatabase))
    (hp : Path (Step lower) start path) :
    (∀ db ∈ visited start path, db.ontology.NamesClear lower) ↔
      EveryStep (fun db event _ => KeepsNames lower db event) start path := by
  simp only [namesClear_iff]
  have hclear : start.ontology.Unambiguous lower := by
    rw [hempty]
    exact clearLabels_nil
  have hany : (fun _ : JdDatabase => True) start := trivial
  refine hp.visited_iff_everyStep hany (fun _ _ _ _ _ => trivial) hclear
    fun db event db' _ h hstep => ?_
  rw [hstep]
  exact next_unambiguous_iff h event

def run (events : List Event) : List (Event × JdDatabase) :=
  execute (fun db event => some (next id db event)) SkillRun.noSkills events

theorem run_path (events : List Event) : Path (Step id) SkillRun.noSkills (run events) :=
  execute_path _ (fun _ _ _ h => (Option.some.inj h).symm) _ events

def addition (canonicalName alias_ : String) : Event :=
  .createSkill {
    canonicalName := canonicalName
    aliases := [alias_]
    category := none
    parentSkillId := none
    confidence := "verified"
    source := "manual entry"
    isActive := true }

theorem names_stay_clear_react :
    (∀ db ∈ visited SkillRun.noSkills (run [addition "react" "reactjs"]),
      db.ontology.NamesClear id) ↔
      EveryStep (fun db event _ => KeepsNames id db event) SkillRun.noSkills
        (run [addition "react" "reactjs"]) :=
  names_stay_clear_iff id SkillRun.noSkills rfl _ (run_path [addition "react" "reactjs"])

-- Two skills are created with the same alias.
theorem alias_taken_twice :
    ¬∀ (lower : String → String) (start : JdDatabase) (path : List (Event × JdDatabase)),
      start.ontology = SkillOntologyTable.empty → Path (Step lower) start path →
      ∀ db ∈ visited start path, db.ontology.NamesClear lower := by
  intro h
  let path := run [addition "react" "reactjs", addition "preact" "reactjs"]
  have hlast := h id SkillRun.noSkills path rfl (run_path _) _ (final_mem_visited _ _)
  have hclear := hlast.unambiguous
  have hreact : ∃ r ∈ (final SkillRun.noSkills path).ontology.skills.rows,
      r.id = 0 ∧ "reactjs" ∈ r.texts id := by decide +kernel
  have hpreact : ∃ r ∈ (final SkillRun.noSkills path).ontology.skills.rows,
      r.id = 1 ∧ "reactjs" ∈ r.texts id := by decide +kernel
  obtain ⟨react, hr, hrid, hrtext⟩ := hreact
  obtain ⟨preact, hp, hpid, hptext⟩ := hpreact
  have hne : react.id ≠ preact.id := by
    rw [hrid, hpid]
    decide
  exact hclear react hr preact hp hne hrtext hptext

end SkillNames

end AiHiring
