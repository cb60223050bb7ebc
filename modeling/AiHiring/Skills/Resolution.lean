import AiHiring.Skills.Normalization

namespace AiHiring

namespace SkillNormalizationService

variable (catalog : String → CatalogMatch)

-- The skill of the name or, if it has none, of the first alias that has one.
def skillOf (item : JDSkillSpec) : Option Uuid :=
  (item.name :: item.aliases).findSome? fun rawText => (catalog rawText).canonicalSkillId

-- Another skill, which one of the aliases stands for.
def AliasSkill (item : JDSkillSpec) (other : Uuid) : Prop :=
  some other ≠ skillOf catalog item ∧
    ∃ aliasText ∈ item.aliases, (catalog aliasText).canonicalSkillId = some other

-- What `_match_with_aliases` makes of one spec.
structure MatchOf (mandatory : Bool) (importance : Option JDSkillImportance) (item : JDSkillSpec)
    (m : SkillMatchResult) : Prop where
  rawText : m.rawText = item.name
  mandatory : m.mandatory = mandatory
  importance : m.importance = importance
  canonicalSkillId : m.canonicalSkillId = skillOf catalog item
  aliasSkillIds : ∀ other, other ∈ m.aliasSkillIds ↔ AliasSkill catalog item other

-- The state of the loop once some aliases have had their turn.
structure Resolving (mandatory : Bool) (importance : Option JDSkillImportance) (name : String)
    (aliases : List String) (state : SkillMatchResult × List Uuid) : Prop where
  rawText : state.1.rawText = name
  mandatory : state.1.mandatory = mandatory
  importance : state.1.importance = importance
  canonicalSkillId : state.1.canonicalSkillId =
    (name :: aliases).findSome? fun rawText => (catalog rawText).canonicalSkillId
  ids : ∀ other, some other ≠ state.1.canonicalSkillId →
    (other ∈ state.2 ↔ ∃ aliasText ∈ aliases, (catalog aliasText).canonicalSkillId = some other)

variable (mandatory : Bool) (importance : Option JDSkillImportance)

theorem resolving_resolveAlias
    (name : String) (aliases : List String) (state : SkillMatchResult × List Uuid)
    (aliasText : String) (h : Resolving catalog mandatory importance name aliases state) :
    Resolving catalog mandatory importance name (aliases ++ [aliasText])
      (resolveAlias catalog mandatory importance state aliasText) := by
  have hcanonical := h.canonicalSkillId
  have hlonger : (name :: (aliases ++ [aliasText])).findSome? (fun rawText =>
      (catalog rawText).canonicalSkillId) =
        state.1.canonicalSkillId.or (catalog aliasText).canonicalSkillId := by
    rw [← List.cons_append, List.findSome?_append, ← hcanonical, List.findSome?_cons,
      List.findSome?_nil]
    cases (catalog aliasText).canonicalSkillId <;> rfl
  have hmore (other : Uuid) : (∃ found ∈ aliases ++ [aliasText],
      (catalog found).canonicalSkillId = some other) ↔
        (∃ found ∈ aliases, (catalog found).canonicalSkillId = some other) ∨
          (catalog aliasText).canonicalSkillId = some other := by
    simp [or_and_right, exists_or]
  unfold resolveAlias
  dsimp only [matchSkill]
  cases halias : (catalog aliasText).canonicalSkillId with
  | none =>
    refine ⟨h.rawText, h.mandatory, h.importance, ?_, ?_⟩
    · rw [hlonger, halias, Option.or_none]
    · intro other hother
      rw [hmore, halias, h.ids other hother]
      simp
  | some skillId =>
    dsimp only
    by_cases hnone : state.1.canonicalSkillId = none
    · rw [if_pos hnone]
      refine ⟨h.rawText, rfl, rfl, ?_, ?_⟩
      · rw [hlonger, halias, hnone]
        rfl
      · intro other hother
        have hne : skillId ≠ other := fun heq => hother (heq ▸ rfl)
        have hold := h.ids other (by simp [hnone])
        rw [hmore, halias, ← hold]
        simp [hne]
    · rw [if_neg hnone]
      refine ⟨h.rawText, h.mandatory, h.importance, ?_, ?_⟩
      · obtain ⟨c, hc⟩ := Option.ne_none_iff_exists'.mp hnone
        rw [hlonger, hc, Option.some_or]
      · intro other hother
        rw [hmore, halias, ← h.ids other hother, List.mem_append, List.mem_singleton]
        simp [eq_comm]

theorem resolving_foldl
    (name : String) (aliases rest : List String) (state : SkillMatchResult × List Uuid)
    (h : Resolving catalog mandatory importance name aliases state) :
    Resolving catalog mandatory importance name (aliases ++ rest)
      (rest.foldl (resolveAlias catalog mandatory importance) state) := by
  induction rest generalizing aliases state with
  | nil => simpa using h
  | cons aliasText rest ih =>
    have hstep := resolving_resolveAlias catalog mandatory importance name aliases state aliasText h
    have hrest := ih (aliases ++ [aliasText]) _ hstep
    rwa [List.append_assoc, List.singleton_append] at hrest

theorem matchOf_matchWithAliases (item : JDSkillSpec) :
    MatchOf catalog mandatory importance item
      (matchWithAliases catalog mandatory importance item) := by
  have hname : Resolving catalog mandatory importance item.name []
      (matchSkill catalog item.name mandatory importance, []) := by
    refine ⟨rfl, rfl, rfl, ?_, by simp⟩
    simp only [matchSkill, List.findSome?_cons, List.findSome?_nil]
    cases (catalog item.name).canonicalSkillId <;> rfl
  have hall := resolving_foldl catalog mandatory importance item.name [] item.aliases _ hname
  rw [List.nil_append] at hall
  unfold matchWithAliases
  split_ifs with hempty
  · refine ⟨rfl, rfl, rfl, ?_, ?_⟩
    · rw [skillOf, hempty]
      exact hname.canonicalSkillId
    · intro other
      simp [matchSkill, AliasSkill, hempty]
  · refine ⟨hall.rawText, hall.mandatory, hall.importance, hall.canonicalSkillId, ?_⟩
    intro other
    rw [List.mem_eraseDups, List.mem_filter, decide_eq_true_eq, and_comm, AliasSkill, skillOf,
      ← hall.canonicalSkillId]
    exact and_congr_right fun hother => hall.ids other hother

end SkillNormalizationService

end AiHiring
