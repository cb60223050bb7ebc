import AiHiring.Jd.Context
import AiHiring.Skills.Persistence

namespace AiHiring

open Library SkillRepository ContextSerializer

namespace JDService

variable (jdId : Uuid)

-- Nothing that the skill tables take from the matches is lost in a checkpoint.
def SurviveStorage (store : SkillStore) (skillMatches : List SkillMatchResult) : Prop :=
  (∀ m ∈ matchedBySkill skillMatches, m.importance = none ∧
    ∀ other ∈ skillMatches, other.canonicalSkillId = m.canonicalSkillId →
      other.aliasSkillIds = []) ∧
  ∀ m ∈ skillMatches, m.canonicalSkillId = none →
    m.normalizedText = "" ∨ ∃ u ∈ store.unknownSkills.rows, u.rawText = m.rawText

instance (store : SkillStore) (skillMatches : List SkillMatchResult) :
    Decidable (SurviveStorage store skillMatches) :=
  inferInstanceAs (Decidable (_ ∧ _))

variable (skillMatches : List SkillMatchResult) (m : SkillMatchResult)

@[simp] theorem storedMatch_canonicalSkillId :
    (storedMatch m).canonicalSkillId = m.canonicalSkillId := rfl

@[simp] theorem storedMatch_mandatory :
    (storedMatch m).mandatory = m.mandatory := rfl

@[simp] theorem storedMatch_rawText :
    (storedMatch m).rawText = m.rawText := rfl

theorem collapse_storedMatch (kept : List SkillMatchResult) (m : SkillMatchResult) :
    collapse (kept.map storedMatch) (storedMatch m) = (collapse kept m).map storedMatch := by
  have hfind : (kept.map storedMatch).find? (fun old =>
      decide (old.canonicalSkillId = (storedMatch m).canonicalSkillId)) =
      (kept.find? fun old => decide (old.canonicalSkillId = m.canonicalSkillId)).map
        storedMatch := by
    rw [List.find?_map]
    rfl
  have hreplace : (kept.map storedMatch).map (fun old =>
      if old.canonicalSkillId = (storedMatch m).canonicalSkillId then storedMatch m else old) =
      (kept.map fun old =>
        if old.canonicalSkillId = m.canonicalSkillId then m else old).map storedMatch := by
    rw [List.map_map, List.map_map]
    apply List.map_congr_left
    intro old hold
    by_cases hsame : old.canonicalSkillId = m.canonicalSkillId
    · exact (if_pos hsame).trans (congrArg storedMatch (if_pos hsame).symm)
    · exact (if_neg hsame).trans (congrArg storedMatch (if_neg hsame).symm)
  by_cases hnone : m.canonicalSkillId = none
  · exact (if_pos hnone).trans (congrArg (List.map storedMatch) (if_pos hnone).symm)
  · have hnone' : ¬(storedMatch m).canonicalSkillId = none := hnone
    rw [collapse, collapse, if_neg hnone, if_neg hnone', hfind, hreplace]
    cases kept.find? fun old => decide (old.canonicalSkillId = m.canonicalSkillId) with
    | none => simp
    | some existing =>
      by_cases hwins : m.mandatory = true ∧ (!existing.mandatory) = true
      · exact (if_pos hwins).trans (congrArg (List.map storedMatch) (if_pos hwins).symm)
      · exact (if_neg hwins).trans (congrArg (List.map storedMatch) (if_neg hwins).symm)

theorem matchedBySkill_storedMatch :
    matchedBySkill (skillMatches.map storedMatch) =
      (matchedBySkill skillMatches).map storedMatch := by
  have hfold (kept : List SkillMatchResult) :
      (skillMatches.map storedMatch).foldl collapse (kept.map storedMatch) =
        (skillMatches.foldl collapse kept).map storedMatch := by
    induction skillMatches generalizing kept with
    | nil => rfl
    | cons m rest ih => rw [List.map_cons, List.foldl_cons, collapse_storedMatch, ih, List.foldl_cons]
  exact hfold []

theorem matchedBySkill_matched :
    ∀ m ∈ matchedBySkill skillMatches, m.canonicalSkillId ≠ none := by
  have hfold (kept : List SkillMatchResult) (hkept : ∀ m ∈ kept, m.canonicalSkillId ≠ none) :
      ∀ m ∈ skillMatches.foldl collapse kept, m.canonicalSkillId ≠ none := by
    induction skillMatches generalizing kept with
    | nil => exact hkept
    | cons first rest ih =>
      apply ih
      unfold collapse
      by_cases hnone : first.canonicalSkillId = none
      · rw [if_pos hnone]
        exact hkept
      · rw [if_neg hnone]
        split
        · exact List.forall_mem_append.mpr ⟨hkept, by simpa using hnone⟩
        · split_ifs
          · intro m hm
            obtain ⟨old, hold, rfl⟩ := List.mem_map.mp hm
            split_ifs
            · exact hnone
            · exact hkept old hold
          · exact hkept
  exact hfold [] (by simp)

theorem aliasSkillIds_storedMatch (c : Uuid) :
    aliasSkillIds (skillMatches.map storedMatch) c = none := by
  have hnil : ((skillMatches.map storedMatch).filter fun m =>
      decide (m.canonicalSkillId = some c)).flatMap (·.aliasSkillIds) = [] := by
    apply List.flatMap_eq_nil_iff.mpr
    intro m hm
    obtain ⟨old, -, rfl⟩ := List.mem_map.mp (List.mem_filter.mp hm).1
    rfl
  rw [aliasSkillIds, hnil]
  rfl

theorem aliasSkillIds_eq_none (c : Uuid) :
    aliasSkillIds skillMatches c = none ↔
      ∀ m ∈ skillMatches, m.canonicalSkillId = some c → m.aliasSkillIds = [] := by
  have herase (ids : List Uuid) : ids.eraseDups = [] ↔ ids = [] := by
    cases ids with
    | nil => simp
    | cons id rest => simp [List.eraseDups_cons]
  unfold aliasSkillIds
  simp only [herase, ite_eq_left_iff, reduceCtorEq, imp_false, not_not, List.flatMap_eq_nil_iff,
    List.mem_filter, decide_eq_true_eq, and_imp]

-- Its row is the same when the match has been through a checkpoint.
def RowSurvives : Prop :=
  m.importance = none ∧
    ∀ other ∈ skillMatches, other.canonicalSkillId = m.canonicalSkillId → other.aliasSkillIds = []

theorem jdSkillRow_storedMatch (c id : Uuid) (hc : m.canonicalSkillId = some c) :
    jdSkillRow jdId skillMatches m c id =
        jdSkillRow jdId (skillMatches.map storedMatch) (storedMatch m) c id ↔
      RowSurvives skillMatches m := by
  rw [RowSurvives, hc, ← aliasSkillIds_eq_none]
  simp only [jdSkillRow, aliasSkillIds_storedMatch]
  constructor
  · intro h
    injection h with _ _ _ _ _ himportance haliases
    exact ⟨himportance, haliases⟩
  · rintro ⟨himportance, haliases⟩
    rw [himportance, haliases]
    rfl

def newRows (skillMatches : List SkillMatchResult) : ℕ → List SkillMatchResult → List JDSkill
  | _, [] => []
  | next, m :: rest =>
    match m.canonicalSkillId with
    | none => newRows skillMatches next rest
    | some c =>
      jdSkillRow jdId skillMatches m c next :: newRows skillMatches (next + 1) rest

theorem rows_foldl_addJdSkill (kept : List SkillMatchResult) (store : SkillStore) :
    (kept.foldl (addJdSkill jdId skillMatches) store).jdSkills.rows =
      store.jdSkills.rows ++ newRows jdId skillMatches store.jdSkills.next kept := by
  induction kept generalizing store with
  | nil => simp [newRows]
  | cons m rest ih =>
    rw [List.foldl_cons, ih]
    cases hc : m.canonicalSkillId with
    | none => simp [addJdSkill, newRows, hc]
    | some c => simp [addJdSkill, newRows, hc, createJdSkill, Table.insert]

theorem newRows_storedMatch (kept : List SkillMatchResult) (next : ℕ)
    (h : newRows jdId skillMatches next kept =
      newRows jdId (skillMatches.map storedMatch) next (kept.map storedMatch)) :
    ∀ m ∈ kept, m.canonicalSkillId ≠ none → RowSurvives skillMatches m := by
  induction kept generalizing next with
  | nil => simp
  | cons m rest ih =>
    intro other hother hmatched
    cases hc : m.canonicalSkillId with
    | none =>
      simp only [newRows, List.map_cons, storedMatch_canonicalSkillId, hc] at h
      rcases List.mem_cons.mp hother with rfl | hother
      · exact absurd hc hmatched
      · exact ih next h other hother hmatched
    | some c =>
      simp only [newRows, List.map_cons, storedMatch_canonicalSkillId, hc, List.cons.injEq] at h
      rcases List.mem_cons.mp hother with rfl | hother
      · exact (jdSkillRow_storedMatch jdId skillMatches _ c next hc).mp h.1
      · exact ih (next + 1) h.2 other hother hmatched

theorem foldl_addJdSkill_storedMatch (kept : List SkillMatchResult)
    (h : ∀ m ∈ kept, RowSurvives skillMatches m) (store : SkillStore) :
    (kept.map storedMatch).foldl (addJdSkill jdId (skillMatches.map storedMatch)) store =
      kept.foldl (addJdSkill jdId skillMatches) store := by
  induction kept generalizing store with
  | nil => rfl
  | cons m rest ih =>
    have hstep : addJdSkill jdId (skillMatches.map storedMatch) store (storedMatch m) =
        addJdSkill jdId skillMatches store m := by
      unfold addJdSkill
      rw [storedMatch_canonicalSkillId]
      cases hc : m.canonicalSkillId with
      | none => rfl
      | some c =>
        have hrow : jdSkillRow jdId (skillMatches.map storedMatch) (storedMatch m) c =
            jdSkillRow jdId skillMatches m c := by
          funext id
          exact ((jdSkillRow_storedMatch jdId skillMatches m c id hc).mpr
            (h m List.mem_cons_self)).symm
        simp only [hrow]
    rw [List.map_cons, List.foldl_cons, List.foldl_cons, hstep,
      ih fun other hother => h other (List.mem_cons_of_mem _ hother)]

theorem addUnknownSkill_frame (store : SkillStore) (m : SkillMatchResult) :
    (addUnknownSkill jdId store m).jdSkills = store.jdSkills := by
  unfold addUnknownSkill upsertUnknownSkill linkUnknownSkillToJd
  cases m.canonicalSkillId with
  | some c => rfl
  | none =>
    dsimp only
    split <;> split <;> rfl

theorem foldl_addUnknownSkill_frame (store : SkillStore) :
    (skillMatches.foldl (addUnknownSkill jdId) store).jdSkills = store.jdSkills := by
  induction skillMatches generalizing store with
  | nil => rfl
  | cons m rest ih => rw [List.foldl_cons, ih, addUnknownSkill_frame]

def HasText (store : SkillStore) (rawText : String) : Prop :=
  ∃ u ∈ store.unknownSkills.rows, u.rawText = rawText

def KeyedBy (store : SkillStore) (rawText key : String) : Prop :=
  ∀ u ∈ store.unknownSkills.rows, u.rawText = rawText → u.normalizedKey = some key

theorem upsertUnknownSkill_of_hasText (store : SkillStore) (rawText : String)
    (key key' : Option String) (h : HasText store rawText) :
    upsertUnknownSkill store rawText key = upsertUnknownSkill store rawText key' := by
  obtain ⟨u, hu, htext⟩ := h
  unfold upsertUnknownSkill
  cases hfind : store.unknownSkills.rows.find? fun u => decide (u.rawText = rawText) with
  | none => exact absurd htext (by simpa using List.find?_eq_none.mp hfind u hu)
  | some existing => rfl

-- A row after an upsert: an old one, perhaps bumped, or the new one.
theorem mem_upsertUnknownSkill (store : SkillStore) (rawText : String) (key : Option String)
    (u : UnknownSkill) (hu : u ∈ (upsertUnknownSkill store rawText key).1.unknownSkills.rows) :
    (∃ old ∈ store.unknownSkills.rows, old.rawText = u.rawText ∧
        old.normalizedKey = u.normalizedKey) ∨
      u.rawText = rawText ∧ u.normalizedKey = key := by
  unfold upsertUnknownSkill at hu
  split at hu
  · next existing hfind =>
      have hexisting := List.mem_of_find?_eq_some hfind
      rcases (Table.mem_replace _ _ _).mp hu with ⟨hold, -⟩ | ⟨rfl, -⟩
      · exact .inl ⟨u, hold, rfl, rfl⟩
      · exact .inl ⟨existing, hexisting, rfl, rfl⟩
  · rcases List.mem_append.mp hu with hold | hnew
    · exact .inl ⟨u, hold, rfl, rfl⟩
    · obtain rfl := List.mem_singleton.mp hnew
      exact .inr ⟨rfl, rfl⟩

theorem hasText_upsertUnknownSkill (store : SkillStore) (rawText : String) (key : Option String)
    (other : String) :
    HasText (upsertUnknownSkill store rawText key).1 other ↔
      HasText store other ∨ other = rawText := by
  constructor
  · rintro ⟨u, hu, rfl⟩
    rcases mem_upsertUnknownSkill store rawText key u hu with ⟨old, hold, htext, -⟩ | ⟨htext, -⟩
    · exact .inl ⟨old, hold, htext⟩
    · exact .inr htext
  · unfold upsertUnknownSkill
    split
    · next existing hfind =>
        have hexisting := List.mem_of_find?_eq_some hfind
        have htext : existing.rawText = rawText := by simpa using List.find?_some hfind
        have hbumped : bump existing ∈ (store.unknownSkills.replace (bump existing)).rows :=
          (Table.mem_replace _ _ _).mpr (.inr ⟨rfl, existing, hexisting, rfl⟩)
        rintro (⟨old, hold, rfl⟩ | rfl)
        · by_cases hsame : old.id = existing.id
          · rw [store.unknownSkills.eq_of_key_eq hold hexisting hsame]
            exact ⟨bump existing, hbumped, rfl⟩
          · exact ⟨old, (Table.mem_replace _ _ _).mpr (.inl ⟨hold, hsame⟩), rfl⟩
        · exact ⟨bump existing, hbumped, htext⟩
    · rintro (⟨old, hold, rfl⟩ | rfl)
      · exact ⟨old, List.mem_append_left _ hold, rfl⟩
      · exact ⟨_, List.mem_append_right _ (List.mem_singleton.mpr rfl), rfl⟩

theorem addUnknownSkill_unknownSkills (store : SkillStore) (m : SkillMatchResult) :
    (addUnknownSkill jdId store m).unknownSkills =
      if m.canonicalSkillId = none then
        (upsertUnknownSkill store m.rawText (some m.normalizedText)).1.unknownSkills
      else
        store.unknownSkills := by
  unfold addUnknownSkill linkUnknownSkillToJd
  cases m.canonicalSkillId with
  | some c => rfl
  | none =>
    dsimp only
    split <;> rfl

theorem hasText_addUnknownSkill (store : SkillStore) (m : SkillMatchResult) (rawText : String) :
    HasText (addUnknownSkill jdId store m) rawText ↔
      HasText store rawText ∨ m.canonicalSkillId = none ∧ rawText = m.rawText := by
  have hupsert := hasText_upsertUnknownSkill store m.rawText (some m.normalizedText) rawText
  unfold HasText at hupsert ⊢
  rw [addUnknownSkill_unknownSkills]
  split_ifs with hnone
  · simpa [hnone] using hupsert
  · simp [hnone]

theorem keyedBy_addUnknownSkill (store : SkillStore) (m : SkillMatchResult) (rawText key : String)
    (h : KeyedBy store rawText key) (hm : m.rawText = rawText → m.normalizedText = key) :
    KeyedBy (addUnknownSkill jdId store m) rawText key := by
  intro u hu htext
  rw [addUnknownSkill_unknownSkills] at hu
  split_ifs at hu
  · rcases mem_upsertUnknownSkill store _ _ u hu with ⟨old, hold, hsame, hkey⟩ | ⟨hnew, hkey⟩
    · rw [← hkey]
      exact h old hold (hsame.trans htext)
    · rw [hkey, hm (hnew.symm.trans htext)]
  · exact h u hu htext

theorem hasText_foldl (store : SkillStore) (rawText : String) :
    HasText (skillMatches.foldl (addUnknownSkill jdId) store) rawText ↔
      HasText store rawText ∨ ∃ m ∈ skillMatches, m.canonicalSkillId = none ∧
        rawText = m.rawText := by
  induction skillMatches generalizing store with
  | nil => simp
  | cons m rest ih =>
    rw [List.foldl_cons, ih, hasText_addUnknownSkill, or_assoc]
    simp

theorem keyedBy_foldl (store : SkillStore) (rawText key : String) (h : KeyedBy store rawText key)
    (hkey : ∀ m ∈ skillMatches, m.rawText = rawText → m.normalizedText = key) :
    KeyedBy (skillMatches.foldl (addUnknownSkill jdId) store) rawText key := by
  induction skillMatches generalizing store with
  | nil => exact h
  | cons m rest ih =>
    have hstep := keyedBy_addUnknownSkill jdId store m rawText key h (hkey m List.mem_cons_self)
    exact ih _ hstep fun other hother => hkey other (List.mem_cons_of_mem _ hother)

theorem foldl_addUnknownSkill_storedMatch
    (store : SkillStore) (h : ∀ m ∈ skillMatches, m.canonicalSkillId = none →
      m.normalizedText = "" ∨ HasText store m.rawText) :
    (skillMatches.map storedMatch).foldl (addUnknownSkill jdId) store =
      skillMatches.foldl (addUnknownSkill jdId) store := by
  induction skillMatches generalizing store with
  | nil => rfl
  | cons m rest ih =>
    have hstep : addUnknownSkill jdId store (storedMatch m) = addUnknownSkill jdId store m := by
      unfold addUnknownSkill
      rw [storedMatch_canonicalSkillId]
      cases hc : m.canonicalSkillId with
      | some c => rfl
      | none =>
        have hupsert : upsertUnknownSkill store m.rawText (some "") =
            upsertUnknownSkill store m.rawText (some m.normalizedText) := by
          rcases h m List.mem_cons_self hc with hempty | htext
          · rw [hempty]
          · exact upsertUnknownSkill_of_hasText store m.rawText _ _ htext
        simp only [storedMatch_rawText, storedMatch_mandatory, ← hupsert]
        rfl
    rw [List.map_cons, List.foldl_cons, List.foldl_cons, hstep]
    apply ih
    intro other hother hnone
    apply (h other (List.mem_cons_of_mem _ hother) hnone).imp_right
    intro htext
    exact (hasText_addUnknownSkill jdId store m other.rawText).mpr (.inl htext)

theorem persistSkills_storedMatch (store : SkillStore) (skillMatches : List SkillMatchResult)
    (normalize : String → String)
    (htext : ∀ m ∈ skillMatches, m.normalizedText = normalize m.rawText) :
    persistSkills store jdId (skillMatches.map storedMatch) =
        persistSkills store jdId skillMatches ↔
      SurviveStorage store skillMatches := by
  unfold persistSkills
  rw [matchedBySkill_storedMatch]
  generalize hkept : matchedBySkill skillMatches = kept
  have hmatched := hkept ▸ matchedBySkill_matched skillMatches
  constructor
  · intro h
    have hrows := congrArg (fun store' : SkillStore => store'.jdSkills.rows) h
    simp only [foldl_addUnknownSkill_frame, rows_foldl_addJdSkill] at hrows
    have hnew := List.append_cancel_left hrows
    constructor
    · intro m hm
      rw [hkept] at hm
      exact newRows_storedMatch jdId skillMatches kept _ hnew.symm m hm (hmatched m hm)
    · intro m hm hnone
      by_contra hlost
      obtain ⟨hnonempty, habsent⟩ := not_or.mp hlost
      -- both runs create the row of the text, each under its own key
      have hfresh (skillMatches' matched : List SkillMatchResult) (key : String) : KeyedBy
          (matched.foldl (addJdSkill jdId skillMatches') store) m.rawText key := by
        intro u hu htext'
        rw [(SkillStore.addJdSkill_frame jdId skillMatches' matched).1] at hu
        exact absurd ⟨u, hu, htext'⟩ habsent
      have hkeyed := keyedBy_foldl jdId skillMatches _ m.rawText (normalize m.rawText)
        (hfresh skillMatches kept _) fun other hother hsame => by rw [htext other hother, hsame]
      have hkeyed' := keyedBy_foldl jdId (skillMatches.map storedMatch) _ m.rawText ""
        (hfresh (skillMatches.map storedMatch) (kept.map storedMatch) _) (by
          intro other hother _
          obtain ⟨old, -, rfl⟩ := List.mem_map.mp hother
          rfl)
      obtain ⟨u, hu, htext'⟩ := (hasText_foldl jdId skillMatches
        (kept.foldl (addJdSkill jdId skillMatches) store) m.rawText).mpr
          (.inr ⟨m, hm, hnone, rfl⟩)
      have hkey := hkeyed u hu htext'
      rw [← h] at hu
      rw [hkeyed' u hu htext', ← htext m hm] at hkey
      exact hnonempty (Option.some.inj hkey).symm
  · rintro ⟨hmatches, htexts⟩
    rw [hkept] at hmatches
    rw [foldl_addJdSkill_storedMatch jdId skillMatches kept hmatches,
      foldl_addUnknownSkill_storedMatch]
    intro m hm hnone
    unfold HasText
    rw [(SkillStore.addJdSkill_frame jdId skillMatches kept).1]
    exact htexts m hm hnone

end JDService

end AiHiring
