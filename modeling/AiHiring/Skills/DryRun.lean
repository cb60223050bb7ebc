import AiHiring.Skills.BulkImport

namespace AiHiring

namespace SkillOntologyService

structure BulkImportValidationError where
  row : ℕ
  (column message : String)
  deriving DecidableEq

structure BulkImportValidationResponse where
  success : Bool
  (totalRows validRows invalidRows : ℕ)
  validationErrors : List BulkImportValidationError

section Validation

variable (existing allInFile : List String)

def report (row : ImportRow) (column message : String) (wrong : Bool) :
    List BulkImportValidationError :=
  if wrong then [⟨row.rowNumber, column, message⟩] else []

-- The name of another row, else of a stored skill.
def nameErrors (seen : List String) (row : ImportRow) : List BulkImportValidationError :=
  if row.canonicalName ∈ seen then
    report row "canonical_name" "Duplicate canonical_name within uploaded file." true
  else
    report row "canonical_name" "Skill already exists." (row.canonicalName ∈ existing)

def parentErrors (row : ImportRow) : List BulkImportValidationError :=
  match row.parentName with
  | none => []
  | some parent =>
    report row "parent_skill" s!"Parent skill '{parent}' does not exist."
      (parent ∉ existing ∧ parent ∉ allInFile)

-- The checks of one row, each of which reports what it finds.
def rowErrors (seen : List String) (row : ImportRow) : List BulkImportValidationError :=
  if row.canonicalName = "" then
    report row "canonical_name" "canonical_name is required." true
  else
    report row "confidence" "Confidence must be 'verified' or 'unverified'."
        (row.confidence ∉ ["verified", "unverified"]) ++
      nameErrors existing seen row ++ parentErrors existing allInFile row ++
      report row "aliases" "Aliases must not contain blank values." (row.aliases.any (· = ""))

def seenAfter (seen : List String) (row : ImportRow) : List String :=
  if row.canonicalName = "" ∨ row.canonicalName ∈ seen then seen else row.canonicalName :: seen

def validateFrom (seen : List String) : List ImportRow → List BulkImportValidationError
  | [] => []
  | row :: rest => rowErrors existing allInFile seen row ++ validateFrom (seenAfter seen row) rest

end Validation

def canonicalNamesInFile (rows : List ImportRow) : List String :=
  (rows.map ImportRow.canonicalName).filter (· ≠ "")

def validateRows (t : SkillOntologyTable) (rows : List ImportRow) :
    BulkImportValidationResponse :=
  let errors := validateFrom t.names (canonicalNamesInFile rows) [] rows
  let invalidRows := (errors.map BulkImportValidationError.row).dedup.length
  { success := true
    totalRows := rows.length
    validRows := rows.length - invalidRows
    invalidRows := invalidRows
    validationErrors := errors }

def Valid (t : SkillOntologyTable) (rows : List ImportRow) (row : ImportRow) : Prop :=
  ∀ error ∈ (validateRows t rows).validationErrors, error.row ≠ row.rowNumber

section Valid

variable (existing allInFile seen : List String) (row : ImportRow)

theorem row_of_mem_report (column message : String) (wrong : Bool)
    (error : BulkImportValidationError) (h : error ∈ report row column message wrong) :
    error.row = row.rowNumber := by
  unfold report at h
  split_ifs at h
  · rw [List.mem_singleton.mp h]
  · simp at h

theorem report_eq_nil (column message : String) (wrong : Bool) :
    report row column message wrong = [] ↔ wrong = false := by
  cases wrong <;> simp [report]

theorem row_of_mem_rowErrors (error : BulkImportValidationError)
    (h : error ∈ rowErrors existing allInFile seen row) : error.row = row.rowNumber := by
  have hreport := row_of_mem_report row
  unfold rowErrors at h
  by_cases hblank : row.canonicalName = ""
  · rw [if_pos hblank] at h
    exact hreport _ _ _ error h
  · rw [if_neg hblank] at h
    simp only [List.mem_append] at h
    rcases h with ((hconfidence | hname) | hparent) | haliases
    · exact hreport _ _ _ error hconfidence
    · unfold nameErrors at hname
      split_ifs at hname
      · exact hreport _ _ _ error hname
      · exact hreport _ _ _ error hname
    · unfold parentErrors at hparent
      split at hparent
      · simp at hparent
      · exact hreport _ _ _ error hparent
    · exact hreport _ _ _ error haliases

theorem rowErrors_eq_nil : rowErrors existing allInFile seen row = [] ↔
      row.Checked ∧ row.canonicalName ∉ seen ∧ row.canonicalName ∉ existing ∧
        ∀ parent ∈ row.parentName, parent ∈ existing ∨ parent ∈ allInFile := by
  have hname : nameErrors existing seen row = [] ↔
      row.canonicalName ∉ seen ∧ row.canonicalName ∉ existing := by
    unfold nameErrors
    by_cases hseen : row.canonicalName ∈ seen
    · simp [hseen, report]
    · simp [hseen, report_eq_nil]
  have hparent : parentErrors existing allInFile row = [] ↔
      ∀ parent ∈ row.parentName, parent ∈ existing ∨ parent ∈ allInFile := by
    unfold parentErrors
    cases row.parentName with
    | none => simp
    | some parent => simp [report_eq_nil, or_iff_not_imp_left]
  have hconfidence : decide (row.confidence ∉ ["verified", "unverified"]) = false ↔
      row.confidence ∈ ["verified", "unverified"] := by
    rw [decide_eq_false_iff_not, not_not]
  have haliases : row.aliases.any (· = "") = false ↔ "" ∉ row.aliases := by
    rw [Bool.eq_false_iff, Ne, List.any_eq_true]
    simp
  unfold rowErrors ImportRow.Checked
  by_cases hblank : row.canonicalName = ""
  · simp [hblank, report]
  · rw [if_neg hblank]
    simp only [List.append_eq_nil_iff, hname, hparent, report_eq_nil, hconfidence, haliases]
    tauto

theorem mem_seenAfter (name : String) :
    name ∈ seenAfter seen row ↔ name ∈ seen ∨ name ≠ "" ∧ name = row.canonicalName := by
  unfold seenAfter
  split_ifs with hskip
  · apply (or_iff_left_of_imp _).symm
    rintro ⟨hne, rfl⟩
    exact hskip.resolve_left hne
  · obtain ⟨hne, -⟩ := not_or.mp hskip
    rw [List.mem_cons]
    constructor
    · rintro (rfl | hold)
      · exact .inr ⟨hne, rfl⟩
      · exact .inl hold
    · rintro (hold | ⟨-, rfl⟩)
      · exact .inr hold
      · exact .inl rfl

theorem checks_of_validateFrom (before after : List ImportRow)
    (h : ∀ error ∈ validateFrom existing allInFile seen (before ++ row :: after),
      error.row ≠ row.rowNumber) :
    row.Checked ∧ row.canonicalName ∉ seen ∧ row.canonicalName ∉ existing ∧
      (∀ parent ∈ row.parentName, parent ∈ existing ∨ parent ∈ allInFile) ∧
      row.canonicalName ∉ before.map ImportRow.canonicalName := by
  induction before generalizing seen with
  | nil =>
    rw [List.nil_append, validateFrom] at h
    have hnone : rowErrors existing allInFile seen row = [] := by
      apply List.eq_nil_iff_forall_not_mem.mpr
      intro error herror
      exact h error (List.mem_append_left _ herror)
        (row_of_mem_rowErrors existing allInFile seen row error herror)
    obtain ⟨hchecked, hseen, hexisting, hparent⟩ :=
      (rowErrors_eq_nil existing allInFile seen row).mp hnone
    exact ⟨hchecked, hseen, hexisting, hparent, by simp⟩
  | cons first rest ih =>
    rw [List.cons_append, validateFrom] at h
    obtain ⟨hchecked, hseen, hexisting, hparent, hbefore⟩ :=
      ih (seenAfter seen first) fun error herror => h error (List.mem_append_right _ herror)
    rw [mem_seenAfter, not_or, not_and] at hseen
    refine ⟨hchecked, hseen.1, hexisting, hparent, ?_⟩
    rw [List.map_cons, List.mem_cons, not_or]
    exact ⟨hseen.2 hchecked.1, hbefore⟩

end Valid

section Imported

variable (planned : String → Option Uuid) (state : BulkImport) (row : ImportRow)

def BulkImport.total (state : BulkImport) : ℕ :=
  state.inserted + state.updated + state.skipped + state.failed

theorem total_importRow : (importRow planned state row).total = state.total + 1 := by
  unfold importRow BulkImport.total
  cases checkRow row with
  | error reason =>
    simp only [BulkImport.fail]
    omega
  | ok checked =>
    dsimp only
    split_ifs
    · dsimp only
      omega
    · cases resolveParentName state.skills planned row.parentName with
      | error reason =>
        simp only [BulkImport.fail]
        omega
      | ok parentSkillId =>
        unfold writeRow
        dsimp only
        split
        · split <;> simp only [BulkImport.fail] <;> omega
        · split
          · simp only [BulkImport.fail]
            omega
          · split <;> simp only [BulkImport.fail] <;> omega

theorem total_foldl_importRow (rows : List ImportRow) :
    (rows.foldl (importRow planned) state).total = state.total + rows.length := by
  induction rows generalizing state with
  | nil => rfl
  | cons row rest ih =>
    rw [List.foldl_cons, ih, total_importRow, List.length_cons]
    omega

-- Only the counter of the inserted rows has moved.
structure Inserted (before after : BulkImport) : Prop where
  inserted : after.inserted = before.inserted + 1
  updated : after.updated = before.updated
  skipped : after.skipped = before.skipped
  failed : after.failed = before.failed

theorem importRow_new (hchecked : row.Checked) (hseen : row.canonicalName ∉ state.seenInFile)
    (hnew : row.canonicalName ∉ state.skills.names) :
    Inserted state (importRow planned state row) ∧
        row.canonicalName ∈ (importRow planned state row).skills.names ∨
      (importRow planned state row).inserted = state.inserted ∧
        (importRow planned state row).skills = state.skills := by
  have hget := (state.skills.getByCanonicalNameExact_eq_none row.canonicalName).mpr hnew
  rw [importRow_checked planned state row hchecked hseen]
  cases resolveParentName state.skills planned row.parentName with
  | error reason => exact .inr ⟨rfl, rfl⟩
  | ok parentSkillId =>
    unfold writeRow
    simp only [hget]
    cases planned row.canonicalName with
    | none => exact .inr ⟨rfl, rfl⟩
    | some id =>
      dsimp only
      cases hcreate : SkillOntologyRepository.createSkill state.skills
          (importedSkill id row parentSkillId) with
      | error reason => exact .inr ⟨rfl, rfl⟩
      | ok skills =>
        have hwrote := SkillOntologyTable.wrote_createSkill state.skills skills _ hcreate
        exact .inl ⟨⟨rfl, rfl, rfl, rfl⟩, (hwrote.mem_names _).mpr (.inl rfl)⟩

theorem inserted_importRow (h : Reserved planned state.skills)
    (hchecked : row.Checked) (hseen : row.canonicalName ∉ state.seenInFile)
    (hnew : row.canonicalName ∉ state.skills.names)
    (hplanned : ∃ id, planned row.canonicalName = some id) :
    Inserted state (importRow planned state row) ↔
      ∀ parent ∈ row.parentName, parent = row.canonicalName ∨ parent ∈ state.skills.names := by
  obtain ⟨haccept, hrefuse⟩ :=
    importRow_wrote planned state row h (fun _ => hplanned) hchecked hseen
  have hcases := importRow_new planned state row hchecked hseen hnew
  constructor
  · intro hinserted
    by_contra hparent
    have hsame := hrefuse hparent
    rcases hcases with ⟨-, hname⟩ | ⟨hcount, -⟩
    · exact hnew (hsame ▸ hname)
    · have hmore := hinserted.inserted
      omega
  · intro hparent
    obtain ⟨skill, hskill, hwrote⟩ := haccept hparent
    rcases hcases with ⟨hinserted, -⟩ | ⟨-, hsame⟩
    · exact hinserted
    · -- a write leaves the name in the table
      have hname := (hwrote.mem_names skill.canonicalName).mpr (.inl rfl)
      rw [hsame, hskill.name] at hname
      exact absurd hname hnew

theorem reserved_importRow (h : Reserved planned state.skills)
    (hplanned : row.canonicalName ≠ "" → row.canonicalName ∉ state.skills.names →
      ∃ id, planned row.canonicalName = some id) :
    Reserved planned (importRow planned state row).skills ∧
      ∀ name ∈ state.skills.names, name ∈ (importRow planned state row).skills.names := by
  by_cases hskip : ¬row.Checked ∨ row.canonicalName ∈ state.seenInFile
  · obtain ⟨hsame, -⟩ := importRow_skip planned state row hskip
    rw [hsame]
    exact ⟨h, fun _ hname => hname⟩
  · obtain ⟨hchecked, hseen⟩ := not_or.mp hskip
    rw [not_not] at hchecked
    obtain ⟨haccept, hrefuse⟩ :=
      importRow_wrote planned state row h (hplanned hchecked.1) hchecked hseen
    by_cases hparent : ∀ p ∈ row.parentName, p = row.canonicalName ∨ p ∈ state.skills.names
    · obtain ⟨skill, hskill, hwrote⟩ := haccept hparent
      exact ⟨h.wrote hwrote hskill.reserved,
        fun name hname => (hwrote.mem_names name).mpr (.inr hname)⟩
    · rw [hrefuse hparent]
      exact ⟨h, fun _ hname => hname⟩

theorem reserved_foldl (rows : List ImportRow) (h : Reserved planned state.skills)
    (hplanned : ∀ row ∈ rows, row.canonicalName ≠ "" → row.canonicalName ∉ state.skills.names →
      ∃ id, planned row.canonicalName = some id) :
    Reserved planned (rows.foldl (importRow planned) state).skills ∧
      ∀ name ∈ state.skills.names, name ∈ (rows.foldl (importRow planned) state).skills.names := by
  induction rows generalizing state with
  | nil => exact ⟨h, fun _ hname => hname⟩
  | cons row rest ih =>
    obtain ⟨hnext, hmore⟩ := reserved_importRow planned state row h
      (hplanned row List.mem_cons_self)
    obtain ⟨hrest, hkept⟩ := ih (importRow planned state row) hnext
      fun later hlater hne hnew => hplanned later (List.mem_cons_of_mem _ hlater) hne
        fun hname => hnew (hmore _ hname)
    exact ⟨hrest, fun name hname => hkept name (hmore name hname)⟩

theorem seenInFile_foldl (rows : List ImportRow) (name : String)
    (h : name ∈ (rows.foldl (importRow planned) state).seenInFile) :
    name ∈ state.seenInFile ∨ name ∈ rows.map ImportRow.canonicalName := by
  induction rows generalizing state with
  | nil => exact .inl h
  | cons row rest ih =>
    rw [List.map_cons, List.mem_cons]
    rcases ih (importRow planned state row) h with hseen | hrest
    · by_cases hskip : ¬row.Checked ∨ row.canonicalName ∈ state.seenInFile
      · rw [(importRow_skip planned state row hskip).2] at hseen
        exact .inl hseen
      · obtain ⟨hchecked, hunseen⟩ := not_or.mp hskip
        rw [not_not] at hchecked
        rw [importRow_seenInFile planned state row hchecked hunseen] at hseen
        rcases List.mem_cons.mp hseen with rfl | hold
        · exact .inr (.inl rfl)
        · exact .inl hold
    · exact .inr (.inr hrest)

theorem parentName_seen (rows : List ImportRow) (h : Reserved planned state.skills)
    (hplanned : ∀ row ∈ rows, row.canonicalName ≠ "" → row.canonicalName ∉ state.skills.names →
      ∃ id, planned row.canonicalName = some id)
    (name : String) (hseen : name ∈ state.seenInFile) :
    (rows.foldl (importRow planned) state).skills.parentName name =
      state.skills.parentName name := by
  have hfold := foldl_importRow planned state SkillOntologyTable.parentName ImportRow.parentName (by
      intro before after row skill hskill hwrote
      have hassigned := assigned_of_wrote before row after skill hwrote hskill.name hskill.parent
      exact ⟨hassigned.self, hassigned.others⟩)
    rows state.skills.names h hplanned (fun _ => Iff.rfl)
  rw [hfold, laidOver, find?_writtenRows_seen rows _ _ name hseen]

end Imported

section Predicted

variable (t : SkillOntologyTable) (rows : List ImportRow)

def importedBefore (before : List ImportRow) : BulkImport :=
  before.foldl (importRow (plannedIds t rows))
    { skills := t, seenInFile := [], inserted := 0, updated := 0, skipped := 0, failed := 0,
      failures := [] }

theorem writtenRows_subset (before : List ImportRow) (known seen : List String) :
    writtenRows known seen before ⊆ before := by
  induction before generalizing known seen with
  | nil => simp [writtenRows]
  | cons row rest ih =>
    rw [writtenRows]
    split_ifs
    · exact List.subset_cons_of_subset row (ih known seen)
    · exact List.cons_subset_cons row (ih _ _)
    · exact List.subset_cons_of_subset row (ih known _)

theorem names_importedBefore (before : List ImportRow) (hsub : ∀ row ∈ before, row ∈ rows)
    (name : String) :
    name ∈ (importedBefore t rows before).skills.names ↔
      name ∈ t.names ∨ ∃ row ∈ writtenRows t.names [] before, row.canonicalName = name := by
  have hfold := foldl_importRow (plannedIds t rows)
    { skills := t, seenInFile := [], inserted := 0, updated := 0, skipped := 0, failed := 0,
      failures := [] }
    (fun t name => name ∈ t.names) (fun _ => True)
    (by
      intro earlier later row skill hskill hwrote
      constructor
      · exact eq_true ((hwrote.mem_names _).mpr (.inl hskill.name.symm))
      · intro other hother
        rw [hwrote.mem_names, hskill.name]
        exact propext (or_iff_right hother))
    before t.names (reserved_plannedIds t rows)
    (fun row hrow hne hnew => planned_of_mem t rows row (hsub row hrow) hne hnew)
    (fun _ => Iff.rfl)
  have hname := congrFun hfold name
  rw [laidOver] at hname
  rw [importedBefore, hname]
  cases hfind : (writtenRows t.names [] before).find? fun row =>
      decide (row.canonicalName = name) with
  | none =>
    have hnone : ¬∃ row ∈ writtenRows t.names [] before, row.canonicalName = name := by
      rintro ⟨row, hrow, hsame⟩
      exact absurd (decide_eq_true hsame) (by simpa using List.find?_eq_none.mp hfind row hrow)
    simp [hnone]
  | some row =>
    have hsame := List.find?_some hfind
    exact iff_of_true trivial
      (.inr ⟨row, List.mem_of_find?_eq_some hfind, of_decide_eq_true hsame⟩)

-- The row is there, and its parent is the skill that the row names.
def StoredWithParent (row : ImportRow) : Prop :=
  ∃ skill ∈ t.skills.rows, skill.canonicalName = row.canonicalName ∧
    match row.parentName with
    | none => skill.parentSkillId = none
    | some name => ∃ parent ∈ t.skills.rows,
        parent.canonicalName = name ∧ skill.parentSkillId = some parent.id

theorem storedWithParent_of_parentName (row : ImportRow) (hname : row.canonicalName ∈ t.names)
    (hparent : t.parentName row.canonicalName = row.parentName) : StoredWithParent t row := by
  obtain ⟨skill, hskill, hsame⟩ := List.mem_map.mp hname
  refine ⟨skill, hskill, hsame, ?_⟩
  cases hgiven : row.parentName with
  | none =>
    cases hid : skill.parentSkillId with
    | none => rfl
    | some id =>
      have hfk := t.fkParentSkill skill hskill
      rw [hid] at hfk
      obtain ⟨parent, hin, rfl⟩ := List.mem_map.mp (of_decide_eq_true hfk)
      have hsome := (t.parentName_eq_some row.canonicalName parent.canonicalName).mpr
        ⟨skill, hskill, parent, hin, hsame, hid, rfl⟩
      rw [hparent, hgiven] at hsome
      simp at hsome
  | some name =>
    obtain ⟨found, hfound, parent, hin, hother, hid, hcalled⟩ :=
      (t.parentName_eq_some row.canonicalName name).mp (hparent.trans hgiven)
    obtain rfl := t.uqCanonicalName found hfound skill hskill (hother.trans hsame.symm)
    exact ⟨parent, hin, hcalled, hid⟩

theorem storedWithParent_foldl (planned : String → Option Uuid) (state : BulkImport)
    (row : ImportRow) (after : List ImportRow) (hreserved : Reserved planned state.skills)
    (hchecked : row.Checked) (hseen : row.canonicalName ∉ state.seenInFile)
    (hplanned : ∀ later ∈ row :: after, later.canonicalName ≠ "" →
      later.canonicalName ∉ state.skills.names → ∃ id, planned later.canonicalName = some id)
    (hself : ∃ id, planned row.canonicalName = some id)
    (hparent : ∀ parent ∈ row.parentName,
      parent = row.canonicalName ∨ parent ∈ state.skills.names) :
    StoredWithParent ((row :: after).foldl (importRow planned) state).skills row := by
  obtain ⟨skill, hskill, hwrote⟩ :=
    (importRow_wrote planned state row hreserved (fun _ => hself) hchecked hseen).1 hparent
  have hassigned := assigned_of_wrote state row (importRow planned state row) skill hwrote
    hskill.name hskill.parent
  obtain ⟨hnext, hmore⟩ := reserved_importRow planned state row hreserved fun _ _ => hself
  have hlater : ∀ later ∈ after, later.canonicalName ≠ "" →
      later.canonicalName ∉ (importRow planned state row).skills.names →
        ∃ id, planned later.canonicalName = some id := by
    intro later h hne hname
    exact hplanned later (List.mem_cons_of_mem _ h) hne fun hold => hname (hmore _ hold)
  have hmarked : row.canonicalName ∈ (importRow planned state row).seenInFile := by
    rw [importRow_seenInFile _ _ row hchecked hseen]
    exact List.mem_cons_self
  rw [List.foldl_cons]
  apply storedWithParent_of_parentName
  · apply (reserved_foldl planned _ after hnext hlater).2
    exact (hassigned.names _).mpr (.inl rfl)
  · rw [parentName_seen planned _ after hnext hlater _ hmarked]
    exact hassigned.self

-- What the dry run promises for a row without errors.
structure Imported (before : List ImportRow) (row : ImportRow) : Prop where
  inserted : Inserted (importedBefore t rows before)
    (importRow (plannedIds t rows) (importedBefore t rows before) row)
  stored : StoredWithParent (executeBulkImport t rows).skills row

-- The parent is the row itself, a stored skill, or the name of a row written further up.
def ParentKnown (before : List ImportRow) (row : ImportRow) : Prop :=
  ∀ parent ∈ row.parentName, parent = row.canonicalName ∨ parent ∈ t.names ∨
    ∃ earlier ∈ writtenRows t.names [] before, earlier.canonicalName = parent

theorem imported_iff (before after : List ImportRow) (row : ImportRow)
    (hrows : rows = before ++ row :: after) (hvalid : Valid t rows row) :
    Imported t rows before row ↔ ParentKnown t before row := by
  have hbefore : ∀ earlier ∈ before, earlier ∈ rows := fun earlier h =>
    hrows ▸ List.mem_append_left _ h
  have hself : row ∈ rows := hrows ▸ List.mem_append_right _ List.mem_cons_self
  obtain ⟨hchecked, -, hexisting, -, hfirst⟩ := checks_of_validateFrom t.names
    (canonicalNamesInFile rows) [] row before after (hrows ▸ hvalid)
  have hnames := names_importedBefore t rows before hbefore
  -- no row before has the name, so none has written it
  have hnew : row.canonicalName ∉ (importedBefore t rows before).skills.names := by
    rw [hnames, not_or]
    refine ⟨hexisting, ?_⟩
    rintro ⟨earlier, hwritten, hsame⟩
    exact hfirst (hsame ▸ List.mem_map_of_mem (writtenRows_subset before _ _ hwritten))
  have hseen : row.canonicalName ∉ (importedBefore t rows before).seenInFile := by
    intro hmem
    rcases seenInFile_foldl (plannedIds t rows) _ before _ hmem with hnone | hname
    · simp at hnone
    · exact hfirst hname
  have hplanned (later : ImportRow) (hlater : later ∈ rows) (hne : later.canonicalName ≠ "")
      (hname : later.canonicalName ∉ t.names) :=
    planned_of_mem t rows later hlater hne hname
  obtain ⟨hreserved, hkept⟩ := reserved_foldl (plannedIds t rows)
    { skills := t, seenInFile := [], inserted := 0, updated := 0, skipped := 0, failed := 0,
      failures := [] }
    before (reserved_plannedIds t rows) fun earlier h => hplanned earlier (hbefore earlier h)
  have hinserted := inserted_importRow (plannedIds t rows) (importedBefore t rows before) row
    hreserved hchecked hseen hnew (hplanned row hself hchecked.1 hexisting)
  have hknown : ParentKnown t before row ↔ ∀ parent ∈ row.parentName,
      parent = row.canonicalName ∨ parent ∈ (importedBefore t rows before).skills.names := by
    simp only [ParentKnown, hnames]
  rw [hknown]
  constructor
  · exact fun h => hinserted.mp h.inserted
  · intro hparent
    refine ⟨hinserted.mpr hparent, ?_⟩
    have hfinal : executeBulkImport t rows = (row :: after).foldl (importRow (plannedIds t rows))
        (importedBefore t rows before) := by
      rw [executeBulkImport, hrows, List.foldl_append, importedBefore]
    have hremaining : ∀ later ∈ row :: after, later ∈ rows := fun later h =>
      hrows ▸ List.mem_append_right _ h
    rw [hfinal]
    apply storedWithParent_foldl (plannedIds t rows) _ row after hreserved hchecked hseen ?_
      (hplanned row hself hchecked.1 hexisting) hparent
    intro later h hne hname
    exact hplanned later (hremaining later h) hne fun hold => hname (hkept _ hold)

theorem dry_run_predicts : (∀ before row after, rows = before ++ row :: after → Valid t rows row →
      (Imported t rows before row ↔ ParentKnown t before row)) ∧
    (executeBulkImport t rows).total = rows.length := by
  constructor
  · intro before row after hrows hvalid
    exact imported_iff t rows before after row hrows hvalid
  · have htotal := total_foldl_importRow (plannedIds t rows)
      { skills := t, seenInFile := [], inserted := 0, updated := 0, skipped := 0, failed := 0,
        failures := [] } rows
    rw [executeBulkImport, htotal]
    simp [BulkImport.total]

def sheetRow (rowNumber : ℕ) (canonicalName : String) (parentSkill : Option String) :
    ImportRow where
  rowNumber := rowNumber
  canonicalName := canonicalName
  aliases := []
  category := none
  parentSkill := parentSkill
  confidence := "verified"
  source := none
  isActive := true

theorem dry_run_predicts_parent_first : Imported SkillOntologyTable.empty
      [sheetRow 2 "python" none, sheetRow 3 "django" (some "python")]
      [sheetRow 2 "python" none] (sheetRow 3 "django" (some "python")) := by
  have hvalid : Valid SkillOntologyTable.empty
      [sheetRow 2 "python" none, sheetRow 3 "django" (some "python")]
      (sheetRow 3 "django" (some "python")) := by
    unfold Valid
    decide
  have hpredicts := (dry_run_predicts SkillOntologyTable.empty
    [sheetRow 2 "python" none, sheetRow 3 "django" (some "python")]).1
  apply (hpredicts [sheetRow 2 "python" none] (sheetRow 3 "django" (some "python")) [] rfl
    hvalid).mpr
  unfold ParentKnown
  decide

-- The parent comes later in the file: its reserved id is not in the table yet.
theorem parent_last_fails : ¬∀ (t : SkillOntologyTable) (rows : List ImportRow),
      (∀ before row after, rows = before ++ row :: after → Valid t rows row →
        Imported t rows before row) ∧
      (executeBulkImport t rows).total = rows.length := by
  intro h
  have hvalid : Valid SkillOntologyTable.empty
      [sheetRow 2 "django" (some "python"), sheetRow 3 "python" none]
      (sheetRow 2 "django" (some "python")) := by
    unfold Valid
    decide
  have himported := (h SkillOntologyTable.empty
    [sheetRow 2 "django" (some "python"), sheetRow 3 "python" none]).1 [] _ _ rfl hvalid
  exact absurd himported.inserted.inserted (by decide)

end Predicted

end SkillOntologyService

end AiHiring
