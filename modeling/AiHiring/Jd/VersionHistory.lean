import AiHiring.Jd.Lineage
import AiHiring.Library.Listing

namespace AiHiring

open Library

namespace JDRepository

variable (db : JdDatabase)

def exportSingleJd (jdId : Uuid) : Option JobDescription := db.jobDescriptions.versions.find? jdId

-- What ORDER BY version_number may return; a NULL is not equal to the root.
def GetVersionHistory (lineageRootId : Uuid) (versionHistory : List JobDescription) : Prop :=
  Listing (fun jd => OrderDual.toDual jd.versionNumber)
    (db.jobDescriptions.rows.filter fun jd => jd.lineageRootId = some lineageRootId)
    versionHistory

end JDRepository

namespace JDService

variable (db : JdDatabase)

def ExportSingleJd (jdId : Uuid) (versionHistory : List JobDescription) : Prop :=
  ∃ jd, JDRepository.exportSingleJd db jdId = some jd ∧
    JDRepository.GetVersionHistory db (jd.lineageRootId.getD jd.id) versionHistory

-- Every version of the lineage once, in ascending order, and no row of another one.
def CompleteHistory (jd : JobDescription) (versionHistory : List JobDescription) : Prop :=
  Listing (fun version => OrderDual.toDual version.versionNumber)
    (db.jobDescriptions.rows.filter fun version => version.lineage = jd.lineage) versionHistory

end JDService

namespace JdLineage

open World

-- A history lists the later versions of the lineage only, so that no history is complete.
theorem exported_history_misses_root (generateHash : String → String) (db : JdDatabase)
    (path : List (Event × World)) (hp : Path (World.Step generateHash) (begin db) path) :
    ∀ w ∈ visited (begin db) path, ∀ jd ∈ w.rows, ∀ versionHistory,
      JDService.ExportSingleJd w.db jd.id versionHistory →
        ¬JDService.CompleteHistory w.db jd versionHistory ∧
          Listing (fun version => OrderDual.toDual version.versionNumber)
            (w.rows.filter fun version => version.lineage = jd.lineage ∧
              version.lineageRootId ≠ none) versionHistory := by
  rintro w hw jd hjd versionHistory ⟨found, hfound, hhistory⟩
  obtain ⟨hmem, hid⟩ := (w.db.jobDescriptions.versions.find?_eq_some _ _).mp hfound
  obtain rfl := eq_of_id hmem hjd hid
  have hi := hp.invariant (inv_begin db) (fun _ event _ => inv_step generateHash event) w hw
  -- the versions that the query selects are those that are not roots
  have hselected (version : JobDescription) : version.lineageRootId = some found.lineage ↔
      version.lineage = found.lineage ∧ version.lineageRootId ≠ none := by
    constructor
    · intro hsome
      exact ⟨lineage_some hsome, by simp [hsome]⟩
    · rintro ⟨hlineage, hnotRoot⟩
      rcases root_or_some version with ⟨hroot, -⟩ | hsome
      · exact absurd hroot hnotRoot
      · rw [hsome, hlineage]
  have hlater : Listing (fun version => OrderDual.toDual version.versionNumber)
      (w.rows.filter fun version => version.lineage = found.lineage ∧
        version.lineageRootId ≠ none) versionHistory := by
    simp only [← hselected]
    exact hhistory
  refine ⟨fun hcomplete => ?_, hlater⟩
  obtain ⟨root, hmemRoot, hrootId, hroot⟩ := hi.lineages.rooted found hmem
  have hin : root ∈ versionHistory := by
    apply hcomplete.mem_iff.mpr
    exact List.mem_filter.mpr ⟨hmemRoot, decide_eq_true ((lineage_root hroot).trans hrootId)⟩
  have hout := List.of_mem_filter (hlater.mem_iff.mp hin)
  exact (of_decide_eq_true hout).2 hroot

theorem exported_creation : ∃ jd ∈ (final (begin emptyDb) (lineageRun creation)).rows,
    JDService.ExportSingleJd (final (begin emptyDb) (lineageRun creation)).db jd.id [] :=
  ⟨_, List.mem_singleton_self _, _, rfl, List.Perm.refl [], List.Pairwise.nil⟩

theorem exported_history_misses_root_created :
    ∃ jd ∈ (final (begin emptyDb) (lineageRun creation)).rows,
      ¬JDService.CompleteHistory (final (begin emptyDb) (lineageRun creation)).db jd [] := by
  obtain ⟨jd, hjd, hexported⟩ := exported_creation
  exact ⟨jd, hjd, (exported_history_misses_root id emptyDb (lineageRun creation)
    (lineageRun_path creation) _ (final_mem_visited _ _) jd hjd [] hexported).1⟩

-- The only version of a lineage has an empty history.
theorem created_version_not_exported :
    ¬∀ (generateHash : String → String) (db : JdDatabase) (path : List (Event × World)),
      Path (World.Step generateHash) (begin db) path → ∀ w ∈ visited (begin db) path,
        ∀ jd ∈ w.rows, ∀ versionHistory, JDService.ExportSingleJd w.db jd.id versionHistory →
            JDService.CompleteHistory w.db jd versionHistory := by
  intro h
  obtain ⟨jd, hjd, hexported⟩ := exported_creation
  have hcomplete := h id emptyDb (lineageRun creation) (lineageRun_path creation) _
    (final_mem_visited _ _) jd hjd [] hexported
  have hin := hcomplete.mem_iff.mpr (List.mem_filter.mpr ⟨hjd, decide_eq_true rfl⟩)
  simp at hin

end JdLineage

end AiHiring
