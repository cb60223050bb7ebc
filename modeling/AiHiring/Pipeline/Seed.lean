import AiHiring.Pipeline.Governance

namespace AiHiring

-- `_TRANSITIONS` as the seed inserts them, row by row.
def seedRows : List AllowedTransition := [
    -- UPLOADED
    ⟨none, .uploaded, .screening, ["SYSTEM"], false,
      some "Automated: deterministic scoring starting moves the candidate into screening."⟩,
    ⟨none, .uploaded, .fraudReview, ["SYSTEM"], true,
      some "Exception: automated fraud-pattern detection flags a freshly uploaded resume."⟩,
    -- SCREENING
    ⟨none, .screening, .shortlisted, ["RECRUITER", "SYSTEM"], false,
      some "Next: composite scoring shortlists a candidate; RECRUITER can also force it manually."⟩,
    ⟨none, .screening, .hold, ["RECRUITER"], false, some "Pause."⟩,
    ⟨none, .screening, .rejected, ["RECRUITER", "SYSTEM"], true,
      some ("Reject: hard rejection from the deterministic/semantic/AI screening layers, or " ++
        "a manual RECRUITER reject.")⟩,
    ⟨none, .screening, .fraudReview, ["RECRUITER", "SYSTEM"], true,
      some "Exception: automated fraud-pattern detection, or a manual RECRUITER flag."⟩,
    ⟨none, .screening, .uploaded, ["RECRUITER"], true,
      some "Reset: resume update before SHORTLISTED."⟩,
    -- SHORTLISTED
    ⟨none, .shortlisted, .hmReview, ["RECRUITER"], false,
      some ("Next - Optional: candidate handed to hiring manager for review. HM_REVIEW is " ++
        "optional, not every candidate passes through it.")⟩,
    ⟨none, .shortlisted, .interview, ["RECRUITER"], false,
      some "Next - Optional: skips HM_REVIEW directly to interview."⟩,
    ⟨none, .shortlisted, .hold, ["RECRUITER"], false, some "Pause."⟩,
    ⟨none, .shortlisted, .rejected, ["RECRUITER"], true, some "Reject."⟩,
    ⟨none, .shortlisted, .fraudReview, ["RECRUITER", "SYSTEM"], true,
      some "Exception: automated fraud-pattern detection, or a manual RECRUITER flag."⟩,
    ⟨none, .shortlisted, .uploaded, ["RECRUITER"], true,
      some "Reset: resume update once SHORTLISTED."⟩,
    ⟨some .hmReview, .shortlisted, .hmReview, ["HIRING_MANAGER"], false,
      some "Next (back into review)."⟩,
    ⟨some .hmReview, .shortlisted, .interview, ["HIRING_MANAGER"], false, some "Next."⟩,
    ⟨some .hmReview, .shortlisted, .hold, ["HIRING_MANAGER"], false, some "Pause."⟩,
    ⟨some .hmReview, .shortlisted, .rejected, ["HIRING_MANAGER"], true, some "Reject."⟩,
    ⟨some .hmReview, .shortlisted, .fraudReview, ["HIRING_MANAGER"], true, some "Exception."⟩,
    -- HM_REVIEW
    ⟨some .shortlisted, .hmReview, .interview, ["HIRING_MANAGER"], false, some "Next."⟩,
    ⟨some .shortlisted, .hmReview, .hold, ["HIRING_MANAGER"], false, some "Pause."⟩,
    ⟨some .shortlisted, .hmReview, .rejected, ["HIRING_MANAGER"], true, some "Reject."⟩,
    ⟨some .shortlisted, .hmReview, .fraudReview, ["HIRING_MANAGER"], true, some "Exception."⟩,
    ⟨some .screening, .hmReview, .interview, ["HIRING_MANAGER"], false,
      some ("Next. Gap-filled: HM_REVIEW reached directly from SCREENING previously had no " ++
        "outbound row.")⟩,
    ⟨some .screening, .hmReview, .hold, ["HIRING_MANAGER"], false, some "Pause. Gap-filled."⟩,
    ⟨some .screening, .hmReview, .rejected, ["HIRING_MANAGER"], true, some "Reject. Gap-filled."⟩,
    ⟨some .screening, .hmReview, .fraudReview, ["HIRING_MANAGER"], true,
      some "Exception. Gap-filled."⟩,
    ⟨some .interview, .hmReview, .selected, ["HIRING_MANAGER"], false, some "Next."⟩,
    ⟨some .interview, .hmReview, .interview, ["HIRING_MANAGER"], false, some "Back / Continue."⟩,
    ⟨some .interview, .hmReview, .shortlisted, ["HIRING_MANAGER"], false, some "Back."⟩,
    ⟨some .interview, .hmReview, .hold, ["HIRING_MANAGER"], false, some "Pause."⟩,
    ⟨some .interview, .hmReview, .rejected, ["HIRING_MANAGER"], true, some "Reject."⟩,
    ⟨some .interview, .hmReview, .fraudReview, ["HIRING_MANAGER"], true, some "Exception."⟩,
    ⟨some .selected, .hmReview, .selected, ["HIRING_MANAGER"], false, some "Confirm."⟩,
    ⟨some .selected, .hmReview, .interview, ["HIRING_MANAGER"], false, some "Back."⟩,
    ⟨some .selected, .hmReview, .rejected, ["HIRING_MANAGER"], true, some "Reject."⟩,
    ⟨some .selected, .hmReview, .fraudReview, ["HIRING_MANAGER"], true, some "Exception."⟩,
    ⟨some .hold, .hmReview, .interview, ["HIRING_MANAGER"], false, some "Next."⟩,
    ⟨some .hold, .hmReview, .shortlisted, ["HIRING_MANAGER"], false, some "Back."⟩,
    ⟨some .hold, .hmReview, .rejected, ["HIRING_MANAGER"], true, some "Reject."⟩,
    ⟨some .hold, .hmReview, .fraudReview, ["HIRING_MANAGER"], true, some "Exception."⟩,
    ⟨some .rejected, .hmReview, .screening, ["HIRING_MANAGER"], false, some "Reconsider."⟩,
    ⟨some .rejected, .hmReview, .shortlisted, ["HIRING_MANAGER"], false, some "Reconsider."⟩,
    ⟨some .rejected, .hmReview, .interview, ["HIRING_MANAGER"], false, some "Reconsider."⟩,
    ⟨some .rejected, .hmReview, .rejected, ["HIRING_MANAGER"], true, some "Reject (re-reject)."⟩,
    ⟨some .rejected, .hmReview, .fraudReview, ["HIRING_MANAGER"], true, some "Exception."⟩,
    ⟨some .fraudReview, .hmReview, .interview, ["HIRING_MANAGER"], false,
      some ("Next. Gap-filled: HM_REVIEW reached via a cleared FRAUD_REVIEW previously had " ++
        "no outbound row.")⟩,
    ⟨some .fraudReview, .hmReview, .shortlisted, ["HIRING_MANAGER"], false,
      some "Back. Gap-filled."⟩,
    ⟨some .fraudReview, .hmReview, .rejected, ["HIRING_MANAGER"], true, some "Reject. Gap-filled."⟩,
    -- INTERVIEW
    ⟨none, .interview, .selected, ["RECRUITER"], false, some "Next."⟩,
    ⟨none, .interview, .rejected, ["RECRUITER"], true, some "Reject."⟩,
    ⟨none, .interview, .hold, ["RECRUITER"], false, some "Pause."⟩,
    ⟨none, .interview, .hmReview, ["RECRUITER"], false, some "Optional Review."⟩,
    ⟨none, .interview, .fraudReview, ["RECRUITER", "SYSTEM"], true, some "Exception."⟩,
    ⟨some .hmReview, .interview, .selected, ["HIRING_MANAGER"], false, some "Next."⟩,
    ⟨some .hmReview, .interview, .rejected, ["HIRING_MANAGER"], true, some "Reject."⟩,
    ⟨some .hmReview, .interview, .hold, ["HIRING_MANAGER"], false, some "Pause."⟩,
    ⟨some .hmReview, .interview, .hmReview, ["HIRING_MANAGER"], false, some "Back."⟩,
    ⟨some .hmReview, .interview, .fraudReview, ["HIRING_MANAGER", "SYSTEM"], true,
      some "Exception."⟩,
    -- SELECTED
    ⟨none, .selected, .rejected, ["RECRUITER"], true, some "Cancel Selection."⟩,
    ⟨none, .selected, .hmReview, ["RECRUITER"], true,
      some ("Reconsideration: SELECTED can be walked back to HM_REVIEW, never to an earlier " ++
        "pipeline stage directly.")⟩,
    ⟨none, .selected, .fraudReview, ["RECRUITER", "SYSTEM"], true, some "Exception."⟩,
    ⟨some .hmReview, .selected, .rejected, ["HIRING_MANAGER"], true,
      some ("Cancel Selection. Gap-filled: SELECTED reached via HM_REVIEW previously had no " ++
        "outbound row.")⟩,
    ⟨some .hmReview, .selected, .interview, ["HIRING_MANAGER"], false, some "Back. Gap-filled."⟩,
    ⟨some .hmReview, .selected, .fraudReview, ["HIRING_MANAGER"], true,
      some "Exception. Gap-filled."⟩,
    -- HOLD
    ⟨some .screening, .hold, .shortlisted, ["RECRUITER"], false, some "Resume."⟩,
    ⟨some .screening, .hold, .rejected, ["RECRUITER"], true, some "Reject."⟩,
    ⟨some .screening, .hold, .uploaded, ["RECRUITER"], true, some "Reset."⟩,
    ⟨some .shortlisted, .hold, .hmReview, ["RECRUITER"], false, some "Resume - Optional."⟩,
    ⟨some .shortlisted, .hold, .interview, ["RECRUITER"], false, some "Resume - Optional."⟩,
    ⟨some .shortlisted, .hold, .rejected, ["RECRUITER"], true, some "Reject."⟩,
    ⟨some .shortlisted, .hold, .uploaded, ["RECRUITER"], true, some "Reset."⟩,
    ⟨some .interview, .hold, .selected, ["RECRUITER"], false, some "Resume."⟩,
    ⟨some .interview, .hold, .rejected, ["RECRUITER"], true, some "Reject."⟩,
    ⟨some .interview, .hold, .uploaded, ["RECRUITER"], true, some "Reset."⟩,
    ⟨some .hmReview, .hold, .interview, ["HIRING_MANAGER"], false, some "Resume."⟩,
    ⟨some .hmReview, .hold, .rejected, ["HIRING_MANAGER"], true, some "Reject."⟩,
    ⟨some .hmReview, .hold, .uploaded, ["HIRING_MANAGER"], true, some "Reset."⟩,
    ⟨some .fraudReview, .hold, .hold, ["HIRING_MANAGER"], true,
      some ("Back. Gap-filled: HOLD reached via a cleared FRAUD_REVIEW previously had no " ++
        "outbound row.")⟩,
    ⟨some .fraudReview, .hold, .rejected, ["HIRING_MANAGER"], true, some "Reject. Gap-filled."⟩,
    -- REJECTED
    ⟨some .screening, .rejected, .screening, ["RECRUITER"], true, some "Reconsider."⟩,
    ⟨some .shortlisted, .rejected, .screening, ["RECRUITER"], true, some "Reconsider."⟩,
    ⟨some .hold, .rejected, .screening, ["RECRUITER"], true, some "Reconsider."⟩,
    ⟨some .interview, .rejected, .interview, ["RECRUITER"], true, some "Reconsider."⟩,
    ⟨some .selected, .rejected, .hmReview, ["RECRUITER"], true, some "Reconsider."⟩,
    ⟨some .hmReview, .rejected, .hmReview, ["HIRING_MANAGER"], true, some "Reconsider."⟩,
    ⟨some .fraudReview, .rejected, .screening, ["HIRING_MANAGER"], true,
      some ("Reconsider. Gap-filled: REJECTED reached via FRAUD_REVIEW previously had no " ++
        "outbound row.")⟩,
    -- FRAUD_REVIEW
    ⟨some .uploaded, .fraudReview, .screening, ["HIRING_MANAGER"], true, some "Return."⟩,
    ⟨some .screening, .fraudReview, .screening, ["HIRING_MANAGER"], true, some "Back."⟩,
    ⟨some .screening, .fraudReview, .shortlisted, ["HIRING_MANAGER"], true, some "Next."⟩,
    ⟨some .screening, .fraudReview, .rejected, ["HIRING_MANAGER"], true, some "Reject."⟩,
    ⟨some .shortlisted, .fraudReview, .shortlisted, ["HIRING_MANAGER"], true, some "Back."⟩,
    ⟨some .shortlisted, .fraudReview, .hmReview, ["HIRING_MANAGER"], true, some "Next - Optional."⟩,
    ⟨some .shortlisted, .fraudReview, .interview, ["HIRING_MANAGER"], true,
      some "Next - Optional."⟩,
    ⟨some .shortlisted, .fraudReview, .rejected, ["HIRING_MANAGER"], true, some "Reject."⟩,
    ⟨some .hmReview, .fraudReview, .hmReview, ["HIRING_MANAGER"], true, some "Back."⟩,
    ⟨some .hmReview, .fraudReview, .interview, ["HIRING_MANAGER"], true, some "Next."⟩,
    ⟨some .hmReview, .fraudReview, .rejected, ["HIRING_MANAGER"], true, some "Reject."⟩,
    ⟨some .interview, .fraudReview, .interview, ["HIRING_MANAGER"], true, some "Back."⟩,
    ⟨some .interview, .fraudReview, .selected, ["HIRING_MANAGER"], true, some "Next."⟩,
    ⟨some .interview, .fraudReview, .rejected, ["HIRING_MANAGER"], true, some "Reject."⟩,
    ⟨some .selected, .fraudReview, .selected, ["HIRING_MANAGER"], true, some "Back / Confirm."⟩,
    ⟨some .selected, .fraudReview, .hmReview, ["HIRING_MANAGER"], true, some "Reconsider."⟩,
    ⟨some .selected, .fraudReview, .rejected, ["HIRING_MANAGER"], true, some "Reject."⟩,
    ⟨some .hold, .fraudReview, .hold, ["HIRING_MANAGER"], true,
      some "Back. Gap-filled: FRAUD_REVIEW reached from HOLD previously had no outbound row."⟩,
    ⟨some .hold, .fraudReview, .rejected, ["HIRING_MANAGER"], true, some "Reject. Gap-filled."⟩,
    ⟨some .rejected, .fraudReview, .screening, ["HIRING_MANAGER"], true,
      some ("Reconsider. Gap-filled: FRAUD_REVIEW reached from REJECTED previously had no " ++
        "outbound row.")⟩,
    ⟨some .rejected, .fraudReview, .shortlisted, ["HIRING_MANAGER"], true,
      some "Reconsider. Gap-filled."⟩,
    ⟨some .rejected, .fraudReview, .interview, ["HIRING_MANAGER"], true,
      some "Reconsider. Gap-filled."⟩,
    ⟨some .rejected, .fraudReview, .rejected, ["HIRING_MANAGER"], true,
      some "Reject (re-reject). Gap-filled."⟩]

def seededTransitions : TransitionTable where
  rows := seedRows
  uqPreviousFromTo := by decide +kernel
  uqFromToNoPrevious := by decide +kernel

end AiHiring
