import AiHiring.Pipeline.Race
import AiHiring.Pipeline.Replay
import AiHiring.Pipeline.Openings
import AiHiring.Pipeline.Offered
import AiHiring.Pipeline.Agreement
import AiHiring.Pipeline.Decision
import AiHiring.Interview.RoundStructure
import AiHiring.Interview.Calendar
import AiHiring.Tasks.ScoreAtomicity
import AiHiring.Resume.ScoringRuns
import AiHiring.Bulk.Closing
import AiHiring.Bulk.Outcome
import AiHiring.Talent.Reuse
import AiHiring.Tasks.SuspensionRuns
import AiHiring.Email.Truth
import AiHiring.Resume.BreakerRuns
import AiHiring.Campaign.ScoringCache
import AiHiring.Providers.ActiveProvider
import AiHiring.Jd.ReplayOnce
import AiHiring.Jd.EmbeddingFollows
import AiHiring.Cache.CacheFresh
import AiHiring.Interview.FeedbackAsked
import AiHiring.Compliance.ErasedCandidate
import AiHiring.Pii.Exact
import AiHiring.Interview.Completed
import AiHiring.Interview.WallClock
import AiHiring.Pipeline.Resubmission
import AiHiring.Pipeline.OverrideReverted
import AiHiring.Pipeline.BulkRefinement
import AiHiring.Tasks.DeadLetterChains
import AiHiring.Jd.MetadataUpdate
import AiHiring.Resume.OneCandidate
import AiHiring.Resume.WorkExperience
import AiHiring.Skills.Reevaluation
import AiHiring.Websocket.NothingMissed
import AiHiring.Skills.ClassifiedRuns
import AiHiring.Skills.Matching
import AiHiring.Jd.NormalForm
import AiHiring.Jd.PersistedSkills
import AiHiring.Skills.DryRun
import AiHiring.Skills.Migration
import AiHiring.Scoring.MoreSkills
import AiHiring.Bulk.Extraction
import AiHiring.Scoring.CurrentScores
import AiHiring.Tasks.SemanticRecovery
import AiHiring.Compliance.AuditExport
import AiHiring.Scoring.StrongerRecord
import AiHiring.Tokens.SignedTokens
import AiHiring.Interview.ReplacedExactly
import AiHiring.Jd.ReplayedSubmission
import AiHiring.Campaign.WeightHistory
import AiHiring.Talent.Addable
import AiHiring.Talent.Paging
import AiHiring.Talent.BulkRefinement
import AiHiring.Resume.AnonymizedText
import AiHiring.Resume.CandidateEncryption
import AiHiring.Jd.VersionHistory
import AiHiring.Campaign.MissingSkills
import AiHiring.Skills.EmbeddingFollows
import AiHiring.Scoring.StoredFlags
import AiHiring.Campaign.StallAlerts
import AiHiring.Providers.FailureReasons
import AiHiring.Tasks.Reindex
import AiHiring.Pipeline.Interviewed
