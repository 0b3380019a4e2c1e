import CrisisMosaic.MapView
import CrisisMosaic.OptimisticLock
import CrisisMosaic.Withdrawal
import CrisisMosaic.AcceptedEvidence
import CrisisMosaic.Contradictions
import CrisisMosaic.MapFacts
import CrisisMosaic.MapPrivacy
import CrisisMosaic.SpotPlaces
import CrisisMosaic.CurrentEvidence
import CrisisMosaic.Readiness
import CrisisMosaic.DetectionRuns
import CrisisMosaic.ResolvedSpots
import CrisisMosaic.BoundAttachments
import CrisisMosaic.CommandBriefs
import CrisisMosaic.RealtimeOrder
import CrisisMosaic.ExecutedOnce
import CrisisMosaic.SubmittedOnce
import CrisisMosaic.Announcements
import CrisisMosaic.RejectedAttachments
import CrisisMosaic.SequenceRuns
import CrisisMosaic.RefreshChains
import CrisisMosaic.RevokedDevices
import CrisisMosaic.AttachmentOwners
import CrisisMosaic.DuplicateClusters
import CrisisMosaic.OwnerRuns
import CrisisMosaic.QuestionTargets
import CrisisMosaic.SharedClusters
import CrisisMosaic.ReportRevisions
import CrisisMosaic.ContentUploads
import CrisisMosaic.MapRuns
import CrisisMosaic.QuarantinedContent
import CrisisMosaic.Contacts
import CrisisMosaic.GrantedRefinements
import CrisisMosaic.ListedReports
import CrisisMosaic.Retention
import CrisisMosaic.RetentionRuns
import CrisisMosaic.StoredPriorities
import CrisisMosaic.ContactDeadlines
import CrisisMosaic.ContactReaders
import CrisisMosaic.ReadableContacts
import CrisisMosaic.Anonymization
import CrisisMosaic.DetectionFailures
import CrisisMosaic.ErasedIncidents
import CrisisMosaic.JobAttempts
import CrisisMosaic.LimitedReports
import CrisisMosaic.RetryHints
import CrisisMosaic.RealtimeShape
import CrisisMosaic.RecordedParts
import CrisisMosaic.StreamedContent
import CrisisMosaic.DetectionOrder
import CrisisMosaic.ReopenedSpots
import CrisisMosaic.CountedEvidence
import CrisisMosaic.TargetTests
import CrisisMosaic.MatchedQuestions
import CrisisMosaic.PriorityChanges
import CrisisMosaic.CursorRuns
import CrisisMosaic.PushDevices
import CrisisMosaic.IncidentClosings
import CrisisMosaic.ContactNumbers
import CrisisMosaic.ContactPatches
import CrisisMosaic.CleanupPasses
import CrisisMosaic.NegatedRoads
import CrisisMosaic.ConflictOutputs
import CrisisMosaic.ModelImages
import CrisisMosaic.RepeatedAnalyses
import CrisisMosaic.HubDeliveries
import CrisisMosaic.SignedAttachments
import CrisisMosaic.LostDetections
import CrisisMosaic.RevisionRuns
import CrisisMosaic.NotificationRuns
import CrisisMosaic.OperatorPreferences
import CrisisMosaic.HiddenGaps
import CrisisMosaic.AdminAuthority
import CrisisMosaic.SocketLimits
import CrisisMosaic.AnswerRuns
import CrisisMosaic.ShownSummaries
