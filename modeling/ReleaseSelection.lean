import ReleaseSelection.Main
import ReleaseSelection.Session
import ReleaseSelection.Proofs.Order
import ReleaseSelection.Proofs.Rating
import ReleaseSelection.Proofs.Monotone
import ReleaseSelection.Proofs.Held
import ReleaseSelection.Proofs.Succession
import ReleaseSelection.Proofs.Pipeline
import ReleaseSelection.Proofs.Readings
import ReleaseSelection.Proofs.Admission
import ReleaseSelection.Proofs.Sorting
import ReleaseSelection.Proofs.Verdict
import ReleaseSelection.Proofs.Grouping
import ReleaseSelection.Proofs.Placement
import ReleaseSelection.Proofs.Reranking
import ReleaseSelection.Proofs.Batch
import ReleaseSelection.Proofs.Search
import ReleaseSelection.Proofs.Walks
import ReleaseSelection.Proofs.Standard
import ReleaseSelection.Proofs.Leniency
import ReleaseSelection.Proofs.Isolation
import ReleaseSelection.Proofs.Lasting
import ReleaseSelection.Proofs.Answers
import ReleaseSelection.Proofs.Repetition
import ReleaseSelection.Proofs.Omission
import ReleaseSelection.Proofs.Recording
import ReleaseSelection.Proofs.Reordering
import ReleaseSelection.Proofs.Criteria
import ReleaseSelection.Proofs.Offers
import ReleaseSelection.Proofs.Revisions
import ReleaseSelection.Proofs.Sources
import ReleaseSelection.Proofs.Snapshots
import ReleaseSelection.Proofs.AnnouncedRanks
import ReleaseSelection.Proofs.Announcement
import ReleaseSelection.Proofs.Recasing
import ReleaseSelection.Proofs.Forms
import ReleaseSelection.Proofs.Ascent
import ReleaseSelection.Proofs.Settings
import ReleaseSelection.Proofs.Versions
import ReleaseSelection.Proofs.Cutoff
import ReleaseSelection.Proofs.Blocks
import ReleaseSelection.Proofs.Splitting
import ReleaseSelection.Proofs.VersionTexts
import ReleaseSelection.Proofs.DelayProfiles
import ReleaseSelection.Proofs.Scores
import ReleaseSelection.Proofs.NullFree
import ReleaseSelection.Proofs.Layering
import ReleaseSelection.Proofs.Loading
