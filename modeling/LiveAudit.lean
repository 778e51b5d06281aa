import LiveAudit.Cli.World
import LiveAudit.Main
import LiveAudit.Rehearsal
import LiveAudit.Proofs.RepoTraffic
import LiveAudit.Proofs.InFlight
import LiveAudit.Proofs.Paging
import LiveAudit.Proofs.Preserved
import LiveAudit.Proofs.Fits
import LiveAudit.Proofs.LoadMore
import LiveAudit.Proofs.Still
import LiveAudit.Proofs.Mirror
import LiveAudit.Proofs.Synced
import LiveAudit.Proofs.Convergence
import LiveAudit.Proofs.History
import LiveAudit.Proofs.Coalescing
import LiveAudit.Proofs.Reach
import LiveAudit.Proofs.Generations
import LiveAudit.Proofs.Tracking
import LiveAudit.Proofs.Draining
import LiveAudit.Proofs.Loop
import LiveAudit.Proofs.Settling
import LiveAudit.Proofs.Noninterference
import LiveAudit.Proofs.Records
import LiveAudit.Proofs.Failures
import LiveAudit.Proofs.Hints
import LiveAudit.Proofs.Endpoint
import LiveAudit.Proofs.Course
import LiveAudit.Proofs.Acting
import LiveAudit.Proofs.Staging
import LiveAudit.Proofs.Delivery
import LiveAudit.Proofs.Acceptance
import LiveAudit.Proofs.Arrival
import LiveAudit.Proofs.Provenance
import LiveAudit.Proofs.Written
import LiveAudit.Proofs.Survival
import LiveAudit.Proofs.Places
import LiveAudit.Proofs.Series
import LiveAudit.Proofs.Lines
import LiveAudit.Proofs.Recording
import LiveAudit.Proofs.Merging
import LiveAudit.Proofs.Replacing
import LiveAudit.Proofs.Notices
import LiveAudit.Proofs.Publishing
import LiveAudit.Proofs.Ticking
import LiveAudit.Proofs.Members
import LiveAudit.Proofs.Rewording
import LiveAudit.Proofs.Indented
import LiveAudit.Proofs.Stored
import LiveAudit.Proofs.Normalizing
import LiveAudit.Proofs.Initialising
import LiveAudit.Proofs.Finishing
import LiveAudit.Proofs.Answers
import LiveAudit.Proofs.ListShapes
import LiveAudit.Proofs.Lights
