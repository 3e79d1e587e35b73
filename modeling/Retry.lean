import Retry.Config
import Retry.Failure.Catalogue
import Retry.Simulation.Archive
import Retry.Simulation.Call
import Retry.Simulation.Logbook
import Retry.Datum.Reader
import Retry.Proofs.Steps
import Retry.Proofs.Turns
import Retry.Proofs.Kinship
import Retry.Proofs.Likeness
import Retry.Proofs.Waits
import Retry.Proofs.Journal
import Retry.Proofs.Abort
import Retry.Proofs.Agreement
import Retry.Proofs.Course
import Retry.Proofs.Exhaustion
import Retry.Proofs.Manners
import Retry.Proofs.Events
import Retry.Proofs.Meddlers
import Retry.Proofs.Attempts
import Retry.Proofs.Rewording
import Retry.Proofs.Noninterference
import Retry.Proofs.Walks
import Retry.Proofs.Breach
import Retry.Proofs.Audience
import Retry.Proofs.Signs
import Retry.Proofs.Durations
import Retry.Proofs.Keeping
import Retry.Proofs.Lasting
import Retry.Proofs.Twins
import Retry.Proofs.Isolation
import Retry.Proofs.Answers
import Retry.Proofs.Counters
import Retry.Proofs.Trace
import Retry.Proofs.Levels
import Retry.Proofs.Registration
import Retry.Proofs.Furnishing
import Retry.Proofs.Aftermath
import Retry.Proofs.Fields
import Retry.Proofs.Sentinel
import Retry.Proofs.Overflow
import Retry.Proofs.Ascii
import Retry.Proofs.Naming
import Retry.Proofs.Timestamps
