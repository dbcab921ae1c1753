import Spool.Assembler
import Spool.Bytes
import Spool.Command
import Spool.Config
import Spool.Config.Error
import Spool.Config.Numeral
import Spool.Config.Quote
import Spool.Config.Reader
import Spool.Console
import Spool.Crowd
import Spool.Decimal.Binary
import Spool.Decimal.Shortest
import Spool.Device
import Spool.Fault
import Spool.File
import Spool.Guard.Contest
import Spool.Guard.Machine
import Spool.Guard.Schedule
import Spool.Handle
import Spool.Main
import Spool.Plan
import Spool.Quota
import Spool.Record
import Spool.Ring
import Spool.Segments
import Spool.Session
import Spool.Signal
import Spool.Store
import Spool.Stream
import Spool.Text.Blank
import Spool.Text.Extending
import Spool.Text.Quoted
import Spool.Text.Unprintable
import Spool.Text.Utf8
import Spool.Transfer
import Spool.Word
import Spool.Proofs.Assembly
import Spool.Proofs.Retention
import Spool.Proofs.Feeding
import Spool.Proofs.Writing
import Spool.Proofs.Resubmission
import Spool.Proofs.Runs
import Spool.Proofs.Steps
import Spool.Proofs.Exclusion
import Spool.Proofs.Pursuit
import Spool.Proofs.Shuffles
import Spool.Proofs.Errands
import Spool.Proofs.Traffic
import Spool.Proofs.Serialization
import Spool.Proofs.Offsets
import Spool.Proofs.Queue
import Spool.Proofs.Reading
import Spool.Proofs.Outcomes
import Spool.Proofs.Draining
import Spool.Proofs.Eviction
import Spool.Proofs.Following
import Spool.Proofs.Chunks
import Spool.Proofs.Remainders
import Spool.Proofs.Waking
import Spool.Proofs.Registrations
import Spool.Proofs.Deadlock
import Spool.Proofs.Custody
import Spool.Proofs.Checked.Ring
import Spool.Proofs.Conservation
import Spool.Proofs.Checked.Store
import Spool.Proofs.Checked.Session
import Spool.Proofs.Positions
import Spool.Proofs.Addresses
import Spool.Proofs.Conversations
import Spool.Proofs.Characters
import Spool.Proofs.Config.Notation
import Spool.Proofs.Config.Acceptance
import Spool.Proofs.Config.Media
import Spool.Proofs.Config.Truncation
