import Cadence.Config.Encode
import Cadence.FramePool
import Cadence.Lock.Alone
import Cadence.Lock.Guard
import Cadence.Main
import Cadence.Padded
import Cadence.Periodic.Undisturbed
import Cadence.Plan
import Cadence.Ring
import Cadence.Segment.Session
import Cadence.Signal.Handover
import Cadence.Text.Uppercase
import Cadence.TicketQueue
import Cadence.WaitWord
import Cadence.Workload
import Cadence.Proofs.Position
import Cadence.Proofs.Run
import Cadence.Proofs.Queue.Room
import Cadence.Proofs.Queue.Tickets
import Cadence.Proofs.Queue.Delivery
import Cadence.Proofs.Queue.Answers
import Cadence.Proofs.Lock.Holding
import Cadence.Proofs.Lock.Adding
import Cadence.Proofs.Lock.Waking
import Cadence.Proofs.Signal.Turns
import Cadence.Proofs.Signal.Waiters
import Cadence.Proofs.Signal.Noting
import Cadence.Proofs.Signal.History
import Cadence.Proofs.Signal.NotifyAll
import Cadence.Proofs.Fifo
import Cadence.Proofs.Ring.Stored
import Cadence.Proofs.Queue.Alike
import Cadence.Proofs.Ring.Flow
import Cadence.Proofs.Ring.Linear
import Cadence.Proofs.Pool.Room
import Cadence.Proofs.Pool.Tickets
import Cadence.Proofs.Pool.Delivery
import Cadence.Proofs.Pool.Laps
import Cadence.Proofs.Queue.Reckoning
import Cadence.Proofs.Pool.Reckoning
import Cadence.Proofs.Segment.Ownership
import Cadence.Proofs.Segment.Presence
import Cadence.Proofs.Segment.Placing
import Cadence.Proofs.Text.Edits
import Cadence.Proofs.Scheduling.Undoing
import Cadence.Proofs.Periodic.Calls
import Cadence.Proofs.Signal.NotifyOne
import Cadence.Proofs.Segment.Planning
import Cadence.Proofs.Lock.Guarding
import Cadence.Proofs.Scheduling.ReadingBack
import Cadence.Proofs.Text.Numerals
import Cadence.Proofs.Launcher.Words
import Cadence.Proofs.Launcher.Writing
import Cadence.Proofs.Text.Found
import Cadence.Proofs.Text.Pieces
import Cadence.Proofs.Pool.Shelf
import Cadence.Proofs.Segment.Rounding
import Cadence.Proofs.Config.Fields
import Cadence.Proofs.Launcher.Merging
import Cadence.Proofs.Segment.Retracting
import Cadence.Proofs.Config.Grammar
import Cadence.Proofs.Scheduling.Judging
import Cadence.Proofs.Segment.Naming
import Cadence.Proofs.Periodic.Pacing
import Cadence.Proofs.Periodic.Spans
import Cadence.Proofs.Lock.Trying
import Cadence.Proofs.Signal.TimedCalls
