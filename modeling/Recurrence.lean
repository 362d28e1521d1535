import Recurrence.LogLevel
import Recurrence.Proofs.CachedSettings
import Recurrence.Proofs.Count
import Recurrence.Proofs.Cursor
import Recurrence.Proofs.Endings
import Recurrence.Proofs.Envelopes
import Recurrence.Proofs.Equality
import Recurrence.Proofs.Exclusions
import Recurrence.Proofs.Exhaustion
import Recurrence.Proofs.FirstRefusal
import Recurrence.Proofs.Frequencies
import Recurrence.Proofs.Grammar
import Recurrence.Proofs.Interchange
import Recurrence.Proofs.KeyLists
import Recurrence.Proofs.LaterBounds
import Recurrence.Proofs.LongerLookahead
import Recurrence.Proofs.PeriodLine
import Recurrence.Proofs.Prescription
import Recurrence.Proofs.Previews
import Recurrence.Proofs.ReadBack
import Recurrence.Proofs.RealTime
import Recurrence.Proofs.Reanchoring
import Recurrence.Proofs.SegmentOrder
import Recurrence.Proofs.Spans
import Recurrence.Schedule.Description
import Recurrence.Service
