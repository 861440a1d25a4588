import CivilTime.Bytes
import CivilTime.Calculator.Operation
import CivilTime.Calculator.Operator
import CivilTime.Calculator.Program
import CivilTime.Calculator.Value
import CivilTime.Calendar
import CivilTime.Date
import CivilTime.Date.Text
import CivilTime.Delta
import CivilTime.Delta.Scale
import CivilTime.Delta.Text
import CivilTime.Fault
import CivilTime.LocalDateTime
import CivilTime.LocalDateTime.Text
import CivilTime.Micro
import CivilTime.Micro.Arithmetic
import CivilTime.Micro.Text
import CivilTime.Offset
import CivilTime.OffsetDateTime
import CivilTime.Packed
import CivilTime.Place
import CivilTime.Proofs.Calculator.Calls
import CivilTime.Proofs.Calculator.Comparison
import CivilTime.Proofs.Calculator.Confinement
import CivilTime.Proofs.Calculator.Failure
import CivilTime.Proofs.Calculator.Operations
import CivilTime.Proofs.Calculator.Packing
import CivilTime.Proofs.Calculator.Run
import CivilTime.Proofs.Calculator.Soundness
import CivilTime.Proofs.Calculator.Storage
import CivilTime.Proofs.Calculator.Transparency
import CivilTime.Proofs.Date.Construction
import CivilTime.Proofs.Date.Grammar
import CivilTime.Proofs.Date.Months
import CivilTime.Proofs.Date.Move
import CivilTime.Proofs.Date.Ordinal
import CivilTime.Proofs.Date.RoundTrip
import CivilTime.Proofs.Date.Succession
import CivilTime.Proofs.DayNumber
import CivilTime.Proofs.Delta.Accessors
import CivilTime.Proofs.Delta.Arithmetic
import CivilTime.Proofs.Delta.Closure
import CivilTime.Proofs.Delta.Construction
import CivilTime.Proofs.Delta.Count
import CivilTime.Proofs.Delta.Division
import CivilTime.Proofs.Delta.Grammar
import CivilTime.Proofs.Delta.Production
import CivilTime.Proofs.Delta.Total
import CivilTime.Proofs.LocalDateTime.Antisymmetry
import CivilTime.Proofs.LocalDateTime.Difference
import CivilTime.Proofs.LocalDateTime.Fields
import CivilTime.Proofs.LocalDateTime.Grammar
import CivilTime.Proofs.LocalDateTime.Monotone
import CivilTime.Proofs.LocalDateTime.Offsets
import CivilTime.Proofs.LocalDateTime.RoundTrip
import CivilTime.Proofs.LocalDateTime.Shift
import CivilTime.Proofs.LocalDateTime.Sum
import CivilTime.Proofs.LocalDateTime.Validity
import CivilTime.Proofs.Micro
import CivilTime.Proofs.Micro.RoundTrip
import CivilTime.Proofs.OffsetDateTime.Local
import CivilTime.Proofs.OffsetDateTime.Text
import CivilTime.Proofs.OffsetDateTime.Timestamp
import CivilTime.Proofs.Outcome
import CivilTime.Proofs.Packed
import CivilTime.Proofs.Packed.Acceptance
import CivilTime.Proofs.Packed.RoundTrip
import CivilTime.Proofs.Span
import CivilTime.Proofs.Span.Construction
import CivilTime.Proofs.Span.Record
import CivilTime.Proofs.Text.Digits
import CivilTime.Proofs.Text.Numeral
import CivilTime.Proofs.TimeOfDay.Difference
import CivilTime.Proofs.TimeOfDay.Grammar
import CivilTime.Proofs.TimeOfDay.Inverse
import CivilTime.Proofs.TimeOfDay.Order
import CivilTime.Proofs.TimeOfDay.RoundTrip
import CivilTime.Proofs.TimeOfDay.Shift
import CivilTime.Proofs.TimeOfDay.Sum
import CivilTime.Proofs.TimeOfDay.Validity
import CivilTime.Proofs.Zone.File
import CivilTime.Proofs.Zone.Load
import CivilTime.Proofs.Zone.Lookup
import CivilTime.Proofs.Zone.Path
import CivilTime.Proofs.Zone.Policy
import CivilTime.Proofs.Zone.Recency
import CivilTime.Proofs.Zone.Resolve
import CivilTime.Proofs.Zone.Store
import CivilTime.Proofs.Zone.Timeline
import CivilTime.Span
import CivilTime.Steps
import CivilTime.Text.Digits
import CivilTime.Text.Quoted
import CivilTime.Text.Reader
import CivilTime.Text.Split
import CivilTime.Text.Unprintable
import CivilTime.TimeOfDay
import CivilTime.TimeOfDay.Text
import CivilTime.Zone.File
import CivilTime.Zone.Flaw
import CivilTime.Zone.Footer
import CivilTime.Zone.Path
import CivilTime.Zone.Resolve
import CivilTime.Zone.Store
import CivilTime.Zone.Table
