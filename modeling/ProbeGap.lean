import ProbeGap.Config.Json
import ProbeGap.Main
import ProbeGap.Proofs.Fallible
import ProbeGap.Proofs.Numeric.Order
import ProbeGap.Proofs.Regression.Solutions
import ProbeGap.Proofs.Table
import ProbeGap.Proofs.Estimate.Experiment
import ProbeGap.Proofs.Estimate.Records
import ProbeGap.Proofs.Estimate.Accounting
import ProbeGap.Proofs.Text.ByteOrder
import ProbeGap.Proofs.Estimate.Availability
import ProbeGap.Proofs.Estimate.Locality
import ProbeGap.Proofs.Text.Digits
import ProbeGap.Proofs.Time.Calendar
import ProbeGap.Proofs.Time.Written
import ProbeGap.Proofs.Store.Snapshot
import ProbeGap.Proofs.Store.Frame
import ProbeGap.Proofs.Numeric.Shortest
import ProbeGap.Proofs.Json.Quoted
import ProbeGap.Proofs.Json.Number
import ProbeGap.Proofs.Json.Reread
import ProbeGap.Proofs.Store.DumpText
import ProbeGap.Proofs.Store.Opening
import ProbeGap.Proofs.Sorting
import ProbeGap.Proofs.Store.Reloading
import ProbeGap.Proofs.Store.Reordering
import ProbeGap.Proofs.Synth.Drawing
import ProbeGap.Proofs.Synth.Flags
import ProbeGap.Proofs.Numeric.Exact
import ProbeGap.Proofs.Regression.Exact
import ProbeGap.Proofs.Estimate.NoiseFree
import ProbeGap.Proofs.Store.Cut
import ProbeGap.Proofs.Store.Flagless
import ProbeGap.Proofs.Command.Estimating
import ProbeGap.Proofs.Numeric.Rounding
import ProbeGap.Proofs.Config.Validation
import ProbeGap.Proofs.Json.Typed
import ProbeGap.Proofs.Report.Json
import ProbeGap.Proofs.Numeric.Exceptions
import ProbeGap.Proofs.Regression.Design
import ProbeGap.Proofs.Regression.Rounds
import ProbeGap.Proofs.Regression.Degenerate
import ProbeGap.Proofs.Regression.Robust
import ProbeGap.Proofs.Numeric.Checked
import ProbeGap.Proofs.Regression.LeastSquares
import ProbeGap.Proofs.Regression.Majorization
import ProbeGap.Proofs.Regression.Median
import ProbeGap.Proofs.Regression.Correspondence
import ProbeGap.Proofs.Estimate.Permutation
import ProbeGap.Proofs.Estimate.Units
import ProbeGap.Proofs.Numeric.Quotients
import ProbeGap.Proofs.Store.Admission
import ProbeGap.Proofs.Estimate.Limits
import ProbeGap.Proofs.Store.Canonical
import ProbeGap.Proofs.Store.Insertions
import ProbeGap.Proofs.Store.Windows
import ProbeGap.Proofs.Estimate.Groups
import ProbeGap.Proofs.Synth.Blocks
import ProbeGap.Proofs.Synth.Slots
import ProbeGap.Proofs.Json.Locality
import ProbeGap.Proofs.Json.Placing
import ProbeGap.Proofs.Store.Tolerance
import ProbeGap.Proofs.Config.Rules
import ProbeGap.Proofs.Numeric.Magnitudes
import ProbeGap.Proofs.Regression.OrderStatistic
import ProbeGap.Proofs.Numeric.LowerBounds
import ProbeGap.Proofs.Regression.Scale
