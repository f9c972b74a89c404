import SeriesBlock.Main
import SeriesBlock.Settings.Double
import SeriesBlock.Proofs.Framing
import SeriesBlock.Proofs.Burst
import SeriesBlock.Proofs.Record
import SeriesBlock.Proofs.TimeRange
import SeriesBlock.Proofs.Machine.Cursor
import SeriesBlock.Proofs.Machine.Reader
import SeriesBlock.Proofs.Machine.Record
import SeriesBlock.Proofs.Request
import SeriesBlock.Proofs.Machine.Session
import SeriesBlock.Proofs.Keys
import SeriesBlock.Proofs.Numbers
import SeriesBlock.Proofs.Layout
import SeriesBlock.Proofs.ReadBack
import SeriesBlock.Proofs.Building
import SeriesBlock.Proofs.Collecting
import SeriesBlock.Proofs.Verification
import SeriesBlock.Proofs.Selection
import SeriesBlock.Proofs.Groups
import SeriesBlock.Proofs.Grammar
import SeriesBlock.Proofs.Faults
import SeriesBlock.Proofs.Journals
import SeriesBlock.Proofs.Accounting
import SeriesBlock.Proofs.Trace
import SeriesBlock.Proofs.Listing
import SeriesBlock.Proofs.Narrowing
import SeriesBlock.Proofs.Confinement
import SeriesBlock.Proofs.Codec
import SeriesBlock.Proofs.Loading
import SeriesBlock.Proofs.FrameLayout
import SeriesBlock.Proofs.Decodability
import SeriesBlock.Proofs.Moves
import SeriesBlock.Proofs.Seeking
import SeriesBlock.Proofs.Tuples.Flat
import SeriesBlock.Proofs.Tuples.Windows
import SeriesBlock.Proofs.Tuples.Sorting
import SeriesBlock.Proofs.Tuples.Access
import SeriesBlock.Proofs.Tuples.Agreement
import SeriesBlock.Proofs.TextFaults
import SeriesBlock.Proofs.Machine.InMemory
import SeriesBlock.Proofs.Symbols
import SeriesBlock.Proofs.Tuples.Positions
import SeriesBlock.Proofs.Chunks
import SeriesBlock.Proofs.Prefixes
import SeriesBlock.Proofs.KeyOrder
import SeriesBlock.Proofs.Consumption
import SeriesBlock.Proofs.Lines
import SeriesBlock.Proofs.Printing
import SeriesBlock.Proofs.DeclaredNumbers
import SeriesBlock.Proofs.Nesting
import SeriesBlock.Proofs.Pool
import SeriesBlock.Proofs.Answers
