import Columnar.Action
import Columnar.Bitmap
import Columnar.Bits
import Columnar.Bytes
import Columnar.Column.Basic
import Columnar.Column.Growth
import Columnar.Column.Text
import Columnar.Column.Transfer
import Columnar.Column.Write
import Columnar.DataType.Basic
import Columnar.Error
import Columnar.Event
import Columnar.Failure
import Columnar.Ipc.Alignment
import Columnar.Ipc.BatchEncoding
import Columnar.Ipc.FileWriter
import Columnar.Ipc.Format
import Columnar.Ipc.Framing
import Columnar.Ipc.MemorySink
import Columnar.Ipc.Mode
import Columnar.Ipc.SchemaEncoding
import Columnar.Ipc.Session
import Columnar.Ipc.Sink
import Columnar.Ipc.StreamWriter
import Columnar.LittleEndian
import Columnar.PowerOfTwo
import Columnar.Proofs.Action
import Columnar.Proofs.Bitmap
import Columnar.Proofs.Bitmap.History
import Columnar.Proofs.Bitmap.Slicing
import Columnar.Proofs.Bits
import Columnar.Proofs.Bits.Bulk
import Columnar.Proofs.Bits.Repacking
import Columnar.Proofs.Bytes
import Columnar.Proofs.Check
import Columnar.Proofs.Column.Atomicity
import Columnar.Proofs.Column.Bisimulation
import Columnar.Proofs.Column.Call
import Columnar.Proofs.Column.Creation
import Columnar.Proofs.Column.Exact
import Columnar.Proofs.Column.Growth
import Columnar.Proofs.Column.GrowthPolicy
import Columnar.Proofs.Column.Measures
import Columnar.Proofs.Column.NoBreach
import Columnar.Proofs.Column.PairCall
import Columnar.Proofs.Column.Reachable
import Columnar.Proofs.Column.Refinement
import Columnar.Proofs.Column.Safety
import Columnar.Proofs.Column.SlotWrites
import Columnar.Proofs.Column.Text
import Columnar.Proofs.Column.Transfer
import Columnar.Proofs.Column.WellFormed
import Columnar.Proofs.Column.Write
import Columnar.Proofs.Ipc.Accounting
import Columnar.Proofs.Ipc.Alignment
import Columnar.Proofs.Ipc.AlignmentText
import Columnar.Proofs.Ipc.BatchEncoding
import Columnar.Proofs.Ipc.BatchLayout
import Columnar.Proofs.Ipc.BodySize
import Columnar.Proofs.Ipc.Calls
import Columnar.Proofs.Ipc.Envelope
import Columnar.Proofs.Ipc.FileReading
import Columnar.Proofs.Ipc.Finality
import Columnar.Proofs.Ipc.Footer
import Columnar.Proofs.Ipc.FramedSize
import Columnar.Proofs.Ipc.Framing
import Columnar.Proofs.Ipc.History
import Columnar.Proofs.Ipc.Log
import Columnar.Proofs.Ipc.Offers
import Columnar.Proofs.Ipc.Opening
import Columnar.Proofs.Ipc.Placement
import Columnar.Proofs.Ipc.Poisoning
import Columnar.Proofs.Ipc.Reading
import Columnar.Proofs.Ipc.Recording
import Columnar.Proofs.Ipc.Rejection
import Columnar.Proofs.Ipc.SchemaCode
import Columnar.Proofs.Ipc.SchemaReading
import Columnar.Proofs.Ipc.Session
import Columnar.Proofs.Ipc.Sink
import Columnar.Proofs.Ipc.StreamReading
import Columnar.Proofs.Ipc.Truncation
import Columnar.Proofs.Ipc.WideBatch
import Columnar.Proofs.Ipc.Writer
import Columnar.Proofs.RecordBatch
import Columnar.Proofs.RecordBatch.Admission
import Columnar.Proofs.Schema
import Columnar.Proofs.Shortage
import Columnar.Proofs.Text.DecimalText
import Columnar.Proofs.TypedColumn
import Columnar.Proofs.TypedColumn.Construction
import Columnar.Proofs.TypedColumn.Program
import Columnar.Proofs.TypedColumn.Reading
import Columnar.Proofs.TypedColumn.Simulation
import Columnar.RecordBatch
import Columnar.Scalar
import Columnar.Schema
import Columnar.Text.DecimalText
import Columnar.Text.FloatText
import Columnar.Text.ShortestDecimal
import Columnar.TypedColumn
