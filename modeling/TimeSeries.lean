import TimeSeries.Files.Workspace
import TimeSeries.Main
import TimeSeries.Proofs.FieldValue.Literal
import TimeSeries.Proofs.Ingest.Batch
import TimeSeries.Proofs.Ingest.Joined
import TimeSeries.Proofs.Ingest.Policies
import TimeSeries.Proofs.Ingest.Shared
import TimeSeries.Proofs.Line.Canonical
import TimeSeries.Proofs.Line.InPlace
import TimeSeries.Proofs.Line.Refusal
import TimeSeries.Proofs.Line.Rereading
import TimeSeries.Proofs.Query.Alignment
import TimeSeries.Proofs.Query.AnyCase
import TimeSeries.Proofs.Query.Bounds
import TimeSeries.Proofs.Query.Clock
import TimeSeries.Proofs.Query.Columns
import TimeSeries.Proofs.Query.Executable
import TimeSeries.Proofs.Query.Extreme
import TimeSeries.Proofs.Query.InPlace
import TimeSeries.Proofs.Query.Ingested
import TimeSeries.Proofs.Query.Interpreted
import TimeSeries.Proofs.Query.Quoted
import TimeSeries.Proofs.Query.Selector
import TimeSeries.Proofs.Query.Spans
import TimeSeries.Proofs.Query.Split
import TimeSeries.Proofs.Record.Unordered
import TimeSeries.Proofs.Settings.Precedence
import TimeSeries.Proofs.Store.Engine
import TimeSeries.Proofs.Store.Interleaving
import TimeSeries.Proofs.Text.Lower
