import VariableReport.Kernel.Element
import VariableReport.Main
import VariableReport.Proofs.Records.Substitution
import VariableReport.Proofs.Formula.Idempotence
import VariableReport.Proofs.Report.Order
import VariableReport.Proofs.Listing.RoundTrip
import VariableReport.Proofs.Notebook.Fallback
import VariableReport.Proofs.Records.Tables
import VariableReport.Proofs.Records.Noninterference
import VariableReport.Proofs.Records.RoundTrip
import VariableReport.Proofs.Records.Coherence
import VariableReport.Proofs.Settings.RoundTrip
import VariableReport.Proofs.Notebook.Framing
import VariableReport.Proofs.Source.Value
import VariableReport.Proofs.Records.Bounds
import VariableReport.Proofs.Records.Lossless
import VariableReport.Proofs.Formula.Normal
import VariableReport.Proofs.Snapshot.Loading
import VariableReport.Proofs.Settings.Loading
import VariableReport.Proofs.Formula.Balance
import VariableReport.Proofs.Report.Terms
import VariableReport.Proofs.Matrix.Shape
import VariableReport.Proofs.Matrix.Classification
import VariableReport.Proofs.Matrix.RoundTrip
import VariableReport.Proofs.Listing.Pieces
import VariableReport.Proofs.Listing.Entries
import VariableReport.Proofs.Listing.Quotes
import VariableReport.Proofs.Formula.Place
import VariableReport.Proofs.Formula.Power
import VariableReport.Proofs.Formula.Kept
import VariableReport.Proofs.Report.Rows
import VariableReport.Proofs.Records.Override
import VariableReport.Proofs.Source.Comment
import VariableReport.Proofs.Notebook.Rows
import VariableReport.Proofs.Listing.Labels
import VariableReport.Proofs.Source.Chained
import VariableReport.Proofs.Formula.Factors
import VariableReport.Proofs.Source.Masked
