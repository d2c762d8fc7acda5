import StatementPress.Template.Reader
import StatementPress.Template.Edit
import StatementPress.Template.Schema
import StatementPress.Json.Pointer
import StatementPress.Statement
import StatementPress.CommandLine
import StatementPress.Main
import StatementPress.Proofs.Structure
import StatementPress.Proofs.Agreement
import StatementPress.Proofs.KnownComponents
import StatementPress.Proofs.Confinement
import StatementPress.Proofs.Pages
import StatementPress.Proofs.Stability
import StatementPress.Proofs.EscapedText
import StatementPress.Proofs.PathResolution
import StatementPress.Proofs.EscapedAttributes
import StatementPress.Proofs.JsonRoundTrip
import StatementPress.Proofs.Secrecy
import StatementPress.Proofs.SchemaConformance
import StatementPress.Proofs.CanonicalPayloads
import StatementPress.Proofs.Shadowing
import StatementPress.Proofs.LeafPaths
import StatementPress.Proofs.OfferedPaths
import StatementPress.Proofs.Tables
import StatementPress.Proofs.FirstRow
import StatementPress.Proofs.Ceilings
import StatementPress.Proofs.LeafPlaces
import StatementPress.Proofs.DistinctFindings
import StatementPress.Proofs.LocalFindings
import StatementPress.Proofs.FindingAddresses
import StatementPress.Proofs.RepeatedNames
import StatementPress.Proofs.UnfitComponents
import StatementPress.Proofs.PathSpellings
import StatementPress.Proofs.Lengths
