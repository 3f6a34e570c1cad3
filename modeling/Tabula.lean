import Tabula.Main
import Tabula.CommandLine.Files
import Tabula.Proofs.Catalog.Definition
import Tabula.Proofs.Catalog.Document
import Tabula.Proofs.Database.Joined
import Tabula.Proofs.Database.Script
import Tabula.Proofs.Database.Agreement
import Tabula.Proofs.Database.Assigned
import Tabula.Proofs.Database.Defined
import Tabula.Proofs.Query.Acceptance
import Tabula.Proofs.Query.Label
import Tabula.Proofs.Query.Outline
import Tabula.Proofs.Query.ReadBack
import Tabula.Proofs.Query.Route
import Tabula.Proofs.Report.Session
import Tabula.Proofs.Request.RoundTrip
import Tabula.Proofs.Query.Typed
import Tabula.Proofs.Query.Wildcard
import Tabula.Proofs.Sql.Placeholder
import Tabula.Proofs.Database.Commuting
import Tabula.Proofs.Database.Numbered
import Tabula.Proofs.Report.ErrorKinds
import Tabula.Proofs.Database.Repeatable
