import Schemata.About
import Schemata.Inference
import Schemata.Log.Line
import Schemata.Log.Output
import Schemata.Main
import Schemata.Proofs.Cache.Again
import Schemata.Proofs.Cache.Confined
import Schemata.Proofs.Cache.Failures
import Schemata.Proofs.Cache.Isolation
import Schemata.Proofs.Cache.Refresh
import Schemata.Proofs.Cache.Rejected
import Schemata.Proofs.Cache.Tended
import Schemata.Proofs.Digest
import Schemata.Proofs.Log.Nested
import Schemata.Proofs.Model.Keys
import Schemata.Proofs.Model.Literals
import Schemata.Proofs.Postgres.Quoted
import Schemata.Proofs.Postgres.TypeName
import Schemata.Proofs.Schema.Flagged
import Schemata.Proofs.Schema.KeyAgreement
import Schemata.Proofs.Schema.KeyTypes
import Schemata.Proofs.Schema.Narrowed
import Schemata.Proofs.Schema.Neutral
import Schemata.Proofs.Schema.Override
import Schemata.Proofs.Schema.Pointwise
import Schemata.Proofs.Schema.Projected
import Schemata.Proofs.Schema.RoundTrip
import Schemata.Proofs.Schema.Served
import Schemata.Proofs.Schema.Twice
import Schemata.Proofs.Snapshot.Failures
import Schemata.Proofs.Table.Extended
import Schemata.Proofs.Table.Veiled
import Schemata.Proofs.Tree.Dispatch
import Schemata.Schema.Definition
import Schemata.Tree.Chain
import Schemata.Value.Template
