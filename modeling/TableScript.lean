import TableScript.Generator.Script
import TableScript.Profile.Loader
import TableScript.Sql.Given
import TableScript.Proofs.Grammar
import TableScript.Proofs.Client
import TableScript.Proofs.Generator.Coherence
import TableScript.Proofs.Table.Layout
import TableScript.Proofs.Table.PrimaryKey
import TableScript.Proofs.Sql.Fragment
import TableScript.Proofs.Sql.Quoting
import TableScript.Proofs.Table.Outline
import TableScript.Proofs.Table.Determined
import TableScript.Proofs.Sql.Cutting
import TableScript.Proofs.Sql.Qualifier
import TableScript.Proofs.Generator.Repair
import TableScript.Proofs.Sql.Match
import TableScript.Proofs.Sql.Coverage
import TableScript.Proofs.Text.Margins
import TableScript.Proofs.Sql.Trimming
import TableScript.Proofs.Sql.Reference
import TableScript.Proofs.Sql.Literal
import TableScript.Proofs.Sql.Between
import TableScript.Proofs.Generator.Kept
import TableScript.Proofs.Sql.Words
import TableScript.Proofs.Sql.Mild
import TableScript.Proofs.Sql.Plain
import TableScript.Proofs.Sql.Passage
import TableScript.Proofs.Generator.Joined
import TableScript.Proofs.Generator.Rejection
import TableScript.Proofs.Generator.Disclosure
import TableScript.Proofs.Table.Clauses
import TableScript.Proofs.Table.Attributes
import TableScript.Proofs.Generator.Notices
import TableScript.Proofs.Profile.Cache
import TableScript.Proofs.Profile.Reading
import TableScript.Proofs.Profile.Snapshot
import TableScript.Proofs.Profile.Configured
import TableScript.Proofs.Profile.Skipping
import TableScript.Proofs.Profile.Failing
import TableScript.Proofs.Registry
import TableScript.Proofs.Sql.Lines
import TableScript.Proofs.Table.Lacking
import TableScript.Proofs.Table.Totality
import TableScript.Proofs.Generator.Body
import TableScript.Proofs.Generator.Writing
import TableScript.Proofs.Decimal.Numeral
import TableScript.Proofs.Decimal.Truncation
import TableScript.Proofs.Client.Port
import TableScript.Proofs.Client.Checks
import TableScript.Proofs.Client.Making
import TableScript.Proofs.Client.Hosts
import TableScript.Proofs.Spelling
import TableScript.Proofs.Generator.Respelling
import TableScript.Proofs.Sql.Name
import TableScript.Proofs.Generator.Bare
