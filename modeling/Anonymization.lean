import Anonymization.Hierarchy.Tree
import Anonymization.Main
import Anonymization.Proofs.CommandLine.Precedence
import Anonymization.Proofs.CommandLine.Telling
import Anonymization.Proofs.Criterion.Composition
import Anonymization.Proofs.Database.Entries
import Anonymization.Proofs.Database.Fetching
import Anonymization.Proofs.Database.Naming
import Anonymization.Proofs.Engine.Binding
import Anonymization.Proofs.Engine.HandOver
import Anonymization.Proofs.Engine.Manifest
import Anonymization.Proofs.Engine.Numbers
import Anonymization.Proofs.Hierarchy.Coverage
import Anonymization.Proofs.Hierarchy.Loading
import Anonymization.Proofs.Hierarchy.Lookup
import Anonymization.Proofs.Hierarchy.Representation
import Anonymization.Proofs.Hierarchy.Rows
import Anonymization.Proofs.Run.Course
import Anonymization.Proofs.Settings.Defects
import Anonymization.Proofs.Settings.Names
import Anonymization.Proofs.Settings.Opening
import Anonymization.Proofs.Settings.Rereading
import Anonymization.Proofs.Settings.Tokens
import Anonymization.Proofs.Table.Detection
import Anonymization.Proofs.Table.LineEnds
