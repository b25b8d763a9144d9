import Scaffold.CommandLine.Program
import Scaffold.Main
import Scaffold.Proofs.CommandLine.Configuration
import Scaffold.Proofs.CommandLine.ExitCode
import Scaffold.Proofs.CommandLine.Groups
import Scaffold.Proofs.CommandLine.Layers
import Scaffold.Proofs.CommandLine.Members
import Scaffold.Proofs.Manifest.Encoding
import Scaffold.Proofs.Manifest.RoundTrip
import Scaffold.Proofs.Manifest.Sections
import Scaffold.Proofs.Manifest.WellFormed
import Scaffold.Proofs.Options.Choice
import Scaffold.Proofs.Options.Finalizing
import Scaffold.Proofs.Options.JsonDraft
import Scaffold.Proofs.Options.Merging
import Scaffold.Proofs.Project.Accounting
import Scaffold.Proofs.Project.Containment
import Scaffold.Proofs.Project.Identifiers
import Scaffold.Proofs.Project.Sections
import Scaffold.Proofs.Run.Adding
import Scaffold.Proofs.Run.Containment
import Scaffold.Proofs.Run.Copying
import Scaffold.Proofs.Run.Failing
import Scaffold.Proofs.Run.Filtering
import Scaffold.Proofs.Run.Keeping
import Scaffold.Proofs.Run.Marks
import Scaffold.Proofs.Run.Overwriting
import Scaffold.Proofs.Run.OwnOutput
import Scaffold.Proofs.Run.Subtrees
import Scaffold.Proofs.Template.Openers
import Scaffold.Proofs.Template.Reading
import Scaffold.Proofs.Template.Untouched
import Scaffold.Proofs.Variables.Modifiers
import Scaffold.Proofs.Variables.Names
