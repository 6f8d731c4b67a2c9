import Firewall.Chain
import Firewall.CommandLine.Compiler
import Firewall.CommandLine.SetRate
import Firewall.Data.Json
import Firewall.Evaluation
import Firewall.Main
import Firewall.Proofs.Adjusting
import Firewall.Proofs.Appending
import Firewall.Proofs.Binding
import Firewall.Proofs.Charging
import Firewall.Proofs.Checking
import Firewall.Proofs.ClosedPorts
import Firewall.Proofs.Configuring
import Firewall.Proofs.Emitting
import Firewall.Proofs.Ending
import Firewall.Proofs.Exposure
import Firewall.Proofs.Finding
import Firewall.Proofs.Forgery
import Firewall.Proofs.Grants
import Firewall.Proofs.Issuing
import Firewall.Proofs.Listing
import Firewall.Proofs.Logging
import Firewall.Proofs.Naming
import Firewall.Proofs.Normalizing
import Firewall.Proofs.Portions
import Firewall.Proofs.Recording
import Firewall.Proofs.Referring
import Firewall.Proofs.Reordering
import Firewall.Proofs.Repeating
import Firewall.Proofs.Reporting
import Firewall.Proofs.Restricting
import Firewall.Proofs.Retuning
import Firewall.Proofs.Roster
import Firewall.Proofs.Separating
import Firewall.Proofs.Sequencing
import Firewall.Proofs.Silencing
import Firewall.Proofs.Treatment
import Firewall.Proofs.Widening
import Firewall.Proofs.Windowing
import Firewall.Proofs.Wording
