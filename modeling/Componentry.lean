import Componentry.Scenario.Building
import Componentry.Scenario.Chaining
import Componentry.Scenario.Drafting
import Componentry.Scenario.Graphing
import Componentry.Settings.Environment
import Componentry.Proofs.Cycles
import Componentry.Proofs.Nesting
import Componentry.Proofs.Succession
import Componentry.Proofs.Moves
import Componentry.Proofs.Shutdown
import Componentry.Proofs.Conduct
import Componentry.Proofs.Hooks
import Componentry.Proofs.Threads
import Componentry.Proofs.Winner
import Componentry.Proofs.Paths
import Componentry.Proofs.Declared
import Componentry.Proofs.Turns
import Componentry.Proofs.Discovery
import Componentry.Proofs.Ranks
import Componentry.Proofs.Aside
import Componentry.Proofs.Release
import Componentry.Proofs.Exemptions
import Componentry.Proofs.Tiers
import Componentry.Proofs.Mirror
import Componentry.Proofs.Wreckage
import Componentry.Proofs.Context
import Componentry.Proofs.Records
import Componentry.Proofs.Termination
import Componentry.Proofs.Reconciliation
import Componentry.Proofs.Registration
import Componentry.Proofs.Installation
import Componentry.Proofs.Docket
import Componentry.Proofs.Recreation
import Componentry.Proofs.Layers
import Componentry.Proofs.Tail
