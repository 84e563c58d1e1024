import Autopilot.Host.Workspace
import Autopilot.LogFilter
import Autopilot.Main
import Autopilot.Proofs.Strategy.WellFormed
import Autopilot.Proofs.Strategy.Scan
import Autopilot.Proofs.Strategy.Building
import Autopilot.Proofs.Bytes
import Autopilot.Proofs.Wire.Reading
import Autopilot.Proofs.Wire.Format
import Autopilot.Proofs.Strategy.Built
import Autopilot.Proofs.Strategy.Faults
import Autopilot.Proofs.Wire.RoundTrip
import Autopilot.Proofs.Wire.SelfDelimiting
import Autopilot.Proofs.Strategy.Indexed
import Autopilot.Proofs.Wire.Scanner
import Autopilot.Proofs.Wire.Range
import Autopilot.Proofs.StrategyFile.Faithful
import Autopilot.Proofs.Text.Literals
import Autopilot.Proofs.Value
import Autopilot.Proofs.Subscription.History
import Autopilot.Proofs.Subscription.Memory
import Autopilot.Proofs.Subscription.Configured
import Autopilot.Proofs.Library
import Autopilot.Proofs.Subscription.Calls
import Autopilot.Proofs.Execution.CallData
import Autopilot.Proofs.Execution.Substitution
import Autopilot.Proofs.Subscription.LifeCycle
import Autopilot.Proofs.Subscription.Agreement
import Autopilot.Proofs.Wire.Distinct
import Autopilot.Proofs.Wire.Sources
import Autopilot.Proofs.Execution.Bundles
import Autopilot.Proofs.Execution.Prepared
import Autopilot.Proofs.Execution.Dependence
import Autopilot.Proofs.Library.Bundling
import Autopilot.Proofs.Subscription.ContentHash
import Autopilot.Proofs.StrategyFile.RoundTrip
import Autopilot.Proofs.Predicate.Printing
import Autopilot.Proofs.Subscription.Interleaving
import Autopilot.Proofs.Subscription.Usable
import Autopilot.Proofs.Predicate.Polarity
import Autopilot.Proofs.Subscription.Declared
import Autopilot.Proofs.Binding.Reading
import Autopilot.Proofs.Strategy.FirstFault
import Autopilot.Proofs.KeeperFile
import Autopilot.Proofs.Value.RoundTrip
import Autopilot.Proofs.ReadError
