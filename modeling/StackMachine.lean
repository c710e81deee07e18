import StackMachine.Main
import StackMachine.Ports
import StackMachine.Session
import StackMachine.Proofs.Numeral
import StackMachine.Proofs.StackEffect
import StackMachine.Proofs.Execution
import StackMachine.Proofs.Checking
import StackMachine.Proofs.Agreement
import StackMachine.Proofs.Rejection
import StackMachine.Proofs.Expression
import StackMachine.Proofs.Replacement
import StackMachine.Proofs.History
import StackMachine.Proofs.Accounting
import StackMachine.Proofs.Reachability
import StackMachine.Proofs.Conclusion
import StackMachine.Proofs.Bounds
import StackMachine.Proofs.Tracing
import StackMachine.Proofs.Causality
import StackMachine.Proofs.FaultSite
import StackMachine.Proofs.StackLaw
import StackMachine.Proofs.ErrorContract
import StackMachine.Proofs.Disassembly
import StackMachine.Proofs.DigitGroups
import StackMachine.Proofs.Sessions
import StackMachine.Proofs.Resolving
import StackMachine.Proofs.Reading
import StackMachine.Proofs.Joining
import StackMachine.Proofs.ShownStack
import StackMachine.Proofs.Arithmetic
import StackMachine.Proofs.Shuffling
import StackMachine.Proofs.Verdict
import StackMachine.Proofs.FaultReport
import StackMachine.Proofs.ReportText
import StackMachine.Proofs.Switches
import StackMachine.Proofs.Listings
