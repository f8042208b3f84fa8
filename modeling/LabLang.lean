import LabLang.Main
import LabLang.Parallel.Aggregate
import LabLang.Proofs.Execution
import LabLang.Proofs.FailFast
import LabLang.Proofs.Draws
import LabLang.Proofs.RoundTrip
import LabLang.Proofs.TensorAxes
import LabLang.Proofs.GateAction
import LabLang.Parallel.Pool
import LabLang.Proofs.Tables
import LabLang.Proofs.Schedules
import LabLang.Proofs.Grouping
import LabLang.Proofs.QubitChecks
import LabLang.Proofs.Decoding
import LabLang.Proofs.RenumberedRuns
import LabLang.Proofs.PlainText
import LabLang.Proofs.SummationFaults
import LabLang.Proofs.RunStored
import LabLang.Proofs.StreamPositions
import LabLang.Proofs.UnmeasuredQubits
import LabLang.Proofs.CircuitInverse
import LabLang.Proofs.QuantityFaults
import LabLang.Proofs.ClassicalCircuits
import LabLang.Proofs.DecodedTallies
import LabLang.Proofs.ServiceEndings
import LabLang.Proofs.SessionComposition
import LabLang.Proofs.AcceptedConfigs
import LabLang.Proofs.CountTables
import LabLang.Proofs.CountVectors
import LabLang.Proofs.PrintedCircuits
import LabLang.Proofs.DisjointGates
import LabLang.Proofs.Marginals
import LabLang.Proofs.QuotedTexts
import LabLang.Proofs.BinaryOperations
import LabLang.Proofs.CallTimeouts
import LabLang.Proofs.InertLiterals
import LabLang.Proofs.BranchAverages
import LabLang.Proofs.CombinedOutcomes
import LabLang.Proofs.LineOrder
import LabLang.Proofs.Envelopes
import LabLang.Proofs.NormalResults
import LabLang.Proofs.AssignedLiterals
import LabLang.Proofs.ReplayedAssignments
import LabLang.Proofs.BlockGrammar
import LabLang.Proofs.BatchedSampling
import LabLang.Proofs.StoreHistory
