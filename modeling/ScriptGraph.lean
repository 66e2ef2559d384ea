import ScriptGraph.Main
import ScriptGraph.Proofs.Advance
import ScriptGraph.Scripted
import ScriptGraph.Proofs.Saturation
import ScriptGraph.Proofs.Recursion
import ScriptGraph.Proofs.Naive
import ScriptGraph.Proofs.Machine
import ScriptGraph.Proofs.Simulation
import ScriptGraph.Proofs.Levels
import ScriptGraph.Proofs.Termination
import ScriptGraph.Proofs.StepBudget
import ScriptGraph.Proofs.Moves
import ScriptGraph.Proofs.PureKinds
import ScriptGraph.Proofs.SideEffects
import ScriptGraph.Proofs.Freshness
import ScriptGraph.Proofs.Diagnostics
import ScriptGraph.Proofs.Ledgers
import ScriptGraph.Proofs.PullOnce
import ScriptGraph.Proofs.CallContract
import ScriptGraph.Proofs.Records
import ScriptGraph.Proofs.WiderLimits
import ScriptGraph.Proofs.Gathered
import ScriptGraph.Proofs.Reordering
import ScriptGraph.Proofs.RoundTrip
import ScriptGraph.Proofs.SinglePrecision
import ScriptGraph.Proofs.SavedBlueprints
import ScriptGraph.Proofs.BodyWiring
import ScriptGraph.Proofs.CleanFailures
import ScriptGraph.Proofs.FailingSteps
import ScriptGraph.Proofs.Endpoints
import ScriptGraph.Proofs.FunctionProblems
import ScriptGraph.Proofs.CatalogueHistory
import ScriptGraph.Proofs.SharedVariables
import ScriptGraph.Proofs.LoopRounds
import ScriptGraph.Proofs.EventReports
import ScriptGraph.Proofs.TriggerIndependence
import ScriptGraph.Proofs.RawOutcomes
import ScriptGraph.Proofs.PinCompatibility
import ScriptGraph.Proofs.CycleGuard
import ScriptGraph.Proofs.LoopFrames
