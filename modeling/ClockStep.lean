import ClockStep.Core.Bench
import ClockStep.Keyboard.Piped
import ClockStep.Keyboard.Terminal
import ClockStep.LineEditor
import ClockStep.Main
import ClockStep.Proofs.BitFields
import ClockStep.Proofs.BreakpointSet
import ClockStep.Proofs.Cancellation
import ClockStep.Proofs.ColouredPrinting
import ClockStep.Proofs.Colours
import ClockStep.Proofs.CommandFootprints
import ClockStep.Proofs.CommandGrammar
import ClockStep.Proofs.CommandRefusal
import ClockStep.Proofs.ConsoleFailure
import ClockStep.Proofs.ConsoleWrites
import ClockStep.Proofs.ControlSequences
import ClockStep.Proofs.CycleByCycle
import ClockStep.Proofs.Disassembly
import ClockStep.Proofs.Dumps
import ClockStep.Proofs.FallingEdges
import ClockStep.Proofs.FlatMemory
import ClockStep.Proofs.FrameReception
import ClockStep.Proofs.HalfPeriods
import ClockStep.Proofs.HaltOnStop
import ClockStep.Proofs.ImagePlacement
import ClockStep.Proofs.InstructionSteps
import ClockStep.Proofs.InterruptLines
import ClockStep.Proofs.LineWords
import ClockStep.Proofs.NumberTokens
import ClockStep.Proofs.PipedInput
import ClockStep.Proofs.RaiseDelivery
import ClockStep.Proofs.RaiseOrder
import ClockStep.Proofs.Resets
import ClockStep.Proofs.RunsInParts
import ClockStep.Proofs.SamplePlacement
import ClockStep.Proofs.SerialConsole
import ClockStep.Proofs.SessionActions
import ClockStep.Proofs.SessionTurns
import ClockStep.Proofs.ShownInstruction
import ClockStep.Proofs.Spellings
import ClockStep.Proofs.ToldTexts
