import Chip8.Collaborator
import Chip8.CommandLine.Session
import Chip8.Core.Preset
import Chip8.Display.Signed
import Chip8.Host.Rehearsal
import Chip8.Main
import Chip8.Proofs.CommandLine.Displaying
import Chip8.Proofs.CommandLine.Outcome
import Chip8.Proofs.Display.Torus
import Chip8.Proofs.FrontEnd.Loudspeaker
import Chip8.Proofs.Machine.Breakpoint
import Chip8.Proofs.Machine.Composition
import Chip8.Proofs.Machine.IdealPace
import Chip8.Proofs.Machine.KeyWait
import Chip8.Proofs.Machine.Pacing
import Chip8.Proofs.Machine.Replayed
import Chip8.Proofs.Machine.Undefined
import Chip8.Proofs.Timers.Exact
import Chip8.Scalar.Exact
import Chip8.Proofs.Display.Collision
import Chip8.Proofs.Machine.Drawing
import Chip8.Proofs.Machine.Arithmetic
import Chip8.Proofs.Memory.Window
import Chip8.Proofs.Machine.StoreLoad
import Chip8.Proofs.Machine.CallReturn
import Chip8.Proofs.Instruction.Assembler
import Chip8.Proofs.Machine.Loading
import Chip8.Proofs.Memory.Calls
import Chip8.Proofs.Memory.Dump
import Chip8.Proofs.Registers.BoundedList
