import Chip8.Display
import Chip8.Keypad
import Chip8.Memory
import Chip8.Random.Twister
import Chip8.Registers

/-!
The core: everything a program can observe or change.

The core holds the memory, the registers, the screen, the keypad and the random
generator. It knows nothing of clocks, breakpoints or windows.
-/

namespace Chip8

structure Core where
  memory : Memory
  registers : Registers
  screen : Screen
  keypad : Keypad
  random : Random.Twister
  shiftsSecond : Bool
  waiting : Option RegisterIndex
  cycles : Nat
deriving DecidableEq, Repr

namespace Core

def blank (seed : Int) (shiftsSecond : Bool) : Core where
  memory := Memory.ofSize Layout.memorySize
  registers := Registers.ofDepth Layout.stackDepth
  screen := Display.dark
  keypad := Keypad.released
  random := Random.Twister.ofSeed seed
  shiftsSecond := shiftsSecond
  waiting := none
  cycles := 0

def byte (core : Core) (x : RegisterIndex) : UInt8 :=
  core.registers.byte x

def modifyRegisters (core : Core) (change : Registers → Registers) : Core :=
  { core with registers := change core.registers }

def put (core : Core) (x : RegisterIndex) (value : UInt8) : Core :=
  core.modifyRegisters (·.put x value)

def putFlagged (core : Core) (x : RegisterIndex) (value : UInt8) (flag : Bool) : Core :=
  (core.put x value).put Layout.flagRegister (if flag then 1 else 0)

def setCounter (core : Core) (counter : Int) : Core :=
  core.modifyRegisters ({ · with counter })

def setIndex (core : Core) (index : Int) : Core :=
  core.modifyRegisters ({ · with index })

def advance (core : Core) : Core :=
  core.setCounter (core.registers.counter + 2)

def skipIf (core : Core) (condition : Bool) : Core :=
  core.setCounter (core.registers.counter + if condition then 4 else 2)

end Core

end Chip8
