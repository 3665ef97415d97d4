import Chip8.Byte
import Chip8.Capacity
import Chip8.Instruction.Mnemonic
import Chip8.Layout
import Chip8.Log
import Chip8.ReturnStack

/-!
The registers: sixteen bytes, the index register, the program counter, the return
stack and the two timers.

The last of the sixteen doubles as the flag. The index register, the counter, the
pointer of the stack and the timers hold integers: instructions keep them in
range, a caller need not.
-/

namespace Chip8

structure Registers where
  v : Vector UInt8 16
  index : Int
  counter : Int
  stack : ReturnStack
  delay : Int
  sound : Int
deriving DecidableEq, Repr

namespace Registers

/-- Registers as they are when the machine starts, with a stack of the given depth. -/
def ofDepth (depth : Nat) : Registers where
  v := Vector.replicate 16 0
  index := 0
  counter := Layout.programStart
  stack := ReturnStack.ofDepth depth
  delay := 0
  sound := 0

/-- Registers whose stack may be asked to have any depth; below zero it has none. -/
def ofDepth? (depth : Int) : Except Fault Registers :=
  (Capacity.room? depth).map ofDepth

def creationRecords : List Record :=
  [.debug "Registers V0:VF, I initialized",
   .debug ("Register PC initialised to 0x" ++ Text.hex 4 Layout.programStart)]

def byte (registers : Registers) (x : RegisterIndex) : UInt8 :=
  registers.v[x]

def put (registers : Registers) (x : RegisterIndex) (value : UInt8) : Registers :=
  { registers with v := registers.v.set x value }

theorem byte_put_self (registers : Registers) (x : RegisterIndex) (value : UInt8) :
    (registers.put x value).byte x = value :=
  Vector.getElem_set_self x.isLt

theorem byte_put_of_ne (registers : Registers) {x y : RegisterIndex} (value : UInt8)
    (different : x ≠ y) : (registers.put x value).byte y = registers.byte y :=
  Vector.getElem_set_ne x.isLt y.isLt fun same => different (Fin.ext same)

def putAll (registers : Registers) (values : List UInt8) : Registers :=
  { registers with v := Vector.ofFn fun x => values[x.val]?.getD (registers.byte x) }

def index? (number : Int) : Except Fault RegisterIndex :=
  match Digit.ofInt? number with
  | some x => .ok x
  | none => .error (.invalidRegister number)

def read (registers : Registers) (number : Int) : Except Fault UInt8 := do
  let x ← index? number
  return registers.byte x

/-- Store the low eight bits of a value in the register with the given number. -/
def write (registers : Registers) (number value : Int) : Except Fault Registers := do
  let x ← index? number
  return registers.put x (Byte.ofInt value)

/-- The registers beside the sixteen, as they can be assigned one at a time. -/
inductive Field
  | index
  | counter
  | pointer
  | delay
  | sound
deriving DecidableEq, Repr

/-- Assign a register beside the sixteen; any integer will do. -/
def assign (registers : Registers) (field : Field) (value : Int) : Registers :=
  match field with
  | .index => { registers with index := value }
  | .counter => { registers with counter := value }
  | .pointer => { registers with stack := { registers.stack with pointer := value } }
  | .delay => { registers with delay := value }
  | .sound => { registers with sound := value }

def push (registers : Registers) (address : Int) : Attempt Registers Unit :=
  (registers.stack.push address).within fun stack => { registers with stack }

def pop (registers : Registers) : Attempt Registers Int :=
  registers.stack.pop.within fun stack => { registers with stack }

def toneActive (registers : Registers) : Bool :=
  registers.sound > 0

def tick (registers : Registers) : Registers :=
  { registers with
    delay := if registers.delay > 0 then registers.delay - 1 else registers.delay
    sound := if registers.sound > 0 then registers.sound - 1 else registers.sound }

def cellText (registers : Registers) (x : RegisterIndex) : String :=
  x.name ++ ": 0x" ++ Text.byteHex (registers.byte x)

def format (registers : Registers) : List String :=
  (Digit.rows.map fun row => " ".intercalate (row.map registers.cellText)) ++
  ["PC: 0x" ++ Text.hex 4 registers.counter ++ " I: 0x" ++ Text.hex 4 registers.index
     ++ " SP: " ++ toString registers.stack.pointer
     ++ " DT: 0x" ++ Text.hex 2 registers.delay ++ " ST: 0x" ++ Text.hex 2 registers.sound]

end Registers

end Chip8
