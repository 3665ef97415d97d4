import Chip8.Effect
import Chip8.Core.Perform

/-!
What the core tells of itself: the records and frames that go with a step, and the
report of its state.
-/

namespace Chip8

def Fault.records : Fault → List Record
  | .invalidOpcode word counter =>
      [.error ("Undefined opcode " ++ Text.hex 4 word ++ " at address " ++ Text.hex 4 counter)]
  | .stackOverflow _ => [.error "Stack overflow"]
  | .stackUnderflow => [.error "Stack underflow."]
  | _ => []

namespace Core

variable {Time Answer : Type}

def spriteRecord (core : Core) (rows : Nat) : List Record :=
  match core.sprite rows with
  | .ok sprite =>
      [.debug ("Memory loc " ++ Text.hex 4 core.registers.index ++ ", " ++ toString rows
        ++ " bytes: " ++ Text.bytesHex sprite)]
  | .error _ => []

def records (core : Core) : Instruction → List Record
  | .draw _ _ rows => core.spriteRecord rows.val
  | .awaitKey x => [.debug ("Waiting for a key for " ++ x.name)]
  | _ => []

def redraws : Instruction → Bool
  | .clearScreen | .draw .. => true
  | _ => false

/-- The frame shown by an instruction that leads from one core to another. It is
rendered before the counter moves on. -/
def shownFrame (before after : Core) : Frame :=
  (after.setCounter before.registers.counter).frame

def executionEffects (core : Core) (word : Int) (attempt : Attempt Core Answer) :
    List (Effect Time) :=
  let told := match Instruction.carriedOut? word with
    | some instruction => core.records instruction
    | none => []
  let shown := match Instruction.carriedOut? word, attempt with
    | some instruction, .ok _ after =>
        if redraws instruction then [.render (core.shownFrame after)] else []
    | _, .ok _ _ => []
    | _, .error fault _ => fault.records.map .log
  told.map .log ++ shown

/-- What the log says of a key that reaches the register waiting for it. -/
def deliveryRecords (core : Core) (x : RegisterIndex) : List Record :=
  match core.keypad.takeChange.1 with
  | some key =>
      [.debug ("Store key " ++ Text.hex 1 key.val ++ " to " ++ x.name)]
  | none => []

/-- The effects of a step, given how it ended. A traced step first shows the instruction
it fetched. -/
def stepEffects (core : Core) (traced : Bool) (attempt : Attempt Core Answer) :
    List (Effect Time) :=
  match core.waiting with
  | some x => (core.deliveryRecords x).map .log
  | none =>
      match core.fetch with
      | .error _ => []
      | .ok word =>
          let trace := if traced then [.debug (traceLine core.registers.counter word)] else []
          trace.map .log ++ core.executionEffects word attempt

/-- The word at the program counter, or that there is none. -/
def counterLine (core : Core) : String :=
  match core.fetch with
  | .ok word => traceLine core.registers.counter word
  | .error _ => Text.hex 4 core.registers.counter ++ " | outside memory"

/-- The state of the core in lines, enough to find a fault in a program. -/
def report (core : Core) : List String :=
  core.registers.format
    ++ ["Stack: [" ++ " ".intercalate (core.registers.stack.addresses.map (Text.hex 4)) ++ "]",
      "I -> " ++ core.memory.dump core.registers.index 8,
      core.counterLine]
    ++ match core.waiting with
      | some x => ["Waiting for a key for " ++ x.name]
      | none => []

end Core

end Chip8
