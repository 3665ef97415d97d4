import Chip8.Core

/-!
What each instruction does to the core.

Every instruction changes its state in one piece and ends by moving the program
counter: to its target when it jumps, past the next instruction when it skips,
and to the next instruction otherwise. The wait for a key leaves the counter where
it is. An instruction fails before it has changed anything, unless the pointer of
the return stack was placed outside its slots.
-/

namespace Chip8.Core

/-- Combine two registers into the first. The flag is written last, so it wins when
the first register is the flag register. -/
def combine (core : Core) (operation : Operation) (x y : RegisterIndex) : Core :=
  let first := core.byte x
  let second := core.byte y
  let shifted := if core.shiftsSecond then second else first
  match operation with
  | .copy => core.put x second
  | .or => core.put x (first ||| second)
  | .and => core.put x (first &&& second)
  | .xor => core.put x (first ^^^ second)
  | .add => core.putFlagged x (first + second) (first.toNat + second.toNat > 255)
  | .subtract => core.putFlagged x (first - second) (first ≥ second)
  | .shiftRight => core.putFlagged x (shifted >>> 1) (shifted.toNat % 2 = 1)
  | .subtractFrom => core.putFlagged x (second - first) (second ≥ first)
  | .shiftLeft => core.putFlagged x (shifted <<< 1) (shifted ≥ 128)

def drawRandom (core : Core) (x : RegisterIndex) (mask : UInt8) : Core :=
  let (drawn, random) := core.random.nextByte
  { core.put x (drawn &&& mask) with random }

def sprite (core : Core) (rows : Nat) : Except Fault (List UInt8) :=
  core.memory.readBlock core.registers.index rows

/-- Draw a sprite at the place two registers hold, and flag a collision. -/
def paintSprite (core : Core) (x y : RegisterIndex) (sprite : List UInt8) : Core :=
  let (collision, screen) := core.screen.paint (by decide) (by decide)
    (core.byte x).toNat (core.byte y).toNat (sprite.map fun row => (row.toNat : Int))
  { core with screen }.put Layout.flagRegister (if collision then 1 else 0)

def decimalDigits (value : UInt8) : List UInt8 :=
  [value / 100, value / 10 % 10, value % 10]

def storeBytes (core : Core) (values : List UInt8) : Except Fault Core := do
  let memory ← core.memory.writeBlock core.registers.index values
  return { core with memory }

def registersUpTo (core : Core) (x : RegisterIndex) : List UInt8 :=
  core.registers.v.toList.take (x.val + 1)

/-- Load the registers from the first up to `x` from the index register on. -/
def loadBytes (core : Core) (x : RegisterIndex) : Except Fault Core := do
  let values ← core.memory.readBlock core.registers.index (x.val + 1)
  return core.modifyRegisters (·.putAll values)

def advancing (before : Core) : Except Fault Core → Attempt Core Unit
  | .ok after => .ok () after.advance
  | .error fault => .error fault before

def perform (core : Core) : Instruction → Attempt Core Unit
  | .clearScreen => .ok () { core with screen := Display.dark }.advance
  | .returnToCaller =>
      match core.registers.pop with
      | .ok target registers => .ok () ({ core with registers }.setCounter target)
      | .error fault registers => .error fault { core with registers }
  | .jump target => .ok () (core.setCounter target.val)
  | .call target =>
      match core.registers.push (core.registers.counter + 2) with
      | .ok _ registers => .ok () ({ core with registers }.setCounter target.val)
      | .error fault registers => .error fault { core with registers }
  | .skipIfByte x value => .ok () (core.skipIf (core.byte x == value))
  | .skipUnlessByte x value => .ok () (core.skipIf (core.byte x != value))
  | .skipIfSame x y => .ok () (core.skipIf (core.byte x == core.byte y))
  | .skipUnlessSame x y => .ok () (core.skipIf (core.byte x != core.byte y))
  | .loadByte x value => .ok () (core.put x value).advance
  | .addByte x value => .ok () (core.put x (core.byte x + value)).advance
  | .combine operation x y => .ok () (core.combine operation x y).advance
  | .loadIndex address => .ok () (core.setIndex address.val).advance
  | .jumpOffset base => .ok () (core.setCounter (Memory.wrap (base.val + (core.byte Digit.zero).toNat)))
  | .random x mask => .ok () (core.drawRandom x mask).advance
  | .draw x y rows => core.advancing ((core.sprite rows.val).map (core.paintSprite x y))
  | .skipIfPressed x => .ok () (core.skipIf (core.keypad.isDown (core.byte x)))
  | .skipUnlessPressed x => .ok () (core.skipIf (!core.keypad.isDown (core.byte x)))
  | .readDelay x => .ok () (core.put x (Byte.ofInt core.registers.delay)).advance
  | .awaitKey x => .ok () { core with keypad := core.keypad.beginWait, waiting := some x }
  | .setDelay x =>
      .ok () (core.modifyRegisters ({ · with delay := (core.byte x).toNat })).advance
  | .setSound x =>
      .ok () (core.modifyRegisters ({ · with sound := (core.byte x).toNat })).advance
  | .addToIndex x =>
      .ok () (core.setIndex (Memory.wrap (core.registers.index + (core.byte x).toNat))).advance
  | .selectGlyph x => .ok () (core.setIndex (Memory.glyphOf (core.byte x))).advance
  | .storeDecimal x => core.advancing (core.storeBytes (decimalDigits (core.byte x)))
  | .storeRegisters x => core.advancing (core.storeBytes (core.registersUpTo x))
  | .loadRegisters x => core.advancing (core.loadBytes x)

def execute (core : Core) (word : Int) : Attempt Core Unit :=
  match Instruction.carriedOut? word with
  | some instruction => core.perform instruction
  | none => .error (.invalidOpcode word core.registers.counter) core

/-- Put the key of the last change into the register that waits for it. -/
def deliverKey (core : Core) (x : RegisterIndex) : Attempt Core Bool :=
  match core.keypad.takeChange with
  | (none, _) => .ok false core
  | (some key, keypad) =>
      .ok true ({ core with keypad, waiting := none }.put x (UInt8.ofNat key.val)).advance

def fetch (core : Core) : Except Fault Nat :=
  core.memory.readWord core.registers.counter

def counted (core : Core) : Core :=
  { core with cycles := core.cycles + 1 }

/-- Take one step: deliver the awaited key, or carry out the next instruction. The
answer says whether there was anything to do. -/
def step (core : Core) : Attempt Core Bool :=
  match core.waiting with
  | some x => core.deliverKey x
  | none =>
      match core.fetch with
      | .error fault => .error fault core
      | .ok word =>
          match core.execute word with
          | .ok _ after => .ok true after.counted
          | .error fault after => .error fault after

end Chip8.Core
