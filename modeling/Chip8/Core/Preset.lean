import Chip8.Core

/-!
Presets: states that a core is put into by hand.

A preset lists what it changes and leaves the rest as it is. Its parts are taken in
order, registers first, up to the first that the core refuses; what was taken before
that stays.
-/

namespace Chip8

structure Preset where
  fields : List (Registers.Field × Int)
  values : List UInt8
  slots : List Int
  stretches : List (Int × List UInt8)
  keys : List Int
  sprites : List (Int × Int × List Int)
deriving Repr

namespace Preset

def registers (preset : Preset) (before : Registers) : Registers :=
  let assigned := preset.fields.foldl
    (fun reached (field, value) => reached.assign field value) before
  { assigned.putAll preset.values with stack := assigned.stack.fill preset.slots }

end Preset

namespace Core

def poke (core : Core) (stretch : Int × List UInt8) : Attempt Core Unit :=
  (core.memory.writeAll stretch.1 stretch.2).within fun memory => { core with memory }

def press (core : Core) (key : Int) : Attempt Core Unit :=
  match core.keypad.set key true with
  | .ok keypad => .ok () { core with keypad }
  | .error fault => .error fault core

def place (core : Core) (sprite : Int × Int × List Int) : Attempt Core Unit :=
  let (x, y, rows) := sprite
  match core.screen.draw x y rows with
  | .ok (_, screen) => .ok () { core with screen }
  | .error fault => .error fault core

/-- Take over the registers of a preset. An address without a slot on the return stack
fails when those with one are stored. -/
def presetRegisters (core : Core) (preset : Preset) : Attempt Core Unit :=
  let assigned := core.modifyRegisters preset.registers
  if core.registers.stack.slots.size < preset.slots.length then
    .error .indexOutOfRange assigned
  else .ok () assigned

def preset (core : Core) (preset : Preset) : Attempt Core Unit :=
  match core.presetRegisters preset with
  | .error fault left => .error fault left
  | .ok _ assigned =>
      match Attempt.forEach poke assigned preset.stretches with
      | .error fault left => .error fault left
      | .ok _ stored =>
          match Attempt.forEach press stored preset.keys with
          | .error fault left => .error fault left
          | .ok _ pressed => Attempt.forEach place pressed preset.sprites

end Core

end Chip8
