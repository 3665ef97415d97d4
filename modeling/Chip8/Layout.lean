import Chip8.Digit

/-!
The fixed numbers of the machine: where things lie in memory, how many of each
there are, and how fast it runs unless told otherwise.
-/

namespace Chip8.Layout

/-- The timers count down this many times a second, whatever the instruction rate. -/
def timerRate : Nat := 60

/-- Instructions per second, unless another rate is asked for. -/
def defaultSpeed : Nat := 500

def memorySize : Nat := 4096

/-- Where programs begin; the bytes below belong to the interpreter. -/
def programStart : Nat := 0x200

def stackDepth : Nat := 16

def flagRegister : Digit := Digit.last

def displayWidth : Nat := 64

def displayHeight : Nat := 32

/-- Size of a pixel on the screen, unless another is asked for. -/
def defaultScale : Nat := 8

def fontStart : Nat := 0x50

def glyphSize : Nat := 5

def font : List UInt8 :=
  [0xF0, 0x90, 0x90, 0x90, 0xF0,
   0x20, 0x60, 0x20, 0x20, 0x70,
   0xF0, 0x10, 0xF0, 0x80, 0xF0,
   0xF0, 0x10, 0xF0, 0x10, 0xF0,
   0x90, 0x90, 0xF0, 0x10, 0x10,
   0xF0, 0x80, 0xF0, 0x10, 0xF0,
   0xF0, 0x80, 0xF0, 0x90, 0xF0,
   0xF0, 0x10, 0x20, 0x40, 0x40,
   0xF0, 0x90, 0xF0, 0x90, 0xF0,
   0xF0, 0x90, 0xF0, 0x10, 0xF0,
   0xF0, 0x90, 0xF0, 0x90, 0x90,
   0xE0, 0x90, 0xE0, 0x90, 0xE0,
   0xF0, 0x80, 0x80, 0x80, 0xF0,
   0xE0, 0x90, 0x90, 0x90, 0xE0,
   0xF0, 0x80, 0xF0, 0x80, 0xF0,
   0xF0, 0x80, 0xF0, 0x80, 0x80]

end Chip8.Layout
