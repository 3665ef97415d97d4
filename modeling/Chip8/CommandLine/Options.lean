import Chip8.Layout
import Chip8.Text.Integer

/-!
The options of the command line, and what a command line amounts to once it has
been read.
-/

namespace Chip8.CommandLine

inductive Flag
  | help
  | version
  | breakpoint
  | debug
  | speed
  | scale
  | shiftVy
  | seed
  | headless
  | cycles
  | disassemble
deriving DecidableEq, Repr

namespace Flag

def all : List Flag :=
  [help, version, breakpoint, debug, speed, scale, shiftVy, seed, headless, cycles, disassemble]

/-- How an option is spelled; a short form comes first. -/
def spellings : Flag → List String
  | help => ["-h", "--help"]
  | version => ["-v", "--version"]
  | breakpoint => ["--breakpoint"]
  | debug => ["--debug"]
  | speed => ["--speed"]
  | scale => ["--scale"]
  | shiftVy => ["--shift-vy"]
  | seed => ["--seed"]
  | headless => ["--headless"]
  | cycles => ["--cycles"]
  | disassemble => ["--disassemble"]

def title (flag : Flag) : String :=
  "/".intercalate flag.spellings

def spelled : List (String × Flag) :=
  all.flatMap fun flag => flag.spellings.map fun spelling => (spelling, flag)

/-- The option with exactly this spelling. -/
def ofSpelling? (text : String) : Option Flag :=
  spelled.lookup text

inductive Arity
  | none
  | one
  | atLeastOne
deriving DecidableEq, Repr

def arity : Flag → Arity
  | breakpoint => .atLeastOne
  | speed | scale | seed | cycles => .one
  | help | version | debug | shiftVy | headless | disassemble => .none

end Flag

/-- The number given with an option. The separator of options and program counts for
no argument, so an option whose argument is the separator was given without one. -/
abbrev Given : Type := Option Int

structure Options where
  program : Option String
  breakpoints : List Int
  debug : Bool
  speed : Given
  scale : Given
  shiftVy : Bool
  seed : Option Given
  headless : Bool
  cycles : Option Given
  disassemble : Bool
deriving DecidableEq, Repr

def Options.default : Options where
  program := none
  breakpoints := []
  debug := false
  speed := some Layout.defaultSpeed
  scale := some Layout.defaultScale
  shiftVy := false
  seed := none
  headless := false
  cycles := none
  disassemble := false

end Chip8.CommandLine
