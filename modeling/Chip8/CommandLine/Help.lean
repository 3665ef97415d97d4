/-!
The texts that the command line prints about itself.
-/

namespace Chip8.CommandLine

def programName : String := "notch8"

def lines (texts : List String) : String :=
  String.join (texts.map (· ++ "\n"))

def usage : String :=
  lines [
   "usage: notch8 [-h] [-v] [--breakpoint X [X ...]] [--debug] [--speed HZ]",
   "              [--scale N] [--shift-vy] [--seed SEED] [--headless] [--cycles N]",
   "              [--disassemble]",
   "              [program]"]

def help : String :=
  usage ++ lines ["",
   "A Chip-8 virtual machine",
   "",
   "positional arguments:",
   "  program               A compiled Chip-8 program to load",
   "",
   "options:",
   "  -h, --help            show this help message and exit",
   "  -v, --version         show program's version number and exit",
   "  --breakpoint X [X ...]",
   "                        A hexadecimal program address at which to pause",
   "                        execution",
   "  --debug               Enable verbose debug logging and an instruction trace",
   "  --speed HZ            Instructions per second, 0 for as fast as possible",
   "                        (default 500)",
   "  --scale N             Size of a Chip-8 pixel on screen (default 8)",
   "  --shift-vy            8xy6/8xyE shift Vy into Vx instead of shifting Vx in",
   "                        place",
   "  --seed SEED           Seed for the random number generator",
   "  --headless            Run without a window, sound or keyboard",
   "  --cycles N            Stop after N instructions and print the machine state",
   "  --disassemble         Print a listing of the program and exit"]

def version : String :=
  lines [programName ++ " 0.3.0"]

def complaint (message : String) : String :=
  usage ++ lines [programName ++ ": error: " ++ message]

end Chip8.CommandLine
