/-!
The log: what the machine tells an operator beside its output.
-/

namespace Chip8

inductive Level
  | debug
  | info
  | warning
  | error
deriving DecidableEq, Repr

def Level.name : Level → String
  | debug => "DEBUG"
  | info => "INFO"
  | warning => "WARNING"
  | error => "ERROR"

def Level.rank : Level → Nat
  | debug => 0
  | info => 1
  | warning => 2
  | error => 3

structure Record where
  level : Level
  text : String
deriving DecidableEq, Repr

namespace Record

def reaches (threshold : Level) (record : Record) : Bool :=
  threshold.rank ≤ record.level.rank

def debug (text : String) : Record := ⟨.debug, text⟩

def info (text : String) : Record := ⟨.info, text⟩

def warning (text : String) : Record := ⟨.warning, text⟩

def error (text : String) : Record := ⟨.error, text⟩

end Record

end Chip8
