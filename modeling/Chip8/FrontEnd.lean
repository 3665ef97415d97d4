import Chip8.Collaborator
import Chip8.Effect
import Chip8.FrontEnd.Keyboard
import Chip8.FrontEnd.Speaker
import Chip8.FrontEnd.Window

/-!
The front end: a window, a speaker and a keyboard at the side of a machine.
-/

namespace Chip8

structure Equipment where
  lineHeight : Int
  device : Bool
  /-- What happens at the keyboard from one poll to the next; nothing behind the last. -/
  batches : List (List FrontEnd.InputEvent)
deriving Repr

/-- What the keyboard, the window and the speaker of a front end are asked to do. -/
inductive FrontEnd.Call
  | poll
  | render (frame : Frame)
  | setTone (active : Bool)
  | close (part : Collaborator)
deriving Repr

/-- A front end that is open, with what its parts have been asked to do and the commands it
has given, the last one first. -/
structure FrontEnd where
  window : FrontEnd.Window
  speaker : FrontEnd.Speaker
  batches : List (List FrontEnd.InputEvent)
  asked : List FrontEnd.Call
  given : List FrontEnd.Command
deriving Repr

namespace FrontEnd

def give (frontEnd : FrontEnd) (commands : List Command) : FrontEnd :=
  { frontEnd with given := commands.reverse ++ frontEnd.given }

def note (frontEnd : FrontEnd) (call : Call) : FrontEnd :=
  { frontEnd with asked := call :: frontEnd.asked }

def ofScale {Time : Type} [Scalar Time] (scale : Int) (equipment : Equipment) (volume : Time) :
    Except Fault FrontEnd := do
  let window := Window.ofScale scale equipment.lineHeight
  let (speaker, soundCommands) ←
    Speaker.ofTone defaultFrequency volume equipment.device
  return {
    window := window
    speaker := speaker
    batches := equipment.batches
    asked := []
    given := (window.openCommands defaultCaption ++ soundCommands
      ++ Keyboard.openCommands).reverse }

def openRecords (scale : Int) (equipment : Equipment) : List Record :=
  (Window.ofScale scale equipment.lineHeight).openRecords
    ++ Speaker.openRecords equipment.device

def poll (frontEnd : FrontEnd) : List Event × FrontEnd :=
  let noted := frontEnd.note .poll
  match frontEnd.batches with
  | [] => ([], noted)
  | batch :: later => (Keyboard.translateAll batch, { noted with batches := later })

def render (frontEnd : FrontEnd) (frame : Frame) : FrontEnd :=
  let rendered := frontEnd.window.render frame.screen (some frame.registers)
  let shown := (frontEnd.note (.render frame)).give rendered.commands
  match rendered.window with
  | .ok window => { shown with window }
  | .error _ => shown

def setTone (frontEnd : FrontEnd) (active : Bool) : FrontEnd :=
  let (speaker, commands) := frontEnd.speaker.setTone active
  { (frontEnd.note (.setTone active)).give commands with speaker }

def closeCommands (frontEnd : FrontEnd) : Collaborator → List Command
  | .input => Keyboard.closeCommands
  | .speaker => frontEnd.speaker.closeCommands
  | .renderer => Window.closeCommands

def closePart (frontEnd : FrontEnd) (part : Collaborator) : FrontEnd :=
  (frontEnd.note (.close part)).give (frontEnd.closeCommands part)

/-- Close the keyboard, the speaker and the window, in this order. -/
def close (frontEnd : FrontEnd) : FrontEnd :=
  [.input, .speaker, .renderer].foldl closePart frontEnd

def calls (frontEnd : FrontEnd) : List Call :=
  frontEnd.asked.reverse

def commands (frontEnd : FrontEnd) : List Command :=
  frontEnd.given.reverse

end FrontEnd

end Chip8
