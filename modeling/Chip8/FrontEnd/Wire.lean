import Chip8.FrontEnd.Command
import Chip8.FrontEnd.Keyboard
import Chip8.Text.Integer

/-!
The wire: commands and input events as lines of text, for a display at the other end
of a pipe.

Every command is a line: its name, and behind it what belongs to it. The line of a poll
asks for the events since the last one; the answer is a line that holds them all.
-/

namespace Chip8.FrontEnd

def Color.words (color : Color) : List String :=
  [color.red, color.green, color.blue].map toString

def Area.words (area : Area) : List String :=
  [area.left, area.top, area.width, area.height].map toString

def Command.words : Command → List String
  | openDisplay => ["open-display"]
  | closeDisplay => ["close-display"]
  | openFonts => ["open-fonts"]
  | loadFont name size => ["font", toString size, name]
  | setCaption caption => ["caption", caption]
  | setMode width height => ["mode", toString width, toString height]
  | fill color area => "fill" :: color.words ++ area.words
  | rectangle color area => "rectangle" :: color.words ++ area.words
  | text line left top => ["text", toString left, toString top, line]
  | present => ["present"]
  | openMixer rate form channels buffer =>
      "open-mixer" :: [rate, form, channels, buffer].map toString
  | closeMixer => ["close-mixer"]
  | makeSound samples => "sound" :: samples.map toString
  | play loops => ["play", toString loops]
  | stop => ["stop"]

def Command.line (command : Command) : String :=
  " ".intercalate command.words

def pollLine : String := "poll"

def lineWords (line : String) : List String :=
  ((line.toList.filter (· ≠ '\n')).splitOn ' ').map String.ofList

def keyEvents (event : Int → InputEvent) (code : String) : List InputEvent :=
  ((Text.Integer.read? .decimal code).map event).toList

/-- The events that words stand for. Words that stand for none are passed over. -/
def InputEvent.ofWords : List String → List InputEvent
  | "down" :: code :: rest => keyEvents down code ++ ofWords rest
  | "up" :: code :: rest => keyEvents up code ++ ofWords rest
  | "close" :: rest => closed :: ofWords rest
  | _ :: rest => ofWords rest
  | [] => []

def InputEvent.ofLine (line : String) : List InputEvent :=
  ofWords (lineWords line)

end Chip8.FrontEnd
