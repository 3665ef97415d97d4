import Chip8.Display
import Chip8.FrontEnd.Command
import Chip8.Registers
import Chip8.Text.Integer

/-!
The window: the screen, magnified, with the registers in a panel below.

The window remembers which pixels it shows, and draws a rectangle only for those that
have changed. The panel is drawn anew every time.
-/

namespace Chip8.FrontEnd

def litColor : Color := ⟨255, 255, 255⟩

def darkColor : Color := ⟨64, 64, 64⟩

def panelColor : Color := ⟨255, 255, 255⟩

def panelFont : String := "Consolas"

def panelFontSize : Nat := 18

def panelLines : Int := 5

def panelPadding : Int := 10

def defaultCaption : String := "NOTCH8 DISPLAY"

structure Window where
  scale : Int
  lineHeight : Int
  shown : Array Bool
deriving DecidableEq, Repr

namespace Window

def screenWidth (window : Window) : Int :=
  Layout.displayWidth * window.scale

def screenHeight (window : Window) : Int :=
  Layout.displayHeight * window.scale

def panelHeight (window : Window) : Int :=
  panelLines * window.lineHeight + panelPadding

def ofScale (scale lineHeight : Int) : Window :=
  ⟨scale, lineHeight, Array.replicate (Layout.displayWidth * Layout.displayHeight) false⟩

def fontCommands : List Command :=
  [.openDisplay, .openFonts, .loadFont panelFont panelFontSize]

def prepareCommands (caption : String) : List Command :=
  fontCommands ++ [.setCaption caption]

def openCommands (window : Window) (caption : String) : List Command :=
  prepareCommands caption ++
  [.setMode window.screenWidth (window.screenHeight + window.panelHeight),
   .fill darkColor ⟨0, 0, window.screenWidth, window.screenHeight⟩]

def sizeText (width height : String) : String :=
  width ++ " x " ++ height

/-- What the log says of the two parts of a window, given their width, the height of the
screen and that of the panel as texts. -/
def partRecords (width screenHeight panelHeight : String) : List Record :=
  [.debug ("Video memory display " ++ toString Layout.displayWidth ++ " by "
     ++ toString Layout.displayHeight ++ ", " ++ sizeText width screenHeight ++ " pixels"),
   .debug ("Register display " ++ sizeText width panelHeight ++ " pixels")]

def openRecords (window : Window) : List Record :=
  partRecords (toString window.screenWidth) (toString window.screenHeight)
    (toString window.panelHeight) ++
  [.info ("Display mode "
     ++ sizeText (toString window.screenWidth)
       (toString (window.screenHeight + window.panelHeight)))]

/-- How far the opening of a window gets if the log has to name a size of more digits
than are written: the width comes ahead of all records, the height of the panel ahead of
the second, and the height of both parts when all but the mode is set. -/
def stopped? (window : Window) (caption : String) : Option (List Command × List Record) :=
  let records := window.openRecords
  if !Text.Integer.isWritable window.screenWidth then some (fontCommands, [])
  else if !Text.Integer.isWritable window.panelHeight then some (fontCommands, records.take 1)
  else if !Text.Integer.isWritable (window.screenHeight + window.panelHeight) then
    some (prepareCommands caption, records.take 2)
  else none

/-- How far the opening of a window without a scale gets: in the log brackets stand for
the sizes that depend on it, and the mode cannot be set. The height of the panel may be
too long for the log before that. -/
def unscaled (lineHeight : Int) (caption : String) : List Command × List Record × Fault :=
  let panelHeight := (ofScale 0 lineHeight).panelHeight
  let records := partRecords "[]" "[]" (toString panelHeight)
  if Text.Integer.isWritable panelHeight then
    (prepareCommands caption, records, .missingNumber)
  else (fontCommands, records.take 1, .tooManyDigits)

def ofScale? (scale lineHeight : Int) : Except Fault Window :=
  let window := ofScale scale lineHeight
  if (window.stopped? "").isSome then .error .tooManyDigits else .ok window

def closeCommands : List Command :=
  [.closeDisplay]

/-- The rectangle of the pixel kept at an index of a display with the given width. A
negative width leads to the left of the corner and up. -/
def pixelCommand (window : Window) (width : Int) (index : Nat) (lit : Bool) : Command :=
  let column := Int.fmod index width
  let row := Int.fdiv index width
  .rectangle (if lit then litColor else darkColor)
    ⟨column * window.scale, row * window.scale, window.scale, window.scale⟩

/-- The indices from `first` on at which two lists of pixels differ, each with the new
pixel. -/
def changes (first : Nat) : List Bool → List Bool → List (Nat × Bool)
  | old :: olds, new :: news =>
      if old = new then changes (first + 1) olds news
      else (first, new) :: changes (first + 1) olds news
  | _, _ => []

/-- The rectangles of the pixels that have changed, of a display with the given width. -/
def pixelCommands (window : Window) (width : Int) (pixels : Array Bool) : List Command :=
  (changes 0 window.shown.toList pixels.toList).map fun (index, lit) =>
    window.pixelCommand width index lit

def lineCommands (window : Window) (lines : List String) : List Command :=
  lines.zipIdx.map fun (line, row) =>
    .text line 0 (window.screenHeight + window.lineHeight * row)

def panelCommands (window : Window) (registers : Registers) : List Command :=
  .fill panelColor ⟨0, window.screenHeight, window.screenWidth, window.panelHeight⟩
    :: window.lineCommands registers.format

/-- What rendering leads to: the commands given, and the window, or the fault that came
before it was complete. -/
structure Rendered where
  commands : List Command
  window : Except Fault Window

/-- Show pixels in rows of the given width, and the registers if the window has been given
them. With more pixels than the window remembers it fails behind the last one it
remembers. -/
def renderPixels (window : Window) (width : Int) (pixels : Array Bool)
    (registers : Option Registers) : Rendered :=
  let drawn := window.pixelCommands width pixels
  if window.shown.size < pixels.size then ⟨drawn, .error .indexOutOfRange⟩
  else
    let panel := match registers with
      | some shownRegisters => window.panelCommands shownRegisters
      | none => []
    ⟨drawn ++ panel ++ [.present], .ok { window with shown := pixels }⟩

/-- Show a display, and the registers if the window has been given them. -/
def render {width height : Nat} (window : Window) (display : Display width height)
    (registers : Option Registers) : Rendered :=
  window.renderPixels width display.pixels.toArray registers

end Window

end Chip8.FrontEnd
