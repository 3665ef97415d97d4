/-!
Commands to the media system: what a front end asks the window, the font, the mixer
and the sounds of the host to do, in order.
-/

namespace Chip8.FrontEnd

structure Color where
  red : Nat
  green : Nat
  blue : Nat
deriving DecidableEq, Repr

structure Area where
  left : Int
  top : Int
  width : Int
  height : Int
deriving DecidableEq, Repr

inductive Command
  | openDisplay
  | closeDisplay
  | openFonts
  | loadFont (name : String) (size : Nat)
  | setCaption (text : String)
  | setMode (width height : Int)
  | fill (color : Color) (area : Area)
  | rectangle (color : Color) (area : Area)
  | text (line : String) (left top : Int)
  | present
  | openMixer (rate format channels buffer : Int)
  | closeMixer
  | makeSound (samples : List Int)
  | play (loops : Int)
  | stop
deriving DecidableEq, Repr

end Chip8.FrontEnd
