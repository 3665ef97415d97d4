import Chip8.CommandLine.Help
import Chip8.CommandLine.Options
import Chip8.Text.Quoted

/-!
Reading a command line.

First each argument is looked at by itself: it is an option, the separator, or plain
text. A long option may be cut short as long as only one option begins that way, and
may have its argument attached behind an equals sign. Negative numbers and texts with
a blank in them are plain even though they begin like options. Then the arguments are
taken in order: options take the plain texts behind them, the first plain text that
is left is the program, and whatever nobody takes is refused at the end.
-/

namespace Chip8.CommandLine

/-- Why reading stops before the end: a text was asked for, or something is wrong. -/
inductive Stop
  | help
  | version
  | complaint (message : String)
deriving DecidableEq, Repr

def wrong {Value : Type} (flag : Flag) (message : String) : Except Stop Value :=
  .error (.complaint ("argument " ++ flag.title ++ ": " ++ message))

/-! ### The shape of one argument -/

inductive Shape
  | plain (text : String)
  | option (flag : Flag) (spelling : String) (attached : Option String)
  /-- Something that begins like an option and is none. -/
  | unknown (text : String)
  | separator
deriving DecidableEq, Repr

def splitAtEquals (text : String) : String × Option String :=
  let name := text.toList.takeWhile (· ≠ '=')
  match text.toList.dropWhile (· ≠ '=') with
  | [] => (text, none)
  | _ :: rest => (String.ofList name, some (String.ofList rest))

def spanDigits (text : List Char) : List Char × List Char :=
  text.span fun character => (Text.decimalDigit? character).isSome

def dropLineEnd (text : List Char) : List Char :=
  if text.getLast? = some '\n' then text.dropLast else text

/-- Whether a text is a negative number, with or without decimal places. -/
def isNegativeNumber (text : String) : Bool :=
  match dropLineEnd text.toList with
  | '-' :: rest =>
      match spanDigits rest with
      | (whole, []) => !whole.isEmpty
      | (_, '.' :: places) =>
          let (read, left) := spanDigits places
          !read.isEmpty && left.isEmpty
      | _ => false
  | _ => false

/-- The options that a text may stand for although it is none of their spellings. Of
two dashes any beginning of a spelling will do; a single dash holds a short option
and what is attached to it. -/
def candidates (text : String) : List Shape :=
  if text.startsWith "--" then
    let (beginning, attached) := splitAtEquals text
    (Flag.spelled.filter fun (spelling, _) => spelling.startsWith beginning).map
      fun (spelling, flag) => .option flag spelling attached
  else
    let short := String.ofList (text.toList.take 2)
    (Flag.spelled.filter fun (spelling, _) => spelling = short).map
      fun (spelling, flag) => .option flag spelling (some (String.ofList (text.toList.drop 2)))

def Shape.spelling : Shape → String
  | .option _ spelling _ => spelling
  | .plain text | .unknown text => text
  | .separator => "--"

def shapeOfOther (text : String) : Except Stop Shape :=
  match candidates text with
  | [only] => .ok only
  | [] =>
      if isNegativeNumber text || text.toList.contains ' ' then .ok (.plain text)
      else .ok (.unknown text)
  | several =>
      .error (.complaint ("ambiguous option: " ++ text ++ " could match "
        ++ ", ".intercalate (several.map Shape.spelling)))

def shapeOf (text : String) : Except Stop Shape :=
  if !text.startsWith "-" || text = "-" then .ok (.plain text)
  else match Flag.ofSpelling? text with
    | some flag => .ok (.option flag text none)
    | none =>
        let (name, attached) := splitAtEquals text
        match attached, Flag.ofSpelling? name with
        | some value, some flag => .ok (.option flag name (some value))
        | _, _ => shapeOfOther text

/-- The shapes of all arguments; behind the separator every one is plain. -/
def shapes : List String → Except Stop (List Shape)
  | [] => .ok []
  | text :: rest =>
      if text = "--" then .ok (.separator :: rest.map .plain)
      else do
        let first ← shapeOf text
        let others ← shapes rest
        return first :: others

/-! ### Options and their arguments -/

def number (flag : Flag) (radix : Text.Integer.Radix) (typeName text : String) :
    Except Stop Int :=
  match Text.Integer.read? radix text with
  | some value => .ok value
  | none => wrong flag ("invalid " ++ typeName ++ " value: " ++ Text.Quoted.render text)

def givenNumber (flag : Flag) (text : String) : Except Stop Given :=
  if text = "--" then .ok none else (number flag .decimal "int" text).map some

/-- Read addresses; they may be written in any marked radix. -/
def addresses (flag : Flag) (texts : List String) : Except Stop (List Int) :=
  (texts.filter (· ≠ "--")).mapM (number flag .marked "<lambda>")

/-- What an option with its arguments does to the options read so far. -/
def apply (options : Options) (flag : Flag) (arguments : List String) : Except Stop Options :=
  let argument := arguments.headD ""
  match flag with
  | .help => .error .help
  | .version => .error .version
  | .breakpoint => do
      let breakpoints ← addresses flag arguments
      return { options with breakpoints }
  | .debug => .ok { options with debug := true }
  | .speed => do
      let speed ← givenNumber flag argument
      return { options with speed }
  | .scale => do
      let scale ← givenNumber flag argument
      return { options with scale }
  | .shiftVy => .ok { options with shiftVy := true }
  | .seed => do
      let seed ← givenNumber flag argument
      return { options with seed := some seed }
  | .headless => .ok { options with headless := true }
  | .cycles => do
      let cycles ← givenNumber flag argument
      return { options with cycles := some cycles }
  | .disassemble => .ok { options with disassemble := true }

/-- What an option says that was given an argument and takes none. -/
def ignored {Value : Type} (flag : Flag) (text : List Char) : Except Stop Value :=
  wrong flag ("ignored explicit argument " ++ Text.Quoted.render (String.ofList text))

/-- The short options in a text behind a single dash, after the first of them. -/
def shortOptions (first : Flag) : List Char → Except Stop (List Flag)
  | [] => .ok [first]
  | character :: rest =>
      match Flag.ofSpelling? (String.ofList ['-', character]) with
      | some next => (shortOptions next rest).map (first :: ·)
      | none => ignored first (character :: rest)

def isShort (spelling : String) : Bool :=
  spelling.startsWith "-" && !spelling.startsWith "--"

def applyAttached (options : Options) (flag : Flag) (spelling attached : String) :
    Except Stop Options :=
  match flag.arity with
  | .one | .atLeastOne => apply options flag [attached]
  | .none =>
      if isShort spelling && !attached.isEmpty then do
        let flags ← shortOptions flag attached.toList
        flags.foldlM (fun reached next => apply reached next []) options
      else ignored flag attached.toList

/-- The plain texts at the beginning of a list of shapes, and the rest. -/
def spanPlain : List Shape → List String × List Shape
  | .plain text :: rest => (text :: (spanPlain rest).1, (spanPlain rest).2)
  | left => ([], left)

theorem spanPlain_length (shapes : List Shape) :
    (spanPlain shapes).2.length ≤ shapes.length := by
  fun_induction spanPlain shapes with
  | case1 text rest hypothesis =>
      simp only [List.length_cons]
      omega
  | case2 left => exact Nat.le_refl _

/-- The texts that an option takes from the shapes behind it, and the rest. -/
def takeArguments (flag : Flag) (behind : List Shape) :
    Except Stop (List String × { left : List Shape // left.length ≤ behind.length }) :=
  match flag.arity with
  | .none => .ok ([], ⟨behind, Nat.le_refl _⟩)
  | .one =>
      match behind with
      | .plain text :: rest => .ok ([text], ⟨rest, Nat.le_succ _⟩)
      | _ => wrong flag "expected one argument"
  | .atLeastOne =>
      if (spanPlain behind).1.isEmpty then wrong flag "expected at least one argument"
      else .ok ((spanPlain behind).1, ⟨(spanPlain behind).2, spanPlain_length behind⟩)

/-! ### The whole line -/

/-- How far reading has come: the options, whether the program may still be named, and
the arguments that nobody took, the last one first. -/
structure Progress where
  options : Options
  pending : Bool
  unused : List String
deriving DecidableEq, Repr

def Progress.accept (progress : Progress) (text : String) : Progress :=
  if progress.pending then
    { progress with options := { progress.options with program := some text }, pending := false }
  else { progress with unused := text :: progress.unused }

/-- The shapes behind the program, or behind another plain text: a separator that
follows the program goes with it. -/
def behindPlain (isProgram : Bool) : List Shape → List Shape
  | .separator :: rest => if isProgram then rest else .separator :: rest
  | rest => rest

theorem behindPlain_length (isProgram : Bool) (shapes : List Shape) :
    (behindPlain isProgram shapes).length ≤ shapes.length := by
  unfold behindPlain
  split
  · split <;> simp
  · exact Nat.le_refl _

/-- Take the shapes in order. The separator counts for nothing next to the program;
elsewhere nobody takes it. -/
def takeShapes (progress : Progress) : List Shape → Except Stop Progress
  | [] => .ok progress
  | .plain text :: rest =>
      have := behindPlain_length progress.pending rest
      takeShapes (progress.accept text) (behindPlain progress.pending rest)
  | .separator :: rest =>
      if progress.pending then takeShapes progress rest
      else takeShapes (progress.accept "--") rest
  | .unknown text :: rest =>
      takeShapes { progress with unused := text :: progress.unused } rest
  | .option flag spelling (some attached) :: rest => do
      let options ← applyAttached progress.options flag spelling attached
      takeShapes { progress with options } rest
  | .option flag _ none :: rest => do
      let (arguments, ⟨left, _⟩) ← takeArguments flag rest
      let options ← apply progress.options flag arguments
      takeShapes { progress with options } left
termination_by shapes => shapes.length
decreasing_by all_goals simp only [List.length_cons]; omega

def read (arguments : List String) : Except Stop Options := do
  let given ← shapes arguments
  let progress ← takeShapes ⟨Options.default, true, []⟩ given
  if progress.unused.isEmpty then return progress.options
  else .error (.complaint ("unrecognized arguments: "
    ++ " ".intercalate progress.unused.reverse))

/-- What is printed when reading stops: the exit code, the output and the error output. -/
def Stop.outcome : Stop → Nat × String × String
  | .help => (0, CommandLine.help, "")
  | .version => (0, CommandLine.version, "")
  | .complaint message => (2, "", CommandLine.complaint message)

end Chip8.CommandLine
