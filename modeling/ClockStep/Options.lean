import ClockStep.Machine.Basic

/-!
# The options of the command line

Flags are given alone, the other options with a value: `--binary PATH`, `--binary=PATH`, `-b PATH`,
`-bPATH` or `-b=PATH`. Short flags may stand together, and a short option with a value last among
them. Arguments are read from left to right and the first problem decides; that the program image is
missing is noticed at the end.

An option whose value is an argument of its own **waits** until the next option is recognised, or to
the end: only then it is noticed that the value is missing, empty, or a second one. So an argument
that is no option at all is a problem that comes before those of the option that waits.
-/

namespace ClockStep

/-- What the command line asks for. -/
structure Options where
  /-- The operator is asked before the machine runs. -/
  interactive : Bool := false
  /-- The program's image. -/
  binary : String
  /-- The operating system's image. -/
  systemImage : Option String := none
  /-- Where the waveform goes. -/
  trace : Option String := none
  /-- The session ends when the machine halts. -/
  haltQuit : Bool := false
  /-- Where the history is kept. -/
  history : Option String := none
deriving Repr, DecidableEq

/-- How the machine is to behave. -/
def Options.settings (o : Options) : Settings :=
  { haltOnStop := o.haltQuit, traced := o.trace.isSome }

namespace Options

/-- Why the program does not start. -/
inductive Stop where
  /-- The program image is not given. -/
  | missingBinary
  /-- The value of an option is missing or empty. -/
  | badValue
  /-- There is no such option, or an argument belongs to none. -/
  | unknown
  /-- An option is given twice. -/
  | repeated
  /-- A flag is given a value. -/
  | unexpectedValue
  /-- Help is asked for. -/
  | help
  /-- The version is asked for. -/
  | version
deriving Repr, DecidableEq

/-- The options that are just there or not. -/
inductive Flag where
  | interactive
  | haltQuit
deriving Repr, DecidableEq

/-- The options with a value. -/
inductive Field where
  | binary
  | systemImage
  | trace
  | history
deriving Repr, DecidableEq

/-- What a name on the command line stands for. -/
inductive Switch where
  | flag (f : Flag)
  | field (f : Field)
  | stop (s : Stop)
deriving Repr, DecidableEq

/-- The switch with a one-letter name. -/
def short? : Char → Option Switch
  | 'i' => some (.flag .interactive)
  | 'q' => some (.flag .haltQuit)
  | 'b' => some (.field .binary)
  | 'o' => some (.field .systemImage)
  | 't' => some (.field .trace)
  | 'h' => some (.stop .help)
  | 'V' => some (.stop .version)
  | _ => none

/-- The switch with a long name. -/
def long? : String → Option Switch
  | "interactive" => some (.flag .interactive)
  | "haltquit" => some (.flag .haltQuit)
  | "binary" => some (.field .binary)
  | "os-image" => some (.field .systemImage)
  | "trace" => some (.field .trace)
  | "history" => some (.field .history)
  | "help" => some (.stop .help)
  | "version" => some (.stop .version)
  | _ => none

/-- What was read of the command line so far. -/
structure Reading where
  interactive : Bool := false
  haltQuit : Bool := false
  binary : Option String := none
  systemImage : Option String := none
  trace : Option String := none
  history : Option String := none
  /-- The option that waits, with the value that followed it, if one did. -/
  waiting : Option (Field × Option String) := none
  /-- Whether only arguments follow. -/
  argumentsOnly : Bool := false
deriving Repr, DecidableEq

namespace Reading

/-- Sets a flag that is not set. -/
def setFlag (r : Reading) : Flag → Except Stop Reading
  | .interactive => if r.interactive then .error .repeated else .ok { r with interactive := true }
  | .haltQuit => if r.haltQuit then .error .repeated else .ok { r with haltQuit := true }

/-- The value of an option. -/
def get (r : Reading) : Field → Option String
  | .binary => r.binary
  | .systemImage => r.systemImage
  | .trace => r.trace
  | .history => r.history

/-- The reading with the value of an option. -/
def put (r : Reading) (value : String) : Field → Reading
  | .binary => { r with binary := some value }
  | .systemImage => { r with systemImage := some value }
  | .trace => { r with trace := some value }
  | .history => { r with history := some value }

/-- Sets an option that is not set to a value that is not empty. -/
def setField (r : Reading) (field : Field) (value : String) : Except Stop Reading :=
  if (r.get field).isSome then .error .repeated
  else if value = "" then .error .badValue
  else .ok (r.put value field)

/-- The reading with nothing waiting: an option that waited is set to its value. -/
def settle (r : Reading) : Except Stop Reading :=
  match r.waiting with
  | none => .ok r
  | some (_, none) => .error .badValue
  | some (field, some value) => { r with waiting := none }.setField field value

/-- Recognises a switch that has no value with it. -/
def takeSwitch (r : Reading) (switch : Switch) : Except Stop Reading := do
  let r ← r.settle
  match switch with
  | .flag f => r.setFlag f
  | .field f => .ok { r with waiting := some (f, none) }
  | .stop s => .error s

/-- Recognises an option that has its value with it. -/
def takeField (r : Reading) (field : Field) (value : String) : Except Stop Reading := do
  (← r.settle).setField field value

/-- Reads the letters of a short argument. -/
def readLetters (r : Reading) : List Char → Except Stop Reading
  | [] => .ok r
  | c :: rest =>
    match short? c, rest with
    | none, _ => .error .unknown
    | some (.field f), '=' :: value => r.takeField f (String.ofList value)
    | some (.field f), first :: value => r.takeField f (String.ofList (first :: value))
    | some switch, rest => do (← r.takeSwitch switch).readLetters rest

/-- Reads a long argument, the dashes aside. -/
def readLong (r : Reading) (text : List Char) : Except Stop Reading :=
  let name := text.takeWhile (· ≠ '=')
  let value? := match text.dropWhile (· ≠ '=') with
    | [] => none
    | _ :: value => some (String.ofList value)
  match long? (String.ofList name), value? with
  | none, _ => .error .unknown
  | some (.field f), some value => r.takeField f value
  | some (.flag _), some _ | some (.stop _), some _ => .error .unexpectedValue
  | some switch, none => r.takeSwitch switch

/-- Whether an argument is taken for an option. -/
def looksLikeOption (text : List Char) : Bool := text.head? = some '-' && 1 < text.length

/-- Reads one argument. -/
def readArgument (r : Reading) (argument : String) : Except Stop Reading :=
  let text := argument.toList
  if r.argumentsOnly then .error .unknown
  else if looksLikeOption text then
    match text.tail with
    | ['-'] => .ok { r with argumentsOnly := true }
    | '-' :: long => r.readLong long
    | letters => r.readLetters letters
  else match r.waiting with
    | some (f, none) => .ok { r with waiting := some (f, some argument) }
    | some (_, some _) | none => .error .unknown

/-- The options, once all arguments were read. -/
def finish (r : Reading) : Except Stop Options := do
  let r ← r.settle
  match r.binary with
  | none => .error .missingBinary
  | some binary =>
    .ok { binary, interactive := r.interactive, systemImage := r.systemImage, trace := r.trace
          haltQuit := r.haltQuit, history := r.history }

end Reading

/-- Reads the arguments behind the program's name. -/
def parse (arguments : List String) : Except Stop Options := do
  (← arguments.foldlM Reading.readArgument {}).finish

end Options

end ClockStep

/-! ### What the command line answers by itself

The texts that are printed instead of starting: help, version, and what is wrong with the arguments. -/

namespace ClockStep.Options

/-- The name that the program is called by. -/
def programName : String := "lc3-monitor"

/-- The version of the program. -/
def programVersion : String := "0.1.0"

/-- The line that names program and version. -/
def versionText : String := programName ++ " " ++ programVersion ++ "\n"

/-- How the program is called. -/
def usageText : String := "Usage: " ++ programName ++ " [OPTIONS] --binary <PATH>\n"

/-- The options and what they do. -/
def helpText : String :=
  "Cycle-stepped monitor and debugger for a microsequenced LC-3 hardware model\n\n" ++ usageText ++
  "\nOptions:\n" ++
  "  -i, --interactive      Start the debug shell immediately instead of running the program first\n" ++
  "  -b, --binary <PATH>    User program image\n" ++
  "  -o, --os-image <PATH>  OS image; without it the program runs in supervisor mode\n" ++
  "  -t, --trace <PATH>     Write a waveform file\n" ++
  "  -q, --haltquit         Quit the simulator when the machine halts\n" ++
  "      --history <PATH>   Keep the shell history in this file\n" ++
  "  -h, --help             Print help\n" ++
  "  -V, --version          Print version\n"

/-- What is wrong with the arguments. -/
def Stop.message : Stop → String
  | .missingBinary => "the following required arguments were not provided:\n  --binary <PATH>"
  | .badValue => "a value is required for an option but none was supplied"
  | .unknown => "unexpected argument found"
  | .repeated => "an argument cannot be used multiple times"
  | .unexpectedValue => "unexpected value for an argument that takes none"
  | .help | .version => ""

end ClockStep.Options
