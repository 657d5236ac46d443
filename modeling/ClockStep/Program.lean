import ClockStep.Core.Board
import ClockStep.History
import ClockStep.Options
import ClockStep.Session.Dialogue
import ClockStep.Text.Cluster

/-!
# The program

The debugger as a program: it reads its arguments, prints a banner, loads the images, connects the
core, resets the machine and holds a session with whoever is at the other end of its standard
streams. None of them is a terminal, so there is no colour, lines come from the input as they are,
and the console's bytes go to the output between the lines of the session.

The whole of it is a function from arguments, files and input to what the program leaves behind.
-/

namespace ClockStep.Program

/-- Which core there is to drive. -/
inductive Linked where
  /-- None. -/
  | none
  /-- The board core, unless setting it up fails. -/
  | board (failing : Bool)
deriving Repr, DecidableEq

/-- What the program leaves behind. -/
structure Outcome where
  /-- The exit code: 0 for a good end, 1 after a fatal error, 2 for bad arguments. -/
  code : Nat
  /-- The bytes on standard output. -/
  output : Array Byte := #[]
  /-- The text on standard error. -/
  errors : String := ""
  /-- The files as they are afterwards. -/
  files : FileTree

/-- The fuel for a run; no run that ends takes as many cycles. -/
def fuel : Nat := UInt64.size

/-- The lines that the program opens with. -/
def banner : List String :=
  [ "iit3503 Simulator Version " ++ Options.programVersion,
    "Welcome to the iit3503 interactive debugger.\n",
    "Type \"help\" for help.",
    "Type ctrl+d or \"quit\" to quit.\n" ]

/-- Prints lines in one style; the program's own output takes everything. -/
def printed (style : Style) (texts : List String) (p : Printer) : Printer :=
  texts.foldl (fun p text => (p.line style text).2) p

/-- What is read from standard input: its lines, with the backspaces in them applied, and the
failures where one is not text. -/
def inputEvents {μ : Type} (input : List Byte) : List (Session.Event μ) :=
  (Text.lines input).map fun line =>
    match Text.Utf8.decode? line with
    | some text => .line (String.ofList (Text.applyBackspaces text.toList))
    | none => .failure .notText

/-- Reads the image files, the operating system's first, and loads them. -/
def loadImages (files : FileTree) (program : String) (system : Option String) :
    List Notice × Except LoadError Memory :=
  let image (path : String) : Except LoadError Image :=
    match files.read path with
    | .ok bytes => .ok { name := path, bytes }
    | .error cause => .error (.unreadable path cause)
  match system.mapM image with
  | .error e => ([], .error e)
  | .ok system =>
    match image program with
    | .error e => ([], .error e)
    | .ok program => Memory.load program system

/-- Sets up the core, with an empty waveform file if there is to be one. -/
def connect (linked : Linked) (files : FileTree) (trace : Option String) :
    Except MachineError (BoardCore × FileTree) :=
  match linked, trace with
  | .none, _ => .error .coreUnavailable
  | .board true, _ => .error (.core "Could not allocate the model")
  | .board false, none => .ok ({}, files)
  | .board false, some path =>
    match files.write path [] with
    | .ok files => .ok ({ waveform := some #[] }, files)
    | .error _ => .error (.core ("Could not open trace file '" ++ path ++ "'"))

/-- The lines to be read, with those that the session takes into the history. -/
def keepHistory (h : History) (lines : Array String) : History := lines.foldl History.add h

/-- A fatal error as it is reported. -/
def errorReport (e : ProgramError) : String := Style.boldRed.paint (some .ansi) e.message ++ "\n"

/-- The program's end after a session, or before there was one. -/
def finish (result : Except ProgramError Unit) (output : Array Byte) (files : FileTree) : Outcome :=
  match result with
  | .ok () => { code := 0, output, files }
  | .error e => { code := 1, output, errors := errorReport e, files }

/-- The program with its arguments read. There is no outcome if a run does not end. -/
def start (linked : Linked) (o : Options) (files : FileTree) (input : List Byte) :
    Option Outcome :=
  let printer := printed .bold banner {}
  match (loadImages files o.binary o.systemImage).2 with
  | .error e => some (finish (.error (.load e)) printer.sink.received files)
  | .ok memory =>
    match connect linked files o.trace with
    | .error e => some (finish (.error (.machine e)) printer.sink.received files)
    | .ok (core, files) =>
      let machine := (Machine.assemble core memory o.settings SilentKeyboard.silent {} #[]).reset
      let printer := printed .plain ["Reset.", "Starting Simulation."] printer
      let history := match o.history with
        | some path => (History.load files path).2
        | none => {}
      let session : Session BoardCore SilentKeyboard := { machine, printer, shared := true }
      match session.run fuel o.interactive (inputEvents input) with
      | none => none
      | some ending =>
        let core := ending.session.machine.core
        let files := Waveform.writeBlocks core o.trace files
        let files := match o.history with
          | some path => ((keepHistory history ending.transcript.history).save files path).2
          | none => files
        let files := Waveform.writeRest core o.trace files
        some (finish ending.result ending.session.printer.sink.received files)

/-- The program, called with the arguments behind its name. -/
def run (linked : Linked) (arguments : List String) (files : FileTree) (input : List Byte) :
    Option Outcome :=
  match Options.parse arguments with
  | .ok o => start linked o files input
  | .error .help => some { code := 0, output := (Text.Utf8.encode Options.helpText).toArray, files }
  | .error .version =>
    some { code := 0, output := (Text.Utf8.encode Options.versionText).toArray, files }
  | .error stop =>
    some { code := 2, errors := "error: " ++ stop.message ++ "\n\n" ++ Options.usageText, files }

end ClockStep.Program
