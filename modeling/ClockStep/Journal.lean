import ClockStep.Text.Basic
import ClockStep.Word

/-!
# Failures of the system, and the journal

What a file, a stream or the terminal answers when it cannot serve a request is a `SystemError`.
Those with a number are the operating system's own; `other` carries the words of a device that is
not a file.

What the debugger notes for later reading while it works, apart from what it tells the operator, goes
into the journal: each **notice** has a level and a text, and a **journal** is the list of notices,
oldest first.
-/

/-! ### Failures of the system -/

namespace ClockStep

/-- Why the system refused a request. -/
inductive SystemError where
  /-- There is no file or directory of that name. -/
  | missing
  /-- There is no terminal to open. -/
  | noDevice
  /-- A name on the way is not a directory. -/
  | notDirectory
  /-- The name is that of a directory. -/
  | isDirectory
  /-- A name on the way, or the path as a whole, is too long. -/
  | nameTooLong
  /-- A path with a NUL character, which no file can have. -/
  | nulInPath
  /-- The bytes read are not UTF-8 text. -/
  | notText
  /-- The call was interrupted, and may be made again. -/
  | interrupted
  /-- Of bytes that were to be written whole, a call took none. -/
  | nothingTaken
  /-- A failure in a device's own words. -/
  | other (text : String)
deriving Repr, DecidableEq

/-- The wording of a failure. -/
def SystemError.message : SystemError → String
  | .missing => "No such file or directory (os error 2)"
  | .noDevice => "No such device or address (os error 6)"
  | .notDirectory => "Not a directory (os error 20)"
  | .isDirectory => "Is a directory (os error 21)"
  | .nameTooLong => "File name too long (os error 36)"
  | .nulInPath => "file name contained an unexpected NUL byte"
  | .notText => "stream did not contain valid UTF-8"
  | .interrupted => "Interrupted system call (os error 4)"
  | .nothingTaken => "failed to write whole buffer"
  | .other text => text

end ClockStep

/-! ### Notices -/

namespace ClockStep

/-- How much a notice matters. -/
inductive Level where
  | debug | info | warn
deriving Repr, DecidableEq

/-- The name of a level. -/
def Level.name : Level → String
  | .debug => "DEBUG"
  | .info => "INFO"
  | .warn => "WARN"

/-- Which of the two images a notice is about. -/
inductive ImageRole where
  | system | program
deriving Repr, DecidableEq

/-- How an image is spoken of. -/
def ImageRole.name : ImageRole → String
  | .system => "OS"
  | .program => "program"

/-- Something worth noting. -/
inductive Notice where
  /-- An image is being placed in memory. -/
  | loading (role : ImageRole) (origin : Word)
  /-- An image reaches beyond the end of memory. -/
  | truncated (role : ImageRole) (name : String)
  /-- The machine records a waveform. -/
  | tracing
  /-- The machine is being reset. -/
  | resetting
  /-- The machine came to a halt. -/
  | halted (cycles : Nat)
  /-- A keyboard poll failed. -/
  | pollFailed (cause : SystemError)
  /-- The piped keyboard input could not be read on. -/
  | inputFailed (cause : SystemError)
  /-- The piped keyboard input is used up. -/
  | inputEnded
  /-- The terminal keyboard is not asked again. -/
  | pollingDisabled (cause : SystemError)
  /-- The terminal stays in line mode. -/
  | rawModeRefused (cause : SystemError)
  /-- There was no history to start from. -/
  | noHistory (path : String) (cause : SystemError)
  /-- The history could not be kept. -/
  | historyLost (path : String) (cause : SystemError)
deriving Repr, DecidableEq

namespace Notice

/-- The level of a notice. -/
def level : Notice → Level
  | loading .. | pollFailed _ | inputEnded => .debug
  | tracing | resetting | halted _ | noHistory .. => .info
  | truncated .. | inputFailed _ | pollingDisabled _ | rawModeRefused _ | historyLost .. => .warn

/-- The text of a notice. -/
def text : Notice → String
  | loading role origin => "Loading " ++ role.name ++ " image at x" ++ Text.hexWord origin
  | truncated role name => role.name ++ " image '" ++ name ++ "' truncated at end of memory"
  | tracing => "Enabling timing output."
  | resetting => "Reset."
  | halted cycles => "Machine halted after " ++ toString cycles ++ " cycles"
  | pollFailed cause => "Keyboard poll failed: " ++ cause.message
  | inputFailed cause => "Keyboard input failed: " ++ cause.message
  | inputEnded => "End of keyboard input"
  | pollingDisabled cause => "Keyboard polling disabled: " ++ cause.message
  | rawModeRefused cause => "Could not set terminal to raw mode: " ++ cause.message
  | noHistory path cause => "No previous history in '" ++ path ++ "': " ++ cause.message
  | historyLost path cause => "Could not write history to '" ++ path ++ "': " ++ cause.message

/-- A notice as it is written down, level first. -/
def line (n : Notice) : String := n.level.name ++ " " ++ n.text

end Notice

/-- Notices, oldest first. -/
abbrev Journal := Array Notice

end ClockStep
