import ClockStep.Command.Registry
import ClockStep.History
import ClockStep.Keyboard.Key
import ClockStep.Text.Basic
import ClockStep.Text.Cluster

/-!
# The line editor

A line is typed character by character, with the cursor somewhere in it. What the operator takes for
a character is a cluster: the backspace key takes away a whole one, and columns are counted in them.
The key that points up brings back the lines of the history, latest first. The tab key replaces what
stands before the cursor by a command spelling that starts with it: each further tab goes on to the
next one, after the last of them what was typed comes back, and any other key keeps what is shown.
-/

namespace ClockStep

/-- A round through the spellings that start with what was typed. -/
structure Completion where
  /-- What was typed. -/
  typed : List Char
  /-- The spellings, in order. -/
  candidates : List String
  /-- Which of them is shown; behind the last one it is what was typed. -/
  shown : Nat := 0
deriving Repr, DecidableEq

/-- What a completion shows. -/
def Completion.text (c : Completion) : List Char :=
  match c.candidates[c.shown]? with
  | some spelling => spelling.toList
  | none => c.typed

/-- The completion one tab later. -/
def Completion.next (c : Completion) : Completion :=
  { c with shown := (c.shown + 1) % (c.candidates.length + 1) }

/-- A line being edited. -/
structure LineEditor where
  /-- The characters before the cursor. -/
  before : List Char := []
  /-- The characters after the cursor. -/
  after : List Char := []
  /-- The place in the history; behind its last line to begin with. -/
  place : Nat
  /-- The round of completion that goes on. -/
  completion : Option Completion := none
deriving Repr, DecidableEq

namespace LineEditor

/-- How the editing of a line ends. -/
inductive Answer where
  | line (text : String)
  | interrupted
  | ended
deriving Repr, DecidableEq

/-- A new line. -/
def fresh (h : History) : LineEditor := { place := h.entries.size }

/-- The line as it stands. -/
def text (e : LineEditor) : List Char := e.before ++ e.after

/-- The tab key. -/
def complete (e : LineEditor) : LineEditor :=
  match e.completion with
  | some round =>
    let round := round.next
    { e with before := round.text, completion := some round }
  | none =>
    match Command.completions e.before with
    | [] => e
    | candidates =>
      let round : Completion := { typed := e.before, candidates }
      { e with before := round.text, completion := some round }

/-- The cursor moved to the line above, in a text of several lines, to the same column if there is
one. -/
def lineUp? (e : LineEditor) : Option LineEditor :=
  let line := (e.before.reverse.takeWhile (· ≠ '\n')).reverse
  match e.before.reverse.dropWhile (· ≠ '\n') with
  | [] => none
  | _ :: above =>
    let lineAbove := (above.takeWhile (· ≠ '\n')).reverse
    let earlier := (above.dropWhile (· ≠ '\n')).reverse
    let column := (Text.clusters line).length
    let before := earlier ++ ((Text.clusters lineAbove).take column).flatten
    some { e with before, after := e.text.drop before.length }

/-- The backspace key. -/
def eraseBack (e : LineEditor) : LineEditor :=
  { e with before := (Text.clusters e.before).dropLast.flatten }

/-- The key that deletes at the cursor. -/
def eraseAhead (e : LineEditor) : LineEditor :=
  { e with after := (Text.clusters e.after).tail.flatten }

/-- Whether a character beyond ASCII is a control; those are not typed into a line. -/
def isControl (c : Char) : Bool := 0x80 ≤ c.toNat && c.toNat ≤ 0x9F

/-- A character typed at the cursor. -/
def insert (c : Char) (e : LineEditor) : LineEditor :=
  if isControl c then e else { e with before := e.before ++ [c] }

/-- The key that points up. -/
def goBack (h : History) (e : LineEditor) : LineEditor :=
  match e.lineUp? with
  | some e => e
  | none =>
    match e.place with
    | 0 => e
    | place + 1 =>
      match h.entries[place]? with
      | some entry => { e with before := entry.toList, after := [], place }
      | none => e

/-- What a key does to a line: it ends the editing, or changes the line. -/
def press (h : History) (key : Key) (e : LineEditor) : Except Answer LineEditor :=
  match key with
  | { code := .tab, .. } => .ok e.complete
  | key =>
    let e := { e with completion := none }
    match key with
    | { code := .enter, .. } => .error (.line (String.ofList e.text))
    | { code := .backspace, .. } => .ok e.eraseBack
    | { code := .up, .. } => .ok (e.goBack h)
    | { code := .char 'c', control := true, alt := false, .. } => .error .interrupted
    | { code := .char 'd', control := true, alt := false, .. } =>
      if e.text.isEmpty then .error .ended else .ok e.eraseAhead
    | { code := .char c, control := false, alt := false, .. } => .ok (e.insert c)
    | _ => .ok e

/-- How the editing of a line ends with these keys, if it does, and the keys behind that. -/
def edit (h : History) : List Key → LineEditor → Option Answer × List Key
  | [], _ => (none, [])
  | key :: rest, e =>
    match e.press h key with
    | .ok e => edit h rest e
    | .error answer => (some answer, rest)

/-- The history with a line that was read, if there is something in it. -/
def remember (h : History) : Option Answer → History
  | some (.line text) => if Text.allBlank text.toList then h else h.add text
  | _ => h

/-- Edits one line after the other. Bytes are typed for each of them, which come behind the keys
that the lines before it left over. -/
def dialogueFrom (waiting : List Key) (unfinished : List Byte) :
    List (List Byte) → History → List (Option Answer) × History
  | [], h => ([], h)
  | bytes :: rest, h =>
    let (keys, unfinished) := Key.readAll unfinished bytes
    let (answer, waiting) := edit h (waiting ++ keys) (fresh h)
    let (answers, h) := dialogueFrom waiting unfinished rest (remember h answer)
    (answer :: answers, h)

/-- Edits one line after the other, each with the bytes typed for it. -/
def dialogue (typed : List (List Byte)) (h : History) : List (Option Answer) × History :=
  dialogueFrom [] [] typed h

/-- What reading lines comes to where there is no terminal and no input: each is at the end. -/
def unattended (count : Nat) : List (Option Answer) := List.replicate count (some .ended)

end LineEditor

end ClockStep
