import ClockStep.FileTree
import ClockStep.Journal
import ClockStep.Text.Basic

/-!
# The history of commands

The latest lines that the operator typed, oldest first. An empty line, and one that repeats the line
before it, are not kept.

A history is written with a mark on the first line and then one entry per line, a backslash in front
of backslashes and for newlines. A file without the mark is read as it is.

## Main results

* `unescape?_escape`: an entry is read back as it was.
-/

namespace ClockStep

/-- Lines to come back to. -/
structure History where
  /-- The lines, oldest first. -/
  entries : Array String := #[]
  /-- How many lines were added since the history was last read. -/
  added : Nat := 0
deriving Repr, DecidableEq

namespace History

/-- How many lines are kept. -/
def capacity : Nat := 100

/-- The first line of a file with escapes. -/
def mark : String := "#V2"

/-- Adds a line, at the expense of the oldest one if the history is full. -/
def add (h : History) (line : String) : History :=
  if line = "" || h.entries.back? = some line then h
  else
    let kept := if capacity ≤ h.entries.size then h.entries.extract 1 h.entries.size else h.entries
    { entries := kept.push line, added := min (h.added + 1) capacity }

/-! ### Written entries -/

/-- An entry as it is written. -/
def escape : List Char → List Char
  | [] => []
  | '\\' :: rest => '\\' :: '\\' :: escape rest
  | '\n' :: rest => '\\' :: 'n' :: escape rest
  | c :: rest => c :: escape rest

/-- Reads a written entry; a backslash in front of anything else makes it unreadable. -/
def unescape? : List Char → Option (List Char)
  | [] => some []
  | '\\' :: '\\' :: rest => (unescape? rest).map ('\\' :: ·)
  | '\\' :: 'n' :: rest => (unescape? rest).map ('\n' :: ·)
  | '\\' :: _ => none
  | c :: rest => (unescape? rest).map (c :: ·)

/-- A written entry reads back as it was. -/
theorem unescape?_escape (entry : List Char) : unescape? (escape entry) = some entry := by
  fun_induction escape entry with
  | case1 => rfl
  | case2 rest ih => simp [unescape?, ih]
  | case3 rest ih => simp [unescape?, ih]
  | case4 c rest hb hn ih =>
    rw [unescape?, ih, Option.map_some]
    · exact fun _ h _ => hb h
    · exact fun _ h _ => hb h
    · exact hb

/-- The history as a file. -/
def render (h : History) : String :=
  String.join ((mark :: h.entries.toList.map fun e => String.ofList (escape e.toList)).map (· ++ "\n"))

/-! ### Reading and writing -/

/-- Adds the lines of a file, up to the first that is not text. -/
def addLines (escaped : Bool) : List (List Byte) → History → Except SystemError Unit × History
  | [], h => (.ok (), h)
  | bytes :: rest, h =>
    match Text.Utf8.decode? bytes with
    | none => (.error .notText, h)
    | some line =>
      let entry :=
        if escaped then ((unescape? line.toList).map String.ofList).getD line else line
      addLines escaped rest (h.add entry)

/-- The history in the bytes of a file. If they can be read to the end, nothing counts as added. -/
def ofBytes (bytes : List Byte) : Except SystemError Unit × History :=
  let read := match Text.lines bytes with
    | first :: rest =>
      if Text.Utf8.decode? first = some mark then addLines true rest {}
      else addLines false (first :: rest) {}
    | [] => (.ok (), {})
  match read with
  | (.ok (), h) => (.ok (), { h with added := 0 })
  | failed => failed

/-- The history in a file; one that cannot be read is noted. -/
def load (files : FileTree) (path : String) : List Notice × History :=
  match files.read path with
  | .error cause => ([.noHistory path cause], {})
  | .ok bytes =>
    match ofBytes bytes with
    | (.ok (), h) => ([], h)
    | (.error cause, h) => ([.noHistory path cause], h)

/-- The files with the history written, if there is something new in it; a failure is noted. -/
def save (h : History) (files : FileTree) (path : String) : List Notice × FileTree :=
  if h.added = 0 then ([], files)
  else match files.write path (Text.Utf8.encode h.render) with
    | .ok files => ([], files)
    | .error cause => ([.historyLost path cause], files)

end History

end ClockStep
