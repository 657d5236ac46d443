import ClockStep.Journal
import ClockStep.Word

/-!
# Files

The files that the program works with, as a tree under the root directory. A path is walked name by
name, from the root or from the directory that the program was started in: each name but the last
has to be a directory. The last name says what is to be opened, and a slash behind it that it has to
be a directory.

## Main results

* `readAt_writeAt`: what was written to a file is read from it.
-/

namespace ClockStep

/-- What stands under a name. -/
inductive FileEntry where
  | file (bytes : List Byte)
  | directory
  /-- A device that is always empty and takes everything. -/
  | void
  /-- Something the system refuses to open. -/
  | refused (cause : SystemError)
deriving Repr, DecidableEq

/-- Files and directories by the names that lead to them from the root. A directory is also there
because something is in it. -/
structure FileTree where
  entries : List (List String × FileEntry) := []
  /-- The names that lead to the directory that the program was started in. -/
  home : List String := []
deriving Repr, DecidableEq

/-- Where a path leads. -/
inductive Destination where
  /-- A directory that the path went through or names by dots. -/
  | inside
  /-- A name in a directory; `closed` tells that the path ends in a slash. -/
  | name (place : List String) (closed : Bool)
deriving Repr, DecidableEq

namespace FileTree

/-- The longest name, in bytes. -/
def maxName : Nat := 255

/-- What a path, in bytes, has to stay below. -/
def pathLimit : Nat := 4096

/-- The directories that a system has at its root. -/
def systemDirectories : List String :=
  ["bin", "boot", "dev", "etc", "home", "lib", "media", "mnt", "opt", "proc", "root", "run", "sbin",
   "srv", "sys", "tmp", "usr", "var"]

/-- The files of a system without files of its own, in a working directory made for the run. -/
def bare : FileTree :=
  { entries := (["dev", "null"], .void) ::
      systemDirectories.map fun name => ([name], .directory)
    home := ["tmp", "work"] }

/-- The names of a path; those between two slashes, or outside of the outermost ones, are empty. -/
def names (path : String) : List String := path.splitOn "/"

/-- Whether a path starts at the root. -/
def isAbsolute (path : String) : Bool := path.startsWith "/"

/-- Whether a name only moves between directories: it is empty or made of dots. -/
def isStep (name : String) : Bool := name == "" || name == "." || name == ".."

/-- The place where a name leads, whatever stands there. -/
def follow (here : List String) (name : String) : List String :=
  if name = "" || name = "." then here
  else if name = ".." then here.dropLast
  else here ++ [name]

/-- What stands at a place. -/
def find? (tree : FileTree) (place : List String) : Option FileEntry :=
  if place.isPrefixOf tree.home then some .directory
  else match tree.entries.find? fun e => e.1 == place with
    | some e => some e.2
    | none => if tree.entries.any fun e => place.isPrefixOf e.1 then some .directory else none

/-- The tree with an entry put at a place. -/
def put (tree : FileTree) (place : List String) (entry : FileEntry) : FileTree :=
  { tree with entries := (place, entry) :: tree.entries.filter fun e => e.1 != place }

/-- Where a path starts. -/
def start (tree : FileTree) (path : String) : List String :=
  if isAbsolute path then [] else tree.home

/-- The tree with an entry put under a path, and directories on the way to it. -/
def add (tree : FileTree) (path : String) (entry : FileEntry) : FileTree :=
  let walked := (names path).foldl
    (fun (walked : FileTree × List String) name =>
      let place := follow walked.2 name
      match walked.1.find? place with
      | some _ => (walked.1, place)
      | none => (walked.1.put place .directory, place))
    (tree, tree.start path)
  walked.1.put walked.2 entry

/-- Goes through a name, into the directory that it leads to. -/
def enter (tree : FileTree) (here : List String) (name : String) :
    Except SystemError (List String) :=
  if isStep name then .ok (follow here name)
  else if maxName < name.utf8ByteSize then .error .nameTooLong
  else match tree.find? (here ++ [name]) with
    | some .directory => .ok (here ++ [name])
    | some (.refused cause) => .error cause
    | some (.file _) | some .void => .error .notDirectory
    | none => .error .missing

/-- Walks through names, into the directory that the last of them leads to. -/
def walk (tree : FileTree) (here : List String) (names : List String) :
    Except SystemError (List String) :=
  names.foldlM tree.enter here

/-- Where a path leads. The last name is not looked at yet. -/
def locate (tree : FileTree) (path : String) : Except SystemError Destination :=
  if path.contains '\x00' then .error .nulInPath
  else if path = "" then .error .missing
  else if pathLimit ≤ path.utf8ByteSize then .error .nameTooLong
  else
    let reversed := (names path).reverse
    match reversed.dropWhile (· == "") with
    | [] => .ok .inside
    | last :: earlier => do
      let here ← tree.walk (tree.start path) earlier.reverse
      if isStep last then return .inside
      else return .name (here ++ [last]) (reversed.head? == some "")

/-- Whether the last of the names at a place is too long. -/
def endsTooLong (place : List String) : Bool :=
  (place.getLast?.map fun name => decide (maxName < name.utf8ByteSize)).getD false

/-- The bytes that are read at a destination. -/
def readAt (tree : FileTree) : Destination → Except SystemError (List Byte)
  | .inside => .error .isDirectory
  | .name place closed =>
    if endsTooLong place then .error .nameTooLong
    else match tree.find? place with
      | some (.file bytes) => if closed then .error .notDirectory else .ok bytes
      | some .void => if closed then .error .notDirectory else .ok []
      | some .directory => .error .isDirectory
      | some (.refused cause) => .error cause
      | none => .error .missing

/-- The bytes of a file. -/
def read (tree : FileTree) (path : String) : Except SystemError (List Byte) := do
  tree.readAt (← tree.locate path)

/-- The tree with a file of the given bytes at a destination, in place of a file that was there. A
directory is not made this way, so that a path which asks for one is refused. -/
def writeAt (tree : FileTree) (bytes : List Byte) : Destination → Except SystemError FileTree
  | .inside | .name _ true => .error .isDirectory
  | .name place false =>
    if endsTooLong place then .error .nameTooLong
    else match tree.find? place with
      | some .directory => .error .isDirectory
      | some (.refused cause) => .error cause
      | some .void => .ok tree
      | some (.file _) | none => .ok (tree.put place (.file bytes))

/-- The tree with a file of the given bytes under a path. -/
def write (tree : FileTree) (path : String) (bytes : List Byte) :
    Except SystemError FileTree := do
  tree.writeAt bytes (← tree.locate path)

/-- Where there is no directory, there is none on the way to the working directory. -/
theorem isPrefixOf_home_eq_false {tree : FileTree} {place : List String}
    (h : tree.find? place ≠ some .directory) : place.isPrefixOf tree.home = false := by
  cases hprefix : place.isPrefixOf tree.home with
  | false => rfl
  | true => exact absurd (by simp [find?, hprefix]) h

/-- What was put at a place that is not on the way to the working directory stands there. -/
theorem find?_put {tree : FileTree} {place : List String} (entry : FileEntry)
    (h : place.isPrefixOf tree.home = false) : (tree.put place entry).find? place = some entry := by
  simp [find?, put, h]

/-- What was written to a file is read from it. -/
theorem readAt_writeAt {tree after : FileTree} {bytes : List Byte} {place : List String}
    (hdevice : tree.find? place ≠ some .void)
    (hwrite : tree.writeAt bytes (.name place false) = .ok after) :
    after.readAt (.name place false) = .ok bytes := by
  rw [writeAt] at hwrite
  split at hwrite
  · cases hwrite
  · next hlong =>
    have done (hplace : tree.find? place ≠ some .directory)
        (hafter : tree.put place (.file bytes) = after) :
        after.readAt (.name place false) = .ok bytes := by
      subst hafter
      simp [readAt, hlong, find?_put _ (isPrefixOf_home_eq_false hplace)]
    split at hwrite
    · cases hwrite
    · cases hwrite
    · next hvoid => exact absurd hvoid hdevice
    · next hfound => exact done (by simp [hfound]) (Except.ok.inj hwrite)
    · next hfound => exact done (by simp [hfound]) (Except.ok.inj hwrite)

end FileTree

end ClockStep
