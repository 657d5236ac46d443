/-!
# The commands

Every command has one or more spellings, a text for its arguments and one for what it does. The
registry lists them in the order in which help shows them.

## Main results

* `lookup?_eq_some_iff`: a spelling leads to the command that has it.
-/

namespace ClockStep

/-- The commands. -/
inductive Command where
  | help
  | step
  | stepInstruction
  | continue
  | registers
  | microState
  | allRegisters
  | peek
  | poke
  | dumpMemory
  | quit
  | interrupt
  | print
  | breakRemove
  | breakList
  | break
deriving Repr, DecidableEq

namespace Command

/-- What is known about a command. -/
structure Descriptor where
  command : Command
  /-- The words that call it. -/
  spellings : List String
  /-- Its arguments, each with a blank after it. -/
  usage : String
  /-- What it does. -/
  description : String
deriving Repr, DecidableEq

/-- All commands. -/
def registry : List Descriptor :=
  [ ⟨help, ["help", "?", "h"], "", "Prints a list of the available commands"⟩,
    ⟨step, ["step", "s"], "[dec n] ", "Steps the CPU by n cycles (default 1)"⟩,
    ⟨stepInstruction, ["stepi", "si"], "[dec n] ", "Steps the CPU by n instructions (default 1)"⟩,
    ⟨Command.continue, ["continue", "c"], "", "Continues simulation execution"⟩,
    ⟨registers, ["regs", "r"], "", "Prints the values of all CPU registers"⟩,
    ⟨microState, ["ustate", "u"], "", "Prints the values of internal datapath/control registers"⟩,
    ⟨allRegisters, ["allregs", "ar"], "", "Prints the values of all registers in the machine"⟩,
    ⟨peek, ["peek", "pk"], "<hex16 addr> ", "Prints the word at addr"⟩,
    ⟨poke, ["poke", "po"], "<hex16 addr> <hex8 value> ", "Sets the word at addr to value"⟩,
    ⟨dumpMemory, ["dumpmem", "dm"], "<hex16 start> <dec count> ",
      "Dumps count words of memory starting at start"⟩,
    ⟨quit, ["quit", "exit", "q"], "", "Terminates the simulation"⟩,
    ⟨interrupt, ["irq"], "<hex8 vector> <dec priority> <hex16 data> ", "Raises the specified IRQ"⟩,
    ⟨print, ["pr", "print"], "", "Prints the current instruction"⟩,
    ⟨breakRemove, ["break-rm", "b-rm"], "<hex16 addr> ", "Removes a breakpoint at addr"⟩,
    ⟨breakList, ["break-list", "b-list"], "", "Lists all active breakpoints"⟩,
    ⟨Command.break, ["break", "b"], "<hex16 addr> ", "Sets a breakpoint at addr"⟩ ]

/-- The command with exactly this spelling. -/
def lookup? (spelling : String) : Option Descriptor :=
  registry.find? fun d => spelling ∈ d.spellings

/-- All spellings, command by command. -/
def spellings : List String := registry.flatMap Descriptor.spellings

/-- The spellings that start with what was typed, for completion; there are none once a blank was
typed, and none for what starts no spelling. -/
def completions (typed : List Char) : List String :=
  spellings.filter fun spelling => typed.isPrefixOf spelling.toList

/-! ### Looking up -/

/-- No spelling calls two commands. -/
theorem spellings_nodup : spellings.Nodup := by decide

/-- A spelling leads to the command that has it. -/
theorem lookup?_eq_some_iff {spelling : String} {d : Descriptor} :
    lookup? spelling = some d ↔ d ∈ registry ∧ spelling ∈ d.spellings := by
  constructor
  · intro h
    exact ⟨List.mem_of_find?_eq_some h, by simpa using List.find?_some h⟩
  · rintro ⟨hd, hs⟩
    have key : ∀ d ∈ registry, ∀ s ∈ d.spellings, lookup? s = some d := by decide
    exact key d hd spelling hs

end Command

end ClockStep
