import ClockStep.Core.Board
import ClockStep.Proofs.Course

/-!
# How a Core Reaches Memory

A core does not hold memory in its hands. While it settles it may ask for an access, look at the
answer, and go on, any number of times; this is a `Settling`, and `Accessing` cores are those that
settle in this way. Both cores of the library do, and their accesses are laid open here.

What such a core does to memory is then a matter of its accesses, and only of those that write
(`Settling.memory_serve`). The machine adds nothing to that: memory after a run is memory before it,
with the words written that the core's accesses wrote during the cycles of the run.

## Main results

* `memory_step`, `Path.memory`, `memory_run`: what a cycle, cycles and a run leave of memory.
-/

namespace ClockStep

/-! ### Writing accesses -/

/-- Whether an access replaces a word. -/
def MemoryRequest.writes (r : MemoryRequest) : Bool := r.enable && r.write

namespace Memory

/-- An access changes memory only if it writes. -/
theorem access_snd (m : Memory) (r : MemoryRequest) :
    (m.access r).2 = if r.writes then m.set r.address r.dataIn else m := by
  rw [access, MemoryRequest.writes]
  cases r.enable <;> simp

/-- Memory with the words written that accesses write, in order. -/
def written (m : Memory) (requests : List MemoryRequest) : Memory :=
  (requests.filter MemoryRequest.writes).foldl (fun m r => m.set r.address r.dataIn) m

/-- Accesses write one after the other, the first one first. -/
theorem written_cons (m : Memory) (r : MemoryRequest) (requests : List MemoryRequest) :
    m.written (r :: requests) = (m.access r).2.written requests := by
  rw [written, written, access_snd, List.filter_cons]
  split <;> rfl

/-- What is written in two parts is written by all accesses together. -/
theorem written_append (m : Memory) (requests later : List MemoryRequest) :
    m.written (requests ++ later) = (m.written requests).written later := by
  rw [written, List.filter_append, List.foldl_append]
  rfl

/-- A word that was replaced is the new one, and the others are as they were. -/
theorem get_set (m : Memory) (address value a : Word) :
    (m.set address value).get a = if a = address then value else m.get a := by
  have hindex : address.toNat = a.toNat ↔ a = address := by rw [UInt16.toNat_inj, eq_comm]
  have hset : (m.set address value).get a =
      if address.toNat = a.toNat then value else m.get a :=
    Vector.getElem_set address.toNat_lt a.toNat_lt
  simp only [hset, hindex]

end Memory

/-! ### Settling -/

/-- How a core **settles**: it is settled, or it asks memory for an access and goes on by the answer. -/
inductive Settling (γ : Type) where
  | settled (core : γ)
  | asks (request : MemoryRequest) (next : MemoryResponse → Settling γ)

namespace Settling

variable {γ δ : Type}

/-- The settled core, and what memory is then. -/
def serve : Settling γ → Memory → γ × Memory
  | .settled core, memory => (core, memory)
  | .asks request next, memory =>
    (next (memory.access request).1).serve (memory.access request).2

/-- The accesses that are made while a core settles. -/
def requests : Settling γ → Memory → List MemoryRequest
  | .settled _, _ => []
  | .asks request next, memory =>
    request :: (next (memory.access request).1).requests (memory.access request).2

/-- Something is done to the settled core. -/
def map (f : γ → δ) : Settling γ → Settling δ
  | .settled core => .settled (f core)
  | .asks request next => .asks request fun response => (next response).map f

/-- A single access whose answer does not matter. -/
def ask (request : MemoryRequest) (core : γ) : Settling γ := .asks request fun _ => .settled core

/-- What is done with the settled core leaves memory alone. -/
theorem serve_map (f : γ → δ) (s : Settling γ) (memory : Memory) :
    (s.map f).serve memory = (f (s.serve memory).1, (s.serve memory).2) := by
  induction s generalizing memory with
  | settled core => rfl
  | asks request next ih => exact ih _ _

/-- Memory is changed by the accesses that write, and by nothing else. -/
theorem memory_serve (s : Settling γ) (memory : Memory) :
    (s.serve memory).2 = memory.written (s.requests memory) := by
  induction s generalizing memory with
  | settled core => rfl
  | asks request next ih => rw [serve, requests, Memory.written_cons, ih]

end Settling

/-- A core that reaches memory by accesses only. -/
class Accessing (γ : Type) [Core γ] where
  /-- How the core settles. -/
  settling : InputLines → γ → Settling γ
  evaluate_eq (inputs : InputLines) (core : γ) (memory : Memory) :
    Core.evaluate inputs core memory = (settling inputs core).serve memory

/-! ### The accesses of the library's cores -/

/-- The accesses of the micro-sequencer, given those of the instructions. -/
def advanceSettling (onFetch : Fetch) (execute : OutputLines → Settling OutputLines)
    (lines : OutputLines) : Settling OutputLines :=
  if lines.microPc = 18 then
    .asks { enable := true, address := lines.pc } fun response =>
      .settled { onFetch lines with
        mar := lines.pc, mdr := response.dataOut, pc := lines.pc + 1, microPc := 33 }
  else if lines.microPc = 33 then .settled { lines with microPc := 28 }
  else if lines.microPc = 28 then .settled { lines with ir := lines.mdr, microPc := 30 }
  else if lines.microPc = 30 then .settled { lines with microPc := 32 }
  else (if lines.holdsHalt then .settled { lines with halt := true } else execute lines).map
    fun lines => { lines with microPc := fetchState }

/-- If the step of a micro-program settles by accesses, so does the state it leads to. -/
theorem advance_eq_serve {onFetch : Fetch} {execute : Execute}
    {settling : OutputLines → Settling OutputLines}
    (h : ∀ lines memory, execute lines memory = (settling lines).serve memory)
    (lines : OutputLines) (memory : Memory) :
    advance onFetch execute lines memory =
      (advanceSettling onFetch settling lines).serve memory := by
  rw [advance, advanceSettling]
  split
  · rfl
  split
  · rfl
  split
  · rfl
  split
  · rfl
  rw [Settling.serve_map]
  by_cases hhalt : lines.holdsHalt = true
  · rw [if_pos hhalt, if_pos hhalt]
    rfl
  · rw [if_neg hhalt, if_neg hhalt, h]

namespace BenchCore

/-- The access of opcode 7, if a store is laid out for it. -/
def executeSettling (store : Option (Word × Word)) (lines : OutputLines) : Settling OutputLines :=
  match store with
  | some (address, value) =>
    if lines.ir.field 12 4 = 7#4 then
      .ask { enable := true, write := true, address, dataIn := value } lines
    else .settled lines
  | none => .settled lines

/-- The step of this micro-program settles by accesses. -/
theorem execute_eq_serve (store : Option (Word × Word)) (lines : OutputLines) (memory : Memory) :
    execute store lines memory = (executeSettling store lines).serve memory := by
  unfold execute executeSettling
  split
  · split <;> rfl
  · rfl

/-- A rising edge without the events laid out for it. -/
def risingEdgeSettling (inputs : InputLines) (c : BenchCore) : Settling BenchCore :=
  if inputs.reset then .settled { c with lines := c.lines.restart inputs.resetVector }
  else
    let taken := if c.lines.takesInterrupt inputs then c.taken.push inputs.data else c.taken
    let (level, serial) := Uart.nextLevel c.serial
    let lines := { c.lines.answer inputs with transmit := level }
    (if lines.halt then .settled lines
      else advanceSettling id (executeSettling c.store) lines).map fun lines =>
        { c with lines, serial, taken }

/-- A rising edge settles by accesses. -/
theorem risingEdge_eq_serve (inputs : InputLines) (c : BenchCore) (memory : Memory) :
    c.risingEdge inputs memory = (c.risingEdgeSettling inputs).serve memory := by
  rw [risingEdge, risingEdgeSettling]
  split
  · rfl
  dsimp only
  rw [Settling.serve_map]
  split
  · rfl
  · rw [advance_eq_serve (execute_eq_serve c.store)]

instance : Accessing BenchCore where
  settling inputs c :=
    if inputs.clock then
      (risingEdgeSettling inputs { c with seen := inputs, edges := c.edges + 1 }).map strike
    else .settled { c with seen := inputs }
  evaluate_eq inputs c memory := by
    change evaluate inputs c memory = _
    rw [evaluate]
    split
    · rw [Settling.serve_map, ← risingEdge_eq_serve]
    · rfl

end BenchCore

namespace BoardCore

/-- The access of opcode 7. -/
def executeSettling (lines : OutputLines) : Settling OutputLines :=
  if lines.ir.field 12 4 = 7#4 then
    .ask { enable := true, write := true, address := storeAddress lines.ir, dataIn := lines.ir } lines
  else if lines.ir.field 12 4 = 13#4 then .settled { lines with ddr := lines.ir &&& 0xFF }
  else .settled lines

/-- The step of this micro-program settles by accesses. -/
theorem execute_eq_serve (lines : OutputLines) (memory : Memory) :
    execute lines memory = (executeSettling lines).serve memory := by
  rw [execute, executeSettling]
  split
  · rfl
  · split <;> rfl

/-- A rising edge. -/
def risingEdgeSettling (inputs : InputLines) (c : BoardCore) : Settling BoardCore :=
  if inputs.reset then .settled { c with lines := restart c.lines inputs.resetVector }
  else
    let (level, frame) := Uart.nextLevel c.frame
    let lines := { c.lines.answer inputs with transmit := level }
    if lines.halt then .settled { c with lines, frame }
    else
      (advanceSettling (fun l => { l with bus := l.pc }) executeSettling lines).map fun next =>
        { c with lines := settleHalt lines next, frame := (startedFrame? lines).getD frame }

/-- A rising edge settles by accesses. -/
theorem risingEdge_eq_serve (inputs : InputLines) (c : BoardCore) (memory : Memory) :
    c.risingEdge inputs memory = (c.risingEdgeSettling inputs).serve memory := by
  rw [risingEdge, risingEdgeSettling]
  split
  · rfl
  dsimp only
  split
  · rfl
  · rw [Settling.serve_map, advance_eq_serve execute_eq_serve]

instance : Accessing BoardCore where
  settling inputs c :=
    if inputs.clock then risingEdgeSettling inputs { c with seen := inputs }
    else .settled { c with seen := inputs }
  evaluate_eq inputs c memory := by
    change evaluate inputs c memory = _
    rw [evaluate]
    split
    · rw [risingEdge_eq_serve]
    · rfl

end BoardCore

/-! ### The accesses of cycles -/

namespace Machine

variable {γ κ : Type} [Core γ] [Accessing γ]

/-- The accesses that the core makes when it is evaluated with the clock at the given level. -/
def halfPeriodAccesses (clock : Bool) (m : Machine γ κ) : List MemoryRequest :=
  (Accessing.settling { m.inputs with clock } m.core).requests m.memory

/-- The accesses of a clock period: those with the clock high and those with the clock low. -/
def periodAccesses (m : Machine γ κ) : List MemoryRequest :=
  m.driveInterrupts.halfPeriodAccesses true ++
    (m.driveInterrupts.halfPeriod true).halfPeriodAccesses false

/-- A half period writes what its accesses write. -/
theorem memory_halfPeriod (clock : Bool) (m : Machine γ κ) :
    (m.halfPeriod clock).memory = m.memory.written (m.halfPeriodAccesses clock) := by
  rw [halfPeriodAccesses, ← Settling.memory_serve, ← Accessing.evaluate_eq]
  rfl

/-- A clock period writes what the accesses of its halves write. -/
theorem memory_clockPeriod (m : Machine γ κ) :
    m.clockPeriod.memory = m.memory.written m.periodAccesses := by
  have hhigh := memory_halfPeriod true m.driveInterrupts
  have hlow := memory_halfPeriod false (m.driveInterrupts.halfPeriod true)
  rw [periodAccesses, Memory.written_append]
  rw [hhigh] at hlow
  exact hlow

variable [Keyboard κ]

/-- The accesses of a cycle outside of reset. A cycle that the console breaks off does not come to
them. -/
def accesses (m : Machine γ κ) : List MemoryRequest :=
  match m.listen with
  | (.error _, _) => []
  | (.ok (), m) => m.pollKeyboard.periodAccesses

omit [Core γ] [Accessing γ] in
/-- A poll of the keyboard leaves memory. -/
theorem memory_pollKeyboard (m : Machine γ κ) : m.pollKeyboard.memory = m.memory := by
  obtain ⟨journal, h⟩ := m.pollKeyboard_eq
  rw [h]

/-- **A cycle changes memory by the accesses of the core that write, and by nothing else.** -/
theorem memory_step (m : Machine γ κ) : m.step.2.memory = m.memory.written m.accesses := by
  obtain ⟨receiver, console, hlisten⟩ := m.listen_snd
  have hmemory : m.listen.2.memory = m.memory := by rw [hlisten]
  rw [step, accesses]
  rcases hl : m.listen with ⟨e | ⟨⟩, heard⟩ <;> rw [hl] at hmemory <;> dsimp only at hmemory ⊢
  · exact hmemory
  · have hperiod := heard.pollKeyboard.memory_clockPeriod
    rw [memory_pollKeyboard, hmemory] at hperiod
    split <;> exact hperiod

/-- Cycles write what their accesses write, one cycle after the other. -/
theorem Path.memory {m m' : Machine γ κ} {starts : List (Machine γ κ)} (h : Path m starts m') :
    m'.memory = m.memory.written (starts.flatMap accesses) := by
  induction h with
  | nil m => rfl
  | cons _ ih => rw [ih, memory_step, List.flatMap_cons, Memory.written_append]

/-- **A run changes memory by the accesses that its cycles make, and by nothing else.** -/
theorem memory_run {fuel : Nat} {limit : Limit} {breakpoints : Breakpoints} {m : Machine γ κ}
    {o : Outcome γ κ} (h : m.run fuel limit breakpoints = some o) :
    o.machine.memory =
      m.memory.written ((m.course fuel limit breakpoints).1.flatMap accesses) :=
  (course_path h).memory

end Machine

end ClockStep
