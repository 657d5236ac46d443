import ClockStep.Memory

/-!
# Memory as a Flat Array of Bytes

Memory is kept as words, and there are three ways to its cells: by word address, by byte address and
through the core's accesses, besides the slices that a listing shows. This module puts a flat array
of 131072 bytes beside it, which has no cells and no views: a word is two neighbouring bytes of it,
a write sets bytes, and the core's access is a read and perhaps a write.

`Call.run` performs a call on memory and `Call.runFlat` on the array. One call keeps the two in step
(`run_flat`), so any calls do (`replay_flat`). What the array is in the end needs no machine at all:
every byte is the last one that a call put there (`getElem_replay_runFlat`).

## Convention

The high byte of word `a` is byte `2 * a`, its low byte is byte `2 * a + 1`. A byte address outside
of memory is reported as the address of the word that it would be in.

## Main results

* `run_flat`: one call, on memory and on the array.
* `getElem_runFlat`: a call changes the bytes that it writes and no others.
* `replay_refines_flat`: all that can be asked of memory is a matter of the array.
-/

namespace ClockStep

/-- The number of bytes in memory. -/
abbrev flatSize : Nat := 131072

/-- A flat array of bytes. -/
abbrev FlatMemory := Vector Byte flatSize

namespace FlatMemory

/-- The word at a word address: two bytes, the high one first. -/
def word (f : FlatMemory) (a : Nat) : Word := .ofBytes (f[2 * a]?.getD 0) (f[2 * a + 1]?.getD 0)

/-- The array with the two bytes of a word replaced. -/
def putWord (f : FlatMemory) (a : Nat) (v : Word) : FlatMemory :=
  (f.setIfInBounds (2 * a) v.high).setIfInBounds (2 * a + 1) v.low

end FlatMemory

namespace Memory

/-! ### The bytes of memory -/

/-- A byte address inside memory lies in a word inside memory. -/
theorem half_lt {b : Nat} (hb : b < flatSize) : b / 2 < memorySize := Nat.div_lt_of_lt_mul hb

/-- A byte outside of the flat array is in no word of memory. -/
theorem half_not_lt {b : Nat} (hb : ¬ b < flatSize) : ¬ b / 2 < memorySize := by
  unfold memorySize
  unfold flatSize at hb
  omega

/-- Both bytes of a word inside memory lie inside memory. -/
theorem bytes_lt {a : Nat} (ha : a < memorySize) : 2 * a < flatSize ∧ 2 * a + 1 < flatSize := by
  unfold memorySize at ha
  unfold flatSize
  omega

/-- The bytes of memory in the order of their addresses. -/
def flat (m : Memory) : FlatMemory :=
  .ofFn fun b =>
    have hb := half_lt b.isLt
    if b.val % 2 = 0 then m.cells[b.val / 2].high else m.cells[b.val / 2].low

/-- The byte at an address is a half of the word at half the address. -/
theorem getElem_flat (m : Memory) {b : Nat} (hb : b < flatSize) :
    m.flat[b] =
      have hb := half_lt hb
      if b % 2 = 0 then m.cells[b / 2].high else m.cells[b / 2].low :=
  Vector.getElem_ofFn hb

/-- Nothing of a word is lost in its two bytes. -/
theorem word_flat (m : Memory) {a : Nat} (ha : a < memorySize) : m.flat.word a = m.cells[a] := by
  obtain ⟨hfirst, hsecond⟩ := bytes_lt ha
  have hhigh : m.flat[2 * a]? = some m.cells[a].high := by
    rw [Vector.getElem?_eq_getElem hfirst, getElem_flat]
    simp
  have hlow : m.flat[2 * a + 1]? = some m.cells[a].low := by
    rw [Vector.getElem?_eq_getElem hsecond, getElem_flat]
    simp [show (2 * a + 1) / 2 = a by omega, show (2 * a + 1) % 2 = 1 by omega]
  rw [FlatMemory.word, hhigh, hlow]
  exact Word.ofBytes_high_low _

/-- A word that is replaced is two bytes that are replaced. -/
theorem flat_set (m : Memory) {a : Nat} (ha : a < memorySize) (v : Word) :
    flat { m with cells := m.cells.set a v } = m.flat.putWord a v := by
  refine Vector.ext fun b hb => ?_
  rw [FlatMemory.putWord, Vector.getElem_setIfInBounds, Vector.getElem_setIfInBounds, getElem_flat,
    getElem_flat]
  dsimp only
  rw [Vector.getElem_set]
  -- byte `b` is one of the two bytes of word `a`, or it lies in another word
  grind

/-- A byte that is replaced within its word is one byte that is replaced. -/
theorem flat_writeByteInPlace (m : Memory) {b : Nat} (hb : b < flatSize) (v : Byte) :
    (m.writeByteInPlace b v).1 = .ok () ∧
      (m.writeByteInPlace b v).2.flat = m.flat.setIfInBounds b v ∧
      (m.writeByteInPlace b v).2.entry = m.entry := by
  have hword : b / 2 < memorySize := half_lt hb
  rw [writeByteInPlace, read_of_lt hword]
  dsimp only
  rw [writeInPlace_of_lt hword]
  refine ⟨rfl, ?_, rfl⟩
  refine Vector.ext fun c hc => ?_
  rw [Vector.getElem_setIfInBounds, getElem_flat, getElem_flat]
  dsimp only
  rw [Vector.getElem_set]
  by_cases hbc : b = c
  · subst hbc
    rw [if_pos rfl, if_pos rfl]
    split
    · exact Word.high_ofBytes _ _
    · exact Word.low_ofBytes _ _
  · rw [if_neg hbc]
    by_cases hsame : b / 2 = c / 2
    · -- `c` is the other byte of the word
      rw [if_pos hsame]
      rcases Nat.mod_two_eq_zero_or_one b with heven | hodd
      · have hother : c % 2 = 1 := by omega
        simp [heven, hother, hsame, Word.low_ofBytes]
      · have hother : c % 2 = 0 := by omega
        simp [hodd, hother, hsame, Word.high_ofBytes]
    · rw [if_neg hsame]

/-! ### Calls -/

/-- A call to memory. -/
inductive Call where
  | read (address : Nat)
  | write (address : Nat) (value : Word)
  | readByte (byteAddress : Nat)
  | writeByte (byteAddress : Nat) (value : Byte)
  | slice (start count : Nat)
  /-- The core's access. -/
  | access (request : MemoryRequest)

/-- The answer to a call. -/
inductive Answer where
  | word (result : Except MemoryError Word)
  | byte (result : Except MemoryError Byte)
  | done (result : Except MemoryError Unit)
  | words (words : List Word)
  | response (response : MemoryResponse)

namespace Call

/-- What memory answers to a call, and what it is then. -/
def run : Call → Memory → Answer × Memory
  | .read a, m => (.word (m.read a), m)
  | .write a v, m => ((m.writeInPlace a v).map .done id)
  | .readByte b, m => (.byte (m.readByte b), m)
  | .writeByte b v, m => ((m.writeByteInPlace b v).map .done id)
  | .slice start count, m => (.words (m.slice start count), m)
  | .access request, m => ((m.access request).map .response id)

/-- What a flat array answers to a call, and what it is then. -/
def runFlat : Call → FlatMemory → Answer × FlatMemory
  | .read a, f => (.word (if a < memorySize then .ok (f.word a) else refuse a), f)
  | .write a v, f =>
    if a < memorySize then (.done (.ok ()), f.putWord a v) else (.done (refuse a), f)
  | .readByte b, f => (.byte (if h : b < flatSize then .ok f[b] else refuse (b / 2)), f)
  | .writeByte b v, f =>
    if b < flatSize then (.done (.ok ()), f.setIfInBounds b v) else (.done (refuse (b / 2)), f)
  | .slice start count, f =>
    (.words ((List.range' start (min (start + count) memorySize - start)).map f.word), f)
  | .access request, f =>
    if request.enable then
      (.response { dataOut := f.word request.address.toNat, ready := true },
        if request.write then f.putWord request.address.toNat request.dataIn else f)
    else (.response {}, f)

end Call

/-- Calls one after the other, with their answers. -/
def replay {σ : Type} (run : Call → σ → Answer × σ) : List Call → σ → List Answer × σ
  | [], s => ([], s)
  | call :: calls, s =>
    let (answer, s) := run call s
    let (answers, s) := replay run calls s
    (answer :: answers, s)

/-! ### One call -/

/-- The words of a slice are those of the array from `start` on. -/
theorem slice_flat (m : Memory) (start count : Nat) :
    m.slice start count =
      (List.range' start (min (start + count) memorySize - start)).map m.flat.word := by
  have hlength : (m.slice start count).length = min (start + count) memorySize - start := by
    simp only [slice_eq_extract, Array.length_toList, Array.size_extract, Vector.size_toArray]
  refine List.ext_getElem (by simp [hlength]) fun i hi _ => ?_
  rw [hlength] at hi
  have haddress : start + i < memorySize := by omega
  simp only [slice_eq_extract, Array.getElem_toList, Array.getElem_extract, Vector.getElem_toArray,
    List.getElem_map, List.getElem_range', Nat.one_mul, m.word_flat haddress]

/-- **One call.** Memory and the array answer alike and stay in step. -/
theorem run_flat (call : Call) (m : Memory) :
    (call.run m).1 = (call.runFlat m.flat).1 ∧ (call.run m).2.flat = (call.runFlat m.flat).2 ∧
      (call.run m).2.entry = m.entry := by
  cases call with
  | read a =>
      refine ⟨congrArg Answer.word ?_, rfl, rfl⟩
      by_cases ha : a < memorySize
      · rw [read_of_lt ha, if_pos ha, m.word_flat ha]
      · rw [read_of_not_lt ha, if_neg ha]
  | write a v =>
      rw [Call.run, Call.runFlat]
      by_cases ha : a < memorySize
      · rw [writeInPlace_of_lt ha, if_pos ha]
        exact ⟨rfl, m.flat_set ha v, rfl⟩
      · rw [writeInPlace_of_not_lt ha, if_neg ha]
        exact ⟨rfl, rfl, rfl⟩
  | readByte b =>
      refine ⟨congrArg Answer.byte ?_, rfl, rfl⟩
      by_cases hb : b < flatSize
      · rw [readByte, read_of_lt (half_lt hb), dif_pos hb, getElem_flat]
        rfl
      · rw [readByte, read_of_not_lt (half_not_lt hb), dif_neg hb]
        rfl
  | writeByte b v =>
      rw [Call.run, Call.runFlat]
      by_cases hb : b < flatSize
      · obtain ⟨hdone, hflat, hentry⟩ := m.flat_writeByteInPlace hb v
        rw [if_pos hb]
        exact ⟨congrArg Answer.done hdone, hflat, hentry⟩
      · rw [writeByteInPlace, read_of_not_lt (half_not_lt hb), if_neg hb]
        exact ⟨rfl, rfl, rfl⟩
  | slice start count => exact ⟨congrArg Answer.words (m.slice_flat start count), rfl, rfl⟩
  | access request =>
      obtain ⟨enable, write, address, value⟩ := request
      cases enable with
      | false => exact ⟨rfl, rfl, rfl⟩
      | true =>
          have hold : m.flat.word address.toNat = m.get address := m.word_flat address.toNat_lt
          rw [Call.run, Call.runFlat, hold]
          cases write with
          | false => exact ⟨rfl, rfl, rfl⟩
          | true => exact ⟨rfl, m.flat_set address.toNat_lt value, rfl⟩

/-- A call that is refused changes nothing. -/
theorem run_of_refused {call : Call} {m : Memory} {e : MemoryError}
    (h : (call.run m).1 = .done (.error e)) : (call.run m).2 = m := by
  cases call with
  | write a v =>
      rw [Call.run] at h ⊢
      by_cases ha : a < memorySize
      · rw [writeInPlace_of_lt ha] at h
        cases h
      · rw [writeInPlace_of_not_lt ha]
        rfl
  | writeByte b v =>
      by_cases hb : b < flatSize
      · have hdone : Answer.done (m.writeByteInPlace b v).1 = .done (.error e) := h
        rw [(m.flat_writeByteInPlace hb v).1] at hdone
        cases hdone
      · rw [Call.run, writeByteInPlace, read_of_not_lt (half_not_lt hb)]
        rfl
  | access request =>
      rw [Call.run, access] at h
      split at h <;> cases h
  | _ => rfl

/-! ### Which bytes a call writes -/

/-- What the bytes of a word have at a byte address, if it is one of theirs. -/
def wordByte? (a : Nat) (v : Word) (b : Nat) : Option Byte :=
  if b = 2 * a then some v.high else if b = 2 * a + 1 then some v.low else none

/-- What a call puts at a byte address, if it puts anything there. -/
def Call.put? (b : Nat) : Call → Option Byte
  | .write a v => wordByte? a v b
  | .writeByte b' v => if b = b' then some v else none
  | .access request =>
    if request.enable && request.write then wordByte? request.address.toNat request.dataIn b
    else none
  | _ => none

/-- A word that is put changes its two bytes. -/
theorem getElem_putWord (f : FlatMemory) (a : Nat) (v : Word) {b : Nat} (hb : b < flatSize) :
    (f.putWord a v)[b] = (wordByte? a v b).getD f[b] := by
  rw [FlatMemory.putWord, wordByte?, Vector.getElem_setIfInBounds, Vector.getElem_setIfInBounds]
  grind

/-- A call changes the bytes that it writes and no others. -/
theorem getElem_runFlat (call : Call) (f : FlatMemory) {b : Nat} (hb : b < flatSize) :
    (call.runFlat f).2[b] = (call.put? b).getD f[b] := by
  cases call with
  | write a v =>
      rw [Call.runFlat, Call.put?]
      split
      · exact getElem_putWord f a v hb
      · next ha =>
        have hout : wordByte? a v b = none := by
          unfold memorySize at ha
          unfold flatSize at hb
          rw [wordByte?, if_neg (by omega), if_neg (by omega)]
        rw [hout]
        rfl
  | writeByte b' v =>
      rw [Call.runFlat, Call.put?]
      split
      · rw [Vector.getElem_setIfInBounds]
        grind
      · next hout =>
        have hne : b ≠ b' := fun heq => hout (heq ▸ hb)
        simp only [if_neg hne, Option.getD_none]
  | access request =>
      obtain ⟨enable, write, address, value⟩ := request
      cases enable with
      | false => rfl
      | true =>
          cases write with
          | false => rfl
          | true => exact getElem_putWord f address.toNat value hb
  | _ => rfl

/-! ### Any calls -/

/-- By induction on the calls, memory answers as the flat array does, and stays the same as it. -/
theorem replay_flat (calls : List Call) (m : Memory) :
    (replay Call.run calls m).1 = (replay Call.runFlat calls m.flat).1 ∧
      (replay Call.run calls m).2.flat = (replay Call.runFlat calls m.flat).2 ∧
      (replay Call.run calls m).2.entry = m.entry := by
  induction calls generalizing m with
  | nil => exact ⟨rfl, rfl, rfl⟩
  | cons call calls ih =>
      obtain ⟨hanswer, hflat, hentry⟩ := run_flat call m
      obtain ⟨hanswers, hend, hentry'⟩ := ih (call.run m).2
      rw [hflat] at hanswers hend
      rw [replay, replay]
      exact ⟨List.cons_eq_cons.2 ⟨hanswer, hanswers⟩, hend, hentry'.trans hentry⟩

/-- Every byte is the last one that a call put there. -/
theorem getElem_replay_runFlat (calls : List Call) (f : FlatMemory) {b : Nat} (hb : b < flatSize) :
    (replay Call.runFlat calls f).2[b] = ((calls.filterMap (Call.put? b)).getLast?).getD f[b] := by
  induction calls generalizing f with
  | nil => rfl
  | cons call calls ih =>
      rw [replay]
      dsimp only
      rw [ih, getElem_runFlat call f hb]
      cases hput : call.put? b with
      | none => rw [List.filterMap_cons_none hput, Option.getD_none]
      | some v => rw [List.filterMap_cons_some hput, List.getLast?_cons, Option.getD_some,
          Option.getD_some]

/-- **Memory is one flat array of bytes.** Any calls, with addresses and counts of any size, are
answered as the array answers them, and leave the bytes of the array. Of these, every byte is the
last one that a call put there, or the one from before the calls; a word is two of them, the high
one first. The entry point and the size do not change, and a call that is refused changes nothing.
-/
theorem replay_refines_flat (m : Memory) (calls : List Call) :
    let served := replay Call.run calls m
    let array := replay Call.runFlat calls m.flat
    served.1 = array.1 ∧ served.2.flat = array.2 ∧
    (∀ b (hb : b < 131072),
      array.2[b] = ((calls.filterMap (Call.put? b)).getLast?).getD m.flat[b]) ∧
    (∀ a, served.2.get a = array.2.word a.toNat) ∧
    served.2.entry = m.entry ∧ served.2.cells.toArray.size = 65536 ∧
    ∀ (call : Call) e,
      (call.run served.2).1 = .done (.error e) → (call.run served.2).2 = served.2 := by
  intro served array
  obtain ⟨hanswers, hflat, hentry⟩ := replay_flat calls m
  refine ⟨hanswers, hflat, fun b hb => getElem_replay_runFlat calls m.flat hb, fun a => ?_, hentry,
    Vector.size_toArray _, fun call e => run_of_refused⟩
  rw [← hflat]
  exact (served.2.word_flat a.toNat_lt).symm

end Memory

end ClockStep
