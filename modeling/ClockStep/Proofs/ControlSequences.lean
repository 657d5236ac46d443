import ClockStep.Printer
import ClockStep.Sink
import ClockStep.Text.Basic
import Mathlib.Data.List.Basic

/-!
# Reading Control Sequences

Coloured output is text with control sequences in between: an escape, a bracket, parameters, and an
`m`. This module reads such output as a terminal does, byte by byte. What is left of it is a list of
**cells**, a byte each together with whether a style was on when it came (`shown`); so the bytes of
the cells are the output with the control sequences removed, and a line is closed if its newline
came with no style on.

The reader may stand inside something that begins like a control sequence; when that turns out to be
none, its bytes are text after all. The output of a printer never leaves the reader there, nor with
a style on. `Shows` says that of bytes, together with the cells that they add, and bytes of this
kind can be put behind one another (`Shows.append`).

## Main results

* `shows_of_not_mem`: bytes with no escape among them show themselves.
* `Painter.Wraps.shows_paint`: a text that a painter wraps shows the text.
* `Painter.wraps_ansi`: the painter for ANSI terminals wraps texts.
* `Dressed.sameContent`: bytes that show others, with a style on at no newline, have their content.
-/

namespace ClockStep

/-- The byte that starts a control sequence. -/
def escapeByte : Byte := 0x1B

/-- A byte of text as it appears on a terminal. -/
structure Cell where
  byte : Byte
  /-- Whether it came with a style on. -/
  styled : Bool
deriving Repr, DecidableEq

/-! ### The reader -/

namespace Screen

/-- Where the reader stands: in the text, behind an escape, or behind an escape, a bracket and some
parameters. -/
inductive State where
  | text
  | escaped
  | parameters (read : List Byte)
deriving Repr, DecidableEq

/-- The bytes that are text after all if no control sequence comes of them. -/
def State.held : State → List Byte
  | text => []
  | escaped => [escapeByte]
  | parameters read => escapeByte :: 0x5B :: read

end Screen

/-- What became of the bytes read so far. -/
structure Screen where
  state : Screen.State := .text
  /-- Whether a style is on. -/
  styled : Bool := false
  /-- The text. -/
  cells : List Cell := []
deriving Repr, DecidableEq

namespace Screen

/-- The parameter bytes of control sequences: digits, semicolons and the like. -/
def IsParameter (b : Byte) : Prop := 0x30 ≤ b ∧ b ≤ 0x3F

instance (b : Byte) : Decidable (IsParameter b) := inferInstanceAs (Decidable (_ ∧ _))

/-- The parameters that switch all styles off: a zero, or none at all. -/
def IsReset (parameters : List Byte) : Prop := parameters = [] ∨ parameters = [0x30]

instance (parameters : List Byte) : Decidable (IsReset parameters) :=
  inferInstanceAs (Decidable (_ ∨ _))

/-- Parameters that switch all styles off are parameters. -/
theorem IsReset.isParameter {parameters : List Byte} (h : IsReset parameters) :
    ∀ b ∈ parameters, IsParameter b := by
  obtain rfl | rfl := h
  · exact List.forall_mem_nil _
  · exact List.forall_mem_singleton.2 (by decide)

/-- The control sequence with some parameters. -/
def sequence (parameters : List Byte) : List Byte :=
  escapeByte :: 0x5B :: (parameters ++ [0x6D])

/-- Text at the end of what is there. -/
def type (s : Screen) (bytes : List Byte) : Screen :=
  { s with cells := s.cells ++ bytes.map (⟨·, s.styled⟩) }

/-- The bytes that were held back are text. -/
def release (s : Screen) : Screen := { s.type s.state.held with state := .text }

/-- A byte that does not go on with a control sequence. -/
def begin (s : Screen) (b : Byte) : Screen :=
  if b = escapeByte then { s.release with state := .escaped } else s.release.type [b]

/-- Reads a byte. -/
def step (s : Screen) (b : Byte) : Screen :=
  match s.state with
  | .text => s.begin b
  | .escaped => if b = 0x5B then { s with state := .parameters [] } else s.begin b
  | .parameters read =>
    if b = 0x6D then { s with state := .text, styled := ¬IsReset read }
    else if IsParameter b then { s with state := .parameters (read ++ [b]) }
    else s.begin b

/-- Reads bytes. -/
def run (s : Screen) (bytes : List Byte) : Screen := bytes.foldl step s

/-- Bytes are read one part after the other. -/
theorem run_append (s : Screen) (front back : List Byte) :
    s.run (front ++ back) = (s.run front).run back := List.foldl_append

end Screen

/-- The text in bytes, control sequences left out. -/
def shown (bytes : List Byte) : List Cell := (Screen.run {} bytes).release.cells

/-- Bytes without the control sequences in them. -/
def withoutSequences (bytes : List Byte) : List Byte := (shown bytes).map Cell.byte

/-- No style is on when a line ends. -/
def Closed (bytes : List Byte) : Prop :=
  ∀ cell ∈ shown bytes, cell.byte = newline → cell.styled = false

/-! ### The bytes of texts -/

namespace Text.Utf8

/-- Texts behind one another have their bytes behind one another. -/
theorem encode_append (front back : String) :
    encode (front ++ back) = encode front ++ encode back := by
  rw [encode, String.toList_append, List.flatMap_append]
  rfl

/-- A byte below `0x80` is in the encoding of a single character. -/
theorem eq_of_mem_utf8EncodeChar {b : Byte} {c : Char} (hb : b < 0x80)
    (h : b ∈ String.utf8EncodeChar c) : Char.ofNat b.toNat = c := by
  have hbyte : b.toNat < 0x80 := hb
  have hhigh : ∀ n, 0x80 ≤ n → n < 0x100 → b ≠ UInt8.ofNat n := by
    rintro n hlow hsize rfl
    rw [UInt8.toNat_ofNat_of_lt' hsize] at hbyte
    omega
  simp only [String.utf8EncodeChar] at h
  split at h
  · next hsmall =>
      rw [List.mem_singleton.1 h, UInt8.toNat_ofNat_of_lt' (Nat.lt_of_le_of_lt hsmall (by decide))]
      exact Char.ofNat_toNat c
  · split at h
    · simp only [List.mem_cons, List.not_mem_nil, or_false] at h
      obtain h | h := h <;> exact absurd h (hhigh _ (by omega) (by omega))
    · split at h
      · simp only [List.mem_cons, List.not_mem_nil, or_false] at h
        obtain h | h | h := h <;> exact absurd h (hhigh _ (by omega) (by omega))
      · simp only [List.mem_cons, List.not_mem_nil, or_false] at h
        obtain h | h | h | h := h <;> exact absurd h (hhigh _ (by omega) (by omega))

/-- A byte below `0x80` in a text is a character of it. -/
theorem mem_encode {text : String} {b : Byte} (hb : b < 0x80) (h : b ∈ encode text) :
    Char.ofNat b.toNat ∈ text.toList := by
  obtain ⟨c, hc, hmem⟩ := List.mem_flatMap.1 h
  exact eq_of_mem_utf8EncodeChar hb hmem ▸ hc

end Text.Utf8

/-! ### What bytes show -/

namespace Screen

variable {styled : Bool} {cells : List Cell}

/-- Bytes with no escape among them are typed as they are. -/
theorem run_of_not_mem {bytes : List Byte} (h : escapeByte ∉ bytes) :
    run ⟨.text, styled, cells⟩ bytes = ⟨.text, styled, cells ++ bytes.map (⟨·, styled⟩)⟩ := by
  induction bytes generalizing cells with
  | nil => rw [List.map_nil, List.append_nil]; rfl
  | cons b rest ih =>
      obtain ⟨hb, hrest⟩ := not_or.1 (mt List.mem_cons.2 h)
      have hstep : step ⟨.text, styled, cells⟩ b = ⟨.text, styled, cells ++ [⟨b, styled⟩]⟩ := by
        rw [step, begin, if_neg (Ne.symm hb)]
        simp [release, type, State.held]
      calc run ⟨.text, styled, cells⟩ (b :: rest)
          = run ⟨.text, styled, cells ++ [⟨b, styled⟩]⟩ rest := congrArg (run · rest) hstep
        _ = _ := by rw [ih hrest, List.append_assoc]; rfl

/-- Parameters are held back. -/
theorem run_parameters {read parameters : List Byte} (h : ∀ b ∈ parameters, IsParameter b) :
    run ⟨.parameters read, styled, cells⟩ parameters =
      ⟨.parameters (read ++ parameters), styled, cells⟩ := by
  induction parameters generalizing read with
  | nil => rw [List.append_nil]; rfl
  | cons b rest ih =>
      have hb := h b List.mem_cons_self
      have hm : b ≠ 0x6D := by
        rintro rfl
        exact absurd hb (by decide)
      have hstep : step ⟨.parameters read, styled, cells⟩ b =
          ⟨.parameters (read ++ [b]), styled, cells⟩ := by
        rw [step]
        dsimp only
        rw [if_neg hm, if_pos hb]
      calc run ⟨.parameters read, styled, cells⟩ (b :: rest)
          = run ⟨.parameters (read ++ [b]), styled, cells⟩ rest := congrArg (run · rest) hstep
        _ = _ := by
            rw [ih fun b' hb' => h b' (List.mem_cons_of_mem b hb'), List.append_assoc]
            rfl

/-- A byte that begins anew takes nothing back. -/
theorem prefix_begin (s : Screen) (b : Byte) : s.cells <+: (s.begin b).cells := by
  rw [begin]
  split
  · exact ⟨_, rfl⟩
  · exact ⟨_, (List.append_assoc _ _ _).symm⟩

/-- What is shown stays. -/
theorem prefix_step (s : Screen) (b : Byte) : s.cells <+: (s.step b).cells := by
  rw [step]
  split
  · exact s.prefix_begin b
  · split
    · exact List.prefix_rfl
    · exact s.prefix_begin b
  · split
    · exact List.prefix_rfl
    · split
      · exact List.prefix_rfl
      · exact s.prefix_begin b

/-- A newline goes on with no control sequence. -/
theorem mem_step_newline (s : Screen) : newline ∈ (s.step newline).cells.map Cell.byte := by
  have hbegin : s.step newline = s.begin newline := by
    rw [step]
    split <;> rfl
  rw [hbegin, begin, if_neg (by decide)]
  simp [type]

/-- A newline that is read is shown. -/
theorem newline_mem_run {s : Screen} {bytes : List Byte}
    (h : newline ∈ s.cells.map Cell.byte ∨ newline ∈ bytes) :
    newline ∈ (s.run bytes).cells.map Cell.byte := by
  induction bytes generalizing s with
  | nil => exact h.resolve_right List.not_mem_nil
  | cons b rest ih =>
      refine ih ?_
      obtain hshown | hread := h
      · exact .inl (((s.prefix_step b).map Cell.byte).subset hshown)
      · obtain rfl | hrest := List.mem_cons.1 hread
        · exact .inl s.mem_step_newline
        · exact .inr hrest

/-- A control sequence shows nothing and switches a style on, or all of them off. -/
theorem run_sequence {parameters : List Byte} (h : ∀ b ∈ parameters, IsParameter b) :
    run ⟨.text, styled, cells⟩ (sequence parameters) = ⟨.text, ¬IsReset parameters, cells⟩ := by
  have hescape : step ⟨.text, styled, cells⟩ escapeByte = ⟨.escaped, styled, cells⟩ := by
    rw [step, begin, if_pos rfl]
    simp [release, type, State.held]
  calc run ⟨.text, styled, cells⟩ (sequence parameters)
      = run (step (step ⟨.text, styled, cells⟩ escapeByte) 0x5B) (parameters ++ [0x6D]) := rfl
    _ = run ⟨.parameters [], styled, cells⟩ (parameters ++ [0x6D]) := by rw [hescape]; rfl
    _ = run ⟨.parameters parameters, styled, cells⟩ [0x6D] := by
        rw [run_append, run_parameters h, List.nil_append]
    _ = ⟨.text, ¬IsReset parameters, cells⟩ := rfl

end Screen

/-- Read with no style on, bytes add cells, and leave no style on. -/
def Shows (bytes : List Byte) (cells : List Cell) : Prop :=
  ∀ before, Screen.run ⟨.text, false, before⟩ bytes = ⟨.text, false, before ++ cells⟩

/-- Bytes that show cells can be put behind one another. -/
theorem Shows.append {front back : List Byte} {cells later : List Cell} (h : Shows front cells)
    (hlater : Shows back later) : Shows (front ++ back) (cells ++ later) := by
  intro before
  rw [Screen.run_append, h, hlater, List.append_assoc]

/-- What bytes show is what is shown of them. -/
theorem Shows.shown_eq {bytes : List Byte} {cells : List Cell} (h : Shows bytes cells) :
    shown bytes = cells := by
  have hrun : Screen.run {} bytes = ⟨.text, false, [] ++ cells⟩ := h []
  rw [shown, hrun]
  simp [Screen.release, Screen.type, Screen.State.held]

/-- Bytes with no escape among them show themselves. -/
theorem shows_of_not_mem {bytes : List Byte} (h : escapeByte ∉ bytes) :
    Shows bytes (bytes.map (⟨·, false⟩)) := fun _ => Screen.run_of_not_mem h

/-! ### Painted texts -/

namespace Painter

open Text.Utf8 (encode encode_append)

/-- A painter **wraps** texts: around a text in some style it writes nothing, or a control sequence
before it that switches a style on and one behind it that switches all of them off. -/
def Wraps (painter : Painter) : Prop :=
  ∀ style, (painter.front style = "" ∧ painter.back style = "") ∨
    (∃ parameters, (∀ b ∈ parameters, Screen.IsParameter b) ∧ ¬Screen.IsReset parameters ∧
      encode (painter.front style) = Screen.sequence parameters) ∧
    ∃ parameters, Screen.IsReset parameters ∧
      encode (painter.back style) = Screen.sequence parameters

/-- A style that has a look is switched on and off by control sequences at ANSI terminals. -/
theorem sequences_ansi {style : Style} (h : style ≠ .plain) :
    let parameters := encode (String.join style.codes)
    (parameters.all fun b => Screen.IsParameter b) = true ∧ ¬Screen.IsReset parameters ∧
      encode (ansi.front style) = Screen.sequence parameters ∧
      encode (ansi.back style) = Screen.sequence [0x30] := by
  cases style with
  | plain => exact absurd rfl h
  | bold | boldYellow | boldRed | gray | red | green | yellow | purple | cyan => decide

/-- The painter for ANSI terminals wraps texts. -/
theorem wraps_ansi : ansi.Wraps := by
  intro style
  by_cases h : style = .plain
  · exact .inl (h ▸ ⟨rfl, rfl⟩)
  · obtain ⟨hall, hreset, hfront, hback⟩ := sequences_ansi h
    exact .inr ⟨⟨_, fun b hb => of_decide_eq_true (List.all_eq_true.1 hall b hb), hreset, hfront⟩,
      [0x30], .inr rfl, hback⟩

variable {painter : Painter}

/-- A text that is painted shows the text. -/
theorem Wraps.shows_paint (h : painter.Wraps) (style : Style) {text : String}
    (hescape : escapeByte ∉ encode text) :
    Shows (encode (style.paint (some painter) text))
      ((encode text).map (⟨·, decide (painter.front style ≠ "")⟩)) := by
  intro before
  rw [Style.paint, encode_append, encode_append, Screen.run_append, Screen.run_append]
  obtain ⟨hfront, hback⟩ | ⟨⟨parameters, hparameters, hreset, hfront⟩, reset, hback, hencode⟩ :=
    h style
  · rw [hfront, hback, decide_eq_false (not_not.2 rfl)]
    exact Screen.run_of_not_mem hescape
  · have hstyled : painter.front style ≠ "" := by
      intro hempty
      rw [hempty] at hfront
      cases hfront
    rw [hfront, hencode, Screen.run_sequence hparameters, Screen.run_of_not_mem hescape,
      Screen.run_sequence hback.isParameter, decide_eq_true hreset, decide_eq_true hstyled,
      decide_eq_false (not_not.2 hback)]

end Painter

/-! ### Dressed bytes -/

/-- Bytes are **dressed** like others if they show these, with a style on at no newline. -/
def Dressed (coloured plain : List Byte) : Prop :=
  ∃ cells, Shows coloured cells ∧ cells.map Cell.byte = plain ∧
    ∀ cell ∈ cells, cell.byte = newline → cell.styled = false

/-- Nothing is dressed like nothing. -/
theorem dressed_nil : Dressed [] [] := ⟨[], shows_of_not_mem List.not_mem_nil, rfl, by simp⟩

/-- Dressed bytes can be put behind one another. -/
theorem Dressed.append {front back plain rest : List Byte} (h : Dressed front plain)
    (hback : Dressed back rest) : Dressed (front ++ back) (plain ++ rest) := by
  obtain ⟨cells, hshows, hbytes, hclosed⟩ := h
  obtain ⟨later, hshows', hbytes', hclosed'⟩ := hback
  refine ⟨cells ++ later, hshows.append hshows', ?_, fun cell hcell => ?_⟩
  · rw [List.map_append, hbytes, hbytes']
  · exact (List.mem_append.1 hcell).elim (hclosed cell) (hclosed' cell)

/-- What is put together of dressed parts is dressed like the parts together. -/
theorem dressed_flatMap {α : Type} {coloured plain : α → List Byte} (xs : List α)
    (h : ∀ x ∈ xs, Dressed (coloured x) (plain x)) :
    Dressed (xs.flatMap coloured) (xs.flatMap plain) := by
  induction xs with
  | nil => exact dressed_nil
  | cons x xs ih =>
      rw [List.flatMap_cons, List.flatMap_cons]
      exact (h x List.mem_cons_self).append (ih fun y hy => h y (List.mem_cons_of_mem x hy))

/-- Bytes with no escape among them are as they are. -/
theorem dressed_of_not_mem {bytes : List Byte} (h : escapeByte ∉ bytes) : Dressed bytes bytes := by
  refine ⟨_, shows_of_not_mem h, ?_, fun cell hcell _ => ?_⟩
  · rw [List.map_map]
    exact List.map_id bytes
  · obtain ⟨b, -, rfl⟩ := List.mem_map.1 hcell
    rfl

/-- A painted text is dressed like the text. -/
theorem Painter.Wraps.dressed_paint {painter : Painter} (h : painter.Wraps) (style : Style)
    {text : String} (hescape : escapeByte ∉ Text.Utf8.encode text)
    (hnewline : newline ∉ Text.Utf8.encode text) :
    Dressed (Text.Utf8.encode (style.paint (some painter) text))
      (Text.Utf8.encode (style.paint none text)) := by
  refine ⟨_, h.shows_paint style hescape, ?_, fun cell hcell hbyte => ?_⟩
  · rw [List.map_map]
    exact List.map_id _
  · obtain ⟨b, hb, rfl⟩ := List.mem_map.1 hcell
    exact absurd (hbyte ▸ hb) hnewline

/-- Dressing adds no newline. -/
theorem Dressed.newline_not_mem {coloured plain : List Byte} (h : Dressed coloured plain)
    (hplain : newline ∉ plain) : newline ∉ coloured := by
  obtain ⟨cells, hshows, rfl, -⟩ := h
  intro hmem
  have hrun := Screen.newline_mem_run (s := ⟨.text, false, []⟩) (.inr hmem)
  rw [hshows] at hrun
  exact hplain hrun

/-- Bytes have the **same content** as others without control sequences: these apart they are the
same, and no style is on when a line ends. -/
def SameContent (coloured plain : List Byte) : Prop :=
  withoutSequences coloured = plain ∧ Closed coloured

/-- Dressed bytes have the content of what they are dressed like. -/
theorem Dressed.sameContent {coloured plain : List Byte} (h : Dressed coloured plain) :
    SameContent coloured plain := by
  obtain ⟨cells, hshows, hbytes, hclosed⟩ := h
  rw [SameContent, withoutSequences, Closed, hshows.shown_eq]
  exact ⟨hbytes, hclosed⟩

end ClockStep
