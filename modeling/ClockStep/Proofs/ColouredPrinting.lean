import ClockStep.Proofs.Sinks
import ClockStep.Proofs.ToldTexts

/-!
# Printing in Colour

A printer with colour and one without print the same lines, in more or fewer writes. This module
follows the two side by side (`Printer.Twins`) and shows that neither a line nor a dump gets them
apart: the results are the same, and what the one has printed is dressed like what the other has.

## Convention

A sink is **by lines** if it depends on the lines that went through whether a write is refused. A
sink that takes every write is one, and so is one that closes after some lines. A sink that counts
the writes is not: it may refuse one that only a printer with colour makes.

## Main results

* `Hexdump.dressed_row`: a row in colour is dressed like the row without.
* `Printer.Twins.line`, `Printer.Twins.hexdump`: printing keeps twins.
* `Printer.received_line`: a line in colour, cell by cell.
-/

namespace ClockStep

open Text (IsPlain isPlain_ofList)
open Text.Utf8 (encode encode_append)

/-! ### Twin sinks -/

/-- A part of what two sinks received: what was printed, without colour and with, or what a console
passed on. -/
inductive Piece where
  | printed (plain coloured : List Byte)
  | passed (bytes : List Byte)

namespace Piece

/-- The bytes of a part. -/
def bytes (color : Bool) : Piece → List Byte
  | printed plain coloured => if color then coloured else plain
  | passed bytes => bytes

/-- What the operator was told with it. -/
def told (color : Bool) : Piece → List Byte
  | printed plain coloured => if color then coloured else plain
  | passed _ => []

/-- There is no escape in what was printed without colour, and with colour it is dressed like that.
-/
def Fits : Piece → Prop
  | printed plain coloured => escapeByte ∉ plain ∧ Dressed coloured plain
  | passed _ => True

variable {pieces : List Piece}

/-- If all pieces fit, what is told in colour is what is told without, dressed. -/
theorem dressed_told (h : ∀ piece ∈ pieces, piece.Fits) :
    Dressed (pieces.flatMap (told true)) (pieces.flatMap (told false)) := by
  refine dressed_flatMap pieces fun piece hpiece => ?_
  cases piece with
  | printed plain coloured => exact (h _ hpiece).2
  | passed bytes => exact dressed_nil

/-- All of it is dressed if the console passed on no escape, or nothing. -/
theorem dressed_bytes (h : ∀ piece ∈ pieces, piece.Fits)
    (hpassed : (∀ bytes, passed bytes ∉ pieces) ∨ escapeByte ∉ pieces.flatMap (bytes false)) :
    Dressed (pieces.flatMap (bytes true)) (pieces.flatMap (bytes false)) := by
  refine dressed_flatMap pieces fun piece hpiece => ?_
  cases piece with
  | printed plain coloured => exact (h _ hpiece).2
  | passed bytes =>
      refine dressed_of_not_mem fun hmem => ?_
      obtain hnone | hnone := hpassed
      · exact hnone bytes hpiece
      · exact hnone (List.mem_flatMap.2 ⟨_, hpiece, hmem⟩)

end Piece

namespace Sink

variable {s s' : Sink}

/-- Two sinks that got the same lines from a printer without colour and one with, and maybe the
bytes of a console: both had received `start` before. A `quiet` console passes nothing on. -/
structure Twins (start : List Byte) (quiet : Prop) (s s' : Sink) : Prop where
  policy : s'.policy = s.policy
  byLines : s.policy.ByLines
  newlines : s'.progress.newlines = s.progress.newlines
  received : ∃ pieces : List Piece,
    s.received.toList = start ++ pieces.flatMap (Piece.bytes false) ∧
    s'.received.toList = start ++ pieces.flatMap (Piece.bytes true) ∧
    (∀ piece ∈ pieces, piece.Fits) ∧ (quiet → ∀ bytes, .passed bytes ∉ pieces)

variable {start : List Byte} {quiet : Prop}

/-- More of the same leaves twins. -/
theorem Twins.append {t t' : Sink} (h : Twins start quiet s s') (hpolicy : t.policy = s.policy)
    (hpolicy' : t'.policy = s'.policy) (hnewlines : t'.progress.newlines = t.progress.newlines)
    {more : List Piece}
    (hreceived : t.received.toList = s.received.toList ++ more.flatMap (Piece.bytes false))
    (hreceived' : t'.received.toList = s'.received.toList ++ more.flatMap (Piece.bytes true))
    (hfits : ∀ piece ∈ more, piece.Fits) (hquiet : quiet → ∀ bytes, .passed bytes ∉ more) :
    Twins start quiet t t' := by
  obtain ⟨pieces, hout, hout', hfits', hquiet'⟩ := h.received
  refine ⟨?_, hpolicy ▸ h.byLines, hnewlines, pieces ++ more, ?_, ?_, ?_, ?_⟩
  · rw [hpolicy', hpolicy, h.policy]
  · rw [hreceived, hout, List.flatMap_append, List.append_assoc]
  · rw [hreceived', hout', List.flatMap_append, List.append_assoc]
  · exact List.forall_mem_append.2 ⟨hfits', hfits⟩
  · exact fun hq bytes hmem => (List.mem_append.1 hmem).elim (hquiet' hq bytes) (hquiet hq bytes)

/-- A line is taken or refused by both. -/
theorem Twins.writeLine (h : Twins start quiet s s') {front front' : List (List Byte)}
    (hnewline : newline ∉ front.flatten) (hescape : escapeByte ∉ front.flatten)
    (hdressed : Dressed front'.flatten front.flatten) :
    ∃ result t t', s.writePieces (front ++ [[newline]]) = (result, t) ∧
      s'.writePieces (front' ++ [[newline]]) = (result, t') ∧ Twins start quiet t t' := by
  obtain ⟨refusal, hlines⟩ := h.byLines
  have hlines' : ∀ p bytes, s'.policy.write p bytes = verdict (refusal p.newlines) bytes :=
    h.policy ▸ hlines
  cases hrefusal : refusal s.progress.newlines with
  | some cause =>
      obtain ⟨t, ht, hpolicy, hnewlines, hreceived⟩ :=
        writePieces_of_refused hlines hrefusal front
      obtain ⟨t', ht', hpolicy', hnewlines', hreceived'⟩ :=
        writePieces_of_refused hlines' (h.newlines ▸ hrefusal) front'
      refine ⟨_, t, t', ht, ht', h.append hpolicy hpolicy' ?_ ?_ ?_ (List.forall_mem_nil _)
        fun _ _ => List.not_mem_nil⟩
      · rw [hnewlines', hnewlines, h.newlines]
      · rw [hreceived, List.flatMap_nil, List.append_nil]
      · rw [hreceived', List.flatMap_nil, List.append_nil]
  | none =>
      obtain ⟨t, ht, hpolicy, hnewlines, hreceived⟩ :=
        writePieces_of_taken hlines hrefusal hnewline
      obtain ⟨t', ht', hpolicy', hnewlines', hreceived'⟩ := writePieces_of_taken
        hlines' (h.newlines ▸ hrefusal) (hdressed.newline_not_mem hnewline)
      let line : Piece := .printed (front.flatten ++ [newline]) (front'.flatten ++ [newline])
      have hend : escapeByte ∉ [newline] := by decide
      have hfits : line.Fits := ⟨fun hmem => (List.mem_append.1 hmem).elim hescape hend,
        hdressed.append (dressed_of_not_mem hend)⟩
      have htaken : t.received.toList =
          s.received.toList ++ [line].flatMap (Piece.bytes false) := by
        rw [hreceived, List.flatMap_singleton]
        rfl
      have htaken' : t'.received.toList =
          s'.received.toList ++ [line].flatMap (Piece.bytes true) := by
        rw [hreceived', List.flatMap_singleton]
        rfl
      refine ⟨_, t, t', ht, ht', h.append hpolicy hpolicy' ?_ htaken htaken'
        (List.forall_mem_singleton.2 hfits) fun _ _ hmem => nomatch List.mem_singleton.1 hmem⟩
      rw [hnewlines', hnewlines, h.newlines]

/-- So are lines, up to the first that is refused. -/
theorem Twins.writeLines {α : Type} {front front' : α → List (List Byte)} {xs : List α}
    (hnewline : ∀ x ∈ xs, newline ∉ (front x).flatten)
    (hescape : ∀ x ∈ xs, escapeByte ∉ (front x).flatten)
    (hdressed : ∀ x ∈ xs, Dressed (front' x).flatten (front x).flatten)
    (h : Twins start quiet s s') :
    ∃ result t t', s.writePieces (xs.flatMap fun x => front x ++ [[newline]]) = (result, t) ∧
      s'.writePieces (xs.flatMap fun x => front' x ++ [[newline]]) = (result, t') ∧
      Twins start quiet t t' := by
  induction xs generalizing s s' with
  | nil => exact ⟨_, s, s', rfl, rfl, h⟩
  | cons x xs ih =>
      rw [List.forall_mem_cons] at hnewline hescape hdressed
      obtain ⟨result, t, t', ht, ht', htwins⟩ := h.writeLine hnewline.1 hescape.1 hdressed.1
      rw [List.flatMap_cons, List.flatMap_cons, writePieces_append s (front x ++ [[newline]]),
        writePieces_append s' (front' x ++ [[newline]]), ht, ht']
      cases result with
      | error cause => exact ⟨_, t, t', rfl, rfl, htwins⟩
      | ok => exact ih hnewline.2 hescape.2 hdressed.2 htwins

end Sink

/-! ### Rows -/

/-- A plain text is itself, dressed. -/
theorem Text.IsPlain.dressed {text : String} (h : IsPlain text) :
    Dressed (encode text) (encode text) := dressed_of_not_mem h.escapeByte_not_mem

/-- A plain text in any style is the plain text, dressed. -/
theorem Text.IsPlain.dressed_paint {text : String} (h : IsPlain text) {painter : Painter}
    (hwraps : painter.Wraps) (style : Style) :
    Dressed (encode (style.paint (some painter) text)) (encode (style.paint none text)) :=
  hwraps.dressed_paint style h.escapeByte_not_mem h.newline_not_mem

namespace Text.Utf8

/-- The bytes of joined texts are those of one text after the other. -/
theorem encode_join (texts : List String) : encode (String.join texts) = texts.flatMap encode := by
  rw [encode, String.toList_join, List.flatMap_assoc]
  rfl

end Text.Utf8

namespace Hexdump

variable {painter : Painter} (hwraps : painter.Wraps)

include hwraps

/-- A hexadecimal column in colour is the same column, dressed. -/
theorem dressed_hexColumn (bytes : List Byte) (column : Nat) :
    Dressed (encode (hexColumn (some painter) bytes column))
      (encode (hexColumn none bytes column)) := by
  have hgap : IsPlain (if column % 2 = 0 then " " else "") :=
    Text.isPlain_ite (isPlain_ofList rfl) (isPlain_ofList rfl)
  rw [hexColumn, hexColumn, encode_append, encode_append]
  refine hgap.dressed.append ?_
  cases bytes[column]? with
  | none => exact IsPlain.dressed_paint (isPlain_ofList rfl) hwraps .red
  | some b =>
      have hdigits := Text.isPlain_of_isPrintable fun c hc => ((cell_spec b).2.1 c hc).1
      exact hdigits.dressed_paint hwraps _

/-- A character column in colour is the same column, dressed. -/
theorem dressed_charColumn (bytes : List Byte) (column : Nat) :
    Dressed (encode (charColumn (some painter) bytes column))
      (encode (charColumn none bytes column)) := by
  have hgap : IsPlain (if column ≠ 0 ∧ column % 8 = 0 then " " else "") :=
    Text.isPlain_ite (isPlain_ofList rfl) (isPlain_ofList rfl)
  rw [charColumn, charColumn, encode_append, encode_append]
  refine hgap.dressed.append ?_
  cases bytes[column]? with
  | none => exact IsPlain.dressed_paint (isPlain_ofList rfl) hwraps .red
  | some b =>
      refine Text.IsPlain.dressed_paint (Text.isPlain_of_isPrintable fun c hc => ?_) hwraps _
      rw [String.toList_singleton, List.mem_singleton] at hc
      exact hc ▸ isPrintable_shownAs b

/-- **A row in colour is dressed like the row without**, whatever bytes are in it. -/
theorem dressed_row (address : Nat) (bytes : List Byte) :
    Dressed (encode (row (some painter) address bytes)) (encode (row none address bytes)) := by
  have hbar : Dressed (encode "|") (encode "|") := IsPlain.dressed (isPlain_ofList rfl)
  have hgap : Dressed (encode " |") (encode " |") := IsPlain.dressed (isPlain_ofList rfl)
  have hlabel := (Text.isPlain_hexPadded 4 address).dressed_paint hwraps .gray
  simp only [row, encode_append, Text.Utf8.encode_join, List.flatMap_map]
  have hdigits := dressed_flatMap (List.range rowBytes) fun column _ =>
    dressed_hexColumn hwraps bytes column
  have hcharacters := dressed_flatMap (List.range rowBytes) fun column _ =>
    dressed_charColumn hwraps bytes column
  exact (((((hbar.append hlabel).append hbar).append hdigits).append hgap).append
    hcharacters).append hbar

end Hexdump

/-! ### Twin printers -/

namespace Printer

/-- A printer without colour and one with, over twin sinks. -/
structure Twins (start : List Byte) (quiet : Prop) (p p' : Printer) : Prop where
  plain : p.color = false
  coloured : p'.color = true
  wraps : p'.painter.Wraps
  sinks : p.sink.Twins start quiet p'.sink

variable {p p' : Printer} {start : List Byte} {quiet : Prop}

/-- The pieces of a line before its newline, in bytes. -/
def painted (painter? : Option Painter) (style : Style) (text : String) : List (List Byte) :=
  match painter? with
  | some painter =>
    (painter.opening style).map encode ++ encode text :: (painter.closing style).map encode
  | none => [encode text]

/-- A line is what is painted, and a newline. -/
theorem linePieces_eq (painter? : Option Painter) (style : Style) (text : String) :
    (linePieces painter? style text).map encode =
      painted painter? style text ++ [[newline]] := by
  cases painter? with
  | some painter => simp [linePieces, painted]; rfl
  | none => rfl

/-- The pieces together are the painted text. -/
theorem flatten_painted (painter? : Option Painter) (style : Style) (text : String) :
    (painted painter? style text).flatten = encode (style.paint painter? text) := by
  cases painter? with
  | some painter =>
      rw [painted, Style.paint, Painter.front, Painter.back, encode_append, encode_append,
        Text.Utf8.encode_join, Text.Utf8.encode_join, List.flatten_append, List.flatten_cons,
        List.flatMap_def, List.flatMap_def, List.append_assoc]
  | none => exact List.flatten_singleton

/-- What is printed over twin sinks. -/
theorem Twins.writeAll (h : Twins start quiet p p') {pieces pieces' : List String}
    (hwrite : ∃ result t t', p.sink.writePieces (pieces.map encode) = (result, t) ∧
      p'.sink.writePieces (pieces'.map encode) = (result, t') ∧ t.Twins start quiet t') :
    (p'.writeAll pieces').1 = (p.writeAll pieces).1 ∧
      Twins start quiet (p.writeAll pieces).2 (p'.writeAll pieces').2 := by
  obtain ⟨result, t, t', ht, ht', htwins⟩ := hwrite
  rw [Printer.writeAll, Printer.writeAll, ht, ht']
  exact ⟨rfl, h.plain, h.coloured, h.wraps, htwins⟩

/-- A line comes to the same with colour and without. -/
theorem Twins.line (h : Twins start quiet p p') (style : Style) {text : String}
    (htext : IsPlain text) :
    (p'.line style text).1 = (p.line style text).1 ∧
      Twins start quiet (p.line style text).2 (p'.line style text).2 := by
  have hdressed := htext.dressed_paint h.wraps style
  rw [← flatten_painted, ← flatten_painted] at hdressed
  refine h.writeAll ?_
  rw [painter?_of_color_eq_false h.plain, painter?_of_color_eq_true h.coloured, linePieces_eq,
    linePieces_eq]
  refine h.sinks.writeLine ?_ ?_ hdressed
  · rw [flatten_painted]
    exact htext.newline_not_mem
  · rw [flatten_painted]
    exact htext.escapeByte_not_mem

/-- The pieces of a dump are its rows, with a newline behind each. -/
theorem rows_pieces (painter? : Option Painter) (base : Nat) (bytes : List Byte) :
    ((Hexdump.rows painter? base bytes).flatMap fun row => [row, "\n"]).map encode =
      (Hexdump.chunks Hexdump.rowBytes bytes).zipIdx.flatMap fun chunk =>
        [encode (Hexdump.row painter? (base + chunk.2 * Hexdump.rowBytes / 2) chunk.1)] ++
          [[newline]] := by
  rw [Hexdump.rows, List.mapIdx_eq_zipIdx_map, List.flatMap_map, List.map_flatMap]
  rfl

/-- So does a dump. -/
theorem Twins.hexdump (h : Twins start quiet p p') (base : Nat) (bytes : List Byte) :
    (p'.hexdump base bytes).1 = (p.hexdump base bytes).1 ∧
      Twins start quiet (p.hexdump base bytes).2 (p'.hexdump base bytes).2 := by
  refine h.writeAll ?_
  rw [painter?_of_color_eq_false h.plain, painter?_of_color_eq_true h.coloured, rows_pieces,
    rows_pieces]
  refine Sink.Twins.writeLines (fun chunk _ => ?_) (fun chunk _ => ?_) (fun chunk _ => ?_) h.sinks
  all_goals rw [List.flatten_singleton]
  · exact (Hexdump.isPlain_row _ _).newline_not_mem
  · exact (Hexdump.isPlain_row _ _).escapeByte_not_mem
  · rw [List.flatten_singleton]
    exact Hexdump.dressed_row h.wraps _ _

/-- **A line in colour, cell by cell**, over a sink that takes every write. The text may be any that
has no escape in it; it comes in its style, and the newline behind it in none. -/
theorem received_line (h : p.IsOpen) (hwraps : p.painter.Wraps) (style : Style) {text : String}
    (hescape : Style.escape ∉ text.toList) :
    ∃ out', ({ p with color := false }.line style text).1 = .ok () ∧
      ({ p with color := true }.line style text).1 = .ok () ∧
      ({ p with color := false }.line style text).2.sink.received.toList =
        p.sink.received.toList ++ (encode text ++ [newline]) ∧
      ({ p with color := true }.line style text).2.sink.received.toList =
        p.sink.received.toList ++ out' ∧
      shown out' = (encode text).map (⟨·, decide (p.painter.front style ≠ "")⟩) ++
        [⟨newline, false⟩] := by
  have hopen : ∀ color, ({ p with color } : Printer).IsOpen := fun _ => h
  obtain ⟨hok, -, -, hreceived⟩ := writeAll_of_isOpen (hopen false) (linePieces none style text)
  obtain ⟨hok', -, -, hreceived'⟩ :=
    writeAll_of_isOpen (hopen true) (linePieces (some p.painter) style text)
  have hnone : escapeByte ∉ encode text :=
    fun hmem => hescape (Text.Utf8.mem_encode (by decide) hmem)
  have hline : ∀ painter?, (linePieces painter? style text).flatMap encode =
      encode (style.paint painter? text) ++ [newline] := by
    intro painter?
    rw [List.flatMap_def, linePieces_eq, List.flatten_append, flatten_painted]
    rfl
  refine ⟨_, hok, hok', hreceived.trans ?_, hreceived', ?_⟩
  · rw [hline]
    rfl
  · rw [hline]
    exact ((hwraps.shows_paint style hnone).append (shows_of_not_mem (by decide))).shown_eq

end Printer

end ClockStep
