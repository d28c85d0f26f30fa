/-
# TimeSeries.Proofs.Query.Spans — the words of a query tile its bytes.

The walk over the bytes turns quotes and passes over breaks byte by byte, so what it takes is a
tiling of the bytes. Its words are those of the text at their places in the bytes, and no other
places tile: also where quotes never close or a break stands inside a word, nothing is left to
choose (`words_tile`).
-/
import TimeSeries.Proofs.Query.InPlace

namespace TimeSeries.Query

open Text (bytes)

variable {s : List Char} {i : Nat} {spans : List Span}

/-- The places of a word in bytes. -/
def Span.extent (w : Span) : Extent := ⟨w.start, w.stop⟩

/-- The byte is a break of ASCII. -/
def isBreakByte (b : UInt8) : Bool := decide (b ∈ bytes breaks)

theorem runs_wordSize (quoted : Bool) (bs : List UInt8) :
    Runs isBreakByte '"'.toUInt8 quoted bs (wordSize quoted bs) := by
  fun_induction wordSize quoted bs with
  | case1 quoted => exact .nil quoted
  | case2 quoted b bs h =>
    obtain ⟨hbreak, hquoted⟩ := Bool.and_eq_true_iff.mp h
    obtain rfl : quoted = false := by simpa using hquoted
    exact .stop bs hbreak
  | case3 quoted b bs h ih => exact .step (Bool.eq_false_iff.mpr h) ih

/-- The walk over the bytes from a place on tiles what stands there, and each word is cut out
between its places. -/
theorem tilesFrom_takeWords (h : takeWords s i = pure spans) :
    TilesFrom isBreakByte '"'.toUInt8 (bytes s) i (spans.map Span.extent) ∧
      ∀ w ∈ spans, Text.slice? s w.start w.stop = some w.text := by
  fun_induction takeWords s i generalizing spans with
  | case1 i hnone =>
    obtain rfl : [] = spans := Except.ok.inj (Option.some.inj h)
    exact ⟨.nil (List.getElem?_eq_none_iff.mp hnone), by simp⟩
  | case2 i b hb hbreak ih =>
    obtain ⟨htiles, htexts⟩ := ih h
    exact ⟨.skip ⟨b, hb, decide_eq_true hbreak⟩ htiles, htexts⟩
  | case3 i b hb hbreak stop =>
    rename_i ih
    obtain ⟨text, hpiece, h⟩ := Outcome.bind_eq_pure_iff.mp h
    obtain ⟨later, hlater, h⟩ := Outcome.bind_eq_pure_iff.mp h
    obtain rfl := Except.ok.inj (Option.some.inj h)
    obtain ⟨htiles, htexts⟩ := ih hlater
    have hpos := wordSize_pos (by rw [List.head?_drop]; exact hb) hbreak
    have htile := (runs_wordSize false ((bytes s).drop i)).isTile hpos
    exact ⟨.cons htile htiles, List.forall_mem_cons.mpr ⟨Text.slice?_of_piece hpiece, htexts⟩⟩

theorem eq_of_span_extents {ws vs : List Span}
    (hws : ∀ w ∈ ws, Text.slice? s w.start w.stop = some w.text)
    (hvs : ∀ v ∈ vs, Text.slice? s v.start v.stop = some v.text)
    (h : ws.map Span.extent = vs.map Span.extent) : ws = vs := by
  refine eq_of_map_eq (fun w hw v hv heq => ?_) h
  obtain ⟨hstart, hstop⟩ := Extent.mk.inj heq
  have htext : w.text = v.text := by
    apply Option.some.inj
    rw [← hws w hw, ← hvs v hv, hstart, hstop]
  show Span.mk w.text w.start w.stop = Span.mk v.text v.start v.stop
  rw [htext, hstart, hstop]

/-- The words of a text at their places in its bytes are the words that tile the bytes, each with
the text that can be cut out between its places. -/
theorem eq_map_span_words_iff :
    spans = (words s).map (Word.span s) ↔
      IsTiling isBreakByte '"'.toUInt8 (bytes s) (spans.map Span.extent) ∧
        ∀ w ∈ spans, Text.slice? s w.start w.stop = some w.text := by
  obtain ⟨htiles, hpieces⟩ := tilesFrom_takeWords (takeWords_eq s)
  constructor
  · rintro rfl
    exact ⟨htiles.isTiling, hpieces⟩
  · rintro ⟨htiling, htexts⟩
    exact eq_of_span_extents htexts hpieces (htiling.unique htiles)

example : (words "é \"b".toList).map (fun w => (w.span "é \"b".toList).extent) =
    [⟨0, 2⟩, ⟨3, 5⟩] := by
  decide +kernel

/-- The words of a text tile it, each with the text at its places, and no other list of words does.
The walk over the bytes gives up on no text: it takes the same words, and these tile the bytes, as
again no other list does. -/
theorem words_tile (s : List Char) :
    (∀ ws, ws = words s ↔
      IsTiling isBreak '"' s (ws.map Word.extent) ∧ ∀ w ∈ ws, w.text = slice s w.start w.stop) ∧
    takeWords s 0 = pure ((words s).map (Word.span s)) ∧
    ∀ spans, spans = (words s).map (Word.span s) ↔
      IsTiling isBreakByte '"'.toUInt8 (bytes s) (spans.map Span.extent) ∧
        ∀ w ∈ spans, Text.slice? s w.start w.stop = some w.text :=
  ⟨fun _ => eq_words_iff, takeWords_eq s, fun _ => eq_map_span_words_iff⟩

end TimeSeries.Query
