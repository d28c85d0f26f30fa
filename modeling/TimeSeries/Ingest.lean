/-
# TimeSeries.Ingest — storing the lines of a text.

Every field of a record that has a number becomes one sample. A line that cannot be read stops the
run or is reported and left out, as the policy says; what was stored before it stays stored. The
clock gives the time of a record that has none. It is read anew for every line, so here it is a
function from the number of the line.
-/
import TimeSeries.Line.Decode
import TimeSeries.Store.Basic

namespace TimeSeries

/-! ## Records -/

/-- The samples of a record at a time that stands in for a timestamp not given. -/
def Record.samples (r : Record) (now : Nanos) : List Sample :=
  let timestamp := if r.hasTimestamp then r.timestamp else now
  r.fields.entries.filterMap fun (field, value) =>
    value.toFloat?.map fun x => ⟨r.measurement, field, x, r.tags, timestamp⟩

/-- Stores a record; the number counts its samples. -/
def Record.write {σ : Type} [PointStore σ] (r : Record) (now : Nanos) (store : σ) : σ × Nat :=
  let samples := r.samples now
  (PointStore.saveAll store samples, samples.length)

namespace Ingest

/-! ## Policies and reports -/

/-- What happens at a line that cannot be read. -/
inductive Policy
  | abort
  | skip
deriving Repr, DecidableEq

/-- A line that was left out: its number from 1, its text trimmed, and the reason. -/
structure Rejected where
  lineNumber : Nat
  line : String
  error : Line.Error
deriving Repr, DecidableEq

/-- The refusal of a whole run, as it is reported. -/
def Rejected.message (r : Rejected) : String :=
  "Line " ++ toString r.lineNumber ++ ": " ++ r.error.message

/-- The outcome of a run. -/
structure Report where
  /-- The lines that are not blank. -/
  lines : Nat
  /-- The samples saved. -/
  written : Nat
  rejected : List Rejected
deriving Repr, DecidableEq

namespace Report

/-- The report of no lines. -/
def empty : Report := ⟨0, 0, []⟩

/-- The report with one more line, of which this many samples were saved. -/
def accept (r : Report) (written : Nat) : Report :=
  { r with lines := r.lines + 1, written := r.written + written }

/-- The report with one more line, which was left out. -/
def reject (r : Report) (line : Rejected) : Report :=
  { r with lines := r.lines + 1, rejected := r.rejected ++ [line] }

end Report

/-! ## Runs -/

/-- The lines of a text that are not blank: trimmed, with their numbers counted from 1. -/
def numberedLines (body : String) : List (Nat × List Char) :=
  ((Text.lines body.toList).zipIdx 1).filterMap fun (line, number) =>
    let line := Text.trim line
    if line.isEmpty then none else some (number, line)

/-- Stores numbered lines one after the other. The store holds what was saved also when the run
is refused. -/
def storeLines {σ : Type} [PointStore σ] (policy : Policy) (clock : Nat → Nanos) :
    List (Nat × List Char) → σ → Report → σ × Except Rejected Report
  | [], store, report => (store, .ok report)
  | (number, line) :: rest, store, report =>
    match Line.decodeTrimmed line with
    | .ok record =>
      let (store, written) := record.write (clock number) store
      storeLines policy clock rest store (report.accept written)
    | .error error =>
      let rejected : Rejected := ⟨number, String.ofList line, error⟩
      match policy with
      | .abort => (store, .error rejected)
      | .skip => storeLines policy clock rest store (report.reject rejected)

/-- Stores the lines of a text. -/
def run {σ : Type} [PointStore σ] (policy : Policy) (clock : Nat → Nanos) (body : String)
    (store : σ) : σ × Except Rejected Report :=
  storeLines policy clock (numberedLines body) store .empty

end Ingest
end TimeSeries
