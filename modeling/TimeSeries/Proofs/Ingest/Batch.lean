/-
# TimeSeries.Proofs.Ingest.Batch — storing a text of encoded records.

Records that read back from their lines may be sent as one text: each on a line of its own, with
blank lines wherever they stand, and either kind of line end (`WritesBatch`). The lines of such a
text are the records' lines and nothing else, so that storing the text stores the records, one after
the other (`run_batch`).
-/
import TimeSeries.Line.Encode
import TimeSeries.Proofs.Ingest.Policies

namespace TimeSeries.Ingest

open Text (isBlank trim)

variable {σ : Type} [PointStore σ] {number : Nat} {r : Record} {records : List (Nat × Record)}
  {line eol text : List Char}

/-! ## Texts of records -/

/-- A line feed, or a carriage return and a line feed. -/
def IsLineEnd (eol : List Char) : Prop := eol = ['\n'] ∨ eol = ['\r', '\n']

/-- A line with nothing but blanks. -/
def IsBlankLine (line : List Char) : Prop := ∀ c ∈ line, isBlank c = true ∧ c ≠ '\n'

/-- The ways to write records as the lines of a text, from the line of a number on. Each record
comes with the number of its line, for blank lines count. The text ends with a line end, or with a
last line that has none. -/
inductive WritesBatch : Nat → List (Nat × Record) → List Char → Prop
  | rest {number : Nat} {line : List Char} (blank : IsBlankLine line) : WritesBatch number [] line
  | last {number : Nat} {r : Record} : WritesBatch number [(number, r)] (Line.encode r).toList
  | record {number : Nat} {r : Record} {records : List (Nat × Record)} {eol text : List Char}
      (ends : IsLineEnd eol) (more : WritesBatch (number + 1) records text) :
      WritesBatch number ((number, r) :: records) ((Line.encode r).toList ++ (eol ++ text))
  | blank {number : Nat} {records : List (Nat × Record)} {line eol text : List Char}
      (blank : IsBlankLine line) (ends : IsLineEnd eol)
      (more : WritesBatch (number + 1) records text) :
      WritesBatch number records (line ++ (eol ++ text))

/-- The record reads back from its line, which is a single one. -/
structure IsSendable (r : Record) : Prop where
  decode_encode : Line.decode (Line.encode r) = .ok r
  single : '\n' ∉ (Line.encode r).toList

/-! ## Their lines -/

theorem IsBlankLine.trim_eq (h : IsBlankLine line) : trim line = [] :=
  Text.trim_eq_nil fun c hc => (h c hc).1

theorem IsBlankLine.not_mem (h : IsBlankLine line) : '\n' ∉ line := fun hc => (h _ hc).2 rfl

/-- A line end is a line feed behind characters that are trimmed away. -/
theorem IsLineEnd.exists_blank (h : IsLineEnd eol) : ∃ cr, IsBlankLine cr ∧ eol = cr ++ ['\n'] := by
  rcases h with rfl | rfl
  · exact ⟨[], by simp [IsBlankLine], rfl⟩
  · refine ⟨['\r'], ?_, rfl⟩
    intro c hc
    obtain rfl := List.mem_singleton.mp hc
    decide

theorem numberedFrom_line (hline : '\n' ∉ line) (heol : IsLineEnd eol) :
    numberedFrom number ((line ++ (eol ++ text)).splitOn '\n') =
      (if trim line = [] then [] else [(number, trim line)]) ++
        numberedFrom (number + 1) (text.splitOn '\n') := by
  obtain ⟨cr, hcr, rfl⟩ := heol.exists_blank
  have hfirst : '\n' ∉ line ++ cr := by
    rw [List.mem_append, not_or]
    exact ⟨hline, hcr.not_mem⟩
  have htext : line ++ (cr ++ ['\n'] ++ text) = (line ++ cr) ++ '\n' :: text := by simp
  rw [htext, List.splitOn_append_cons_self_of_not_mem hfirst, numberedFrom_cons,
    Text.trim_append_of_isBlank fun c hc => (hcr c hc).1]

theorem numberedFrom_last (hline : '\n' ∉ line) :
    numberedFrom number (line.splitOn '\n') =
      if trim line = [] then [] else [(number, trim line)] := by
  rw [List.splitOn_eq_singleton hline, numberedFrom_cons, numberedFrom, List.zipIdx_nil,
    List.filterMap_nil, List.append_nil]

/-- The line of a record is not blank. -/
theorem IsSendable.trim_ne_nil (h : IsSendable r) : trim (Line.encode r).toList ≠ [] := by
  intro hnil
  have hread := h.decode_encode
  rw [Line.decode, hnil] at hread
  exact Line.not_decodeTrimmed_nil r hread

/-- The lines of a text of records are the lines of the records. -/
theorem WritesBatch.numberedFrom_eq (h : WritesBatch number records text)
    (hsend : ∀ p ∈ records, IsSendable p.2) :
    numberedFrom number (text.splitOn '\n') =
      records.map fun p => (p.1, trim (Line.encode p.2).toList) := by
  induction h with
  | rest blank => rw [numberedFrom_last blank.not_mem, if_pos blank.trim_eq, List.map_nil]
  | last =>
    have hr := hsend _ List.mem_cons_self
    rw [numberedFrom_last hr.single, if_neg hr.trim_ne_nil, List.map_singleton]
  | record ends more ih =>
    obtain ⟨hr, hmore⟩ := List.forall_mem_cons.mp hsend
    rw [numberedFrom_line hr.single ends, if_neg hr.trim_ne_nil, ih hmore, List.singleton_append,
      List.map_cons]
  | blank blank ends more ih =>
    rw [numberedFrom_line blank.not_mem ends, if_pos blank.trim_eq, ih hsend, List.nil_append]

/-! ## Storing them -/

/-- Stores records one after the other, each when its line is reached; the numbers count their
samples. -/
def writeAll (clock : Nat → Nanos) : List (Nat × Record) → σ → σ × List Nat
  | [], store => (store, [])
  | (number, r) :: records, store =>
    let (store, written) := r.write (clock number) store
    let (store, counts) := writeAll clock records store
    (store, written :: counts)

theorem storeLines_encoded (policy : Policy) (clock : Nat → Nanos)
    (hsend : ∀ p ∈ records, IsSendable p.2) (store : σ) (report : Report) :
    storeLines policy clock (records.map fun p => (p.1, trim (Line.encode p.2).toList)) store
        report =
      ((writeAll clock records store).1,
        .ok (report.append ⟨records.length, (writeAll clock records store).2.sum, []⟩)) := by
  induction records generalizing store report with
  | nil => exact congrArg (store, Except.ok ·) report.append_empty.symm
  | cons p records ih =>
    obtain ⟨number, r⟩ := p
    obtain ⟨hr, hmore⟩ := List.forall_mem_cons.mp hsend
    have hread : Line.decodeTrimmed (trim (Line.encode r).toList) = .ok r := hr.decode_encode
    rw [List.map_cons, storeLines]
    dsimp only
    rw [hread]
    dsimp only
    rw [ih hmore, Report.accept_eq_append, Report.append_assoc, writeAll]
    simp only [Report.append, List.length_cons, List.sum_cons, List.nil_append,
      Nat.add_comm 1]

/-- Storing a text of records is storing the records. Under either policy nothing is rejected, each
record is counted as a line, and the store is left as by the records themselves. -/
theorem run_batch (hsend : ∀ p ∈ records, IsSendable p.2) {body : String}
    (hbody : WritesBatch 1 records body.toList) (policy : Policy) (clock : Nat → Nanos)
    (store : σ) :
    run policy clock body store =
      ((writeAll clock records store).1,
        .ok ⟨records.length, (writeAll clock records store).2.sum, []⟩) := by
  rw [run, numberedLines_eq, hbody.numberedFrom_eq hsend, storeLines_encoded policy clock hsend,
    Report.empty_append]

/-- A record whose line needs no quotes. -/
def plainRecord : Record :=
  ⟨"cpu", [("host", "a")], .ofList [("value", ⟨.float, "1"⟩), ("load", ⟨.integer, "2i"⟩)],
    ⟨7, by decide, by decide⟩⟩

/-- A record whose measurement starts with a blank, which quotes keep. -/
def quotedRecord : Record := ⟨"\ta b", [], .ofList [("value", ⟨.float, "3"⟩)], .zero⟩

/-- The records on the second line of a text and on the fourth. -/
def twoRecords : List (Nat × Record) := [(2, plainRecord), (4, quotedRecord)]

/-- The text has both kinds of line end, and none behind its last line. -/
def mixedBatch : String := "\r\ncpu,host=a value=1,load=2i 7\r\n \t\n\"\ta b\" value=3"

theorem isSendable_twoRecords : ∀ p ∈ twoRecords, IsSendable p.2 := by
  intro p hp
  rcases List.mem_pair.mp hp with rfl | rfl
  · exact ⟨by decide +kernel, by decide +kernel⟩
  · exact ⟨by decide +kernel, by decide +kernel⟩

theorem writesBatch_mixedBatch : WritesBatch 1 twoRecords mixedBatch.toList := by
  have htext : mixedBatch.toList = [] ++ (['\r', '\n'] ++ ((Line.encode plainRecord).toList ++
      (['\r', '\n'] ++ ([' ', '\t'] ++ (['\n'] ++ (Line.encode quotedRecord).toList))))) := by
    decide +kernel
  have hempty : IsBlankLine [] := by simp [IsBlankLine]
  have hspaces : IsBlankLine [' ', '\t'] := by
    intro c hc
    rcases List.mem_pair.mp hc with rfl | rfl <;> decide
  rw [htext]
  exact .blank hempty (.inr rfl) (.record (.inr rfl) (.blank hspaces (.inl rfl) .last))

theorem run_batch_twoRecords :
    (∀ p ∈ twoRecords, IsSendable p.2) ∧ WritesBatch 1 twoRecords mixedBatch.toList ∧
      run .abort (fun _ => .zero) mixedBatch SeriesStore.empty =
        ((writeAll (fun _ => .zero) twoRecords SeriesStore.empty).1,
          .ok ⟨2, (writeAll (fun _ => .zero) twoRecords SeriesStore.empty).2.sum, []⟩) :=
  ⟨isSendable_twoRecords, writesBatch_mixedBatch,
    run_batch isSendable_twoRecords writesBatch_mixedBatch .abort (fun _ => .zero)
      SeriesStore.empty⟩

end TimeSeries.Ingest
