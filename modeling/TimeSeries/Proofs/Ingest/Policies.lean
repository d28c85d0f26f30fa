/-
# TimeSeries.Proofs.Ingest.Policies — a text under either policy.

Under `skip` every line of a text is accounted for (`run_skip_accounts`): it is blank, or it is read
and its samples are saved, or it is reported under its number. Under `abort` the run is the one
under `skip`, cut off before the first line that would be reported (`run_abort_eq`).
-/
import TimeSeries.Proofs.Ingest
import TimeSeries.Proofs.Store.Series

namespace TimeSeries.Ingest

open PointStore (saveAll)
open Text (trim)

variable {σ : Type} [PointStore σ] {clock : Nat → Nanos} {line : List Char}
  {lines before : List (List Char)}

/-! ## Lines that are read -/

/-- The line is read as a record. -/
def isRead (line : List Char) : Bool := (Line.decode (String.ofList line)).isOk

theorem decode_ofList (line : List Char) :
    Line.decode (String.ofList line) = Line.decodeTrimmed (trim line) := by
  rw [Line.decode, String.toList_ofList]

theorem isRead_of_ok {r : Record} (h : Line.decodeTrimmed (trim line) = .ok r) :
    isRead line = true := by
  rw [isRead, decode_ofList, h]
  rfl

theorem isRead_of_error {e : Line.Error} (h : Line.decodeTrimmed (trim line) = .error e) :
    isRead line = false := by
  rw [isRead, decode_ofList, h]
  rfl

/-- A blank line is not read. -/
theorem isRead_of_trim_eq_nil (h : trim line = []) : isRead line = false := by
  cases hline : Line.decodeTrimmed (trim line) with
  | ok r =>
    rw [h] at hline
    exact absurd hline (Line.not_decodeTrimmed_nil r)
  | error e => exact isRead_of_error hline

/-! ## Numbers of lines -/

theorem mem_numberedFrom {number k : Nat} :
    (k, line) ∈ numberedFrom number lines ↔
      ∃ i raw, lines[i]? = some raw ∧ k = number + i ∧ trim raw ≠ [] ∧ line = trim raw := by
  rw [numberedFrom, List.mem_filterMap]
  constructor
  · rintro ⟨⟨raw, j⟩, hmem, h⟩
    obtain ⟨hle, hget⟩ := List.mk_mem_zipIdx_iff_le_and_getElem?_sub.mp hmem
    by_cases hraw : trim raw = []
    · simp [hraw] at h
    · simp only [List.isEmpty_iff, hraw, if_false, Option.some.injEq, Prod.mk.injEq] at h
      obtain ⟨rfl, rfl⟩ := h
      exact ⟨j - number, raw, hget, by omega, hraw, rfl⟩
  · rintro ⟨i, raw, hget, rfl, hraw, rfl⟩
    refine ⟨(raw, number + i), List.mk_mem_zipIdx_iff_le_and_getElem?_sub.mpr ⟨by omega, ?_⟩, ?_⟩
    · rwa [Nat.add_sub_cancel_left]
    · simp [hraw]

/-- Numbers ascend, with gaps where lines are blank. -/
theorem pairwise_numberedFrom (number : Nat) (lines : List (List Char)) :
    (numberedFrom number lines).Pairwise fun a b => a.1 < b.1 := by
  induction lines generalizing number with
  | nil => exact .nil
  | cons line lines ih =>
    rw [numberedFrom_cons, List.pairwise_append]
    refine ⟨?_, ih (number + 1), ?_⟩
    · split
      · exact .nil
      · exact List.pairwise_singleton _ _
    · rintro ⟨k, text⟩ hfirst ⟨k', text'⟩ hmore
      obtain ⟨i, -, -, rfl, -⟩ := mem_numberedFrom.mp hmore
      have hk : k = number := by
        split at hfirst
        · cases hfirst
        · exact (Prod.mk.inj (List.mem_singleton.mp hfirst)).1
      show k < number + 1 + i
      omega

theorem length_numberedFrom (number : Nat) (lines : List (List Char)) :
    (numberedFrom number lines).length = lines.countP fun line => !(trim line).isEmpty := by
  induction lines generalizing number with
  | nil => rfl
  | cons line lines ih =>
    rw [numberedFrom_cons, List.length_append, ih, List.countP_cons]
    by_cases hline : trim line = []
    · simp [hline]
    · simp [hline, Nat.add_comm]

/-! ## Every line is accounted for -/

/-- A line that is not blank is read or rejected. -/
theorem length_numberedFrom_eq_add (number : Nat) (lines : List (List Char)) :
    (numberedFrom number lines).length =
      lines.countP isRead + ((numberedFrom number lines).filterMap rejection?).length := by
  induction lines generalizing number with
  | nil => rfl
  | cons line lines ih =>
    rw [numberedFrom_cons, List.length_append, ih, List.countP_cons, List.filterMap_append,
      List.length_append]
    by_cases hline : trim line = []
    · simp [hline, isRead_of_trim_eq_nil hline]
    · rw [if_neg hline]
      cases h : Line.decodeTrimmed (trim line) with
      | ok r =>
        have hrejection : rejection? (number, trim line) = none := rejection?_of_ok h
        simp [isRead_of_ok h, hrejection]
        omega
      | error e =>
        have hrejection : rejection? (number, trim line) = _ := rejection?_of_error h
        simp [isRead_of_error h, hrejection]
        omega

/-- Line by line, what is saved is what the lines that are read leave. -/
theorem exists_lineSaves (clock : Nat → Nanos) (number : Nat) (lines : List (List Char)) :
    ∃ parts, List.Forall₂ (fun line xs => LineSaves (clock line.2) line.1 xs)
        ((lines.zipIdx number).filter fun line => isRead line.1) parts ∧
      saved clock (numberedFrom number lines) = parts.flatten := by
  rw [saved_numberedFrom]
  induction lines generalizing number with
  | nil => exact ⟨[], .nil, rfl⟩
  | cons line lines ih =>
    obtain ⟨parts, hparts, hflatten⟩ := ih (number + 1)
    rw [List.zipIdx_cons, List.flatMap_cons, hflatten]
    cases h : Line.decodeTrimmed (trim line) with
    | ok r =>
      refine ⟨r.samples (clock number) :: parts, ?_, ?_⟩
      · rw [List.filter_cons_of_pos (by exact isRead_of_ok h)]
        exact .cons (lineSaves_samples h (clock number)) hparts
      · rw [lineSamples_of_ok h, List.flatten_cons]
    | error e =>
      refine ⟨parts, ?_, ?_⟩
      · rwa [List.filter_cons_of_neg (by simp [isRead_of_error h])]
      · rw [lineSamples_of_error h, List.nil_append]

/-- The lines of a text are accounted for by what is saved, line by line, and by a report. -/
structure Accounts (clock : Nat → Nanos) (lines : List (List Char)) (parts : List (List Sample))
    (report : Report) : Prop where
  /-- Each line that is read has its part, at its own reading of the clock. -/
  saves : List.Forall₂ (fun line xs => LineSaves (clock line.2) line.1 xs)
    ((lines.zipIdx 1).filter fun line => isRead line.1) parts
  /-- The lines that are not blank are counted. -/
  counted : report.lines = lines.countP fun line => !(trim line).isEmpty
  balanced : report.lines = lines.countP isRead + report.rejected.length
  written : report.written = parts.flatten.length
  ascending : (report.rejected.map Rejected.lineNumber).Pairwise (· < ·)
  /-- Of the other lines each is reported: its number, its text trimmed, and why it is not read. -/
  mem_rejected : ∀ rejected, rejected ∈ report.rejected ↔ ∃ i line, lines[i]? = some line ∧
    trim line ≠ [] ∧ Line.decode (String.ofList line) = .error rejected.error ∧
    rejected.lineNumber = i + 1 ∧ rejected.line = String.ofList (trim line)

theorem rejection?_eq_some_iff {line : Nat × List Char} {rejected : Rejected} :
    rejection? line = some rejected ↔ Line.decodeTrimmed line.2 = .error rejected.error ∧
      rejected.lineNumber = line.1 ∧ rejected.line = String.ofList line.2 := by
  obtain ⟨number, text, error⟩ := rejected
  cases h : Line.decodeTrimmed line.2 with
  | ok r => simp [rejection?_of_ok h]
  | error e =>
    simp only [rejection?_of_error h, Option.some.injEq, Rejected.mk.injEq, Except.error.injEq]
    constructor
    · rintro ⟨rfl, rfl, rfl⟩
      exact ⟨rfl, rfl, rfl⟩
    · rintro ⟨rfl, rfl, rfl⟩
      exact ⟨rfl, rfl, rfl⟩

theorem mem_filterMap_rejection? {number : Nat} {rejected : Rejected} :
    rejected ∈ (numberedFrom number lines).filterMap rejection? ↔
      ∃ i line, lines[i]? = some line ∧ trim line ≠ [] ∧
        Line.decode (String.ofList line) = .error rejected.error ∧
        rejected.lineNumber = number + i ∧ rejected.line = String.ofList (trim line) := by
  rw [List.mem_filterMap]
  constructor
  · rintro ⟨⟨k, text⟩, hmem, h⟩
    obtain ⟨i, line, hget, rfl, hline, rfl⟩ := mem_numberedFrom.mp hmem
    obtain ⟨herror, hnumber, htext⟩ := rejection?_eq_some_iff.mp h
    exact ⟨i, line, hget, hline, (decode_ofList line).trans herror, hnumber, htext⟩
  · rintro ⟨i, line, hget, hline, herror, hnumber, htext⟩
    refine ⟨(number + i, trim line), mem_numberedFrom.mpr ⟨i, line, hget, rfl, hline, rfl⟩, ?_⟩
    exact rejection?_eq_some_iff.mpr ⟨(decode_ofList line).symm.trans herror, hnumber, htext⟩

/-- A run that leaves out what it cannot read saves, in the order of the text, the samples of the
lines that it reads, whatever the store held before, and is never refused. Every line that is not
blank is either among these or is reported, and the report counts both. A store of series has grown
by as many points as are counted, for no field of a record that was read is without a number. -/
theorem run_skip_accounts (clock : Nat → Nanos) (body : String) :
    ∃ parts report,
      (∀ {σ : Type} [PointStore σ] (store : σ),
        run .skip clock body store = (saveAll store parts.flatten, .ok report)) ∧
      Accounts clock (body.toList.splitOn '\n') parts report ∧
      (∀ store : SeriesStore, (run .skip clock body store).1.size = store.size + report.written) ∧
      ∀ line r, Line.decode line = .ok r →
        ∀ field ∈ r.fields.entries, field.2.toFloat?.isSome = true := by
  obtain ⟨parts, hparts, hflatten⟩ := exists_lineSaves clock 1 (body.toList.splitOn '\n')
  have hrun : ∀ {σ : Type} [PointStore σ] (store : σ), run .skip clock body store =
      (saveAll store parts.flatten, .ok (account clock (numberedLines body))) := by
    intro σ _ store
    rw [run_eq, reached, numberedLines_eq, hflatten]
    rfl
  have hwritten : (account clock (numberedLines body)).written = parts.flatten.length := by
    rw [← hflatten, numberedLines_eq]
    rfl
  refine ⟨parts, account clock (numberedLines body), hrun, ⟨hparts, ?_, ?_, hwritten, ?_, ?_⟩,
    fun store => ?_, fun line r h field hfield => Line.isSome_toFloat?_of_decodeTrimmed h hfield⟩
  · rw [numberedLines_eq]
    exact length_numberedFrom 1 _
  · rw [numberedLines_eq]
    exact length_numberedFrom_eq_add 1 _
  · rw [numberedLines_eq, List.pairwise_map]
    refine (pairwise_numberedFrom 1 _).filterMap _ fun a b hab x hx y hy => ?_
    rw [(rejection?_eq_some_iff.mp hx).2.1, (rejection?_eq_some_iff.mp hy).2.1]
    exact hab
  · intro rejected
    rw [numberedLines_eq]
    show rejected ∈ (numberedFrom 1 _).filterMap rejection? ↔ _
    rw [mem_filterMap_rejection?]
    simp only [Nat.add_comm 1]
  · rw [hrun, hwritten]
    exact SeriesStore.size_saveAll store _

/-! ## Stopping at the first line that is not read -/

/-- All lines that are not blank are read. -/
def AllRead (lines : List (List Char)) : Prop := ∀ line ∈ lines, trim line ≠ [] → isRead line = true

instance (lines : List (List Char)) : Decidable (AllRead lines) :=
  inferInstanceAs (Decidable (∀ line ∈ lines, _))

theorem AllRead.rejection?_eq_none (h : AllRead lines) (number : Nat) :
    ∀ line ∈ numberedFrom number lines, rejection? line = none := by
  rintro ⟨k, text⟩ hmem
  obtain ⟨i, line, hget, -, hline, rfl⟩ := mem_numberedFrom.mp hmem
  cases hread : Line.decodeTrimmed (trim line) with
  | ok r => exact rejection?_of_ok hread
  | error e =>
    have htrue := h line (List.mem_of_getElem? hget) hline
    rw [isRead_of_error hread] at htrue
    cases htrue

/-- The lines of a text that a run gets through: all of them, or those before the first that is
neither blank nor read. -/
def linesReached : Policy → List (List Char) → List (List Char)
  | .skip, lines => lines
  | .abort, lines => lines.takeWhile fun line => (trim line).isEmpty || isRead line

theorem reached_numberedFrom (policy : Policy) (number : Nat) (lines : List (List Char)) :
    reached policy (numberedFrom number lines) =
      numberedFrom number (linesReached policy lines) := by
  cases policy with
  | skip => rfl
  | abort =>
    rw [linesReached]
    induction lines generalizing number with
    | nil => rfl
    | cons line lines ih =>
      rw [numberedFrom_cons]
      by_cases hline : trim line = []
      · rw [if_pos hline, List.nil_append, ih, List.takeWhile_cons_of_pos (by simp [hline]),
          numberedFrom_cons, if_pos hline, List.nil_append]
      · rw [if_neg hline, List.singleton_append]
        cases h : Line.decodeTrimmed (trim line) with
        | ok r =>
          rw [reached_cons_of_ok h, ih, List.takeWhile_cons_of_pos (by simp [isRead_of_ok h]),
            numberedFrom_cons, if_neg hline, List.singleton_append]
        | error e =>
          have hrejection : rejection? (number, trim line) = _ := rejection?_of_error h
          rw [reached, List.takeWhile_cons_of_neg (by simp [hrejection]),
            List.takeWhile_cons_of_neg (by simp [hline, isRead_of_error h])]
          rfl

/-- A run gets through lines that are all read, and then through what it reaches behind them. -/
theorem AllRead.linesReached_append (h : AllRead before) (more : List (List Char)) :
    linesReached .abort (before ++ more) = before ++ linesReached .abort more := by
  refine List.takeWhile_append_of_pos fun line hline => ?_
  by_cases hblank : trim line = []
  · simp [hblank]
  · simp [h line hline hblank]

/-- If not all lines are read, there is a first that is not. -/
theorem exists_first_unread (h : ¬ AllRead lines) : ∃ before line after error,
    lines = before ++ line :: after ∧ AllRead before ∧ trim line ≠ [] ∧
      Line.decodeTrimmed (trim line) = .error error := by
  induction lines with
  | nil => exact absurd (fun line hline => absurd hline List.not_mem_nil) h
  | cons line lines ih =>
    by_cases hfirst : trim line ≠ [] → isRead line = true
    · have hrest : ¬ AllRead lines := fun hrest => h (List.forall_mem_cons.mpr ⟨hfirst, hrest⟩)
      obtain ⟨before, bad, after, error, rfl, hbefore, hbad, herror⟩ := ih hrest
      exact ⟨line :: before, bad, after, error, rfl,
        List.forall_mem_cons.mpr ⟨hfirst, hbefore⟩, hbad, herror⟩
    · obtain ⟨hline, hread⟩ := Classical.not_imp.mp hfirst
      refine ⟨[], line, lines, ?_⟩
      cases herror : Line.decodeTrimmed (trim line) with
      | ok r => exact absurd (isRead_of_ok herror) hread
      | error e => exact ⟨e, rfl, fun line hline => absurd hline List.not_mem_nil, hline, rfl⟩

/-- No piece of a text between its line feeds has one. -/
theorem not_mem_of_mem_lines {s : List Char} (h : line ∈ Text.lines s) : '\n' ∉ line := by
  fun_induction Text.lines s generalizing line with
  | case1 =>
    rw [List.mem_singleton.mp h]
    exact List.not_mem_nil
  | case2 rest ih =>
    rcases List.mem_cons.mp h with rfl | h
    · exact List.not_mem_nil
    · exact ih h
  | case3 c rest hc hlines ih =>
    rw [List.mem_singleton.mp h]
    simpa using Ne.symm hc
  | case4 c rest hc first more hlines ih =>
    rw [hlines] at ih
    rcases List.mem_cons.mp h with rfl | h
    · simpa [Ne.symm hc] using ih List.mem_cons_self
    · exact ih (List.mem_cons_of_mem _ h)

/-- Lines joined to a text again. -/
def textOf (lines : List (List Char)) : String := String.ofList (['\n'].intercalate lines)

theorem numberedLines_textOf (h : ∀ line ∈ lines, '\n' ∉ line) :
    numberedLines (textOf lines) = numberedFrom 1 lines := by
  rw [numberedLines_eq, textOf, String.toList_ofList]
  cases lines with
  | nil => rfl
  | cons line lines => rw [List.splitOn_intercalate _ h (List.cons_ne_nil _ _)]

theorem outcome_abort_of_nil {lines : List (Nat × List Char)}
    (h : lines.filterMap rejection? = []) :
    outcome clock .abort lines = .ok (account clock lines) := by
  rw [outcome, h]

theorem outcome_abort_of_cons {lines : List (Nat × List Char)} {rejected : Rejected}
    {more : List Rejected} (h : lines.filterMap rejection? = rejected :: more) :
    outcome clock .abort lines = .error rejected := by
  rw [outcome, h]

/-- Where the lines before it are read, a line that is not read is the first to be reported, and the
lines before it are all that is reached. -/
theorem reached_outcome_of_first_unread (number : Nat) (after : List (List Char))
    {error : Line.Error} (hbefore : AllRead before) (hline : trim line ≠ [])
    (herror : Line.decodeTrimmed (trim line) = .error error) :
    reached .abort (numberedFrom number (before ++ line :: after)) = numberedFrom number before ∧
      ∃ more, (numberedFrom number (before ++ line :: after)).filterMap rejection? =
        ⟨number + before.length, String.ofList (trim line), error⟩ :: more := by
  have hrejection : rejection? (number + before.length, trim line) = _ :=
    rejection?_of_error herror
  constructor
  · rw [reached_numberedFrom, hbefore.linesReached_append, linesReached,
      List.takeWhile_cons_of_neg (by simp [hline, isRead_of_error herror]), List.append_nil]
  · refine ⟨(numberedFrom (number + before.length + 1) after).filterMap rejection?, ?_⟩
    rw [numberedFrom_append, numberedFrom_cons, if_neg hline, List.singleton_append,
      List.filterMap_append, List.filterMap_eq_nil_iff.mpr (hbefore.rejection?_eq_none number),
      List.nil_append, List.filterMap_cons_some hrejection]

/-- The run that stops is cut off at the first line that is not read. It is refused with that line,
which the run that leaves lines out reports first, and it leaves the store as that run does when it
is given the lines before. -/
structure CutOff (clock : Nat → Nanos) (body : String) (store : σ) (before : List (List Char))
    (line : List Char) (rejected : Rejected) : Prop where
  lines_eq : ∃ after, body.toList.splitOn '\n' = before ++ line :: after
  before_read : AllRead before
  not_blank : trim line ≠ []
  lineNumber_eq : rejected.lineNumber = before.length + 1
  line_eq : rejected.line = String.ofList (trim line)
  error_eq : Line.decode (String.ofList line) = .error rejected.error
  first : ∃ report more, (run .skip clock body store).2 = .ok report ∧
    report.rejected = rejected :: more
  run_eq : run .abort clock body store =
    ((run .skip clock (textOf before) store).1, .error rejected)

/-- Where all lines are read, a run that stops at the first line that it cannot read is the same as
one that leaves such lines out. Else it is cut off: nothing of the line itself is stored, and
nothing of the lines behind it. -/
theorem run_abort_eq (clock : Nat → Nanos) (body : String) (store : σ) :
    (AllRead (body.toList.splitOn '\n') →
      run .abort clock body store = run .skip clock body store) ∧
    (¬ AllRead (body.toList.splitOn '\n') →
      ∃ before line rejected, CutOff clock body store before line rejected) := by
  constructor
  · intro h
    have hnone := h.rejection?_eq_none 1
    have hreached : linesReached .abort (body.toList.splitOn '\n') = body.toList.splitOn '\n' := by
      simpa [linesReached] using h.linesReached_append []
    rw [run_eq, run_eq, numberedLines_eq, reached_numberedFrom, hreached,
      outcome_abort_of_nil (List.filterMap_eq_nil_iff.mpr hnone)]
    rfl
  · intro h
    obtain ⟨before, line, after, error, hlines, hbefore, hline, herror⟩ := exists_first_unread h
    obtain ⟨hreached, more, hrejections⟩ :=
      reached_outcome_of_first_unread 1 after hbefore hline herror
    have hfeeds : ∀ l ∈ before, '\n' ∉ l := by
      intro l hl
      refine not_mem_of_mem_lines (s := body.toList) ?_
      rw [lines_eq_splitOn, hlines]
      exact List.mem_append_left _ hl
    rw [← hlines, ← numberedLines_eq] at hreached hrejections
    refine ⟨before, line, ⟨1 + before.length, String.ofList (trim line), error⟩,
      ⟨after, hlines⟩, hbefore, hline, Nat.add_comm _ _, rfl, (decode_ofList line).trans herror,
      ?_, ?_⟩
    · rw [run_eq]
      exact ⟨account clock (numberedLines body), more, rfl, hrejections⟩
    · rw [run_eq, run_eq, hreached, outcome_abort_of_cons hrejections,
        numberedLines_textOf hfeeds]
      rfl

/-- The third line has a field that can be read before the one that cannot. -/
def fourLines : String := "\ncpu value=1 1\ncpu value=2,load=oops 2\ncpu value=3 3"

theorem run_abort_eq_fourLines :
    AllRead ("cpu value=1 1\n\r\ncpu value=3 3".toList.splitOn '\n') ∧
    run .abort (fun _ => .zero) "cpu value=1 1\n\r\ncpu value=3 3" SeriesStore.empty =
      run .skip (fun _ => .zero) "cpu value=1 1\n\r\ncpu value=3 3" SeriesStore.empty ∧
    ¬ AllRead (fourLines.toList.splitOn '\n') ∧
    ∃ before line rejected,
      CutOff (fun _ => .zero) fourLines SeriesStore.empty before line rejected := by
  have hread : AllRead ("cpu value=1 1\n\r\ncpu value=3 3".toList.splitOn '\n') := by
    decide +kernel
  have hunread : ¬ AllRead (fourLines.toList.splitOn '\n') := by decide +kernel
  exact ⟨hread, (run_abort_eq _ _ _).1 hread, hunread, (run_abort_eq _ _ _).2 hunread⟩

end TimeSeries.Ingest
