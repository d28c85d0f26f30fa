/-
# TimeSeries.Proofs.Ingest — what a run saves, and what it reports.

A run gets through all lines, or through those before the first that cannot be read. It saves their
samples one after the other and does nothing else to the store, so that what it saves and what it
reports are told by the lines alone (`storeLines_eq`). Lines that are blank cannot be read either;
they are passed over, but they have their numbers (`numberedFrom`). No field of a record that was
read is without a number.
-/
import TimeSeries.Ingest
import TimeSeries.Proofs.FieldValue
import TimeSeries.Proofs.Line.Grammar

namespace TimeSeries

/-! ## Records that were read -/

/-- Every field of a record that was read has a number. -/
theorem Line.isSome_toFloat?_of_decodeTrimmed {line : List Char} {r : Record}
    (h : decodeTrimmed line = .ok r) {field : String × FieldValue}
    (hfield : field ∈ r.fields.entries) : field.2.toFloat?.isSome = true := by
  obtain ⟨w, -, hw⟩ := decodeTrimmed_eq_ok_iff.mp h
  obtain ⟨p, hp⟩ := hw.exists_writesField hfield
  exact FieldValue.isSome_toFloat? hp.value_eq

/-- A line that is read holds at least the space behind its tags. -/
theorem Line.not_decodeTrimmed_nil (r : Record) : decodeTrimmed [] ≠ .ok r := by
  intro h
  obtain ⟨w, htext, -⟩ := decodeTrimmed_eq_ok_iff.mp h
  simp [WrittenLine.text, WrittenLine.tail] at htext

/-- The samples that a line leaves in a store, where `now` stands in for a time that is not given.
The line is the text of tokens that write a record, fields among them, and each key of these fields
gives one sample: keys come in the order in which they are first written, and the number is that of
the value written last. -/
def LineSaves (now : Nanos) (line : List Char) (xs : List Sample) : Prop :=
  ∃ (r : Record) (w : Line.WrittenLine) (pairs : List (String × FieldValue)),
    Line.decode (String.ofList line) = .ok r ∧ w.text = Text.trim line ∧ w.Writes r ∧
      List.Forall₂ Line.WritesField w.fields pairs ∧
      xs.map Sample.field = (pairs.map Prod.fst).eraseDups ∧
      ∀ x ∈ xs, x.measurement = r.measurement ∧ x.tags = r.tags ∧
        x.timestamp = (if r.timestamp = .zero then now else r.timestamp) ∧
        ∃ v, (pairs.reverse.find? (·.1 == x.field)).map Prod.snd = some v ∧
          v.toFloat? = some x.value

/-- A line that is read leaves the samples of its record. -/
theorem lineSaves_samples {line : List Char} {r : Record}
    (h : Line.decodeTrimmed (Text.trim line) = .ok r) (now : Nanos) :
    LineSaves now line (r.samples now) := by
  obtain ⟨w, htext, hw⟩ := Line.decodeTrimmed_eq_ok_iff.mp h
  obtain ⟨pairs, hpairs, hwritten⟩ := hw.fields
  refine ⟨r, w, pairs, ?_, htext, hw, hpairs, ?_, ?_⟩
  · rw [Line.decode, String.toList_ofList]
    exact h
  · rw [← hwritten.keys_eq, Record.samples, List.map_filterMap, Fields.keys,
      ← List.filterMap_eq_map]
    refine List.filterMap_congr fun field hfield => ?_
    obtain ⟨x, hx⟩ := Option.isSome_iff_exists.mp (Line.isSome_toFloat?_of_decodeTrimmed h hfield)
    simp only [hx]
    rfl
  · intro x hx
    obtain ⟨⟨key, v⟩, hfield, hx⟩ := List.mem_filterMap.mp hx
    obtain ⟨y, hy, rfl⟩ := Option.map_eq_some_iff.mp hx
    refine ⟨rfl, rfl, ?_, v, ?_, hy⟩
    · show (if r.hasTimestamp = true then r.timestamp else now) = _
      by_cases hzero : r.timestamp = .zero <;> simp [Record.hasTimestamp, hzero]
    · rw [← hwritten.get?_eq]
      exact Fields.get?_of_mem hfield

namespace Ingest

open PointStore (saveAll)

variable {σ : Type} [PointStore σ] {clock : Nat → Nanos} {line : Nat × List Char}
  {lines : List (Nat × List Char)}

theorem saveAll_append (store : σ) (xs ys : List Sample) :
    saveAll store (xs ++ ys) = saveAll (saveAll store xs) ys := by
  simp only [saveAll, List.foldl_append]

/-! ## The samples of lines -/

/-- The samples of a trimmed line; none if it cannot be read. -/
def lineSamples (now : Nanos) (line : List Char) : List Sample :=
  match Line.decodeTrimmed line with
  | .ok r => r.samples now
  | .error _ => []

theorem lineSamples_of_ok {now : Nanos} {line : List Char} {r : Record}
    (h : Line.decodeTrimmed line = .ok r) : lineSamples now line = r.samples now := by
  rw [lineSamples, h]

theorem lineSamples_of_error {now : Nanos} {line : List Char} {e : Line.Error}
    (h : Line.decodeTrimmed line = .error e) : lineSamples now line = [] := by
  rw [lineSamples, h]

theorem lineSamples_nil (now : Nanos) : lineSamples now [] = [] := by
  cases h : Line.decodeTrimmed [] with
  | ok r => exact absurd h (Line.not_decodeTrimmed_nil r)
  | error e => exact lineSamples_of_error h

/-- The samples of numbered lines, each line with its own reading of the clock. -/
def saved (clock : Nat → Nanos) (lines : List (Nat × List Char)) : List Sample :=
  lines.flatMap fun line => lineSamples (clock line.1) line.2

/-- What is reported of a line that cannot be read. -/
def rejection? (line : Nat × List Char) : Option Rejected :=
  match Line.decodeTrimmed line.2 with
  | .ok _ => none
  | .error e => some ⟨line.1, String.ofList line.2, e⟩

theorem rejection?_of_ok {r : Record} (h : Line.decodeTrimmed line.2 = .ok r) :
    rejection? line = none := by
  rw [rejection?, h]

theorem rejection?_of_error {e : Line.Error} (h : Line.decodeTrimmed line.2 = .error e) :
    rejection? line = some ⟨line.1, String.ofList line.2, e⟩ := by
  rw [rejection?, h]

/-! ## Reports -/

/-- The report of two runs, one after the other. -/
def Report.append (r r' : Report) : Report :=
  ⟨r.lines + r'.lines, r.written + r'.written, r.rejected ++ r'.rejected⟩

theorem Report.empty_append (r : Report) : empty.append r = r := by
  simp [append, empty]

theorem Report.append_empty (r : Report) : r.append empty = r := by
  simp [append, empty]

theorem Report.append_assoc (r r' r'' : Report) :
    (r.append r').append r'' = r.append (r'.append r'') := by
  simp [append, Nat.add_assoc]

theorem Report.accept_eq_append (r : Report) (written : Nat) :
    r.accept written = r.append ⟨1, written, []⟩ := by
  simp [accept, append]

theorem Report.reject_eq_append (r : Report) (rejected : Rejected) :
    r.reject rejected = r.append ⟨1, 0, [rejected]⟩ := by
  simp [reject, append]

/-- The report of numbered lines, where none of them ends the run. -/
def account (clock : Nat → Nanos) (lines : List (Nat × List Char)) : Report :=
  ⟨lines.length, (saved clock lines).length, lines.filterMap rejection?⟩

theorem account_cons (clock : Nat → Nanos) (line : Nat × List Char)
    (lines : List (Nat × List Char)) :
    account clock (line :: lines) = (account clock [line]).append (account clock lines) := by
  have hsaved : saved clock (line :: lines) = saved clock [line] ++ saved clock lines := by
    rw [saved, saved, saved, ← List.flatMap_append, List.singleton_append]
  have hrejected : (line :: lines).filterMap rejection? =
      [line].filterMap rejection? ++ lines.filterMap rejection? := by
    rw [← List.filterMap_append, List.singleton_append]
  rw [account, hsaved, hrejected, List.length_append, List.length_cons, Nat.add_comm lines.length]
  rfl

theorem account_of_ok {r : Record} (h : Line.decodeTrimmed line.2 = .ok r) :
    account clock [line] = ⟨1, (r.samples (clock line.1)).length, []⟩ := by
  simp [account, saved, lineSamples_of_ok h, rejection?_of_ok h]

theorem account_of_error {e : Line.Error} (h : Line.decodeTrimmed line.2 = .error e) :
    account clock [line] = ⟨1, 0, [⟨line.1, String.ofList line.2, e⟩]⟩ := by
  simp [account, saved, lineSamples_of_error h, rejection?_of_error h]

/-! ## Lines one after the other -/

/-- The lines that a run gets through: all, or those before the first that cannot be read. -/
def reached : Policy → List (Nat × List Char) → List (Nat × List Char)
  | .skip, lines => lines
  | .abort, lines => lines.takeWhile fun line => (rejection? line).isNone

/-- How a run ends: with the first line that cannot be read, if it stops there, or else with the
report of all lines. -/
def outcome (clock : Nat → Nanos) : Policy → List (Nat × List Char) → Except Rejected Report
  | .skip, lines => .ok (account clock lines)
  | .abort, lines =>
    match lines.filterMap rejection? with
    | [] => .ok (account clock lines)
    | rejected :: _ => .error rejected

theorem reached_cons_of_ok {r : Record} (h : Line.decodeTrimmed line.2 = .ok r)
    (policy : Policy) (lines : List (Nat × List Char)) :
    reached policy (line :: lines) = line :: reached policy lines := by
  cases policy with
  | skip => rfl
  | abort => rw [reached, List.takeWhile_cons_of_pos (by simp [rejection?_of_ok h]), reached]

/-- A line that is read adds to what comes behind it, under either policy. -/
theorem outcome_cons_of_ok {r : Record} (h : Line.decodeTrimmed line.2 = .ok r) (policy : Policy)
    (lines : List (Nat × List Char)) :
    outcome clock policy (line :: lines) =
      (outcome clock policy lines).map (account clock [line]).append := by
  cases policy with
  | skip => exact congrArg Except.ok (account_cons clock line lines)
  | abort =>
    simp only [outcome, List.filterMap_cons, rejection?_of_ok h]
    cases lines.filterMap rejection? with
    | nil => exact congrArg Except.ok (account_cons clock line lines)
    | cons rejected more => rfl

theorem map_append_append (report report' : Report) (o : Except Rejected Report) :
    (o.map report'.append).map report.append = o.map (report.append report').append := by
  cases o with
  | error rejected => rfl
  | ok report'' => exact congrArg Except.ok (Report.append_assoc _ _ _).symm

/-- A run saves the samples of the lines that it gets through, and how it ends does not depend on
the store. -/
theorem storeLines_eq (policy : Policy) (clock : Nat → Nanos) (lines : List (Nat × List Char))
    (store : σ) (report : Report) :
    storeLines policy clock lines store report =
      (saveAll store (saved clock (reached policy lines)),
        (outcome clock policy lines).map report.append) := by
  induction lines generalizing store report with
  | nil => cases policy <;> exact congrArg (store, Except.ok ·) report.append_empty.symm
  | cons line rest ih =>
    obtain ⟨number, line⟩ := line
    unfold storeLines
    cases h : Line.decodeTrimmed line with
    | ok r =>
      have h : Line.decodeTrimmed (number, line).2 = .ok r := h
      show storeLines policy clock rest (saveAll store (r.samples (clock number)))
        (report.accept (r.samples (clock number)).length) = _
      rw [ih, reached_cons_of_ok h, outcome_cons_of_ok h, account_of_ok h, map_append_append,
        Report.accept_eq_append, saved, saved, List.flatMap_cons, lineSamples_of_ok h,
        saveAll_append]
    | error e =>
      have h : Line.decodeTrimmed (number, line).2 = .error e := h
      cases policy with
      | abort => simp [reached, outcome, saved, rejection?_of_error h, saveAll, Except.map]
      | skip =>
        show storeLines .skip clock rest store (report.reject ⟨number, String.ofList line, e⟩) = _
        rw [ih, Report.reject_eq_append, reached, reached, saved, saved, List.flatMap_cons,
          lineSamples_of_error h, List.nil_append, outcome, outcome, account_cons,
          account_of_error h]
        exact congrArg (_, Except.ok ·) (Report.append_assoc _ _ _)

/-- The clock counts only where the samples of a line that is read are different by it. -/
theorem storeLines_congr (policy : Policy) {clock clock' : Nat → Nanos}
    (h : ∀ line ∈ lines, ∀ r, Line.decodeTrimmed line.2 = .ok r →
      r.samples (clock line.1) = r.samples (clock' line.1)) (store : σ) (report : Report) :
    storeLines policy clock lines store report = storeLines policy clock' lines store report := by
  induction lines generalizing store report with
  | nil => rfl
  | cons line lines ih =>
    obtain ⟨number, line⟩ := line
    obtain ⟨hline, hlines⟩ := List.forall_mem_cons.mp h
    unfold storeLines
    cases hread : Line.decodeTrimmed line with
    | ok r =>
      dsimp only [Record.write]
      rw [hline r hread, ih hlines]
    | error error =>
      cases policy with
      | abort => rfl
      | skip => exact ih hlines store _

theorem run_eq (policy : Policy) (clock : Nat → Nanos) (body : String) (store : σ) :
    run policy clock body store =
      (saveAll store (saved clock (reached policy (numberedLines body))),
        outcome clock policy (numberedLines body)) := by
  have hempty : Report.empty.append = id := funext Report.empty_append
  rw [run, storeLines_eq, hempty, Except.map_id]
  rfl

/-! ## The lines of a text -/

theorem lines_eq_splitOn (s : List Char) : Text.lines s = s.splitOn '\n' := by
  induction s with
  | nil => rfl
  | cons c s ih =>
    rw [List.splitOn, List.splitOnP_cons_eq_if_modifyHead]
    by_cases hc : c = '\n'
    · subst hc
      rw [Text.lines, ih]
      rfl
    · have hne := List.splitOnP_ne_nil (· == '\n') s
      rw [Text.lines.eq_3 c s (fun h => hc h), ih, if_neg (by simpa using hc), List.splitOn]
      cases hs : s.splitOnP (· == '\n') with
      | nil => exact absurd hs hne
      | cons first more => rfl

/-- The lines that are not blank, trimmed, with their numbers counted from `number`. -/
def numberedFrom (number : Nat) (lines : List (List Char)) : List (Nat × List Char) :=
  (lines.zipIdx number).filterMap fun (line, number) =>
    let line := Text.trim line
    if line.isEmpty then none else some (number, line)

theorem numberedLines_eq (body : String) :
    numberedLines body = numberedFrom 1 (body.toList.splitOn '\n') := by
  rw [numberedLines, lines_eq_splitOn]
  rfl

theorem numberedFrom_cons (number : Nat) (line : List Char) (lines : List (List Char)) :
    numberedFrom number (line :: lines) =
      (if Text.trim line = [] then [] else [(number, Text.trim line)]) ++
        numberedFrom (number + 1) lines := by
  rw [numberedFrom, List.zipIdx_cons, List.filterMap_cons]
  by_cases hline : Text.trim line = [] <;> simp [hline, numberedFrom]

theorem numberedFrom_append (number : Nat) (lines more : List (List Char)) :
    numberedFrom number (lines ++ more) =
      numberedFrom number lines ++ numberedFrom (number + lines.length) more := by
  rw [numberedFrom, List.zipIdx_append, List.filterMap_append]
  rfl

/-- Blank lines give no samples, so it does not matter that they are passed over. -/
theorem saved_numberedFrom (clock : Nat → Nanos) (number : Nat) (lines : List (List Char)) :
    saved clock (numberedFrom number lines) =
      (lines.zipIdx number).flatMap fun line =>
        lineSamples (clock line.2) (Text.trim line.1) := by
  induction lines generalizing number with
  | nil => rfl
  | cons line lines ih =>
    rw [numberedFrom_cons, List.zipIdx_cons, List.flatMap_cons, ← ih (number + 1)]
    by_cases hline : Text.trim line = [] <;> simp [hline, saved, lineSamples_nil]

/-- At a standing clock, a run that leaves out what it cannot read saves the samples of all lines of
a text, in order, and is never refused. -/
theorem run_skip (now : Nanos) (body : String) (store : σ) :
    ∃ report, run .skip (fun _ => now) body store =
      (saveAll store ((body.toList.splitOn '\n').flatMap fun line =>
        lineSamples now (Text.trim line)), .ok report) := by
  refine ⟨account (fun _ => now) (numberedLines body), ?_⟩
  rw [run_eq, reached, numberedLines_eq, saved_numberedFrom, outcome,
    ← List.flatMap_map Prod.fst fun line => lineSamples now (Text.trim line),
    List.zipIdx_map_fst]

end Ingest
end TimeSeries
