/-
# TimeSeries.Proofs.Ingest.Joined — a text in two parts.

A text may be handed over in parts, cut at any line feed. A run on lines and then more lines is the
run on the more lines, taken up where that on the lines ended, unless that one was refused
(`storeLines_append`). Behind the first part lines have greater numbers, and that is all that tells
the second part from a text of its own (`storeLines_shift`).
-/
import TimeSeries.Proofs.Ingest
import TimeSeries.Store.Series

namespace TimeSeries.Ingest

variable {σ : Type} [PointStore σ] {clock first second : Nat → Nanos} {a b : String}

/-! ## Lines and more lines -/

/-- More lines are stored if the lines before were not refused. -/
theorem storeLines_append (policy : Policy) (clock : Nat → Nanos)
    (lines more : List (Nat × List Char)) (store : σ) (report : Report) :
    storeLines policy clock (lines ++ more) store report =
      match storeLines policy clock lines store report with
      | (store', .ok report') => storeLines policy clock more store' report'
      | (store', .error rejected) => (store', .error rejected) := by
  induction lines generalizing store report with
  | nil => rfl
  | cons line lines ih =>
    obtain ⟨number, line⟩ := line
    rw [List.cons_append, storeLines, storeLines]
    cases Line.decodeTrimmed line with
    | ok r => exact ih _ _
    | error e =>
      cases policy with
      | abort => rfl
      | skip => exact ih _ _

/-- What was reported before stands before what is reported now, and does nothing else. -/
theorem storeLines_report (policy : Policy) (clock : Nat → Nanos) (lines : List (Nat × List Char))
    (store : σ) (report : Report) :
    storeLines policy clock lines store report =
      ((storeLines policy clock lines store .empty).1,
        (storeLines policy clock lines store .empty).2.map report.append) := by
  have hempty : Report.empty.append = id := funext Report.empty_append
  rw [storeLines_eq, storeLines_eq policy clock lines store .empty, hempty, Except.map_id]
  rfl

/-! ## Lines further down -/

/-- The rejected line, `n` lines further down. -/
def Rejected.shift (n : Nat) (r : Rejected) : Rejected := { r with lineNumber := r.lineNumber + n }

/-- The report of lines that stand `n` lines further down. -/
def Report.shift (n : Nat) (r : Report) : Report :=
  { r with rejected := r.rejected.map (Rejected.shift n) }

/-- How a run ends on lines that stand `n` lines further down. -/
def shiftOutcome (n : Nat) : Except Rejected Report → Except Rejected Report
  | .ok report => .ok (report.shift n)
  | .error rejected => .error (rejected.shift n)

/-- The line with its number, `n` lines further down. -/
def shiftLine (n : Nat) (line : Nat × List Char) : Nat × List Char := (line.1 + n, line.2)

theorem Report.shift_empty (n : Nat) : empty.shift n = empty := rfl

theorem Report.shift_accept (n : Nat) (r : Report) (written : Nat) :
    (r.accept written).shift n = (r.shift n).accept written := rfl

theorem Report.shift_reject (n : Nat) (r : Report) (rejected : Rejected) :
    (r.reject rejected).shift n = (r.shift n).reject (rejected.shift n) := by
  simp [shift, reject]

/-- Lines further down are stored as they are further up, at the readings of the clock that they
have further down. -/
theorem storeLines_shift (policy : Policy) (clock : Nat → Nanos) (n : Nat)
    (lines : List (Nat × List Char)) (store : σ) (report : Report) :
    storeLines policy clock (lines.map (shiftLine n)) store (report.shift n) =
      (storeLines policy (fun k => clock (k + n)) lines store report).map id (shiftOutcome n) := by
  -- For every report, since each line leaves its mark on it; a shift goes with either mark.
  induction lines generalizing store report with
  | nil => rfl
  | cons line lines ih =>
    obtain ⟨number, line⟩ := line
    rw [List.map_cons, shiftLine, storeLines, storeLines]
    cases Line.decodeTrimmed line with
    | ok r =>
      dsimp only
      rw [← Report.shift_accept]
      exact ih _ _
    | error e =>
      cases policy with
      | abort => rfl
      | skip =>
        have hshift : (⟨number + n, String.ofList line, e⟩ : Rejected) =
            Rejected.shift n ⟨number, String.ofList line, e⟩ := rfl
        dsimp only
        rw [hshift, ← Report.shift_reject]
        exact ih _ _

theorem numberedFrom_add (number n : Nat) (lines : List (List Char)) :
    numberedFrom (number + n) lines = (numberedFrom number lines).map (shiftLine n) := by
  induction lines generalizing number with
  | nil => rfl
  | cons line lines ih =>
    rw [numberedFrom_cons, numberedFrom_cons, List.map_append, ← ih (number + 1),
      Nat.add_right_comm]
    split <;> rfl

/-! ## Two parts of a text -/

/-- The number of line feeds in a text. -/
def feeds (text : String) : Nat := text.toList.count '\n'

/-- There is one line more than there are line feeds. -/
theorem length_splitOn (s : List Char) : (s.splitOn '\n').length = s.count '\n' + 1 := by
  induction s with
  | nil => rfl
  | cons c s ih =>
    rw [List.splitOn] at ih ⊢
    rw [List.splitOnP_cons_eq_if_modifyHead, List.count_cons]
    split
    · rw [List.length_cons, ih]
    · rw [List.length_modifyHead, ih]

theorem numberedLines_joined (a b : String) :
    numberedLines (a ++ "\n" ++ b) =
      numberedLines a ++ (numberedLines b).map (shiftLine (feeds a + 1)) := by
  have hlist : (a ++ "\n" ++ b).toList = a.toList ++ '\n' :: b.toList := by simp
  rw [numberedLines_eq, hlist, List.splitOn_append_cons_self, numberedFrom_append, length_splitOn,
    numberedFrom_add, ← numberedLines_eq, ← numberedLines_eq, feeds]

/-- Each line of two parts has the reading of the clock that it has in the text of both. -/
structure SameReadings (clock first second : Nat → Nanos) (a b : String) : Prop where
  first : ∀ line ∈ numberedLines a, first line.1 = clock line.1
  second : ∀ line ∈ numberedLines b, second line.1 = clock (line.1 + (feeds a + 1))

/-- The run on a text of two parts is the run on the second, taken up where that on the first ended,
unless that one was refused. -/
theorem run_joined_eq (policy : Policy) (h : SameReadings clock first second a b) (store : σ) :
    run policy clock (a ++ "\n" ++ b) store =
      match run policy first a store with
      | (store', .ok report) => (run policy second b store').map id fun o =>
          (shiftOutcome (feeds a + 1) o).map report.append
      | (store', .error rejected) => (store', .error rejected) := by
  have hfirst : storeLines policy clock (numberedLines a) store .empty =
      run policy first a store :=
    storeLines_congr policy (fun line hline r _ => by rw [h.first line hline]) store .empty
  have hsecond : ∀ store' : σ,
      storeLines policy (fun k => clock (k + (feeds a + 1))) (numberedLines b) store' .empty =
        run policy second b store' :=
    fun store' => storeLines_congr policy (fun line hline r _ => by rw [h.second line hline])
      store' .empty
  have hshift := fun store' : σ =>
    storeLines_shift policy clock (feeds a + 1) (numberedLines b) store' .empty
  rw [run, numberedLines_joined, storeLines_append, hfirst]
  split
  · rw [storeLines_report, ← Report.shift_empty (feeds a + 1), hshift, hsecond]
    rfl
  · rfl

/-- How a run ends does not depend on the store. -/
theorem run_snd_eq (policy : Policy) (clock : Nat → Nanos) (body : String) (store store' : σ) :
    (run policy clock body store).2 = (run policy clock body store').2 := by
  rw [run_eq, run_eq]

/-- A text of two parts leaves the store that the parts leave one after the other, and both are
reported, with the lines of the second further down by those of the first. Where unreadable lines
end a run, the run on both parts is refused exactly when one of the parts is: with the line of the
first part, or else with that of the second, further down. -/
theorem run_joined (h : SameReadings clock first second a b) (store : σ) :
    (∃ storeA reportA storeB reportB,
      run .skip first a store = (storeA, .ok reportA) ∧
      run .skip second b storeA = (storeB, .ok reportB) ∧
      run .skip clock (a ++ "\n" ++ b) store = (storeB, .ok
        { lines := reportA.lines + reportB.lines
          written := reportA.written + reportB.written
          rejected := reportA.rejected ++
            reportB.rejected.map (Rejected.shift (feeds a + 1)) })) ∧
    ∀ (other : σ) rejected,
      (run .abort clock (a ++ "\n" ++ b) store).2 = .error rejected ↔
        (run .abort first a store).2 = .error rejected ∨
          (∃ report, (run .abort first a store).2 = .ok report) ∧
            ∃ rejected', (run .abort second b other).2 = .error rejected' ∧
              rejected = rejected'.shift (feeds a + 1) := by
  constructor
  · rw [run_joined_eq .skip h, run_eq .skip first]
    refine ⟨_, _, _, _, rfl, run_eq .skip second b _, ?_⟩
    dsimp only [outcome]
    rw [run_eq .skip second b]
    rfl
  · intro other rejected
    rw [run_joined_eq .abort h]
    rcases run .abort first a store with ⟨store', _ | report⟩
    · simp
    · simp only [Prod.map_snd, run_snd_eq .abort second b store' other]
      cases (run .abort second b other).2 with
      | ok report' => simp [shiftOutcome, Except.map]
      | error rejected' => simp [shiftOutcome, Except.map, eq_comm]

/-- Half a text ends with an unreadable line; the other half has one too, below a blank line. -/
def firstHalf : String := "cpu value=1 5\ncpu value"

def secondHalf : String := "cpu value=2\n\r\ncpu value=oops 6\ncpu value=3"

/-- The first two lines are read at time zero, those behind a minute later. -/
def minuteLater (number : Nat) : Nanos := if number ≤ 2 then .zero else .minute

theorem run_joined_halves :
    SameReadings minuteLater (fun _ => .zero) (fun _ => .minute) firstHalf secondHalf ∧
      ∃ storeA reportA storeB reportB,
        run .skip (fun _ => .zero) firstHalf SeriesStore.empty = (storeA, .ok reportA) ∧
        run .skip (fun _ => .minute) secondHalf storeA = (storeB, .ok reportB) ∧
        run .skip minuteLater (firstHalf ++ "\n" ++ secondHalf) SeriesStore.empty = (storeB, .ok
          { lines := reportA.lines + reportB.lines
            written := reportA.written + reportB.written
            rejected := reportA.rejected ++ reportB.rejected.map (Rejected.shift 2) }) := by
  have hsame : SameReadings minuteLater (fun _ => .zero) (fun _ => .minute) firstHalf secondHalf :=
    ⟨by decide +kernel, by decide +kernel⟩
  exact ⟨hsame, (run_joined hsame SeriesStore.empty).1⟩

end TimeSeries.Ingest
