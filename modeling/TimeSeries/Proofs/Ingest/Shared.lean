/-
# TimeSeries.Proofs.Ingest.Shared — two runs in one store.

Of two runs that share a store, each may be held up between any two saves while the other goes on.
So a run is taken apart into steps that save one sample at most (`Step`). By itself it saves and
reports what `run` does (`steps_ended_iff`); beside another, the samples of both arrive in an order
that keeps each run in its own, and every such order may come about (`ends_iff`).
-/
import TimeSeries.Proofs.Ingest.Policies
import TimeSeries.Proofs.Store.Interleaving

namespace TimeSeries.Ingest

open PointStore (saveAll)
open Relation (ReflTransGen)
open SeriesStore (HoldsBoth SameAnswers)

variable {σ : Type} [PointStore σ]

/-! ## One run, step by step -/

/-- How far a run has come. -/
inductive Progress
  /-- These samples of the line that it is at are still to be saved, and these lines follow. -/
  | underway (unsaved : List Sample) (unread : List (Nat × List Char)) (report : Report)
  | ended (result : Except Rejected Report)

/-- What a run does at once, with the sample that it saves, if any. The store is touched by saves
alone. -/
inductive Step (policy : Policy) (clock : Nat → Nanos) : Progress → Option Sample → Progress → Prop
  | save {x : Sample} {unsaved : List Sample} {unread : List (Nat × List Char)} {report : Report} :
      Step policy clock (.underway (x :: unsaved) unread report) (some x)
        (.underway unsaved unread report)
  | read {number : Nat} {line : List Char} {unread : List (Nat × List Char)} {report : Report}
      {r : Record} (h : Line.decodeTrimmed line = .ok r) :
      Step policy clock (.underway [] ((number, line) :: unread) report) none
        (.underway (r.samples (clock number)) unread
          (report.accept (r.samples (clock number)).length))
  | leaveOut {number : Nat} {line : List Char} {unread : List (Nat × List Char)} {report : Report}
      {error : Line.Error} (hpolicy : policy = .skip) (h : Line.decodeTrimmed line = .error error) :
      Step policy clock (.underway [] ((number, line) :: unread) report) none
        (.underway [] unread (report.reject ⟨number, String.ofList line, error⟩))
  | refuse {number : Nat} {line : List Char} {unread : List (Nat × List Char)} {report : Report}
      {error : Line.Error} (hpolicy : policy = .abort)
      (h : Line.decodeTrimmed line = .error error) :
      Step policy clock (.underway [] ((number, line) :: unread) report) none
        (.ended (.error ⟨number, String.ofList line, error⟩))
  | finish {report : Report} : Step policy clock (.underway [] [] report) none (.ended (.ok report))

/-- Steps of a run, with the samples that they save, in order. -/
inductive Steps (policy : Policy) (clock : Nat → Nanos) : Progress → List Sample → Progress → Prop
  | refl (p : Progress) : Steps policy clock p [] p
  | head {p p' q : Progress} {sample : Option Sample} {xs : List Sample}
      (h : Step policy clock p sample p') (hs : Steps policy clock p' xs q) :
      Steps policy clock p (sample.toList ++ xs) q

section Steps

variable {policy : Policy} {clock : Nat → Nanos} {p p' q : Progress} {xs ys : List Sample}

theorem Steps.trans (h : Steps policy clock p xs p') (h' : Steps policy clock p' ys q) :
    Steps policy clock p (xs ++ ys) q := by
  induction h with
  | refl p => exact h'
  | head hstep _ ih =>
    rw [List.append_assoc]
    exact .head hstep (ih h')

/-- The first save of some steps may be told from the others. -/
theorem Steps.uncons {x : Sample} (h : Steps policy clock p (x :: xs) q) :
    ∃ p', Steps policy clock p [x] p' ∧ Steps policy clock p' xs q := by
  generalize hxs : x :: xs = l at h
  induction h with
  | refl p => cases hxs
  | @head p p' q sample ys hstep hsteps ih =>
    cases sample with
    | none =>
      obtain ⟨p'', hfirst, hmore⟩ := ih hxs
      exact ⟨p'', .head hstep hfirst, hmore⟩
    | some y =>
      cases hxs
      exact ⟨p', .head hstep (.refl p'), hsteps⟩

/-- Where a run gets from some point on if no other comes in between. -/
def Progress.complete (policy : Policy) (clock : Nat → Nanos) (store : σ) :
    Progress → σ × Except Rejected Report
  | .underway unsaved unread report =>
    storeLines policy clock unread (saveAll store unsaved) report
  | .ended result => (store, result)

/-- A step does not change where its run gets. -/
theorem Step.complete_eq {sample : Option Sample} (h : Step policy clock p sample p') (store : σ) :
    p.complete policy clock store = p'.complete policy clock (saveAll store sample.toList) := by
  cases h with
  | save => rfl
  | read h =>
    simp only [Progress.complete, storeLines, h]
    rfl
  | leaveOut hpolicy h =>
    subst hpolicy
    simp only [Progress.complete, storeLines, h]
    rfl
  | refuse hpolicy h =>
    subst hpolicy
    simp only [Progress.complete, storeLines, h]
    rfl
  | finish => rfl

theorem Steps.complete_eq (h : Steps policy clock p xs q) (store : σ) :
    p.complete policy clock store = q.complete policy clock (saveAll store xs) := by
  induction h generalizing store with
  | refl p => rfl
  | head hstep _ ih => rw [hstep.complete_eq, ih, saveAll_append]

theorem steps_save (policy : Policy) (clock : Nat → Nanos) (unsaved : List Sample)
    (unread : List (Nat × List Char)) (report : Report) :
    Steps policy clock (.underway unsaved unread report) unsaved (.underway [] unread report) := by
  induction unsaved with
  | nil => exact .refl _
  | cons x unsaved ih => exact .head .save ih

/-- A run comes to its end. -/
theorem exists_steps_ended (policy : Policy) (clock : Nat → Nanos) (unsaved : List Sample)
    (unread : List (Nat × List Char)) (report : Report) :
    ∃ xs result, Steps policy clock (.underway unsaved unread report) xs (.ended result) := by
  induction unread generalizing unsaved report with
  | nil =>
    exact ⟨_, _, (steps_save policy clock unsaved [] report).trans (.head .finish (.refl _))⟩
  | cons line unread ih =>
    obtain ⟨number, line⟩ := line
    have hsave := steps_save policy clock unsaved ((number, line) :: unread) report
    cases h : Line.decodeTrimmed line with
    | ok r =>
      obtain ⟨xs, result, hsteps⟩ := ih (r.samples (clock number))
        (report.accept (r.samples (clock number)).length)
      exact ⟨_, result, hsave.trans (.head (.read h) hsteps)⟩
    | error error =>
      cases policy with
      | abort => exact ⟨_, _, hsave.trans (.head (.refuse rfl h) (.refl _))⟩
      | skip =>
        obtain ⟨xs, result, hsteps⟩ := ih []
          (report.reject ⟨number, String.ofList line, error⟩)
        exact ⟨_, result, hsave.trans (.head (.leaveOut rfl h) hsteps)⟩

end Steps

/-! ## What a call saves -/

/-- A text that is to be stored under a policy. -/
structure Call where
  policy : Policy
  body : String

namespace Call

/-- The call has done nothing yet. -/
def start (c : Call) : Progress := .underway [] (numberedLines c.body) .empty

/-- The samples that a call saves, as a log keeps them. -/
def rows (c : Call) (clock : Nat → Nanos) : List Sample :=
  (run c.policy clock c.body (Log.mk [])).1.samples

/-- The report or the refusal that a call ends with. -/
def result (c : Call) (clock : Nat → Nanos) : Except Rejected Report :=
  (run c.policy clock c.body (Log.mk [])).2

end Call

theorem saveAll_log (log : Log) (xs : List Sample) : saveAll log xs = ⟨log.samples ++ xs⟩ := by
  induction xs generalizing log with
  | nil => rw [List.append_nil]; rfl
  | cons x xs ih =>
    rw [List.append_cons]
    exact ih ⟨log.samples ++ [x]⟩

theorem Call.run_eq (c : Call) (clock : Nat → Nanos) (store : σ) :
    run c.policy clock c.body store = (saveAll store (c.rows clock), c.result clock) := by
  rw [rows, result, Ingest.run_eq, Ingest.run_eq, saveAll_log]
  rfl

/-- Step by step a call saves the samples that it saves at once, and ends with the same result. -/
theorem steps_ended_iff {c : Call} {clock : Nat → Nanos} {xs : List Sample}
    {result : Except Rejected Report} :
    Steps c.policy clock c.start xs (.ended result) ↔
      xs = c.rows clock ∧ result = c.result clock := by
  have heq : ∀ {xs : List Sample} {result : Except Rejected Report},
      Steps c.policy clock c.start xs (.ended result) →
        xs = c.rows clock ∧ result = c.result clock := by
    intro xs result h
    have hrun : run c.policy clock c.body (Log.mk []) = (saveAll (Log.mk []) xs, result) :=
      h.complete_eq (Log.mk [])
    rw [Call.rows, Call.result, hrun, saveAll_log]
    exact ⟨rfl, rfl⟩
  refine ⟨heq, ?_⟩
  rintro ⟨rfl, rfl⟩
  obtain ⟨xs, result, h⟩ :=
    exists_steps_ended c.policy clock [] (numberedLines c.body) Report.empty
  obtain ⟨rfl, rfl⟩ := heq h
  exact h

/-! ## Lines that give their time -/

/-- The line gives its time, if it is read. -/
def IsTimed (line : List Char) : Prop :=
  ∀ r, Line.decodeTrimmed line = .ok r → r.hasTimestamp = true

instance (line : List Char) : Decidable (IsTimed line) :=
  match h : Line.decodeTrimmed line with
  | .ok r => decidable_of_iff (r.hasTimestamp = true) (by simp [IsTimed, h])
  | .error _ => .isTrue (by simp [IsTimed, h])

/-- All lines of a call give their times. -/
def Call.IsTimed (c : Call) : Prop := ∀ line ∈ numberedLines c.body, Ingest.IsTimed line.2

instance (c : Call) : Decidable c.IsTimed :=
  inferInstanceAs (Decidable (∀ line ∈ numberedLines c.body, _))

theorem samples_congr {r : Record} (h : r.hasTimestamp = true) (now now' : Nanos) :
    r.samples now = r.samples now' := by
  rw [Record.samples, Record.samples, if_pos h, if_pos h]

/-- Where lines give their times, the clock does not matter. -/
theorem Call.IsTimed.run_congr {c : Call} (h : c.IsTimed) (clock clock' : Nat → Nanos) (store : σ) :
    run c.policy clock c.body store = run c.policy clock' c.body store :=
  storeLines_congr c.policy (fun line hline r hread => samples_congr (h line hline r hread) _ _)
    store .empty

/-! ## Two calls in one store -/

/-- Two runs and the store that they share. -/
structure Shared (σ : Type) where
  store : σ
  first : Progress
  second : Progress

/-- One of two runs takes a step. -/
inductive SharedStep (a b : Call) (clock clock' : Nat → Nanos) : Shared σ → Shared σ → Prop
  | first {store : σ} {p p' q : Progress} {sample : Option Sample}
      (h : Step a.policy clock p sample p') :
      SharedStep a b clock clock' ⟨store, p, q⟩ ⟨saveAll store sample.toList, p', q⟩
  | second {store : σ} {p q q' : Progress} {sample : Option Sample}
      (h : Step b.policy clock' q sample q') :
      SharedStep a b clock clock' ⟨store, p, q⟩ ⟨saveAll store sample.toList, p, q'⟩

section SharedStep

variable {a b : Call} {clock clock' : Nat → Nanos} {p p' q q' : Progress} {xs ys zs : List Sample}
  {s s' : Shared σ}

/-- The first run goes on while the second is held up. -/
theorem Steps.first (h : Steps a.policy clock p xs p') (store : σ) (q : Progress) :
    ReflTransGen (SharedStep a b clock clock') ⟨store, p, q⟩ ⟨saveAll store xs, p', q⟩ := by
  induction h generalizing store with
  | refl p => exact .refl
  | head hstep _ ih =>
    rw [saveAll_append]
    exact .head (.first hstep) (ih _)

theorem Steps.second (h : Steps b.policy clock' q ys q') (store : σ) (p : Progress) :
    ReflTransGen (SharedStep a b clock clock') ⟨store, p, q⟩ ⟨saveAll store ys, p, q'⟩ := by
  induction h generalizing store with
  | refl q => exact .refl
  | head hstep _ ih =>
    rw [saveAll_append]
    exact .head (.second hstep) (ih _)

/-- Taken apart, the steps of two runs are steps of each, and the samples in the store are those of
both, interleaved. -/
theorem exists_interleaving (h : ReflTransGen (SharedStep a b clock clock') s s') :
    ∃ xs ys zs, Steps a.policy clock s.first xs s'.first ∧
      Steps b.policy clock' s.second ys s'.second ∧ Interleaves xs ys zs ∧
      s'.store = saveAll s.store zs := by
  induction h using ReflTransGen.head_induction_on with
  | refl => exact ⟨[], [], [], .refl _, .refl _, .nil, rfl⟩
  | head hstep _ ih =>
    obtain ⟨xs, ys, zs, hfirst, hsecond, hzs, hstore⟩ := ih
    cases hstep with
    | first h =>
      refine ⟨_, ys, _, .head h hfirst, hsecond, hzs.append_left _, ?_⟩
      rw [hstore, saveAll_append]
    | second h =>
      refine ⟨xs, _, _, hfirst, .head h hsecond, hzs.append_right _, ?_⟩
      rw [hstore, saveAll_append]

/-- Steps of two runs may be taken in the order of any interleaving of their samples. -/
theorem sharedSteps_of_interleaving (hzs : Interleaves xs ys zs)
    (hfirst : Steps a.policy clock p xs p') (hsecond : Steps b.policy clock' q ys q') (store : σ) :
    ReflTransGen (SharedStep a b clock clock') ⟨store, p, q⟩ ⟨saveAll store zs, p', q'⟩ := by
  induction hzs generalizing store p q with
  | nil => exact (hfirst.first store q).trans (hsecond.second store p')
  | left _ ih =>
    obtain ⟨_, hx, hfirst⟩ := hfirst.uncons
    exact (hx.first store q).trans (ih hfirst hsecond _)
  | right _ ih =>
    obtain ⟨_, hy, hsecond⟩ := hsecond.uncons
    exact (hy.second store p).trans (ih hfirst hsecond _)

end SharedStep

/-- Two calls that share a store may leave it like this and end with these results. Each reads the
clock when it comes to a line, so that the readings are not the same each time. -/
def Ends (store : σ) (a b : Call) (final : σ) (result result' : Except Rejected Report) : Prop :=
  ∃ clock clock', ReflTransGen (SharedStep a b clock clock') ⟨store, a.start, b.start⟩
    ⟨final, .ended result, .ended result'⟩

section Ends

variable {store final : σ} {a b : Call} {result result' : Except Rejected Report}

/-- Calls whose lines give their times save what they save alone, in any order that keeps each in
its own, and end as they do alone. -/
theorem ends_iff (ha : a.IsTimed) (hb : b.IsTimed) (clock : Nat → Nanos) :
    Ends store a b final result result' ↔
      (∃ zs, Interleaves (a.rows clock) (b.rows clock) zs ∧ final = saveAll store zs) ∧
        result = a.result clock ∧ result' = b.result clock := by
  constructor
  · rintro ⟨clock₁, clock₂, h⟩
    obtain ⟨xs, ys, zs, hfirst, hsecond, hzs, hfinal⟩ := exists_interleaving h
    obtain ⟨rfl, rfl⟩ := steps_ended_iff.mp hfirst
    obtain ⟨rfl, rfl⟩ := steps_ended_iff.mp hsecond
    rw [Call.rows, ha.run_congr clock₁ clock, Call.rows, hb.run_congr clock₂ clock] at hzs
    refine ⟨⟨zs, hzs, hfinal⟩, ?_, ?_⟩
    · rw [Call.result, ha.run_congr clock₁ clock, Call.result]
    · rw [Call.result, hb.run_congr clock₂ clock, Call.result]
  · rintro ⟨⟨zs, hzs, rfl⟩, rfl, rfl⟩
    exact ⟨clock, clock, sharedSteps_of_interleaving hzs (steps_ended_iff.mpr ⟨rfl, rfl⟩)
      (steps_ended_iff.mpr ⟨rfl, rfl⟩) store⟩

/-- One call after the other is one way to end. -/
theorem ends_sequential (ha : a.IsTimed) (hb : b.IsTimed) (clock : Nat → Nanos) :
    Ends store a b (run b.policy clock b.body (run a.policy clock a.body store).1).1
      (a.result clock) (b.result clock) := by
  refine (ends_iff ha hb clock).mpr ⟨⟨_, .append _ _, ?_⟩, rfl, rfl⟩
  rw [a.run_eq, b.run_eq, saveAll_append]

end Ends

/-- The rows of a call, line by line: what each line that is read leaves, up to the first that is
refused. -/
theorem Call.exists_lineSaves (c : Call) (clock : Nat → Nanos) :
    ∃ parts, c.rows clock = parts.flatten ∧
      List.Forall₂ (fun line xs => LineSaves (clock line.2) line.1 xs)
        (((linesReached c.policy (c.body.toList.splitOn '\n')).zipIdx 1).filter
          fun line => isRead line.1) parts := by
  obtain ⟨parts, hparts, hflatten⟩ :=
    Ingest.exists_lineSaves clock 1 (linesReached c.policy (c.body.toList.splitOn '\n'))
  refine ⟨parts, ?_, hparts⟩
  rw [rows, Ingest.run_eq, saveAll_log, List.nil_append, numberedLines_eq, reached_numberedFrom,
    hflatten]

/-- Two calls whose lines give their times share a store. However their saves come in between each
other, all samples of both are there in the end, each once, series by series in the order of time,
and those of one call and one time in its order. One call after the other is one such way; and where
the two have no measurement and time in common, no later request or statement tells the ways
apart. -/
theorem ends_shared (log : List Sample) (a b : Call) (ha : a.IsTimed) (hb : b.IsTimed)
    (clock : Nat → Nanos) :
    (∀ final result result',
      Ends (saveAll SeriesStore.empty log) a b final result result' →
        HoldsBoth log (a.rows clock) (b.rows clock) final ∧
          result = a.result clock ∧ result' = b.result clock) ∧
    Ends (saveAll SeriesStore.empty log) a b
      (run b.policy clock b.body (run a.policy clock a.body (saveAll SeriesStore.empty log)).1).1
      (a.result clock) (b.result clock) ∧
    ((∀ x ∈ a.rows clock, ∀ y ∈ b.rows clock,
        ¬ (x.measurement = y.measurement ∧ x.timestamp = y.timestamp)) →
      ∀ final₁ final₂ result₁ result₁' result₂ result₂',
        Ends (saveAll SeriesStore.empty log) a b final₁ result₁ result₁' →
        Ends (saveAll SeriesStore.empty log) a b final₂ result₂ result₂' →
          SameAnswers final₁ final₂) := by
  have hlog := SeriesStore.refines_saveAll log
  refine ⟨?_, ends_sequential ha hb clock, ?_⟩
  · intro final result result' h
    obtain ⟨⟨zs, hzs, rfl⟩, hresult⟩ := (ends_iff ha hb clock).mp h
    exact ⟨(hlog.saveAll zs).holdsBoth hzs, hresult⟩
  · intro hdisjoint final₁ final₂ _ _ _ _ h₁ h₂
    obtain ⟨⟨zs₁, hzs₁, rfl⟩, -⟩ := (ends_iff ha hb clock).mp h₁
    obtain ⟨⟨zs₂, hzs₂, rfl⟩, -⟩ := (ends_iff ha hb clock).mp h₂
    -- Both stores hold the log that has one call's samples behind the other's.
    have hrefines₁ := (hlog.saveAll zs₁).of_alike (.append_interleaving log hzs₁ hdisjoint)
    have hrefines₂ := (hlog.saveAll zs₂).of_alike (.append_interleaving log hzs₂ hdisjoint)
    exact hrefines₁.sameAnswers hrefines₂

/-- Three rows for one measurement and time, with a line between them that is left out. -/
def cpuLines : Call := ⟨.skip, "cpu value=1,load=2 5\ncpu value=oops 6\ncpu value=3 5"⟩

/-- One row for the measurement of the other call, at a time of its own, and one for its time. -/
def memLines : Call := ⟨.abort, "cpu value=4 6\nmem used=1 5"⟩

theorem ends_shared_cpu_mem :
    cpuLines.IsTimed ∧ memLines.IsTimed ∧
    (∀ x ∈ cpuLines.rows fun _ => .zero, ∀ y ∈ memLines.rows fun _ => .zero,
      ¬ (x.measurement = y.measurement ∧ x.timestamp = y.timestamp)) ∧
    (∀ final result result', Ends SeriesStore.empty cpuLines memLines final result result' →
      HoldsBoth [] (cpuLines.rows fun _ => .zero) (memLines.rows fun _ => .zero) final ∧
        result = cpuLines.result (fun _ => .zero) ∧ result' = memLines.result fun _ => .zero) ∧
    (∀ final₁ final₂ result₁ result₁' result₂ result₂',
      Ends SeriesStore.empty cpuLines memLines final₁ result₁ result₁' →
      Ends SeriesStore.empty cpuLines memLines final₂ result₂ result₂' →
        SameAnswers final₁ final₂) := by
  have hcpu : cpuLines.IsTimed := by decide +kernel
  have hmem : memLines.IsTimed := by decide +kernel
  have hdisjoint : ∀ x ∈ cpuLines.rows fun _ => .zero, ∀ y ∈ memLines.rows fun _ => .zero,
      ¬ (x.measurement = y.measurement ∧ x.timestamp = y.timestamp) := by decide +kernel
  obtain ⟨hholds, -, hsame⟩ := ends_shared [] cpuLines memLines hcpu hmem fun _ => .zero
  exact ⟨hcpu, hmem, hdisjoint, hholds, hsame hdisjoint⟩

end TimeSeries.Ingest
