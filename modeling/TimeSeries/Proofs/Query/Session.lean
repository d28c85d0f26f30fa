/-
# TimeSeries.Proofs.Query.Session — a session over a whole run.

A session is served call by call: statements, given as such or as text, and samples that are saved
between them. A text may be refused, a selection may have no rows, and the store may fail to be
read. What one call does is said by three projections of it: the sample that it saves, the database
that it creates and the one that it takes into use (`serve_fst`). Over a run they add up (`run_eq`),
and everything that can be seen of a session follows from them (`replies_after_run`).
-/
import TimeSeries.Query.Session
import TimeSeries.Proofs.Outcome
import TimeSeries.Proofs.Store.Replies

namespace TimeSeries.Query

/-! ## What a statement is about -/

namespace Statement

/-- The request that a statement makes of the store. -/
def request? : Statement → Option Request
  | .select s => some (.range s.measurement s.start s.stop)
  | .showMeasurements => some .measurements
  | _ => none

/-- The statement asks for something and gives no order. -/
def IsQuestion : Statement → Prop
  | .select _ | .showDatabases | .showMeasurements => True
  | .createDatabase _ | .use _ => False

/-- The database that a statement creates. -/
def created? : Statement → Option String
  | .createDatabase name => some name
  | _ => none

/-- The database that a statement takes into use. -/
def used? : Statement → Option String
  | .use database => some database
  | _ => none

end Statement

namespace Session

/-! ## Calls -/

/-- What happens to a session and its store, one after the other. -/
inductive Call
  | save (x : Sample)
  | execute (s : Statement)
  | executeText (query : String) (now : Nanos)

namespace Call

/-- The statement that a call has executed: the one given, or the one that a text is read as. -/
def statement? : Call → Option Statement
  | .save _ => none
  | .execute s => some s
  | .executeText query now => (interpret query now).toOption

/-- The sample that a call saves. -/
def sample? : Call → Option Sample
  | .save x => some x
  | _ => none

end Call

/-- The samples saved in a run, in order. -/
def saves (calls : List Call) : List Sample := calls.filterMap Call.sample?

/-- The databases created in a run, in order. -/
def created (calls : List Call) : List String :=
  calls.filterMap fun c => c.statement?.bind Statement.created?

/-- The databases taken into use in a run, in order. -/
def used (calls : List Call) : List String :=
  calls.filterMap fun c => c.statement?.bind Statement.used?

/-- What comes back from a call. The store may fail with errors of its own. -/
inductive Reply (ε : Type)
  | saved
  | answer (a : Answer)
  | refused (e : Error)
  | failed (e : ε)

namespace Reply

variable {ε : Type}

/-- The reply that an outcome is given as. -/
def ofExcept : Except Error Answer → Reply ε
  | .ok a => .answer a
  | .error e => .refused e

/-- The call came back with an error. -/
def IsFailure : Reply ε → Prop
  | .saved | .answer _ => False
  | .refused _ | .failed _ => True

end Reply

/-! ## Runs -/

/-- A store, and the session on it. -/
structure Served (σ : Type) where
  store : σ
  session : Session

variable {σ ε : Type} [PointStore σ]

/-- A session on a store that starts in a database. -/
def Served.start (store : σ) (database : String) : Served σ := ⟨store, Session.start database⟩

/-- What is left and what comes back once the session has given an outcome. -/
def Served.reply (s : Served σ) (r : Except Error Answer × Session) : Served σ × Reply ε :=
  (⟨s.store, r.2⟩, .ofExcept r.1)

/-- What a call does. `fault?` tells with which error the store fails to be read; a call that asks
for it is answered by that error alone. -/
def serve (fault? : σ → Request → Option ε) (s : Served σ) (c : Call) : Served σ × Reply ε :=
  match (c.statement?.bind Statement.request?).bind (fault? s.store) with
  | some e => (s, .failed e)
  | none =>
    match c with
    | .save x => (⟨PointStore.save s.store x, s.session⟩, .saved)
    | .execute statement => s.reply (s.session.execute s.store statement)
    | .executeText query now => s.reply (s.session.executeText s.store query now)

/-- What a run leaves. -/
def run (fault? : σ → Request → Option ε) (s : Served σ) (calls : List Call) : Served σ :=
  calls.foldl (fun s c => (serve fault? s c).1) s

/-! ## One call -/

variable {fault? : σ → Request → Option ε} {s : Served σ} {c : Call}

/-- What a statement leaves of a session. -/
theorem execute_snd (store : σ) (session : Session) (statement : Statement) :
    (execute store session statement).2 =
      ⟨statement.created?.elim session.databases session.databases.insert,
        statement.used?.getD session.current⟩ := by
  cases statement <;> rfl

/-- A question that asks the store for points gives no order to the session. -/
theorem orders_eq_none_of_request? {statement : Statement} {r : Request}
    (h : statement.request? = some r) : statement.created? = none ∧ statement.used? = none := by
  cases statement with
  | select => exact ⟨rfl, rfl⟩
  | showMeasurements => exact ⟨rfl, rfl⟩
  | showDatabases => cases h
  | createDatabase => cases h
  | use => cases h

theorem executeText_eq_execute {store : σ} {session : Session} {query : String} {now : Nanos}
    {statement : Statement} (h : interpret query now = .ok statement) :
    executeText store session query now = execute store session statement := by
  rw [executeText, h]

/-- A text adds the database that it is read to create, and no other. -/
theorem mem_databases_executeText {store : σ} {session : Session} {query : String} {now : Nanos}
    {n : String} : n ∈ (executeText store session query now).2.databases ↔
      n ∈ session.databases ∨ interpret query now = .ok (.createDatabase n) := by
  cases h : interpret query now with
  | error e =>
    rw [executeText, h]
    simp
  | ok statement =>
    rw [executeText_eq_execute h, execute_snd]
    cases statement with
    | createDatabase name =>
      simp only [Statement.created?, Option.elim, Std.TreeSet.mem_insert, Std.compare_eq_iff_eq]
      rw [or_comm, Except.ok.injEq, Statement.createDatabase.injEq]
    | _ => simp [Statement.created?]

/-- However a statement comes, it is executed unless the store fails. -/
theorem serve_of_statement {statement : Statement} (h : c.statement? = some statement) :
    serve fault? s c =
      match statement.request?.bind (fault? s.store) with
      | some e => (s, .failed e)
      | none => s.reply (execute s.store s.session statement) := by
  unfold serve
  rw [h]
  cases c with
  | save x => cases h
  | execute given =>
    obtain rfl : given = statement := Option.some.inj h
    rfl
  | executeText query now =>
    have hread : executeText s.store s.session query now = execute s.store s.session statement :=
      executeText_eq_execute (Outcome.toOption_eq_some_iff.mp h)
    rw [Option.bind_some]
    simp only [hread]

theorem Call.statement?_eq_none {query : String} {now : Nanos} {e : Error}
    (h : interpret query now = .error e) : (Call.executeText query now).statement? = none := by
  rw [Call.statement?, h]
  rfl

/-- A text that is no statement is refused, and that is all. -/
theorem serve_of_refused {query : String} {now : Nanos} {e : Error}
    (h : interpret query now = .error e) :
    serve fault? s (.executeText query now) = (s, .refused e) := by
  unfold serve
  rw [Call.statement?_eq_none h]
  show s.reply (executeText s.store s.session query now) = _
  rw [executeText, h]
  rfl

/-- There are calls of three kinds: a sample is saved, a statement executed or a text refused. -/
theorem Call.cases (c : Call) :
    (∃ x, c = .save x) ∨ (∃ statement, c.statement? = some statement) ∨
      ∃ query now e, c = .executeText query now ∧ interpret query now = .error e := by
  cases c with
  | save x => exact .inl ⟨x, rfl⟩
  | execute statement => exact .inr (.inl ⟨statement, rfl⟩)
  | executeText query now =>
    cases h : interpret query now with
    | ok statement => exact .inr (.inl ⟨statement, Outcome.toOption_eq_some_iff.mpr h⟩)
    | error e => exact .inr (.inr ⟨query, now, e, rfl, h⟩)

theorem Call.sample?_of_statement? {statement : Statement} (h : c.statement? = some statement) :
    c.sample? = none := by
  cases c with
  | save => cases h
  | execute => rfl
  | executeText => rfl

/-- What one call leaves. -/
theorem serve_fst (fault? : σ → Request → Option ε) (s : Served σ) (c : Call) :
    (serve fault? s c).1 =
      ⟨c.sample?.elim s.store (PointStore.save s.store),
        (c.statement?.bind Statement.created?).elim s.session.databases s.session.databases.insert,
        (c.statement?.bind Statement.used?).getD s.session.current⟩ := by
  rcases c.cases with ⟨x, rfl⟩ | ⟨statement, h⟩ | ⟨query, now, e, rfl, h⟩
  · rfl
  · rw [serve_of_statement h, Call.sample?_of_statement? h, h, Option.bind_some, Option.bind_some]
    split
    -- The store is asked only by questions, so a call that it fails has no order in it.
    · rename_i e hfault
      obtain ⟨r, hr, -⟩ := Option.bind_eq_some_iff.mp hfault
      obtain ⟨hcreated, hused⟩ := orders_eq_none_of_request? hr
      rw [hcreated, hused]
      rfl
    · rw [Served.reply, execute_snd]
      rfl
  · rw [serve_of_refused h, Call.statement?_eq_none h]
    rfl

/-! ## Many calls -/

theorem foldl_filterMap_cons {α β γ : Type} (f : α → Option β) (g : γ → β → γ) (x : γ) (a : α)
    (l : List α) :
    ((a :: l).filterMap f).foldl g x = (l.filterMap f).foldl g ((f a).elim x (g x)) := by
  rw [List.filterMap_cons]
  cases f a <;> rfl

theorem getLast?_filterMap_cons {α β : Type} (f : α → Option β) (x : β) (a : α) (l : List α) :
    ((a :: l).filterMap f).getLast?.getD x = (l.filterMap f).getLast?.getD ((f a).getD x) := by
  rw [List.filterMap_cons]
  cases f a with
  | none => rfl
  | some b => rw [List.getLast?_cons]; rfl

/-- What a run leaves: calls of each kind add up, whatever stands between them. -/
theorem run_eq (fault? : σ → Request → Option ε) (s : Served σ) (calls : List Call) :
    run fault? s calls =
      ⟨PointStore.saveAll s.store (saves calls),
        (created calls).foldl Std.TreeSet.insert s.session.databases,
        (used calls).getLast?.getD s.session.current⟩ := by
  induction calls generalizing s with
  | nil => rfl
  | cons c calls ih =>
    have hrun : run fault? s (c :: calls) = run fault? (serve fault? s c).1 calls := rfl
    have hsaves := foldl_filterMap_cons Call.sample? PointStore.save s.store c calls
    have hcreated := foldl_filterMap_cons (fun c => c.statement?.bind Statement.created?)
      Std.TreeSet.insert s.session.databases c calls
    have hused := getLast?_filterMap_cons (fun c => c.statement?.bind Statement.used?)
      s.session.current c calls
    rw [hrun, ih, serve_fst, PointStore.saveAll, PointStore.saveAll, saves, saves, hsaves, created,
      created, hcreated, used, used, hused]

theorem mem_foldl_insert {names : List String} {t : Std.TreeSet String} {n : String} :
    n ∈ names.foldl Std.TreeSet.insert t ↔ n ∈ t ∨ n ∈ names := by
  induction names generalizing t with
  | nil => simp
  | cons m names ih =>
    rw [List.foldl_cons, ih, Std.TreeSet.mem_insert, Std.compare_eq_iff_eq, List.mem_cons,
      @eq_comm _ m n, or_comm (a := n = m), or_assoc]

theorem mem_start_databases {d n : String} : n ∈ (Session.start d).databases ↔ n = d := by
  rw [Session.start, Std.TreeSet.mem_ofList, List.contains_iff_mem, List.mem_singleton]

/-- The databases of a run: the one that it started in, and all that were created. -/
theorem mem_databases_run {store : σ} {d n : String} {calls : List Call} :
    n ∈ (run fault? (.start store d) calls).session.databases ↔ n = d ∨ n ∈ created calls := by
  rw [run_eq, mem_foldl_insert]
  exact or_congr_left mem_start_databases

/-! ## What can be seen -/

theorem serve_fst_of_isQuestion {statement : Statement} (h : c.statement? = some statement)
    (hquestion : statement.IsQuestion) : (serve fault? s c).1 = s := by
  rw [serve_fst, h, Call.sample?_of_statement? h]
  cases statement with
  | select => rfl
  | showDatabases => rfl
  | showMeasurements => rfl
  | createDatabase => exact absurd hquestion id
  | use => exact absurd hquestion id

/-- A statement with an error is a question: an order to a session always succeeds. -/
theorem isQuestion_of_isFailure {statement : Statement} (h : c.statement? = some statement)
    (hfailure : (serve fault? s c).2.IsFailure) : statement.IsQuestion := by
  rw [serve_of_statement h] at hfailure
  cases statement with
  | select => trivial
  | showDatabases => trivial
  | showMeasurements => trivial
  | createDatabase => exact absurd hfailure id
  | use => exact absurd hfailure id

theorem serve_fst_of_isFailure (h : (serve fault? s c).2.IsFailure) : (serve fault? s c).1 = s := by
  rcases c.cases with ⟨x, rfl⟩ | ⟨statement, hread⟩ | ⟨query, now, e, rfl, hread⟩
  · exact absurd h id
  · exact serve_fst_of_isQuestion hread (isQuestion_of_isFailure hread h)
  · rw [serve_of_refused hread]

/-- Which databases there are shows only where they are asked for. -/
theorem serve_snd_eq {s' : Served σ} (hstore : s'.store = s.store)
    (h : c.statement? ≠ some .showDatabases) :
    (serve fault? s' c).2 = (serve fault? s c).2 := by
  rcases c.cases with ⟨x, rfl⟩ | ⟨statement, hread⟩ | ⟨query, now, e, rfl, hread⟩
  · rfl
  · rw [serve_of_statement hread, serve_of_statement hread, hstore]
    split
    · rfl
    · cases statement with
      | showDatabases => exact absurd hread h
      | select => rfl
      | showMeasurements => rfl
      | createDatabase => rfl
      | use => rfl
  · rw [serve_of_refused hread, serve_of_refused hread]

theorem serve_showDatabases (h : c.statement? = some .showDatabases) :
    serve fault? s c = (s, .answer (.databases s.session.databases.toList)) :=
  serve_of_statement h

/-- A session after any run of calls, on a store that may fail. It names the database that it
started in and those created since, each once and in ascending order, and it is in the one last taken
into use. Questions and calls with an error change nothing, orders to the session leave the store
alone, and no other answer depends on the databases: a run with the same samples saved, whatever
else happened in it, answers alike. -/
theorem replies_after_run (fault? : σ → Request → Option ε) (store : σ) (d : String)
    (calls : List Call) :
    let s := run fault? (.start store d) calls
    (∀ c, c.statement? = some .showDatabases →
      ∃ names, serve fault? s c = (s, .answer (.databases names)) ∧
        (names.Pairwise fun a b => Text.utf8 a < Text.utf8 b) ∧
        ∀ n, n ∈ names ↔ n = d ∨ n ∈ created calls) ∧
    s.session.current = (used calls).getLast?.getD d ∧
    (∀ c statement, c.statement? = some statement → statement.IsQuestion →
      (serve fault? s c).1 = s) ∧
    (∀ c, (serve fault? s c).2.IsFailure → (serve fault? s c).1 = s) ∧
    (∀ c, c.sample? = none → (serve fault? s c).1.store = s.store) ∧
    ∀ d' calls' c, saves calls' = saves calls → c.statement? ≠ some .showDatabases →
      (serve fault? (run fault? (.start store d') calls') c).2 = (serve fault? s c).2 := by
  intro s
  refine ⟨fun c hc => ?_, ?_, fun c statement hc => serve_fst_of_isQuestion hc,
    fun c => serve_fst_of_isFailure, fun c hc => ?_, fun d' calls' c hsaves hc => ?_⟩
  · refine ⟨s.session.databases.toList, serve_showDatabases hc, pairwise_utf8_toList _, ?_⟩
    intro n
    rw [Std.TreeSet.mem_toList]
    exact mem_databases_run
  · show (run fault? (.start store d) calls).session.current = _
    rw [run_eq]
    rfl
  · rw [serve_fst, hc]
    rfl
  · refine serve_snd_eq ?_ hc
    show _ = (run fault? (.start store d) calls).store
    rw [run_eq, run_eq, hsaves]
    rfl

/-- Orders given either way, a text that is refused, and a question that the store fails. -/
def shift : List Call :=
  [.execute (.createDatabase "metrics"), .executeText "USE other" .zero,
    .executeText "SELECT FROM" .zero, .execute .showMeasurements]

/-- The store of this run can never be read. -/
theorem replies_after_run_shift :
    let unreadable (_ : SeriesStore) (_ : Request) : Option String := some "no such table"
    let s := run unreadable (.start SeriesStore.empty "mydb") shift
    s.session.current = "other" ∧
      (Call.executeText "Show databases" .zero).statement? = some .showDatabases ∧
      ∃ names, serve unreadable s (.executeText "Show databases" .zero) =
          (s, .answer (.databases names)) ∧
        (names.Pairwise fun a b => Text.utf8 a < Text.utf8 b) ∧
        ∀ n, n ∈ names ↔ n = "mydb" ∨ n ∈ ["metrics"] := by
  intro unreadable s
  obtain ⟨hdatabases, hcurrent, -⟩ :=
    replies_after_run unreadable SeriesStore.empty "mydb" shift
  have hread : (Call.executeText "Show databases" .zero).statement? = some .showDatabases := by
    decide +kernel
  have hcreated : created shift = ["metrics"] := by decide +kernel
  have hused : used shift = ["other"] := by decide +kernel
  rw [hused, show ["other"].getLast?.getD "mydb" = "other" from rfl] at hcurrent
  rw [hcreated] at hdatabases
  have hs : s = run unreadable (.start SeriesStore.empty "mydb") shift := rfl
  rw [hs]
  exact ⟨hcurrent, hread, hdatabases _ hread⟩

end Session
end TimeSeries.Query
