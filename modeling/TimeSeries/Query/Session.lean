/-
# TimeSeries.Query.Session — answering statements one after the other.

A session knows the names of databases and which one is in use. Both are bookkeeping only: points
belong to no database. Statements never change the store, and a refused one changes nothing.
-/
import TimeSeries.Query.Interpret
import TimeSeries.Query.Rows
import TimeSeries.Store.Basic
import Std.Data.TreeSet

namespace TimeSeries.Query

/-! ## Answers -/

/-- The answer to a statement. -/
inductive Answer
  | databases (names : List String)
  | measurements (names : List String)
  | acknowledged (database : String)
  | rows (measurement : String) (columns : List String) (rows : List Row)

namespace Answer

/-- The number of names or rows. -/
def size : Answer → Nat
  | .databases names => names.length
  | .measurements names => names.length
  | .acknowledged _ => 0
  | .rows _ _ rs => rs.length

/-- The times and values of an answer's rows. -/
def timeSeries : Answer → List (Nanos × Float)
  | .rows _ _ rs => rs.map fun r => (r.timestamp, r.value)
  | _ => []

end Answer

/-- The columns of rows: `time`, then every label that is not a column yet, in order. -/
def columns (rows : List Row) : List String :=
  rows.foldl (fun cs r => if r.label ∈ cs then cs else cs ++ [r.label]) ["time"]

/-! ## Sessions -/

/-- The databases named so far, and the one in use. -/
structure Session where
  databases : Std.TreeSet String
  current : String

namespace Session

/-- A session that starts in a database. -/
def start (database : String) : Session := ⟨.ofList [database], database⟩

/-- Answers a selection from a store. -/
def select {σ : Type} [PointStore σ] (store : σ) (s : Select) : Except Error Answer :=
  match s.rows (PointStore.range store s.measurement s.start s.stop) with
  | .error e => .error e
  | .ok rows => .ok (.rows s.measurement (columns rows) rows)

/-- Answers a statement. A database becomes known when it is created, not when it is used. -/
def execute {σ : Type} [PointStore σ] (store : σ) (session : Session) :
    Statement → Except Error Answer × Session
  | .showDatabases => (.ok (.databases session.databases.toList), session)
  | .showMeasurements => (.ok (.measurements (PointStore.measurements store)), session)
  | .createDatabase name =>
    (.ok (.acknowledged name), { session with databases := session.databases.insert name })
  | .use database => (.ok (.acknowledged database), { session with current := database })
  | .select s => (select store s, session)

/-- Reads a query at a time and answers it. -/
def executeText {σ : Type} [PointStore σ] (store : σ) (session : Session) (query : String)
    (now : Nanos) : Except Error Answer × Session :=
  match interpret query now with
  | .error e => (.error e, session)
  | .ok statement => execute store session statement

end Session
end TimeSeries.Query
