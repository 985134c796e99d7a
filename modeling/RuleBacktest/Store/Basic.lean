import RuleBacktest.Store.Row

/-!
# The store

A store holds price records, saved strategies and the runs of strategies, each
in a table of rows. There is one price record for each symbol, interval and
second; a record put in later takes the place of an earlier one.  Strategies are
listed by the time they were saved at and then by name, runs from the latest
back, and where the times agree the run recorded later comes first; times are
compared as the texts that are kept.  With a strategy its runs are deleted.
-/

namespace RuleBacktest

/-- The rows of each table in the order in which they were put in. -/
structure Store (α : Type) where
  prices : List (PriceRow α)
  strategies : List StrategyRow
  runs : List (RunRow α)
  deriving DecidableEq, Repr

variable {α : Type}

namespace Store

/-- What is not the text of a store. -/
def unreadable : Failure := .databaseQuery "file is not a database"

def cannotKeep : Failure :=
  .databaseQuery "attempt to write a readonly database"

/-- What was written is not there. -/
def lostWrite : Failure := .databaseQuery "disk I/O error"

/-- A file that is needed beside the store cannot be opened. -/
def cannotReach : Failure := .databaseQuery "unable to open database file"

/-- Another command holds the store. -/
def locked : Failure := .databaseQuery "database is locked"

def idTaken : Failure :=
  .databaseQuery "UNIQUE constraint failed: saved_strategies.id"

/-- Whether a text is too short to hold anything.  A file with such a text is an
empty store. -/
def isBlank (content : String) : Bool :=
  decide (content.utf8ByteSize ≤ 1)

def empty : Store α := ⟨[], [], []⟩

/-- Whether a row holds the record of a symbol and an interval at a time. -/
def isAt (symbol interval time : String) (row : PriceRow α) : Bool :=
  row.symbol == symbol && row.interval == interval && row.time == time

def insertRecord [Scalar α] (symbol interval : String) (s : Store α)
    (r : PriceRecord α) : Store α :=
  let kept := PriceRow.ofRecord symbol interval r
  { s with
      prices :=
        (s.prices.filter fun row => !isAt symbol interval kept.time row) ++
          [kept] }

def insertRecords [Scalar α] (s : Store α) (symbol interval : String)
    (rs : List (PriceRecord α)) : Store α :=
  rs.foldl (insertRecord symbol interval) s

/-- The records of a symbol and an interval by the text of their times. -/
def history (s : Store α) (symbol interval : String) :
    Except Failure (List (PriceRecord α)) :=
  let rows :=
    s.prices.filter fun row => row.symbol == symbol && row.interval == interval
  (rows.mergeSort fun a b => decide (a.time ≤ b.time)).mapM PriceRow.record

/-- The store as a source of prices. -/
def source (s : Store α) : PriceSource α := fun symbol range interval =>
  (s.history symbol interval).map (range.clip PriceRecord.time)

def save (s : Store α) (t : StoredStrategy) : Except Failure (Store α) :=
  if s.strategies.any fun row => row.id == t.id then .error idTaken
  else .ok { s with strategies := s.strategies ++ [.ofStrategy t] }

def get (s : Store α) (id : String) : Except Failure StoredStrategy :=
  match s.strategies.find? fun row => row.id == id with
  | some row => row.strategy
  | none => .error (.strategyNotFound id)

def list (s : Store α) : Except Failure (List StoredStrategy) :=
  (s.strategies.mergeSort StrategyRow.listedBefore).mapM StrategyRow.strategy

/-- Takes away the strategies with an id, and counts them. -/
def deleteStrategies (s : Store α) (id : String) : Nat × Store α :=
  ((s.strategies.filter fun row => row.id == id).length,
    { s with strategies := s.strategies.filter fun row => row.id != id })

def deleteRuns (s : Store α) (id : String) : Store α :=
  { s with runs := s.runs.filter fun row => row.strategyId != id }

/-- Takes away a strategy and then its runs, or nothing at all if there is no
such strategy. -/
def delete (s : Store α) (id : String) : Except Failure (Store α) :=
  let (deleted, begun) := s.deleteStrategies id
  if deleted = 0 then .error (.strategyNotFound id)
  else .ok (begun.deleteRuns id)

def recordRun [Scalar α] (s : Store α) (r : StrategyRun α) :
    Except Failure (Store α) := do
  let row ← RunRow.ofRun r
  .ok { s with runs := s.runs ++ [row] }

def runsOf (s : Store α) (id : String) :
    Except Failure (List (StrategyRun α)) :=
  let rows := s.runs.filter fun row => row.strategyId == id
  (rows.reverse.mergeSort fun a b => decide (b.ranAt ≤ a.ranAt)).mapM RunRow.run

end Store
end RuleBacktest
