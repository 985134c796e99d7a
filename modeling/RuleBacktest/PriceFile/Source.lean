import RuleBacktest.File.Tree
import RuleBacktest.PriceFile

/-!
# Directories of price files

A directory holds one price file for each symbol and interval, which both stand
in its name.  Where there is no file there are no data; a file that cannot be
read for another reason is a fault.
-/

namespace RuleBacktest
namespace PriceFile

def path (directory symbol interval : String) : String :=
  pathBelow directory (symbol ++ "_" ++ interval ++ ".csv")

def unreadable (path : String) (fault : FileFault) : Failure :=
  .database ("failed to read " ++ path ++ ": " ++ fault.message)

/-- The records of a symbol inside a range, out of what its file reads as. -/
def history (path symbol : String) (range : HistoryRange) :
    Except FileFault String → Except Failure (List (PriceRecord Float))
  | .ok content => (records content).map (range.clip PriceRecord.time)
  | .error .missing => .error (.noData symbol)
  | .error fault => .error (unreadable path fault)

/-- A directory as a source of prices. -/
def source (read : String → Except FileFault String) (directory : String) :
    PriceSource Float :=
  fun symbol range interval =>
    let file := path directory symbol interval
    history file symbol range (read file)

end PriceFile
end RuleBacktest
