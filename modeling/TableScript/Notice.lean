import TableScript.Grammar

/-!
# Notices

What a computation tells besides its answer: parts of a table that a database cannot express, a
generator that is left without a builder, scripts that cannot be mended, and profiles that are
read or skipped. A notice names the values that it writes: there is none about a column whose name
cannot be written.
-/

namespace TableScript

inductive Level where
  | info
  | warning
  | error
deriving DecidableEq

inductive Notice where
  | unsignedIgnored (grammar : Grammar) (column : Value)
  | defaultDropped (grammar : Grammar) (column : Value)
  | commentDropped (grammar : Grammar) (column : Value)
  | numberingReplaced (grammar : Grammar) (column : Value) (type : String)
  | unconfigured (dialect : Dialect) (fault : ConnectionFault)
  | ungrouped (limit : Sql.GroupingLimit)
  /-- The statements of a script to be mended do not make up the script. -/
  | uncovered
  | directoryMissing (path : String)
  | profileSkipped (path : String) (failure : Failure)
  | profilesLoaded (count : Nat) (path : String)

namespace Notice

def level : Notice → Level
  | ungrouped _ => .error
  | uncovered => .error
  | profileSkipped .. => .error
  | profilesLoaded .. => .info
  | _ => .warning

/-- The values that a notice writes. Faults and failures have their wording already. -/
def told : Notice → List Value
  | unsignedIgnored _ column => [column]
  | defaultDropped _ column => [column]
  | commentDropped _ column => [column]
  | numberingReplaced _ column _ => [column]
  | _ => []

def message (other : Failure → String) : Notice → String
  | unsignedIgnored grammar column =>
    grammar.name ++ ": ignoring unsigned on column " ++ column.written
  | defaultDropped grammar column =>
    grammar.name ++ ": dropping default on column " ++ column.written
  | commentDropped grammar column =>
    grammar.name ++ ": dropping comment on column " ++ column.written
  | numberingReplaced grammar column type =>
    grammar.name ++ ": no auto-increment type, column " ++ column.written ++ " rendered as " ++ type
  | unconfigured dialect fault =>
    "Generator unconfigured for " ++ dialect.name ++ ": " ++ fault.message
  | ungrouped limit => "Could not tokenize generated SQL for repair: " ++ limit.message
  | uncovered => "Tokenized statements do not reproduce the generated SQL"
  | directoryMissing path => "Profiles directory does not exist: " ++ path
  | profileSkipped path failure =>
    "Error loading profile " ++ path ++ ": " ++ failure.message?.getD (other failure)
  | profilesLoaded count path =>
    "Loaded " ++ Decimal.naturalText count ++ " connection profiles from " ++ path

end Notice

end TableScript
