import SqlFederation.Error

/-!
# Text for the terminal

The lines that the command line prints: marked messages, headings, pairs and tables. No line has a
colour.
-/

namespace SqlFederation

namespace Command

/-- A message of success. -/
def success (message : String) : String := "✓ " ++ message ++ "\n"

/-- A warning. -/
def warning (message : String) : String := "⚠ " ++ message ++ "\n"

/-- A remark. -/
def info (message : String) : String := "ℹ " ++ message ++ "\n"

/-- A horizontal line. -/
def rule (width : Nat) : String := String.ofList (List.replicate width '─')

/-- A heading, underlined, with a blank line above it. -/
def heading (title : String) : String := "\n" ++ title ++ "\n" ++ rule title.length ++ "\n"

/-- A key with its value. -/
def pair (key value : String) : String := "  " ++ key ++ ": " ++ value ++ "\n"

/-- An item of a list. -/
def item (text : String) : String := "  • " ++ text ++ "\n"

/-- A row of a table. -/
def tableRow (cells : List String) : String := "  " ++ " │ ".intercalate cells ++ "\n"

/-- The head of a table with a line below it. -/
def tableHead (columns : List String) : String :=
  tableRow columns ++
    "  " ++ rule (columns.foldl (fun width c => width + c.utf8ByteSize + 3) 0) ++ "\n"

/-- A duration in its two largest units. -/
def durationText (seconds : Nat) : String :=
  if seconds < 60 then
    toString seconds ++ "s"
  else if seconds < 3600 then
    toString (seconds / 60) ++ "m " ++ toString (seconds % 60) ++ "s"
  else
    toString (seconds / 3600) ++ "h " ++ toString (seconds % 3600 / 60) ++ "m"

/-- Shards in a row. -/
def idsText (shards : List ShardId) : String :=
  ", ".intercalate (shards.map fun shard => toString shard)

end Command

end SqlFederation
