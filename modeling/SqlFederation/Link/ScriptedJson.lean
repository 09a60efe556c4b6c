import SqlFederation.Json.Decode
import SqlFederation.Link.Scripted

/-!
# Scripts in JSON

How the script of an endpoint is written down, and how the calls that it saw are.
-/

namespace SqlFederation

namespace Scripted

namespace Event

/-- What a call was about. -/
def details : Event → List Json
  | .connect | .disconnect | .commit | .rollback => []
  | .tableInfo table => [.str table]
  | .raw sql => [.str sql]
  | .set query | .count query => [query.toJson]
  | .begin level mode =>
    [.ofOption (level.map IsolationLevel.sql), .ofOption (mode.map AccessMode.sql)]
  | .sequence name => [.str name]

/-- A call of an endpoint: who was called, what for, and with what. -/
def toJson (endpoint : String) (event : Event) : Json :=
  .arr (.str endpoint :: .str event.name :: event.details)

end Event

namespace Script

/-- The texts of calls that fail. -/
def failures? (value : Json) : Option (List (String × String)) := do
  (← value.entries?).mapM fun (call, text) => do some (call, ← text.asStr?)

/-- Reads a script whose endpoint has a name unless the script gives another one. -/
def ofEntries? (name : String) (entries : List (String × Json)) : Option Script := do
  let ownName ← Json.optional entries "name" Json.asStr?
  let rows ← Json.withDefault entries "rows" [] (Json.list Row.ofJson?)
  let replies ← Json.withDefault entries "replies" [] (Json.list (Json.list Row.ofJson?))
  let affected ← Json.withDefault entries "affected" [1] (Json.list Json.asNat?)
  let failures ← Json.withDefault entries "fail" [] failures?
  let sequence ← Json.optional entries "sequence" Json.asInt?
  let schema ← Json.optional entries "schema" Json.entries?
  let dialect := match entries.lookup "dialect" with
    | none | some .null => some .sqlite
    | some value => Dialect.ofJson? value
  some {
    name := ownName.getD name
    rows := rows
    replies := replies
    affected := affected
    failures := failures
    dialect := dialect
    schema := schema.map (TableSchema.partsOf? name)
    sequence := sequence
    connected := false
    inTransaction := false }

end Script

end Scripted

end SqlFederation
