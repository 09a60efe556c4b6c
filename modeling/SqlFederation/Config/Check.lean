import SqlFederation.Config.Basic

/-!
# Which configurations make sense

Every database that a composition asks for has to be there and is used once, compositions and
databases do not share names, and the default is a link that can be asked for by name: a
composition, or a database that no composition uses.
-/

namespace SqlFederation

namespace Config

/-- Is there a database with this name? -/
def hasLink (config : Config) (name : String) : Bool :=
  (config.links.lookup name).isSome

/-- The databases that compositions ask for, each with the name of the composition. -/
def claims (config : Config) : List (String × String) :=
  config.sharded.flatMap (fun entry => entry.shards.map fun shard => (shard.link, entry.name)) ++
    config.replicated.flatMap fun entry =>
      (entry.primary :: entry.mirrors).map fun link => (link, entry.name)

/-- The names of compositions. -/
def compositionNames (config : Config) : List String :=
  config.sharded.map ShardedEntry.name ++ config.replicated.map ReplicatedEntry.name

/-- Refuses a claim on a database that is missing or used before. -/
def checkClaims (config : Config) : List String → List (String × String) → Except Error Unit
  | _, [] => .ok ()
  | used, (link, owner) :: rest =>
    if !config.hasLink link then .error (.config (.unknownChild owner link))
    else if used.contains link then .error (.config (.sharedChild link))
    else checkClaims config (link :: used) rest

/-- Refuses the name of a composition that a database or an earlier composition has. -/
def checkNames (config : Config) : List String → List String → Except Error Unit
  | _, [] => .ok ()
  | earlier, name :: rest =>
    if config.hasLink name || earlier.contains name then .error (.duplicateLink name)
    else checkNames config (name :: earlier) rest

/-- Can a link be asked for by this name? -/
def isNamed (config : Config) (name : String) : Bool :=
  config.compositionNames.contains name ||
    (config.hasLink name && !(config.claims.map Prod.fst).contains name)

/-- Refuses a default that is no link. -/
def checkDefault (config : Config) : Except Error Unit :=
  match config.default with
  | some name => if config.isNamed name then .ok () else .error (.config (.unknownDefault name))
  | none => .ok ()

/-- Refuses a configuration that makes no sense. -/
def check (config : Config) : Except Error Unit := do
  config.checkClaims [] config.claims
  config.checkNames [] config.compositionNames
  config.checkDefault

end Config

end SqlFederation
