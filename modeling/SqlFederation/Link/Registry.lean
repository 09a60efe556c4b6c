import SqlFederation.Link.Replicated

/-!
# The link registry

The registry knows links by name, one of which can be the default. The default may also be a link
that has no name. Names are kept sorted.
-/

namespace SqlFederation

/-- A link: a plain connection or a composition. -/
inductive Link (β : Type) where
  | single (connection : Connection (World β))
  | sharded (link : Sharded β)
  | replicated (link : Replicated β)

namespace Link

variable {β : Type}

/-- The calls of a link. -/
def connection : Link β → Connection (World β)
  | .single c => c
  | .sharded s => s.connection
  | .replicated r => r.connection

/-- The kind of a link. -/
def kind : Link β → String
  | .single _ => "single"
  | .sharded _ => "sharded"
  | .replicated _ => "replicated"

end Link

/-- The default of a registry. -/
inductive DefaultLink (β : Type) where
  /-- A registered link. -/
  | named (name : String)
  /-- A link that only the default knows. -/
  | owned (link : Link β)

/-- Links by name, and the default. -/
structure Registry (β : Type) where
  links : List (String × Link β)
  default : Option (DefaultLink β)

namespace Registry

variable {β : Type}

/-- No links. -/
def empty : Registry β := ⟨[], none⟩

/-- The names, sorted. -/
def names (registry : Registry β) : List String :=
  registry.links.map Prod.fst

/-- Is this name registered? -/
def has (registry : Registry β) (name : String) : Bool :=
  (registry.links.lookup name).isSome

/-- Puts an entry in the place of its name. -/
def insertSorted (name : String) (link : Link β) : List (String × Link β) → List (String × Link β)
  | [] => [(name, link)]
  | (other, l) :: rest =>
    if name < other then (name, link) :: (other, l) :: rest
    else (other, l) :: insertSorted name link rest

/-- Registers a link under a name that is free. -/
def register (registry : Registry β) (name : String) (link : Link β) :
    Except Error (Registry β) :=
  if registry.has name then .error (.duplicateLink name)
  else .ok { registry with links := insertSorted name link registry.links }

/-- Is this name the default? -/
def isDefault (registry : Registry β) (name : String) : Bool :=
  match registry.default with
  | some (.named other) => other == name
  | _ => false

/-- The link with a name. -/
def get (registry : Registry β) (name : String) : Except Error (Link β) :=
  match registry.links.lookup name with
  | some link => .ok link
  | none => .error (.unknownLink name)

/-- Takes a link out; a default of its name goes with it. -/
def unregister (registry : Registry β) (name : String) : Except Error (Link β × Registry β) := do
  let link ← registry.get name
  .ok (link, {
    links := registry.links.filter fun (other, _) => other != name
    default := if registry.isDefault name then none else registry.default })

/-- Makes a link without a name the default. -/
def setDefault (registry : Registry β) (link : Link β) : Registry β :=
  { registry with default := some (.owned link) }

/-- Makes a registered link the default. -/
def setDefaultName (registry : Registry β) (name : String) : Except Error (Registry β) :=
  if registry.has name then .ok { registry with default := some (.named name) }
  else .error (.unknownLink name)

/-- Clears the default, and hands it out if it has no name. -/
def dropDefault (registry : Registry β) : Option (Link β) × Registry β :=
  let owned := match registry.default with
    | some (.owned link) => some link
    | _ => none
  (owned, { registry with default := none })

/-- The name of the default. -/
def defaultName (registry : Registry β) : Option String :=
  match registry.default with
  | some (.named name) => some name
  | _ => none

/-- The default. -/
def defaultLink (registry : Registry β) : Except Error (Link β) :=
  match registry.default with
  | some (.owned link) => .ok link
  | some (.named name) => registry.get name
  | none => .error .noDefaultLink

/-- The link with a name, or the default. -/
def find (registry : Registry β) (name : Option String) : Except Error (Link β) :=
  match name with
  | some name => registry.get name
  | none => registry.defaultLink

/-- The calls of a link, connected first if that is asked for and it is not connected. -/
def resolve (registry : Registry β) (name : Option String) (autoConnect : Bool) :
    Call (World β) (Connection (World β)) := do
  let link ← Call.done (registry.find name)
  let connection := link.connection
  if autoConnect && !(← Call.reading connection.isConnected) then
    connection.connect
  return connection

/-- The sharded link with a name. -/
def sharded (registry : Registry β) (name : String) : Except Error (Sharded β) := do
  match ← registry.get name with
  | .sharded link => .ok link
  | other => .error (.config (.wrongKind name other.kind "sharded"))

/-- The replicated link with a name. -/
def replicated (registry : Registry β) (name : String) : Except Error (Replicated β) := do
  match ← registry.get name with
  | .replicated link => .ok link
  | other => .error (.config (.wrongKind name other.kind "replicated"))

/-- Disconnects every registered link that is connected, and a default without a name. -/
def disconnectAll (registry : Registry β) : Call (World β) Unit := do
  Fanout.disconnect (registry.links.map fun (_, link) => link.connection)
  match registry.default with
  | some (.owned link) => link.connection.disconnect
  | _ => pure ()

/-- Disconnects everything and forgets every link. -/
def shutdownAll (registry : Registry β) : Call (World β) (Registry β) := do
  registry.disconnectAll
  return empty

end Registry

end SqlFederation
