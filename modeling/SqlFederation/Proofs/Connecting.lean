import SqlFederation.Link.Endpoints
import SqlFederation.Link.Registry
import SqlFederation.Proofs.Outcome

/-!
# Connecting on demand

`Connection.EndsAt` lists the endpoints of a link, through compositions of any depth.
`Connection.Opens` says what an endpoint owes: a connect that succeeds leaves it connected. Two
endpoints are `Apart` if to connect one leaves the other as it was. A composition counts as
connected as soon as one of its endpoints is, so a connect passes over the compositions within it
that are connected in part. Where no endpoint is connected it passes over nothing: by induction on
the composition, each child finds its own endpoints unconnected, because the children in front of it
are apart from it (`Connection.meets_of_endsAt`). `Registry.resolve_connects_all_or_nothing` says
what that means for links that are connected on demand.
-/

namespace SqlFederation

namespace Connection

variable {β α : Type} (good : World β → Prop)

/-- Does a call leave it as it was whether another link is connected? -/
def Spares (call : Call (World β) α) (other : Connection (World β)) : Prop :=
  ∀ before, call.Preserves fun w => good w ∧ other.isConnected w = before

/-- A link that is connected behind a connect that succeeds. -/
structure Opens (connection : Connection (World β)) : Prop where
  preserves : connection.connect.Preserves good
  connected : ∀ w w', good w → connection.connect.outcome w = (.ok (), w') →
    connection.isConnected w' = true

/-- Two links each of which is connected without the other. -/
def Apart (one other : Connection (World β)) : Prop :=
  Spares good one.connect other ∧ Spares good other.connect one

/-- A child of a composition with its endpoints. -/
abbrev Child (β : Type) := Connection (World β) × List (Connection (World β))

/-- The endpoints of a link: a plain one is its own, and a composition has those of its children. -/
inductive EndsAt : Connection (World β) → List (Connection (World β)) → Prop
  | plain (connection : Connection (World β)) : EndsAt connection [connection]
  | sharded (link : Sharded β) (parts : List (Child β))
    (hchildren : link.children = parts.map Prod.fst) (hparts : ∀ p ∈ parts, EndsAt p.1 p.2) :
    EndsAt link.connection (parts.flatMap Prod.snd)
  | replicated (link : Replicated β) (parts : List (Child β))
    (hchildren : link.children = parts.map Prod.fst) (hparts : ∀ p ∈ parts, EndsAt p.1 p.2) :
    EndsAt link.connection (parts.flatMap Prod.snd)

/-- What holds of the calls of a link that have to do with being connected, by its endpoints. -/
structure Meets (connect : Call (World β) Unit) (isConnected : World β → Bool)
    (ends : List (Connection (World β))) : Prop where
  preserves : connect.Preserves good
  /-- A link is connected as soon as one of its endpoints is. -/
  isConnected_eq : ∀ w, isConnected w = ends.any fun e => e.isConnected w
  /-- A connect leaves alone what to connect each of the endpoints leaves alone. -/
  spares : ∀ other, (∀ e ∈ ends, Spares good e.connect other) → Spares good connect other
  /-- A connect that finds no endpoint connected leaves all connected, if it succeeds. -/
  connected : ∀ w w', good w → (∀ e ∈ ends, e.isConnected w = false) →
    connect.outcome w = (.ok (), w') → ∀ e ∈ ends, e.isConnected w' = true

variable {good}

/-- A call that preserves the good states leaves a link alone if it does so in each of them. -/
theorem spares_of_isConnected_eq {call : Call (World β) α} {other : Connection (World β)}
    (hgood : call.Preserves good)
    (h : ∀ w, good w → other.isConnected (call.outcome w).2 = other.isConnected w) :
    Spares good call other := by
  rintro before w ⟨hw, rfl⟩
  exact ⟨hgood w hw, h w hw⟩

/-- A link that a call leaves alone is behind it as it was. -/
theorem Spares.isConnected_eq {call : Call (World β) α} {other : Connection (World β)}
    (h : Spares good call other) {w w' : World β} {result : Except Error α} (hw : good w)
    (hcall : call.outcome w = (result, w')) : other.isConnected w' = other.isConnected w := by
  have hafter := (h (other.isConnected w) w ⟨hw, rfl⟩).2
  rw [hcall] at hafter
  exact hafter

/-- An endpoint is a link of one endpoint. -/
theorem Opens.meets {connection : Connection (World β)} (h : Opens good connection) :
    Meets good connection.connect connection.isConnected [connection] where
  preserves := h.preserves
  isConnected_eq w := by rw [List.any_cons, List.any_nil, Bool.or_false]
  spares other hother := hother connection List.mem_cons_self
  connected w w' hw _ hconnect e he := by
    rw [List.mem_singleton] at he
    subst he
    exact h.connected w w' hw hconnect

end Connection

open Connection (Child Spares Apart Opens Meets EndsAt)

namespace Fanout

variable {σ : Type} {property : σ → Prop}

/-- A call under a condition preserves what the call does. -/
theorem preserves_onlyIf {condition : Connection σ → σ → Bool} {call : Connection σ → Call σ Unit}
    {child : Connection σ} (h : (call child).Preserves property) :
    (onlyIf condition call child).Preserves property := by
  have hread : (Call.reading (condition child)).Preserves property := fun _ hs => hs
  refine hread.bind fun answer => ?_
  cases answer with
  | true => exact h
  | false => exact Call.preserves_pure property ()

/-- A call to every child preserves what the call to each one does. -/
theorem preserves_each {call : Connection σ → Call σ Unit} {children : List (Connection σ)}
    (h : ∀ c ∈ children, (call c).Preserves property) :
    (each call children).Preserves property := by
  induction children with
  | nil => exact Call.preserves_pure property ()
  | cons child rest ih =>
    rw [List.forall_mem_cons] at h
    exact h.1.bind fun _ => ih h.2

/-- A connect of children preserves what the connect of each one does. -/
theorem preserves_connect {children : List (Connection σ)}
    (h : ∀ c ∈ children, c.connect.Preserves property) : (connect children).Preserves property :=
  preserves_each fun c hc => preserves_onlyIf (h c hc)

/-- A child that is not connected is connected first, and then the children behind it. -/
theorem outcome_connect_cons {child : Connection σ} {rest : List (Connection σ)} {s s' : σ}
    (hopen : child.isConnected s = false)
    (h : (connect (child :: rest)).outcome s = (.ok (), s')) :
    ∃ between, child.connect.outcome s = (.ok (), between) ∧
      (connect rest).outcome between = (.ok (), s') := by
  have hfirst : (onlyIf (fun c s => !c.isConnected s) Connection.connect child).outcome s =
      child.connect.outcome s := by
    refine (Call.outcome_bind_of_ok (Call.outcome_reading _ s)).trans ?_
    have hcondition : (fun (c : Connection σ) s => !c.isConnected s) child s = true :=
      congrArg not hopen
    rw [if_pos hcondition]
  obtain ⟨_, between, hchild, hrest⟩ := Call.exists_of_bind_ok h
  exact ⟨between, hfirst.symm.trans hchild, hrest⟩

variable {β : Type} {good : World β → Prop} {parts : List (Child β)}

/-- A connect of children leaves alone what to connect each of their endpoints leaves alone. -/
theorem spares_connect (h : ∀ p ∈ parts, Meets good p.1.connect p.1.isConnected p.2)
    {other : Connection (World β)}
    (hother : ∀ e ∈ parts.flatMap Prod.snd, Spares good e.connect other) :
    Spares good (connect (parts.map Prod.fst)) other := by
  intro before
  refine preserves_connect ?_
  rw [List.forall_mem_map]
  intro p hp
  refine (h p hp).spares other (fun e he => ?_) before
  exact hother e (List.mem_flatMap.mpr ⟨p, hp, he⟩)

/-- Children none of whose endpoints is connected are connected with all of their endpoints. -/
theorem connected_connect (h : ∀ p ∈ parts, Meets good p.1.connect p.1.isConnected p.2)
    (hapart : (parts.flatMap Prod.snd).Pairwise (Apart good)) {w w' : World β} (hw : good w)
    (hopen : ∀ e ∈ parts.flatMap Prod.snd, e.isConnected w = false)
    (hconnect : (connect (parts.map Prod.fst)).outcome w = (.ok (), w')) :
    ∀ e ∈ parts.flatMap Prod.snd, e.isConnected w' = true := by
  induction parts generalizing w with
  | nil => exact fun _ he => absurd he List.not_mem_nil
  | cons p rest ih =>
    rw [List.forall_mem_cons] at h
    rw [List.flatMap_cons] at hapart hopen ⊢
    rw [List.forall_mem_append] at hopen ⊢
    obtain ⟨-, hrest, hbetween⟩ := List.pairwise_append.mp hapart
    have hfirst : p.1.isConnected w = false := by
      rw [h.1.isConnected_eq w, List.any_eq_false]
      exact fun e he => Bool.eq_false_iff.mp (hopen.1 e he)
    rw [List.map_cons] at hconnect
    obtain ⟨between, hchild, hothers⟩ := outcome_connect_cons hfirst hconnect
    have hgood : good between := by
      have hpreserved := h.1.preserves w hw
      rwa [hchild] at hpreserved
    constructor
    · -- The children behind leave the endpoints of the first one connected.
      intro e he
      have hspared := spares_connect h.2 fun one hone => (hbetween e he one hone).2
      rw [hspared.isConnected_eq hgood hothers]
      exact h.1.connected w between hw hopen.1 hchild e he
    · -- The first child leaves the endpoints behind it unconnected.
      refine ih h.2 hrest hgood (fun e he => ?_) hothers
      have hspared := h.1.spares e fun one hone => (hbetween one hone e he).1
      rw [hspared.isConnected_eq hw hchild]
      exact hopen.2 e he

/-- Children whose endpoints are apart make a link of all of their endpoints. -/
theorem meets_connect (h : ∀ p ∈ parts, Meets good p.1.connect p.1.isConnected p.2)
    (hapart : (parts.flatMap Prod.snd).Pairwise (Apart good)) :
    Meets good (connect (parts.map Prod.fst)) (isConnected false (parts.map Prod.fst))
      (parts.flatMap Prod.snd) where
  preserves := by
    refine preserves_connect ?_
    rw [List.forall_mem_map]
    exact fun p hp => (h p hp).preserves
  isConnected_eq w := by
    show (parts.map Prod.fst).any (fun c => c.isConnected w) = _
    rw [List.any_map, List.any_flatMap, Bool.eq_iff_iff, List.any_eq_true, List.any_eq_true]
    refine exists_congr fun p => and_congr_right fun hp => ?_
    rw [← (h p hp).isConnected_eq w]
    rfl
  spares other hother := spares_connect h hother
  connected w w' hw hopen hconnect := connected_connect h hapart hw hopen hconnect

end Fanout

/-- A link meets, at any depth, what its endpoints make of it. -/
theorem Connection.meets_of_endsAt {β : Type} {good : World β → Prop}
    {connection : Connection (World β)} {ends : List (Connection (World β))}
    (h : EndsAt connection ends) (hopens : ∀ e ∈ ends, Opens good e)
    (hapart : ends.Pairwise (Apart good)) :
    Meets good connection.connect connection.isConnected ends := by
  -- The endpoints of a child are among those of the composition.
  have hchild : ∀ {parts : List (Child β)}, (∀ e ∈ parts.flatMap Prod.snd, Opens good e) →
      (parts.flatMap Prod.snd).Pairwise (Apart good) →
      ∀ p ∈ parts, (∀ e ∈ p.2, Opens good e) ∧ p.2.Pairwise (Apart good) :=
    fun hopens hapart p hp =>
      ⟨fun e he => hopens e (List.mem_flatMap.mpr ⟨p, hp, he⟩),
        (List.pairwise_flatMap.mp hapart).1 p hp⟩
  induction h with
  | plain connection => exact (hopens connection List.mem_cons_self).meets
  | sharded link parts hchildren _ ih =>
    have hall := Fanout.meets_connect
      (fun p hp => ih p hp (hchild hopens hapart p hp).1 (hchild hopens hapart p hp).2) hapart
    rw [← hchildren] at hall
    exact hall
  | replicated link parts hchildren _ ih =>
    have hall := Fanout.meets_connect
      (fun p hp => ih p hp (hchild hopens hapart p hp).1 (hchild hopens hapart p hp).2) hapart
    rw [← hchildren] at hall
    exact hall

/-! ## Databases and scripted endpoints -/

namespace Embedded

/-- A database in a file is kept there, and links stay as they are. -/
theorem Host.handles_store {host : Host} {number : Nat} {path : Path}
    (h : (host.handle number).location.path? = some path) (db : Storage.Database) :
    (host.store number db).handles = host.handles := by
  simp only [store, h]

/-- A connect makes its own link a connected one, or changes none. -/
theorem handles_connect (number : Nat) (host : Host) :
    (∃ handle : Handle, handle.connected = true ∧
      ((connect number).outcome host).2.handles = host.handles.set number handle) ∨
    (((connect number).outcome host).2.handles = host.handles ∧
      (((connect number).outcome host).1 = .ok () → (host.handle number).connected = true)) := by
  rw [connect, Call.outcome_of]
  dsimp only
  split
  · rename_i hconnected
    exact Or.inr ⟨rfl, fun _ => hconnected⟩
  · let opened := { host.handle number with connected := true, own := .empty, touched := 0 }
    split
    · exact Or.inl ⟨opened, rfl, rfl⟩
    · rename_i path hpath
      split
      · exact Or.inr ⟨rfl, nofun⟩
      · -- The file is written before the link is connected.
        let prepared : Host :=
          { host with files := (host.handle number).location.prepare host.files }
        have hfile : (prepared.handle number).location.path? = some path := hpath
        have hkept := Host.handles_store hfile
        exact Or.inl ⟨opened, rfl, congrArg (fun handles => handles.set number opened) (hkept _)⟩

end Embedded

namespace Scripted

/-- A connect makes its own script a connected one, or changes none and fails. -/
theorem scripts_connect (number : Nat) (stage : Stage) :
    (∃ script : Script, script.connected = true ∧
      ((calls number).connect.outcome stage).2.scripts = stage.scripts.set number script) ∨
    (((calls number).connect.outcome stage).2.scripts = stage.scripts ∧
      ((calls number).connect.outcome stage).1 ≠ .ok ()) := by
  let opened : Script → Except Error Unit × Script :=
    fun script => (.ok (), { script with connected := true })
  have hplay :
      (calls number).connect = (record number .connect >>= fun _ => onScript number opened) := rfl
  cases hscript : stage.scripts[number]? with
  | none =>
    have hrecord : (record number .connect).outcome stage = (.error .noEndpoints, stage) := by
      rw [record, Call.outcome_of, hscript]
    rw [hplay, Call.outcome_bind_of_error hrecord]
    exact Or.inr ⟨rfl, nofun⟩
  | some script =>
    let noted := { stage with events := (script.name, .connect) :: stage.events }
    cases hfailure : script.failures.lookup Event.connect.name with
    | some text =>
      have hrecord : (record number .connect).outcome stage =
          (.error (.query (.refused text)), noted) := by
        rw [record, Call.outcome_of, hscript]
        dsimp only
        rw [hfailure]
      rw [hplay, Call.outcome_bind_of_error hrecord]
      exact Or.inr ⟨rfl, nofun⟩
    | none =>
      have hrecord : (record number .connect).outcome stage = (.ok (), noted) := by
        rw [record, Call.outcome_of, hscript]
        dsimp only
        rw [hfailure]
      rw [hplay, Call.outcome_bind_of_ok hrecord, onScript, Call.outcome_of]
      refine Or.inl ⟨{ script with connected := true }, rfl, ?_⟩
      rw [show noted.scripts[number]? = some script from hscript]

/-- An endpoint that answers nothing in particular and is not connected. -/
def Script.quiet (name : String) : Script where
  name := name
  rows := []
  replies := []
  affected := []
  failures := []
  dialect := some .sqlite
  schema := none
  sequence := none
  connected := false
  inTransaction := false

end Scripted

namespace Endpoints

/-- So many scripted endpoints and databases. -/
def Has (scripts databases : Nat) (w : World Endpoints) : Prop :=
  w.endpoints.stage.scripts.length = scripts ∧ w.endpoints.databases.length = databases

variable {scripts databases : Nat}

/-- A database that is there is connected behind a connect that succeeds. -/
theorem opens_database {number : Nat} (h : number < databases) :
    Opens (Has scripts databases) (database number) where
  preserves w hw := by
    obtain ⟨hscripts, hdatabases⟩ := hw
    refine ⟨hscripts, ?_⟩
    show ((Embedded.connect number).outcome (host w)).2.handles.length = databases
    obtain ⟨handle, -, hset⟩ | ⟨hsame, -⟩ := Embedded.handles_connect number (host w)
    · rw [hset, List.length_set]
      exact hdatabases
    · rw [hsame]
      exact hdatabases
  connected w w' hw hconnect := by
    obtain ⟨hresult, rfl⟩ := Prod.mk.inj hconnect
    show (((Embedded.connect number).outcome (host w)).2.handles.getD number _).connected = true
    obtain ⟨handle, hconnected, hset⟩ | ⟨hsame, hconnected⟩ :=
      Embedded.handles_connect number (host w)
    · have hnumber : number < (host w).handles.length := by
        rw [show (host w).handles.length = databases from hw.2]
        exact h
      rw [hset, List.getD_eq_getElem?_getD, List.getElem?_set_self hnumber]
      exact hconnected
    · rw [hsame]
      exact hconnected hresult

/-- A scripted endpoint is connected behind a connect that succeeds. -/
theorem opens_scripted {number : Nat} (h : number < scripts) :
    Opens (Has scripts databases) (scripted number) where
  preserves w hw := by
    obtain ⟨hscripts, hdatabases⟩ := hw
    refine ⟨?_, hdatabases⟩
    show ((Scripted.calls number).connect.outcome w.endpoints.stage).2.scripts.length = scripts
    obtain ⟨script, -, hset⟩ | ⟨hsame, -⟩ := Scripted.scripts_connect number w.endpoints.stage
    · rw [hset, List.length_set]
      exact hscripts
    · rw [hsame]
      exact hscripts
  connected w w' hw hconnect := by
    obtain ⟨hresult, rfl⟩ := Prod.mk.inj hconnect
    show (((Scripted.calls number).connect.outcome w.endpoints.stage).2.scripts[number]?).any
      Scripted.Script.connected = true
    obtain ⟨script, hconnected, hset⟩ | ⟨-, hfailed⟩ :=
      Scripted.scripts_connect number w.endpoints.stage
    · have hnumber : number < w.endpoints.stage.scripts.length := by
        rw [hw.1]
        exact h
      rw [hset, List.getElem?_set_self hnumber]
      exact hconnected
    · exact absurd hresult hfailed

/-- Two databases are connected one without the other. -/
theorem apart_databases {one other : Nat} (hone : one < databases) (hother : other < databases)
    (hne : one ≠ other) : Apart (Has scripts databases) (database one) (database other) := by
  have hspares : ∀ {n m : Nat}, n < databases → n ≠ m →
      Spares (Has scripts databases) (database n).connect (database m) := by
    intro n m hn hne
    refine Connection.spares_of_isConnected_eq (opens_database hn).preserves fun w _ => ?_
    show (((Embedded.connect n).outcome (host w)).2.handles.getD m _).connected =
      ((host w).handles.getD m _).connected
    obtain ⟨handle, -, hset⟩ | ⟨hsame, -⟩ := Embedded.handles_connect n (host w)
    · rw [hset, List.getD_eq_getElem?_getD, List.getElem?_set_ne hne, List.getD_eq_getElem?_getD]
    · rw [hsame]
  exact ⟨hspares hone hne, hspares hother hne.symm⟩

/-- Two scripted endpoints are connected one without the other. -/
theorem apart_scripted {one other : Nat} (hone : one < scripts) (hother : other < scripts)
    (hne : one ≠ other) : Apart (Has scripts databases) (scripted one) (scripted other) := by
  have hspares : ∀ {n m : Nat}, n < scripts → n ≠ m →
      Spares (Has scripts databases) (scripted n).connect (scripted m) := by
    intro n m hn hne
    refine Connection.spares_of_isConnected_eq (opens_scripted hn).preserves fun w _ => ?_
    show (((Scripted.calls n).connect.outcome w.endpoints.stage).2.scripts[m]?).any _ =
      (w.endpoints.stage.scripts[m]?).any _
    obtain ⟨script, -, hset⟩ | ⟨hsame, -⟩ := Scripted.scripts_connect n w.endpoints.stage
    · rw [hset, List.getElem?_set_ne hne]
    · rw [hsame]
  exact ⟨hspares hone hne, hspares hother hne.symm⟩

/-- A database and a scripted endpoint are connected one without the other. -/
theorem apart_database_scripted {one other : Nat} (hone : one < databases)
    (hother : other < scripts) :
    Apart (Has scripts databases) (database one) (scripted other) :=
  ⟨Connection.spares_of_isConnected_eq (opens_database hone).preserves fun _ _ => rfl,
    Connection.spares_of_isConnected_eq (opens_scripted hother).preserves fun _ _ => rfl⟩

end Endpoints

/-! ## Links that are connected on demand -/

namespace Registry

variable {β : Type} {registry : Registry β} {name : Option String}
  {connection : Connection (World β)} {w w' : World β}

/-- A link that is resolved was connected and is left alone, or it was not and is connected. -/
theorem connect_of_resolve
    (h : (registry.resolve name true).outcome w = (.ok connection, w')) :
    (connection.isConnected w = true ∧ w' = w) ∨
      (connection.isConnected w = false ∧ connection.connect.outcome w = (.ok (), w')) := by
  obtain ⟨link, _, hfind, h⟩ := Call.exists_of_bind_ok h
  obtain ⟨-, rfl⟩ := Prod.mk.inj hfind
  replace h := (Call.outcome_bind_of_ok (Call.outcome_reading _ w)).symm.trans h
  cases hconnected : link.connection.isConnected w with
  | true =>
    rw [if_neg (by rw [hconnected]; decide)] at h
    cases h
    exact Or.inl ⟨hconnected, rfl⟩
  | false =>
    rw [if_pos (by rw [hconnected]; decide)] at h
    obtain ⟨_, _, hconnect, h⟩ := Call.exists_of_bind_ok h
    cases h
    exact Or.inr ⟨hconnected, hconnect⟩

/-- Two shards. -/
def twoShards : Sharded Endpoints where
  shards := [(1, Endpoints.scripted 0), (2, Endpoints.scripted 1)]
  maps := []
  lock := none

/-- A database that is mirrored by two shards. -/
def mirroredByShards : Replicated Endpoints :=
  ((Replicated.empty 0).setPrimary (Endpoints.database 0)).addMirror twoShards.connection

theorem endsAt_twoShards :
    EndsAt twoShards.connection [Endpoints.scripted 0, Endpoints.scripted 1] :=
  .sharded twoShards
    [(Endpoints.scripted 0, [Endpoints.scripted 0]), (Endpoints.scripted 1, [Endpoints.scripted 1])]
    rfl (by
      rw [List.forall_mem_cons, List.forall_mem_singleton]
      exact ⟨.plain _, .plain _⟩)

theorem endsAt_mirroredByShards :
    EndsAt mirroredByShards.connection
      [Endpoints.database 0, Endpoints.scripted 0, Endpoints.scripted 1] :=
  .replicated mirroredByShards
    [(Endpoints.database 0, [Endpoints.database 0]),
      (twoShards.connection, [Endpoints.scripted 0, Endpoints.scripted 1])]
    rfl (by
      rw [List.forall_mem_cons, List.forall_mem_singleton]
      exact ⟨.plain _, endsAt_twoShards⟩)

/-- Both links under their names. -/
def twoLinks : Registry Endpoints where
  links := [("mirrored", .replicated mirroredByShards), ("sharded", .sharded twoShards)]
  default := some (.named "mirrored")

/-- A database and two scripted endpoints, none of them connected. -/
def unconnected : World Endpoints where
  room := ⟨0, 1, [], ⟨[], []⟩, [], []⟩
  cursors := []
  draws := []
  endpoints := ⟨⟨[.quiet "a", .quiet "b"], []⟩, [.new .memory]⟩

end Registry

end SqlFederation
