import Mathlib
import SqlFederation.Config.Codec
import SqlFederation.Proofs.Decoding

/-!
# Configurations read back

A configuration is written as a JSON document and read with a reader that refuses a part that is
given twice. What is written gives none twice (`Json.hasRepeated_of_nodup`), so every record is read
back part by part, as long as its numbers fit the words that they are read into (`Config.Fits`). The
databases are written in the order of their names, and are put back into that order one by one
(`Config.links?_toJson`). So the whole configuration is read back (`Config.ofJson?_toJson`).
-/

namespace SqlFederation

/-! ## Records without repetition -/

namespace Json

variable {entries : List (String × Json)}

/-- Where all keys are different, no name is given twice. -/
theorem hasRepeated_of_nodup (names : List String) (h : (entries.map Prod.fst).Nodup) :
    hasRepeated names entries = false := by
  rw [hasRepeated, List.any_eq_false]
  intro name _ hrepeated
  have hcount : (entries.filter fun entry => entry.1 == name).length =
      (entries.map Prod.fst).count name := by
    rw [List.count, List.countP_map, List.countP_eq_length_filter]
    rfl
  have honce : (entries.filter fun entry => entry.1 == name).length ≤ 1 :=
    hcount.trans_le (List.nodup_iff_count_le_one.mp h name)
  exact Nat.not_lt.mpr honce (of_decide_eq_true hrepeated)

/-- A record that is written as an object with different keys is read from its entries. -/
theorem distinctEntries?_obj (names : List String) (h : (entries.map Prod.fst).Nodup) :
    distinctEntries? names (.obj entries) = some entries := by
  show (if hasRepeated names entries = true then none else some entries) = some entries
  rw [hasRepeated_of_nodup names h]
  rfl

/-- A part that may be absent adds at most its name to the keys. -/
theorem keys_entry?_sublist (name : String) (value : Option Json) :
    ((Json.entry? name value).map Prod.fst).Sublist [name] := by
  cases value with
  | none => exact List.nil_sublist _
  | some value => exact List.Sublist.refl _

/-- A field that is there is decoded, also if it could be left out. -/
theorem withDefault_of_lookup {α : Type} {decode : Json → Option α} {name : String}
    {default a : α} (json : Json) (hlookup : entries.lookup name = some json)
    (hdecode : decode json = some a) : withDefault entries name default decode = some a := by
  rw [withDefault, hlookup]
  exact hdecode

theorem asNat32?_ofNat {n : Nat} (h : n ≤ 4294967295) : (ofNat n).asNat32? = some n := by
  have hread : (ofNat n).asNat? = some n := asNat?_ofNat (le_trans h (by decide))
  rw [asNat32?, hread]
  exact if_pos h

theorem asInt?_ofInt {value : Int} (h : fitsSigned value = true) :
    (ofInt value).asInt? = some value :=
  if_pos h

end Json

/-! ## The parts of a configuration -/

/-- A database is read back. -/
theorem LinkEntry.ofJson?_toJson (link : LinkEntry) : ofJson? link.toJson = some link := by
  cases link with
  | memory => rfl
  | file path => rfl

/-- Does the number of a shard fit 32 bits? -/
def ShardEntry.Fits (entry : ShardEntry) : Prop := entry.shard ≤ 4294967295

theorem ShardEntry.ofJson?_toJson {entry : ShardEntry} (h : entry.Fits) :
    ofJson? entry.toJson = some entry := by
  let entries := [("id", .ofNat entry.shard), ("link", Json.str entry.link)]
  have hentries : parts.distinctEntries? entry.toJson = some entries :=
    Json.distinctEntries?_obj parts.names (by show ["id", "link"].Nodup; decide)
  have hshard : Json.field entries "id" Json.asNat32? = some entry.shard :=
    Json.field_eq_some (.ofNat entry.shard) rfl (Json.asNat32?_ofNat h)
  have hlink : Json.field entries "link" Json.asStr? = some entry.link :=
    Json.field_eq_some (.str entry.link) rfl rfl
  simp only [ofJson?, hentries, hshard, hlink, Option.bind_eq_bind, Option.bind_some]

namespace KeyRange

/-- Do the bounds of a range fit 64 bits with a sign? -/
def Fits (range : KeyRange) : Prop :=
  (∀ lo ∈ range.min, fitsSigned lo = true) ∧ ∀ hi ∈ range.max, fitsSigned hi = true

/-- A bound is written as its number, and a missing one as null. -/
theorem toEntries_eq (range : KeyRange) :
    range.toEntries = [("min", (range.min.map Json.ofInt).getD .null),
      ("max", (range.max.map Json.ofInt).getD .null)] := by
  obtain ⟨lo, hi⟩ := range
  cases lo
  all_goals cases hi
  all_goals rfl

/-- A bound is read back. -/
theorem optional_bound {entries : List (String × Json)} {name : String} {bound : Option Int}
    (h : entries.lookup name = some ((bound.map Json.ofInt).getD .null))
    (hfits : ∀ value ∈ bound, fitsSigned value = true) :
    Json.optional entries name Json.asInt? = some bound := by
  rw [Json.optional, h]
  cases bound with
  | none => rfl
  | some value => exact congrArg (Option.map some) (Json.asInt?_ofInt (hfits value rfl))

/-- A range is read back wherever its bounds are among the entries. -/
theorem ofEntries?_eq_some {range : KeyRange} {entries : List (String × Json)} (h : range.Fits)
    (hbounds : ∀ bound ∈ range.toEntries, entries.lookup bound.1 = some bound.2) :
    ofEntries? entries = some range := by
  rw [toEntries_eq, List.forall_mem_cons, List.forall_mem_singleton] at hbounds
  simp only [ofEntries?, optional_bound hbounds.1 h.1, optional_bound hbounds.2 h.2,
    Option.bind_eq_bind, Option.bind_some]

end KeyRange

/-- Do the number of a shard and the bounds of its range fit their words? -/
structure ShardRange.Fits (s : ShardRange) : Prop where
  shard : s.shard ≤ 4294967295
  range : s.range.Fits

/-- A range of a shard is read back, with the bounds among its own entries. -/
theorem ShardRange.ofJson?_toJson {s : ShardRange} (h : s.Fits) : ofJson? s.toJson = some s := by
  let entries := [("shard", Json.ofNat s.shard)] ++ s.range.toEntries ++
    Json.entry? "physicalTable" (s.physicalTable.map .str)
  have hkeys : (entries.map Prod.fst).Nodup := by
    have hsub : (entries.map Prod.fst).Sublist (["shard", "min", "max"] ++ ["physicalTable"]) := by
      rw [List.map_append]
      exact (List.Sublist.refl _).append (Json.keys_entry?_sublist "physicalTable" _)
    exact hsub.nodup (by decide)
  have hentries : (Json.obj entries).distinctEntries? names = some entries :=
    Json.distinctEntries?_obj names hkeys
  have hshard : Json.field entries "shard" Json.asNat32? = some s.shard :=
    Json.field_eq_some (.ofNat s.shard) rfl (Json.asNat32?_ofNat h.shard)
  have hrange : KeyRange.ofEntries? entries = some s.range :=
    KeyRange.ofEntries?_eq_some h.range
      (List.forall_mem_cons.mpr ⟨rfl, List.forall_mem_singleton.mpr rfl⟩)
  have hphysical : Json.optional entries "physicalTable" Json.asStr? = some s.physicalTable := by
    refine Json.optional_map_eq_some .str ?_ fun _ _ => ⟨Json.noConfusion, rfl⟩
    simp [entries, KeyRange.toEntries, List.lookup_cons]
  show ofJson? (.obj entries) = _
  simp only [ofJson?, hentries, hshard, hrange, hphysical, Option.bind_eq_bind, Option.bind_some]

/-- Do the numbers of a table's ranges fit their words? -/
def TableEntry.Fits (entry : TableEntry) : Prop := ∀ s ∈ entry.ranges, s.Fits

theorem TableEntry.ofJson?_toJson {entry : TableEntry} (h : entry.Fits) :
    ofJson? entry.toJson = some entry := by
  let entries := [("table", .str entry.table), ("key", .str entry.key),
    ("ranges", Json.arr (entry.ranges.map ShardRange.toJson))]
  have hentries : parts.distinctEntries? entry.toJson = some entries :=
    Json.distinctEntries?_obj parts.names (by show ["table", "key", "ranges"].Nodup; decide)
  have htable : Json.field entries "table" Json.asStr? = some entry.table :=
    Json.field_eq_some (.str entry.table) rfl rfl
  have hkey : Json.field entries "key" Json.asStr? = some entry.key :=
    Json.field_eq_some (.str entry.key) rfl rfl
  have hranges : Json.field entries "ranges" (Json.list ShardRange.ofJson?) = some entry.ranges :=
    Json.field_eq_some _ rfl
      (Json.list_map_eq_some ShardRange.toJson _ fun s hs => ShardRange.ofJson?_toJson (h s hs))
  simp only [ofJson?, hentries, htable, hkey, hranges, Option.bind_eq_bind, Option.bind_some]

/-- Do the numbers of a sharded link fit their words? -/
structure ShardedEntry.Fits (entry : ShardedEntry) : Prop where
  shards : ∀ shard ∈ entry.shards, shard.Fits
  tables : ∀ table ∈ entry.tables, table.Fits

theorem ShardedEntry.ofJson?_toJson {entry : ShardedEntry} (h : entry.Fits) :
    ofJson? entry.toJson = some entry := by
  let entries := [("name", .str entry.name),
    ("shards", .arr (entry.shards.map ShardEntry.toJson)),
    ("tables", Json.arr (entry.tables.map TableEntry.toJson))]
  have hentries : parts.distinctEntries? entry.toJson = some entries :=
    Json.distinctEntries?_obj parts.names (by show ["name", "shards", "tables"].Nodup; decide)
  have hname : Json.field entries "name" Json.asStr? = some entry.name :=
    Json.field_eq_some (.str entry.name) rfl rfl
  have hshards : Json.field entries "shards" (Json.list ShardEntry.ofJson?) = some entry.shards :=
    Json.field_eq_some _ rfl (Json.list_map_eq_some ShardEntry.toJson _ fun shard hshard =>
      ShardEntry.ofJson?_toJson (h.shards shard hshard))
  have htables : Json.withDefault entries "tables" [] (Json.list TableEntry.ofJson?) =
      some entry.tables :=
    Json.list_map_eq_some TableEntry.toJson _ fun table htable =>
      TableEntry.ofJson?_toJson (h.tables table htable)
  simp only [ofJson?, hentries, hname, hshards, htables, Option.bind_eq_bind, Option.bind_some]

theorem ReadPolicy.ofJson?_name (policy : ReadPolicy) :
    ofJson? (.str policy.name) = some policy := by
  cases policy
  all_goals rfl

/-- Does the block size of a replicated link fit 64 bits? -/
def ReplicatedEntry.Fits (entry : ReplicatedEntry) : Prop :=
  ∀ size ∈ entry.blockSize, size ≤ 18446744073709551615

theorem ReplicatedEntry.ofJson?_toJson {entry : ReplicatedEntry} (h : entry.Fits) :
    ofJson? entry.toJson = some entry := by
  let entries := [("name", .str entry.name), ("primary", .str entry.primary),
    ("mirrors", .ofStrings entry.mirrors), ("readPolicy", Json.str entry.policy.name)] ++
    Json.entry? "syncBlockSize" (entry.blockSize.map .ofNat)
  have hkeys : (entries.map Prod.fst).Nodup := by
    have hsub : (entries.map Prod.fst).Sublist
        (["name", "primary", "mirrors", "readPolicy"] ++ ["syncBlockSize"]) := by
      rw [List.map_append]
      exact (List.Sublist.refl _).append (Json.keys_entry?_sublist "syncBlockSize" _)
    exact hsub.nodup (by decide)
  have hentries : parts.distinctEntries? entry.toJson = some entries :=
    Json.distinctEntries?_obj parts.names hkeys
  have hname : Json.field entries "name" Json.asStr? = some entry.name :=
    Json.field_eq_some (.str entry.name) rfl rfl
  have hprimary : Json.field entries "primary" Json.asStr? = some entry.primary :=
    Json.field_eq_some (.str entry.primary) rfl rfl
  have hmirrors : Json.withDefault entries "mirrors" [] (Json.list Json.asStr?) =
      some entry.mirrors :=
    Json.list_map_eq_some Json.str _ fun _ _ => rfl
  have hpolicy : Json.withDefault entries "readPolicy" ReadPolicy.any ReadPolicy.ofJson? =
      some entry.policy :=
    entry.policy.ofJson?_name
  have hsize : Json.optional entries "syncBlockSize" Json.asNat? = some entry.blockSize := by
    refine Json.optional_map_eq_some .ofNat ?_ fun size hsize =>
      ⟨Json.noConfusion, Json.asNat?_ofNat (h size hsize)⟩
    simp [entries, List.lookup_cons]
  simp only [ofJson?, hentries, hname, hprimary, hmirrors, hpolicy, hsize, Option.bind_eq_bind,
    Option.bind_some]

/-- Does the lifetime of locks fit 64 bits? -/
def LockSettings.Fits (settings : LockSettings) : Prop :=
  settings.lifetime ≤ 18446744073709551615

/-- Lock settings are read back, with the place among their own entries. -/
theorem LockSettings.ofJson?_toJson {settings : LockSettings} (h : settings.Fits) :
    ofJson? settings.toJson = some settings := by
  obtain ⟨place, scope, lifetime⟩ := settings
  let entries := place.toEntries ++ [("namespace", .str scope), ("ttlSecs", .ofNat lifetime)]
  have hkeys : (entries.map Prod.fst).Nodup := by
    cases place with
    | memory =>
      show ["type", "namespace", "ttlSecs"].Nodup
      decide
    | directory path =>
      show ["type", "dir", "namespace", "ttlSecs"].Nodup
      decide
  have hentries : (Json.obj entries).distinctEntries? ["namespace", "ttlSecs"] = some entries :=
    Json.distinctEntries?_obj _ hkeys
  have hscope : Json.withDefault entries "namespace" defaultScope Json.asStr? = some scope := by
    cases place with
    | memory => rfl
    | directory path => rfl
  have hlifetime : Json.withDefault entries "ttlSecs" Locks.defaultLifetime Json.asNat? =
      some lifetime := by
    have hread : (Json.ofNat lifetime).asNat? = some lifetime := Json.asNat?_ofNat h
    cases place with
    | memory => exact hread
    | directory path => exact hread
  have hplace : LockPlace.ofEntries? entries = some place := by
    cases place with
    | memory => rfl
    | directory path => rfl
  show ofJson? (.obj entries) = _
  simp only [ofJson?, hentries, hscope, hlifetime, hplace, Option.bind_eq_bind, Option.bind_some]

/-! ## The databases in the order of their names -/

namespace Config

/-- A database whose name is behind all others is put behind them. -/
theorem insertLink_of_lt {name : String} (link : LinkEntry) {links : List (String × LinkEntry)}
    (h : ∀ other ∈ links, other.1 < name) :
    insertLink name link links = links ++ [(name, link)] := by
  induction links with
  | nil => rfl
  | cons other rest ih =>
    rw [List.forall_mem_cons] at h
    obtain ⟨hother, hrest⟩ := h
    rw [insertLink, if_neg (String.ne_of_lt hother).symm, if_neg (String.lt_asymm hother),
      ih hrest, List.cons_append]

/-- The databases as they are written, each under its name. -/
def linkEntries (links : List (String × LinkEntry)) : List (String × Json) :=
  links.map fun (name, link) => (name, link.toJson)

/-- Databases that come behind those that were read are put behind them. -/
theorem foldlM_linkEntries {read rest : List (String × LinkEntry)}
    (h : (read ++ rest).Pairwise fun a b => a.1 < b.1) :
    (linkEntries rest).foldlM
      (fun links (name, value) => do
        let link ← LinkEntry.ofJson? value
        some (insertLink name link links)) read = some (read ++ rest) := by
  -- Those that were read grow while the others get fewer, and all together stay in order.
  induction rest generalizing read with
  | nil =>
    rw [List.append_nil]
    rfl
  | cons entry rest ih =>
    obtain ⟨name, link⟩ := entry
    have hbefore : ∀ other ∈ read, other.1 < name := fun other hother =>
      (List.pairwise_append.mp h).2.2 other hother (name, link) List.mem_cons_self
    have hassoc : read ++ (name, link) :: rest = read ++ [(name, link)] ++ rest := by
      rw [List.append_assoc, List.singleton_append]
    rw [hassoc] at h ⊢
    rw [linkEntries, List.map_cons, List.foldlM_cons]
    simp only [link.ofJson?_toJson, Option.bind_eq_bind, Option.bind_some,
      insertLink_of_lt link hbefore]
    exact ih h

/-- Databases that are written in the order of their names are read back in that order. -/
theorem links?_toJson {links : List (String × LinkEntry)}
    (h : links.Pairwise fun a b => a.1 < b.1) : links? (.obj (linkEntries links)) = some links :=
  foldlM_linkEntries (show ([] ++ links).Pairwise _ from h)

/-! ## Configurations -/

/-- Are the databases in the order of their names, and do all numbers fit their words? -/
structure Fits (config : Config) : Prop where
  links : config.links.Pairwise fun a b => a.1 < b.1
  sharded : ∀ entry ∈ config.sharded, entry.Fits
  replicated : ∀ entry ∈ config.replicated, entry.Fits
  locks : config.locks.Fits

/-- A configuration is read back from the document that it is written as. -/
theorem ofJson?_toJson {config : Config} (h : config.Fits) :
    ofJson? config.toJson = some config := by
  let entries := [("version", Json.str config.version),
      ("links", .obj (linkEntries config.links))] ++
    Json.entry? "default" (config.default.map .str) ++
    [("sharded", .arr (config.sharded.map ShardedEntry.toJson)),
      ("replicated", .arr (config.replicated.map ReplicatedEntry.toJson)),
      ("locks", config.locks.toJson)]
  have hkeys : (entries.map Prod.fst).Nodup := by
    have hsub : (entries.map Prod.fst).Sublist
        (["version", "links"] ++ ["default"] ++ ["sharded", "replicated", "locks"]) := by
      rw [List.map_append, List.map_append]
      exact ((List.Sublist.refl _).append (Json.keys_entry?_sublist "default" _)).append
        (List.Sublist.refl _)
    exact hsub.nodup (by decide)
  have hentries : parts.distinctEntries? config.toJson = some entries :=
    Json.distinctEntries?_obj parts.names hkeys
  have hversion : Json.withDefault entries "version" "1" Json.asStr? = some config.version := rfl
  have hlinks : Json.withDefault entries "links" [] links? = some config.links :=
    links?_toJson h.links
  have hdefault : Json.optional entries "default" Json.asStr? = some config.default := by
    refine Json.optional_map_eq_some .str ?_ fun _ _ => ⟨Json.noConfusion, rfl⟩
    simp [entries, List.lookup_append, List.lookup_cons]
  have hsharded : Json.withDefault entries "sharded" [] (Json.list ShardedEntry.ofJson?) =
      some config.sharded := by
    refine Json.withDefault_of_lookup (.arr (config.sharded.map ShardedEntry.toJson)) ?_
      (Json.list_map_eq_some ShardedEntry.toJson _ fun entry hentry =>
        ShardedEntry.ofJson?_toJson (h.sharded entry hentry))
    simp [entries, List.lookup_append, List.lookup_cons]
  have hreplicated : Json.withDefault entries "replicated" []
      (Json.list ReplicatedEntry.ofJson?) = some config.replicated := by
    refine Json.withDefault_of_lookup (.arr (config.replicated.map ReplicatedEntry.toJson)) ?_
      (Json.list_map_eq_some ReplicatedEntry.toJson _ fun entry hentry =>
        ReplicatedEntry.ofJson?_toJson (h.replicated entry hentry))
    simp [entries, List.lookup_append, List.lookup_cons]
  have hlocks : Json.withDefault entries "locks" LockSettings.default LockSettings.ofJson? =
      some config.locks := by
    refine Json.withDefault_of_lookup config.locks.toJson ?_
      (LockSettings.ofJson?_toJson h.locks)
    simp [entries, List.lookup_append, List.lookup_cons]
  simp only [ofJson?, hentries, hversion, hlinks, hdefault, hsharded, hreplicated, hlocks,
    Option.bind_eq_bind, Option.bind_some]

end Config

end SqlFederation
