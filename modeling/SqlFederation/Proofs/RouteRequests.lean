import SqlFederation.Command.Run
import SqlFederation.Proofs.ConfiguredTables
import SqlFederation.Proofs.ExactRouting
import SqlFederation.Proofs.PlanDispatch

/-!
# What a request for a route is told

A request for a route asks about one key, about the keys between two bounds, or about all keys. It
is told which shards of a table hold such a key (`Command.holders`), each with its table there. The
links of a context that was built come from its configuration (`Registry.All`), and each map of
theirs divides its table over shards that are registered (`Sharded.KnowsShards`), so that every
shard that is told has a part in the plan of a read of all rows.

The request is made into a condition on the key of the table, and the key is read as the text of a
column. A key with a dot is read as a column of a table then, which is never the key
(`ShardMap.bindsKey_ofText_iff`), and the request is told all shards.
`Command.route_truthful_iff` says that it is told the truth exactly if the key is read as a bare
name, or if every shard holds a key that is asked about.
-/

namespace SqlFederation

/-! ## Keys that are read as columns -/

namespace ColumnRef

/-- What stands behind a dot is shorter than the text. -/
theorem length_lt_of_splitDot {text before behind : List Char}
    (h : splitDot text = some (before, behind)) : behind.length < text.length := by
  induction text generalizing before with
  | nil => cases h
  | cons c rest ih =>
    unfold splitDot at h
    split at h
    · rename_i hnil
      cases hnil
    · rename_i hdot
      cases hdot
      cases h
      exact Nat.lt_succ_self _
    · rename_i hcons
      cases hcons
      obtain ⟨⟨front, back⟩, hrest, heq⟩ := Option.map_eq_some_iff.mp h
      cases heq
      exact Nat.lt_succ_of_lt (ih hrest)

/-- A text is read as a bare name, or as a column of another name. -/
theorem ofText_eq_bare_or (text : String) :
    ofText text = bare text ∨ (ofText text).name ≠ text := by
  unfold ofText
  split
  · rename_i t table n name hsplit
    refine Or.inr fun hname => ?_
    have hlength := length_lt_of_splitDot hsplit
    have hchars : n :: name = text.toList := by
      rw [← hname]
      exact (String.toList_ofList).symm
    rw [hchars] at hlength
    exact Nat.lt_irrefl _ hlength
  · exact Or.inl rfl

end ColumnRef

namespace ShardMap

variable {m : ShardMap}

/-- The key that is read as a column stands for the key if it is read as a bare name. -/
theorem bindsKey_ofText_iff :
    m.bindsKey (ColumnRef.ofText m.key) = true ↔ ColumnRef.ofText m.key = .bare m.key := by
  constructor
  · intro hbinds
    rw [bindsKey, Bool.and_eq_true, beq_iff_eq] at hbinds
    exact (ColumnRef.ofText_eq_bare_or m.key).resolve_right (not_not_intro hbinds.1)
  · intro hbare
    rw [hbare, bindsKey, ColumnRef.bare, beq_self_eq_true]
    rfl

/-- Every key may be on any shard. -/
theorem chooseShards_unbounded (m : ShardMap) : m.chooseShards .unbounded = m.shardIds := by
  have hmeets : ∀ s ∈ m.shards, s.range.intersects .unbounded = true := by
    intro s _
    cases hmax : s.range.max <;> cases hmin : s.range.min <;>
      simp [KeyRange.intersects, KeyRange.unbounded, hmax, hmin]
  rw [chooseShards, if_neg (by decide), List.filter_eq_self.mpr hmeets, shardIds]

end ShardMap

/-! ## What is asked and told -/

namespace Command

/-- The keys that are asked about: a value, or else all keys within the bounds that there are. -/
def askedRange (value min max : Option Int) : KeyRange :=
  match value with
  | some v => .point v
  | none => ⟨min, max⟩

/-- Does a range hold a key that is asked about? -/
def Holds (value min max : Option Int) (range : KeyRange) : Prop :=
  match value with
  | some v => range.contains v = true
  | none => ∃ key, fitsSigned key = true ∧ range.contains key = true ∧
      (∀ lo ∈ min, lo ≤ key) ∧ ∀ hi ∈ max, key ≤ hi

/-- Without a value, a range is asked for the keys that it shares with the bounds. -/
theorem holds_none_iff {min max : Option Int} {range : KeyRange} :
    Holds none min max range ↔
      Max.max minKey (Max.max range.lowest (min.getD minKey)) ≤
        Min.min maxKey (Min.min range.highest (max.getD maxKey)) := by
  have hbetween : ∀ key, fitsSigned key = true →
      ((range.contains key = true ∧ (∀ lo ∈ min, lo ≤ key) ∧ ∀ hi ∈ max, key ≤ hi) ↔
        (range.lowest ≤ key ∧ key ≤ range.highest) ∧
          min.getD minKey ≤ key ∧ key ≤ max.getD maxKey) := by
    intro key hkey
    rw [KeyRange.contains_iff_between hkey]
    exact and_congr_right fun _ => (@KeyRange.contains_iff ⟨min, max⟩ key).symm.trans
      (KeyRange.contains_iff_between hkey)
  constructor
  · rintro ⟨key, hkey, hshared⟩
    have hends := (hbetween key hkey).mp hshared
    rw [fitsSigned_iff] at hkey
    omega
  · intro hle
    -- The greatest of the lower bounds is shared.
    have hkey : fitsSigned (Max.max minKey (Max.max range.lowest (min.getD minKey))) = true := by
      rw [fitsSigned_iff]
      omega
    refine ⟨_, hkey, (hbetween _ hkey).mpr ?_⟩
    omega

instance (value min max : Option Int) (range : KeyRange) : Decidable (Holds value min max range) :=
  match value with
  | some v => inferInstanceAs (Decidable (range.contains v = true))
  | none => decidable_of_iff _ holds_none_iff.symm

/-- The shards of a table that hold a key that is asked about, in the order of the map. -/
def holders (m : ShardMap) (value min max : Option Int) : List ShardId :=
  (m.shards.filter fun s => decide (Holds value min max s.range)).map ShardRange.shard

/-- What is printed of some shards, each with the name of its table. -/
def listing (json : Bool) (table key : String) (targets : List (ShardId × String)) : String :=
  if json then
    document (.obj [("table", .str table), ("key", .str key), ("shards", .arr (targets.map
      fun (shard, physical) => .obj [("shard", .ofNat shard), ("table", .str physical)]))])
  else if targets.isEmpty then
    warning ("No shard of '" ++ table ++ "' covers that key")
  else
    info (table ++ "." ++ key ++ " routes to shard(s) " ++ idsText (targets.map Prod.fst)) ++
      String.join (targets.map fun (shard, physical) =>
        item ("shard " ++ toString shard ++ " → " ++ physical))

/-- Some shards of a map, each with the name of its table there. -/
def withTables (m : ShardMap) (shards : List ShardId) : List (ShardId × String) :=
  shards.map fun shard => (shard, m.physicalTable shard)

section Routing

variable {m : ShardMap} {value min max : Option Int}

/-- A range holds a key that is asked about if it shares one with the range that is asked about. -/
theorem holds_iff (hvalue : ∀ v ∈ value, fitsSigned v = true) {range : KeyRange} :
    Holds value min max range ↔ ∃ key, fitsSigned key = true ∧ range.contains key = true ∧
      (askedRange value min max).contains key = true := by
  cases value with
  | none =>
    refine exists_congr fun key => and_congr_right fun _ => and_congr_right fun _ => ?_
    exact (@KeyRange.contains_iff ⟨min, max⟩ key).symm
  | some v =>
    constructor
    · intro hin
      refine ⟨v, hvalue v rfl, hin, ?_⟩
      rw [askedRange, KeyRange.contains_iff]
      exact ⟨fun lo hlo => (Option.some.inj hlo).ge, fun hi hhi => (Option.some.inj hhi).le⟩
    · rintro ⟨key, -, hin, hkey⟩
      rw [askedRange, KeyRange.contains_iff] at hkey
      obtain rfl : v = key := Int.le_antisymm (hkey.1 v rfl) (hkey.2 v rfl)
      exact hin

/-- A comparison with the key of the table bounds it if the key is read as a bare name. -/
theorem deriveRange_compare_key (m : ShardMap) (op : Comparator) {bound : Int}
    (hbound : fitsSigned bound = true) :
    m.deriveRange (.compare (ColumnRef.ofText m.key) op (.ofInt bound)) =
      if ColumnRef.ofText m.key = .bare m.key then ShardMap.comparisonRange op bound
      else .unbounded := by
  rw [ShardMap.deriveRange, Json.asInt?_ofInt hbound]
  simp only [ShardMap.bindsKey_ofText_iff]

/-- A bound that a request has, if it has one, as a condition on the key. -/
theorem deriveRange_bound (m : ShardMap) (op : Comparator) {bound : Option Int}
    (hbound : ∀ key ∈ bound, fitsSigned key = true) :
    (bound.map fun key => Predicate.compare (ColumnRef.ofText m.key) op (.ofInt key)).toList.map
        m.deriveRange =
      (bound.map fun key => if ColumnRef.ofText m.key = .bare m.key
        then ShardMap.comparisonRange op key else .unbounded).toList := by
  cases bound with
  | none => rfl
  | some key =>
    exact congrArg (fun range => [range]) (deriveRange_compare_key m op (hbound key rfl))

/-- The bounds that a request has, as conditions on the key. -/
theorem deriveRange_bounds (m : ShardMap) (hmin : ∀ lo ∈ min, fitsSigned lo = true)
    (hmax : ∀ hi ∈ max, fitsSigned hi = true) :
    m.deriveRange (.join .and
      ((min.map fun lo => .compare (ColumnRef.ofText m.key) .gte (.ofInt lo)).toList ++
        (max.map fun hi => .compare (ColumnRef.ofText m.key) .lte (.ofInt hi)).toList)) =
      if ColumnRef.ofText m.key = .bare m.key then ⟨min, max⟩ else .unbounded := by
  rw [ShardMap.deriveRange_all, List.map_append, deriveRange_bound m .gte hmin,
    deriveRange_bound m .lte hmax]
  split
  · cases min <;> cases max <;> rfl
  · cases min <;> cases max <;> rfl

/-- The condition that is made of a request leaves the keys that are asked about, or all keys. -/
theorem routeShards_eq (hvalue : ∀ v ∈ value, fitsSigned v = true)
    (hmin : ∀ lo ∈ min, fitsSigned lo = true) (hmax : ∀ hi ∈ max, fitsSigned hi = true) :
    routeShards m value min max = m.chooseShards
      (if ColumnRef.ofText m.key = .bare m.key then askedRange value min max else .unbounded) := by
  cases value with
  | some v =>
    rw [routeShards, routeCondition, ShardMap.routeByPredicate,
      deriveRange_compare_key m .eq (hvalue v rfl)]
    rfl
  | none =>
    have hbounds := congrArg m.chooseShards (deriveRange_bounds m hmin hmax)
    cases min with
    | some lo => cases max <;> exact hbounds
    | none =>
      cases max with
      | some hi => exact hbounds
      | none =>
        -- No condition is made, and none is needed.
        rw [show askedRange none none none = .unbounded from rfl, ite_self,
          ShardMap.chooseShards_unbounded]
        rfl

/-- A request is told the shards that hold what it asks about if the key is read as a bare name. -/
theorem routeShards_eq_holders (hm : m.Built) (hfits : ∀ s ∈ m.shards, s.range.Fits)
    (hvalue : ∀ v ∈ value, fitsSigned v = true) (hmin : ∀ lo ∈ min, fitsSigned lo = true)
    (hmax : ∀ hi ∈ max, fitsSigned hi = true) (hbare : ColumnRef.ofText m.key = .bare m.key) :
    routeShards m value min max = holders m value min max := by
  have hasked : (askedRange value min max).Fits := by
    cases value with
    | some v => exact KeyRange.fits_point (hvalue v rfl)
    | none => exact ⟨hmin, hmax⟩
  rw [routeShards_eq hvalue hmin hmax, if_pos hbare, m.chooseShards_eq_filter hm hfits hasked,
    holders]
  refine congrArg (List.map ShardRange.shard) (List.filter_congr fun s _ => ?_)
  rw [decide_eq_decide]
  exact (holds_iff hvalue).symm

/-- A request is told all shards if the key is read as a column of a table. -/
theorem routeShards_eq_shardIds (hvalue : ∀ v ∈ value, fitsSigned v = true)
    (hmin : ∀ lo ∈ min, fitsSigned lo = true) (hmax : ∀ hi ∈ max, fitsSigned hi = true)
    (hdotted : ColumnRef.ofText m.key ≠ .bare m.key) :
    routeShards m value min max = m.shardIds := by
  rw [routeShards_eq hvalue hmin hmax, if_neg hdotted, ShardMap.chooseShards_unbounded]

/-- All shards hold what is asked about if every range does. -/
theorem holders_eq_shardIds_iff :
    holders m value min max = m.shardIds ↔ ∀ s ∈ m.shards, Holds value min max s.range := by
  constructor
  · intro hall
    have hlength := congrArg List.length hall
    rw [holders, ShardMap.shardIds, List.length_map, List.length_map,
      List.length_filter_eq_length_iff] at hlength
    exact fun s hs => of_decide_eq_true (hlength s hs)
  · intro hall
    rw [holders, List.filter_eq_self.mpr fun s hs => decide_eq_true (hall s hs), ShardMap.shardIds]

/-- The answer is printed, and nothing is changed. -/
theorem run_runRoute {context : Context} {name table : String} {link : Sharded Endpoints}
    (hlink : context.registry.sharded name = .ok link) (hmap : link.mapOf table = .ok m)
    (value min max : Option Int) (json : Bool) (w : World Endpoints) :
    ExceptT.run (runRoute context name table value min max json) w =
      (.ok (listing json table m.key (withTables m (routeShards m value min max))), w) := by
  have hrun : ExceptT.run (runRoute context name table value min max json) w =
      (.ok (if json then document (routeJson m table (routeShards m value min max))
        else routeText m table (routeShards m value min max)), w) := by
    unfold runRoute
    rw [hlink]
    show ExceptT.run (Work.check (link.mapOf table) >>= _) w = _
    rw [hmap]
    rfl
  rw [hrun, listing, withTables, routeJson, routeText, List.isEmpty_map, List.map_map, List.map_map,
    List.map_map, Function.comp_def, Function.comp_def, Function.comp_def, List.map_id']

end Routing

end Command

/-! ## Where built links come from -/

theorem TableEntry.isKnown_of_foldlM_addTo {isKnown : ShardId → Bool} {ranges : List ShardRange}
    {m m' : ShardMap} (h : ranges.foldlM (addTo isKnown) m = .ok m') :
    ∀ s ∈ ranges, isKnown s.shard = true := by
  induction ranges generalizing m with
  | nil => exact List.forall_mem_nil _
  | cons s rest ih =>
    rw [List.foldlM_cons] at h
    obtain ⟨between, hadd, hrest⟩ := exists_of_bind_eq_ok h
    refine List.forall_mem_cons.mpr ⟨?_, ih hrest⟩
    unfold addTo at hadd
    split at hadd
    · assumption
    · cases hadd

namespace Sharded

variable {β : Type} {link : Sharded β}

/-- Are the shards that tables are divided over all registered? -/
def KnowsShards (link : Sharded β) : Prop :=
  ∀ m ∈ link.maps, ∀ shard ∈ m.shardIds, shard ∈ link.shardIds

theorem KnowsShards.setMap {m : ShardMap} (h : link.KnowsShards)
    (hm : ∀ shard ∈ m.shardIds, shard ∈ link.shardIds) : (link.setMap m).KnowsShards := by
  intro other hother
  rcases List.mem_append.mp hother with hkept | hnew
  · exact h other (List.mem_filter.mp hkept).1
  · rw [List.mem_singleton.mp hnew]
    exact hm

theorem mem_maps_of_mapOf {table : String} {m : ShardMap} (hmap : link.mapOf table = .ok m) :
    m ∈ link.maps := by
  unfold mapOf at hmap
  split at hmap
  · rename_i found hfind
    cases hmap
    exact List.mem_of_find?_eq_some hfind
  · cases hmap

/-- Every shard of a table has a part in the plan of a read of all rows, at its own table. -/
theorem Sound.exists_plan_all (hlink : link.Sound) (hknown : link.KnowsShards) {table : String}
    {m : ShardMap} (hmap : link.mapOf table = .ok m) {shard : ShardId}
    (hshard : shard ∈ m.shardIds) :
    ∃ plan, link.plan (.select (.all table)) = .ok plan ∧
      (shard, .select (.all (m.physicalTable shard))) ∈ plan := by
  have hregistered := hknown m (mem_maps_of_mapOf hmap)
  have hmap' : link.mapOf (Query.select (.all table)).table = .ok m := hmap
  have hplan := plan_eq_ok_of_followsCondition hlink hmap' rfl (List.ne_nil_of_mem hshard)
    hregistered
  refine ⟨_, hplan, List.mem_map.mpr ⟨shard, ?_, ?_⟩⟩
  · exact List.mem_filter.mpr ⟨hregistered shard hshard, decide_eq_true hshard⟩
  · have haimed : (Select.all table).retarget (m.physicalTable shard) =
        .all (m.physicalTable shard) := by
      unfold Select.retarget
      split
      · rename_i hsame
        rw [← hsame]
        rfl
      · rfl
    exact congrArg (fun select => (shard, Query.select select)) haimed

end Sharded

namespace Registry

variable {β : Type} {registry registry' : Registry β} {P : String → Link β → Prop}

/-- Are all links of a registry such, under their names? -/
def All (P : String → Link β → Prop) (registry : Registry β) : Prop :=
  ∀ name link, registry.get name = .ok link → P name link

theorem All.register (hall : registry.All P) {name : String} {link : Link β} (hlink : P name link)
    (h : registry.register name link = .ok registry') : registry'.All P := by
  intro other found hfound
  by_cases hname : other = name
  · rw [hname, (register_eq_ok h).1] at hfound
    cases hfound
    rw [hname]
    exact hlink
  · refine hall other found ?_
    unfold Registry.register at h
    split at h
    · cases h
    · cases h
      rw [get_eq_ok, lookup_insertSorted_of_ne hname] at hfound
      exact get_eq_ok.mpr hfound

theorem get_of_sharded {name : String} {link : Sharded β} (h : registry.sharded name = .ok link) :
    registry.get name = .ok (.sharded link) := by
  unfold Registry.sharded at h
  obtain ⟨found, hfound, h⟩ := exists_of_bind_eq_ok h
  cases found with
  | sharded found =>
    cases h
    exact hfound
  | _ => cases h

end Registry

namespace Config

variable {lock : Locks.ScopedLock} {registry registry' : Registry Endpoints}
  {free free' : FreeLinks} {w w' : World Endpoints} {known : List ShardedEntry}

/-- A table is only divided over shards that the link has. -/
theorem knowsShards_addTable {link link' : Sharded Endpoints} {e : TableEntry}
    (hlink : link.KnowsShards) (h : addTable link e = .ok link') : link'.KnowsShards := by
  unfold addTable at h
  obtain ⟨m, hmap, h⟩ := exists_of_bind_eq_ok h
  cases h
  have hshards := TableEntry.isKnown_of_foldlM_addTo hmap
  obtain ⟨-, rfl⟩ := TableEntry.shardMap_eq_ok hmap
  refine hlink.setMap (List.forall_mem_map.mpr fun s hs => ?_)
  exact List.contains_iff_mem.mp (hshards s hs)

theorem knowsShards_foldlM_addTable {link link' : Sharded Endpoints} {tables : List TableEntry}
    (hlink : link.KnowsShards) (h : tables.foldlM addTable link = .ok link') :
    link'.KnowsShards := by
  induction tables generalizing link with
  | nil =>
    cases h
    exact hlink
  | cons e rest ih =>
    rw [List.foldlM_cons] at h
    obtain ⟨between, hadd, hrest⟩ := exists_of_bind_eq_ok h
    exact ih (knowsShards_addTable hlink hadd) hrest

theorem knowsShards_shardedLink {link : Sharded Endpoints} {entry : ShardedEntry}
    (h : shardedLink free entry = .ok (link, free')) : link.KnowsShards := by
  unfold shardedLink at h
  obtain ⟨⟨bare, left⟩, hshards, h⟩ := exists_of_bind_eq_ok h
  obtain ⟨full, htables, h⟩ := exists_of_bind_eq_ok h
  cases h
  refine knowsShards_foldlM_addTable (fun m hm => ?_) htables
  rw [(addShards_eq_ok .empty hshards).2] at hm
  cases hm

/-- Does a link, if it is a sharded one, come from one of some entries? -/
def ComesFrom (known : List ShardedEntry) (name : String) : Link Endpoints → Prop
  | .sharded link =>
    ∃ entry ∈ known, entry.name = name ∧ Realizes link entry ∧ link.KnowsShards
  | _ => True

/-- Sharded links are registered for their entries only. -/
theorem all_registerSharded {entries : List ShardedEntry}
    (hknown : ∀ entry ∈ entries, entry ∈ known) (hall : registry.All (ComesFrom known))
    (h : (registerSharded lock registry free entries).outcome w = (.ok (registry', free'), w')) :
    registry'.All (ComesFrom known) := by
  induction entries generalizing registry free w with
  | nil =>
    cases h
    exact hall
  | cons entry rest ih =>
    rw [List.forall_mem_cons] at hknown
    rw [registerSharded] at h
    obtain ⟨⟨link, left⟩, _, hlink, h⟩ := Call.exists_of_bind_ok h
    obtain ⟨own, _, -, h⟩ := Call.exists_of_bind_ok h
    obtain ⟨between, _, hregister, h⟩ := Call.exists_of_bind_ok h
    rw [Call.outcome_done, Prod.mk.injEq] at hlink hregister
    have hrealizes := realizes_shardedLink hlink.1
    have hknows : link.KnowsShards := knowsShards_shardedLink hlink.1
    have hcomes : ComesFrom known entry.name (.sharded (link.setLock own)) :=
      ⟨entry, hknown.1, rfl, ⟨hrealizes.built.setLock own, hrealizes.maps⟩, hknows⟩
    exact ih hknown.2 (hall.register hcomes hregister.1) h

theorem all_registerReplicated {entries : List ReplicatedEntry}
    (hall : registry.All (ComesFrom known))
    (h : (registerReplicated lock registry free entries).outcome w =
      (.ok (registry', free'), w')) : registry'.All (ComesFrom known) := by
  induction entries generalizing registry free w with
  | nil =>
    cases h
    exact hall
  | cons entry rest ih =>
    rw [registerReplicated] at h
    obtain ⟨cursor, _, -, h⟩ := Call.exists_of_bind_ok h
    obtain ⟨⟨link, left⟩, _, -, h⟩ := Call.exists_of_bind_ok h
    obtain ⟨own, _, -, h⟩ := Call.exists_of_bind_ok h
    obtain ⟨between, _, hregister, h⟩ := Call.exists_of_bind_ok h
    rw [Call.outcome_done, Prod.mk.injEq] at hregister
    have hcomes : ComesFrom known entry.name (.replicated (link.setLock own)) := trivial
    exact ih (hall.register hcomes hregister.1) h

theorem all_registerFree (hall : registry.All (ComesFrom known))
    (h : registerFree registry free = .ok registry') : registry'.All (ComesFrom known) := by
  unfold registerFree at h
  induction free generalizing registry with
  | nil =>
    cases h
    exact hall
  | cons entry rest ih =>
    rw [List.foldlM_cons] at h
    obtain ⟨between, hregister, h⟩ := exists_of_bind_eq_ok h
    have hcomes : ComesFrom known entry.1 (.single entry.2) := trivial
    exact ih (hall.register hcomes hregister) h

/-- The choice of a default registers no link. -/
theorem all_chooseDefault {default : Option String} (hall : registry.All (ComesFrom known))
    (h : chooseDefault registry default = .ok registry') : registry'.All (ComesFrom known) := by
  unfold chooseDefault at h
  cases default with
  | none =>
    cases h
    exact hall
  | some name =>
    dsimp only at h
    unfold Registry.setDefaultName at h
    split at h
    · cases h
      exact hall
    · cases h

end Config

/-- The sharded links of what is built of a configuration come from its entries. -/
theorem LocatedConfig.comesFrom_of_build {located : LocatedConfig} {w w' : World Endpoints}
    {context : Context} (hbuild : located.build.outcome w = (.ok context, w')) :
    context.registry.All (Config.ComesFrom located.config.sharded) := by
  unfold build at hbuild
  obtain ⟨_, _, -, h⟩ := Call.exists_of_bind_ok hbuild
  obtain ⟨lock, _, -, h⟩ := Call.exists_of_bind_ok h
  obtain ⟨free, _, -, h⟩ := Call.exists_of_bind_ok h
  obtain ⟨⟨composed, left⟩, _, hsharded, h⟩ := Call.exists_of_bind_ok h
  obtain ⟨⟨replicated, left'⟩, _, hreplicated, h⟩ := Call.exists_of_bind_ok h
  obtain ⟨all, _, hfree, h⟩ := Call.exists_of_bind_ok h
  obtain ⟨chosen, _, hdefault, h⟩ := Call.exists_of_bind_ok h
  rw [Call.outcome_done, Prod.mk.injEq] at hfree hdefault
  cases h
  have hempty : (Registry.empty : Registry Endpoints).All
      (Config.ComesFrom located.config.sharded) := fun _ _ hget => by cases hget
  have hcomposed := Config.all_registerSharded (fun _ hentry => hentry) hempty hsharded
  have hreplicated' := Config.all_registerReplicated hcomposed hreplicated
  exact Config.all_chooseDefault (Config.all_registerFree hreplicated' hfree.1) hdefault.1

/-! ## The truth about routes -/

namespace Command

/--
In what is built of a configuration, a request for a route of a table is answered for the map that
the last entry for the table describes, with the table of each shard, and changes nothing. It is
told exactly the shards that hold a key that is asked about, in order, if and only if the key is
read as a bare name, or every shard holds such a key; if the key is read as a column of a table, it
is told all shards, as it is when it asks about nothing in particular. What any plan asks of a
shard, it asks of the table that is told, and every shard of the table has a part in the plan of a
read of all rows.
-/
theorem route_truthful_iff {located : LocatedConfig} {w w' : World Endpoints} {context : Context}
    (hbuild : located.build.outcome w = (.ok context, w'))
    (hfits : ∀ entry ∈ located.config.sharded, entry.Fits) {name : String}
    {link : Sharded Endpoints} (hlink : context.registry.sharded name = .ok link) {table : String}
    {m : ShardMap} (hmap : link.mapOf table = .ok m) {value min max : Option Int}
    (hvalue : ∀ v ∈ value, fitsSigned v = true) (hmin : ∀ lo ∈ min, fitsSigned lo = true)
    (hmax : ∀ hi ∈ max, fitsSigned hi = true) :
    (∃ entry ∈ located.config.sharded, entry.name = name ∧
      ∃ e, entry.lastFor table = some e ∧ m = e.described) ∧
    (∀ json now, ExceptT.run (runRoute context name table value min max json) now =
      (.ok (listing json table m.key (withTables m (routeShards m value min max))), now)) ∧
    (routeShards m value min max = holders m value min max ↔
      ColumnRef.ofText m.key = .bare m.key ∨ ∀ s ∈ m.shards, Holds value min max s.range) ∧
    (ColumnRef.ofText m.key ≠ .bare m.key → routeShards m value min max = m.shardIds) ∧
    routeShards m none none none = m.shardIds ∧
    ∀ shard ∈ m.shardIds,
      (∀ query plan part, query.table = table → link.plan query = .ok plan →
        (shard, part) ∈ plan → part.table = m.physicalTable shard) ∧
      ∃ plan, link.plan (.select (.all table)) = .ok plan ∧
        (shard, .select (.all (m.physicalTable shard))) ∈ plan := by
  obtain ⟨entry, hentry, hname, hrealizes, hknows⟩ :=
    LocatedConfig.comesFrom_of_build hbuild name _ (Registry.get_of_sharded hlink)
  have hsound := hrealizes.built.sound
  obtain ⟨e, hlast, hm⟩ : ∃ e, entry.lastFor table = some e ∧ m = e.described := by
    have hmaps := (hrealizes.maps table).symm.trans hmap
    cases hlast : entry.lastFor table with
    | none =>
      rw [hlast] at hmaps
      cases hmaps
    | some e =>
      rw [hlast] at hmaps
      exact ⟨e, rfl, (Except.ok.inj hmaps).symm⟩
  have hranges : ∀ s ∈ m.shards, s.range.Fits := by
    have he := List.mem_reverse.mp (List.mem_of_find?_eq_some hlast)
    rw [hm]
    exact fun s hs => ((hfits entry hentry).tables e he s hs).range
  refine ⟨⟨entry, hentry, hname, e, hlast, hm⟩, run_runRoute hlink hmap value min max, ?_,
    routeShards_eq_shardIds hvalue hmin hmax, rfl, fun shard hshard => ⟨?_, ?_⟩⟩
  · by_cases hbare : ColumnRef.ofText m.key = .bare m.key
    · exact iff_of_true
        (routeShards_eq_holders (hsound.built hmap) hranges hvalue hmin hmax hbare) (Or.inl hbare)
    · rw [routeShards_eq_shardIds hvalue hmin hmax hbare, or_iff_right hbare, eq_comm]
      exact holders_eq_shardIds_iff
  · rintro query plan part rfl hplan hpart
    obtain ⟨m', hmap', hdispatch⟩ := hsound.isDispatch hplan
    obtain rfl : m = m' := Except.ok.inj (hmap.symm.trans hmap')
    exact hdispatch.tables _ hpart
  · exact hsound.exists_plan_all hknows hmap hshard

/-- How orders are divided: by their number. -/
def ordersEntry : TableEntry :=
  ⟨"orders", "id", [⟨1, .atMost 99, some "orders_low"⟩, ⟨2, .atLeast 100, none⟩]⟩

/-- How visits are divided: by a key with a dot. -/
def visitsEntry : TableEntry :=
  ⟨"visits", "user.id", [⟨1, .atMost 99, none⟩, ⟨2, .atLeast 100, none⟩]⟩

/-- A shop with its orders and visits on two databases. -/
def shop : LocatedConfig where
  config :=
    { version := "1"
      links := [("east", .memory), ("west", .memory)]
      default := none
      sharded := [⟨"shop", [⟨1, "east"⟩, ⟨2, "west"⟩], [ordersEntry, visitsEntry]⟩]
      replicated := []
      locks := .default }
  base := none

theorem fits_shop : ∀ entry ∈ shop.config.sharded, entry.Fits := by
  have hlow : KeyRange.Fits (.atMost 99) := KeyRange.fits_atMost (by decide)
  have hhigh : KeyRange.Fits (.atLeast 100) := KeyRange.fits_atLeast (by decide)
  refine List.forall_mem_singleton.mpr ⟨by unfold ShardEntry.Fits; decide, ?_⟩
  simp only [List.forall_mem_cons, TableEntry.Fits, ordersEntry, visitsEntry]
  exact ⟨⟨⟨by decide, hlow⟩, ⟨by decide, hhigh⟩, List.forall_mem_nil _⟩,
    ⟨⟨by decide, hlow⟩, ⟨by decide, hhigh⟩, List.forall_mem_nil _⟩, List.forall_mem_nil _⟩

/-- The shop is built, and divides its tables as it says. -/
theorem exists_shop :
    ∃ context w', shop.build.outcome ⟨⟨0, 0, [], ⟨[], []⟩, [], []⟩, [], [], .empty⟩ =
        (.ok context, w') ∧
      ∃ link, context.registry.sharded "shop" = .ok link ∧
        link.mapOf "orders" = .ok ordersEntry.described ∧
        link.mapOf "visits" = .ok visitsEntry.described := by
  have hbuild : shop.build.outcome ⟨⟨0, 0, [], ⟨[], []⟩, [], []⟩, [], [], .empty⟩ =
      (.ok _, _) := rfl
  obtain ⟨link, hget, hrealizes⟩ :=
    LocatedConfig.hasLinkFor_of_build hbuild List.mem_cons_self
  refine ⟨_, _, hbuild, link, ?_, hrealizes.maps "orders", hrealizes.maps "visits"⟩
  rw [Registry.sharded, hget]
  rfl

/-- Orders from 90 to 95 are on the first shard alone, in a table of another name. -/
theorem route_truthful_orders :
    ∃ context w', shop.build.outcome ⟨⟨0, 0, [], ⟨[], []⟩, [], []⟩, [], [], .empty⟩ =
        (.ok context, w') ∧
      (∃ link, context.registry.sharded "shop" = .ok link ∧
        ∃ plan, link.plan (.select (.all "orders")) = .ok plan ∧
          (1, .select (.all "orders_low")) ∈ plan) ∧
      holders ordersEntry.described none (some 90) (some 95) = [1] ∧
      ∀ now, ExceptT.run (runRoute context "shop" "orders" none (some 90) (some 95) false) now =
        (.ok "ℹ orders.id routes to shard(s) 1\n  • shard 1 → orders_low\n", now) := by
  obtain ⟨context, w', hbuild, link, hlink, horders, -⟩ := exists_shop
  have hlow : ∀ lo ∈ some (90 : Int), fitsSigned lo = true := by decide
  have hhigh : ∀ hi ∈ some (95 : Int), fitsSigned hi = true := by decide
  have hnone : ∀ v ∈ (none : Option Int), fitsSigned v = true := nofun
  obtain ⟨-, hrun, htruth, -, -, hplans⟩ :=
    route_truthful_iff hbuild fits_shop hlink horders hnone hlow hhigh
  have hholders : holders ordersEntry.described none (some 90) (some 95) = [1] := by decide
  refine ⟨context, w', hbuild, ⟨link, hlink, (hplans 1 (by decide)).2⟩, hholders, fun now => ?_⟩
  rw [hrun, htruth.mpr (Or.inl (by decide)), hholders]
  have hlisting : listing false "orders" ordersEntry.described.key
      (withTables ordersEntry.described [1]) =
        "ℹ orders.id routes to shard(s) 1\n  • shard 1 → orders_low\n" := by cbv
  rw [hlisting]

/--
A visit with the number 5 is on the first shard alone, but a request for its route is told both
shards: the key of visits is read as the column `id` of a table `user`.
-/
theorem dotted_key_is_told_all_shards :
    ∃ context w', shop.build.outcome ⟨⟨0, 0, [], ⟨[], []⟩, [], []⟩, [], [], .empty⟩ =
        (.ok context, w') ∧
      ∃ link m, context.registry.sharded "shop" = .ok link ∧ link.mapOf "visits" = .ok m ∧
        (m.shards.filter fun s => s.range.contains 5).map ShardRange.shard = [1] ∧
        ∀ now, ExceptT.run (runRoute context "shop" "visits" (some 5) none none false) now =
          (.ok ("ℹ visits.user.id routes to shard(s) 1, 2\n" ++
            "  • shard 1 → visits\n  • shard 2 → visits\n"), now) := by
  obtain ⟨context, w', hbuild, link, hlink, -, hvisits⟩ := exists_shop
  refine ⟨context, w', hbuild, link, _, hlink, hvisits, by decide, fun now => ?_⟩
  rw [run_runRoute hlink hvisits]
  have hlisting : listing false "visits" visitsEntry.described.key
      (withTables visitsEntry.described (routeShards visitsEntry.described (some 5) none none)) =
        "ℹ visits.user.id routes to shard(s) 1, 2\n" ++
          "  • shard 1 → visits\n  • shard 2 → visits\n" := by cbv
  rw [hlisting]

end Command

end SqlFederation
