import Mathlib
import SqlFederation.Merge.Rows
import SqlFederation.Query.Codec
import SqlFederation.Proofs.Decoding
import SqlFederation.Proofs.Truth

/-!
# Queries read back

A query is written as an object that says which kind it is, with one entry for each part; parts that
are absent have none. `Query.WrittenAs` relates a query with every object that is written like that,
but for entries that hold the default of their part, which may be left out at any depth: the value
null of a comparison, a sort key that puts nulls last, and empty lists of outputs, group columns and
sort keys. What `Query.toJson` writes is one of them (`Query.writtenAs_toJson`), and each of them is
read as the query (`Query.ofJson?_of_writtenAs`). Predicates are the only part that nests; there
both go by induction on the predicate (`Predicate.writtenAs_toJson`,
`Predicate.read?_of_writtenAs`).
-/

namespace SqlFederation

/-! ## Columns and names -/

theorem ColumnRef.ofJson?_toJson (column : ColumnRef) : ofJson? column.toJson = some column := by
  let entries := Json.entry? "table" (column.table.map .str) ++ [("name", .str column.name)]
  have hentries : parts.entries? column.toJson = some entries := rfl
  have htable : Json.optional entries "table" Json.asStr? = some column.table := by
    refine Json.optional_map_eq_some .str ?_ fun _ _ => ⟨Json.noConfusion, rfl⟩
    simp [entries, List.lookup_append, List.lookup_cons]
  have hname : Json.field entries "name" Json.asStr? = some column.name := by
    refine Json.field_eq_some (.str column.name) ?_ rfl
    simp [entries, List.lookup_append]
  simp only [ofJson?, hentries, htable, hname, Option.bind_eq_bind, Option.bind_some]

theorem Comparator.lookup_named (op : Comparator) : named.lookup op.name = some op := by
  cases op
  all_goals decide

theorem Connective.lookup_named (connective : Connective) :
    named.lookup connective.sql = some connective := by
  cases connective
  all_goals decide

theorem Aggregate.lookup_named (function : Aggregate) :
    named.lookup function.name = some function := by
  cases function
  all_goals decide

theorem Direction.lookup_named (direction : Direction) :
    named.lookup direction.name = some direction := by
  cases direction
  all_goals decide

/-! ## Predicates -/

namespace Predicate

mutual

/-- Is a predicate written as this, where comparisons with null may leave the null out? -/
def WrittenAs : Predicate → Json → Prop
  | .compare column op value, json =>
    ∃ shown, json = .obj ([("node", .str "comparison"), ("field", column.toJson),
      ("op", .str op.name)] ++ Json.entry? "value" shown) ∧ Json.MayOmit Eq .null value shown
  | .join connective children, json =>
    ∃ items, json = .obj [("node", .str "conjunction"), ("logic", .str connective.sql),
      ("children", .arr items)] ∧ AllWrittenAs children items

/-- Are predicates written as these items, one after the other? -/
def AllWrittenAs : List Predicate → List Json → Prop
  | [], items => items = []
  | child :: rest, items =>
    ∃ item others, items = item :: others ∧ child.WrittenAs item ∧ AllWrittenAs rest others

end

theorem allWrittenAs_iff {children : List Predicate} {items : List Json} :
    AllWrittenAs children items ↔ List.Forall₂ WrittenAs children items := by
  induction children generalizing items with
  | nil => rw [AllWrittenAs, List.forall₂_nil_left_iff]
  | cons child rest ih =>
    rw [AllWrittenAs, List.forall₂_cons_left_iff]
    simp only [ih]
    constructor
    · rintro ⟨item, others, rfl, hitem, hothers⟩
      exact ⟨item, others, hitem, hothers, rfl⟩
    · rintro ⟨item, others, hitem, hothers, rfl⟩
      exact ⟨item, others, rfl, hitem, hothers⟩

theorem toJsonAll_eq_map (children : List Predicate) :
    toJsonAll children = children.map toJson := by
  induction children with
  | nil => rfl
  | cons child rest ih => rw [toJsonAll, ih, List.map_cons]

theorem writtenAs_toJson (p : Predicate) : p.WrittenAs p.toJson := by
  induction p using Predicate.induct with
  | compare column op value =>
    rw [WrittenAs, toJson]
    exact ⟨some value, rfl, Json.MayOmit.kept rfl⟩
  | join connective children ih =>
    rw [WrittenAs, toJson]
    refine ⟨_, rfl, ?_⟩
    rw [allWrittenAs_iff, toJsonAll_eq_map, List.forall₂_map_right_iff]
    exact List.forall₂_same.mpr ih

/-- A list is read back if each of its predicates is. -/
theorem allOf_eq_some {children : List Predicate} {items : List Json}
    (h : List.Forall₂ WrittenAs children items)
    (hread : ∀ child ∈ children, ∀ item, child.WrittenAs item → read? true item = some child) :
    allOf items = some children := by
  induction h with
  | nil => rfl
  | cons hchild _ ih =>
    rw [List.forall_mem_cons] at hread
    rw [allOf, hread.1 _ hchild, ih hread.2]
    rfl

/-- A predicate is read back, within another one or not, and whether or not nulls are left out. -/
theorem read?_of_writtenAs {p : Predicate} {json : Json} (h : p.WrittenAs json) (inside : Bool) :
    read? inside json = some p := by
  induction p using Predicate.induct generalizing json inside with
  | compare column op value =>
    rw [WrittenAs] at h
    obtain ⟨shown, rfl, hshown⟩ := h
    let entries := [("node", .str "comparison"), ("field", column.toJson),
      ("op", .str op.name)] ++ Json.entry? "value" shown
    have hnode : Json.field entries "node" (Json.kind? inside kinds) = some "comparison" :=
      Json.field_eq_some (.str "comparison") rfl rfl
    have hfield : Json.field entries "field" ColumnRef.ofJson? = some column :=
      Json.field_eq_some column.toJson rfl column.ofJson?_toJson
    have hop : Json.field entries "op" (Json.oneOf true Comparator.named) = some op :=
      Json.field_eq_some (.str op.name) rfl (Json.oneOf_str true op.lookup_named)
    have hvalue : (entries.lookup "value").getD .null = value := by
      have hlookup : entries.lookup "value" = shown := by
        simp [entries, List.lookup_cons]
      rw [hlookup]
      -- A value that is left out is read as null, and only a null is left out.
      cases hshown with
      | kept hsame => exact hsame.symm
      | omitted hnull => exact hnull.symm
    show read? inside (.obj entries) = _
    rw [read?, hnode]
    show comparison? entries = _
    rw [comparison?, hfield, hop, hvalue]
    rfl
  | join connective children ih =>
    rw [WrittenAs] at h
    obtain ⟨items, rfl, hitems⟩ := h
    let entries : List (String × Json) := [("node", .str "conjunction"),
      ("logic", .str connective.sql), ("children", .arr items)]
    have hnode : Json.field entries "node" (Json.kind? inside kinds) = some "conjunction" :=
      Json.field_eq_some (.str "conjunction") rfl rfl
    have hlogic : Json.field entries "logic" connective? = some connective :=
      Json.field_eq_some (.str connective.sql) rfl (Json.oneOf_str true connective.lookup_named)
    have hchildren : childrenOf entries = some children :=
      allOf_eq_some (allWrittenAs_iff.mp hitems) fun child hchild item hitem =>
        ih child hchild hitem true
    show read? inside (.obj entries) = _
    rw [read?, hnode, hlogic, hchildren]
    rfl

/-- A predicate that is written is not null, and is read back. -/
theorem ne_null_and_read? {p : Predicate} {json : Json} (inside : Bool) (h : p.WrittenAs json) :
    json ≠ .null ∧ read? inside json = some p := by
  have hread := read?_of_writtenAs h inside
  refine ⟨?_, hread⟩
  rintro rfl
  simp [read?] at hread

end Predicate

/-! ## The parts of a select -/

theorem Expression.read?_toJson (expression : Expression) (inside : Bool) :
    read? inside expression.toJson = some expression := by
  cases expression with
  | column c =>
    let entries := [("kind", .str "column"), ("field", c.toJson)]
    have htagged : (Json.obj entries).tagged? inside "kind" kinds = some ("column", entries) :=
      Json.tagged?_obj inside kinds rfl
    have hfield : Json.field entries "field" ColumnRef.ofJson? = some c :=
      Json.field_eq_some c.toJson rfl c.ofJson?_toJson
    show read? inside (.obj entries) = _
    rw [read?, htagged]
    show (Json.field entries "field" ColumnRef.ofJson? >>= fun c =>
      some (Expression.column c)) = _
    rw [hfield]
    rfl
  | aggregate function c =>
    let entries := [("kind", .str "aggregate"), ("func", .str function.name)] ++
      Json.entry? "column" (c.map ColumnRef.toJson)
    have htagged : (Json.obj entries).tagged? inside "kind" kinds = some ("aggregate", entries) :=
      Json.tagged?_obj inside kinds rfl
    have hfunction : Json.field entries "func" (Json.oneOf true Aggregate.named) = some function :=
      Json.field_eq_some (.str function.name) rfl (Json.oneOf_str true function.lookup_named)
    have hcolumn : Json.optional entries "column" ColumnRef.ofJson? = some c := by
      refine Json.optional_map_eq_some ColumnRef.toJson ?_ fun column _ =>
        ⟨Json.noConfusion, column.ofJson?_toJson⟩
      simp [entries, List.lookup_cons]
    show read? inside (.obj entries) = _
    rw [read?, htagged]
    show (Json.field entries "func" (Json.oneOf true Aggregate.named) >>= fun function =>
      Json.optional entries "column" ColumnRef.ofJson? >>= fun c =>
        some (Expression.aggregate function c)) = _
    rw [hfunction, hcolumn]
    rfl

theorem Output.read?_toJson (output : Output) (inside : Bool) :
    read? inside output.toJson = some output := by
  let entries := [("expr", output.expression.toJson)] ++
    Json.entry? "alias" (output.label.map .str)
  have hentries : parts.entries? output.toJson = some entries := rfl
  have hexpression : Json.field entries "expr" (Expression.read? inside) =
      some output.expression :=
    Json.field_eq_some output.expression.toJson rfl (output.expression.read?_toJson inside)
  have hlabel : Json.optional entries "alias" Json.asStr? = some output.label := by
    refine Json.optional_map_eq_some .str ?_ fun _ _ => ⟨Json.noConfusion, rfl⟩
    simp [entries, List.lookup_cons]
  simp only [read?, hentries, hexpression, hlabel, Option.bind_eq_bind, Option.bind_some]

namespace SortKey

/-- Is a sort key written as this, where one that puts nulls last may leave that out? -/
def WrittenAs (key : SortKey) (json : Json) : Prop :=
  ∃ shown, json = .obj ([("field", key.column.toJson), ("direction", .str key.direction.name)] ++
      Json.entry? "nulls_first" shown) ∧
    Json.MayOmit (fun nullsFirst json => .bool nullsFirst = json) false key.nullsFirst shown

theorem writtenAs_toJson (key : SortKey) : key.WrittenAs key.toJson :=
  ⟨some (.bool key.nullsFirst), rfl, Json.MayOmit.kept rfl⟩

theorem read?_of_writtenAs {key : SortKey} {json : Json} (h : key.WrittenAs json)
    (inside : Bool) : read? inside json = some key := by
  obtain ⟨shown, rfl, hshown⟩ := h
  let entries := [("field", key.column.toJson), ("direction", .str key.direction.name)] ++
    Json.entry? "nulls_first" shown
  have hentries : parts.entries? (.obj entries) = some entries := rfl
  have hcolumn : Json.field entries "field" ColumnRef.ofJson? = some key.column :=
    Json.field_eq_some key.column.toJson rfl key.column.ofJson?_toJson
  have hdirection : Json.field entries "direction" (Json.oneOf inside Direction.named) =
      some key.direction :=
    Json.field_eq_some (.str key.direction.name) rfl
      (Json.oneOf_str inside key.direction.lookup_named)
  have hnulls : Json.withDefault entries "nulls_first" false Json.asBool? =
      some key.nullsFirst := by
    refine Json.withDefault_eq_some ?_ hshown ?_
    · simp [entries, List.lookup_cons]
    · rintro json rfl
      rfl
  show read? inside (.obj entries) = _
  simp only [read?, hentries, hcolumn, hdirection, hnulls, Option.bind_eq_bind, Option.bind_some]

end SortKey

/-! ## Queries -/

namespace Select

/-- Do a limit and an offset fit 64 bits? -/
def PageFits (select : Select) : Prop :=
  (∀ n ∈ select.limit, n ≤ Merge.maxLimit) ∧ ∀ n ∈ select.offset, n ≤ Merge.maxLimit

/-- Is a select written as these entries, where empty lists may be left out? -/
def WrittenAs (select : Select) (entries : List (String × Json)) : Prop :=
  ∃ outputs predicate groupBy orderBy,
    entries = [("table", .str select.table)] ++ Json.entry? "fields" outputs ++
      Json.entry? "predicate" predicate ++ Json.entry? "group_by" groupBy ++
      Json.entry? "order_by" orderBy ++ Json.entry? "limit" (select.limit.map Json.ofNat) ++
      Json.entry? "offset" (select.offset.map Json.ofNat) ∧
    Json.MayOmit (Json.Lists fun output json => output.toJson = json) [] select.outputs outputs ∧
    Option.Rel Predicate.WrittenAs select.predicate predicate ∧
    Json.MayOmit (Json.Lists fun column json => column.toJson = json) [] select.groupBy groupBy ∧
    Json.MayOmit (Json.Lists SortKey.WrittenAs) [] select.orderBy orderBy

theorem writtenAs_toEntries (select : Select) : select.WrittenAs select.toEntries := by
  refine ⟨some (.arr (select.outputs.map Output.toJson)), select.predicate.map Predicate.toJson,
    some (.arr (select.groupBy.map ColumnRef.toJson)),
    some (.arr (select.orderBy.map SortKey.toJson)), ?_, ?_, ?_, ?_, ?_⟩
  · simp [toEntries, Json.entry?]
  · exact Json.MayOmit.kept (Json.lists_map (fun _ => rfl) _)
  · exact Json.rel_map Predicate.writtenAs_toJson _
  · exact Json.MayOmit.kept (Json.lists_map (fun _ => rfl) _)
  · exact Json.MayOmit.kept (Json.lists_map SortKey.writtenAs_toJson _)

/-- A select is read back from its entries, behind the one that says that it is a select. -/
theorem ofEntries?_of_writtenAs {select : Select} {entries : List (String × Json)}
    (h : select.WrittenAs entries) (hpage : select.PageFits) (inside : Bool) (kind : Json) :
    ofEntries? inside (("type", kind) :: entries) = some select := by
  obtain ⟨outputs, predicate, groupBy, orderBy, rfl, houtputs, hpredicate, hgroupBy, horderBy⟩ := h
  -- From here on only the lookups of the parts matter, not how the entries were put together.
  generalize hentries : ("type", kind) :: _ = entries
  have htable : Json.field entries "table" Json.asStr? = some select.table := by
    refine Json.field_eq_some (.str select.table) ?_ rfl
    simp [← hentries, List.lookup_cons]
  have hfields : Json.withDefault entries "fields" [] (Json.list (Output.read? inside)) =
      some select.outputs := by
    refine Json.withDefault_eq_some ?_ houtputs fun json hjson => ?_
    · simp [← hentries, List.lookup_cons, List.lookup_append]
    · refine Json.list_eq_some hjson ?_
      rintro output - json rfl
      exact output.read?_toJson inside
  have hwhere : Json.optional entries "predicate" (Predicate.read? inside) =
      some select.predicate := by
    refine Json.optional_eq_some ?_ hpredicate fun _ _ _ => Predicate.ne_null_and_read? inside
    simp [← hentries, List.lookup_cons, List.lookup_append]
  have hgroups : Json.withDefault entries "group_by" [] (Json.list ColumnRef.ofJson?) =
      some select.groupBy := by
    refine Json.withDefault_eq_some ?_ hgroupBy fun json hjson => ?_
    · simp [← hentries, List.lookup_cons, List.lookup_append]
    · refine Json.list_eq_some hjson ?_
      rintro column - json rfl
      exact column.ofJson?_toJson
  have horder : Json.withDefault entries "order_by" [] (Json.list (SortKey.read? inside)) =
      some select.orderBy := by
    refine Json.withDefault_eq_some ?_ horderBy fun json hjson => ?_
    · simp [← hentries, List.lookup_cons, List.lookup_append]
    · exact Json.list_eq_some hjson fun key _ json hkey => SortKey.read?_of_writtenAs hkey inside
  have hlimit : Json.optional entries "limit" Json.asNat? = some select.limit := by
    refine Json.optional_map_eq_some Json.ofNat ?_ fun n hn =>
      ⟨Json.noConfusion, Json.asNat?_ofNat (hpage.1 n hn)⟩
    simp [← hentries, List.lookup_cons, List.lookup_append]
  have hoffset : Json.optional entries "offset" Json.asNat? = some select.offset := by
    refine Json.optional_map_eq_some Json.ofNat ?_ fun n hn =>
      ⟨Json.noConfusion, Json.asNat?_ofNat (hpage.2 n hn)⟩
    simp [← hentries, List.lookup_cons, List.lookup_append]
  simp only [ofEntries?, htable, hfields, hwhere, hgroups, horder, hlimit, hoffset,
    Option.bind_eq_bind, Option.bind_some]

end Select

namespace Insert

/-- An insert is read back from its entries, behind the one that says that it is an insert. -/
theorem ofEntries?_toEntries (insert : Insert) (kind : Json) :
    ofEntries? (("type", kind) :: insert.toEntries) = some insert := by
  generalize hentries : ("type", kind) :: _ = entries
  have htable : Json.field entries "table" Json.asStr? = some insert.table := by
    refine Json.field_eq_some (.str insert.table) ?_ rfl
    simp [← hentries, toEntries, List.lookup_cons]
  have hrows : Json.field entries "rows" (Json.list Row.ofJson?) = some insert.rows := by
    refine Json.field_eq_some (.arr (insert.rows.map Row.toJson)) ?_ ?_
    · simp [← hentries, toEntries, List.lookup_cons]
    · exact Json.list_map_eq_some Row.toJson insert.rows fun _ _ => rfl
  have hshown : Json.MayOmit (Json.Lists fun column json => .str column = json) []
      insert.blobColumns
      (if insert.blobColumns.isEmpty then none else some (Json.ofStrings insert.blobColumns)) := by
    split
    · rename_i hempty
      exact Json.MayOmit.omitted (List.isEmpty_iff.mp hempty)
    · exact Json.MayOmit.kept (Json.lists_map (fun _ => rfl) _)
  have hblobs : Json.withDefault entries "blob_columns" [] (Json.list Json.asStr?) =
      some insert.blobColumns := by
    refine Json.withDefault_eq_some ?_ hshown fun json hjson => ?_
    · simp [← hentries, toEntries, List.lookup_cons]
    · refine Json.list_eq_some hjson ?_
      rintro column - json rfl
      rfl
  simp only [ofEntries?, htable, hrows, hblobs, Option.bind_eq_bind, Option.bind_some]

end Insert

namespace Query

/-- Do the limit and the offset of a query fit 64 bits? -/
def PageFits : Query → Prop
  | .select q => q.PageFits
  | _ => True

/-- Is a query written as this, where entries that hold their default may be left out? -/
def WrittenAs : Query → Json → Prop
  | .select q, json =>
    ∃ entries, q.WrittenAs entries ∧ json = .obj (("type", .str "select") :: entries)
  | .insert q, json => json = .obj (("type", .str "insert") :: q.toEntries)
  | .update q, json =>
    ∃ predicate, json = .obj ([("type", .str "update"), ("table", .str q.table),
      ("set", q.set.toJson)] ++ Json.entry? "predicate" predicate) ∧
        Option.Rel Predicate.WrittenAs q.predicate predicate
  | .delete q, json =>
    ∃ predicate, json = .obj ([("type", .str "delete"), ("table", .str q.table)] ++
      Json.entry? "predicate" predicate) ∧ Option.Rel Predicate.WrittenAs q.predicate predicate

theorem writtenAs_toJson (query : Query) : query.WrittenAs query.toJson := by
  cases query with
  | select q => exact ⟨_, q.writtenAs_toEntries, rfl⟩
  | insert q => rfl
  | update q => exact ⟨_, rfl, Json.rel_map Predicate.writtenAs_toJson _⟩
  | delete q => exact ⟨_, rfl, Json.rel_map Predicate.writtenAs_toJson _⟩

/-- A query is read back, whether or not entries that hold their default are left out. -/
theorem ofJson?_of_writtenAs {query : Query} {json : Json} (h : query.WrittenAs json)
    (hpage : query.PageFits) : ofJson? json = some query := by
  cases query with
  | select q =>
    obtain ⟨entries, hentries, rfl⟩ := h
    have htagged := Json.tagged?_obj false kinds
      (rfl : (("type", Json.str "select") :: entries).lookup "type" = some (.str "select"))
    rw [ofJson?, htagged]
    show (Select.ofEntries? true _).map Query.select = _
    rw [Select.ofEntries?_of_writtenAs hentries hpage true]
    rfl
  | insert q =>
    obtain rfl := h
    have htagged := Json.tagged?_obj false kinds
      (rfl : (("type", Json.str "insert") :: q.toEntries).lookup "type" = some (.str "insert"))
    rw [ofJson?, htagged]
    show (Insert.ofEntries? _).map Query.insert = _
    rw [q.ofEntries?_toEntries]
    rfl
  | update q =>
    obtain ⟨predicate, rfl, hpredicate⟩ := h
    generalize hentries : [("type", Json.str "update"), _, _] ++ _ = entries
    have htagged : (Json.obj entries).tagged? false "type" kinds = some ("update", entries) :=
      Json.tagged?_obj false kinds (by rw [← hentries]; rfl)
    have htable : Json.field entries "table" Json.asStr? = some q.table :=
      Json.field_eq_some (.str q.table) (by rw [← hentries]; rfl) rfl
    have hset : Json.field entries "set" Row.ofJson? = some q.set :=
      Json.field_eq_some q.set.toJson (by rw [← hentries]; rfl) rfl
    have hwhere : Json.optional entries "predicate" (Predicate.read? true) = some q.predicate := by
      refine Json.optional_eq_some ?_ hpredicate fun _ _ _ => Predicate.ne_null_and_read? true
      simp [← hentries, List.lookup_cons]
    rw [ofJson?, htagged]
    show (Update.ofEntries? entries).map Query.update = _
    simp only [Update.ofEntries?, htable, hset, hwhere, Option.bind_eq_bind, Option.bind_some,
      Option.map_some]
  | delete q =>
    obtain ⟨predicate, rfl, hpredicate⟩ := h
    generalize hentries : [("type", Json.str "delete"), _] ++ _ = entries
    have htagged : (Json.obj entries).tagged? false "type" kinds = some ("delete", entries) :=
      Json.tagged?_obj false kinds (by rw [← hentries]; rfl)
    have htable : Json.field entries "table" Json.asStr? = some q.table :=
      Json.field_eq_some (.str q.table) (by rw [← hentries]; rfl) rfl
    have hwhere : Json.optional entries "predicate" (Predicate.read? true) = some q.predicate := by
      refine Json.optional_eq_some ?_ hpredicate fun _ _ _ => Predicate.ne_null_and_read? true
      simp [← hentries, List.lookup_cons]
    rw [ofJson?, htagged]
    show (Delete.ofEntries? entries).map Query.delete = _
    simp only [Delete.ofEntries?, htable, hwhere, Option.bind_eq_bind, Option.bind_some,
      Option.map_some]

/--
A query, whose limit and offset fit 64 bits, is read back from what it is written as, and also if
any of the entries that hold the default of their part are taken out, anywhere in the query.
-/
theorem json_roundTrip {query : Query} (hpage : query.PageFits) :
    ofJson? query.toJson = some query ∧ ∀ json, query.WrittenAs json → ofJson? json = some query :=
  ⟨ofJson?_of_writtenAs query.writtenAs_toJson hpage, fun _ h => ofJson?_of_writtenAs h hpage⟩

/-- The last ten orders that are open, or of a customer in some list. -/
def openOrders : Query :=
  .select ⟨"orders", [], some (.any [.all [.compare (.bare "paid_at") .isNull .null,
    .compare (.qualified "orders" "total") .gte (.ofInt 100)],
    .compare (.bare "customer") .eq (.arr [.ofInt 3, .str "x"])]), [],
    [⟨.bare "id", .desc, false⟩], some 10, none⟩

/-- The orders, written without the entries that hold their defaults. -/
def openOrdersInShort : Json :=
  .obj [("type", .str "select"), ("table", .str "orders"),
    ("predicate", .obj [("node", .str "conjunction"), ("logic", .str "OR"),
      ("children", .arr [.obj [("node", .str "conjunction"), ("logic", .str "AND"),
        ("children", .arr [
          .obj [("node", .str "comparison"), ("field", .obj [("name", .str "paid_at")]),
            ("op", .str "is_null")],
          .obj [("node", .str "comparison"),
            ("field", .obj [("table", .str "orders"), ("name", .str "total")]),
            ("op", .str "gte"), ("value", .ofInt 100)]])],
        .obj [("node", .str "comparison"), ("field", .obj [("name", .str "customer")]),
          ("op", .str "eq"), ("value", .arr [.ofInt 3, .str "x"])]])]),
    ("order_by", .arr [.obj [("field", .obj [("name", .str "id")]),
      ("direction", .str "desc")]]),
    ("limit", .ofNat 10)]

/-- The orders are read back from what they are written as, in full and in short. -/
theorem json_roundTrip_openOrders :
    openOrders.PageFits ∧ ofJson? openOrders.toJson = some openOrders ∧
      ofJson? openOrdersInShort = some openOrders := by
  have hpage : openOrders.PageFits := by
    refine ⟨fun n hn => ?_, nofun⟩
    rw [← Option.some.inj hn]
    decide
  have hshort : openOrders.WrittenAs openOrdersInShort := by
    refine ⟨_, ⟨none, some _, none, some _, rfl, .omitted rfl, .some ?_, .omitted rfl,
      .kept ⟨_, rfl, .cons ⟨none, rfl, .omitted rfl⟩ .nil⟩⟩, rfl⟩
    simp only [Predicate.any, Predicate.all, Predicate.WrittenAs, Predicate.AllWrittenAs]
    exact ⟨_, rfl, _, _, rfl, ⟨_, rfl, _, _, rfl, ⟨none, rfl, .omitted rfl⟩, _, _, rfl,
      ⟨some _, rfl, .kept rfl⟩, rfl⟩, _, _, rfl, ⟨some _, rfl, .kept rfl⟩, rfl⟩
  obtain ⟨hfull, hread⟩ := json_roundTrip hpage
  exact ⟨hpage, hfull, hread openOrdersInShort hshort⟩

end Query

end SqlFederation
