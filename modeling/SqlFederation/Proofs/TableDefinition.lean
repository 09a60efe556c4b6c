import SqlFederation.Sql.Schema
import Mathlib.Data.List.Basic

/-!
# The table that a schema defines

A table definition has a line for each column, which is the name of the column and some clauses, and
may have a line for the key (`TableDefinition`). What `Dialect.createTable` writes is the text of
such a definition (`TableSchema.createTable_eq_text`), whose columns are those of the schema in
order. It declares one key, which is that of the schema: with the column if it has one column, and
in a line of its own if it has several (`TableSchema.keys_definition`).

`TableSchema.createTable_keeps_iff` says which constraints of the schema are among the clauses.
A key that stands with its column says that the column is not null and unique. In a key of several
columns that does not follow, and neither is said of them; and a key whose values the database makes
is written without a default and without the column that it refers to.
-/

namespace SqlFederation

/-- A clause of a column definition, behind the name of the column. -/
inductive ColumnClause where
  | type (text : String)
  /-- The type of a key whose values the database makes, and that it is the key. -/
  | generatedKey
  | primaryKey
  | notNull
  | unique
  | default (text : String)
  | references (key : ForeignKey)
  deriving DecidableEq

namespace ColumnClause

def text (dialect : Dialect) : ColumnClause → String
  | .type text => " " ++ text
  | .generatedKey =>
    match dialect with
    | .sqlite => " INTEGER PRIMARY KEY AUTOINCREMENT"
    | .postgres => " SERIAL PRIMARY KEY"
    | .mysql => " INT AUTO_INCREMENT PRIMARY KEY"
  | .primaryKey => " PRIMARY KEY"
  | .notNull => " NOT NULL"
  | .unique => " UNIQUE"
  | .default text => " DEFAULT " ++ text
  | .references key =>
    " REFERENCES " ++ dialect.quote key.table ++ "(" ++ dialect.quote key.column ++ ")"

/-- Does the clause make its column the key? -/
def declaresKey : ColumnClause → Bool
  | .generatedKey | .primaryKey => true
  | _ => false

end ColumnClause

/-- A line of a table definition. -/
inductive DefinitionLine where
  | column (name : String) (clauses : List ColumnClause)
  | key (columns : List String)
  deriving DecidableEq

namespace DefinitionLine

def text (dialect : Dialect) : DefinitionLine → String
  | .column name clauses =>
    dialect.quote name ++ String.join (clauses.map (ColumnClause.text dialect))
  | .key columns => "PRIMARY KEY (" ++ dialect.quoteAll columns ++ ")"

/-- The column that the line defines. -/
def column? : DefinitionLine → Option String
  | .column name _ => some name
  | .key _ => none

/-- The columns of the key that the line declares. -/
def key? : DefinitionLine → Option (List String)
  | .column name clauses => if clauses.any ColumnClause.declaresKey then some [name] else none
  | .key columns => some columns

end DefinitionLine

/-- The definition of a table. -/
structure TableDefinition where
  name : String
  lines : List DefinitionLine
  deriving DecidableEq

namespace TableDefinition

def text (dialect : Dialect) (definition : TableDefinition) : String :=
  "CREATE TABLE " ++ dialect.quote definition.name ++ " (\n  " ++
    ",\n  ".intercalate (definition.lines.map (DefinitionLine.text dialect)) ++ "\n);"

/-- The columns in order. -/
def columns (definition : TableDefinition) : List String :=
  definition.lines.filterMap DefinitionLine.column?

/-- The keys that are declared, each with its columns. -/
def keys (definition : TableDefinition) : List (List String) :=
  definition.lines.filterMap DefinitionLine.key?

end TableDefinition

namespace ColumnSchema

variable (dialect : Dialect) (composite : Bool) (column : ColumnSchema)

/-- Is the column the whole key, with values that the database makes? -/
def isGenerated : Bool :=
  column.isAutoIncrement && column.isPrimaryKey && !composite

/-- The default, unless it is empty. -/
def default? : Option String :=
  column.defaultValue.filter fun text => !text.isEmpty

/-- A clause under a condition. -/
def clauseIf (present : Bool) (clause : ColumnClause) : List ColumnClause :=
  if present then [clause] else []

/-- The clauses of a column that is not generated, behind its type. -/
def constraints : List ColumnClause :=
  clauseIf (column.isPrimaryKey && !composite) .primaryKey ++
    clauseIf (!column.nullable && !column.isPrimaryKey) .notNull ++
    clauseIf (column.isUnique && !column.isPrimaryKey) .unique ++
    column.default?.toList.map .default ++ column.foreignKey.toList.map .references

/-- The clauses of a column; `composite` says that the key is declared for the whole table. -/
def clauses : List ColumnClause :=
  if column.isGenerated composite then [.generatedKey]
  else .type (dialect.columnType column.type) :: column.constraints composite

/-! ### The text of the clauses -/

theorem text_clauseIf (present : Bool) (clause : ColumnClause) :
    String.join ((clauseIf present clause).map (ColumnClause.text dialect)) =
      if present then clause.text dialect else "" := by
  cases present with
  | false => rfl
  | true => exact (String.join_cons ..).trans String.append_empty

theorem text_default :
    String.join ((column.default?.toList.map ColumnClause.default).map
      (ColumnClause.text dialect)) =
      match column.defaultValue with
      | some text => if text.isEmpty then "" else " DEFAULT " ++ text
      | none => "" := by
  unfold default?
  cases column.defaultValue with
  | none => rfl
  | some text =>
    dsimp only
    cases htext : text.isEmpty with
    | true =>
      rw [Option.filter_some, htext]
      rfl
    | false =>
      rw [Option.filter_some, htext]
      exact (String.join_cons ..).trans String.append_empty

theorem text_references :
    String.join ((column.foreignKey.toList.map ColumnClause.references).map
      (ColumnClause.text dialect)) =
      match column.foreignKey with
      | some key =>
        " REFERENCES " ++ dialect.quote key.table ++ "(" ++ dialect.quote key.column ++ ")"
      | none => "" := by
  cases column.foreignKey with
  | none => rfl
  | some key => exact (String.join_cons ..).trans String.append_empty

/-- The text of the clauses behind the type. -/
theorem text_constraints :
    String.join ((column.constraints composite).map (ColumnClause.text dialect)) =
      (if column.isPrimaryKey && !composite then " PRIMARY KEY" else "") ++
      (if !column.nullable && !column.isPrimaryKey then " NOT NULL" else "") ++
      (if column.isUnique && !column.isPrimaryKey then " UNIQUE" else "") ++
      (match column.defaultValue with
        | some text => if text.isEmpty then "" else " DEFAULT " ++ text
        | none => "") ++
      (match column.foreignKey with
        | some key =>
          " REFERENCES " ++ dialect.quote key.table ++ "(" ++ dialect.quote key.column ++ ")"
        | none => "") := by
  unfold constraints
  simp only [List.map_append, String.join_append, text_clauseIf]
  rw [text_default, text_references]
  rfl

/-- The texts of a column definition, as the type and the clauses behind it group them. -/
theorem append_grouped (name blank type key notNull unique default references : String) :
    name ++ blank ++ type ++ key ++ notNull ++ unique ++ default ++ references =
      name ++ (blank ++ type ++ (key ++ notNull ++ unique ++ default ++ references)) := by
  simp only [String.append_assoc]

/-- A column definition is the text of the name and the clauses of the column. -/
theorem columnDefinition_eq_text :
    dialect.columnDefinition composite column =
      (DefinitionLine.column column.name (column.clauses dialect composite)).text dialect := by
  show _ = dialect.quote column.name ++
    String.join ((column.clauses dialect composite).map (ColumnClause.text dialect))
  rw [Dialect.columnDefinition, clauses, ← isGenerated]
  by_cases hgenerated : column.isGenerated composite = true
  · rw [if_pos hgenerated, if_pos hgenerated, List.map_singleton, String.join_cons,
      String.join_nil, String.append_empty]
    rfl
  · have htype : (ColumnClause.type (dialect.columnType column.type)).text dialect =
        " " ++ dialect.columnType column.type := rfl
    rw [if_neg hgenerated, if_neg hgenerated, List.map_cons, String.join_cons, htype,
      text_constraints]
    exact append_grouped ..

/-! ### Which clauses there are -/

variable {dialect} {composite} {column}

theorem mem_clauseIf {present : Bool} {clause other : ColumnClause} :
    other ∈ clauseIf present clause ↔ present = true ∧ other = clause := by
  cases present with
  | false => exact ⟨nofun, nofun⟩
  | true => exact List.mem_singleton.trans (and_iff_right rfl).symm

/-- The clauses of a column that is not generated. -/
theorem mem_clauses_of_not_isGenerated (h : column.isGenerated composite = false)
    {clause : ColumnClause} :
    clause ∈ column.clauses dialect composite ↔
      clause = .type (dialect.columnType column.type) ∨
      ((column.isPrimaryKey && !composite) = true ∧ clause = .primaryKey) ∨
      ((!column.nullable && !column.isPrimaryKey) = true ∧ clause = .notNull) ∨
      ((column.isUnique && !column.isPrimaryKey) = true ∧ clause = .unique) ∨
      (∃ text, column.default? = some text ∧ .default text = clause) ∨
      ∃ key, column.foreignKey = some key ∧ .references key = clause := by
  rw [clauses, h, if_neg Bool.false_ne_true, constraints]
  simp only [List.mem_cons, List.mem_append, mem_clauseIf, List.mem_map, Option.mem_toList,
    or_assoc]

/-- A column declares the key if and only if it is the whole key. -/
theorem any_declaresKey :
    (column.clauses dialect composite).any ColumnClause.declaresKey =
      (column.isPrimaryKey && !composite) := by
  cases hgenerated : column.isGenerated composite with
  | true =>
    have hkey : (column.isPrimaryKey && !composite) = true := by
      rw [isGenerated, Bool.and_assoc, Bool.and_eq_true] at hgenerated
      exact hgenerated.2
    rw [clauses, hgenerated, hkey]
    rfl
  | false =>
    rw [Bool.eq_iff_iff, List.any_eq_true]
    constructor
    · rintro ⟨clause, hclause, hkey⟩
      rw [mem_clauses_of_not_isGenerated hgenerated] at hclause
      obtain rfl | ⟨h, -⟩ | ⟨-, rfl⟩ | ⟨-, rfl⟩ | ⟨_, -, rfl⟩ | ⟨_, -, rfl⟩ := hclause
      case inr.inl => exact h
      all_goals cases hkey
    · intro h
      exact ⟨.primaryKey, (mem_clauses_of_not_isGenerated hgenerated).mpr (.inr (.inl ⟨h, rfl⟩)),
        rfl⟩

/-! ### Which constraints are kept -/

/-- A column that has to have a value says so, or is the whole key. -/
def KeepsNotNull (column : ColumnSchema) (clauses : List ColumnClause) : Prop :=
  column.nullable = false → .notNull ∈ clauses ∨ clauses.any ColumnClause.declaresKey = true

/-- A column of different values says so, or is the whole key. -/
def KeepsUnique (column : ColumnSchema) (clauses : List ColumnClause) : Prop :=
  column.isUnique = true → .unique ∈ clauses ∨ clauses.any ColumnClause.declaresKey = true

/-- A column with a default that is not empty says so. -/
def KeepsDefault (column : ColumnSchema) (clauses : List ColumnClause) : Prop :=
  ∀ text, column.defaultValue = some text → text ≠ "" → .default text ∈ clauses

/-- A column that refers to another one says so. -/
def KeepsReference (column : ColumnSchema) (clauses : List ColumnClause) : Prop :=
  ∀ key, column.foreignKey = some key → .references key ∈ clauses

/-- Is the column in a key of several columns? -/
def isKeyPart (column : ColumnSchema) (composite : Bool) : Bool :=
  column.isPrimaryKey && composite

theorem default?_eq_some {text : String} :
    column.default? = some text ↔ column.defaultValue = some text ∧ text ≠ "" := by
  rw [default?, Option.filter_eq_some_iff, Bool.not_eq_true', ← Bool.not_eq_true,
    String.isEmpty_iff]

/-- A generated column has one clause. -/
theorem clauses_of_isGenerated (h : column.isGenerated composite = true) :
    column.clauses dialect composite = [.generatedKey] := by
  rw [clauses, h, if_pos rfl]

/-- A column that may not be null and is no key says that it is not null. -/
theorem mem_notNull :
    .notNull ∈ column.clauses dialect composite ↔
      column.nullable = false ∧ column.isPrimaryKey = false := by
  cases hgenerated : column.isGenerated composite with
  | true =>
    rw [clauses_of_isGenerated hgenerated]
    rw [isGenerated, Bool.and_eq_true, Bool.and_eq_true] at hgenerated
    simp [hgenerated.1.2]
  | false => simp [mem_clauses_of_not_isGenerated hgenerated]

theorem mem_unique :
    .unique ∈ column.clauses dialect composite ↔
      column.isUnique = true ∧ column.isPrimaryKey = false := by
  cases hgenerated : column.isGenerated composite with
  | true =>
    rw [clauses_of_isGenerated hgenerated]
    rw [isGenerated, Bool.and_eq_true, Bool.and_eq_true] at hgenerated
    simp [hgenerated.1.2]
  | false => simp [mem_clauses_of_not_isGenerated hgenerated]

theorem mem_default {text : String} :
    .default text ∈ column.clauses dialect composite ↔
      column.isGenerated composite = false ∧ column.default? = some text := by
  cases hgenerated : column.isGenerated composite with
  | true =>
    rw [clauses_of_isGenerated hgenerated]
    simp
  | false => simp [mem_clauses_of_not_isGenerated hgenerated]

theorem mem_references {key : ForeignKey} :
    .references key ∈ column.clauses dialect composite ↔
      column.isGenerated composite = false ∧ column.foreignKey = some key := by
  cases hgenerated : column.isGenerated composite with
  | true =>
    rw [clauses_of_isGenerated hgenerated]
    simp
  | false => simp [mem_clauses_of_not_isGenerated hgenerated]

/-- Only a part of a key can lose that it has to have a value. -/
theorem keepsNotNull_iff :
    column.KeepsNotNull (column.clauses dialect composite) ↔
      (column.isKeyPart composite = true → column.nullable = true) := by
  rw [KeepsNotNull, mem_notNull, any_declaresKey, isKeyPart]
  cases column.nullable <;> cases column.isPrimaryKey <;> cases composite <;> decide

/-- Only a part of a key can lose that its values are different. -/
theorem keepsUnique_iff :
    column.KeepsUnique (column.clauses dialect composite) ↔
      (column.isKeyPart composite = true → column.isUnique = false) := by
  rw [KeepsUnique, mem_unique, any_declaresKey, isKeyPart]
  cases column.isUnique <;> cases column.isPrimaryKey <;> cases composite <;> decide

/-- Only a generated column can lose its default. -/
theorem keepsDefault_iff :
    column.KeepsDefault (column.clauses dialect composite) ↔
      (column.isGenerated composite = true → column.default? = none) := by
  unfold KeepsDefault
  simp only [mem_default]
  cases column.isGenerated composite with
  | false =>
    refine iff_of_true (fun text htext hne => ⟨rfl, ?_⟩) nofun
    exact default?_eq_some.mpr ⟨htext, hne⟩
  | true =>
    rw [Option.eq_none_iff_forall_ne_some]
    constructor
    · intro h _ text htext
      obtain ⟨hvalue, hne⟩ := default?_eq_some.mp htext
      cases (h text hvalue hne).1
    · intro h text hvalue hne
      exact absurd (default?_eq_some.mpr ⟨hvalue, hne⟩) (h rfl text)

/-- Only a generated column can lose what it refers to. -/
theorem keepsReference_iff :
    column.KeepsReference (column.clauses dialect composite) ↔
      (column.isGenerated composite = true → column.foreignKey = none) := by
  unfold KeepsReference
  simp only [mem_references]
  cases column.isGenerated composite with
  | false => exact iff_of_true (fun _ hkey => ⟨rfl, hkey⟩) nofun
  | true =>
    rw [Option.eq_none_iff_forall_ne_some]
    constructor
    · intro h _ key hkey
      cases (h key hkey).1
    · exact fun h key hkey => absurd hkey (h rfl key)

end ColumnSchema

namespace TableSchema

variable (dialect : Dialect) (schema : TableSchema)

/-- The line of a column. -/
def columnLine (column : ColumnSchema) : DefinitionLine :=
  .column column.name (column.clauses dialect schema.hasCompositeKey)

/-- The definition that is written for a schema. -/
def definition : TableDefinition where
  name := schema.name
  lines := schema.columns.map (schema.columnLine dialect) ++
    if schema.hasCompositeKey then [.key (schema.keyColumns.map ColumnSchema.name)] else []

/-- What is written for a schema is the text of its definition. -/
theorem createTable_eq_text :
    dialect.createTable schema = (schema.definition dialect).text dialect := by
  have hlines : dialect.definitionLines schema =
      (schema.definition dialect).lines.map (DefinitionLine.text dialect) := by
    rw [Dialect.definitionLines, definition, List.map_append, List.map_map]
    congr 1
    · exact List.map_congr_left fun column _ =>
        ColumnSchema.columnDefinition_eq_text dialect schema.hasCompositeKey column
    · split <;> rfl
  exact congrArg (fun lines => "CREATE TABLE " ++ dialect.quote schema.name ++ " (\n  " ++
    ",\n  ".intercalate lines ++ "\n);") hlines

/-- The columns of the definition are those of the schema, in order. -/
theorem columns_definition :
    (schema.definition dialect).columns = schema.columns.map ColumnSchema.name := by
  have hkey : (if schema.hasCompositeKey then
      [DefinitionLine.key (schema.keyColumns.map ColumnSchema.name)] else []).filterMap
        DefinitionLine.column? = [] := by
    split <;> rfl
  rw [TableDefinition.columns, definition, List.filterMap_append, hkey, List.append_nil,
    List.filterMap_map, ← List.filterMap_eq_map]
  rfl

/-- The keys that columns declare are single columns of the key. -/
theorem keys_columnLines :
    (schema.columns.map (schema.columnLine dialect)).filterMap DefinitionLine.key? =
      if schema.hasCompositeKey then [] else schema.keyColumns.map fun column => [column.name] := by
  have hkey : DefinitionLine.key? ∘ schema.columnLine dialect = fun column =>
      if column.isPrimaryKey && !schema.hasCompositeKey then some [column.name] else none := by
    funext column
    rw [Function.comp_apply, columnLine, DefinitionLine.key?, ColumnSchema.any_declaresKey]
  rw [List.filterMap_map, hkey]
  cases schema.hasCompositeKey with
  | true => simp
  | false => simp [keyColumns, ← List.filterMap_eq_map, List.filterMap_filter]

/-- The definition declares the key of the schema, once if it has columns. -/
theorem keys_definition :
    (schema.definition dialect).keys =
      if schema.keyColumns = [] then [] else [schema.keyColumns.map ColumnSchema.name] := by
  rw [TableDefinition.keys, definition, List.filterMap_append, keys_columnLines, hasCompositeKey]
  match schema.keyColumns with
  | [] => rfl
  | [_] => rfl
  | _ :: _ :: _ => simp [DefinitionLine.key?]

/--
What is written for a schema is the text of a definition with its columns, in their order, and with
its key, declared once. Behind a column stand all constraints of the schema, but a part of a key of
several columns does not say that it has to have a value or that its values are different, and a
generated key does not say what its default is or what it refers to.
-/
theorem createTable_keeps_iff :
    dialect.createTable schema = (schema.definition dialect).text dialect ∧
      (schema.definition dialect).columns = schema.columns.map ColumnSchema.name ∧
      (schema.definition dialect).keys =
        (if schema.keyColumns = [] then [] else [schema.keyColumns.map ColumnSchema.name]) ∧
      ∀ (k : Nat) (column : ColumnSchema), schema.columns[k]? = some column → ∃ clauses,
        (schema.definition dialect).lines[k]? = some (.column column.name clauses) ∧
        (column.KeepsNotNull clauses ↔
          (column.isKeyPart schema.hasCompositeKey = true → column.nullable = true)) ∧
        (column.KeepsUnique clauses ↔
          (column.isKeyPart schema.hasCompositeKey = true → column.isUnique = false)) ∧
        (column.KeepsDefault clauses ↔
          (column.isGenerated schema.hasCompositeKey = true → column.default? = none)) ∧
        (column.KeepsReference clauses ↔
          (column.isGenerated schema.hasCompositeKey = true → column.foreignKey = none)) := by
  refine ⟨schema.createTable_eq_text dialect, schema.columns_definition dialect,
    schema.keys_definition dialect, fun k column hcolumn => ?_⟩
  refine ⟨column.clauses dialect schema.hasCompositeKey, ?_, ColumnSchema.keepsNotNull_iff,
    ColumnSchema.keepsUnique_iff, ColumnSchema.keepsDefault_iff, ColumnSchema.keepsReference_iff⟩
  have hk : k < (schema.columns.map (schema.columnLine dialect)).length := by
    rw [List.length_map]
    exact (List.getElem?_eq_some_iff.mp hcolumn).1
  rw [definition, List.getElem?_append_left hk, List.getElem?_map, hcolumn]
  rfl

/-- Nights of guests, with a key of two columns, the second of which has different values. -/
def nights : TableSchema where
  name := "nights"
  columns :=
    [⟨"guest", "INTEGER", false, none, true, false, false, none⟩,
      ⟨"night", "INTEGER", false, none, true, true, false, none⟩,
      ⟨"room", "TEXT", false, some "'attic'", false, true, false, some ⟨"rooms", "name"⟩⟩]
  indexes := []

/-- Guests, numbered by the database from those that were there before. -/
def guests : TableSchema where
  name := "guests"
  columns := [⟨"id", "INTEGER", false, some "7", true, false, true, some ⟨"people", "id"⟩⟩]
  indexes := []

/-- A room keeps all that is said of it. -/
theorem createTable_keeps_room :
    ∃ room clauses, nights.columns[2]? = some room ∧
      (nights.definition .mysql).lines[2]? = some (.column "room" clauses) ∧
      room.KeepsNotNull clauses ∧ room.KeepsUnique clauses ∧ room.KeepsDefault clauses ∧
      room.KeepsReference clauses := by
  obtain ⟨clauses, hline, hnotNull, hunique, hdefault, hreference⟩ :=
    (nights.createTable_keeps_iff .mysql).2.2.2 2 _ rfl
  exact ⟨_, clauses, rfl, hline, hnotNull.mpr nofun, hunique.mpr nofun, hdefault.mpr nofun,
    hreference.mpr nofun⟩

/--
The parts of a key may be null, where the key has several columns, and the second may be the same
twice; and the numbers of guests have no default and do not refer to people.
-/
theorem constraints_are_lost :
    (∃ night clauses, nights.columns[1]? = some night ∧
      (nights.definition .sqlite).lines[1]? = some (.column "night" clauses) ∧
      ¬night.KeepsNotNull clauses ∧ ¬night.KeepsUnique clauses) ∧
    (∃ id clauses, guests.columns[0]? = some id ∧
      (guests.definition .sqlite).lines[0]? = some (.column "id" clauses) ∧
      ¬id.KeepsDefault clauses ∧ ¬id.KeepsReference clauses) ∧
    Dialect.sqlite.createTable nights =
      "CREATE TABLE \"nights\" (\n  \"guest\" INTEGER,\n  \"night\" INTEGER,\n" ++
      "  \"room\" TEXT NOT NULL UNIQUE DEFAULT 'attic' REFERENCES \"rooms\"(\"name\"),\n" ++
      "  PRIMARY KEY (\"guest\", \"night\")\n);" ∧
    Dialect.sqlite.createTable guests =
      "CREATE TABLE \"guests\" (\n  \"id\" INTEGER PRIMARY KEY AUTOINCREMENT\n);" := by
  refine ⟨⟨_, _, rfl, rfl, ?_, ?_⟩, ⟨_, _, rfl, rfl, ?_, ?_⟩,
    by decide +kernel, by decide +kernel⟩
  · rw [ColumnSchema.keepsNotNull_iff]
    decide
  · rw [ColumnSchema.keepsUnique_iff]
    decide
  · rw [ColumnSchema.keepsDefault_iff]
    decide
  · rw [ColumnSchema.keepsReference_iff]
    decide

end TableSchema

end SqlFederation
