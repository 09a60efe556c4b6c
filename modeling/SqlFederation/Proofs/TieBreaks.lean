import SqlFederation.Proofs.DatabaseOrder
import SqlFederation.Proofs.ResyncLog

/-!
# Ties between the blocks of a resync

The reads of the blocks order rows by one column, and a database may arrange rows that agree in it
as it likes, and anew for each read (`Select.Admits`). A resync that goes through sends every mirror
as many rows as there are, all of them rows of the table. It sends each of them once, however ties
are broken, if and only if no tie lies across a border between two blocks. That is so for every key
of one column, but not for a key of several columns: the first of them alone orders the blocks
(`Replicated.sends_each_row_once_iff`).

The blocks of a run are known from its log (`Replicated.logs_copyTable`), and what they hold is a
matter of arrangements alone (`Sorting.Blocks.perm_drop`). Where a tie lies across a border, a
primary that exchanges the two rows behind it never gives the second one
(`Replicated.exists_shifting_run`).
-/

namespace SqlFederation

namespace Sorting

variable {α γ : Type}

/-- Elements are ordered by what is read of them. -/
theorem IsOrder.comap {le : α → α → Bool} (h : IsOrder le) (f : γ → α) :
    IsOrder fun a b => le (f a) (f b) where
  trans _ _ _ := h.trans _ _ _
  total _ _ := h.total _ _

/-- Ties of one order may be broken by another one. -/
theorem IsOrder.lex {le other : α → α → Bool} (h : IsOrder le) (hother : IsOrder other) :
    IsOrder fun a b => le a b && (!le b a || other a b) where
  trans a b c := by
    have habc := h.trans a b c
    have hcba := h.trans c b a
    have hbca := h.trans b c a
    have hcab := h.trans c a b
    have hrest := hother.trans a b c
    grind
  total a b := by
    have hab := h.total a b
    have hrest := hother.total a b
    grind

end Sorting

open Sorting (Arranges Blocks IsOrder Slice Splits)

namespace SortKey

/-- May a value stand in front of another one? The database orders values other than null. -/
def allows (order : Json → Json → Bool) (key : SortKey) (a b : Json) : Bool :=
  match a.isNull, b.isNull with
  | true, true => true
  | true, false => key.nullsFirst
  | false, true => !key.nullsFirst
  | false, false =>
    match key.direction with
    | .asc => order a b
    | .desc => order b a

/-- May a row stand in front of another one? The first key that tells them apart decides. -/
def allowsRow (order : Json → Json → Bool) : List SortKey → Row → Row → Bool
  | [], _, _ => true
  | key :: rest, a, b =>
    let (x, y) := (a.value key.column.name, b.value key.column.name)
    key.allows order x y && (!key.allows order y x || allowsRow order rest a b)

variable {order : Json → Json → Bool}

theorem isOrder_allows (horder : IsOrder order) (key : SortKey) : IsOrder (key.allows order) where
  trans a b c := by
    have hasc := horder.trans a b c
    have hdesc := horder.trans c b a
    unfold allows
    cases a.isNull <;> cases b.isNull <;> cases c.isNull <;> cases key.nullsFirst <;>
      cases key.direction <;> simp_all
  total a b := by
    have hasc := horder.total a b
    have hdesc := horder.total b a
    unfold allows
    cases a.isNull <;> cases b.isNull <;> cases key.nullsFirst <;> cases key.direction <;> simp_all

theorem isOrder_allowsRow (horder : IsOrder order) (keys : List SortKey) :
    IsOrder (allowsRow order keys) := by
  induction keys with
  | nil => exact ⟨fun _ _ _ _ _ => rfl, fun _ _ => rfl⟩
  | cons key rest ih =>
    exact ((isOrder_allows horder key).comap fun row : Row => row.value key.column.name).lex ih

/-- Where the order tells different values apart, so does a key, nulls included. -/
theorem eq_of_allows (hdistinct : ∀ a b, order a b = true → order b a = true → a = b)
    {key : SortKey} {a b : Json} (hab : key.allows order a b = true)
    (hba : key.allows order b a = true) : a = b := by
  unfold allows at hab hba
  cases ha : a.isNull <;> cases hb : b.isNull <;> rw [ha, hb] at hab hba
  · cases hdirection : key.direction <;> rw [hdirection] at hab hba
    · exact hdistinct a b hab hba
    · exact hdistinct a b hba hab
  · cases hfirst : key.nullsFirst <;> rw [hfirst] at hab hba
    · cases hba
    · cases hab
  · cases hfirst : key.nullsFirst <;> rw [hfirst] at hab hba
    · cases hab
    · cases hba
  · cases a <;> cases ha
    cases b <;> cases hb
    rfl

end SortKey

/--
Is this an answer of a database to a read of some rows? The rows are arranged as the sort keys
allow, and the page is cut out.
-/
def Select.Admits (order : Json → Json → Bool) (rows : List Row) (select : Select)
    (answer : List Row) : Prop :=
  ∃ sorted, Arranges (SortKey.allowsRow order select.orderBy) rows sorted ∧
    answer = select.page sorted

namespace Replicated

variable {β : Type} {order : Json → Json → Bool} {schema : TableSchema} {table : String}
  {rows : List Row} {size : Nat}

/-- The order that the blocks of a table are read in. -/
def blockOrder (order : Json → Json → Bool) (schema : TableSchema) : Row → Row → Bool :=
  SortKey.allowsRow order [⟨.bare (orderColumn schema), .asc, false⟩]

/-- A primary that counts the rows of a table, and reads each block out of any arrangement. -/
structure FreeSource (good : World β → Prop) (order : Json → Json → Bool)
    (primary : Connection (World β)) (table : String) (schema : TableSchema) (rows : List Row)
    (size : Nat) : Prop where
  tableInfo : (primary.tableInfo table).Gives good fun s => s = schema
  count : (primary.queryRow (countQuery table)).Gives good fun row =>
    ∃ r, row = some r ∧ r.get? "count" = some (.ofNat rows.length)
  block : ∀ offset select, blockQuery schema table size offset = .select select →
    (primary.querySet (.select select)).Gives good (select.Admits order rows)

/-- A block is a part of some arrangement in the order of the blocks. -/
theorem FreeSource.pages {good : World β → Prop} {primary : Connection (World β)}
    (h : FreeSource good order primary table schema rows size) :
    Pages good primary table schema rows.length size
      (Slice (blockOrder order schema) rows size) where
  tableInfo := h.tableInfo
  count := h.count
  block offset := h.block offset _ rfl

/-- A mirror whose calls leave a good world good. They may fail, and answer anything. -/
structure Undisturbing (good : World β → Prop) (mirror : Connection (World β)) : Prop where
  dialect : mirror.dialect.Gives good fun _ => True
  queryRaw : ∀ sql, (mirror.queryRaw sql).Gives good fun _ => True
  queryCount : ∀ query, (mirror.queryCount query).Gives good fun _ => True

/--
Is this a resync that went through, with what it reported and recorded, from a primary that breaks
ties as it likes?
-/
def RunsFreely (order : Json → Json → Bool) (schema : TableSchema) (table : String)
    (rows : List Row) (link : Replicated β) (report : SyncReport) (record : Record) : Prop :=
  ∃ (good : World β → Prop) (primary : Connection (World β)) (w w' : World β),
    (∀ w room, good w → good { w with room := room }) ∧ good w ∧ link.primary = some primary ∧
    FreeSource good order primary table schema rows link.blockSize ∧
    (∀ mirror ∈ link.mirrors, Undisturbing good mirror) ∧
    (link.recorded.resync table false).outcome (w.withRecord []) =
      (.ok report, w'.withRecord record)

/-- Mirrors as their own ends. -/
def plainOutlets (mirrors : List (Connection (World β))) : List (Outlet β Member) :=
  mirrors.zipIdx.map fun (mirror, i) => ⟨mirror.recorded (.mirror i), .mirror i, [.mirror i]⟩

theorem recorded_mirrors_eq (link : Replicated β) :
    link.recorded.mirrors = (plainOutlets link.mirrors).map Outlet.connection := by
  rw [plainOutlets, List.map_map]
  rfl

/-- The ends of mirrors are the mirrors. -/
theorem ends_plainOutlets (link : Replicated β) :
    (plainOutlets link.mirrors).flatMap Outlet.ends = link.indices.map .mirror := by
  rw [plainOutlets, List.flatMap_map, indices, List.map_map, ← List.map_eq_flatMap]
  rfl

/-- A mirror passes statements on to itself. -/
theorem passes_of_mem_plainOutlets {good : World β → Prop} {mirrors : List (Connection (World β))}
    (h : ∀ mirror ∈ mirrors, Undisturbing good mirror) {outlet : Outlet β Member}
    (houtlet : outlet ∈ plainOutlets mirrors) : outlet.Passes good schema table := by
  obtain ⟨⟨mirror, i⟩, hmem, rfl⟩ := List.mem_map.mp houtlet
  have hmirror := h mirror (List.fst_mem_of_mem_zipIdx hmem)
  exact {
    dialect := (World.logs_recording hmirror.dialect _ _).imp fun _ _ h => h.2
    queryRaw := fun sql _ => (World.logs_recording (hmirror.queryRaw sql) _ _).imp fun _ _ h => h.2
    insert := fun row => (World.logs_recording (hmirror.queryCount _) _ _).imp fun _ _ h => h.2 }

/-- What plain mirrors receive in a resync that goes through, by the blocks of the primary. -/
theorem exists_received_of_pages {good : World β → Prop} {primary : Connection (World β)}
    {link : Replicated β} {page : Nat → List Row → Prop} {w : World β} {report : SyncReport}
    {w' : World β} {record : Record} {total : Nat}
    (hroom : ∀ w room, good w → good { w with room := room }) (hgood : good w)
    (hsome : link.primary = some primary)
    (hprimary : Pages good primary table schema total link.blockSize page)
    (hnonempty : ∀ offset block, offset < total → page offset block → block ≠ [])
    (hfit : BlocksFit link.blockSize total)
    (hmirrors : ∀ mirror ∈ link.mirrors, Undisturbing good mirror)
    (hrun : (link.recorded.resync table false).outcome (w.withRecord []) =
      (.ok report, w'.withRecord record)) :
    ∃ copied, Blocks page total link.blockSize 0 copied ∧ report.rows = copied.length ∧
      ∀ i < link.mirrors.length, ∃ dialect,
        record.received (.mirror i) = mirrorCalls dialect schema table copied := by
  have hends := ends_plainOutlets link
  have hnodup : ((plainOutlets link.mirrors).flatMap Outlet.ends).Nodup := by
    rw [hends]
    exact nodup_indices.map fun _ _ => Member.mirror.inj
  have hsource : Member.primary ∉ (plainOutlets link.mirrors).flatMap Outlet.ends := by
    rw [hends, List.mem_map]
    rintro ⟨_, _, h⟩
    cases h
  have hspeakers : ∀ outlet ∈ plainOutlets link.mirrors, outlet.speaker ∈ outlet.ends := by
    intro outlet houtlet
    obtain ⟨_, _, rfl⟩ := List.mem_map.mp houtlet
    exact List.mem_cons_self
  have hrecorded : link.recorded.primary = some (primary.recorded .primary) := by
    rw [recorded, hsome]
    rfl
  have hcopy := logs_copyTable hrecorded hprimary hnonempty hfit (recorded_mirrors_eq link)
    (fun _ houtlet => passes_of_mem_plainOutlets hmirrors houtlet) hspeakers hnodup hsource
  obtain ⟨-, entries, hlog, copied, hcopied, hreport, hcalls⟩ :=
    logs_resync hroom hcopy (w.withRecord []) report _ hgood hrun
  have hrecord : record = entries := hlog
  refine ⟨copied, hcopied, hreport, fun i hi => ?_⟩
  have hmem : (⟨link.mirrors[i].recorded (.mirror i), .mirror i, [.mirror i]⟩ : Outlet β Member) ∈
      plainOutlets link.mirrors :=
    List.mem_map.mpr ⟨(link.mirrors[i], i), List.mk_mem_zipIdx_iff_getElem?.mpr
      (List.getElem?_eq_getElem hi), rfl⟩
  obtain ⟨dialect, hdialect⟩ := hcalls _ hmem
  refine ⟨dialect, ?_⟩
  rw [hrecord]
  refine (hdialect _ List.mem_cons_self).trans ?_
  rw [Outlet.rebuiltCalls, if_pos rfl]
  simp [mirrorCalls, rebuildCalls, rebuildStatements, copyQuery, Function.comp_def]

/-- What mirrors receive in a resync from a primary that breaks ties as it likes. -/
theorem RunsFreely.exists_received {link : Replicated β} {report : SyncReport} {record : Record}
    (h : RunsFreely order schema table rows link report record)
    (hfit : BlocksFit link.blockSize rows.length) :
    ∃ copied, Blocks (Slice (blockOrder order schema) rows link.blockSize) rows.length
        link.blockSize 0 copied ∧
      report.rows = copied.length ∧
      ∀ i < link.mirrors.length, ∃ dialect,
        record.received (.mirror i) = mirrorCalls dialect schema table copied := by
  obtain ⟨good, primary, w, w', hroom, hgood, hsome, hsource, hmirrors, hrun⟩ := h
  have hnonempty : ∀ offset block, offset < rows.length →
      Slice (blockOrder order schema) rows link.blockSize offset block → block ≠ [] := by
    intro offset block hoffset hblock
    have hpos := link.blockSize_pos
    have hlength := hblock.length_eq
    rw [← List.length_pos_iff]
    omega
  exact exists_received_of_pages hroom hgood hsome hsource.pages hnonempty hfit hmirrors hrun

/-- A row is inserted in a mirror if and only if it is one of the copied rows. -/
theorem insert_mem_mirrorCalls {dialect : Dialect} {row : Row} :
    .queryCount (copyQuery schema table row) ∈ mirrorCalls dialect schema table rows ↔
      row ∈ rows := by
  rw [mirrorCalls, List.mem_append, List.mem_map]
  constructor
  · rintro (hrebuilt | ⟨other, hother, heq⟩)
    · simp [rebuildCalls] at hrebuilt
    · have hrow : [other] = [row] :=
        congrArg Insert.rows (Query.insert.inj (Received.queryCount.inj heq))
      rwa [← List.head_eq_of_cons_eq hrow]
  · exact fun hrow => Or.inr ⟨row, hrow, rfl⟩

/-! ## A primary that exchanges two rows behind a border -/

/-- A primary that reads blocks behind a border out of another arrangement. -/
def shiftingPrimary (schema : TableSchema) (border : Nat) (first second : List Row) :
    Connection (World RowTable.Tables) :=
  { plainMirror 0 with
    tableInfo := fun _ => pure schema
    queryRow := fun _ => pure (some ⟨[("count", .ofNat first.length)]⟩)
    querySet := fun
      | .select q => pure (q.page (if q.offset.getD 0 < border then first else second))
      | _ => pure [] }

/-- Such a primary, and one mirror, under a lock. -/
def shifting (schema : TableSchema) {size : Nat} (hsize : 0 < size) (border : Nat)
    (first second : List Row) : Replicated RowTable.Tables where
  primary := some (shiftingPrimary schema border first second)
  mirrors := [plainMirror 1]
  policy := .any
  cursor := 0
  lock := some ⟨.memory 0, "sync", Locks.defaultLifetime, 0⟩
  blockSize := size
  blockSize_pos := hsize

section Shifting

variable {front back : List Row} {a b : Row} (hsize : 0 < size) {k : Nat}

/-- The primary counts its rows, and its blocks are full as long as rows are left. -/
theorem counts_shiftingPrimary {first second : List Row} (hlength : second.length = first.length)
    (border : Nat) :
    Counts (fun _ => True) (shiftingPrimary schema border first second) table schema first.length
      size where
  tableInfo w _ := ⟨schema, w, rfl, rfl, trivial⟩
  count w _ := ⟨_, w, rfl, ⟨_, rfl, rfl⟩, trivial⟩
  block offset w _ := by
    refine ⟨_, w, rfl, ?_, trivial⟩
    show (((if offset < border then first else second).drop offset).take size).length = _
    rw [List.length_take, List.length_drop]
    split
    · rfl
    · rw [hlength]

/-- The primary breaks ties as a database may. -/
theorem freeSource_shiftingPrimary {first second : List Row}
    (hfirst : Arranges (blockOrder order schema) rows first)
    (hsecond : Arranges (blockOrder order schema) rows second) (border : Nat) :
    FreeSource (fun _ => True) order (shiftingPrimary schema border first second) table schema rows
      size where
  tableInfo := Call.gives_pure rfl
  count := Call.gives_pure ⟨_, rfl, by rw [← hfirst.1.length_eq]; rfl⟩
  block offset select hselect := by
    obtain rfl := Query.select.inj hselect
    refine Call.gives_pure ⟨if offset < border then first else second, ?_, rfl⟩
    split
    · exact hfirst
    · exact hsecond

/-- The primary gives the parts of the two arrangements, and no others. -/
theorem pages_shiftingPrimary (border : Nat) (first second : List Row) :
    Pages (fun _ => True) (shiftingPrimary schema border first second) table schema first.length
      size fun offset block =>
        block = ((if offset < border then first else second).drop offset).take size where
  tableInfo := Call.gives_pure rfl
  count := Call.gives_pure ⟨_, rfl, rfl⟩
  block _ := Call.gives_pure rfl

/-- The row that moves across the border is in no block. -/
theorem ne_of_mem_blocks (hnodup : (front ++ a :: b :: back).Nodup)
    (hborder : front.length + 1 = k * size) {total : Nat} {copied : List Row}
    (h : Blocks (fun offset block => block =
        ((if offset < front.length + 1 then front ++ a :: b :: back
          else front ++ b :: a :: back).drop offset).take size) total size 0 copied) :
    ∀ row ∈ copied, row ≠ b := by
  have hfirst : (front ++ a :: b :: back).take (front.length + 1) = front ++ [a] := by
    simp [List.take_append]
  have hsecond : (front ++ b :: a :: back).drop (front.length + 1) = a :: back := by
    simp [List.drop_append]
  rw [List.nodup_append, List.nodup_cons, List.nodup_cons] at hnodup
  obtain ⟨-, ⟨ha, hb, -⟩, hfront⟩ := hnodup
  refine h.forall_mem fun j block hblock row hrow => ?_
  rw [Nat.zero_add] at hblock
  rw [hblock] at hrow
  split at hrow
  · -- The block ends at the border or in front of it.
    rename_i hbefore
    have hend : j * size + size ≤ front.length + 1 := by
      rw [hborder] at hbefore ⊢
      rw [← Nat.succ_mul]
      exact Nat.mul_le_mul_right size (Nat.lt_of_mul_lt_mul_right hbefore)
    have hcut : row ∈ (front ++ a :: b :: back).take (j * size + size) := by
      apply List.mem_of_mem_drop (i := j * size)
      rwa [List.drop_take, Nat.add_sub_cancel_left]
    have hmem : row ∈ front ++ [a] := hfirst ▸ (List.take_subset_take_left _ hend) hcut
    rintro rfl
    rcases List.mem_append.mp hmem with hin | hin
    · exact hfront row hin row (List.mem_cons_of_mem a List.mem_cons_self) rfl
    · exact ha (List.mem_singleton.mp hin ▸ List.mem_cons_self)
  · -- The block starts at the border or behind it.
    rename_i hbehind
    have hcut := List.drop_subset_drop_left (front ++ b :: a :: back) (Nat.le_of_not_lt hbehind)
      (List.mem_of_mem_take hrow)
    rw [hsecond] at hcut
    rintro rfl
    rcases List.mem_cons.mp hcut with heq | hin
    · exact ha (heq ▸ List.mem_cons_self)
    · exact hb hin

/--
A tie across a border between blocks may lose a row: a resync goes through and reports all rows, but
the mirror never receives the second row of the tie.
-/
theorem exists_shifting_run (table : String) (hnodup : rows.Nodup)
    (hfit : BlocksFit size rows.length)
    (hfirst : Arranges (blockOrder order schema) rows (front ++ a :: b :: back))
    (htied : blockOrder order schema b a = true) (hborder : front.length + 1 = k * size) :
    ∃ report record,
      RunsFreely order schema table rows (shifting schema hsize (front.length + 1)
        (front ++ a :: b :: back) (front ++ b :: a :: back)) report record ∧
      report.rows = rows.length ∧
      .queryCount (copyQuery schema table b) ∉ record.received (.mirror 0) := by
  let first := front ++ a :: b :: back
  let second := front ++ b :: a :: back
  let link := shifting schema hsize (front.length + 1) first second
  have hsecond := hfirst.swap htied
  have hlength : first.length = rows.length := hfirst.1.length_eq
  have hfit' : BlocksFit size first.length := hlength ▸ hfit
  have hcounts : Counts (fun _ => True) (shiftingPrimary schema (front.length + 1) first second)
      table schema first.length size :=
    counts_shiftingPrimary (hsecond.1.length_eq.trans hlength.symm) _
  have hobserved := hcounts.recorded Member.primary
  have haccepts : ∀ p ∈ link.recorded.mirrors.zip [1],
      Accepts (fun _ => True) schema table p.1 p.2 := by
    intro p hp
    obtain rfl : p = ((plainMirror 1).recorded (.mirror 0), 1) := List.mem_singleton.mp hp
    exact (target_plainMirror schema table 1).accepts.recorded _
  have hcopy : (link.recorded.copyTable table false).Ends (fun _ => True) _ :=
    ends_copyTable rfl hobserved rfl haccepts hfit'
      (ends_copyBlocks hobserved rfl haccepts (hfit'.offsetsFit hsize) (fun _ => rfl) _)
  obtain ⟨v, hrun⟩ : ∃ v, (link.recorded.resync table false).outcome
      (unlockedWorld.withRecord []) = (_, v) :=
    resync_ends rfl rfl trivial hcopy
  have hrecorded : (link.recorded.resync table false).outcome (unlockedWorld.withRecord []) =
      (_, v.unlogged.withRecord v.endpoints.2) := hrun
  have hundisturbing : ∀ mirror ∈ link.mirrors, Undisturbing (fun _ => True) mirror :=
    fun _ _ => ⟨fun _ _ _ _ _ => ⟨trivial, trivial⟩, fun _ _ _ _ _ _ => ⟨trivial, trivial⟩,
      fun _ _ _ _ _ _ => ⟨trivial, trivial⟩⟩
  refine ⟨_, v.endpoints.2, ⟨fun _ => True, _, unlockedWorld, v.unlogged, fun _ _ _ => trivial,
    trivial, rfl, freeSource_shiftingPrimary hfirst hsecond _, hundisturbing, hrecorded⟩, ?_, ?_⟩
  · show 0 + (first.length - 0) = rows.length
    omega
  · have hnonempty : ∀ offset block, offset < first.length →
        block = ((if offset < front.length + 1 then first else second).drop offset).take size →
        block ≠ [] := by
      rintro offset _ hoffset rfl
      rw [← List.length_pos_iff, List.length_take, List.length_drop]
      have hsame : second.length = first.length := hsecond.1.length_eq.trans hlength.symm
      split <;> omega
    obtain ⟨copied, hcopied, -, hreceived⟩ := exists_received_of_pages
      (fun _ _ _ => trivial) trivial rfl (pages_shiftingPrimary _ first second) hnonempty
      hfit' hundisturbing hrecorded
    obtain ⟨dialect, hcalls⟩ := hreceived 0 Nat.one_pos
    rw [hcalls, insert_mem_mirrorCalls]
    have hnodup' : first.Nodup := hfirst.1.nodup_iff.mpr hnodup
    exact fun hmem => ne_of_mem_blocks hnodup' hborder hcopied b hmem rfl

end Shifting

/-! ## The condition -/

/-- Does every resync that goes through send every mirror each row once, however ties are broken? -/
def SendsEachRowOnce (order : Json → Json → Bool) (schema : TableSchema) (table : String)
    (rows : List Row) (size : Nat) : Prop :=
  ∀ (β : Type) (link : Replicated β) (report : SyncReport) (record : Record),
    link.blockSize = size → RunsFreely order schema table rows link report record →
    ∀ i < link.mirrors.length, ∃ dialect copied,
      record.received (.mirror i) = mirrorCalls dialect schema table copied ∧ copied.Perm rows

/-- Rows that a key of one column tells apart are not tied. -/
theorem not_splits_of_key (hdistinct : ∀ a b, order a b = true → order b a = true → a = b)
    (hkey : rows.Pairwise fun a b => ∃ column ∈ schema.keyColumns,
      a.value column.name ≠ b.value column.name)
    (hone : schema.keyColumns.length = 1) (border : Nat) :
    ¬Splits (blockOrder order schema) rows border := by
  rintro ⟨front, a, b, back, -, ⟨hperm, hsorted⟩, htied⟩
  obtain ⟨column, hcolumn⟩ := List.length_eq_one_iff.mp hone
  have horder : orderColumn schema = column.name := by
    rw [orderColumn, TableSchema.primaryKey, hcolumn]
    rfl
  have hab : blockOrder order schema a b = true :=
    (List.pairwise_cons.mp (List.pairwise_append.mp hsorted).2.1).1 b List.mem_cons_self
  have hsame : a.value column.name = b.value column.name := by
    rw [← horder]
    exact SortKey.eq_of_allows hdistinct (Bool.and_eq_true_iff.mp hab).1
      (Bool.and_eq_true_iff.mp htied).1
  -- The key tells rows apart wherever they stand.
  have hapart : (front ++ a :: b :: back).Pairwise fun a b => ∃ column ∈ schema.keyColumns,
      a.value column.name ≠ b.value column.name :=
    hkey.perm hperm.symm fun ⟨column, hmem, hne⟩ => ⟨column, hmem, hne.symm⟩
  obtain ⟨other, hother, hne⟩ :=
    (List.pairwise_cons.mp (List.pairwise_append.mp hapart).2.1).1 b List.mem_cons_self
  rw [hcolumn, List.mem_singleton] at hother
  rw [hother] at hne
  exact hne hsame

/--
A resync that goes through sends every mirror as many rows as there are, each of them a row of the
table, whatever ties there are. However ties are broken, it sends each row once, if and only if no
tie lies across a border between blocks. A key of one column leaves no ties.
-/
theorem sends_each_row_once_iff (horder : IsOrder order) (schema : TableSchema) (table : String)
    (hkey : rows.Pairwise fun a b => ∃ column ∈ schema.keyColumns,
      a.value column.name ≠ b.value column.name)
    (hsize : 0 < size) (hfit : BlocksFit size rows.length) :
    (∀ (β : Type) (link : Replicated β) (report : SyncReport) (record : Record),
      link.blockSize = size → RunsFreely order schema table rows link report record →
      report.rows = rows.length ∧ ∀ i < link.mirrors.length, ∃ dialect copied,
        record.received (.mirror i) = mirrorCalls dialect schema table copied ∧
        copied.length = rows.length ∧ ∀ row ∈ copied, row ∈ rows) ∧
    (SendsEachRowOnce order schema table rows size ↔
      ∀ k, ¬Splits (blockOrder order schema) rows (k * size)) ∧
    ((∀ a b, order a b = true → order b a = true → a = b) → schema.keyColumns.length = 1 →
      SendsEachRowOnce order schema table rows size) := by
  have hblocks : IsOrder (blockOrder order schema) := SortKey.isOrder_allowsRow horder _
  have hsends : (∀ k, ¬Splits (blockOrder order schema) rows (k * size)) →
      SendsEachRowOnce order schema table rows size := by
    rintro hborders β link report record rfl hrun i hi
    obtain ⟨copied, hcopied, -, hreceived⟩ := hrun.exists_received hfit
    obtain ⟨dialect, hcalls⟩ := hreceived i hi
    refine ⟨dialect, copied, hcalls, ?_⟩
    have hsorted : Arranges (blockOrder order schema) rows
        (rows.mergeSort (blockOrder order schema)) :=
      ⟨List.mergeSort_perm _ _, List.pairwise_mergeSort hblocks.trans hblocks.total rows⟩
    have hwhole := hcopied.perm_drop hblocks (fun k => by simpa using hborders k) hsorted
    exact hwhole.trans hsorted.1
  refine ⟨?_, ⟨fun honce k hsplits => ?_, hsends⟩,
    fun hdistinct hone => hsends fun k => not_splits_of_key hdistinct hkey hone _⟩
  · rintro β link report record rfl hrun
    obtain ⟨copied, hcopied, hreport, hreceived⟩ := hrun.exists_received hfit
    have hlength : copied.length = rows.length := hcopied.length_eq
    refine ⟨hreport.trans hlength, fun i hi => ?_⟩
    obtain ⟨dialect, hcalls⟩ := hreceived i hi
    exact ⟨dialect, copied, hcalls, hlength,
      hcopied.forall_mem fun _ _ hblock _ hrow => hblock.mem_of_mem hrow⟩
  · -- The row behind the border is in the table, but in some run it reaches no mirror.
    obtain ⟨front, a, b, back, hborder, hfirst, htied⟩ := hsplits
    have hnodup : rows.Nodup := hkey.imp fun ⟨_, _, hne⟩ heq => hne (heq ▸ rfl)
    obtain ⟨report, record, hrun, -, hlost⟩ :=
      exists_shifting_run hsize table hnodup hfit hfirst htied hborder.symm
    obtain ⟨dialect, copied, hcalls, hperm⟩ := honce _ _ report record rfl hrun 0 Nat.one_pos
    rw [hcalls, insert_mem_mirrorCalls, hperm.mem_iff] at hlost
    exact hlost (hfirst.1.mem_iff.mp (by simp))

/-- Stays of guests; one night is one of one guest. -/
def stays : TableSchema where
  name := "stays"
  columns := [⟨"guest", "INTEGER", false, none, true, false, false, none⟩,
    ⟨"night", "INTEGER", false, none, true, false, false, none⟩]
  indexes := []

/-- A night of a guest. -/
def stay (guest night : Int) : Row :=
  ⟨[("guest", .ofInt guest), ("night", .ofInt night)]⟩

/-- The order of integers. -/
def integerOrder (a b : Json) : Bool :=
  decide (a.asInt?.getD 0 ≤ b.asInt?.getD 0)

theorem isOrder_integerOrder : IsOrder integerOrder where
  trans a b c hab hbc := by
    simp only [integerOrder, decide_eq_true_eq] at hab hbc ⊢
    omega
  total a b := by
    simp only [integerOrder, Bool.or_eq_true, decide_eq_true_eq]
    omega

/-- Two nights of one guest and one of another are copied two at a time, each once. -/
theorem sends_three_stays_once :
    SendsEachRowOnce integerOrder stays "stays" [stay 1 1, stay 1 2, stay 2 1] 2 := by
  have hkey : [stay 1 1, stay 1 2, stay 2 1].Pairwise fun a b => ∃ column ∈ stays.keyColumns,
      a.value column.name ≠ b.value column.name := by decide
  have hiff := (sends_each_row_once_iff isOrder_integerOrder stays "stays" hkey Nat.two_pos
    (by decide)).2.1
  refine hiff.mpr fun k hsplits => ?_
  obtain ⟨hpos, hinside⟩ := hsplits.inside
  obtain rfl : k = 1 := by
    simp only [List.length_cons, List.length_nil] at hinside
    omega
  -- The guests of the second and the third row are not the same.
  have hsorted : Arranges (blockOrder integerOrder stays) [stay 1 1, stay 1 2, stay 2 1]
      ([stay 1 1] ++ stay 1 2 :: stay 2 1 :: []) := ⟨List.Perm.refl _, by decide⟩
  exact hsorted.not_splits (SortKey.isOrder_allowsRow isOrder_integerOrder _) (by decide) hsplits

/--
Two nights of one guest, copied one at a time: a resync may go through and report two rows, although
the mirror never receives the second night.
-/
theorem stay_is_lost :
    ∃ (link : Replicated RowTable.Tables) (report : SyncReport) (record : Record),
      link.blockSize = 1 ∧ link.mirrors.length = 1 ∧
      RunsFreely integerOrder stays "stays" [stay 1 1, stay 1 2] link report record ∧
      report.rows = 2 ∧
      .queryCount (copyQuery stays "stays" (stay 1 2)) ∉ record.received (.mirror 0) := by
  have hfirst : Arranges (blockOrder integerOrder stays) [stay 1 1, stay 1 2]
      ([] ++ stay 1 1 :: stay 1 2 :: []) := ⟨List.Perm.refl _, by decide⟩
  obtain ⟨report, record, hrun, hreport, hlost⟩ := exists_shifting_run Nat.one_pos "stays"
    (by decide) (by decide) hfirst (by decide) (k := 1) rfl
  exact ⟨_, report, record, rfl, rfl, hrun, hreport, hlost⟩

end Replicated

end SqlFederation
