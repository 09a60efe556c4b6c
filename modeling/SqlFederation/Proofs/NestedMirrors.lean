import SqlFederation.Proofs.Dispatch
import SqlFederation.Proofs.ResyncLog

/-!
# Compositions as mirrors

A mirror may be a composition itself. It is asked for its dialect through its own primary, and it
passes statements and inserts on to all of its endpoints; but it counts an inserted row once for
each of them (`Replicated.accepts_connection`), and a resync takes any count other than one for a
failure. So a resync to compositions goes through only if there is nothing to copy, or if each of
them has one endpoint (`Replicated.resync_through_compositions`).

How the resync ends is known from the counts (`Replicated.resync_ends`), and what the endpoints
receive from the log of all of them (`Replicated.logs_copyTable`), in which every endpoint has a
label of its own (`Behind`).
-/

namespace SqlFederation

open World (Logs logs_pure logs_fail logs_recording)

theorem Call.Yields.gives {σ α : Type} {good : σ → Prop} {call : Call σ α} {wanted : α → Prop}
    (h : call.Yields good wanted) : call.Gives good wanted := by
  intro s a s' hs hcall
  obtain ⟨b, s'', hb, hwanted, hs''⟩ := h s hs
  rw [hcall] at hb
  cases hb
  exact ⟨hwanted, hs''⟩

/-- A call that ends with a value yields that value. -/
theorem Call.Ends.yields {σ α : Type} {good : σ → Prop} {call : Call σ α} {a : α}
    (h : call.Ends good (.ok a)) : call.Yields good fun b => b = a := by
  intro s hs
  obtain ⟨s', hcall, hs'⟩ := h s hs
  exact ⟨a, s', hcall, rfl, hs'⟩

/-- Calls one after the other yield what the last one yields. -/
theorem Call.Yields.then {σ α γ : Type} {good : σ → Prop} {call : Call σ α} {f : α → Call σ γ}
    {wanted : α → Prop} {last : γ → Prop} (h : call.Yields good wanted)
    (hrest : ∀ a, wanted a → (f a).Yields good last) : (call >>= f).Yields good last := by
  intro s hs
  obtain ⟨a, s₁, hcall, ha, hs₁⟩ := h s hs
  obtain ⟨c, s₂, hf, hc, hs₂⟩ := hrest a ha s₁ hs₁
  exact ⟨c, s₂, (Call.outcome_bind_of_ok hcall).trans hf, hc, hs₂⟩

namespace Fanout

variable {σ α : Type} {good : σ → Prop} {children : List (Connection σ)}

/-- Counts of one add up to the number of children. -/
theorem ends_total {call : Connection σ → Call σ Nat}
    (h : ∀ c ∈ children, (call c).Yields good fun n => n = 1) :
    (total call children).Ends good (.ok children.length) := by
  induction children with
  | nil => exact Call.ends_pure 0
  | cons child rest ih =>
    rw [List.forall_mem_cons] at h
    refine h.1.bind fun n hn => ?_
    refine (ih h.2).bind_ok ?_
    rw [hn, List.length_cons, Nat.add_comm]
    exact Call.ends_pure _

/-- A call that every child answers is answered by the last one. -/
theorem yields_last {call : Connection σ → Call σ α} (hchildren : children ≠ [])
    (h : ∀ c ∈ children, (call c).Yields good fun _ => True) :
    (last call children).Yields good fun _ => True := by
  induction children with
  | nil => exact absurd rfl hchildren
  | cons child rest ih =>
    rw [List.forall_mem_cons] at h
    cases rest with
    | nil => exact h.1
    | cons next rest => exact h.1.then fun _ _ => ih (List.cons_ne_nil _ _) h.2

variable {β ι : Type} {fine : World β → Prop}
  {links : List (Connection (World (β × CallLog ι)) × ι)} {received : Received}

/-- Every child is called, one after the other. -/
theorem logs_last {call : Connection (World (β × CallLog ι)) → Call (World (β × CallLog ι)) α}
    (h : ∀ p ∈ links, Logs fine (call p.1) fun _ entries => entries = [(p.2, received)]) :
    Logs fine (last call (links.map Prod.fst)) fun _ entries =>
      entries = (links.map Prod.snd).map fun label => (label, received) := by
  induction links with
  | nil => exact logs_fail _ _
  | cons p rest ih =>
    rw [List.forall_mem_cons] at h
    cases rest with
    | nil => exact h.1
    | cons next rest =>
      refine h.1.bind fun _ front hfront => (ih h.2).imp fun _ back hback => ?_
      rw [hfront, hback]
      rfl

theorem logs_total {call : Connection (World (β × CallLog ι)) → Call (World (β × CallLog ι)) Nat}
    (h : ∀ p ∈ links, Logs fine (call p.1) fun _ entries => entries = [(p.2, received)]) :
    Logs fine (total call (links.map Prod.fst)) fun _ entries =>
      entries = (links.map Prod.snd).map fun label => (label, received) := by
  induction links with
  | nil => exact logs_pure rfl
  | cons p rest ih =>
    rw [List.forall_mem_cons] at h
    refine h.1.bind fun n front hfront => (ih h.2).bind fun m back hback => logs_pure ?_
    rw [hfront, hback]
    simp

end Fanout

/-- A link that is observed behind a composition: the primary, or a member of a mirror. -/
inductive Behind where
  | primary
  | mirror (index : Nat) (member : Member)
  deriving DecidableEq

namespace Replicated

variable {β ι : Type}

/-- The same composition, all calls on whose members are written down under labels. -/
def recordedAs (label : Member → ι) (link : Replicated β) : Replicated (β × CallLog ι) where
  primary := link.primary.map (Connection.recorded (label .primary))
  mirrors := link.mirrors.zipIdx.map fun (mirror, i) => mirror.recorded (label (.mirror i))
  policy := link.policy
  cursor := link.cursor
  lock := link.lock
  blockSize := link.blockSize
  blockSize_pos := link.blockSize_pos

/-- A composition of compositions, all calls on whose primary and endpoints are written down. -/
def recordedThrough (link : Replicated β) (inners : List (Replicated β)) :
    Replicated (β × CallLog Behind) where
  primary := link.primary.map (Connection.recorded .primary)
  mirrors := inners.zipIdx.map fun (inner, i) => (inner.recordedAs (Behind.mirror i)).connection
  policy := link.policy
  cursor := link.cursor
  lock := link.lock
  blockSize := link.blockSize
  blockSize_pos := link.blockSize_pos

theorem primary_recordedThrough {link : Replicated β} {primary : Connection (World β)}
    (hprimary : link.primary = some primary) (inners : List (Replicated β)) :
    (link.recordedThrough inners).primary = some (primary.recorded .primary) := by
  rw [recordedThrough, hprimary]
  rfl

theorem map_fst_members (link : Replicated β) :
    link.members.map Prod.fst =
      (link.primary.toList.map fun _ => .primary) ++ link.indices.map .mirror := by
  rw [members, indices, List.map_append, List.map_map, List.map_map, List.map_map]
  rfl

theorem nodup_members (link : Replicated β) : (link.members.map Prod.fst).Nodup := by
  rw [map_fst_members, List.nodup_append']
  refine ⟨?_, nodup_indices.map fun _ _ => Member.mirror.inj, ?_⟩
  · cases link.primary with
    | none => exact List.nodup_nil
    | some primary => exact List.nodup_singleton _
  · intro member hprimary hmirror
    obtain ⟨_, -, rfl⟩ := List.mem_map.mp hprimary
    obtain ⟨_, -, h⟩ := List.mem_map.mp hmirror
    cases h

/-- The members of a composition under observation, with their labels. -/
def observedMembers (label : Member → ι) (inner : Replicated β) :
    List (Connection (World (β × CallLog ι)) × ι) :=
  inner.members.map fun p => (p.2.recorded (label p.1), label p.1)

theorem children_recordedAs (label : Member → ι) (inner : Replicated β) :
    (inner.recordedAs label).children = (inner.observedMembers label).map Prod.fst := by
  rw [observedMembers, members, children, recordedAs]
  cases inner.primary <;> simp

theorem snd_observedMembers (label : Member → ι) (inner : Replicated β) :
    (inner.observedMembers label).map Prod.snd = inner.members.map fun p => label p.1 := by
  rw [observedMembers, List.map_map]
  rfl

/-- An observed member is a member. -/
theorem exists_of_mem_observedMembers {label : Member → ι} {inner : Replicated β}
    {p : Connection (World (β × CallLog ι)) × ι} (hp : p ∈ inner.observedMembers label) :
    ∃ c ∈ inner.children, p.1 = c.recorded p.2 := by
  obtain ⟨member, hmember, rfl⟩ := List.mem_map.mp hp
  rw [← map_snd_members]
  exact ⟨member.2, List.mem_map_of_mem hmember, rfl⟩

theorem exists_of_mem_children_recordedAs {label : Member → ι} {inner : Replicated β}
    {c : Connection (World (β × CallLog ι))} (hc : c ∈ (inner.recordedAs label).children) :
    ∃ member ∈ inner.children, ∃ l, c = member.recorded l := by
  rw [children_recordedAs] at hc
  obtain ⟨p, hp, rfl⟩ := List.mem_map.mp hc
  obtain ⟨member, hmember, hrecorded⟩ := exists_of_mem_observedMembers hp
  exact ⟨member, hmember, p.2, hrecorded⟩

section Single

variable {good : World β → Prop} {schema : TableSchema} {table : String} {inner : Replicated β}
  {primary : Connection (World β)}

theorem children_eq (hprimary : inner.primary = some primary) :
    inner.children = primary :: inner.mirrors := by
  rw [children, hprimary]
  rfl

theorem mem_children_of_primary (hprimary : inner.primary = some primary) :
    primary ∈ inner.children :=
  mem_children_of_primary? (by rw [primary?, hprimary])

/-- The primary of a composition says what it speaks. -/
theorem dialect_connection_of_primary (hprimary : inner.primary = some primary) :
    inner.connection.dialect = primary.dialect := by
  show inner.onPrimary Connection.dialect = _
  rw [onPrimary, primary?, hprimary]

theorem mem_members_of_primary (hprimary : inner.primary = some primary) :
    (.primary, primary) ∈ inner.members := by
  rw [members, hprimary]
  exact List.mem_cons_self

/-- A write goes to all members. -/
theorem assertChildren_of_primary (hprimary : inner.primary = some primary) :
    Fanout.assertChildren inner.children = pure () := by
  rw [children_eq hprimary]
  rfl

/-- A composition accepts what its members accept, and counts a row once for each of them. -/
theorem accepts_connection (hprimary : inner.primary = some primary)
    (h : ∀ c ∈ inner.children, Accepts good schema table c 1) :
    Accepts good schema table inner.connection inner.children.length where
  dialect := by
    rw [dialect_connection_of_primary hprimary]
    exact (h primary (mem_children_of_primary hprimary)).dialect
  queryRaw sql hsql := by
    show (inner.raw sql).Yields good _
    rw [raw, assertChildren_of_primary hprimary, hsql]
    refine Fanout.yields_last ?_ fun c hc => (h c hc).queryRaw sql hsql
    rw [children_eq hprimary]
    exact List.cons_ne_nil _ _
  insert row := by
    show (inner.count (copyQuery schema table row)).Yields good _
    rw [count, assertChildren_of_primary hprimary]
    exact (Fanout.ends_total fun c hc => (h c hc).insert row).yields

/-- A composition without a primary speaks no dialect. -/
theorem ends_dialect_of_none (hprimary : inner.primary = none) :
    inner.connection.dialect.Ends good (.error .noEndpoints) := by
  show (inner.onPrimary Connection.dialect).Ends good _
  rw [onPrimary, primary?, hprimary]
  exact Call.ends_fail _

end Single

/-! ## The log of all endpoints -/

section Observed

variable {good : World β → Prop} {schema : TableSchema} {table : String} {inner : Replicated β}
  {primary : Connection (World β)} (label : Member → ι)

/-- A composition as a mirror: its primary speaks, and all of its members are reached. -/
def outlet (inner : Replicated β) : Outlet β ι where
  connection := (inner.recordedAs label).connection
  speaker := label .primary
  ends := inner.members.map fun p => label p.1

/-- A composition with a primary passes statements and inserts on to its members. -/
theorem passes_outlet (hprimary : inner.primary = some primary)
    (h : ∀ c ∈ inner.children, Accepts good schema table c 1) :
    (inner.outlet label).Passes good schema table := by
  have hsome : (inner.recordedAs label).primary = some (primary.recorded (label .primary)) := by
    rw [recordedAs, hprimary]
    rfl
  have hends : (inner.outlet label).ends = (inner.observedMembers label).map Prod.snd :=
    (snd_observedMembers label inner).symm
  constructor
  case dialect =>
    have hmem := mem_children_of_primary hprimary
    show Logs good (inner.recordedAs label).connection.dialect _
    rw [dialect_connection_of_primary hsome]
    exact (logs_recording (h primary hmem).dialect.gives _ _).imp fun _ _ h => h.2
  case queryRaw =>
    intro sql hsql
    show Logs good ((inner.recordedAs label).raw sql) _
    rw [raw, assertChildren_of_primary hsome, hsql, children_recordedAs, hends]
    refine Fanout.logs_last fun p hp => ?_
    obtain ⟨c, hc, hrecorded⟩ := exists_of_mem_observedMembers hp
    rw [hrecorded]
    exact (logs_recording ((h c hc).queryRaw sql hsql).gives _ _).imp fun _ _ h => h.2
  case insert =>
    intro row
    show Logs good ((inner.recordedAs label).count (copyQuery schema table row)) _
    rw [count, assertChildren_of_primary hsome, children_recordedAs, hends]
    refine Fanout.logs_total fun p hp => ?_
    obtain ⟨c, hc, hrecorded⟩ := exists_of_mem_observedMembers hp
    rw [hrecorded]
    exact (logs_recording ((h c hc).insert row).gives _ _).imp fun _ _ h => h.2

end Observed

/-! ## How a resync to compositions ends -/

/-- How many members answer for a composition; nobody does without a primary. -/
def voices (inner : Replicated β) : Option Nat :=
  inner.primary.map fun _ => inner.children.length

theorem voices_recordedAs (label : Member → ι) (inner : Replicated β) :
    (inner.recordedAs label).voices = inner.voices := by
  cases hprimary : inner.primary with
  | none => simp [voices, recordedAs, hprimary]
  | some primary => simp [voices, recordedAs, children, hprimary]

theorem none_notMem_voices {inners : List (Replicated β)} :
    none ∉ inners.map voices ↔ ∀ inner ∈ inners, inner.primary ≠ none := by
  simp [voices]

/-- Where all have a primary, the numbers are those of their members. -/
theorem filterMap_voices {inners : List (Replicated β)}
    (h : ∀ inner ∈ inners, inner.primary ≠ none) :
    (inners.map voices).filterMap id = inners.map fun inner => inner.children.length := by
  rw [List.filterMap_map, ← List.filterMap_eq_map]
  refine List.filterMap_congr fun inner hinner => ?_
  obtain ⟨primary, hprimary⟩ := Option.ne_none_iff_exists'.mp (h inner hinner)
  simp [voices, hprimary]

/-- How a resync ends, by the numbers of those who answer for its mirrors. -/
def voicedResult (table : String) (size total : Nat) (answers : List (Option Nat)) :
    Except Error SyncReport :=
  let report : SyncReport := ⟨table, answers.length, total, (total + size - 1) / size, false⟩
  if none ∈ answers then .error .noEndpoints
  else if total = 0 then .ok report
  else (rowResult table (answers.filterMap id)).map fun _ => report

theorem rowResult_eq_ok_iff {table : String} {answers : List Nat} :
    rowResult table answers = .ok () ↔ ∀ n ∈ answers, n = 1 := by
  unfold rowResult
  cases hfind : answers.find? (· != 1) with
  | none => simpa using List.find?_eq_none.mp hfind
  | some n =>
    have hn : n ≠ 1 := by simpa using List.find?_some hfind
    exact iff_of_false (fun h => by cases h) fun h => hn (h n (List.mem_of_find?_eq_some hfind))

/-- A resync goes through if somebody answers for each mirror, and one if there is a row. -/
theorem exists_voicedResult_iff {table : String} {size total : Nat} {answers : List (Option Nat)} :
    (∃ report, voicedResult table size total answers = .ok report) ↔
      none ∉ answers ∧ (total = 0 ∨ ∀ n ∈ answers.filterMap id, n = 1) := by
  have hrow : rowResult table (answers.filterMap id) = .ok () ↔
      ∀ n ∈ answers.filterMap id, n = 1 := rowResult_eq_ok_iff
  rw [← hrow, voicedResult]
  by_cases hnone : none ∈ answers
  · simp [hnone]
  · by_cases hzero : total = 0
    · simp [hnone, hzero]
    · cases rowResult table (answers.filterMap id) <;> simp [hnone, hzero, Except.map]

theorem rows_of_voicedResult {table : String} {size total : Nat} {answers : List (Option Nat)}
    {report : SyncReport} (h : voicedResult table size total answers = .ok report) :
    report.rows = total := by
  unfold voicedResult at h
  by_cases hnone : none ∈ answers
  · rw [if_pos hnone] at h
    cases h
  · rw [if_neg hnone] at h
    by_cases hzero : total = 0
    · rw [if_pos hzero] at h
      cases h
      rfl
    · rw [if_neg hzero] at h
      cases hrow : rowResult table (answers.filterMap id) with
      | error e =>
        rw [hrow] at h
        cases h
      | ok _ =>
        rw [hrow] at h
        cases h
        rfl

section Ends

variable {good : World β → Prop} {schema : TableSchema} {table : String}
  {inners : List (Replicated β)}

/-- A composition without a primary ends the making of tables. -/
theorem ends_rebuildAll_of_none
    (h : ∀ inner ∈ inners, ∀ c ∈ inner.children, Accepts good schema table c 1)
    (hnone : ∃ inner ∈ inners, inner.primary = none) :
    (Fanout.each (rebuild schema table) (inners.map Replicated.connection)).Ends good
      (.error .noEndpoints) := by
  induction inners with
  | nil =>
    obtain ⟨_, hmem, -⟩ := hnone
    cases hmem
  | cons inner rest ih =>
    rw [List.forall_mem_cons] at h
    cases hprimary : inner.primary with
    | none => exact (ends_dialect_of_none hprimary).bind_error.bind_error
    | some primary =>
      have hrest : ∃ inner ∈ rest, inner.primary = none := by
        obtain ⟨other, hother, hempty⟩ := hnone
        rcases List.mem_cons.mp hother with rfl | hother
        · rw [hprimary] at hempty
          cases hempty
        · exact ⟨other, hother, hempty⟩
      exact (ends_rebuild (accepts_connection hprimary h.1)).bind_ok (ih h.2 hrest)

variable {link : Replicated β} {primary : Connection (World β)} {total : Nat}

/-- The copy to compositions ends by the numbers of their members. -/
theorem ends_copyTable_compositions (hsome : link.primary = some primary)
    (hcounts : Counts good primary table schema total link.blockSize)
    (hlink : link.mirrors = inners.map Replicated.connection)
    (h : ∀ inner ∈ inners, ∀ c ∈ inner.children, Accepts good schema table c 1)
    (hfit : BlocksFit link.blockSize total) :
    (link.copyTable table false).Ends good
      (voicedResult table link.blockSize total (inners.map voices)) := by
  unfold voicedResult
  by_cases hnone : none ∈ inners.map voices
  · rw [if_pos hnone]
    have hprimaries : ∃ inner ∈ inners, inner.primary = none := by
      obtain ⟨inner, hinner, hvoices⟩ := List.mem_map.mp hnone
      exact ⟨inner, hinner, Option.map_eq_none_iff.mp hvoices⟩
    have hsource : link.primary? = .ok primary := by rw [primary?, hsome]
    rw [copyTable, hsource, Call.done_ok_bind]
    refine hcounts.tableInfo.bind fun s hs => ?_
    subst hs
    rw [hlink]
    exact (ends_rebuildAll_of_none h hprimaries).bind_error
  · rw [if_neg hnone]
    let answers := inners.map fun inner => inner.children.length
    have hprimaries := none_notMem_voices.mp hnone
    have hanswers : (inners.map voices).filterMap id = answers := filterMap_voices hprimaries
    have hlength : answers.length = link.mirrors.length := by
      rw [hlink, List.length_map, List.length_map]
    have hmirrors : ∀ p ∈ link.mirrors.zip answers, Accepts good schema table p.1 p.2 := by
      rw [hlink, List.zip_map']
      intro p hp
      obtain ⟨inner, hinner, rfl⟩ := List.mem_map.mp hp
      obtain ⟨primary, hprimary⟩ := Option.ne_none_iff_exists'.mp (hprimaries inner hinner)
      exact accepts_connection hprimary (h inner hinner)
    refine ends_copyTable hsome hcounts hlength hmirrors hfit ?_
    have hreport : (inners.map voices).length = link.mirrors.length := by
      rw [hlink, List.length_map, List.length_map]
    rw [hanswers, hreport]
    have hgoes : (0 < total → rowResult table answers = .ok ()) →
        (copyBlocks link primary schema table total maxLaps 0
          ⟨table, link.mirrors.length, 0, 0, false⟩).Ends good (.ok ⟨table, link.mirrors.length,
            total, (total + link.blockSize - 1) / link.blockSize, false⟩) := by
      intro hone
      have hends : (copyBlocks link primary schema table total maxLaps 0
          ⟨table, link.mirrors.length, 0, 0, false⟩).Ends good _ :=
        ends_copyBlocks hcounts hlength hmirrors (hfit.offsetsFit link.blockSize_pos) hone _
      simpa only [Nat.zero_add, Nat.sub_zero] using hends
    obtain rfl | hpos := Nat.eq_zero_or_pos total
    · exact hgoes fun h => absurd h (Nat.lt_irrefl 0)
    · rw [if_neg (Nat.ne_of_gt hpos)]
      cases hresult : rowResult table answers with
      | ok _ => exact hgoes fun _ => hresult
      | error e => exact ends_copyBlocks_of_error hcounts hlength hmirrors hresult hpos _

end Ends

/-! ## Resync to compositions -/

/-- Compositions whose members are observed. -/
def observedInners (inners : List (Replicated β)) : List (Replicated (β × CallLog Behind)) :=
  inners.zipIdx.map fun (inner, i) => inner.recordedAs (Behind.mirror i)

theorem voices_observedInners (inners : List (Replicated β)) :
    (observedInners inners).map voices = inners.map voices := by
  have hvoices : (observedInners inners).map voices =
      (inners.zipIdx.map Prod.fst).map voices := by
    rw [observedInners, List.map_map, List.map_map]
    exact List.map_congr_left fun p _ => voices_recordedAs _ p.1
  rw [hvoices, List.zipIdx_map_fst]

/-- Compositions as mirrors, all of whose members are observed. -/
def outlets (inners : List (Replicated β)) : List (Outlet β Behind) :=
  inners.zipIdx.map fun (inner, i) => inner.outlet (Behind.mirror i)

theorem mem_ends_outlets {inners : List (Replicated β)} {label : Behind}
    (h : label ∈ (outlets inners).flatMap Outlet.ends) : ∃ i member, label = .mirror i member := by
  obtain ⟨outlet, houtlet, hlabel⟩ := List.mem_flatMap.mp h
  obtain ⟨⟨inner, i⟩, -, rfl⟩ := List.mem_map.mp houtlet
  obtain ⟨member, -, rfl⟩ := List.mem_map.mp hlabel
  exact ⟨i, member.1, rfl⟩

/-- Every member of every composition has a label of its own. -/
theorem nodup_ends_outlets (inners : List (Replicated β)) :
    ((outlets inners).flatMap Outlet.ends).Nodup := by
  rw [List.nodup_flatMap]
  constructor
  · intro outlet houtlet
    obtain ⟨⟨inner, i⟩, -, rfl⟩ := List.mem_map.mp houtlet
    have hlabels := inner.nodup_members.map (f := Behind.mirror i)
      fun _ _ h => (Behind.mirror.inj h).2
    rwa [List.map_map] at hlabels
  · have hindices : inners.zipIdx.Pairwise fun p q => p.2 ≠ q.2 := by
      rw [← List.pairwise_map, List.zipIdx_map_snd]
      exact List.nodup_range'
    rw [outlets, List.pairwise_map]
    refine hindices.imp fun hne label hone hother => ?_
    obtain ⟨_, -, rfl⟩ := List.mem_map.mp hone
    obtain ⟨_, -, heq⟩ := List.mem_map.mp hother
    exact hne (Behind.mirror.inj heq).1.symm

section Theorem

variable {good : World β → Prop} {schema : TableSchema} {table : String} {rows : List Row}
  {primary : Connection (World β)}

theorem Source.pages {size : Nat} (h : Source good primary table schema rows size) :
    Pages good primary table schema rows.length size
      fun offset block => block = (rows.drop offset).take size where
  tableInfo := h.tableInfo.gives
  count := h.count.gives
  block offset := (h.block offset).gives

/-- The members of observed compositions accept what those of the compositions do. -/
theorem accepts_recordedAs {inners : List (Replicated β)}
    (h : ∀ inner ∈ inners, ∀ c ∈ inner.children, Accepts good schema table c 1) :
    ∀ inner ∈ observedInners inners, ∀ c ∈ inner.children,
      Accepts (fun w => good w.unlogged) schema table c 1 := by
  intro observed hobserved c hc
  obtain ⟨⟨inner, i⟩, hmem, rfl⟩ := List.mem_map.mp hobserved
  obtain ⟨member, hmember, l, rfl⟩ := exists_of_mem_children_recordedAs hc
  exact (h inner (List.fst_mem_of_mem_zipIdx hmem) member hmember).recorded l

/-- What every endpoint receives in a copy to compositions that goes through. -/
theorem logs_copyTable_compositions {link : Replicated β} {inners : List (Replicated β)}
    (hprimary : link.primary = some primary)
    (hsource : Source good primary table schema rows link.blockSize)
    (haccepts : ∀ inner ∈ inners, ∀ c ∈ inner.children, Accepts good schema table c 1)
    (hprimaries : ∀ inner ∈ inners, inner.primary ≠ none)
    (hfit : BlocksFit link.blockSize rows.length) :
    Logs good ((link.recordedThrough inners).copyTable table false) fun _ entries =>
      ∀ i inner, inners[i]? = some inner → ∃ dialect, ∀ p ∈ inner.members,
        CallLog.received entries (.mirror i p.1) =
          (if p.1 = .primary then [.dialect] else []) ++
          (rebuildStatements dialect schema table).map .queryRaw ++
          rows.map fun row => .queryCount (copyQuery schema table row) := by
  have hsome := primary_recordedThrough hprimary inners
  have hmirrors : (link.recordedThrough inners).mirrors =
      (outlets inners).map Outlet.connection := by
    rw [outlets, List.map_map]
    rfl
  have hnonempty : ∀ offset block, offset < rows.length →
      block = (rows.drop offset).take link.blockSize → block ≠ [] := by
    rintro offset _ hoffset rfl
    have hpos := link.blockSize_pos
    rw [← List.length_pos_iff, List.length_take, List.length_drop]
    omega
  have hpasses : ∀ outlet ∈ outlets inners, outlet.Passes good schema table := by
    intro outlet houtlet
    obtain ⟨⟨inner, i⟩, hmem, rfl⟩ := List.mem_map.mp houtlet
    have hinner := List.fst_mem_of_mem_zipIdx hmem
    obtain ⟨speaker, hspeaker⟩ := Option.ne_none_iff_exists'.mp (hprimaries inner hinner)
    exact passes_outlet _ hspeaker (haccepts inner hinner)
  have hspeakers : ∀ outlet ∈ outlets inners, outlet.speaker ∈ outlet.ends := by
    intro outlet houtlet
    obtain ⟨⟨inner, i⟩, hmem, rfl⟩ := List.mem_map.mp houtlet
    obtain ⟨speaker, hspeaker⟩ :=
      Option.ne_none_iff_exists'.mp (hprimaries inner (List.fst_mem_of_mem_zipIdx hmem))
    exact List.mem_map_of_mem (mem_members_of_primary hspeaker)
  have hapart : Behind.primary ∉ (outlets inners).flatMap Outlet.ends := by
    intro hmem
    obtain ⟨_, _, h⟩ := mem_ends_outlets hmem
    cases h
  refine (logs_copyTable hsome hsource.pages hnonempty hfit hmirrors hpasses hspeakers
    (nodup_ends_outlets inners) hapart).imp fun report entries ⟨copied, hcopied, _, hcalls⟩ => ?_
  obtain rfl : copied = rows := hcopied.eq_drop
  intro i inner hinner
  obtain ⟨dialect, hdialect⟩ := hcalls _ (List.mem_map.mpr
    ⟨(inner, i), List.mk_mem_zipIdx_iff_getElem?.mpr hinner, rfl⟩)
  refine ⟨dialect, fun p hp => ?_⟩
  rw [hdialect _ (List.mem_map_of_mem hp), Outlet.rebuiltCalls]
  have hspeaks : (outlet (Behind.mirror i) inner).speaker = Behind.mirror i p.1 ↔
      p.1 = .primary :=
    ⟨fun h => (Behind.mirror.inj h).2.symm, fun h => h ▸ rfl⟩
  simp only [hspeaks]

/--
A resync to compositions goes through if and only if each of them has a primary, and, should there
be a row to copy, one endpoint. The first that has another number of endpoints ends it otherwise.
If it goes through, then every endpoint receives the statements that make the table anew, in the
dialect of its composition, and every row once.
-/
theorem resync_through_compositions (link : Replicated β) (inners : List (Replicated β))
    (w : World β) {lock : Locks.ScopedLock} {room : Locks.Room}
    (hprimary : link.primary = some primary)
    (hmirrors : link.mirrors = inners.map Replicated.connection)
    (hlock : link.lock = some lock)
    (hsource : Source good primary table schema rows link.blockSize)
    (hends : ∀ inner ∈ inners, ∀ c ∈ inner.children,
      ∃ dialect, Target good schema table dialect c)
    (hfit : BlocksFit link.blockSize rows.length)
    (hfree : (lock.acquire table).outcome w.room = (.ok true, room))
    (hgood : good { w with room := room }) :
    let ended := (link.resync table false).outcome w
    let observed := ((link.recordedThrough inners).resync table false).outcome (w.withLog [])
    ((∃ report, ended.1 = .ok report) ↔ (∀ inner ∈ inners, inner.primary ≠ none) ∧
      (rows = [] ∨ ∀ inner ∈ inners, inner.children.length = 1)) ∧
    ((∀ inner ∈ inners, inner.primary ≠ none) → rows ≠ [] → ∀ n,
      (inners.map fun inner => inner.children.length).find? (· != 1) = some n →
        ended.1 = .error (.racyInsert table n)) ∧
    observed.1 = ended.1 ∧
    ∀ report, ended.1 = .ok report → report.rows = rows.length ∧
      ∀ i inner, inners[i]? = some inner → ∃ dialect, ∀ p ∈ inner.members,
        CallLog.received observed.2.endpoints.2 (.mirror i p.1) =
          (if p.1 = .primary then [.dialect] else []) ++
          (rebuildStatements dialect schema table).map .queryRaw ++
          rows.map fun row => .queryCount (copyQuery schema table row) := by
  intro ended observed
  have haccepts : ∀ inner ∈ inners, ∀ c ∈ inner.children, Accepts good schema table c 1 := by
    intro inner hinner c hc
    obtain ⟨dialect, htarget⟩ := hends inner hinner c hc
    exact htarget.accepts
  obtain ⟨w', hplain⟩ := resync_ends hlock hfree hgood
    (ends_copyTable_compositions hprimary hsource.counts hmirrors haccepts hfit)
  have hended : ended.1 =
      voicedResult table link.blockSize rows.length (inners.map voices) := by
    rw [show ended = _ from hplain]
  -- Under observation the numbers of those who answer are the same.
  have hsome := primary_recordedThrough hprimary inners
  have hinners : (link.recordedThrough inners).mirrors =
      (observedInners inners).map Replicated.connection := by
    rw [observedInners, List.map_map]
    rfl
  have hcopy := ends_copyTable_compositions hsome (hsource.counts.recorded Behind.primary) hinners
    (accepts_recordedAs haccepts) hfit
  rw [voices_observedInners] at hcopy
  have hlock' : (link.recordedThrough inners).lock = some lock := hlock
  obtain ⟨v, hobserved⟩ : ∃ v, observed = (_, v) := resync_ends hlock' hfree hgood hcopy
  have hsame : observed.1 = ended.1 := by
    rw [show observed = _ from hobserved, hended]
    rfl
  have hiff : (∃ report, ended.1 = .ok report) ↔ (∀ inner ∈ inners, inner.primary ≠ none) ∧
      (rows = [] ∨ ∀ inner ∈ inners, inner.children.length = 1) := by
    rw [hended, exists_voicedResult_iff, none_notMem_voices]
    refine and_congr_right fun hprimaries => ?_
    rw [filterMap_voices hprimaries, List.length_eq_zero_iff, List.forall_mem_map]
  refine ⟨hiff, fun hprimaries hne n hfound => ?_, hsame, fun report hok => ?_⟩
  · rw [hended, voicedResult, if_neg (none_notMem_voices.mpr hprimaries),
      if_neg (mt List.length_eq_zero_iff.mp hne), filterMap_voices hprimaries, rowResult, hfound]
    rfl
  · refine ⟨rows_of_voicedResult (hended.symm.trans hok), ?_⟩
    have hlogs := logs_copyTable_compositions hprimary hsource haccepts (hiff.mp ⟨report, hok⟩).1
      hfit
    have hrun : ((link.recordedThrough inners).resync table false).outcome (w.withLog []) =
        (.ok report, observed.2) := Prod.ext (hsame.trans hok) rfl
    rw [resync_eq hlock'] at hrun
    obtain ⟨_, -, entries, hentries, hreceived⟩ := hlogs.of_taken hfree hgood hrun
    rw [hentries]
    exact hreceived

end Theorem

/-- A composition of plain databases with these numbers, the first one being the primary. -/
def composed (first : ShardId) (others : List ShardId) : Replicated RowTable.Tables :=
  let alone := setPrimary (empty 0) (plainMirror first)
  { alone with mirrors := others.map plainMirror }

/-- A primary with seven users and compositions as mirrors, copied three rows at a time. -/
def sevenThrough (inners : List (Replicated RowTable.Tables)) : Replicated RowTable.Tables :=
  { sevenByThree with mirrors := inners.map Replicated.connection }

theorem target_of_mem_composed {first : ShardId} {others : List ShardId}
    {c : Connection (World RowTable.Tables)} (hc : c ∈ (composed first others).children) :
    Target (fun _ => True) indexedUsers "users" .sqlite c := by
  rw [children_eq (show (composed first others).primary = some (plainMirror first) from rfl)] at hc
  rcases List.mem_cons.mp hc with rfl | hmirror
  · exact target_plainMirror ..
  · obtain ⟨number, -, rfl⟩ := List.mem_map.mp hmirror
    exact target_plainMirror ..

/-- Two compositions of one database each receive seven users. -/
theorem seven_users_through_single_members :
    let link := sevenThrough [composed 1 [], composed 2 []]
    let observed := ((link.recordedThrough [composed 1 [], composed 2 []]).resync "users"
      false).outcome (unlockedWorld.withLog [])
    ∃ report, ((link.resync "users" false).outcome unlockedWorld).1 = .ok report ∧
      report.rows = 7 ∧ observed.1 = .ok report ∧
      ∃ dialect, CallLog.received observed.2.endpoints.2 (.mirror 1 .primary) =
        [.dialect] ++ (rebuildStatements dialect indexedUsers "users").map .queryRaw ++
        sevenUsers.map fun row => .queryCount (copyQuery indexedUsers "users" row) := by
  intro link observed
  have htargets : ∀ inner ∈ [composed 1 [], composed 2 []], ∀ c ∈ inner.children,
      ∃ dialect, Target (fun _ => True) indexedUsers "users" dialect c := by
    intro inner hinner c hc
    rw [List.mem_cons, List.mem_singleton] at hinner
    obtain rfl | rfl := hinner
    · exact ⟨.sqlite, target_of_mem_composed hc⟩
    · exact ⟨.sqlite, target_of_mem_composed hc⟩
  obtain ⟨hiff, -, hsame, hreceived⟩ := resync_through_compositions link
    [composed 1 [], composed 2 []] unlockedWorld rfl rfl rfl
    (source_fixedPrimary indexedUsers "users" sevenUsers 3) htargets (by decide) rfl trivial
  obtain ⟨report, hok⟩ := hiff.mpr
    ⟨by simp [composed, setPrimary], Or.inr (by simp [composed, children, setPrimary])⟩
  obtain ⟨hrows, hcalls⟩ := hreceived report hok
  obtain ⟨dialect, hmembers⟩ := hcalls 1 (composed 2 []) rfl
  exact ⟨report, hok, hrows, hsame.trans hok, dialect,
    hmembers (.primary, plainMirror 2) List.mem_cons_self⟩

/-- A composition of two databases accepts everything, and yet the resync takes it for a failure. -/
theorem resync_fails_through_two_members :
    (∀ c ∈ (composed 1 [2]).children, Target (fun _ => True) indexedUsers "users" .sqlite c) ∧
    (((sevenThrough [composed 1 [2]]).resync "users" false).outcome unlockedWorld).1 =
      .error (.racyInsert "users" 2) := by
  have htargets : ∀ c ∈ (composed 1 [2]).children,
      Target (fun _ => True) indexedUsers "users" .sqlite c := fun _ hc => target_of_mem_composed hc
  have haccepts : ∀ inner ∈ [composed 1 [2]], ∀ c ∈ inner.children,
      Accepts (fun _ => True) indexedUsers "users" c 1 := by
    intro inner hinner c hc
    obtain rfl := List.mem_singleton.mp hinner
    exact (htargets c hc).accepts
  have hsource := source_fixedPrimary indexedUsers "users" sevenUsers 3
  have hcopy : ((sevenThrough [composed 1 [2]]).copyTable "users" false).Ends (fun _ => True)
      (voicedResult "users" 3 7 [some 2]) :=
    ends_copyTable_compositions rfl hsource.counts rfl haccepts (by decide)
  obtain ⟨w', hended⟩ : ∃ w', ((sevenThrough [composed 1 [2]]).resync "users" false).outcome
      unlockedWorld = (voicedResult "users" 3 7 [some 2], w') :=
    resync_ends rfl rfl trivial hcopy
  refine ⟨htargets, ?_⟩
  rw [hended]
  rfl

end Replicated

end SqlFederation
