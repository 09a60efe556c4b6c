import Mathlib
import SqlFederation.Proofs.LockLongNames

/-!
# The keys of one namespace

The store knows a key by one text, that of the namespace in front of that of the key
(`hasLead_keyIn`). Two namespaces lead the same text only if one of them is a part of the other
(`not_hasLead_of_not_nested`, `exists_keyIn_eq`). Of the keys that a store has, those that a text
leads (`MemoryStore.ledBy`) are a store of their own: what is done with them has the answer that it
would have there and leaves what would be left there (`Operation.onKeys_ledBy`), and what is done
with other keys leaves them alone (`Operation.ledBy_onKeys`).
-/

namespace SqlFederation

namespace Locks

/-! ## The texts of namespaces -/

/-- Is a namespace a part of another one? -/
def Nested (outer inner : String) : Prop := ∃ name, inner = partOf outer name

/-- What all keys of a namespace start with. -/
def leadOf (scope : String) : String := scope ++ ":"

theorem hasLead_iff {lead key : String} :
    hasLead lead key = true ↔ ∃ rest, key = lead ++ rest := by
  have hchars : ∀ chars start : List Char,
      Text.startsWith chars start = true ↔ ∃ rest, chars = start ++ rest := by
    intro chars start
    induction chars, start using Text.startsWith.induct with
    | case1 chars => simp [Text.startsWith]
    | case2 c start => simp [Text.startsWith]
    | case3 c chars d start ih => simp [Text.startsWith, ih]
  rw [hasLead, hchars]
  constructor
  · rintro ⟨rest, hrest⟩
    refine ⟨String.ofList rest, String.toList_inj.mp ?_⟩
    rw [hrest, String.toList_append, String.toList_ofList]
  · rintro ⟨rest, rfl⟩
    exact ⟨rest.toList, String.toList_append⟩

/-- The store knows the keys of a namespace by texts that the namespace leads. -/
theorem keyIn_eq {scope : String} (h : scope ≠ "") (key : String) :
    keyIn scope key = leadOf scope ++ key := by
  rw [keyIn, if_neg fun hempty => h (String.isEmpty_iff.mp hempty), leadOf]

theorem hasLead_keyIn {scope : String} (h : scope ≠ "") (key : String) :
    hasLead (leadOf scope) (keyIn scope key) = true :=
  hasLead_iff.mpr ⟨key, keyIn_eq h key⟩

theorem nested_iff {outer inner : String} :
    Nested outer inner ↔ hasLead (leadOf outer) inner = true :=
  hasLead_iff.symm

instance (outer inner : String) : Decidable (Nested outer inner) :=
  decidable_of_iff _ nested_iff.symm

/-- Parts of one namespace are as nested as their names. -/
theorem nested_partOf_iff (base : String) {outer inner : String} :
    Nested (partOf base outer) (partOf base inner) ↔ Nested outer inner := by
  unfold Nested partOf
  refine exists_congr fun name => ?_
  have hname : base ++ ":" ++ outer ++ ":" ++ name = base ++ ":" ++ (outer ++ ":" ++ name) := by
    simp only [String.append_assoc]
  rw [hname, String.append_right_inj]

/-- A name without a colon is a part of nothing. -/
theorem not_nested_of_not_mem {outer inner : String} (h : ':' ∉ inner.toList) :
    ¬Nested outer inner := by
  rintro ⟨name, rfl⟩
  refine h ?_
  rw [partOf, String.toList_append, String.toList_append, List.mem_append, List.mem_append]
  exact Or.inl (Or.inr List.mem_cons_self)

/-- Of two namespaces that lead one text, one is a part of the other, or they are the same. -/
theorem eq_or_nested_of_append {ours theirs a b : String}
    (h : leadOf ours ++ a = leadOf theirs ++ b) :
    ours = theirs ∨ Nested ours theirs ∨ Nested theirs ours := by
  have hpart : ∀ {outer inner : String} {rest a b : List Char},
      inner.toList = outer.toList ++ rest → ':' :: a = rest ++ ':' :: b →
        outer = inner ∨ Nested outer inner := by
    intro outer inner rest a b hinner hrest
    cases rest with
    | nil =>
      rw [List.append_nil] at hinner
      exact Or.inl (String.toList_inj.mp hinner.symm)
    | cons c rest =>
      -- What the longer namespace goes on with starts with the colon behind the shorter one.
      obtain ⟨rfl, -⟩ := List.cons.inj hrest
      refine Or.inr ⟨String.ofList rest, String.toList_inj.mp ?_⟩
      rw [hinner, partOf, String.toList_append, String.toList_append, List.append_assoc]
      rw [String.toList_ofList, String.toList_ofList, List.singleton_append]
  have hchars : ours.toList ++ ':' :: a.toList = theirs.toList ++ ':' :: b.toList := by
    have htexts := congrArg String.toList h
    rw [leadOf, leadOf, String.toList_append, String.toList_append, String.toList_append,
      String.toList_append, List.append_assoc, List.append_assoc] at htexts
    exact htexts
  obtain ⟨rest, htheirs, hrest⟩ | ⟨rest, hours, hrest⟩ := List.append_eq_append_iff.mp hchars
  · exact (hpart htheirs hrest).imp_right Or.inl
  · exact (hpart hours hrest).imp Eq.symm Or.inr

/-- No text is led by two namespaces neither of which is a part of the other. -/
theorem not_hasLead_of_not_nested {ours theirs : String} (hne : ours ≠ theirs)
    (hapart : ¬Nested ours theirs ∧ ¬Nested theirs ours) {key : String}
    (hlead : hasLead (leadOf theirs) key = true) : hasLead (leadOf ours) key = false := by
  refine Bool.eq_false_iff.mpr fun hours => ?_
  obtain ⟨a, ha⟩ := hasLead_iff.mp hours
  obtain ⟨b, hb⟩ := hasLead_iff.mp hlead
  obtain rfl | hinner | houter := eq_or_nested_of_append (ha.symm.trans hb)
  · exact hne rfl
  · exact hapart.1 hinner
  · exact hapart.2 houter

/-- A namespace and a part of it have keys with the same text. -/
theorem exists_keyIn_eq {outer inner : String} (houter : outer ≠ "") (hinner : inner ≠ "")
    (h : Nested outer inner) : ∃ a b, keyIn outer a = keyIn inner b := by
  obtain ⟨name, rfl⟩ := h
  refine ⟨leadOf name, "", ?_⟩
  rw [keyIn_eq houter, keyIn_eq hinner, leadOf, leadOf, leadOf, partOf, String.append_empty,
    ← String.append_assoc]

/-! ## The keys of one namespace -/

namespace MemoryStore

variable (store : MemoryStore) {lead key : String}

/-- The keys that a text leads. -/
def ledBy (lead : String) : MemoryStore :=
  ⟨store.entries.filter fun entry => hasLead lead entry.1⟩

theorem expiry?_ledBy (h : hasLead lead key = true) :
    (store.ledBy lead).expiry? key = store.expiry? key := by
  unfold expiry? ledBy
  rw [lookup_filter_key fun k => hasLead lead k, if_pos h]

theorem isLive_ledBy (h : hasLead lead key = true) (now : Time) :
    (store.ledBy lead).isLive now key = store.isLive now key := by
  rw [isLive, isLive, store.expiry?_ledBy h]

theorem ledBy_delete (lead key : String) :
    (store.delete key).ledBy lead = (store.ledBy lead).delete key := by
  unfold ledBy delete
  rw [List.filter_filter, List.filter_filter]
  exact congrArg MemoryStore.mk (List.filter_congr fun entry _ => Bool.and_comm _ _)

/-- A key that a text does not lead is none of those that it leads. -/
theorem delete_ledBy_of_not (h : hasLead lead key = false) :
    (store.ledBy lead).delete key = store.ledBy lead := by
  refine delete_of_none (Option.not_isSome_iff_eq_none.mp fun hstored => ?_)
  obtain ⟨entry, hentry, rfl⟩ := List.mem_map.mp (mem_keys_iff.mpr hstored)
  have hlead : hasLead lead entry.1 = true := (List.mem_filter.mp hentry).2
  rw [h] at hlead
  cases hlead

theorem ledBy_put (h : hasLead lead key = true) (ends : Time) :
    (store.put key ends).ledBy lead = (store.ledBy lead).put key ends := by
  have hlast : [(key, ends)].filter (fun entry => hasLead lead entry.1) = [(key, ends)] :=
    List.filter_cons_of_pos h
  rw [put, put, ← ledBy_delete]
  unfold ledBy
  rw [List.filter_append, hlast]

theorem ledBy_put_of_not (h : hasLead lead key = false) (ends : Time) :
    (store.put key ends).ledBy lead = store.ledBy lead := by
  have hlast : [(key, ends)].filter (fun entry => hasLead lead entry.1) = [] :=
    List.filter_cons_of_neg (Bool.eq_false_iff.mp h)
  rw [← store.delete_ledBy_of_not h, ← ledBy_delete, put]
  unfold ledBy
  rw [List.filter_append, hlast, List.append_nil]

/-- Whether a key is taken depends on the keys that its lead leads. -/
theorem add_ledBy (h : hasLead lead key = true) (now : Time) (span : Nat) :
    (store.ledBy lead).add now key span =
      ((store.add now key span).1, (store.add now key span).2.ledBy lead) := by
  unfold add
  rw [store.isLive_ledBy h]
  cases expiry now span with
  | error e => rfl
  | ok ends =>
    dsimp only
    split
    · rfl
    · rw [store.ledBy_put h]

/-- To take a key leaves those that a text leads, if it does not lead that key. -/
theorem ledBy_add_of_not (h : hasLead lead key = false) (now : Time) (span : Nat) :
    (store.add now key span).2.ledBy lead = store.ledBy lead := by
  unfold add
  cases expiry now span with
  | error e => rfl
  | ok ends =>
    dsimp only
    split
    · rfl
    · exact store.ledBy_put_of_not h ends

theorem deleteLead_ledBy (lead : String) :
    (store.ledBy lead).deleteLead lead =
      ((store.deleteLead lead).1, (store.deleteLead lead).2.ledBy lead) := by
  unfold deleteLead ledBy
  rw [List.filter_filter, List.filter_filter, List.filter_filter]
  refine Prod.ext ?_ (congrArg MemoryStore.mk ?_)
  · exact congrArg List.length (List.filter_congr fun entry _ => Bool.and_self _)
  · exact List.filter_congr fun entry _ => Bool.and_comm _ _

/-- To remove what one text leads leaves what another one leads, if no key is led by both. -/
theorem ledBy_deleteLead_of_not {other : String}
    (h : ∀ key, hasLead other key = true → hasLead lead key = false) :
    (store.deleteLead other).2.ledBy lead = store.ledBy lead := by
  unfold deleteLead ledBy
  rw [List.filter_filter]
  refine congrArg MemoryStore.mk (List.filter_congr fun entry _ => ?_)
  show (hasLead lead entry.1 && !hasLead other entry.1) = hasLead lead entry.1
  cases hother : hasLead other entry.1 with
  | true => rw [h entry.1 hother, Bool.false_and]
  | false => rw [Bool.not_false, Bool.and_true]

end MemoryStore

namespace Operation

variable {lead other : String} {operation : Operation}

/-- Is an operation about keys that a text leads, or about all of them? -/
def IsLedBy (lead : String) : Operation → Prop
  | add key _ => hasLead lead key = true
  | delete key => hasLead lead key = true
  | deleteLead text => text = lead

/-- An operation of a namespace never removes all keys there are. -/
theorem IsLedBy.sparesEmptyKey {scope : String} (h : operation.IsLedBy (leadOf scope))
    (keys : MemoryStore) : operation.SparesEmptyKey keys := by
  rintro rfl
  have hempty : leadOf scope = "" := h.symm
  exact absurd (String.append_eq_empty_iff.mp hempty).2 (by decide)

theorem namesFit_ledBy (h : operation.IsLedBy lead) (directory : String) (now : Time)
    (keys : MemoryStore) :
    operation.NamesFit directory now (keys.ledBy lead) ↔ operation.NamesFit directory now keys := by
  cases operation with
  | add key span => rw [NamesFit, NamesFit, keys.expiry?_ledBy h]
  | delete key => exact Iff.rfl
  | deleteLead text => exact Iff.rfl

theorem onMemory_ledBy (h : operation.IsLedBy lead) (now : Time) (keys : MemoryStore) :
    operation.onMemory now (keys.ledBy lead) =
      ((operation.onMemory now keys).1, (operation.onMemory now keys).2.ledBy lead) := by
  cases operation with
  | add key span => rw [onMemory, onMemory, keys.add_ledBy h]
  | delete key => rw [onMemory, onMemory, keys.ledBy_delete]
  | deleteLead text =>
    obtain rfl : text = lead := h
    rw [onMemory, onMemory, keys.deleteLead_ledBy]

/-- A store does with the keys that a text leads what it would do if it had no others. -/
theorem onKeys_ledBy (h : operation.IsLedBy lead) (store : Store) (now : Time)
    (keys : MemoryStore) :
    operation.onKeys store now (keys.ledBy lead) =
      ((operation.onKeys store now keys).1, (operation.onKeys store now keys).2.ledBy lead) := by
  have hmemory := onMemory_ledBy h now keys
  cases store with
  | memory number => exact hmemory
  | directory directory =>
    rw [onKeys, onKeys]
    by_cases hfit : operation.NamesFit directory now keys
    · rw [if_pos hfit, if_pos ((namesFit_ledBy h directory now keys).mpr hfit), hmemory]
    · rw [if_neg hfit, if_neg (mt (namesFit_ledBy h directory now keys).mp hfit), refused, refused,
        hmemory]

/-- What a store does with the keys that one text leads leaves those that another one leads. -/
theorem ledBy_onKeys (h : operation.IsLedBy other)
    (hapart : ∀ key, hasLead other key = true → hasLead lead key = false) (store : Store)
    (now : Time) (keys : MemoryStore) :
    (operation.onKeys store now keys).2.ledBy lead = keys.ledBy lead := by
  have hmemory : (operation.onMemory now keys).2.ledBy lead = keys.ledBy lead := by
    cases operation with
    | add key span => exact keys.ledBy_add_of_not (hapart key h) now span
    | delete key =>
      rw [onMemory, keys.ledBy_delete, keys.delete_ledBy_of_not (hapart key h)]
    | deleteLead text =>
      obtain rfl : text = other := h
      exact keys.ledBy_deleteLead_of_not hapart
  cases store with
  | memory number => exact hmemory
  | directory directory =>
    rw [onKeys]
    split
    · exact hmemory
    · rfl

end Operation

end Locks

end SqlFederation
