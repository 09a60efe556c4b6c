import SqlFederation.Proofs.Order
import SqlFederation.Json.Printer
import Std.Data.String.ToInt

/-!
# The text of group keys

Groups are told apart by the text of their values, so different values need different texts
(`Json.compactItems_inj`). A quoted text can be read back one character after the other
(`Json.unescape_escapeChar`), so that it ends where its closing quote does. The text of any other
plain value has neither a comma nor a quote, and ends where the next comma is.
-/

namespace SqlFederation

namespace Json

/-- Reads an escaped character off the front of a text. -/
def unescape : List Char → Option (Char × List Char)
  | '\\' :: 'u' :: _ :: _ :: high :: low :: rest =>
    some (Char.ofNat (16 * (Text.hexValue? high).getD 0 + (Text.hexValue? low).getD 0), rest)
  | '\\' :: 'n' :: rest => some ('\n', rest)
  | '\\' :: 'r' :: rest => some ('\r', rest)
  | '\\' :: 't' :: rest => some ('\t', rest)
  | '\\' :: 'b' :: rest => some (Char.ofNat 8, rest)
  | '\\' :: 'f' :: rest => some (Char.ofNat 12, rest)
  | '\\' :: c :: rest => some (c, rest)
  | c :: rest => some (c, rest)
  | [] => none

/-- What does not start with a backslash is not escaped. -/
theorem unescape_cons {c : Char} (h : c ≠ '\\') (rest : List Char) :
    unescape (c :: rest) = some (c, rest) := by
  rw [unescape]
  all_goals
    intros
    contradiction

/-- An escaped character is read back as the character. -/
theorem unescape_escapeChar (c : Char) (rest : List Char) :
    unescape (escapeChar c ++ rest) = some (c, rest) := by
  have hcontrol : ∀ n < 32, Char.ofNat (16 * (Text.hexValue? (Text.hexDigit (n / 16))).getD 0 +
      (Text.hexValue? (Text.hexDigit (n % 16))).getD 0) = Char.ofNat n := by decide
  unfold escapeChar
  split
  · rfl
  · rfl
  · rfl
  · rfl
  · rfl
  · split
    · rename_i h8
      rw [← c.ofNat_toNat, h8]
      rfl
    · split
      · rename_i h12
        rw [← c.ofNat_toNat, h12]
        rfl
      · split
        · rename_i h32
          simp only [List.cons_append, List.nil_append, unescape]
          rw [hcontrol c.toNat h32, c.ofNat_toNat]
        · rename_i hslash _ _ _ _ _ _
          rw [List.singleton_append, unescape_cons hslash]

/-- An escaped character never starts with the closing quote. -/
theorem escapeChar_append_ne (c : Char) (rest tail : List Char) :
    escapeChar c ++ rest ≠ '"' :: tail := by
  intro h
  have hread := unescape_escapeChar c rest
  rw [h, unescape_cons (by decide), Option.some.injEq, Prod.mk.injEq] at hread
  obtain ⟨rfl, rfl⟩ := hread
  exact absurd (List.cons.inj h).1 (by decide)

/-- A quoted text ends where its closing quote does. -/
theorem escaped_inj {s t xs ys : List Char}
    (h : s.flatMap escapeChar ++ '"' :: xs = t.flatMap escapeChar ++ '"' :: ys) :
    s = t ∧ xs = ys := by
  induction s generalizing t with
  | nil =>
    cases t with
    | nil => exact ⟨rfl, (List.cons.inj h).2⟩
    | cons d t =>
      rw [List.flatMap_cons, List.append_assoc] at h
      exact absurd h.symm (escapeChar_append_ne d _ _)
  | cons c s ih =>
    rw [List.flatMap_cons, List.append_assoc] at h
    cases t with
    | nil => exact absurd h (escapeChar_append_ne c _ _)
    | cons d t =>
      rw [List.flatMap_cons, List.append_assoc] at h
      have hread := congrArg unescape h
      rw [unescape_escapeChar, unescape_escapeChar, Option.some.injEq, Prod.mk.injEq] at hread
      obtain ⟨rfl, hrest⟩ := hread
      obtain ⟨rfl, rfl⟩ := ih hrest
      exact ⟨rfl, rfl⟩

theorem toList_compact_str (text : String) :
    (compact (.str text)).toList = '"' :: (text.toList.flatMap escapeChar ++ ['"']) := by
  simp [compact, quote]

/-- The characters of an integer are digits and a sign. -/
theorem isDigit_of_mem_repr {k : Int} {c : Char} (h : c ∈ k.repr.toList) :
    c.isDigit = true ∨ c = '-' := by
  rw [Int.repr_eq_if] at h
  split at h
  · rw [Nat.toList_repr] at h
    exact Or.inl (Nat.isDigit_of_mem_toDigits (by decide) (by decide) h)
  · rw [String.toList_append, List.mem_append, Nat.toList_repr] at h
    rcases h with hsign | hdigit
    · exact Or.inr (by simpa using hsign)
    · exact Or.inl (Nat.isDigit_of_mem_toDigits (by decide) (by decide) hdigit)

/-- A plain value that is no text is written with neither comma nor quote. -/
theorem ne_of_mem_compact {value : Json} (hplain : value.isPlain = true)
    (hstr : ∀ text, value ≠ .str text) {c : Char} (h : c ∈ (compact value).toList) :
    c ≠ ',' ∧ c ≠ '"' := by
  have hword : ∀ word : String, (word.toList.all fun c => c != ',' && c != '"') = true →
      c ∈ word.toList → c ≠ ',' ∧ c ≠ '"' := by
    intro word hall hc
    have hboth := List.all_eq_true.mp hall c hc
    rw [Bool.and_eq_true, bne_iff_ne, bne_iff_ne] at hboth
    exact hboth
  rcases isPlain_cases hplain with rfl | ⟨b, rfl⟩ | ⟨k, rfl, -⟩ | ⟨text, rfl⟩
  · exact hword "null" (by decide) h
  · cases b with
    | false => exact hword "false" (by decide) h
    | true => exact hword "true" (by decide) h
  · rcases isDigit_of_mem_repr h with hdigit | rfl
    · constructor
      · rintro rfl
        cases hdigit
      · rintro rfl
        cases hdigit
    · decide
  · exact absurd rfl (hstr text)

/-- Reads a plain value that is no text. -/
def readAtom (text : String) : Json :=
  if text = "null" then .null
  else if text = "true" then .bool true
  else if text = "false" then .bool false
  else .ofInt (text.toInt?.getD 0)

/-- A plain value that is no text is read back as it is. -/
theorem readAtom_compact {value : Json} (hplain : value.isPlain = true)
    (hstr : ∀ text, value ≠ .str text) : readAtom (compact value) = value := by
  rcases isPlain_cases hplain with rfl | ⟨b, rfl⟩ | ⟨k, rfl, -⟩ | ⟨text, rfl⟩
  · decide
  · cases b <;> decide
  · have hword : ∀ word : String, (word.toList.any fun c => !c.isDigit && c != '-') = true →
        k.repr ≠ word := by
      rintro _ hany rfl
      obtain ⟨c, hc, hother⟩ := List.any_eq_true.mp hany
      rw [Bool.and_eq_true, Bool.not_eq_true', bne_iff_ne] at hother
      rcases isDigit_of_mem_repr hc with h | h
      · rw [hother.1] at h
        cases h
      · exact hother.2 h
    show readAtom k.repr = .ofInt k
    rw [readAtom, if_neg (hword "null" (by decide)), if_neg (hword "true" (by decide)),
      if_neg (hword "false" (by decide)), Int.toInt?_repr, Option.getD_some]
  · exact absurd rfl (hstr text)

/-- A text that ends, or goes on with a comma. -/
def Ends (tail : List Char) : Prop := ∀ c, tail.head? = some c → c = ','

/-- Texts without commas end where the next comma is. -/
theorem append_inj_of_ends {s t xs ys : List Char} (hs : ∀ c ∈ s, c ≠ ',') (ht : ∀ c ∈ t, c ≠ ',')
    (hxs : Ends xs) (hys : Ends ys) (h : s ++ xs = t ++ ys) : s = t ∧ xs = ys := by
  induction s generalizing t with
  | nil =>
    cases t with
    | nil => exact ⟨rfl, h⟩
    | cons d t =>
      rw [List.nil_append] at h
      rw [h] at hxs
      exact absurd (hxs d rfl) (ht d List.mem_cons_self)
  | cons c s ih =>
    cases t with
    | nil =>
      rw [List.nil_append] at h
      rw [← h] at hys
      exact absurd (hys c rfl) (hs c List.mem_cons_self)
    | cons d t =>
      obtain ⟨rfl, hrest⟩ := List.cons.inj h
      obtain ⟨rfl, rfl⟩ := ih (fun c hc => hs c (List.mem_cons_of_mem _ hc))
        (fun c hc => ht c (List.mem_cons_of_mem _ hc)) hrest
      exact ⟨rfl, rfl⟩

/-- A plain value, with what is written behind it, is told from what is written. -/
theorem compact_append_inj {v w : Json} (hv : v.isPlain = true) (hw : w.isPlain = true)
    {xs ys : List Char} (hxs : Ends xs) (hys : Ends ys)
    (h : (compact v).toList ++ xs = (compact w).toList ++ ys) : v = w ∧ xs = ys := by
  -- The first character says whether it is a text.
  have hfirst : ∀ {value : Json} {text : String} {rest tail : List Char}, value.isPlain = true →
      (∀ text, value ≠ .str text) → Ends tail →
      (compact (.str text)).toList ++ rest ≠ (compact value).toList ++ tail := by
    intro value text rest tail hplain hstr htail heq
    rw [toList_compact_str, List.cons_append] at heq
    cases hvalue : (compact value).toList with
    | nil =>
      rw [hvalue, List.nil_append] at heq
      rw [← heq] at htail
      exact absurd (htail '"' rfl) (by decide)
    | cons c cs =>
      rw [hvalue, List.cons_append] at heq
      have hmem : c ∈ (compact value).toList := by
        rw [hvalue]
        exact List.mem_cons_self
      exact (ne_of_mem_compact hplain hstr hmem).2 (List.cons.inj heq).1.symm
  -- A text ends at its closing quote, any other value at the next comma.
  by_cases hvs : ∃ text, v = .str text
  · obtain ⟨s, rfl⟩ := hvs
    by_cases hws : ∃ text, w = .str text
    · obtain ⟨t, rfl⟩ := hws
      rw [toList_compact_str, toList_compact_str, List.cons_append, List.cons_append,
        List.append_assoc, List.append_assoc] at h
      obtain ⟨hst, rfl⟩ := escaped_inj (List.cons.inj h).2
      exact ⟨by rw [String.toList_inj.mp hst], rfl⟩
    · exact absurd h (hfirst hw (not_exists.mp hws) hys)
  · by_cases hws : ∃ text, w = .str text
    · obtain ⟨t, rfl⟩ := hws
      exact absurd h.symm (hfirst hv (not_exists.mp hvs) hxs)
    · have hvs' := not_exists.mp hvs
      have hws' := not_exists.mp hws
      obtain ⟨htext, hrest⟩ := append_inj_of_ends (fun c hc => (ne_of_mem_compact hv hvs' hc).1)
        (fun c hc => (ne_of_mem_compact hw hws' hc).1) hxs hys h
      refine ⟨?_, hrest⟩
      rw [← readAtom_compact hv hvs', String.toList_inj.mp htext, readAtom_compact hw hws']

/-- What is written behind the first of some items. -/
def itemsTail : List Json → List Char
  | [] => []
  | items => ',' :: (compactItems items).toList

theorem ends_itemsTail (items : List Json) : Ends (itemsTail items) := by
  intro c hc
  cases items with
  | nil => cases hc
  | cons item rest => exact (Option.some.inj hc).symm

theorem toList_compactItems_cons (item : Json) (rest : List Json) :
    (compactItems (item :: rest)).toList = (compact item).toList ++ itemsTail rest := by
  cases rest with
  | nil => rw [compactItems, itemsTail, List.append_nil]
  | cons next rest => simp [compactItems, itemsTail]

/-- Lists of plain values of one length are told apart by what is written. -/
theorem compactItems_inj {as bs : List Json} (ha : ∀ a ∈ as, a.isPlain = true)
    (hb : ∀ b ∈ bs, b.isPlain = true) (hlength : as.length = bs.length)
    (h : compactItems as = compactItems bs) : as = bs := by
  induction as generalizing bs with
  | nil => exact (List.eq_nil_of_length_eq_zero hlength.symm).symm
  | cons a as ih =>
    cases bs with
    | nil => cases hlength
    | cons b bs =>
      rw [List.forall_mem_cons] at ha hb
      rw [← String.toList_inj, toList_compactItems_cons, toList_compactItems_cons] at h
      obtain ⟨rfl, htail⟩ :=
        compact_append_inj ha.1 hb.1 (ends_itemsTail as) (ends_itemsTail bs) h
      have hlength' : as.length = bs.length := Nat.succ.inj hlength
      have hitems : compactItems as = compactItems bs := by
        cases as with
        | nil =>
          rw [List.eq_nil_of_length_eq_zero hlength'.symm]
        | cons a' as =>
          cases bs with
          | nil => cases hlength'
          | cons b' bs => exact String.toList_inj.mp (List.cons.inj htail).2
      rw [ih ha.2 hb.2 hlength' hitems]

/-- Plain values in a list of known length are told from its text. -/
theorem compact_arr_inj {as bs : List Json} (ha : ∀ a ∈ as, a.isPlain = true)
    (hb : ∀ b ∈ bs, b.isPlain = true) (hlength : as.length = bs.length)
    (h : compact (.arr as) = compact (.arr bs)) : as = bs :=
  compactItems_inj ha hb hlength (by simpa [compact] using h)

end Json

end SqlFederation
