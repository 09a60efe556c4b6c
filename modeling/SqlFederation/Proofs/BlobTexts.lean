import Mathlib.Tactic.SplitIfs
import SqlFederation.Text.Base64

/-!
# Texts that stand for bytes

A blob is handed out as a text in base64. Decoding gives back what was encoded
(`Base64.decodeChars_encodeWith`), and the decoder accepts nothing that the encoder does not write
(`Base64.encodeWith_of_decodeChars`): a group has one way to be filled up, and the bits that no byte
has are zero. So a text stands for bytes if and only if it is their encoding
(`Base64.decode?_eq_some_iff`).
-/

namespace SqlFederation

namespace Base64

/-- The digit of a six-bit value is read as that value. -/
theorem value?_digit {v : Nat} (hv : v < 64) : value? (digit ('+', '/') v) = some v := by
  have hall : ∀ v : Fin 64, value? (digit ('+', '/') v) = some v.val := by decide +kernel
  exact hall ⟨v, hv⟩

/-- What is read as a value is a six-bit one, and the character is its digit. -/
theorem eq_digit_of_value? {c : Char} {v : Nat} (h : value? c = some v) :
    v < 64 ∧ digit ('+', '/') v = c := by
  have hchar : Char.ofNat c.toNat = c := Char.ofNat_toNat c
  unfold value? at h
  dsimp only at h
  split_ifs at h with hupper hlower hten hplus hslash <;> cases h
  · refine ⟨by omega, ?_⟩
    rw [digit, if_pos (by omega), show 65 + (c.toNat - 65) = c.toNat by omega, hchar]
  · refine ⟨by omega, ?_⟩
    rw [digit, if_neg (by omega), if_pos (by omega),
      show 97 + (c.toNat - 97 + 26 - 26) = c.toNat by omega, hchar]
  · refine ⟨by omega, ?_⟩
    rw [digit, if_neg (by omega), if_neg (by omega), if_pos (by omega),
      show 48 + (c.toNat - 48 + 52 - 52) = c.toNat by omega, hchar]
  · exact ⟨by omega, hplus.symm⟩
  · exact ⟨by omega, hslash.symm⟩

/-- No digit fills a group up. -/
theorem digit_ne_fill {v : Nat} (hv : v < 64) : digit ('+', '/') v ≠ '=' := by
  intro h
  have hread := value?_digit hv
  rw [h] at hread
  cases hread

theorem ofNat_eq_byte {b : UInt8} {n : Nat} (h : n = b.toNat) : UInt8.ofNat n = b := by
  rw [h, UInt8.ofNat_toNat]

theorem toNat_byte {n : Nat} (h : n < 256) : (UInt8.ofNat n).toNat = n :=
  UInt8.toNat_ofNat_of_lt h

/-- What is encoded is decoded. -/
theorem decodeChars_encodeWith (bytes : List UInt8) :
    decodeChars (encodeWith ('+', '/') ['='] bytes) = some bytes := by
  induction bytes using encodeWith.induct with
  | case1 => rfl
  | case2 a =>
    have ha := a.toNat_lt
    have hlow : a.toNat % 4 * 16 % 16 = 0 := by omega
    have hfirst : UInt8.ofNat (a.toNat / 4 * 4 + a.toNat % 4 * 16 / 16) = a :=
      ofNat_eq_byte (by omega)
    simp only [encodeWith, List.cons_append, List.nil_append, decodeChars,
      value?_digit (show a.toNat / 4 < 64 by omega),
      value?_digit (show a.toNat % 4 * 16 < 64 by omega), Option.bind_eq_bind, Option.bind_some,
      if_pos hlow, hfirst]
  | case3 a b =>
    have ha := a.toNat_lt
    have hb := b.toNat_lt
    -- The third digit is none of the characters that fill up, so two bytes are read.
    have hfill := digit_ne_fill (show b.toNat % 16 * 4 < 64 by omega)
    have hlow : b.toNat % 16 * 4 % 4 = 0 := by omega
    have hfirst : UInt8.ofNat (a.toNat / 4 * 4 + (a.toNat % 4 * 16 + b.toNat / 16) / 16) = a :=
      ofNat_eq_byte (by omega)
    have hsecond : UInt8.ofNat
        ((a.toNat % 4 * 16 + b.toNat / 16) % 16 * 16 + b.toNat % 16 * 4 / 4) = b :=
      ofNat_eq_byte (by omega)
    simp only [encodeWith]
    rw [decodeChars.eq_3 _ _ _ hfill]
    simp only [value?_digit (show a.toNat / 4 < 64 by omega),
      value?_digit (show a.toNat % 4 * 16 + b.toNat / 16 < 64 by omega),
      value?_digit (show b.toNat % 16 * 4 < 64 by omega), Option.bind_eq_bind, Option.bind_some,
      if_pos hlow, hfirst, hsecond]
  | case4 a b c rest _ _ _ _ ih =>
    have ha := a.toNat_lt
    have hb := b.toNat_lt
    have hc := c.toNat_lt
    -- The fourth digit is none of the characters that fill up, so this group is full.
    have hfill := digit_ne_fill (show c.toNat % 64 < 64 by omega)
    have hfirst : UInt8.ofNat (a.toNat / 4 * 4 + (a.toNat % 4 * 16 + b.toNat / 16) / 16) = a :=
      ofNat_eq_byte (by omega)
    have hsecond : UInt8.ofNat ((a.toNat % 4 * 16 + b.toNat / 16) % 16 * 16 +
        (b.toNat % 16 * 4 + c.toNat / 64) / 4) = b :=
      ofNat_eq_byte (by omega)
    have hthird : UInt8.ofNat ((b.toNat % 16 * 4 + c.toNat / 64) % 4 * 64 + c.toNat % 64) = c :=
      ofNat_eq_byte (by omega)
    simp only [encodeWith]
    rw [decodeChars.eq_4 _ _ _ _ _ (fun _ h _ => hfill h) (fun h _ => hfill h)]
    simp only [value?_digit (show a.toNat / 4 < 64 by omega),
      value?_digit (show a.toNat % 4 * 16 + b.toNat / 16 < 64 by omega),
      value?_digit (show b.toNat % 16 * 4 + c.toNat / 64 < 64 by omega),
      value?_digit (show c.toNat % 64 < 64 by omega), Option.bind_eq_bind, Option.bind_some, ih,
      hfirst, hsecond, hthird]

/-- What is decoded was encoded: no other text is read as these bytes. -/
theorem encodeWith_of_decodeChars {text : List Char} {bytes : List UInt8}
    (h : decodeChars text = some bytes) : encodeWith ('+', '/') ['='] bytes = text := by
  induction text using decodeChars.induct generalizing bytes with
  | case1 =>
    cases h
    rfl
  | case2 p q =>
    rw [decodeChars.eq_2] at h
    simp only [Option.bind_eq_bind, Option.bind_eq_some_iff] at h
    obtain ⟨x, hp, y, hq, h⟩ := h
    obtain ⟨hx, rfl⟩ := eq_digit_of_value? hp
    obtain ⟨hy, rfl⟩ := eq_digit_of_value? hq
    split_ifs at h with hlow
    cases h
    have hbyte := toNat_byte (show x * 4 + y / 16 < 256 by omega)
    simp only [encodeWith, hbyte, List.cons_append, List.nil_append]
    rw [show (x * 4 + y / 16) / 4 = x by omega, show (x * 4 + y / 16) % 4 * 16 = y by omega]
  | case3 p q r hr =>
    rw [decodeChars.eq_3 _ _ _ hr] at h
    simp only [Option.bind_eq_bind, Option.bind_eq_some_iff] at h
    obtain ⟨x, hp, y, hq, z, hz, h⟩ := h
    obtain ⟨hx, rfl⟩ := eq_digit_of_value? hp
    obtain ⟨hy, rfl⟩ := eq_digit_of_value? hq
    obtain ⟨hz, rfl⟩ := eq_digit_of_value? hz
    split_ifs at h with hlow
    cases h
    have hfirst := toNat_byte (show x * 4 + y / 16 < 256 by omega)
    have hsecond := toNat_byte (show y % 16 * 16 + z / 4 < 256 by omega)
    simp only [encodeWith, hfirst, hsecond]
    rw [show (x * 4 + y / 16) / 4 = x by omega,
      show (x * 4 + y / 16) % 4 * 16 + (y % 16 * 16 + z / 4) / 16 = y by omega,
      show (y % 16 * 16 + z / 4) % 16 * 4 = z by omega]
  | case4 p q r s rest hfull hlast ih =>
    rw [decodeChars.eq_4 _ _ _ _ _ hfull hlast] at h
    simp only [Option.bind_eq_bind, Option.bind_eq_some_iff] at h
    obtain ⟨x, hp, y, hq, z, hr, v, hs, tail, htail, h⟩ := h
    obtain ⟨hx, rfl⟩ := eq_digit_of_value? hp
    obtain ⟨hy, rfl⟩ := eq_digit_of_value? hq
    obtain ⟨hz, rfl⟩ := eq_digit_of_value? hr
    obtain ⟨hv, rfl⟩ := eq_digit_of_value? hs
    cases h
    have hfirst := toNat_byte (show x * 4 + y / 16 < 256 by omega)
    have hsecond := toNat_byte (show y % 16 * 16 + z / 4 < 256 by omega)
    have hthird := toNat_byte (show z % 4 * 64 + v < 256 by omega)
    simp only [encodeWith, hfirst, hsecond, hthird, ih htail]
    rw [show (x * 4 + y / 16) / 4 = x by omega,
      show (x * 4 + y / 16) % 4 * 16 + (y % 16 * 16 + z / 4) / 16 = y by omega,
      show (y % 16 * 16 + z / 4) % 16 * 4 + (z % 4 * 64 + v) / 64 = z by omega,
      show (z % 4 * 64 + v) % 64 = v by omega]
  | case5 text hempty hone htwo hfull =>
    rw [decodeChars.eq_5 _ hempty hone htwo hfull] at h
    cases h

/-- A text stands for bytes if and only if it is their encoding. -/
theorem decode?_eq_some_iff {text : String} {bytes : List UInt8} :
    decode? text = some bytes ↔ text = encode bytes := by
  constructor
  · intro h
    rw [encode, encodeWith_of_decodeChars h, String.ofList_toList]
  · rintro rfl
    rw [decode?, encode, String.toList_ofList, decodeChars_encodeWith]

end Base64

end SqlFederation
