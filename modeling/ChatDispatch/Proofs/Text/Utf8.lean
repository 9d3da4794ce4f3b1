import ChatDispatch.Text.Utf8

/-!
Reading back what was encoded. The bytes of a character are decoded to that character wherever they
stand, so the bytes of a text are decoded to the text; and no byte of a character beyond ASCII is
below 128, so none of them is mistaken for an ASCII character.
-/

namespace ChatDispatch.Text

def encoded (text : List Char) : List UInt8 := text.flatMap String.utf8EncodeChar

@[simp]
theorem encoded_cons (c : Char) (text : List Char) :
    encoded (c :: text) = String.utf8EncodeChar c ++ encoded text := rfl

/-- The bytes that a string is stored as are those of its characters. -/
theorem toList_data_toUTF8 (text : String) : text.toUTF8.data.toList = encoded text.toList := by
  rw [String.toUTF8_eq_toByteArray, ← String.utf8Encode_toList, List.utf8Encode,
    List.toList_data_toByteArray]
  rfl

section Decoding

variable {index start owed low high n : Nat} {rest : List UInt8}

theorem toNat_ofNat (h : n < 256) : (UInt8.ofNat n).toNat = n := by
  rw [UInt8.toNat_ofNat', Nat.mod_eq_of_lt h]

/-- A byte that stands for a whole character. -/
theorem decodeFrom_single (h : n < 0x80) :
    decodeFrom index .between (UInt8.ofNat n :: rest) =
      (decodeFrom (index + 1) .between rest).map (Char.ofNat n :: ·) := by
  have hbyte : (UInt8.ofNat n).toNat = n := toNat_ofNat (by omega)
  simp [decodeFrom, lead?, hbyte, h]

theorem decodeFrom_leadTwo (hlow : 2 ≤ n) (hhigh : n < 0x20) :
    decodeFrom index .between (UInt8.ofNat (n + 0xC0) :: rest) =
      decodeFrom (index + 1) (.inside index n 1 0x80 0xBF) rest := by
  have hlead : lead? (n + 0xC0) = some ⟨n, 1, 0x80, 0xBF⟩ := by
    rw [lead?, if_neg (by omega), if_pos (by omega), Nat.add_sub_cancel]
  rw [decodeFrom, toNat_ofNat (by omega), hlead]
  exact if_neg Nat.one_ne_zero

/-- The first byte of three bounds the second one where it could begin a shorter form or a
surrogate. -/
theorem decodeFrom_leadThree (hhigh : n < 0x10) :
    decodeFrom index .between (UInt8.ofNat (n + 0xE0) :: rest) =
      decodeFrom (index + 1)
        (.inside index n 2 (if n = 0 then 0xA0 else 0x80) (if n = 13 then 0x9F else 0xBF))
        rest := by
  have hlead : lead? (n + 0xE0) =
      some ⟨n, 2, if n = 0 then 0xA0 else 0x80, if n = 13 then 0x9F else 0xBF⟩ := by
    rw [lead?, if_neg (by omega), if_neg (by omega)]
    by_cases hfirst : n = 0
    · simp [hfirst]
    · by_cases hsurrogate : n = 13
      · simp [hsurrogate]
      · rw [if_neg (by omega), if_neg (by omega), if_pos (by omega), if_neg hfirst,
          if_neg hsurrogate, Nat.add_sub_cancel]
  rw [decodeFrom, toNat_ofNat (by omega), hlead]
  exact if_neg (Nat.succ_ne_zero 1)

/-- The first byte of four bounds the second one where it could begin a shorter form or lie beyond
the last character. -/
theorem decodeFrom_leadFour (hhigh : n ≤ 4) :
    decodeFrom index .between (UInt8.ofNat (n + 0xF0) :: rest) =
      decodeFrom (index + 1)
        (.inside index n 3 (if n = 0 then 0x90 else 0x80) (if n = 4 then 0x8F else 0xBF)) rest := by
  have hlead : lead? (n + 0xF0) =
      some ⟨n, 3, if n = 0 then 0x90 else 0x80, if n = 4 then 0x8F else 0xBF⟩ := by
    rw [lead?, if_neg (by omega), if_neg (by omega), if_neg (by omega), if_neg (by omega),
      if_neg (by omega)]
    by_cases hfirst : n = 0
    · simp [hfirst]
    · by_cases hlast : n = 4
      · simp [hlast]
      · rw [if_neg (by omega), if_pos (by omega), if_neg hfirst, if_neg hlast, Nat.add_sub_cancel]
  rw [decodeFrom, toNat_ofNat (by omega), hlead]
  exact if_neg (Nat.succ_ne_zero 2)

/-- A byte with the six lowest bits of a number, behind bytes with all higher ones. -/
theorem decodeFrom_more (hlow : low ≤ n % 64 + 0x80) (hhigh : n % 64 + 0x80 ≤ high)
    (howed : owed ≠ 1) :
    decodeFrom index (.inside start (n / 64) owed low high) (UInt8.ofNat (n % 64 + 0x80) :: rest) =
      decodeFrom (index + 1) (.inside start n (owed - 1) 0x80 0xBF) rest := by
  have hbits : n / 64 * 64 + (n % 64 + 0x80 - 0x80) = n := by omega
  rw [decodeFrom, toNat_ofNat (by omega), if_pos ⟨hlow, hhigh⟩, hbits]
  exact if_neg howed

/-- The last byte of a character completes its number. -/
theorem decodeFrom_last (hlow : low ≤ n % 64 + 0x80) (hhigh : n % 64 + 0x80 ≤ high) :
    decodeFrom index (.inside start (n / 64) 1 low high) (UInt8.ofNat (n % 64 + 0x80) :: rest) =
      (decodeFrom (index + 1) .between rest).map (Char.ofNat n :: ·) := by
  have hbits : n / 64 * 64 + (n % 64 + 0x80 - 0x80) = n := by omega
  rw [decodeFrom, toNat_ofNat (by omega), if_pos ⟨hlow, hhigh⟩, hbits]
  exact if_pos rfl

theorem decodeFrom_two (hlow : 0x80 ≤ n) (hhigh : n ≤ 0x7FF) :
    decodeFrom index .between
        (UInt8.ofNat (n / 64 % 0x20 + 0xC0) :: UInt8.ofNat (n % 0x40 + 0x80) :: rest) =
      (decodeFrom (index + 2) .between rest).map (Char.ofNat n :: ·) := by
  rw [Nat.mod_eq_of_lt (by omega : n / 64 < 0x20), decodeFrom_leadTwo (by omega) (by omega),
    decodeFrom_last (by omega) (by omega)]

theorem decodeFrom_three (hlow : 0x800 ≤ n) (hhigh : n ≤ 0xFFFF)
    (hsurrogate : n < 0xD800 ∨ 0xDFFF < n) :
    decodeFrom index .between
        (UInt8.ofNat (n / 4096 % 0x10 + 0xE0) :: UInt8.ofNat (n / 64 % 0x40 + 0x80) ::
          UInt8.ofNat (n % 0x40 + 0x80) :: rest) =
      (decodeFrom (index + 3) .between rest).map (Char.ofNat n :: ·) := by
  have hsecond : n / 4096 = n / 64 / 64 := by omega
  rw [Nat.mod_eq_of_lt (by omega : n / 4096 < 0x10), hsecond, decodeFrom_leadThree (by omega),
    decodeFrom_more ?_ ?_ (by decide), decodeFrom_last (by omega) (by omega)]
  · split <;> omega
  · split <;> omega

theorem decodeFrom_four (hlow : 0x10000 ≤ n) (hhigh : n ≤ 0x10FFFF) :
    decodeFrom index .between
        (UInt8.ofNat (n / 262144 % 0x08 + 0xF0) :: UInt8.ofNat (n / 4096 % 0x40 + 0x80) ::
          UInt8.ofNat (n / 64 % 0x40 + 0x80) :: UInt8.ofNat (n % 0x40 + 0x80) :: rest) =
      (decodeFrom (index + 4) .between rest).map (Char.ofNat n :: ·) := by
  have hsecond : n / 262144 = n / 4096 / 64 := by omega
  have hthird : n / 4096 = n / 64 / 64 := by omega
  rw [Nat.mod_eq_of_lt (by omega : n / 262144 < 0x08), hsecond, decodeFrom_leadFour (by omega),
    decodeFrom_more ?_ ?_ (by decide), hthird, decodeFrom_more (by omega) (by omega) (by decide),
    decodeFrom_last (by omega) (by omega)]
  · split <;> omega
  · split <;> omega

end Decoding

/-- A character is decoded from its bytes, and what stands behind them is decoded next. -/
theorem decodeFrom_encodeChar (c : Char) (index : Nat) (rest : List UInt8) :
    ∃ next, decodeFrom index .between (String.utf8EncodeChar c ++ rest) =
      (decodeFrom next .between rest).map (c :: ·) := by
  have hvalid : c.val.toNat < 0xD800 ∨ 0xDFFF < c.val.toNat ∧ c.val.toNat < 0x110000 := c.valid
  have hofNat : Char.ofNat c.val.toNat = c := Char.ofNat_toNat c
  unfold String.utf8EncodeChar
  generalize c.val.toNat = v at hvalid hofNat
  subst hofNat
  dsimp only
  by_cases hone : v ≤ 0x7F
  · refine ⟨index + 1, ?_⟩
    rw [if_pos hone, List.singleton_append, decodeFrom_single (by omega)]
  · rw [if_neg hone]
    by_cases htwo : v ≤ 0x7FF
    · rw [if_pos htwo]
      exact ⟨index + 2, decodeFrom_two (by omega) htwo⟩
    · rw [if_neg htwo]
      by_cases hthree : v ≤ 0xFFFF
      · rw [if_pos hthree]
        exact ⟨index + 3, decodeFrom_three (by omega) hthree (by omega)⟩
      · rw [if_neg hthree]
        exact ⟨index + 4, decodeFrom_four (by omega) (by omega)⟩

theorem decodeFrom_encoded (text : List Char) (index : Nat) :
    decodeFrom index .between (encoded text) = .ok text := by
  induction text generalizing index with
  | nil => rfl
  | cons c text ih =>
    obtain ⟨next, hnext⟩ := decodeFrom_encodeChar c index (encoded text)
    rw [encoded_cons, hnext, ih]
    rfl

/-- Decoding undoes encoding. -/
theorem decodeUtf8_encoded (text : List Char) : decodeUtf8 (encoded text) = .ok text :=
  decodeFrom_encoded text 0

/-- The bytes of a character beyond ASCII are all at least 128. -/
theorem le_of_mem_encodeChar {c : Char} {byte : UInt8} (hc : 0x7F < c.val.toNat)
    (hbyte : byte ∈ String.utf8EncodeChar c) : 0x80 ≤ byte.toNat := by
  have hvalid : c.val.toNat < 0xD800 ∨ 0xDFFF < c.val.toNat ∧ c.val.toNat < 0x110000 := c.valid
  unfold String.utf8EncodeChar at hbyte
  generalize c.val.toNat = n at hc hvalid hbyte
  dsimp only at hbyte
  rw [if_neg (by omega)] at hbyte
  split at hbyte
  · simp only [List.mem_cons, List.not_mem_nil, or_false] at hbyte
    rcases hbyte with rfl | rfl <;> rw [toNat_ofNat (by omega)] <;> omega
  · split at hbyte
    · simp only [List.mem_cons, List.not_mem_nil, or_false] at hbyte
      rcases hbyte with rfl | rfl | rfl <;> rw [toNat_ofNat (by omega)] <;> omega
    · simp only [List.mem_cons, List.not_mem_nil, or_false] at hbyte
      rcases hbyte with rfl | rfl | rfl | rfl <;> rw [toNat_ofNat (by omega)] <;> omega

/-- A byte of a character that is an ASCII character by itself is the whole character. -/
theorem eq_of_mem_encodeChar {c : Char} {byte : UInt8} (hbyte : byte ∈ String.utf8EncodeChar c)
    (hascii : byte.toNat < 0x80) :
    String.utf8EncodeChar c = [byte] ∧ c = Char.ofNat byte.toNat := by
  by_cases hc : c.val.toNat ≤ 0x7F
  · have hsingle : String.utf8EncodeChar c = [UInt8.ofNat c.val.toNat] := if_pos hc
    rw [hsingle, List.mem_singleton] at hbyte
    rw [hsingle, hbyte, toNat_ofNat (by omega)]
    exact ⟨rfl, (Char.ofNat_toNat c).symm⟩
  · have hle := le_of_mem_encodeChar (by omega) hbyte
    omega

end ChatDispatch.Text
