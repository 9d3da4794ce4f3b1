import ChatDispatch.Text.Numeral

/-!
Decimal numbers as texts. Reading accepts just the texts that spell a number within the bounds, with
or without a sign and with any zeros in front, and gives that number. It stops at the first digit
that leaves the bounds, which loses nothing: further digits only take a number further away.
-/

namespace ChatDispatch.Text

structure AreDigits (digits : List Char) : Prop where
  ne_nil : digits ≠ []
  isDigit : ∀ c ∈ digits, c.isDigit = true

inductive IsDecimal : List Char → Int → Prop
  | unsigned {digits : List Char} (h : AreDigits digits) :
      IsDecimal digits (Nat.ofDigitChars 10 digits 0)
  | plus {digits : List Char} (h : AreDigits digits) :
      IsDecimal ('+' :: digits) (Nat.ofDigitChars 10 digits 0)
  | minus {digits : List Char} (h : AreDigits digits) :
      IsDecimal ('-' :: digits) (-Nat.ofDigitChars 10 digits 0)

theorem Bounds.contains_iff {bounds : Bounds} {n : Int} :
    bounds.contains n = true ↔ bounds.low ≤ n ∧ n ≤ bounds.high := by
  simp [Bounds.contains]

theorem isDigit_iff {c : Char} : c.isDigit = true ↔ '0' ≤ c ∧ c ≤ '9' := by
  simp [Char.isDigit, Char.le_def]

theorem digitValue?_ten (c : Char) :
    digitValue? 10 c = if c.isDigit then some (c.toNat - '0'.toNat) else none := by
  have hletter : ∀ n, (some (n + 10)).filter (fun value => decide (value < 10)) = none :=
    fun n => by simp
  unfold digitValue?
  by_cases hdigit : c.isDigit = true
  · obtain ⟨hlow, hhigh⟩ := isDigit_iff.mp hdigit
    have hlt : c.toNat - '0'.toNat < 10 := by
      have hle : c.toNat ≤ '9'.toNat := Char.le_def.mp hhigh
      have hnine : '9'.toNat - '0'.toNat < 10 := by decide
      omega
    simpa [hdigit, hlow, hhigh] using hlt
  · have hrange : ¬ (('0' ≤ c && c ≤ '9') = true) := by
      simpa [Bool.and_eq_true] using mt isDigit_iff.mpr hdigit
    rw [if_neg hdigit, if_neg hrange]
    split
    · exact hletter _
    · split
      · exact hletter _
      · rfl

/-- Further digits make a number no smaller. -/
theorem le_ofDigitChars (digits : List Char) (value : Nat) :
    value ≤ Nat.ofDigitChars 10 digits value := by
  induction digits generalizing value with
  | nil => exact Nat.le_of_eq Nat.ofDigitChars_nil.symm
  | cons c rest ih =>
    rw [Nat.ofDigitChars_cons]
    have hrest := ih (10 * value + (c.toNat - '0'.toNat))
    omega

/-- Digits are read as the number that they stand for, if that is within the limit. -/
theorem readDigits_eq_ok_iff {limit value n : Nat} {fault : NumeralFault} {digits : List Char}
    (hvalue : value ≤ limit) :
    readDigits 10 limit fault value digits = .ok n ↔
      (∀ c ∈ digits, c.isDigit = true) ∧ Nat.ofDigitChars 10 digits value = n ∧ n ≤ limit := by
  induction digits generalizing value with
  | nil =>
    rw [readDigits, Except.ok.injEq, Nat.ofDigitChars_nil]
    constructor
    · rintro rfl
      exact ⟨List.forall_mem_nil _, rfl, hvalue⟩
    · exact fun h => h.2.1
  | cons c rest ih =>
    rw [readDigits, digitValue?_ten, Nat.ofDigitChars_cons, List.forall_mem_cons]
    by_cases hdigit : c.isDigit = true
    · rw [if_pos hdigit]
      dsimp only
      rw [Nat.mul_comm value 10]
      by_cases hnext : 10 * value + (c.toNat - '0'.toNat) ≤ limit
      · rw [if_pos hnext, ih hnext, and_iff_right hdigit]
      · rw [if_neg hnext]
        refine iff_of_false nofun ?_
        rintro ⟨_, rfl, hlimit⟩
        have hle := le_ofDigitChars rest (10 * value + (c.toNat - '0'.toNat))
        omega
    · rw [if_neg hdigit]
      exact iff_of_false nofun fun h => hdigit h.1.1

section Signed

variable {bounds : Bounds} {limit : Nat} {fault : NumeralFault} {digits rest : List Char} {c : Char}
  {n : Int}

theorem not_areDigits_of_not_isDigit (h : c.isDigit = false) : ¬ AreDigits (c :: rest) := by
  intro hdigits
  have hc := hdigits.isDigit c List.mem_cons_self
  rw [h] at hc
  cases hc

/-- How a text that begins with a character can spell a number. -/
theorem isDecimal_cons_iff : IsDecimal (c :: rest) n ↔
    (AreDigits (c :: rest) ∧ n = Nat.ofDigitChars 10 (c :: rest) 0) ∨
      (c = '+' ∧ AreDigits rest ∧ n = Nat.ofDigitChars 10 rest 0) ∨
      (c = '-' ∧ AreDigits rest ∧ n = -Nat.ofDigitChars 10 rest 0) := by
  constructor
  · intro h
    cases h with
    | unsigned h => exact .inl ⟨h, rfl⟩
    | plus h => exact .inr (.inl ⟨rfl, h, rfl⟩)
    | minus h => exact .inr (.inr ⟨rfl, h, rfl⟩)
  · rintro (⟨h, rfl⟩ | ⟨rfl, h, rfl⟩ | ⟨rfl, h, rfl⟩)
    · exact .unsigned h
    · exact .plus h
    · exact .minus h

/-- Digits that are read, with something made of their number. -/
theorem map_readDigits_eq_ok_iff {f : Nat → Int} (hne : digits ≠ []) :
    (readDigits 10 limit fault 0 digits).map f = .ok n ↔
      (AreDigits digits ∧ n = f (Nat.ofDigitChars 10 digits 0)) ∧
        Nat.ofDigitChars 10 digits 0 ≤ limit := by
  have hmap : ∀ result : Except NumeralFault Nat,
      result.map f = .ok n ↔ ∃ m, result = .ok m ∧ n = f m := by
    intro result
    cases result <;> simp [Except.map, eq_comm]
  simp only [hmap, readDigits_eq_ok_iff (Nat.zero_le limit)]
  constructor
  · rintro ⟨_, ⟨hdigits, rfl, hlimit⟩, rfl⟩
    exact ⟨⟨⟨hne, hdigits⟩, rfl⟩, hlimit⟩
  · rintro ⟨⟨hdigits, rfl⟩, hlimit⟩
    exact ⟨_, ⟨hdigits.isDigit, rfl, hlimit⟩, rfl⟩

section Within

variable (hlow : bounds.low < 0) (hhigh : 0 ≤ bounds.high)

include hlow hhigh

theorem contains_ofNat_iff {m : Nat} :
    bounds.contains (Int.ofNat m) = true ↔ m ≤ bounds.high.toNat := by
  rw [Bounds.contains_iff, Int.ofNat_eq_natCast]
  omega

theorem contains_neg_ofNat_iff {m : Nat} :
    bounds.contains (-Int.ofNat m) = true ↔ m ≤ (-bounds.low).toNat := by
  rw [Bounds.contains_iff, Int.ofNat_eq_natCast]
  omega

/-- Digits without a sign may stand for numbers up to the upper bound. -/
theorem unsigned_eq_ok_iff (hne : digits ≠ []) :
    (readDigits 10 bounds.high.toNat .tooLarge 0 digits).map Int.ofNat = .ok n ↔
      (AreDigits digits ∧ n = Nat.ofDigitChars 10 digits 0) ∧ bounds.contains n = true := by
  rw [map_readDigits_eq_ok_iff hne]
  refine and_congr_right fun h => ?_
  rw [h.2, contains_ofNat_iff hlow hhigh]

theorem negative_eq_ok_iff (hne : digits ≠ []) :
    ((readDigits 10 (-bounds.low).toNat .tooSmall 0 digits).map fun m => -Int.ofNat m) = .ok n ↔
      (AreDigits digits ∧ n = -Nat.ofDigitChars 10 digits 0) ∧ bounds.contains n = true := by
  rw [map_readDigits_eq_ok_iff hne]
  refine and_congr_right fun h => ?_
  rw [h.2, contains_neg_ofNat_iff hlow hhigh]

/-- A text is read as a number exactly if it spells that number and the number is within bounds. -/
theorem readNumeral_eq_ok_iff {text : List Char} :
    readNumeral 10 bounds text = .ok n ↔ IsDecimal text n ∧ bounds.contains n = true := by
  have hnil : ¬ AreDigits [] := fun h => h.ne_nil rfl
  match text with
  | [] =>
    refine iff_of_false nofun ?_
    rintro ⟨⟨h⟩, _⟩
    exact hnil h
  | [c] =>
    rw [isDecimal_cons_iff, readNumeral, unsigned_eq_ok_iff hlow hhigh (List.cons_ne_nil c [])]
    simp only [hnil, false_and, and_false, or_false]
  | c :: d :: rest =>
    have hne : d :: rest ≠ [] := List.cons_ne_nil d rest
    rw [isDecimal_cons_iff]
    by_cases hplus : c = '+'
    · subst hplus
      have hnot : ¬ AreDigits ('+' :: d :: rest) := not_areDigits_of_not_isDigit (by decide)
      have hread : readNumeral 10 bounds ('+' :: d :: rest) =
          (readDigits 10 bounds.high.toNat .tooLarge 0 (d :: rest)).map Int.ofNat := rfl
      rw [hread, unsigned_eq_ok_iff hlow hhigh hne]
      simp [hnot]
    · have hread : readNumeral 10 bounds (c :: d :: rest) =
          if c = '-' ∧ bounds.low < 0 then
            (readDigits 10 (-bounds.low).toNat .tooSmall 0 (d :: rest)).map fun m => -Int.ofNat m
          else (readDigits 10 bounds.high.toNat .tooLarge 0 (c :: d :: rest)).map Int.ofNat := by
        simp [readNumeral]
      rw [hread]
      by_cases hminus : c = '-'
      · subst hminus
        have hnot : ¬ AreDigits ('-' :: d :: rest) := not_areDigits_of_not_isDigit (by decide)
        rw [if_pos ⟨rfl, hlow⟩, negative_eq_ok_iff hlow hhigh hne]
        simp [hnot]
      · rw [if_neg fun h => hminus h.1, unsigned_eq_ok_iff hlow hhigh (List.cons_ne_nil c _)]
        simp [hplus, hminus]

end Within

end Signed

/-- Every number of 32 bits can be read. -/
theorem Bounds.contains_toInt (n : Int32) : Bounds.int32.contains n.toInt = true :=
  Bounds.contains_iff.mpr ⟨n.le_toInt, Int.le_of_lt_add_one n.toInt_lt⟩

theorem readNumeral_int32_eq_ok_iff {text : List Char} {n : Int} :
    readNumeral 10 Bounds.int32 text = .ok n ↔
      IsDecimal text n ∧ Bounds.int32.contains n = true :=
  readNumeral_eq_ok_iff (by decide) (by decide)

end ChatDispatch.Text
