/-!
Taking texts apart and putting them together: white space as Unicode lists it, which is larger than
the ASCII set, cuts at a separator, at the start and at the first place where a word occurs, and
the replacement of every match of a rule, from left to right and without overlap. Splitting at a
separator and joining with it are inverse, and what is cut around a word is the whole text, so
nothing is lost.
-/

namespace ChatDispatch.Text

/-- The characters with the Unicode property `White_Space`. -/
def isBlank (c : Char) : Bool :=
  let n := c.toNat
  (0x09 ≤ n && n ≤ 0x0D) || n == 0x20 || n == 0x85 || n == 0xA0 || n == 0x1680 ||
    (0x2000 ≤ n && n ≤ 0x200A) || n == 0x2028 || n == 0x2029 || n == 0x202F || n == 0x205F ||
    n == 0x3000

def isBlankText (text : List Char) : Bool :=
  text.all isBlank

def dropBlanks (text : List Char) : List Char :=
  text.dropWhile isBlank

def dropTrailing (c : Char) (text : List Char) : List Char :=
  (text.reverse.dropWhile (· == c)).reverse

/-- The pieces between the separators; a text with `n` separators has `n + 1` pieces. -/
def pieces (separator : Char) : List Char → List (List Char)
  | [] => [[]]
  | c :: rest =>
    if c = separator then [] :: pieces separator rest
    else match pieces separator rest with
      | [] => [[c]]
      | first :: more => (c :: first) :: more

def joined (separator : Char) : List (List Char) → List Char
  | [] => []
  | [piece] => piece
  | piece :: more => piece ++ separator :: joined separator more

theorem pieces_ne_nil (separator : Char) (text : List Char) : pieces separator text ≠ [] := by
  cases text with
  | nil => simp [pieces]
  | cons c rest =>
    simp only [pieces]
    split
    · simp
    · split <;> simp

theorem joined_pieces (separator : Char) (text : List Char) :
    joined separator (pieces separator text) = text := by
  induction text with
  | nil => rfl
  | cons c rest ih =>
    simp only [pieces]
    split
    · rename_i hc
      cases hp : pieces separator rest with
      | nil => exact absurd hp (pieces_ne_nil separator rest)
      | cons first more => rw [hp] at ih; simp [joined, ih, hc]
    · cases hp : pieces separator rest with
      | nil => exact absurd hp (pieces_ne_nil separator rest)
      | cons first more =>
        rw [hp] at ih
        cases more with
        | nil => simpa [joined] using ih
        | cons second more => simpa [joined] using ih

def dropStart? : (start text : List Char) → Option (List Char)
  | [], text => some text
  | _ :: _, [] => none
  | s :: start, c :: text => if s = c then dropStart? start text else none

theorem dropStart?_eq_some_iff {start text rest : List Char} :
    dropStart? start text = some rest ↔ text = start ++ rest := by
  induction start generalizing text with
  | nil => simp [dropStart?, eq_comm]
  | cons s start ih =>
    cases text with
    | nil => simp [dropStart?]
    | cons c text =>
      by_cases h : s = c
      · simp [dropStart?, h, ih]
      · simp [dropStart?, h, Ne.symm h]

def startsWith (start text : List Char) : Bool :=
  (dropStart? start text).isSome

/-- The parts before and after the leftmost occurrence of `word`. -/
def cutFirst? (word : List Char) : List Char → Option (List Char × List Char)
  | [] => (dropStart? word []).map ([], ·)
  | c :: rest =>
    match dropStart? word (c :: rest) with
    | some after => some ([], after)
    | none => (cutFirst? word rest).map fun (before, after) => (c :: before, after)

theorem cutFirst?_eq_some {word text before after : List Char}
    (h : cutFirst? word text = some (before, after)) : text = before ++ word ++ after := by
  induction text generalizing before with
  | nil =>
    simp only [cutFirst?, Option.map_eq_some_iff, Prod.mk.injEq] at h
    obtain ⟨rest, hrest, rfl, rfl⟩ := h
    simpa using dropStart?_eq_some_iff.1 hrest
  | cons c rest ih =>
    simp only [cutFirst?] at h
    split at h
    · rename_i found hfound
      cases h
      simpa using dropStart?_eq_some_iff.1 hfound
    · simp only [Option.map_eq_some_iff, Prod.mk.injEq, Prod.exists] at h
      obtain ⟨b, a, hcut, rfl, rfl⟩ := h
      simp [ih hcut]

/-- A rule looks at the start of a text and gives, on a match, the replacement and what is left
behind the match. A match consumes at least one character. -/
structure Rule where
  apply : List Char → Option (List Char × List Char)
  consumes : ∀ {text replacement rest},
    apply text = some (replacement, rest) → rest.length < text.length

def Rule.replaceAll (rule : Rule) : List Char → List Char
  | [] => []
  | c :: rest =>
    match _ : rule.apply (c :: rest) with
    | some (replacement, after) => replacement ++ rule.replaceAll after
    | none => c :: rule.replaceAll rest
  termination_by text => text.length
  decreasing_by
    · exact rule.consumes (by assumption)
    · exact Nat.lt_succ_self rest.length

end ChatDispatch.Text
