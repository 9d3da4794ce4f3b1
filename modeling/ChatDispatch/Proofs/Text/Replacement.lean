import ChatDispatch.Proofs.Text.Pieces
import ChatDispatch.Text.Basic

/-!
How the replacement of all matches of a rule goes through a text. A rule whose matches never reach
across a separator can be applied to the parts of a text on their own.
-/

namespace ChatDispatch.Text

variable {separator : Char} {text behind : List Char}

/-- What a text starts with does not reach a separator that is not in it. -/
theorem dropStart?_append_separator {start : List Char} (h : separator ∉ start)
    (text behind : List Char) :
    dropStart? start (text ++ separator :: behind) =
      (dropStart? start text).map (· ++ separator :: behind) := by
  induction start generalizing text with
  | nil => rfl
  | cons s start ih =>
    obtain ⟨hs, hstart⟩ := not_or.mp (mt List.mem_cons.mpr h)
    cases text with
    | nil => simp [dropStart?, Ne.symm hs]
    | cons c text =>
      by_cases hc : s = c
      · simp [dropStart?, hc, ih hstart]
      · simp [dropStart?, hc]

theorem dropWhile_append_separator {p : Char → Bool} (h : p separator = false)
    (text behind : List Char) :
    (text ++ separator :: behind).dropWhile p = text.dropWhile p ++ separator :: behind := by
  rw [List.dropWhile_append, List.dropWhile_cons_of_neg (by simp [h])]
  cases text.dropWhile p <;> rfl

theorem takeWhile_append_separator {p : Char → Bool} (h : p separator = false)
    (text behind : List Char) :
    (text ++ separator :: behind).takeWhile p = text.takeWhile p := by
  rw [List.takeWhile_append, List.takeWhile_cons_of_neg (by simp [h]), List.append_nil]
  split
  next hall => exact ((List.takeWhile_prefix p).eq_of_length hall).symm
  next => rfl

theorem dropWhile_append_rest {p : Char → Bool} {run rest : List Char}
    (hrun : ∀ c ∈ run, p c = true) (hrest : ∀ c ∈ rest.head?, p c = false) :
    (run ++ rest).dropWhile p = rest := by
  rw [List.dropWhile_append_of_pos hrun]
  cases rest with
  | nil => rfl
  | cons c rest => exact List.dropWhile_cons_of_neg (by simp [hrest c rfl])

theorem takeWhile_append_rest {p : Char → Bool} {run rest : List Char}
    (hrun : ∀ c ∈ run, p c = true) (hrest : ∀ c ∈ rest.head?, p c = false) :
    (run ++ rest).takeWhile p = run := by
  rw [List.takeWhile_append_of_pos hrun]
  cases rest with
  | nil => exact List.append_nil run
  | cons c rest => rw [List.takeWhile_cons_of_neg (by simp [hrest c rfl]), List.append_nil]

theorem eq_false_of_dropWhile_eq_cons {p : Char → Bool} {c : Char} {rest : List Char}
    (h : text.dropWhile p = c :: rest) : p c = false := by
  have hhead := List.head?_dropWhile_not p text
  rw [h] at hhead
  exact hhead

/-- A word at the start of a text ends before a character that is not in it. -/
theorem prefix_of_prefix_append {word rest : List Char} (h : word <+: text ++ rest)
    (hrest : ∀ c ∈ rest.head?, c ∉ word) : word <+: text := by
  rcases List.prefix_or_prefix_of_prefix h (List.prefix_append text rest) with hword | ⟨more, rfl⟩
  · exact hword
  · cases more with
    | nil => exact (List.append_nil text).symm ▸ List.prefix_refl text
    | cons c more =>
      obtain ⟨behind, rfl⟩ := (List.prefix_append_right_inj text).mp h
      exact absurd (List.mem_append_right text List.mem_cons_self) (hrest c rfl)

/-- A word at the end of a text is not reached by what stands in front, if that ends in a character
that is not in the word. -/
theorem suffix_of_suffix_append {c : Char} {word front rest : List Char}
    (hlast : front.getLast? = some c) (hc : c ∉ word) (h : word <:+ front ++ rest) :
    word <:+ rest := by
  obtain ⟨start, rfl⟩ := List.getLast?_eq_some_iff.mp hlast
  rw [List.append_assoc, List.singleton_append] at h
  rcases List.suffix_or_suffix_of_suffix h (List.suffix_append start _) with hinside | hinside
  · rcases List.suffix_cons_iff.mp hinside with rfl | hinside
    · exact absurd List.mem_cons_self hc
    · exact hinside
  · exact absurd (hinside.mem List.mem_cons_self) hc

namespace Rule

variable {rule : Rule}

theorem apply_nil (rule : Rule) : rule.apply [] = none := by
  cases happly : rule.apply [] with
  | none => rfl
  | some found => exact absurd (rule.consumes happly) (Nat.not_lt_zero _)

@[simp]
theorem replaceAll_nil (rule : Rule) : rule.replaceAll [] = [] := by rw [replaceAll]

theorem replaceAll_of_some {replacement after : List Char}
    (h : rule.apply text = some (replacement, after)) :
    rule.replaceAll text = replacement ++ rule.replaceAll after := by
  cases text with
  | nil => simp [apply_nil] at h
  | cons c rest =>
    rw [replaceAll]
    split
    next found further hfound =>
      rw [h] at hfound
      obtain ⟨rfl, rfl⟩ := Prod.mk.inj (Option.some.inj hfound)
      rfl
    next hnone => simp [h] at hnone

theorem replaceAll_of_none {c : Char} (h : rule.apply (c :: text) = none) :
    rule.replaceAll (c :: text) = c :: rule.replaceAll text := by
  rw [replaceAll]
  split
  next found further hfound => simp [h] at hfound
  next => rfl

variable (rule) in
/-- The text is gone through from left to right: over a match, or over one character. -/
theorem replaceAll_induction {motive : List Char → Prop} (nil : motive [])
    (replaced : ∀ text replacement after, rule.apply text = some (replacement, after) →
      motive after → motive text)
    (kept : ∀ c text, rule.apply (c :: text) = none → motive text → motive (c :: text))
    (text : List Char) : motive text := by
  cases text with
  | nil => exact nil
  | cons c rest =>
    cases happly : rule.apply (c :: rest) with
    | none => exact kept c rest happly (replaceAll_induction nil replaced kept rest)
    | some found =>
      have hshorter : found.2.length ≤ rest.length := Nat.le_of_lt_succ (rule.consumes happly)
      exact replaced _ _ _ happly (replaceAll_induction nil replaced kept found.2)
  termination_by text.length

theorem head?_replaceAll
    (hrule : ∀ text replacement after, rule.apply text = some (replacement, after) →
      replacement.head? = text.head?) (text : List Char) :
    (rule.replaceAll text).head? = text.head? := by
  cases text with
  | nil => rw [replaceAll_nil]
  | cons c rest =>
    cases happly : rule.apply (c :: rest) with
    | none => rw [replaceAll_of_none happly, List.head?_cons, List.head?_cons]
    | some found =>
      rw [replaceAll_of_some happly, List.head?_append, hrule _ _ _ happly]
      rfl

/-- No match reaches across the separator, and none begins at it. -/
def StopsAt (rule : Rule) (separator : Char) : Prop :=
  ∀ text behind, rule.apply (text ++ separator :: behind) =
    (rule.apply text).map fun found => (found.1, found.2 ++ separator :: behind)

namespace StopsAt

variable (h : rule.StopsAt separator)

include h

theorem apply_separator (behind : List Char) : rule.apply (separator :: behind) = none := by
  have happly := h [] behind
  rwa [apply_nil] at happly

theorem replaceAll_append (text behind : List Char) :
    rule.replaceAll (text ++ separator :: behind) =
      rule.replaceAll text ++ separator :: rule.replaceAll behind := by
  induction text using rule.replaceAll_induction with
  | nil => rw [List.nil_append, replaceAll_of_none (h.apply_separator behind), replaceAll_nil,
      List.nil_append]
  | replaced text replacement after happly ih =>
    have hwhole := h text behind
    rw [happly] at hwhole
    rw [replaceAll_of_some hwhole, replaceAll_of_some happly, ih, List.append_assoc]
  | kept c text happly ih =>
    have hwhole := h (c :: text) behind
    rw [happly] at hwhole
    rw [List.cons_append] at hwhole ⊢
    rw [replaceAll_of_none hwhole, replaceAll_of_none happly, ih, List.cons_append]

/-- The parts between separators are replaced on their own. -/
theorem replaceAll_joined (parts : List (List Char)) :
    rule.replaceAll (joined separator parts) = joined separator (parts.map rule.replaceAll) := by
  induction parts with
  | nil => exact rule.replaceAll_nil
  | cons part parts ih =>
    cases parts with
    | nil => rfl
    | cons next more =>
      have hmap : (part :: next :: more).map rule.replaceAll =
          rule.replaceAll part :: (next :: more).map rule.replaceAll := rfl
      rw [joined_cons part (by simp), h.replaceAll_append, ih, hmap, joined_cons _ (by simp)]

end StopsAt

/-- A character that no replacement brings in is in no text that was free of it. -/
theorem not_mem_replaceAll {c : Char}
    (hrule : ∀ text replacement after, rule.apply text = some (replacement, after) →
      c ∉ replacement ∧ after <:+ text) (h : c ∉ text) : c ∉ rule.replaceAll text := by
  induction text using rule.replaceAll_induction with
  | nil => simp
  | replaced text replacement after happly ih =>
    obtain ⟨hreplacement, hafter⟩ := hrule text replacement after happly
    have hrest := ih fun hmem => h (hafter.mem hmem)
    rw [replaceAll_of_some happly]
    simp [hreplacement, hrest]
  | kept d text happly ih =>
    obtain ⟨hd, htext⟩ := not_or.mp (mt List.mem_cons.mpr h)
    rw [replaceAll_of_none happly]
    simp [hd, ih htext]

/-- A text is left as it is if a character that all replacements bring in is not shown. -/
theorem replaceAll_eq_of_not_mem {c : Char}
    (hrule : ∀ text replacement after, rule.apply text = some (replacement, after) →
      c ∈ replacement) (h : c ∉ rule.replaceAll text) : rule.replaceAll text = text := by
  induction text using rule.replaceAll_induction with
  | nil => exact rule.replaceAll_nil
  | replaced text replacement after happly ih =>
    rw [replaceAll_of_some happly] at h
    exact absurd (List.mem_append_left _ (hrule _ _ _ happly)) h
  | kept d text happly ih =>
    rw [replaceAll_of_none happly] at h ⊢
    rw [ih fun hmem => h (List.mem_cons_of_mem d hmem)]

/-- If in addition no replacement brings in a separator, a text keeps its pieces. -/
theorem StopsAt.pieces_replaceAll (h : rule.StopsAt separator)
    (hrule : ∀ text replacement after, rule.apply text = some (replacement, after) →
      separator ∉ replacement ∧ after <:+ text) (text : List Char) :
    pieces separator (rule.replaceAll text) = (pieces separator text).map rule.replaceAll := by
  have hparts : ∀ part ∈ (pieces separator text).map rule.replaceAll, separator ∉ part := by
    intro part hpart
    obtain ⟨piece, hpiece, rfl⟩ := List.mem_map.mp hpart
    exact not_mem_replaceAll hrule (not_mem_of_mem_pieces hpiece)
  have hne : (pieces separator text).map rule.replaceAll ≠ [] := by
    simp [pieces_ne_nil separator text]
  rw [← pieces_joined hne hparts, ← h.replaceAll_joined, joined_pieces]

end Rule

end ChatDispatch.Text
