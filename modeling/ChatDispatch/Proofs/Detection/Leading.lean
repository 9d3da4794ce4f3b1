import ChatDispatch.Command.Binding
import ChatDispatch.Proofs.Detection.Selection
import ChatDispatch.Proofs.Text.Replacement

/-!
Reading a command that was written with its prefix in front. A text is read as a prefix, a name and
the words behind it in just one way, and the name that is detected and the words that are bound are
cut from the text at the same space, so that no character is lost between them or read twice.
-/

namespace ChatDispatch

namespace Text

variable {separator : Char}

/-- Each of the pieces with the separator in front of it. -/
theorem flatMap_separator {parts : List (List Char)} (h : parts ≠ []) :
    parts.flatMap (separator :: ·) = separator :: joined separator parts := by
  induction parts with
  | nil => exact absurd rfl h
  | cons part parts ih =>
    cases parts with
    | nil => simp [joined]
    | cons next parts =>
      rw [List.flatMap_cons, ih (List.cons_ne_nil next parts), joined_cons part (by simp),
        List.cons_append]

end Text

namespace Detection

open Text

variable {prefixes : List String} {word rest text : List Char}

theorem not_mem_commandWord (text : List Char) : ' ' ∉ commandWord text := by
  have hall : (commandWord text).all (· ≠ ' ') = true := List.all_takeWhile
  exact fun hmem => of_decide_eq_true (List.all_eq_true.mp hall ' ' hmem) rfl

/-- A word in front of a space, or of the end, is the command word. -/
theorem commandWord_append (hword : ' ' ∉ word) (hrest : ∀ c ∈ rest.head?, c = ' ') :
    commandWord (word ++ rest) = word := by
  refine takeWhile_append_rest (fun c hc => ?_) fun c hc => ?_
  · exact decide_eq_true fun heq => hword (heq ▸ hc)
  · simp [hrest c hc]

/-- Behind the command word stands a space, or nothing. -/
theorem exists_commandWord_append (text : List Char) :
    ∃ rest, text = commandWord text ++ rest ∧ ∀ c ∈ rest.head?, c = ' ' := by
  refine ⟨text.dropWhile (· ≠ ' '), List.takeWhile_append_dropWhile.symm, fun c hc => ?_⟩
  obtain ⟨behind, hbehind⟩ := List.head?_eq_some_iff.mp hc
  simpa using eq_false_of_dropWhile_eq_cons hbehind

/-- The words of a line are the pieces behind the space that ends its command word. -/
theorem words_of_append {line : String} (hline : line.toList = word ++ ' ' :: rest)
    (hword : ' ' ∉ word) : (Binding.words line).map String.toList = pieces ' ' rest := by
  have htoList : String.toList ∘ String.ofList = id := funext fun _ => String.toList_ofList
  rw [Binding.words, hline, pieces_append_separator, pieces_of_not_mem hword, List.map_map,
    htoList, List.map_id]
  rfl

theorem words_of_not_mem {line : String} (h : ' ' ∉ line.toList) : Binding.words line = [] := by
  rw [Binding.words, pieces_of_not_mem h]
  rfl

/-- A text is written as a prefix, a name and what stands behind them: the prefix is the first entry
of the list that the text starts with, and the name is a word that ends at a space or with the
text. -/
structure IsWritten (prefixes : List String) (text start name rest : String) : Prop where
  text_eq : text = start ++ name ++ rest
  first : ∃ before, IsFirst (Starts text.toList) prefixes before start
  name_ne : name ≠ ""
  space_not_mem : ' ' ∉ name.toList
  rest_eq : rest = "" ∨ ∃ behind, rest = " " ++ behind

variable {text start name rest : String}

namespace IsWritten

theorem head?_rest (h : IsWritten prefixes text start name rest) :
    ∀ c ∈ rest.toList.head?, c = ' ' := by
  rcases h.rest_eq with rfl | ⟨behind, rfl⟩
  · exact nofun
  · intro c hc
    simpa [eq_comm] using hc

theorem toList_eq (h : IsWritten prefixes text start name rest) :
    text.toList = (start.toList ++ name.toList) ++ rest.toList := by
  rw [h.text_eq, String.toList_append, String.toList_append]

theorem not_mem_word (hspace : ∀ q ∈ prefixes, ' ' ∉ q.toList)
    (h : IsWritten prefixes text start name rest) : ' ' ∉ start.toList ++ name.toList := by
  obtain ⟨before, hfirst⟩ := h.first
  exact fun hmem => (List.mem_append.mp hmem).elim (hspace start hfirst.mem) h.space_not_mem

/-- The prefix and the name are the command word. -/
theorem commandWord_eq (hspace : ∀ q ∈ prefixes, ' ' ∉ q.toList)
    (h : IsWritten prefixes text start name rest) :
    commandWord text.toList = start.toList ++ name.toList := by
  rw [h.toList_eq, commandWord_append (h.not_mem_word hspace) h.head?_rest]

/-- With nothing behind the name there are no words, and otherwise they are all that stands behind
the space. -/
theorem words (hspace : ∀ q ∈ prefixes, ' ' ∉ q.toList)
    (h : IsWritten prefixes text start name rest) :
    (rest = "" → Binding.words text = []) ∧
    ∀ behind, rest = " " ++ behind →
      SplitsInto ' ' behind.toList ((Binding.words text).map String.toList) := by
  constructor
  · rintro rfl
    apply words_of_not_mem
    rw [h.toList_eq]
    simpa using h.not_mem_word hspace
  · rintro behind rfl
    have hline : text.toList = (start.toList ++ name.toList) ++ ' ' :: behind.toList := by
      rw [h.toList_eq, String.toList_append]
      rfl
    rw [words_of_append hline (h.not_mem_word hspace)]
    exact splitsInto_pieces ' ' behind.toList

/-- The prefix, the name and the words, each with the space in front of it, are the text. -/
theorem flatMap_words (hspace : ∀ q ∈ prefixes, ' ' ∉ q.toList)
    (h : IsWritten prefixes text start name rest) :
    text.toList = start.toList ++ name.toList ++
      (Binding.words text).flatMap (' ' :: ·.toList) := by
  obtain ⟨hnone, hbehind⟩ := h.words hspace
  rcases h.rest_eq with rfl | ⟨behind, rfl⟩
  · rw [hnone rfl, h.toList_eq]
    rfl
  · have hsplit := hbehind behind rfl
    have hspaced : (Binding.words text).flatMap (' ' :: ·.toList) = ' ' :: behind.toList := by
      rw [← hsplit.joined_eq, ← flatMap_separator hsplit.ne_nil, List.flatMap_map]
    rw [hspaced, h.toList_eq, String.toList_append]
    rfl

end IsWritten

/-- In a list of entries without spaces the command word and the whole text choose the same entry.
-/
theorem isFirst_starts_commandWord_iff {before : List String}
    (hspace : ∀ q ∈ prefixes, ' ' ∉ q.toList) :
    IsFirst (Starts (commandWord text.toList)) prefixes before start ↔
      IsFirst (Starts text.toList) prefixes before start :=
  isFirst_congr fun q hq => starts_commandWord_iff (hspace q hq)

/-- A text whose command word is a prefix and a name is written with them. -/
theorem isWritten_of_commandWord {before : List String}
    (hfirst : IsFirst (Starts text.toList) prefixes before start)
    (hword : commandWord text.toList = start.toList ++ name.toList) (hne : name ≠ "") :
    ∃ rest, IsWritten prefixes text start name rest := by
  obtain ⟨rest, htext, hrest⟩ := exists_commandWord_append text.toList
  refine ⟨String.ofList rest, ?_, ⟨before, hfirst⟩, hne, fun hmem => ?_, ?_⟩
  · rw [← String.toList_inj, String.toList_append, String.toList_append, String.toList_ofList,
      ← hword]
    exact htext
  · apply not_mem_commandWord text.toList
    rw [hword]
    exact List.mem_append_right _ hmem
  · cases rest with
    | nil => exact .inl rfl
    | cons c behind =>
      obtain rfl : c = ' ' := hrest c rfl
      exact .inr ⟨String.ofList behind, by simp⟩

/-- With prefixes that hold no space, a name is detected at the start of a text exactly if the text
is written as a prefix, that name and what stands behind; the words that are bound are then those
behind the space, and prefix, name and words make up the text. -/
theorem leading_reads_what_is_written (hspace : ∀ q ∈ prefixes, ' ' ∉ q.toList)
    (text name : String) :
    (detect? prefixes .leading text = some name ↔
      ∃ start rest, IsWritten prefixes text start name rest) ∧
    ∀ start rest, IsWritten prefixes text start name rest →
      (rest = "" → Binding.words text = []) ∧
      (∀ behind, rest = " " ++ behind →
        SplitsInto ' ' behind.toList ((Binding.words text).map String.toList)) ∧
      text.toList = start.toList ++ name.toList ++
        (Binding.words text).flatMap (' ' :: ·.toList) := by
  refine ⟨?_, fun start rest h => ?_⟩
  · rw [detect?_eq_some_iff, commandName?_leading_eq_some_iff, dropLeading?_eq_some_iff]
    constructor
    · rintro ⟨-, hne, before, start, hfirst, hword⟩
      have hname : name ≠ "" := fun hempty => hne (String.toList_eq_nil_iff.mpr hempty)
      exact ⟨start, isWritten_of_commandWord
        ((isFirst_starts_commandWord_iff hspace).mp hfirst) hword hname⟩
    · rintro ⟨start, rest, h⟩
      obtain ⟨before, hfirst⟩ := h.first
      refine ⟨⟨start, hfirst.mem, hfirst.fit⟩, fun hnil => ?_, before, start, ?_, ?_⟩
      · exact h.name_ne (String.toList_eq_nil_iff.mp hnil)
      · exact (isFirst_starts_commandWord_iff hspace).mpr hfirst
      · exact h.commandWord_eq hspace
  · obtain ⟨hnone, hbehind⟩ := h.words hspace
    exact ⟨hnone, hbehind, h.flatMap_words hspace⟩

/-- The shorter of two nested prefixes is listed first, and the text has an empty word in it. -/
theorem leading_reads_nested_prefixes :
    (∀ q ∈ ["", "bot,", "!", "!!"], ' ' ∉ q.toList) ∧
      detect? ["", "bot,", "!", "!!"] .leading "!!sum  1" = some "!sum" ∧
      SplitsInto ' ' " 1".toList ((Binding.words "!!sum  1").map String.toList) := by
  have hspace : ∀ q ∈ ["", "bot,", "!", "!!"], ' ' ∉ q.toList := by decide
  have hwritten : IsWritten ["", "bot,", "!", "!!"] "!!sum  1" "!" "!sum" "  1" :=
    ⟨rfl, ⟨["", "bot,"], ⟨["!!"], rfl⟩, by decide, by decide⟩, by decide, by decide,
      .inr ⟨" 1", rfl⟩⟩
  obtain ⟨hname, hwords⟩ := leading_reads_what_is_written hspace "!!sum  1" "!sum"
  exact ⟨hspace, hname.mpr ⟨"!", "  1", hwritten⟩, (hwords "!" "  1" hwritten).2.1 " 1" rfl⟩

end Detection

end ChatDispatch
