import ChatDispatch.Proofs.Detection.Leading

/-!
What the two modes make of the same text. The mode that looks for an occurrence cuts one out of the
command word wherever an entry of the list occurs in it, which is always so if the text starts with
an entry without a space; a text that starts only with entries that hold a space can leave the whole
word as the name. For entries without spaces it finds a name wherever the mode that looks at the
start does, and the same name unless an entry that is listed further in front occurs in the word.
-/

namespace ChatDispatch.Detection

open Text

variable {prefixes before : List String} {start text name : String} {word : List Char}

/-- The name is what is left of the word around the leftmost occurrence of the first entry of the
list that occurs in it. -/
def CutsOut (prefixes : List String) (word : List Char) (name : String) : Prop :=
  ∃ before found, IsFirst (Occurs word) prefixes before found ∧
    ∃ front rest, IsCut found.toList word front rest ∧ name.toList = front ++ rest

/-- Where an entry of the list occurs in a word, something is cut out of it, and it is what the
name is made of. -/
theorem cutsOut_iff (hoccurs : ∃ q ∈ prefixes, Occurs word q) :
    CutsOut prefixes word name ↔
      dropOccurrence (prefixes.map String.toList) word = name.toList := by
  constructor
  · rintro ⟨before, found, hfirst, front, rest, hcut, hname⟩
    rw [dropOccurrence_of_isCut hfirst hcut, hname]
  · intro hdrop
    obtain ⟨before, found, hfirst, front, rest, hcut, hleft⟩ := exists_isCut_of_occurs hoccurs
    exact ⟨before, found, hfirst, front, rest, hcut, hdrop.symm.trans hleft⟩

theorem CutsOut.exists_occurs (h : CutsOut prefixes word name) : ∃ q ∈ prefixes, Occurs word q := by
  obtain ⟨before, found, hfirst, -⟩ := h
  exact ⟨found, hfirst.mem, hfirst.fit⟩

/-- What is left of a word has no character that is not in the word. -/
theorem subset_of_dropOccurrence {c : Char}
    (h : c ∈ dropOccurrence (prefixes.map String.toList) word) : c ∈ word := by
  by_cases hoccurs : ∃ q ∈ prefixes, Occurs word q
  · have hname : (String.ofList (dropOccurrence (prefixes.map String.toList) word)).toList =
        dropOccurrence (prefixes.map String.toList) word := String.toList_ofList
    obtain ⟨before, found, hfirst, front, rest, hcut, hdrop⟩ :=
      (cutsOut_iff hoccurs).mpr hname.symm
    rw [← hname, hdrop] at h
    rw [hcut.text_eq]
    rcases List.mem_append.mp h with hfront | hrest
    · exact List.mem_append_left _ (List.mem_append_left _ hfront)
    · exact List.mem_append_right _ hrest
  · rwa [dropOccurrence_of_not_occurs fun q hq hocc => hoccurs ⟨q, hq, hocc⟩] at h

theorem detect?_firstOccurrence_eq_some_iff :
    detect? prefixes .firstOccurrence text = some name ↔
      (∃ q ∈ prefixes, Starts text.toList q) ∧ name ≠ "" ∧
        dropOccurrence (prefixes.map String.toList) (commandWord text.toList) = name.toList := by
  rw [detect?_eq_some_iff, commandName?_firstOccurrence_eq_some_iff, ne_eq,
    String.toList_eq_nil_iff]

/-- A name that is detected by an occurrence is a word. It is cut out of the command word exactly if
an entry of the list occurs there, and so in any case if the text starts with an entry that holds no
space; else it is the command word itself. -/
theorem firstOccurrence_cuts_what_occurs
    (h : detect? prefixes .firstOccurrence text = some name) :
    name ≠ "" ∧ ' ' ∉ name.toList ∧
    (CutsOut prefixes (commandWord text.toList) name ↔
      ∃ q ∈ prefixes, Occurs (commandWord text.toList) q) ∧
    (¬ CutsOut prefixes (commandWord text.toList) name →
      name.toList = commandWord text.toList) ∧
    ∀ q ∈ prefixes, Starts text.toList q → ' ' ∉ q.toList →
      CutsOut prefixes (commandWord text.toList) name := by
  obtain ⟨-, hne, hdrop⟩ := detect?_firstOccurrence_eq_some_iff.mp h
  have hcuts : CutsOut prefixes (commandWord text.toList) name ↔
      ∃ q ∈ prefixes, Occurs (commandWord text.toList) q :=
    ⟨CutsOut.exists_occurs, fun hoccurs => (cutsOut_iff hoccurs).mpr hdrop⟩
  refine ⟨hne, fun hmem => ?_, hcuts, fun hnot => ?_, fun q hq hstart hspace => ?_⟩
  · exact not_mem_commandWord text.toList (subset_of_dropOccurrence (hdrop ▸ hmem))
  · rw [← hdrop]
    exact dropOccurrence_of_not_occurs fun q hq hocc => hnot (hcuts.mpr ⟨q, hq, hocc⟩)
  · exact hcuts.mpr ⟨q, hq, hstart.occurs_commandWord hspace⟩

/-- Of two entries that overlap in the word the one listed first is taken out, at its leftmost
place, though the text starts with another. -/
theorem firstOccurrence_cuts_overlapping_prefixes :
    detect? ["", "a b", "!!", "!"] .firstOccurrence "!x!!!y z" = some "!x!y" ∧
      CutsOut ["", "a b", "!!", "!"] (commandWord "!x!!!y z".toList) "!x!y" := by
  have hname : detect? ["", "a b", "!!", "!"] .firstOccurrence "!x!!!y z" = some "!x!y" := rfl
  obtain ⟨-, -, -, -, hcuts⟩ := firstOccurrence_cuts_what_occurs hname
  exact ⟨hname, hcuts "!" (by decide) (by decide) (by decide)⟩

/-- A text that starts with a prefix with a space in it keeps its whole command word as the name,
and no entry has been taken out of that. -/
theorem firstOccurrence_keeps_word_of_spaced_prefix :
    detect? ["hey bot"] .firstOccurrence "hey bot stop" = some "hey" ∧
      ¬ CutsOut ["hey bot"] (commandWord "hey bot stop".toList) "hey" := by
  refine ⟨rfl, fun hcuts => ?_⟩
  exact absurd hcuts.exists_occurs (by decide +kernel)

theorem detect?_leading_eq_some_iff :
    detect? prefixes .leading text = some name ↔
      (∃ q ∈ prefixes, Starts text.toList q) ∧ name ≠ "" ∧
        dropLeading? (prefixes.map String.toList) (commandWord text.toList) = some name.toList := by
  rw [detect?_eq_some_iff, commandName?_leading_eq_some_iff, ne_eq, String.toList_eq_nil_iff]

/-- A text that starts with no entry of the list names no command, in whichever mode. -/
theorem detect?_eq_none (mode : PrefixMode) (h : ∀ q ∈ prefixes, ¬ Starts text.toList q) :
    detect? prefixes mode text = none := by
  have hnot : ¬ ∃ q ∈ prefixes, Starts text.toList q := fun ⟨q, hq, hstart⟩ => h q hq hstart
  rw [Option.eq_none_iff_forall_ne_some]
  intro name hname
  cases mode with
  | leading => exact hnot (detect?_leading_eq_some_iff.mp hname).1
  | firstOccurrence => exact hnot (detect?_firstOccurrence_eq_some_iff.mp hname).1

/-- Where the first entry that occurs in the command word is the one that the text starts with, both
modes take it off at the start. -/
theorem detect?_eq_of_isFirst
    (hstart : IsFirst (Starts (commandWord text.toList)) prefixes before start)
    (hoccurs : IsFirst (Occurs (commandWord text.toList)) prefixes before start) :
    detect? prefixes .leading text = detect? prefixes .firstOccurrence text := by
  obtain ⟨rest, hrest⟩ := hstart.fit.2
  have hcut : IsCut start.toList (commandWord text.toList) [] rest :=
    hrest ▸ isCut_of_start start.toList rest
  have hleading : dropLeading? (prefixes.map String.toList) (commandWord text.toList) =
      some rest := dropLeading?_eq_some_iff.mpr ⟨before, start, hstart, hrest.symm⟩
  refine Option.ext fun name => ?_
  rw [detect?_leading_eq_some_iff, detect?_firstOccurrence_eq_some_iff, hleading,
    dropOccurrence_of_isCut hoccurs hcut, Option.some.injEq, List.nil_append]

/-- A word of which nothing is left around an occurrence has nothing behind its prefix either. -/
theorem dropOccurrence_ne_nil {left : List Char}
    (hleading : dropLeading? (prefixes.map String.toList) word = some left) (hleft : left ≠ []) :
    dropOccurrence (prefixes.map String.toList) word ≠ [] := by
  intro hnil
  obtain ⟨before, start, hstart, hword⟩ := dropLeading?_eq_some_iff.mp hleading
  have hcutsOut : CutsOut prefixes word "" :=
    (cutsOut_iff ⟨start, hstart.mem, hstart.fit.occurs⟩).mpr hnil
  obtain ⟨before', found, hfound, front, rest, hcut, hnothing⟩ := hcutsOut
  obtain ⟨rfl, rfl⟩ := List.append_eq_nil_iff.mp hnothing.symm
  have hwhole : word = found.toList := by simpa using hcut.text_eq
  have heq : start = found :=
    hstart.eq_of_imp hfound (fun _ => Starts.occurs) ⟨hfound.fit.1, hwhole ▸ List.prefix_rfl⟩
  rw [hwhole, heq] at hword
  exact hleft (List.self_eq_append_right.mp hword)

/-- With prefixes that hold no space, looking at the start finds no name where looking for an
occurrence finds none. The two find the same if no entry in front of the one that the text starts
with occurs in the command word, and so always for a list of one entry. -/
theorem modes_agree_unless_preceded (hspace : ∀ q ∈ prefixes, ' ' ∉ q.toList) (text : String) :
    (detect? prefixes .firstOccurrence text = none → detect? prefixes .leading text = none) ∧
    (∀ before start, IsFirst (Starts text.toList) prefixes before start →
      (∀ q ∈ before, ¬ Occurs (commandWord text.toList) q) →
      detect? prefixes .leading text = detect? prefixes .firstOccurrence text) ∧
    ∀ start, prefixes = [start] →
      detect? prefixes .leading text = detect? prefixes .firstOccurrence text := by
  have hagree : ∀ before start, IsFirst (Starts text.toList) prefixes before start →
      (∀ q ∈ before, ¬ Occurs (commandWord text.toList) q) →
      detect? prefixes .leading text = detect? prefixes .firstOccurrence text := by
    intro before start hfirst hbefore
    have hstart := (isFirst_starts_commandWord_iff hspace).mpr hfirst
    exact detect?_eq_of_isFirst hstart ⟨hstart.listed, hstart.fit.occurs, hbefore⟩
  refine ⟨fun hnone => ?_, hagree, fun start hsingle => ?_⟩
  · rw [Option.eq_none_iff_forall_ne_some]
    intro name hname
    obtain ⟨hstarts, hne, hleading⟩ := detect?_leading_eq_some_iff.mp hname
    have hleft := dropOccurrence_ne_nil hleading (mt String.toList_eq_nil_iff.mp hne)
    have hfound : detect? prefixes .firstOccurrence text = some (String.ofList
        (dropOccurrence (prefixes.map String.toList) (commandWord text.toList))) := by
      rw [detect?_firstOccurrence_eq_some_iff, String.toList_ofList]
      exact ⟨hstarts, fun hempty => hleft (by simpa using hempty), rfl⟩
    rw [hnone] at hfound
    cases hfound
  · subst hsingle
    by_cases hstart : Starts text.toList start
    · exact hagree [] start ⟨⟨[], rfl⟩, hstart, nofun⟩ nofun
    · have hnot : ∀ q ∈ [start], ¬ Starts text.toList q := by simpa using hstart
      rw [detect?_eq_none .leading hnot, detect?_eq_none .firstOccurrence hnot]

/-- The entry in front of the first one that fits occurs in the text, but not in its first word. -/
theorem modes_agree_behind_question_mark :
    (∀ q ∈ ["?", "!", "!!"], ' ' ∉ q.toList) ∧
      detect? ["?", "!", "!!"] .firstOccurrence "!!ab c?d" = some "!ab" ∧
      detect? ["?", "!", "!!"] .leading "!!ab c?d" = some "!ab" ∧
      detect? ["?", "!", "!!"] .firstOccurrence "! c?d" = none ∧
      detect? ["?", "!", "!!"] .leading "! c?d" = none := by
  have hspace : ∀ q ∈ ["?", "!", "!!"], ' ' ∉ q.toList := by decide
  have hfound : detect? ["?", "!", "!!"] .firstOccurrence "!!ab c?d" = some "!ab" := rfl
  have hnone : detect? ["?", "!", "!!"] .firstOccurrence "! c?d" = none := rfl
  have hfirst : IsFirst (Starts "!!ab c?d".toList) ["?", "!", "!!"] ["?"] "!" :=
    ⟨⟨["!!"], rfl⟩, by decide, by decide⟩
  have hagree := (modes_agree_unless_preceded hspace "!!ab c?d").2.1 ["?"] "!" hfirst
    (by decide +kernel)
  exact ⟨hspace, hfound, hagree.trans hfound, hnone,
    (modes_agree_unless_preceded hspace "! c?d").1 hnone⟩

end ChatDispatch.Detection
