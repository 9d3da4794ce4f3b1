import ChatDispatch.Proofs.Redaction.Values

/-!
What the log shows of single words. A line that announces no credential up to the end of a word
shows that word as if it stood alone. A word in quotes is shown like the bare word, but the closing
quote is lost to a parameter that is assigned a value at the end of the word.
-/

namespace ChatDispatch.Redaction

open Text

variable {separator : Char} {text word : List Char}

/-- What the log shows of a word where no credential is announced. -/
def shownWord (word : List Char) : List Char :=
  serviceRule.replaceAll (parameterRule.replaceAll word)

def upToWord (number : Nat) (line : List Char) : List Char :=
  joined ' ' ((pieces ' ' line).take (number + 1))

section Line

theorem pieces_shownWord (text : List Char) :
    pieces ' ' (shownWord text) = (pieces ' ' text).map shownWord := by
  have hparameter : ∀ text replacement after, parameterRule.apply text = some (replacement, after) →
      ' ' ∉ replacement ∧ after <:+ text :=
    fun _ _ _ h => ⟨(not_mem_replacement_of_applyParameter h).1, suffix_of_applyParameter h⟩
  have hservice : ∀ text replacement after, serviceRule.apply text = some (replacement, after) →
      ' ' ∉ replacement ∧ after <:+ text := fun _ _ _ h => suffix_of_applyService h
  rw [shownWord, serviceRule_stopsAt_space.pieces_replaceAll hservice,
    parameterRule_stopsAt_space.pieces_replaceAll hparameter, List.map_map]
  rfl

/-- In front of a space a text that announces no credential is shown as if it stood alone. -/
theorem redactText_append_space (h : ¬ AnnouncesCredential text) (behind : List Char) :
    ∃ further, redactText (text ++ ' ' :: behind) = shownWord text ++ ' ' :: further ∧
      (¬ "Bearer".toList <:+ parameterRule.replaceAll text → further = redactText behind) := by
  have hshown : ¬ AnnouncesCredential (parameterRule.replaceAll text) := fun hmark =>
    h hmark.of_replaceAll
  obtain ⟨further, hfurther, hend⟩ :=
    bearerRule_replaceAll_append hshown (parameterRule.replaceAll behind)
  refine ⟨serviceRule.replaceAll further, ?_, fun hnot => by rw [hend hnot, redactText]⟩
  rw [redactText, parameterRule_stopsAt_space.replaceAll_append, hfurther,
    serviceRule_stopsAt_space.replaceAll_append, shownWord]

theorem redactText_of_not_announces (h : ¬ AnnouncesCredential text) :
    redactText text = shownWord text := by
  rw [redactText, bearerRule_replaceAll fun hmark => h hmark.of_replaceAll, shownWord]

theorem suffix_upToWord {number : Nat} {line : List Char}
    (hword : (pieces ' ' line)[number]? = some word) : word <:+ upToWord number line := by
  rw [upToWord, List.take_add_one, hword]
  by_cases hfront : (pieces ' ' line).take number = []
  · rw [hfront]
    exact List.suffix_refl word
  · rw [joined_append hfront (by simp)]
    exact (List.suffix_cons ' ' word).trans (List.suffix_append _ _)

/-- A word is shown as if it stood alone, in its place among the words of the line. -/
theorem getElem?_pieces_redactText {number : Nat} {line : List Char}
    (hword : (pieces ' ' line)[number]? = some word)
    (h : ¬ AnnouncesCredential (upToWord number line)) :
    (pieces ' ' (redactText line))[number]? = some (shownWord word) := by
  have hfront : (pieces ' ' line).take (number + 1) ≠ [] := by
    simp [List.take_eq_nil_iff, pieces_ne_nil]
  have hnospace : ∀ part ∈ (pieces ' ' line).take (number + 1), ' ' ∉ part :=
    fun part hpart => not_mem_of_mem_pieces (List.mem_of_mem_take hpart)
  have hpieces : pieces ' ' (shownWord (upToWord number line)) =
      ((pieces ' ' line).take (number + 1)).map shownWord := by
    rw [pieces_shownWord, upToWord, pieces_joined hfront hnospace]
  have hshown : (((pieces ' ' line).take (number + 1)).map shownWord)[number]? =
      some (shownWord word) := by
    rw [List.getElem?_map, List.getElem?_take_of_lt (Nat.lt_succ_self number), hword]
    rfl
  have hline : joined ' ' ((pieces ' ' line).take (number + 1) ++
      (pieces ' ' line).drop (number + 1)) = line := by
    rw [List.take_append_drop, joined_pieces]
  by_cases hrest : (pieces ' ' line).drop (number + 1) = []
  · rw [hrest, List.append_nil] at hline
    have hwhole : redactText line = shownWord (upToWord number line) := by
      rw [← redactText_of_not_announces h, upToWord, hline]
    rw [hwhole, hpieces, hshown]
  · rw [joined_append hfront hrest] at hline
    obtain ⟨further, hfurther, -⟩ := redactText_append_space h
      (joined ' ' ((pieces ' ' line).drop (number + 1)))
    rw [upToWord, hline] at hfurther
    rw [hfurther, pieces_append_separator, ← upToWord, hpieces]
    rw [List.getElem?_append_left (List.getElem?_eq_some_iff.mp hshown).1, hshown]

end Line

section Quote

/-- What becomes of a quote behind a text: it is kept, or it is lost with the value that it seems to
belong to, or it is taken for a value itself. -/
inductive QuoteBehind (text : List Char) : Prop
  | kept (hends : ¬ EndsInAssignment text)
      (hquoted : parameterRule.replaceAll (text ++ ['\'']) =
        parameterRule.replaceAll text ++ ['\''])
  | lost (hends : EndsInAssignment text) (front : List Char)
      (htext : parameterRule.replaceAll text = front ++ "=[REDACTED]".toList)
      (hquoted : parameterRule.replaceAll (text ++ ['\'']) = parameterRule.replaceAll text)
  | taken (hends : EndsInAssignment text) (front : List Char)
      (htext : parameterRule.replaceAll text = front ++ ['='])
      (hquoted : parameterRule.replaceAll (text ++ ['\'']) =
        parameterRule.replaceAll text ++ "[REDACTED]".toList)

theorem quoteBehind (text : List Char) : QuoteBehind text := by
  cases valueBehind text with
  | going hends front htext hvalue =>
    have hquoted := hvalue ['\''] ⟨by simp, List.forall_mem_singleton.mpr (by decide)⟩
    rcases htext with htext | htext
    · exact .taken hends front htext (by rw [hquoted, htext, List.append_assoc]; rfl)
    · exact .lost hends front htext (by rw [hquoted, htext])
  | ended hends hfurther => exact .kept hends (hfurther ['\''] (by decide))

inductive ClosesWith (word : List Char) : List Char → Prop
  | kept (hends : ¬ EndsInAssignment word) : ClosesWith word ['\'']
  | lost (hends : EndsInAssignment word) (hlast : (shownWord word).getLast? = some ']') :
      ClosesWith word []
  | taken (hends : EndsInAssignment word) (hlast : (shownWord word).getLast? = some '=') :
      ClosesWith word "[REDACTED]".toList

theorem exists_closesWith (word : List Char) :
    ∃ mark, ClosesWith word mark ∧ shownWord (word ++ ['\'']) = shownWord word ++ mark := by
  have hequals : serviceRule.StopsAt '=' := serviceRule_stopsAt (by decide) (by decide)
  have hquote : serviceRule.StopsAt '\'' := serviceRule_stopsAt (by decide) (by decide)
  have hredacted : serviceRule.replaceAll "[REDACTED]".toList = "[REDACTED]".toList := by
    decide +kernel
  cases quoteBehind word with
  | kept hends heq =>
    refine ⟨_, .kept hends, ?_⟩
    rw [shownWord, heq, hquote.replaceAll_append, Rule.replaceAll_nil, shownWord]
  | lost hends front htext heq =>
    refine ⟨_, .lost hends ?_, by rw [shownWord, heq, List.append_nil, shownWord]⟩
    have hsplit : parameterRule.replaceAll word = front ++ '=' :: "[REDACTED]".toList := htext
    rw [shownWord, hsplit, hequals.replaceAll_append, hredacted]
    simp
  | taken hends front htext heq =>
    have hshown : shownWord word = serviceRule.replaceAll front ++ ['='] := by
      rw [shownWord, htext, hequals.replaceAll_append, Rule.replaceAll_nil]
    refine ⟨_, .taken hends (by simp [hshown]), ?_⟩
    rw [hshown, shownWord, heq, htext, List.append_assoc, List.singleton_append,
      hequals.replaceAll_append, hredacted, List.append_assoc, List.singleton_append]

/-- Words that are shown alike are shown alike in quotes if both of them end in an assignment to a
secret parameter, or neither does, and only then. -/
theorem shownWord_quoted_eq_iff {other : List Char} (h : shownWord word = shownWord other) :
    shownWord (word ++ ['\'']) = shownWord (other ++ ['\'']) ↔
      (EndsInAssignment word ↔ EndsInAssignment other) := by
  obtain ⟨mark, hmark, hword⟩ := exists_closesWith word
  obtain ⟨mark', hmark', hother⟩ := exists_closesWith other
  rw [hword, hother, h, List.append_cancel_left_eq]
  cases hmark with
  | kept hends =>
    cases hmark' with
    | kept hends' => simp [hends, hends']
    | lost hends' hlast' => simp [hends, hends']
    | taken hends' hlast' => simp [hends, hends']
  | lost hends hlast =>
    cases hmark' with
    | kept hends' => simp [hends, hends']
    | lost hends' hlast' => simp [hends, hends']
    | taken hends' hlast' => simp [h, hlast'] at hlast
  | taken hends hlast =>
    cases hmark' with
    | kept hends' => simp [hends, hends']
    | lost hends' hlast' => simp [h, hlast'] at hlast
    | taken hends' hlast' => simp [hends, hends']

end Quote

section Quotation

def quotationLead : List Char := "could not convert '".toList

theorem quotationLead_append (text : List Char) :
    quotationLead ++ text = "could not convert".toList ++ ' ' :: '\'' :: text := by
  have hlead : quotationLead = "could not convert".toList ++ [' ', '\''] := by decide
  rw [hlead, List.append_assoc]
  rfl

/-- A rule that begins no match at a quote leaves the lead as it is. -/
theorem replaceAll_lead {rule : Rule} (h : rule.StopsAt ' ')
    (hwords : rule.replaceAll "could not convert".toList = "could not convert".toList)
    (hquote : ∀ text, rule.apply ('\'' :: text) = none) (text : List Char) :
    rule.replaceAll (quotationLead ++ text) = quotationLead ++ rule.replaceAll text := by
  rw [quotationLead_append, h.replaceAll_append, hwords, Rule.replaceAll_of_none (hquote text),
    quotationLead_append]

theorem parameterRule_replaceAll_lead (text : List Char) :
    parameterRule.replaceAll (quotationLead ++ text) =
      quotationLead ++ parameterRule.replaceAll text :=
  replaceAll_lead parameterRule_stopsAt_space (by decide +kernel) (fun _ => rfl) text

theorem serviceRule_replaceAll_lead (text : List Char) :
    serviceRule.replaceAll (quotationLead ++ text) =
      quotationLead ++ serviceRule.replaceAll text :=
  replaceAll_lead serviceRule_stopsAt_space (by decide +kernel) (fun _ => rfl) text

/-- A quotation announces no credential that the quoted word does not announce. -/
theorem not_announces_quotation (h : ¬ AnnouncesCredential word) :
    ¬ AnnouncesCredential (quotationLead ++ (word ++ ['\''])) := by
  rintro ⟨blank, hblank, hmark⟩
  have hlead : 'B' ∉ quotationLead := by decide
  have hquoted : "Bearer".toList ++ [blank] <:+: word ++ ['\''] := infix_of_infix_append hlead hmark
  rcases List.infix_concat_iff.mp hquoted with hend | hinside
  · rcases List.suffix_concat_iff.mp hend with hnil | ⟨_, heq, _⟩
    · simp at hnil
    · obtain rfl : blank = '\'' := List.singleton_inj.mp (List.append_inj_right' heq rfl)
      exact absurd hblank (by decide)
  · exact h ⟨blank, hblank, hinside⟩

theorem getLast?_quoted (text : List Char) :
    (parameterRule.replaceAll (text ++ ['\''])).getLast? = some '\'' ∨
      (parameterRule.replaceAll (text ++ ['\''])).getLast? = some ']' := by
  cases quoteBehind text with
  | kept hends heq => exact .inl (by simp [heq])
  | lost hends front htext heq => exact .inr (by simp [heq, htext])
  | taken hends front htext heq => exact .inr (by simp [heq])

/-- A quoted word is shown as it is shown on its own, whatever stands behind. -/
theorem redactText_quotation (h : ¬ AnnouncesCredential word) (behind : List Char) :
    redactText (quotationLead ++ (word ++ ['\'']) ++ ' ' :: behind) =
      quotationLead ++ shownWord (word ++ ['\'']) ++ ' ' :: redactText behind := by
  have hlast : ¬ "Bearer".toList <:+
      parameterRule.replaceAll (quotationLead ++ (word ++ ['\''])) := by
    rintro ⟨front, hfront⟩
    have hr := congrArg List.getLast? hfront
    rw [parameterRule_replaceAll_lead] at hr
    rcases getLast?_quoted word with hquote | hquote <;> simp [hquote] at hr
  obtain ⟨further, hfurther, hend⟩ :=
    redactText_append_space (not_announces_quotation h) behind
  rw [hfurther, hend hlast, shownWord, parameterRule_replaceAll_lead,
    serviceRule_replaceAll_lead, shownWord]

end Quotation

end ChatDispatch.Redaction
