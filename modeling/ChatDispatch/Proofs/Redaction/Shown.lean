import ChatDispatch.Proofs.Redaction.Values
import ChatDispatch.Proofs.Text.Marks

/-!
What a redacted line still shows. None of the rules brings in, joins or uncovers anything that a
rule before it has removed, and no rule takes off a part of a mark that it does not remove as a
whole. So a redacted line holds no credential behind `Bearer` and no service token, its secret
parameters have the mark for their value, and redacting it again changes nothing.
-/

namespace ChatDispatch.Redaction

open Text

variable {rule : Rule} {text : List Char}

section Found

theorem bearerRule_finds : bearerRule.Finds IsAnnounced where
  exists_part := exists_isAnnounced_of_applyBearer
  apply_ne_none _ h := applyBearer_ne_none_of_isAnnounced h

theorem serviceRule_finds : serviceRule.Finds IsServiceToken where
  exists_part := exists_isServiceToken_of_applyService
  apply_ne_none := applyService_ne_none_of_isServiceToken

theorem bearerRule_marks : bearerRule.Marks 'B' "Bearer [REDACTED_TOKEN]".toList where
  apply_eq_none c text hc := by simp [bearerRule, applyBearer, dropStart?, Ne.symm hc]
  eq_mark text replacement after h := by
    obtain ⟨part, -, rfl⟩ := exists_isAnnounced_of_applyBearer h
    obtain ⟨_, _, _, _, _, _, _, _, hreplacement, _⟩ := applyBearer_eq_some h
    exact ⟨hreplacement, List.suffix_append part after⟩

theorem serviceRule_marks : serviceRule.Marks 'v' "[REDACTED_TOKEN]".toList where
  apply_eq_none c text hc := by simp [serviceRule, applyService, dropStart?, Ne.symm hc]
  eq_mark text replacement after h := by
    obtain ⟨_, _, _, hreplacement, _⟩ := applyService_eq_some h
    exact ⟨hreplacement, (suffix_of_applyService h).2⟩

theorem bracket_not_mem_of_isAnnounced {part : List Char} (h : IsAnnounced part) : '[' ∉ part := by
  obtain ⟨blanks, credential, padding, hblanks, hcredential, hpadding, rfl⟩ := h
  intro hmem
  rcases List.mem_append.mp hmem with hmem | hmem
  · exact absurd hmem (by decide)
  rcases List.mem_append.mp hmem with hmem | hmem
  · exact absurd (hblanks.all _ hmem) (by decide)
  rcases List.mem_append.mp hmem with hmem | hmem
  · exact absurd (hcredential.all _ hmem) (by decide)
  · exact absurd (hpadding _ hmem) (by decide)

theorem bracket_not_mem_of_isServiceToken {part : List Char} (h : IsServiceToken part) :
    '[' ∉ part := by
  obtain ⟨value, _, hvalue, rfl⟩ := h
  intro hmem
  rcases List.mem_append.mp hmem with hmem | hmem
  · exact absurd hmem (by decide)
  · exact absurd (hvalue _ hmem) (by decide)

end Found

section Spared

/-- A rule begins no match in front of a text that ends in none of its first characters. -/
theorem apply_append_eq_none {first : Char} {mark part shown : List Char}
    (h : rule.Marks first mark) (hfirst : first ∉ shown) (hne : part ≠ [])
    (hpart : part <:+ shown) (rest : List Char) : rule.apply (part ++ rest) = none := by
  obtain ⟨c, more, rfl⟩ := List.exists_cons_of_ne_nil hne
  refine h.apply_eq_none c _ ?_
  rintro rfl
  exact hfirst (hpart.mem List.mem_cons_self)

theorem serviceRule_spares (text : List Char) :
    serviceRule.Spares (serviceRule.replaceAll text) :=
  serviceRule_marks.spares_replaceAll serviceRule_finds rfl
    (fun _ => bracket_not_mem_of_isServiceToken)
    (fun _ hne hpart => apply_append_eq_none serviceRule_marks (by decide) hne hpart)
    (fun _ _ hnone => hnone)

theorem bearerRule_spares_of_spares (h : bearerRule.Spares text) :
    bearerRule.Spares (serviceRule.replaceAll text) :=
  serviceRule_marks.spares_replaceAll bearerRule_finds rfl
    (fun _ => bracket_not_mem_of_isAnnounced)
    (fun _ hne hpart => apply_append_eq_none bearerRule_marks (by decide) hne hpart)
    (fun rest hrest _ => h rest hrest)

theorem head?_bearerRule_replaceAll (text : List Char) :
    (bearerRule.replaceAll text).head? = text.head? := by
  refine Rule.head?_replaceAll (fun text replacement after happly => ?_) text
  obtain ⟨_, _, _, _, rfl, _, _, _, rfl, _⟩ := applyBearer_eq_some happly
  rfl

/-- The mark for credentials begins like a match, so that what is shown in front of it has to be
looked at letter by letter. -/
theorem bearerRule_spares (text : List Char) :
    bearerRule.Spares (bearerRule.replaceAll text) := by
  refine Rule.forall_suffix_replaceAll
    (fun _ _ _ happly => (bearerRule_marks.eq_mark _ _ _ happly).2) bearerRule.apply_nil ?_ ?_
  · intro rest replacement after _ happly part hne hpart
    obtain ⟨rfl, -⟩ := bearerRule_marks.eq_mark _ _ _ happly
    rcases List.suffix_cons_iff.mp hpart with rfl | hpart
    · rfl
    · exact apply_append_eq_none bearerRule_marks (by decide) hne hpart _
  · intro c rest _ happly
    by_contra hsome
    obtain ⟨found, hfound⟩ := Option.ne_none_iff_exists'.mp hsome
    obtain ⟨_, ⟨blanks, credential, padding, hblanks, hcredential, -, rfl⟩, heq⟩ :=
      exists_isAnnounced_of_applyBearer hfound
    obtain ⟨d, credential, rfl⟩ := List.exists_cons_of_ne_nil hcredential.ne_nil
    have hd := hcredential.all d List.mem_cons_self
    simp only [List.append_assoc] at heq
    obtain ⟨rfl, hrest⟩ := List.cons.inj heq
    have hfront : 'B' ∉ "earer".toList ++ blanks := by
      intro hmem
      rcases List.mem_append.mp hmem with hmem | hmem
      · exact absurd hmem (by decide)
      · exact absurd (hblanks.all _ hmem) (by decide)
    have hshown : bearerRule.replaceAll rest =
        "earer".toList ++ blanks ++ d :: (credential ++ (padding ++ found.2)) :=
      hrest.trans (List.append_assoc "earer".toList _ _).symm
    obtain ⟨behind, rfl⟩ :=
      bearerRule_marks.prefix_of_prefix_replaceAll rfl hfront ⟨_, hshown.symm⟩
    rw [bearerRule_marks.replaceAll_append hfront] at hshown
    have hhead := head?_bearerRule_replaceAll behind
    rw [List.append_cancel_left hshown] at hhead
    obtain ⟨more, rfl⟩ := List.head?_eq_some_iff.mp hhead.symm
    have hmatch := @applyBearer_bearer blanks more d hblanks hd
    rw [← List.append_assoc] at hmatch
    cases hmatch.symm.trans happly

end Spared

section Marked

/-- If the text begins with an assignment to a secret parameter, its value is empty or the mark. -/
def BeginsMarked (text : List Char) : Prop :=
  ∀ name ∈ secretNames, ∀ value, text = name ++ '=' :: value →
    value.takeWhile isValueChar = [] ∨ value.takeWhile isValueChar = "[REDACTED]".toList

/-- Wherever a secret parameter is assigned a value in the text, it is the mark. -/
def IsMarked (text : List Char) : Prop :=
  ∀ rest, rest <:+ text → BeginsMarked rest

theorem beginsMarked_nil : BeginsMarked [] := by
  intro name _ value heq
  simp at heq

/-- No assignment reaches into a bracket that closes a mark. -/
theorem beginsMarked_append {part : List Char} (hequals : '=' ∉ part) (hbracket : ']' ∈ part)
    (rest : List Char) : BeginsMarked (part ++ rest) := by
  intro name hname value heq
  have hnames : ∀ name ∈ secretNames, ']' ∉ name := by decide
  rcases List.append_eq_append_iff.mp heq with ⟨middle, hname', -⟩ | ⟨middle, hpart, hrest⟩
  · exact absurd (hname' ▸ List.mem_append_left middle hbracket) (hnames name hname)
  · cases middle with
    | nil => exact absurd (hpart ▸ hbracket) (by simpa using hnames name hname)
    | cons d middle =>
      obtain ⟨rfl, -⟩ := List.cons.inj hrest
      exact absurd (hpart ▸ List.mem_append_right name List.mem_cons_self) hequals

theorem beginsMarked_of_suffix {mark part : List Char} (hequals : '=' ∉ mark)
    (hends : mark.getLast? = some ']') (hne : part ≠ []) (hpart : part <:+ mark)
    (rest : List Char) : BeginsMarked (part ++ rest) := by
  refine beginsMarked_append (fun hmem => hequals (hpart.mem hmem)) ?_ rest
  obtain ⟨start, rfl⟩ := List.getLast?_eq_some_iff.mp hends
  rcases List.suffix_concat_iff.mp hpart with rfl | ⟨front, rfl, -⟩
  · exact absurd rfl hne
  · exact List.mem_append_right front List.mem_cons_self

/-- Whatever is replaced by a mark, the parameters whose values are marked stay so. -/
theorem IsMarked.replaceAll {first c : Char} {mark : List Char} (h : IsMarked text)
    (hrule : rule.Marks first mark) (hfirst : isValueChar first = true)
    (hvalue : first ∉ "[REDACTED]".toList) (hnames : ∀ name ∈ secretNames, first ∉ name ++ ['='])
    (hmark : mark.head? = some c) (hbegins : ∀ name ∈ secretNames, c ∉ name ++ ['='])
    (hequals : '=' ∉ mark) (hends : mark.getLast? = some ']') :
    IsMarked (rule.replaceAll text) := by
  refine Rule.forall_suffix_replaceAll
    (fun _ _ _ happly => (hrule.eq_mark _ _ _ happly).2) beginsMarked_nil ?_ ?_
  · intro rest replacement after _ happly part hne hpart
    obtain ⟨rfl, -⟩ := hrule.eq_mark _ _ _ happly
    exact beginsMarked_of_suffix hequals hends hne hpart _
  · intro d rest hrest happly name hname value heq
    have hshown : rule.replaceAll (d :: rest) = name ++ ['='] ++ value := by
      rw [Rule.replaceAll_of_none happly, heq, List.append_assoc]
      rfl
    obtain ⟨old, hold⟩ :=
      hrule.prefix_of_prefix_replaceAll hmark (hbegins name hname) ⟨value, hshown.symm⟩
    rw [← hold, hrule.replaceAll_append (hnames name hname)] at hshown
    have hmarked := h _ hrest name hname old (by rw [← hold, List.append_assoc]; rfl)
    have hnot : first ∉ old.takeWhile isValueChar := by
      rcases hmarked with hempty | hfull
      · simp [hempty]
      · rwa [hfull]
    rw [← List.append_cancel_left hshown, hrule.takeWhile_replaceAll hfirst hnot]
    exact hmarked

/-- An assignment that is shown has been one before. -/
theorem exists_assignment_of_replaceAll {word rest : List Char} {d : Char} (hword : '=' ∉ word)
    (hd : isValueChar d = true) (h : parameterRule.replaceAll text = word ++ '=' :: d :: rest) :
    ∃ e value, isValueChar e = true ∧ text = word ++ '=' :: e :: value := by
  induction text using parameterRule.replaceAll_induction generalizing word with
  | nil => simp at h
  | replaced text replacement after happly ih =>
    obtain ⟨name, hname, hrest, rfl⟩ := applyParameter_eq_some happly
    obtain ⟨c, value, rfl, hc, -⟩ := parameterRest?_eq_some_iff.mp hrest
    rw [Rule.replaceAll_of_some happly, List.append_assoc] at h
    obtain ⟨rfl, -⟩ := append_separator_inj (equals_not_mem_name hname) hword h
    exact ⟨c, value, hc, rfl⟩
  | kept c text happly ih =>
    rw [Rule.replaceAll_of_none happly] at h
    cases word with
    | nil =>
      obtain ⟨rfl, hshown⟩ := List.cons.inj h
      have hhead := head?_parameterRule_replaceAll text
      rw [hshown] at hhead
      obtain ⟨value, rfl⟩ := List.head?_eq_some_iff.mp hhead.symm
      exact ⟨d, value, hd, rfl⟩
    | cons e word =>
      obtain ⟨rfl, hshown⟩ := List.cons.inj h
      obtain ⟨-, hword⟩ := not_or.mp (mt List.mem_cons.mpr hword)
      obtain ⟨e, value, he, rfl⟩ := ih hword hshown
      exact ⟨e, value, he, rfl⟩

/-- The mark that stands for a value ends where the value has ended. -/
theorem beginsMarked_assignment {front : List Char} (hfront : '=' ∉ front) (value : List Char) :
    BeginsMarked (front ++ '=' :: "[REDACTED]".toList ++
      parameterRule.replaceAll (value.dropWhile isValueChar)) := by
  intro name hname shown heq
  rw [List.append_assoc, List.cons_append] at heq
  obtain ⟨-, rfl⟩ := append_separator_inj hfront (equals_not_mem_name hname) heq
  have hmark : "[REDACTED]".toList.all isValueChar = true := by decide
  refine .inr (takeWhile_append_rest (List.all_eq_true.mp hmark) fun c hc => ?_)
  rw [head?_parameterRule_replaceAll] at hc
  obtain ⟨rest, hrest⟩ := List.head?_eq_some_iff.mp hc
  exact eq_false_of_dropWhile_eq_cons hrest

theorem isMarked_replaceAll (text : List Char) : IsMarked (parameterRule.replaceAll text) := by
  refine Rule.forall_suffix_replaceAll (fun _ _ _ happly => suffix_of_applyParameter happly)
    beginsMarked_nil ?_ ?_
  · intro rest replacement after _ happly part hne hpart
    obtain ⟨name, hname, hrest, rfl⟩ := applyParameter_eq_some happly
    obtain ⟨c, value, rfl, hc, rfl⟩ := parameterRest?_eq_some_iff.mp hrest
    have hmark : '=' :: "[REDACTED]".toList <:+ name ++ "=[REDACTED]".toList :=
      List.suffix_append name _
    rcases List.suffix_or_suffix_of_suffix hpart hmark with hinside | ⟨front, rfl⟩
    · rcases List.suffix_cons_iff.mp hinside with rfl | hinside
      · exact beginsMarked_assignment List.not_mem_nil value
      · exact beginsMarked_of_suffix (by decide) (by decide) hne hinside _
    · obtain ⟨start, hstart⟩ := hpart
      rw [← List.append_assoc] at hstart
      have hname' : start ++ front = name := List.append_cancel_right hstart
      refine beginsMarked_assignment (fun hmem => equals_not_mem_name hname ?_) value
      exact hname' ▸ List.mem_append_right start hmem
  · intro c rest _ happly name hname value heq
    cases value with
    | nil => exact .inl rfl
    | cons d value =>
      by_cases hd : isValueChar d = true
      · rw [← Rule.replaceAll_of_none happly] at heq
        obtain ⟨e, more, he, htext⟩ :=
          exists_assignment_of_replaceAll (equals_not_mem_name hname) hd heq
        have hfound := applyParameter_eq_none_iff.mp happly name hname
        rw [parameterRest?_eq_some_iff.mpr ⟨e, more, htext, he, rfl⟩] at hfound
        cases hfound
      · exact .inl (List.takeWhile_cons_of_neg hd)

/-- A text whose parameters are marked is left as it is. -/
theorem IsMarked.replaceAll_eq (h : IsMarked text) : parameterRule.replaceAll text = text := by
  induction text using parameterRule.replaceAll_induction with
  | nil => exact Rule.replaceAll_nil _
  | replaced text replacement after happly ih =>
    have hafter := suffix_of_applyParameter happly
    obtain ⟨name, hname, hrest, rfl⟩ := applyParameter_eq_some happly
    obtain ⟨c, value, rfl, hc, rfl⟩ := parameterRest?_eq_some_iff.mp hrest
    have hvalue := h _ (List.suffix_refl _) name hname (c :: value) rfl
    rw [List.takeWhile_cons_of_pos hc] at hvalue
    have hmark := hvalue.resolve_left (List.cons_ne_nil _ _)
    have hsplit : "[REDACTED]".toList ++ value.dropWhile isValueChar = c :: value := by
      rw [← hmark, List.cons_append, List.takeWhile_append_dropWhile]
    rw [Rule.replaceAll_of_some happly, ih fun rest hrest => h rest (hrest.trans hafter), ← hsplit,
      List.append_assoc]
    rfl
  | kept c text happly ih =>
    rw [Rule.replaceAll_of_none happly,
      ih fun rest hrest => h rest (hrest.trans (List.suffix_cons c text))]

end Marked

section Shown

theorem isMarked_redactText (text : List Char) : IsMarked (redactText text) := by
  have hbearer : IsMarked (bearerRule.replaceAll (parameterRule.replaceAll text)) :=
    (isMarked_replaceAll text).replaceAll (c := 'B') bearerRule_marks (by decide) (by decide)
      (by decide) rfl (by decide) (by decide) (by decide)
  exact hbearer.replaceAll (c := '[') serviceRule_marks (by decide) (by decide) (by decide) rfl
    (by decide) (by decide) (by decide)

theorem bearerRule_spares_redactText (text : List Char) : bearerRule.Spares (redactText text) :=
  bearerRule_spares_of_spares (bearerRule_spares _)

theorem serviceRule_spares_redactText (text : List Char) : serviceRule.Spares (redactText text) :=
  serviceRule_spares _

theorem redactText_redactText (text : List Char) :
    redactText (redactText text) = redactText text := by
  calc redactText (redactText text)
      = serviceRule.replaceAll (bearerRule.replaceAll (redactText text)) := by
        rw [redactText, (isMarked_redactText text).replaceAll_eq]
    _ = serviceRule.replaceAll (redactText text) := by
        rw [(bearerRule_spares_redactText text).replaceAll_eq]
    _ = redactText text := (serviceRule_spares_redactText text).replaceAll_eq

/-- A value that is marked is the mark, wherever it ends. -/
theorem IsMarked.eq_mark (h : IsMarked text) {front name value rest : List Char}
    (htext : text = front ++ (name ++ '=' :: (value ++ rest))) (hname : name ∈ secretNames)
    (hvalue : IsRun isValueChar value) (hrest : EndsValues rest) :
    value = "[REDACTED]".toList := by
  have hassigned := h _ ⟨front, htext.symm⟩ name hname (value ++ rest) rfl
  rw [takeWhile_append_rest hvalue.all hrest] at hassigned
  exact hassigned.resolve_left hvalue.ne_nil

/-- A line that has been redacted holds no credential behind `Bearer` and no service token, and the
value of a secret parameter in it is the mark. Redacting it again leaves it as it is. -/
theorem redactLine_leaves_marks (line : String) :
    (∀ part, part <:+: (redactLine line).toList → ¬ IsAnnounced part) ∧
    (∀ part, part <:+: (redactLine line).toList → ¬ IsServiceToken part) ∧
    (∀ front name value rest,
      (redactLine line).toList = front ++ (name ++ '=' :: (value ++ rest)) →
      name ∈ secretNames → IsRun isValueChar value → EndsValues rest →
      value = "[REDACTED]".toList) ∧
    redactLine (redactLine line) = redactLine line := by
  have hshown : (redactLine line).toList = redactText line.toList := String.toList_ofList
  rw [hshown]
  refine ⟨?_, ?_, ?_, ?_⟩
  · exact fun part => (bearerRule_spares_redactText _).not_isMatch bearerRule_finds
  · exact fun part => (serviceRule_spares_redactText _).not_isMatch serviceRule_finds
  · exact fun front name value rest => (isMarked_redactText _).eq_mark
  · rw [redactLine, hshown, redactText_redactText, redactLine]

/-- A part of one mark may go into another. -/
example : redactLine "Bearer token=abc" = "Bearer [REDACTED_TOKEN][REDACTED]" := by decide +kernel

end Shown

end ChatDispatch.Redaction
