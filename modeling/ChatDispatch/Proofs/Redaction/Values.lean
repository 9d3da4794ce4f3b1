import ChatDispatch.Proofs.Redaction.Rules

/-!
Values of secret parameters. Whatever stands behind an assignment, up to an ampersand or white
space, belongs to the value and is replaced together with it. So two lines that differ in one such
value only are shown alike, whatever else the value or the line around it looks like.
-/

namespace ChatDispatch.Redaction

open Text

variable {separator : Char} {text : List Char}

/-- A text that ends in the assignment of a value, which may be empty, to a secret parameter. -/
def EndsInAssignment (text : List Char) : Prop :=
  ∃ name ∈ secretNames, ∃ value, (∀ c ∈ value, isValueChar c = true) ∧ name ++ '=' :: value <:+ text

/-- An assignment at the end of a text is not interrupted by a character that ends values. -/
theorem EndsInAssignment.of_append {front rest : List Char} (hchar : isValueChar separator = false)
    (h : EndsInAssignment (front ++ separator :: rest)) : EndsInAssignment rest := by
  obtain ⟨name, hname, value, hvalue, hsuffix⟩ := h
  refine ⟨name, hname, value, hvalue, ?_⟩
  have hall : separator ∉ name ++ '=' :: value := by
    intro hmem
    have hchars : ∀ c ∈ name ++ '=' :: value, isValueChar c = true := by
      intro c hc
      rw [← List.singleton_append, ← List.append_assoc] at hc
      rcases List.mem_append.mp hc with hc | hc
      · exact isValueChar_of_mem_name hname c hc
      · exact hvalue c hc
    rw [hchars separator hmem] at hchar
    cases hchar
  have hrest : separator :: rest <:+ front ++ separator :: rest := List.suffix_append ..
  rcases List.suffix_or_suffix_of_suffix hsuffix hrest with hinside | hinside
  · rcases List.suffix_cons_iff.mp hinside with heq | hinside
    · exact absurd (heq ▸ List.mem_cons_self) hall
    · exact hinside
  · exact absurd (hinside.mem List.mem_cons_self) hall

theorem EndsInAssignment.mono {front : List Char} (h : EndsInAssignment text)
    (hsuffix : text <:+ front) : EndsInAssignment front := by
  obtain ⟨name, hname, value, hvalue, hend⟩ := h
  exact ⟨name, hname, value, hvalue, hend.trans hsuffix⟩

theorem EndsInAssignment.equals_mem (h : EndsInAssignment text) : '=' ∈ text := by
  obtain ⟨name, _, value, _, hsuffix⟩ := h
  exact hsuffix.mem (List.mem_append_right name List.mem_cons_self)

/-- The names begin with different letters, so a text is matched as one of them only. -/
theorem applyParameter_assignment {name : List Char} (hname : name ∈ secretNames) (c : Char)
    (value : List Char) :
    applyParameter (name ++ '=' :: c :: value) =
      if isValueChar c then some (name ++ "=[REDACTED]".toList, value.dropWhile isValueChar)
      else none := by
  simp only [secretNames, List.mem_cons, List.not_mem_nil, or_false] at hname
  rcases hname with rfl | rfl | rfl <;>
    by_cases hc : isValueChar c = true <;>
    simp [applyParameter, secretNames, parameterRest?, dropStart?, hc]

/-- The rule for parameters leaves a name as it is where no value is assigned. -/
theorem parameterRule_replaceAll_name {name : List Char} (hname : name ∈ secretNames) :
    parameterRule.replaceAll (name ++ ['=']) = name ++ ['='] := by
  revert name
  decide +kernel

theorem parameterRule_replaceAll_of_not_mem (h : '=' ∉ text) :
    parameterRule.replaceAll text = text := by
  induction text with
  | nil => exact Rule.replaceAll_nil _
  | cons c rest ih =>
    obtain ⟨-, hrest⟩ := not_or.mp (mt List.mem_cons.mpr h)
    cases happly : parameterRule.apply (c :: rest) with
    | none => rw [Rule.replaceAll_of_none happly, ih hrest]
    | some found =>
      obtain ⟨name, _, hfound, _⟩ := applyParameter_eq_some happly
      obtain ⟨d, value, heq, _, _⟩ := parameterRest?_eq_some_iff.mp hfound
      exact absurd (heq ▸ List.mem_append_right name List.mem_cons_self) h

/-- Where no assignment begins, none is completed by further text, unless its equals sign or all of
its value is in that. -/
theorem applyParameter_append_eq_none {further : List Char} (h : applyParameter text = none)
    (hassigned : ∀ name ∈ secretNames, text ≠ name ++ ['='])
    (hequals : '=' ∈ text ∨ '=' ∉ further) : applyParameter (text ++ further) = none := by
  rw [applyParameter_eq_none_iff] at h ⊢
  intro name hname
  by_contra hsome
  obtain ⟨after, hafter⟩ := Option.ne_none_iff_exists'.mp hsome
  obtain ⟨c, value, hwhole, hc, -⟩ := parameterRest?_eq_some_iff.mp hafter
  rcases List.append_eq_append_iff.mp hwhole with ⟨middle, hstart, hrest⟩ | ⟨middle, hstart, hrest⟩
  · -- the text ends within the name, so the equals sign stands behind it
    have hnot : '=' ∉ text := fun hmem =>
      equals_not_mem_name hname (hstart ▸ List.mem_append_left middle hmem)
    have hmem : '=' ∈ further := hrest ▸ List.mem_append_right middle List.mem_cons_self
    exact hequals.elim hnot fun hfurther => hfurther hmem
  · cases middle with
    | nil =>
      rw [List.append_nil] at hstart
      rw [List.nil_append] at hrest
      have hnot : '=' ∉ text := hstart ▸ equals_not_mem_name hname
      exact hequals.elim hnot fun hfurther => hfurther (hrest ▸ List.mem_cons_self)
    | cons equals middle =>
      obtain ⟨rfl, hvalue⟩ := List.cons.inj hrest
      cases middle with
      | nil => exact hassigned name hname hstart
      | cons d middle =>
        obtain ⟨rfl, -⟩ := List.cons.inj hvalue
        have hfound := parameterRest?_eq_some_iff.mpr ⟨c, middle, hstart, hc, rfl⟩
        rw [h name hname] at hfound
        cases hfound

/-- Where no assignment begins, one that ends the text begins behind the first character. -/
theorem EndsInAssignment.of_cons {c : Char} (h : EndsInAssignment (c :: text))
    (hnone : applyParameter (c :: text) = none)
    (hassigned : ∀ name ∈ secretNames, c :: text ≠ name ++ ['=']) : EndsInAssignment text := by
  obtain ⟨name, hname, value, hvalue, hsuffix⟩ := h
  rcases List.suffix_cons_iff.mp hsuffix with heq | hsuffix
  · cases value with
    | nil => exact absurd heq.symm (hassigned name hname)
    | cons d value =>
      have hfound := parameterRest?_eq_some_iff.mpr
        ⟨d, value, heq.symm, hvalue d List.mem_cons_self, rfl⟩
      rw [applyParameter_eq_none_iff.mp hnone name hname] at hfound
      cases hfound
  · exact ⟨name, hname, value, hvalue, hsuffix⟩

/-- What may follow behind a text, as the rule for parameters sees it: more of a value that the text
assigns at its end, or something of its own. -/
inductive ValueBehind (text : List Char) : Prop
  | going (hends : EndsInAssignment text) (front : List Char)
      (htext : parameterRule.replaceAll text = front ++ ['='] ∨
        parameterRule.replaceAll text = front ++ "=[REDACTED]".toList)
      (hvalue : ∀ value, IsRun isValueChar value →
        parameterRule.replaceAll (text ++ value) = front ++ "=[REDACTED]".toList)
  | ended (hends : ¬ EndsInAssignment text)
      (hfurther : ∀ further, '=' ∉ further →
        parameterRule.replaceAll (text ++ further) = parameterRule.replaceAll text ++ further)

/-- What comes in front of a text, be it replaced or not, is no matter for what follows it. -/
theorem ValueBehind.prepend {whole : List Char} (shown : List Char) (h : ValueBehind text)
    (hsuffix : text <:+ whole) (hends : EndsInAssignment whole → EndsInAssignment text)
    (hshown : ∀ further, '=' ∈ text ∨ '=' ∉ further →
      parameterRule.replaceAll (whole ++ further) =
        shown ++ parameterRule.replaceAll (text ++ further)) : ValueBehind whole := by
  have hnothing := hshown [] (.inr List.not_mem_nil)
  rw [List.append_nil, List.append_nil] at hnothing
  cases h with
  | going hend front htext hvalue =>
    refine .going (hend.mono hsuffix) (shown ++ front) ?_ fun value hrun => ?_
    · rw [hnothing, List.append_assoc, List.append_assoc, List.append_cancel_left_eq,
        List.append_cancel_left_eq]
      exact htext
    · rw [hshown value (.inl hend.equals_mem), hvalue value hrun, List.append_assoc]
  | ended hnot hfurther =>
    refine .ended (fun hend => hnot (hends hend)) fun further hequals => ?_
    rw [hshown further (.inr hequals), hfurther further hequals, hnothing, List.append_assoc]

theorem valueBehind_nil : ValueBehind [] := by
  refine .ended (fun h => List.not_mem_nil h.equals_mem) fun further hequals => ?_
  rw [List.nil_append, Rule.replaceAll_nil, List.nil_append]
  exact parameterRule_replaceAll_of_not_mem hequals

/-- The value of an assignment goes on behind the text if it is the end of it. -/
theorem ValueBehind.of_assignment {name value : List Char} {c : Char} (hname : name ∈ secretNames)
    (hc : isValueChar c = true) (ih : ValueBehind (value.dropWhile isValueChar)) :
    ValueBehind (name ++ '=' :: c :: value) := by
  have hwhole : ∀ further, parameterRule.replaceAll (name ++ '=' :: c :: value ++ further) =
      name ++ "=[REDACTED]".toList ++
        parameterRule.replaceAll ((value ++ further).dropWhile isValueChar) := by
    intro further
    rw [List.append_assoc]
    exact Rule.replaceAll_of_some ((applyParameter_assignment hname c _).trans (if_pos hc))
  cases hafter : value.dropWhile isValueChar with
  | nil =>
    have hall : ∀ d ∈ value, isValueChar d = true := List.dropWhile_eq_nil_iff.mp hafter
    have hshown : ∀ further, (∀ d ∈ further, isValueChar d = true) →
        parameterRule.replaceAll (name ++ '=' :: c :: value ++ further) =
          name ++ "=[REDACTED]".toList := by
      intro further hfurther
      rw [hwhole, List.dropWhile_append_of_pos hall, List.dropWhile_eq_nil_iff.mpr hfurther,
        Rule.replaceAll_nil, List.append_nil]
    have htext := hshown [] (by simp)
    rw [List.append_nil] at htext
    exact .going ⟨name, hname, c :: value, List.forall_mem_cons.mpr ⟨hc, hall⟩, List.suffix_refl _⟩
      name (.inr htext) fun further hfurther => hshown further hfurther.all
  | cons d rest =>
    have hd : isValueChar d = false := eq_false_of_dropWhile_eq_cons hafter
    have hsplit : name ++ '=' :: c :: value =
        name ++ '=' :: c :: value.takeWhile isValueChar ++ d :: rest := by
      rw [← hafter, List.append_assoc, List.cons_append, List.cons_append,
        List.takeWhile_append_dropWhile]
    rw [hafter] at ih
    refine ih.prepend (name ++ "=[REDACTED]".toList) (hsplit ▸ List.suffix_append ..)
      (fun hends => ?_) fun further _ => ?_
    · rw [hsplit] at hends
      exact (hends.of_append hd).mono (List.suffix_cons d rest)
    · rw [hwhole, List.dropWhile_append, hafter]
      rfl

theorem valueBehind (text : List Char) : ValueBehind text := by
  induction text using parameterRule.replaceAll_induction with
  | nil => exact valueBehind_nil
  | replaced text replacement after happly ih =>
    obtain ⟨name, hname, hrest, rfl⟩ := applyParameter_eq_some happly
    obtain ⟨c, value, rfl, hc, rfl⟩ := parameterRest?_eq_some_iff.mp hrest
    exact .of_assignment hname hc ih
  | kept c text happly ih =>
    by_cases hassigned : ∃ name ∈ secretNames, c :: text = name ++ ['=']
    · -- the name stands at the end of the text, so any value is behind it
      obtain ⟨name, hname, heq⟩ := hassigned
      rw [heq]
      refine .going ⟨name, hname, [], by simp, List.suffix_refl _⟩ name
        (.inl (parameterRule_replaceAll_name hname)) fun value hrun => ?_
      obtain ⟨d, value, rfl⟩ := List.exists_cons_of_ne_nil hrun.ne_nil
      obtain ⟨hd, hvalue⟩ := List.forall_mem_cons.mp hrun.all
      have happly := (applyParameter_assignment hname d value).trans (if_pos hd)
      rw [List.append_assoc, List.singleton_append, Rule.replaceAll_of_some happly,
        List.dropWhile_eq_nil_iff.mpr hvalue, Rule.replaceAll_nil, List.append_nil]
    · have hunassigned : ∀ name ∈ secretNames, c :: text ≠ name ++ ['='] :=
        fun name hname heq => hassigned ⟨name, hname, heq⟩
      have hnone : ∀ further, '=' ∈ text ∨ '=' ∉ further →
          applyParameter (c :: (text ++ further)) = none := fun further hequals =>
        applyParameter_append_eq_none happly hunassigned
          (hequals.imp_left (List.mem_cons_of_mem c))
      exact ih.prepend [c] (List.suffix_cons c text)
        (fun hends => hends.of_cons happly hunassigned)
        fun further hequals => Rule.replaceAll_of_none (hnone further hequals)

section Secrecy

def EndsValues (rest : List Char) : Prop := ∀ c ∈ rest.head?, isValueChar c = false

instance (rest : List Char) : Decidable (EndsValues rest) :=
  decidable_of_iff (rest.head?.all (fun c => isValueChar c == false) = true) (by
    simp [EndsValues, Option.all_eq_true])

theorem parameterRule_replaceAll_append {rest : List Char} (h : EndsValues rest)
    (text : List Char) : parameterRule.replaceAll (text ++ rest) =
      parameterRule.replaceAll text ++ parameterRule.replaceAll rest := by
  cases rest with
  | nil => rw [List.append_nil, Rule.replaceAll_nil, List.append_nil]
  | cons separator behind =>
    have hstops := parameterRule_stopsAt (h separator rfl)
    have hbehind := hstops.replaceAll_append [] behind
    rw [List.nil_append, Rule.replaceAll_nil, List.nil_append] at hbehind
    rw [hstops.replaceAll_append, hbehind]

/-- Whatever value an assignment goes on with, the text around it is shown alike. -/
theorem EndsInAssignment.redactText_append (h : EndsInAssignment text)
    {value other rest : List Char} (hvalue : IsRun isValueChar value)
    (hother : IsRun isValueChar other) (hrest : EndsValues rest) :
    redactText (text ++ value ++ rest) = redactText (text ++ other ++ rest) := by
  cases valueBehind text with
  | going _ front _ hshown =>
    rw [redactText, redactText, parameterRule_replaceAll_append hrest,
      parameterRule_replaceAll_append hrest, hshown value hvalue, hshown other hother]
  | ended hnot _ => exact absurd h hnot

/-- Two lines that differ only in the value that one secret parameter is assigned, up to where that
value ends, are shown alike. -/
theorem redactLine_hides_value (front name value other rest : String)
    (hname : name.toList ∈ secretNames) (hvalue : IsRun isValueChar value.toList)
    (hother : IsRun isValueChar other.toList) (hrest : EndsValues rest.toList) :
    redactLine (front ++ name ++ "=" ++ value ++ rest) =
      redactLine (front ++ name ++ "=" ++ other ++ rest) := by
  have hends : EndsInAssignment (front ++ name ++ "=").toList := by
    refine ⟨name.toList, hname, [], by simp, front.toList, ?_⟩
    simp only [String.toList_append, List.append_assoc]
    rfl
  have hline : ∀ value, (front ++ name ++ "=" ++ value ++ rest).toList =
      (front ++ name ++ "=").toList ++ value.toList ++ rest.toList := fun value => by
    rw [String.toList_append, String.toList_append]
  rw [redactLine, redactLine, hline, hline, hends.redactText_append hvalue hother hrest]

/-- A name within a longer one, behind a word that announces a credential, and values that look like
the other secrets. -/
theorem redactLine_nested_secrets :
    redactLine "Bearer access_token=Bearer x&key=y" =
      redactLine "Bearer access_token=key=vk1.a.0123456789abcdef x&key=y" :=
  redactLine_hides_value "Bearer access_" "token" "Bearer" "key=vk1.a.0123456789abcdef" " x&key=y"
    (by decide) (by decide) (by decide) (by decide)

end Secrecy

end ChatDispatch.Redaction
