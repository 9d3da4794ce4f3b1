import ChatDispatch.Redaction.Log
import ChatDispatch.Proofs.Text.Replacement
import Mathlib.Data.List.TakeWhile

/-!
The three rules of the log redaction, one by one. Values of parameters and service tokens hold no
spaces, so these two rules can be applied word by word. A credential stands behind the word `Bearer`
and white space, so the rule for it does nothing up to the first such place.
-/

namespace ChatDispatch.Redaction

open Text

variable {separator : Char} {text replacement after : List Char}

structure IsRun (kind : Char → Bool) (text : List Char) : Prop where
  ne_nil : text ≠ []
  all : ∀ c ∈ text, kind c = true

instance (kind : Char → Bool) (text : List Char) : Decidable (IsRun kind text) :=
  decidable_of_iff (text ≠ [] ∧ text.all kind = true)
    ⟨fun h => ⟨h.1, List.all_eq_true.mp h.2⟩, fun h => ⟨h.ne_nil, List.all_eq_true.mpr h.all⟩⟩

section Parameter

theorem isValueChar_of_mem_name {name : List Char} (hname : name ∈ secretNames) :
    ∀ c ∈ name ++ ['='], isValueChar c = true := by
  have hall : ∀ name ∈ secretNames, (name ++ ['=']).all isValueChar = true := by decide
  exact List.all_eq_true.mp (hall name hname)

theorem equals_not_mem_name {name : List Char} (hname : name ∈ secretNames) : '=' ∉ name := by
  revert name
  decide

theorem parameterRest?_eq_some_iff {name rest : List Char} :
    parameterRest? name text = some rest ↔
      ∃ c value, text = name ++ '=' :: c :: value ∧ isValueChar c = true ∧
        rest = value.dropWhile isValueChar := by
  unfold parameterRest?
  constructor
  · intro h
    split at h
    next c value hdrop =>
      have htext := dropStart?_eq_some_iff.mp hdrop
      split at h
      next hc => exact ⟨c, value, by simpa using htext, hc, (Option.some.inj h).symm⟩
      next => cases h
    next => cases h
  · rintro ⟨c, value, rfl, hc, rfl⟩
    have hdrop : dropStart? (name ++ ['=']) (name ++ '=' :: c :: value) = some (c :: value) :=
      dropStart?_eq_some_iff.mpr (by simp)
    rw [hdrop]
    exact if_pos hc

theorem applyParameter_eq_some (h : applyParameter text = some (replacement, after)) :
    ∃ name ∈ secretNames, parameterRest? name text = some after ∧
      replacement = name ++ "=[REDACTED]".toList := by
  obtain ⟨name, hname, hfound⟩ := List.exists_of_findSome?_eq_some h
  obtain ⟨rest, hrest, hpair⟩ := Option.map_eq_some_iff.mp hfound
  obtain ⟨rfl, rfl⟩ := Prod.mk.inj hpair
  exact ⟨name, hname, hrest, rfl⟩

theorem applyParameter_eq_none_iff :
    applyParameter text = none ↔ ∀ name ∈ secretNames, parameterRest? name text = none := by
  simp [applyParameter, List.findSome?_eq_none_iff]

/-- A value ends where a character is not one of a value. -/
theorem parameterRest?_append_separator {name : List Char} (hname : name ∈ secretNames)
    (h : isValueChar separator = false) (text behind : List Char) :
    parameterRest? name (text ++ separator :: behind) =
      (parameterRest? name text).map (· ++ separator :: behind) := by
  have hnot : separator ∉ name ++ ['='] := by
    intro hmem
    rw [isValueChar_of_mem_name hname separator hmem] at h
    cases h
  unfold parameterRest?
  rw [dropStart?_append_separator hnot]
  cases dropStart? (name ++ ['=']) text with
  | none => rfl
  | some rest =>
    cases rest with
    | nil => simp [h]
    | cons c value =>
      by_cases hc : isValueChar c = true
      · simp [hc, dropWhile_append_separator h]
      · simp [hc]

theorem parameterRule_stopsAt (h : isValueChar separator = false) :
    parameterRule.StopsAt separator := by
  intro text behind
  change applyParameter _ = (applyParameter text).map _
  unfold applyParameter
  have hname : ∀ name ∈ secretNames, parameterRest? name (text ++ separator :: behind) =
      (parameterRest? name text).map (· ++ separator :: behind) :=
    fun name hmem => parameterRest?_append_separator hmem h text behind
  simp only [secretNames, List.forall_mem_cons] at hname
  simp only [secretNames, List.findSome?_cons, hname, Option.map_map]
  cases parameterRest? "access_token".toList text with
  | some rest => rfl
  | none =>
    cases parameterRest? "token".toList text with
    | some rest => rfl
    | none => cases parameterRest? "key".toList text <;> rfl

theorem parameterRule_stopsAt_space : parameterRule.StopsAt ' ' :=
  parameterRule_stopsAt (by decide)

theorem suffix_of_applyParameter (h : applyParameter text = some (replacement, after)) :
    after <:+ text := by
  obtain ⟨name, _, hrest, _⟩ := applyParameter_eq_some h
  obtain ⟨c, value, rfl, _, rfl⟩ := parameterRest?_eq_some_iff.mp hrest
  obtain ⟨front, hfront⟩ := List.dropWhile_suffix isValueChar (l := value)
  exact ⟨name ++ '=' :: c :: front, by simp [hfront]⟩

theorem not_mem_replacement_of_applyParameter
    (h : applyParameter text = some (replacement, after)) :
    ' ' ∉ replacement ∧ 'B' ∉ replacement := by
  obtain ⟨name, hname, -, rfl⟩ := applyParameter_eq_some h
  clear h
  revert name
  decide

theorem head?_parameterRule_replaceAll (text : List Char) :
    (parameterRule.replaceAll text).head? = text.head? := by
  refine Rule.head?_replaceAll (fun text replacement after happly => ?_) text
  obtain ⟨name, hname, hrest, rfl⟩ := applyParameter_eq_some happly
  obtain ⟨_, _, rfl, _⟩ := parameterRest?_eq_some_iff.mp hrest
  cases name with
  | nil => exact absurd hname (by decide)
  | cons c name => rfl

end Parameter

section Service

def IsServiceToken (part : List Char) : Prop :=
  ∃ value, serviceLength ≤ value.length ∧ (∀ c ∈ value, isServiceChar c = true) ∧
    part = "vk1.a.".toList ++ value

theorem applyService_eq_some (h : applyService text = some (replacement, after)) :
    ∃ rest, text = "vk1.a.".toList ++ rest ∧
      serviceLength ≤ (rest.takeWhile isServiceChar).length ∧
      replacement = "[REDACTED_TOKEN]".toList ∧ after = rest.dropWhile isServiceChar := by
  unfold applyService at h
  split at h
  next rest hdrop =>
    split at h
    next hlength =>
      obtain ⟨rfl, rfl⟩ := Prod.mk.inj (Option.some.inj h)
      exact ⟨rest, dropStart?_eq_some_iff.mp hdrop, hlength, rfl, rfl⟩
    next => cases h
  next => cases h

theorem exists_isServiceToken_of_applyService
    (h : applyService text = some (replacement, after)) :
    ∃ part, IsServiceToken part ∧ text = part ++ after := by
  obtain ⟨rest, rfl, hlength, -, rfl⟩ := applyService_eq_some h
  refine ⟨"vk1.a.".toList ++ rest.takeWhile isServiceChar, ⟨_, hlength, ?_, rfl⟩, ?_⟩
  · exact fun c hc => List.mem_takeWhile_imp hc
  · rw [List.append_assoc, List.takeWhile_append_dropWhile]

theorem applyService_ne_none_of_isServiceToken {part : List Char} (rest : List Char)
    (h : IsServiceToken part) : applyService (part ++ rest) ≠ none := by
  obtain ⟨value, hlength, hvalue, rfl⟩ := h
  have hdrop : dropStart? "vk1.a.".toList ("vk1.a.".toList ++ value ++ rest) =
      some (value ++ rest) := dropStart?_eq_some_iff.mpr (List.append_assoc ..)
  have henough : serviceLength ≤ ((value ++ rest).takeWhile isServiceChar).length := by
    rw [List.takeWhile_append_of_pos hvalue, List.length_append]
    omega
  rw [applyService, hdrop]
  simp only [henough, if_true]
  exact Option.some_ne_none _

theorem serviceRule_stopsAt (hstart : separator ∉ "vk1.a.".toList)
    (hchar : isServiceChar separator = false) : serviceRule.StopsAt separator := by
  intro text behind
  change applyService _ = (applyService text).map _
  unfold applyService
  rw [dropStart?_append_separator hstart]
  cases dropStart? "vk1.a.".toList text with
  | none => rfl
  | some rest =>
    simp only [Option.map_some, takeWhile_append_separator hchar,
      dropWhile_append_separator hchar]
    split <;> rfl

theorem serviceRule_stopsAt_space : serviceRule.StopsAt ' ' :=
  serviceRule_stopsAt (by decide) (by decide)

theorem suffix_of_applyService (h : applyService text = some (replacement, after)) :
    ' ' ∉ replacement ∧ after <:+ text := by
  obtain ⟨rest, rfl, -, rfl, rfl⟩ := applyService_eq_some h
  exact ⟨by decide, (List.dropWhile_suffix isServiceChar).trans (List.suffix_append _ rest)⟩

end Service

section Bearer

/-- Somewhere the word `Bearer` is directly followed by white space. -/
def AnnouncesCredential (text : List Char) : Prop :=
  ∃ blank, isBlank blank = true ∧ "Bearer".toList ++ [blank] <:+: text

theorem AnnouncesCredential.mono {further : List Char} (h : AnnouncesCredential text)
    (hwithin : text <:+: further) : AnnouncesCredential further := by
  obtain ⟨blank, hblank, hmark⟩ := h
  exact ⟨blank, hblank, hmark.trans hwithin⟩

theorem not_announces_of_not_mem (h : 'B' ∉ text) : ¬ AnnouncesCredential text := by
  rintro ⟨blank, _, hmark⟩
  exact h (hmark.mem List.mem_cons_self)

theorem applyBearer_eq_some (h : applyBearer text = some (replacement, after)) :
    ∃ blank rest c value, text = "Bearer".toList ++ blank :: rest ∧ isBlank blank = true ∧
      rest.dropWhile isBlank = c :: value ∧ isCredentialChar c = true ∧
      replacement = "Bearer [REDACTED_TOKEN]".toList ∧
      after = (value.dropWhile isCredentialChar).dropWhile (· == '=') := by
  unfold applyBearer at h
  split at h
  next blank rest hdrop =>
    split at h
    next hblank =>
      split at h
      next c value hvalue =>
        split at h
        next hc =>
          obtain ⟨rfl, rfl⟩ := Prod.mk.inj (Option.some.inj h)
          have htext := dropStart?_eq_some_iff.mp hdrop
          exact ⟨blank, rest, c, value, htext, hblank, hvalue, hc, rfl, rfl⟩
        next => cases h
      next => cases h
    next => cases h
  next => cases h

theorem isBlank_of_isAlphanum {c : Char} (h : c.isAlphanum = true) : isBlank c = false := by
  delta Char.isAlphanum Char.isAlpha Char.isUpper Char.isLower Char.isDigit at h
  simp only [Bool.or_eq_true, Bool.and_eq_true, decide_eq_true_eq, UInt32.le_iff_toNat_le,
    ge_iff_le, Char.reduceVal, UInt32.reduceToNat, Char.toNat_val] at h
  simp only [isBlank, Bool.or_eq_false_iff, Bool.and_eq_false_iff, decide_eq_false_iff_not,
    beq_eq_false_iff_ne]
  omega

theorem isBlank_of_isCredentialChar {c : Char} (h : isCredentialChar c = true) :
    isBlank c = false := by
  simp only [isCredentialChar, Bool.or_eq_true, beq_iff_eq] at h
  rcases h with (((((h | rfl) | rfl) | rfl) | rfl) | rfl) | rfl
  · exact isBlank_of_isAlphanum h
  all_goals rfl

/-- The word that announces a credential holds no white space. -/
theorem not_mem_bearer_of_isBlank {blank : Char} (h : isBlank blank = true) :
    blank ∉ "Bearer".toList := by
  have hall : ("Bearer".toList.all fun c => !isBlank c) = true := by decide
  intro hmem
  have hnot := List.all_eq_true.mp hall blank hmem
  rw [h] at hnot
  cases hnot

/-- What a credential announced at the start of a text leaves behind it. -/
theorem applyBearer_bearer {blanks rest : List Char} {c : Char} (hblanks : IsRun isBlank blanks)
    (hc : isCredentialChar c = true) :
    applyBearer ("Bearer".toList ++ (blanks ++ c :: rest)) =
      some ("Bearer [REDACTED_TOKEN]".toList,
        (rest.dropWhile isCredentialChar).dropWhile (· == '=')) := by
  obtain ⟨blank, blanks, rfl⟩ := List.exists_cons_of_ne_nil hblanks.ne_nil
  obtain ⟨hblank, hblanks⟩ := List.forall_mem_cons.mp hblanks.all
  have hdrop : dropStart? "Bearer".toList ("Bearer".toList ++ (blank :: blanks ++ c :: rest)) =
      some (blank :: (blanks ++ c :: rest)) := dropStart?_eq_some_iff.mpr rfl
  have hbegins : (blanks ++ c :: rest).dropWhile isBlank = c :: rest :=
    dropWhile_append_rest hblanks fun d hd => by
      obtain rfl : c = d := Option.some.inj hd
      exact isBlank_of_isCredentialChar hc
  rw [applyBearer, hdrop]
  simp only [hblank, hbegins, hc, if_true]

/-- A credential as it is announced: the word `Bearer`, white space, the credential itself and the
equals signs that pad it. -/
def IsAnnounced (part : List Char) : Prop :=
  ∃ blanks credential padding, IsRun isBlank blanks ∧ IsRun isCredentialChar credential ∧
    (∀ c ∈ padding, c = '=') ∧ part = "Bearer".toList ++ (blanks ++ (credential ++ padding))

theorem exists_isAnnounced_of_applyBearer
    (h : applyBearer text = some (replacement, after)) :
    ∃ part, IsAnnounced part ∧ text = part ++ after := by
  obtain ⟨blank, rest, c, value, rfl, hblank, hvalue, hc, -, rfl⟩ := applyBearer_eq_some h
  have hkinds : ∀ {kind : Char → Bool} {text : List Char},
      ∀ d ∈ text.takeWhile kind, kind d = true :=
    fun _ hd => List.mem_takeWhile_imp hd
  refine ⟨_, ⟨blank :: rest.takeWhile isBlank, c :: value.takeWhile isCredentialChar,
    (value.dropWhile isCredentialChar).takeWhile (· == '='), ⟨List.cons_ne_nil _ _, ?_⟩,
    ⟨List.cons_ne_nil _ _, ?_⟩, ?_, rfl⟩, ?_⟩
  · exact List.forall_mem_cons.mpr ⟨hblank, hkinds⟩
  · exact List.forall_mem_cons.mpr ⟨hc, hkinds⟩
  · exact fun d hd => eq_of_beq (hkinds d hd)
  · simp only [List.append_assoc, List.cons_append, List.takeWhile_append_dropWhile, ← hvalue]

theorem applyBearer_ne_none_of_isAnnounced {part rest : List Char} (h : IsAnnounced part) :
    applyBearer (part ++ rest) ≠ none := by
  obtain ⟨blanks, credential, padding, hblanks, hcredential, _, rfl⟩ := h
  obtain ⟨c, credential, rfl⟩ := List.exists_cons_of_ne_nil hcredential.ne_nil
  have hc := hcredential.all c List.mem_cons_self
  simp only [List.append_assoc, List.cons_append]
  rw [applyBearer_bearer hblanks hc]
  exact Option.some_ne_none _

/-- The space that ends a text is white space behind `Bearer` only if that word is all of it, or the
text announces a credential itself. -/
theorem eq_bearer_of_append {blank : Char} {behind value : List Char}
    (h : ¬ AnnouncesCredential text) (hblank : isBlank blank = true)
    (heq : text ++ ' ' :: behind = "Bearer".toList ++ blank :: value) : text = "Bearer".toList := by
  rcases List.append_eq_append_iff.mp heq with ⟨middle, hbearer, hrest⟩ | ⟨middle, htext, hrest⟩
  · cases middle with
    | nil => rw [hbearer, List.append_nil]
    | cons c middle =>
      obtain rfl : ' ' = c := (List.cons.inj hrest).1
      have hspace : ' ' ∉ "Bearer".toList := by decide
      exact absurd (hbearer ▸ List.mem_append_right text List.mem_cons_self) hspace
  · cases middle with
    | nil => rw [htext, List.append_nil]
    | cons c middle =>
      obtain rfl : blank = c := (List.cons.inj hrest).1
      refine absurd ⟨blank, hblank, [], middle, ?_⟩ h
      rw [htext, List.nil_append, List.append_assoc, List.singleton_append]

/-- A text that announces no credential is left as it is, also in front of further text. Only if
the word `Bearer` is its end, what follows behind a space may be taken for a credential. -/
theorem bearerRule_replaceAll_append (h : ¬ AnnouncesCredential text) (behind : List Char) :
    ∃ further, bearerRule.replaceAll (text ++ ' ' :: behind) = text ++ ' ' :: further ∧
      (¬ "Bearer".toList <:+ text → further = bearerRule.replaceAll behind) := by
  induction text with
  | nil =>
    have hnone : bearerRule.apply (' ' :: behind) = none := rfl
    exact ⟨_, Rule.replaceAll_of_none hnone, fun _ => rfl⟩
  | cons c rest ih =>
    cases happly : bearerRule.apply (c :: rest ++ ' ' :: behind) with
    | none =>
      have hrest : ¬ AnnouncesCredential rest :=
        fun hmark => h (hmark.mono (List.suffix_cons c rest).isInfix)
      obtain ⟨further, hfurther, hend⟩ := ih hrest
      rw [List.cons_append] at happly ⊢
      refine ⟨further, ?_, fun hnot => hend fun hsuffix => hnot ?_⟩
      · rw [Rule.replaceAll_of_none happly, hfurther, List.cons_append]
      · exact hsuffix.trans (List.suffix_cons c rest)
    | some found =>
      obtain ⟨blank, value, _, _, heq, hblank, _, _, hreplacement, _⟩ := applyBearer_eq_some happly
      have hword := eq_bearer_of_append h hblank heq
      refine ⟨"[REDACTED_TOKEN]".toList ++ bearerRule.replaceAll found.2, ?_, fun hnot => ?_⟩
      · rw [Rule.replaceAll_of_some happly, hreplacement, hword]
        rfl
      · exact absurd (hword ▸ List.suffix_refl _) hnot

theorem bearerRule_replaceAll (h : ¬ AnnouncesCredential text) :
    bearerRule.replaceAll text = text := by
  induction text with
  | nil => exact Rule.replaceAll_nil _
  | cons c rest ih =>
    cases happly : bearerRule.apply (c :: rest) with
    | none =>
      rw [Rule.replaceAll_of_none happly,
        ih fun hmark => h (hmark.mono (List.suffix_cons c rest).isInfix)]
    | some found =>
      obtain ⟨blank, value, _, _, heq, hblank, _⟩ := applyBearer_eq_some happly
      refine absurd ⟨blank, hblank, [], value, ?_⟩ h
      rw [heq, List.nil_append, List.append_assoc, List.singleton_append]

end Bearer

section Order

/-- What starts with a word that has no equals sign has started with it before the values of
parameters were replaced. -/
theorem prefix_of_prefix_replaceAll {word : List Char} (hword : '=' ∉ word)
    (h : word <+: parameterRule.replaceAll text) : word <+: text := by
  induction text using parameterRule.replaceAll_induction generalizing word with
  | nil => rwa [Rule.replaceAll_nil] at h
  | replaced text replacement after happly ih =>
    obtain ⟨name, _, hrest, rfl⟩ := applyParameter_eq_some happly
    obtain ⟨c, value, rfl, _, _⟩ := parameterRest?_eq_some_iff.mp hrest
    rw [Rule.replaceAll_of_some happly] at h
    have hname : name <+: name ++ "=[REDACTED]".toList ++ parameterRule.replaceAll after :=
      ⟨_, (List.append_assoc ..).symm⟩
    rcases List.prefix_or_prefix_of_prefix h hname with hbegins | ⟨further, rfl⟩
    · exact hbegins.trans (List.prefix_append ..)
    · cases further with
      | nil => simp
      | cons d further =>
        rw [List.append_assoc, List.prefix_append_right_inj] at h
        obtain ⟨rfl, -⟩ := List.cons_prefix_cons.mp h
        exact absurd (List.mem_append_right name List.mem_cons_self) hword
  | kept c text happly ih =>
    rw [Rule.replaceAll_of_none happly] at h
    cases word with
    | nil => exact List.nil_prefix
    | cons d word =>
      obtain ⟨rfl, hrest⟩ := List.cons_prefix_cons.mp h
      obtain ⟨hd, hword⟩ := not_or.mp (mt List.mem_cons.mpr hword)
      exact List.cons_prefix_cons.mpr ⟨rfl, ih hword hrest⟩

/-- What is in a text behind a part that does not hold its first character is behind that part. -/
theorem infix_of_infix_append {c : Char} {word front rest : List Char} (hc : c ∉ front)
    (h : c :: word <:+: front ++ rest) : c :: word <:+: rest := by
  induction front with
  | nil => exact h
  | cons d front ih =>
    obtain ⟨hd, hfront⟩ := not_or.mp (mt List.mem_cons.mpr hc)
    rcases List.infix_cons_iff.mp h with hbegins | hwithin
    · exact absurd (List.cons_prefix_cons.mp hbegins).1 hd
    · exact ih hfront hwithin

theorem infix_of_append_infix {c : Char} {word front rest : List Char} (hc : c ∉ rest)
    (h : word ++ [c] <:+: front ++ rest) : word ++ [c] <:+: front := by
  rw [← List.reverse_infix, List.reverse_append, List.reverse_append] at h
  have hback := infix_of_infix_append (mt List.mem_reverse.mp hc) h
  rwa [← List.reverse_infix, List.reverse_append]

/-- The rule for parameters makes no text announce a credential that did not before. -/
theorem AnnouncesCredential.of_replaceAll
    (h : AnnouncesCredential (parameterRule.replaceAll text)) :
    AnnouncesCredential text := by
  induction text using parameterRule.replaceAll_induction with
  | nil => rwa [Rule.replaceAll_nil] at h
  | replaced text replacement after happly ih =>
    obtain ⟨blank, hblank, hmark⟩ := h
    rw [Rule.replaceAll_of_some happly] at hmark
    have hafter := infix_of_infix_append (not_mem_replacement_of_applyParameter happly).2 hmark
    exact (ih ⟨blank, hblank, hafter⟩).mono (suffix_of_applyParameter happly).isInfix
  | kept c text happly ih =>
    obtain ⟨blank, hblank, hmark⟩ := h
    rw [Rule.replaceAll_of_none happly] at hmark
    rcases List.infix_cons_iff.mp hmark with hbegins | hwithin
    · have hequals : '=' ∉ "Bearer".toList ++ [blank] := by
        intro hmem
        rcases List.mem_append.mp hmem with hmem | hmem
        · exact absurd hmem (by decide)
        · rw [← List.mem_singleton.mp hmem] at hblank
          exact absurd hblank (by decide)
      rw [← Rule.replaceAll_of_none happly] at hbegins
      exact ⟨blank, hblank, (prefix_of_prefix_replaceAll hequals hbegins).isInfix⟩
    · exact (ih ⟨blank, hblank, hwithin⟩).mono (List.suffix_cons c text).isInfix

end Order

end ChatDispatch.Redaction
