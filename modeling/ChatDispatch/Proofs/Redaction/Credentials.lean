import ChatDispatch.Proofs.Redaction.Values

/-!
Credentials behind the word `Bearer`. The rule for them sees only what the rule for parameters has
left, and goes on behind the end of each match. So a credential is hidden just where the word that
announces it is still there when it is its turn: it may have gone before as a part of a value, or as
a credential that an earlier `Bearer` has announced.
-/

namespace ChatDispatch.Redaction

open Text

variable {text : List Char}

section Match

theorem isCredentialChar_of_isBlank {c : Char} (h : isBlank c = true) :
    isCredentialChar c = false :=
  Bool.eq_false_iff.mpr fun hchar => by simp [isBlank_of_isCredentialChar hchar] at h

theorem beq_equals_of_isBlank {c : Char} (h : isBlank c = true) : (c == '=') = false :=
  beq_false_of_ne fun heq => absurd (heq ▸ h) (by decide)

def EndsCredential (rest : List Char) : Prop := ∀ c ∈ rest.head?, isBlank c = true

instance (rest : List Char) : Decidable (EndsCredential rest) :=
  decidable_of_iff (rest.head?.all isBlank = true) (by simp [EndsCredential, Option.all_eq_true])

theorem endsCredential_nil : EndsCredential [] := by decide

theorem applyBearer_announced {blanks credential rest : List Char} (hblanks : IsRun isBlank blanks)
    (hcredential : IsRun isCredentialChar credential) (hrest : EndsCredential rest) :
    applyBearer ("Bearer".toList ++ (blanks ++ (credential ++ rest))) =
      some ("Bearer [REDACTED_TOKEN]".toList, rest) := by
  obtain ⟨c, credential, rfl⟩ := List.exists_cons_of_ne_nil hcredential.ne_nil
  obtain ⟨hc, hcredential⟩ := List.forall_mem_cons.mp hcredential.all
  have hends : (credential ++ rest).dropWhile isCredentialChar = rest :=
    dropWhile_append_rest hcredential fun d hd => isCredentialChar_of_isBlank (hrest d hd)
  have hpadding : rest.dropWhile (· == '=') = rest :=
    @dropWhile_append_rest (· == '=') [] rest (by simp)
      fun d hd => beq_equals_of_isBlank (hrest d hd)
  rw [List.cons_append, applyBearer_bearer hblanks hc, hends, hpadding]

/-- In front of white space a match is the one of the text alone, unless the text is the word that
announces a credential, or ends in white space itself. -/
theorem applyBearer_append_blank {blank : Char} (hblank : isBlank blank = true)
    (hword : text ≠ "Bearer".toList) (hlast : ∀ c ∈ text.getLast?, isBlank c = false)
    (behind : List Char) :
    applyBearer (text ++ blank :: behind) =
      (applyBearer text).map fun found => (found.1, found.2 ++ blank :: behind) := by
  rw [applyBearer, applyBearer, dropStart?_append_separator (not_mem_bearer_of_isBlank hblank)]
  cases hdrop : dropStart? "Bearer".toList text with
  | none => rfl
  | some rest =>
    have htext := dropStart?_eq_some_iff.mp hdrop
    cases rest with
    | nil => exact absurd (htext.trans (List.append_nil _)) hword
    | cons b rest =>
      by_cases hb : isBlank b = true
      · cases hvalue : rest.dropWhile isBlank with
        | nil =>
          have hblanks : ∀ c ∈ b :: rest, isBlank c = true :=
            List.forall_mem_cons.mpr ⟨hb, List.dropWhile_eq_nil_iff.mp hvalue⟩
          have hend : text.getLast? = some ((b :: rest).getLast (List.cons_ne_nil b rest)) := by
            rw [htext, List.getLast?_append,
              List.getLast?_eq_some_getLast (List.cons_ne_nil b rest)]
            rfl
          have hlastblank := hblanks _ (List.getLast_mem (List.cons_ne_nil b rest))
          rw [hlast _ hend] at hlastblank
          cases hlastblank
        | cons c value =>
          have hbehind : (rest ++ blank :: behind).dropWhile isBlank =
              c :: (value ++ blank :: behind) := by
            rw [List.dropWhile_append, hvalue]
            rfl
          by_cases hc : isCredentialChar c = true
          · simp [hb, hvalue, hbehind, hc,
              dropWhile_append_separator (isCredentialChar_of_isBlank hblank),
              dropWhile_append_separator (p := (· == '=')) (beq_equals_of_isBlank hblank)]
          · simp [hb, hvalue, hbehind, hc]
      · simp [hb]

end Match

section Announcement

/-- What stands behind a text, as the rule for credentials sees it: a credential that the last word
of the text announces, or something that is no matter of the text. -/
inductive CredentialBehind (text : List Char) : Prop
  | announced (front : List Char)
      (htext : bearerRule.replaceAll text = front ++ "Bearer".toList)
      (hshown : ∀ blanks credential rest, IsRun isBlank blanks → IsRun isCredentialChar credential →
        EndsCredential rest → bearerRule.replaceAll (text ++ (blanks ++ (credential ++ rest))) =
          front ++ "Bearer [REDACTED_TOKEN]".toList ++ bearerRule.replaceAll rest)
  | apart (hends : ¬ "Bearer".toList <:+ bearerRule.replaceAll text)
      (hshown : ∀ blank behind, isBlank blank = true →
        bearerRule.replaceAll (text ++ blank :: behind) =
          bearerRule.replaceAll text ++ bearerRule.replaceAll (blank :: behind))

/-- What comes in front of a text, be it replaced or not, is no matter for what stands behind it. -/
theorem CredentialBehind.prepend {whole : List Char} (shown : List Char)
    (h : CredentialBehind text)
    (hends : "Bearer".toList <:+ shown ++ bearerRule.replaceAll text →
      "Bearer".toList <:+ bearerRule.replaceAll text)
    (htext : bearerRule.replaceAll whole = shown ++ bearerRule.replaceAll text)
    (hshown : ∀ blank behind, isBlank blank = true →
      bearerRule.replaceAll (whole ++ blank :: behind) =
        shown ++ bearerRule.replaceAll (text ++ blank :: behind)) : CredentialBehind whole := by
  cases h with
  | announced front hfront hannounced =>
    refine .announced (shown ++ front) (by rw [htext, hfront, List.append_assoc]) ?_
    intro blanks credential rest hblanks hcredential hrest
    have hbehind := hannounced blanks credential rest hblanks hcredential hrest
    obtain ⟨blank, more, rfl⟩ := List.exists_cons_of_ne_nil hblanks.ne_nil
    have hwhole := hshown blank (more ++ (credential ++ rest))
      (hblanks.all blank List.mem_cons_self)
    rw [List.cons_append] at hbehind ⊢
    rw [hwhole, hbehind]
    simp only [List.append_assoc]
  | apart hnot hapart =>
    refine .apart (fun h => hnot (hends (htext ▸ h))) fun blank behind hblank => ?_
    rw [hshown blank behind hblank, hapart blank behind hblank, htext, List.append_assoc]

theorem mem_bracket_of_applyBearer {replacement after : List Char}
    (h : applyBearer text = some (replacement, after)) :
    '[' ∈ replacement ∧ replacement.getLast? = some ']' := by
  obtain ⟨_, _, _, _, _, _, _, _, rfl, _⟩ := applyBearer_eq_some h
  decide

theorem applyBearer_word : applyBearer "Bearer".toList = none := by decide

theorem getLast?_of_suffix {c : Char} {after : List Char} (h : after <:+ text)
    (hlast : c ∈ after.getLast?) : c ∈ text.getLast? := by
  obtain ⟨start, rfl⟩ := List.getLast?_eq_some_iff.mp hlast
  obtain ⟨front, rfl⟩ := h
  simp

/-- Behind a text that does not end in white space, white space begins either what the text
announces or something apart from it. -/
theorem credentialBehind (hlast : ∀ c ∈ text.getLast?, isBlank c = false) :
    CredentialBehind text := by
  induction text using bearerRule.replaceAll_induction with
  | nil =>
    refine .apart (by simp) fun blank behind _ => ?_
    rw [List.nil_append, Rule.replaceAll_nil, List.nil_append]
  | replaced text replacement after happly ih =>
    obtain ⟨part, -, htext⟩ := exists_isAnnounced_of_applyBearer happly
    have hafter : after <:+ text := ⟨part, htext.symm⟩
    have hword : text ≠ "Bearer".toList := by
      rintro rfl
      cases applyBearer_word.symm.trans happly
    refine (ih fun c hc => hlast c (getLast?_of_suffix hafter hc)).prepend replacement ?_
      (Rule.replaceAll_of_some happly) fun blank behind hblank => ?_
    · exact suffix_of_suffix_append (mem_bracket_of_applyBearer happly).2 (by decide)
    · have hwhole := applyBearer_append_blank hblank hword hlast behind
      rw [show applyBearer text = _ from happly] at hwhole
      exact Rule.replaceAll_of_some hwhole
  | kept c text happly ih =>
    by_cases hword : c :: text = "Bearer".toList
    · rw [hword]
      refine .announced [] (by decide +kernel) ?_
      intro blanks credential rest hblanks hcredential hrest
      exact Rule.replaceAll_of_some (applyBearer_announced hblanks hcredential hrest)
    · have hbehind := ih fun d hd => hlast d (getLast?_of_suffix (List.suffix_cons c text) hd)
      refine hbehind.prepend [c] ?_
        (Rule.replaceAll_of_none happly) fun blank behind hblank => ?_
      · intro hends
        rcases List.suffix_cons_iff.mp hends with heq | hends
        · -- the word is shown, so nothing was replaced and it is all of the text
          replace heq := heq.trans (Rule.replaceAll_of_none happly).symm
          have hnot : '[' ∉ bearerRule.replaceAll (c :: text) := by
            rw [← heq]
            decide
          have hshown : bearerRule.replaceAll (c :: text) = c :: text :=
            Rule.replaceAll_eq_of_not_mem (fun _ _ _ h => (mem_bracket_of_applyBearer h).1) hnot
          exact absurd (hshown.symm.trans heq.symm) hword
        · exact hends
      · have hwhole := applyBearer_append_blank hblank hword hlast behind
        rw [show applyBearer (c :: text) = none from happly] at hwhole
        exact Rule.replaceAll_of_none hwhole

end Announcement

section Secrecy

/-- The word `Bearer` behind a text is still there when the rules for parameters and for credentials
have gone over both. -/
def AnnouncementStands (front : String) : Prop :=
  "Bearer".toList <:+
    bearerRule.replaceAll (parameterRule.replaceAll (front.toList ++ "Bearer".toList))

/-- The rule for parameters leaves no white space at the end of the word that announces a
credential, be it kept there or not. -/
theorem isBlank_getLast?_announcement (front : List Char) :
    ∀ c ∈ (parameterRule.replaceAll (front ++ "Bearer".toList)).getLast?, isBlank c = false := by
  have hlast : (parameterRule.replaceAll (front ++ "Bearer".toList)).getLast? = some ']' ∨
      (parameterRule.replaceAll (front ++ "Bearer".toList)).getLast? = some 'r' := by
    cases valueBehind front with
    | going _ shown _ hvalue =>
      rw [hvalue _ (by decide), List.getLast?_append]
      exact .inl rfl
    | ended _ hfurther =>
      rw [hfurther _ (by decide), List.getLast?_append]
      exact .inr rfl
  intro c hc
  rcases hlast with hlast | hlast <;>
  · rw [hlast] at hc
    obtain rfl := Option.some.inj hc
    rfl

theorem EndsCredential.endsValues {rest : List Char} (h : EndsCredential rest) :
    EndsValues rest := by
  intro c hc
  simp [isValueChar, h c hc]

/-- The rule for parameters does nothing between the word that announces a credential and the end of
that credential. -/
theorem parameterRule_replaceAll_announced {blanks credential rest : List Char}
    (hblanks : IsRun isBlank blanks) (hcredential : IsRun isCredentialChar credential)
    (hrest : EndsCredential rest) (front : List Char) :
    parameterRule.replaceAll (front ++ (blanks ++ (credential ++ rest))) =
      parameterRule.replaceAll front ++
        (blanks ++ (credential ++ parameterRule.replaceAll rest)) := by
  have hequals : '=' ∉ blanks ++ credential := by
    intro hmem
    rcases List.mem_append.mp hmem with hmem | hmem
    · exact absurd (hblanks.all _ hmem) (by decide)
    · exact absurd (hcredential.all _ hmem) (by decide)
  have hends : EndsValues (blanks ++ credential) := by
    obtain ⟨blank, more, rfl⟩ := List.exists_cons_of_ne_nil hblanks.ne_nil
    intro c hc
    obtain rfl : blank = c := Option.some.inj hc
    simp [isValueChar, hblanks.all blank List.mem_cons_self]
  have hassoc : ∀ rest, blanks ++ (credential ++ rest) = (blanks ++ credential) ++ rest :=
    fun rest => (List.append_assoc ..).symm
  rw [hassoc, hassoc, ← List.append_assoc, parameterRule_replaceAll_append hrest.endsValues,
    parameterRule_replaceAll_append hends, parameterRule_replaceAll_of_not_mem hequals,
    List.append_assoc]

/-- What is shown of a line with a credential does not depend on the credential, if the word that
announces it stands. -/
theorem AnnouncementStands.exists_shown {front : String} (h : AnnouncementStands front) :
    ∃ shown : List Char, ∀ blanks credential rest : List Char, IsRun isBlank blanks →
      IsRun isCredentialChar credential → EndsCredential rest →
      redactText (front.toList ++ "Bearer".toList ++ (blanks ++ (credential ++ rest))) =
        serviceRule.replaceAll
          (shown ++ bearerRule.replaceAll (parameterRule.replaceAll rest)) := by
  cases credentialBehind (isBlank_getLast?_announcement front.toList) with
  | announced shown _ hshown =>
    refine ⟨shown ++ "Bearer [REDACTED_TOKEN]".toList, ?_⟩
    intro blanks credential rest hblanks hcredential hrest
    have hrest' : EndsCredential (parameterRule.replaceAll rest) := by
      rwa [EndsCredential, head?_parameterRule_replaceAll]
    rw [redactText, parameterRule_replaceAll_announced hblanks hcredential hrest,
      hshown _ _ _ hblanks hcredential hrest']
  | apart hnot _ => exact absurd h hnot

/-- A credential of one character is shown behind a word that does not stand. -/
theorem exists_shown_of_not_announcementStands {front : String}
    (h : ¬ AnnouncementStands front) :
    ∃ shown : List Char, ∀ c, isCredentialChar c = true →
      redactText (front.toList ++ "Bearer".toList ++ [' ', c]) = shown ++ [' ', c] := by
  cases credentialBehind (isBlank_getLast?_announcement front.toList) with
  | announced shown htext _ => exact absurd ⟨shown, htext.symm⟩ h
  | apart _ hshown =>
    refine ⟨serviceRule.replaceAll (bearerRule.replaceAll
      (parameterRule.replaceAll (front.toList ++ "Bearer".toList))), fun c hc => ?_⟩
    have hblank : IsRun isBlank [' '] := by decide
    have hcredential : IsRun isCredentialChar [c] :=
      ⟨List.cons_ne_nil c [], List.forall_mem_singleton.mpr hc⟩
    have hparameter := parameterRule_replaceAll_announced hblank hcredential
      endsCredential_nil (front.toList ++ "Bearer".toList)
    rw [Rule.replaceAll_nil, List.append_nil, List.singleton_append] at hparameter
    have hbearer : bearerRule.replaceAll [' ', c] = [' ', c] := by
      have hnone : bearerRule.apply [c] = none := by
        simp [bearerRule, applyBearer, dropStart?]
      rw [Rule.replaceAll_of_none rfl, Rule.replaceAll_of_none hnone, Rule.replaceAll_nil]
    have hservice : serviceRule.replaceAll [c] = [c] := by
      have hnone : serviceRule.apply [c] = none := by
        simp [serviceRule, applyService, dropStart?]
      rw [Rule.replaceAll_of_none hnone, Rule.replaceAll_nil]
    rw [redactText, hparameter, hshown ' ' [c] rfl, hbearer,
      serviceRule_stopsAt_space.replaceAll_append, hservice]

/-- The word `Bearer` stands unless the text in front of it ends in an assignment to a secret
parameter, or announces a credential itself. -/
theorem announcementStands_of_not_announces {front : String}
    (hends : ¬ EndsInAssignment front.toList) (hannounces : ¬ AnnouncesCredential front.toList) :
    AnnouncementStands front := by
  cases valueBehind front.toList with
  | going hends' _ _ _ => exact absurd hends' hends
  | ended _ hfurther =>
    rw [AnnouncementStands, hfurther _ (by decide), bearerRule_replaceAll]
    · exact List.suffix_append _ _
    · rintro ⟨blank, hblank, hmark⟩
      have hfront : AnnouncesCredential (parameterRule.replaceAll front.toList) :=
        ⟨blank, hblank, infix_of_append_infix (not_mem_bearer_of_isBlank hblank) hmark⟩
      exact hannounces hfront.of_replaceAll

/-- Two lines that differ only in a credential behind the word `Bearer` are shown alike if that word
stands, and in general only then. It stands in any case behind a text that neither ends in an
assignment to a secret parameter nor announces a credential. -/
theorem announcementStands_iff (front : String) :
    (AnnouncementStands front ↔
      ∀ blanks credential other rest : String, IsRun isBlank blanks.toList →
        IsRun isCredentialChar credential.toList → IsRun isCredentialChar other.toList →
        EndsCredential rest.toList →
        redactLine (front ++ "Bearer" ++ blanks ++ credential ++ rest) =
          redactLine (front ++ "Bearer" ++ blanks ++ other ++ rest)) ∧
    (¬ EndsInAssignment front.toList → ¬ AnnouncesCredential front.toList →
      AnnouncementStands front) := by
  have hline : ∀ blanks credential rest : String,
      (front ++ "Bearer" ++ blanks ++ credential ++ rest).toList =
        front.toList ++ "Bearer".toList ++
          (blanks.toList ++ (credential.toList ++ rest.toList)) := fun blanks credential rest => by
    simp only [String.toList_append, List.append_assoc]
  refine ⟨⟨fun hstands => ?_, fun hhidden => ?_⟩, announcementStands_of_not_announces⟩
  · obtain ⟨shown, hshown⟩ := hstands.exists_shown
    intro blanks credential other rest hblanks hcredential hother hrest
    rw [redactLine, redactLine, hline, hline, hshown _ _ _ hblanks hcredential hrest,
      hshown _ _ _ hblanks hother hrest]
  · by_contra hspent
    obtain ⟨shown, hshown⟩ := exists_shown_of_not_announcementStands hspent
    have hsame := hhidden " " "a" "b" "" (by decide) (by decide)
      (by decide) endsCredential_nil
    rw [redactLine, redactLine, hline, hline] at hsame
    have hlists := String.ofList_injective hsame
    have hletters : shown ++ [' ', 'a'] = shown ++ [' ', 'b'] :=
      ((hshown 'a' (by decide)).symm.trans hlists).trans (hshown 'b' (by decide))
    exact absurd (List.append_cancel_left hletters) (by decide)

/-- A credential behind a text that announces two of them already. -/
theorem redactLine_after_two_announcements :
    AnnouncementStands "key=a Bearer Bearer " ∧
      redactLine "key=a Bearer Bearer Bearer  abc now" =
        redactLine "key=a Bearer Bearer Bearer  x/y.z now" := by
  have hstands : AnnouncementStands "key=a Bearer Bearer " := by
    unfold AnnouncementStands
    decide +kernel
  refine ⟨hstands, ?_⟩
  exact (announcementStands_iff "key=a Bearer Bearer ").1.mp hstands "  " "abc" "x/y.z" " now"
    (by decide) (by decide) (by decide)
    (by decide)

/-- A credential is shown where the word in front of it is taken for the value of a parameter, or
for a credential that is announced before. -/
theorem redactLine_shows_credential :
    IsRun isBlank " ".toList ∧ IsRun isCredentialChar "abc".toList ∧
    IsRun isCredentialChar "xyz".toList ∧ EndsCredential "".toList ∧
    redactLine ("token=" ++ "Bearer" ++ " " ++ "abc" ++ "") ≠
      redactLine ("token=" ++ "Bearer" ++ " " ++ "xyz" ++ "") ∧
    redactLine ("Bearer " ++ "Bearer" ++ " " ++ "abc" ++ "") ≠
      redactLine ("Bearer " ++ "Bearer" ++ " " ++ "xyz" ++ "") :=
  ⟨by decide, by decide, by decide,
    endsCredential_nil, by decide +kernel, by decide +kernel⟩

end Secrecy

end ChatDispatch.Redaction
