import ChatDispatch.Proofs.Text.Replacement
import Mathlib.Data.List.TakeWhile

/-!
What can be found in a text whose matches have been replaced. A rule that puts one mark in place of
everything it finds leaves the rest of the text together: a word that is shown somewhere and does
not reach into a mark has been there before, and what is left does not match again.
-/

namespace ChatDispatch.Text.Rule

variable {rule other : Rule} {text : List Char} {IsMatch : List Char → Prop}

def Spares (rule : Rule) (text : List Char) : Prop :=
  ∀ rest, rest <:+ text → rule.apply rest = none

theorem Spares.replaceAll_eq (h : rule.Spares text) : rule.replaceAll text = text := by
  induction text with
  | nil => exact rule.replaceAll_nil
  | cons c rest ih =>
    rw [replaceAll_of_none (h _ (List.suffix_refl _)),
      ih fun end' hend => h end' (hend.trans (List.suffix_cons c rest))]

/-- The rule matches where one of these parts stands, and only there. -/
structure Finds (rule : Rule) (IsMatch : List Char → Prop) : Prop where
  exists_part : ∀ {text replacement after}, rule.apply text = some (replacement, after) →
    ∃ part, IsMatch part ∧ text = part ++ after
  apply_ne_none : ∀ {part} rest, IsMatch part → rule.apply (part ++ rest) ≠ none

theorem Spares.not_isMatch (h : rule.Spares text) (hfinds : rule.Finds IsMatch) {part : List Char}
    (hpart : part <:+: text) : ¬ IsMatch part := by
  obtain ⟨front, rest, rfl⟩ := hpart
  intro hmatch
  exact hfinds.apply_ne_none rest hmatch (h _ ⟨front, (List.append_assoc ..).symm⟩)

/-- What holds wherever a replacement or a kept character stands in front of what is shown of the
rest, holds of every end of what is shown. -/
theorem forall_suffix_replaceAll {motive : List Char → Prop}
    (hafter : ∀ text replacement after, rule.apply text = some (replacement, after) →
      after <:+ text)
    (nil : motive [])
    (replaced : ∀ rest replacement after, rest <:+ text →
      rule.apply rest = some (replacement, after) → ∀ part, part ≠ [] → part <:+ replacement →
        motive (part ++ rule.replaceAll after))
    (kept : ∀ c rest, c :: rest <:+ text → rule.apply (c :: rest) = none →
      motive (c :: rule.replaceAll rest))
    (rest : List Char) (h : rest <:+ rule.replaceAll text) : motive rest := by
  induction text using rule.replaceAll_induction with
  | nil =>
    rw [replaceAll_nil, List.suffix_nil] at h
    exact h ▸ nil
  | replaced text replacement after happly ih =>
    have hend := hafter text replacement after happly
    have hinside := ih
      (fun rest replacement after hrest => replaced rest replacement after (hrest.trans hend))
      (fun c rest hrest => kept c rest (hrest.trans hend))
    rw [replaceAll_of_some happly] at h
    rcases List.suffix_or_suffix_of_suffix h (List.suffix_append ..) with hrest | ⟨part, rfl⟩
    · exact hinside hrest
    · by_cases hne : part = []
      · exact hinside (hne ▸ List.suffix_refl _)
      · obtain ⟨front, hfront⟩ := h
        rw [← List.append_assoc] at hfront
        exact replaced text replacement after (List.suffix_refl _) happly part hne
          ⟨front, List.append_cancel_right hfront⟩
  | kept c text happly ih =>
    have hend := List.suffix_cons c text
    rw [replaceAll_of_none happly] at h
    rcases List.suffix_cons_iff.mp h with rfl | hinside
    · exact kept c text (List.suffix_refl _) happly
    · exact ih
        (fun rest replacement after hrest => replaced rest replacement after (hrest.trans hend))
        (fun c rest hrest => kept c rest (hrest.trans hend)) hinside

/-- All matches of the rule begin with one character, and it puts one mark in their place. -/
structure Marks (rule : Rule) (first : Char) (mark : List Char) : Prop where
  apply_eq_none : ∀ c text, c ≠ first → rule.apply (c :: text) = none
  eq_mark : ∀ text replacement after, rule.apply text = some (replacement, after) →
    replacement = mark ∧ after <:+ text

namespace Marks

variable {first c : Char} {mark word : List Char} (h : rule.Marks first mark)

include h

theorem replaceAll_append {front : List Char} (hfront : first ∉ front) (text : List Char) :
    rule.replaceAll (front ++ text) = front ++ rule.replaceAll text := by
  induction front with
  | nil => rfl
  | cons c front ih =>
    obtain ⟨hc, hfront⟩ := not_or.mp (mt List.mem_cons.mpr hfront)
    rw [List.cons_append, replaceAll_of_none (h.apply_eq_none c _ (Ne.symm hc)), ih hfront,
      List.cons_append]

/-- A run of characters of a kind is shown to where it ended, if no match begins in it. -/
theorem takeWhile_replaceAll {p : Char → Bool} (hfirst : p first = true)
    (hrun : first ∉ text.takeWhile p) :
    (rule.replaceAll text).takeWhile p = text.takeWhile p := by
  have hrest : ∀ c ∈ (rule.replaceAll (text.dropWhile p)).head?, p c = false := by
    cases hdrop : text.dropWhile p with
    | nil => simp
    | cons c rest =>
      have hc : p c = false := eq_false_of_dropWhile_eq_cons hdrop
      have hne : c ≠ first := by
        rintro rfl
        rw [hfirst] at hc
        cases hc
      rw [replaceAll_of_none (h.apply_eq_none c rest hne)]
      exact fun d hd => Option.some.inj hd ▸ hc
  have hall : ∀ c ∈ text.takeWhile p, p c = true := fun c hc => List.mem_takeWhile_imp hc
  calc (rule.replaceAll text).takeWhile p
      = (rule.replaceAll (text.takeWhile p ++ text.dropWhile p)).takeWhile p := by
        rw [List.takeWhile_append_dropWhile]
    _ = (text.takeWhile p ++ rule.replaceAll (text.dropWhile p)).takeWhile p := by
        rw [h.replaceAll_append hrun]
    _ = text.takeWhile p := takeWhile_append_rest hall hrest

/-- What is shown at the start of a text without reaching into a mark has stood there before. -/
theorem prefix_of_prefix_replaceAll (hmark : mark.head? = some c) (hword : c ∉ word)
    (hstart : word <+: rule.replaceAll text) : word <+: text := by
  induction text using rule.replaceAll_induction generalizing word with
  | nil => rwa [replaceAll_nil] at hstart
  | replaced text replacement after happly ih =>
    obtain ⟨rfl, -⟩ := h.eq_mark _ _ _ happly
    rw [replaceAll_of_some happly] at hstart
    cases word with
    | nil => exact List.nil_prefix
    | cons d word =>
      obtain ⟨more, rfl⟩ := List.head?_eq_some_iff.mp hmark
      obtain ⟨rfl, -⟩ := List.cons_prefix_cons.mp hstart
      exact absurd List.mem_cons_self hword
  | kept d text happly ih =>
    rw [replaceAll_of_none happly] at hstart
    cases word with
    | nil => exact List.nil_prefix
    | cons e word =>
      obtain ⟨rfl, hrest⟩ := List.cons_prefix_cons.mp hstart
      exact List.cons_prefix_cons.mpr
        ⟨rfl, ih (fun hmem => hword (List.mem_cons_of_mem e hmem)) hrest⟩

/-- A rule that matches only where this rule does matches nowhere in what is shown, if its matches
neither reach into a mark nor begin in one. -/
theorem spares_replaceAll (hfinds : other.Finds IsMatch) (hmark : mark.head? = some c)
    (hc : ∀ part, IsMatch part → c ∉ part)
    (hbegins : ∀ part, part ≠ [] → part <:+ mark → ∀ rest, other.apply (part ++ rest) = none)
    (hkept : ∀ rest, rest <:+ text → rule.apply rest = none → other.apply rest = none) :
    other.Spares (rule.replaceAll text) := by
  refine forall_suffix_replaceAll (fun _ _ _ happly => (h.eq_mark _ _ _ happly).2)
    other.apply_nil ?_ ?_
  · intro rest replacement after _ happly part hne hpart
    obtain ⟨rfl, -⟩ := h.eq_mark _ _ _ happly
    exact hbegins part hne hpart _
  · intro d rest hrest happly
    by_contra hsome
    obtain ⟨found, hfound⟩ := Option.ne_none_iff_exists'.mp hsome
    obtain ⟨part, hmatch, heq⟩ := hfinds.exists_part hfound
    rw [← replaceAll_of_none happly] at heq
    obtain ⟨more, hmore⟩ := h.prefix_of_prefix_replaceAll hmark (hc part hmatch) ⟨_, heq.symm⟩
    exact hfinds.apply_ne_none more hmatch (hmore ▸ hkept _ hrest happly)

end Marks

end ChatDispatch.Text.Rule
