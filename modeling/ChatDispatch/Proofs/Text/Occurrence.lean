import ChatDispatch.Text.Basic

/-!
Where a word occurs in a text. Cutting at a word finds its leftmost occurrence: a text is cut
exactly if the word occurs in it, and there is only one way to cut it.
-/

namespace ChatDispatch.Text

variable {word text before after : List Char}

theorem startsWith_iff {start : List Char} : startsWith start text = true ↔ start <+: text := by
  rw [startsWith, Option.isSome_iff_exists]
  constructor
  · rintro ⟨rest, hrest⟩
    exact ⟨rest, (dropStart?_eq_some_iff.mp hrest).symm⟩
  · rintro ⟨rest, rfl⟩
    exact ⟨rest, dropStart?_eq_some_iff.mpr rfl⟩

structure IsCut (word text before after : List Char) : Prop where
  text_eq : text = before ++ word ++ after
  leftmost : ∀ front rest, text = front ++ word ++ rest → before.length ≤ front.length

/-- Two cuts of a text around the same word are the same cut. -/
theorem IsCut.unique {before' after' : List Char} (h : IsCut word text before after)
    (h' : IsCut word text before' after') : before = before' ∧ after = after' := by
  have hlength : before.length = before'.length :=
    Nat.le_antisymm (h.leftmost _ _ h'.text_eq) (h'.leftmost _ _ h.text_eq)
  have htext : before ++ (word ++ after) = before' ++ (word ++ after') := by
    rw [← List.append_assoc, ← List.append_assoc, ← h.text_eq, ← h'.text_eq]
  obtain ⟨hbefore, hafter⟩ := List.append_inj htext hlength
  exact ⟨hbefore, List.append_cancel_left hafter⟩

/-- What a text starts with cannot occur further to the left. -/
theorem isCut_of_start (word after : List Char) : IsCut word (word ++ after) [] after :=
  ⟨rfl, fun _ _ _ => Nat.zero_le _⟩

/-- Nothing in front of the place of the cut is an occurrence. -/
theorem length_le_of_cutFirst? (h : cutFirst? word text = some (before, after))
    {front rest : List Char} (htext : text = front ++ word ++ rest) :
    before.length ≤ front.length := by
  induction text generalizing before after front with
  | nil =>
    obtain ⟨_, _, hpair⟩ := Option.map_eq_some_iff.mp h
    rw [← (Prod.mk.inj hpair).1]
    exact Nat.zero_le _
  | cons c text ih =>
    rw [cutFirst?] at h
    cases hstart : dropStart? word (c :: text) with
    | some found =>
      rw [hstart] at h
      rw [← (Prod.mk.inj (Option.some.inj h)).1]
      exact Nat.zero_le _
    | none =>
      rw [hstart] at h
      obtain ⟨⟨further, behind⟩, hcut, hpair⟩ := Option.map_eq_some_iff.mp h
      cases front with
      | nil =>
        have hfound : dropStart? word (c :: text) = some rest :=
          dropStart?_eq_some_iff.mpr htext
        rw [hstart] at hfound
        cases hfound
      | cons d front =>
        have hle : further.length ≤ front.length := ih hcut (List.cons.inj htext).2
        rw [← (Prod.mk.inj hpair).1]
        exact Nat.succ_le_succ hle

/-- A text is cut exactly if the word occurs in it. -/
theorem isSome_cutFirst?_iff : (cutFirst? word text).isSome ↔ word <:+: text := by
  constructor
  · intro h
    obtain ⟨⟨before, after⟩, hcut⟩ := Option.isSome_iff_exists.mp h
    exact ⟨before, after, (cutFirst?_eq_some hcut).symm⟩
  · intro h
    induction text with
    | nil =>
      rw [List.infix_nil.mp h]
      rfl
    | cons c text ih =>
      rw [cutFirst?]
      cases hstart : dropStart? word (c :: text) with
      | some found => rfl
      | none =>
        rcases List.infix_cons_iff.mp h with ⟨rest, hrest⟩ | hinfix
        · rw [dropStart?_eq_some_iff.mpr hrest.symm] at hstart
          cases hstart
        · simpa using ih hinfix

theorem cutFirst?_eq_some_iff :
    cutFirst? word text = some (before, after) ↔ IsCut word text before after := by
  constructor
  · intro h
    exact ⟨cutFirst?_eq_some h, fun _ _ => length_le_of_cutFirst? h⟩
  · intro h
    have hoccurs : word <:+: text := ⟨before, after, h.text_eq.symm⟩
    obtain ⟨⟨front, rest⟩, hcut⟩ := Option.isSome_iff_exists.mp (isSome_cutFirst?_iff.mpr hoccurs)
    have hfound : IsCut word text front rest :=
      ⟨cutFirst?_eq_some hcut, fun _ _ => length_le_of_cutFirst? hcut⟩
    obtain ⟨rfl, rfl⟩ := h.unique hfound
    exact hcut

end ChatDispatch.Text
