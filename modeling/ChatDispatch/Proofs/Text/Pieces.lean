import ChatDispatch.Text.Basic
import Mathlib.Logic.ExistsUnique

/-!
A text and its pieces determine each other. No piece holds a separator, and a text can be written in
only one way as pieces without separators. The pieces behind a separator are those of the text that
stands behind it, so joining them gives that text back with all separators in it.
-/

namespace ChatDispatch.Text

variable {separator : Char}

structure SplitsInto (separator : Char) (text : List Char) (parts : List (List Char)) : Prop where
  ne_nil : parts ≠ []
  not_mem : ∀ part ∈ parts, separator ∉ part
  joined_eq : joined separator parts = text

/-- What stands behind the separator of this number, counted from zero. -/
def IsBehind (separator : Char) (number : Nat) (text rest : List Char) : Prop :=
  ∃ front, text = front ++ separator :: rest ∧ front.count separator = number

def behind (separator : Char) (number : Nat) (text : List Char) : List Char :=
  joined separator ((pieces separator text).drop (number + 1))

/-- A text has only one first separator. -/
theorem append_separator_inj {front other rest rest' : List Char} (hfront : separator ∉ front)
    (hother : separator ∉ other) (h : front ++ separator :: rest = other ++ separator :: rest') :
    front = other ∧ rest = rest' := by
  induction front generalizing other with
  | nil =>
    cases other with
    | nil => exact ⟨rfl, (List.cons.inj h).2⟩
    | cons c other => exact absurd ((List.cons.inj h).1 ▸ List.mem_cons_self) hother
  | cons c front ih =>
    cases other with
    | nil => exact absurd ((List.cons.inj h).1 ▸ List.mem_cons_self) hfront
    | cons d other =>
      obtain ⟨rfl, hbehind⟩ := List.cons.inj h
      obtain ⟨rfl, hrest⟩ := ih (fun hmem => hfront (List.mem_cons_of_mem c hmem))
        (fun hmem => hother (List.mem_cons_of_mem c hmem)) hbehind
      exact ⟨rfl, hrest⟩

theorem joined_cons (piece : List Char) {more : List (List Char)} (h : more ≠ []) :
    joined separator (piece :: more) = piece ++ separator :: joined separator more := by
  cases more with
  | nil => exact absurd rfl h
  | cons next rest => rfl

theorem joined_append {front rest : List (List Char)} (hfront : front ≠ []) (hrest : rest ≠ []) :
    joined separator (front ++ rest) =
      joined separator front ++ separator :: joined separator rest := by
  induction front with
  | nil => exact absurd rfl hfront
  | cons piece more ih =>
    cases more with
    | nil => exact joined_cons piece hrest
    | cons next more =>
      have hmore := ih (List.cons_ne_nil next more)
      have hne : next :: more ++ rest ≠ [] := by simp
      rw [List.cons_append, joined_cons piece hne, hmore, joined_cons piece (by simp),
        List.append_assoc, List.cons_append]

theorem pieces_of_not_mem {piece : List Char} (h : separator ∉ piece) :
    pieces separator piece = [piece] := by
  induction piece with
  | nil => rfl
  | cons c rest ih =>
    have hc : c ≠ separator := fun heq => h (heq ▸ List.mem_cons_self)
    have hrest : separator ∉ rest := fun hmem => h (List.mem_cons_of_mem c hmem)
    rw [pieces, if_neg hc, ih hrest]

theorem pieces_cons_of_ne {c : Char} (h : c ≠ separator) (text : List Char) :
    pieces separator (c :: text) = (pieces separator text).modifyHead (c :: ·) := by
  rw [pieces, if_neg h]
  cases hpieces : pieces separator text with
  | nil => exact absurd hpieces (pieces_ne_nil separator text)
  | cons first more => rfl

/-- A separator ends one piece and begins another. -/
theorem pieces_append_separator (front rest : List Char) :
    pieces separator (front ++ separator :: rest) =
      pieces separator front ++ pieces separator rest := by
  induction front with
  | nil => simp [pieces]
  | cons c front ih =>
    rw [List.cons_append, pieces, pieces]
    by_cases hc : c = separator
    · rw [if_pos hc, if_pos hc, ih, List.cons_append]
    · rw [if_neg hc, if_neg hc, ih]
      cases hfront : pieces separator front with
      | nil => exact absurd hfront (pieces_ne_nil separator front)
      | cons first more => rfl

theorem length_pieces (text : List Char) :
    (pieces separator text).length = text.count separator + 1 := by
  induction text with
  | nil => rfl
  | cons c rest ih =>
    rw [pieces]
    by_cases hc : c = separator
    · rw [if_pos hc, List.length_cons, ih, hc, List.count_cons_self]
    · rw [if_neg hc, List.count_cons_of_ne hc]
      cases hrest : pieces separator rest with
      | nil => exact absurd hrest (pieces_ne_nil separator rest)
      | cons first more => rw [← ih, hrest, List.length_cons, List.length_cons]

theorem not_mem_of_mem_pieces {text piece : List Char} (h : piece ∈ pieces separator text) :
    separator ∉ piece := by
  induction text generalizing piece with
  | nil =>
    rw [List.mem_singleton.mp h]
    exact List.not_mem_nil
  | cons c rest ih =>
    rw [pieces] at h
    by_cases hc : c = separator
    · rw [if_pos hc] at h
      rcases List.mem_cons.mp h with rfl | hmem
      · exact List.not_mem_nil
      · exact ih hmem
    · rw [if_neg hc] at h
      cases hrest : pieces separator rest with
      | nil => exact absurd hrest (pieces_ne_nil separator rest)
      | cons first more =>
        rw [hrest] at h ih
        rcases List.mem_cons.mp h with rfl | hmem
        · have hfirst : separator ∉ first := ih List.mem_cons_self
          simp [hfirst, Ne.symm hc]
        · exact ih (List.mem_cons_of_mem first hmem)

/-- Splitting what has been joined gives the pieces back, if none of them holds a separator. -/
theorem pieces_joined {parts : List (List Char)} (hne : parts ≠ [])
    (h : ∀ part ∈ parts, separator ∉ part) : pieces separator (joined separator parts) = parts := by
  induction parts with
  | nil => exact absurd rfl hne
  | cons part parts ih =>
    have hpart : pieces separator part = [part] := pieces_of_not_mem (h part List.mem_cons_self)
    cases parts with
    | nil => exact hpart
    | cons next more =>
      have hmore := ih (List.cons_ne_nil next more) fun other hmem =>
        h other (List.mem_cons_of_mem part hmem)
      rw [joined, pieces_append_separator, hpart, hmore, List.singleton_append]
      exact List.cons_ne_nil next more

theorem splitsInto_pieces (separator : Char) (text : List Char) :
    SplitsInto separator text (pieces separator text) where
  ne_nil := pieces_ne_nil separator text
  not_mem _ := not_mem_of_mem_pieces
  joined_eq := joined_pieces separator text

theorem SplitsInto.eq_pieces {text : List Char} {parts : List (List Char)}
    (h : SplitsInto separator text parts) : parts = pieces separator text := by
  rw [← h.joined_eq, pieces_joined h.ne_nil h.not_mem]

/-- There is just one way to write a text as pieces without separators. -/
theorem existsUnique_splitsInto (separator : Char) (text : List Char) :
    ∃! parts, SplitsInto separator text parts :=
  ⟨pieces separator text, splitsInto_pieces separator text, fun _ h => h.eq_pieces⟩

/-- Joining the pieces behind a separator gives all that stands behind it. -/
theorem IsBehind.behind_eq {number : Nat} {text rest : List Char}
    (h : IsBehind separator number text rest) : behind separator number text = rest := by
  obtain ⟨front, rfl, hcount⟩ := h
  have hlength : (pieces separator front).length = number + 1 := by
    rw [length_pieces, hcount]
  rw [behind, pieces_append_separator, ← hlength, List.drop_left, joined_pieces]

/-- Every separator has its place in the text. -/
theorem exists_isBehind {number : Nat} {text : List Char} (h : number < text.count separator) :
    ∃ rest, IsBehind separator number text rest := by
  induction text generalizing number with
  | nil => exact absurd h (Nat.not_lt_zero number)
  | cons c text ih =>
    by_cases hc : c = separator
    · subst hc
      rw [List.count_cons_self] at h
      cases number with
      | zero => exact ⟨text, [], rfl, rfl⟩
      | succ number =>
        have hnumber : number < text.count c := by omega
        obtain ⟨rest, front, rfl, hcount⟩ := ih hnumber
        exact ⟨rest, c :: front, rfl, by rw [List.count_cons_self, hcount]⟩
    · rw [List.count_cons_of_ne hc] at h
      obtain ⟨rest, front, rfl, hcount⟩ := ih h
      exact ⟨rest, c :: front, rfl, by rw [List.count_cons_of_ne hc, hcount]⟩

theorem behind_eq_nil_iff {number : Nat} {text : List Char} :
    behind separator number text = [] ↔
      ∀ rest, IsBehind separator number text rest → rest = [] := by
  constructor
  · intro hnil rest hrest
    rw [← hrest.behind_eq, hnil]
  · intro hall
    by_cases hnumber : number < text.count separator
    · obtain ⟨rest, hrest⟩ := exists_isBehind hnumber
      rw [hrest.behind_eq, hall rest hrest]
    · have hdrop : (pieces separator text).drop (number + 1) = [] := by
        apply List.drop_eq_nil_of_le
        rw [length_pieces]
        omega
      rw [behind, hdrop]
      rfl

end ChatDispatch.Text
