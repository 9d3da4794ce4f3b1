import ChatDispatch.Detection
import ChatDispatch.Proofs.Text.Occurrence

/-!
Which prefix is taken off the command word. Both modes pass over empty entries and take the first
entry of the list that fits, where fitting means that the word starts with the entry in the one mode
and that the entry occurs in the word in the other. An entry without a space that a text starts with
is whole in its command word, so there the mode that looks for an occurrence finds one and takes it
out.
-/

namespace ChatDispatch

section First

variable {α β : Type} {entries before : List α} {entry : α}

/-- The first entry of a list that fits; the entries of `before` stand in front of it. -/
structure IsFirst (fits : α → Prop) (entries before : List α) (entry : α) : Prop where
  listed : ∃ after, entries = before ++ entry :: after
  fit : fits entry
  earlier : ∀ passed ∈ before, ¬ fits passed

theorem IsFirst.mem {fits : α → Prop} (h : IsFirst fits entries before entry) :
    entry ∈ entries := by
  obtain ⟨after, rfl⟩ := h.listed
  exact List.mem_append_right before List.mem_cons_self

theorem IsFirst.congr {fits other : α → Prop} (hfirst : IsFirst fits entries before entry)
    (h : ∀ x ∈ entries, fits x ↔ other x) : IsFirst other entries before entry where
  listed := hfirst.listed
  fit := (h entry hfirst.mem).mp hfirst.fit
  earlier passed hpassed := by
    obtain ⟨after, rfl⟩ := hfirst.listed
    exact mt (h passed (List.mem_append_left _ hpassed)).mpr (hfirst.earlier passed hpassed)

/-- Which entry comes first depends only on which entries of the list fit. -/
theorem isFirst_congr {fits other : α → Prop} (h : ∀ x ∈ entries, fits x ↔ other x) :
    IsFirst fits entries before entry ↔ IsFirst other entries before entry :=
  ⟨fun hfirst => hfirst.congr h, fun hfirst => hfirst.congr fun x hx => (h x hx).symm⟩

/-- Of two entries that come first in different respects, where the one respect is stronger, the
entry that is first in the weaker one is the other as soon as it fits both. -/
theorem IsFirst.eq_of_imp {strong weak : α → Prop} {before' : List α} {entry' : α}
    (h : IsFirst strong entries before entry) (h' : IsFirst weak entries before' entry')
    (himp : ∀ x, strong x → weak x) (hfits : strong entry') : entry = entry' := by
  obtain ⟨after, hentries⟩ := h.listed
  obtain ⟨after', hentries'⟩ := h'.listed
  rcases List.append_eq_append_iff.mp (hentries.symm.trans hentries') with
    ⟨between, hbefore, hbehind⟩ | ⟨between, hbefore, hbehind⟩
  · cases between with
    | nil => exact (List.cons.inj hbehind).1
    | cons x between =>
      obtain rfl := (List.cons.inj hbehind).1
      exact absurd (himp entry h.fit) (h'.earlier entry (by simp [hbefore]))
  · cases between with
    | nil => exact (List.cons.inj hbehind).1.symm
    | cons x between =>
      obtain rfl := (List.cons.inj hbehind).1
      exact absurd hfits (h.earlier entry' (by simp [hbefore]))

theorem exists_isFirst_iff {fits : α → Prop} :
    (∃ before entry, IsFirst fits entries before entry) ↔ ∃ entry ∈ entries, fits entry := by
  constructor
  · rintro ⟨before, entry, h⟩
    exact ⟨entry, h.mem, h.fit⟩
  · rintro ⟨entry, hmem, hfits⟩
    induction entries with
    | nil => cases hmem
    | cons head entries ih =>
      by_cases hhead : fits head
      · exact ⟨[], head, ⟨entries, rfl⟩, hhead, nofun⟩
      · rcases List.mem_cons.mp hmem with rfl | hmem
        · exact absurd hfits hhead
        · obtain ⟨before, first, ⟨after, rfl⟩, hfirst, hearlier⟩ := ih hmem
          exact ⟨head :: before, first, ⟨after, rfl⟩, hfirst,
            List.forall_mem_cons.mpr ⟨hhead, hearlier⟩⟩

theorem findSome?_eq_some_iff_isFirst {f : α → Option β} {result : β} :
    entries.findSome? f = some result ↔
      ∃ before entry, IsFirst (fun x => (f x).isSome) entries before entry ∧
        f entry = some result := by
  rw [List.findSome?_eq_some_iff]
  constructor
  · rintro ⟨before, entry, after, hentries, hresult, hnone⟩
    refine ⟨before, entry, ⟨⟨after, hentries⟩, by simp [hresult], fun x hx => ?_⟩, hresult⟩
    simp [hnone x hx]
  · rintro ⟨before, entry, ⟨⟨after, hentries⟩, -, hearlier⟩, hresult⟩
    exact ⟨before, entry, after, hentries, hresult, fun x hx =>
      Option.not_isSome_iff_eq_none.mp (hearlier x hx)⟩

end First

namespace Detection

open Text

variable {prefixes before : List String} {start found : String} {text word name : List Char}

def Starts (text : List Char) (entry : String) : Prop := entry ≠ "" ∧ entry.toList <+: text

def Occurs (word : List Char) (entry : String) : Prop := entry ≠ "" ∧ entry.toList <:+: word

instance : Decidable (Starts text start) := inferInstanceAs (Decidable (_ ∧ _))

instance : Decidable (Occurs word start) := inferInstanceAs (Decidable (_ ∧ _))

theorem Starts.occurs (h : Starts word start) : Occurs word start := ⟨h.1, h.2.isInfix⟩

/-- What a text starts with is in its command word as far as there is no space in it. -/
theorem prefix_commandWord {q : List Char} (hspace : ' ' ∉ q) (h : q <+: text) :
    q <+: commandWord text := by
  obtain ⟨rest, rfl⟩ := h
  have hall : ∀ c ∈ q, decide (c ≠ ' ') = true :=
    fun c hc => decide_eq_true fun heq => hspace (heq ▸ hc)
  rw [commandWord, List.takeWhile_append_of_pos hall]
  exact List.prefix_append _ _

/-- A text starts with an entry without a space exactly if its command word does. -/
theorem starts_commandWord_iff (hspace : ' ' ∉ start.toList) :
    Starts (commandWord text) start ↔ Starts text start := by
  constructor
  · exact fun ⟨hne, hstart⟩ => ⟨hne, hstart.trans (List.takeWhile_prefix _)⟩
  · exact fun ⟨hne, hstart⟩ => ⟨hne, prefix_commandWord hspace hstart⟩

/-- An entry without a space with which a text starts occurs in its command word. -/
theorem Starts.occurs_commandWord (h : Starts text start) (hspace : ' ' ∉ start.toList) :
    Occurs (commandWord text) start :=
  ((starts_commandWord_iff hspace).mpr h).occurs

theorem mem_usable_iff {entries : List (List Char)} {q : List Char} :
    q ∈ usable entries ↔ q ∈ entries ∧ q ≠ [] := by
  simp [usable, List.mem_filter]

theorem isPrefixed_iff_starts :
    isPrefixed (prefixes.map String.toList) text = true ↔ ∃ q ∈ prefixes, Starts text q := by
  simp only [isPrefixed, List.any_eq_true, startsWith_iff]
  constructor
  · rintro ⟨q, hq, hstart⟩
    obtain ⟨hmem, hne⟩ := mem_usable_iff.mp hq
    obtain ⟨entry, hentry, rfl⟩ := List.mem_map.mp hmem
    exact ⟨entry, hentry, fun hempty => hne (by simp [hempty]), hstart⟩
  · rintro ⟨entry, hentry, hne, hstart⟩
    refine ⟨entry.toList, mem_usable_iff.mpr ⟨List.mem_map_of_mem hentry, fun hnil => ?_⟩, hstart⟩
    exact hne (String.toList_eq_nil_iff.mp hnil)

/-- A search among the entries that can be used passes over the empty ones. -/
theorem findSome?_usable {β : Type} (f : List Char → Option β) (prefixes : List String) :
    (usable (prefixes.map String.toList)).findSome? f =
      prefixes.findSome? fun q => if q = "" then none else f q.toList := by
  induction prefixes with
  | nil => rfl
  | cons q prefixes ih =>
    rw [usable] at ih
    by_cases hq : q = ""
    · simpa [usable, hq] using ih
    · simp [usable, hq, ih, List.findSome?_cons]

/-- What a search among the entries finds, it finds at the first entry that can be used and at which
there is something to find. -/
theorem findSome?_usable_eq_some_iff {β : Type} {f : List Char → Option β} {result : β} :
    (usable (prefixes.map String.toList)).findSome? f = some result ↔
      ∃ before entry,
        IsFirst (fun q : String => q ≠ "" ∧ (f q.toList).isSome) prefixes before entry ∧
          f entry.toList = some result := by
  have hfits : ∀ q ∈ prefixes, ((if q = "" then none else f q.toList).isSome : Prop) ↔
      q ≠ "" ∧ (f q.toList).isSome := by
    intro q _
    by_cases hq : q = "" <;> simp [hq]
  rw [findSome?_usable, findSome?_eq_some_iff_isFirst]
  refine exists_congr fun before => exists_congr fun entry => ?_
  rw [isFirst_congr hfits]
  refine and_congr_right fun hfirst => ?_
  rw [if_neg hfirst.fit.1]

theorem dropLeading?_eq_some_iff :
    dropLeading? (prefixes.map String.toList) word = some name ↔
      ∃ before start, IsFirst (Starts word) prefixes before start ∧
        word = start.toList ++ name := by
  rw [dropLeading?, findSome?_usable_eq_some_iff]
  refine exists_congr fun before => exists_congr fun start => and_congr ?_ dropStart?_eq_some_iff
  exact isFirst_congr fun q _ => and_congr_right fun _ => startsWith_iff

theorem findSome?_cutFirst?_eq_some_iff {front rest : List Char} :
    (usable (prefixes.map String.toList)).findSome? (cutFirst? · word) = some (front, rest) ↔
      ∃ before found, IsFirst (Occurs word) prefixes before found ∧
        IsCut found.toList word front rest := by
  rw [findSome?_usable_eq_some_iff]
  refine exists_congr fun before => exists_congr fun found => and_congr ?_ cutFirst?_eq_some_iff
  exact isFirst_congr fun q _ => and_congr_right fun _ => isSome_cutFirst?_iff

/-- What is left of a word in which an entry occurs. -/
theorem dropOccurrence_of_isCut {front rest : List Char}
    (hfirst : IsFirst (Occurs word) prefixes before found)
    (hcut : IsCut found.toList word front rest) :
    dropOccurrence (prefixes.map String.toList) word = front ++ rest := by
  rw [dropOccurrence, findSome?_cutFirst?_eq_some_iff.mpr ⟨before, found, hfirst, hcut⟩]

/-- Where an entry occurs in the word, the first one that does is cut out of it. -/
theorem exists_isCut_of_occurs (h : ∃ q ∈ prefixes, Occurs word q) :
    ∃ before found, IsFirst (Occurs word) prefixes before found ∧
      ∃ front rest, IsCut found.toList word front rest ∧
        dropOccurrence (prefixes.map String.toList) word = front ++ rest := by
  obtain ⟨before, found, hfirst⟩ := exists_isFirst_iff.mpr h
  obtain ⟨⟨front, rest⟩, hcut⟩ :=
    Option.isSome_iff_exists.mp (isSome_cutFirst?_iff.mpr hfirst.fit.2)
  have hiscut := cutFirst?_eq_some_iff.mp hcut
  exact ⟨before, found, hfirst, front, rest, hiscut, dropOccurrence_of_isCut hfirst hiscut⟩

/-- A word in which no entry occurs is left as it is. -/
theorem dropOccurrence_of_not_occurs (h : ∀ q ∈ prefixes, ¬ Occurs word q) :
    dropOccurrence (prefixes.map String.toList) word = word := by
  rw [dropOccurrence]
  cases hcut : (usable (prefixes.map String.toList)).findSome? (cutFirst? · word) with
  | none => rfl
  | some cut =>
    obtain ⟨before, found, hfirst, -⟩ := findSome?_cutFirst?_eq_some_iff.mp hcut
    exact absurd hfirst.fit (h found hfirst.mem)

theorem detect?_eq_some_iff {mode : PrefixMode} {text name : String} :
    detect? prefixes mode text = some name ↔
      commandName? (prefixes.map String.toList) mode text.toList = some name.toList := by
  rw [detect?, Option.map_eq_some_iff]
  constructor
  · rintro ⟨found, hfound, rfl⟩
    rw [hfound, String.toList_ofList]
  · intro h
    exact ⟨name.toList, h, String.ofList_toList⟩

theorem commandName?_leading_eq_some_iff :
    commandName? (prefixes.map String.toList) .leading text = some name ↔
      (∃ q ∈ prefixes, Starts text q) ∧ name ≠ [] ∧
        dropLeading? (prefixes.map String.toList) (commandWord text) = some name := by
  rw [commandName?, ← isPrefixed_iff_starts]
  by_cases h : isPrefixed (prefixes.map String.toList) text = true
  · simp [h, Option.filter_eq_some_iff, and_comm]
  · simp [h]

theorem commandName?_firstOccurrence_eq_some_iff :
    commandName? (prefixes.map String.toList) .firstOccurrence text = some name ↔
      (∃ q ∈ prefixes, Starts text q) ∧ name ≠ [] ∧
        dropOccurrence (prefixes.map String.toList) (commandWord text) = name := by
  rw [commandName?, ← isPrefixed_iff_starts]
  by_cases h : isPrefixed (prefixes.map String.toList) text = true
  · simp only [h, if_true, Option.filter_eq_some_iff, Option.some.injEq, true_and, and_comm]
    simp
  · simp [h]

end Detection

end ChatDispatch
