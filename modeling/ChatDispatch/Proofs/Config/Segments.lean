import ChatDispatch.Proofs.Config.References
import ChatDispatch.Proofs.Text.Replacement
import Mathlib.Data.List.Chain
import Mathlib.Data.List.Infix
import Mathlib.Data.List.TakeWhile

/-!
Texts that are written with references in mind. The dollar sign that begins a reference is in no
name, so a reference is read just where it was written, also between other references, escapes and
texts that look like the start of one. As what a variable holds is not read again, the whole comes
to the values and texts it was written for; and one more dollar sign before each reference in a text
makes it stand for itself.
-/

namespace ChatDispatch.Config

namespace Reference

variable {text rest name : List Char}

section Names

def IsName (name : List Char) : Prop :=
  ∃ c tail, name = c :: tail ∧ isNameStart c = true ∧ ∀ d ∈ tail, isNamePart d = true

theorem IsName.isNamePart (h : IsName name) : ∀ c ∈ name, isNamePart c = true := by
  obtain ⟨c, tail, rfl, hc, htail⟩ := h
  refine List.forall_mem_cons.mpr ⟨?_, htail⟩
  rw [Reference.isNamePart, hc, Bool.true_or]

/-- A reference holds one dollar sign only, the first of its characters. -/
theorem IsName.dollar_not_mem (h : IsName name) : '$' ∉ '{' :: (name ++ ['}']) := by
  intro hmem
  rcases List.mem_cons.mp hmem with heq | hmem
  · exact absurd heq (by decide)
  rcases List.mem_append.mp hmem with hmem | hmem
  · exact absurd (h.isNamePart _ hmem) (by decide)
  · exact absurd (List.mem_singleton.mp hmem) (by decide)

theorem name?_written_append (h : IsName name) (rest : List Char) :
    name? (written name ++ rest) = some name := by
  obtain ⟨c, tail, rfl, hc, htail⟩ := h
  have hbrace : ∀ d ∈ ('}' :: rest).head?, isNamePart d = false := by
    intro d hd
    obtain rfl : '}' = d := Option.some.inj hd
    decide
  have htext : written (c :: tail) ++ rest = '$' :: '{' :: c :: (tail ++ '}' :: rest) := by
    simp [written]
  rw [htext, name?, Text.takeWhile_append_rest htail hbrace,
    Text.dropWhile_append_rest htail hbrace, hc]
  rfl

theorem name?_eq_some_iff : name? text = some name ↔ IsName name ∧ written name <+: text := by
  constructor
  · intro h
    obtain ⟨rest, hrest⟩ := name?_eq_some h
    refine ⟨?_, rest, hrest.symm⟩
    unfold name? at h
    split at h
    next c tail =>
      split at h
      next hc =>
        refine ⟨c, _, (Option.some.inj h).symm, (Bool.and_eq_true_iff.mp hc).1, ?_⟩
        exact fun d hd => List.mem_takeWhile_imp hd
      next => cases h
    next => cases h
  · rintro ⟨hname, rest, rfl⟩
    exact name?_written_append hname rest

theorem name?_eq_none_iff :
    name? text = none ↔ ∀ name, IsName name → ¬ written name <+: text := by
  rw [Option.eq_none_iff_forall_ne_some]
  exact forall_congr' fun name => by rw [ne_eq, name?_eq_some_iff, not_and]

theorem name?_of_ne {c : Char} (h : c ≠ '$') (rest : List Char) : name? (c :: rest) = none := by
  refine name?_eq_none_iff.mpr fun name _ hstart => h ?_
  exact (List.cons_prefix_cons.mp hstart).1.symm

end Names

section Reading

theorem leading?_of_name? (h : name? text = some name) :
    leading? text = some (.reference name) := by
  simp only [leading?, h]

theorem leading?_dollar (h : name? ('$' :: rest) = none) :
    leading? ('$' :: rest) = (name? rest).map .escaped := by
  simp only [leading?, h]

theorem leading?_of_ne {c : Char} (h : c ≠ '$') (rest : List Char) :
    leading? (c :: rest) = none := by
  unfold leading?
  split
  next hname => cases (name?_of_ne h rest).symm.trans hname
  next heq => exact absurd (List.cons.inj heq).1 h
  next => rfl

theorem piecesFrom_eq (skip : Nat) (text : List Char) :
    piecesFrom skip text = pieces (text.drop skip) := by
  induction skip generalizing text with
  | zero => rfl
  | succ skip ih => cases text <;> simp [piecesFrom, pieces, ih]

theorem pieces_written_append {piece : Piece}
    (h : leading? (piece.written ++ rest) = some piece) :
    pieces (piece.written ++ rest) = piece :: pieces rest := by
  have hne : piece.written ≠ [] := by cases piece <;> simp [Piece.written, written]
  obtain ⟨c, tail, hwritten⟩ := List.exists_cons_of_ne_nil hne
  rw [hwritten, List.cons_append] at h
  rw [hwritten, List.cons_append, pieces, piecesFrom, h]
  simp only [piecesFrom_eq, hwritten, List.length_cons, Nat.add_sub_cancel, List.drop_left]

theorem pieces_reference_append (h : IsName name) (rest : List Char) :
    pieces (written name ++ rest) = .reference name :: pieces rest :=
  @pieces_written_append rest (.reference name) (leading?_of_name? (name?_written_append h rest))

theorem pieces_escaped_append (h : IsName name) (rest : List Char) :
    pieces ('$' :: written name ++ rest) = .escaped name :: pieces rest := by
  have hnone : name? ('$' :: (written name ++ rest)) = none := rfl
  refine @pieces_written_append rest (.escaped name) ((leading?_dollar hnone).trans ?_)
  rw [name?_written_append h]
  rfl

/-- A character is read as it is if it begins no reference, and is not a dollar sign in front of
one either. -/
theorem pieces_cons {c : Char} (h : name? (c :: rest) = none)
    (hrest : c = '$' → name? rest = none) : pieces (c :: rest) = .plain c :: pieces rest := by
  have hleading : leading? (c :: rest) = none := by
    by_cases hc : c = '$'
    · obtain rfl := hc
      rw [leading?_dollar h, hrest rfl]
      rfl
    · exact leading?_of_ne hc rest
  rw [pieces, piecesFrom, hleading]
  rfl

/-- A text that holds no reference begins none either with what follows, if that is empty or begins
with a dollar sign. -/
theorem name?_literal_append (hplain : ∀ name, IsName name → ¬ written name <:+: text)
    (hne : text ≠ []) (hrest : ∀ c ∈ rest.head?, c = '$') : name? (text ++ rest) = none := by
  refine name?_eq_none_iff.mpr fun name hname hstart => hplain name hname ?_
  obtain ⟨c, tail, rfl⟩ := List.exists_cons_of_ne_nil hne
  obtain ⟨rfl, htail⟩ := List.cons_prefix_cons.mp hstart
  have hinside := Text.prefix_of_prefix_append htail fun c hc => hrest c hc ▸ hname.dollar_not_mem
  exact (List.cons_prefix_cons.mpr ⟨rfl, hinside⟩).isInfix

theorem pieces_literal_append (hplain : ∀ name, IsName name → ¬ written name <:+: text)
    (hrest : ∀ c ∈ rest.head?, c = '$') (hlast : text.getLast? = some '$' → name? rest = none) :
    pieces (text ++ rest) = text.map .plain ++ pieces rest := by
  induction text with
  | nil => rfl
  | cons c tail ih =>
    have htail : ∀ name, IsName name → ¬ written name <:+: tail := fun name hname hwithin =>
      hplain name hname (hwithin.trans (List.suffix_cons c tail).isInfix)
    have hbehind : c = '$' → name? (tail ++ rest) = none := by
      rintro rfl
      by_cases hnil : tail = []
      · rw [hnil, List.nil_append]
        exact hlast (hnil ▸ rfl)
      · exact name?_literal_append htail hnil hrest
    have hend : tail.getLast? = some '$' → name? rest = none := fun hend =>
      hlast (by rw [List.getLast?_cons, hend, Option.getD_some])
    have hname : name? (c :: (tail ++ rest)) = none :=
      name?_literal_append hplain (List.cons_ne_nil c tail) hrest
    rw [List.cons_append, pieces_cons hname hbehind, ih htail hend, List.map_cons, List.cons_append]

end Reading

end Reference

open Reference

/-- A part of a text as it is meant: a reference to a variable, one that stands for itself, or a
text without references. -/
inductive Segment where
  | reference (name : List Char)
  | escaped (name : List Char)
  | literal (text : List Char)

namespace Segment

variable {text : List Char}

def written : Segment → List Char
  | reference name => Reference.written name
  | escaped name => '$' :: Reference.written name
  | literal text => text

def filled (environment : Environment) : Segment → List Char
  | reference name => ((environment (String.ofList name)).getD "").toList
  | escaped name => Reference.written name
  | literal text => text

def pieces : Segment → List Piece
  | reference name => [.reference name]
  | escaped name => [.escaped name]
  | literal text => text.map .plain

def IsSound : Segment → Prop
  | reference name => IsName name
  | escaped name => IsName name
  | literal text => ∀ name, IsName name → ¬ Reference.written name <:+: text

theorem isSound_literal (h : ∀ rest ∈ text.tails, name? rest = none) : (literal text).IsSound := by
  intro name hname hwithin
  obtain ⟨rest, hstart, hsuffix⟩ := List.infix_iff_prefix_suffix.mp hwithin
  exact name?_eq_none_iff.mp (h rest ((List.mem_tails rest text).mpr hsuffix)) name hname hstart

/-- What may stand behind a segment. A literal goes on as far as it can, and does not end in a
dollar sign right before a reference, which that would make an escape. -/
def MayPrecede : Segment → Segment → Prop
  | literal _, literal _ => False
  | literal text, reference _ => text.getLast? ≠ some '$'
  | _, _ => True

end Segment

/-- The segments of a text, in order. Written one behind another, they can be told apart. -/
structure AreSegments (segments : List Segment) : Prop where
  sound : ∀ segment ∈ segments, segment.IsSound
  chain : segments.IsChain Segment.MayPrecede

/-- Behind a literal there is a dollar sign, and no reference if the literal ends in one itself. -/
theorem Segment.MayPrecede.behind_literal {text : List Char} {next : Segment}
    (h : (literal text).MayPrecede next) (rest : List Char) :
    (∀ c ∈ (next.written ++ rest).head?, c = '$') ∧
      (text.getLast? = some '$' → name? (next.written ++ rest) = none) := by
  cases next with
  | reference name => exact ⟨fun _ hc => (Option.some.inj hc).symm, fun hlast => absurd hlast h⟩
  | escaped name => exact ⟨fun _ hc => (Option.some.inj hc).symm, fun _ => rfl⟩
  | literal other => exact absurd h id

/-- Segments are read as what they are. -/
theorem AreSegments.pieces_eq {segments : List Segment} (h : AreSegments segments) :
    pieces (segments.flatMap Segment.written) = segments.flatMap Segment.pieces := by
  induction segments with
  | nil => rfl
  | cons segment rest ih =>
    obtain ⟨hsegment, hsound⟩ := List.forall_mem_cons.mp h.sound
    obtain ⟨hnext, hchain⟩ := List.isChain_cons.mp h.chain
    have hrest := ih ⟨hsound, hchain⟩
    rw [List.flatMap_cons, List.flatMap_cons, ← hrest]
    cases segment with
    | reference name => exact pieces_reference_append hsegment _
    | escaped name => exact pieces_escaped_append hsegment _
    | literal text =>
      cases rest with
      | nil => exact pieces_literal_append hsegment (by simp) fun _ => rfl
      | cons next more =>
        have hbehind := (hnext next rfl).behind_literal (more.flatMap Segment.written)
        exact pieces_literal_append hsegment hbehind.1 hbehind.2

section Filling

variable {environment : Environment} {text name : List Char}

theorem resolveAt_text
    (h : ∀ name, .reference name ∈ pieces text → environment.IsSet (String.ofList name))
    (path : String) :
    resolveAt environment path (.text (String.ofList text)) =
      .ok (.text (String.ofList ((pieces text).flatMap (Piece.filled environment)))) := by
  have hset : ∀ reference ∈ referencesAt path (.text (String.ofList text)),
      environment.IsSet reference.name := by
    intro reference hmem
    rw [referencesAt, String.toList_ofList] at hmem
    obtain ⟨_, hname, rfl⟩ := List.mem_map.mp hmem
    obtain ⟨piece, hpiece, heq⟩ := List.mem_filterMap.mp hname
    cases piece with
    | reference name => exact Option.some.inj heq ▸ h name hpiece
    | _ => cases heq
  rw [resolveAt_eq, verdict_eq_ok_iff]
  refine ⟨hset, ?_⟩
  rw [Json.mapTexts, Reference.filled, String.toList_ofList]

/-- An empty value counts as missing, and both are nothing in a text. -/
theorem Environment.value?_getD (environment : Environment) (name : String) :
    (environment.value? name).getD "" = (environment name).getD "" := by
  rw [Environment.value?]
  cases environment name with
  | none => rfl
  | some value => by_cases hvalue : value = "" <;> simp [Option.filter, hvalue]

theorem Segment.flatMap_filled_pieces (segment : Segment) :
    segment.pieces.flatMap (Piece.filled environment) = segment.filled environment := by
  cases segment with
  | reference name =>
    rw [Segment.pieces, List.flatMap_singleton, Piece.filled, Environment.value?_getD, filled]
  | escaped name => rw [Segment.pieces, List.flatMap_singleton, Piece.filled, filled]
  | literal text =>
    rw [Segment.pieces, List.flatMap_map]
    exact List.flatMap_singleton' text

theorem Segment.eq_of_reference_mem_pieces {segment : Segment}
    (h : .reference name ∈ segment.pieces) : segment = .reference name := by
  cases segment with
  | reference other => rw [Piece.reference.inj (List.mem_singleton.mp h)]
  | escaped other => cases List.mem_singleton.mp h
  | literal text =>
    obtain ⟨c, _, heq⟩ := List.mem_map.mp h
    cases heq

theorem AreSegments.resolveAt_eq {segments : List Segment} (h : AreSegments segments)
    (hset : ∀ name, .reference name ∈ segments → environment.IsSet (String.ofList name))
    (path : String) :
    resolveAt environment path (.text (String.ofList (segments.flatMap Segment.written))) =
      .ok (.text (String.ofList (segments.flatMap (Segment.filled environment)))) := by
  have hpieces : ∀ name, .reference name ∈ pieces (segments.flatMap Segment.written) →
      environment.IsSet (String.ofList name) := by
    intro name hname
    rw [h.pieces_eq] at hname
    obtain ⟨segment, hsegment, hpiece⟩ := List.mem_flatMap.mp hname
    exact hset name (Segment.eq_of_reference_mem_pieces hpiece ▸ hsegment)
  rw [resolveAt_text hpieces, h.pieces_eq, List.flatMap_assoc]
  simp only [Segment.flatMap_filled_pieces]

end Filling

section Guarded

variable {c : Char} {text rest name : List Char}

/-- The text with one more dollar sign before each reference in it. -/
def Reference.guarded : List Char → List Char
  | [] => []
  | c :: rest =>
    if (name? (c :: rest)).isSome then '$' :: c :: guarded rest else c :: guarded rest

theorem guarded_cons (h : name? (c :: rest) = none) : guarded (c :: rest) = c :: guarded rest := by
  simp [guarded, h]

theorem guarded_append_of_not_mem (h : '$' ∉ text) (rest : List Char) :
    guarded (text ++ rest) = text ++ guarded rest := by
  induction text with
  | nil => rfl
  | cons c text ih =>
    obtain ⟨hc, htext⟩ := not_or.mp (mt List.mem_cons.mpr h)
    rw [List.cons_append, guarded_cons (name?_of_ne (Ne.symm hc) _), ih htext, List.cons_append]

theorem guarded_written_append (h : IsName name) (rest : List Char) :
    guarded (written name ++ rest) = '$' :: written name ++ guarded rest := by
  have hname := name?_written_append h rest
  have htail := guarded_append_of_not_mem h.dollar_not_mem rest
  rw [written, List.cons_append, List.cons_append] at hname ⊢
  rw [guarded, hname, List.cons_append, htail]
  rfl

/-- A text is gone through from left to right: over a reference, or over one character. -/
theorem reference_induction {motive : List Char → Prop} (nil : motive [])
    (reference : ∀ name rest, IsName name → motive rest → motive (written name ++ rest))
    (plain : ∀ c rest, name? (c :: rest) = none → motive rest → motive (c :: rest))
    (text : List Char) : motive text := by
  cases text with
  | nil => exact nil
  | cons c rest =>
    cases hname : name? (c :: rest) with
    | none => exact plain c rest hname (reference_induction nil reference plain rest)
    | some name =>
      obtain ⟨hname, behind, heq⟩ := name?_eq_some_iff.mp hname
      have hshorter : behind.length ≤ rest.length := by
        have hlength := congrArg List.length heq
        simp only [written, List.length_append, List.length_cons] at hlength
        omega
      exact heq ▸ reference name behind hname (reference_induction nil reference plain behind)
  termination_by text.length

/-- A word without dollar signs that the guarded text starts with has stood there before. -/
theorem prefix_of_prefix_guarded {word : List Char} (hword : '$' ∉ word)
    (h : word <+: guarded text) : word <+: text := by
  induction word generalizing text with
  | nil => exact List.nil_prefix
  | cons d word ih =>
    obtain ⟨hd, hword⟩ := not_or.mp (mt List.mem_cons.mpr hword)
    cases text with
    | nil => exact absurd (List.prefix_nil.mp h) (List.cons_ne_nil d word)
    | cons c rest =>
      cases hname : name? (c :: rest) with
      | none =>
        rw [guarded_cons hname] at h
        obtain ⟨rfl, hrest⟩ := List.cons_prefix_cons.mp h
        exact List.cons_prefix_cons.mpr ⟨rfl, ih hword hrest⟩
      | some name =>
        rw [guarded, hname] at h
        exact absurd (List.cons_prefix_cons.mp h).1.symm hd

theorem name?_cons_guarded (h : name? (c :: rest) = none) : name? (c :: guarded rest) = none := by
  refine name?_eq_none_iff.mpr fun name hname hstart => name?_eq_none_iff.mp h name hname ?_
  obtain ⟨rfl, htail⟩ := List.cons_prefix_cons.mp hstart
  exact List.cons_prefix_cons.mpr ⟨rfl, prefix_of_prefix_guarded hname.dollar_not_mem htail⟩

theorem name?_guarded (text : List Char) : name? (guarded text) = none := by
  cases text with
  | nil => rfl
  | cons c rest =>
    cases hname : name? (c :: rest) with
    | none =>
      rw [guarded_cons hname]
      exact name?_cons_guarded hname
    | some name =>
      obtain ⟨-, hstart⟩ := name?_eq_some_iff.mp hname
      obtain ⟨rfl, -⟩ := List.cons_prefix_cons.mp hstart
      rw [guarded, hname]
      rfl

/-- A guarded text is read without references, as the text it was made of. -/
theorem pieces_guarded (environment : Environment) (text : List Char) :
    (∀ name, .reference name ∉ pieces (guarded text)) ∧
      (pieces (guarded text)).flatMap (Piece.filled environment) = text := by
  induction text using reference_induction with
  | nil => exact ⟨fun _ => List.not_mem_nil, rfl⟩
  | reference name rest hname ih =>
    rw [guarded_written_append hname, pieces_escaped_append hname, List.flatMap_cons, ih.2]
    exact ⟨fun other hmem => ih.1 other ((List.mem_cons.mp hmem).resolve_left nofun), rfl⟩
  | plain c rest hname ih =>
    rw [guarded_cons hname, pieces_cons (name?_cons_guarded hname) fun _ => name?_guarded rest,
      List.flatMap_cons, ih.2]
    exact ⟨fun other hmem => ih.1 other ((List.mem_cons.mp hmem).resolve_left nofun), rfl⟩

end Guarded

/-- A text is read once, from left to right. Whatever it is composed of, each reference in it comes
to the value of its variable as it is, each escape to the reference it was made of, and all else
stays. So any text is what some other text comes to, whatever variables are set: the one with one
more dollar sign before each reference. -/
theorem resolveAt_reads_once (environment : Environment) (path : String) :
    (∀ segments, AreSegments segments →
      (∀ name, .reference name ∈ segments → environment.IsSet (String.ofList name)) →
      resolveAt environment path (.text (String.ofList (segments.flatMap Segment.written))) =
        .ok (.text (String.ofList (segments.flatMap (Segment.filled environment))))) ∧
    ∀ text : String,
      resolveAt environment path (.text (String.ofList (guarded text.toList))) =
        .ok (.text text) := by
  refine ⟨fun segments h hset => h.resolveAt_eq hset path, fun text => ?_⟩
  obtain ⟨hnone, htext⟩ := pieces_guarded environment text.toList
  rw [resolveAt_text fun name hmem => absurd hmem (hnone name), htext, String.ofList_toList]

/-- An escape that is to stand for itself. -/
example : guarded "cost $$\x7bPRICE\x7d".toList = "cost $$$\x7bPRICE\x7d".toList := by decide

def nestedEnvironment : Environment := .ofEntries [("A", "$\x7bB\x7d$")]

def nestedSegments : List Segment :=
  [.reference ['A'], .literal ['$'], .escaped ['B'], .literal ['$', '{', 'A'], .reference ['A'],
    .literal ['}']]

theorem areSegments_nestedSegments : AreSegments nestedSegments where
  sound := by
    have hname : ∀ c, isNameStart c = true → IsName [c] := fun c hc => ⟨c, [], rfl, hc, by simp⟩
    simp only [nestedSegments, List.forall_mem_cons]
    exact ⟨hname 'A' rfl, Segment.isSound_literal (by decide), hname 'B' rfl,
      Segment.isSound_literal (by decide), hname 'A' rfl, Segment.isSound_literal (by decide),
      by simp⟩
  chain := by simp [nestedSegments, Segment.MayPrecede]

theorem resolveAt_nestedSegments :
    resolveAt nestedEnvironment ""
        (.text "$\x7bA\x7d$$$\x7bB\x7d$\x7bA$\x7bA\x7d\x7d") =
      .ok (.text "$\x7bB\x7d$$$\x7bB\x7d$\x7bA$\x7bB\x7d$\x7d") := by
  have hread := (resolveAt_reads_once nestedEnvironment "").1 nestedSegments
    areSegments_nestedSegments fun name hname => by
      obtain rfl : name = ['A'] := by simpa [nestedSegments] using hname
      exact ⟨"$\x7bB\x7d$", by decide, by decide⟩
  exact hread

end ChatDispatch.Config
