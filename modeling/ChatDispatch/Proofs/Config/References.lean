import ChatDispatch.Config.Reference

/-!
References in a whole tree. Replacing them and listing them are separate recursions over the same
tree; they agree on what counts as a reference. What comes of the replacement is settled by the
references in the order in which they are read: the first of them whose variable is missing is the
one reported, and if there is none, every text is filled in at its place and all else stays.
-/

namespace ChatDispatch

mutual

def Json.mapTexts (change : String → String) : Json → Json
  | .text s => .text (change s)
  | .array items => .array (Json.mapItemTexts change items)
  | .object entries => .object (Json.mapEntryTexts change entries)
  | other => other

def Json.mapItemTexts (change : String → String) : List Json → List Json
  | [] => []
  | item :: rest => item.mapTexts change :: Json.mapItemTexts change rest

def Json.mapEntryTexts (change : String → String) : List (String × Json) → List (String × Json)
  | [] => []
  | (key, value) :: rest => (key, value.mapTexts change) :: Json.mapEntryTexts change rest

end

namespace Config

open Reference

variable {environment other : Environment}

theorem Environment.value?_eq_some_iff {name value : String} :
    environment.value? name = some value ↔ environment name = some value ∧ value ≠ "" := by
  simp [Environment.value?, Option.filter_eq_some_iff]

def Environment.IsSet (environment : Environment) (name : String) : Prop :=
  ∃ value, environment name = some value ∧ value ≠ ""

theorem Environment.isSet_iff {name : String} :
    environment.IsSet name ↔ (environment.value? name).isSome := by
  simp only [Environment.IsSet, Option.isSome_iff_exists, Environment.value?_eq_some_iff]

namespace Reference

/-- What a piece stands for; a missing variable stands for nothing. -/
def Piece.filled (environment : Environment) : Piece → List Char
  | .plain c => [c]
  | .escaped name => Reference.written name
  | .reference name => ((environment.value? (String.ofList name)).getD "").toList

def filled (environment : Environment) (text : String) : String :=
  String.ofList ((pieces text.toList).flatMap (Piece.filled environment))

def IsPlain (text : String) : Prop :=
  ∀ piece ∈ pieces text.toList, ∃ c, piece = .plain c

end Reference

/-- What the references that have been read come to: the first one whose variable is missing, and
`value` if there is none. -/
def verdict {α : Type} (environment : Environment) (references : List MissingVariable)
    (value : α) : Except MissingVariable α :=
  match references.find? fun reference => (environment.value? reference.name).isNone with
  | some missing => .error missing
  | none => .ok value

mutual

/-- The references in a tree at a place, in the order in which they are read: items and entries in
their order, and each text from left to right. -/
def referencesAt (path : String) : Json → List MissingVariable
  | .text s => (names (pieces s.toList)).map (MissingVariable.mk · path)
  | .array items => itemReferencesAt path 0 items
  | .object entries => entryReferencesAt path entries
  | _ => []

def itemReferencesAt (path : String) (index : Nat) : List Json → List MissingVariable
  | [] => []
  | item :: rest =>
    referencesAt (itemPath path index) item ++ itemReferencesAt path (index + 1) rest

def entryReferencesAt (path : String) : List (String × Json) → List MissingVariable
  | [] => []
  | (key, value) :: rest => referencesAt (keyPath path key) value ++ entryReferencesAt path rest

end

def references (tree : Json) : List MissingVariable := referencesAt "" tree

section Verdict

variable {α β γ : Type}

theorem verdict_map (references : List MissingVariable) (value : α) (f : α → β) :
    (verdict environment references value).map f = verdict environment references (f value) := by
  unfold verdict
  split <;> rfl

/-- References that are read in turn: a missing one among the first ends the reading. -/
theorem verdict_append (first second : List MissingVariable) (a : α) (b : β) (f : α → β → γ) :
    verdict environment (first ++ second) (f a b) = do
      let a ← verdict environment first a
      let b ← verdict environment second b
      return f a b := by
  unfold verdict
  rw [List.find?_append]
  cases first.find? fun reference => (environment.value? reference.name).isNone with
  | some missing => rfl
  | none =>
    cases second.find? fun reference => (environment.value? reference.name).isNone <;> rfl

end Verdict

def Reference.Piece.read (environment : Environment) : Piece → Except String (List Char)
  | .plain c => .ok [c]
  | .escaped name => .ok (Reference.written name)
  | .reference name =>
    match environment.value? (String.ofList name) with
    | some value => .ok value.toList
    | none => .error (String.ofList name)

theorem substitute_cons (piece : Piece) (rest : List Piece) :
    substitute environment (piece :: rest) = do
      let text ← piece.read environment
      let texts ← substitute environment rest
      return text ++ texts := by
  cases piece with
  | plain c => rfl
  | escaped name => rfl
  | reference name =>
    cases hvalue : environment.value? (String.ofList name) <;>
      simp only [substitute, Piece.read, hvalue]

theorem read_eq (path : String) (piece : Piece) :
    (piece.read environment).mapError (MissingVariable.mk · path) =
      verdict environment ((names [piece]).map (MissingVariable.mk · path))
        (piece.filled environment) := by
  cases piece with
  | plain c => rfl
  | escaped name => rfl
  | reference name =>
    have hnames : names [.reference name] = [String.ofList name] := rfl
    rw [hnames]
    cases hvalue : environment.value? (String.ofList name) with
    | none =>
      simp only [Piece.read, verdict, hvalue, List.map_cons, List.find?_cons, Option.isNone_none]
      rfl
    | some value =>
      simp only [Piece.read, Piece.filled, verdict, hvalue, List.map_cons, List.find?_cons,
        Option.isNone_some]
      rfl

/-- One text is settled by the references in it, from left to right. -/
theorem substitute_eq (path : String) (pieces : List Piece) :
    (substitute environment pieces).mapError (MissingVariable.mk · path) =
      verdict environment ((names pieces).map (MissingVariable.mk · path))
        (pieces.flatMap (Piece.filled environment)) := by
  induction pieces with
  | nil => rfl
  | cons piece rest ih =>
    have hnames : names (piece :: rest) = names [piece] ++ names rest :=
      List.filterMap_append (l := [piece])
    rw [hnames, List.map_append, List.flatMap_cons, verdict_append, ← read_eq, ← ih,
      substitute_cons]
    cases piece.read environment with
    | error name => rfl
    | ok text => cases substitute environment rest <;> rfl

mutual

/-- A tree is settled by the references in it. -/
theorem resolveAt_eq (path : String) : ∀ tree : Json,
    resolveAt environment path tree =
      verdict environment (referencesAt path tree) (tree.mapTexts (filled environment))
  | .text s => by
    have htext := @substitute_eq environment path (pieces s.toList)
    have hfilled := @verdict_map environment _ _
      ((names (pieces s.toList)).map (MissingVariable.mk · path))
      ((pieces s.toList).flatMap (Piece.filled environment)) (Json.text ∘ String.ofList)
    rw [← htext] at hfilled
    rw [resolveAt, referencesAt, Json.mapTexts]
    refine Eq.trans ?_ hfilled
    cases substitute environment (pieces s.toList) <;> rfl
  | .array items => by
    rw [resolveAt, referencesAt, Json.mapTexts, resolveItems_eq path 0 items, verdict_map]
  | .object entries => by
    rw [resolveAt, referencesAt, Json.mapTexts, resolveEntries_eq path entries, verdict_map]
  | .null | .bool _ | .int _ | .real _ => rfl

theorem resolveItems_eq (path : String) (index : Nat) : ∀ items : List Json,
    resolveItems environment path index items =
      verdict environment (itemReferencesAt path index items)
        (Json.mapItemTexts (filled environment) items)
  | [] => rfl
  | item :: rest => by
    rw [resolveItems, itemReferencesAt, Json.mapItemTexts, verdict_append, resolveAt_eq,
      resolveItems_eq]

theorem resolveEntries_eq (path : String) : ∀ entries : List (String × Json),
    resolveEntries environment path entries =
      verdict environment (entryReferencesAt path entries)
        (Json.mapEntryTexts (filled environment) entries)
  | [] => rfl
  | (key, value) :: rest => by
    rw [resolveEntries, entryReferencesAt, Json.mapEntryTexts,
      verdict_append _ _ _ _ fun value rest => (key, value) :: rest, resolveAt_eq,
      resolveEntries_eq]

end

mutual

/-- The names are listed of the same references. -/
theorem map_name_referencesAt (path : String) : ∀ tree : Json,
    (referencesAt path tree).map MissingVariable.name = referenceNames tree
  | .text s => by
    rw [referencesAt, referenceNames, List.map_map]
    exact List.map_id _
  | .array items => by
    rw [referencesAt, referenceNames, map_name_itemReferencesAt]
  | .object entries => by
    rw [referencesAt, referenceNames, map_name_entryReferencesAt]
  | .null | .bool _ | .int _ | .real _ => rfl

theorem map_name_itemReferencesAt (path : String) (index : Nat) : ∀ items : List Json,
    (itemReferencesAt path index items).map MissingVariable.name = itemReferenceNames items
  | [] => rfl
  | item :: rest => by
    rw [itemReferencesAt, itemReferenceNames, List.map_append, map_name_referencesAt,
      map_name_itemReferencesAt]

theorem map_name_entryReferencesAt (path : String) : ∀ entries : List (String × Json),
    (entryReferencesAt path entries).map MissingVariable.name = entryReferenceNames entries
  | [] => rfl
  | (key, value) :: rest => by
    rw [entryReferencesAt, entryReferenceNames, List.map_append, map_name_referencesAt,
      map_name_entryReferencesAt]

end

theorem mem_referencedVariables_iff {tree : Json} {name : String} :
    name ∈ referencedVariables tree ↔ ∃ reference ∈ references tree, reference.name = name := by
  rw [referencedVariables, List.mem_mergeSort, List.mem_eraseDups, ← map_name_referencesAt "",
    List.mem_map]
  rfl

theorem resolve_eq (tree : Json) :
    resolve environment tree =
      verdict environment (references tree) (tree.mapTexts (filled environment)) :=
  resolveAt_eq "" tree

theorem verdict_eq_ok_iff {α : Type} {references : List MissingVariable} {value result : α} :
    verdict environment references value = .ok result ↔
      (∀ reference ∈ references, environment.IsSet reference.name) ∧ result = value := by
  simp only [Environment.isSet_iff]
  unfold verdict
  split
  next missing hfind =>
    have hmissing := List.find?_some hfind
    refine iff_of_false nofun fun h => ?_
    have hset := h.1 missing (List.mem_of_find?_eq_some hfind)
    simp [Option.isNone_iff_eq_none.mp hmissing] at hset
  next hfind =>
    have hall := List.find?_eq_none.mp hfind
    rw [Except.ok.injEq, eq_comm, and_iff_right]
    intro reference hmem
    have hnot := hall reference hmem
    simpa [Option.isSome_iff_ne_none] using hnot

theorem verdict_eq_error_iff {α : Type} {references : List MissingVariable} {value : α}
    {missing : MissingVariable} :
    verdict environment references value = .error missing ↔
      ∃ before after, references = before ++ missing :: after ∧
        ¬ environment.IsSet missing.name ∧
        ∀ reference ∈ before, environment.IsSet reference.name := by
  have hfound : verdict environment references value = .error missing ↔
      references.find? (fun reference => (environment.value? reference.name).isNone) =
        some missing := by
    unfold verdict
    cases references.find? fun reference => (environment.value? reference.name).isNone <;> simp
  rw [hfound, List.find?_eq_some_iff_append]
  simp only [Environment.isSet_iff, Option.isNone_iff_eq_none, Option.isSome_iff_ne_none, ne_eq,
    Classical.not_not, Bool.not_eq_true', Option.isNone_eq_false_iff]
  constructor
  · rintro ⟨hmissing, before, after, hsplit, hbefore⟩
    exact ⟨before, after, hsplit, hmissing, hbefore⟩
  · rintro ⟨before, after, hsplit, hmissing, hbefore⟩
    exact ⟨hmissing, before, after, hsplit, hbefore⟩

/-- What comes of a text depends on the variables that it refers to only. -/
theorem substitute_congr {pieces : List Piece}
    (h : ∀ name ∈ names pieces, environment name = other name) :
    substitute environment pieces = substitute other pieces := by
  induction pieces with
  | nil => rfl
  | cons piece rest ih =>
    have hnames : names (piece :: rest) = names [piece] ++ names rest :=
      List.filterMap_append (l := [piece])
    rw [hnames] at h
    have hrest := ih fun name hname => h name (List.mem_append_right _ hname)
    have hread : piece.read environment = piece.read other := by
      cases piece with
      | plain c => rfl
      | escaped name => rfl
      | reference name =>
        have hvalue := h (String.ofList name) (List.mem_append_left _ List.mem_cons_self)
        simp only [Piece.read, Environment.value?, hvalue]
    rw [substitute_cons, substitute_cons, hread, hrest]

mutual

/-- What comes of a tree depends on the variables that it refers to only. -/
theorem resolveAt_congr (path : String) : ∀ tree : Json,
    (∀ name ∈ referenceNames tree, environment name = other name) →
    resolveAt environment path tree = resolveAt other path tree
  | .text s, h => by
    rw [resolveAt, resolveAt, substitute_congr h]
  | .array items, h => by
    rw [resolveAt, resolveAt, resolveItems_congr path 0 items h]
  | .object entries, h => by
    rw [resolveAt, resolveAt, resolveEntries_congr path entries h]
  | .null, _ | .bool _, _ | .int _, _ | .real _, _ => rfl

theorem resolveItems_congr (path : String) (index : Nat) : ∀ items : List Json,
    (∀ name ∈ itemReferenceNames items, environment name = other name) →
    resolveItems environment path index items = resolveItems other path index items
  | [], _ => rfl
  | item :: rest, h => by
    have hitem := resolveAt_congr (itemPath path index) item fun name hname =>
      h name (List.mem_append_left _ hname)
    have hrest := resolveItems_congr path (index + 1) rest fun name hname =>
      h name (List.mem_append_right _ hname)
    rw [resolveItems, resolveItems, hitem, hrest]

theorem resolveEntries_congr (path : String) : ∀ entries : List (String × Json),
    (∀ name ∈ entryReferenceNames entries, environment name = other name) →
    resolveEntries environment path entries = resolveEntries other path entries
  | [], _ => rfl
  | (key, value) :: rest, h => by
    have hvalue := resolveAt_congr (keyPath path key) value fun name hname =>
      h name (List.mem_append_left _ hname)
    have hrest := resolveEntries_congr path rest fun name hname =>
      h name (List.mem_append_right _ hname)
    rw [resolveEntries, resolveEntries, hvalue, hrest]

end

theorem filled_of_isPlain {text : String} (h : IsPlain text) : filled environment text = text := by
  have hshown : ∀ piece ∈ pieces text.toList, piece.filled environment = piece.written := by
    intro piece hpiece
    obtain ⟨c, rfl⟩ := h piece hpiece
    rfl
  rw [filled, List.flatMap_def, List.map_congr_left hshown, ← List.flatMap_def,
    flatMap_written_pieces, String.ofList_toList]

/-- A text in which no dollar sign is followed by a brace is plain. -/
theorem isPlain_of_not_infix {text : String} (h : ¬ ['$', '{'] <:+: text.toList) :
    IsPlain text := by
  intro piece hpiece
  have hwritten : piece.written <:+: text.toList := by
    rw [← flatMap_written_pieces text.toList]
    obtain ⟨before, after, hsplit⟩ := List.append_of_mem hpiece
    rw [hsplit, List.flatMap_append, List.flatMap_cons]
    exact ⟨_, _, by rw [List.append_assoc]⟩
  cases piece with
  | plain c => exact ⟨c, rfl⟩
  | reference name =>
    have hstart : ['$', '{'] <:+: (Piece.reference name).written :=
      (List.prefix_append ['$', '{'] (name ++ ['}'])).isInfix
    exact absurd (hstart.trans hwritten) h
  | escaped name =>
    have hstart : ['$', '{'] <:+: (Piece.escaped name).written :=
      ⟨['$'], name ++ ['}'], rfl⟩
    exact absurd (hstart.trans hwritten) h

/-- Replacing the references in a tree. It succeeds just where every variable that is listed for the
tree has a value that is not empty, and what comes of it depends on those variables only. The tree
that comes of it is the one given with each text filled in at its place; a text that holds no
reference and no escape stays as it is, and so does every text without a dollar sign before a brace.
A failure names the first reference, in the order in which they are read, whose variable is missing,
with the place of its text. -/
theorem resolve_settled_by_references (environment : Environment) (tree : Json) :
    ((∃ resolved, resolve environment tree = .ok resolved) ↔
      ∀ name ∈ referencedVariables tree, environment.IsSet name) ∧
    (∀ other : Environment,
      (∀ name ∈ referencedVariables tree, environment name = other name) →
        resolve environment tree = resolve other tree) ∧
    (∀ resolved, resolve environment tree = .ok resolved →
      resolved = tree.mapTexts (filled environment)) ∧
    (∀ text, IsPlain text → filled environment text = text) ∧
    (∀ text : String, ¬ ['$', '{'] <:+: text.toList → IsPlain text) ∧
    ∀ missing, resolve environment tree = .error missing ↔
      ∃ before after, references tree = before ++ missing :: after ∧
        ¬ environment.IsSet missing.name ∧
        ∀ reference ∈ before, environment.IsSet reference.name := by
  have hnames : ∀ name, name ∈ referencedVariables tree ↔
      ∃ reference ∈ references tree, reference.name = name :=
    fun _ => mem_referencedVariables_iff
  refine ⟨?_, ?_, ?_, fun _ => filled_of_isPlain, fun _ => isPlain_of_not_infix, ?_⟩
  · simp only [resolve_eq, verdict_eq_ok_iff, exists_and_left, exists_eq, and_true, hnames]
    constructor
    · rintro hset _ ⟨reference, hmem, rfl⟩
      exact hset reference hmem
    · intro hset reference hmem
      exact hset _ ⟨reference, hmem, rfl⟩
  · intro other hagree
    apply resolveAt_congr
    intro name hname
    apply hagree
    rwa [referencedVariables, List.mem_mergeSort, List.mem_eraseDups]
  · intro resolved hresolved
    rw [resolve_eq, verdict_eq_ok_iff] at hresolved
    exact hresolved.2
  · intro missing
    rw [resolve_eq, verdict_eq_error_iff]

def hostEnvironment : Environment := .ofEntries [("DIR", "/var"), ("NAME", "")]

def hostTree : Json :=
  .object [("log", .array [.text "$\x7bDIR\x7d/$$\x7bNAME\x7d", .int 1]),
    ("user", .text "$\x7bNAME\x7d@$\x7bHOST\x7d")]

/-- The empty variable is the first that is missing. -/
theorem resolve_hostTree :
    resolve hostEnvironment hostTree = .error ⟨"NAME", "user"⟩ ∧
      references hostTree = [⟨"DIR", "log[0]"⟩, ⟨"NAME", "user"⟩, ⟨"HOST", "user"⟩] := by
  have hreferences :
      references hostTree = [⟨"DIR", "log[0]"⟩] ++ ⟨"NAME", "user"⟩ :: [⟨"HOST", "user"⟩] := by rfl
  refine ⟨?_, hreferences⟩
  apply ((resolve_settled_by_references hostEnvironment hostTree).2.2.2.2.2 _).mpr
  refine ⟨_, _, hreferences, ?_, ?_⟩
  · rintro ⟨value, hvalue, hne⟩
    obtain rfl : "" = value := Option.some.inj hvalue
    exact hne rfl
  · intro reference hmem
    obtain rfl := List.mem_singleton.mp hmem
    exact ⟨"/var", rfl, by decide⟩

end Config

end ChatDispatch
