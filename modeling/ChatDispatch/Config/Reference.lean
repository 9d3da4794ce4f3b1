import ChatDispatch.Json.Basic

/-!
References to environment variables in the texts of a config tree. `$` and a name in braces stand
for the value of the variable; one more `$` in front makes the reference a plain text. All of a
text is read once, from left to right, so what a variable holds is never read for references; its
pieces, as they are written, are the whole text.
-/

namespace ChatDispatch.Config

abbrev Environment := String → Option String

namespace Environment

/-- The value of a variable; an empty one counts as missing. -/
def value? (environment : Environment) (name : String) : Option String :=
  (environment name).filter (· ≠ "")

def ofEntries (entries : List (String × String)) : Environment :=
  fun name => entries.lookup name

end Environment

namespace Reference

inductive Piece where
  | plain (c : Char)
  | reference (name : List Char)
  | escaped (name : List Char)
  deriving DecidableEq, Repr

def isNameStart (c : Char) : Bool := ('A' ≤ c && c ≤ 'Z') || c == '_'
def isNamePart (c : Char) : Bool := isNameStart c || ('0' ≤ c && c ≤ '9')

def name? : List Char → Option (List Char)
  | '$' :: '{' :: c :: rest =>
    if isNameStart c && (rest.dropWhile isNamePart).head? == some '}' then
      some (c :: rest.takeWhile isNamePart)
    else none
  | _ => none

def written (name : List Char) : List Char := '$' :: '{' :: name ++ ['}']

/-- The reference, or the escaped one, that a text starts with. -/
def leading? (text : List Char) : Option Piece :=
  match name? text, text with
  | some name, _ => some (.reference name)
  | none, '$' :: rest => (name? rest).map .escaped
  | none, _ => none

def Piece.written : Piece → List Char
  | plain c => [c]
  | reference name => Reference.written name
  | escaped name => '$' :: Reference.written name

/-- The pieces behind the next `skip` characters. -/
def piecesFrom : Nat → List Char → List Piece
  | _, [] => []
  | skip + 1, _ :: rest => piecesFrom skip rest
  | 0, c :: rest =>
    match leading? (c :: rest) with
    | some piece => piece :: piecesFrom (piece.written.length - 1) rest
    | none => .plain c :: piecesFrom 0 rest

def pieces (text : List Char) : List Piece := piecesFrom 0 text

theorem name?_eq_some {text name : List Char} (h : name? text = some name) :
    ∃ rest, text = written name ++ rest := by
  unfold name? at h
  split at h
  · rename_i c rest
    split at h
    · rename_i hc
      obtain rfl := Option.some.inj h
      have hend := (Bool.and_eq_true_iff.1 hc).2
      cases hdrop : rest.dropWhile isNamePart with
      | nil => simp [hdrop] at hend
      | cons brace behind =>
        simp only [hdrop, List.head?_cons, beq_iff_eq, Option.some.injEq] at hend
        subst hend
        refine ⟨behind, ?_⟩
        have hsplit := List.takeWhile_append_dropWhile (p := isNamePart) (l := rest)
        rw [hdrop] at hsplit
        simp only [written, List.cons_append, List.append_assoc, List.nil_append]
        rw [hsplit]
    · cases h
  · cases h

theorem leading?_eq_some {text : List Char} {piece : Piece} (h : leading? text = some piece) :
    ∃ rest, text = piece.written ++ rest := by
  unfold leading? at h
  split at h
  · rename_i name hname
    obtain rfl := Option.some.inj h
    exact name?_eq_some hname
  · rename_i rest _
    obtain ⟨name, hname, rfl⟩ := Option.map_eq_some_iff.1 h
    obtain ⟨behind, rfl⟩ := name?_eq_some hname
    exact ⟨behind, rfl⟩
  · cases h

theorem flatMap_written_piecesFrom (skip : Nat) (text : List Char) :
    (piecesFrom skip text).flatMap Piece.written = text.drop skip := by
  induction text generalizing skip with
  | nil => cases skip <;> simp [piecesFrom]
  | cons c rest ih =>
    cases skip with
    | succ skip => simpa [piecesFrom] using ih skip
    | zero =>
      simp only [piecesFrom]
      split
      · rename_i piece hpiece
        obtain ⟨behind, heq⟩ := leading?_eq_some hpiece
        have hpos : 0 < piece.written.length := by cases piece <;> simp [Piece.written, written]
        have hdrop : rest.drop (piece.written.length - 1) = behind := by
          have : (c :: rest).drop piece.written.length = behind := by simp [heq]
          obtain ⟨n, hn⟩ := Nat.exists_eq_succ_of_ne_zero (Nat.ne_of_gt hpos)
          rw [hn] at this ⊢
          simpa using this
        simp [List.flatMap_cons, ih, hdrop, heq]
      · simp [List.flatMap_cons, ih, Piece.written]

/-- The pieces of a text are all of it, in order. -/
theorem flatMap_written_pieces (text : List Char) :
    (pieces text).flatMap Piece.written = text :=
  flatMap_written_piecesFrom 0 text

/-- The text that pieces stand for, or the first variable that is missing. -/
def substitute (environment : Environment) : List Piece → Except String (List Char)
  | [] => .ok []
  | piece :: rest => do
    let text ← match piece with
      | .plain c => .ok [c]
      | .escaped name => .ok (written name)
      | .reference name =>
        match environment.value? (String.ofList name) with
        | some value => .ok value.toList
        | none => .error (String.ofList name)
    let texts ← substitute environment rest
    return text ++ texts

def names (pieces : List Piece) : List String :=
  pieces.filterMap fun piece =>
    match piece with
    | .reference name => some (String.ofList name)
    | _ => none

end Reference

structure MissingVariable where
  name : String
  path : String
  deriving DecidableEq, Repr

def MissingVariable.message (missing : MissingVariable) : String :=
  "Missing env var \"" ++ missing.name ++ "\" referenced at config path: " ++ missing.path

def itemPath (path : String) (index : Nat) : String := path ++ "[" ++ toString index ++ "]"

def keyPath (path key : String) : String := if path = "" then key else path ++ "." ++ key

mutual

/-- A tree at a place with its references replaced, or the first variable that is missing. -/
def resolveAt (environment : Environment) (path : String) : Json → Except MissingVariable Json
  | .text s =>
    ((Reference.substitute environment (Reference.pieces s.toList)).map
      (Json.text ∘ String.ofList)).mapError (MissingVariable.mk · path)
  | .array items => (resolveItems environment path 0 items).map .array
  | .object entries => (resolveEntries environment path entries).map .object
  | other => .ok other

def resolveItems (environment : Environment) (path : String) (index : Nat) :
    List Json → Except MissingVariable (List Json)
  | [] => .ok []
  | item :: rest => do
    let item ← resolveAt environment (itemPath path index) item
    let rest ← resolveItems environment path (index + 1) rest
    return item :: rest

def resolveEntries (environment : Environment) (path : String) :
    List (String × Json) → Except MissingVariable (List (String × Json))
  | [] => .ok []
  | (key, value) :: rest => do
    let value ← resolveAt environment (keyPath path key) value
    let rest ← resolveEntries environment path rest
    return (key, value) :: rest

end

def resolve (environment : Environment) (tree : Json) : Except MissingVariable Json :=
  resolveAt environment "" tree

mutual

def referenceNames : Json → List String
  | .text s => Reference.names (Reference.pieces s.toList)
  | .array items => itemReferenceNames items
  | .object entries => entryReferenceNames entries
  | _ => []

def itemReferenceNames : List Json → List String
  | [] => []
  | item :: rest => referenceNames item ++ itemReferenceNames rest

def entryReferenceNames : List (String × Json) → List String
  | [] => []
  | (_, value) :: rest => referenceNames value ++ entryReferenceNames rest

end

def referencedVariables (tree : Json) : List String :=
  ((referenceNames tree).eraseDups).mergeSort fun a b => !decide (b < a)

end ChatDispatch.Config
