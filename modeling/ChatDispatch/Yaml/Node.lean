import ChatDispatch.Yaml.Scalar
import ChatDispatch.Yaml.Token

/-!
The nodes of a document. A value that is left out is an empty plain text. A node may have a name and
be referred to by its number, also from inside itself; going through a document ends because
references are counted.
-/

namespace ChatDispatch.Yaml

inductive Node where
  | scalar (text : String) (isPlain : Bool)
  | sequence (items : List Node)
  | mapping (entries : List (Node × Node))
  | tagged (tag : String) (node : Node)
  | named (number : Nat) (node : Node)
  | reference (number : Nat)

namespace Node

/-- What stands for a value that is left out. -/
def empty : Node := .scalar "" true

def comes (options : List Token) (tokens : List Token) : Bool :=
  tokens.head?.any (options.contains ·)

/-- The name and the tag in front of a node, in either order, and what follows. -/
def marks : List Token → Option Nat × Option String × List Token
  | .name number :: .tag tag :: rest => (some number, some tag, rest)
  | .tag tag :: .name number :: rest => (some number, some tag, rest)
  | .name number :: rest => (some number, none, rest)
  | .tag tag :: rest => (none, some tag, rest)
  | rest => (none, none, rest)

/-- A tag that says nothing about a text. -/
def emptyTag : String := "!"

def marked (number : Option Nat) (tag : Option String) (node : Node) : Node :=
  let node := match tag with
    | some tag => tagged tag node
    | none => node
  match number with
  | some number => named number node
  | none => node

mutual

def read (isBlock isLoose : Bool) : Nat → List Token → Except Fault (Node × List Token)
  | 0, _ => .error .tooDeep
  | fuel + 1, tokens =>
    match tokens with
    | .reference number :: rest => .ok (.reference number, rest)
    | _ => do
      let (number, tag, content) := marks tokens
      let (node, rest) ←
        readContent isBlock isLoose (number.isSome || tag.isSome) fuel content
      let tag := match content with
        | .scalar .. :: _ => tag.filter (· ≠ emptyTag)
        | _ => tag
      return (marked number tag node, rest)

/-- Read what a node holds; in a block it may be indented, and `isLoose` allows entries that are
not. It may be left out behind a mark. -/
def readContent (isBlock isLoose isMarked : Bool) :
    Nat → List Token → Except Fault (Node × List Token)
  | 0, _ => .error .tooDeep
  | fuel + 1, tokens =>
    let leftOut : Except Fault (Node × List Token) :=
      if isMarked then .ok (empty, tokens) else .error .unexpectedToken
    match tokens with
    | .scalar text isPlain :: rest => .ok (.scalar text isPlain, rest)
    | .openList :: rest => do
      let (items, rest) ← readList true fuel rest
      return (.sequence items, rest)
    | .openMap :: rest => do
      let (entries, rest) ← readMap true fuel rest
      return (.mapping entries, rest)
    | .entry :: _ =>
      if isLoose then do
        let (items, rest) ← readLooseItems fuel tokens
        return (.sequence items, rest)
      else leftOut
    | .openSequence :: rest =>
      if isBlock then do
        let (items, rest) ← readItems fuel rest
        return (.sequence items, rest)
      else leftOut
    | .openMapping :: rest =>
      if isBlock then do
        let (entries, rest) ← readEntries fuel rest
        return (.mapping entries, rest)
      else leftOut
    | _ => leftOut

def readUnless (options : List Token) (isBlock isLoose : Bool) :
    Nat → List Token → Except Fault (Node × List Token)
  | 0, _ => .error .tooDeep
  | fuel + 1, tokens =>
    if comes options tokens then .ok (empty, tokens) else read isBlock isLoose fuel tokens

def readItems : Nat → List Token → Except Fault (List Node × List Token)
  | 0, _ => .error .tooDeep
  | fuel + 1, tokens =>
    match tokens with
    | .entry :: rest => do
      let (item, rest) ← readUnless [.entry, .closeBlock] true false fuel rest
      let (items, rest) ← readItems fuel rest
      return (item :: items, rest)
    | .closeBlock :: rest => .ok ([], rest)
    | _ => .error .unexpectedToken

def readLooseItems : Nat → List Token → Except Fault (List Node × List Token)
  | 0, _ => .error .tooDeep
  | fuel + 1, tokens =>
    match tokens with
    | .entry :: rest => do
      let (item, rest) ← readUnless [.entry, .key, .value, .closeBlock] true false fuel rest
      let (items, rest) ← readLooseItems fuel rest
      return (item :: items, rest)
    | _ => .ok ([], tokens)

def readEntries : Nat → List Token → Except Fault (List (Node × Node) × List Token)
  | 0, _ => .error .tooDeep
  | fuel + 1, tokens =>
    match tokens with
    | .key :: rest => do
      let (key, rest) ← readUnless [.key, .value, .closeBlock] true true fuel rest
      let (value, rest) ← readValue [.key, .value, .closeBlock] true true fuel rest
      let (entries, rest) ← readEntries fuel rest
      return ((key, value) :: entries, rest)
    | .closeBlock :: rest => .ok ([], rest)
    | _ => .error .unexpectedToken

/-- Read a value, which is empty unless it is marked as one. -/
def readValue (options : List Token) (isBlock isLoose : Bool) :
    Nat → List Token → Except Fault (Node × List Token)
  | 0, _ => .error .tooDeep
  | fuel + 1, tokens =>
    match tokens with
    | .value :: rest => readUnless options isBlock isLoose fuel rest
    | _ => .ok (empty, tokens)

/-- Read the items of a list in brackets, and its end. An item may be a single entry of a map. -/
def readList (isFirst : Bool) : Nat → List Token → Except Fault (List Node × List Token)
  | 0, _ => .error .tooDeep
  | fuel + 1, tokens =>
    match isFirst, tokens with
    | _, .closeList :: rest => .ok ([], rest)
    | false, .comma :: .closeList :: rest => .ok ([], rest)
    | false, .comma :: rest => readListItem fuel rest
    | true, rest => readListItem fuel rest
    | false, _ => .error .unexpectedToken

def readListItem : Nat → List Token → Except Fault (List Node × List Token)
  | 0, _ => .error .tooDeep
  | fuel + 1, tokens =>
    match tokens with
    | .key :: rest => do
      let isLeftOut := comes [.value, .comma, .closeList] rest
      let (key, rest) ←
        if isLeftOut then .ok (empty, rest.drop 1) else read false false fuel rest
      let (value, rest) ← readValue [.comma, .closeList] false false fuel rest
      let (items, rest) ← readList false fuel rest
      return (.mapping [(key, value)] :: items, rest)
    | _ => do
      let (item, rest) ← read false false fuel tokens
      let (items, rest) ← readList false fuel rest
      return (item :: items, rest)

def readMap (isFirst : Bool) : Nat → List Token → Except Fault (List (Node × Node) × List Token)
  | 0, _ => .error .tooDeep
  | fuel + 1, tokens =>
    match isFirst, tokens with
    | _, .closeMap :: rest => .ok ([], rest)
    | false, .comma :: .closeMap :: rest => .ok ([], rest)
    | false, .comma :: rest => readMapEntry fuel rest
    | true, rest => readMapEntry fuel rest
    | false, _ => .error .unexpectedToken

def readMapEntry : Nat → List Token → Except Fault (List (Node × Node) × List Token)
  | 0, _ => .error .tooDeep
  | fuel + 1, tokens =>
    match tokens with
    | .key :: rest => do
      let (key, rest) ← readUnless [.value, .comma, .closeMap] false false fuel rest
      let (value, rest) ← readValue [.comma, .closeMap] false false fuel rest
      let (entries, rest) ← readMap false fuel rest
      return ((key, value) :: entries, rest)
    | _ => do
      let (key, rest) ← read false false fuel tokens
      let (entries, rest) ← readMap false fuel rest
      return ((key, empty) :: entries, rest)

end

def endsDocument (tokens : List Token) : Bool :=
  tokens.head?.all fun token =>
    match token with
    | .version .. | .handle | .documentStart | .documentEnd => true
    | _ => false

/-- The directives are fit for a document: at most one version, which is a known one. -/
def areFit (directives : List Token) : Bool :=
  let versions := directives.filterMap fun token =>
    match token with
    | .version major minor => some (major, minor)
    | _ => none
  versions.length ≤ 1 && versions.all fun (major, minor) => major == 1 && (minor == 1 || minor == 2)

def isDirective : Token → Bool
  | .version .. | .handle => true
  | _ => false

/-- Read one document: its directives and its start may be left out, its end as well. It may be
empty if its start is marked, and a text without tokens is an empty document. -/
def document (tokens : List Token) : Except Fault Node := do
  let directives := tokens.takeWhile isDirective
  let tokens := tokens.dropWhile isDirective
  if !areFit directives then throw .badDirective
  let (hasStart, tokens) ← match tokens with
    | .documentStart :: rest => .ok (true, rest)
    | rest => if directives.isEmpty then .ok (false, rest) else .error .unexpectedToken
  let isEmpty := tokens.isEmpty || (hasStart && endsDocument tokens)
  let (node, rest) ←
    if isEmpty then .ok (empty, tokens) else read true false (12 * tokens.length + 12) tokens
  if (rest.dropWhile (· == .documentEnd)).isEmpty then return node
  else throw .furtherDocument

mutual

/-- The nodes that have names, in the order in which they start. -/
def allNamed : Node → List (Nat × Node)
  | .scalar .. => []
  | .reference _ => []
  | .tagged _ node => allNamed node
  | .named number node => (number, node) :: allNamed node
  | .sequence items => allNamedInItems items
  | .mapping entries => allNamedInEntries entries

def allNamedInItems : List Node → List (Nat × Node)
  | [] => []
  | item :: rest => allNamed item ++ allNamedInItems rest

def allNamedInEntries : List (Node × Node) → List (Nat × Node)
  | [] => []
  | (key, value) :: rest => allNamed key ++ allNamed value ++ allNamedInEntries rest

end

mutual

/-- The extent of a node: one for a text or a reference, and one each for the start and the end of
what holds other nodes. -/
def extent : Node → Nat
  | .scalar .. => 1
  | .reference _ => 1
  | .tagged _ node => extent node
  | .named _ node => extent node
  | .sequence items => 2 + extentOfItems items
  | .mapping entries => 2 + extentOfEntries entries

def extentOfItems : List Node → Nat
  | [] => 0
  | item :: rest => extent item + extentOfItems rest

def extentOfEntries : List (Node × Node) → Nat
  | [] => 0
  | (key, value) :: rest => extent key + extent value + extentOfEntries rest

end

/-- The nodes that references mean, the last of a number first, and how many references may be
followed. -/
structure Shared where
  nodes : List (Nat × Node)
  limit : Nat

def referencesPerPart : Nat := 100

def shared (node : Node) : Shared :=
  ⟨node.allNamed.reverse, referencesPerPart * node.extent⟩

abbrev Following := StateT Nat (Except Fault)

def Shared.target (shared : Shared) (node : Node) : Following (Option String × Node) := do
  let split : Node → Option String × Node
    | .tagged tag node => (some tag, node)
    | node => (none, node)
  match node with
  | .reference number => do
    let count ← get
    if shared.limit ≤ count then throw .tooManyReferences
    set (count + 1)
    match shared.nodes.lookup number with
    | some node => return split node
    | none => throw .unknownName
  | .named _ node => return split node
  | node => return split node

/-- The text of a key, whatever it would stand for as a value. -/
def Shared.keyText (shared : Shared) (key : Node) : Following String := do
  match ← shared.target key with
  | (_, .scalar text _) => return text
  | _ => throw .compoundKey

/-- The value tree of a node with at most `depth` sequences and mappings inside each other. -/
def tree (shared : Shared) (depth : Nat) (node : Node) : Following Json := do
  let (tag, node) ← shared.target node
  match depth, node with
  | _, .scalar text isPlain =>
    match tag with
    | some tag => taggedValue tag text
    | none => if isPlain then plainValue text else return .text text
  | depth + 1, .sequence items =>
    if tag.any isOwnKind then throw .unfitForTag
    return .array (← items.mapM (tree shared depth))
  | depth + 1, .mapping entries =>
    if tag.any isOwnKind then throw .unfitForTag
    let entries ← entries.mapM fun (key, value) => do
      return (← shared.keyText key, ← tree shared depth value)
    return .ofEntries entries
  | _, _ => throw .tooDeep

def depthLimit : Nat := 128

end Node

def parse (text : String) : Except Fault Json := do
  let node ← Node.document (← Token.ofText text)
  (node.tree node.shared Node.depthLimit).run' 0

end ChatDispatch.Yaml
