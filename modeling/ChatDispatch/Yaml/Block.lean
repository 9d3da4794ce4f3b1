import ChatDispatch.Yaml.Flowing

/-!
Blocks of text: indented lines that are kept as they are, or folded into paragraphs. The indent is
given in the header or is that of the first line that is not empty; what becomes of the line breaks
at the end is the header's choice too.
-/

namespace ChatDispatch.Yaml

/-- What becomes of the line breaks at the end of a block: one is kept, none, or all. -/
inductive Chomping where
  | clip
  | strip
  | keep
  deriving DecidableEq, Repr

structure BlockHeader where
  chomping : Chomping := .clip
  extraIndent : Option Nat := none
  deriving DecidableEq, Repr

def chomping? : Char → Option Chomping
  | '+' => some .keep
  | '-' => some .strip
  | _ => none

/-- A header, in which the sign and the extra indent may stand in either order, and what follows. -/
def blockHeader : List Spot → Except Fault (BlockHeader × List Spot)
  | [] => .ok ({}, [])
  | first :: rest =>
    let digit? (spot : Spot) : Option Nat :=
      if spot.char.isDigit then some (spot.char.toNat - '0'.toNat) else none
    let checked (header : BlockHeader) (spots : List Spot) :
        Except Fault (BlockHeader × List Spot) :=
      if header.extraIndent = some 0 then .error (.badBlockHeader first.line first.column)
      else .ok (header, spots)
    match chomping? first.char, digit? first with
    | some chomping, _ =>
      match rest with
      | second :: more =>
        match digit? second with
        | some n => checked ⟨chomping, some n⟩ more
        | none => .ok (⟨chomping, none⟩, rest)
      | [] => .ok (⟨chomping, none⟩, [])
    | none, some n =>
      match rest with
      | second :: more =>
        match chomping? second.char with
        | some chomping => checked ⟨chomping, some n⟩ more
        | none => checked ⟨.clip, some n⟩ rest
      | [] => checked ⟨.clip, some n⟩ []
    | none, none => .ok ({}, first :: rest)

def afterHeaderLine (spots : List Spot) : Except Fault (List Spot) :=
  let behind := spots.dropWhile (isGap ·.char)
  let behind := if startsWithChar '#' behind then behind.dropWhile (!isBreak ·.char) else behind
  match behind with
  | [] => .ok []
  | spot :: rest =>
    if isBreak spot.char then .ok rest else .error (.badBlockHeader spot.line spot.column)

/-- Pass over indents and empty lines: the greatest column reached, the line breaks passed over and
what follows. Of each line at most `indent` spaces are passed over, or all if it is not known. -/
def emptyLines (indent : Option Nat) (greatest : Nat) :
    List Spot → Except Fault (Nat × List Char × List Spot)
  | [] => .ok (greatest, [], [])
  | spot :: rest =>
    let isOutside := indent.all (spot.column < ·)
    if spot.char == ' ' && isOutside then
      emptyLines indent (max greatest (spot.column + 1)) rest
    else if spot.char == '\t' && isOutside then .error (.misplacedTab spot.line spot.column)
    else if isBreak spot.char then do
      let (greatest, breaks, rest) ← emptyLines indent greatest rest
      .ok (greatest, spot.char :: breaks, rest)
    else .ok (greatest, [], spot :: rest)

/-- The text of a block up to some point: its lines, the last line break and those of the empty
lines behind it, and whether the last line started with a gap. -/
structure BlockText where
  text : List Char := []
  lastBreak : List Char := []
  emptyBreaks : List Char := []
  startsWithGap : Bool := false

namespace BlockText

/-- Add one line to the text. In a folded block the break between two lines of a paragraph becomes
a space, or nothing if there are empty lines between them. -/
def addLine (isFolded : Bool) (block : BlockText) (line : List Char) : BlockText :=
  let startsWithGap := line.head?.any isGap
  let isParagraph :=
    isFolded && block.lastBreak == ['\n'] && !block.startsWithGap && !startsWithGap
  let between :=
    if isParagraph then (if block.emptyBreaks.isEmpty then [' '] else block.emptyBreaks)
    else block.lastBreak ++ block.emptyBreaks
  ⟨block.text ++ between ++ line, [], [], startsWithGap⟩

def finish (chomping : Chomping) (block : BlockText) : List Char :=
  match chomping with
  | .strip => block.text
  | .clip => block.text ++ block.lastBreak
  | .keep => block.text ++ block.lastBreak ++ block.emptyBreaks

end BlockText

def blockLines (isFolded : Bool) (indent : Nat) :
    Nat → BlockText → List Spot → Except Fault (BlockText × List Spot)
  | 0, block, spots => .ok (block, spots)
  | _ + 1, block, [] => .ok (block, [])
  | fuel + 1, block, spot :: rest =>
    if spot.column = indent then do
      let spots := spot :: rest
      let line := (spots.takeWhile (!isBreak ·.char)).map Spot.char
      let behind := spots.dropWhile (!isBreak ·.char)
      let block := block.addLine isFolded line
      let (_, breaks, rest) ← emptyLines (some indent) 0 (behind.drop 1)
      let block :=
        { block with lastBreak := (behind.take 1).map Spot.char, emptyBreaks := breaks }
      blockLines isFolded indent fuel block rest
    else .ok (block, spot :: rest)

/-- Read a block of text behind its mark, `parent` being the column after the indent around it. -/
def blockText (isFolded : Bool) (parent : Nat) (spots : List Spot) : Except Fault Reading := do
  let (header, spots) ← blockHeader spots
  let spots ← afterHeaderLine spots
  let known := header.extraIndent.map (parent - 1 + ·)
  let (greatest, breaks, rest) ← emptyLines known 0 spots
  let indent := known.getD (max (max greatest parent) 1)
  let (block, rest) ← blockLines isFolded indent (rest.length + 1) { emptyBreaks := breaks } rest
  .ok ⟨block.finish header.chomping, true, rest⟩

end ChatDispatch.Yaml
