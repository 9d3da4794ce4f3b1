/-!
Text from bytes. Decoding either gives the characters or says where the first bad sequence starts
and how many bytes belong to it; a sequence that the end of the input cuts short has no length.
-/

namespace ChatDispatch.Text

structure Utf8Fault where
  index : Nat
  length : Option Nat
  deriving DecidableEq, Repr

def Utf8Fault.message (fault : Utf8Fault) : String :=
  match fault.length with
  | some n => "invalid utf-8 sequence of " ++ toString n ++ " bytes from index " ++
      toString fault.index
  | none => "incomplete utf-8 byte sequence from index " ++ toString fault.index

/-- What a first byte announces: its own bits, the bytes to follow, and the range of the next. -/
structure Lead where
  bits : Nat
  count : Nat
  low : Nat
  high : Nat

def lead? (b : Nat) : Option Lead :=
  if b < 0x80 then some ⟨b, 0, 0x80, 0xBF⟩
  else if 0xC2 ≤ b ∧ b ≤ 0xDF then some ⟨b - 0xC0, 1, 0x80, 0xBF⟩
  else if b = 0xE0 then some ⟨0, 2, 0xA0, 0xBF⟩
  else if b = 0xED then some ⟨0xD, 2, 0x80, 0x9F⟩
  else if 0xE1 ≤ b ∧ b ≤ 0xEF then some ⟨b - 0xE0, 2, 0x80, 0xBF⟩
  else if b = 0xF0 then some ⟨0, 3, 0x90, 0xBF⟩
  else if 0xF1 ≤ b ∧ b ≤ 0xF3 then some ⟨b - 0xF0, 3, 0x80, 0xBF⟩
  else if b = 0xF4 then some ⟨4, 3, 0x80, 0x8F⟩
  else none

/-- Where the decoder stands: between characters, or inside one that began at `start`. -/
inductive Utf8State where
  | between
  | inside (start bits owed low high : Nat)

def decodeFrom (index : Nat) : Utf8State → List UInt8 → Except Utf8Fault (List Char)
  | .between, [] => .ok []
  | .inside start _ _ _ _, [] => .error ⟨start, none⟩
  | .between, b :: rest =>
    match lead? b.toNat with
    | none => .error ⟨index, some 1⟩
    | some lead =>
      if lead.count = 0 then (decodeFrom (index + 1) .between rest).map (Char.ofNat lead.bits :: ·)
      else decodeFrom (index + 1) (.inside index lead.bits lead.count lead.low lead.high) rest
  | .inside start bits owed low high, b :: rest =>
    if low ≤ b.toNat ∧ b.toNat ≤ high then
      let bits := bits * 64 + (b.toNat - 0x80)
      if owed = 1 then (decodeFrom (index + 1) .between rest).map (Char.ofNat bits :: ·)
      else decodeFrom (index + 1) (.inside start bits (owed - 1) 0x80 0xBF) rest
    else .error ⟨start, some (index - start)⟩

def decodeUtf8 (bytes : List UInt8) : Except Utf8Fault (List Char) :=
  decodeFrom 0 .between bytes

end ChatDispatch.Text
