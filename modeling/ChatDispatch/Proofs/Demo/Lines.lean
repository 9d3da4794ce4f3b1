import ChatDispatch.Proofs.Conversion.Optional
import ChatDispatch.Proofs.Demo.Serving
import ChatDispatch.Proofs.Detection.Leading
import ChatDispatch.Proofs.Text.Numeral

/-!
How the lines of the basic commands are read. Under the default settings a slash and a word name a
command, and every space behind it begins a new word. A word is a number if it spells one in
decimal, with or without a sign and with any zeros in front.
-/

namespace ChatDispatch

namespace Text

variable {separator : Char} {word rest : List Char}

/-- A word with a separator behind it is the first piece. -/
theorem pieces_word_append (h : separator ∉ word) (rest : List Char) :
    pieces separator (word ++ separator :: rest) = word :: pieces separator rest := by
  rw [pieces_append_separator, pieces_of_not_mem h, List.singleton_append]

/-- So is a word at the end. -/
theorem exists_pieces_append (h : separator ∉ word)
    (hrest : rest = [] ∨ ∃ behind, rest = separator :: behind) :
    ∃ more, pieces separator (word ++ rest) = word :: more := by
  rcases hrest with rfl | ⟨behind, rfl⟩
  · rw [List.append_nil, pieces_of_not_mem h]
    exact ⟨[], rfl⟩
  · exact ⟨pieces separator behind, pieces_word_append h behind⟩

theorem AreDigits.space_not_mem {digits : List Char} (h : AreDigits digits) : ' ' ∉ digits :=
  fun hmem => absurd (h.isDigit ' ' hmem) (by decide)

theorem IsDecimal.space_not_mem {text : List Char} {n : Int} (h : IsDecimal text n) :
    ' ' ∉ text := by
  cases h with
  | unsigned h => exact h.space_not_mem
  | plus h => simp [h.space_not_mem]
  | minus h => simp [h.space_not_mem]

theorem Bounds.int32_contains_iff {n : Int} :
    Bounds.int32.contains n = true ↔ -0x80000000 ≤ n ∧ n ≤ 0x7FFFFFFF :=
  Bounds.contains_iff

theorem toInt_ofInt_of_contains {n : Int} (h : Bounds.int32.contains n = true) :
    (Int32.ofInt n).toInt = n := by
  obtain ⟨hlow, hhigh⟩ := Bounds.int32_contains_iff.mp h
  exact Int32.toInt_ofInt_of_le (by omega) (by omega)

end Text

open Text Detection

/-- Under the default settings a line names a command if its command word is a slash and the name.
-/
theorem Settings.detect?_slash_iff {line name : String} :
    ({} : Settings).detect? line = some name ↔
      name ≠ "" ∧ commandWord line.toList = '/' :: name.toList := by
  have hspace : ' ' ∉ "/".toList := by decide
  change ChatDispatch.detect? ["/"] .leading line = some name ↔ _
  rw [Detection.detect?_eq_some_iff, commandName?_leading_eq_some_iff, dropLeading?_eq_some_iff]
  constructor
  · rintro ⟨-, hne, before, start, hfirst, hword⟩
    obtain rfl := List.mem_singleton.mp hfirst.mem
    exact ⟨fun hempty => hne (by rw [hempty]; rfl), hword⟩
  · rintro ⟨hne, hword⟩
    have hstarts : Starts (commandWord line.toList) "/" := by
      refine ⟨by decide, ?_⟩
      rw [hword]
      exact List.prefix_append ['/'] name.toList
    refine ⟨⟨"/", List.mem_singleton_self _, (starts_commandWord_iff hspace).mp hstarts⟩,
      fun hnil => hne (String.toList_eq_nil_iff.mp hnil), [], "/",
      ⟨⟨[], rfl⟩, hstarts, nofun⟩, hword⟩

/-- The first piece of a line is its command word. -/
theorem Detection.commandWord_of_pieces {text word : List Char} {words : List (List Char)}
    (h : pieces ' ' text = word :: words) : commandWord text = word := by
  have hword : ' ' ∉ word := not_mem_of_mem_pieces (h ▸ List.mem_cons_self)
  have htext := joined_pieces ' ' text
  rw [h] at htext
  cases words with
  | nil =>
    obtain rfl : word = text := htext
    have happend : commandWord (word ++ []) = word := commandWord_append hword nofun
    rwa [List.append_nil] at happend
  | cons next words =>
    rw [← htext, joined_cons word (List.cons_ne_nil next words)]
    exact commandWord_append hword fun c hc => (Option.some.inj hc).symm

theorem Binding.words_of_pieces {line : String} {word : List Char} {words : List (List Char)}
    (h : pieces ' ' line.toList = word :: words) :
    Binding.words line = words.map String.ofList := by
  rw [Binding.words, h]
  rfl

section Numbers

variable {context : Context} {word : String} {n : Int32}

/-- A word is converted to the number that it spells. -/
theorem Converter.int32_eq_ok_iff :
    Converter.int32.convert context word = .returned (.ok n) ↔ IsDecimal word.toList n.toInt := by
  unfold Converter.int32
  dsimp only
  rw [Ending.returned.injEq]
  constructor
  · intro h
    cases hread : readNumeral 10 Bounds.int32 word.toList with
    | error fault =>
      rw [hread] at h
      cases h
    | ok m =>
      rw [hread] at h
      obtain ⟨hdecimal, hcontains⟩ := readNumeral_int32_eq_ok_iff.mp hread
      obtain rfl : Int32.ofInt m = n := Except.ok.inj h
      rw [toInt_ofInt_of_contains hcontains]
      exact hdecimal
  · intro h
    have hread := readNumeral_int32_eq_ok_iff.mpr ⟨h, Bounds.contains_toInt n⟩
    rw [hread]
    exact congrArg Except.ok (Int32.ofInt_toInt n)

theorem Converter.attempt_eq_ok_iff {converter : Converter} {content : converter.target.Carrier} :
    converter.attempt context word = .returned (.ok ⟨converter.target, content⟩) ↔
      converter.convert context word = .returned (.ok content) := by
  unfold Converter.attempt
  rw [Ending.map_eq_returned_iff]
  constructor
  · rintro ⟨result, hresult, hvalue⟩
    cases result with
    | ok other =>
      cases hvalue
      exact hresult
    | error cause => cases hvalue
  · intro h
    exact ⟨.ok content, h, rfl⟩

/-- A word is bound to the number that it spells. -/
theorem Binding.bindWord_int32 {call : Binding.Call} (hconverters : call.converters = .builtin)
    (h : IsDecimal word.toList n.toInt) :
    Binding.bindWord call .int32 word = .returned (.ok (.value ⟨.int32, n⟩)) := by
  have hattempt : Converter.int32.attempt (call.converters.context call.line call.depth) word =
      .returned (.ok ⟨.int32, n⟩) :=
    Converter.attempt_eq_ok_iff.mpr (Converter.int32_eq_ok_iff.mpr h)
  have hlookup : call.converters.lookup .int32 = some .int32 := by
    rw [hconverters]
    rfl
  unfold bindWord ConverterRegistry.convert
  rw [if_neg nofun, hlookup]
  dsimp only
  rw [hattempt]
  rfl

/-- A word stands for a number, or for none if it is empty. -/
def IsCount (word : String) : Option Int32 → Prop
  | none => word = ""
  | some n => IsDecimal word.toList n.toInt

/-- With the builtin converters a word for an optional number is bound to the number that it stands
for. -/
theorem isCount_of_holds {call : Binding.Call} {depth : Nat} {argument : Argument}
    (hconverters : call.converters = .builtin) (hdepth : call.depth = depth + 1)
    (h : argument.Holds call (.optional .int32) word) :
    ∃ count, argument = .value ⟨.optional .int32, count⟩ ∧ IsCount word count := by
  have hderived : ConverterRegistry.builtin.lookup (.optional .int32) = some (.optional .int32) :=
    rfl
  cases h with
  | @converted _ _ converter value htype hlookup hvalue =>
    rw [hconverters] at hlookup hvalue
    rw [hdepth] at hvalue
    have hconvert : ConverterRegistry.builtin.convert
        (ConverterRegistry.builtin.context call.line (depth + 1)) (.optional .int32) word =
          .returned (.ok value) := by
      unfold ConverterRegistry.convert
      rw [hlookup]
      dsimp only
      rw [hvalue]
      rfl
    by_cases hword : word = ""
    · rw [hword, ConverterRegistry.convert_empty hderived] at hconvert
      cases hconvert
      exact ⟨none, rfl, hword⟩
    · -- Any other word goes to the converter for numbers, which the registry is asked for once.
      have hlifts := ConverterRegistry.lifts_convert hderived ConverterRegistry.typed_builtin hword
        call.line depth
      rw [hconvert] at hlifts
      generalize hinner : ConverterRegistry.builtin.convert
        (ConverterRegistry.builtin.context call.line depth) .int32 word = inner at hlifts
      cases hlifts with
      | value content =>
        obtain ⟨inner, hfound, hattempt⟩ := ConverterRegistry.exists_of_convert hinner
        obtain rfl : Converter.int32 = inner := Option.some.inj hfound
        exact ⟨some content, rfl,
          Converter.int32_eq_ok_iff.mp (Converter.attempt_eq_ok_iff.mp hattempt)⟩

end Numbers

end ChatDispatch
