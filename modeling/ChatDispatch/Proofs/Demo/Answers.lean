import ChatDispatch.Proofs.Binding.Accounting
import ChatDispatch.Proofs.Demo.Lines

/-!
How much the basic commands answer. The text of an echo is all that stands behind the command word,
and that of a repetition all that stands behind the word for its number. That number has been
accepted before the handler reads it, and both read it in the same way, so a text that is repeated
grows tenfold at most.
-/

namespace ChatDispatch.Demo

open Text Program

def echoDescriptor (home : String) : Descriptor :=
  .ofMethod (basics home) (method "echo" [.remaining "text"] echo) "echo"

def countParameter (home : String) : Parameter :=
  (Parameter.converted "count" (.optional .int32)).required (Range.requirement home ⟨0, 1, 10⟩)

def repeatDescriptor (home : String) : Descriptor :=
  .ofMethod (basics home) (method "repeat" [countParameter home, .remaining "text"] repetition)
    "repeat"

variable {home : String} {observers : List Nat} {clock : Clock} {level : Nat} {message : Message}
  {arguments : Arguments} {text : String} {n : Nat}

/-- The texts of a repetition, and one space fewer. -/
theorem length_repeated (n : Nat) (text : String) :
    (repeated (n + 1) text).length = (n + 1) * text.length + n := by
  induction n with
  | zero =>
    have hone : repeated 1 text = text := String.intercalate_singleton
    rw [hone]
    omega
  | succ n ih =>
    have hmore : repeated (n + 2) text = text ++ " " ++ repeated (n + 1) text :=
      String.intercalate_cons_cons
    have hspace : " ".length = 1 := rfl
    rw [hmore, String.length_append, String.length_append, ih, hspace, Nat.succ_mul (n + 1)]
    omega

theorem length_repeated_le (hone : 1 ≤ n) (hten : n ≤ 10) (text : String) :
    (repeated n text).length ≤ 10 * text.length + 9 := by
  obtain ⟨m, rfl⟩ : ∃ m, n = m + 1 := ⟨n - 1, by omega⟩
  have htexts : (m + 1) * text.length ≤ 10 * text.length := Nat.mul_le_mul_right _ hten
  rw [length_repeated]
  omega

section Echo

theorem remainder_pieces (text : String) :
    Binding.remainder ((pieces ' ' text.toList).map String.ofList) = text := by
  have htoList : String.toList ∘ String.ofList = id := funext fun _ => String.toList_ofList
  rw [Binding.remainder, List.map_map, htoList, List.map_id, joined_pieces, String.ofList_toList]

/-- The text of an echo is what stands behind the first space of the line. -/
theorem arguments_of_echo {word : List Char} (htext : text ≠ "")
    (hpieces : pieces ' ' message.content.toList = word :: pieces ' ' text.toList) :
    Binding.arguments ((processor home observers clock).call level message) "echo"
      (echoDescriptor home).parameters = .returned (.ok
        ⟨[.value (.ofText text), .message message, .client .memory]⟩) := by
  have hready : Binding.arguments ((processor home observers clock).call level message) "echo"
      (echoDescriptor home).parameters = .returned (.ok
        ⟨[if Binding.remainder (Binding.words message.content) = "" then .absent
          else .value (.ofText (Binding.remainder (Binding.words message.content))),
          .message message, .client .memory]⟩) := rfl
  rw [hready, Binding.words_of_pieces hpieces, remainder_pieces, if_neg htext]

theorem echo_of_text (text : String) (message : Message) :
    echo ⟨[.value (.ofText text), .message message, .client .memory]⟩ =
      answer .memory message.peer text := by
  have hread : Arguments.text ⟨[.value (.ofText text), .message message, .client .memory]⟩ 0 =
      .ok (some text) := Arguments.value_of_flatten rfl (Value.flatten?_mk .text text)
  unfold echo
  rw [hread]
  rfl

/-- A text that is not empty is echoed as it is. -/
theorem dispatch_echo (htext : text ≠ "") (hcontent : message.content = "/echo " ++ text) :
    let run := Processor.dispatch (level + 2) message (processor home observers clock)
    run.ending = .returned (.executed "echo") ∧ replies run.journal = [(message.peer, text)] := by
  have hname : ' ' ∉ "/echo".toList := by decide
  have hline : message.content.toList = "/echo".toList ++ ' ' :: text.toList := by
    rw [hcontent, String.toList_append]
    rfl
  have hpieces : pieces ' ' message.content.toList = "/echo".toList :: pieces ' ' text.toList := by
    rw [hline, pieces_word_append hname]
  have hdetected : (processor home observers clock).settings.detect? message.content =
      some "echo" :=
    Settings.detect?_slash_iff.mpr ⟨by decide, Detection.commandWord_of_pieces hpieces⟩
  have hresolve : (processor home observers clock).commands.resolve "echo" =
      some (echoDescriptor home) := rfl
  have hrun := run_answer (Processor.dispatch (level + 1)) message.peer text
    (processor home observers clock)
  rw [← echo_of_text] at hrun
  exact Processor.dispatch_of_accepted hdetected hresolve (arguments_of_echo htext hpieces)
    (List.forall_mem_nil _) rfl hrun

end Echo

section Repetition

def repetitionProgram (message : Message) (count : Option Int32) : Option String → Program
  | none => .done
  | some text => answer .memory message.peer (repeated (repetitions count) text)

/-- The words of a line with two spaces or more, and the text behind the second. -/
theorem exists_words_of_isBehind {line text : List Char} (h : IsBehind ' ' 1 line text) :
    ∃ first second, line = first ++ ' ' :: (second ++ ' ' :: text) ∧
      pieces ' ' line = first :: second :: pieces ' ' text := by
  obtain ⟨front, rfl, hcount⟩ := h
  have hlength : (pieces ' ' front).length = 2 := by rw [length_pieces, hcount]
  obtain ⟨first, second, hfront⟩ := List.length_eq_two.mp hlength
  have hjoined : front = first ++ ' ' :: second := by
    rw [← joined_pieces ' ' front, hfront]
    rfl
  refine ⟨first, second, ?_, ?_⟩
  · rw [hjoined, List.append_assoc, List.cons_append]
  · rw [pieces_append_separator, hfront]
    rfl

theorem mem_allRequirements_iff {r : Value} :
    r ∈ (repeatDescriptor home).allRequirements ↔ r = Range.requirement home ⟨0, 1, 10⟩ := by
  change r ∈ [Range.requirement home ⟨0, 1, 10⟩] ↔ _
  exact List.mem_singleton

/-- The number of a repetition is accepted if it is from one to ten, or not there at all. -/
theorem accepts_count_iff {count : Option Int32} (hcount : arguments.int32 0 = .ok count) :
    (∀ r ∈ (repeatDescriptor home).allRequirements,
      (processor home observers clock).validators.Accepts message arguments r) ↔
      ∀ n, count = some n → 1 ≤ n.toInt ∧ n.toInt ≤ 10 := by
  simp only [mem_allRequirements_iff, forall_eq]
  exact accepts_range_iff hcount

/-- A text is repeated as often as the word says, and once if the word is empty. -/
theorem repetitions_of_isCount {word : String} {count : Option Int32} (h : IsCount word count)
    (hbounds : ∀ n, count = some n → 1 ≤ n.toInt ∧ n.toInt ≤ 10) :
    1 ≤ repetitions count ∧ repetitions count ≤ 10 ∧
      (word = "" ∧ repetitions count = 1 ∨ IsDecimal word.toList (repetitions count)) := by
  cases count with
  | none => exact ⟨by decide, by decide, .inl ⟨h, rfl⟩⟩
  | some n =>
    obtain ⟨hone, hten⟩ := hbounds n rfl
    have htimes : (repetitions (some n) : Int) = n.toInt := by
      change ((max 1 n.toInt.toNat : Nat) : Int) = n.toInt
      omega
    refine ⟨by omega, by omega, .inr ?_⟩
    rw [htimes]
    exact h

variable (hbound : Binding.arguments ((processor home observers clock).call (level + 1) message)
  "repeat" (repeatDescriptor home).parameters = .returned (.ok arguments))

include hbound

/-- The number of a repetition is what the second word of the line stands for. -/
theorem exists_count {first second : List Char} {words : List (List Char)}
    (hpieces : pieces ' ' message.content.toList = first :: second :: words) :
    ∃ count, arguments.int32 0 = .ok count ∧ IsCount (String.ofList second) count := by
  have hhanded : Binding.Handed ((processor home observers clock).call (level + 1) message)
      (Binding.words message.content)
      ([] ++ countParameter home :: [.remaining "text", .message, .client]) arguments.values :=
    Binding.handed_of_arguments hbound
  obtain ⟨argument, rest, hget, hone⟩ := hhanded.bindOne_leftBehind
  obtain ⟨hholds, -⟩ := Binding.accounts_of_converted hone
  have hword : (pieces ' ' message.content.toList)[1]? = some second := by
    rw [hpieces]
    rfl
  obtain ⟨count, rfl, hcount⟩ := isCount_of_holds rfl rfl (hholds second hword)
  exact ⟨count, Arguments.value_of_flatten hget (Value.flatten?_optional .int32 count), hcount⟩

/-- The text of a repetition is what stands behind the second space of the line. -/
theorem text_of_repetition :
    (∀ text, text ≠ "" → IsBehind ' ' 1 message.content.toList text.toList →
      arguments.text 1 = .ok (some text)) ∧
    ((∀ rest, IsBehind ' ' 1 message.content.toList rest → rest = []) →
      arguments.text 1 = .ok none) := by
  have hhanded : Binding.Handed ((processor home observers clock).call (level + 1) message)
      (Binding.words message.content)
      ([countParameter home] ++ .remaining "text" :: [.message, .client]) arguments.values :=
    Binding.handed_of_arguments hbound
  obtain ⟨argument, rest, hget, hone⟩ := hhanded.bindOne_leftBehind
  have haccounts : argument.Accounts _ [] [countParameter home] .remaining :=
    Binding.accounts_of_remaining rfl hone
  obtain ⟨hvalue, habsent⟩ := haccounts
  constructor
  · intro text htext hbehind
    have hargument := hvalue text.toList hbehind (mt String.toList_eq_nil_iff.mp htext)
    rw [hargument, String.ofList_toList] at hget
    exact Arguments.value_of_flatten hget (Value.flatten?_mk .text text)
  · intro hnone
    rw [habsent.mpr hnone] at hget
    exact Arguments.value_of_absent hget .text

/-- The handler of a repetition, with its number and its text. -/
theorem repetition_of_bound {count : Option Int32} (hcount : arguments.int32 0 = .ok count)
    {text : Option String} (htext : arguments.text 1 = .ok text) :
    repetition arguments = repetitionProgram message count text := by
  have hmessage : arguments.message 2 = .ok message :=
    @Binding.readsBack_of_arguments _ _ _ ConverterRegistry.typed_builtin _ hbound 2 _ rfl
  have hclient : arguments.client 3 = .ok .memory :=
    @Binding.readsBack_of_arguments _ _ _ ConverterRegistry.typed_builtin _ hbound 3 _ rfl
  unfold repetition
  rw [hcount, htext]
  cases text with
  | none => rfl
  | some text =>
    simp only [given_ok, hmessage, hclient]
    rfl

/-- What a repetition replies once its number and its text have been read. -/
theorem replies_of_read
    (hname : (processor home observers clock).settings.detect? message.content = some "repeat")
    (haccepted : ∀ r ∈ (repeatDescriptor home).allRequirements,
      (processor home observers clock).validators.Accepts message arguments r)
    {count : Option Int32} (hcount : arguments.int32 0 = .ok count)
    {text : Option String} (htext : arguments.text 1 = .ok text) :
    replies (Processor.dispatch (level + 2) message (processor home observers clock)).journal =
      text.toList.map fun text => (message.peer, repeated (repetitions count) text) := by
  have hresolve : (processor home observers clock).commands.resolve "repeat" =
      some (repeatDescriptor home) := rfl
  have hbody := repetition_of_bound hbound hcount htext
  cases text with
  | none =>
    have hrun : (repetition arguments).run (Processor.dispatch (level + 1))
        (processor home observers clock) =
          ⟨.returned (.ok ()), processor home observers clock, []⟩ := by
      rw [hbody]
      rfl
    exact (Processor.dispatch_of_accepted hname hresolve hbound haccepted rfl hrun).2
  | some text =>
    have hrun : (repetition arguments).run (Processor.dispatch (level + 1))
        (processor home observers clock) = ⟨.returned (.ok ()), processor home observers clock,
          [.replied message.peer (repeated (repetitions count) text)]⟩ := by
      rw [hbody]
      rfl
    exact (Processor.dispatch_of_accepted hname hresolve hbound haccepted rfl hrun).2

omit hbound in
/-- A repetition that has been executed: with a text behind the second space of its line, that text
has been sent as often as the word in front of it says, and without one nothing has been sent. -/
theorem replies_of_repetition
    (h : (Processor.dispatch (level + 2) message (processor home observers clock)).ending =
      .returned (.executed "repeat")) :
    (∀ text, text ≠ "" → IsBehind ' ' 1 message.content.toList text.toList →
      ∃ (count : String) (n : Nat), message.content = "/repeat " ++ count ++ " " ++ text ∧
        1 ≤ n ∧ n ≤ 10 ∧ (count = "" ∧ n = 1 ∨ IsDecimal count.toList n) ∧
        replies (Processor.dispatch (level + 2) message (processor home observers clock)).journal =
          [(message.peer, repeated n text)]) ∧
    ((∀ rest, IsBehind ' ' 1 message.content.toList rest → rest = []) →
      replies (Processor.dispatch (level + 2) message (processor home observers clock)).journal =
        []) := by
  obtain ⟨descriptor, arguments, hname, hresolve, hbound, haccepted⟩ :=
    Processor.accepted_of_executed h
  obtain rfl : repeatDescriptor home = descriptor := Option.some.inj hresolve
  obtain ⟨hsome, hnone⟩ := text_of_repetition hbound
  constructor
  · intro text htext hbehind
    obtain ⟨first, second, hline, hpieces⟩ := exists_words_of_isBehind hbehind
    obtain ⟨count, hcount, hspelled⟩ := exists_count hbound hpieces
    obtain ⟨hone, hten, htimes⟩ := repetitions_of_isCount hspelled
      ((accepts_count_iff hcount).mp haccepted)
    have hfirst : first = "/repeat".toList := by
      rw [← Detection.commandWord_of_pieces hpieces]
      exact (Settings.detect?_slash_iff.mp hname).2
    refine ⟨String.ofList second, repetitions count, ?_, hone, hten, htimes,
      replies_of_read hbound hname haccepted hcount (hsome text htext hbehind)⟩
    rw [← String.toList_inj, hline, hfirst]
    simp
  · intro hempty
    obtain ⟨count, hcount⟩ := Arguments.ReadsBack.exists_flattened
      (@Binding.readsBack_of_arguments _ _ _ ConverterRegistry.typed_builtin _ hbound 0 _ rfl)
    exact replies_of_read hbound hname haccepted hcount (hnone hempty)

end Repetition

/-- How much a dispatch to the module answers. It comes to an outcome, and there is one reply at
most: to the conversation of the message, and only if the command is executed. A text that is not
empty is echoed as it is. A text that is repeated is sent from one to ten times over, as often as
the word in front of it says or once if that is empty, so that a reply is never much longer than ten
such texts. -/
theorem answers_once_within_bounds (home : String) (observers : List Nat) (clock : Clock)
    (level : Nat) (earlier : List Update) (message : Message) :
    let before := Processor.dispatchBatch (level + 2) earlier (processor home observers clock)
    let run := Processor.dispatch (level + 2) message before.after
    (∃ outcome, run.ending = .returned outcome ∧
      (replies run.journal = [] ∨
        outcome.isExecuted = true ∧ ∃ text, replies run.journal = [(message.peer, text)])) ∧
    (∀ text, text ≠ "" → message.content = "/echo " ++ text →
      run.ending = .returned (.executed "echo") ∧ replies run.journal = [(message.peer, text)]) ∧
    (run.ending = .returned (.executed "repeat") →
      (∀ text, text ≠ "" → IsBehind ' ' 1 message.content.toList text.toList →
        ∃ (count : String) (n : Nat), message.content = "/repeat " ++ count ++ " " ++ text ∧
          1 ≤ n ∧ n ≤ 10 ∧ (count = "" ∧ n = 1 ∨ IsDecimal count.toList n) ∧
          replies run.journal = [(message.peer, " ".intercalate (List.replicate n text))] ∧
          (" ".intercalate (List.replicate n text)).length ≤ 10 * text.length + 9) ∧
      ((∀ rest, IsBehind ' ' 1 message.content.toList rest → rest = []) →
        replies run.journal = [])) := by
  intro before run
  have hrun : run = Processor.dispatch (level + 2) message (processor home observers clock) :=
    dispatch_behind level earlier message home observers clock
  rw [hrun]
  refine ⟨(dispatch_serves level message home observers clock).returned,
    fun text htext hcontent => dispatch_echo htext hcontent, fun hexecuted => ?_⟩
  obtain ⟨hsome, hnone⟩ := replies_of_repetition hexecuted
  refine ⟨fun text htext hbehind => ?_, hnone⟩
  obtain ⟨count, n, hcontent, hone, hten, htimes, hreplies⟩ := hsome text htext hbehind
  exact ⟨count, n, hcontent, hone, hten, htimes, hreplies, length_repeated_le hone hten text⟩

def uncountedRepetition : Message := { peer := 7, text := some "/repeat  a b" }

/-- With nothing between the two spaces the text is sent once. -/
theorem answers_once_without_count :
    let run := Processor.dispatch 2 uncountedRepetition (processor "chatcmd" [] {})
    run.ending = .returned (.executed "repeat") ∧ replies run.journal = [(7, "a b")] := by
  intro run
  have hbound : Binding.arguments ((processor "chatcmd" [] {}).call 1 uncountedRepetition) "repeat"
      (repeatDescriptor "chatcmd").parameters = .returned (.ok
        ⟨[.value ⟨.optional .int32, none⟩, .value (.ofText "a b"), .message uncountedRepetition,
          .client .memory]⟩) := by rfl
  have hexecuted : run.ending = .returned (.executed "repeat") :=
    (Processor.dispatch_of_accepted rfl rfl hbound ((accepts_count_iff rfl).mpr nofun) rfl rfl).1
  obtain ⟨-, -, hrepetition⟩ := answers_once_within_bounds "chatcmd" [] {} 0 [] uncountedRepetition
  obtain ⟨hsome, -⟩ := hrepetition hexecuted
  have hbehind : IsBehind ' ' 1 uncountedRepetition.content.toList "a b".toList :=
    ⟨"/repeat ".toList, rfl, rfl⟩
  obtain ⟨count, n, hcontent, -, -, htimes, hreplies, -⟩ := hsome "a b" (by decide) hbehind
  have hempty : count = "" := by
    have hlength : 12 = ("/repeat " ++ count ++ " " ++ "a b").length :=
      congrArg String.length hcontent
    simp only [String.length_append] at hlength
    change 12 = 8 + count.length + 1 + 3 at hlength
    exact String.length_eq_zero_iff.mp (by omega)
  have honce : n = 1 := by
    rcases htimes with ⟨-, hn⟩ | hdecimal
    · exact hn
    · rw [hempty] at hdecimal
      cases hdecimal with
      | unsigned hdigits => exact absurd rfl hdigits.ne_nil
  rw [honce] at hreplies
  exact ⟨hexecuted, hreplies⟩

end ChatDispatch.Demo
