import ChatDispatch.Proofs.Demo.Lines

/-!
Sums of two numbers. However the numbers are spelled and whatever follows them in the line, the
reply is their sum if that is a number of 32 bits, and otherwise there is a failure and no reply.
-/

namespace ChatDispatch.Demo

open Text Program

/-- A line that asks for the sum of two numbers. What is written behind them is passed over, and a
number that is left out counts as zero. -/
inductive AsksForSum : String → Int32 → Int32 → Prop
  | both {first second rest : String} {a b : Int32} (hfirst : IsDecimal first.toList a.toInt)
      (hsecond : IsDecimal second.toList b.toInt)
      (hrest : rest = "" ∨ ∃ behind, rest = " " ++ behind) :
      AsksForSum ("/sum " ++ first ++ " " ++ second ++ rest) a b
  | one {first : String} {a : Int32} (hfirst : IsDecimal first.toList a.toInt) :
      AsksForSum ("/sum " ++ first) a 0
  | neither : AsksForSum "/sum" 0 0

inductive AreOperands : List (List Char) → Int32 → Int32 → Prop
  | both {first second : List Char} {more : List (List Char)} {a b : Int32}
      (hfirst : IsDecimal first a.toInt) (hsecond : IsDecimal second b.toInt) :
      AreOperands (first :: second :: more) a b
  | one {first : List Char} {a : Int32} (hfirst : IsDecimal first a.toInt) :
      AreOperands [first] a 0
  | neither : AreOperands [] 0 0

def operand : Option Int32 → Argument
  | none => .absent
  | some n => .value ⟨.int32, n⟩

def sumDescriptor (home : String) : Descriptor :=
  .ofMethod (basics home) (method "sum" [.converted "a" .int32, .converted "b" .int32] sum) "sum"

variable {home line : String} {observers : List Nat} {clock : Clock} {level : Nat}
  {message : Message} {words : List (List Char)} {arguments : Arguments} {a b : Int32}

theorem AsksForSum.exists_pieces (h : AsksForSum line a b) :
    ∃ words, pieces ' ' line.toList = "/sum".toList :: words ∧ AreOperands words a b := by
  have hname : ' ' ∉ "/sum".toList := by decide
  have hsum : "/sum ".toList = "/sum".toList ++ [' '] := rfl
  cases h with
  | neither => exact ⟨[], pieces_of_not_mem hname, .neither⟩
  | @one first a hfirst =>
    refine ⟨[first.toList], ?_, .one hfirst⟩
    rw [String.toList_append, hsum, List.append_assoc, List.singleton_append,
      pieces_word_append hname, pieces_of_not_mem hfirst.space_not_mem]
  | @both first second rest a b hfirst hsecond hrest =>
    have hline : ("/sum " ++ first ++ " " ++ second ++ rest).toList =
        "/sum".toList ++ ' ' :: (first.toList ++ ' ' :: (second.toList ++ rest.toList)) := by
      simp [String.toList_append, hsum]
    have hspace : rest.toList = [] ∨ ∃ behind, rest.toList = ' ' :: behind := by
      rcases hrest with rfl | ⟨behind, rfl⟩
      · exact .inl rfl
      · exact .inr ⟨behind.toList, by rw [String.toList_append]; rfl⟩
    obtain ⟨more, hmore⟩ := exists_pieces_append hsecond.space_not_mem hspace
    refine ⟨first.toList :: second.toList :: more, ?_, .both hfirst hsecond⟩
    rw [hline, pieces_word_append hname, pieces_word_append hfirst.space_not_mem, hmore]

/-- The words are bound to the numbers that they spell. -/
theorem AreOperands.bindAll (h : AreOperands words a b) (home : String) {call : Binding.Call}
    (hconverters : call.converters = .builtin) :
    ∃ first second, Binding.bindAll call (sumDescriptor home).parameters
        (words.map String.ofList) =
          ⟨[operand first, operand second, .message call.message, .client call.client],
            .returned (.ok ())⟩ ∧
      first.getD 0 = a ∧ second.getD 0 = b := by
  have hbind : ∀ {word : List Char} {n : Int32}, IsDecimal word n.toInt →
      Binding.bindWord call .int32 (String.ofList word) =
        .returned (.ok (.value ⟨.int32, n⟩)) := by
    intro word n hword
    apply Binding.bindWord_int32 hconverters
    rwa [String.toList_ofList]
  cases h with
  | both hfirst hsecond =>
    refine ⟨some a, some b, ?_, rfl, rfl⟩
    simp only [sumDescriptor, Descriptor.ofMethod, Demo.method, List.cons_append, List.map_cons,
      Binding.bindAll, Binding.bindOne, Parameter.converted, hbind hfirst, hbind hsecond]
    rfl
  | one hfirst =>
    refine ⟨some a, none, ?_, rfl, rfl⟩
    simp only [sumDescriptor, Descriptor.ofMethod, Demo.method, List.cons_append, List.map_cons,
      Binding.bindAll, Binding.bindOne, Parameter.converted, hbind hfirst]
    rfl
  | neither => exact ⟨none, none, rfl, rfl, rfl⟩

theorem AsksForSum.exists_arguments (h : AsksForSum message.content a b) (home : String)
    (observers : List Nat) (clock : Clock) (level : Nat) :
    ∃ first second, Binding.arguments ((processor home observers clock).call level message) "sum"
        (sumDescriptor home).parameters = .returned (.ok
          ⟨[operand first, operand second, .message message, .client .memory]⟩) ∧
      first.getD 0 = a ∧ second.getD 0 = b := by
  obtain ⟨words, hpieces, hwords⟩ := h.exists_pieces
  have hconverters : ((processor home observers clock).call level message).converters = .builtin :=
    rfl
  obtain ⟨first, second, hbound, hfirst, hsecond⟩ := hwords.bindAll home hconverters
  have hready : Binding.arguments ((processor home observers clock).call level message) "sum"
      (sumDescriptor home).parameters =
        (Binding.bindAll ((processor home observers clock).call level message)
          (sumDescriptor home).parameters (Binding.words message.content)).result := rfl
  refine ⟨first, second, ?_, hfirst, hsecond⟩
  rw [hready, Binding.words_of_pieces hpieces, hbound]
  rfl

theorem int32_of_operand {index : Nat} {n : Option Int32}
    (h : arguments.get? index = some (operand n)) : arguments.int32 index = .ok n := by
  cases n with
  | none => exact Arguments.value_of_absent h .int32
  | some n => exact Arguments.value_of_flatten h (Value.flatten?_mk .int32 n)

def sumProgram (message : Message) (a b : Int32) : Program :=
  match sum? a b with
  | none => .fail (overflow a b)
  | some total => answer .memory message.peer (Text.decimal total.toInt)

theorem sumProgram_of_contains (message : Message)
    (h : Bounds.int32.contains (a.toInt + b.toInt) = true) :
    sumProgram message a b = answer .memory message.peer (Text.decimal (a.toInt + b.toInt)) := by
  have htotal : sum? a b = some (Int32.ofInt (a.toInt + b.toInt)) := if_pos h
  rw [sumProgram, htotal]
  dsimp only
  rw [toInt_ofInt_of_contains h]

theorem sumProgram_of_not_contains (message : Message)
    (h : ¬ Bounds.int32.contains (a.toInt + b.toInt) = true) :
    sumProgram message a b = .fail (overflow a b) := by
  have htotal : sum? a b = none := if_neg h
  rw [sumProgram, htotal]

theorem sum_of_operands (first second : Option Int32) (message : Message) :
    sum ⟨[operand first, operand second, .message message, .client .memory]⟩ =
      sumProgram message (first.getD 0) (second.getD 0) := by
  unfold sum
  rw [int32_of_operand rfl, int32_of_operand rfl]
  rfl

/-- The outcome and the replies for a line that asks for a sum are those of adding its numbers. -/
theorem AsksForSum.dispatch (h : AsksForSum message.content a b) {result : Except Cause Unit}
    {after : Processor} {journal : List Entry}
    (hrun : (sumProgram message a b).run (Processor.dispatch (level + 1))
      (processor home observers clock) = ⟨.returned result, after, journal⟩) :
    let run := Processor.dispatch (level + 2) message (processor home observers clock)
    run.ending = .returned (Processor.outcomeOf "sum" message
        (result.mapError (.handlerInvocation "sum" (basics home).owner "sum"))) ∧
      replies run.journal = replies journal := by
  obtain ⟨words, hpieces, -⟩ := h.exists_pieces
  have hname : (processor home observers clock).settings.detect? message.content = some "sum" :=
    Settings.detect?_slash_iff.mpr ⟨by decide, Detection.commandWord_of_pieces hpieces⟩
  have hresolve : (processor home observers clock).commands.resolve "sum" =
      some (sumDescriptor home) := rfl
  obtain ⟨first, second, hbound, rfl, rfl⟩ := h.exists_arguments home observers clock (level + 1)
  rw [← sum_of_operands] at hrun
  exact Processor.dispatch_of_accepted hname hresolve hbound (List.forall_mem_nil _) rfl hrun

/-- The sum of two numbers is replied to the message if it is a number of 32 bits itself, in
decimal. Otherwise the handler fails and there is no reply. This is so for all spellings of the
numbers, for whatever is written behind them, and at any time, whatever has been dispatched before.
-/
theorem sum_replied_where_it_fits (h : AsksForSum message.content a b) (home : String)
    (observers : List Nat) (clock : Clock) (level : Nat) (earlier : List Update) :
    let before := Processor.dispatchBatch (level + 2) earlier (processor home observers clock)
    let run := Processor.dispatch (level + 2) message before.after
    let total := a.toInt + b.toInt
    (-0x80000000 ≤ total ∧ total ≤ 0x7FFFFFFF →
      run.ending = .returned (.executed "sum") ∧
        replies run.journal = [(message.peer, Text.decimal total)]) ∧
    (¬ (-0x80000000 ≤ total ∧ total ≤ 0x7FFFFFFF) →
      run.ending = .returned (.failed ⟨message.content,
        .handlerInvocation "sum" (basics home).owner "sum" (overflow a b)⟩) ∧
        replies run.journal = []) := by
  intro before run total
  have hrun : run = Processor.dispatch (level + 2) message (processor home observers clock) :=
    dispatch_behind level earlier message home observers clock
  rw [hrun, ← Bounds.int32_contains_iff]
  constructor
  · intro hcontains
    have hanswer : (sumProgram message a b).run (Processor.dispatch (level + 1))
        (processor home observers clock) = ⟨.returned (.ok ()), processor home observers clock,
          [.replied message.peer (Text.decimal total)]⟩ := by
      rw [sumProgram_of_contains message hcontains, run_answer]
    exact h.dispatch hanswer
  · intro hover
    have hfailure : (sumProgram message a b).run (Processor.dispatch (level + 1))
        (processor home observers clock) =
          ⟨.returned (.error (overflow a b)), processor home observers clock, []⟩ := by
      rw [sumProgram_of_not_contains message hover]
      rfl
    exact h.dispatch hfailure

def greatestAndNothing : Message := { peer := 7, text := some "/sum +2147483647 -00 and more" }

def leastAndLess : Message := { peer := 7, text := some "/sum -2147483648 -01" }

/-- Nothing added to the greatest number is that number, and one less than the least is none. -/
theorem sums_at_the_bounds :
    let sums := fun message => Processor.dispatch 2 message (processor "chatcmd" [] {})
    (AsksForSum greatestAndNothing.content 2147483647 0 ∧
      (sums greatestAndNothing).ending = .returned (.executed "sum") ∧
      replies (sums greatestAndNothing).journal = [(7, "2147483647")]) ∧
    (AsksForSum leastAndLess.content (-2147483648) (-1) ∧
      (sums leastAndLess).ending = .returned (.failed ⟨leastAndLess.content,
        .handlerInvocation "sum" "chatcmd::demo::Basics" "sum"
          ⟨"-2147483648 + -1 overflows a 32-bit integer", []⟩⟩) ∧
      replies (sums leastAndLess).journal = []) := by
  intro sums
  have hplus : IsDecimal "+2147483647".toList (2147483647 : Int32).toInt :=
    .plus (⟨by decide, by simp⟩ : AreDigits "2147483647".toList)
  have hzero : IsDecimal "-00".toList (0 : Int32).toInt :=
    .minus (⟨by decide, by simp⟩ : AreDigits "00".toList)
  have hminus : IsDecimal "-2147483648".toList (-2147483648 : Int32).toInt :=
    .minus (⟨by decide, by simp⟩ : AreDigits "2147483648".toList)
  have hone : IsDecimal "-01".toList (-1 : Int32).toInt :=
    .minus (⟨by decide, by simp⟩ : AreDigits "01".toList)
  have hgreatest : AsksForSum greatestAndNothing.content 2147483647 0 :=
    .both hplus hzero (.inr ⟨"and more", rfl⟩)
  have hleast : AsksForSum leastAndLess.content (-2147483648) (-1) := .both hminus hone (.inl rfl)
  obtain ⟨hfits, -⟩ := sum_replied_where_it_fits hgreatest "chatcmd" [] {} 0 []
  obtain ⟨-, hover⟩ := sum_replied_where_it_fits hleast "chatcmd" [] {} 0 []
  exact ⟨⟨hgreatest, hfits (by decide)⟩, hleast, hover (by decide)⟩

end ChatDispatch.Demo
