import ChatDispatch.Proofs.Conversion.Contents

/-!
What the derived converter of an optional type comes to. It leaves all words but the empty one to
the converter that the other registry, the one that it may ask, has for the inner type at that
moment: values come back as they are, reports unchanged. So it is the same whether that converter
has been replaced since, and where it is a derived one itself, layer by layer down to the innermost
type.

A converter may ask as often as it likes, and the registry answers it only so many times. Two
conversions are therefore compared where one more answer makes no difference any more.
-/

namespace ChatDispatch

namespace ValueType

def optionals (base : ValueType) : Nat → ValueType
  | 0 => base
  | layers + 1 => .optional (base.optionals layers)

def present (base : ValueType) (content : base.Carrier) : (layers : Nat) →
    (base.optionals layers).Carrier
  | 0 => content
  | layers + 1 => some (base.present content layers)

end ValueType

namespace ConverterRegistry

/-- With the converters of `asked` to ask, the registry comes to this with a word, as soon as they
may be asked often enough. -/
def ConvertsTo (registry asked : ConverterRegistry) (line : String) (type : ValueType)
    (word : String) (ending : Ending (Except Fault Value)) : Prop :=
  ∃ enough, ∀ depth, enough ≤ depth →
    registry.convert (asked.context line depth) type word = ending

def ReportsFor (registry : ConverterRegistry) (line : String) (type : ValueType) (word : String)
    (cause : Cause) : Prop :=
  registry.ConvertsTo registry line type word (.returned (.error (.conversion type cause))) ∨
    registry.lookup type = none ∧ cause = (Fault.noConverter type).report

/-- What becomes of the way a conversion ends when the optional type is asked for in its place. -/
inductive Lifts (inner : ValueType) :
    Ending (Except Fault Value) → Ending (Except Fault Value) → Prop
  | value (content : inner.Carrier) :
      Lifts inner (.returned (.ok ⟨inner, content⟩))
        (.returned (.ok ⟨.optional inner, some content⟩))
  | reported (cause : Cause) :
      Lifts inner (.returned (.error (.conversion inner cause)))
        (.returned (.error (.conversion (.optional inner) cause)))
  | missing :
      Lifts inner (.returned (.error (.noConverter inner)))
        (.returned (.error (.conversion (.optional inner) (Fault.noConverter inner).report)))
  | panicked (panic : Panic) : Lifts inner (.panicked panic) (.panicked panic)
  | hung : Lifts inner .hung .hung

/-- For words that are not empty the registry comes to the same at the optional type as the other
registry at the inner one. -/
structure FollowsInner (registry asked : ConverterRegistry) (inner : ValueType)
    (line word : String) : Prop where
  value (content : inner.Carrier) :
    registry.ConvertsTo asked line (.optional inner) word
        (.returned (.ok ⟨.optional inner, some content⟩)) ↔
      asked.ConvertsTo asked line inner word (.returned (.ok ⟨inner, content⟩))
  report (cause : Cause) :
    registry.ConvertsTo asked line (.optional inner) word
        (.returned (.error (.conversion (.optional inner) cause))) ↔
      asked.ReportsFor line inner word cause
  panicked (panic : Panic) :
    registry.ConvertsTo asked line (.optional inner) word (.panicked panic) ↔
      asked.ConvertsTo asked line inner word (.panicked panic)
  hung :
    registry.ConvertsTo asked line (.optional inner) word .hung ↔
      asked.ConvertsTo asked line inner word .hung
  returned (result : Except Fault Value) :
    registry.ConvertsTo asked line (.optional inner) word (.returned result) →
      (∃ content, result = .ok ⟨.optional inner, some content⟩) ∨
        ∃ cause, result = .error (.conversion (.optional inner) cause)

variable {registry asked : ConverterRegistry} {inner type : ValueType} {line word : String}
  {ending : Ending (Except Fault Value)}

/-- One answer more or less makes no difference to what a conversion comes to. -/
theorem convertsTo_iff_succ :
    registry.ConvertsTo asked line type word ending ↔ ∃ enough, ∀ depth, enough ≤ depth →
      registry.convert (asked.context line (depth + 1)) type word = ending := by
  constructor
  · rintro ⟨enough, hends⟩
    exact ⟨enough, fun depth hdepth => hends (depth + 1) (Nat.le_succ_of_le hdepth)⟩
  · rintro ⟨enough, hends⟩
    refine ⟨enough + 1, fun depth hdepth => ?_⟩
    obtain ⟨fewer, rfl⟩ := Nat.exists_eq_add_of_lt hdepth
    exact hends (enough + fewer) (Nat.le_add_right enough fewer)

theorem convert_eq_noConverter_iff {context : Context} :
    registry.convert context type word = .returned (.error (.noConverter type)) ↔
      registry.lookup type = none := by
  constructor
  · intro h
    cases hlookup : registry.lookup type with
    | none => rfl
    | some converter =>
      rw [convert, hlookup] at h
      obtain ⟨result, -, hresult⟩ := Ending.map_eq_returned_iff.mp h
      cases result <;> cases hresult
  · intro hlookup
    rw [convert, hlookup]

section Derived

variable (hderived : registry.lookup (.optional inner) = some (.optional inner))

include hderived

/-- The empty word is no value, whatever there is for the inner type. -/
theorem convert_empty (context : Context) :
    registry.convert context (.optional inner) "" = .returned (.ok ⟨.optional inner, none⟩) := by
  rw [convert, hderived]
  rfl

/-- Any other word is converted to the inner type, with one answer of the other registry less to
come. -/
theorem lifts_convert (htyped : asked.Typed) (hword : word ≠ "") (line : String) (depth : Nat) :
    Lifts inner (asked.convert (asked.context line depth) inner word)
      (registry.convert (asked.context line (depth + 1)) (.optional inner) word) := by
  have hconvert : registry.convert (asked.context line (depth + 1)) (.optional inner) word =
      ((Converter.optional inner).attempt (asked.context line (depth + 1)) word).map
        fun result => result.mapError (.conversion (.optional inner)) := by
    rw [convert, hderived]
  rw [hconvert]
  have hcontext : (asked.context line (depth + 1)).lookup inner =
      (asked.lookup inner).map fun converter => converter.attempt (asked.context line depth) := rfl
  unfold Converter.attempt Converter.optional
  dsimp only
  rw [if_neg hword, hcontext, convert]
  cases hlookup : asked.lookup inner with
  | none => exact .missing
  | some converter =>
    obtain rfl := htyped inner converter hlookup
    dsimp only [Option.map]
    cases hattempt : converter.attempt (asked.context line depth) word with
    | returned result =>
      cases result with
      | ok value =>
        obtain ⟨content, rfl⟩ := Converter.exists_of_attempt hattempt
        dsimp only [Ending.map]
        rw [Value.as?_mk]
        exact .value content
      | error cause => exact .reported cause
    | panicked panic => exact .panicked panic
    | hung => exact .hung

/-- Where one way to end stands for one other, the conversions come to them together. -/
theorem convertsTo_iff (htyped : asked.Typed) (hword : word ≠ "")
    {lifted : Ending (Except Fault Value)}
    (hforth : ∀ other, Lifts inner ending other → other = lifted)
    (hback : ∀ other, Lifts inner other lifted → other = ending) :
    registry.ConvertsTo asked line (.optional inner) word lifted ↔
      asked.ConvertsTo asked line inner word ending := by
  have hlifts := lifts_convert hderived htyped hword line
  rw [convertsTo_iff_succ]
  constructor
  · rintro ⟨enough, hends⟩
    exact ⟨enough, fun depth hdepth => hback _ (hends depth hdepth ▸ hlifts depth)⟩
  · rintro ⟨enough, hends⟩
    exact ⟨enough, fun depth hdepth => hforth _ (hends depth hdepth ▸ hlifts depth)⟩

/-- The reports are those for the inner type. -/
theorem reports_iff (htyped : asked.Typed) (hword : word ≠ "") (cause : Cause) :
    registry.ConvertsTo asked line (.optional inner) word
        (.returned (.error (.conversion (.optional inner) cause))) ↔
      asked.ReportsFor line inner word cause := by
  have hlifts := lifts_convert hderived htyped hword line
  rw [convertsTo_iff_succ]
  constructor
  · rintro ⟨enough, hends⟩
    by_cases hmissing : asked.lookup inner = none
    · refine .inr ⟨hmissing, ?_⟩
      have hlast := hlifts enough
      rw [hends enough (Nat.le_refl enough), convert_eq_noConverter_iff.mpr hmissing] at hlast
      cases hlast
      rfl
    · refine .inl ⟨enough, fun depth hdepth => ?_⟩
      have hdeep := hlifts depth
      rw [hends depth hdepth] at hdeep
      generalize hinner : asked.convert (asked.context line depth) inner word = comes at hdeep
      cases hdeep with
      | reported => rfl
      | missing => exact absurd (convert_eq_noConverter_iff.mp hinner) hmissing
  · rintro (⟨enough, hends⟩ | ⟨hmissing, rfl⟩)
    · refine ⟨enough, fun depth hdepth => ?_⟩
      have hdeep := hlifts depth
      rw [hends depth hdepth] at hdeep
      generalize registry.convert _ _ word = comes at hdeep
      cases hdeep
      rfl
    · refine ⟨0, fun depth _ => ?_⟩
      have hdeep := hlifts depth
      rw [convert_eq_noConverter_iff.mpr hmissing] at hdeep
      generalize registry.convert _ _ word = comes at hdeep
      cases hdeep
      rfl

theorem followsInner (htyped : asked.Typed) (hword : word ≠ "") (line : String) :
    FollowsInner registry asked inner line word where
  value content := by
    apply convertsTo_iff hderived htyped hword
    · rintro other ⟨⟩
      rfl
    · rintro other ⟨⟩
      rfl
  report := reports_iff hderived htyped hword
  panicked panic := by
    apply convertsTo_iff hderived htyped hword
    · rintro other ⟨⟩
      rfl
    · rintro other ⟨⟩
      rfl
  hung := by
    apply convertsTo_iff hderived htyped hword
    · rintro other ⟨⟩
      rfl
    · rintro other ⟨⟩
      rfl
  returned result := by
    rw [convertsTo_iff_succ]
    rintro ⟨enough, hends⟩
    have hlifts := lifts_convert hderived htyped hword line enough
    rw [hends enough (Nat.le_refl enough)] at hlifts
    generalize asked.convert _ inner word = comes at hlifts
    cases hlifts with
    | value content => exact .inl ⟨content, rfl⟩
    | reported cause => exact .inr ⟨cause, rfl⟩
    | missing => exact .inr ⟨_, rfl⟩

end Derived

section Layers

variable {base : ValueType} {layers : Nat}
  (hlayers : ∀ n < layers, registry.lookup (base.optionals (n + 1)) =
    some (.optional (base.optionals n)))

include hlayers

/-- Through derived converters a value comes back from the innermost type. -/
theorem value_of_layers (htyped : registry.Typed) (hword : word ≠ "") (content : base.Carrier) :
    registry.ConvertsTo registry line (base.optionals layers) word
        (.returned (.ok ⟨base.optionals layers, base.present content layers⟩)) ↔
      registry.ConvertsTo registry line base word (.returned (.ok ⟨base, content⟩)) := by
  induction layers with
  | zero => rfl
  | succ layers ih =>
    have hderived := hlayers layers (Nat.lt_succ_self layers)
    have hfollows := followsInner hderived htyped hword line
    exact (hfollows.value (base.present content layers)).trans
      (ih fun n hn => hlayers n (Nat.lt_succ_of_lt hn))

/-- So does a report. -/
theorem reports_of_layers (htyped : registry.Typed) (hword : word ≠ "") (cause : Cause) :
    registry.ReportsFor line (base.optionals layers) word cause ↔
      registry.ReportsFor line base word cause := by
  induction layers with
  | zero => rfl
  | succ layers ih =>
    have hderived := hlayers layers (Nat.lt_succ_self layers)
    have hthere : ¬ (registry.lookup (base.optionals (layers + 1)) = none ∧
        cause = (Fault.noConverter (base.optionals (layers + 1))).report) := by
      rintro ⟨hnone, -⟩
      cases hnone.symm.trans hderived
    have hfollows := followsInner hderived htyped hword line
    exact (or_iff_left hthere).trans ((hfollows.report cause).trans
      (ih fun n hn => hlayers n (Nat.lt_succ_of_lt hn)))

end Layers

/-- A derived converter stays where it is until one is registered for the optional type itself. -/
theorem lookup_registerAll_derived (hderived : registry.lookup (.optional inner) =
      some (.optional inner)) {further : List Converter}
    (hother : ∀ converter ∈ further, converter.target ≠ .optional inner) :
    (registry.registerAll further).lookup (.optional inner) = some (.optional inner) := by
  have hnone : Converter.lastFor? further (.optional inner) = none := by
    rw [← Option.not_isSome_iff_eq_none, Converter.lastFor?_isSome_iff]
    rintro ⟨converter, hmem, htarget⟩
    exact hother converter hmem htarget
  rw [lookup_registerAll, hnone, hderived]
  rfl

/-- What a derived converter comes to, with the converters of any registry to ask. The empty word is
no value. Any other word ends as it does at the inner type, with one answer of the other registry
more to go. So it comes to a value just where the other registry converts it to this value of the
inner type, and to a report just where the other registry comes to this report, or has no converter
for the inner type and the report says so. That goes on as converters are registered in both, the
one for the inner type anew as well, as long as none is registered for the optional type itself.
Where the inner type is optional too and its converters are derived, value and report are those of
the innermost type. -/
theorem convert_optional_follows_inner (stored others : List Converter) (inner : ValueType)
    (hderived : (empty.registerAll stored).lookup (.optional inner) = some (.optional inner)) :
    let registry := empty.registerAll stored
    let asked := empty.registerAll others
    (∀ line depth, registry.convert (asked.context line depth) (.optional inner) "" =
      .returned (.ok ⟨.optional inner, none⟩)) ∧
    (∀ line depth word, word ≠ "" →
      Lifts inner (asked.convert (asked.context line depth) inner word)
        (registry.convert (asked.context line (depth + 1)) (.optional inner) word)) ∧
    (∀ line word, word ≠ "" → FollowsInner registry asked inner line word) ∧
    (∀ further more, (∀ converter ∈ further, converter.target ≠ .optional inner) →
      ∀ line word, word ≠ "" →
        FollowsInner (registry.registerAll further) (asked.registerAll more) inner line word) ∧
    (∀ converter, converter.target = inner →
      (asked.register converter).lookup inner = some converter) ∧
    ∀ base layers, inner = base.optionals layers →
      (∀ n < layers, asked.lookup (base.optionals (n + 1)) =
        some (.optional (base.optionals n))) →
      ∀ line word, word ≠ "" →
        (∀ content, registry.ConvertsTo asked line (base.optionals (layers + 1)) word
            (.returned (.ok ⟨base.optionals (layers + 1), base.present content (layers + 1)⟩)) ↔
          asked.ConvertsTo asked line base word (.returned (.ok ⟨base, content⟩))) ∧
        ∀ cause, registry.ConvertsTo asked line (base.optionals (layers + 1)) word
            (.returned (.error (.conversion (base.optionals (layers + 1)) cause))) ↔
          asked.ReportsFor line base word cause := by
  intro registry asked
  have htyped : asked.Typed := typed_empty.registerAll others
  refine ⟨fun line depth => convert_empty hderived _,
    fun line depth word hword => lifts_convert hderived htyped hword line depth,
    fun line word hword => followsInner hderived htyped hword line, ?_, ?_, ?_⟩
  · intro further more hother line word hword
    exact followsInner (lookup_registerAll_derived hderived hother) (htyped.registerAll more)
      hword line
  · intro converter htarget
    rw [lookup_register, if_pos htarget]
  · intro base layers hinner hlayers line word hword
    subst hinner
    have hfollows := followsInner hderived htyped hword line
    refine ⟨fun content => ?_, fun cause => ?_⟩
    · exact (hfollows.value (base.present content layers)).trans
        (value_of_layers hlayers htyped hword content)
    · exact (hfollows.report cause).trans (reports_of_layers hlayers htyped hword cause)

def always (n : Int32) : Converter where
  target := .int32
  convert _ _ := .returned (.ok n)

/-- The number is the one that the registry asked has the word for, with a converter registered anew
there; without one the report says that it is missing; and an optional type in an optional type is
read down to the number. -/
theorem convert_optional_numbers :
    (empty.registerAll [.int32]).ConvertsTo (empty.registerAll [.int32, always 7]) "/n 5"
        (.optional .int32) "5" (.returned (.ok ⟨.optional .int32, some (7 : Int32)⟩)) ∧
      (empty.registerAll [.int32]).ConvertsTo empty "/n 5" (.optional .int32) "5"
        (.returned (.error (.conversion (.optional .int32)
          ⟨"no parameter converter registered for i32", []⟩))) ∧
      (empty.registerAll [.int32, .optional .int32]).ConvertsTo (empty.registerAll [.int32]) "/n 5"
        (.optional (.optional .int32)) "5"
        (.returned (.ok ⟨.optional (.optional .int32), some (some (5 : Int32))⟩)) := by
  have hword : "5" ≠ "" := by decide
  obtain ⟨-, -, hanew, -⟩ := convert_optional_follows_inner [.int32] [.int32, always 7] .int32 rfl
  obtain ⟨-, -, hmissing, -⟩ := convert_optional_follows_inner [.int32] [] .int32 rfl
  obtain ⟨-, -, -, -, -, hlayers⟩ :=
    convert_optional_follows_inner [.int32, .optional .int32] [.int32] (.optional .int32) rfl
  have hderived : ∀ n < 1, (empty.registerAll [.int32]).lookup (ValueType.int32.optionals (n + 1)) =
      some (.optional (ValueType.int32.optionals n)) := by
    intro n hn
    obtain rfl := Nat.lt_one_iff.mp hn
    rfl
  refine ⟨?_, ?_, ?_⟩
  · exact ((hanew "/n 5" "5" hword).value (7 : Int32)).mpr ⟨0, fun _ _ => rfl⟩
  · exact ((hmissing "/n 5" "5" hword).report _).mpr (.inr ⟨rfl, rfl⟩)
  · exact ((hlayers .int32 1 rfl hderived "/n 5" "5" hword).1 (5 : Int32)).mpr
      ⟨0, fun _ _ => rfl⟩

end ConverterRegistry

end ChatDispatch
