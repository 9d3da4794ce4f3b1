import ChatDispatch.Proofs.Binding.Accounting

/-!
What binding comes to, in the order in which it looks. The signature is checked first, then whether
there is a converter for every type; neither looks at the line. Then the words are converted one by
one, and binding ends as the first conversion ends that gives no value. A parameter that no word is
left for is never converted, and so never ends it.
-/

namespace ChatDispatch.Binding

/-- The parameter is for words of a type that there is no converter for; texts need none. -/
def Lacks (converters : ConverterRegistry) (parameter : Parameter) (type : ValueType) : Prop :=
  parameter.kind = .converted type ∧ type ≠ .text ∧ converters.lookup type = none

def LacksFirst (converters : ConverterRegistry) (parameters : List Parameter)
    (type : ValueType) : Prop :=
  ∃ before parameter after, parameters = before ++ parameter :: after ∧
    Lacks converters parameter type ∧ ∀ other ∈ before, ∀ type, ¬ Lacks converters other type

/-- Behind the parameters `before`, which are handed the words `left`, there is this word for the
parameter, and the converter for its type comes to this with it. -/
structure Tries (call : Call) (left : List String) (before : List Parameter)
    (parameter : Parameter) (type : ValueType) (word : String)
    (tried : Ending (Except Cause Value)) : Prop where
  kind : parameter.kind = .converted type
  ne_text : type ≠ .text
  handed : (leftBehind before left).head? = some word
  attempt : ∃ converter, call.converters.lookup type = some converter ∧
    converter.attempt (call.converters.context call.line call.depth) word = tried

def Converts (call : Call) (left : List String) (parameters : List Parameter) : Prop :=
  ∀ before parameter after, parameters = before ++ parameter :: after →
    ∀ type word tried, Tries call left before parameter type word tried →
      ∃ value, tried = .returned (.ok value)

structure IsReady (converters : ConverterRegistry) (parameters : List Parameter) : Prop where
  servable : Signature.IsServable parameters
  found : ∀ parameter ∈ parameters, ∀ type, ¬ Lacks converters parameter type

/-- The words of the line can be converted up to this one, which comes to this. -/
def ComesTo (call : Call) (parameters : List Parameter) (type : ValueType) (word : String)
    (tried : Ending (Except Cause Value)) : Prop :=
  ∃ before parameter after, parameters = before ++ parameter :: after ∧
    Converts call (words call.line) before ∧
    Tries call (words call.line) before parameter type word tried

/-- What binding ends with where a conversion does: a report is wrapped with the word and the
type. -/
def refusal {α : Type} (type : ValueType) (word : String) (tried : Ending (Except Cause Value))
    (f : Value → α) : Ending (Except Fault α) :=
  tried.map fun result => (result.map f).mapError (.parameterConversion word type)

variable {call : Call} {command : String} {parameter other : Parameter}
  {parameters before after rest : List Parameter} {left : List String} {type : ValueType}
  {word : String} {tried : Ending (Except Cause Value)}

section Missing

variable {converters : ConverterRegistry}

theorem lacks_iff : Lacks converters parameter type ↔
    (parameter.target?.filter fun type => type ≠ .text && !converters.contains type) =
      some type := by
  have hcontains : converters.contains type = false ↔ converters.lookup type = none :=
    Option.isSome_eq_false_iff.trans Option.isNone_iff_eq_none
  have htarget : parameter.target? = some type ↔ parameter.kind = .converted type := by
    unfold Parameter.target?
    split
    next own hkind => simp [hkind]
    next hkind => exact iff_of_false nofun (hkind type)
  rw [Option.filter_eq_some_iff, htarget]
  simp only [Lacks, ne_eq, Bool.and_eq_true, Bool.not_eq_true', hcontains, decide_eq_true_eq]

theorem unconverted?_eq_some_iff :
    unconverted? converters parameters = some type ↔ LacksFirst converters parameters type := by
  simp only [unconverted?, List.findSome?_eq_some_iff, LacksFirst, lacks_iff,
    Option.eq_none_iff_forall_ne_some]

theorem unconverted?_eq_none_iff :
    unconverted? converters parameters = none ↔
      ∀ parameter ∈ parameters, ∀ type, ¬ Lacks converters parameter type := by
  rw [unconverted?, List.findSome?_eq_none_iff]
  simp only [lacks_iff, Option.eq_none_iff_forall_ne_some, ne_eq]

end Missing

section Words

theorem tries_cons : Tries call left (parameter :: before) other type word tried ↔
    Tries call (leftBehind [parameter] left) before other type word tried := by
  constructor
  · rintro ⟨hkind, htype, hword, hattempt⟩
    exact ⟨hkind, htype, leftBehind_cons parameter before left ▸ hword, hattempt⟩
  · rintro ⟨hkind, htype, hword, hattempt⟩
    exact ⟨hkind, htype, leftBehind_cons parameter before left ▸ hword, hattempt⟩

theorem converts_cons : Converts call left (parameter :: rest) ↔
    (∀ type word tried, Tries call left [] parameter type word tried →
      ∃ value, tried = .returned (.ok value)) ∧
      Converts call (leftBehind [parameter] left) rest := by
  constructor
  · intro h
    refine ⟨h [] parameter rest rfl, ?_⟩
    intro before other after hrest type word tried htries
    subst hrest
    exact h (parameter :: before) other after rfl type word tried (tries_cons.mpr htries)
  · rintro ⟨hfirst, hrest⟩ before other after hsplit type word tried htries
    cases before with
    | nil =>
      obtain ⟨rfl, -⟩ := List.cons.inj hsplit
      exact hfirst type word tried htries
    | cons _ before =>
      obtain ⟨rfl, hrest'⟩ := List.cons.inj hsplit
      exact hrest before other after hrest' type word tried (tries_cons.mp htries)

/-- All words can be converted, or there is a first one whose conversion gives no value. -/
theorem converts_or_stops (call : Call) (left : List String) (parameters : List Parameter) :
    Converts call left parameters ∨
      ∃ before parameter after type word tried, parameters = before ++ parameter :: after ∧
        Converts call left before ∧ Tries call left before parameter type word tried ∧
        ∀ value, tried ≠ .returned (.ok value) := by
  induction parameters generalizing left with
  | nil =>
    refine .inl ?_
    intro before parameter after hsplit
    simp at hsplit
  | cons parameter rest ih =>
    by_cases hfirst : ∀ type word tried, Tries call left [] parameter type word tried →
        ∃ value, tried = .returned (.ok value)
    · rcases ih (leftBehind [parameter] left) with hrest |
        ⟨before, stopped, after, type, word, tried, rfl, hbefore, htries, hnone⟩
      · exact .inl (converts_cons.mpr ⟨hfirst, hrest⟩)
      · exact .inr ⟨parameter :: before, stopped, after, type, word, tried, rfl,
          converts_cons.mpr ⟨hfirst, hbefore⟩, tries_cons.mpr htries, hnone⟩
    · simp only [Classical.not_forall, not_exists] at hfirst
      obtain ⟨type, word, tried, htries, hnone⟩ := hfirst
      refine .inr ⟨[], parameter, rest, type, word, tried, rfl, ?_, htries, hnone⟩
      intro before other after hsplit
      simp at hsplit

/-- A conversion settles what a parameter is bound to. -/
theorem bindOne_of_tries (h : Tries call left [] parameter type word tried) :
    (bindOne call parameter.kind left).1 = refusal type word tried Argument.value := by
  obtain ⟨hkind, htype, hword, converter, hlookup, rfl⟩ := h
  rw [leftBehind_nil] at hword
  obtain ⟨further, rfl⟩ := List.head?_eq_some_iff.mp hword
  rw [hkind]
  change bindWord call type word = _
  unfold bindWord ConverterRegistry.convert refusal
  rw [if_neg htype, hlookup]
  dsimp only
  rw [Ending.map_map]
  congr 1
  funext result
  cases result <;> rfl

/-- Without a conversion that fails, a parameter is bound. -/
theorem exists_argument (hfound : ∀ type, ¬ Lacks call.converters parameter type)
    (h : ∀ type word tried, Tries call left [] parameter type word tried →
      ∃ value, tried = .returned (.ok value)) :
    ∃ argument, bindOne call parameter.kind left =
      (.returned (.ok argument), leftBehind [parameter] left) := by
  have hargument : ∃ argument, (bindOne call parameter.kind left).1 =
      .returned (.ok argument) := by
    cases hkind : parameter.kind with
    | message => exact ⟨_, rfl⟩
    | client => exact ⟨_, rfl⟩
    | remaining => exact ⟨_, rfl⟩
    | converted type =>
      cases left with
      | nil => exact ⟨_, rfl⟩
      | cons word further =>
        by_cases htype : type = .text
        · exact ⟨_, if_pos htype⟩
        · cases hlookup : call.converters.lookup type with
          | none => exact absurd ⟨hkind, htype, hlookup⟩ (hfound type)
          | some converter =>
            have htries : Tries call (word :: further) [] parameter type word _ :=
              ⟨hkind, htype, by simp, converter, hlookup, rfl⟩
            obtain ⟨value, hvalue⟩ := h type word _ htries
            rw [hvalue] at htries
            exact ⟨_, hkind ▸ bindOne_of_tries htries⟩
  obtain ⟨argument, hargument⟩ := hargument
  have hone : bindOne call parameter.kind left =
      (.returned (.ok argument), (bindOne call parameter.kind left).2) := Prod.ext hargument rfl
  exact ⟨argument, hone.trans (congrArg (Prod.mk _) (rest_of_bindOne hone))⟩

variable (rest) in
/-- Parameters whose words can all be converted hand on to those behind them what they leave. -/
theorem bindAll_append
    (hfound : ∀ parameter ∈ before, ∀ type, ¬ Lacks call.converters parameter type)
    (h : Converts call left before) :
    ∃ arguments, bindAll call (before ++ rest) left =
      ⟨arguments ++ (bindAll call rest (leftBehind before left)).arguments,
        (bindAll call rest (leftBehind before left)).ending⟩ := by
  induction before generalizing left with
  | nil => exact ⟨[], by simp⟩
  | cons parameter before ih =>
    obtain ⟨hfirst, hothers⟩ := List.forall_mem_cons.mp hfound
    obtain ⟨hone, hrest⟩ := converts_cons.mp h
    obtain ⟨argument, hargument⟩ := exists_argument hfirst hone
    obtain ⟨arguments, hbound⟩ := ih hothers hrest
    refine ⟨argument :: arguments, ?_⟩
    rw [List.cons_append, bindAll, hargument]
    dsimp only
    rw [hbound, leftBehind_cons parameter before]
    rfl

/-- Where all words can be converted, all parameters are bound. -/
theorem bindAll_of_converts
    (hfound : ∀ parameter ∈ parameters, ∀ type, ¬ Lacks call.converters parameter type)
    (h : Converts call left parameters) :
    (bindAll call parameters left).ending = .returned (.ok ()) := by
  obtain ⟨arguments, hbound⟩ := bindAll_append [] hfound h
  rw [List.append_nil] at hbound
  rw [hbound]
  rfl

/-- Binding ends with the first conversion that gives no value. -/
theorem bindAll_of_tries
    (hfound : ∀ parameter ∈ before, ∀ type, ¬ Lacks call.converters parameter type)
    (hbefore : Converts call left before)
    (htries : Tries call left before parameter type word tried)
    (hnone : ∀ value, tried ≠ .returned (.ok value)) :
    (bindAll call (before ++ parameter :: after) left).ending =
      refusal type word tried fun _ => () := by
  obtain ⟨arguments, hbound⟩ := bindAll_append (parameter :: after) hfound hbefore
  have hone : (bindOne call parameter.kind (leftBehind before left)).1 =
      refusal type word tried Argument.value := by
    apply bindOne_of_tries
    refine ⟨htries.kind, htries.ne_text, ?_, htries.attempt⟩
    simpa using htries.handed
  have hpair : bindOne call parameter.kind (leftBehind before left) = (refusal type word tried
      Argument.value, (bindOne call parameter.kind (leftBehind before left)).2) :=
    Prod.ext hone rfl
  rw [hbound, bindAll, hpair]
  cases tried with
  | returned result =>
    cases result with
    | ok value => exact absurd rfl (hnone value)
    | error cause => rfl
  | panicked panic => rfl
  | hung => rfl

theorem leftBehind_append (before after : List Parameter) (left : List String) :
    leftBehind (before ++ after) left = leftBehind after (leftBehind before left) := by
  induction before generalizing left with
  | nil => rw [List.nil_append, leftBehind_nil]
  | cons parameter before ih =>
    rw [List.cons_append, leftBehind_cons, ih, ← leftBehind_cons parameter before]

/-- Where the words run out, the parameters behind make no difference. -/
theorem converts_append_iff (hout : leftBehind before left = []) :
    Converts call left (before ++ rest) ↔ Converts call left before := by
  constructor
  · intro h first parameter after hsplit
    subst hsplit
    exact h first parameter (after ++ rest) (by simp)
  · intro h first parameter after hsplit type word tried htries
    rcases List.append_eq_append_iff.mp hsplit with ⟨more, rfl, -⟩ | ⟨more, hbefore, hmore⟩
    · have hhanded := htries.handed
      rw [leftBehind_append, hout] at hhanded
      simp [leftBehind] at hhanded
    · cases more with
      | nil =>
        have hhanded := htries.handed
        rw [List.append_nil] at hbefore
        rw [← hbefore, hout] at hhanded
        cases hhanded
      | cons next more =>
        obtain ⟨rfl, -⟩ := List.cons.inj hmore
        exact h first parameter more hbefore type word tried htries

end Words

section Course

theorem arguments_of_check {fault : SignatureFault}
    (h : Signature.check parameters = .error fault) :
    arguments call command parameters = .returned (.error (.invalidMethod command fault)) := by
  rw [arguments, bind, h]
  rfl

theorem arguments_of_lacksFirst (hservable : Signature.IsServable parameters)
    (h : LacksFirst call.converters parameters type) :
    arguments call command parameters = .returned (.error (.noConverter type)) := by
  rw [arguments, bind, Signature.check_eq_ok_iff.mpr hservable]
  dsimp only
  rw [unconverted?_eq_some_iff.mpr h]
  rfl

theorem arguments_of_isReady (h : IsReady call.converters parameters) :
    arguments call command parameters = (bindAll call parameters (words call.line)).result := by
  rw [arguments, bind, Signature.check_eq_ok_iff.mpr h.servable]
  dsimp only
  rw [unconverted?_eq_none_iff.mpr h.found]

variable (command) in
theorem arguments_of_converts (hready : IsReady call.converters parameters)
    (h : Converts call (words call.line) parameters) :
    ∃ arguments, Binding.arguments call command parameters = .returned (.ok arguments) := by
  rw [arguments_of_isReady hready, Bound.result, bindAll_of_converts hready.found h]
  exact ⟨_, rfl⟩

theorem arguments_of_comesTo (hready : IsReady call.converters parameters)
    (h : ComesTo call parameters type word tried)
    (hnone : ∀ value, tried ≠ .returned (.ok value)) (f : Value → Arguments) :
    arguments call command parameters = refusal type word tried f := by
  obtain ⟨before, parameter, after, rfl, hbefore, htries⟩ := h
  have hfound : ∀ parameter ∈ before, ∀ type, ¬ Lacks call.converters parameter type :=
    fun other hother => hready.found other (List.mem_append_left _ hother)
  rw [arguments_of_isReady hready, Bound.result, bindAll_of_tries hfound hbefore htries hnone,
    refusal, refusal, Ending.map_map]
  cases tried with
  | returned result =>
    cases result with
    | ok value => exact absurd rfl (hnone value)
    | error cause => rfl
  | panicked panic => rfl
  | hung => rfl

inductive Ends (call : Call) (command : String) (parameters : List Parameter) :
    Ending (Except Fault Arguments) → Prop
  | unservable {fault : SignatureFault} (hservable : ¬ Signature.IsServable parameters) :
      Ends call command parameters (.returned (.error (.invalidMethod command fault)))
  | lacking {type : ValueType} (hservable : Signature.IsServable parameters)
      (hlacks : LacksFirst call.converters parameters type) :
      Ends call command parameters (.returned (.error (.noConverter type)))
  | rejected {type : ValueType} {word : String} {cause : Cause}
      (hready : IsReady call.converters parameters)
      (hcomes : ComesTo call parameters type word (.returned (.error cause))) :
      Ends call command parameters (.returned (.error (.parameterConversion word type cause)))
  | panicked {type : ValueType} {word : String} {panic : Panic}
      (hready : IsReady call.converters parameters)
      (hcomes : ComesTo call parameters type word (.panicked panic)) :
      Ends call command parameters (.panicked panic)
  | hung {type : ValueType} {word : String} (hready : IsReady call.converters parameters)
      (hcomes : ComesTo call parameters type word .hung) :
      Ends call command parameters .hung
  | bound {all : Arguments} (hready : IsReady call.converters parameters)
      (hconverts : Converts call (words call.line) parameters) :
      Ends call command parameters (.returned (.ok all))

theorem ends_arguments (call : Call) (command : String) (parameters : List Parameter) :
    Ends call command parameters (arguments call command parameters) := by
  cases hcheck : Signature.check parameters with
  | error fault =>
    rw [arguments_of_check hcheck]
    refine .unservable fun hservable => ?_
    rw [Signature.check_eq_ok_iff.mpr hservable] at hcheck
    cases hcheck
  | ok done =>
    have hservable := Signature.check_eq_ok_iff.mp hcheck
    cases hfound : unconverted? call.converters parameters with
    | some type =>
      have hlacks := unconverted?_eq_some_iff.mp hfound
      rw [arguments_of_lacksFirst hservable hlacks]
      exact .lacking hservable hlacks
    | none =>
      have hready : IsReady call.converters parameters :=
        ⟨hservable, unconverted?_eq_none_iff.mp hfound⟩
      rcases converts_or_stops call (words call.line) parameters with hconverts |
        ⟨before, parameter, after, type, word, tried, hsplit, hbefore, htries, hnone⟩
      · obtain ⟨all, hall⟩ := arguments_of_converts command hready hconverts
        rw [hall]
        exact .bound hready hconverts
      · have hcomes : ComesTo call parameters type word tried :=
          ⟨before, parameter, after, hsplit, hbefore, htries⟩
        rw [arguments_of_comesTo hready hcomes hnone fun _ => ⟨[]⟩]
        cases tried with
        | returned result =>
          cases result with
          | ok value => exact absurd rfl (hnone value)
          | error cause => exact .rejected hready hcomes
        | panicked panic => exact .panicked hready hcomes
        | hung => exact .hung hready hcomes

variable (call command parameters)

theorem exists_invalidMethod_iff :
    (∃ fault, arguments call command parameters =
      .returned (.error (.invalidMethod command fault))) ↔
      ¬ Signature.IsServable parameters := by
  have hends := ends_arguments call command parameters
  constructor
  · rintro ⟨fault, hfault⟩
    rw [hfault] at hends
    cases hends with
    | unservable hservable => exact hservable
  · intro hservable
    cases hcheck : Signature.check parameters with
    | error fault => exact ⟨fault, arguments_of_check hcheck⟩
    | ok done => exact absurd (Signature.check_eq_ok_iff.mp hcheck) hservable

theorem eq_noConverter_iff :
    arguments call command parameters = .returned (.error (.noConverter type)) ↔
      Signature.IsServable parameters ∧ LacksFirst call.converters parameters type := by
  have hends := ends_arguments call command parameters
  constructor
  · intro hfault
    rw [hfault] at hends
    cases hends with
    | lacking hservable hlacks => exact ⟨hservable, hlacks⟩
  · exact fun ⟨hservable, hlacks⟩ => arguments_of_lacksFirst hservable hlacks

theorem eq_parameterConversion_iff {token : String} {target : ValueType} {cause : Cause} :
    arguments call command parameters =
      .returned (.error (.parameterConversion token target cause)) ↔
      IsReady call.converters parameters ∧
        ComesTo call parameters target token (.returned (.error cause)) := by
  have hends := ends_arguments call command parameters
  constructor
  · intro hfault
    rw [hfault] at hends
    cases hends with
    | rejected hready hcomes => exact ⟨hready, hcomes⟩
  · exact fun ⟨hready, hcomes⟩ => arguments_of_comesTo hready hcomes nofun fun _ => ⟨[]⟩

theorem exists_ok_iff :
    (∃ all, arguments call command parameters = .returned (.ok all)) ↔
      IsReady call.converters parameters ∧ Converts call (words call.line) parameters := by
  have hends := ends_arguments call command parameters
  constructor
  · rintro ⟨all, hall⟩
    rw [hall] at hends
    cases hends with
    | bound hready hconverts => exact ⟨hready, hconverts⟩
  · exact fun ⟨hready, hconverts⟩ => arguments_of_converts command hready hconverts

theorem eq_panicked_iff {panic : Panic} :
    arguments call command parameters = .panicked panic ↔
      IsReady call.converters parameters ∧
        ∃ type word, ComesTo call parameters type word (.panicked panic) := by
  have hends := ends_arguments call command parameters
  constructor
  · intro hpanic
    rw [hpanic] at hends
    cases hends with
    | panicked hready hcomes => exact ⟨hready, _, _, hcomes⟩
  · exact fun ⟨hready, _, _, hcomes⟩ => arguments_of_comesTo hready hcomes nofun fun _ => ⟨[]⟩

theorem eq_hung_iff :
    arguments call command parameters = .hung ↔
      IsReady call.converters parameters ∧
        ∃ type word, ComesTo call parameters type word .hung := by
  have hends := ends_arguments call command parameters
  constructor
  · intro hhung
    rw [hhung] at hends
    cases hends with
    | hung hready hcomes => exact ⟨hready, _, _, hcomes⟩
  · exact fun ⟨hready, _, _, hcomes⟩ => arguments_of_comesTo hready hcomes nofun fun _ => ⟨[]⟩

/-- Which fault binding ends with. It is the signature that is judged first: it has to have one
message, one client and at most one parameter for the remaining text. Then it is the first parameter
that lacks a converter; neither depends on the line, the message or the client. Only then are words
converted, and the first word whose converter reports is the one that is named, with the type that
it was for and the report as it was given. Without any of these all parameters are bound, and there
are no other faults; where a converter panics or is not seen to end, neither is binding. Parameters
that no words are left for change nothing of this. -/
theorem arguments_refused_in_order :
    ((∃ fault, arguments call command parameters =
        .returned (.error (.invalidMethod command fault))) ↔
      ¬ Signature.IsServable parameters) ∧
    (∀ type, arguments call command parameters = .returned (.error (.noConverter type)) ↔
      Signature.IsServable parameters ∧ LacksFirst call.converters parameters type) ∧
    (∀ token target cause, arguments call command parameters =
        .returned (.error (.parameterConversion token target cause)) ↔
      IsReady call.converters parameters ∧
        ComesTo call parameters target token (.returned (.error cause))) ∧
    ((∃ all, arguments call command parameters = .returned (.ok all)) ↔
      IsReady call.converters parameters ∧ Converts call (words call.line) parameters) ∧
    (∀ fault, arguments call command parameters = .returned (.error fault) →
      (∃ reason, fault = .invalidMethod command reason) ∨ (∃ type, fault = .noConverter type) ∨
        ∃ token target cause, fault = .parameterConversion token target cause) ∧
    (∀ panic, arguments call command parameters = .panicked panic ↔
      IsReady call.converters parameters ∧
        ∃ type word, ComesTo call parameters type word (.panicked panic)) ∧
    (arguments call command parameters = .hung ↔ IsReady call.converters parameters ∧
      ∃ type word, ComesTo call parameters type word .hung) ∧
    ∀ before after, parameters = before ++ after → leftBehind before (words call.line) = [] →
      (Converts call (words call.line) parameters ↔ Converts call (words call.line) before) := by
  refine ⟨exists_invalidMethod_iff call command parameters,
    fun type => eq_noConverter_iff call command parameters,
    fun token target cause => eq_parameterConversion_iff call command parameters,
    exists_ok_iff call command parameters, fun fault hfault => ?_,
    fun panic => eq_panicked_iff call command parameters, eq_hung_iff call command parameters,
    fun before after hsplit hout => hsplit ▸ converts_append_iff hout⟩
  have hends := ends_arguments call command parameters
  rw [hfault] at hends
  cases hends with
  | unservable hservable => exact .inl ⟨_, rfl⟩
  | lacking hservable hlacks => exact .inr (.inl ⟨_, rfl⟩)
  | rejected hready hcomes => exact .inr (.inr ⟨_, _, _, rfl⟩)

end Course

def worded : Call := ⟨"/add 5 five", { text := some "/add 5 five" }, .memory, .builtin, 1⟩

/-- The first number is converted, the second word is refused, and the third number that is declared
is never asked for. -/
theorem arguments_worded :
    arguments worded "add" [.client, .converted "a" .int32, .message, .converted "b" .int32,
        .converted "c" .int32] =
      .returned (.error (.parameterConversion "five" .int32
        ⟨"'five' is not a 32-bit integer", ["invalid digit found in string"]⟩)) ∧
      ComesTo worded [.client, .converted "a" .int32, .message, .converted "b" .int32,
        .converted "c" .int32] .int32 "five" (.returned (.error
          ⟨"'five' is not a 32-bit integer", ["invalid digit found in string"]⟩)) := by
  obtain ⟨-, -, hconversion, -⟩ := arguments_refused_in_order worded "add"
    [.client, .converted "a" .int32, .message, .converted "b" .int32, .converted "c" .int32]
  have hrefused : arguments worded "add" [.client, .converted "a" .int32, .message,
      .converted "b" .int32, .converted "c" .int32] =
      .returned (.error (.parameterConversion "five" .int32
        ⟨"'five' is not a 32-bit integer", ["invalid digit found in string"]⟩)) := by rfl
  exact ⟨hrefused, ((hconversion _ _ _).mp hrefused).2⟩

end ChatDispatch.Binding
