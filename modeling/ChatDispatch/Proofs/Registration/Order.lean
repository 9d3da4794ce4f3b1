import ChatDispatch.Proofs.Conversion.Contents
import ChatDispatch.Proofs.Dispatch.Likeness

/-!
The order in which a processor is set up. Setting up is made of scans of modules and of
registrations of converters and validators. Steps that are apart, in that they give nothing the same
name or type, can be swapped; that holds as well where the optional form of one type is registered
itself, before or after the registration of the type that would derive it. So all orders of such
steps lead to processors that cannot be told apart by whatever is dispatched later.
-/

namespace ChatDispatch

inductive Setup where
  | scan (module : Module Program)
  | addConverter (converter : Converter)
  | addValidator (validator : Validator)

namespace Setup

/-- Take one step; a module that is rejected is passed over. -/
def apply : Setup → Action Unit
  | .scan module => do
    let _ ← Processor.scan module
    return ()
  | .addConverter converter => Processor.addConverter converter
  | .addValidator validator => Processor.addValidator validator

/-- Two steps that do not register anything under the same name or type. A type and its optional
form are different types. -/
def Apart : Setup → Setup → Prop
  | .scan first, .scan second => ∀ name ∈ first.commandNames, name ∉ second.commandNames
  | .addConverter first, .addConverter second => first.target ≠ second.target
  | .addValidator first, .addValidator second => first.requirement ≠ second.requirement
  | _, _ => True

theorem Apart.symm {first second : Setup} (h : first.Apart second) : second.Apart first := by
  cases first with
  | scan first =>
    cases second with
    | scan second => exact fun name hsecond hfirst => h name hfirst hsecond
    | addConverter second => trivial
    | addValidator second => trivial
  | addConverter first =>
    cases second with
    | scan second => trivial
    | addConverter second => exact Ne.symm h
    | addValidator second => trivial
  | addValidator first =>
    cases second with
    | scan second => trivial
    | addConverter second => trivial
    | addValidator second => exact Ne.symm h

end Setup

/-- What is found for a type does not depend on which of two types comes first. Where one is the
optional form of the other, its own converter is kept or put in place of the derived one. -/
theorem ConverterRegistry.lookup_register_comm (registry : ConverterRegistry)
    {first second : Converter} (h : first.target ≠ second.target) (type : ValueType) :
    ((registry.register first).register second).lookup type =
      ((registry.register second).register first).lookup type := by
  by_cases hfirst : first.target = type
  · have hsecond : second.target ≠ type := fun heq => h (hfirst.trans heq.symm)
    simp [lookup_register, hfirst, hsecond]
  · by_cases hsecond : second.target = type
    · simp [lookup_register, hfirst, hsecond]
    · cases hlookup : registry.lookup type with
      | some kept => simp [lookup_register, hfirst, hsecond, hlookup]
      | none =>
        by_cases hoptional : ValueType.optional first.target = type
        · have hother : ValueType.optional second.target ≠ type := by
            intro heq
            rw [← hoptional, ValueType.optional.injEq] at heq
            exact h heq.symm
          simp [lookup_register, hfirst, hsecond, hlookup, hoptional, hother]
        · simp [lookup_register, hfirst, hsecond, hlookup, hoptional]

theorem ValidatorRegistry.lookup_register_comm (registry : ValidatorRegistry)
    {first second : Validator} (h : first.requirement ≠ second.requirement) (type : ValueType) :
    ((registry.register first).register second).lookup type =
      ((registry.register second).register first).lookup type := by
  simp only [lookup_register]
  by_cases hfirst : first.requirement = type
  · have hsecond : second.requirement ≠ type := fun heq => h (hfirst.trans heq.symm)
    rw [if_neg hsecond, if_pos hfirst, if_pos hfirst]
  · rw [if_neg hfirst, if_neg hfirst]

def CommandRegistry.scanned (registry : CommandRegistry) (module : Module Program) :
    CommandRegistry :=
  match registry.scan module with
  | .ok (_, commands) => commands
  | .error _ => registry

namespace Processor

variable {first second module : Module Program} {p q : Processor} {name : String}

theorem scan_after (module : Module Program) (p : Processor) :
    (scan module p).after = { p with commands := p.commands.scanned module } := by
  unfold scan CommandRegistry.scanned
  rw [Action.state_bind]
  cases p.commands.scan module with
  | ok found => rfl
  | error fault => rfl

/-- What a scan makes of the names of its module depends on what is found under these names only. -/
theorem resolve_scan_congr (h : ∀ name ∈ module.commandNames,
      p.commands.resolve name = q.commands.resolve name) (hname : name ∈ module.commandNames) :
    (scan module p).after.commands.resolve name =
      (scan module q).after.commands.resolve name := by
  have hblocks : p.commands.Blocks module ↔ q.commands.Blocks module := by
    refine or_congr_left (exists_congr fun other => and_congr_right fun hother => ?_)
    rw [h other hother]
  -- Both scans reject the module, or both register it.
  by_cases hblocked : p.commands.Blocks module
  · have hp := (scan_scanned module p).rejects hblocked
    have hq := (scan_scanned module q).rejects (hblocks.mp hblocked)
    rw [hp.after, hq.after]
    exact h name hname
  · have hp := (scan_scanned module p).registers hblocked
    have hq := (scan_scanned module q).registers fun hblocked' => hblocked (hblocks.mpr hblocked')
    obtain ⟨method, hmethod, hcommand⟩ := List.mem_filterMap.mp hname
    rw [hp.own method hmethod name hcommand, hq.own method hmethod name hcommand]

/-- Outside of the names of the second module, two scans can be swapped. -/
theorem resolve_scan_swap (h : ∀ name ∈ first.commandNames, name ∉ second.commandNames)
    (p : Processor) (hname : name ∉ second.commandNames) :
    (scan second (scan first p).after).after.commands.resolve name =
      (scan first (scan second p).after).after.commands.resolve name := by
  have hsecond : (scan second (scan first p).after).after.commands.resolve name =
      (scan first p).after.commands.resolve name :=
    (scan_scanned second _).resolve_of_not_mem hname
  rw [hsecond]
  by_cases hfirst : name ∈ first.commandNames
  · apply resolve_scan_congr _ hfirst
    intro other hother
    exact ((scan_scanned second p).resolve_of_not_mem (h other hother)).symm
  · rw [(scan_scanned first p).resolve_of_not_mem hfirst,
      (scan_scanned first _).resolve_of_not_mem hfirst,
      (scan_scanned second p).resolve_of_not_mem hname]

theorem resolve_scan_comm (h : ∀ name ∈ first.commandNames, name ∉ second.commandNames)
    (p : Processor) (name : String) :
    (scan second (scan first p).after).after.commands.resolve name =
      (scan first (scan second p).after).after.commands.resolve name := by
  by_cases hname : name ∈ second.commandNames
  · have hsymm : ∀ name ∈ second.commandNames, name ∉ first.commandNames :=
      fun other hsecond hfirst => h other hfirst hsecond
    exact (resolve_scan_swap hsymm p (hsymm name hname)).symm
  · exact resolve_scan_swap h p hname

end Processor

namespace Setup

theorem apply_returns (step : Setup) (p : Processor) : (step.apply p).ending = .returned () := by
  cases step with
  | scan module =>
    obtain ⟨result, hresult⟩ := Processor.scan_returns module p
    rw [apply, Action.bind_of_returned hresult]
    rfl
  | addConverter converter => rfl
  | addValidator validator => rfl

theorem apply_scan_after (module : Module Program) (p : Processor) :
    ((Setup.scan module).apply p).after = (Processor.scan module p).after := by
  rw [apply, Action.bind_pure_apply]

theorem apply_addConverter_after (converter : Converter) (p : Processor) :
    ((Setup.addConverter converter).apply p).after =
      { p with converters := p.converters.register converter } := rfl

theorem apply_addValidator_after (validator : Validator) (p : Processor) :
    ((Setup.addValidator validator).apply p).after =
      { p with validators := p.validators.register validator } := rfl

theorem apply_faithful (step : Setup) : Action.Faithful Unit step.apply := by
  cases step with
  | scan module => exact (Action.Faithful.scan module).bind fun _ => Action.Faithful.pure ()
  | addConverter converter => exact Action.Faithful.addConverter converter
  | addValidator validator => exact Action.Faithful.addValidator validator

/-- Steps that are apart can be swapped. -/
theorem apply_comm {first second : Setup} (h : first.Apart second) (p : Processor) :
    (second.apply (first.apply p).after).after.Alike
      (first.apply (second.apply p).after).after := by
  cases first with
  | scan first =>
    cases second with
    | scan second =>
      have hcommands := Processor.resolve_scan_comm h p
      simp only [apply_scan_after, Processor.scan_after] at hcommands ⊢
      exact ⟨rfl, rfl, hcommands, fun _ => rfl, fun _ => rfl, rfl, rfl⟩
    | addConverter second =>
      simp only [apply_scan_after, Processor.scan_after, apply_addConverter_after]
      exact .refl _
    | addValidator second =>
      simp only [apply_scan_after, Processor.scan_after, apply_addValidator_after]
      exact .refl _
  | addConverter first =>
    cases second with
    | scan second =>
      simp only [apply_scan_after, Processor.scan_after, apply_addConverter_after]
      exact .refl _
    | addConverter second =>
      have hconverters := p.converters.lookup_register_comm h
      exact ⟨rfl, rfl, fun _ => rfl, hconverters, fun _ => rfl, rfl, rfl⟩
    | addValidator second => exact .refl _
  | addValidator first =>
    cases second with
    | scan second =>
      simp only [apply_scan_after, Processor.scan_after, apply_addValidator_after]
      exact .refl _
    | addConverter second => exact .refl _
    | addValidator second =>
      have hvalidators := p.validators.lookup_register_comm h
      exact ⟨rfl, rfl, fun _ => rfl, fun _ => rfl, hvalidators, rfl, rfl⟩

end Setup

namespace Processor

open ConverterRegistry (nodup_types_register)

variable {steps others : List Setup} {p q : Processor}

def setUp (steps : List Setup) (p : Processor) : Processor := (steps.forM Setup.apply p).after

theorem setUp_cons (step : Setup) (steps : List Setup) (p : Processor) :
    setUp (step :: steps) p = setUp steps (step.apply p).after := by
  unfold setUp
  rw [List.forM_eq_forM, List.forM_cons, Action.bind_of_returned (step.apply_returns p)]

theorem Alike.setUp (h : p.Alike q) (steps : List Setup) :
    (setUp steps p).Alike (setUp steps q) :=
  (Action.Faithful.forM Setup.apply_faithful steps p q h).after

/-- Steps that are apart lead to the same in any order; the induction is on how one order is made
of the other by swaps of neighbours. -/
theorem alike_setUp_of_perm (hperm : steps.Perm others) (hapart : steps.Pairwise Setup.Apart)
    (p : Processor) : (setUp steps p).Alike (setUp others p) := by
  induction hperm generalizing p with
  | nil => exact .refl p
  | cons step _ ih =>
    rw [setUp_cons, setUp_cons]
    exact ih hapart.of_cons (step.apply p).after
  | swap first second rest =>
    have hfirst : second.Apart first := List.rel_of_pairwise_cons hapart List.mem_cons_self
    rw [setUp_cons, setUp_cons, setUp_cons, setUp_cons]
    exact (Setup.apply_comm hfirst p).setUp rest
  | trans hfirst _ ihfirst ihsecond =>
    have hbetween := (hfirst.pairwise_iff Setup.Apart.symm).mp hapart
    exact (ihfirst hapart p).trans (ihsecond hbetween p)

structure Keyed (p : Processor) : Prop where
  commands : p.commands.table.keys.Nodup
  converters : p.converters.types.Nodup

theorem keyed_new (settings : Settings) (client : Client) : (new settings client).Keyed := by
  have hempty : ConverterRegistry.empty.types.Nodup := List.nodup_nil
  exact ⟨List.nodup_nil, nodup_types_register (nodup_types_register hempty _) _⟩

theorem Keyed.apply (h : p.Keyed) (step : Setup) : (step.apply p).after.Keyed := by
  cases step with
  | scan module =>
    rw [Setup.apply_scan_after]
    refine ⟨(scan_scanned module p).nodup_keys h.commands, ?_⟩
    rw [scan_after]
    exact h.converters
  | addConverter converter => exact ⟨h.commands, nodup_types_register h.converters converter⟩
  | addValidator validator => exact ⟨h.commands, h.converters⟩

theorem Keyed.setUp (h : p.Keyed) (steps : List Setup) : (setUp steps p).Keyed := by
  induction steps generalizing p with
  | nil => exact h
  | cons step rest ih =>
    rw [setUp_cons]
    exact ih (h.apply step)

theorem Alike.names_eq (h : p.Alike q) (hp : p.Keyed) (hq : q.Keyed) :
    p.commands.names = q.commands.names :=
  inOrder_congr (Table.keys_perm hp.commands hq.commands h.commands)

theorem Alike.typeNames_eq (h : p.Alike q) (hp : p.Keyed) (hq : q.Keyed) :
    p.converters.typeNames = q.converters.typeNames := by
  have htypes : p.converters.types.Perm q.converters.types :=
    Table.keys_perm hp.converters hq.converters h.converters
  exact inOrder_congr (htypes.map ValueType.name)

/-- Observers subscribe, then updates are dispatched one after the other. -/
def serve (observers : List Nat) (depth : Nat) (updates : List Update) :
    Action (List Outcome) := do
  observers.forM observe
  dispatchBatch depth updates

theorem faithful_serve (observers : List Nat) (depth : Nat) (updates : List Update) :
    Action.Faithful _ (serve observers depth updates) :=
  (Action.Faithful.forM Action.Faithful.observe observers).bind fun _ =>
    Action.Faithful.dispatchBatch depth updates

/-- New processors that are set up by the same steps in different orders have the same commands,
converters and validators, and whatever is dispatched on them later has the same outcomes, replies
and failures, and leaves the same records. -/
theorem setUp_perm (settings : Settings) (client : Client) (hperm : steps.Perm others)
    (hapart : steps.Pairwise Setup.Apart) :
    let first := setUp steps (new settings client)
    let second := setUp others (new settings client)
    (first.commands.names = second.commands.names ∧
      ∀ name, first.commands.resolve name = second.commands.resolve name) ∧
    (first.converters.typeNames = second.converters.typeNames ∧
      ∀ type, first.converters.lookup type = second.converters.lookup type) ∧
    (∀ type, first.validators.lookup type = second.validators.lookup type) ∧
    ∀ observers depth updates,
      (serve observers depth updates first).ending =
        (serve observers depth updates second).ending ∧
      (serve observers depth updates first).journal =
        (serve observers depth updates second).journal := by
  intro first second
  have halike : first.Alike second := alike_setUp_of_perm hperm hapart (new settings client)
  have hfirst : first.Keyed := (keyed_new settings client).setUp steps
  have hsecond : second.Keyed := (keyed_new settings client).setUp others
  refine ⟨⟨halike.names_eq hfirst hsecond, halike.commands⟩,
    ⟨halike.typeNames_eq hfirst hsecond, halike.converters⟩, halike.validators, ?_⟩
  intro observers depth updates
  have hserved := faithful_serve observers depth updates first second halike
  exact ⟨hserved.ending, hserved.journal⟩

def sparing : Converter := ⟨.optional .nat64, fun _ _ => .returned (.ok none)⟩

def toolkit : List Setup :=
  [.addConverter ⟨.nat64, fun _ word => .returned (.ok word.length.toUInt64)⟩,
    .scan brokenModule,
    .addConverter sparing,
    .addValidator ⟨.flag, fun required _ _ => ⟨.returned (.ok required), []⟩⟩]

/-- The toolkit forwards and backwards: the converter for optional numbers is found in the end, both
where it comes behind the one for numbers and where it comes before. -/
theorem setUp_toolkit_reverse :
    toolkit.Perm toolkit.reverse ∧ toolkit.Pairwise Setup.Apart ∧
    let first := setUp toolkit (new {} .memory)
    let second := setUp toolkit.reverse (new {} .memory)
    first.commands.names = second.commands.names ∧
    first.converters.lookup (.optional .nat64) = some sparing ∧
    second.converters.lookup (.optional .nat64) = some sparing := by
  have hperm : toolkit.Perm toolkit.reverse := toolkit.reverse_perm.symm
  have hapart : toolkit.Pairwise Setup.Apart := by simp [toolkit, sparing, Setup.Apart]
  obtain ⟨⟨hnames, _⟩, ⟨_, hlookup⟩, _⟩ := setUp_perm {} .memory hperm hapart
  have hfirst : (setUp toolkit (new {} .memory)).converters.lookup (.optional .nat64) =
      some sparing := rfl
  exact ⟨hperm, hapart, hnames, hfirst, (hlookup (.optional .nat64)).symm.trans hfirst⟩

end Processor

end ChatDispatch
