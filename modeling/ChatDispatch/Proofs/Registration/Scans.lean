import ChatDispatch.Proofs.Registration.Tables
import ChatDispatch.Proofs.Run

/-!
Registering the commands of modules. A module whose command names are all free and all different is
registered as a whole; any other is rejected for the first of its names that is taken, and then
nothing changes. So no scan takes a command away or puts another in its place, and whatever name can
be resolved belongs to a method that carries it.
-/

namespace ChatDispatch

def commandNamesOf {Body : Type} (methods : List (Method Body)) : List String :=
  methods.filterMap Method.command

def Module.commandNames {Body : Type} (module : Module Body) : List String :=
  commandNamesOf module.methods

def Module.descriptorsOf (module : Module Program) (methods : List (Method Program)) :
    List Descriptor :=
  methods.filterMap fun method => method.command.map (Descriptor.ofMethod module method)

section Methods

variable {module : Module Program} {method : Method Program} {methods : List (Method Program)}

theorem commandNamesOf_cons_of_none (h : method.command = none)
    (methods : List (Method Program)) :
    commandNamesOf (method :: methods) = commandNamesOf methods :=
  List.filterMap_cons_none h

theorem commandNamesOf_cons_of_some {name : String} (h : method.command = some name)
    (methods : List (Method Program)) :
    commandNamesOf (method :: methods) = name :: commandNamesOf methods :=
  List.filterMap_cons_some h

theorem descriptorsOf_cons_of_none (module : Module Program) (h : method.command = none)
    (methods : List (Method Program)) :
    module.descriptorsOf (method :: methods) = module.descriptorsOf methods := by
  simp [Module.descriptorsOf, h]

theorem descriptorsOf_cons_of_some (module : Module Program) {name : String}
    (h : method.command = some name) (methods : List (Method Program)) :
    module.descriptorsOf (method :: methods) =
      Descriptor.ofMethod module method name :: module.descriptorsOf methods := by
  simp [Module.descriptorsOf, h]

theorem map_name_descriptorsOf (module : Module Program) (methods : List (Method Program)) :
    (module.descriptorsOf methods).map Descriptor.name = commandNamesOf methods := by
  induction methods with
  | nil => rfl
  | cons method methods ih =>
    cases hname : method.command with
    | none => rw [descriptorsOf_cons_of_none module hname, commandNamesOf_cons_of_none hname, ih]
    | some name =>
      rw [descriptorsOf_cons_of_some module hname, commandNamesOf_cons_of_some hname,
        List.map_cons, ih]
      rfl

theorem mem_descriptorsOf_iff {descriptor : Descriptor} :
    descriptor ∈ module.descriptorsOf methods ↔
      ∃ method ∈ methods, ∃ name, method.command = some name ∧
        Descriptor.ofMethod module method name = descriptor := by
  simp only [Module.descriptorsOf, List.mem_filterMap, Option.map_eq_some_iff]

end Methods

namespace CommandRegistry

variable {registry : CommandRegistry} {module : Module Program} {methods : List (Method Program)}
  {pending : List Descriptor} {name : String}

/-- Of a list of names that commands of this owner are to have, this is the first that is taken: by
a registered command, or by an earlier one of the list. The owner is that of the command it is taken
by. -/
def TakenIn (registry : CommandRegistry) (own : String) (names : List String)
    (name owner : String) : Prop :=
  ∃ before after, names = before ++ name :: after ∧
    (∀ other ∈ before, registry.resolve other = none) ∧ before.Nodup ∧
    ((∃ descriptor, registry.resolve name = some descriptor ∧ descriptor.owner = owner) ∨
      registry.resolve name = none ∧ name ∈ before ∧ own = owner)

def FirstTaken (registry : CommandRegistry) (module : Module Program) (name owner : String) :
    Prop :=
  registry.TakenIn module.owner module.commandNames name owner

/-- A command name of the module is taken by a registered command, or occurs twice. -/
def Blocks (registry : CommandRegistry) (module : Module Program) : Prop :=
  (∃ name ∈ module.commandNames, registry.resolve name ≠ none) ∨ ¬ module.commandNames.Nodup

theorem FirstTaken.blocks {owner : String} (h : registry.FirstTaken module name owner) :
    registry.Blocks module := by
  obtain ⟨before, after, hnames, _, _, hcollision⟩ := h
  have hmem : name ∈ before ++ name :: after := List.mem_append_right before List.mem_cons_self
  rw [← hnames] at hmem
  rcases hcollision with ⟨descriptor, hresolve, _⟩ | ⟨_, hbefore, _⟩
  · refine .inl ⟨name, hmem, ?_⟩
    rw [hresolve]
    exact Option.some_ne_none descriptor
  · right
    intro hnodup
    rw [hnames] at hnodup
    obtain ⟨_, _, hdifferent⟩ := List.nodup_append.mp hnodup
    exact hdifferent name hbefore name List.mem_cons_self rfl

/-- The commands that wait to be registered: commands of the module with free and different names.
-/
structure Waiting (registry : CommandRegistry) (module : Module Program)
    (pending : List Descriptor) : Prop where
  free : ∀ other ∈ pending.map Descriptor.name, registry.resolve other = none
  nodup : (pending.map Descriptor.name).Nodup
  owner : ∀ descriptor ∈ pending, descriptor.owner = module.owner

theorem waiting_nil (registry : CommandRegistry) (module : Module Program) :
    registry.Waiting module [] :=
  ⟨List.forall_mem_nil _, List.nodup_nil, List.forall_mem_nil _⟩

theorem ownerOf_eq_none_iff :
    registry.ownerOf pending name = none ↔
      registry.resolve name = none ∧ name ∉ pending.map Descriptor.name := by
  unfold ownerOf
  cases registry.resolve name with
  | some descriptor => simp
  | none => simp [List.find?_eq_none]

theorem ownerOf_of_waiting {owner : String} (hwaiting : registry.Waiting module pending)
    (h : registry.ownerOf pending name = some owner) :
    (∃ descriptor, registry.resolve name = some descriptor ∧ descriptor.owner = owner) ∨
      registry.resolve name = none ∧ name ∈ pending.map Descriptor.name ∧ module.owner = owner := by
  unfold ownerOf at h
  cases hresolve : registry.resolve name with
  | some descriptor =>
    rw [hresolve] at h
    exact .inl ⟨descriptor, rfl, Option.some.inj h⟩
  | none =>
    rw [hresolve] at h
    obtain ⟨descriptor, hfind, howner⟩ := Option.map_eq_some_iff.mp h
    have hmem : descriptor ∈ pending := List.mem_of_find?_eq_some hfind
    have hname : descriptor.name = name := by simpa using List.find?_some hfind
    refine .inr ⟨rfl, ?_, ?_⟩
    · rw [← hname]
      exact List.mem_map_of_mem hmem
    · rw [← howner, hwaiting.owner descriptor hmem]

/-- A command with a free name can wait behind the others. -/
theorem Waiting.push (h : registry.Waiting module pending) (method : Method Program)
    (hfree : registry.ownerOf pending name = none) :
    registry.Waiting module (pending ++ [.ofMethod module method name]) := by
  obtain ⟨hresolve, hnot⟩ := ownerOf_eq_none_iff.mp hfree
  have hnames : (pending ++ [Descriptor.ofMethod module method name]).map Descriptor.name =
      pending.map Descriptor.name ++ [name] := by
    rw [List.map_append]
    rfl
  refine ⟨?_, ?_, ?_⟩
  · intro other hother
    rw [hnames] at hother
    rcases List.mem_append.mp hother with hmem | hmem
    · exact h.free other hmem
    · rw [List.mem_singleton.mp hmem]
      exact hresolve
  · rw [hnames]
    apply List.nodup_append.mpr
    refine ⟨h.nodup, List.pairwise_singleton _ name, ?_⟩
    intro other hother last hlast heq
    rw [List.mem_singleton.mp hlast] at heq
    exact hnot (heq ▸ hother)
  · intro descriptor hdescriptor
    rcases List.mem_append.mp hdescriptor with hmem | hmem
    · exact h.owner descriptor hmem
    · rw [List.mem_singleton.mp hmem]
      rfl

/-- Collecting goes through the methods, or stops at the first name that is taken. -/
theorem collect_cases (hwaiting : registry.Waiting module pending)
    (methods : List (Method Program)) :
    (registry.collect module pending methods).1 =
        .ok (pending ++ module.descriptorsOf methods) ∧
      registry.Waiting module (pending ++ module.descriptorsOf methods) ∨
    ∃ name owner,
      (registry.collect module pending methods).1 = .error (.duplicateCommand name owner) ∧
      registry.TakenIn module.owner (pending.map Descriptor.name ++ commandNamesOf methods)
        name owner := by
  fun_induction registry.collect module pending methods with
  | case1 pending =>
    refine .inl ⟨?_, ?_⟩
    · rw [Module.descriptorsOf, List.filterMap_nil, List.append_nil]
    · rw [Module.descriptorsOf, List.filterMap_nil, List.append_nil]
      exact hwaiting
  | case2 pending method methods hname result log hrest ih =>
    rw [descriptorsOf_cons_of_none module hname, commandNamesOf_cons_of_none hname]
    rw [hrest] at ih
    exact ih hwaiting
  | case3 pending method methods name hname owner howner =>
    refine .inr ⟨name, owner, rfl, pending.map Descriptor.name, commandNamesOf methods, ?_⟩
    rw [commandNamesOf_cons_of_some hname]
    exact ⟨rfl, hwaiting.free, hwaiting.nodup, ownerOf_of_waiting hwaiting howner⟩
  | case4 pending method methods name hname hfree ih =>
    -- The name moves from the methods to the commands that wait; all names in a row are the same.
    have hnext := ih (hwaiting.push method hfree)
    rw [List.map_append, List.append_assoc, List.append_assoc] at hnext
    rw [descriptorsOf_cons_of_some module hname, commandNamesOf_cons_of_some hname]
    exact hnext

theorem resolve_insert (registry : CommandRegistry) (descriptor : Descriptor) (name : String) :
    (CommandRegistry.mk (registry.table.insert descriptor.name descriptor)).resolve name =
      if descriptor.name = name then some descriptor else registry.resolve name :=
  Table.get?_insert ..

theorem resolve_insertAll_of_not_mem {descriptors : List Descriptor}
    (h : name ∉ descriptors.map Descriptor.name) :
    (registry.insertAll descriptors).resolve name = registry.resolve name := by
  induction descriptors generalizing registry with
  | nil => rfl
  | cons descriptor rest ih =>
    rw [List.map_cons, List.mem_cons, not_or] at h
    rw [insertAll, List.foldl_cons]
    refine (ih h.2).trans ?_
    rw [resolve_insert, if_neg (Ne.symm h.1)]

theorem resolve_insertAll_of_mem {descriptors : List Descriptor} {descriptor : Descriptor}
    (hnodup : (descriptors.map Descriptor.name).Nodup) (h : descriptor ∈ descriptors) :
    (registry.insertAll descriptors).resolve descriptor.name = some descriptor := by
  induction descriptors generalizing registry with
  | nil => exact absurd h List.not_mem_nil
  | cons first rest ih =>
    obtain ⟨hfirst, hrest⟩ := List.nodup_cons.mp hnodup
    rw [insertAll, List.foldl_cons]
    rcases List.mem_cons.mp h with rfl | hmem
    · refine (resolve_insertAll_of_not_mem hfirst).trans ?_
      rw [resolve_insert, if_pos rfl]
    · exact ih hrest hmem

theorem nodup_keys_insertAll (h : registry.table.keys.Nodup) (descriptors : List Descriptor) :
    (registry.insertAll descriptors).table.keys.Nodup := by
  induction descriptors generalizing registry with
  | nil => exact h
  | cons descriptor rest ih => exact ih (Table.nodup_keys_insert h descriptor.name descriptor)

theorem names_eq (registry : CommandRegistry) : registry.names = inOrder registry.table.keys := rfl

theorem mem_names_iff : name ∈ registry.names ↔ registry.resolve name ≠ none := by
  rw [names_eq, (inOrder_perm registry.table.keys).mem_iff]
  exact Table.mem_keys_iff

end CommandRegistry

namespace Processor

variable {module : Module Program} {p : Processor} {run : Run (Except Fault (List String))}

inductive Scanned (module : Module Program) (p : Processor) :
    Run (Except Fault (List String)) → Prop
  | added {journal : List Entry}
      (hfree : ∀ name ∈ module.commandNames, p.commands.resolve name = none)
      (hnodup : module.commandNames.Nodup) :
      Scanned module p ⟨.returned (.ok module.commandNames),
        { p with commands := p.commands.insertAll (module.descriptorsOf module.methods) }, journal⟩
  | rejected {name owner : String} {journal : List Entry}
      (htaken : p.commands.FirstTaken module name owner) :
      Scanned module p ⟨.returned (.error (.duplicateCommand name owner)), p, journal⟩

theorem scan_scanned (module : Module Program) (p : Processor) :
    Scanned module p (scan module p) := by
  unfold scan
  rw [Action.state_bind]
  rcases CommandRegistry.collect_cases (p.commands.waiting_nil module) module.methods with
    ⟨hcollect, hwaiting⟩ | ⟨name, owner, hcollect, htaken⟩
  · have hnames : (module.descriptorsOf module.methods).map Descriptor.name =
        module.commandNames := map_name_descriptorsOf module module.methods
    have hscan : p.commands.scan module = .ok (module.commandNames,
        p.commands.insertAll (module.descriptorsOf module.methods)) := by
      rw [CommandRegistry.scan, hcollect, List.nil_append, ← hnames]
      rfl
    rw [hscan]
    rw [List.nil_append] at hwaiting
    exact .added (hnames ▸ hwaiting.free) (hnames ▸ hwaiting.nodup)
  · have hscan : p.commands.scan module = .error (.duplicateCommand name owner) := by
      rw [CommandRegistry.scan, hcollect]
      rfl
    rw [hscan]
    exact .rejected htaken

/-- A scan always returns. -/
theorem scan_returns (module : Module Program) (p : Processor) :
    ∃ result, (scan module p).ending = .returned result := by
  have hscanned := scan_scanned module p
  generalize scan module p = run at hscanned ⊢
  cases hscanned with
  | added hfree hnodup => exact ⟨_, rfl⟩
  | rejected htaken => exact ⟨_, rfl⟩

def afterScans (modules : List (Module Program)) (p : Processor) : Processor :=
  (modules.mapM scan p).after

theorem afterScans_cons (module : Module Program) (modules : List (Module Program))
    (p : Processor) :
    afterScans (module :: modules) p = afterScans modules (scan module p).after := by
  obtain ⟨result, hresult⟩ := scan_returns module p
  unfold afterScans
  rw [List.mapM_cons, Action.bind_of_returned hresult, Action.bind_pure_apply]

namespace Scanned

/-- What is found under a name that the module does not have stays as it is. -/
theorem resolve_of_not_mem (h : Scanned module p run) {name : String}
    (hname : name ∉ module.commandNames) :
    run.after.commands.resolve name = p.commands.resolve name := by
  cases h with
  | rejected htaken => rfl
  | added hfree hnodup =>
    have hnot : name ∉ (module.descriptorsOf module.methods).map Descriptor.name := by
      rw [map_name_descriptorsOf]
      exact hname
    exact CommandRegistry.resolve_insertAll_of_not_mem hnot

/-- A command that can be resolved stays as it is. -/
theorem resolve_of_resolve (h : Scanned module p run) {name : String} {descriptor : Descriptor}
    (hresolve : p.commands.resolve name = some descriptor) :
    run.after.commands.resolve name = some descriptor := by
  by_cases hname : name ∈ module.commandNames
  · cases h with
    | rejected htaken => exact hresolve
    | added hfree hnodup =>
      rw [hfree name hname] at hresolve
      cases hresolve
  · exact (h.resolve_of_not_mem hname).trans hresolve

/-- What can be resolved behind a scan could be before, or is a command of the module. -/
theorem resolve_cases (h : Scanned module p run) {name : String} {descriptor : Descriptor}
    (hresolve : run.after.commands.resolve name = some descriptor) :
    p.commands.resolve name = some descriptor ∨
      ∃ method ∈ module.methods, method.command = some name ∧
        descriptor = .ofMethod module method name := by
  cases h with
  | rejected htaken => exact .inl hresolve
  | added hfree hnodup =>
    change (p.commands.insertAll _).resolve name = some descriptor at hresolve
    by_cases hmem : name ∈ (module.descriptorsOf module.methods).map Descriptor.name
    · obtain ⟨found, hfound, rfl⟩ := List.mem_map.mp hmem
      have hnames : ((module.descriptorsOf module.methods).map Descriptor.name).Nodup := by
        rw [map_name_descriptorsOf]
        exact hnodup
      rw [CommandRegistry.resolve_insertAll_of_mem hnames hfound] at hresolve
      obtain rfl := Option.some.inj hresolve
      obtain ⟨method, hmethod, own, hown, rfl⟩ := mem_descriptorsOf_iff.mp hfound
      exact .inr ⟨method, hmethod, hown, rfl⟩
    · rw [CommandRegistry.resolve_insertAll_of_not_mem hmem] at hresolve
      exact .inl hresolve

theorem nodup_keys (h : Scanned module p run) (hkeys : p.commands.table.keys.Nodup) :
    run.after.commands.table.keys.Nodup := by
  cases h with
  | rejected htaken => exact hkeys
  | added hfree hnodup => exact CommandRegistry.nodup_keys_insertAll hkeys _

end Scanned

/-- A scan that registers a module: it returns the names of the commands in the order of the
methods, and each of them resolves to what its method makes. Nothing else about the processor
changes. -/
structure Registers (module : Module Program) (p : Processor)
    (run : Run (Except Fault (List String))) : Prop where
  ending : run.ending = .returned (.ok module.commandNames)
  after : run.after = { p with commands := run.after.commands }
  own : ∀ method ∈ module.methods, ∀ name, method.command = some name →
    run.after.commands.resolve name = some (.ofMethod module method name)
  others : ∀ name, name ∉ module.commandNames →
    run.after.commands.resolve name = p.commands.resolve name

structure Rejects (module : Module Program) (p : Processor)
    (run : Run (Except Fault (List String))) : Prop where
  ending : ∃ name owner, p.commands.FirstTaken module name owner ∧
    run.ending = .returned (.error (.duplicateCommand name owner))
  after : run.after = p

namespace Scanned

theorem rejects (h : Scanned module p run) (hblocked : p.commands.Blocks module) :
    Rejects module p run := by
  cases h with
  | rejected htaken => exact ⟨⟨_, _, htaken, rfl⟩, rfl⟩
  | added hfree hnodup =>
    rcases hblocked with ⟨name, hmem, hresolve⟩ | htwice
    · exact absurd (hfree name hmem) hresolve
    · exact absurd hnodup htwice

theorem registers (h : Scanned module p run) (hfree : ¬ p.commands.Blocks module) :
    Registers module p run := by
  have hothers : ∀ name, name ∉ module.commandNames →
      run.after.commands.resolve name = p.commands.resolve name :=
    fun _ hname => h.resolve_of_not_mem hname
  cases h with
  | rejected htaken => exact absurd htaken.blocks hfree
  | added _ hnodup =>
    have hnames : (module.descriptorsOf module.methods).map Descriptor.name =
        module.commandNames := map_name_descriptorsOf module module.methods
    refine ⟨rfl, rfl, ?_, hothers⟩
    intro method hmethod name hname
    have hmem : Descriptor.ofMethod module method name ∈ module.descriptorsOf module.methods :=
      mem_descriptorsOf_iff.mpr ⟨method, hmethod, name, hname, rfl⟩
    exact CommandRegistry.resolve_insertAll_of_mem (hnames ▸ hnodup) hmem

end Scanned

/-- Every command that can be resolved has been made of a method of one of these modules, and is
stored under the name that the method carries. -/
structure StemsFrom (registry : CommandRegistry) (modules : List (Module Program)) : Prop where
  nodup_keys : registry.table.keys.Nodup
  origin : ∀ name descriptor, registry.resolve name = some descriptor →
    ∃ module ∈ modules, ∃ method ∈ module.methods, method.command = some name ∧
      descriptor = .ofMethod module method name

/-- What a scan keeps. -/
theorem StemsFrom.scan {earlier : List (Module Program)} (h : StemsFrom p.commands earlier)
    (module : Module Program) :
    StemsFrom (Processor.scan module p).after.commands (earlier ++ [module]) := by
  have hscanned := scan_scanned module p
  refine ⟨hscanned.nodup_keys h.nodup_keys, ?_⟩
  intro name descriptor hresolve
  rcases hscanned.resolve_cases hresolve with hbefore | ⟨method, hmethod, hnamed⟩
  · obtain ⟨origin, horigin, hmethod⟩ := h.origin name descriptor hbefore
    exact ⟨origin, List.mem_append_left [module] horigin, hmethod⟩
  · exact ⟨module, List.mem_append_right earlier List.mem_cons_self, method, hmethod, hnamed⟩

/-- What a run of scans keeps; the induction is on the modules that are still to come. -/
theorem afterScans_stemsFrom {earlier modules : List (Module Program)}
    (h : StemsFrom p.commands earlier) :
    StemsFrom (afterScans modules p).commands (earlier ++ modules) := by
  induction modules generalizing earlier p with
  | nil => rwa [List.append_nil]
  | cons module modules ih =>
    rw [afterScans_cons, List.append_cons]
    exact ih (h.scan module)

/-- Scans leave every command that can be resolved as it is. -/
theorem resolve_afterScans {name : String} {descriptor : Descriptor}
    (h : p.commands.resolve name = some descriptor) (modules : List (Module Program)) :
    (afterScans modules p).commands.resolve name = some descriptor := by
  induction modules generalizing p with
  | nil => exact h
  | cons module modules ih =>
    rw [afterScans_cons]
    exact ih ((scan_scanned module p).resolve_of_resolve h)

def cleared (p : Processor) : Processor := { p with commands := .empty }

theorem stemsFrom_cleared (p : Processor) : StemsFrom p.cleared.commands [] :=
  ⟨List.nodup_nil, nofun⟩

/-- A scan behind any other scans. It rejects the module just where one of its command names is
taken or occurs twice, for the first such name and with the owner it collides with, and registers it
as a whole otherwise. What can be resolved behind it is the command of a method that carries the
name, and stays so, whatever is scanned later. The names are always listed in increasing order. -/
theorem scan_behind_scans (p : Processor) (earlier : List (Module Program))
    (module : Module Program) (later : List (Module Program)) :
    let before := afterScans earlier p.cleared
    let run := scan module before
    (before.commands.Blocks module → Rejects module before run) ∧
    (¬ before.commands.Blocks module → Registers module before run) ∧
    (∀ name descriptor, run.after.commands.resolve name = some descriptor →
      (afterScans later run.after).commands.resolve name = some descriptor ∧
      descriptor.name = name ∧
      ∃ origin ∈ earlier ++ [module], ∃ method ∈ origin.methods, method.command = some name ∧
        descriptor = .ofMethod origin method name) ∧
    before.commands.names.Pairwise (· < ·) ∧
    ∀ name, name ∈ before.commands.names ↔ before.commands.resolve name ≠ none := by
  intro before run
  have hscanned : Scanned module before run := scan_scanned module before
  have hbefore : StemsFrom before.commands earlier := afterScans_stemsFrom p.stemsFrom_cleared
  have hafter : StemsFrom run.after.commands (earlier ++ [module]) := hbefore.scan module
  refine ⟨hscanned.rejects, hscanned.registers, ?_, ?_, ?_⟩
  · intro name descriptor hresolve
    obtain ⟨origin, horigin, method, hmethod, hname, rfl⟩ := hafter.origin name descriptor hresolve
    exact ⟨resolve_afterScans hresolve later, rfl, origin, horigin, method, hmethod, hname, rfl⟩
  · exact pairwise_lt_inOrder hbefore.nodup_keys
  · intro name
    exact CommandRegistry.mem_names_iff

end Processor

end ChatDispatch
