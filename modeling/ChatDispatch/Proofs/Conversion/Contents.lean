import ChatDispatch.Proofs.Conversion.Registry
import ChatDispatch.Proofs.Registration.Tables
import Mathlib.Data.List.Perm.Subperm

/-!
What a registry of converters holds behind registrations. For a type that a converter has been
registered for it is the last such converter, whatever has been registered for other types before or
after. For the optional form of such a type it is the derived converter, unless a converter has been
registered for that form itself. Nothing is ever taken out.
-/

namespace ChatDispatch

def Converter.lastFor? (converters : List Converter) (type : ValueType) : Option Converter :=
  converters.reverse.find? fun converter => converter.target = type

/-- The derived converter of a type: there is one for the optional form of each type that one of the
converters is for. -/
def Converter.derivedFor? (converters : List Converter) : ValueType → Option Converter
  | .optional inner =>
    if inner ∈ converters.map Converter.target then some (.optional inner) else none
  | _ => none

namespace Converter

variable {converters : List Converter} {converter : Converter} {type : ValueType}

theorem lastFor?_cons (converter : Converter) (converters : List Converter) (type : ValueType) :
    lastFor? (converter :: converters) type =
      (lastFor? converters type).or (if converter.target = type then some converter else none) := by
  unfold lastFor?
  rw [List.reverse_cons, List.find?_append, List.find?_singleton]
  simp only [decide_eq_true_eq]

theorem lastFor?_isSome_iff :
    (lastFor? converters type).isSome ↔ ∃ converter ∈ converters, converter.target = type := by
  simp [lastFor?]

theorem derivedFor?_eq_some_iff :
    derivedFor? converters type = some converter ↔
      ∃ base ∈ converters, .optional base.target = type ∧ converter = .optional base.target := by
  cases type with
  | optional inner =>
    simp only [derivedFor?, Option.ite_none_right_eq_some, List.mem_map, Option.some.injEq,
      ValueType.optional.injEq]
    constructor
    · rintro ⟨⟨base, hbase, rfl⟩, rfl⟩
      exact ⟨base, hbase, rfl, rfl⟩
    · rintro ⟨base, hbase, rfl, rfl⟩
      exact ⟨⟨base, hbase, rfl⟩, rfl⟩
  | _ => simp [derivedFor?]

theorem derivedFor?_isSome_iff :
    (derivedFor? converters type).isSome ↔ ∃ base ∈ converters, .optional base.target = type := by
  simp only [Option.isSome_iff_exists, derivedFor?_eq_some_iff]
  constructor
  · rintro ⟨_, base, hbase, htype, _⟩
    exact ⟨base, hbase, htype⟩
  · rintro ⟨base, hbase, htype⟩
    exact ⟨_, base, hbase, htype, rfl⟩

/-- A registration in front adds the converter of its own optional type to the derived ones. -/
theorem derivedFor?_cons (converter : Converter) (converters : List Converter)
    (type : ValueType) :
    derivedFor? (converter :: converters) type =
      if ValueType.optional converter.target = type then some (.optional converter.target)
      else derivedFor? converters type := by
  cases type with
  | optional inner =>
    by_cases hinner : converter.target = inner
    · simp [derivedFor?, hinner]
    · simp [derivedFor?, hinner, Ne.symm hinner]
  | _ => simp [derivedFor?]

end Converter

namespace ConverterRegistry

variable {registry : ConverterRegistry} {type : ValueType}

theorem registerAll_append (registry : ConverterRegistry) (first second : List Converter) :
    registry.registerAll (first ++ second) = (registry.registerAll first).registerAll second :=
  List.foldl_append

theorem contains_iff : registry.contains type ↔ registry.lookup type ≠ none :=
  Option.isSome_iff_ne_none

theorem mem_types_iff : type ∈ registry.types ↔ registry.contains type :=
  Table.mem_keys_iff.trans contains_iff.symm

theorem nodup_types_register (h : registry.types.Nodup) (converter : Converter) :
    (registry.register converter).types.Nodup := by
  have hinsert : (registry.insert converter).types.Nodup :=
    Table.nodup_keys_insert h converter.target converter
  rw [register_eq]
  split
  · exact hinsert
  · exact Table.nodup_keys_insert hinsert _ _

theorem nodup_types_registerAll (h : registry.types.Nodup) (converters : List Converter) :
    (registry.registerAll converters).types.Nodup := by
  induction converters generalizing registry with
  | nil => exact h
  | cons converter rest ih => exact ih (nodup_types_register h converter)

/-- What is found for a type behind registrations: the last converter that has been registered for
it, else what was found before them, else the converter derived from one of them. -/
theorem lookup_registerAll (registry : ConverterRegistry) (converters : List Converter)
    (type : ValueType) :
    (registry.registerAll converters).lookup type =
      ((Converter.lastFor? converters type).or (registry.lookup type)).or
        (Converter.derivedFor? converters type) := by
  induction converters generalizing registry with
  | nil => cases type <;> simp [registerAll, Converter.lastFor?, Converter.derivedFor?]
  | cons converter rest ih =>
    have hrest : (registry.registerAll (converter :: rest)).lookup type = _ :=
      ih (registry.register converter)
    rw [hrest, lookup_register, Converter.lastFor?_cons, Converter.derivedFor?_cons]
    by_cases hown : converter.target = type
    · rw [if_pos hown, if_pos hown]
      cases Converter.lastFor? rest type <;> simp
    · rw [if_neg hown, if_neg hown, Option.or_none]
      by_cases hoptional : ValueType.optional converter.target = type
      · cases registry.lookup type <;> cases Converter.lastFor? rest type <;> simp [hoptional]
      · simp [hoptional]

theorem lookup_registerAll_empty (converters : List Converter) (type : ValueType) :
    (empty.registerAll converters).lookup type =
      (Converter.lastFor? converters type).or (Converter.derivedFor? converters type) := by
  have hempty : empty.lookup type = none := rfl
  rw [lookup_registerAll, hempty, Option.or_none]

/-- A registry that has been filled from an empty one holds a converter for a type just where one of
the converters is for it or for the type that it is the optional form of. -/
theorem contains_registerAll_empty_iff (converters : List Converter) (type : ValueType) :
    (empty.registerAll converters).contains type ↔
      ∃ converter ∈ converters, converter.target = type ∨ .optional converter.target = type := by
  change ((empty.registerAll converters).lookup type).isSome = true ↔ _
  rw [lookup_registerAll_empty, Option.isSome_or, Bool.or_eq_true, Converter.lastFor?_isSome_iff,
    Converter.derivedFor?_isSome_iff]
  constructor
  · rintro (⟨converter, hmem, hown⟩ | ⟨converter, hmem, hoptional⟩)
    · exact ⟨converter, hmem, .inl hown⟩
    · exact ⟨converter, hmem, .inr hoptional⟩
  · rintro ⟨converter, hmem, hown | hoptional⟩
    · exact .inl ⟨converter, hmem, hown⟩
    · exact .inr ⟨converter, hmem, hoptional⟩

/-- Registrations take nothing out. -/
theorem types_subset_registerAll (registry : ConverterRegistry) (converters : List Converter) :
    registry.types ⊆ (registry.registerAll converters).types := by
  intro type htype
  rw [mem_types_iff, contains_iff] at htype ⊢
  rw [lookup_registerAll]
  simp [htype]

/-- The registry behind registrations into an empty one. It holds a converter for each type that one
has been registered for and for the optional form of each such type, and for no other; the last one
registered for the type itself, if there is one, and otherwise the derived one. Each is for the type
that it is found for, and further registrations keep a converter for each of the types. -/
theorem contents_of_registerAll (converters further : List Converter) (type : ValueType) :
    let registry := empty.registerAll converters
    (registry.contains type ↔
      ∃ converter ∈ converters, converter.target = type ∨ .optional converter.target = type) ∧
    registry.lookup type =
      (Converter.lastFor? converters type).or (Converter.derivedFor? converters type) ∧
    (∀ found ∈ registry.lookup type, found.target = type) ∧
    (type ∈ registry.types ↔ registry.contains type) ∧ registry.types.Nodup ∧
    registry.types ⊆ (empty.registerAll (converters ++ further)).types ∧
    registry.size ≤ (empty.registerAll (converters ++ further)).size := by
  intro registry
  have hempty : empty.types.Nodup := List.nodup_nil
  have htypes : registry.types.Nodup := nodup_types_registerAll hempty converters
  have hkept : registry.types ⊆ (empty.registerAll (converters ++ further)).types := by
    rw [registerAll_append]
    exact registry.types_subset_registerAll further
  have hsize : registry.types.length ≤ (empty.registerAll (converters ++ further)).types.length :=
    (List.subperm_of_subset htypes hkept).length_le
  refine ⟨contains_registerAll_empty_iff converters type, ?_, ?_, mem_types_iff, htypes, hkept, ?_⟩
  · exact lookup_registerAll_empty converters type
  · intro found hfound
    exact typed_empty.registerAll converters type found hfound
  · simpa [types, size, Table.keys, Table.size] using hsize

/-- The optional form of a type that is optional itself is derived as well. -/
example : (empty.registerAll [.int32, .optional .int32]).lookup (.optional (.optional .int32)) =
    some (.optional (.optional .int32)) := rfl

end ConverterRegistry

end ChatDispatch
