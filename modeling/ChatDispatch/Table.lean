/-!
Finite maps as lists of entries with distinct keys, in the order in which the keys came in. A new
value takes the place of an old one with the same key.
-/

namespace ChatDispatch

structure Table (κ υ : Type) where
  entries : List (κ × υ)

namespace Table

variable {κ υ : Type} [DecidableEq κ]

def empty : Table κ υ := ⟨[]⟩

def put (key : κ) (value : υ) : List (κ × υ) → List (κ × υ)
  | [] => [(key, value)]
  | (other, old) :: rest =>
    if other = key then (key, value) :: rest else (other, old) :: put key value rest

def insert (table : Table κ υ) (key : κ) (value : υ) : Table κ υ :=
  ⟨put key value table.entries⟩

def find (key : κ) : List (κ × υ) → Option υ
  | [] => none
  | (other, value) :: rest => if other = key then some value else find key rest

def get? (table : Table κ υ) (key : κ) : Option υ := find key table.entries

def contains (table : Table κ υ) (key : κ) : Bool := (table.get? key).isSome

def keys (table : Table κ υ) : List κ := table.entries.map Prod.fst

def size (table : Table κ υ) : Nat := table.entries.length

theorem find_put (key other : κ) (value : υ) (entries : List (κ × υ)) :
    find other (put key value entries) =
      if key = other then some value else find other entries := by
  induction entries with
  | nil => simp [put, find]
  | cons entry rest ih =>
    obtain ⟨k, v⟩ := entry
    by_cases hk : k = key
    · subst hk
      by_cases ho : k = other <;> simp [put, find, ho]
    · by_cases ho : k = other
      · subst ho
        simp [put, find, hk, Ne.symm hk]
      · simp [put, find, hk, ho, ih]

theorem get?_insert (table : Table κ υ) (key other : κ) (value : υ) :
    (table.insert key value).get? other = if key = other then some value else table.get? other :=
  find_put key other value table.entries

end Table

end ChatDispatch
