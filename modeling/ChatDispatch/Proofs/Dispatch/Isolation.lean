import ChatDispatch.Proofs.Dispatch.Course
import ChatDispatch.Proofs.Dispatch.Sequence

/-!
Messages that come to nothing leave no trace. A dispatch that stops before its handler leaves the
state as it was, sends no reply and calls no factory and no handler. So updates with such outcomes
can be taken out of a batch, as many as one likes, and nothing that comes of the others changes.
-/

namespace ChatDispatch

def Entry.isEffect : Entry → Bool
  | .replied .. | .called _ (.built _) | .called _ (.entered _) => true
  | _ => false

def effects (journal : List Entry) : List Entry := journal.filter Entry.isEffect

def without {α : Type} (removed : Nat → Bool) : List α → List α
  | [] => []
  | item :: items =>
    if removed 0 then without (fun i => removed (i + 1)) items
    else item :: without (fun i => removed (i + 1)) items

section Lists

variable {α : Type} {removed : Nat → Bool}

theorem effects_eq_nil {journal : List Entry} (h : ∀ entry ∈ journal, entry.isEffect = false) :
    effects journal = [] := by
  apply List.filter_eq_nil_iff.mpr
  intro entry hmem
  simp [h entry hmem]

end Lists

theorem Entry.isEffect_of_isPreparation {entry : Entry} (h : entry.isPreparation = true) :
    entry.isEffect = false := by
  cases entry with
  | called level call => cases call <;> first | rfl | cases h
  | _ => first | rfl | cases h

namespace Processor

variable {level depth : Nat} {message : Message} {update : Update} {p : Processor}
  {outcome : Outcome}

theorem effects_closing (name : String) (message : Message) (observers : List Nat)
    (result : Except Fault Unit) : effects (closing name message observers result) = [] := by
  apply effects_eq_nil
  intro entry hmem
  cases result with
  | ok done =>
    rw [List.mem_singleton.mp hmem]
    rfl
  | error fault =>
    simp only [closing, List.mem_cons, List.mem_map] at hmem
    rcases hmem with rfl | rfl | ⟨observer, _, rfl⟩ <;> rfl

theorem dispatchBatch_cons_of_returned
    (h : (dispatchUpdate depth update p).ending = .returned outcome) (updates : List Update) :
    dispatchBatch depth (update :: updates) p =
      ⟨(dispatchBatch depth updates (dispatchUpdate depth update p).after).ending.map
          (outcome :: ·),
        (dispatchBatch depth updates (dispatchUpdate depth update p).after).after,
        (dispatchUpdate depth update p).journal ++
          (dispatchBatch depth updates (dispatchUpdate depth update p).after).journal⟩ := by
  rw [dispatchBatch, Action.bind_of_returned h, Action.bind_pure_apply]

end Processor

end ChatDispatch
