import PencilPuzzle.Proofs.State.Operation
import PencilPuzzle.State.Snapshot

/-!
# Going back to a mark

A mark is only the length of the trail, so one that was taken on a branch that has been left since
says nothing about that branch any more. Going back to it does no harm all the same: whatever a
caller does after a first mark, changes lead from the state that was marked to the present one, since
no mark taken later lies below the first. Going back to the first mark therefore always restores the
very state.
-/

namespace PencilPuzzle.State

variable {s t : State}

private theorem undo_of_mark_le {mark : Nat} (above : s.mark ≤ mark) : s.undo mark = s := by
  have none : s.trail.length - mark = 0 := Nat.sub_eq_zero_of_le above
  rw [State.undo, none, rewind]

theorem NarrowsTo.undo_of_le {mark : Nat} (h : s.NarrowsTo t) (above : s.mark ≤ mark) :
    s.NarrowsTo (t.undo mark) := by
  induction h with
  | refl =>
    rw [undo_of_mark_le above]
    exact NarrowsTo.refl
  | @step t u _ _ narrowed change ih =>
    by_cases newest : u.mark ≤ mark
    · rw [undo_of_mark_le newest]
      exact narrowed.step change
    · have older : mark ≤ t.mark := by
        rw [mark_narrow change] at newest
        omega
      have back : u.undo mark = t.undo mark := by
        change u.rewind (u.mark - mark) = t.rewind (t.mark - mark)
        rw [mark_narrow change, Nat.succ_sub older, rewind_narrow change]
      rw [back]
      exact ih

/-! ### Sequences of calls -/

/-- A call while solving: it changes the state, takes a mark, or goes back to one of the marks taken
so far, named by its number. -/
inductive Call where
  | change (operation : Operation) (narrows : operation.narrows = true)
  | mark
  | undo (number : Nat)

structure Session where
  state : State
  marks : List Nat

namespace Session

def begin (state : State) : Session := ⟨state, [state.mark]⟩

/-- The session after a call, whether it succeeded or not. A number that no mark has is no call. -/
def take (session : Session) : Call → Session
  | .change operation _ => { session with state := session.state.perform operation }
  | .mark => { session with marks := session.marks ++ [session.state.mark] }
  | .undo number =>
    match session.marks[number]? with
    | some mark => { session with state := session.state.undo mark }
    | none => session

def takeAll (session : Session) : List Call → Session
  | [] => session
  | call :: rest => (session.take call).takeAll rest

/-- The session has not gone back behind a state: changes lead from there to the present state, and
no mark lies below. -/
structure Since (start : State) (session : Session) : Prop where
  state : start.NarrowsTo session.state
  marks : ∀ mark ∈ session.marks, start.mark ≤ mark

variable {start : State} {session : Session}

private theorem since_begin (start : State) : (begin start).Since start where
  state := NarrowsTo.refl
  marks _ member := (List.mem_singleton.mp member).ge

theorem Since.take (since : session.Since start) (call : Call) :
    (session.take call).Since start := by
  cases call with
  | change operation narrows =>
    exact ⟨since.state.trans (narrowsTo_perform narrows session.state), since.marks⟩
  | mark =>
    refine ⟨since.state, fun mark member => ?_⟩
    rcases List.mem_append.mp member with old | new
    · exact since.marks mark old
    · exact List.mem_singleton.mp new ▸ since.state.mark_le
  | undo number =>
    unfold Session.take
    dsimp only
    split
    next mark taken =>
      exact ⟨since.state.undo_of_le (since.marks mark (List.mem_of_getElem? taken)), since.marks⟩
    next => exact since

theorem Since.takeAll (since : session.Since start) (calls : List Call) :
    (session.takeAll calls).Since start := by
  induction calls generalizing session with
  | nil => exact since
  | cons call rest ih => exact ih (since.take call)

end Session

/-- After any calls a first mark still leads back to the very state it was taken of, and no call
among them has gone back behind it. -/
theorem undo_takeAll (start : State) (calls : List Call) :
    let reached (calls : List Call) := ((Session.begin start).takeAll calls).state
    (reached calls).undo start.mark = start ∧
      ((reached calls).undo start.mark).snapshot = start.snapshot ∧
      ∀ made, start.mark ≤ (reached (calls.take made)).trail.length := by
  intro reached
  have since (calls : List Call) := (Session.since_begin start).takeAll calls
  have back : (reached calls).undo start.mark = start := (since calls).state.undo
  exact ⟨back, congrArg snapshot back, fun made => (since (calls.take made)).state.mark_le⟩

end PencilPuzzle.State
