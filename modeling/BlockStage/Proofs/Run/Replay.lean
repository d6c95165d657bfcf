import BlockStage.Proofs.Run.Frame
import BlockStage.Proofs.Run.Unrolled

/-! # Replays — a run up to some point as the run of what it began

    However deep an instruction lies in loops and conditions, all that a run
    does up to some point is done by the instructions without a body that it
    began, one after the other.  A run replays up to this point (`Replays`)
    if the program of these instructions, with anything after it, comes to
    the same state, with the rest of the last of them and then whatever comes
    after it left to do. -/

namespace BlockStage

/-- Instructions without a body. -/
def Instruction.isLeaf : Instruction → Bool
  | move _ => true
  | turnRight _ => true
  | turnLeft _ => true
  | wait _ => true
  | say _ => true
  | _ => false

namespace Solo

/-- The instruction without a body that a run is about to begin, if it
    is. -/
def leaf? (r : Solo) : Option Instruction :=
  match r.outcome, r.walker.todo with
  | none, .perform i :: _ => if i.isLeaf then some i else none
  | _, _ => none

/-- An instruction without a body is about to begin. -/
theorem leaf?_some {r : Solo} {i : Instruction} {rest : List Act}
    (hnone : r.outcome = none) (htodo : r.walker.todo = .perform i :: rest)
    (hi : i.isLeaf = true) : r.leaf? = some i := by
  rw [leaf?, htodo, hnone]
  exact if_pos hi

/-- What is about to begin comes first of all that is left to do. -/
theorem leaf?_eq {r : Solo} {i : Instruction} (h : r.leaf? = some i) :
    r.outcome = none ∧ ∃ rest, r.walker.todo = .perform i :: rest := by
  rw [leaf?] at h
  split at h
  · rename_i j rest hnone htodo
    split at h
    · cases h
      exact ⟨hnone, rest, htodo⟩
    · cases h
  · cases h

/-- No instruction without a body begins with an act of another kind. -/
theorem leaf?_none {r : Solo} {act : Act} {rest : List Act}
    (htodo : r.walker.todo = act :: rest)
    (hact : ∀ i, act = .perform i → i.isLeaf = false) : r.leaf? = none := by
  rw [leaf?, htodo]
  split
  · rename_i i rest' _ heq
    cases heq
    exact if_neg (Bool.eq_false_iff.1 (hact i rfl))
  · rfl

/-- Runs that agree on everything that can be seen of them but their
    reports. -/
structure Matches (r u : Solo) : Prop where
  agent : u.agent = r.agent
  now : u.now = r.now
  running : u.running = r.running
  shown : u.shown = r.shown
  outcome : u.outcome = r.outcome

variable [Arithmetic] {s : Scene} {o : Observer} {r u : Solo} {act : Act}
  {rest later : List Act}

/-- The instructions without a body that a run begins in its first steps, in
    their order. -/
def begun (s : Scene) (o : Observer) (r : Solo) : Nat → Program
  | 0 => []
  | k + 1 => begun s o r k ++ (run s o k r).leaf?.toList

/-- What an act does as the only one left to do. -/
def only (s : Scene) (r : Solo) (act : Act) : Step :=
  Walker.step s r.now r.running r.agent ⟨[act], 0⟩

/-- A run that goes on does its first act as if it were the only one. -/
theorem next_only (hr : r.walker.todo = act :: rest) :
    r.next s = (r.only s act).onto rest r.walker.truncations := by
  have hw : r.walker = Walker.onto ⟨[act], 0⟩ rest r.walker.truncations := by
    cases hw : r.walker
    rw [hw] at hr
    cases hr
    rfl
  unfold next
  rw [hw]
  exact Walker.step_onto s _ _ _ _ _ _ _ act rfl

namespace Matches

omit [Arithmetic] in
theorem trans {v : Solo} (h : r.Matches u) (g : u.Matches v) : r.Matches v :=
  ⟨g.agent.trans h.agent, g.now.trans h.now, g.running.trans h.running,
    g.shown.trans h.shown, g.outcome.trans h.outcome⟩

/-- Runs that match get the same answers. -/
theorem answer (h : r.Matches u) (signal : Signal) :
    (r.answer o signal).Matches (u.answer o signal) := by
  obtain ⟨hagent, hnow, hrunning, hshown, houtcome⟩ := h
  cases signal with
  | emit =>
      simp only [Solo.answer, observe]
      rw [hagent, hnow, hrunning, hshown]
      cases o.mode <;> cases Snapshot.ofAgent r.agent <;> constructor <;>
        first | rfl | assumption
  | sleep seconds =>
      exact ⟨hagent, by simp only [Solo.answer, hnow], hrunning, hshown,
        houtcome⟩
  | proceed => exact ⟨hagent, hnow, hrunning, hshown, houtcome⟩
  | finish => exact ⟨hagent, hnow, hrunning, hshown, rfl⟩
  | halt => exact ⟨hagent, hnow, hrunning, hshown, rfl⟩
  | fail f => exact ⟨hagent, hnow, hrunning, hshown, rfl⟩

/-- Runs that match and have the same act to do first match after it. -/
theorem step (h : r.Matches u) (hnone : r.outcome = none)
    (hr : r.walker.todo = act :: rest) (hu : u.walker.todo = act :: later) :
    (r.step s o).Matches (u.step s o)
      ∧ (u.step s o).walker.todo = (r.only s act).walker.todo ++ later := by
  have honly : u.only s act = r.only s act := by
    unfold only
    rw [h.now, h.running, h.agent]
  obtain ⟨-, hwalker, -⟩ :=
    step_spec (s := s) (o := o) (h.outcome.trans hnone)
  refine ⟨?_, ?_⟩
  · rw [step_eq hnone, step_eq (h.outcome.trans hnone), next_only hr,
      next_only hu, honly]
    refine answer ?_ _
    exact ⟨rfl, h.now, h.running, h.shown, h.outcome⟩
  · rw [hwalker, next_only hu, honly]
    rfl

end Matches

/-! ## Replaying -/

/-- A run of some instructions, whatever comes after them, comes to the same
    state, with some acts left to do before that. -/
def Replays (s : Scene) (o : Observer) (a : Agent) (running : Bool)
    (done : Program) (head : List Act) (r : Solo) : Prop :=
  ∃ m, ∀ more : Program,
    r.Matches (run s o m (.start (done ++ more) a running))
      ∧ (run s o m (.start (done ++ more) a running)).walker.todo
        = head ++ more.map .perform

namespace Replays

variable {a : Agent} {running : Bool} {done : Program} {head : List Act}

/-- The rest of an instruction goes on. -/
theorem goesOn (h : Replays s o a running done (act :: head) r)
    (hnone : r.outcome = none) (hr : r.walker.todo = act :: rest) :
    Replays s o a running done ((r.only s act).walker.todo ++ head)
      (r.step s o) := by
  obtain ⟨m, h⟩ := h
  refine ⟨m + 1, fun more => ?_⟩
  obtain ⟨hmatches, htodo⟩ := h more
  rw [run_succ, List.append_assoc]
  exact hmatches.step hnone hr htodo

/-- Another instruction begins. -/
theorem begins {i : Instruction} (h : Replays s o a running done [] r)
    (hnone : r.outcome = none) (hr : r.walker.todo = .perform i :: rest) :
    Replays s o a running (done ++ [i]) (r.only s (.perform i)).walker.todo
      (r.step s o) := by
  obtain ⟨m, h⟩ := h
  refine ⟨m + 1, fun more => ?_⟩
  obtain ⟨hmatches, htodo⟩ := h (i :: more)
  rw [run_succ, List.append_assoc]
  exact hmatches.step hnone hr htodo

/-- Nothing that can be seen happens. -/
theorem idles (h : Replays s o a running done head r) (hsame : u.Matches r) :
    Replays s o a running done head u := by
  obtain ⟨m, h⟩ := h
  exact ⟨m, fun more => ⟨hsame.trans (h more).1, (h more).2⟩⟩

/-- Between two instructions the run of those begun so far, and of no more,
    finishes in the same state. -/
theorem finishes (h : Replays s o a running done [] r)
    (hnone : r.outcome = none) :
    ∃ m, (run s o m (.start done a running)).outcome = some .finished
      ∧ (run s o m (.start done a running)).agent = r.agent
      ∧ (run s o m (.start done a running)).now = r.now
      ∧ (run s o m (.start done a running)).shown = r.shown := by
  obtain ⟨m, h⟩ := h
  obtain ⟨hmatches, htodo⟩ := h []
  rw [List.append_nil] at hmatches htodo
  refine ⟨m + 1, ?_⟩
  rw [run_succ]
  generalize run s o m (.start done a running) = u at hmatches htodo
  have hgoes := hmatches.outcome.trans hnone
  have hnext : u.next s = ⟨u.agent, u.walker, [], .finish⟩ := by
    unfold next Walker.step
    rw [htodo]
    rfl
  rw [step_eq hgoes, hnext]
  exact ⟨rfl, hmatches.agent, hmatches.now, hmatches.shown⟩

end Replays

end Solo

end BlockStage
