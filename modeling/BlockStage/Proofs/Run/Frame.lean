import BlockStage.Proofs.Run.Advance

/-! # Frames — a step looks at the first act only

    What is left to do after the first act changes nothing about a step,
    and is changed by none (`Walker.step_onto`); nor does the number of
    loops cut short so far, to which a step adds one if it enters a loop
    that is cut short, and nothing else (`Walker.step_truncations`). -/

namespace BlockStage

/-- A run with more to do after everything else, and with more loops cut
    short before. -/
def Walker.onto (w : Walker) (rest : List Act) (cut : Nat) : Walker :=
  ⟨w.todo ++ rest, cut + w.truncations⟩

/-- A step of a run with more to do after everything else. -/
def Step.onto (st : Step) (rest : List Act) (cut : Nat) : Step :=
  { st with walker := st.walker.onto rest cut }

/-- Loops that are cut short when they are entered. -/
def Act.isCut (ceiling : Value) : Act → Bool
  | perform (.repeatTimes v _) => cuts v
  | perform (.repeatBounded v _) => cuts v
  | _ => false
where
  /-- Whether a count is cut down. -/
  cuts (v : Value) : Bool :=
    match grant ceiling v with
    | .ok g => g.truncated
    | .error _ => false

namespace Walker

variable {α : Type} (s : Scene) (now : Time) (a : Agent) (w : Walker)
  (rest later : List Act) (cut : Nat)

theorem onto_goOnWith (log : List LogLine) (x : Except RunFault α)
    (next : α → Step) :
    (w.goOnWith a log x next).onto later cut
      = (w.onto later cut).goOnWith a log x
        fun y => (next y).onto later cut := by
  cases x <;> rfl

theorem onto_goOn (todo : List Act) (log : List LogLine) :
    (w.goOn a todo log).onto later cut
      = (w.onto later cut).goOn a (todo ++ later) log := rfl

variable [Arithmetic]

theorem onto_move (d : Value) :
    (w.move s now a rest d).onto later cut
      = (w.onto later cut).move s now a (rest ++ later) d := by
  unfold move
  rw [onto_goOnWith]
  congr 1
  funext n
  cases n with
  | none => rfl
  | some n =>
      dsimp only
      split
      · rfl
      · split
        · simp only [onto_goOnWith]
          rfl
        · simp only [onto_goOnWith]
          congr 1
          funext steps
          split <;> rfl

theorem onto_turn (d : Value) :
    (w.turn s now a rest d).onto later cut
      = (w.onto later cut).turn s now a (rest ++ later) d := by
  unfold turn
  rw [onto_goOnWith]
  congr 1
  funext n
  cases n with
  | none => rfl
  | some n =>
      dsimp only
      split <;> simp only [onto_goOnWith] <;> rfl

theorem onto_wait (v : Value) :
    (w.wait s a rest v).onto later cut
      = (w.onto later cut).wait s a (rest ++ later) v := by
  unfold wait
  rw [onto_goOnWith]
  congr 1
  funext n
  cases n with
  | none => rfl
  | some n =>
      dsimp only
      split
      · rfl
      · simp only [onto_goOnWith]
        rfl

omit [Arithmetic] in
theorem onto_loop (forever : Bool) (v : Value) (body : List Instruction) :
    (w.loop s a rest forever v body).onto later cut
      = (w.onto later cut).loop s a (rest ++ later) forever v body := by
  unfold loop
  rw [onto_goOnWith]
  congr 1
  funext g
  split
  · simp only [onto_goOnWith]
    rfl
  · simp only [onto_goOnWith]
    rfl

theorem onto_perform (i : Instruction) :
    (w.perform s now a rest i).onto later cut
      = (w.onto later cut).perform s now a (rest ++ later) i := by
  cases i with
  | move d => exact onto_move s now a w rest later cut d
  | turnRight d => exact onto_turn s now a w rest later cut d
  | turnLeft d =>
      simp only [perform, onto_goOnWith, onto_turn]
  | wait v => exact onto_wait s a w rest later cut v
  | say text => rfl
  | repeatTimes v body => exact onto_loop s a w rest later cut false v body
  | repeatBounded v body => exact onto_loop s a w rest later cut true v body
  | ifGoalReached body =>
      simp only [perform]
      split
      · simp only [onto_goOn, List.append_assoc]
      · rfl
  | foreign v => rfl

omit [Arithmetic] in
theorem onto_moveTo (p : Point) (next : List Act) :
    (w.moveTo s a p next).onto later cut
      = (w.onto later cut).moveTo s a p (next ++ later) := by
  unfold moveTo
  split <;> rfl

/-- What follows the first act makes no difference to a step. -/
theorem step_onto (running : Bool) (act : Act) (hw : w.todo = act :: rest) :
    (w.onto later cut).step s now running a
      = (w.step s now running a).onto later cut := by
  have htodo : (w.onto later cut).todo = act :: (rest ++ later) := by
    rw [onto, hw]
    rfl
  have hframe : ∀ progress again,
      afterFrame progress again (rest ++ later)
        = afterFrame progress again rest ++ later := by
    intro progress again
    unfold afterFrame
    split <;> rfl
  unfold step
  rw [hw, htodo]
  cases act with
  | place =>
      simp only [onto_goOnWith]
      rfl
  | check =>
      dsimp only
      split <;> rfl
  | perform i => exact (onto_perform s now a w rest later cut i).symm
  | pass left body =>
      cases left with
      | zero => rfl
      | succ left =>
          simp only [onto_goOn, List.append_assoc, List.cons_append]
  | stride left =>
      cases left with
      | zero => rfl
      | succ left =>
          simp only [onto_goOnWith, onto_moveTo, List.cons_append]
  | emit => rfl
  | pause ms =>
      simp only [onto_goOnWith]
      rfl
  | hush => rfl
  | glide start finish started =>
      simp only [onto_goOnWith, onto_moveTo, hframe]
  | swing start finish started =>
      simp only [onto_goOnWith, onto_goOn, hframe, List.cons_append]
  | awaitFrame =>
      simp only [onto_goOnWith]
      rfl

/-! ## Loops cut short -/

section Truncations

variable {s now a w rest}

omit [Arithmetic] in
/-- A step that needs the result of a calculation counts as many loops cut
    short as it does with every result. -/
theorem goOnWith_truncations {log : List LogLine} {x : Except RunFault α}
    {next : α → Step} {n : Nat} (h : w.truncations = n)
    (hnext : ∀ y, (next y).walker.truncations = n) :
    (w.goOnWith a log x next).walker.truncations = n := by
  cases x with
  | ok y => exact hnext y
  | error f => exact h

theorem move_truncations (d : Value) :
    (w.move s now a rest d).walker.truncations = w.truncations := by
  refine goOnWith_truncations rfl fun n => ?_
  cases n with
  | none => rfl
  | some n =>
      dsimp only
      split
      · rfl
      · split
        · exact goOnWith_truncations rfl fun _ =>
            goOnWith_truncations rfl fun _ => rfl
        · refine goOnWith_truncations rfl fun steps => ?_
          split <;> rfl

theorem turn_truncations (d : Value) :
    (w.turn s now a rest d).walker.truncations = w.truncations := by
  refine goOnWith_truncations rfl fun n => ?_
  cases n with
  | none => rfl
  | some n =>
      dsimp only
      split <;> exact goOnWith_truncations rfl fun _ => rfl

theorem wait_truncations (v : Value) :
    (w.wait s a rest v).walker.truncations = w.truncations := by
  refine goOnWith_truncations rfl fun n => ?_
  cases n with
  | none => rfl
  | some n =>
      dsimp only
      split
      · rfl
      · exact goOnWith_truncations rfl fun _ => rfl

omit [Arithmetic] in
theorem loop_truncations (forever : Bool) (v : Value)
    (body : List Instruction) :
    (w.loop s a rest forever v body).walker.truncations
      = w.truncations + if Act.isCut.cuts s.ceiling v then 1 else 0 := by
  unfold loop Act.isCut.cuts
  cases grant s.ceiling v with
  | error f => rfl
  | ok g =>
      obtain ⟨passes, truncated⟩ := g
      cases truncated with
      | true =>
          show (goOnWith ⟨w.todo, w.truncations + 1⟩ a _ _ _).walker.truncations
            = w.truncations + 1
          exact goOnWith_truncations rfl fun _ => rfl
      | false =>
          show (w.goOnWith a [] (operate passes.count) _).walker.truncations
            = w.truncations
          exact goOnWith_truncations rfl fun _ => rfl

omit [Arithmetic] in
theorem moveTo_truncations (p : Point) (next : List Act) :
    (w.moveTo s a p next).walker.truncations = w.truncations := by
  unfold moveTo
  split <;> rfl

/-- A step counts a loop that it enters if that is cut short, and no
    other. -/
theorem step_truncations (running : Bool) (act : Act)
    (hw : w.todo = act :: rest) :
    (w.step s now running a).walker.truncations
      = w.truncations + if act.isCut s.ceiling then 1 else 0 := by
  unfold step
  rw [hw]
  cases act with
  | perform i =>
      cases i with
      | move d => exact move_truncations d
      | turnRight d => exact turn_truncations d
      | turnLeft d =>
          exact goOnWith_truncations rfl fun v => turn_truncations v
      | wait v => exact wait_truncations v
      | say text => rfl
      | repeatTimes v body => exact loop_truncations false v body
      | repeatBounded v body => exact loop_truncations true v body
      | ifGoalReached body =>
          simp only [perform]
          split <;> rfl
      | foreign v => rfl
  | check =>
      dsimp only
      split <;> rfl
  | pass left body => cases left <;> rfl
  | stride left =>
      cases left with
      | zero => rfl
      | succ left =>
          exact goOnWith_truncations rfl fun p => moveTo_truncations p _
  | glide start finish started =>
      exact goOnWith_truncations rfl fun _ =>
        goOnWith_truncations rfl fun p => moveTo_truncations p _
  | swing start finish started =>
      exact goOnWith_truncations rfl fun _ =>
        goOnWith_truncations rfl fun _ => rfl
  | place | pause | awaitFrame =>
      exact goOnWith_truncations rfl fun _ => rfl
  | emit | hush => rfl

end Truncations

end Walker

end BlockStage
