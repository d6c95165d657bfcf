import BlockStage.Proofs.Run.Poise

/-! # Closings — the snapshots that end a wait or take a message down

    A step and a turn are shown before the agent gives up its turn.  A wait
    is shown after its sleep, and a message is shown once more when it has
    been there for long enough: only these two snapshots stand right in
    front of a check.  `Advance.origin` follows what is left to do from the
    instruction that it comes of, and `Solo.closes` says that on the grid
    whatever is shown right in front of a check ends a wait or takes a
    message down. -/

namespace BlockStage

open Act

/-- Where what is left to do comes from, in the middle of a wait or of a
    message: which instruction was performed, what stands behind it, and how
    many snapshots have been shown since. -/
def Act.Origin (since : Instruction → List Act → Nat → Prop) :
    List Act → Prop
  | .pause _ :: .emit :: .check :: rest =>
      ∃ seconds, since (.wait seconds) rest 0
  | .emit :: .pause _ :: .hush :: .emit :: .check :: rest =>
      ∃ text, since (.say text) rest 0
  | .pause _ :: .hush :: .emit :: .check :: rest =>
      ∃ text, since (.say text) rest 1
  | .hush :: .emit :: .check :: rest => ∃ text, since (.say text) rest 1
  | .emit :: .check :: rest =>
      (∃ seconds, since (.wait seconds) rest 0)
        ∨ ∃ text, since (.say text) rest 1
  | _ => True

variable {since later : Instruction → List Act → Nat → Prop}

/-- In the middle of its instructions an agent is in the middle of none. -/
theorem Act.Steady.origin {todo : List Act} (h : Steady todo) :
    Origin since todo := by
  cases todo with
  | nil => trivial
  | cons act rest =>
      have hact := (steady_cons.1 h).1
      cases act <;> cases hact <;> trivial

variable [Arithmetic] {s : Scene} {now : Time} {a b : Agent}
  {todo next : List Act} {signal : Signal}

/-- On the grid an advance leads from one point of a wait or of a message to
    the next. -/
theorem Advance.origin (h : Advance s now a todo b next signal)
    (hmode : s.config.mode ≠ .canvas)
    (hfit : Fit s.config todo ∨ Fresh todo)
    (begins : ∀ i rest, todo = .perform i :: rest → later i rest 0)
    (keeps : signal ≠ .emit → ∀ i rest k, since i rest k → later i rest k)
    (shows : signal = .emit →
      ∀ i rest k, since i rest k → later i rest (k + 1))
    (horigin : Origin since todo) : Origin later next := by
  rcases hfit with hfit | ⟨rest, -, rfl⟩
  rotate_left
  · cases h
    trivial
  cases h with
  | place => exact absurd rfl (hfit.unplaced _)
  | check =>
      cases hfit with
      | poised hp =>
          cases hp with
          | check hs => exact hs.origin
      | steady hs => cases (steady_cons.1 hs).1
  | glideOff hcanvas => exact absurd hcanvas hmode
  | swingOff hcanvas => exact absurd hcanvas hmode
  | strideOff => trivial
  | quarters => trivial
  | wait => exact ⟨_, begins _ _ rfl⟩
  | say => exact ⟨_, begins _ _ rfl⟩
  | loop => trivial
  | atGoal => exact (steady_body _ (hfit.behind rfl)).origin
  | notAtGoal => exact (hfit.behind rfl).origin
  | lastPass => exact (hfit.behind rfl).origin
  | nextPass =>
      exact (steady_body _ (steady_cons.2 ⟨rfl, hfit.behind rfl⟩)).origin
  | lastStride => exact (hfit.behind rfl).origin
  | nextStride => trivial
  | emit =>
      cases hfit with
      | poised hp =>
          cases hp with
          | shows => trivial
      | steady hs => cases (steady_cons.1 hs).1
      | moved => trivial
      | spoke =>
          obtain ⟨text, hsay⟩ := horigin
          exact ⟨text, shows rfl _ _ _ hsay⟩
  | pause =>
      cases hfit with
      | poised hp =>
          cases hp with
          | rests => trivial
          | speaks =>
              obtain ⟨text, hsay⟩ := horigin
              exact ⟨text, keeps nofun _ _ _ hsay⟩
      | steady hs => cases (steady_cons.1 hs).1
      | waits =>
          obtain ⟨seconds, hwait⟩ := horigin
          exact .inl ⟨seconds, keeps nofun _ _ _ hwait⟩
  | hush =>
      cases hfit with
      | poised hp =>
          cases hp with
          | hushes =>
              obtain ⟨text, hsay⟩ := horigin
              exact .inr ⟨text, keeps nofun _ _ _ hsay⟩
      | steady hs => cases (steady_cons.1 hs).1
  | glides => cases hfit.unframed
  | swings => cases hfit.unframed
  | awaitFrame =>
      cases hfit with
      | poised hp => cases hp
      | steady hs => cases (steady_cons.1 hs).1

namespace Solo

/-- A run was about to perform an instruction, with more to do behind it,
    and has shown so many snapshots since. -/
def Since (s : Scene) (o : Observer) (r : Solo) (k : Nat) (i : Instruction)
    (rest : List Act) (count : Nat) : Prop :=
  ∃ j < k, (run s o j r).walker.todo = .perform i :: rest
    ∧ (run s o k r).shown.length = (run s o j r).shown.length + count

/-- The next act of a run is the snapshot that ends a wait, or the one with
    which a message is taken down. -/
inductive Closes (s : Scene) (o : Observer) (r : Solo) (k : Nat) : Prop
  | wait {seconds : Value} {rest : List Act}
      (due : (run s o k r).walker.todo = .emit :: .check :: rest)
      (since : Since s o r k (.wait seconds) rest 0)
  | say {text : Value} {rest : List Act}
      (due : (run s o k r).walker.todo = .emit :: .check :: rest)
      (since : Since s o r k (.say text) rest 1)

variable {o : Observer} {r : Solo} {k : Nat}

/-- A step with which the run goes on is an advance. -/
theorem advances (hnone : r.outcome = none)
    (hgoes : (r.step s o).outcome = none) :
    Advance s r.now r.agent r.walker.todo (r.next s).agent
      (r.next s).walker.todo (r.next s).signal := by
  obtain ⟨-, -, -, -, hout⟩ := step_spec (s := s) (o := o) hnone
  rw [hgoes] at hout
  cases next_cases s o r with
  | finishes _ _ _ hverdict => rw [hverdict] at hout; cases hout
  | halts _ _ _ _ hverdict => rw [hverdict] at hout; cases hout
  | fails _ _ _ hverdict => rw [hverdict] at hout; cases hout
  | advances hadv => exact hadv

/-- A step that goes on with the run has shown its snapshot, if there is one
    to show and somebody to look. -/
theorem step_shown_length (hobserved : o.mode ≠ .absent)
    (hnone : r.outcome = none) (hgoes : (r.step s o).outcome = none) :
    ((r.next s).signal ≠ .emit →
        (r.step s o).shown.length = r.shown.length)
      ∧ ((r.next s).signal = .emit →
        (r.step s o).shown.length = r.shown.length + 1) := by
  have hadv := advances hnone hgoes
  obtain ⟨-, -, hshown, -, hout⟩ := step_spec (s := s) (o := o) hnone
  rw [hgoes] at hout
  rw [hshown]
  constructor
  · intro hno
    rw [nextVerdict, hadv.unshown hno]
    rfl
  · intro hemit
    rw [nextVerdict, hemit] at hout ⊢
    rcases verdict_emit o r.shown.length r.now (r.next s).agent r.running with
      ⟨hno, -⟩ | ⟨-, ms, -, heq⟩ | ⟨-, snapshot, -, heq⟩
    · exact absurd hno hobserved
    · rw [heq] at hout
      cases hout
    · rw [heq]
      rfl

/-- Wherever a run on the grid is in the middle of a wait or of a message,
    it has come there from the instruction. -/
theorem run_origin (hmode : s.config.mode ≠ .canvas)
    (hobserved : o.mode ≠ .absent) (hfresh : Fresh r.walker.todo)
    (k : Nat) (hgoes : (run s o k r).outcome = none) :
    (Fit s.config (run s o k r).walker.todo
        ∨ Fresh (run s o k r).walker.todo)
      ∧ Origin (Since s o r k) (run s o k r).walker.todo := by
  induction k with
  | zero =>
      refine ⟨.inr hfresh, ?_⟩
      obtain ⟨rest, -, htodo⟩ := hfresh
      rw [show run s o 0 r = r from rfl, htodo]
      trivial
  | succ k ih =>
      have hnone : (run s o k r).outcome = none := by
        by_contra hno
        rw [run_succ, step_over (Option.isSome_iff_ne_none.2 hno)] at hgoes
        exact hno hgoes
      obtain ⟨hfit, horigin⟩ := ih hnone
      obtain ⟨-, hwalker, -⟩ := step_spec (s := s) (o := o) hnone
      have hadv := advances hnone (run_succ (s := s) k ▸ hgoes)
      have hstep := run_succ (s := s) (o := o) (r := r) k
      obtain ⟨hquiet, hshown⟩ := step_shown_length hobserved hnone
        (hstep ▸ hgoes)
      rw [← hstep] at hwalker hquiet hshown
      rw [hwalker]
      refine ⟨.inl (hadv.fit hmode hfit).1,
        hadv.origin hmode hfit ?_ ?_ ?_ horigin⟩
      · intro i rest htodo
        refine ⟨k, Nat.lt_succ_self k, htodo, hquiet ?_⟩
        intro hemit
        have := (hadv.showing hemit).1
        rw [htodo] at this
        cases this
      · rintro hno i rest count ⟨j, hj, htodo, hcount⟩
        exact ⟨j, Nat.lt_succ_of_lt hj, htodo, (hquiet hno).trans hcount⟩
      · rintro hemit i rest count ⟨j, hj, htodo, hcount⟩
        refine ⟨j, Nat.lt_succ_of_lt hj, htodo, ?_⟩
        rw [hshown hemit, hcount]
        rfl

/-- On the grid whatever is shown right in front of a check ends a wait or
    takes a message down. -/
theorem closes (hmode : s.config.mode ≠ .canvas)
    (hobserved : o.mode ≠ .absent) (hfresh : Fresh r.walker.todo)
    (hgoes : (run s o k r).outcome = none) {rest : List Act}
    (hdue : (run s o k r).walker.todo = .emit :: .check :: rest) :
    Closes s o r k := by
  obtain ⟨-, horigin⟩ := run_origin hmode hobserved hfresh k hgoes
  rw [hdue] at horigin
  rcases horigin with ⟨seconds, hwait⟩ | ⟨text, hsay⟩
  · exact .wait hdue hwait
  · exact .say hdue hsay

end Solo

end BlockStage
