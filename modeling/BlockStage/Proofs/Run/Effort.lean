import BlockStage.Proofs.Run.Advance
import Mathlib.Algebra.GroupWithZero.Nat

/-! # Effort — why runs on the grid end

    What is left to do has a cost: six for every pass, step and
    instruction to come, the passes of a loop counted out, and one for
    every other act.  Every advance lowers it, but for the frames of an
    animation, and on the grid there are none: a run on the grid ends
    after at most as many steps as its program costs. -/

namespace BlockStage

/-- How many passes a loop may be granted. -/
def passesOf (ceiling v : Value) : Nat :=
  match v.count, ceiling.count with
  | .ok n, .ok m => max n.toNat m.toNat
  | .ok n, .error _ => n.toNat
  | .error _, _ => 0

/-- How many steps a distance is. -/
def stepsOf (d : Value) : Nat :=
  match d.whole with
  | .ok n => n.toNat
  | .error _ => 0

namespace Instruction

mutual

/-- What an instruction takes, its bodies included. -/
def effort (ceiling : Value) : Instruction → Nat
  | move d => stepsOf d + 2
  | turnRight _ => 2
  | turnLeft _ => 2
  | wait _ => 1
  | say _ => 1
  | repeatTimes v body => passesOf ceiling v * (totalEffort ceiling body + 1) + 2
  | repeatBounded v body => passesOf ceiling v * (totalEffort ceiling body + 1) + 2
  | ifGoalReached body => totalEffort ceiling body + 1
  | foreign _ => 1

/-- What a program takes. -/
def totalEffort (ceiling : Value) : List Instruction → Nat
  | [] => 0
  | i :: is => i.effort ceiling + totalEffort ceiling is

end

end Instruction

namespace Act

/-- The frames of an animation. -/
def isFrame : Act → Bool
  | glide _ _ _ => true
  | swing _ _ _ => true
  | _ => false

/-- Acts that are done once and leave nothing behind. -/
def isSmall : Act → Bool
  | place => true
  | check => true
  | emit => true
  | pause _ => true
  | hush => true
  | awaitFrame => true
  | _ => false

/-- What an act takes, small ones aside. -/
def effort (ceiling : Value) : Act → Nat
  | perform i => i.effort ceiling
  | pass left body => left * (Instruction.totalEffort ceiling body + 1) + 1
  | stride left => left + 1
  | glide _ _ _ => 1
  | swing _ _ _ => 1
  | _ => 0

/-- What things left to do take, small ones aside. -/
def efforts (ceiling : Value) (todo : List Act) : Nat :=
  (todo.map (effort ceiling)).sum

/-- What things left to do take. -/
def cost (ceiling : Value) (todo : List Act) : Nat :=
  6 * efforts ceiling todo + todo.countP isSmall

/-- No frame is left to show. -/
def Grounded (todo : List Act) : Prop :=
  ∀ act ∈ todo, act.isFrame = false

variable {ceiling : Value}

/-- The cost of one act. -/
def price (ceiling : Value) (act : Act) : Nat :=
  6 * act.effort ceiling + if act.isSmall then 1 else 0

theorem cost_cons (act : Act) (todo : List Act) :
    cost ceiling (act :: todo) = act.price ceiling + cost ceiling todo := by
  simp only [cost, price, efforts, List.map_cons, List.sum_cons,
    List.countP_cons]
  omega

/-- A body put in front costs what its instructions take. -/
theorem cost_body (body : List Instruction) (todo : List Act) :
    cost ceiling (body.map perform ++ todo)
      = 6 * Instruction.totalEffort ceiling body + cost ceiling todo := by
  induction body with
  | nil => simp [Instruction.totalEffort]
  | cons i is ih =>
      rw [List.map_cons, List.cons_append, cost_cons, ih,
        Instruction.totalEffort]
      simp only [price, effort, isSmall, Bool.false_eq_true, if_false]
      omega

end Act

/-- No loop is granted more passes than are counted out. -/
theorem grant_passesOf {ceiling v : Value} {g : Grant} {n : Int}
    (h : grant ceiling v = .ok g) (hn : g.passes.count = .ok n) :
    n.toNat ≤ passesOf ceiling v := by
  unfold grant at h
  split at h
  · rename_i m
    have hm : (Value.num (.int m)).count = .ok m := rfl
    unfold passesOf
    rw [hm]
    split at h
    · cases h
    · split at h
      · cases h
        simp only [hn]
        exact Nat.le_max_right _ _
      · cases h
        simp only [hm] at hn
        cases hn
        cases ceiling.count with
        | ok m => exact Nat.le_max_left _ _
        | error f => exact Nat.le_refl _
      · cases h
  · cases h

variable [Arithmetic] {s : Scene} {now : Time} {a b : Agent}
  {todo next : List Act} {signal : Signal}

open Act

/-- Every advance lowers the cost of what is left to do, but for a frame
    that is not the last; and none of them adds to the effort. -/
theorem Advance.cost_lt (h : Advance s now a todo b next signal)
    (hstill : ∀ act rest, todo = act :: rest → act.isFrame = false) :
    cost s.ceiling next < cost s.ceiling todo := by
  cases h with
  | strideOff _ hn =>
      simp only [cost_cons, price, Act.effort, Instruction.effort, stepsOf,
        hn, isSmall, Bool.false_eq_true, if_false]
      omega
  | swingOff _ hi _ =>
      rcases hi with rfl | ⟨e, rfl, -⟩ <;>
        simp [cost_cons, price, Act.effort, Instruction.effort, isSmall] <;>
        omega
  | quarters _ hi _ =>
      rcases hi with rfl | ⟨e, rfl, -⟩ <;>
        simp [cost_cons, price, Act.effort, Instruction.effort, isSmall] <;>
        omega
  | @loop _ _ v body g n hi hg hn =>
      have hle := Nat.mul_le_mul_right
        (Instruction.totalEffort s.ceiling body + 1) (grant_passesOf hg hn)
      rcases hi with rfl | rfl <;>
        simp only [cost_cons, price, Act.effort, Instruction.effort, isSmall,
          Bool.false_eq_true, if_false] <;> omega
  | atGoal =>
      simp only [cost_cons, cost_body, price, Act.effort, Instruction.effort,
        isSmall, Bool.false_eq_true, if_false]
      omega
  | nextPass =>
      simp only [cost_cons, cost_body, price, Act.effort, isSmall,
        Bool.false_eq_true, if_false, Nat.succ_mul]
      omega
  | glides => exact absurd (hstill _ _ rfl) (by simp [isFrame])
  | swings => exact absurd (hstill _ _ rfl) (by simp [isFrame])
  | _ =>
      simp only [cost_cons, price, Act.effort, Instruction.effort, isSmall,
        Bool.false_eq_true, if_false, if_true]
      omega

/-- On the grid no frame is ever left to show. -/
theorem Advance.grounded (h : Advance s now a todo b next signal)
    (hmode : s.config.mode ≠ .canvas) (hg : Grounded todo) :
    Grounded next := by
  have hbody : ∀ body : List Instruction, Grounded (body.map perform) := by
    intro body act hact
    obtain ⟨i, -, rfl⟩ := List.mem_map.1 hact
    rfl
  have hrest : ∀ {act rest}, todo = act :: rest → Grounded rest := by
    rintro act rest rfl x hx
    exact hg x (List.mem_cons_of_mem _ hx)
  cases h with
  | glideOff hcanvas => exact absurd hcanvas hmode
  | swingOff hcanvas => exact absurd hcanvas hmode
  | glides => exact absurd (hg _ (List.mem_cons_self ..)) (by simp [isFrame])
  | swings => exact absurd (hg _ (List.mem_cons_self ..)) (by simp [isFrame])
  | atGoal =>
      intro act hact
      rcases List.mem_append.1 hact with hact | hact
      · exact hbody _ act hact
      · exact hrest rfl act hact
  | nextPass =>
      intro act hact
      rcases List.mem_append.1 hact with hact | hact
      · exact hbody _ act hact
      · rcases List.mem_cons.1 hact with rfl | hact
        · rfl
        · exact hrest rfl act hact
  | _ =>
      have hr := hrest rfl
      simp only [Grounded, List.forall_mem_cons, isFrame, true_and]
      exact hr

namespace Walker

variable {w : Walker} {now' : Time} {running running' : Bool}

/-- On the grid a step does not look at the clock, and at the flag only at
    a check. -/
theorem step_congr (hmode : s.config.mode ≠ .canvas)
    (hg : Grounded w.todo)
    (hflag : running = running' ∨ ∀ rest, w.todo ≠ .check :: rest) :
    w.step s now running a = w.step s now' running' a := by
  have hmove : ∀ rest d, w.move s now a rest d = w.move s now' a rest d := by
    intro rest d
    unfold move
    cases hm : s.config.mode with
    | canvas => exact absurd hm hmode
    | grid => rfl
    | other v => rfl
  have hturn : ∀ rest d, w.turn s now a rest d = w.turn s now' a rest d := by
    intro rest d
    unfold turn
    cases hm : s.config.mode with
    | canvas => exact absurd hm hmode
    | grid => rfl
    | other v => rfl
  unfold step
  cases htodo : w.todo with
  | nil => rfl
  | cons act rest =>
      cases act with
      | check =>
          rcases hflag with rfl | hno
          · rfl
          · exact absurd htodo (hno rest)
      | perform i =>
          cases i with
          | move d => exact hmove rest d
          | turnRight d => exact hturn rest d
          | turnLeft d =>
              simp only [perform, hturn]
          | _ => rfl
      | glide start finish started =>
          have := hg (.glide start finish started)
            (htodo ▸ List.mem_cons_self ..)
          cases this
      | swing start finish started =>
          have := hg (.swing start finish started)
            (htodo ▸ List.mem_cons_self ..)
          cases this
      | pass left body => cases left <;> rfl
      | stride left => cases left <;> rfl
      | _ => rfl

/-- On the grid a step leaves no frame to show. -/
theorem step_grounded (hmode : s.config.mode ≠ .canvas)
    (hg : Grounded w.todo) :
    Grounded (w.step s now running a).walker.todo := by
  rcases step_cases s now running a w with ⟨-, heq⟩ |
    ⟨-, rest, log, -, heq⟩ | ⟨f, -, htodo, -⟩ | hadv
  · rw [heq]
    exact hg
  · rw [heq]
    exact hg
  · rw [htodo]
    exact hg
  · exact hadv.grounded hmode hg

omit [Arithmetic] in
/-- No frame is left to show when a run sets out. -/
theorem start_grounded (p : Program) : Grounded (start p).todo := by
  intro act hact
  simp only [start, List.mem_cons, List.mem_map] at hact
  rcases hact with rfl | rfl | ⟨i, -, rfl⟩ <;> rfl

end Walker

end BlockStage
