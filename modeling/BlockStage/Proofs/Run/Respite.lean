import BlockStage.Proofs.Run.Poise
import BlockStage.Proofs.Value.Number

/-! # Respites — every instruction gives others a turn

    An agent gives up its turn when it sleeps, or when the observer does
    that it shows a snapshot to.  Whatever it is told to do, it does so before it begins
    anything else (`Act.Pausing`), with one exception: on the canvas a move
    or a turn that lasts no time is over with its first frame, and does not
    sleep after it.  And whenever it goes on it looks at the running flag
    before it begins anything else (`Act.Guarded`). -/

namespace BlockStage

open Act

/-- An observer that sleeps, if only to let others have their turn, after
    each snapshot for which it does not raise an error. -/
def Observer.Yields (o : Observer) : Prop :=
  o.mode = .present
    ∧ ∀ k, (o.reaction k).fails = false → (o.reaction k).rests ≠ []

/-- Instructions that take a turn of their own: all without a body, but for
    moves and turns on the canvas that last no time and that nobody who
    yields is shown. -/
def Instruction.Lingers (c : Config) (o : Observer) : Instruction → Prop
  | .move _ => c.mode = .canvas → ¬ o.Yields → c.moveMs.le 0 = .ok false
  | .turnRight _ => c.mode = .canvas → ¬ o.Yields → c.turnMs.le 0 = .ok false
  | .turnLeft _ => c.mode = .canvas → ¬ o.Yields → c.turnMs.le 0 = .ok false
  | .wait _ => True
  | .say _ => True
  | _ => False

namespace Act

/-- What is left to do makes the agent give up its turn before anything else
    begins: it sleeps, or somebody is shown a snapshot and yields, or the
    first frame of an animation comes that does not last no time. -/
inductive Pausing (c : Config) (o : Observer) (now : Time) : List Act → Prop
  | pause {ms : Value} {rest : List Act} : Pausing c o now (.pause ms :: rest)
  | awaitFrame {rest : List Act} : Pausing c o now (.awaitFrame :: rest)
  | shown {rest : List Act} : o.Yields →
      Pausing c o now (.emit :: rest)
  | emit {rest : List Act} : Pausing c o now rest →
      Pausing c o now (.emit :: rest)
  | stride {left : Nat} {rest : List Act} :
      Pausing c o now (.stride (left + 1) :: rest)
  | glide {start finish : Point} {began : Time} {rest : List Act} :
      c.mode = .canvas →
      (¬ o.Yields → c.moveMs.le 0 = .ok false ∧ began = now) →
      Pausing c o now (.glide start finish began :: rest)
  | swing {start finish : Value} {began : Time} {rest : List Act} :
      c.mode = .canvas →
      (¬ o.Yields → c.turnMs.le 0 = .ok false ∧ began = now) →
      Pausing c o now (.swing start finish began :: rest)

/-- Only a first frame that is not followed by a yield depends on the
    time. -/
theorem Pausing.anytime {c : Config} {o : Observer} {now later : Time}
    {todo : List Act} (h : Pausing c o now todo)
    (hsame : c.mode = .canvas → ¬ o.Yields → later = now) :
    Pausing c o later todo := by
  induction h with
  | pause => exact .pause
  | awaitFrame => exact .awaitFrame
  | shown hmode => exact .shown hmode
  | emit _ ih => exact .emit ih
  | stride => exact .stride
  | glide hcanvas hlong =>
      exact .glide hcanvas fun hmode =>
        ⟨(hlong hmode).1, (hlong hmode).2.trans (hsame hcanvas hmode).symm⟩
  | swing hcanvas hlong =>
      exact .swing hcanvas fun hmode =>
        ⟨(hlong hmode).1, (hlong hmode).2.trans (hsame hcanvas hmode).symm⟩

/-- A look at the flag comes before anything begins: before it stands only
    what is left of an instruction, and behind it only what has not begun. -/
inductive Guarded : List Act → Prop
  | check {rest : List Act} : Steady rest → Guarded (.check :: rest)
  | before {act : Act} {rest : List Act} : act.isBody = false →
      Guarded rest → Guarded (act :: rest)

variable {act : Act} {todo rest : List Act}

/-- Nothing that has not begun comes before a look at the flag. -/
theorem Guarded.tail (h : Guarded (act :: rest)) :
    act.isBody = false ∧ (Guarded rest ∨ act = .check ∧ Steady rest) := by
  cases h with
  | check hs => exact ⟨rfl, .inr ⟨rfl, hs⟩⟩
  | before hact hrest => exact ⟨hact, .inl hrest⟩

/-- What follows a frame keeps a look at the flag behind it. -/
theorem guarded_afterFrame {progress : Num} {again : Act}
    (hagain : again.isBody = false) (h : Guarded rest) :
    Guarded (.emit :: Walker.afterFrame progress again rest) := by
  refine .before rfl ?_
  unfold Walker.afterFrame
  split
  · exact h
  · exact .before rfl (.before hagain h)

/-- What a run sets out with. -/
theorem guarded_start (p : Program) : Guarded (Walker.start p).todo := by
  obtain ⟨rest, hs, heq⟩ := Walker.start_fresh p
  rw [heq]
  exact .before rfl (.check hs)

end Act

variable [Arithmetic] {s : Scene} {o : Observer} {now : Time} {a b : Agent}
  {todo next : List Act} {signal : Signal}

/-! ## The flag -/

/-- What is begun leaves a look at the flag behind it, or is itself nothing
    but what has not begun; nothing is asked for meanwhile. -/
theorem Advance.begins_guarded (h : Advance s now a todo b next signal)
    (hs : Steady todo) :
    signal = .proceed ∧ (Guarded next ∨ Steady next) := by
  cases h with
  | glideOff => exact ⟨rfl, .inl (.before rfl (.check (steady_cons.1 hs).2))⟩
  | swingOff => exact ⟨rfl, .inl (.before rfl (.check (steady_cons.1 hs).2))⟩
  | strideOff =>
      exact ⟨rfl, .inr (steady_cons.2 ⟨rfl, (steady_cons.1 hs).2⟩)⟩
  | quarters =>
      exact ⟨rfl, .inl (.before rfl (.before rfl
        (.check (steady_cons.1 hs).2)))⟩
  | wait =>
      exact ⟨rfl, .inl (.before rfl (.before rfl
        (.check (steady_cons.1 hs).2)))⟩
  | say =>
      exact ⟨rfl, .inl (.before rfl (.before rfl (.before rfl (.before rfl
        (.check (steady_cons.1 hs).2)))))⟩
  | loop => exact ⟨rfl, .inr (steady_cons.2 ⟨rfl, (steady_cons.1 hs).2⟩)⟩
  | atGoal => exact ⟨rfl, .inr (steady_body _ (steady_cons.1 hs).2)⟩
  | notAtGoal => exact ⟨rfl, .inr (steady_cons.1 hs).2⟩
  | lastPass => exact ⟨rfl, .inr (steady_cons.1 hs).2⟩
  | nextPass =>
      exact ⟨rfl, .inr (steady_body _
        (steady_cons.2 ⟨rfl, (steady_cons.1 hs).2⟩))⟩
  | lastStride => exact ⟨rfl, .inr (steady_cons.1 hs).2⟩
  | nextStride =>
      exact ⟨rfl, .inl (.before rfl (.before rfl (.check
        (steady_cons.2 ⟨rfl, (steady_cons.1 hs).2⟩))))⟩
  | _ => cases (steady_cons.1 hs).1

/-- The look at the flag stays ahead until it is taken. -/
theorem Advance.stays_guarded (h : Advance s now a todo b next signal)
    (hg : Guarded todo) :
    Guarded next ∨ Steady next ∧ signal = .proceed
      ∧ ∃ rest, todo = .check :: rest := by
  have htail : ∀ {act rest}, todo = act :: rest → act ≠ .check →
      Guarded rest := by
    rintro act rest rfl hact
    exact hg.tail.2.resolve_right fun hno => hact hno.1
  cases h with
  | check =>
      rcases hg.tail.2 with hrest | ⟨-, hs⟩
      · exact .inl hrest
      · exact .inr ⟨hs, rfl, _, rfl⟩
  | glides => exact .inl (guarded_afterFrame rfl (htail rfl nofun))
  | swings => exact .inl (guarded_afterFrame rfl (htail rfl nofun))
  | place => exact .inl (htail rfl nofun)
  | emit => exact .inl (htail rfl nofun)
  | pause => exact .inl (htail rfl nofun)
  | hush => exact .inl (htail rfl nofun)
  | awaitFrame => exact .inl (htail rfl nofun)
  | _ => cases hg.tail.1

/-! ## The turn -/

/-- A zero, or no number. -/
def Scalar.Vanishes (x : Scalar) : Prop :=
  x = .nan ∨ x = .finite 0 ∨ x = .negZero

section

variable {x : Scalar}

omit [Arithmetic] in
/-- A zero is one under either sign. -/
theorem vanishes_signZero (negative : Bool) :
    (Scalar.signZero negative (.finite 0)).Vanishes := by
  cases negative
  · exact .inr (.inl rfl)
  · exact .inr (.inr rfl)

omit [Arithmetic] in
/-- What vanishes is not all. -/
theorem Scalar.Vanishes.incomplete (h : x.Vanishes) :
    isComplete ((Num.real x).min (.real (.finite 1))) = false := by
  rcases h with rfl | rfl | rfl <;> decide

variable (hzero : Arithmetic.round 0 = .finite 0)

include hzero

/-- Multiples of what vanishes vanish. -/
theorem Scalar.Vanishes.mul (h : x.Vanishes) (y : Scalar) :
    (x.mul y).Vanishes := by
  have hround : ∀ (negative : Bool) (r : Rat),
      (signZero negative (Arithmetic.round (0 * r))).Vanishes := by
    intro negative r
    rw [zero_mul, hzero]
    exact vanishes_signZero negative
  rcases h with rfl | rfl | rfl
  · exact .inl rfl
  · cases y with
    | nan => exact .inl rfl
    | inf negative => exact .inl rfl
    | finite r => exact hround _ r
    | negZero => exact hround _ 0
  · cases y with
    | nan => exact .inl rfl
    | inf negative => exact .inl rfl
    | finite r => exact hround _ r
    | negZero => exact hround _ 0

/-- Shares of what vanishes vanish. -/
theorem Scalar.Vanishes.div (h : x.Vanishes) (y : Scalar) :
    (x.div y).Vanishes := by
  have hround : ∀ (negative : Bool) (r : Rat),
      (if (Scalar.finite r).isZero then Scalar.nan
        else signZero negative (Arithmetic.round (0 / r))).Vanishes := by
    intro negative r
    split
    · exact .inl rfl
    · rw [zero_div, hzero]
      exact vanishes_signZero negative
  rcases h with rfl | rfl | rfl
  · exact .inl rfl
  · cases y with
    | nan => exact .inl rfl
    | inf negative => exact vanishes_signZero _
    | finite r => exact hround _ r
    | negZero => exact .inl rfl
  · cases y with
    | nan => exact .inl rfl
    | inf negative => exact vanishes_signZero _
    | finite r => exact hround _ r
    | negZero => exact .inl rfl

/-- No time passes from a moment to itself. -/
theorem Scalar.vanishes_sub (hx : x.isFinite = true) :
    (x.sub x).Vanishes := by
  obtain ⟨hneg, hvalue⟩ := neg_value hx
  rcases add_finite hx hneg with heq | ⟨heq, -⟩
  · right
    left
    unfold sub
    rw [heq, hvalue, add_neg_cancel, hzero]
  · exact .inr (.inr heq)

/-- The first frame of an animation that does not last no time is not its
    last. -/
theorem progressAt_first {ms : Value} (hms : ms.le 0 = .ok false)
    (hnow : now.isFinite = true) {progress : Num}
    (h : progressAt ms now now = .ok progress) :
    isComplete progress = false := by
  unfold progressAt at h
  obtain ⟨none, hnone, h⟩ := bind_ok h
  rw [hms] at hnone
  cases hnone
  obtain ⟨elapsed, helapsed, h⟩ := bind_ok h
  obtain ⟨share, hshare, h⟩ := bind_ok h
  cases h
  -- the milliseconds that have passed, and their share of the duration
  obtain ⟨x, hx, rfl⟩ : ∃ x : Scalar, x.Vanishes
      ∧ elapsed = .num (.real x) := by
    change Value.calculate (((do return Num.real ((now.sub now).mul
      (← (Num.int 1000).measure)) : Except NumberFault Num)).map Value.num)
        = .ok elapsed at helapsed
    cases hk : (Num.int 1000).measure with
    | error f =>
        rw [hk] at helapsed
        cases helapsed
    | ok y =>
        rw [hk] at helapsed
        cases helapsed
        exact ⟨_, (Scalar.vanishes_sub hzero hnow).mul hzero y, rfl⟩
  refine Scalar.Vanishes.incomplete ?_
  unfold Value.div at hshare
  cases hn : ms.number? with
  | none =>
      rw [hn] at hshare
      cases hshare
  | some m =>
      rw [hn] at hshare
      change Value.calculate ((do return x.div (← m.measure)
        : Except NumberFault Scalar)) = .ok share at hshare
      cases hk : m.measure with
      | error f =>
          rw [hk] at hshare
          cases hshare
      | ok y =>
          rw [hk] at hshare
          cases hshare
          exact hx.div hzero y

end

/-- An instruction that takes a turn of its own leaves acts to do that give
    it up. -/
theorem Advance.lingers {i : Instruction} {rest : List Act}
    (h : Advance s now a (.perform i :: rest) b next signal)
    (hi : i.Lingers s.config o) : Pausing s.config o now next := by
  cases h with
  | glideOff hmode => exact .glide hmode fun hlook => ⟨hi hmode hlook, rfl⟩
  | strideOff _ _ hpos =>
      obtain ⟨k, rfl⟩ := Int.eq_succ_of_zero_lt hpos
      exact .stride
  | swingOff hmode hturn =>
      rcases hturn with rfl | ⟨e, rfl, -⟩ <;>
        exact .swing hmode fun hlook => ⟨hi hmode hlook, rfl⟩
  | quarters => exact .emit .pause
  | wait => exact .pause
  | say => exact .emit .pause
  | loop hloop => rcases hloop with rfl | rfl <;> exact hi.elim
  | atGoal => exact hi.elim
  | notAtGoal => exact hi.elim

/-- Acts that give up the turn do so, or leave acts to do that will. -/
theorem Advance.pausing (hzero : Arithmetic.round 0 = .finite 0)
    (h : Advance s now a todo b next signal) (hnow : now.isFinite = true)
    (hp : Pausing s.config o now todo) :
    (∃ seconds, signal = .sleep seconds)
      ∨ signal = .emit ∧ o.Yields
      ∨ Pausing s.config o now next := by
  cases hp with
  | pause =>
      cases h
      exact .inl ⟨_, rfl⟩
  | awaitFrame =>
      cases h
      exact .inl ⟨_, rfl⟩
  | shown hmode =>
      cases h
      exact .inr (.inl ⟨rfl, hmode⟩)
  | emit hp =>
      cases h
      exact .inr (.inr hp)
  | stride =>
      cases h
      exact .inr (.inr (.emit .pause))
  | glide _ hlong =>
      refine .inr (.inr ?_)
      cases h with
      | glides hprogress =>
          by_cases hmode : o.Yields
          · exact .shown hmode
          · obtain ⟨hlasts, rfl⟩ := hlong hmode
            unfold Walker.afterFrame
            rw [progressAt_first hzero hlasts hnow hprogress]
            exact .emit .awaitFrame
  | swing _ hlong =>
      refine .inr (.inr ?_)
      cases h with
      | swings hprogress =>
          by_cases hmode : o.Yields
          · exact .shown hmode
          · obtain ⟨hlasts, rfl⟩ := hlong hmode
            unfold Walker.afterFrame
            rw [progressAt_first hzero hlasts hnow hprogress]
            exact .emit .awaitFrame

end BlockStage
