import BlockStage.Proofs.Run.Effort
import BlockStage.Proofs.Run.Progress
import BlockStage.Proofs.Run.Solo

/-! # Last frames — animations come to their end

    A frame that is not the last leaves as much to do as before.  But an
    advance that begins an animation lowers the effort of what is left to
    do, so that only so many are begun (`Advance.began`,
    `Advance.efforts_le`), and a frame that is shown long enough after its
    animation began is the last (`Scene.Roomy.lasts`). -/

namespace BlockStage

open Act

namespace Act

/-- The moment at which an animation began of which an act shows a
    frame. -/
def began? : Act → Option Time
  | glide _ _ started => some started
  | swing _ _ started => some started
  | _ => none

/-- The moments at which the animations left to do began. -/
def starts (todo : List Act) : List Time :=
  todo.filterMap began?

/-- Every animation left to do began no later than at a moment. -/
def Begun (moment : Rat) (todo : List Act) : Prop :=
  ∀ t ∈ starts todo, t.isFinite = true ∧ t.value ≤ moment

variable {ceiling : Value} {todo rest : List Act} {m k : Rat}

theorem efforts_cons (act : Act) (todo : List Act) :
    efforts ceiling (act :: todo)
      = act.effort ceiling + efforts ceiling todo := by
  simp [efforts]

/-- A body put in front takes what its instructions take. -/
theorem efforts_body (body : List Instruction) (todo : List Act) :
    efforts ceiling (body.map perform ++ todo)
      = Instruction.totalEffort ceiling body + efforts ceiling todo := by
  induction body with
  | nil => simp [Instruction.totalEffort]
  | cons i is ih =>
      rw [List.map_cons, List.cons_append, efforts_cons, ih,
        Instruction.totalEffort, Act.effort, Nat.add_assoc]

theorem starts_cons_none {act : Act} (h : act.began? = none) :
    starts (act :: rest) = starts rest :=
  List.filterMap_cons_none h

/-- No animation has begun in a body. -/
theorem starts_body (body : List Instruction) :
    starts (body.map perform ++ rest) = starts rest := by
  induction body with
  | nil => rfl
  | cons i is ih => exact (starts_cons_none rfl).trans ih

/-- What follows a frame began when the frame's animation did, or was left
    already. -/
theorem starts_afterFrame {progress : Num} {again : Act} {t : Time}
    (h : t ∈ starts (Walker.afterFrame progress again rest)) :
    t ∈ starts (again :: rest) := by
  unfold Walker.afterFrame at h
  split at h
  · obtain ⟨act, hact, ht⟩ := List.mem_filterMap.1 h
    exact List.mem_filterMap.2 ⟨act, List.mem_cons_of_mem _ hact, ht⟩
  · exact h

theorem Begun.mono (h : Begun m todo) (hle : m ≤ k) : Begun k todo :=
  fun t ht => ⟨(h t ht).1, (h t ht).2.trans hle⟩

/-- No animation has begun when a run sets out. -/
theorem begun_start (p : Program) : Begun m (Walker.start p).todo := by
  intro t ht
  have hnone : starts (p.map perform ++ []) = [] := starts_body p
  rw [List.append_nil] at hnone
  have ht : t ∈ starts (p.map perform) := ht
  rw [hnone] at ht
  cases ht

end Act

variable [Arithmetic] {s : Scene} {g : Room} {now : Time} {a b : Agent}
  {todo next : List Act} {signal : Signal}

/-! ## How many animations begin -/

/-- No advance adds to the effort of what is left to do. -/
theorem Advance.efforts_le (h : Advance s now a todo b next signal) :
    efforts s.ceiling next ≤ efforts s.ceiling todo := by
  have hframe : ∀ (progress : Num) (again : Act) (rest : List Act),
      efforts s.ceiling (.emit :: Walker.afterFrame progress again rest)
        ≤ efforts s.ceiling (again :: rest) := by
    intro progress again rest
    unfold Walker.afterFrame
    split
    · simp [efforts_cons, Act.effort]
    · simp [efforts_cons, Act.effort]
  cases h with
  | strideOff _ hn =>
      simp only [efforts_cons, Act.effort, Instruction.effort, stepsOf, hn]
      omega
  | swingOff _ hi _ =>
      rcases hi with rfl | ⟨e, rfl, -⟩ <;>
        simp [efforts_cons, Act.effort, Instruction.effort]
  | quarters _ hi _ =>
      rcases hi with rfl | ⟨e, rfl, -⟩ <;>
        simp [efforts_cons, Act.effort, Instruction.effort]
  | @loop _ _ v body g n hi hg hn =>
      have hle := Nat.mul_le_mul_right
        (Instruction.totalEffort s.ceiling body + 1) (grant_passesOf hg hn)
      rcases hi with rfl | rfl <;>
        simp only [efforts_cons, Act.effort, Instruction.effort] <;> omega
  | atGoal =>
      simp only [efforts_cons, efforts_body, Act.effort, Instruction.effort]
      omega
  | nextPass =>
      simp only [efforts_cons, efforts_body, Act.effort, Nat.succ_mul]
      omega
  | glides => exact hframe _ _ _
  | swings => exact hframe _ _ _
  | _ =>
      simp only [efforts_cons, Act.effort, Instruction.effort]
      omega

/-- Every animation left after an advance was left before, or it begins with
    the advance, which then takes off the effort. -/
theorem Advance.began (h : Advance s now a todo b next signal) {t : Time}
    (ht : t ∈ starts next) :
    t ∈ starts todo
      ∨ t = now ∧ efforts s.ceiling next < efforts s.ceiling todo := by
  cases h with
  | glideOff =>
      rcases List.mem_cons.1 ht with rfl | ht
      · refine .inr ⟨rfl, ?_⟩
        simp only [efforts_cons, Act.effort, Instruction.effort]
        omega
      · exact .inl ht
  | swingOff _ hi =>
      rcases List.mem_cons.1 ht with rfl | ht
      · refine .inr ⟨rfl, ?_⟩
        rcases hi with rfl | ⟨e, rfl, -⟩ <;>
          simp [efforts_cons, Act.effort, Instruction.effort]
      · exact .inl ht
  | glides => exact .inl (starts_afterFrame ht)
  | swings => exact .inl (starts_afterFrame ht)
  | atGoal =>
      rw [starts_body] at ht
      exact .inl ht
  | nextPass =>
      rw [starts_body] at ht
      exact .inl ht
  | _ => exact .inl ht

/-- An advance begins animations at its own moment only. -/
theorem Advance.begun {m : Rat} (h : Advance s now a todo b next signal)
    (hnow : now.isFinite = true) (hle : now.value ≤ m)
    (hbegun : Begun m todo) : Begun m next := by
  intro t ht
  rcases h.began ht with hold | ⟨rfl, -⟩
  · exact hbegun t hold
  · exact ⟨hnow, hle⟩

/-- An advance that takes nothing off the effort begins no animation. -/
theorem Advance.begun_still {m : Rat}
    (h : Advance s now a todo b next signal)
    (hstill : efforts s.ceiling next = efforts s.ceiling todo)
    (hbegun : Begun m todo) : Begun m next := by
  intro t ht
  rcases h.began ht with hold | ⟨-, hlt⟩
  · exact hbegun t hold
  · omega

/-! ## How long animations last -/

/-- A frame of an animation that began long enough ago is the last. -/
def Scene.Lasts (s : Scene) (span : Rat) : Prop :=
  ∀ started now : Time, started.isFinite = true → now.isFinite = true →
    span ≤ now.value - started.value → ∀ progress,
      progressAt s.config.moveMs started now = .ok progress
        ∨ progressAt s.config.turnMs started now = .ok progress →
      isComplete progress = true

/-- Where every frame is the last, every advance lowers the cost of what is
    left to do. -/
theorem Advance.cost_lt_lasting {m span : Rat}
    (h : Advance s now a todo b next signal) (hlasts : s.Lasts span)
    (hnow : now.isFinite = true) (hbegun : Begun m todo)
    (hspan : span ≤ now.value - m) :
    cost s.ceiling next < cost s.ceiling todo := by
  -- a frame that is the last leaves its animation behind
  have hframe : ∀ {progress : Num} {again : Act} {rest : List Act}
      {started : Time}, again.isFrame = true → again.began? = some started →
      todo = again :: rest →
      (progressAt s.config.moveMs started now = .ok progress
        ∨ progressAt s.config.turnMs started now = .ok progress) →
      cost s.ceiling (.emit :: Walker.afterFrame progress again rest)
        < cost s.ceiling (again :: rest) := by
    rintro progress again rest started hagain hstarted rfl hprogress
    obtain ⟨hfin, hle⟩ := hbegun started
      (List.mem_filterMap.2 ⟨again, List.mem_cons_self .., hstarted⟩)
    have hdone := hlasts started now hfin hnow (by linarith) progress
      hprogress
    unfold Walker.afterFrame
    rw [if_pos hdone]
    cases again with
    | glide start finish t =>
        simp [cost_cons, price, Act.effort, isSmall]
    | swing start finish t =>
        simp [cost_cons, price, Act.effort, isSmall]
    | _ => cases hagain
  by_cases hstill : ∀ act rest, todo = act :: rest → act.isFrame = false
  · exact h.cost_lt hstill
  · cases h with
    | glides hprogress => exact hframe rfl rfl rfl (.inl hprogress)
    | swings hprogress => exact hframe rfl rfl rfl (.inr hprogress)
    | _ =>
        refine absurd ?_ hstill
        rintro act rest ⟨⟩
        rfl

section

variable [Arithmetic.Doubles]

/-- The share of a duration that has passed is all of it when enough time
    has. -/
theorem progressAt_complete {n : Num} {y : Scalar} {started now : Time}
    {progress : Num} (hy : n.measure = .ok y) (hyfin : y.isFinite = true)
    (hpositive : n.le (.int 0) = false → 0 < y.value)
    (hstarted : started.isFinite = true) (hnow : now.isFinite = true)
    (hpast : 1 + |y.value| ≤ now.value - started.value)
    (h : progressAt (.num n) started now = .ok progress) :
    isComplete progress = true := by
  have hthousand : (Num.int 1000).measure = .ok (.finite 1000) := by
    have hround : Arithmetic.round ((1000 : Int) : Rat) = .finite 1000 :=
      (Arithmetic.Doubles.round_eq _).trans (by decide +kernel)
    simp only [Num.measure, hround]
  unfold progressAt Value.le at h
  rw [show (0 : Value) = .num (.int 0) from rfl, Value.relate_num] at h
  simp only [bind, Except.bind, pure, Except.pure] at h
  split at h
  · cases h
    exact (by decide)
  · rename_i hle
    have hpos := hpositive (Bool.eq_false_iff.2 hle)
    obtain ⟨r, rfl⟩ : ∃ r : Rat, y = .finite r := by
      rcases Scalar.isFinite_iff.1 hyfin with hr | rfl
      · exact hr
      · exact absurd hpos (lt_irrefl _)
    have hpos : 0 < r := hpos
    have habs : |(Scalar.finite r).value| = r := abs_of_pos hpos
    rw [habs] at hpast
    -- the elapsed seconds, the milliseconds, and their share
    have helapsed := Scalar.atLeast_sub hnow hstarted (by linarith)
    have hmillis := helapsed.mul (r := 1000) (by norm_num) (by linarith)
    have hshare := hmillis.div (r := r) hpos (by
      rw [le_div_iff₀ hpos]
      linarith)
    have hone := hshare.mono (r := 1) (by
      rw [le_div_iff₀ two_pos, le_div_iff₀ hpos]
      linarith)
    rw [show (Value.real (now.sub started)).mul 1000
        = .ok (.num (.real ((now.sub started).mul (.finite 1000)))) from
      Value.mul_num (Num.mul_measured rfl hthousand (.inl ⟨_, rfl⟩))] at h
    dsimp only at h
    rw [Value.div_num (Num.div_measured rfl hy (.inl ⟨_, rfl⟩))] at h
    cases h
    unfold isComplete Num.min
    split
    · exact (by decide)
    · exact hone.le

/-- What is measured of a number above zero lies above zero. -/
theorem Num.Short.measure_pos {n : Num} {y : Scalar} (hn : n.Short)
    (hy : n.measure = .ok y) (hle : n.le (.int 0) = false) : 0 < y.value := by
  have hpos : 0 < n.exact.value := by
    by_contra hno
    have hbelow : n.exact.le (.finite 0) = true :=
      (Scalar.le_iff (y := .finite 0) hn.finite rfl).2 (not_lt.1 hno)
    have hle : n.exact.le (.finite 0) = false := hle
    rw [hbelow] at hle
    cases hle
  cases n with
  | real x =>
      cases hy
      exact hpos
  | int i =>
      have hone : (1 : Rat) ≤ i := by
        have hpos : (0 : Rat) < i := hpos
        have : 0 < i := by exact_mod_cast hpos
        exact_mod_cast this
      have hround : Arithmetic.round (i : Rat) = Binary64.nearest i :=
        Arithmetic.Doubles.round_eq _
      obtain ⟨x, hx, hfin, -⟩ := hn.measure
      rw [hx] at hy
      cases hy
      rcases Binary64.nearest_large hone with hinf | ⟨r, hr, hle⟩
      · simp only [Num.measure, hround, hinf] at hx
        cases hx
      · simp only [Num.measure, hround, hr] at hx
        cases hx
        have : (Scalar.finite r).value = r := rfl
        linarith

/-- Animations within the range of doubles last only so long. -/
theorem Scene.lasts (hmoves : s.config.moveMs.InRange)
    (hturns : s.config.turnMs.InRange) : ∃ span, s.Lasts span := by
  have hduration : ∀ ms : Value, ms.InRange → ∃ span : Rat,
      ∀ started now : Time, started.isFinite = true → now.isFinite = true →
        span ≤ now.value - started.value → ∀ progress,
          progressAt ms started now = .ok progress →
          isComplete progress = true := by
    rintro _ ⟨n, rfl, hn⟩
    obtain ⟨y, hy, hyfin, hclose, -⟩ := hn.short.measure
    exact ⟨1 + |y.value|, fun started now hstarted hnow hpast progress h =>
      progressAt_complete hy hyfin (hn.short.measure_pos hy) hstarted hnow
        hpast h⟩
  obtain ⟨move, hmove⟩ := hduration _ hmoves
  obtain ⟨turn, hturn⟩ := hduration _ hturns
  refine ⟨max move turn, fun started now hstarted hnow hpast progress h => ?_⟩
  rcases h with h | h
  · exact hmove started now hstarted hnow ((le_max_left _ _).trans hpast) _ h
  · exact hturn started now hstarted hnow ((le_max_right _ _).trans hpast) _ h

end

end BlockStage
