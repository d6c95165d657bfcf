import BlockStage.Proofs.Run.Every
import BlockStage.Proofs.Run.Frame
import BlockStage.Proofs.Run.Solo

/-! # Unrolling — loops are copies of their bodies

    A loop with a count runs as the copies of its body that the ceiling
    grants.  What is left to do in the run of an unrolled program is at all
    times the unrolled list of what is left to do in the run of the program
    (`Unrolls`).  Both take the same steps, but for those that enter a loop
    or begin or end a pass: these change nothing but the list of things to
    do, and they lower its cost (`Unrolls.step`). -/

namespace BlockStage

/-! ## Unrolling -/

/-- A body so many times over. -/
def copies (n : Nat) (body : List Instruction) : List Instruction :=
  (List.replicate n body).flatten

namespace Instruction

mutual

/-- An instruction with its loops replaced by the copies of their bodies
    that a ceiling grants. -/
def unroll (ceiling : Int) : Instruction → List Instruction
  | repeatTimes (.num (.int k)) body =>
      copies (min k ceiling).toNat (unrollAll ceiling body)
  | repeatBounded (.num (.int k)) body =>
      copies (min k ceiling).toNat (unrollAll ceiling body)
  | ifGoalReached body => [ifGoalReached (unrollAll ceiling body)]
  | i => [i]

/-- A program with its loops replaced by copies of their bodies. -/
def unrollAll (ceiling : Int) : List Instruction → List Instruction
  | [] => []
  | i :: is => i.unroll ceiling ++ unrollAll ceiling is

end

/-- A loop has a count that is not negative. -/
def CountedLoop : Instruction → Prop
  | repeatTimes v _ => Counts v
  | repeatBounded v _ => Counts v
  | _ => True
where
  /-- Such a count. -/
  Counts (v : Value) : Prop := ∃ k : Int, v = .int k ∧ 0 ≤ k

end Instruction

open Instruction

namespace Act

/-- An act with the loops in it unrolled. -/
def unroll (ceiling : Int) : Act → List Act
  | perform i => (i.unroll ceiling).map perform
  | pass left body => (copies left (unrollAll ceiling body)).map perform
  | act => [act]

/-- Things to do with the loops in them unrolled. -/
def unrollAll (ceiling : Int) (todo : List Act) : List Act :=
  todo.flatMap (unroll ceiling)

variable {ceiling : Int} {todo rest : List Act}

theorem unrollAll_cons (act : Act) :
    unrollAll ceiling (act :: rest)
      = act.unroll ceiling ++ unrollAll ceiling rest :=
  List.flatMap_cons

theorem unrollAll_append :
    unrollAll ceiling (todo ++ rest)
      = unrollAll ceiling todo ++ unrollAll ceiling rest :=
  List.flatMap_append

theorem unrollAll_body (body : List Instruction) :
    unrollAll ceiling (body.map perform)
      = (Instruction.unrollAll ceiling body).map perform := by
  induction body with
  | nil => rfl
  | cons i is ih =>
      rw [List.map_cons, unrollAll_cons, ih, Instruction.unrollAll,
        List.map_append]
      rfl

/-- A pass that begins is the body and the passes to come. -/
theorem unrollAll_pass (left : Nat) (body : List Instruction) :
    unrollAll ceiling (body.map perform ++ .pass left body :: rest)
      = unrollAll ceiling (.pass (left + 1) body :: rest) := by
  rw [unrollAll_append, unrollAll_body, unrollAll_cons, unrollAll_cons,
    ← List.append_assoc]
  congr 1
  simp only [unroll, copies, List.replicate_succ, List.flatten_cons,
    List.map_append]

end Act

open Act

/-! ## Acts that unrolling changes -/

/-- Two runs that differ in what is left to do, in the loops cut short and
    in what the guard reports only. -/
structure Solo.Alike (r u : Solo) : Prop where
  agent : u.agent = r.agent
  now : u.now = r.now
  running : u.running = r.running
  shown : u.shown = r.shown
  outcome : u.outcome = r.outcome
  log : u.reported.filter (·.reporter ≠ .guard)
    = r.reported.filter (·.reporter ≠ .guard)

/-- A run of a program and the run of its unrolled form. -/
structure Unrolls (ceiling : Int) (r u : Solo) : Prop
    extends r.Alike u where
  todo : u.walker.todo = Act.unrollAll ceiling r.walker.todo
  uncut : u.walker.truncations = 0
  counted : Act.EveryOf CountedLoop r.walker.todo

namespace Act

/-- Acts that unrolling leaves as they are, and that lead to none that it
    changes. -/
def isPlain : Act → Bool
  | perform (.repeatTimes _ _) => false
  | perform (.repeatBounded _ _) => false
  | perform (.ifGoalReached _) => false
  | pass _ _ => false
  | _ => true

/-- Acts that enter a loop, or begin or end a pass. -/
def isLooping : Act → Bool
  | perform (.repeatTimes _ _) => true
  | perform (.repeatBounded _ _) => true
  | pass _ _ => true
  | _ => false

theorem unroll_plain {ceiling : Int} {act : Act} (h : act.isPlain = true) :
    act.unroll ceiling = [act] := by
  cases act with
  | perform i => cases i <;> first | rfl | cases h
  | pass left body => cases h
  | _ => rfl

/-- Only loops that are entered are cut short. -/
theorem isCut_still {c : Value} {act : Act} (h : act.isLooping = false) :
    act.isCut c = false := by
  cases act with
  | perform i => cases i <;> first | rfl | cases h
  | _ => rfl

end Act

section Steps

variable [Arithmetic] {s : Scene} {o : Observer} {ceiling : Int}
  {now : Time} {running : Bool} {a : Agent} {w : Walker} {act : Act}
  {rest : List Act}

/-- A plain act leads to plain acts. -/
theorem Walker.step_plain (h : act.isPlain = true)
    (hw : w.todo = [act]) :
    Act.unrollAll ceiling (w.step s now running a).walker.todo
      = (w.step s now running a).walker.todo := by
  have hstays : Act.unrollAll ceiling w.todo = w.todo := by
    rw [hw, unrollAll_cons, unroll_plain h]
    rfl
  have hframe : ∀ progress again, again.isPlain = true →
      Act.unrollAll ceiling (.emit :: afterFrame progress again [])
        = .emit :: afterFrame progress again [] := by
    intro progress again hagain
    unfold afterFrame
    split
    · rfl
    · simp only [unrollAll_cons, unroll_plain hagain]
      rfl
  rcases Walker.step_cases s now running a w with ⟨-, heq⟩ |
    ⟨-, rest, log, -, heq⟩ | ⟨f, -, htodo, -⟩ | hadv
  · rw [heq]
    exact hstays
  · rw [heq]
    exact hstays
  · rw [htodo]
    exact hstays
  · rw [hw] at hadv
    generalize (w.step s now running a).walker.todo = next at hadv ⊢
    generalize (w.step s now running a).signal = signal at hadv
    generalize (w.step s now running a).agent = b at hadv
    cases hadv with
    | loop hi =>
        rcases hi with rfl | rfl
        · cases h
        · cases h
    | atGoal => cases h
    | notAtGoal => cases h
    | lastPass => cases h
    | nextPass => cases h
    | glides => exact hframe _ _ rfl
    | swings => exact hframe _ _ rfl
    | _ => rfl

omit [Arithmetic] in
/-- A step into a loop grants the passes below the ceiling; only the guard
    reports. -/
theorem Walker.loop_eq (hc : s.ceiling = .int ceiling) {k : Int} (hk : 0 ≤ k)
    (rest : List Act) (forever : Bool) (body : List Instruction) :
    ∃ log cut, w.loop s a rest forever (.int k) body
        = ⟨a, ⟨.pass (min k ceiling).toNat body :: rest, cut⟩, log, .proceed⟩
      ∧ ∀ l ∈ log, l.reporter = .guard := by
  unfold Walker.loop
  rw [hc, show grant (.int ceiling) (.int k) = _ from grant_int ceiling k,
    if_neg (Int.not_lt.2 hk)]
  split
  · rename_i hcut
    refine ⟨[truncationLine (.int ceiling) forever a.id (.int k)],
      w.truncations + 1, ?_, fun l hl => ?_⟩
    · rw [Int.min_eq_right (Int.le_of_lt hcut)]
      rfl
    · rw [List.mem_singleton.1 hl]
      rfl
  · rename_i hcut
    refine ⟨[], w.truncations, ?_, nofun⟩
    rw [Int.min_eq_left (Int.not_lt.1 hcut)]
    rfl

/-- A step that enters a loop, or begins or ends a pass, changes nothing
    but the list of things to do, which stays the same when unrolled and
    costs less. -/
theorem Walker.step_looping (hc : s.ceiling = .int ceiling)
    (hw : w.todo = act :: rest) (hcounted : act.Every CountedLoop)
    (hact : act.isLooping = true) :
    (w.step s now running a).agent = a
      ∧ (w.step s now running a).signal = .proceed
      ∧ (∀ l ∈ (w.step s now running a).log, l.reporter = .guard)
      ∧ Act.unrollAll ceiling (w.step s now running a).walker.todo
        = Act.unrollAll ceiling w.todo
      ∧ cost s.ceiling (w.step s now running a).walker.todo
        < cost s.ceiling w.todo := by
  have hloop : ∀ (forever : Bool) (v : Value) (body : List Instruction)
      (i : Instruction), CountedLoop.Counts v →
      (∀ k : Int, v = .int k → (i.unroll ceiling).map Act.perform
        = (Act.pass (min k ceiling).toNat body).unroll ceiling) →
      act = .perform i →
      w.step s now running a = w.loop s a rest forever v body →
      (w.step s now running a).agent = a
        ∧ (w.step s now running a).signal = .proceed
        ∧ (∀ l ∈ (w.step s now running a).log, l.reporter = .guard)
        ∧ Act.unrollAll ceiling (w.step s now running a).walker.todo
          = Act.unrollAll ceiling w.todo := by
    rintro forever v body i ⟨k, rfl, hk⟩ hunroll rfl hstep
    obtain ⟨log, cut, heq, hguard⟩ :=
      w.loop_eq (a := a) hc hk rest forever body
    rw [hstep, heq]
    refine ⟨rfl, rfl, hguard, ?_⟩
    rw [hw, unrollAll_cons, unrollAll_cons, ← hunroll k rfl]
    rfl
  have hdoes : (w.step s now running a).agent = a
      ∧ (w.step s now running a).signal = .proceed
      ∧ (∀ l ∈ (w.step s now running a).log, l.reporter = .guard)
      ∧ Act.unrollAll ceiling (w.step s now running a).walker.todo
        = Act.unrollAll ceiling w.todo := by
    cases act with
    | perform i =>
        cases i with
        | repeatTimes v body =>
            refine hloop false v body _ hcounted.1
              (fun k hk => by subst hk; rfl) rfl ?_
            unfold Walker.step
            rw [hw]
            rfl
        | repeatBounded v body =>
            refine hloop true v body _ hcounted.1
              (fun k hk => by subst hk; rfl) rfl ?_
            unfold Walker.step
            rw [hw]
            rfl
        | _ => cases hact
    | pass left body =>
        unfold Walker.step
        rw [hw]
        cases left with
        | zero => exact ⟨rfl, rfl, nofun, rfl⟩
        | succ left => exact ⟨rfl, rfl, nofun, unrollAll_pass left body⟩
    | _ => cases hact
  obtain ⟨hagent, hsignal, hlog, hunroll⟩ := hdoes
  refine ⟨hagent, hsignal, hlog, hunroll, ?_⟩
  rcases Walker.step_cases s now running a w with ⟨hno, -⟩ |
    ⟨-, _, log, -, heq⟩ | ⟨f, hsig, -, -⟩ | hadv
  · rw [hw] at hno
    cases hno
  · rw [heq] at hsignal
    cases hsignal
  · rw [hsignal] at hsig
    cases hsig
  · refine hadv.cost_lt fun act' rest' htodo => ?_
    rw [hw] at htodo
    obtain ⟨rfl, rfl⟩ := List.cons.inj htodo
    cases act <;> first | rfl | cases hact

end Steps

/-! ## One step of two runs -/

namespace Solo

variable [Arithmetic] {s : Scene} {o : Observer} {r u : Solo}

/-- A run that goes on is what the world answers to its next act. -/
theorem step_eq (h : r.outcome = none) :
    r.step s o = answer o
      { r with
        agent := (r.next s).agent
        walker := (r.next s).walker
        reported := (r.next s).log.reverse ++ r.reported }
      (r.next s).signal := by
  unfold step
  rw [h]
  rfl

/-- A run goes on from where it has come to. -/
theorem run_add (k m : Nat) :
    run s o (k + m) r = run s o m (run s o k r) := by
  induction m with
  | zero => rfl
  | succ m ih => rw [← Nat.add_assoc, run_succ, run_succ, ih]

/-- What relates two runs, and is kept by each step of the one if the other
    takes some steps of its own, relates wherever the one comes to with
    something that the other comes to. -/
theorem run_follows {R : Solo → Solo → Prop} (h : R r u)
    (step : ∀ r u, R r u → r.outcome = none →
      ∃ m, R (r.step s o) (run s o m u)) (k : Nat) :
    ∃ j, R (run s o k r) (run s o j u) := by
  refine run_keeps (P := fun q => ∃ j, R q (run s o j u)) ⟨0, h⟩ ?_ k
  rintro q ⟨j, hj⟩ hnone
  obtain ⟨m, hm⟩ := step _ _ hj hnone
  exact ⟨j + m, by rw [run_add]; exact hm⟩

/-- No answer touches what is left to do, the agent or the report. -/
theorem answer_keeps (signal : Signal) :
    (r.answer o signal).walker = r.walker
      ∧ (r.answer o signal).agent = r.agent
      ∧ (r.answer o signal).reported = r.reported := by
  cases signal with
  | emit =>
      simp only [answer, observe]
      cases o.mode <;> cases Snapshot.ofAgent r.agent <;>
        exact ⟨rfl, rfl, rfl⟩
  | _ => exact ⟨rfl, rfl, rfl⟩

/-- Alike runs get the same answers. -/
theorem Alike.answer (h : r.Alike u) (signal : Signal) :
    (r.answer o signal).Alike (u.answer o signal) := by
  obtain ⟨hagent, hnow, hrunning, hshown, houtcome, hlog⟩ := h
  cases signal with
  | emit =>
      simp only [Solo.answer, observe]
      rw [hagent, hnow, hrunning, hshown]
      cases o.mode <;> cases Snapshot.ofAgent r.agent <;> constructor <;>
        first | rfl | assumption
  | sleep seconds =>
      exact ⟨hagent, by simp only [Solo.answer, hnow], hrunning, hshown,
        houtcome, hlog⟩
  | proceed => exact ⟨hagent, hnow, hrunning, hshown, houtcome, hlog⟩
  | finish => exact ⟨hagent, hnow, hrunning, hshown, rfl, hlog⟩
  | halt => exact ⟨hagent, hnow, hrunning, hshown, rfl, hlog⟩
  | fail f => exact ⟨hagent, hnow, hrunning, hshown, rfl, hlog⟩

end Solo

namespace Unrolls

variable [Arithmetic] {s : Scene} {o : Observer} {ceiling : Int}
  {r u : Solo}

/-- Two runs whose next acts do the same, and leave the same when unrolled,
    stay a run and its unrolled run. -/
theorem both {n n' : Step} (h : Unrolls ceiling r u) (hnone : r.outcome = none)
    (hr : r.next s = n) (hu : u.next s = n') (hagent : n'.agent = n.agent)
    (hsignal : n'.signal = n.signal) (hlog : n'.log = n.log)
    (htodo : n'.walker.todo = Act.unrollAll ceiling n.walker.todo)
    (huncut : n'.walker.truncations = 0) :
    Unrolls ceiling (r.step s o) (u.step s o) := by
  subst hr hu
  rw [Solo.step_eq hnone, Solo.step_eq (h.outcome.trans hnone), hsignal]
  have halike : Solo.Alike
      { r with
        agent := (r.next s).agent
        walker := (r.next s).walker
        reported := (r.next s).log.reverse ++ r.reported }
      { u with
        agent := (u.next s).agent
        walker := (u.next s).walker
        reported := (u.next s).log.reverse ++ u.reported } :=
    ⟨hagent, h.now, h.running, h.shown, h.outcome,
      by simp only [List.filter_append, hlog, h.log]⟩
  obtain ⟨hwalker, hsame, -⟩ := Solo.answer_keeps (o := o)
    (r := { r with
      agent := (r.next s).agent
      walker := (r.next s).walker
      reported := (r.next s).log.reverse ++ r.reported }) (r.next s).signal
  obtain ⟨hwalker', -, -⟩ := Solo.answer_keeps (o := o)
    (r := { u with
      agent := (u.next s).agent
      walker := (u.next s).walker
      reported := (u.next s).log.reverse ++ u.reported }) (r.next s).signal
  refine ⟨halike.answer _, ?_, ?_, ?_⟩
  · rw [hwalker, hwalker', htodo]
  · rw [hwalker', huncut]
  · rw [hwalker]
    exact Walker.step_everyOf h.counted

/-- A run whose next act leaves the same when unrolled keeps its unrolled
    run, if it does nothing else and only the guard reports. -/
theorem alone (h : Unrolls ceiling r u) (hnone : r.outcome = none)
    (hagent : (r.next s).agent = r.agent)
    (hsignal : (r.next s).signal = .proceed)
    (hlog : ∀ l ∈ (r.next s).log, l.reporter = .guard)
    (htodo : Act.unrollAll ceiling (r.next s).walker.todo
      = Act.unrollAll ceiling r.walker.todo) :
    Unrolls ceiling (r.step s o) u := by
  have hquiet : (r.next s).log.reverse.filter (·.reporter ≠ .guard)
      = [] := by
    refine List.filter_eq_nil_iff.2 fun l hl => ?_
    simp [hlog l (List.mem_reverse.1 hl)]
  rw [Solo.step_eq hnone, hsignal]
  refine ⟨⟨?_, h.now, h.running, h.shown, h.outcome, ?_⟩, ?_, h.uncut, ?_⟩
  · exact h.agent.trans hagent.symm
  · show _ = List.filter _ ((r.next s).log.reverse ++ r.reported)
    rw [List.filter_append, hquiet]
    exact h.log
  · exact h.todo.trans htodo.symm
  · exact Walker.step_everyOf h.counted

/-- The unrolled run stands where the run stands. -/
theorem next_eq (h : Unrolls ceiling r u) :
    u.next s = u.walker.step s r.now r.running r.agent := by
  unfold Solo.next
  rw [h.now, h.running, h.agent]

/-- Runs with nothing left to do finish both. -/
theorem finishes (h : Unrolls ceiling r u) (hnone : r.outcome = none)
    (hr : r.walker.todo = []) :
    Unrolls ceiling (r.step s o) (u.step s o) := by
  have htodo : u.walker.todo = [] := by
    rw [h.todo, hr]
    rfl
  have hrnext : r.next s = ⟨r.agent, r.walker, [], .finish⟩ := by
    unfold Solo.next Walker.step
    rw [hr]
  have hunext : u.next s = ⟨r.agent, u.walker, [], .finish⟩ := by
    rw [h.next_eq]
    unfold Walker.step
    rw [htodo]
  exact h.both hnone hrnext hunext rfl rfl rfl h.todo h.uncut

/-- Both runs take the same plain act, with other things to do after it. -/
theorem plain {act : Act} {rest : List Act} (h : Unrolls ceiling r u)
    (hnone : r.outcome = none) (hr : r.walker.todo = act :: rest)
    (hact : act.isPlain = true) :
    Unrolls ceiling (r.step s o) (u.step s o) := by
  have hstill : act.isLooping = false := by
    cases act with
    | perform i => cases i <;> first | rfl | cases hact
    | pass => cases hact
    | _ => rfl
  have htodo := h.todo
  rw [hr, unrollAll_cons, unroll_plain hact] at htodo
  have hrw : r.walker = Walker.onto ⟨[act], 0⟩ rest r.walker.truncations := by
    cases hw : r.walker
    rw [hw] at hr
    cases hr
    rfl
  have huw : u.walker
      = Walker.onto ⟨[act], 0⟩ (Act.unrollAll ceiling rest) 0 := by
    cases hw : u.walker
    have huncut := h.uncut
    rw [hw] at htodo huncut
    cases htodo
    cases huncut
    rfl
  have hrnext : r.next s = (Walker.step s r.now r.running r.agent
      ⟨[act], 0⟩).onto rest r.walker.truncations := by
    unfold Solo.next
    rw [hrw]
    exact Walker.step_onto s _ _ _ _ _ _ _ act rfl
  have hunext : u.next s = (Walker.step s r.now r.running r.agent
      ⟨[act], 0⟩).onto (Act.unrollAll ceiling rest) 0 := by
    rw [h.next_eq, huw]
    exact Walker.step_onto s _ _ _ _ _ _ _ act rfl
  refine h.both hnone hrnext hunext rfl rfl rfl ?_ ?_
  · show _ ++ _ = Act.unrollAll ceiling (_ ++ rest)
    rw [unrollAll_append, Walker.step_plain hact rfl]
  · show 0 + (Walker.step s r.now r.running r.agent
      ⟨[act], 0⟩).walker.truncations = 0
    rw [Walker.step_truncations r.running act rfl, isCut_still hstill]
    rfl

/-- Both runs look at the goal flag, and go on with the body or with its
    unrolled form if it is set. -/
theorem conditional {body : List Instruction} {rest : List Act}
    (h : Unrolls ceiling r u) (hnone : r.outcome = none)
    (hr : r.walker.todo = .perform (.ifGoalReached body) :: rest) :
    Unrolls ceiling (r.step s o) (u.step s o) := by
  have htodo : u.walker.todo
      = .perform (.ifGoalReached (Instruction.unrollAll ceiling body))
        :: Act.unrollAll ceiling rest := by
    rw [h.todo, hr]
    rfl
  have hrnext : r.next s = r.walker.perform s r.now r.agent rest
      (.ifGoalReached body) := by
    unfold Solo.next Walker.step
    rw [hr]
  have hunext : u.next s = u.walker.perform s r.now r.agent
      (Act.unrollAll ceiling rest)
      (.ifGoalReached (Instruction.unrollAll ceiling body)) := by
    rw [h.next_eq]
    unfold Walker.step
    rw [htodo]
  simp only [Walker.perform] at hrnext hunext
  cases hgoal : r.agent.goalReached.holds with
  | false =>
      rw [hgoal, if_neg Bool.false_ne_true] at hrnext hunext
      exact h.both hnone hrnext hunext rfl rfl rfl rfl h.uncut
  | true =>
      rw [hgoal, if_pos rfl] at hrnext hunext
      refine h.both hnone hrnext hunext rfl rfl rfl ?_ h.uncut
      show _ = Act.unrollAll ceiling (body.map perform ++ rest)
      rw [unrollAll_append, unrollAll_body]
      rfl

/-- A step of a run is a step of its unrolled run as well, or none and
    lowers the cost of what is left to do. -/
theorem step (hc : s.ceiling = .int ceiling) (h : Unrolls ceiling r u)
    (hnone : r.outcome = none) :
    Unrolls ceiling (r.step s o) (u.step s o)
      ∨ Unrolls ceiling (r.step s o) u
        ∧ cost s.ceiling (r.step s o).walker.todo
          < cost s.ceiling r.walker.todo := by
  cases hr : r.walker.todo with
  | nil => exact .inl (h.finishes hnone hr)
  | cons act rest =>
      have hloops : act.isLooping = true →
          Unrolls ceiling (r.step s o) u
            ∧ cost s.ceiling (r.step s o).walker.todo
              < cost s.ceiling (act :: rest) := by
        intro hact
        obtain ⟨hagent, hsignal, hlog, hunroll, hcost⟩ :=
          Walker.step_looping hc hr
            (Act.everyOf_cons.1 (hr ▸ h.counted)).1 hact
        obtain ⟨-, hwalker, -⟩ := Solo.step_spec (s := s) (o := o) hnone
        refine ⟨h.alone hnone hagent hsignal hlog hunroll, ?_⟩
        rw [hwalker, ← hr]
        exact hcost
      cases act with
      | perform i =>
          cases i with
          | repeatTimes v body => exact .inr (hloops rfl)
          | repeatBounded v body => exact .inr (hloops rfl)
          | ifGoalReached body => exact .inl (h.conditional hnone hr)
          | _ => exact .inl (h.plain hnone hr rfl)
      | pass left body => exact .inr (hloops rfl)
      | _ => exact .inl (h.plain hnone hr rfl)

end Unrolls

end BlockStage
