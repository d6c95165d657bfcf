import BlockStage.Proofs.Run.Publication
import BlockStage.Proofs.Run.Unrolled

/-! # Observation — looking on changes nothing

    A run waits while it sleeps, and while the observer does that it shows a
    snapshot to.  `LoneTask` is a run with these waits spelled out, alone on
    the event loop; its ends are those of the run that takes no notice of
    them (`LoneTask.ends_iff`).  So it makes no difference how snapshots are
    observed, as long as that takes no time.  If they are not observed at
    all, the run goes the same way up to the first snapshot that cannot be
    made (`Solo.run_unseen`), and if there is none, to its end
    (`observed_alike`). -/

namespace BlockStage

section

variable [Arithmetic] {s : Scene} {o : Observer}

omit [Arithmetic] in
/-- An observer that looks at every snapshot, leaves the flag alone and
    raises no error, and that takes no time over it. -/
structure Observer.Glances (o : Observer) : Prop where
  present : o.mode = .present
  leaves : ∀ k, (o.reaction k).stops = false
  agrees : ∀ k, (o.reaction k).fails = false
  brief : ∀ k, ∀ seconds ∈ (o.reaction k).rests,
    seconds.le (.finite 0) = true

namespace Solo

variable {r : Solo}

/-! ## Runs that nobody sees -/

/-- A run as if nobody had seen it. -/
def unseen (r : Solo) : Solo := { r with shown := [] }

omit [Arithmetic] in
/-- Nobody has seen a run that is about to start. -/
@[simp] theorem start_unseen (p : Program) (a : Agent) (running : Bool) :
    (start p a running).unseen = start p a running := rfl

omit [Arithmetic] in
/-- Whether it has come to its end does not depend on who saw it. -/
@[simp] theorem unseen_isFinished (r : Solo) :
    r.unseen.isFinished = r.isFinished := rfl

/-- Whether a run has ended because its agent could not be shown. -/
def Unshown (r : Solo) : Prop :=
  ∃ ms, Snapshot.ofAgent r.agent = .error ms
    ∧ r.outcome = some (.failed (.badSnapshot ms))

/-- Sleeps for no time move no clock. -/
theorem after_brief {rests : List Scalar}
    (h : ∀ seconds ∈ rests, seconds.le (.finite 0) = true) (now : Time) :
    rests.foldl Time.after now = now := by
  induction rests with
  | nil => rfl
  | cons seconds rests ih =>
      have hnone : now.after seconds = now :=
        if_pos (h _ (List.mem_cons_self ..))
      rw [List.foldl_cons, hnone]
      exact ih fun x hx => h x (List.mem_cons_of_mem _ hx)

/-- An observer that glances is shown what one that does not sleep at all
    is. -/
theorem run_glancing (ho : o.Glances) (k : Nat) :
    run s o k r = run s (.quiet .present) k r := by
  have hstep : ∀ r : Solo, r.step s o = r.step s (.quiet .present) := by
    intro r
    unfold step
    split
    · rfl
    · dsimp only
      cases (r.walker.step s r.now r.running r.agent).signal with
      | emit =>
          simp only [answer, observe, ho.present, Observer.quiet, await,
            ho.leaves, ho.agrees, after_brief (ho.brief _), List.foldl_nil]
          rfl
      | _ => rfl
  induction k with
  | zero => rfl
  | succ k ih => rw [run_succ, run_succ, ih, hstep]

/-- Whether a run is not about to show what cannot be shown. -/
def Presentable (s : Scene) (r : Solo) : Prop :=
  r.outcome = none → (r.next s).signal = .emit → (r.next s).agent.Showable

/-- A step that shows nothing that cannot be shown is the same without an
    observer. -/
theorem step_unseen (h : Presentable s r) :
    r.unseen.step s (.quiet .absent)
      = (r.step s (.quiet .present)).unseen := by
  obtain ⟨agent, walker, now, running, shown, reported, outcome⟩ := r
  cases outcome with
  | some outcome => rfl
  | none =>
      have h := h rfl
      unfold next at h
      unfold step unseen
      dsimp only at h ⊢
      generalize walker.step s now running agent = n at h ⊢
      cases hsignal : n.signal with
      | emit =>
          obtain ⟨snapshot, hsnapshot⟩ := h hsignal
          simp [answer, observe, await, Observer.quiet, hsnapshot]
      | _ => rfl

/-- A step that would show what cannot be shown ends the run. -/
theorem step_unshown (h : ¬ Presentable s r) :
    Unshown (r.step s (.quiet .present)) := by
  unfold Presentable at h
  simp only [Classical.not_imp] at h
  obtain ⟨hnone, hemit, hno⟩ := h
  obtain ⟨hagent, -, -, -, houtcome⟩ :=
    step_spec (s := s) (o := .quiet .present) hnone
  rw [nextVerdict, hemit] at houtcome
  cases hsnapshot : Snapshot.ofAgent (r.next s).agent with
  | ok snapshot => exact absurd ⟨snapshot, hsnapshot⟩ hno
  | error ms =>
      refine ⟨ms, hagent ▸ hsnapshot, houtcome.trans ?_⟩
      simp [verdict, Observer.quiet, hsnapshot]

/-- A run that shows nothing that cannot be shown is the same without an
    observer. -/
theorem run_unseen_of (k : Nat)
    (h : ∀ j < k, Presentable s (run s (.quiet .present) j r)) :
    run s (.quiet .absent) k r.unseen
      = (run s (.quiet .present) k r).unseen := by
  induction k with
  | zero => rfl
  | succ k ih =>
      have hbefore := ih fun j hj => h j (hj.trans (Nat.lt_succ_self k))
      rw [run_succ, run_succ, hbefore]
      exact step_unseen (h k (Nat.lt_succ_self k))

/-- So any run is, unless it ends because its agent cannot be shown. -/
theorem run_unseen (k : Nat) :
    Unshown (run s (.quiet .present) k r)
      ∨ run s (.quiet .absent) k r.unseen
        = (run s (.quiet .present) k r).unseen := by
  by_cases h : ∀ j < k, Presentable s (run s (.quiet .present) j r)
  · exact .inr (run_unseen_of k h)
  · simp only [not_forall] at h
    obtain ⟨j, hj, hno⟩ := h
    have hends := step_unshown hno
    rw [← run_succ] at hends
    have hover : (run s (.quiet .present) (j + 1) r).outcome.isSome = true := by
      obtain ⟨ms, -, houtcome⟩ := hends
      rw [houtcome]
      rfl
    rw [run_over hover hj]
    exact .inl hends

/-! ## Agents that can be shown -/

/-- What keeps the agent of a run such that it can be shown. -/
def Presents (s : Scene) (r : Solo) : Prop :=
  r.outcome = none → Act.UnderWay s.config r.walker.todo
    ∧ Act.EveryOf Instruction.IsSpoken r.walker.todo ∧ r.agent.Showable

/-- On a charted stage a step keeps it, and what it shows can be shown. -/
theorem Presents.step (hs : s.Charted) (h : Presents s r) :
    Presents s (r.step s o) ∧ Presentable s r := by
  cases hnone : r.outcome with
  | some outcome =>
      rw [step_over (by rw [hnone]; rfl)]
      refine ⟨h, fun hgoes => ?_⟩
      rw [hnone] at hgoes
      cases hgoes
  | none =>
  obtain ⟨hway, hspoken, hshowable⟩ := h hnone
  obtain ⟨hagent, hwalker, -, -, houtcome⟩ :=
    step_spec (s := s) (o := o) hnone
  -- a step that ends the run shows nothing
  have hends : (r.next s).signal ≠ .emit →
      (r.nextVerdict s o).outcome ≠ none →
      Presents s (r.step s o) ∧ Presentable s r := fun hsilent hover =>
    ⟨fun hgoes => absurd (houtcome.symm.trans hgoes) hover,
      fun _ hemit => absurd hemit hsilent⟩
  rcases Walker.step_cases s r.now r.running r.agent r.walker with
    ⟨-, heq⟩ | ⟨-, rest, log, -, heq⟩ | ⟨f, hfails, -⟩ | hadv
  · have hfinish : (r.next s).signal = .finish := congrArg Step.signal heq
    exact hends (by simp [hfinish]) (by simp [nextVerdict, hfinish, verdict])
  · have hhalt : (r.next s).signal = .halt := congrArg Step.signal heq
    exact hends (by simp [hhalt]) (by simp [nextVerdict, hhalt, verdict])
  · have hfail : (r.next s).signal = .fail f := hfails
    exact hends (by simp [hfail]) (by simp [nextVerdict, hfail, verdict])
  · have hnext : (r.next s).agent.Showable :=
      hadv.showable hs hway hspoken hshowable
    refine ⟨fun _ => ⟨?_, ?_, ?_⟩, fun _ _ => hnext⟩
    · rw [hwalker]
      exact hadv.underWay hway
    · rw [hwalker]
      exact Walker.step_everyOf hspoken
    · rw [hagent]
      exact hnext

/-- So a run whose agent can be shown once it has been brought onto the
    playfield shows nothing that cannot be shown. -/
theorem start_presentable {p : Program} {a : Agent} (hs : s.Charted)
    (hp : Instruction.EveryOf Instruction.IsSpoken p)
    (ha : ∀ point, clampPosition s.config a.position = .ok point →
      Agent.Showable { a with position := point.position }) (k : Nat) :
    Presentable s (run s o k (start p a true)) := by
  have hstart : Presents s ((start p a true).step s o) := by
    intro hgoes
    cases hplaced : clampPosition s.config a.position with
    | ok point =>
        obtain ⟨hagent, htodo, -⟩ := start_placed (s := s) (o := o) (p := p)
          true hplaced
        refine ⟨?_, ?_, hagent ▸ ha point hplaced⟩
        · rw [htodo]
          exact .inl (Act.allSilent_program p)
        · rw [htodo]
          exact fun act hact => Walker.start_everyOf hp act
            (List.mem_cons_of_mem _ hact)
    | error f =>
        simp [step, start, Walker.start, Walker.step, Walker.goOnWith,
          Walker.failed, operate, Except.mapError, hplaced, answer] at hgoes
  cases k with
  | zero =>
      intro _ hemit
      simp only [run, next, start, Walker.start, Walker.step,
        Walker.goOnWith] at hemit
      split at hemit <;> cases hemit
  | succ k =>
      have hrun : run s o (k + 1) (start p a true)
          = run s o k ((start p a true).step s o) := rfl
      rw [hrun]
      exact ((run_keeps hstart (fun r hr _ => (hr.step hs).1) k).step
        (o := o) hs).2

end Solo

/-! ## Runs on the event loop -/

/-- What a run waits for before its next act. -/
inductive Wait where
  /-- Nothing: it is its turn. -/
  | nothing
  /-- Its turn in the next round. -/
  | turn
  /-- A moment on the clock. -/
  | moment (due : Time)

/-- The wait of a sleep, of which nothing at all is only a turn for
    others. -/
def Wait.ofSleep (now : Time) (seconds : Scalar) : Wait :=
  if seconds.le (.finite 0) then .turn else .moment (now.add seconds)

/-- The clock after a wait: nothing else is to be done, so it moves on. -/
def Wait.clock (now : Time) : Wait → Time
  | moment due => if now.lt due then due else now
  | _ => now

/-- After the wait of a sleep the clock shows when the sleep is over. -/
theorem Wait.clock_ofSleep (now : Time) (seconds : Scalar) :
    (ofSleep now seconds).clock now = now.after seconds := by
  unfold ofSleep Time.after
  split <;> rfl

/-- A run with its waits, alone on the event loop. -/
structure LoneTask where
  /-- The run. -/
  run : Solo
  /-- What the observer still has to do, while it is shown a snapshot. -/
  showing : Option Errand
  /-- What it waits for. -/
  wait : Wait

namespace LoneTask

/-- A run about to start, at its turn. -/
def start (p : Program) (a : Agent) : LoneTask :=
  ⟨.start p a true, none, .nothing⟩

/-- The next act of a run at its turn, and what it waits for after it. -/
def act (s : Scene) (o : Observer) (r : Solo) : LoneTask :=
  let next := r.walker.step s r.now r.running r.agent
  let r :=
    { r with
      agent := next.agent
      walker := next.walker
      reported := next.log.reverse ++ r.reported }
  match next.signal with
  | .sleep seconds => ⟨r, none, .ofSleep r.now seconds⟩
  | .emit =>
      match o.mode, Snapshot.ofAgent r.agent with
      | .present, .ok snapshot =>
          let shown := ⟨r.now, snapshot⟩ :: r.shown
          let reaction := o.reaction shown.length
          ⟨{ r with
              shown := shown
              running := r.running && !reaction.stops },
            some reaction.toErrand, .nothing⟩
      | _, _ => ⟨r.observe o, none, .nothing⟩
  | signal => ⟨r.answer o signal, none, .nothing⟩

/-- The observer goes on: it sleeps, or it is done. -/
def attend (r : Solo) (e : Errand) : LoneTask :=
  match e.rests with
  | [] => ⟨r.await e, none, .nothing⟩
  | seconds :: rests =>
      ⟨r, some { e with rests := rests }, .ofSleep r.now seconds⟩

/-- One step of the event loop: an act, the next round, or the end of the
    sleep, which leaves the run to wait for its turn. -/
def step (s : Scene) (o : Observer) (q : LoneTask) : LoneTask :=
  match q.run.outcome, q.wait with
  | some _, _ => q
  | none, .nothing =>
      match q.showing with
      | none => act s o q.run
      | some e => attend q.run e
  | none, .turn => { q with wait := .nothing }
  | none, .moment due =>
      { q with
        run := { q.run with now := (Wait.moment due).clock q.run.now }
        wait := .turn }

/-- Some steps of the event loop. -/
def steps (s : Scene) (o : Observer) : Nat → LoneTask → LoneTask
  | 0, q => q
  | n + 1, q => (steps s o n q).step s o

/-- The run without notice of its waits: the clock has moved on already, and
    the observer is done. -/
def settled (q : LoneTask) : Solo :=
  let r := { q.run with now := q.wait.clock q.run.now }
  match q.showing with
  | none => r
  | some e => r.await e

/-- An act is a step of the run, whatever is waited for after it. -/
theorem settled_act {r : Solo} (hnone : r.outcome = none) :
    (act s o r).settled = r.step s o := by
  unfold act Solo.step
  rw [hnone]
  dsimp only
  generalize r.walker.step s r.now r.running r.agent = n
  cases n.signal with
  | sleep seconds =>
      simp only [Solo.answer, settled, Wait.clock_ofSleep]
  | emit =>
      dsimp only [Solo.answer]
      unfold Solo.observe
      cases o.mode with
      | absent => rfl
      | present => cases Snapshot.ofAgent n.agent <;> rfl
  | _ => rfl

/-- What the observer does is part of the step before. -/
theorem settled_attend (r : Solo) (e : Errand) :
    (attend r e).settled = r.await e := by
  obtain ⟨rests, fails⟩ := e
  cases rests with
  | nil => rfl
  | cons seconds rests =>
      simp only [attend, settled, Wait.clock_ofSleep, Solo.await,
        List.foldl_cons]

/-- A run that is over waits for nothing and nobody. -/
def Poised (q : LoneTask) : Prop :=
  q.run.outcome.isSome = true → q.wait = .nothing ∧ q.showing = none

/-- A run that waits for nothing and nobody is what it settles to. -/
theorem settled_idle {q : LoneTask} (hwait : q.wait = .nothing)
    (hshowing : q.showing = none) : q.settled = q.run := by
  unfold settled
  rw [hwait, hshowing]
  rfl

/-- An act that ends the run is followed by no wait. -/
theorem act_poised {r : Solo} (hnone : r.outcome = none) :
    (act s o r).Poised := by
  -- an act that does not end the run leaves nothing to show
  have hgoes : ∀ {q : LoneTask}, q.run.outcome = none → q.Poised := by
    intro q hq hover
    rw [hq] at hover
    cases hover
  unfold act
  dsimp only
  generalize r.walker.step s r.now r.running r.agent = n
  cases n.signal with
  | sleep seconds => exact hgoes hnone
  | emit =>
      dsimp only
      split
      · exact hgoes hnone
      · exact fun _ => ⟨rfl, rfl⟩
  | _ => exact fun _ => ⟨rfl, rfl⟩

/-- A step of the event loop is a step of the run or none at all. -/
theorem step_settled {q : LoneTask} :
    (q.step s o).settled = q.settled
      ∨ (q.step s o).settled = q.settled.step s o := by
  obtain ⟨r, showing, wait⟩ := q
  unfold step
  cases hnone : r.outcome with
  | some outcome => exact .inl rfl
  | none =>
      cases wait with
      | nothing =>
          cases showing with
          | none => exact .inr (settled_act hnone)
          | some e => exact .inl (settled_attend r e)
      | turn => exact .inl rfl
      | moment due => exact .inl rfl

/-- So it is with some steps. -/
theorem steps_settled (n : Nat) (q : LoneTask) :
    ∃ k, (steps s o n q).settled = Solo.run s o k q.settled := by
  induction n with
  | zero => exact ⟨0, rfl⟩
  | succ n ih =>
      obtain ⟨k, hk⟩ := ih
      rcases step_settled (s := s) (o := o) (q := steps s o n q) with
        heq | heq
      · exact ⟨k, heq.trans hk⟩
      · exact ⟨k + 1, by rw [Solo.run_succ, ← hk]; exact heq⟩

/-- A run on the event loop stays poised. -/
theorem step_poised {q : LoneTask} (h : q.Poised) :
    (q.step s o).Poised := by
  obtain ⟨r, showing, wait⟩ := q
  unfold step
  cases hnone : r.outcome with
  | some outcome => exact h
  | none =>
      have hgoes : ∀ showing wait now,
          (LoneTask.mk { r with now := now } showing wait).Poised := by
        intro showing wait now hover
        have hover : r.outcome.isSome = true := hover
        rw [hnone] at hover
        cases hover
      cases wait with
      | nothing =>
          cases showing with
          | none => exact act_poised hnone
          | some e =>
              unfold attend
              dsimp only
              split
              · exact fun _ => ⟨rfl, rfl⟩
              · exact hgoes _ _ _
      | turn => exact hgoes _ _ _
      | moment due => exact hgoes _ _ _

theorem steps_poised (n : Nat) {q : LoneTask} (h : q.Poised) :
    (steps s o n q).Poised := by
  induction n with
  | zero => exact h
  | succ n ih => exact step_poised ih

/-- Every wait comes to an end. -/
theorem wait_ends (n : Nat) {q : LoneTask}
    (hnone : (steps s o n q).run.outcome = none) :
    ∃ m, (steps s o m q).wait = .nothing
      ∧ (steps s o m q).showing = (steps s o n q).showing
      ∧ (steps s o m q).run.outcome = none
      ∧ (steps s o m q).settled = (steps s o n q).settled := by
  cases hwait : (steps s o n q).wait with
  | nothing => exact ⟨n, hwait, rfl, hnone, rfl⟩
  | turn =>
      refine ⟨n + 1, ?_⟩
      simp [steps, step, hnone, hwait, settled, Wait.clock]
  | moment due =>
      refine ⟨n + 2, ?_⟩
      simp [steps, step, hnone, hwait, settled, Wait.clock]

/-- So does all that an observer does. -/
theorem steps_wake (n : Nat) {q : LoneTask} (h : q.Poised) :
    ∃ m, (steps s o m q).wait = .nothing
      ∧ (steps s o m q).showing = none
      ∧ (steps s o m q).settled = (steps s o n q).settled := by
  cases hnone : (steps s o n q).run.outcome with
  | some outcome =>
      obtain ⟨hwait, hshowing⟩ := steps_poised (s := s) (o := o) n h
        (by rw [hnone]; rfl)
      exact ⟨n, hwait, hshowing, rfl⟩
  | none =>
      obtain ⟨m, hwait, hsame, hgoes, hm⟩ := wait_ends n hnone
      rw [← hm]
      clear hm hsame hnone
      cases hshowing : (steps s o m q).showing with
      | none => exact ⟨m, hwait, hshowing, rfl⟩
      | some e =>
          obtain ⟨rests, fails⟩ := e
          induction rests generalizing m with
          | nil =>
              have hnext : steps s o (m + 1) q
                  = attend (steps s o m q).run ⟨[], fails⟩ := by
                rw [steps, step, hgoes, hwait, hshowing]
              refine ⟨m + 1, ?_, ?_, ?_⟩
              · rw [hnext]; rfl
              · rw [hnext]; rfl
              · rw [hnext, settled_attend, settled, hwait, hshowing]
                rfl
          | cons seconds rests ih =>
              have hnext : steps s o (m + 1) q
                  = attend (steps s o m q).run ⟨seconds :: rests, fails⟩ := by
                rw [steps, step, hgoes, hwait, hshowing]
              have hgoes' : (steps s o (m + 1) q).run.outcome = none := by
                rw [hnext]
                exact hgoes
              obtain ⟨l, hwait', hsame, hgoes'', hl⟩ := wait_ends _ hgoes'
              have hshowing' : (steps s o l q).showing
                  = some ⟨rests, fails⟩ := by
                rw [hsame, hnext]
                rfl
              obtain ⟨k, hk, hk', hsettled⟩ := ih l hwait' hgoes'' hshowing'
              refine ⟨k, hk, hk', hsettled.trans (hl.trans ?_)⟩
              rw [hnext, settled_attend, settled, hwait, hshowing]
              rfl

/-- Every step of the run is taken. -/
theorem run_steps (k : Nat) {q : LoneTask} (h : q.Poised) :
    ∃ n, (steps s o n q).wait = .nothing
      ∧ (steps s o n q).showing = none
      ∧ (steps s o n q).settled = Solo.run s o k q.settled := by
  induction k with
  | zero => exact steps_wake 0 h
  | succ k ih =>
      obtain ⟨n, hwait, hshowing, hn⟩ := ih
      rw [Solo.run_succ, ← hn]
      cases hnone : (steps s o n q).run.outcome with
      | some outcome =>
          refine ⟨n, hwait, hshowing, (Solo.step_over ?_).symm⟩
          rw [settled_idle hwait hshowing, hnone]
          rfl
      | none =>
          obtain ⟨m, hwait', hshowing', hm⟩ := steps_wake (s := s) (o := o)
            (n + 1) h
          refine ⟨m, hwait', hshowing', hm.trans ?_⟩
          rw [settled_idle hwait hshowing, steps, step, hnone, hwait, hshowing]
          exact settled_act hnone

/-- Whether a program ends as a run on the event loop under an observer. -/
def Ends (s : Scene) (o : Observer) (p : Program) (a : Agent) (r : Solo) :
    Prop :=
  ∃ n, (steps s o n (start p a)).run = r ∧ r.outcome.isSome = true

/-- It ends as it does if no notice is taken of its waits. -/
theorem ends_iff {p : Program} {a : Agent} {r : Solo} :
    Ends s o p a r ↔
      ∃ k, Solo.run s o k (.start p a true) = r
        ∧ r.outcome.isSome = true := by
  have hstart : (start p a).Poised := nofun
  constructor
  · rintro ⟨n, rfl, hover⟩
    obtain ⟨k, hk⟩ := steps_settled (s := s) (o := o) n (start p a)
    obtain ⟨hwait, hshowing⟩ := steps_poised n hstart hover
    rw [settled_idle hwait hshowing] at hk
    exact ⟨k, hk.symm, hover⟩
  · rintro ⟨k, rfl, hover⟩
    obtain ⟨n, hwait, hshowing, hn⟩ := run_steps (s := s) (o := o) k hstart
    rw [settled_idle hwait hshowing] at hn
    exact ⟨n, hn, hover⟩

end LoneTask

end

attribute [local instance] Arithmetic.binary64

/-- A stage of doubles is charted if its columns and rows are below the
    bound, should it be a grid. -/
theorem charted_doubles {s : Scene}
    (h : s.config.mode ≠ .canvas → ∃ columns rows : Int,
      s.config.Counted columns rows ∧ (columns : Rat) < Binary64.bound
        ∧ (rows : Rat) < Binary64.bound) : s.Charted := by
  -- whether there is a goal makes no difference to the grid
  have hgrid : s.config.mode ≠ .canvas → ∃ columns rows,
      Scene.Measured { s with goal := none } columns rows := by
    intro hmode
    obtain ⟨columns, rows, hcounted, hcolumns, hrows⟩ := h hmode
    exact ⟨columns, rows,
      Solo.measured_doubles hmode hcounted hcolumns hrows nofun⟩
  constructor
  · intro hmode
    obtain ⟨columns, rows, hmeasured⟩ := hgrid hmode
    exact ⟨columns, rows, hmeasured.counted, hmeasured.cells⟩
  · intro hmode
    obtain ⟨columns, rows, hmeasured⟩ := hgrid hmode
    exact hmeasured.headings

open LoneTask (Ends)

/-- Observing a run does not change it.  Whatever its observer does, it ends
    as if there were no waits; and whether its observer sleeps for no time or
    not at all, it ends with the same agent, outcome, truncations, clock and
    snapshots.  Without an observer it ends in the same way, but for the
    snapshots, unless with one it ends because its agent cannot be shown.
    That never happens if the run says only text and its agent can
    be shown once it has been brought onto the playfield, and on a grid of
    doubles if its columns and rows are below the bound. -/
theorem observed_alike (s : Scene) (p : Program) (a : Agent) :
    (∀ o r, Ends s o p a r ↔
        ∃ k, Solo.run s o k (.start p a true) = r
          ∧ r.outcome.isSome = true)
      ∧ (∀ o : Observer, o.Glances → ∀ r,
          Ends s o p a r ↔ Ends s (.quiet .present) p a r)
      ∧ (∀ r, Ends s (.quiet .present) p a r →
          r.Unshown ∨ Ends s (.quiet .absent) p a r.unseen)
      ∧ (∀ z, Ends s (.quiet .absent) p a z →
          ∃ r, Ends s (.quiet .present) p a r ∧ (r.Unshown ∨ r.unseen = z))
      ∧ (Instruction.EveryOf Instruction.IsSpoken p →
          (s.config.mode ≠ .canvas → ∃ columns rows : Int,
            s.config.Counted columns rows
              ∧ (columns : Rat) < Binary64.bound
              ∧ (rows : Rat) < Binary64.bound) →
          (∀ point, clampPosition s.config a.position = .ok point →
            Agent.Showable { a with position := point.position }) →
          (∀ r, Ends s (.quiet .present) p a r →
              Ends s (.quiet .absent) p a r.unseen)
            ∧ ∀ z, Ends s (.quiet .absent) p a z →
              ∃ r, Ends s (.quiet .present) p a r ∧ r.unseen = z) := by
  refine ⟨fun _ _ => LoneTask.ends_iff, ?_⟩
  simp only [LoneTask.ends_iff]
  refine ⟨fun o ho r => ?_, ?_, ?_, ?_⟩
  · simp only [Solo.run_glancing ho]
  · rintro r ⟨k, rfl, hover⟩
    refine (Solo.run_unseen k).imp id fun heq => ⟨k, heq, hover⟩
  · rintro z ⟨k, rfl, hover⟩
    have hsame := Solo.run_unseen (s := s) (r := .start p a true) k
    refine ⟨Solo.run s (.quiet .present) k (.start p a true), ⟨k, rfl, ?_⟩,
      hsame.imp id Eq.symm⟩
    rcases hsame with ⟨ms, -, houtcome⟩ | heq
    · rw [houtcome]
      rfl
    · exact (congrArg (fun r : Solo => r.outcome.isSome) heq).symm.trans hover
  · intro hp hsize ha
    have hsame : ∀ k, Solo.run s (.quiet .absent) k (.start p a true)
        = (Solo.run s (.quiet .present) k (.start p a true)).unseen :=
      fun k => Solo.run_unseen_of k fun j _ =>
        Solo.start_presentable (charted_doubles hsize) hp ha j
    constructor
    · rintro r ⟨k, rfl, hover⟩
      exact ⟨k, hsame k, hover⟩
    · rintro z ⟨k, rfl, hover⟩
      refine ⟨_, ⟨k, rfl, ?_⟩, (hsame k).symm⟩
      rw [hsame k] at hover
      exact hover

/-- A text said and a step made, by an agent on an open grid. -/
theorem observed_alike_greetings :
    ∃ r, Ends Solo.openGrid (.quiet .present) Solo.greetings
          (.atStart (.str "a") [0, 0] 90) r
        ∧ r.shown.length = 6
        ∧ Ends Solo.openGrid .yielding Solo.greetings
          (.atStart (.str "a") [0, 0] 90) r
        ∧ Ends Solo.openGrid (.quiet .absent) Solo.greetings
          (.atStart (.str "a") [0, 0] 90) r.unseen := by
  obtain ⟨hends, halike, -, -, hsame⟩ := observed_alike Solo.openGrid
    Solo.greetings (.atStart (.str "a") [0, 0] 90)
  have hpresent := (hends (.quiet .present) _).2 ⟨40, rfl, by decide +kernel⟩
  have hglances : Observer.yielding.Glances :=
    ⟨rfl, fun _ => rfl, fun _ => rfl, by simp [Observer.yielding]; decide⟩
  refine ⟨_, hpresent, by decide +kernel, (halike _ hglances _).2 hpresent,
    (hsame ?_ ?_ ?_).1 _ hpresent⟩
  · exact ⟨⟨trivial, ⟨_, rfl⟩, trivial, trivial⟩, trivial⟩
  · exact fun _ => ⟨10, 10, ⟨rfl, rfl⟩, by decide +kernel, by decide +kernel⟩
  · rintro point hplaced
    cases hplaced
    exact ⟨_, rfl⟩

/-- An agent with a heading that is too large for a snapshot. -/
def spunAgent : Agent := .atStart (.str "a") [0, 0] (.int (10 ^ 400))

/-- A program that waits for no time. -/
def idleWait : Program := [.wait 0]

/-- Without an observer it comes to its end; with one it fails, because the
    agent cannot be shown. -/
theorem observed_spun :
    Instruction.EveryOf Instruction.IsSpoken idleWait
      ∧ ∃ z r, Ends Solo.openGrid (.quiet .absent) idleWait spunAgent z
        ∧ z.isFinished = true
        ∧ Ends Solo.openGrid (.quiet .present) idleWait spunAgent r
        ∧ r.isFinished = false ∧ r.Unshown := by
  have hends : (Solo.run Solo.openGrid (.quiet .absent) 20
      (.start idleWait spunAgent true)).isFinished = true := by
    decide +kernel
  have hfails : (Solo.run Solo.openGrid (.quiet .present) 20
      (.start idleWait spunAgent true)).isFinished = false := by
    decide +kernel
  rcases Solo.run_unseen (s := Solo.openGrid)
    (r := .start idleWait spunAgent true) 20 with hunshown | hsame
  · have hover : (Solo.run Solo.openGrid (.quiet .present) 20
        (.start idleWait spunAgent true)).outcome.isSome = true := by
      obtain ⟨ms, -, houtcome⟩ := hunshown
      rw [houtcome]
      rfl
    exact ⟨⟨trivial, trivial⟩, _, _,
      LoneTask.ends_iff.2 ⟨20, rfl, Solo.isFinished_over hends⟩, hends,
      LoneTask.ends_iff.2 ⟨20, rfl, hover⟩, hfails, hunshown⟩
  · have hfinished := congrArg Solo.isFinished hsame
    rw [Solo.start_unseen, Solo.unseen_isFinished, hends, hfails] at hfinished
    cases hfinished

end BlockStage
