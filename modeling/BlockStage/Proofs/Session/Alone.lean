import BlockStage.Proofs.Run.Closings
import BlockStage.Proofs.Session.Moves
import BlockStage.Proofs.Stage.Snapshot

/-! # Alone — what an agent's part in a session is compared with

    An agent's program can be run without a session: from the agent's
    start, with an observer of the same kind that neither stops the run nor
    fails, and on a clock of its own.  `alone` is such a run after a number
    of steps, `wholly` the same to its end.  `Part` says that an agent's
    part in a session stands where such a run stands, and `Part.acts` that
    it still does so when the agent acts. -/

namespace BlockStage

namespace Agent

/-- Whether an event shows an agent, which is known by its name. -/
def owns (a : Agent) (e : Event) : Bool :=
  match a.id with
  | .str s => s == e.snapshot.agentId
  | _ => false

/-- The snapshots of an agent among events. -/
def shownIn (a : Agent) (es : List Event) : List Snapshot :=
  (es.filter a.owns).map (·.snapshot)

variable {a b : Agent} {es fs : List Event} {s : Snapshot} {now : Time}

theorem shownIn_congr (h : b.id = a.id) : b.shownIn es = a.shownIn es := by
  unfold shownIn owns
  rw [h]

theorem shownIn_append :
    a.shownIn (es ++ fs) = a.shownIn es ++ a.shownIn fs := by
  simp [shownIn]

theorem shownIn_reverse : a.shownIn es.reverse = (a.shownIn es).reverse := by
  simp [shownIn, List.filter_reverse]

variable [Arithmetic]

/-- A snapshot of an agent is among its own. -/
theorem shownIn_own (h : Snapshot.ofAgent a = .ok s) :
    a.shownIn [⟨now, s⟩] = [s] := by
  obtain ⟨hid, -⟩ := Snapshot.ofAgent_ok.1 h
  simp [shownIn, owns, hid]

/-- A snapshot of an agent is not among those of an agent of another
    name. -/
theorem shownIn_other (h : Snapshot.ofAgent a = .ok s) (hne : b.id ≠ a.id) :
    b.shownIn [⟨now, s⟩] = [] := by
  obtain ⟨hid, -⟩ := Snapshot.ofAgent_ok.1 h
  unfold shownIn owns
  cases hb : b.id with
  | str name =>
      have hname : (name == s.agentId) = false := by
        rw [beq_eq_false_iff_ne]
        rintro rfl
        exact hne (hb.trans hid.symm)
      simp [hname]
  | _ => simp

end Agent

/-- What a verdict shows belongs to the agent that it is about, and to no
    agent of another name. -/
theorem verdict_shown [Arithmetic] {o : Observer} {count : Nat} {now : Time}
    {a b : Agent} {running : Bool} {signal : Signal} :
    (b.id = a.id →
      b.shownIn (verdict o count now a running signal).shown
        = (verdict o count now a running signal).shown.map (·.snapshot))
      ∧ (b.id ≠ a.id →
        b.shownIn (verdict o count now a running signal).shown = []) := by
  have hnone : ∀ e : Verdict, e.shown = [] →
      (b.id = a.id → b.shownIn e.shown = e.shown.map (·.snapshot))
        ∧ (b.id ≠ a.id → b.shownIn e.shown = []) := by
    intro e he
    rw [he]
    exact ⟨fun _ => rfl, fun _ => rfl⟩
  cases signal with
  | emit =>
      rcases verdict_emit o count now a running with
        ⟨-, heq⟩ | ⟨-, ms, -, heq⟩ | ⟨-, snapshot, hshow, heq⟩
      · exact hnone _ (by rw [heq])
      · exact hnone _ (by rw [heq])
      · rw [heq]
        refine ⟨fun hid => ?_, fun hne => Agent.shownIn_other hshow hne⟩
        rw [Agent.shownIn_congr hid, Agent.shownIn_own hshow]
        rfl
  | _ => exact hnone _ rfl

namespace World

variable {c : Coordinator} {p : Program} {a₀ : Agent} {k : Nat}

/-! ## Runs alone -/

/-- A program about to be run alone: its agent is back at its start, with
    no message and no goal reached.  A ceiling that guards nothing is
    refused first. -/
def outset (c : Coordinator) (p : Program) (a : Agent) : Solo :=
  match checkCeiling c.config.loopCeiling with
  | .error f => { Solo.start p a.reset true with outcome := some (.failed f) }
  | .ok _ => .start p a.reset true

theorem outset_spec (c : Coordinator) (p : Program) (a : Agent) :
    (outset c p a).agent = a.reset ∧ (outset c p a).walker = .start p
      ∧ (outset c p a).shown = [] ∧ (outset c p a).running = true := by
  unfold outset
  split <;> exact ⟨rfl, rfl, rfl, rfl⟩

/-- With a ceiling that is accepted a run alone begins like any other. -/
theorem outset_ok {v : Value}
    (h : checkCeiling c.config.loopCeiling = .ok v) :
    outset c p a₀ = .start p a₀.reset true := by
  unfold outset
  rw [h]

/-- A ceiling that is refused ends the run before it has begun. -/
theorem outset_error {f : RunFault}
    (h : checkCeiling c.config.loopCeiling = .error f) :
    (outset c p a₀).outcome = some (.failed f) := by
  unfold outset
  rw [h]

section

variable [Arithmetic]

/-- A program run alone, after a number of steps. -/
def alone (c : Coordinator) (p : Program) (a : Agent) (k : Nat) : Solo :=
  Solo.run (scene c) (.quiet c.observer.mode) k (outset c p a)

/-- A program run alone, after as many steps as it costs and one more. -/
def wholly (c : Coordinator) (p : Program) (a : Agent) : Solo :=
  alone c p a (Act.cost c.config.loopCeiling (Walker.start p).todo + 1)

theorem alone_succ :
    alone c p a₀ (k + 1)
      = (alone c p a₀ k).step (scene c) (.quiet c.observer.mode) :=
  Solo.run_succ k

/-- Nobody stops a run alone. -/
theorem alone_keeps (c : Coordinator) (p : Program) (a₀ : Agent) (k : Nat) :
    (alone c p a₀ k).running = true
      ∧ (alone c p a₀ k).outcome ≠ some .halted := by
  unfold alone outset
  split
  · rename_i f _
    rw [show ∀ r : Solo, r.outcome = some (.failed f) →
        Solo.run (scene c) (.quiet c.observer.mode) k r = r by
      intro r hr
      cases k with
      | zero => rfl
      | succ k => rw [Solo.run, hr]]
    · refine ⟨rfl, fun hhalted => ?_⟩
      cases hhalted
    · rfl
  · exact Solo.quiet_keeps rfl rfl k

theorem alone_named (c : Coordinator) (p : Program) (a₀ : Agent) (k : Nat) :
    (alone c p a₀ k).agent.id = a₀.id := by
  rw [alone, Solo.run_named, (outset_spec c p a₀).1]
  rfl

theorem alone_grounded (hmode : c.config.mode ≠ .canvas) :
    Act.Grounded (alone c p a₀ k).walker.todo := by
  refine Solo.run_keeps (P := fun r => Act.Grounded r.walker.todo) ?_
    (fun r hr hnone => Solo.grounded_step hmode hr hnone) k
  rw [(outset_spec c p a₀).2.1]
  exact Walker.start_grounded p

/-- On the grid a run alone comes to its end. -/
theorem wholly_over (hmode : c.config.mode ≠ .canvas) (p : Program)
    (a₀ : Agent) : (wholly c p a₀).outcome.isSome = true := by
  unfold wholly alone
  rw [← (outset_spec c p a₀).2.1]
  refine Solo.run_ends (s := scene c) hmode ?_
  rw [(outset_spec c p a₀).2.1]
  exact Walker.start_grounded p

/-- On the grid it makes no difference to a run alone how long an observer of
    its snapshots sleeps. -/
theorem wholly_gentle (hmode : c.config.mode ≠ .canvas) (p : Program)
    (a₀ : Agent) {o : Observer} (hkind : o.mode = c.observer.mode)
    (ho : ∀ k, (o.reaction k).fails = false
      ∧ (o.reaction k).stops = false) :
    ∃ r, r = Solo.run (scene c) o
        (Act.cost c.config.loopCeiling (Walker.start p).todo + 1)
        (outset c p a₀)
      ∧ r.agent = (wholly c p a₀).agent
      ∧ r.outcome = (wholly c p a₀).outcome
      ∧ r.events.map (·.snapshot)
        = (wholly c p a₀).events.map (·.snapshot) := by
  have hground : Act.Grounded (outset c p a₀).walker.todo := by
    rw [(outset_spec c p a₀).2.1]
    exact Walker.start_grounded p
  obtain ⟨hagent, -, -, hshown, hout⟩ := Solo.run_gentle (s := scene c)
    (o := .quiet c.observer.mode) hmode hkind
    (fun _ => ⟨rfl, rfl⟩) ho hground
    (Act.cost c.config.loopCeiling (Walker.start p).todo + 1)
  refine ⟨_, rfl, hagent, hout, ?_⟩
  rw [Solo.events, Solo.events, List.map_reverse, List.map_reverse]
  exact congrArg List.reverse hshown

/-- A run alone that is over has been run wholly. -/
theorem alone_over (hmode : c.config.mode ≠ .canvas)
    (h : (alone c p a₀ k).outcome.isSome = true) :
    alone c p a₀ k = wholly c p a₀ := by
  have hwhole := wholly_over hmode p a₀
  rcases Nat.le_total k
    (Act.cost c.config.loopCeiling (Walker.start p).todo + 1) with hle | hle
  · exact (Solo.run_over h hle).symm
  · exact Solo.run_over hwhole hle

/-- What was shown alone early on is shown alone in the end. -/
theorem alone_shown (hmode : c.config.mode ≠ .canvas) :
    (alone c p a₀ k).shown <:+ (wholly c p a₀).shown := by
  have hstep : ∀ j, (alone c p a₀ j).shown <:+ (alone c p a₀ (j + 1)).shown := by
    intro j
    rw [alone_succ]
    cases hnone : (alone c p a₀ j).outcome with
    | some o =>
        have hsame := Solo.step_over (s := scene c)
          (o := .quiet c.observer.mode) (r := alone c p a₀ j)
          (by rw [hnone]; rfl)
        exact hsame.symm ▸ List.suffix_refl _
    | none =>
        obtain ⟨-, -, hshown, -⟩ := Solo.step_spec (s := scene c)
          (o := .quiet c.observer.mode) hnone
        rw [hshown]
        exact List.suffix_append _ _
  have hmono : ∀ i j, i ≤ j →
      (alone c p a₀ i).shown <:+ (alone c p a₀ j).shown := by
    intro i j hle
    induction hle with
    | refl => exact List.suffix_refl _
    | step _ ih => exact ih.trans (hstep _)
  have hwhole := wholly_over hmode p a₀
  rcases Nat.le_total k
    (Act.cost c.config.loopCeiling (Walker.start p).todo + 1) with hle | hle
  · exact hmono _ _ hle
  · have hsame : alone c p a₀ k = wholly c p a₀ := Solo.run_over hwhole hle
    exact hsame ▸ List.suffix_refl _

/-! ## Snapshots of a run alone -/

/-- A step of a run alone shows an event. -/
structure Shows (c : Coordinator) (p : Program) (a₀ : Agent) (k : Nat)
    (e : Event) : Prop where
  observed : c.observer.mode ≠ .absent
  goes : (alone c p a₀ k).outcome = none
  due : (alone c p a₀ k).walker.todo
    = .emit :: (alone c p a₀ (k + 1)).walker.todo
  shown : (alone c p a₀ (k + 1)).shown = e :: (alone c p a₀ k).shown

/-- A step of a run alone shows an event, and with it a wait ends or a
    message is taken down. -/
structure Concludes (c : Coordinator) (p : Program) (a₀ : Agent) (k : Nat)
    (e : Event) : Prop where
  shown : (alone c p a₀ (k + 1)).shown = e :: (alone c p a₀ k).shown
  closes : Solo.Closes (scene c) (.quiet c.observer.mode) (outset c p a₀) k

/-- On the grid what a run alone shows right in front of a check ends a wait
    or takes a message down. -/
theorem Shows.concludes {e : Event} (h : Shows c p a₀ k e)
    (hmode : c.config.mode ≠ .canvas) {rest : List Act}
    (hcheck : (alone c p a₀ (k + 1)).walker.todo = .check :: rest) :
    Concludes c p a₀ k e := by
  have hfresh : Act.Fresh (outset c p a₀).walker.todo := by
    rw [(outset_spec c p a₀).2.1]
    exact Walker.start_fresh p
  have hdue := h.due
  rw [hcheck] at hdue
  exact ⟨h.shown, Solo.closes hmode h.observed hfresh h.goes hdue⟩

end

/-! ## Parts -/

/-- Where an agent's part in a session stands, compared with a run alone:
    it has not set out, it goes on, it is over as the run is, it was
    stopped at a check of the run because the flag was down, or it was
    killed. -/
inductive Stands (c : Coordinator) (a₀ : Agent) (cut : Bool)
    (t : AgentTask) (a : Agent) (r : Solo) : Prop
  | waits : t.walker = none → t.ending = none →
      r = outset c t.program a₀ → a = r.agent → Stands c a₀ cut t a r
  | runs : t.walker = some r.walker → t.ending = none → r.outcome = none →
      a = r.agent → Stands c a₀ cut t a r
  | ends {o : Outcome} : r.outcome = some o →
      t.ending = some (o.toEnd false) → Stands c a₀ cut t a r
  | stopped {rest : List Act} : cut = true → r.outcome = none →
      r.walker.todo = .check :: rest → t.ending = some .returned →
      Stands c a₀ cut t a r
  | killed : t.doomed = true → t.ending = some .killed →
      Stands c a₀ cut t a r

/-- An agent's part in a session and a run alone: the same snapshots, times
    aside, and the same place, heading and message.  The observer of the
    session raises no error about any of them. -/
structure Part [Arithmetic] (c : Coordinator) (a₀ : Agent) (cut : Bool)
    (t : AgentTask) (a : Agent) (shown : List Snapshot) (r : Solo) :
    Prop where
  shown : shown = r.shown.map (·.snapshot)
  position : a.position = r.agent.position
  heading : a.heading = r.agent.heading
  message : a.message = r.agent.message
  kind : ∀ e, t.showing = some e → e.fails = false
  /-- Whoever is being shown has just been shown in the run alone. -/
  sees : t.showing.isSome = true →
    ∃ k e, r = alone c t.program a₀ (k + 1) ∧ Shows c t.program a₀ k e
  stands : Stands c a₀ cut t a r

variable {cut : Bool} {t : AgentTask} {a : Agent} {shown : List Snapshot}

/-- A part that has set out and not ended goes on as the run alone. -/
theorem Stands.acting {r : Solo} {walker : Walker}
    (h : Stands c a₀ cut t a r) (hwalk : t.walker = some walker)
    (hend : t.ending = none) :
    walker = r.walker ∧ r.outcome = none ∧ a = r.agent := by
  cases h with
  | runs hw _ hr ha =>
      rw [hwalk] at hw
      exact ⟨Option.some.inj hw, hr, ha⟩
  | waits hno => rw [hno] at hwalk; cases hwalk
  | ends _ hno => rw [hend] at hno; cases hno
  | stopped _ _ _ hno => rw [hend] at hno; cases hno
  | killed _ hno => rw [hend] at hno; cases hno

/-- A part that has not set out and not ended is where the run alone
    begins. -/
theorem Stands.waiting {r : Solo} (h : Stands c a₀ cut t a r)
    (hwalk : t.walker = none) (hend : t.ending = none) :
    r = outset c t.program a₀ ∧ a = r.agent := by
  cases h with
  | waits _ _ hr ha => exact ⟨hr, ha⟩
  | runs hno => rw [hno] at hwalk; cases hwalk
  | ends _ hno => rw [hend] at hno; cases hno
  | stopped _ _ _ hno => rw [hend] at hno; cases hno
  | killed _ hno => rw [hend] at hno; cases hno

/-- A part stands where it stood when it is doomed. -/
theorem Stands.doomed {r : Solo} (h : Stands c a₀ cut t a r) :
    Stands c a₀ cut { t with doomed := true } a r := by
  cases h with
  | waits hwalk hend hr ha => exact .waits hwalk hend hr ha
  | runs hwalk hend hr ha => exact .runs hwalk hend hr ha
  | ends ho hend => exact .ends ho hend
  | stopped hcut ho hr hend => exact .stopped hcut ho hr hend
  | killed _ hend => exact .killed rfl hend

/-- A part that sets out goes on. -/
theorem Stands.setsOut {r : Solo} {ceiling : Value}
    (h : Stands c a₀ cut t a r) (hwalk : t.walker = none)
    (hend : t.ending = none)
    (hceil : checkCeiling c.config.loopCeiling = .ok ceiling) :
    Stands c a₀ cut { t with walker := some (.start t.program) } a r := by
  obtain ⟨hr, ha⟩ := h.waiting hwalk hend
  rw [outset_ok hceil] at hr
  exact .runs (by rw [hr]; rfl) hend (by rw [hr]; rfl) ha

/-- A part that is refused ends as the run alone does. -/
theorem Stands.refused {r : Solo} {f : RunFault}
    (h : Stands c a₀ cut t a r) (hwalk : t.walker = none)
    (hend : t.ending = none)
    (hceil : checkCeiling c.config.loopCeiling = .error f) :
    Stands c a₀ cut
      { t with showing := none, ending := some (.failed f) } a r := by
  obtain ⟨hr, -⟩ := h.waiting hwalk hend
  exact .ends (o := .failed f) (by rw [hr]; exact outset_error hceil) rfl

section

variable [Arithmetic]

/-- A part stands where it stood while the observer goes on with what it
    is shown. -/
theorem Part.attends {r : Solo} {e : Errand} {showing : Option Errand}
    (h : Part c a₀ cut t a shown r) (hshow : t.showing = some e)
    (hleaves : e.Leaves showing) :
    Part c a₀ cut { t with showing := showing } a shown r := by
  refine ⟨h.shown, h.position, h.heading, h.message, ?_,
    fun _ => h.sees (by rw [hshow]; rfl), ?_⟩
  · rintro _ rfl
    cases hleaves with
    | rests => exact h.kind e hshow
  · cases h.stands with
    | waits hw he hr ha => exact .waits hw he hr ha
    | runs hw he hr ha => exact .runs hw he hr ha
    | ends ho he => exact .ends ho he
    | stopped hc ho hr he => exact .stopped hc ho hr he
    | killed hd he => exact .killed hd he

/-- Where a part stands is said with the flag up or down. -/
theorem Part.cuts {r : Solo} (h : Part c a₀ cut t a shown r) :
    Part c a₀ true t a shown r := by
  refine ⟨h.shown, h.position, h.heading, h.message, h.kind, h.sees,
    ?_⟩
  cases h.stands with
  | waits hw he hr ha => exact .waits hw he hr ha
  | runs hw he hr ha => exact .runs hw he hr ha
  | ends ho he => exact .ends ho he
  | stopped _ ho hr he => exact .stopped rfl ho hr he
  | killed hd he => exact .killed hd he

/-- A part that has ended does not depend on the agent's flag. -/
theorem Part.ended {r : Solo} {b : Agent} (h : Part c a₀ cut t a shown r)
    (hend : t.ending.isSome = true) (hb : ∃ g, b = { a with goalReached := g }) :
    Part c a₀ cut t b shown r := by
  obtain ⟨g, rfl⟩ := hb
  refine ⟨h.shown, h.position, h.heading, h.message, h.kind, h.sees,
    ?_⟩
  cases h.stands with
  | waits _ he => rw [he] at hend; cases hend
  | runs _ he => rw [he] at hend; cases hend
  | ends ho he => exact .ends ho he
  | stopped hc ho hr he => exact .stopped hc ho hr he
  | killed hd he => exact .killed hd he

/-- A part that was stopped at a check of the run alone stays behind it. -/
theorem Part.stops {walker : Walker} {rest : List Act}
    (h : Part c a₀ cut t a shown (alone c t.program a₀ k))
    (hgoes : (alone c t.program a₀ k).outcome = none)
    (htodo : (alone c t.program a₀ k).walker.todo = .check :: rest) :
    Part c a₀ true
      { t with
        walker := some walker
        showing := none
        ending := some (Outcome.halted.toEnd t.doomed) }
      a shown (alone c t.program a₀ k) where
  shown := h.shown
  position := h.position
  heading := h.heading
  message := h.message
  kind _ hno := by cases hno
  sees hno := by cases hno
  stands := by
    rcases Outcome.toEnd_cases t.doomed .halted with hsame | ⟨hdoom, hkill⟩
    · exact .stopped rfl hgoes htodo (congrArg some hsame)
    · exact .killed hdoom (congrArg some hkill)

/-- A step of a run alone that shows one snapshot and goes on has shown what
    was due. -/
theorem Shows.of_step {p : Program} {snapshot : Snapshot}
    (hobserved : c.observer.mode ≠ .absent)
    (hgoes : (alone c p a₀ k).outcome = none)
    (hgoes' : (alone c p a₀ (k + 1)).outcome = none)
    (hemit : ((alone c p a₀ k).next (scene c)).signal = .emit)
    (hone : ((alone c p a₀ k).nextVerdict (scene c)
      (.quiet c.observer.mode)).shown.map (·.snapshot) = [snapshot]) :
    ∃ e, Shows c p a₀ k e := by
  obtain ⟨-, hwalker, hshown, -⟩ :=
    Solo.step_spec (s := scene c) (o := .quiet c.observer.mode) hgoes
  rw [← alone_succ] at hwalker hshown
  have hadv := Solo.advances (o := .quiet c.observer.mode) hgoes
    (alone_succ (c := c) ▸ hgoes')
  obtain ⟨e, hone⟩ := List.length_eq_one_iff.1
    ((List.length_map _).symm.trans (congrArg List.length hone))
  refine ⟨e, hobserved, hgoes, ?_, ?_⟩
  · rw [hwalker]
    exact (hadv.showing hemit).1
  · rw [hshown, hone]
    rfl

/-- A part that takes the next step of the run alone shows and becomes what
    the run does. -/
theorem Part.steps {running : Bool} {count : Nat} {now : Time} {n : Step}
    {e : Verdict} {cut' : Bool}
    (h : Part c a₀ cut t a shown (alone c t.program a₀ k))
    (hgoes : (alone c t.program a₀ k).outcome = none)
    (hn : n = (alone c t.program a₀ k).next (scene c))
    (hid : n.agent.id = a₀.id)
    (he : e = verdict c.observer.prompt count now n.agent running n.signal)
    (hsink : (c.observer.reaction (count + 1)).fails = false) :
    Part c a₀ cut'
      { t with
        walker := some n.walker
        showing := c.observer.errand? count e.shown
        ending := e.outcome.map (Outcome.toEnd t.doomed) }
      n.agent (a₀.shownIn e.shown ++ shown)
      (alone c t.program a₀ (k + 1)) := by
  obtain ⟨hagent, hwalker, hshown, -, houtcome⟩ :=
    Solo.step_spec (s := scene c) (o := .quiet c.observer.mode) hgoes
  rw [← alone_succ] at hagent hwalker hshown houtcome
  obtain ⟨hsent, hseen⟩ := verdict_congr c.observer.prompt
    (.quiet c.observer.mode) count
    (alone c t.program a₀ k).shown.length now
    (alone c t.program a₀ k).now running
    (alone c t.program a₀ k).running n.agent n.signal rfl rfl rfl
  have hverdict : (alone c t.program a₀ k).nextVerdict (scene c)
      (.quiet c.observer.mode)
      = verdict (.quiet c.observer.mode)
        (alone c t.program a₀ k).shown.length
        (alone c t.program a₀ k).now n.agent
        (alone c t.program a₀ k).running n.signal := by
    rw [Solo.nextVerdict, ← hn]
  rw [← hverdict, ← he] at hsent hseen
  rw [← hn] at hagent hwalker
  rw [hsent] at houtcome
  refine ⟨?_, ?_, ?_, ?_, fun x hx => ?_, fun hsome => ?_, ?_⟩
  · rw [hshown, List.map_append, hseen, ← h.shown, he,
      verdict_shown.1 hid.symm]
  · rw [hagent]
  · rw [hagent]
  · rw [hagent]
  · obtain ⟨-, rfl⟩ := Observer.errand?_eq_some hx
    exact hsink
  · -- a snapshot was due, and the run alone has shown it too
    obtain ⟨x, hx⟩ := Option.isSome_iff_exists.1 hsome
    have hsome := (Observer.errand?_eq_some hx).1
    rw [he] at hsome
    obtain ⟨hemit, hobserved, ⟨snapshot, -, hone⟩, hgoes'⟩ :=
      verdict_shows hsome
    rw [he, hone] at hseen
    obtain ⟨x, hx⟩ := Shows.of_step hobserved hgoes
      (houtcome.trans (he ▸ hgoes' rfl)) (hn ▸ hemit) hseen
    exact ⟨k, x, rfl, hx⟩
  · cases hout : e.outcome with
    | none =>
        exact .runs (by rw [hwalker]) rfl (houtcome.trans hout) hagent.symm
    | some o =>
        rcases Outcome.toEnd_cases t.doomed o with hsame | ⟨hdoom, hkill⟩
        · exact .ends (houtcome.trans hout) (congrArg some hsame)
        · exact .killed hdoom (congrArg some hkill)

/-- On the grid an agent that acts takes the next step of its run alone,
    unless the flag is down and a check stops it. -/
theorem Part.acts {walker : Walker} {running : Bool} {count : Nat}
    {now : Time} {n : Step} {e : Verdict} (hmode : c.config.mode ≠ .canvas)
    (h : Part c a₀ cut t a shown (alone c t.program a₀ k))
    (hwalk : t.walker = some walker) (hend : t.ending = none)
    (hn : n = walker.step (scene c) now running a)
    (he : e = verdict c.observer.prompt count now n.agent running n.signal)
    (hsink : (c.observer.reaction (count + 1)).fails = false) :
    ∃ k', Part c a₀ (!e.running)
      { t with
        walker := some n.walker
        showing := c.observer.errand? count e.shown
        ending := e.outcome.map (Outcome.toEnd t.doomed) }
      n.agent (a₀.shownIn e.shown ++ shown) (alone c t.program a₀ k') := by
  have hup := (alone_keeps c t.program a₀ k).1
  obtain ⟨rfl, hgoes, ha⟩ := h.stands.acting hwalk hend
  by_cases hstop : running = false
      ∧ ∃ rest, (alone c t.program a₀ k).walker.todo = .check :: rest
  · -- the flag is down at a check
    obtain ⟨rfl, rest, htodo⟩ := hstop
    obtain ⟨log, heq⟩ := Walker.step_down (scene c) now a htodo
    rw [← hn] at heq
    subst heq
    subst he
    exact ⟨k, h.stops hgoes htodo⟩
  · -- the run alone takes the same step
    have hflags : running = true
        ∨ ∀ rest, (alone c t.program a₀ k).walker.todo ≠ .check :: rest := by
      cases running with
      | true => exact .inl rfl
      | false => exact .inr fun rest htodo => hstop ⟨rfl, rest, htodo⟩
    have hid : n.agent.id = a₀.id := by
      rw [hn, Walker.step_named, ha, alone_named]
    have hsame : n = (alone c t.program a₀ k).next (scene c) := by
      rw [hn, ha, Solo.next, hup]
      exact Walker.step_congr (s := scene c) hmode (alone_grounded hmode)
        hflags
    exact ⟨k + 1, h.steps hgoes hsame hid he hsink⟩

end

end World

end BlockStage
