import BlockStage.Proofs.Run.Arrival
import BlockStage.Proofs.Session.Attention
import BlockStage.Proofs.Session.Containment

/-! # Arrivals — whom a session counts in the goal

    The agents of a session know of the goal what they know on their own
    (`Noted`): one that stands in it has its flag up, unless it has not
    moved since it was brought onto the playfield.  Every deed keeps this
    (`Moves.heeded`).  So the coordinator, which looks at places, counts
    nobody whose flag is down, or who was shown last with its flag down, but
    those who have not moved (`Begins.notices`). -/

namespace BlockStage

open Act

namespace World

section

variable [Arithmetic] {c : Coordinator} {w v v' : World} {s s' : Session}
  {cast : List String} {n : Nat} {programs : List (String × Program)}
  {warnings : List (String × List WarningReport)} {a₀ a : Agent}
  {t : AgentTask} {own : List Snapshot} {news : List Event}

/-! ## Parts -/

/-- How an agent's part in a session stands with the goal, with what has
    been shown of the agent, the latest first: it has not begun, it is
    watched, it has come through, or it was broken off. -/
inductive Noted (c : Coordinator) (a₀ : Agent) (t : AgentTask) (a : Agent)
    (own : List Snapshot) : Prop
  | waits : t.ending = none →
      t.walker = none ∨ t.walker = some (.start t.program) →
      a = a₀.reset → own = [] → Noted c a₀ t a own
  | goes {walker : Walker} : t.ending = none → t.walker = some walker →
      a.Watched (scene c) c.observer.prompt a₀.reset walker.todo own →
      Noted c a₀ t a own
  | returned : t.ending = some .returned → a.Aware (scene c) a₀.reset →
      (∀ x ∈ own, x.Tells (scene c) a₀.reset) →
      (a.InGoal c.goal → ∀ x, own.head? = some x →
        x.goalReached = true ∨ x.OfStart c.config a₀.reset) →
      Noted c a₀ t a own
  | lost {e : AgentEnd} : t.ending = some e → e ≠ .returned →
      a.Aware (scene c) a₀.reset ∨ own = [] →
      (∀ x ∈ own, x.Tells (scene c) a₀.reset) → Noted c a₀ t a own

/-- Everything that was shown of an agent tells the truth about the goal. -/
theorem Noted.told (h : Noted c a₀ t a own) :
    ∀ x ∈ own, x.Tells (scene c) a₀.reset := by
  cases h with
  | waits _ _ _ hown => rw [hown]; exact List.forall_mem_nil _
  | goes _ _ hw => exact hw.told
  | returned _ _ htold => exact htold
  | lost _ _ _ htold => exact htold

/-- Whoever was shown, or has come through, is aware of the goal. -/
theorem Noted.aware (h : Noted c a₀ t a own) :
    a.Aware (scene c) a₀.reset
      ∨ own = [] ∧ t.ending ≠ some .returned := by
  cases h with
  | waits hend _ _ hown => exact .inr ⟨hown, by rw [hend]; exact nofun⟩
  | goes _ _ hw => exact .inl hw.aware
  | returned _ ha => exact .inl ha
  | lost hend hne hwhich =>
      refine hwhich.imp_right fun hown => ⟨hown, fun hno => hne ?_⟩
      rw [hend] at hno
      exact Option.some.inj hno

/-- A part that is doomed, sets out or is shown stands as it did. -/
theorem Noted.keeps {u : AgentTask} (h : Noted c a₀ t a own)
    (hend : u.ending = t.ending) (hprogram : u.program = t.program)
    (hwalk : u.walker = t.walker
      ∨ t.walker = none ∧ u.walker = some (.start t.program)) :
    Noted c a₀ u a own := by
  cases h with
  | waits hnone hstart hag hown =>
      refine .waits (hend.trans hnone) ?_ hag hown
      rw [hprogram]
      rcases hwalk with hsame | ⟨-, hset⟩
      · rw [hsame]
        exact hstart
      · exact .inr hset
  | goes hnone hw hwatch =>
      refine .goes (hend.trans hnone) (hwalk.resolve_right ?_ ▸ hw) hwatch
      rintro ⟨hno, -⟩
      rw [hw] at hno
      cases hno
  | returned hover ha htold hlast =>
      exact .returned (hend.trans hover) ha htold hlast
  | lost hover hne ha htold => exact .lost (hend.trans hover) hne ha htold

/-- A part that is broken off before it has come through. -/
theorem Noted.breaks {u : AgentTask} {e : AgentEnd}
    (h : Noted c a₀ t a own) (hend : u.ending = some e)
    (hne : e ≠ .returned) : Noted c a₀ u a own := by
  refine .lost hend hne ?_ h.told
  exact h.aware.imp_right And.left

/-- Once a part is over the coordinator may put the flag up. -/
theorem Noted.raised (h : Noted c a₀ t a own)
    (hover : t.ending.isSome = true) {g : Value}
    (hg : g = a.goalReached ∨ g = .bool true) :
    Noted c a₀ t { a with goalReached := g } own := by
  have haware : a.Aware (scene c) a₀.reset →
      Agent.Aware (scene c) { a with goalReached := g } a₀.reset := by
    intro ha
    rcases hg with rfl | rfl
    · exact ha
    · exact ha.raised
  cases h with
  | waits hend => rw [hend] at hover; cases hover
  | goes hend => rw [hend] at hover; cases hover
  | returned hend ha htold hlast =>
      exact .returned hend (haware ha) htold hlast
  | lost hend hne ha htold => exact .lost hend hne (ha.imp_left haware) htold

/-- An act of an agent. -/
theorem Noted.acts {walker : Walker} {m : Step} {e : Verdict} {now : Time}
    {running : Bool} {count : Nat} {moment : Time}
    (h : Noted c a₀ t a own) (hwalk : t.walker = some walker)
    (hend : t.ending = none)
    (hm : m = walker.step (scene c) now running a)
    (he : e = verdict c.observer.prompt count moment m.agent running
      m.signal) (showing : Option Errand) :
    Noted c a₀ { t with
      walker := some m.walker, showing := showing
      ending := e.outcome.map (Outcome.toEnd t.doomed) } m.agent
      (e.shown.map (·.snapshot) ++ own) := by
  cases h with
  | returned hover => rw [hend] at hover; cases hover
  | lost hover => rw [hend] at hover; cases hover
  | waits _ hstart hag hown =>
      have hstart : walker = .start t.program := by
        rcases hstart with hno | hset
        · rw [hno] at hwalk
          cases hwalk
        · exact Option.some.inj (hwalk.symm.trans hset)
      subst hstart hag hown
      obtain ⟨hquiet, ⟨hnone, hw⟩ | ⟨-, f, hf⟩⟩ := Walker.sets_out hm he
      · rw [hquiet, hnone]
        exact .goes rfl rfl hw
      · rw [hquiet, hf]
        exact .lost rfl nofun (.inr rfl) (List.forall_mem_nil _)
  | goes _ hw hwatch =>
      obtain rfl := Option.mem_unique hwalk hw
      rcases hwatch.step hm he with ⟨hw', hdue⟩ | ⟨⟨f, hf⟩, ha, htold⟩
      · cases hout : e.outcome with
        | none => exact .goes rfl rfl hw'
        | some o =>
            have hdue := hdue.resolve_left (by rw [hout]; exact nofun)
            have hlost : ∀ {u : AgentTask} {x : AgentEnd},
                u.ending = some x → x ≠ .returned →
                Noted c a₀ u m.agent _ := fun hover hne =>
              .lost hover hne (.inl hw'.aware) hw'.told
            have hreturned : ∀ {u : AgentTask},
                u.ending = some .returned → Noted c a₀ u m.agent _ :=
              fun hover => .returned hover hw'.aware hw'.told
                fun hin x hx => hw'.closed hdue rfl hin hx
            -- whoever comes through although it is doomed is killed
            cases o with
            | failed f => exact hlost rfl nofun
            | _ =>
                cases t.doomed with
                | true => exact hlost rfl nofun
                | false => exact hreturned rfl
      · rw [hf]
        exact .lost rfl nofun (.inl ha) htold

/-! ## Sessions -/

/-- How a part of a session that began at `w` stands with the goal, together
    with its agent and what has been shown since. -/
def Attends (c : Coordinator) (w : World) (news : List Event)
    (t : AgentTask) (a : Agent) : Prop :=
  ∃ a₀, w.agent? t.agentId = some a₀ ∧ a.id = a₀.id
    ∧ Noted c a₀ t a (a₀.shownIn news)

/-- Everybody's part in a session that began at `w` stands so, with what has
    been shown since. -/
def Heeded (c : Coordinator) (w : World) (cast : List String) (v : World)
    (s : Session) : Prop :=
  ∃ news, v.shown = news ++ w.shown ∧ Parts (Attends c w news) cast v s

/-- While nothing is shown it is enough that the parts stand as they did. -/
theorem Heeded.quiet (h : Heeded c w cast v s)
    (hshown : v'.shown = v.shown)
    (hparts : ∀ news, Parts (Attends c w news) cast v s →
      Parts (Attends c w news) cast v' s') : Heeded c w cast v' s' := by
  obtain ⟨news, hnews, hp⟩ := h
  exact ⟨news, hshown.trans hnews, hparts news hp⟩

/-- An act shows something of the agent that acts, and of no other. -/
theorem Heeded.acts (hb : Begins c w n cast programs warnings)
    (h : Heeded c w cast v s) {i : Nat} {walker : Walker} {m : Step}
    {e : Verdict} (ht : s.tasks[i]? = some t) (hwalk : t.walker = some walker)
    (hend : t.ending = none) (ha : v.agent? t.agentId = some a)
    (hm : m = walker.step (scene c) v.now s.running a)
    (he : e = verdict c.observer.prompt v.shown.length v.now m.agent
      s.running m.signal) (showing : Option Errand)
    (hagents : v'.agents = (v.setAgent t.agentId m.agent).agents)
    (hshown : v'.shown = e.shown ++ v.shown) :
    Heeded c w cast v' { s with
      tasks := s.tasks.modify i fun u => { u with
        walker := some m.walker, showing := showing
        ending := e.outcome.map (Outcome.toEnd t.doomed) }
      running := e.running } := by
  obtain ⟨news, hnews, hparts⟩ := h
  obtain ⟨a', ha', a₀, ha₀, hname, -⟩ :=
    hparts.parts t (List.mem_of_getElem? ht)
  obtain rfl := Option.mem_unique ha ha'
  -- the agent that acts is known by the name it began with
  have hid : m.agent.id = a₀.id := by
    rw [hm, Walker.step_named, hname]
  refine ⟨e.shown ++ news, by rw [hshown, hnews, List.append_assoc], ?_⟩
  refine hparts.acts hb.starts.known.1 v' (f := fun u => { u with
    walker := some m.walker, showing := showing
    ending := e.outcome.map (Outcome.toEnd t.doomed) })
    ht rfl ha hagents ?_ ?_
  · rintro u hu hne x ⟨x₀, hx₀, hnamed, hnoted⟩
    refine ⟨x₀, hx₀, hnamed, ?_⟩
    have hother : x₀.id ≠ m.agent.id := fun heq =>
      hne (hb.distinct _ (hparts.cast ▸ List.mem_map_of_mem hu) _
        (hparts.cast ▸ List.mem_map_of_mem (List.mem_of_getElem? ht))
        x₀ a₀ hx₀ ha₀ (heq.trans hid))
    rw [Agent.shownIn_append, he, verdict_shown.2 hother]
    exact hnoted
  · rintro ⟨b₀, hb₀, -, hnoted⟩
    obtain rfl := Option.mem_unique ha₀ hb₀
    refine ⟨a₀, ha₀, hid, ?_⟩
    have hown : a₀.shownIn e.shown = e.shown.map (·.snapshot) := by
      rw [he]
      exact verdict_shown.1 hid.symm
    rw [Agent.shownIn_append, hown]
    exact hnoted.acts hwalk hend hm he showing

/-- After every deed everybody's part stands so. -/
theorem Moves.heeded (hb : Begins c w n cast programs warnings)
    {d : Deed} (hm : Moves c v s d v') (hput : LeavesAlone cast d)
    (hs : v.session = some s) (h : Heeded c w cast v s)
    (hs' : v'.session = some s') : Heeded c w cast v' s' := by
  have hsame : ∀ u : Session, v'.session = some u →
      Heeded c w cast v' u → Heeded c w cast v' s' := by
    intro u hu hp
    rw [hu] at hs'
    exact Option.some.inj hs' ▸ hp
  have hscored : ∀ u : Session, v'.session = some u → u.tasks = s.tasks →
      (∀ b ∈ s.ended, b = true) → v'.agents = (v.scored c s).1 →
      v'.shown = v.shown → Heeded c w cast v' s' := by
    intro u hu htasks hover hagents hshown
    refine hsame _ hu (h.quiet hshown fun news hp =>
      hp.scored c htasks hover hagents ?_)
    rintro t a g hend hg ⟨a₀, ha₀, hname, hnoted⟩
    exact ⟨a₀, ha₀, hname, hnoted.raised hend hg⟩
  cases hm with
  | stays _ hk hu =>
      exact hsame _ hu (h.quiet hk.shown fun _ hp => hp.same rfl hk.agents)
  | lowers hk hu =>
      exact hsame _ hu (h.quiet hk.shown fun _ hp => hp.same rfl hk.agents)
  | puts => exact hsame _ hs (h.quiet rfl fun _ hp => hp.puts _ (hput _ _ rfl))
  | dooms hk hu =>
      refine hsame _ hu (h.quiet hk.shown fun _ hp =>
        hp.dooms v' hk.agents ?_)
      rintro t a ⟨a₀, ha₀, hname, hnoted⟩
      exact ⟨a₀, ha₀, hname, hnoted.keeps rfl rfl (.inl rfl)⟩
  | acts _ ht hwalk hend _ ha hstep he hagents hshown _ _ hu =>
      exact hsame _ hu
        (h.acts hb ht hwalk hend ha hstep he _ hagents hshown)
  | attends _ ht _ _ _ _ hk hu =>
      refine hsame _ hu (h.quiet hk.shown fun _ hp =>
        hp.sets v' (f := fun t => { t with showing := _ }) ht rfl hk.agents ?_)
      rintro a - ⟨a₀, ha₀, hname, hnoted⟩
      exact ⟨a₀, ha₀, hname, hnoted.keeps rfl rfl (.inl rfl)⟩
  | stumbles _ ht _ _ _ _ _ hk hu =>
      refine hsame _ hu (h.quiet hk.shown fun _ hp =>
        hp.sets v' (f := fun t => { t with
          showing := none, ending := some (.failed .observerFailed) })
          ht rfl hk.agents ?_)
      rintro a - ⟨a₀, ha₀, hname, hnoted⟩
      exact ⟨a₀, ha₀, hname, hnoted.breaks rfl nofun⟩
  | setsOut ht hwalk hend _ _ hk hu =>
      refine hsame _ hu (h.quiet hk.shown fun _ hp =>
        hp.sets v' (f := fun t => { t with walker := some (.start t.program) })
          ht rfl hk.agents ?_)
      rintro a - ⟨a₀, ha₀, hname, hnoted⟩
      exact ⟨a₀, ha₀, hname, hnoted.keeps rfl rfl (.inr ⟨hwalk, rfl⟩)⟩
  | @dies _ i t e ht hend hwhy hk hu =>
      have hne : e ≠ .returned := by
        rcases hwhy with ⟨-, rfl⟩ | ⟨-, -, f, -, rfl⟩
        · exact nofun
        · exact nofun
      refine hsame _ hu (h.quiet hk.shown fun _ hp =>
        hp.sets v' (f := fun t => { t with
          showing := none, ending := some e }) ht rfl hk.agents ?_)
      rintro a - ⟨a₀, ha₀, hname, hnoted⟩
      exact ⟨a₀, ha₀, hname, hnoted.breaks rfl hne⟩
  | dozes hover _ _ hscore hagents hshown _ _ hu =>
      exact hscored _ hu rfl hover (by rw [hagents, hscore]) hshown
  | drowses _ _ _ _ _ _ hk hu =>
      exact hsame _ hu (h.quiet hk.shown fun _ hp => hp.same rfl hk.agents)
  | leaves hover hsettles hshown _ hu _ htasks =>
      rcases hsettles.agents with hagents | hagents
      · exact hsame _ hu (h.quiet hshown fun _ hp => hp.same htasks hagents)
      · exact hscored _ hu htasks hover hagents hshown

/-- From the beginning of a session until another one begins everybody's part
    stands so, as long as the host leaves its agents alone. -/
theorem Begins.heeded (hb : Begins c w n cast programs warnings)
    {ds : List Deed} (hcourse : Course c (w.after c .turn) ds v)
    (hput : ∀ d ∈ ds, LeavesAlone cast d) (hs : v.session = some s)
    (hcall : s.call = n) : Heeded c w cast v s := by
  obtain ⟨hreach, hbegun⟩ := hb.opening
  refine hcourse.since hreach hbegun.known
    (Q := fun x s => Heeded c w cast x s) ?_ ?_ ?_ hs hcall
  · intro s hs _
    obtain ⟨call, hget, rfl, hspared, hprograms⟩ := hb.call
    by_cases hcast : call.cast = []
    · have hpassed := hb.reachable.passed hb.idle hb.turn hget hspared
        hprograms hcast
      obtain rfl := hpassed.eq_passed hs
      exact ⟨[], hpassed.shown, by rw [hcast]; rfl, nofun⟩
    · have hopened := hb.reachable.opened hb.idle hb.turn hget hspared
        hprograms hcast
      obtain rfl := hopened.eq_opened hs
      exact ⟨[], hopened.shown, hopened.parts hb.starts.known.2
        fun id _ a ha => ⟨a, ha, rfl, .waits rfl (.inl rfl) rfl rfl⟩⟩
  · intro x es d s s' _ _ hd _ hs _ _ h hs' hm
    exact hm.heeded hb (hput d hd) hs h hs'
  · intro x d s hx hd _ _ hidle hidle' h
    obtain ⟨htouch, hagents⟩ := hx.orderly.untouched (c := c) hidle (d := d)
    refine h.quiet htouch.shown fun news hp => ?_
    by_cases hhost : ∃ name b, d = .put name b
    · obtain ⟨name, b, rfl⟩ := hhost
      exact hp.puts b (hput _ hd name b rfl)
    · refine hp.same rfl (hagents hidle' fun name b heq => hhost ?_)
      exact ⟨name, b, heq⟩

/-! ## Who is counted -/

omit [Arithmetic] in
/-- An agent stands where it is found. -/
theorem stands_iff {goal : Option GoalRegion}
    {agents : List (String × Agent)} {id : String}
    (ha : agents.lookup id = some a) :
    stands goal agents id = true ↔ a.InGoal goal := by
  unfold stands
  rw [ha]
  cases goal with
  | none =>
      refine ⟨nofun, ?_⟩
      rintro ⟨g, hg, -⟩
      cases hg
  | some g =>
      dsimp only
      constructor
      · intro h
        split at h
        · rename_i inside hin
          exact ⟨g, rfl, h ▸ hin⟩
        · cases h
      · rintro ⟨g', hg, hin⟩
        obtain rfl := Option.some.inj hg
        rw [hin]

/-- Just those are counted who have come through and stand in the goal. -/
theorem Flight.counts (hf : Flight v s) (hcast : s.cast.Nodup)
    (hspared : v.isDoomed s = false) (hover : ∀ b ∈ s.ended, b = true)
    {agents : List (String × Agent)} {reached : List String}
    (hscore : v.scored c s = (agents, .ok reached)) (ht : t ∈ s.tasks)
    (ha : v.agent? t.agentId = some a) :
    t.agentId ∈ reached
      ↔ t.ending = some .returned ∧ a.InGoal c.goal := by
  have htally : Tally c { v with agents := agents } s (fun _ => True)
      (v.resultNow s reached) := tally_now hf hspared hover hscore
  obtain ⟨g, -, hlookup⟩ := score_lookup c.goal
    (s.tasks.filterMap failure?) (s.tasks.map (·.agentId)) ha
  have hlookup : agents.lookup t.agentId
      = some { a with goalReached := g } := by
    rw [← hlookup]
    exact congrArg (fun x => x.1.lookup t.agentId) hscore.symm
  have hstands : stands c.goal agents t.agentId = true ↔ a.InGoal c.goal :=
    (stands_iff hlookup).trans .rfl
  have hmem := htally.reached t.agentId (List.mem_map_of_mem ht) trivial
  refine hmem.trans ⟨fun ⟨hfine, hin⟩ =>
    ⟨htally.through ht hfine, hstands.1 hin⟩, fun ⟨hend, hin⟩ =>
    ⟨fun hfailed => ?_, hstands.2 hin⟩⟩
  -- whoever failed under this name is the same part
  rw [htally.failed] at hfailed
  obtain ⟨f, hf, hid⟩ := List.mem_map.1 hfailed
  obtain ⟨u, hu, hfail⟩ := List.mem_filterMap.1 hf
  unfold failure? at hfail
  split at hfail
  · rename_i x hx
    obtain rfl := Option.some.inj hfail
    obtain rfl := List.inj_on_of_nodup_map hcast hu ht hid
    rw [hx] at hend
    cases hend
  · cases hfail

/-- Whoever acts and is about to look at its flag, which is up, enters the
    body of the conditional. -/
theorem AtWork.enters {i : Nat} {body : List Instruction} {rest : List Act}
    (h : v.AtWork n i (.perform (.ifGoalReached body) :: rest))
    (hv : Reachable c v) (hs : v.session = some s) (ht : s.tasks[i]? = some t)
    (ha : v.agent? t.agentId = some a) (hup : a.goalReached.holds = true) :
    (v.after c .turn).AtWork n i (body.map .perform ++ rest) := by
  obtain ⟨s', t', walker, hs', hcall, ht', hwalk, htodo⟩ := h.part
  obtain rfl := Option.mem_unique hs hs'
  obtain rfl := Option.mem_unique ht ht'
  have hshow : t.showing = none :=
    (errandAbout_eq hs ht).symm.trans (SetsAbout.unshown ⟨rest, h⟩ hv)
  obtain ⟨log, hstep⟩ : ∃ log,
      walker.step (scene c) v.now v.isRunning a
        = walker.goOn a (body.map Act.perform ++ rest) log :=
    Walker.step_enters htodo hup
  have hturn : v.after c .turn = v.actTask c i t a :=
    step_act h.active (by simp [task?, hs, ht]) hshow ha
  rw [hturn]
  unfold World.actTask
  rw [hwalk]
  dsimp only
  rw [hstep]
  refine ⟨h.active, { s with tasks := s.tasks.modify i fun t => { t with
      walker := some { walker with todo := body.map .perform ++ rest } } },
    { t with
      walker := some { walker with todo := body.map .perform ++ rest } },
    _, ?_, hcall, ?_, rfl, rfl⟩
  · show Option.map _ v.session = _
    rw [hs]
    rfl
  · simp [ht]

/-- What a session does about the goal when it comes to one who takes part
    in it, with what has been shown of the agent since the session began. -/
structure Notices (c : Coordinator) (n : Nat) (v : World) (s : Session)
    (t : AgentTask) (a₀ a : Agent) (own : List Snapshot) : Prop where
  /-- In the goal the agent has its flag up, unless it has not moved, once
      it has been shown or has come through. -/
  aware : a.Aware (scene c) a₀.reset
    ∨ own = [] ∧ t.ending ≠ some .returned
  /-- Every snapshot shows the agent as it was, aware of the goal. -/
  told : ∀ x ∈ own, x.Tells (scene c) a₀.reset
  /-- A snapshot of a place in the goal says that it is reached, unless the
      agent has not moved. -/
  shown : ∀ x ∈ own, c.config.mode = .canvas ∨ x.Small →
    x.InGoal c.goal → x.goalReached = true ∨ x.OfStart c.config a₀.reset
  /-- In the goal the body of a conditional is run, unless the agent has not
      moved. -/
  enters : ∀ i body rest, s.tasks[i]? = some t →
    v.AtWork n i (.perform (.ifGoalReached body) :: rest) →
    a.InGoal c.goal →
    a.Unmoved c.config a₀.reset
      ∨ (v.after c .turn).AtWork n i (body.map .perform ++ rest)
  /-- The coordinator counts just who has come through and stands in the
      goal, and these have their flag up, unless they have not moved. -/
  agrees : ∀ agents reached, v.idle = false → v.isDoomed s = false →
    (∀ b ∈ s.ended, b = true) → v.scored c s = (agents, .ok reached) →
    (t.agentId ∈ reached
        ↔ t.ending = some .returned ∧ a.InGoal c.goal)
      ∧ (t.agentId ∈ reached →
        a.goalReached.holds = true ∨ a.Unmoved c.config a₀.reset)
  /-- Whoever is listed in the result was shown last with its flag up, unless
      it has not moved. -/
  last : ∀ r, s.result = some r → t.agentId ∈ r.reached →
    ∀ x, own.getLast? = some x →
      x.goalReached = true ∨ x.OfStart c.config a₀.reset

/-- Whoever has come through is aware of the goal. -/
theorem Noted.heeds (h : Noted c a₀ t a own)
    (hend : t.ending = some .returned) (hin : a.InGoal c.goal) :
    a.goalReached.holds = true ∨ a.Unmoved c.config a₀.reset := by
  rcases h.aware with ha | ⟨-, hno⟩
  · exact ha.heeds hin
  · exact absurd hend hno

/-- Whoever has come through and stands in the goal was shown last with its
    flag up. -/
theorem Noted.last (h : Noted c a₀ t a own)
    (hend : t.ending = some .returned) (hin : a.InGoal c.goal) {x : Snapshot}
    (hx : own.head? = some x) :
    x.goalReached = true ∨ x.OfStart c.config a₀.reset := by
  cases h with
  | waits hnone => rw [hnone] at hend; cases hend
  | goes hnone => rw [hnone] at hend; cases hend
  | lost hover hne =>
      rw [hover] at hend
      exact absurd (Option.some.inj hend) hne
  | returned _ _ _ hlast => exact hlast hin x hx

/-- Whoever acts is aware of the goal, or yet to be placed. -/
theorem Noted.acting (h : Noted c a₀ t a own) (hend : t.ending = none)
    {walker : Walker} (hwalk : t.walker = some walker) :
    a.Aware (scene c) a₀.reset ∨ walker = .start t.program := by
  cases h with
  | returned hover => rw [hover] at hend; cases hend
  | lost hover => rw [hover] at hend; cases hend
  | goes _ _ hw => exact .inl hw.aware
  | waits _ hstart =>
      rw [hwalk] at hstart
      rcases hstart with hno | hset
      · cases hno
      · exact .inr (Option.some.inj hset)

end

end World

section

attribute [local instance] Arithmetic.binary64

namespace World

variable {c : Coordinator} {w v : World} {s : Session} {cast : List String}
  {n : Nat} {programs : List (String × Program)}
  {warnings : List (String × List WarningReport)} {ds : List Deed}

/-- What a session does about the goal, whatever happens to it. -/
theorem Begins.notices (hb : Begins c w n cast programs warnings)
    (hcourse : Course c (w.after c .turn) ds v)
    (hput : ∀ d ∈ ds, LeavesAlone cast d) (hs : v.session = some s)
    (hcall : s.call = n) :
    ∃ news, v.events = w.events ++ news ∧ ∀ t ∈ s.tasks,
      ∃ a₀ a, w.agent? t.agentId = some a₀ ∧ v.agent? t.agentId = some a
        ∧ Notices c n v s t a₀ a (a₀.shownIn news) := by
  obtain ⟨news, hnews, hparts⟩ := hb.heeded hcourse hput hs hcall
  obtain ⟨-, hbooks⟩ := hb.starts.course hcourse hs hcall
  have hreach : Reachable c v := hb.opening.1.course hcourse
  have hcast : s.cast.Nodup := by
    rw [Session.cast, hparts.cast]
    exact hb.starts.known.1
  refine ⟨news.reverse, ?_, fun t ht => ?_⟩
  · rw [World.events, World.events, hnews, List.reverse_append]
  obtain ⟨a, ha, a₀, ha₀, -, hnoted⟩ := hparts.parts t ht
  refine ⟨a₀, a, ha₀, ha, ?_⟩
  rw [Agent.shownIn_reverse]
  have htold : ∀ x ∈ (a₀.shownIn news).reverse,
      x.Tells (scene c) a₀.reset :=
    fun x hx => hnoted.told x (List.mem_reverse.1 hx)
  exact
    { aware := by
        rw [List.reverse_eq_nil_iff]
        exact hnoted.aware
      told := htold
      shown := fun x hx => (htold x hx).flagged (fun _ => rfl) rfl
      enters := by
        intro i body rest hi hwork hin
        obtain ⟨-, s', t', walker, hs', -, ht', hwalk, htodo, hend⟩ :=
          hwork.acting hreach.orderly
        obtain rfl := Option.mem_unique hs hs'
        obtain rfl := Option.mem_unique hi ht'
        rcases hnoted.acting hend hwalk with haware | rfl
        · exact (haware.heeds hin).symm.imp_right fun hup =>
            hwork.enters hreach hs hi ha hup
        · -- an agent that has not set out is not at a conditional
          cases htodo
      agrees := by
        intro agents reached hidle hspared hover hscore
        have hcounts := (hreach.orderly.flight hidle hs).counts hcast hspared
          hover hscore ht ha
        refine ⟨hcounts, fun hmem => ?_⟩
        obtain ⟨hend, hin⟩ := hcounts.1 hmem
        exact hnoted.heeds hend hin
      last := by
        intro r hr hmem x hx
        have htally := hbooks.result r hr
        have hid : t.agentId ∈ s.cast := List.mem_map_of_mem ht
        obtain ⟨hfine, hstands⟩ := (htally.reached _ hid fun b hb' =>
          hput _ hb' _ b rfl (hparts.cast ▸ hid)).1 hmem
        rw [List.getLast?_reverse] at hx
        exact hnoted.last (htally.through ht hfine)
          ((stands_iff ha).1 hstands) hx }

end World

/-- **Whoever stands in the goal knows it, unless it has not moved.**  In
    every run and in every session, whatever happens to them: an agent in the
    goal has its flag up, a snapshot of a place in the goal says that it is
    reached, the body of a conditional is run there, and whomever the
    coordinator counts in the goal and lists in its result was shown last
    with its flag up; all this unless the agent is where it was brought onto
    the playfield with the flag that it came with. -/
theorem goal_noticed (field : Scene) (o : Observer) (c : Coordinator) :
    (∀ (p : Program) (a₀ : Agent) (running : Bool) (r : Solo),
        Solo.Journey field o (.start p a₀ running) r → r.Notices field o a₀)
      ∧ ∀ (w v : World) (n : Nat) (cast : List String)
        (programs : List (String × Program))
        (warnings : List (String × List WarningReport)) (ds : List Deed)
        (s : Session), World.Begins c w n cast programs warnings →
        World.Course c (w.after c .turn) ds v →
        (∀ d ∈ ds, World.LeavesAlone cast d) → v.session = some s →
        s.call = n → ∃ news, v.events = w.events ++ news
          ∧ ∀ t ∈ s.tasks, ∃ a₀ a, w.agent? t.agentId = some a₀
            ∧ v.agent? t.agentId = some a
            ∧ World.Notices c n v s t a₀ a (a₀.shownIn news) :=
  ⟨fun _ _ _ _ hr => hr.attended.notices fun _ => rfl,
    fun _ _ _ _ _ _ _ _ hb hcourse hput hs hcall =>
      hb.notices hcourse hput hs hcall⟩

/-- A playfield whose goal is the second cell of the bottom row. -/
def secondCell : Scene := ⟨.standard, some (.cell 1 0), .int 100⟩

/-- An agent that is to step into the goal and to speak there. -/
def entering : Agent × Program :=
  (.atStart (.str "a") [0, 0] 90, [.move 1, .ifGoalReached [.say (.str "hi")]])

/-- An agent that is in the goal from the start and is to wait and to speak
    there. -/
def staying : Agent × Program :=
  (.atStart (.str "b") [1, 0] 90,
    [.wait (.int 0), .ifGoalReached [.say (.str "hi")]])

/-- The run of an agent alone, after so many steps. -/
def inSecondCell (x : Agent × Program) (k : Nat) : Solo :=
  .run secondCell (.quiet .present) k (.start x.2 x.1 true)

/-- A coordinator for that playfield. -/
def secondCellCoordinator : Coordinator :=
  ⟨.standard, some (.cell 1 0), .quiet .present, .absent⟩

/-- The world in which a call of the two agents begins. -/
def beforeEntry : World :=
  ((World.initial [("a", entering.1), ("b", staying.1)]).follow
    secondCellCoordinator
    [.call (.programs [("a", entering.2), ("b", staying.2)]) ["a", "b"],
      .turn]).getD (.initial [])

/-- The world in which their call has returned. -/
def afterEntry : World :=
  ((beforeEntry.after secondCellCoordinator .turn).follow
    secondCellCoordinator (List.replicate 47 .turn)).getD beforeEntry

/-- An agent that steps into the goal is shown with its flag up and speaks
    there, alone and in a session, and the session lists it. -/
theorem goal_noticed_entry :
    ((inSecondCell entering 20).outcome.isSome = true
        ∧ (inSecondCell entering 20).events.map (·.snapshot.goalReached)
          = [true, true, true]
        ∧ (inSecondCell entering 20).Notices secondCell (.quiet .present)
          entering.1)
      ∧ World.Begins secondCellCoordinator beforeEntry 0 ["a", "b"]
        [("a", entering.2), ("b", staying.2)] []
      ∧ ∃ s, afterEntry.session = some s
        ∧ (s.result.map (·.reached)) = some ["a", "b"]
        ∧ (entering.1.shownIn afterEntry.events).map (·.goalReached)
          = [true, true, true]
        ∧ ∃ news, afterEntry.events = beforeEntry.events ++ news
          ∧ ∀ t ∈ s.tasks, ∃ a₀ a, beforeEntry.agent? t.agentId = some a₀
            ∧ afterEntry.agent? t.agentId = some a
            ∧ World.Notices secondCellCoordinator 0 afterEntry s t a₀ a
              (a₀.shownIn news) := by
  have hb : World.Begins secondCellCoordinator beforeEntry 0 ["a", "b"]
      [("a", entering.2), ("b", staying.2)] [] := by
    refine ⟨⟨_, _, World.Course.followed _ (by decide +kernel)⟩, rfl,
      ⟨[], rfl⟩, ⟨_, rfl, rfl, rfl, rfl⟩,
      World.distinct_pair rfl rfl (by decide)⟩
  have hcourse : World.Course secondCellCoordinator
      (beforeEntry.after secondCellCoordinator .turn)
      (List.replicate 47 .turn) afterEntry :=
    World.Course.followed _ (by decide +kernel)
  have hleaves : ∀ d ∈ List.replicate 47 Deed.turn,
      World.LeavesAlone ["a", "b"] d := by
    rintro d hd name a rfl
    cases List.eq_of_mem_replicate hd
  obtain ⟨hsolo, hsession⟩ := goal_noticed secondCell (.quiet .present)
    secondCellCoordinator
  refine ⟨⟨by decide +kernel, by decide +kernel,
    hsolo _ _ true _ (.run 20)⟩, hb, ?_⟩
  obtain ⟨s, hs, heq⟩ := Option.map_eq_some_iff.1
    (show afterEntry.session.map (fun s => (s.call,
      s.result.map (·.reached))) = some (0, some ["a", "b"]) by
        decide +kernel)
  injection heq with hcall hreached
  exact ⟨s, hs, hreached, by decide +kernel,
    hsession _ _ _ _ _ _ _ s hb hcourse hleaves hs hcall⟩

/-- An agent that is in the goal from the start is shown there with its flag
    down and does not speak, alone and in a session, and the session lists it
    all the same. -/
theorem goal_noticed_stay :
    (inSecondCell staying 20).outcome.isSome = true
      ∧ (inSecondCell staying 20).walker.todo.isEmpty = true
      ∧ (∃ e, (inSecondCell staying 20).events = [e]
        ∧ e.snapshot.InGoal secondCell.goal
        ∧ e.snapshot.goalReached = false)
      ∧ (staying.1.shownIn afterEntry.events).map (·.goalReached) = [false]
      ∧ ∃ s r, afterEntry.session = some s ∧ s.result = some r
        ∧ "b" ∈ r.reached := by
  refine ⟨by decide +kernel, by decide +kernel, ?_, by decide +kernel, ?_⟩
  · obtain ⟨e, he, hshown⟩ := List.map_eq_singleton_iff.1
      (show (inSecondCell staying 20).events.map (fun e =>
        (e.snapshot.position, e.snapshot.goalReached))
          = [((.finite 1, .finite 0), false)] by decide +kernel)
    injection hshown with hposition hflag
    refine ⟨e, he, ⟨_, rfl, ?_⟩, hflag⟩
    rw [hposition]
    decide +kernel
  · obtain ⟨s, hs, heq⟩ := Option.map_eq_some_iff.1
      (show afterEntry.session.map (fun s => s.result.map (·.reached))
        = some (some ["a", "b"]) by decide +kernel)
    obtain ⟨r, hr, hreached⟩ := Option.map_eq_some_iff.1 heq
    refine ⟨s, r, hs, hr, ?_⟩
    rw [hreached]
    exact List.mem_cons_of_mem _ (List.mem_singleton_self _)

end

end BlockStage
