import BlockStage.Proofs.Number.Finite
import BlockStage.Proofs.Session.Accounts
import BlockStage.Proofs.Session.Independence
import BlockStage.Proofs.Session.Killing

/-! # Cancellation — a session cut short at the steps of its agents

    Whenever the flag falls, every agent has shown a beginning of what it
    shows alone, shows at most one snapshot more, which ends a wait or takes
    a message down, and stands in the end as it was shown last; nobody fails
    who had not failed before, and the call returns a result that says so.
    After a kill nothing more is shown, unless it comes from inside the
    observer.  A result that does not speak of cancellation is about agents
    all of whom failed or ran to the end of their programs. -/

namespace BlockStage

open Act

namespace World

/-! ## Scores of agents on cells -/

/-- If all who did not fail stand at numbers, everybody can be scored. -/
theorem score_numbers {goal : Option GoalRegion}
    (hg : ∀ g, goal = some g → g.isNumeric = true)
    (failed : List (String × String)) (ids : List String)
    {agents : List (String × Agent)}
    (h : ∀ id ∈ ids, failed.lookup id = none → ∀ a,
      agents.lookup id = some a →
        ∃ u v, a.position = [u, v] ∧ u.number?.isSome = true
          ∧ v.number?.isSome = true) :
    ∃ reached, (score goal failed agents ids).2 = .ok reached := by
  induction ids generalizing agents with
  | nil => exact ⟨[], rfl⟩
  | cons id ids ih =>
      have hrest : ∀ id' ∈ ids, failed.lookup id' = none → ∀ a,
          agents.lookup id' = some a →
            ∃ u v, a.position = [u, v] ∧ u.number?.isSome = true
              ∧ v.number?.isSome = true :=
        fun id' hid => h id' (List.mem_cons_of_mem _ hid)
      cases score_cons goal failed agents id ids with
      | passes hsame => exact hsame ▸ ih hrest
      | @raises g a f hgoal ha hspared hfails =>
          obtain ⟨u, v, hp, hu, hv⟩ :=
            h id (List.mem_cons_self ..) hspared a ha
          obtain ⟨inside, hin⟩ := g.contains_numbers (hg g hgoal) hu hv
          rw [hp, hin] at hfails
          cases hfails
      | counts _ _ _ _ hflags =>
          -- the flag of the agent does not move it
          obtain ⟨reached, hreached⟩ : ∃ reached,
              (score goal failed (raiseFlag id agents) ids).2
                = .ok reached := by
            refine ih fun id' hid' hnone' b hb => ?_
            rw [lookup_raiseFlag] at hb
            obtain ⟨a', ha', rfl⟩ := Option.map_eq_some_iff.1 hb
            obtain ⟨u', v', hp', hu', hv'⟩ := hrest id' hid' hnone' a' ha'
            refine ⟨u', v', ?_, hu', hv'⟩
            split <;> exact hp'
          refine ⟨id :: reached, ?_⟩
          rw [hflags, hreached]
          rfl

section

variable [Arithmetic] {c : Coordinator} {columns rows : Int}
  {w v : World} {n : Nat} {cast : List String}
  {programs : List (String × Program)}
  {warnings : List (String × List WarningReport)} {cut : Bool}
  {s : Session}

/-- An agent whose part has ended, and not by a kill, stands on a cell, as it
    was shown last. -/
theorem Part.faces {a₀ a : Agent} {t : AgentTask} {shown : List Snapshot}
    {r : Solo} (h : Part c a₀ cut t a shown r)
    (hr : Solo.Kept (scene c) columns rows a₀ r)
    (hend : t.ending.isSome = true) (hspared : t.ending ≠ some .killed) :
    a.OnCell columns rows ∧ Agent.FacesAs c.config a₀ a shown := by
  suffices hrun : r.agent.OnCell columns rows
      ∧ Agent.FacesAs c.config a₀ r.agent (r.shown.map (·.snapshot)) by
    obtain ⟨⟨p, hcell, hp⟩, hfaces⟩ := hrun
    refine ⟨⟨p, hcell, h.position.trans hp⟩, ?_⟩
    rw [h.shown]
    exact hfaces.congr h.position h.heading h.message
  cases h.stands with
  | waits _ hno => rw [hno] at hend; cases hend
  | runs _ hno => rw [hno] at hend; cases hend
  | killed _ hno => exact absurd hno hspared
  | ends ho _ =>
      cases hr.placed with
      | begins hno => rw [ho] at hno; cases hno
      | goes hno => rw [ho] at hno; cases hno
      | ended _ hcell hfaces => exact ⟨hcell, hfaces⟩
  | stopped _ hnone htodo =>
      cases hr.placed with
      | begins _ hfresh =>
          obtain ⟨rest, -, hno⟩ := hfresh
          rw [htodo] at hno
          cases hno
      | goes _ _ hcell hfaces =>
          refine ⟨hcell, hfaces ?_⟩
          rw [htodo]
          exact fun rest hno => by cases hno
      | ended hno => rw [hnone] at hno; cases hno

/-- On a stage on which agents can be shown, a session whose agents have all ended
    can be scored. -/
theorem Closing.scores (h : Closing c w n cast programs warnings cut v s)
    (hc : Showable c columns rows) (hcast : CastReady c w cast programs) :
    ∃ reached, (v.scored c s).2 = .ok reached := by
  refine score_numbers hc.measured.goal _ _ fun id hid _ a ha => ?_
  obtain ⟨t, ht, rfl⟩ := List.mem_map.1 hid
  obtain ⟨i, hi⟩ := List.mem_iff_getElem?.1 ht
  obtain ⟨news, -, hparts⟩ := h.mirrors.parts
  obtain ⟨a₀, b, k, ha₀, hb, hp⟩ := hparts i t hi
  have hab : v.agent? t.agentId = some a := ha
  obtain rfl := Option.mem_unique hab hb
  have hready := hcast _ (h.mirrors.mem_cast ht)
  have hspared : t.ending ≠ some .killed := by
    intro hkill
    have := (h.reachable.orderly.flight h.flying h.mirrors.session).killed t
      ht hkill
    rw [h.spared] at this
    cases this
  obtain ⟨⟨p, ⟨x, y, rfl, -⟩, hpos⟩, -⟩ := hp.faces
    (alone_kept hc (hready.1 a₀ ha₀) (p := t.program)
      (by rw [h.mirrors.given ht]; exact hready.2) k)
    (h.ended _ (List.mem_map.2 ⟨t, ht, rfl⟩)) hspared
  exact ⟨.int x, .int y, hpos, rfl, rfl⟩

/-! ## After the flag has fallen -/

/-- What an agent shows after a moment: nothing, or the next snapshot of its
    run alone, which ends a wait or takes a message down. -/
inductive Ending (c : Coordinator) (p : Program) (a₀ : Agent)
    (past : List Snapshot) : List Snapshot → Prop
  | nothing : Ending c p a₀ past []
  | last {k : Nat} {e : Event}
      (stands : past = (alone c p a₀ k).events.map (·.snapshot))
      (concludes : Concludes c p a₀ k e) :
      Ending c p a₀ past [e.snapshot]

theorem Trails.ending {p : Program} {a₀ : Agent}
    {past later : List Snapshot} (h : Trails c p a₀ past later) :
    Ending c p a₀ past.reverse later.reverse := by
  cases h with
  | nothing => exact .nothing
  | last hpast hconcludes =>
      refine .last ?_ hconcludes
      rw [hpast, Solo.events, List.map_reverse]

/-- Along every course from a moment at which the flag is down, what every
    move of the session keeps holds as long as no other session begins. -/
theorem Mirrored.winding (hb : Begins c w n cast programs warnings)
    (hmode : c.config.mode ≠ .canvas)
    (hsink : ∀ k, w.shown.length < k → (c.observer.reaction k).fails = false)
    (hm : Mirrored c w n cast programs warnings true v) (hv : Reachable c v)
    {v' : World} {s' : Session} {ds : List Deed}
    (hcourse : Course c v ds v')
    (hput : ∀ name a, .put name a ∈ ds → name ∉ cast)
    {Q : Session → List Event → Prop}
    (hQ : ∀ s, v.session = some s → s.call = n → Q s v.shown)
    (moves : ∀ (x : World) (d : Deed) (s s' : Session),
      Mirrors c w n cast programs warnings true x s → Flight x s →
      x.idle = false → Reposed c x s → Q s x.shown →
      (x.after c d).session = some s' → Moves c x s d (x.after c d) →
      Q s' (x.after c d).shown)
    (hs' : v'.session = some s') (hcall' : s'.call = n) : Q s' v'.shown := by
  refine hcourse.session hv hm.known hQ ?_ hs' hcall'
  intro x es d s₁ s₂ hes hsub _ _ hs₁ hcall₁ hidle hold hs₂ hmoves
  obtain ⟨hx, cut', hm', hdown, -⟩ := hm.course hb hmode hsink hv hes
    fun name a hmem => hput name a (hsub _ hmem)
  obtain rfl := hdown rfl
  exact moves x d s₁ s₂ (hm'.present s₁ hs₁ hcall₁)
    (hx.orderly.flight hidle hs₁) hidle (hx.reposed hmode hidle hs₁) hold hs₂
    hmoves

/-- Once the flag is down everybody shows at most one snapshot more, which
    ends a wait or takes a message down. -/
theorem Mirrored.winds (hb : Begins c w n cast programs warnings)
    (hmode : c.config.mode ≠ .canvas)
    (hsink : ∀ k, w.shown.length < k → (c.observer.reaction k).fails = false)
    (hm : Mirrored c w n cast programs warnings true v) (hv : Reachable c v)
    (hidle : v.idle = false) (hs : v.session = some s) (hcall : s.call = n)
    (hdown : s.running = false) {v' : World} {s' : Session} {ds : List Deed}
    (hcourse : Course c v ds v')
    (hput : ∀ name a, .put name a ∈ ds → name ∉ cast)
    (hs' : v'.session = some s') (hcall' : s'.call = n) :
    ∃ past later, v.events = w.events ++ past
      ∧ v'.events = v.events ++ later ∧ ∀ t ∈ s'.tasks,
        ∀ a₀, w.agent? t.agentId = some a₀ →
          Ending c (World.given programs t.agentId) a₀ (a₀.shownIn past)
            (a₀.shownIn later) := by
  obtain ⟨news, hnews, -⟩ := (hm.present s hs hcall).parts
  have hwinds : Winds c w news s' v'.shown := by
    refine hm.winding hb hmode hsink hv hcourse hput
      (Q := fun s shown => Winds c w news s shown) ?_ ?_ hs' hcall'
    · intro s₁ hs₁ _
      obtain rfl := Option.mem_unique hs hs₁
      exact (hv.reposed hmode hidle hs).winds hdown hnews
    · intro x d s₁ s₂ hmirrors hf hi hr hold hs₂ hmoves
      exact hmoves.winds hb hmode hsink hmirrors hf hi hr hs₂ hold
  obtain ⟨later, hlater, hdues⟩ := hwinds
  obtain ⟨-, cut', hm', -⟩ := hm.course hb hmode hsink hv hcourse hput
  refine ⟨news.reverse, later.reverse, ?_, ?_, fun t ht a₀ ha₀ => ?_⟩
  · rw [World.events, World.events, hnews, List.reverse_append]
  · rw [World.events, World.events, hlater, ← hnews, List.reverse_append]
  · obtain ⟨-, htrails⟩ := hdues t ht a₀ ha₀
    rw [Agent.shownIn_reverse, Agent.shownIn_reverse,
      ← (hm'.present s' hs' hcall').given ht]
    exact htrails.ending

/-- Once the flag is down nobody fails, on a stage that can be played on. -/
theorem Mirrored.spares (hb : Begins c w n cast programs warnings)
    (hmode : c.config.mode ≠ .canvas)
    (hsink : ∀ k, w.shown.length < k → (c.observer.reaction k).fails = false)
    (hc : Playable c columns rows) (hcast : CastReady c w cast programs)
    (hm : Mirrored c w n cast programs warnings true v) (hv : Reachable c v)
    (hs : v.session = some s) {v' : World} {s' : Session} {ds : List Deed}
    (hcourse : Course c v ds v')
    (hput : ∀ name a, .put name a ∈ ds → name ∉ cast)
    (hs' : v'.session = some s') (hcall' : s'.call = n) : Spared s s' := by
  refine hm.winding hb hmode hsink hv hcourse hput
    (Q := fun x _ => Spared s x) ?_ ?_ hs' hcall'
  · intro s₁ hs₁ _
    obtain rfl := Option.mem_unique hs hs₁
    exact .refl s
  · intro x d s₁ s₂ hmirrors hf hi hr hold hs₂ hmoves
    exact hmoves.spares hc hcast hmirrors hf hi hr hs₂ hold

/-- A result says whether its session was cut short. -/
theorem Mirrored.cancelled
    (hm : Mirrored c w n cast programs warnings cut v) {r : SessionResult}
    (hr : v.ending? n = some (.returned r)) : r.cancelled = cut := by
  obtain ⟨call, hcall, hend⟩ := Option.bind_eq_some_iff.1 hr
  generalize he : CallEnd.returned r = e at hend
  cases (hm.ended call hcall e hend).1 with
  | returned hc _ =>
      rw [CallEnd.returned.inj he]
      show (!_) = cut
      rw [hc.running, Bool.not_not]
  | passed _ hcut => rw [CallEnd.returned.inj he, hcut]; rfl
  | _ => cases he

/-! ## Beginnings -/

/-- What a part of a session shows is a beginning of what is shown alone. -/
theorem Part.beginning {a₀ a : Agent} {t : AgentTask} {news : List Event}
    {k : Nat} (hmode : c.config.mode ≠ .canvas)
    (h : Part c a₀ cut t a (a₀.shownIn news) (alone c t.program a₀ k)) :
    a₀.shownIn news.reverse
      <+: (wholly c t.program a₀).events.map (·.snapshot) := by
  rw [Agent.shownIn_reverse, h.shown, Solo.events, List.map_reverse,
    List.reverse_prefix]
  exact (alone_shown hmode).map _

/-- A part that has ended uncut, and neither by a fault nor by a kill, has
    been through the whole run. -/
theorem Part.through {a₀ a : Agent} {t : AgentTask} {news : List Event}
    {k : Nat} (hmode : c.config.mode ≠ .canvas)
    (h : Part c a₀ false t a (a₀.shownIn news) (alone c t.program a₀ k))
    (hend : t.ending.isSome = true) (hspared : t.ending ≠ some .killed)
    (hfine : failure? t = none) :
    t.ending = some .returned
      ∧ (wholly c t.program a₀).outcome = some .finished
      ∧ a₀.shownIn news.reverse
        = (wholly c t.program a₀).events.map (·.snapshot) := by
  obtain ⟨hshown, -, -, -, o, ho, he⟩ := (h.alike hmode hspared).ended hend
  have hup := (alone_keeps c t.program a₀
    (Act.cost c.config.loopCeiling (Walker.start t.program).todo + 1)).2
  cases o with
  | finished => exact ⟨he, ho, hshown⟩
  | halted => exact absurd ho hup
  | failed f =>
      unfold failure? at hfine
      rw [he] at hfine
      cases hfine

end

/-! ## Cancellation -/

section

attribute [local instance] Arithmetic.binary64

variable {c : Coordinator} {columns rows : Int} {w v : World} {n : Nat}
  {cast : List String} {programs : List (String × Program)}
  {warnings : List (String × List WarningReport)} {cut : Bool}
  {s : Session}

/-- A stage of doubles: a grid of counted columns and rows that are not too
    many to be measured, a goal of numbers if there is one, an observer, and
    a ceiling that is accepted. -/
structure Sized (c : Coordinator) (columns rows : Int) : Prop where
  mode : c.config.mode ≠ .canvas
  counted : c.config.Counted columns rows
  columns : (columns : Rat) < Binary64.bound
  rows : (rows : Rat) < Binary64.bound
  goal : ∀ g, c.goal = some g → g.isNumeric = true
  observed : c.observer.mode ≠ .absent
  ceiling : ∃ v, checkCeiling c.config.loopCeiling = .ok v

/-- A count between zero and the last column or row is below the bound. -/
theorem Sized.small (h : Sized c columns rows) {x : Int} (hx : 0 ≤ x)
    (hlast : x ≤ max 0 (columns - 1) ∨ x ≤ max 0 (rows - 1)) :
    |(x : Rat)| < Binary64.bound := by
  rcases hlast with hlast | hlast
  · exact Binary64.index_small h.columns hx hlast
  · exact Binary64.index_small h.rows hx hlast

/-- Agents can be shown on such a stage. -/
theorem Sized.showable (h : Sized c columns rows) :
    Showable c columns rows := by
  refine ⟨⟨h.mode, h.counted, fun x hx hlast => ?_, fun x hx => ?_, h.goal⟩,
    h.observed, h.ceiling⟩
  · obtain ⟨r, hr⟩ := Num.measure_int (h.small hx hlast)
    exact ⟨_, hr⟩
  · unfold isCardinal at hx
    rcases of_decide_eq_true hx with rfl | rfl | rfl | rfl
    all_goals exact ⟨_, rfl⟩

/-- Agents can be played with on such a stage if its pauses can be
    calculated. -/
theorem Sized.playable (h : Sized c columns rows)
    (hpauses : ∀ ms, ms = c.config.stepMs ∨ ms = c.config.turnMs
      ∨ ms = c.config.sayMs →
      ∃ seconds, Walker.pauseSeconds ms = .ok seconds) :
    Playable c columns rows :=
  ⟨h.showable, hpauses⟩

/-- The host leaves the agents of a cast alone. -/
def LeavesAlone (cast : List String) (d : Deed) : Prop :=
  ∀ name a, d = .put name a → name ∉ cast

/-- In every fair execution a call that nobody kills returns a result, if
    agents can be shown on the stage. -/
theorem Begins.returns (hb : Begins c w n cast programs warnings)
    (hsink : ∀ k, w.shown.length < k → (c.observer.reaction k).fails = false)
    (hc : Showable c columns rows) (hcast : CastReady c w cast programs)
    {ds : List Deed} (hcourse : Course c (w.after c .turn) ds v)
    (hput : ∀ d ∈ ds, LeavesAlone cast d) (hkill : .kill n ∉ ds)
    {e : Execution c v} (hf : e.Fair)
    (hput' : ∀ k, LeavesAlone cast (e.deed k))
    (hkill' : ∀ k, e.deed k ≠ .kill n) :
    ∃ k r, (e.world k).ending? n = some (.returned r) := by
  have hmode := hc.measured.mode
  obtain ⟨hreach, cut, hm, -⟩ := hb.course hmode hsink hcourse
    fun name a hmem => hput _ hmem name a rfl
  obtain ⟨k, hshut⟩ := hf.shuts hreach hmode hm.known
  -- the whole course, up to the end of the call
  have hwhole := hcourse.trans (e.course k)
  obtain ⟨-, cut', hm', -⟩ := hb.course hmode hsink hwhole (by
    intro name a hmem
    rcases List.mem_append.1 hmem with hmem | hmem
    · exact hput _ hmem name a rfl
    · obtain ⟨i, hi⟩ := Execution.mem_deeds hmem
      exact hput' i name a hi)
  obtain ⟨call, hcall, hspared⟩ := hb.spared hwhole (by
    intro hmem
    rcases List.mem_append.1 hmem with hmem | hmem
    · exact hkill hmem
    · obtain ⟨i, hi⟩ := Execution.mem_deeds hmem
      exact hkill' i hi)
  obtain ⟨x, hending⟩ := ending?_shut hshut
  have hx : call.ending = some x := by
    rw [ending?, hcall] at hending
    exact hending
  obtain ⟨hends, hkilled⟩ := hm'.ended call hcall x hx
  cases hends with
  | killed =>
      rw [hkilled rfl] at hspared
      cases hspared
  | unscored hclosing hscore =>
      obtain ⟨reached, hreached⟩ := hclosing.scores hc hcast
      rw [hscore] at hreached
      cases hreached
  | untimed hclosing hbad =>
      exact absurd (hclosing.reachable.timely.elapsed hclosing.flying
        hclosing.mirrors.session) hbad
  | returned => exact ⟨k, _, hending⟩
  | passed => exact ⟨k, _, hending⟩

/-- What a session that may be cut short does to an agent, compared with the
    run of its program alone: it shows a beginning of what the run shows;
    unless it is killed the agent stands, looks and speaks in the end as it
    was shown last; and if the result does not speak of cancellation or of a
    fault of the agent, the agent has been through the whole run. -/
structure Cut (c : Coordinator) (n : Nat) (p : Program) (v : World)
    (news : List Event) (t : AgentTask) (a₀ a : Agent) : Prop where
  shown : a₀.shownIn news <+: (wholly c p a₀).events.map (·.snapshot)
  faces : ∀ columns rows, Sized c columns rows → a₀.Ready c.config →
    Instruction.EveryOf Instruction.IsSpoken p → t.ending.isSome = true →
    t.ending ≠ some .killed →
    Agent.FacesAs c.config a₀ a (a₀.shownIn news).reverse
  through : ∀ r, v.ending? n = some (.returned r) → r.cancelled = false →
    t.agentId ∉ r.failed.map (·.1) → t.ending = some .returned
      ∧ (wholly c p a₀).outcome = some .finished
      ∧ a₀.shownIn news = (wholly c p a₀).events.map (·.snapshot)

/-- What holds from the moment at which the flag of a session is down,
    whatever happens then: everybody shows at most one snapshot more, which
    ends a wait or takes a message down, nobody fails who had not failed
    before, and the call returns a result that speaks of cancellation. -/
structure WindsDown (c : Coordinator) (w : World) (n : Nat)
    (cast : List String) (programs : List (String × Program))
    (ds : List Deed) (v : World) (s : Session) : Prop where
  shown : ∀ (es : List Deed) (v' : World) (s' : Session),
    Course c v es v' → (∀ d ∈ es, LeavesAlone cast d) →
    v'.session = some s' → s'.call = n →
    ∃ past later, v.events = w.events ++ past
      ∧ v'.events = v.events ++ later ∧ ∀ t ∈ s'.tasks,
        ∀ a₀, w.agent? t.agentId = some a₀ →
          Ending c (World.given programs t.agentId) a₀ (a₀.shownIn past)
            (a₀.shownIn later)
  spared : ∀ columns rows, Sized c columns rows →
    CastReady c w cast programs →
    (∀ ms, ms = c.config.stepMs ∨ ms = c.config.turnMs
      ∨ ms = c.config.sayMs →
      ∃ seconds, Walker.pauseSeconds ms = .ok seconds) →
    ∀ (es : List Deed) (v' : World) (s' : Session),
      Course c v es v' → (∀ d ∈ es, LeavesAlone cast d) →
      v'.session = some s' → s'.call = n → Spared s s'
  cancelled : ∀ (es : List Deed) (v' : World) (r : SessionResult),
    Course c v es v' → (∀ d ∈ es, LeavesAlone cast d) →
    v'.ending? n = some (.returned r) → r.cancelled = true
  returns : ∀ columns rows, Sized c columns rows →
    CastReady c w cast programs → .kill n ∉ ds →
    ∀ e : Execution c v, e.Fair → (∀ k, LeavesAlone cast (e.deed k)) →
      (∀ k, e.deed k ≠ .kill n) →
      ∃ k r, (e.world k).ending? n = some (.returned r)
        ∧ r.cancelled = true

/-- No agent of a session has been killed when its call has returned a
    result, and whoever is not among those that failed has not failed. -/
theorem Begins.accounted (hb : Begins c w n cast programs warnings)
    {ds : List Deed} (hcourse : Course c (w.after c .turn) ds v)
    (hs : v.session = some s) (hcall : s.call = n) {r : SessionResult}
    (hr : v.ending? n = some (.returned r)) {t : AgentTask}
    (ht : t ∈ s.tasks) :
    t.ending.isSome = true ∧ t.ending ≠ some .killed
      ∧ (t.agentId ∉ r.failed.map (·.1) → failure? t = none) := by
  obtain ⟨-, hbooks⟩ := hb.starts.course hcourse hs hcall
  have htally := hbooks.result r (hbooks.returned r (hcall ▸ hr))
  refine ⟨htally.settled t ht, htally.unkilled t ht, fun hfine => ?_⟩
  rw [failure?, htally.through ht hfine]

/-- However a session is brought on its way, everybody's run is cut at a
    step. -/
theorem Begins.cuts (hb : Begins c w n cast programs warnings)
    (hmode : c.config.mode ≠ .canvas)
    (hsink : ∀ k, w.shown.length < k → (c.observer.reaction k).fails = false)
    {ds : List Deed} (hcourse : Course c (w.after c .turn) ds v)
    (hput : ∀ d ∈ ds, LeavesAlone cast d) (hs : v.session = some s)
    (hcall : s.call = n) :
    s.cast = cast ∧ ∃ news, v.events = w.events ++ news
      ∧ ∀ t ∈ s.tasks, ∃ a₀ a, w.agent? t.agentId = some a₀
        ∧ v.agent? t.agentId = some a
        ∧ Cut c n (World.given programs t.agentId) v news t a₀ a := by
  obtain ⟨-, cut, hm, -⟩ := hb.course hmode hsink hcourse
    fun name a hmem => hput _ hmem name a rfl
  have hmirrors := hm.present s hs hcall
  obtain ⟨news, hnews, hparts⟩ := hmirrors.parts
  refine ⟨hmirrors.ids, news.reverse, ?_, fun t ht => ?_⟩
  · rw [World.events, World.events, hnews, List.reverse_append]
  obtain ⟨i, hi⟩ := List.mem_iff_getElem?.1 ht
  obtain ⟨a₀, a, k, ha₀, ha, hp⟩ := hparts i t hi
  rw [← hmirrors.given ht]
  refine ⟨a₀, a, ha₀, ha, ?_⟩
  exact
    { shown := hp.beginning hmode
      faces := by
        intro columns rows hsized hready hspoken hend hspared
        rw [Agent.shownIn_reverse, List.reverse_reverse]
        exact (hp.faces (alone_kept hsized.showable hready hspoken k) hend
          hspared).2
      through := by
        intro r hr huncut hfine
        obtain ⟨hend, hspared, hfailed⟩ :=
          hb.accounted hcourse hs hcall hr ht
        have hcut : cut = false := (hm.cancelled hr).symm.trans huncut
        subst hcut
        exact hp.through hmode hend hspared (hfailed hfine) }

/-- Once the flag is down before the session is scored, the session winds
    down. -/
theorem Begins.windsDown (hb : Begins c w n cast programs warnings)
    (hmode : c.config.mode ≠ .canvas)
    (hsink : ∀ k, w.shown.length < k → (c.observer.reaction k).fails = false)
    {ds : List Deed} (hcourse : Course c (w.after c .turn) ds v)
    (hput : ∀ d ∈ ds, LeavesAlone cast d) (hs : v.session = some s)
    (hcall : s.call = n) (hidle : v.idle = false) (hnone : s.result = none)
    (hdown : s.running = false) :
    WindsDown c w n cast programs ds v s := by
  have hput' : ∀ {es : List Deed}, (∀ d ∈ es, LeavesAlone cast d) →
      ∀ name a, .put name a ∈ es → name ∉ cast :=
    fun hes name a hmem => hes _ hmem name a rfl
  obtain ⟨hreach, cut, hm, -⟩ := hb.course hmode hsink hcourse (hput' hput)
  -- the mirrored run is cut, and it stays so
  have hcut : cut = true := by
    have hflag := (hm.present s hs hcall).flag hidle hnone
    rw [hdown] at hflag
    cases cut with
    | true => rfl
    | false => cases hflag
  subst hcut
  have hcancelled : ∀ (es : List Deed) (v' : World) (r : SessionResult),
      Course c v es v' → (∀ d ∈ es, LeavesAlone cast d) →
      v'.ending? n = some (.returned r) → r.cancelled = true := by
    intro es v' r hes hleaves hr
    obtain ⟨-, cut', hm', hstays, -⟩ :=
      hm.course hb hmode hsink hreach hes (hput' hleaves)
    exact (hm'.cancelled hr).trans (hstays rfl)
  exact
    { shown := by
        intro es v' s' hes hleaves hs' hcall'
        exact hm.winds hb hmode hsink hreach hidle hs hcall hdown hes
          (hput' hleaves) hs' hcall'
      spared := by
        intro columns rows hsized hcast hpauses es v' s' hes hleaves hs' hcall'
        exact hm.spares hb hmode hsink (hsized.playable hpauses) hcast hreach
          hs hes (hput' hleaves) hs' hcall'
      cancelled := hcancelled
      returns := by
        intro columns rows hsized hcast hkill e hf hleaves hkill'
        obtain ⟨k, r, hr⟩ := hb.returns hsink hsized.showable hcast hcourse
          hput hkill hf hleaves hkill'
        refine ⟨k, r, hr, hcancelled _ _ r (e.course k) ?_ hr⟩
        intro d hd
        obtain ⟨i, rfl⟩ := Execution.mem_deeds hd
        exact hleaves i }

/-- **Cancellation cuts each agent's run at a step.**  On the grid, with an
    observer that raises no error, whatever the host does to a session: every
    agent shows a beginning of what it shows alone, ends as it was shown
    last, and is through with its program if it has not failed and the result
    does not speak of cancellation; from the moment at which the flag is
    down before the session is scored, everybody shows at most one snapshot
    more, which ends a wait or takes a message down, nobody newly fails, and
    the call returns a result that speaks of cancellation; after a kill of
    the call between two turns nothing is shown at all, and after one from
    inside the observer nothing but one snapshot of the agent that the
    observer is being shown, if that ended a wait or took a message down. -/
theorem Begins.cut_short (hb : Begins c w n cast programs warnings)
    (hmode : c.config.mode ≠ .canvas)
    (hsink : ∀ k, w.shown.length < k → (c.observer.reaction k).fails = false)
    {ds : List Deed} (hcourse : Course c (w.after c .turn) ds v)
    (hput : ∀ d ∈ ds, LeavesAlone cast d) :
    (∀ s, v.session = some s → s.call = n →
      s.cast = cast ∧ ∃ news, v.events = w.events ++ news
        ∧ ∀ t ∈ s.tasks, ∃ a₀ a, w.agent? t.agentId = some a₀
          ∧ v.agent? t.agentId = some a
          ∧ Cut c n (World.given programs t.agentId) v news t a₀ a)
      ∧ (∀ s, v.session = some s → s.call = n → v.idle = false →
        s.result = none → s.running = false →
        WindsDown c w n cast programs ds v s)
      ∧ (v.current = some n → v.active = none →
        ∀ (es : List Deed) (v' : World) (s' : Session),
          Course c (v.after c (.kill n)) es v' → v'.session = some s' →
          s'.call = n → v'.events = v.events)
      ∧ (v.current = some n → v.hostActs = true →
        ∀ (es : List Deed) (v' : World) (s' : Session),
          Course c (v.after c (.kill n)) es v' →
          (∀ d ∈ es, LeavesAlone cast d) → v'.session = some s' →
          s'.call = n → Aftermath c w cast programs v v') := by
  obtain ⟨hreach, cut, hm, -⟩ := hb.course hmode hsink hcourse
    fun name a hmem => hput _ hmem name a rfl
  refine ⟨fun s hs hcall => hb.cuts hmode hsink hcourse hput hs hcall,
    fun s hs hcall hidle hnone hdown => hb.windsDown hmode hsink hcourse hput
      hs hcall hidle hnone hdown,
    fun hcur hact es v' s' hes hs' hcall' =>
      hreach.killed hcur hact hes hs' hcall',
    fun hcur hhost es v' s' hes hleaves hs' hcall' =>
      hm.aftermath hb hmode hsink hreach hcur hhost hes
        (fun name a hmem => hleaves _ hmem name a rfl) hs' hcall'⟩

/-! ## Stopped at the first snapshot -/

/-- An observer that asks for cancellation at the first snapshot. -/
def stopsAtOnce : Observer :=
  ⟨.present, fun k => ⟨⟨[], false⟩, k = 1⟩⟩

/-- The standard settings with that observer. -/
def stoppedCoordinator : Coordinator :=
  ⟨.standard, none, stopsAtOnce, .absent⟩

/-- One agent is to move two steps and the other one to speak. -/
def stoppedPair : List (String × Program) :=
  [("a", [.move 2]), ("b", [.say (.str "hi")])]

/-- The world in which the call of the two begins; one of them starts beside
    the grid. -/
def beforeStop : World :=
  ((initial [("a", .atStart (.str "a") [0, 0] 90),
    ("b", .atStart (.str "b") [12, 3] 0)]).follow stoppedCoordinator
    [.call (.programs stoppedPair) ["a", "b"], .turn]).getD (.initial [])

/-- The world after so many turns. -/
def stoppedAfter (k : Nat) : World :=
  ((beforeStop.after stoppedCoordinator .turn).follow stoppedCoordinator
    (List.replicate k .turn)).getD (.initial [])

/-- The first of two agents is stopped after its first step and the other one
    before it says a word, and their call returns a result that speaks of
    cancellation. -/
theorem cut_short_pair :
    Begins stoppedCoordinator beforeStop 0 ["a", "b"] stoppedPair []
      ∧ (∃ s, (stoppedAfter 7).session = some s
        ∧ WindsDown stoppedCoordinator beforeStop 0 ["a", "b"] stoppedPair
          (List.replicate 7 .turn) (stoppedAfter 7) s)
      ∧ Sized stoppedCoordinator 10 10
      ∧ CastReady stoppedCoordinator beforeStop ["a", "b"] stoppedPair
      ∧ ∃ e : Execution stoppedCoordinator (stoppedAfter 7), e.Fair
        ∧ ∃ k r, (e.world k).ending? 0 = some (.returned r)
          ∧ r.cancelled = true := by
  have hb : Begins stoppedCoordinator beforeStop 0 ["a", "b"] stoppedPair
      [] := by
    refine ⟨⟨_, _, Course.followed _ (by decide +kernel)⟩, rfl, ⟨[], rfl⟩,
      ⟨_, rfl, rfl, rfl, rfl⟩,
      distinct_pair rfl rfl (by decide)⟩
  have hleaves : ∀ (i : Nat), ∀ d ∈ List.replicate i Deed.turn,
      LeavesAlone ["a", "b"] d := by
    rintro i d hd name a rfl
    cases List.eq_of_mem_replicate hd
  have hcourse : Course stoppedCoordinator
      (beforeStop.after stoppedCoordinator .turn) (List.replicate 7 .turn)
      (stoppedAfter 7) := Course.followed _ (by decide +kernel)
  obtain ⟨-, hwinds, -⟩ := hb.cut_short nofun (fun _ _ => rfl) hcourse
    (hleaves 7)
  obtain ⟨s, hs, hcall, hdown, hnone⟩ : ∃ s,
      (stoppedAfter 7).session = some s ∧ s.call = 0 ∧ s.running = false
        ∧ s.result = none := by
    have hfacts : (stoppedAfter 7).session.map (fun s =>
        (s.call, s.running, s.result.isNone)) = some (0, false, true) := by
      decide +kernel
    obtain ⟨s, hs, heq⟩ := Option.map_eq_some_iff.1 hfacts
    injection heq with hcall heq
    injection heq with hdown hnone
    exact ⟨s, hs, hcall, hdown, Option.isNone_iff_eq_none.1 hnone⟩
  have hwinds := hwinds s hs hcall (by decide +kernel) hnone hdown
  have hsized : Sized stoppedCoordinator 10 10 := by
    have hten : ((10 : Int) : Rat) < Binary64.bound := by
      unfold Binary64.bound Binary64.lastHalf
      decide +kernel
    exact ⟨nofun, ⟨rfl, rfl⟩, hten, hten, nofun, nofun, _, rfl⟩
  have hcast : CastReady stoppedCoordinator beforeStop ["a", "b"]
      stoppedPair := by
    intro id hid
    simp only [List.mem_cons, List.not_mem_nil, or_false] at hid
    rcases hid with rfl | rfl
    · refine ⟨fun a ha => ?_, trivial, trivial⟩
      cases ha
      exact ⟨⟨_, rfl⟩, ⟨_, rfl⟩, ⟨_, rfl⟩⟩
    · refine ⟨fun a ha => ?_, ⟨_, rfl⟩, trivial⟩
      cases ha
      exact ⟨⟨_, rfl⟩, ⟨_, rfl⟩, ⟨_, rfl⟩⟩
  refine ⟨hb, ⟨s, hs, hwinds⟩, hsized, hcast, ?_⟩
  -- from there the pair goes on to the end of its call
  obtain ⟨e, hf, hturns⟩ := turns_to_rest (c := stoppedCoordinator)
    (w := stoppedAfter 7) 20 (by decide +kernel)
  refine ⟨e, hf, hwinds.returns 10 10 hsized hcast ?_ e hf ?_ ?_⟩
  · intro hmem
    cases List.eq_of_mem_replicate hmem
  · intro k name a hput
    rw [hturns k] at hput
    cases hput
  · intro k hkill
    rw [hturns k] at hkill
    cases hkill

/-- Steps that take longer than can be measured, and the same observer. -/
def endlessCoordinator : Coordinator :=
  ⟨{ Config.standard with stepMs := .int (10 ^ 400) }, none, stopsAtOnce,
    .absent⟩

/-- The world in which a call begins that gives one agent one step. -/
def beforeEndless : World :=
  ((initial [("a", .atStart (.str "a") [0, 0] 90)]).follow endlessCoordinator
    [.call (.programs [("a", [.move 1])]) ["a"], .turn]).getD (.initial [])

/-- The world in which the flag has just fallen. -/
def endlessStop : World :=
  ((beforeEndless.after endlessCoordinator .turn).follow endlessCoordinator
    (List.replicate 7 .turn)).getD (.initial [])

/-- The world two steps of the event loop later. -/
def endlessEnd : World :=
  (endlessStop.follow endlessCoordinator
    (List.replicate 2 .turn)).getD (.initial [])

/-- The world in which a call begins that lets one agent wait for no time and
    then take one step. -/
def beforeKill : World :=
  ((initial [("a", .atStart (.str "a") [0, 0] 90)]).follow watchedCoordinator
    [.call (.programs [("a", [.wait 0, .move 1])]) ["a"],
      .turn]).getD (.initial [])

/-- The world in which the observer is shown the end of the wait. -/
def atKill : World :=
  ((beforeKill.after watchedCoordinator .turn).follow watchedCoordinator
    (List.replicate 9 .turn)).getD (.initial [])

/-- The world some steps of the event loop after the kill of the call. -/
def afterKill : World :=
  ((atKill.after watchedCoordinator (.kill 0)).follow watchedCoordinator
    (List.replicate 5 .turn)).getD (.initial [])

/-- The flag falls at the snapshot of a step, and only then the pause of the
    step turns out to be too long: an agent fails that had not failed
    before.  And a call is killed from inside the observer, which is shown
    the end of a wait: the agent takes its next step all the same, and is
    shown after it. -/
theorem cut_short_endless :
    (Begins endlessCoordinator beforeEndless 0 ["a"] [("a", [.move 1])] []
      ∧ Course endlessCoordinator
        (beforeEndless.after endlessCoordinator .turn)
        (List.replicate 7 .turn) endlessStop
      ∧ Course endlessCoordinator endlessStop (List.replicate 2 .turn)
        endlessEnd
      ∧ ∃ s s', endlessStop.session = some s
        ∧ endlessEnd.session = some s'
        ∧ endlessStop.idle = false ∧ s.running = false ∧ s.result = none
        ∧ ¬ Spared s s')
      ∧ Begins watchedCoordinator beforeKill 0 ["a"]
        [("a", [.wait 0, .move 1])] []
      ∧ Course watchedCoordinator
        (beforeKill.after watchedCoordinator .turn)
        (List.replicate 9 .turn) atKill
      ∧ atKill.current = some 0 ∧ atKill.Admits (.kill 0)
      ∧ Course watchedCoordinator
        (atKill.after watchedCoordinator (.kill 0))
        (List.replicate 5 .turn) afterKill
      ∧ (∃ s, afterKill.session = some s ∧ s.call = 0)
      ∧ afterKill.events ≠ atKill.events := by
  -- an agent alone has a name of its own
  have hone : ∀ w : World, ∀ i ∈ ["a"], ∀ j ∈ ["a"], ∀ a b,
      w.agent? i = some a → w.agent? j = some b → a.id = b.id → i = j := by
    intro w i hi j hj _ _ _ _ _
    rw [List.mem_singleton.1 hi, List.mem_singleton.1 hj]
  refine ⟨⟨⟨⟨_, _, Course.followed _ (by decide +kernel)⟩, rfl, ⟨[], rfl⟩,
      ⟨_, rfl, rfl, rfl, rfl⟩, hone _⟩, Course.followed _ (by decide +kernel),
    Course.followed _ (by decide +kernel), ?_⟩,
    ⟨⟨_, _, Course.followed _ (by decide +kernel)⟩, rfl, ⟨[], rfl⟩,
      ⟨_, rfl, rfl, rfl, rfl⟩, hone _⟩, Course.followed _ (by decide +kernel),
    by decide +kernel, by decide +kernel,
    Course.followed _ (by decide +kernel), ?_, ?_⟩
  · have hbefore : endlessStop.session.map (fun s => (s.running,
        s.result.isNone, s.tasks.map (·.ending.isNone)))
          = some (false, true, [true]) := by
      decide +kernel
    have hafter : endlessEnd.session.map
        (fun s => s.tasks.map fun t => (failure? t).isSome)
          = some [true] := by
      decide +kernel
    obtain ⟨s, hs, heq⟩ := Option.map_eq_some_iff.1 hbefore
    injection heq with hdown heq
    injection heq with hnone hgoes
    obtain ⟨s', hs', hfails⟩ := Option.map_eq_some_iff.1 hafter
    refine ⟨s, s', hs, hs', by decide +kernel, hdown,
      Option.isNone_iff_eq_none.1 hnone, fun hspared => ?_⟩
    obtain ⟨t, ht⟩ := List.map_eq_singleton_iff.1 hgoes
    obtain ⟨t', ht'⟩ := List.map_eq_singleton_iff.1 hfails
    obtain ⟨f, hf⟩ : ∃ f, t'.ending = some (.failed f) := by
      have hsome := ht'.2
      unfold failure? at hsome
      split at hsome
      · exact ⟨_, ‹_›⟩
      · cases hsome
    obtain ⟨u, hu, hno⟩ := hspared 0 t' f (by rw [ht'.1]; rfl) hf
    rw [ht.1] at hu
    obtain rfl := Option.some.inj hu
    rw [hno] at ht
    cases ht.2
  · have hcall : afterKill.session.map (·.call) = some 0 := by
      decide +kernel
    exact Option.map_eq_some_iff.1 hcall
  · intro hsame
    have hlater := congrArg List.length hsame
    have hfew : (atKill.events.length, afterKill.events.length) = (1, 2) := by
      decide +kernel
    injection hfew with hone htwo
    rw [hone, htwo] at hlater
    cases hlater

end

end World

end BlockStage
