import BlockStage.Proofs.Run.Presence
import BlockStage.Proofs.Session.Endings
import BlockStage.Proofs.Session.Repose

/-! # Winding down — a session after its flag has fallen

    Once the flag is down an agent goes on only to its next check, and at
    most one snapshot is shown on the way there, the one that ends a wait or
    the one with which a message is taken down; on a stage that can be
    played on nothing on the way can fail.  `Winds` and `Spared` say so of
    all agents of a session, and every move keeps them. -/

namespace BlockStage

open Act

/-- How many snapshots an agent shows before its next check. -/
def AgentTask.dues (t : AgentTask) : Nat :=
  match t.ending, t.walker with
  | none, some walker => Act.dues walker.todo
  | _, _ => 0

/-- An agent that can set out and be shown. -/
structure Agent.Ready [Arithmetic] (c : Config) (a : Agent) : Prop where
  name : ∃ t, a.id = .str t
  start : ∃ p, clampPosition c a.startPosition = .ok p
  heading : ∃ x, Lenient.measure a.startHeading = .ok x

namespace World

/-- A stage on which agents can be shown: a grid whose cells can be measured,
    a goal of numbers if there is one, an observer, and a ceiling that is
    accepted. -/
structure Showable [Arithmetic] (c : Coordinator) (columns rows : Int) :
    Prop where
  measured : (scene c).Measured columns rows
  observed : c.observer.mode ≠ .absent
  ceiling : ∃ v, checkCeiling c.config.loopCeiling = .ok v

/-- A stage that can be played on: agents can be shown on it, and its pauses
    can be calculated. -/
structure Playable [Arithmetic] (c : Coordinator) (columns rows : Int) :
    Prop extends Showable c columns rows where
  pauses : ∀ ms, ms = c.config.stepMs ∨ ms = c.config.turnMs
      ∨ ms = c.config.sayMs →
    ∃ seconds, Walker.pauseSeconds ms = .ok seconds

variable [Arithmetic] {c : Coordinator} {columns rows : Int}

/-! ## One act -/

/-- What a run alone keeps on a stage on which agents can be shown. -/
theorem alone_kept (hc : Showable c columns rows) {a₀ : Agent}
    (ha : a₀.Ready c.config) {p : Program}
    (hp : Instruction.EveryOf Instruction.IsSpoken p) (k : Nat) :
    Solo.Kept (scene c) columns rows a₀ (alone c p a₀ k) := by
  obtain ⟨v, hv⟩ := hc.ceiling
  unfold alone
  rw [outset_ok hv]
  exact Solo.run_keeps (.start ha.name ha.heading hp)
    (fun r hr hnone => hr.step hc.measured hc.observed ha.start hnone) k

/-- With the flag down nothing fails on the way to the next check. -/
theorem Playable.unfailing (hc : Playable c columns rows) {a₀ : Agent}
    (ha : a₀.Ready c.config) {r : Solo}
    (hr : Solo.Kept (scene c) columns rows a₀ r) (hnone : r.outcome = none)
    (hp : Poised c.config r.walker.todo ∨ Fresh r.walker.todo) {now : Time}
    {f : RunFault} :
    (r.walker.step (scene c) now false r.agent).signal ≠ .fail f := by
  have hpause : ∀ {ms rest}, r.walker.todo = .pause ms :: rest →
      ms = c.config.stepMs ∨ ms = c.config.turnMs ∨ ms = c.config.sayMs →
      (r.walker.step (scene c) now false r.agent).signal ≠ .fail f := by
    intro ms rest htodo hms hno
    obtain ⟨seconds, hs⟩ := hc.pauses ms hms
    unfold Walker.step at hno
    rw [htodo] at hno
    dsimp only at hno
    rw [hs] at hno
    cases hno
  rcases hp with hp | ⟨rest, -, htodo⟩
  · generalize htodo : r.walker.todo = todo at hp
    cases hp with
    | @check rest =>
        unfold Walker.step
        rw [htodo]
        exact nofun
    | rests hms =>
        refine hpause htodo ?_
        rcases hms with hms | hms
        · exact .inl hms
        · exact .inr (.inl hms)
    | shows =>
        unfold Walker.step
        rw [htodo]
        exact nofun
    | hushes =>
        unfold Walker.step
        rw [htodo]
        exact nofun
    | speaks => exact hpause htodo (.inr (.inr rfl))
  · -- setting out brings the agent onto the grid
    cases hr.placed with
    | begins _ _ hreset =>
        obtain ⟨p, hp⟩ := ha.start
        intro hno
        unfold Walker.step at hno
        rw [htodo, hreset] at hno
        dsimp only [Agent.reset] at hno
        rw [show (scene c).config = c.config from rfl, hp] at hno
        cases hno
    | goes _ hfit => exact absurd htodo (hfit.unplaced _)
    | ended hover => rw [hnone] at hover; cases hover

/-- With the flag down an act shows only what was due. -/
theorem dues_step {walker : Walker} {a : Agent}
    (hp : Poised c.config walker.todo ∨ Fresh walker.todo) {now : Time}
    {o : Observer} {count : Nat} {n : Step} {e : Verdict}
    (hn : n = walker.step (scene c) now false a)
    (he : e = verdict o count now n.agent false n.signal) :
    e.shown.length ≤ dues walker.todo
      ∧ (e.outcome = none →
        e.shown.length + dues n.walker.todo ≤ dues walker.todo) := by
  rcases Walker.step_cases (scene c) now false a walker with
    ⟨-, heq⟩ | ⟨-, rest, log, -, heq⟩ | ⟨f, hsig, -⟩ | hadv
  · rw [he, hn, heq]
    exact ⟨Nat.zero_le _, nofun⟩
  · rw [he, hn, heq]
    exact ⟨Nat.zero_le _, nofun⟩
  · rw [he, hn, hsig]
    exact ⟨Nat.zero_le _, nofun⟩
  · rw [← hn] at hadv
    -- a check would have stopped the run
    have hno : ∀ rest, walker.todo ≠ .check :: rest := by
      intro rest htodo
      have hsig : n.signal = .proceed := by
        rw [htodo] at hadv
        exact hadv.checks
      rw [hn] at hsig
      exact Walker.check_stops htodo hsig
    obtain ⟨-, ⟨hemit, hdues⟩ | ⟨hemit, hdues⟩⟩ := hadv.winds hp hno
    · rw [hemit] at he
      rcases verdict_emit o count now n.agent false with
        ⟨-, heq⟩ | ⟨-, ms, -, heq⟩ | ⟨-, snapshot, -, heq⟩
      · rw [he, heq]
        refine ⟨Nat.zero_le _, fun _ => ?_⟩
        show 0 + _ ≤ _
        omega
      · rw [he, heq]
        exact ⟨Nat.zero_le _, nofun⟩
      · rw [he, heq]
        refine ⟨?_, fun _ => ?_⟩
        · show 1 ≤ _
          omega
        · show 1 + _ ≤ _
          omega
    · rw [he, hadv.unshown hemit]
      refine ⟨Nat.zero_le _, fun _ => ?_⟩
      show 0 + _ ≤ _
      omega

/-- With the flag down an act fails nobody. -/
theorem Playable.spares (hc : Playable c columns rows) {a₀ : Agent}
    (ha : a₀.Ready c.config) {r : Solo}
    (hr : Solo.Kept (scene c) columns rows a₀ r) (hnone : r.outcome = none)
    (hp : Poised c.config r.walker.todo ∨ Fresh r.walker.todo) {now : Time}
    {count : Nat} {n : Step} {e : Verdict}
    (hn : n = r.walker.step (scene c) now false r.agent)
    (he : e = verdict c.observer.prompt count now n.agent false n.signal)
    (f : RunFault) :
    e.outcome ≠ some (.failed f) := by
  rcases Walker.step_cases (scene c) now false r.agent r.walker with
    ⟨-, heq⟩ | ⟨-, rest, log, -, heq⟩ | ⟨f, hsig, -⟩ | hadv
  · rw [he, hn, heq]
    exact nofun
  · rw [he, hn, heq]
    exact nofun
  · exact absurd hsig (hc.unfailing ha hr hnone hp)
  · rw [← hn] at hadv
    by_cases hemit : n.signal = .emit
    · -- the agent can be shown where it is
      have hcell : n.agent.OnCell columns rows ∧ n.agent.Readable := by
        cases hr.placed with
        | begins _ hfresh =>
            exact ⟨hadv.onCell hc.measured (.inr hfresh),
              hadv.readable hc.measured (.inr hfresh) hr.spoken hr.readable⟩
        | goes _ hfit hcell =>
            exact ⟨hadv.onCell hc.measured (.inl ⟨hfit, hcell⟩),
              hadv.readable hc.measured (.inl hfit) hr.spoken hr.readable⟩
        | ended hover => rw [hnone] at hover; cases hover
      obtain ⟨snapshot, hsnap⟩ := hcell.2.snapshot hc.measured hcell.1
      rw [hemit] at he
      rcases verdict_emit c.observer.prompt count now n.agent false with
        ⟨hno, -⟩ | ⟨-, ms, hno, -⟩ | ⟨-, snapshot', -, heq⟩
      · exact absurd hno hc.observed
      · rw [hsnap] at hno
        cases hno
      · rw [he, heq]
        exact nofun
    · rw [he, hadv.unshown hemit]
      exact nofun

/-! ## Along a course -/

variable {w v v' : World} {n : Nat} {cast : List String}
  {programs : List (String × Program)}
  {warnings : List (String × List WarningReport)} {s s' : Session}

/-- Everybody in a cast can set out and says only text. -/
def CastReady (c : Coordinator) (w : World) (cast : List String)
    (programs : List (String × Program)) : Prop :=
  ∀ id ∈ cast, (∀ a, w.agent? id = some a → a.Ready c.config)
    ∧ Instruction.EveryOf Instruction.IsSpoken (given programs id)

/-- What an agent shows after a moment up to which it has shown some
    snapshots: nothing, or the next one of its run alone, if that ends a
    wait or takes a message down. -/
inductive Trails (c : Coordinator) (p : Program) (a₀ : Agent)
    (past : List Snapshot) : List Snapshot → Prop
  | nothing : Trails c p a₀ past []
  | last {k : Nat} {e : Event} :
      past = (alone c p a₀ k).shown.map (·.snapshot) →
      Concludes c p a₀ k e → Trails c p a₀ past [e.snapshot]

/-- What has become of a session since its flag was down: nobody has shown,
    or has to show before its next check, more than one snapshot, and that
    one ends a wait or takes a message down. -/
def Winds (c : Coordinator) (w : World) (news : List Event) (s : Session)
    (shown : List Event) : Prop :=
  ∃ later, shown = later ++ (news ++ w.shown)
    ∧ ∀ t ∈ s.tasks, ∀ a₀, w.agent? t.agentId = some a₀ →
      (a₀.shownIn later).length + t.dues ≤ 1
        ∧ Trails c t.program a₀ (a₀.shownIn news) (a₀.shownIn later)

/-- Nobody has failed who had not failed before. -/
def Spared (before s : Session) : Prop :=
  ∀ (i : Nat) (t : AgentTask) (f : RunFault), s.tasks[i]? = some t →
    t.ending = some (.failed f) →
    ∃ u, before.tasks[i]? = some u ∧ u.ending = some (.failed f)

/-- It goes on if no part has more to show, and nothing is shown. -/
theorem Winds.same {news shown : List Event} (h : Winds c w news s shown)
    (hparts : ∀ t' ∈ s'.tasks, ∃ t ∈ s.tasks, t'.agentId = t.agentId
      ∧ t'.program = t.program ∧ t'.dues ≤ t.dues) :
    Winds c w news s' shown := by
  obtain ⟨later, rfl, hold⟩ := h
  refine ⟨later, rfl, fun t' ht' a₀ ha₀ => ?_⟩
  obtain ⟨t, ht, hid, hprog, hdues⟩ := hparts t' ht'
  obtain ⟨hlen, htrails⟩ := hold t ht a₀ (hid ▸ ha₀)
  exact ⟨by omega, hprog ▸ htrails⟩

/-- A change of one part that has no more to show. -/
theorem Winds.modify {news shown : List Event} (h : Winds c w news s shown)
    {i : Nat} {t : AgentTask} {f : AgentTask → AgentTask}
    (ht : s.tasks[i]? = some t) (htasks : s'.tasks = s.tasks.modify i f)
    (hid : (f t).agentId = t.agentId) (hprog : (f t).program = t.program)
    (hdues : (f t).dues ≤ t.dues) : Winds c w news s' shown := by
  refine h.same fun t' ht' => ?_
  obtain ⟨j, hj⟩ := List.mem_iff_getElem?.1 ht'
  rw [htasks] at hj
  rcases modify_getElem? hj with ⟨rfl, u, hu, rfl⟩ | ⟨-, hu⟩
  · obtain rfl := Option.mem_unique ht hu
    exact ⟨t, List.mem_of_getElem? ht, hid, hprog, hdues⟩
  · exact ⟨t', List.mem_of_getElem? hu, rfl, rfl, Nat.le_refl _⟩

/-- When the flag is down at most one snapshot is due of everybody. -/
theorem Reposed.winds (h : Reposed c v s) (hdown : s.running = false)
    {news : List Event} (hnews : v.shown = news ++ w.shown) :
    Winds c w news s v.shown := by
  refine ⟨[], hnews, fun t ht a₀ _ => ⟨?_, .nothing⟩⟩
  obtain ⟨i, hi⟩ := List.mem_iff_getElem?.1 ht
  show 0 + t.dues ≤ 1
  unfold AgentTask.dues
  split
  · rename_i walker hend hwalk
    rcases (h i t walker hi hwalk hend).2.1 (.inr hdown) with hp | hfresh
    · have := hp.dues_le
      omega
    · have := hfresh.dues_eq
      omega
  · omega

omit [Arithmetic] in
theorem Spared.refl (s : Session) : Spared s s :=
  fun _ t _ ht hf => ⟨t, ht, hf⟩

omit [Arithmetic] in
/-- It goes on if no part fails. -/
theorem Spared.change {before : Session} (h : Spared before s)
    (hparts : ∀ (i : Nat) (t' : AgentTask) (f : RunFault),
      s'.tasks[i]? = some t' → t'.ending = some (.failed f) →
      ∃ t, s.tasks[i]? = some t ∧ t.ending = some (.failed f)) :
    Spared before s' := by
  intro i t' f ht' hf'
  obtain ⟨t, ht, hf⟩ := hparts i t' f ht' hf'
  exact h i t f ht hf

/-- A flag that is down stays down until the session is scored. -/
theorem Mirrors.down (h : Mirrors c w n cast programs warnings true v s)
    (hf : Flight v s) (hidle : v.idle = false) {i : Nat} {t : AgentTask}
    (ht : s.tasks[i]? = some t) (hend : t.ending = none) :
    s.running = false :=
  h.flag hidle (hf.unscored ht hend)

/-- An agent that acts while the flag is down shows what was due of it. -/
theorem Part.winds {cut : Bool} {t : AgentTask} {a a₀ : Agent}
    {walker : Walker} {k count : Nat} {now : Time} {m : Step} {e : Verdict}
    {later news : List Event} (hmode : c.config.mode ≠ .canvas)
    (h : Part c a₀ cut t a (a₀.shownIn (later ++ news))
      (alone c t.program a₀ k))
    (hwalk : t.walker = some walker) (hend : t.ending = none)
    (hstep : m = walker.step (scene c) now false a)
    (he : e = verdict c.observer.prompt count now m.agent false m.signal)
    (hsink : (c.observer.reaction (count + 1)).fails = false)
    (hp : Poised c.config walker.todo ∨ Fresh walker.todo)
    (hlen : (a₀.shownIn later).length + t.dues ≤ 1)
    (hown : a₀.shownIn e.shown = e.shown.map (·.snapshot))
    (htrails : Trails c t.program a₀ (a₀.shownIn news) (a₀.shownIn later)) :
    (a₀.shownIn (e.shown ++ later)).length
        + AgentTask.dues { t with
          walker := some m.walker
          showing := c.observer.errand? count e.shown
          ending := e.outcome.map (Outcome.toEnd t.doomed) } ≤ 1
      ∧ Trails c t.program a₀ (a₀.shownIn news)
        (a₀.shownIn (e.shown ++ later)) := by
  obtain ⟨hshow, hgoes⟩ := dues_step hp hstep he
  have hbefore : t.dues = dues walker.todo := by
    simp only [AgentTask.dues, hend, hwalk]
  rw [Agent.shownIn_append, List.length_append, hown, List.length_map]
  constructor
  · cases hout : e.outcome with
    | none =>
        have := hgoes hout
        simp only [AgentTask.dues, Option.map_none]
        omega
    | some o =>
        simp only [AgentTask.dues, Option.map_some]
        omega
  cases hone : e.shown with
  | nil => exact htrails
  | cons x xs =>
      -- something was due, so nothing has been shown before
      rw [hone, List.length_cons] at hshow
      have hnothing : a₀.shownIn later = [] :=
        List.length_eq_zero_iff.1 (by omega)
      have hlast : xs = [] := by
        have := hp.elim Poised.dues_le fun hf => hf.dues_eq.le.trans (by omega)
        exact List.length_eq_zero_iff.1 (by omega)
      subst hlast
      obtain ⟨k', h'⟩ := h.acts hmode hwalk hend hstep he hsink
      rw [hown, hone] at h'
      obtain ⟨j, y, hj, hshows⟩ := h'.sees rfl
      have hseen : (verdict c.observer.prompt count now m.agent false
          m.signal).shown ≠ [] := by
        rw [← he, hone]
        exact nofun
      obtain ⟨hemit, -, -, hnone⟩ := verdict_shows hseen
      rw [← he] at hnone
      obtain ⟨rfl, hgoes', rfl⟩ := h.stands.acting hwalk hend
      obtain ⟨hwalker, -⟩ := h'.stands.acting rfl (by rw [hnone rfl]; rfl)
      have hadv : Advance (scene c) now (alone c t.program a₀ k).agent
          (alone c t.program a₀ k).walker.todo m.agent m.walker.todo
          m.signal := by
        have hgoes := Walker.step_advances (scene c) now now false
          (alone c t.program a₀ k).agent (alone c t.program a₀ k).walker
          c.observer.prompt count
        rw [← hstep, ← he, hnone rfl] at hgoes
        exact hgoes.resolve_left nofun
      -- what is shown on the way to a check stands right in front of it
      obtain ⟨rest, hcheck⟩ : ∃ rest, m.walker.todo = .check :: rest := by
        rw [(hadv.showing hemit).1] at hp
        rcases hp with hp | ⟨rest, -, hno⟩
        · obtain ⟨rest, -, hcheck⟩ := hp.checked
          exact ⟨rest, hcheck⟩
        · cases hno
      have hstands : (alone c t.program a₀ (j + 1)).walker.todo
          = .check :: rest := by
        rw [← hj, ← hwalker, hcheck]
      have hconcludes := hshows.concludes hmode hstands
      have hsame := h'.shown
      rw [hj, hshows.shown, Agent.shownIn_append, hnothing] at hsame
      injection hsame with hx hpast
      rw [hnothing]
      show Trails c t.program a₀ _ [x.snapshot]
      rw [show x.snapshot = y.snapshot from hx]
      exact .last hpast hconcludes

/-- An agent that acts while the flag is down shows what was due of it, and
    nothing of anybody else. -/
theorem Winds.acts (hb : Begins c w n cast programs warnings)
    (hmode : c.config.mode ≠ .canvas)
    (hsink : ∀ k, w.shown.length < k → (c.observer.reaction k).fails = false)
    (hm : Mirrors c w n cast programs warnings true v s)
    (hf : Flight v s) (hidle : v.idle = false) (hr : Reposed c v s)
    {news : List Event} (hwinds : Winds c w news s v.shown)
    {i : Nat} {t : AgentTask} {walker : Walker} {a : Agent} {m : Step}
    {e : Verdict} (ht : s.tasks[i]? = some t)
    (hwalk : t.walker = some walker) (hend : t.ending = none)
    (ha : v.agent? t.agentId = some a)
    (hstep : m = walker.step (scene c) v.now s.running a)
    (he : e = verdict c.observer.prompt v.shown.length v.now m.agent
      s.running m.signal)
    (htasks : s'.tasks = s.tasks.modify i fun u => { u with
      walker := some m.walker
      showing := c.observer.errand? v.shown.length e.shown
      ending := e.outcome.map (Outcome.toEnd t.doomed) }) :
    Winds c w news s' (e.shown ++ v.shown) := by
  have hdown := hm.down hf hidle ht hend
  obtain ⟨hown, hothers⟩ := hm.exhibits hb hb.known.1 ht hwalk hend ha
    hstep c.observer.prompt v.shown.length v.now s.running
  rw [← he] at hown hothers
  obtain ⟨all, hall, hparts⟩ := hm.parts
  obtain ⟨later, hlater, hold⟩ := hwinds
  obtain rfl : all = later ++ news := by
    rw [hall, ← List.append_assoc] at hlater
    exact List.append_cancel_right hlater
  refine ⟨e.shown ++ later, by rw [hlater, List.append_assoc],
    fun t' ht' a₀ ha₀ => ?_⟩
  obtain ⟨j, hj⟩ := List.mem_iff_getElem?.1 ht'
  rw [htasks] at hj
  rcases modify_getElem? hj with ⟨rfl, u, hu, rfl⟩ | ⟨hij, hu⟩
  · obtain rfl := Option.mem_unique ht hu
    obtain ⟨a₁, b, k, ha₁, hb₁, hpart⟩ := hparts i t ht
    obtain rfl := Option.mem_unique ha₀ ha₁
    obtain rfl := Option.mem_unique ha hb₁
    obtain ⟨hlen, htrails⟩ := hold t (List.mem_of_getElem? ht) a₀ ha₀
    rw [hdown] at hstep he
    exact hpart.winds hmode hwalk hend hstep he (hsink _ hm.shown_lt)
      ((hr i t walker ht hwalk hend).2.1 (.inr hdown)) hlen (hown a₀ ha₀)
      htrails
  · rw [Agent.shownIn_append, hothers j t' hu hij a₀ ha₀]
    exact hold t' (List.mem_of_getElem? hu) a₀ ha₀

/-- With the flag down every move winds the session down. -/
theorem Moves.winds (hb : Begins c w n cast programs warnings)
    (hmode : c.config.mode ≠ .canvas)
    (hsink : ∀ k, w.shown.length < k → (c.observer.reaction k).fails = false)
    (hm : Mirrors c w n cast programs warnings true v s)
    (hf : Flight v s) (hidle : v.idle = false) (hr : Reposed c v s)
    {d : Deed} (h : Moves c v s d v') (hs' : v'.session = some s')
    {news : List Event} (hwinds : Winds c w news s v.shown) :
    Winds c w news s' v'.shown := by
  have hstays : v'.shown = v.shown → s'.tasks = s.tasks →
      Winds c w news s' v'.shown := by
    intro hshown htasks
    rw [hshown]
    exact hwinds.same fun t ht => ⟨t, htasks ▸ ht, rfl, rfl, Nat.le_refl _⟩
  cases h with
  | stays _ hk hs =>
      obtain rfl := Option.mem_unique hs hs'
      exact hstays hk.shown rfl
  | lowers hk hs =>
      obtain rfl := Option.mem_unique hs hs'
      exact hstays hk.shown rfl
  | puts =>
      obtain rfl := Option.mem_unique hm.session hs'
      exact hstays rfl rfl
  | dooms hk hs =>
      obtain rfl := Option.mem_unique hs hs'
      rw [hk.shown]
      refine hwinds.same fun t ht => ?_
      obtain ⟨i, hi⟩ := List.mem_iff_getElem?.1 ht
      obtain ⟨u, hu, rfl | rfl⟩ := doomFirst_getElem? hi
      · exact ⟨_, List.mem_of_getElem? hu, rfl, rfl, Nat.le_refl _⟩
      · exact ⟨u, List.mem_of_getElem? hu, rfl, rfl, Nat.le_refl _⟩
  | acts _ ht hwalk hend _ ha hstep he _ hshown _ _ hs =>
      obtain rfl := Option.mem_unique hs hs'
      rw [hshown]
      exact hwinds.acts hb hmode hsink hm hf hidle hr ht hwalk hend ha hstep
        he rfl
  | attends _ ht _ _ _ _ hk hs =>
      obtain rfl := Option.mem_unique hs hs'
      rw [hk.shown]
      exact hwinds.modify ht rfl rfl rfl (Nat.le_refl _)
  | stumbles _ ht _ _ _ _ _ hk hs =>
      obtain rfl := Option.mem_unique hs hs'
      rw [hk.shown]
      exact hwinds.modify ht rfl rfl rfl (Nat.zero_le _)
  | setsOut ht _ hend _ _ hk hs =>
      obtain rfl := Option.mem_unique hs hs'
      rw [hk.shown]
      refine hwinds.modify ht rfl rfl rfl ?_
      simp only [AgentTask.dues, hend]
      rw [(Walker.start_fresh _).dues_eq]
      exact Nat.zero_le _
  | dies ht _ _ hk hs =>
      obtain rfl := Option.mem_unique hs hs'
      rw [hk.shown]
      exact hwinds.modify ht rfl rfl rfl (Nat.zero_le _)
  | dozes _ _ _ _ _ hshown _ _ hs =>
      obtain rfl := Option.mem_unique hs hs'
      exact hstays hshown rfl
  | drowses _ _ _ _ _ _ hk hs =>
      obtain rfl := Option.mem_unique hs hs'
      exact hstays hk.shown rfl
  | leaves _ _ hshown _ hs _ htasks =>
      obtain rfl := Option.mem_unique hs hs'
      exact hstays hshown htasks

/-- An agent that acts while the flag is down winds down like its run alone,
    so it does not fail on a stage that can be played on. -/
theorem Mirrors.spares (hc : Playable c columns rows)
    (hcast : CastReady c w cast programs)
    (hm : Mirrors c w n cast programs warnings true v s)
    (hf : Flight v s) (hidle : v.idle = false) (hr : Reposed c v s)
    {i : Nat} {t : AgentTask} {walker : Walker} {a : Agent} {m : Step}
    {e : Verdict} (ht : s.tasks[i]? = some t)
    (hwalk : t.walker = some walker) (hend : t.ending = none)
    (ha : v.agent? t.agentId = some a)
    (hstep : m = walker.step (scene c) v.now s.running a)
    (he : e = verdict c.observer.prompt v.shown.length v.now m.agent
      s.running m.signal) (f : RunFault) : e.outcome ≠ some (.failed f) := by
  have hdown := hm.down hf hidle ht hend
  obtain ⟨_, -, hparts⟩ := hm.parts
  obtain ⟨a₁, b, k, ha₁, hb₁, hpart⟩ := hparts i t ht
  obtain rfl := Option.mem_unique ha hb₁
  have hmem := List.mem_of_getElem? ht
  have hready := hcast _ (hm.mem_cast hmem)
  obtain ⟨rfl, hnone, hagent⟩ := hpart.stands.acting hwalk hend
  rw [hdown, hagent] at hstep
  rw [hdown] at he
  have hkept := alone_kept hc.toShowable (hready.1 a₁ ha₁) (p := t.program)
    (by rw [hm.given hmem]; exact hready.2) k
  exact hc.spares (hready.1 a₁ ha₁) hkept hnone
    ((hr i t _ ht hwalk hend).2.1 (.inr hdown)) hstep he f

/-- With the flag down no move fails anybody, on a stage that can be played
    on. -/
theorem Moves.spares (hc : Playable c columns rows)
    (hcast : CastReady c w cast programs)
    (hm : Mirrors c w n cast programs warnings true v s)
    (hf : Flight v s) (hidle : v.idle = false) (hr : Reposed c v s)
    {d : Deed} (h : Moves c v s d v') (hs' : v'.session = some s')
    {before : Session} (hspared : Spared before s) : Spared before s' := by
  refine hspared.change fun i t' f ht' hf' => ?_
  obtain ⟨t, ht, halters⟩ := (h.alters hm.session hs').2 ht'
  cases halters with
  | stays => exact ⟨_, ht, hf'⟩
  | dooms => exact ⟨t, ht, hf'⟩
  | acts hwalk hend _ ha hstep he =>
      obtain ⟨o, ho, hog⟩ := Option.map_eq_some_iff.1 hf'
      rcases Outcome.toEnd_cases t.doomed o with hsame | ⟨-, hkill⟩
      · cases o with
        | failed g =>
            exact absurd ho
              (hm.spares hc hcast hf hidle hr ht hwalk hend ha hstep he g)
        | _ => rw [hsame] at hog; cases hog
      · rw [hkill] at hog
        cases hog
  | attends => exact ⟨t, ht, hf'⟩
  | stumbles _ _ hshow hrude =>
      -- the observer raises no error
      obtain ⟨news, -, hparts⟩ := hm.parts
      obtain ⟨a₀, a, k, -, -, hp⟩ := hparts i t ht
      rw [hp.kind _ hshow] at hrude
      cases hrude
  | setsOut => exact ⟨t, ht, hf'⟩
  | dies _ hwhy =>
      rcases hwhy with ⟨rfl, -⟩ | ⟨g, hg, -⟩
      · cases hf'
      · obtain ⟨x, hx⟩ := hc.ceiling
        rw [hx] at hg
        cases hg

end World

end BlockStage
