import BlockStage.Proofs.Session.Turnover
import BlockStage.Proofs.Session.Winding

/-! # Killing — what is shown after the kill of a call

    A kill takes effect where an agent next gives up its turn.  So nothing
    is shown any more after a kill while nobody acts (`Course.stilled`).  A
    kill from inside the observer leaves the agent that is being shown its
    turn: after a step, a turn or a new message it has to pause at once, but
    after a wait or with its message taken down it begins something else,
    and may be shown once more before it pauses (`Lapses`).  -/

namespace BlockStage

namespace Act

/-- What an agent may have left to do that is shown at most so often before
    it gives up its turn. -/
inductive Onward : Nat → List Act → Prop
  /-- It goes on to a check. -/
  | check {k : Nat} {rest : List Act} : Steady rest →
      Onward (k + 1) (.check :: rest)
  /-- In the middle of its instructions. -/
  | steady {k : Nat} {todo : List Act} : Steady todo → Onward (k + 1) todo
  /-- It has to be shown, and then it pauses. -/
  | shows {k : Nat} {ms : Value} {rest : List Act} :
      Onward (k + 1) (.emit :: .pause ms :: rest)
  /-- It pauses. -/
  | pauses {k : Nat} {ms : Value} {rest : List Act} :
      Onward k (.pause ms :: rest)

end Act

open Act

/-- On the grid an agent is shown no more often than it may be before it
    gives up its turn. -/
theorem Advance.onward [Arithmetic] {s : Scene} {now : Time} {a b : Agent}
    {todo next : List Act} {signal : Signal} {k : Nat}
    (h : Advance s now a todo b next signal)
    (hmode : s.config.mode ≠ .canvas) (ho : Onward k todo) :
    signal = .proceed ∧ Onward k next
      ∨ signal = .emit ∧ (∃ j, k = j + 1 ∧ Onward j next)
      ∨ ∃ seconds, signal = .sleep seconds := by
  cases ho with
  | check hs =>
      cases h
      exact .inl ⟨rfl, .steady hs⟩
  | shows =>
      cases h
      exact .inr (.inl ⟨rfl, _, rfl, .pauses⟩)
  | pauses =>
      cases h
      exact .inr (.inr ⟨_, rfl⟩)
  | steady hs =>
      left
      cases h with
      | glideOff hcanvas => exact absurd hcanvas hmode
      | swingOff hcanvas => exact absurd hcanvas hmode
      | strideOff =>
          exact ⟨rfl, .steady (steady_cons.2 ⟨rfl, (steady_cons.1 hs).2⟩)⟩
      | quarters => exact ⟨rfl, .shows⟩
      | wait => exact ⟨rfl, .pauses⟩
      | say => exact ⟨rfl, .shows⟩
      | loop =>
          exact ⟨rfl, .steady (steady_cons.2 ⟨rfl, (steady_cons.1 hs).2⟩)⟩
      | atGoal => exact ⟨rfl, .steady (steady_body _ (steady_cons.1 hs).2)⟩
      | notAtGoal => exact ⟨rfl, .steady (steady_cons.1 hs).2⟩
      | lastPass => exact ⟨rfl, .steady (steady_cons.1 hs).2⟩
      | nextPass =>
          exact ⟨rfl, .steady (steady_body _
            (steady_cons.2 ⟨rfl, (steady_cons.1 hs).2⟩))⟩
      | lastStride => exact ⟨rfl, .steady (steady_cons.1 hs).2⟩
      | nextStride => exact ⟨rfl, .shows⟩
      | _ => cases (steady_cons.1 hs).1

namespace World

variable [Arithmetic] {c : Coordinator} {w v v' : World} {n : Nat}
  {cast : List String} {programs : List (String × Program)}
  {warnings : List (String × List WarningReport)} {cut : Bool}
  {s s' : Session} {news : List Event} {first : Option Nat}

/-! ## While nobody acts -/

/-- After the kill of its call while nobody acts a session shows nothing. -/
theorem Reachable.killed (hw : Reachable c w) (hcur : w.current = some n)
    (hact : w.active = none) {ds : List Deed}
    (hcourse : Course c (w.after c (.kill n)) ds v)
    (hs : v.session = some s) (hcall : s.call = n) :
    v.events = w.events := by
  have ho := hw.orderly
  have hd : w.Admits (.kill n) := hostActs_between hact
  obtain ⟨hidle, s₀, hs₀, rfl⟩ := current_eq_some.1 hcur
  have hmoves := ho.moves (c := c) hidle hs₀ (.kill s₀.call)
  have hstill : (w.after c (.kill s₀.call)).active = none := by
    rw [(Waits.after (c := c) (d := .kill s₀.call) nofun).active, hact]
  have hshown := hmoves.unshown nofun
  have hspent : ∀ s, (w.after c (.kill s₀.call)).session = some s →
      s.call = s₀.call → Spent s := by
    intro s₁ hs₁ _
    generalize w.after c (.kill s₀.call) = y at hmoves hs₁
    cases hmoves with
    | stays hne => exact absurd rfl (hne _ rfl)
    | dooms _ hdoom =>
        obtain rfl := Option.mem_unique hs₁ hdoom
        exact spent_doomFirst s₀
  obtain ⟨-, hsame⟩ := hcourse.stilled (hw.course (.single hd))
    (ho.known_after hd (.inl hcur)) hspent hstill hs hcall
  rw [World.events, World.events, hsame, hshown]

/-! ## The list of what may follow -/

/-- An agent whose last snapshot so far ended a wait or took its message
    down. -/
structure Concluded (c : Coordinator) (w : World)
    (programs : List (String × Program)) (news : List Event) (id : String)
    (a₀ : Agent) : Prop where
  known : w.agent? id = some a₀
  closed : ∃ k e, a₀.shownIn news
      = (alone c (given programs id) a₀ (k + 1)).shown.map (·.snapshot)
    ∧ Concludes c (given programs id) a₀ k e

/-- What has been shown since a kill, and how often somebody may still be:
    nothing, unless the kill fell while the observer was shown a snapshot
    that ended a wait or took a message down, and then one snapshot of the
    same agent. -/
inductive Lapse (c : Coordinator) (w : World) (cast : List String)
    (programs : List (String × Program)) (news : List Event)
    (first : Option Nat) : Nat → List Event → Prop
  | nothing : Lapse c w cast programs news first 0 []
  | due {i : Nat} {id : String} {a₀ : Agent} :
      first = some i → cast[i]? = some id →
      Concluded c w programs news id a₀ →
      Lapse c w cast programs news first 1 []
  | last {i : Nat} {id : String} {a₀ : Agent} {x : Event} :
      first = some i → cast[i]? = some id →
      Concluded c w programs news id a₀ →
      a₀.shownIn [x] = [x.snapshot] →
      Lapse c w cast programs news first 0 [x]

/-- Whoever may be shown once more need not be. -/
theorem Lapse.drop {k : Nat} {later : List Event}
    (h : Lapse c w cast programs news first (k + 1) later) :
    Lapse c w cast programs news first k later := by
  cases h
  exact .nothing

/-- What has become of a session since the kill of its call: everybody has
    ended or must end, nobody acts but the agent who did, and what was shown
    and may still be is on the list. -/
structure Lapses (c : Coordinator) (w : World) (cast : List String)
    (programs : List (String × Program)) (news : List Event)
    (first : Option Nat) (v : World) (s : Session) : Prop where
  spent : Spent s
  only : ∀ i, v.active = some i → first = some i
  onward : ∃ k later, v.shown = later ++ (news ++ w.shown)
    ∧ Lapse c w cast programs news first k later
    ∧ ∀ i todo, v.AtWork s.call i todo → Onward k todo

/-! ## Along a course -/

/-- A turn of an agent who acts that shows nothing leaves no more to be
    shown than there was. -/
theorem Lapses.quiet (hmode : c.config.mode ≠ .canvas) (ho : Orderly v)
    (h : Lapses c w cast programs news first v s) {i : Nat} {todo : List Act}
    (hwork : v.AtWork s.call i todo)
    (hshown : (v.after c .turn).shown = v.shown) :
    ∃ k later, (v.after c .turn).shown = later ++ (news ++ w.shown)
      ∧ Lapse c w cast programs news first k later
      ∧ ∀ j todo, (v.after c .turn).AtWork s.call j todo →
        Onward k todo := by
  obtain ⟨k, later, hlater, hlapse, honward⟩ := h.onward
  have hold := honward i todo hwork
  have hall : ∀ {k next}, (v.after c .turn).AtWork s.call i next →
      Onward k next → ∀ j todo,
      (v.after c .turn).AtWork s.call j todo → Onward k todo := by
    intro k next hnext hk j todo hj
    obtain rfl : j = i :=
      Option.some.inj (hj.active.symm.trans hnext.active)
    rw [hj.unique hnext]
    exact hk
  cases ho.works_on (c := c) hwork with
  | pauses hnone =>
      refine ⟨k, later, hshown.trans hlater, hlapse, fun j todo hj => ?_⟩
      rw [hj.active] at hnone
      cases hnone
  | beheld _ _ _ _ hnext =>
      exact ⟨k, later, hshown.trans hlater, hlapse, hall hnext hold⟩
  | acts _ hadv hengages hnext =>
      rcases hadv.onward hmode hold with
        ⟨-, hk⟩ | ⟨-, j, rfl, hj⟩ | ⟨seconds, rfl⟩
      · exact ⟨k, later, hshown.trans hlater, hlapse, hall hnext hk⟩
      · exact ⟨j, later, hshown.trans hlater, hlapse.drop, hall hnext hj⟩
      · generalize World.errandAbout _ i = about at hengages
        cases hengages

/-- A snapshot shown after the kill is the one that was on the list. -/
theorem Lapse.shows (hb : Begins c w n cast programs warnings)
    (hmode : c.config.mode ≠ .canvas)
    (hm : Mirrors c w n cast programs warnings cut v s) {k i : Nat}
    {later : List Event} {t : AgentTask} {walker : Walker} {a : Agent}
    {m : Step} {e : Verdict}
    (h : Lapse c w cast programs news first k later)
    (hfirst : first = some i) (ht : s.tasks[i]? = some t)
    (hwalk : t.walker = some walker) (hend : t.ending = none)
    (honward : Onward k walker.todo) (ha : v.agent? t.agentId = some a)
    (hstep : m = walker.step (scene c) v.now s.running a)
    (he : e = verdict c.observer.prompt v.shown.length v.now m.agent
      s.running m.signal) (hone : e.shown ≠ []) :
    Lapse c w cast programs news first 0 (e.shown ++ later)
      ∧ Onward 0 m.walker.todo := by
  have hshows : (verdict c.observer.prompt v.shown.length v.now m.agent
      s.running m.signal).shown ≠ [] := he ▸ hone
  obtain ⟨hemit, -, ⟨snapshot, -, hx⟩, hgoes⟩ := verdict_shows hshows
  rw [← he] at hx hgoes
  have hadv := Walker.step_advances (scene c) v.now v.now s.running a
    walker c.observer.prompt v.shown.length
  rw [← hstep, ← he, hgoes rfl] at hadv
  rcases (hadv.resolve_left nofun).onward hmode honward with
    ⟨hno, -⟩ | ⟨-, j, rfl, hj⟩ | ⟨seconds, hno⟩
  · rw [hemit] at hno
    cases hno
  · cases h with
    | due hfirst' hid hconcluded =>
        -- it belongs to the agent whose snapshot came before
        obtain rfl := Option.some.inj (hfirst'.symm.trans hfirst)
        rw [← hm.ids, List.getElem?_map, ht] at hid
        obtain rfl := Option.some.inj hid
        obtain ⟨hown, -⟩ := hm.exhibits hb hb.known.1 ht hwalk hend ha hstep
          c.observer.prompt v.shown.length v.now s.running
        have hown := hown _ hconcluded.known
        rw [← he, hx] at hown
        rw [hx]
        refine ⟨.last hfirst ?_ hconcluded hown, hj⟩
        rw [← hm.ids, List.getElem?_map, ht]
        rfl
  · rw [hemit] at hno
    cases hno

/-- It goes on while nothing is shown and nobody comes to act or acts
    otherwise. -/
theorem Lapses.same (h : Lapses c w cast programs news first v s)
    (hspent : Spent s') (hcall : s'.call = s.call)
    (hshown : v'.shown = v.shown)
    (hact : ∀ i todo, v'.AtWork s.call i todo → v.AtWork s.call i todo)
    (honly : v'.active = none ∨ v'.active = v.active) :
    Lapses c w cast programs news first v' s' := by
  obtain ⟨k, later, hlater, hlapse, honward⟩ := h.onward
  refine ⟨hspent, fun i hi => ?_, k, later, hshown.trans hlater, hlapse,
    fun i todo hi => honward i todo (hact i todo (hcall ▸ hi))⟩
  rcases honly with hnone | hsame
  · rw [hnone] at hi
    cases hi
  · exact h.only i (hsame ▸ hi)

/-- Every move after the kill leaves a session whose agents may be shown no
    more than the list says. -/
theorem Moves.lapses (hb : Begins c w n cast programs warnings)
    (hmode : c.config.mode ≠ .canvas)
    (hm : Mirrors c w n cast programs warnings cut v s) (ho : Orderly v)
    (hidle : v.idle = false) {d : Deed} (hmoves : Moves c v s d (v.after c d))
    (hs' : (v.after c d).session = some s')
    (h : Lapses c w cast programs news first v s) :
    Lapses c w cast programs news first (v.after c d) s' := by
  have hs := hm.session
  have hspent := hmoves.spent hs hs' h.spent
  obtain ⟨x, hx, hcall⟩ := hmoves.call hs
  obtain rfl := Option.mem_unique hs' hx
  have hcur : v.current = some s.call := current_eq_some.2 ⟨hidle, s, hs, rfl⟩
  cases hact : v.active with
  | none =>
      have hnone := active_spent (c := c) hs h.spent hact d
      refine h.same hspent hcall (hmoves.unshown fun _ => hact) ?_ (.inl hnone)
      intro i todo hi
      rw [hi.active] at hnone
      cases hnone
  | some i =>
  by_cases hturn : d = .turn
  rotate_left
  · -- the host leaves alone what the agent who acts has to do
    exact h.same hspent hcall (hmoves.unshown fun hno => absurd hno hturn)
      (fun j todo hj => ho.worked hcur hturn hj)
      (.inr (Waits.after (w := v) (c := c) hturn).active)
  subst hturn
  obtain ⟨s₁, t, walker, a, -, hs₁, ht, hwalk, hend, -⟩ := ho.actor hact
  obtain rfl := Option.mem_unique hs hs₁
  have hwork : v.AtWork s.call i walker.todo :=
    ⟨hact, s, t, walker, hs, rfl, ht, hwalk, rfl⟩
  have honly := ho.active_act (c := c) hact
  have hstays : ∀ {j : Nat}, (v.after c .turn).active = some j → j = i := by
    intro j hj
    rcases honly with hnone | hsame
    · rw [hnone] at hj
      cases hj
    · exact Option.some.inj (hj.symm.trans hsame)
  refine ⟨hspent, fun j hj => hstays hj ▸ h.only i hact, hcall.symm ▸ ?_⟩
  by_cases hquiet : (v.after c .turn).shown = v.shown
  · exact h.quiet hmode ho hwork hquiet
  obtain ⟨k, later, hlater, hlapse, honward⟩ := h.onward
  -- only an act shows anything
  have hcomes := ho.act_turn (c := c) hact hs ht hwalk
  generalize v.after c .turn = y at hcomes hquiet hstays ⊢
  cases hcomes with
  | attends _ _ hk => exact absurd hk.shown hquiet
  | stumbles _ _ _ hk => exact absurd hk.shown hquiet
  | acts _ ha hstep he _ hshown _ _ hy =>
      obtain ⟨hlast, hnext⟩ := hlapse.shows hb hmode hm (h.only i hact) ht
        hwalk hend (honward i _ hwork) ha hstep he
        (fun hno => hquiet (by rw [hshown, hno]; rfl))
      refine ⟨0, _, by rw [hshown, hlater, List.append_assoc], hlast, ?_⟩
      rintro j todo ⟨hj, s₂, t₂, walker₂, hs₂, -, ht₂, hwalk₂, rfl⟩
      obtain rfl := hstays hj
      obtain rfl := Option.mem_unique hy hs₂
      rw [List.getElem?_modify_eq, ht] at ht₂
      obtain rfl := Option.some.inj ht₂
      exact Option.some.inj hwalk₂ ▸ hnext

/-- What may follow the kill of a call: nothing; or, if it fell while the
    observer was shown a snapshot of an agent that ended a wait or took its
    message down, one snapshot of that agent. -/
inductive Aftermath (c : Coordinator) (w : World) (cast : List String)
    (programs : List (String × Program)) (v v' : World) : Prop
  | nothing (same : v'.events = v.events)
  | last {i k : Nat} {id : String} {a₀ : Agent} {past : List Event}
      {e x : Event} (active : v.active = some i) (takes : cast[i]? = some id)
      (known : w.agent? id = some a₀) (news : v.events = w.events ++ past)
      (shown : a₀.shownIn past
        = (alone c (given programs id) a₀ (k + 1)).events.map (·.snapshot))
      (concludes : Concludes c (given programs id) a₀ k e)
      (follows : v'.events = v.events ++ [x])
      (own : a₀.shownIn [x] = [x.snapshot])

/-- What is on the list is what may follow. -/
theorem Lapse.aftermath {k : Nat} {later : List Event}
    (h : Lapse c w cast programs news v.active k later)
    (hnews : v.shown = news ++ w.shown)
    (hlater : v'.shown = later ++ (news ++ w.shown)) :
    Aftermath c w cast programs v v' := by
  cases h with
  | nothing => exact .nothing (by rw [World.events, hlater, ← hnews]; rfl)
  | due => exact .nothing (by rw [World.events, hlater, ← hnews]; rfl)
  | @last i id a₀ x hfirst hid hconcluded hown =>
      obtain ⟨k, e, hshown, hconcludes⟩ := hconcluded.closed
      have hpast : v.events = w.events ++ news.reverse := by
        rw [World.events, World.events, hnews, List.reverse_append]
      refine .last hfirst hid hconcluded.known hpast ?_ hconcludes ?_ hown
      · rw [Agent.shownIn_reverse, hshown, Solo.events, List.map_reverse]
      · rw [World.events, hlater, ← hnews, List.reverse_append]
        rfl

/-- With the kill the list begins: if the observer is being shown the
    snapshot of an agent, that agent has to pause, or it goes on from a
    check and the snapshot ended a wait or took a message down. -/
theorem Mirrors.lapses (hmode : c.config.mode ≠ .canvas)
    (hm : Mirrors c w n cast programs warnings cut v s) (ho : Orderly v)
    (hr : Reposed c v s) (hhost : v.hostActs = true)
    (hnews : v.shown = news ++ w.shown) :
    ∃ k, Lapse c w cast programs news v.active k []
      ∧ ∀ i todo, v.AtWork s.call i todo → Onward k todo := by
  have hs := hm.session
  cases hact : v.active with
  | none =>
      refine ⟨0, .nothing, fun i todo hi => ?_⟩
      rw [hi.active] at hact
      cases hact
  | some i =>
  obtain ⟨s₁, t, walker, -, -, hs₁, ht, hwalk, hend, -⟩ := ho.actor hact
  obtain rfl := Option.mem_unique hs hs₁
  have hwork : v.AtWork s.call i walker.todo :=
    ⟨hact, s, t, walker, hs, rfl, ht, hwalk, rfl⟩
  have hone : ∀ {k}, Onward k walker.todo → ∀ j todo,
      v.AtWork s.call j todo → Onward k todo := by
    intro k hk j todo hj
    obtain rfl : j = i := Option.some.inj (hj.active.symm.trans hact)
    rw [hj.unique hwork]
    exact hk
  obtain ⟨e, habout⟩ := errandAbout_host hhost hact
  rw [errandAbout_eq hs ht] at habout
  obtain ⟨-, -, hbeheld⟩ := hr i t walker ht hwalk hend
  have hbeheld := hbeheld (by rw [habout]; rfl)
  generalize htodo : walker.todo = todo at hbeheld hone
  cases hbeheld with
  | rests => exact ⟨0, .nothing, hone .pauses⟩
  | speaks => exact ⟨0, .nothing, hone .pauses⟩
  | check hsteady =>
      -- the run alone has just shown the same, in front of the same check
      obtain ⟨all, hall, hparts⟩ := hm.parts
      obtain rfl := List.append_cancel_right (hall.symm.trans hnews)
      obtain ⟨a₀, a, k', ha₀, -, hp⟩ := hparts i t ht
      obtain ⟨k, x, hk, hshows⟩ := hp.sees (by rw [habout]; rfl)
      obtain ⟨hwalker, -⟩ := hp.stands.acting hwalk hend
      rw [hwalker, hk] at htodo
      have hgiven := hm.given (List.mem_of_getElem? ht)
      have hconcludes := hshows.concludes hmode htodo
      have hshown := hp.shown
      rw [hk] at hshown
      rw [hgiven] at hconcludes hshown
      have hid : cast[i]? = some t.agentId := by
        rw [← hm.ids, List.getElem?_map, ht]
        rfl
      exact ⟨1, .due rfl hid ⟨ha₀, k, x, hshown, hconcludes⟩,
        hone (.check hsteady)⟩

/-- After the kill of its call a session shows nothing but what may follow
    a kill. -/
theorem Mirrored.aftermath (hb : Begins c w n cast programs warnings)
    (hmode : c.config.mode ≠ .canvas)
    (hsink : ∀ k, w.shown.length < k → (c.observer.reaction k).fails = false)
    (hm : Mirrored c w n cast programs warnings cut v) (hv : Reachable c v)
    (hcur : v.current = some n) (hhost : v.hostActs = true)
    {ds : List Deed} (hcourse : Course c (v.after c (.kill n)) ds v')
    (hput : ∀ name a, .put name a ∈ ds → name ∉ cast)
    (hs' : v'.session = some s') (hcall' : s'.call = n) :
    Aftermath c w cast programs v v' := by
  obtain ⟨hidle, s, hs, rfl⟩ := current_eq_some.1 hcur
  have hmirrors := hm.present s hs rfl
  obtain ⟨news, hnews, -⟩ := hmirrors.parts
  have hd : v.Admits (.kill s.call) := hhost
  have hkill : Course c v [.kill s.call] (v.after c (.kill s.call)) :=
    .single hd
  have hu := hv.course hkill
  have hknown := hv.orderly.known_after (c := c) hd (.inl hcur)
  have hwaits := Waits.after (w := v) (c := c) (d := .kill s.call) nofun
  have hlapses := hcourse.since hu hknown
    (Q := Lapses c w cast programs news v.active) ?_ ?_ ?_ hs' hcall'
  · obtain ⟨k, later, hlater, hlapse, -⟩ := hlapses.onward
    exact hlapse.aftermath hnews hlater
  · intro s₁ hs₁ _
    have hmoves := hv.orderly.moves (c := c) hidle hs (.kill s.call)
    obtain ⟨k, hlapse, honward⟩ := hmirrors.lapses hmode hv.orderly
      (hv.reposed hmode hidle hs) hhost hnews
    have hwork : ∀ i todo, (v.after c (.kill s.call)).AtWork s.call i todo →
        v.AtWork s.call i todo :=
      fun i todo => hv.orderly.worked (d := .kill s.call) hcur nofun
    generalize v.after c (.kill s.call) = y at hmoves hs₁ hwaits hwork ⊢
    cases hmoves with
    | stays hne => exact absurd rfl (hne _ rfl)
    | dooms hk hdoom =>
        obtain rfl := Option.mem_unique hs₁ hdoom
        exact ⟨spent_doomFirst s, fun i hi => hwaits.active ▸ hi, k, [],
          hk.shown.trans hnews, hlapse,
          fun i todo hi => honward i todo (hwork i todo hi)⟩
  · intro x es d s₁ s₂ hes hsub _ _ hs₁ hcall₁ hidle₁ hold hs₂ hmoves
    obtain ⟨hx, cut', hm', -⟩ := hm.course hb hmode hsink hv
      (hkill.trans hes) fun name a hmem => by
        rcases List.mem_append.1 hmem with hmem | hmem
        · cases List.mem_singleton.1 hmem
        · exact hput name a (hsub _ hmem)
    exact hmoves.lapses hb hmode (hm'.present s₁ hs₁ hcall₁) hx.orderly
      hidle₁ hs₂ hold
  · intro x d s₁ hx _ hs₁ _ hidle₁ hidle₂ hold
    obtain ⟨htouch, -⟩ := hx.orderly.untouched (c := c) hidle₁ (d := d)
    have hstill : x.active = none := by
      cases hact : x.active with
      | none => rfl
      | some i =>
          rw [(hx.orderly.acting i hact).1] at hidle₁
          cases hidle₁
    have hnone := active_spent (c := c) hs₁ hold.spent hstill d
    refine hold.same hold.spent rfl htouch.shown (fun i todo hi => ?_)
      (.inl hnone)
    rw [hi.active] at hnone
    cases hnone

end World

end BlockStage
