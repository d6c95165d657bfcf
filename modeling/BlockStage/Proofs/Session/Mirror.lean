import BlockStage.Proofs.Session.Alone
import BlockStage.Proofs.Session.Calls

/-! # Mirrors — a session beside the runs of its agents alone

    While a session is in flight, and after it until another one begins,
    every agent's part in it stands where a run of the agent's program
    alone stands, whatever the other agents do and however long it takes.
    `Mirrors` is this invariant; `Mirrors.moves` says that every deed keeps
    it, and `Begins.course` that it holds along every course from the turn
    with which the session begins, together with what the call ends in. -/

namespace BlockStage

namespace World

/-! ## Agents under their names -/

/-- Worlds with the same agents know them under the same names. -/
theorem agent?_congr {v w : World} (h : v.agents = w.agents) (name : String) :
    v.agent? name = w.agent? name :=
  congrArg (List.lookup name) h

theorem agent?_setAgent {w : World} {name other : String} {a b : Agent}
    (h : w.agent? other = some b) :
    (w.setAgent name a).agent? other
      = some (if other = name then a else b) := by
  unfold agent? at h ⊢
  unfold setAgent
  rw [lookup_keep (fun b => by split <;> simp_all), h]
  by_cases hname : other = name <;> simp [hname]

/-- Scoring changes nothing of an agent but its flag, which it puts up or
    leaves as it is. -/
theorem score_lookup (goal : Option GoalRegion)
    (failed : List (String × String)) (ids : List String)
    {agents : List (String × Agent)} {name : String} {a : Agent}
    (h : agents.lookup name = some a) :
    ∃ g, (g = a.goalReached ∨ g = .bool true)
      ∧ (score goal failed agents ids).1.lookup name
        = some { a with goalReached := g } := by
  induction ids generalizing agents a with
  | nil => exact ⟨a.goalReached, .inl rfl, h⟩
  | cons id ids ih =>
      cases score_cons goal failed agents id ids with
      | passes hsame => exact hsame ▸ ih h
      | raises _ _ _ _ hstops =>
          rw [hstops]
          exact ⟨a.goalReached, .inl rfl, h⟩
      | counts _ _ _ _ hflags =>
          rw [hflags]
          have hflag := lookup_raiseFlag id agents name
          rw [h, Option.map_some] at hflag
          obtain ⟨g, hwhich, hg⟩ := ih hflag
          refine ⟨g, ?_, hg.trans ?_⟩
          · split at hwhich
            · exact hwhich.elim .inr .inr
            · exact hwhich
          · split <;> rfl

/-- While an agent has not ended there is no result. -/
theorem Flight.unscored {v : World} {s : Session} (h : Flight v s) {i : Nat}
    {t : AgentTask}
    (ht : s.tasks[i]? = some t) (hend : t.ending = none) :
    s.result = none := by
  by_contra hno
  have hmem := h.fresh (Option.isSome_iff_ne_none.2 hno)
  obtain ⟨rest, hrest⟩ := Multiset.exists_cons_of_mem hmem
  have hbooks := h.books
  rw [hrest] at hbooks
  have hover := (hbooks.last (.inr rfl)).1 t.ending.isSome
    (List.mem_map.2 ⟨t, List.mem_of_getElem? ht, rfl⟩)
  rw [hend] at hover
  cases hover

/-- Different parts are those of different agents if nobody takes part
    twice. -/
theorem tasks_apart {tasks : List AgentTask}
    (hnodup : (tasks.map (·.agentId)).Nodup) {i j : Nat} {t u : AgentTask}
    (ht : tasks[i]? = some t) (hu : tasks[j]? = some u) (hne : i ≠ j) :
    u.agentId ≠ t.agentId := by
  intro heq
  have hi : (tasks.map (·.agentId))[i]? = some t.agentId := by
    rw [List.getElem?_map, ht]; rfl
  have hj : (tasks.map (·.agentId))[j]? = some t.agentId := by
    rw [List.getElem?_map, hu, Option.map_some, heq]
  exact hne ((List.getElem?_inj (List.getElem?_eq_some_iff.1 hi).1 hnodup).1
    (hi.trans hj.symm))

variable [Arithmetic] {c : Coordinator} {w v : World} {n : Nat}
  {cast : List String} {programs : List (String × Program)}
  {warnings : List (String × List WarningReport)} {cut : Bool}
  {s : Session}

/-! ## The invariant -/

/-- The program that a session gives to an agent. -/
def given (programs : List (String × Program)) (id : String) : Program :=
  (programs.lookup id).getD []

/-- A call is about to begin a session: no other session is in flight, its
    first turn is the next to be taken, it has not been killed, what it
    brings can be compiled, and its agents have different names. -/
structure Begins (c : Coordinator) (w : World) (n : Nat)
    (cast : List String) (programs : List (String × Program))
    (warnings : List (String × List WarningReport)) : Prop where
  reachable : Reachable c w
  idle : w.idle = true
  turn : ∃ rest, w.round = .begin n :: rest
  call : ∃ call, w.calls[n]? = some call ∧ call.cast = cast
    ∧ call.doomed = false
    ∧ scriptPrograms c.config call.script = .ok (programs, warnings)
  distinct : ∀ i ∈ cast, ∀ j ∈ cast, ∀ a b, w.agent? i = some a →
    w.agent? j = some b → a.id = b.id → i = j

omit [Arithmetic] in
/-- Two agents have different names if they are called so. -/
theorem distinct_pair {p q x y : String}
    (hp : (w.agent? p).map (·.id) = some (.str x))
    (hq : (w.agent? q).map (·.id) = some (.str y)) (hne : x ≠ y) :
    ∀ i ∈ [p, q], ∀ j ∈ [p, q], ∀ a b, w.agent? i = some a →
      w.agent? j = some b → a.id = b.id → i = j := by
  intro i hi j hj a b ha hb hid
  have hname : ∀ {k d name}, w.agent? k = some d →
      (w.agent? k).map (·.id) = some name → d.id = name := by
    intro k d name hk hname
    rw [hk] at hname
    exact Option.some.inj hname
  simp only [List.mem_cons, List.not_mem_nil, or_false] at hi hj
  rcases hi with rfl | rfl <;> rcases hj with rfl | rfl
  · rfl
  · rw [hname ha hp, hname hb hq] at hid
    exact absurd (Value.str.inj hid) hne
  · rw [hname ha hq, hname hb hp] at hid
    exact absurd (Value.str.inj hid).symm hne
  · rfl

/-- A session that began at `w` stands beside the runs of its agents
    alone. -/
structure Mirrors (c : Coordinator) (w : World) (n : Nat)
    (cast : List String) (programs : List (String × Program))
    (warnings : List (String × List WarningReport)) (cut : Bool)
    (v : World) (s : Session) : Prop where
  session : v.session = some s
  call : s.call = n
  warnings : s.warnings = warnings
  /-- Everybody takes part with the program that was given. -/
  tasks : s.tasks.map (fun t => (t.agentId, t.program))
    = cast.map fun id => (id, given programs id)
  /-- Until the session is scored the flag is up unless it was lowered. -/
  flag : v.idle = false → s.result = none → s.running = !cut
  /-- What was shown since then is what each agent shows alone. -/
  parts : ∃ news, v.shown = news ++ w.shown
    ∧ ∀ (i : Nat) (t : AgentTask), s.tasks[i]? = some t →
      ∃ a₀ a k, w.agent? t.agentId = some a₀ ∧ v.agent? t.agentId = some a
        ∧ Part c a₀ cut t a (a₀.shownIn news) (alone c t.program a₀ k)

/-- Everybody in the cast takes part, and nobody else. -/
theorem Mirrors.ids (h : Mirrors c w n cast programs warnings cut v s) :
    s.tasks.map (·.agentId) = cast := by
  have := congrArg (List.map Prod.fst) h.tasks
  simpa [List.map_map, Function.comp_def] using this

/-- Different parts are those of different agents. -/
theorem Mirrors.apart (h : Mirrors c w n cast programs warnings cut v s)
    (hcast : cast.Nodup) {i j : Nat} {t u : AgentTask}
    (ht : s.tasks[i]? = some t) (hu : s.tasks[j]? = some u)
    (hne : i ≠ j) : u.agentId ≠ t.agentId :=
  tasks_apart (h.ids ▸ hcast) ht hu hne

/-- The invariant goes on if every part does. -/
theorem Mirrors.change (h : Mirrors c w n cast programs warnings cut v s)
    {v' : World} {s' : Session} {cut' : Bool} {l : List Event}
    (hs : v'.session = some s') (hcall : s'.call = s.call)
    (hwarn : s'.warnings = s.warnings)
    (hflag : v'.idle = false → s'.result = none → s'.running = !cut')
    (hshown : v'.shown = l ++ v.shown)
    (hlen : s'.tasks.length = s.tasks.length)
    (hparts : ∀ (i : Nat) (t' : AgentTask), s'.tasks[i]? = some t' →
      ∃ t, s.tasks[i]? = some t ∧ t'.agentId = t.agentId
        ∧ t'.program = t.program
        ∧ ∀ a₀ a k shown, w.agent? t.agentId = some a₀ →
          v.agent? t.agentId = some a →
          Part c a₀ cut t a shown (alone c t.program a₀ k) →
          ∃ b k', v'.agent? t.agentId = some b
            ∧ Part c a₀ cut' t' b (a₀.shownIn l ++ shown)
              (alone c t.program a₀ k')) :
    Mirrors c w n cast programs warnings cut' v' s' := by
  refine ⟨hs, hcall.trans h.call, hwarn.trans h.warnings, ?_, hflag, ?_⟩
  · rw [← h.tasks]
    refine List.ext_getElem? fun i => ?_
    simp only [List.getElem?_map]
    cases ht' : s'.tasks[i]? with
    | none =>
        rw [List.getElem?_eq_none_iff, hlen] at ht'
        rw [List.getElem?_eq_none ht']
    | some t' =>
        obtain ⟨t, ht, hid, hprog, -⟩ := hparts i t' ht'
        simp [ht, hid, hprog]
  · obtain ⟨olds, holds, hold⟩ := h.parts
    refine ⟨l ++ olds, by rw [hshown, holds, List.append_assoc], ?_⟩
    intro i t' ht'
    obtain ⟨t, ht, hid, hprog, hpart⟩ := hparts i t' ht'
    obtain ⟨a₀, a, k, ha₀, ha, hp⟩ := hold i t ht
    obtain ⟨b, k', hb, hp'⟩ := hpart a₀ a k _ ha₀ ha hp
    rw [hid, hprog]
    exact ⟨a₀, b, k', ha₀, hb, by rw [Agent.shownIn_append]; exact hp'⟩

/-- The invariant goes on if no part changes. -/
theorem Mirrors.same (h : Mirrors c w n cast programs warnings cut v s)
    {v' : World} {s' : Session} {cut' : Bool} (hcut : cut = true → cut' = true)
    (hs : v'.session = some s') (hcall : s'.call = s.call)
    (hwarn : s'.warnings = s.warnings)
    (hflag : v'.idle = false → s'.result = none → s'.running = !cut')
    (hshown : v'.shown = v.shown) (htasks : s'.tasks = s.tasks)
    (hagents : ∀ t ∈ s.tasks, ∀ a, v.agent? t.agentId = some a →
      ∃ b, v'.agent? t.agentId = some b
        ∧ (b = a ∨ t.ending.isSome = true
          ∧ ∃ g, b = { a with goalReached := g })) :
    Mirrors c w n cast programs warnings cut' v' s' := by
  refine h.change (l := []) hs hcall hwarn hflag hshown
    (congrArg List.length htasks) ?_
  intro i t ht
  rw [htasks] at ht
  refine ⟨t, ht, rfl, rfl, fun a₀ a k shown _ ha hp => ?_⟩
  have hp : Part c a₀ cut' t a shown (alone c t.program a₀ k) := by
    cases cut with
    | true => rw [hcut rfl]; exact hp
    | false =>
        cases cut' with
        | true => exact hp.cuts
        | false => exact hp
  obtain ⟨b, hb, hab⟩ := hagents t (List.mem_of_getElem? ht) a ha
  refine ⟨b, k, hb, ?_⟩
  rcases hab with rfl | ⟨hend, hg⟩
  · exact hp
  · exact hp.ended hend hg

/-- Who takes part is in the cast. -/
theorem Mirrors.mem_cast (h : Mirrors c w n cast programs warnings cut v s)
    {t : AgentTask} (ht : t ∈ s.tasks) : t.agentId ∈ cast := by
  rw [← h.ids]
  exact List.mem_map_of_mem ht

/-- Everybody runs the program that was given. -/
theorem Mirrors.given (h : Mirrors c w n cast programs warnings cut v s)
    {t : AgentTask} (ht : t ∈ s.tasks) :
    t.program = given programs t.agentId := by
  have hmem : (t.agentId, t.program)
      ∈ s.tasks.map fun t => (t.agentId, t.program) :=
    List.mem_map.2 ⟨t, ht, rfl⟩
  rw [h.tasks] at hmem
  obtain ⟨id, -, heq⟩ := List.mem_map.1 hmem
  injection heq with hid hprog
  rw [← hprog, hid]

/-- Nothing that was shown before the session is taken back, so whatever
    comes next is shown after that. -/
theorem Mirrors.shown_lt
    (h : Mirrors c w n cast programs warnings cut v s) :
    w.shown.length < v.shown.length + 1 := by
  obtain ⟨news, hnews, -⟩ := h.parts
  rw [hnews, List.length_append]
  omega

/-- A deed that may lower the flag: the host asks for cancellation, or the
    observer does at a snapshot. -/
def Lowers (c : Coordinator) (w : World) (d : Deed) : Prop :=
  d = .cancel
    ∨ ∃ k, w.shown.length < k ∧ (c.observer.reaction k).stops = true

/-- Whatever comes of an act is shown of the agent that acts, and of no
    other. -/
theorem Mirrors.exhibits (hb : Begins c w n cast programs warnings)
    (hcast : cast.Nodup)
    (h : Mirrors c w n cast programs warnings cut v s)
    {i : Nat} {t : AgentTask} {walker : Walker} {a : Agent} {m : Step}
    (ht : s.tasks[i]? = some t) (hwalk : t.walker = some walker)
    (hend : t.ending = none) (ha : v.agent? t.agentId = some a)
    (hm : m = walker.step (scene c) v.now s.running a)
    (o : Observer) (count : Nat) (now : Time) (running : Bool) :
    (∀ a₀, w.agent? t.agentId = some a₀ →
        a₀.shownIn (verdict o count now m.agent running
          m.signal).shown
          = (verdict o count now m.agent running
            m.signal).shown.map (·.snapshot))
      ∧ ∀ (j : Nat) (u : AgentTask), s.tasks[j]? = some u → i ≠ j →
        ∀ a₀, w.agent? u.agentId = some a₀ →
          a₀.shownIn (verdict o count now m.agent running
            m.signal).shown = [] := by
  -- the agent that acts is known by the name it began with
  have hid : ∀ a₁, w.agent? t.agentId = some a₁ → m.agent.id = a₁.id := by
    obtain ⟨news, -, hparts⟩ := h.parts
    obtain ⟨a₁, b, k₁, ha₁, hb₁, hpart₁⟩ := hparts i t ht
    obtain rfl := Option.mem_unique ha hb₁
    intro a₂ ha₂
    obtain rfl := Option.mem_unique ha₁ ha₂
    rw [hm, Walker.step_named]
    obtain ⟨-, -, heq⟩ := hpart₁.stands.acting hwalk hend
    rw [heq, alone_named]
  refine ⟨fun a₀ ha₀ => verdict_shown.1 (hid a₀ ha₀).symm,
    fun j u hu hij a₀ ha₀ => verdict_shown.2 fun heq => ?_⟩
  obtain ⟨news, -, hparts⟩ := h.parts
  obtain ⟨a₁, -, -, ha₁, -⟩ := hparts i t ht
  exact h.apart hcast ht hu hij (hb.distinct _
    (h.mem_cast (List.mem_of_getElem? hu)) _
    (h.mem_cast (List.mem_of_getElem? ht)) _ _ ha₀ ha₁
    (heq.trans (hid a₁ ha₁)))

/-- An agent that acts takes the next step of its run alone, and the
    others stay where they are. -/
theorem Mirrors.acts (hb : Begins c w n cast programs warnings)
    (hcast : cast.Nodup) (hmode : c.config.mode ≠ .canvas)
    (h : Mirrors c w n cast programs warnings cut v s)
    (hrunning : s.running = !cut)
    (hsink : ∀ k, w.shown.length < k → (c.observer.reaction k).fails = false)
    {v' : World} {i : Nat} {t : AgentTask} {walker : Walker} {a : Agent}
    {m : Step} {e : Verdict} (ht : s.tasks[i]? = some t)
    (hwalk : t.walker = some walker) (hend : t.ending = none)
    (ha : v.agent? t.agentId = some a)
    (hm : m = walker.step (scene c) v.now s.running a)
    (he : e = verdict c.observer.prompt v.shown.length v.now m.agent
      s.running m.signal)
    (hagents : v'.agents = (v.setAgent t.agentId m.agent).agents)
    (hshown : v'.shown = e.shown ++ v.shown)
    (hs : v'.session = some { s with
      tasks := s.tasks.modify i fun u => { u with
        walker := some m.walker
        showing := c.observer.errand? v.shown.length e.shown
        ending := e.outcome.map (Outcome.toEnd t.doomed) }
      running := e.running }) :
    Mirrors c w n cast programs warnings (!e.running) v' { s with
      tasks := s.tasks.modify i fun u => { u with
        walker := some m.walker
        showing := c.observer.errand? v.shown.length e.shown
        ending := e.outcome.map (Outcome.toEnd t.doomed) }
      running := e.running } := by
  have hcut : cut = true → (!e.running) = true := by
    intro hcut
    rw [hrunning, hcut] at he
    rcases verdict_running c.observer.prompt v.shown.length v.now m.agent
      false m.signal with hsame | ⟨hno, -⟩
    · rw [he]
      exact congrArg (!·) hsame
    · cases hno
  have hagent : ∀ name b, v.agent? name = some b →
      v'.agent? name = some (if name = t.agentId then m.agent else b) :=
    fun name b hname =>
      (agent?_congr hagents name).trans (agent?_setAgent hname)
  have hothers := (h.exhibits hb hcast ht hwalk hend ha hm
    c.observer.prompt v.shown.length v.now s.running).2
  refine h.change hs rfl rfl (fun _ _ => by simp) hshown
    (List.length_modify _ _ _) ?_
  intro j t' ht'
  rcases modify_getElem? ht' with ⟨rfl, u, hu, rfl⟩ | ⟨hij, hu⟩
  · obtain rfl := Option.mem_unique ht hu
    refine ⟨t, ht, rfl, rfl, fun a₀ b k shown ha₀ hb' hp => ?_⟩
    obtain rfl := Option.mem_unique ha hb'
    obtain ⟨k', hp'⟩ := hp.acts hmode hwalk hend hm he
      (hsink _ h.shown_lt)
    exact ⟨m.agent, k', by rw [hagent _ _ ha, if_pos rfl], hp'⟩
  · refine ⟨t', hu, rfl, rfl, fun a₀ b k shown ha₀ hb' hp => ?_⟩
    have hne := h.apart hcast ht hu hij
    refine ⟨b, k, by rw [hagent _ _ hb', if_neg hne], ?_⟩
    rw [he, hothers j t' hu hij a₀ ha₀, ← he]
    cases hcase : cut with
    | true =>
        rw [hcut hcase]
        exact hcase ▸ hp
    | false =>
        rw [hcase] at hp
        cases hflag : (!e.running) with
        | true => exact hp.cuts
        | false => exact hp

/-- The invariant goes on if one part comes to stand elsewhere beside the
    same step of its run alone. -/
theorem Mirrors.sets (h : Mirrors c w n cast programs warnings cut v s)
    {v' : World} {i : Nat} {t : AgentTask} {f : AgentTask → AgentTask}
    (ht : s.tasks[i]? = some t) (hid : (f t).agentId = t.agentId)
    (hprog : (f t).program = t.program) (hidle : v.idle = false)
    (hk : Keeps v v')
    (hs : v'.session = some { s with tasks := s.tasks.modify i f })
    (hpart : ∀ a₀ a shown r, Part c a₀ cut t a shown r →
      Part c a₀ cut (f t) a shown r) :
    Mirrors c w n cast programs warnings cut v'
      { s with tasks := s.tasks.modify i f } := by
  refine h.change (l := []) hs rfl rfl (fun _ hr => h.flag hidle hr)
    hk.shown (List.length_modify _ _ _) ?_
  intro j t' ht'
  have hagent : ∀ name a, v.agent? name = some a →
      v'.agent? name = some a :=
    fun name a ha => (agent?_congr hk.agents name).trans ha
  rcases modify_getElem? ht' with ⟨rfl, u, hu, rfl⟩ | ⟨-, hu⟩
  · obtain rfl := Option.mem_unique ht hu
    refine ⟨t, ht, hid, hprog, fun a₀ a k shown _ ha hp => ?_⟩
    exact ⟨a, k, hagent _ _ ha, hpart _ _ _ _ hp⟩
  · refine ⟨t', hu, rfl, rfl, fun a₀ a k shown _ ha hp => ?_⟩
    exact ⟨a, k, hagent _ _ ha, hp⟩

/-- To kill the session moves no part of it. -/
theorem Mirrors.dooms (h : Mirrors c w n cast programs warnings cut v s)
    {v' : World} (hidle : v.idle = false) (hk : Keeps v v')
    (hs : v'.session = some (doomFirst s.tasks.length s)) :
    Mirrors c w n cast programs warnings cut v'
      (doomFirst s.tasks.length s) := by
  refine h.change (l := []) hs rfl rfl (fun _ hr => h.flag hidle hr)
    hk.shown ?_ ?_
  · simp [doomFirst]
  · intro i t' ht'
    obtain ⟨t, ht, hdoom⟩ := doomFirst_getElem? ht'
    refine ⟨t, ht, by rcases hdoom with rfl | rfl <;> rfl,
      by rcases hdoom with rfl | rfl <;> rfl, ?_⟩
    intro a₀ a k shown _ ha hp
    refine ⟨a, k, (agent?_congr hk.agents _).trans ha, ?_⟩
    rcases hdoom with rfl | rfl
    · exact hp
    · exact ⟨hp.shown, hp.position, hp.heading, hp.message, hp.kind,
        hp.sees, hp.stands.doomed⟩

/-- Every deed keeps the invariant; the flag is lowered only before the
    session is scored. -/
theorem Mirrors.moves (hb : Begins c w n cast programs warnings)
    (hcast : cast.Nodup) (hmode : c.config.mode ≠ .canvas)
    (h : Mirrors c w n cast programs warnings cut v s) (ho : Orderly v)
    (hidle : v.idle = false)
    (hsink : ∀ k, w.shown.length < k → (c.observer.reaction k).fails = false)
    {d : Deed} {v' : World} (hm : Moves c v s d v')
    (hput : ∀ name a, d = .put name a → name ∉ cast) :
    ∃ cut' s', Mirrors c w n cast programs warnings cut' v' s'
      ∧ (cut' = cut ∨ v'.idle = false ∧ s'.result = none ∧ cut' = true
        ∧ Lowers c w d) := by
  have hfl := ho.flight hidle h.session
  have hall : ∀ u : World, u.agents = v.agents →
      ∀ t ∈ s.tasks, ∀ a, v.agent? t.agentId = some a →
        ∃ b, u.agent? t.agentId = some b ∧ (b = a ∨ t.ending.isSome = true
          ∧ ∃ g, b = { a with goalReached := g }) :=
    fun u hu t _ a ha => ⟨a, (agent?_congr hu _).trans ha, .inl rfl⟩
  have hscored : ∀ u : World, (∀ b ∈ s.ended, b = true) →
      u.agents = (v.scored c s).1 →
      ∀ t ∈ s.tasks, ∀ a, v.agent? t.agentId = some a →
        ∃ b, u.agent? t.agentId = some b ∧ (b = a ∨ t.ending.isSome = true
          ∧ ∃ g, b = { a with goalReached := g }) := by
    intro u hover hu t ht a ha
    obtain ⟨g, -, hg⟩ := score_lookup c.goal (s.tasks.filterMap failure?)
      (s.tasks.map (·.agentId)) ha
    exact ⟨_, (congrArg (List.lookup t.agentId) hu).trans hg,
      .inr ⟨hover _ (List.mem_map.2 ⟨t, ht, rfl⟩), g, rfl⟩⟩
  cases hm with
  | stays _ hk hs =>
      exact ⟨cut, _, h.same (fun hc => hc) hs rfl rfl
        (fun _ hr => h.flag hidle hr) hk.shown rfl (hall _ hk.agents),
        .inl rfl⟩
  | lowers hk hs =>
      by_cases hr : s.result = none
      · exact ⟨true, _, h.same (fun _ => rfl) hs rfl rfl (fun _ _ => rfl)
          hk.shown rfl (hall _ hk.agents), .inr ⟨hk.idle, hr, rfl, .inl rfl⟩⟩
      · exact ⟨cut, _, h.same (fun hc => hc) hs rfl rfl
          (fun _ hno => absurd hno hr) hk.shown rfl (hall _ hk.agents),
          .inl rfl⟩
  | @puts name a =>
      refine ⟨cut, s, h.same (fun hc => hc) h.session rfl rfl
        (fun _ hr => h.flag hidle hr) rfl rfl ?_, .inl rfl⟩
      intro t ht b hat
      refine ⟨b, ?_, .inl rfl⟩
      rw [agent?_setAgent hat, if_neg]
      rintro rfl
      exact hput _ _ rfl (h.mem_cast ht)
  | dooms hk hs =>
      exact ⟨cut, _, h.dooms hidle hk hs, .inl rfl⟩
  | acts hact ht hwalk hend hshow ha hstep he hagents hshown hcomp hidle'
      hs =>
      have hr := hfl.unscored ht hend
      have hrunning := h.flag hidle hr
      refine ⟨_, _, h.acts hb hcast hmode hrunning hsink ht hwalk hend ha
        hstep he hagents hshown hs, ?_⟩
      rcases verdict_running c.observer.prompt v.shown.length v.now _
        s.running _ with hsame | ⟨hup, hstops, hdown⟩
      · refine .inl ?_
        rw [he, hsame, hrunning, Bool.not_not]
      · refine .inr ⟨hidle', hr, ?_, .inr ⟨_, h.shown_lt, hstops⟩⟩
        rw [he, hdown]
        rfl
  | attends _ ht _ _ hshow hleaves hk hs =>
      exact ⟨cut, _, h.sets ht rfl rfl hidle hk hs fun _ _ _ _ hp =>
        hp.attends hshow hleaves, .inl rfl⟩
  | stumbles _ ht _ _ hshow _ hrude =>
      -- the observer raises no error
      obtain ⟨news, -, hparts⟩ := h.parts
      obtain ⟨a₀, a, k, -, -, hp⟩ := hparts _ _ ht
      rw [hp.kind _ hshow] at hrude
      cases hrude
  | setsOut ht hwalk hend hdoom hceil hk hs =>
      exact ⟨cut, _, h.sets ht rfl rfl hidle hk hs fun _ _ _ _ hp =>
        ⟨hp.shown, hp.position, hp.heading, hp.message, hp.kind,
          hp.sees, hp.stands.setsOut hwalk hend hceil⟩, .inl rfl⟩
  | dies ht hend hwhy hk hs =>
      refine ⟨cut, _, h.sets ht rfl rfl hidle hk hs ?_, .inl rfl⟩
      intro a₀ a shown r hp
      refine ⟨hp.shown, hp.position, hp.heading, hp.message, nofun, nofun,
        ?_⟩
      rcases hwhy with ⟨hdoom, rfl⟩ | ⟨-, hwalk, f, hceil, rfl⟩
      · exact .killed hdoom rfl
      · exact hp.stands.refused hwalk hend hceil
  | dozes hover hdoom hnone hscore hagents hshown hcomp hidle' hs =>
      refine ⟨cut, _, h.same (fun hc => hc) hs rfl rfl
        (fun _ hno => by cases hno) hshown rfl
        (hscored _ hover ?_), .inl rfl⟩
      rw [hagents, hscore]
  | drowses _ _ _ hr _ _ hk hs =>
      exact ⟨cut, _, h.same (fun hc => hc) hs rfl rfl
        (fun _ hno => by rw [hr] at hno; cases hno) hk.shown rfl
        (hall _ hk.agents), .inl rfl⟩
  | leaves hover hsettles hshown hidle' hs hcall htasks hwarn hcalls =>
      refine ⟨cut, _, h.same (fun hc => hc) hs hcall hwarn
        (fun hno => by rw [hidle'] at hno; cases hno) hshown htasks ?_,
        .inl rfl⟩
      rcases hsettles.agents with hsame | hscore
      · exact hall _ hsame
      · exact hscored _ hover hscore

end World

end BlockStage
