import BlockStage.Proofs.Session.Endings

/-! # Parts — what holds of everybody who takes part in a session

    A session opens with everybody back at the start (`Opened.parts`).  From
    there on a deed dooms parts, has one of them set out, act or end, or
    leaves them all alone.  So what every part of a session has, together
    with its agent, it has after every deed, until the session is scored, if
    these few changes keep it (`Persists`, `Moves.parts`). -/

namespace BlockStage

namespace World

variable {P P' : AgentTask → Agent → Prop} {cast : List String}
  {v w : World} {s s' : Session}

/-- Everybody who takes part in a session is there, and each part has a
    property, together with its agent. -/
structure Parts (P : AgentTask → Agent → Prop) (cast : List String)
    (v : World) (s : Session) : Prop where
  cast : s.tasks.map (·.agentId) = cast
  parts : ∀ t ∈ s.tasks, ∃ a, v.agent? t.agentId = some a ∧ P t a

namespace Parts

/-- Each part has another property if it gets that on its own. -/
theorem change (h : Parts P cast v s) {v' : World}
    (hlen : s'.tasks.length = s.tasks.length)
    (hparts : ∀ (i : Nat) (t' : AgentTask), s'.tasks[i]? = some t' →
      ∃ t, s.tasks[i]? = some t ∧ t'.agentId = t.agentId
        ∧ ∀ a, v.agent? t.agentId = some a → P t a →
          ∃ b, v'.agent? t.agentId = some b ∧ P' t' b) :
    Parts P' cast v' s' := by
  constructor
  · rw [← h.cast]
    refine List.ext_getElem? fun i => ?_
    rw [List.getElem?_map, List.getElem?_map]
    cases ht' : s'.tasks[i]? with
    | none =>
        rw [List.getElem?_eq_none_iff, hlen] at ht'
        rw [List.getElem?_eq_none ht']
    | some t' =>
        obtain ⟨t, ht, hid, -⟩ := hparts i t' ht'
        simp [ht, hid]
  · intro t' ht'
    obtain ⟨i, hi⟩ := List.mem_iff_getElem?.1 ht'
    obtain ⟨t, ht, hid, hpart⟩ := hparts i t' hi
    obtain ⟨a, ha, hp⟩ := h.parts t (List.mem_of_getElem? ht)
    rw [hid]
    exact hpart a ha hp

/-- Nothing happens to a part if no part and no agent changes. -/
theorem same (h : Parts P cast v s) {v' : World}
    (htasks : s'.tasks = s.tasks) (hagents : v'.agents = v.agents) :
    Parts P cast v' s' := by
  refine ⟨htasks ▸ h.cast, fun t ht => ?_⟩
  obtain ⟨a, ha, hp⟩ := h.parts t (htasks ▸ ht)
  exact ⟨a, (agent?_congr hagents _).trans ha, hp⟩

/-- One part changes, and no agent. -/
theorem sets (h : Parts P cast v s) (v' : World) {i : Nat} {t : AgentTask}
    {f : AgentTask → AgentTask} (ht : s.tasks[i]? = some t)
    (hid : (f t).agentId = t.agentId) (hagents : v'.agents = v.agents)
    (hf : ∀ a, v.agent? t.agentId = some a → P t a → P (f t) a) :
    Parts P cast v' { s with tasks := s.tasks.modify i f } := by
  refine h.change (List.length_modify _ _ _) fun j t' ht' => ?_
  rcases modify_getElem? ht' with ⟨rfl, u, hu, rfl⟩ | ⟨-, hu⟩
  · obtain rfl := Option.mem_unique ht hu
    exact ⟨t, ht, hid, fun a ha hp =>
      ⟨a, (agent?_congr hagents _).trans ha, hf a ha hp⟩⟩
  · exact ⟨t', hu, rfl, fun a ha hp =>
      ⟨a, (agent?_congr hagents _).trans ha, hp⟩⟩

/-- One part changes with its agent, and the others stay where they are,
    whatever is said of them now. -/
theorem acts (h : Parts P cast v s) (hcast : cast.Nodup) (v' : World)
    {i : Nat} {t : AgentTask} {f : AgentTask → AgentTask} {a b : Agent}
    {running : Bool} (ht : s.tasks[i]? = some t)
    (hid : (f t).agentId = t.agentId) (ha : v.agent? t.agentId = some a)
    (hagents : v'.agents = (v.setAgent t.agentId b).agents)
    (hothers : ∀ u ∈ s.tasks, u.agentId ≠ t.agentId → ∀ x, P u x → P' u x)
    (hf : P t a → P' (f t) b) :
    Parts P' cast v'
      { s with tasks := s.tasks.modify i f, running := running } := by
  have hagent : ∀ name x, v.agent? name = some x →
      v'.agent? name = some (if name = t.agentId then b else x) :=
    fun name x hname =>
      (agent?_congr hagents name).trans (agent?_setAgent hname)
  refine h.change (List.length_modify _ _ _) fun j t' ht' => ?_
  rcases modify_getElem? ht' with ⟨rfl, u, hu, rfl⟩ | ⟨hij, hu⟩
  · obtain rfl := Option.mem_unique ht hu
    refine ⟨t, ht, hid, fun x hx hp => ?_⟩
    obtain rfl := Option.mem_unique ha hx
    exact ⟨b, by rw [hagent _ _ ha, if_pos rfl], hf hp⟩
  · have hne := tasks_apart (h.cast ▸ hcast) ht hu hij
    refine ⟨t', hu, rfl, fun x hx hp => ⟨x, ?_, ?_⟩⟩
    · rw [hagent _ _ hx, if_neg hne]
    · exact hothers t' (List.mem_of_getElem? hu) hne x hp

/-- The parts are doomed. -/
theorem dooms (h : Parts P cast v s) (v' : World)
    (hagents : v'.agents = v.agents)
    (hdoom : ∀ t a, P t a → P { t with doomed := true } a) :
    Parts P cast v' (doomFirst s.tasks.length s) := by
  refine h.change (by simp [doomFirst]) fun i t' ht' => ?_
  obtain ⟨t, ht, hwhich⟩ := doomFirst_getElem? ht'
  refine ⟨t, ht, by rcases hwhich with rfl | rfl <;> rfl, ?_⟩
  intro a ha hp
  refine ⟨a, (agent?_congr hagents _).trans ha, ?_⟩
  rcases hwhich with rfl | rfl
  · exact hp
  · exact hdoom _ a hp

/-- The host changes an agent that takes no part. -/
theorem puts (h : Parts P cast v s) {name : String} (b : Agent)
    (hname : name ∉ cast) : Parts P cast (v.setAgent name b) s := by
  refine h.change rfl fun i t ht => ⟨t, ht, rfl, fun a ha hp => ?_⟩
  refine ⟨a, ?_, hp⟩
  rw [agent?_setAgent ha, if_neg]
  rintro rfl
  refine hname ?_
  rw [← h.cast]
  exact List.mem_map_of_mem (List.mem_of_getElem? ht)

end Parts

/-- Everybody's agent is scored, when all have ended. -/
theorem Parts.scored (h : Parts P cast v s) (c : Coordinator) {v' : World}
    (htasks : s'.tasks = s.tasks) (hover : ∀ b ∈ s.ended, b = true)
    (hagents : v'.agents = (v.scored c s).1)
    (hraise : ∀ t a g, t.ending.isSome = true →
      g = a.goalReached ∨ g = .bool true → P t a →
      P t { a with goalReached := g }) : Parts P cast v' s' := by
  refine h.change (congrArg List.length htasks) fun i t ht => ?_
  rw [htasks] at ht
  refine ⟨t, ht, rfl, fun a ha hp => ?_⟩
  obtain ⟨g, hg, hlookup⟩ := score_lookup c.goal
    (s.tasks.filterMap failure?) (s.tasks.map (·.agentId)) ha
  refine ⟨{ a with goalReached := g },
    (congrArg (List.lookup t.agentId) hagents).trans hlookup,
    hraise t a g (hover _ ?_) hg hp⟩
  exact List.mem_map.2 ⟨t, List.mem_of_getElem? ht, rfl⟩

variable [Arithmetic] {c : Coordinator} {n : Nat}
  {programs : List (String × Program)}
  {warnings : List (String × List WarningReport)}

/-- What each part of a session that has just been opened has, together with
    its agent at the start. -/
theorem Opened.parts (h : Opened c v n cast programs warnings w)
    (hnames : ∀ id ∈ cast, id ∈ v.names)
    (hfresh : ∀ id ∈ cast, ∀ a, v.agent? id = some a →
      P { agentId := id, program := (programs.lookup id).getD [],
          walker := none, showing := none, doomed := false,
          ending := none } a.reset) :
    Parts P cast w (v.opened n cast programs warnings) := by
  refine ⟨freshTasks_ids _ _, fun t ht => ?_⟩
  obtain ⟨id, hid, rfl⟩ := List.mem_map.1
    (show t ∈ freshTasks cast programs from ht)
  obtain ⟨a, ha⟩ := agent?_of_mem (hnames id hid)
  exact ⟨a.reset, h.agents id hid a ha, hfresh id hid a ha⟩

/-- What a deed may do to a part keeps a property of it. -/
structure Persists (c : Coordinator) (v : World) (s : Session)
    (P : AgentTask → Agent → Prop) : Prop where
  doomed : ∀ t a, P t a → P { t with doomed := true } a
  setsOut : ∀ t a, t.walker = none → t.ending = none → P t a →
    P { t with walker := some (.start t.program) } a
  dies : ∀ t a e, t.ending = none →
    (e = .killed ∨ ∃ f, checkCeiling c.config.loopCeiling = .error f
      ∧ e = .failed f) → P t a →
    P { t with showing := none, ending := some e } a
  acts : ∀ t a walker n e, t.walker = some walker → t.ending = none →
    t.showing = none → n = walker.step (scene c) v.now s.running a →
    e = verdict c.observer.prompt v.shown.length v.now n.agent s.running
      n.signal → P t a →
    P { t with
        walker := some n.walker
        showing := c.observer.errand? v.shown.length e.shown
        ending := e.outcome.map (Outcome.toEnd t.doomed) } n.agent
  attends : ∀ t a e showing, t.ending = none → t.showing = some e →
    e.Leaves showing → P t a → P { t with showing := showing } a
  stumbles : ∀ t a e, t.ending = none → t.showing = some e →
    e.fails = true → P t a →
    P { t with
        showing := none, ending := some (.failed .observerFailed) } a

/-- What persists in the parts of a session holds of them after every deed
    until the session is scored. -/
theorem Moves.parts {d : Deed} (hm : Moves c v s d w)
    (hkeeps : Persists c v s P) (hf : Flight v s)
    (hs : v.session = some s) (hcast : cast.Nodup)
    (hput : ∀ name a, d = .put name a → name ∉ cast)
    (h : s.result = none → Parts P cast v s) (hidle : w.idle = false)
    (hs' : w.session = some s') (hfresh : s'.result = none) :
    Parts P cast w s' := by
  have hsame : ∀ u : Session, w.session = some u →
      (u.result = none → Parts P cast w u) → Parts P cast w s' := by
    intro u hu hp
    obtain rfl := Option.mem_unique hu hs'
    exact hp hfresh
  cases hm with
  | stays _ hk hu => exact hsame _ hu fun hr => (h hr).same rfl hk.agents
  | lowers hk hu => exact hsame _ hu fun hr => (h hr).same rfl hk.agents
  | puts => exact hsame _ hs fun hr => (h hr).puts _ (hput _ _ rfl)
  | dooms hk hu =>
      exact hsame _ hu fun hr => (h hr).dooms w hk.agents hkeeps.doomed
  | acts _ ht hwalk hend hshow ha hn he hagents _ _ _ hu =>
      refine hsame _ hu fun _ => ?_
      exact (h (hf.unscored ht hend)).acts hcast w
        (f := fun u => { u with
          walker := some _, showing := c.observer.errand? _ _
          ending := Option.map (Outcome.toEnd _) _ })
        ht rfl ha hagents (fun _ _ _ _ hp => hp)
        fun hp => hkeeps.acts _ _ _ _ _ hwalk hend hshow hn he hp
  | attends _ ht _ hend hshow hleaves hk hu =>
      exact hsame _ hu fun _ => (h (hf.unscored ht hend)).sets w
        (f := fun t => { t with showing := _ }) ht rfl hk.agents
        fun a _ hp => hkeeps.attends _ a _ _ hend hshow hleaves hp
  | stumbles _ ht _ hend hshow _ hrude hk hu =>
      exact hsame _ hu fun _ => (h (hf.unscored ht hend)).sets w
        (f := fun t => { t with
          showing := none, ending := some (.failed .observerFailed) })
        ht rfl hk.agents
        fun a _ hp => hkeeps.stumbles _ a _ hend hshow hrude hp
  | setsOut ht hwalk hend _ _ hk hu =>
      exact hsame _ hu fun _ => (h (hf.unscored ht hend)).sets w
        (f := fun t => { t with walker := some (.start t.program) }) ht rfl
        hk.agents fun a _ hp => hkeeps.setsOut _ a hwalk hend hp
  | @dies _ i t e ht hend hwhy hk hu =>
      have hwhy : e = .killed ∨ ∃ f,
          checkCeiling c.config.loopCeiling = .error f ∧ e = .failed f := by
        rcases hwhy with ⟨-, he⟩ | ⟨-, -, hf⟩
        · exact .inl he
        · exact .inr hf
      exact hsame _ hu fun _ => (h (hf.unscored ht hend)).sets w
        (f := fun t => { t with showing := none, ending := some e }) ht rfl
        hk.agents fun a _ hp => hkeeps.dies _ a _ hend hwhy hp
  -- a session is scored before its handler is waited for
  | dozes _ _ _ _ _ _ _ _ hu => exact hsame _ hu nofun
  | drowses _ _ _ hr _ _ _ hu =>
      obtain rfl := Option.mem_unique hu hs'
      rw [hr] at hfresh
      cases hfresh
  | leaves _ _ _ hrest =>
      rw [hrest] at hidle
      cases hidle

end World

end BlockStage
