import BlockStage.Proofs.Run.Landing
import BlockStage.Proofs.Session.Cancellation
import BlockStage.Proofs.Session.Parts

/-! # Containment — a fault stays with the agent whose run raised it

    Whoever has not failed and was not killed stands at numbers when a
    session is scored, or has not even been placed (`Landed`).  So with a
    goal of numbers every session can be scored, and its call returns a
    result unless it is killed (`Starts.returns`).  A run that raises an
    error ends the part of its agent alone, and the result tells of it
    (`Raises.reported`). -/

namespace BlockStage

open Act

namespace World

/-! ## Parts that were placed -/

/-- An agent whose part has not gone wrong is located, or is yet to be
    placed. -/
def Landed (t : AgentTask) (a : Agent) : Prop :=
  a.Located ∨ t.ending ≠ some .returned
    ∧ (t.ending = none → ∀ walker, t.walker = some walker →
      ∃ rest, walker.todo = .place :: rest)

section

variable [Arithmetic] {c : Coordinator} {u v w : World} {s s' : Session}
  {cast : List String} {n : Nat}

/-- An act leaves an agent located, or ends a part that was yet to place
    its agent with a fault. -/
theorem Landed.acts {t : AgentTask} {a : Agent} {walker : Walker} {m : Step}
    {running : Bool} {now : Time} {count : Nat} {e : Verdict}
    {showing : Option Errand}
    (h : Landed t a) (hwalk : t.walker = some walker) (hend : t.ending = none)
    (hm : m = walker.step (scene c) now running a)
    (he : e = verdict c.observer.prompt count now m.agent running m.signal) :
    Landed { t with
      walker := some m.walker
      showing := showing
      ending := e.outcome.map (Outcome.toEnd t.doomed) } m.agent := by
  have hplaced : a.Located ∨ ∃ rest, walker.todo = .place :: rest :=
    h.imp id fun hno => hno.2 hend walker hwalk
  subst hm
  rcases Walker.step_cases (scene c) now running a walker with
    ⟨htodo, heq⟩ | ⟨-, rest, log, htodo, heq⟩ | ⟨f, hfail, -, hfalters⟩ | hadv
  · refine .inl ?_
    rw [heq]
    refine hplaced.resolve_right ?_
    rintro ⟨rest, hno⟩
    rw [htodo] at hno
    cases hno
  · refine .inl ?_
    rw [heq]
    refine hplaced.resolve_right ?_
    rintro ⟨rest', hno⟩
    rw [htodo] at hno
    cases hno
  · rcases hplaced with ha | -
    · exact .inl (hfalters.located ha)
    · -- the agent could not even be placed, and its part fails
      refine .inr ?_
      rw [he, hfail]
      exact ⟨nofun, nofun⟩
  · exact .inl (hadv.located hplaced)

/-- Parts that were placed, or are yet to be, stay so. -/
theorem landed_persists : Persists c v s Landed where
  doomed _ _ h := h
  setsOut t a hwalk hend h := by
    refine h.imp id fun hno => ⟨hno.1, fun _ walker hstart => ?_⟩
    cases hstart
    exact ⟨_, rfl⟩
  dies t a e hend hwhy h := by
    refine .inr ⟨?_, nofun⟩
    rcases hwhy with rfl | ⟨f, -, rfl⟩
    · exact nofun
    · exact nofun
  acts t a walker m e hwalk hend _ hm he h := h.acts hwalk hend hm he
  attends _ _ _ _ _ _ _ h := h
  stumbles _ _ _ _ _ _ _ := .inr ⟨nofun, nofun⟩

omit [Arithmetic] in
/-- Who has failed is reported. -/
theorem mem_failures {t : AgentTask} {f : RunFault} (ht : t ∈ s.tasks)
    (hend : t.ending = some (.failed f)) :
    (t.agentId, f.message) ∈ s.tasks.filterMap failure? := by
  refine List.mem_filterMap.2 ⟨t, ht, ?_⟩
  unfold failure?
  rw [hend]

omit [Arithmetic] in
/-- When everybody has ended and nobody was killed, a session whose parts
    were placed can be scored. -/
theorem Parts.scores (h : Parts Landed cast v s) (hf : Flight v s)
    (hgoal : ∀ g, c.goal = some g → g.isNumeric = true)
    (hover : ∀ b ∈ s.ended, b = true) (hspared : v.isDoomed s = false) :
    ∃ reached, (v.scored c s).2 = .ok reached := by
  refine score_numbers hgoal _ _ fun id hid hfine a ha => ?_
  obtain ⟨t, ht, rfl⟩ := List.mem_map.1 hid
  obtain ⟨b, hb, hlanded⟩ := h.parts t ht
  have ha : v.agent? t.agentId = some a := ha
  obtain rfl := Option.mem_unique hb ha
  rcases hlanded with hlocated | ⟨hno, -⟩
  · exact hlocated
  exfalso
  -- it was never placed, so it failed or was killed
  have hended : t.ending.isSome = true :=
    hover _ (List.mem_map.2 ⟨t, ht, rfl⟩)
  obtain ⟨e, he⟩ := Option.isSome_iff_exists.1 hended
  cases e with
  | returned => exact hno he
  | killed =>
      rw [hf.killed t ht he] at hspared
      cases hspared
  | failed f =>
      have hmem := List.mem_map_of_mem (f := Prod.fst) (mem_failures ht he)
      exact lookup_isNone.1 (Option.isNone_iff_eq_none.2 hfine) hmem

/-! ## What a call ends in -/

omit [Arithmetic] in
/-- A session is not doomed if its call is not. -/
theorem isDoomed_spared {call : Call} (hcall : v.calls[s.call]? = some call)
    (hspared : call.doomed = false) : v.isDoomed s = false := by
  rw [isDoomed, hcall]
  exact hspared

omit [Arithmetic] in
/-- A call in flight has not ended. -/
theorem Orderly.unended (h : Orderly v) (hcur : v.current = some n) :
    v.ending? n = none := by
  obtain ⟨hidle, s, hs, rfl⟩ := current_eq_some.1 hcur
  exact ending?_open (h.flight hidle hs).call

/-- What every deed keeps of a session until its call ends holds as long as
    the call is in flight; and what the call settles for then, or has ended
    in already, is what it has ended in ever after. -/
theorem Course.settles {ds : List Deed} (hcourse : Course c u ds v)
    (hu : Reachable c u) {Q : World → Session → Prop} {R : CallEnd → Prop}
    (hn : u.current = some n ∨ u.isShut n = true)
    (hQ : u.current = some n → ∀ s, u.session = some s → Q u s)
    (hR : ∀ e, u.ending? n = some e → R e)
    (moves : ∀ (x : World) (d : Deed) (s s' : Session), Reachable c x →
      d ∈ ds → x.session = some s → x.idle = false → Q x s →
      Moves c x s d (x.after c d) → (x.after c d).session = some s' →
      (x.after c d).idle = false → Q (x.after c d) s')
    (settles : ∀ (x : World) (es : List Deed) (s : Session) (e : CallEnd)
      (agents : List (String × Agent)), Course c u es x →
      (∀ d ∈ es, d ∈ ds) → x.session = some s → s.call = n →
      x.idle = false → Q x s → (∀ b ∈ s.ended, b = true) →
      Settles c x s e agents → R e) :
    (v.current = some n ∨ v.isShut n = true)
      ∧ (v.current = some n → ∀ s, v.session = some s → Q v s)
      ∧ ∀ e, v.ending? n = some e → R e := by
  -- `Q` goes with the call in flight, `R` comes with the deed it ends in
  induction hcourse with
  | nil => exact ⟨hn, hQ, hR⟩
  | @snoc x es d hes hd ih =>
      have hx := hu.course hes
      have ho := hx.orderly
      have ho' : Orderly (x.after c d) := ho.after hd
      obtain ⟨hknown, hold, hends⟩ := ih
        (fun y e s s' hy hmem => moves y e s s' hy (List.mem_append_left _ hmem))
        fun y fs s e agents hy hsub => settles y fs s e agents hy
          fun e he => List.mem_append_left _ (hsub e he)
      refine ⟨ho.known_after hd hknown, ?_⟩
      rcases hknown with hflies | hshut
      · obtain ⟨hidle, s, hs, hcall⟩ := current_eq_some.1 hflies
        have hmoves := ho.moves (c := c) hidle hs d
        obtain ⟨s', hs', hcall'⟩ := hmoves.call hs
        cases hidle' : (x.after c d).idle with
        | false =>
            refine ⟨fun _ s₂ hs₂ => ?_, fun e he => ?_⟩
            · exact moves x d s s₂ hx
                (List.mem_append_right _ (List.mem_singleton_self d)) hs
                hidle (hold hflies s hs) hmoves hs₂ hidle'
            · rw [ho'.unended (current_eq_some.2
                ⟨hidle', s', hs', hcall'.trans hcall⟩)] at he
              cases he
        | true =>
            obtain ⟨hover, -, e', hsettles, hcalls⟩ :=
              hmoves.left hidle' hidle
            refine ⟨fun hno => ?_, fun e he => ?_⟩
            · rw [(current_eq_some.1 hno).1] at hidle'
              cases hidle'
            · have hget := he
              rw [ending?, hcalls, hcall, List.getElem?_modify_eq] at hget
              obtain ⟨call, hcall₂, hend⟩ := Option.bind_eq_some_iff.1 hget
              obtain ⟨call₀, -, rfl⟩ := Option.map_eq_some_iff.1 hcall₂
              obtain rfl := Option.some.inj hend
              exact settles x es s e' _ hes
                (fun e he => List.mem_append_left _ he) hs hcall hidle
                (hold hflies s hs) hover hsettles
      · refine ⟨fun hno => ?_, fun e he => ?_⟩
        · obtain ⟨hi, s', hs', hcall'⟩ := current_eq_some.1 hno
          rw [(ho.rests hshut hd hs' hcall').2.1] at hi
          cases hi
        · exact hends e (ho.ending?_after hshut d ▸ he)

/-- The cast of a call that starts: known agents, each of them once. -/
theorem Starts.known (h : Starts c w n cast) :
    cast.Nodup ∧ ∀ id ∈ cast, id ∈ w.names := by
  obtain ⟨call, hcall, rfl, -⟩ := h.call
  exact h.reachable.orderly.casts call (List.mem_of_getElem? hcall)

/-- When a session has just begun everybody is yet to be placed, or there is
    nobody and its call has returned a result. -/
theorem Starts.landed (h : Starts c w n cast) :
    Reachable c (w.after c .turn)
      ∧ ((w.after c .turn).current = some n
        ∨ (w.after c .turn).isShut n = true)
      ∧ ((w.after c .turn).current = some n →
        ∀ s, (w.after c .turn).session = some s →
          Parts Landed cast (w.after c .turn) s)
      ∧ ∀ e, (w.after c .turn).ending? n = some e → ∃ r, e = .returned r := by
  obtain ⟨-, hnames⟩ := h.known
  obtain ⟨call, hcall, rfl, hspared, programs, warnings, hprograms⟩ := h.call
  by_cases hcast : call.cast = []
  · have hpassed := h.reachable.passed h.idle h.turn hcall hspared hprograms
      hcast
    refine ⟨hpassed.reachable, .inr (hpassed.isShut hcall),
      fun hno => ?_, fun e he => ?_⟩
    · have hidle := hpassed.idle
      rw [(current_eq_some.1 hno).1] at hidle
      cases hidle
    · obtain ⟨call', hcall', hend⟩ := Option.bind_eq_some_iff.1 he
      rw [hpassed.ending hcall'] at hend
      exact ⟨_, (Option.some.inj hend).symm⟩
  · have hopened := h.reachable.opened h.idle h.turn hcall hspared hprograms
      hcast
    refine ⟨hopened.reachable, .inl hopened.current, fun _ s hs => ?_,
      fun e he => ?_⟩
    · obtain rfl := hopened.eq_opened hs
      exact hopened.parts hnames fun _ _ _ _ => .inr ⟨nofun, fun _ => nofun⟩
    · rw [hopened.reachable.orderly.unended hopened.current] at he
      cases he

/-- While nobody kills its call, a session that starts is not doomed. -/
theorem Starts.spared (h : Starts c w n cast) {ds : List Deed}
    (hcourse : Course c (w.after c .turn) ds v) (hkill : .kill n ∉ ds)
    (hcall : s.call = n) : v.isDoomed s = false := by
  obtain ⟨call₀, hcall₀, -, hspared₀, -⟩ := h.call
  obtain ⟨call, hget, hspared⟩ := h.reachable.spared_turn h.turn
    ⟨call₀, hcall₀, hspared₀⟩ hcourse hkill
  exact isDoomed_spared (hcall ▸ hget) hspared

variable [Arithmetic.Doubles]

/-- With a goal of numbers, or none, a call that starts a session ends in
    nothing but a result, unless somebody kills it: whatever its agents are
    to run, and whatever the observer, the handler and the host do, as long
    as the host leaves the agents alone. -/
theorem Starts.returns (h : Starts c w n cast)
    (hgoal : ∀ g, c.goal = some g → g.isNumeric = true) {ds : List Deed}
    (hcourse : Course c (w.after c .turn) ds v)
    (hput : ∀ d ∈ ds, LeavesAlone cast d) :
    (v.current = some n ∨ v.isShut n = true)
      ∧ ∀ e, v.ending? n = some e →
        (∃ r, e = .returned r) ∨ e = .killed ∧ .kill n ∈ ds := by
  obtain ⟨hreach, hknown, hlanded, hpassed⟩ := h.landed
  refine (hcourse.settles hreach
    (Q := fun x s => s.result = none → Parts Landed cast x s)
    (R := fun e => (∃ r, e = .returned r) ∨ e = .killed ∧ .kill n ∈ ds)
    hknown (fun hcur s hs _ => hlanded hcur s hs)
    (fun e he => .inl (hpassed e he)) ?_ ?_).imp id And.right
  · intro x d s s' hx hmem hs hidle hparts hmoves hs' hidle' hr
    exact hmoves.parts landed_persists (hx.orderly.flight hidle hs) hs
      h.known.1 (hput d hmem) hparts hidle' hs' hr
  · intro x es s e agents hes hsub hs hcall hidle hparts hover hsettles
    have hx := hreach.course hes
    have hf := hx.orderly.flight hidle hs
    cases hsettles with
    | killed hdoom =>
        refine .inr ⟨rfl, by_contra fun hno => ?_⟩
        rw [h.spared hes (fun hmem => hno (hsub _ hmem)) hcall] at hdoom
        cases hdoom
    | unscored hspared hnone hscore =>
        have hfresh : s.result = none := by
          by_contra hno
          exact hnone (hf.fresh (Option.isSome_iff_ne_none.2 hno))
        obtain ⟨reached, hreached⟩ :=
          (hparts hfresh).scores hf hgoal hover hspared
        rw [hscore] at hreached
        cases hreached
    | untimed _ _ _ _ hbad =>
        -- the time passed is not negative, and rounding keeps it so
        refine absurd (hx.timely.elapsed_rounded (fun q hq => ?_) hidle hs)
          hbad
        rw [Arithmetic.Doubles.round_eq]
        exact Binary64.zero_le_nearest hq
    | returned => exact .inl ⟨_, rfl⟩
    | handled => exact .inl ⟨_, rfl⟩

end

/-! ## Runs that raise errors -/

section

variable [Arithmetic] {c : Coordinator} {u v w : World} {s s' : Session}
  {n : Nat} {id : String} {f : RunFault}

/-- The run of an agent raises an error at the next turn: in its act, or
    when it is to be shown, or because the observer does about a snapshot of
    it, or because it cannot even set out. -/
inductive Raises (c : Coordinator) (v : World) (id : String) (f : RunFault) :
    Prop
  | acting {s : Session} {i : Nat} {t : AgentTask} {walker : Walker}
      {a : Agent} {m : Step} :
      v.active = some i → v.session = some s → s.tasks[i]? = some t →
      t.agentId = id → t.walker = some walker → t.showing = none →
      v.agent? id = some a →
      m = walker.step (scene c) v.now s.running a →
      (verdict c.observer.prompt v.shown.length v.now m.agent s.running
        m.signal).outcome = some (.failed f) →
      Raises c v id f
  | shown {s : Session} {i : Nat} {t : AgentTask} {e : Errand} :
      v.active = some i → v.session = some s → s.tasks[i]? = some t →
      t.agentId = id → t.showing = some e → e.rests = [] →
      e.fails = true → f = .observerFailed → Raises c v id f
  | settingOut {s : Session} {i : Nat} {t : AgentTask} {rest : List Job} :
      v.active = none → v.round = .agent i :: rest → v.session = some s →
      s.tasks[i]? = some t → t.agentId = id → t.walker = none →
      t.ending = none → t.doomed = false →
      checkCeiling c.config.loopCeiling = .error f → Raises c v id f

/-- The part of an agent has failed. -/
def HasFailed (s : Session) (id : String) (f : RunFault) : Prop :=
  ∃ t ∈ s.tasks, t.agentId = id ∧ t.ending = some (.failed f)

omit [Arithmetic] in
/-- A part that fails has failed. -/
theorem hasFailed_modify {i : Nat} {t : AgentTask} {g : AgentTask → AgentTask}
    (ht : s.tasks[i]? = some t) (hid : (g t).agentId = id)
    (hend : (g t).ending = some (.failed f)) (running : Bool) :
    HasFailed { s with tasks := s.tasks.modify i g, running := running }
      id f := by
  refine ⟨g t, List.mem_of_getElem? (i := i) ?_, hid, hend⟩
  simp [ht]

/-- A part that has failed stays so. -/
theorem Moves.hasFailed {d : Deed} (hm : Moves c v s d w)
    (hs : v.session = some s) (hs' : w.session = some s')
    (h : HasFailed s id f) : HasFailed s' id f := by
  obtain ⟨t, ht, hid, hfailed⟩ := h
  obtain ⟨i, hi⟩ := List.mem_iff_getElem?.1 ht
  obtain ⟨hlen, hparts⟩ := hm.alters hs hs'
  have hlt : i < s'.tasks.length :=
    hlen ▸ (List.getElem?_eq_some_iff.1 hi).1
  obtain ⟨u, hu, halters⟩ := hparts (List.getElem?_eq_getElem hlt)
  obtain rfl := Option.mem_unique hi hu
  refine ⟨s'.tasks[i], List.getElem_mem hlt, ?_⟩
  generalize s'.tasks[i] = t' at halters
  cases halters with
  | stays => exact ⟨hid, hfailed⟩
  | dooms => exact ⟨hid, hfailed⟩
  | acts _ hend => rw [hend] at hfailed; cases hfailed
  | attends => exact ⟨hid, hfailed⟩
  | stumbles _ hend => rw [hend] at hfailed; cases hfailed
  | setsOut _ hend => rw [hend] at hfailed; cases hfailed
  | dies hend => rw [hend] at hfailed; cases hfailed

/-- A run that raises an error ends the part of its agent, and nothing
    else. -/
theorem Raises.fails (h : Raises c v id f) (ho : Orderly v)
    (hcur : v.current = some n) :
    (v.after c .turn).current = some n
      ∧ ∀ s, (v.after c .turn).session = some s →
        HasFailed s id f ∧ s.result = none := by
  obtain ⟨hidle, s₀, hs₀, hcall⟩ := current_eq_some.1 hcur
  -- the part that fails had not ended, so the session is not scored yet
  have hfails : ∀ {i : Nat} {t : AgentTask} {g : AgentTask → AgentTask}
      {running : Bool}, s₀.tasks[i]? = some t → t.ending = none →
      (g t).agentId = id → (g t).ending = some (.failed f) →
      (v.after c .turn).idle = false →
      (v.after c .turn).session = some { s₀ with
        tasks := s₀.tasks.modify i g, running := running } →
      (v.after c .turn).current = some n
        ∧ ∀ s, (v.after c .turn).session = some s →
          HasFailed s id f ∧ s.result = none := by
    intro i t g running ht hend hid hfailed hidle' hs'
    refine ⟨current_eq_some.2 ⟨hidle', _, hs', hcall⟩, fun s hs => ?_⟩
    obtain rfl := Option.mem_unique hs' hs
    exact ⟨hasFailed_modify ht hid hfailed running,
      (ho.flight hidle hs₀).unscored ht hend⟩
  cases h with
  | @acting s i t walker a m hact hs ht hid hwalk hunshown ha hm hverdict =>
      obtain rfl := Option.mem_unique hs hs₀
      obtain ⟨-, s₁, t₁, -, hs₁, ht₁, -, hend⟩ := ho.acting i hact
      obtain rfl := Option.mem_unique hs hs₁
      obtain rfl := Option.mem_unique ht ht₁
      cases ho.act_turn (c := c) hact hs ht hwalk with
      | acts _ ha' hm' he _ _ _ hidle' hs' =>
          rw [hid, ha] at ha'
          obtain rfl := Option.some.inj ha'
          rw [← hm] at hm'
          subst hm'
          refine hfails ht hend hid ?_ hidle' hs'
          rw [he, hverdict]
          rfl
      | attends hshown => rw [hunshown] at hshown; cases hshown
      | stumbles hshown => rw [hunshown] at hshown; cases hshown
  | @shown s i t e hact hs ht hid hshown hrests hrude hf =>
      obtain rfl := Option.mem_unique hs hs₀
      obtain ⟨-, s₁, t₁, x, hs₁, ht₁, hwalk, hend⟩ := ho.acting i hact
      obtain rfl := Option.mem_unique hs hs₁
      obtain rfl := Option.mem_unique ht ht₁
      cases ho.act_turn (c := c) hact hs ht hwalk with
      | acts hunshown => rw [hunshown] at hshown; cases hshown
      | attends hshown' hleaves =>
          obtain rfl := Option.mem_unique hshown hshown'
          cases hleaves with
          | rests hsleepy => rw [hrests] at hsleepy; cases hsleepy
          | done _ hno => rw [hrude] at hno; cases hno
      | stumbles _ _ _ hkeeps hs' =>
          exact hfails ht hend hid (by rw [hf]) hkeeps.idle hs'
  | @settingOut s i t rest hact hround hs ht hid hwalk hend hspared hbad =>
      obtain rfl := Option.mem_unique hs hs₀
      have hget : ({ v with round := rest } : World).task? i = some t := by
        simp [task?, hs, ht]
      have hstep : v.after c .turn
          = ({ v with round := rest } : World).endTask i (.failed f) := by
        show v.step c = _
        rw [step_turn hact hround, runJob_agent hget, World.turnTask, hend,
          hspared, hwalk, hbad]
        rfl
      refine @hfails i t
        (fun t => { t with showing := none, ending := some (.failed f) })
        s.running ht hend hid rfl ?_ ?_
      · rw [hstep]
        exact hidle
      · rw [hstep]
        simp only [endTask, withTask, withSession, enqueue, hs,
          Option.map_some]

/-- Whoever's run raises an error is reported as failed when the call
    returns. -/
theorem Raises.reported (h : Raises c u id f) (hu : Reachable c u)
    (hcur : u.current = some n) {ds : List Deed}
    (hcourse : Course c (u.after c .turn) ds v) {r : SessionResult}
    (hr : v.ending? n = some (.returned r)) :
    (id, f.message) ∈ r.failed := by
  obtain ⟨hcur', hfailed⟩ := h.fails hu.orderly hcur
  have hturn : u.Admits .turn := by
    intro hact hempty
    cases h with
    | acting hno => rw [hno] at hact; cases hact
    | shown hno => rw [hno] at hact; cases hact
    | settingOut _ hround => rw [hround] at hempty; cases hempty
  have hreach : Reachable c (u.after c .turn) := hu.course (.single hturn)
  refine (hcourse.settles hreach
    (Q := fun _ s => HasFailed s id f
      ∧ ∀ r, s.result = some r → (id, f.message) ∈ r.failed)
    (R := fun e => ∀ r, e = .returned r → (id, f.message) ∈ r.failed)
    (.inl hcur') (fun _ s hs => ?_) (fun e he => ?_) ?_ ?_).2.2 _ hr r rfl
  · obtain ⟨hthere, hnone⟩ := hfailed s hs
    refine ⟨hthere, fun r hr => ?_⟩
    rw [hnone] at hr
    cases hr
  · rw [hreach.orderly.unended hcur'] at he
    cases he
  · rintro x d s s' - - hs - ⟨hthere, hold⟩ hmoves hs' hidle'
    refine ⟨hmoves.hasFailed hs hs' hthere, fun r hr => ?_⟩
    rcases hmoves.result hs hidle' hs' hr with hr | ⟨-, -, -, _, _, -, rfl⟩
    · exact hold r hr
    · obtain ⟨t, ht, rfl, hend⟩ := hthere
      exact mem_failures ht hend
  · rintro x es s e agents - - - - - ⟨hthere, hold⟩ - hsettles r hr
    cases hsettles with
    | returned =>
        cases hr
        obtain ⟨t, ht, rfl, hend⟩ := hthere
        exact mem_failures ht hend
    | handled _ _ hr' =>
        cases hr
        have hmem := hold _ hr'
        exact hmem
    | _ => cases hr

end

end World

end BlockStage
