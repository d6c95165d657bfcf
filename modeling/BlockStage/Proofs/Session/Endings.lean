import BlockStage.Proofs.Session.Clock
import BlockStage.Proofs.Session.Mirror

/-! # Endings — what the call of a session ends in

    A session is scored when everybody has ended, and what the call then
    returns is what the score says: `Ends` lists the ways in which a call
    can end, each with the world in which its session was scored.
    `Mirrored` adds to the mirrors of a session what its call has ended in,
    and `Begins.course` carries both along every course. -/

namespace BlockStage

namespace World

variable [Arithmetic] {c : Coordinator} {w v : World} {n : Nat}
  {cast : List String} {programs : List (String × Program)}
  {warnings : List (String × List WarningReport)} {cut : Bool}
  {s : Session}

/-- A session that is about to be scored: everybody has ended, nobody was
    killed, and the flag tells whether the session was cut short. -/
structure Closing (c : Coordinator) (w : World) (n : Nat)
    (cast : List String) (programs : List (String × Program))
    (warnings : List (String × List WarningReport)) (cut : Bool)
    (u : World) (s : Session) : Prop where
  reachable : Reachable c u
  flying : u.idle = false
  mirrors : Mirrors c w n cast programs warnings cut u s
  ended : ∀ b ∈ s.ended, b = true
  spared : u.isDoomed s = false
  running : s.running = !cut

/-- What the call of a session ends in.  A session without agents is scored
    as it begins. -/
inductive Ends (c : Coordinator) (w : World) (n : Nat)
    (cast : List String) (programs : List (String × Program))
    (warnings : List (String × List WarningReport)) (cut : Bool) :
    CallEnd → Prop
  | killed : Ends c w n cast programs warnings cut .killed
  | unscored {u : World} {s : Session} {agents : List (String × Agent)}
      {f : RunFault} :
      Closing c w n cast programs warnings cut u s →
      u.scored c s = (agents, .error f) →
      Ends c w n cast programs warnings cut (.failed f)
  | untimed {u : World} {s : Session} :
      Closing c w n cast programs warnings cut u s →
      ¬ (Scalar.finite 0).le (u.now.sub s.startedAt) →
      Ends c w n cast programs warnings cut
        (.failed (.badDuration (.real (u.now.sub s.startedAt))))
  | returned {u : World} {s : Session} {agents : List (String × Agent)}
      {reached : List String} :
      Closing c w n cast programs warnings cut u s →
      u.scored c s = (agents, .ok reached) →
      Ends c w n cast programs warnings cut
        (.returned { u.resultNow s reached with warnings := warnings })
  | passed : cast = [] → cut = false → Ends c w n cast programs warnings cut
      (.returned (w.emptyResult n programs warnings))

/-- A session beside the runs of its agents alone, as long as no other one
    has begun, with what its call has ended in. -/
structure Mirrored (c : Coordinator) (w : World) (n : Nat)
    (cast : List String) (programs : List (String × Program))
    (warnings : List (String × List WarningReport)) (cut : Bool)
    (v : World) : Prop where
  /-- The call is in flight or has ended. -/
  known : v.current = some n ∨ v.isShut n = true
  present : ∀ s, v.session = some s → s.call = n →
    Mirrors c w n cast programs warnings cut v s
  /-- A result that is there already is the one to be returned. -/
  result : ∀ s r, v.session = some s → s.call = n → v.idle = false →
    s.result = some r →
    Ends c w n cast programs warnings cut
      (.returned { r with warnings := warnings })
  ended : ∀ call, v.calls[n]? = some call → ∀ e, call.ending = some e →
    Ends c w n cast programs warnings cut e
      ∧ (e = .killed → call.doomed = true)
  /-- Agents are killed only with the call. -/
  killed : ∀ s, v.session = some s → s.call = n → ∀ t ∈ s.tasks,
    t.ending = some .killed → ∃ call, v.calls[n]? = some call
      ∧ call.doomed = true

/-! ## What a move does to the result -/

/-- A result that is there was there before, or the session was just
    scored. -/
theorem Moves.result {d : Deed} (h : Moves c v s d w)
    (hses : v.session = some s) (hidle : w.idle = false) {s' : Session}
    (hs' : w.session = some s') {r : SessionResult}
    (hr : s'.result = some r) :
    s.result = some r
      ∨ (∀ b ∈ s.ended, b = true) ∧ v.isDoomed s = false
        ∧ Job.handled ∉ v.turns ∧ ∃ agents reached,
          v.scored c s = (agents, .ok reached)
            ∧ r = v.resultNow s reached := by
  have hkeep : ∀ u : Session, w.session = some u → u.result = s.result →
      s.result = some r := by
    intro u hu heq
    obtain rfl := Option.mem_unique hu hs'
    rw [← heq, hr]
  cases h with
  | stays _ _ hs => exact .inl (hkeep _ hs rfl)
  | lowers _ hs => exact .inl (hkeep _ hs rfl)
  | puts => exact .inl (hkeep _ hses rfl)
  | dooms _ hs => exact .inl (hkeep _ hs rfl)
  | acts _ _ _ _ _ _ _ _ _ _ _ _ hs => exact .inl (hkeep _ hs rfl)
  | attends _ _ _ _ _ _ _ hs => exact .inl (hkeep _ hs rfl)
  | stumbles _ _ _ _ _ _ _ _ hs => exact .inl (hkeep _ hs rfl)
  | drowses _ _ _ _ _ _ _ hs => exact .inl (hkeep _ hs rfl)
  | setsOut _ _ _ _ _ _ hs => exact .inl (hkeep _ hs rfl)
  | dies _ _ _ _ hs => exact .inl (hkeep _ hs rfl)
  | dozes hover hdoom hnone hscore _ _ _ _ hs =>
      obtain rfl := Option.mem_unique hs hs'
      cases hr
      exact .inr ⟨hover, hdoom, hnone, _, _, hscore, rfl⟩
  | leaves _ _ _ hrest => rw [hrest] at hidle; cases hidle

/-- A call that leaves has settled. -/
theorem Moves.left {d : Deed} (h : Moves c v s d w) (hidle : w.idle = true)
    (hflew : v.idle = false) :
    (∀ b ∈ s.ended, b = true)
      ∧ (∀ s', w.session = some s' → s'.tasks = s.tasks)
      ∧ ∃ e, Settles c v s e w.agents ∧ w.calls = v.calls.modify s.call
        fun c => { c with ending := some e } := by
  have hno : w.idle = false → (∀ b ∈ s.ended, b = true)
      ∧ (∀ s', w.session = some s' → s'.tasks = s.tasks)
      ∧ ∃ e, Settles c v s e w.agents ∧ w.calls = v.calls.modify s.call
        fun c => { c with ending := some e } := by
    intro hflies
    rw [hflies] at hidle
    cases hidle
  cases h with
  | stays _ hk => exact hno hk.idle
  | lowers hk => exact hno hk.idle
  | puts => exact hno hflew
  | dooms hk => exact hno hk.idle
  | acts _ _ _ _ _ _ _ _ _ _ _ hi => exact hno hi
  | attends _ _ _ _ _ _ hk => exact hno hk.idle
  | stumbles _ _ _ _ _ _ _ hk => exact hno hk.idle
  | drowses _ _ _ _ _ _ hk => exact hno hk.idle
  | setsOut _ _ _ _ _ hk => exact hno hk.idle
  | dies _ _ _ hk => exact hno hk.idle
  | dozes _ _ _ _ _ _ _ hi => exact hno hi
  | leaves hover hsettles _ _ hs _ htasks _ hcalls =>
      refine ⟨hover, fun s' hs' => ?_, _, hsettles, hcalls⟩
      rw [hs] at hs'
      exact Option.some.inj hs' ▸ htasks

/-- A session that has no result yet and whose agents have all ended is
    about to be scored. -/
theorem Mirrors.closing (h : Mirrors c w n cast programs warnings cut v s)
    (hv : Reachable c v) (hidle : v.idle = false)
    (hover : ∀ b ∈ s.ended, b = true) (hspared : v.isDoomed s = false)
    (hnone : Job.handled ∉ v.turns) :
    Closing c w n cast programs warnings cut v s := by
  refine ⟨hv, hidle, h, hover, hspared, h.flag hidle ?_⟩
  by_contra hno
  exact hnone ((hv.orderly.flight hidle h.session).fresh
    (Option.isSome_iff_ne_none.2 hno))

/-- What a call settles for is what it ends in. -/
theorem Settles.ends {e : CallEnd} {agents : List (String × Agent)}
    (he : Settles c v s e agents)
    (h : Mirrored c w n cast programs warnings cut v) (hv : Reachable c v)
    (hidle : v.idle = false) (hs : v.session = some s) (hcall : s.call = n)
    (hover : ∀ b ∈ s.ended, b = true) :
    Ends c w n cast programs warnings cut e
      ∧ (e = .killed → v.isDoomed s = true) := by
  have hm := h.present s hs hcall
  cases he with
  | killed hdoom => exact ⟨.killed, fun _ => hdoom⟩
  | unscored hdoom hnone hscore =>
      exact ⟨.unscored (hm.closing hv hidle hover hdoom hnone) hscore, nofun⟩
  | untimed hdoom hnone _ _ hbad =>
      exact ⟨.untimed (hm.closing hv hidle hover hdoom hnone) hbad, nofun⟩
  | returned hdoom hnone hscore =>
      rw [hm.warnings]
      exact ⟨.returned (hm.closing hv hidle hover hdoom hnone) hscore, nofun⟩
  | handled _ _ hr =>
      rw [hm.warnings]
      exact ⟨h.result s _ hs hcall hidle hr, nofun⟩

/-! ## Along a course -/

/-- Where a move ends the call of a session, the call ends in what it
    settled for. -/
theorem Mirrored.leaves (h : Mirrored c w n cast programs warnings cut v)
    (hv : Reachable c v) (hidle : v.idle = false) (hs : v.session = some s)
    (hcall : s.call = n) {d : Deed} {v' : World} (hmoves : Moves c v s d v')
    (hi : v'.idle = true) {call : Call} (hget : v'.calls[n]? = some call)
    {e : CallEnd} (he : call.ending = some e) :
    Ends c w n cast programs warnings cut e
      ∧ (e = .killed → call.doomed = true) := by
  obtain ⟨hover, -, e', hsettles, hcalls⟩ := hmoves.left hi hidle
  obtain ⟨hends, hkilled⟩ := hsettles.ends h hv hidle hs hcall hover
  rw [hcalls, hcall, List.getElem?_modify_eq] at hget
  obtain ⟨call₀, hcall₀, rfl⟩ := Option.map_eq_some_iff.1 hget
  obtain rfl := Option.some.inj he
  refine ⟨hends, fun hk => ?_⟩
  have hdoom := hkilled hk
  simpa [isDoomed, hcall, hcall₀] using hdoom

/-- An agent that was killed belongs to a call that was, also after the move
    of its session that ends the call. -/
theorem Orderly.killed_after (ho : Orderly v) (hidle : v.idle = false)
    (hs : v.session = some s) {d : Deed} (hd : v.Admits d)
    (hmoves : Moves c v s d (v.after c d)) {s' : Session}
    (hs' : (v.after c d).session = some s') (hcall : s.call = s'.call)
    {t : AgentTask} (ht : t ∈ s'.tasks) (hkill : t.ending = some .killed) :
    ∃ call, (v.after c d).calls[s'.call]? = some call
      ∧ call.doomed = true := by
  cases hi : (v.after c d).idle with
  | false =>
      exact doomed_call (((ho.after hd).flight hi hs').killed t ht hkill)
  | true =>
      rw [(hmoves.left hi hidle).2.1 _ hs'] at ht
      have hdoom := (ho.flight hidle hs).killed t ht hkill
      rw [isDoomed, hcall] at hdoom
      obtain ⟨call, hget, hdoomed⟩ := doomed_call hdoom
      obtain ⟨call', hget', -, -, hmono, -⟩ :=
        ho.grows (c := c) d s'.call call hget
      exact ⟨call', hget', hmono hdoomed⟩

/-- While its call is in flight, a deed keeps a session mirrored. -/
theorem Mirrored.flies (hb : Begins c w n cast programs warnings)
    (hcast : cast.Nodup) (hmode : c.config.mode ≠ .canvas)
    (hsink : ∀ k, w.shown.length < k → (c.observer.reaction k).fails = false)
    (h : Mirrored c w n cast programs warnings cut v) (hv : Reachable c v)
    (hcur : v.current = some n) {d : Deed} (hd : v.Admits d)
    (hput : ∀ name a, d = .put name a → name ∉ cast) :
    ∃ cut', Mirrored c w n cast programs warnings cut' (v.after c d)
      ∧ (cut = true → cut' = true)
      ∧ (cut' = true → cut = true ∨ Lowers c w d) := by
  have ho := hv.orderly
  have ho' : Orderly (v.after c d) := ho.after hd
  obtain ⟨hidle, s, hs, hcall⟩ := current_eq_some.1 hcur
  have hmoves := ho.moves (c := c) hidle hs d
  obtain ⟨cut', s', hmirrors, hcut⟩ :=
    (h.present s hs hcall).moves hb hcast hmode ho hidle hsink hmoves hput
  have hthis : ∀ s'', (v.after c d).session = some s'' → s'' = s' :=
    fun s'' hs'' => Option.some.inj (hs''.symm.trans hmirrors.session)
  refine ⟨cut', ?_, ?_, ?_⟩
  · exact
      { known := ho.known_after hd (.inl hcur)
        present := fun s'' hs'' _ => hthis s'' hs'' ▸ hmirrors
        result := by
          intro s'' r hs'' _ hi hr
          obtain rfl := hthis s'' hs''
          -- the flag is not lowered in a session that has its result
          have hsame : cut' = cut := by
            rcases hcut with hsame | ⟨-, hnone, -⟩
            · exact hsame
            · rw [hnone] at hr
              cases hr
          rw [hsame]
          rcases hmoves.result hs hi hmirrors.session hr with
            hr | ⟨hover, hspared, hnone, agents, reached, hscore, rfl⟩
          · exact h.result s r hs hcall hidle hr
          · exact .returned ((h.present s hs hcall).closing hv hidle hover
              hspared hnone) hscore
        ended := by
          intro call' hcall' e he
          cases hi : (v.after c d).idle with
          | false =>
              have hstill := (ho'.flight hi hmirrors.session).call
              rw [hmirrors.call] at hstill
              simp [isOpen, hcall', he] at hstill
          | true =>
              have hsame : cut' = cut := by
                rcases hcut with hsame | ⟨hno, -⟩
                · exact hsame
                · rw [hi] at hno
                  cases hno
              rw [hsame]
              exact h.leaves hv hidle hs hcall hmoves hi hcall' he
        killed := by
          intro s'' hs'' hcall'' t ht hkill
          exact hcall'' ▸ ho.killed_after hidle hs hd hmoves hs''
            (hcall.trans hcall''.symm) ht hkill }
  · intro hup
    rcases hcut with hsame | ⟨-, -, hup', -⟩
    · exact hsame.trans hup
    · exact hup'
  · intro hup
    rcases hcut with hsame | ⟨-, -, -, hlow⟩
    · exact .inl (hsame ▸ hup)
    · exact .inr hlow

/-- After its call has ended, a deed keeps a session mirrored until
    another one begins. -/
theorem Mirrored.rests (h : Mirrored c w n cast programs warnings cut v)
    (hv : Reachable c v) (hshut : v.isShut n = true) {d : Deed}
    (hd : v.Admits d) (hput : ∀ name a, d = .put name a → name ∉ cast) :
    Mirrored c w n cast programs warnings cut (v.after c d) := by
  have ho := hv.orderly
  have ho' : Orderly (v.after c d) := ho.after hd
  have hgrows := ho.grows (c := c) d
  have hshut' := ho.shut_after (c := c) hshut d
  refine ⟨.inr hshut', ?_, ?_, ?_, ?_⟩
  · intro s' hs' hcall'
    obtain ⟨hidle, hi', hs⟩ := ho.rests hshut hd hs' hcall'
    obtain ⟨htouch, hagents⟩ := ho.untouched (c := c) hidle (d := d)
    have hm := h.present s' hs hcall'
    refine hm.same (fun hc => hc) hs' rfl rfl
      (fun hno => by rw [hi'] at hno; cases hno) htouch.shown rfl ?_
    intro t ht a ha
    refine ⟨a, ?_, .inl rfl⟩
    by_cases hd' : ∀ name a, d ≠ .put name a
    · exact (agent?_congr (hagents hi' hd') _).trans ha
    · push Not at hd'
      obtain ⟨name, b, rfl⟩ := hd'
      show (v.setAgent name b).agent? t.agentId = some a
      rw [agent?_setAgent ha, if_neg]
      rintro rfl
      exact hput _ _ rfl (hm.mem_cast ht)
  · intro s' r hs' hcall' hi' _
    rw [ho'.shut_idle hs' (hcall' ▸ hshut')] at hi'
    cases hi'
  · intro call' hcall' e he
    cases hcall : v.calls[n]? with
    | none => simp [isShut, hcall] at hshut
    | some call =>
        obtain ⟨call'', hcall'', -, -, hdoom, -, hend⟩ := hgrows n call hcall
        obtain rfl := Option.mem_unique hcall'' hcall'
        have hsome : call.ending.isSome = true := by
          simpa [isShut, hcall] using hshut
        rw [hend hsome] at he
        obtain ⟨hends, hkilled⟩ := h.ended call hcall e he
        exact ⟨hends, fun hk => hdoom (hkilled hk)⟩
  · intro s' hs' hcall' t ht hkill
    obtain ⟨-, -, hs⟩ := ho.rests hshut hd hs' hcall'
    obtain ⟨call, hcall₀, hdoomed⟩ := h.killed s' hs hcall' t ht hkill
    obtain ⟨call', hcall₁, -, -, hmono, -⟩ := hgrows n call hcall₀
    exact ⟨call', hcall₁, hmono hdoomed⟩

/-- The cast of a call that is about to begin: known agents, each of them
    once. -/
theorem Begins.known (hb : Begins c w n cast programs warnings) :
    cast.Nodup ∧ ∀ id ∈ cast, id ∈ w.names := by
  obtain ⟨call, hcall, rfl, -, -⟩ := hb.call
  exact hb.reachable.orderly.casts call (List.mem_of_getElem? hcall)

/-! ## Sessions that open -/

/-- What there is when a session has just been opened. -/
structure Opened (c : Coordinator) (w : World) (n : Nat)
    (cast : List String) (programs : List (String × Program))
    (warnings : List (String × List WarningReport)) (v : World) : Prop where
  reachable : Reachable c v
  flies : v.idle = false
  session : v.session = some (w.opened n cast programs warnings)
  shown : v.shown = w.shown
  completed : v.completed = w.completed
  /-- Everybody who takes part is back at the start. -/
  agents : ∀ id ∈ cast, ∀ a, w.agent? id = some a →
    v.agent? id = some a.reset

/-- A call with agents that begins while no session is in flight opens
    one. -/
theorem Reachable.opened (h : Reachable c w) (hidle : w.idle = true)
    (hturn : ∃ rest, w.round = .begin n :: rest) {call : Call}
    (hcall : w.calls[n]? = some call) (hspared : call.doomed = false)
    (hprograms : scriptPrograms c.config call.script
      = .ok (programs, warnings)) (hcast : call.cast ≠ []) :
    Opened c w n call.cast programs warnings (w.after c .turn) := by
  obtain ⟨rest, hround⟩ := hturn
  obtain ⟨lines, heq⟩ := h.orderly.begins_turn (c := c) hidle hround hcall
    hspared hprograms hcast
  refine ⟨h.course (.single (admits_turn hround)), by rw [heq], by rw [heq],
    by rw [heq], by rw [heq], fun id hid a ha => ?_⟩
  rw [heq]
  unfold agent? at ha ⊢
  dsimp only
  rw [lookup_keep (fun b => by split <;> rfl), ha]
  simp [hid]

namespace Opened

variable (h : Opened c w n cast programs warnings v)

include h

theorem current : v.current = some n :=
  current_eq_some.2 ⟨h.flies, _, h.session, rfl⟩

theorem eq_opened (hs : v.session = some s) :
    s = w.opened n cast programs warnings := by
  rw [h.session] at hs
  exact (Option.some.inj hs).symm

/-- Its call has not ended. -/
theorem isOpen : v.isOpen n = true :=
  (h.reachable.orderly.flight h.flies h.session).call

theorem unended {call : Call} (hcall : v.calls[n]? = some call) :
    call.ending = none := by
  have hopen := h.isOpen
  unfold World.isOpen at hopen
  rw [hcall] at hopen
  exact Option.isNone_iff_eq_none.1 hopen

end Opened

/-- What there is when a session without agents has been scored. -/
structure Passed (c : Coordinator) (w : World) (n : Nat)
    (programs : List (String × Program))
    (warnings : List (String × List WarningReport)) (v : World) : Prop where
  reachable : Reachable c v
  idle : v.idle = true
  session : v.session = some (w.passed n programs warnings)
  shown : v.shown = w.shown
  completed : v.completed = w.completed
  agents : v.agents = w.agents
  /-- Its call returns. -/
  calls : v.calls = w.calls.modify n fun c =>
    { c with ending := some (.returned (w.emptyResult n programs warnings)) }

/-- A call without agents that begins while no session is in flight is over
    at once. -/
theorem Reachable.passed (h : Reachable c w) (hidle : w.idle = true)
    (hturn : ∃ rest, w.round = .begin n :: rest) {call : Call}
    (hcall : w.calls[n]? = some call) (hspared : call.doomed = false)
    (hprograms : scriptPrograms c.config call.script
      = .ok (programs, warnings)) (hcast : call.cast = []) :
    Passed c w n programs warnings (w.after c .turn) := by
  obtain ⟨rest, hround⟩ := hturn
  obtain ⟨lines, heq⟩ := h.orderly.passes_turn (c := c) hidle hround hcall
    hspared hprograms hcast
  exact ⟨h.course (.single (admits_turn hround)), by rw [heq]; rfl,
    by rw [heq]; rfl, by rw [heq]; rfl, by rw [heq]; rfl, by rw [heq]; rfl,
    by rw [heq]; rfl⟩

namespace Passed

variable (h : Passed c w n programs warnings v)

include h

theorem eq_passed (hs : v.session = some s) :
    s = w.passed n programs warnings := by
  rw [h.session] at hs
  exact (Option.some.inj hs).symm

/-- Its call has ended. -/
theorem isShut {call : Call} (hcall : w.calls[n]? = some call) :
    v.isShut n = true := by
  rw [World.isShut, h.calls, List.getElem?_modify_eq, hcall]
  rfl

/-- Its call has ended with the result of a session without agents. -/
theorem ending {call : Call} (hcall : v.calls[n]? = some call) :
    call.ending = some (.returned (w.emptyResult n programs warnings)) := by
  rw [h.calls, List.getElem?_modify_eq] at hcall
  obtain ⟨call₀, -, rfl⟩ := Option.map_eq_some_iff.1 hcall
  rfl

end Passed

/-- Nobody has acted when a session has just been opened. -/
theorem Opened.mirrored (h : Opened c w n cast programs warnings v)
    (hknown : ∀ id ∈ cast, id ∈ w.names) :
    Mirrored c w n cast programs warnings false v where
  known := .inl h.current
  present s hs _ := by
    obtain rfl := h.eq_opened hs
    refine ⟨hs, rfl, rfl, ?_, fun _ _ => rfl, [], h.shown, ?_⟩
    · simp only [World.opened, freshTasks, List.map_map]
      rfl
    · intro i t ht
      have ht : (freshTasks cast programs)[i]? = some t := ht
      rw [freshTasks, List.getElem?_map] at ht
      obtain ⟨id, hid, rfl⟩ := Option.map_eq_some_iff.1 ht
      have hmem := List.mem_of_getElem? hid
      obtain ⟨a₀, ha₀⟩ := agent?_of_mem (hknown id hmem)
      refine ⟨a₀, a₀.reset, 0, ha₀, h.agents id hmem a₀ ha₀, ?_⟩
      obtain ⟨hagent, -, hshown, -⟩ := outset_spec c (given programs id) a₀
      refine ⟨?_, ?_, ?_, ?_, (fun _ hno => by cases hno),
        (fun hno => by cases hno), .waits rfl rfl rfl hagent.symm⟩
      · show [] = (outset c (given programs id) a₀).shown.map (·.snapshot)
        rw [hshown]
        rfl
      · exact congrArg Agent.position hagent.symm
      · exact congrArg Agent.heading hagent.symm
      · exact congrArg Agent.message hagent.symm
  result s r hs _ _ hr := by
    obtain rfl := h.eq_opened hs
    cases hr
  ended call' hcall' e he := by
    rw [h.unended hcall'] at he
    cases he
  killed s hs _ t ht hkill := by
    obtain rfl := h.eq_opened hs
    obtain ⟨id, -, rfl⟩ := List.mem_map.1
      (show t ∈ freshTasks cast programs from ht)
    cases hkill

/-- Nobody is there to act in a session without agents. -/
theorem Passed.mirrored (h : Passed c w n programs warnings v) {call : Call}
    (hcall : w.calls[n]? = some call) :
    Mirrored c w n [] programs warnings false v where
  known := .inr (h.isShut hcall)
  present s hs _ := by
    obtain rfl := h.eq_passed hs
    refine ⟨hs, rfl, rfl, rfl, fun hno => ?_, [], h.shown, nofun⟩
    rw [h.idle] at hno
    cases hno
  result s r _ _ hno := by
    rw [h.idle] at hno
    cases hno
  ended call' hcall' e he := by
    rw [h.ending hcall'] at he
    obtain rfl := Option.some.inj he
    exact ⟨.passed rfl rfl, nofun⟩
  killed s hs _ t ht := by
    obtain rfl := h.eq_passed hs
    cases ht

/-- Nobody has acted when a session has just begun. -/
theorem Begins.opening (hb : Begins c w n cast programs warnings) :
    Reachable c (w.after c .turn)
      ∧ Mirrored c w n cast programs warnings false (w.after c .turn) := by
  obtain ⟨call, hcall, rfl, hspared, hprograms⟩ := hb.call
  by_cases hcast : call.cast = []
  · have hpassed := hb.reachable.passed hb.idle hb.turn hcall hspared
      hprograms hcast
    rw [hcast]
    exact ⟨hpassed.reachable, hpassed.mirrored hcall⟩
  · have hopened := hb.reachable.opened hb.idle hb.turn hcall hspared
      hprograms hcast
    exact ⟨hopened.reachable, hopened.mirrored hb.known.2⟩

/-- Along every course a session stays mirrored by the runs of its agents
    alone, only a deed that lowers the flag cuts it short, and once it is
    cut short it stays so. -/
theorem Mirrored.course (hb : Begins c w n cast programs warnings)
    (hmode : c.config.mode ≠ .canvas)
    (hsink : ∀ k, w.shown.length < k → (c.observer.reaction k).fails = false)
    {u : World} (h : Mirrored c w n cast programs warnings cut u)
    (hu : Reachable c u) {ds : List Deed} (hcourse : Course c u ds v)
    (hput : ∀ name a, .put name a ∈ ds → name ∉ cast) :
    Reachable c v
      ∧ ∃ cut', Mirrored c w n cast programs warnings cut' v
        ∧ (cut = true → cut' = true)
        ∧ (cut' = true → cut = true ∨ ∃ d ∈ ds, Lowers c w d) := by
  refine hcourse.keeps (P := fun x => Reachable c x
      ∧ ∃ cut', Mirrored c w n cast programs warnings cut' x
        ∧ (cut = true → cut' = true)
        ∧ (cut' = true → cut = true ∨ ∃ d ∈ ds, Lowers c w d))
    ⟨hu, cut, h, fun hup => hup, .inl⟩ ?_
  rintro x d ⟨hx, cut₁, hm, hmono, hcut⟩ hd hmem
  have hput' : ∀ name a, d = .put name a → name ∉ cast := by
    rintro name a rfl
    exact hput name a hmem
  refine ⟨hx.course (.single hd), ?_⟩
  rcases hm.known with hcur | hshut
  · obtain ⟨cut₂, hm', hmono', hcut'⟩ := hm.flies hb hb.known.1 hmode hsink hx
      hcur hd hput'
    refine ⟨cut₂, hm', fun hup => hmono' (hmono hup), fun hup => ?_⟩
    rcases hcut' hup with hold | hlow
    · exact hcut hold
    · exact .inr ⟨d, hmem, hlow⟩
  · exact ⟨cut₁, hm.rests hx hshut hd hput', hmono, hcut⟩

/-- Along every course from its beginning a session is mirrored by the runs
    of its agents alone, and only a deed that lowers the flag cuts it
    short. -/
theorem Begins.course (hb : Begins c w n cast programs warnings)
    (hmode : c.config.mode ≠ .canvas)
    (hsink : ∀ k, w.shown.length < k → (c.observer.reaction k).fails = false)
    {ds : List Deed} (hcourse : Course c (w.after c .turn) ds v)
    (hput : ∀ name a, .put name a ∈ ds → name ∉ cast) :
    Reachable c v
      ∧ ∃ cut, Mirrored c w n cast programs warnings cut v
        ∧ (cut = true → ∃ d ∈ ds, Lowers c w d) := by
  obtain ⟨hreach, hopening⟩ := hb.opening
  obtain ⟨hv, cut, hm, -, hcut⟩ :=
    hopening.course hb hmode hsink hreach hcourse hput
  exact ⟨hv, cut, hm, fun hup => (hcut hup).resolve_left nofun⟩

/-- A call that is not doomed stays so as long as nobody kills it. -/
theorem Reachable.spared (h : Reachable c w)
    (hcall : ∃ call, w.calls[n]? = some call ∧ call.doomed = false)
    {ds : List Deed} (hcourse : Course c w ds v) (hkill : .kill n ∉ ds) :
    ∃ call, v.calls[n]? = some call ∧ call.doomed = false := by
  refine (hcourse.keeps (P := fun u => Reachable c u
    ∧ ∃ call, u.calls[n]? = some call ∧ call.doomed = false)
    ⟨h, hcall⟩ ?_).2
  rintro u d ⟨hu, call, hcall, hspared⟩ hd hmem
  obtain ⟨call', hcall', -, -, -, hdooms, -⟩ :=
    hu.orderly.grows (c := c) d n call hcall
  refine ⟨hu.course (.single hd), call', hcall', ?_⟩
  rw [Bool.eq_false_iff]
  intro hdoom
  rcases hdooms hdoom with hno | rfl
  · rw [hspared] at hno
    cases hno
  · exact hkill hmem

/-- So does a call from the turn on with which its session begins. -/
theorem Reachable.spared_turn (h : Reachable c w)
    (hturn : ∃ rest, w.round = .begin n :: rest)
    (hcall : ∃ call, w.calls[n]? = some call ∧ call.doomed = false)
    {ds : List Deed} (hcourse : Course c (w.after c .turn) ds v)
    (hkill : .kill n ∉ ds) :
    ∃ call, v.calls[n]? = some call ∧ call.doomed = false := by
  obtain ⟨rest, hround⟩ := hturn
  refine h.spared hcall ((Course.single (admits_turn hround)).trans hcourse)
    fun hmem => ?_
  rcases List.mem_append.1 hmem with hmem | hmem
  · cases List.mem_singleton.1 hmem
  · exact hkill hmem

/-- A call that nobody kills is not doomed. -/
theorem Begins.spared (hb : Begins c w n cast programs warnings)
    {ds : List Deed} (hcourse : Course c (w.after c .turn) ds v)
    (hkill : .kill n ∉ ds) :
    ∃ call, v.calls[n]? = some call ∧ call.doomed = false := by
  obtain ⟨call, hcall, -, hspared, -⟩ := hb.call
  exact hb.reachable.spared_turn hb.turn ⟨call, hcall, hspared⟩ hcourse hkill

end World

end BlockStage
