import BlockStage.Proofs.Session.Mirror

/-! # Briefs — a session runs what its call compiled to

    When a session opens it is told whose call it is, which program each of
    its agents runs and which warnings its result carries: its brief.  A
    step of the event loop goes on with the session, ends a call, or opens
    another session (`Carries`); it never alters a brief.  So programs and
    warnings are, at every moment and however the session ends, those to
    which the script of its call compiles (`Briefed`).

    Nothing here depends on the turns being in order, so it holds for any
    clock and any number of steps. -/

namespace BlockStage

/-- What a session is told when it opens. -/
structure Brief where
  /-- The number of the call that it belongs to. -/
  call : Nat
  /-- Its agents, in their order, each with its program. -/
  parts : List (String × Program)
  /-- The compile warnings that its result will carry. -/
  warnings : List (String × List WarningReport)

/-- What a session was told when it opened. -/
def Session.brief (s : Session) : Brief :=
  ⟨s.call, s.tasks.map fun t => (t.agentId, t.program), s.warnings⟩

/-- An agent's part changed, with its program kept. -/
theorem Session.brief_modify (s : Session) (i : Nat)
    {f : AgentTask → AgentTask}
    (hf : ∀ t, ((f t).agentId, (f t).program) = (t.agentId, t.program)) :
    { s with tasks := s.tasks.modify i f }.brief = s.brief := by
  have htasks : (s.tasks.modify i f).map (fun t => (t.agentId, t.program))
      = s.tasks.map fun t => (t.agentId, t.program) := by
    refine List.ext_getElem? fun j => ?_
    rw [List.getElem?_map, List.getElem?_modify, List.getElem?_map]
    cases s.tasks[j]? with
    | none => rfl
    | some t =>
        by_cases hij : i = j
        · simp [hij, hf t]
        · simp [hij]
  exact congrArg (Brief.mk s.call · s.warnings) htasks

namespace World

/-- A session and all calls go on as they were told. -/
structure Continues (w v : World) : Prop where
  calls : v.calls = w.calls
  brief : v.session.map Session.brief = w.session.map Session.brief

variable {w v x : World}

namespace Continues

theorem refl (w : World) : Continues w w := ⟨rfl, rfl⟩

/-- Calls and session left alone. -/
theorem same (h : Continues w x) (hcalls : v.calls = x.calls)
    (hses : v.session = x.session) : Continues w v :=
  ⟨hcalls.trans h.calls, by rw [hses, h.brief]⟩

/-- The session changed, but not what it was told. -/
theorem alter (h : Continues w x) (f : Session → Session)
    (hf : ∀ s, (f s).brief = s.brief) (hcalls : v.calls = x.calls)
    (hses : v.session = x.session.map f) : Continues w v := by
  refine ⟨hcalls.trans h.calls, ?_⟩
  rw [hses, ← h.brief]
  cases x.session with
  | none => rfl
  | some s => exact congrArg some (hf s)

/-- One agent's part changed, but not its program. -/
theorem alterTask (h : Continues w x) (i : Nat) (f : AgentTask → AgentTask)
    (hf : ∀ t, ((f t).agentId, (f t).program) = (t.agentId, t.program))
    (hcalls : v.calls = x.calls)
    (hses : v.session = (x.withTask i f).session) : Continues w v :=
  h.alter (fun s => { s with tasks := s.tasks.modify i f })
    (fun s => s.brief_modify i hf) hcalls hses

theorem endTask (h : Continues w x) (i : Nat) (e : AgentEnd) :
    Continues w (x.endTask i e) :=
  h.alterTask i (fun t => { t with showing := none, ending := some e })
    (fun _ => rfl) rfl rfl

theorem failTask (h : Continues w x) (i : Nat) (id : String)
    (f : RunFault) : Continues w (x.failTask i id f) :=
  (h.same rfl rfl : Continues w (x.report .error _)).endTask i (.failed f)

theorem shows (h : Continues w x) (i : Nat) (showing : Option Errand) :
    Continues w (x.withTask i fun t => { t with showing := showing }) :=
  h.alterTask i (fun t => { t with showing := showing }) (fun _ => rfl) rfl
    rfl

theorem turnTask {c : Coordinator} (h : Continues w x) (i : Nat)
    (t : AgentTask) : Continues w (x.turnTask c i t) := by
  cases turnTask_cases c x i t with
  | ended _ heq =>
      rw [heq]
      exact h
  | dies _ _ heq =>
      rw [heq]
      exact h.endTask i _
  | goesOn _ _ _ heq =>
      rw [heq]
      exact h.same rfl rfl
  | setsOut _ _ _ _ heq =>
      rw [heq]
      exact h.alterTask i
        (fun t => { t with walker := some (.start t.program) })
        (fun _ => rfl) rfl rfl

theorem notice (h : Continues w x) (s : Session) :
    Continues w (x.notice s) := by
  rw [notice_spec]
  exact h.alter (fun s => { s with joined := s.joined + 1 }) (fun _ => rfl)
    rfl rfl

variable [Arithmetic] {c : Coordinator}

theorem sleep (h : Continues w x) (seconds : Scalar) (j : Job) :
    Continues w (x.sleep seconds j) := by
  obtain ⟨timers, ready, heq⟩ := sleep_spec x seconds j
  rw [heq]
  exact h.same rfl rfl

theorem observe (h : Continues w x) (i : Nat) (id : String) (a : Agent) :
    Continues w (x.observe c i id a) := by
  have hexhibit : ∀ snapshot, Continues w (x.exhibit c snapshot) := by
    intro snapshot
    obtain ⟨lines, heq⟩ := exhibit_spec c x snapshot
    rw [heq]
    refine h.alter _ ?_ rfl rfl
    exact fun _ => rfl
  cases observe_cases c x i id a with
  | unseen _ heq =>
      rw [heq]
      exact h
  | unshown _ _ heq =>
      rw [heq]
      exact h.failTask i id _
  | exhibited _ _ heq =>
      rw [heq]
      exact (hexhibit _).shows i _

theorem suspend (h : Continues w x) (i : Nat) (t : AgentTask)
    (seconds : Scalar) : Continues w (x.suspend i t seconds) := by
  obtain ⟨timers, ready, heq⟩ := suspend_spec x i t seconds
  rw [heq]
  exact h.same rfl rfl

theorem attend (h : Continues w x) (i : Nat) (t : AgentTask) (e : Errand) :
    Continues w (x.attend i t e) := by
  cases attend_cases x i t e with
  | rests _ heq =>
      rw [heq]
      exact (h.shows i _).suspend i t _
  | done _ _ heq =>
      rw [heq]
      exact h.shows i _
  | fails _ _ heq =>
      rw [heq]
      exact (h.shows i _).failTask i _ _

theorem answer (h : Continues w x) (i : Nat) (t : AgentTask) (a : Agent)
    (signal : Signal) : Continues w (x.answer c i t a signal) := by
  cases signal with
  | proceed => exact h
  | emit => exact h.observe i t.agentId a
  | sleep seconds => exact h.suspend i t seconds
  | finish => exact h.endTask i _
  | halt => exact h.endTask i _
  | fail f => exact h.failTask i t.agentId f

theorem actTask (h : Continues w x) (i : Nat) (t : AgentTask) (a : Agent) :
    Continues w (x.actTask c i t a) := by
  unfold World.actTask
  split
  · exact h.same rfl rfl
  · rename_i walker _
    refine answer ?_ i t _ _
    exact h.alterTask i (fun t => { t with walker := some _ })
      (fun _ => rfl) rfl rfl

end Continues

/-! ## What a step does to calls and sessions -/

variable {c : Coordinator}

/-- What a call may end in: the result of the session in flight, with the
    warnings that this session was told; the fault that keeps its script
    from being compiled; or neither of them. -/
inductive Due (c : Coordinator) (w : World) : Nat → CallEnd → Prop
  | result {s : Session} {r : SessionResult} : w.session = some s →
      r.warnings = s.warnings → Due c w s.call (.returned r)
  | fault {n : Nat} {call : Call} {f : BlockFault} :
      w.calls[n]? = some call →
      scriptPrograms c.config call.script = .error f →
      Due c w n (.uncompiled f)
  | other {n : Nat} {e : CallEnd} : (∀ r, e ≠ .returned r) →
      (∀ f, e ≠ .uncompiled f) → Due c w n e

/-- Neither a result nor a fault is owed to a call that is turned away or
    killed. -/
theorem Due.turned_away (c : Coordinator) (w : World) (n : Nat) :
    Due c w n .rejected ∧ Due c w n .killed :=
  ⟨.other nofun nofun, .other nofun nofun⟩

/-- Everything that a step can do to calls and sessions: it goes on with
    them, it ends a call, or it opens the session of a call, or one after
    the other. -/
inductive Carries (c : Coordinator) : World → World → Prop
  | goesOn {w v : World} : Continues w v → Carries c w v
  | ends {w v : World} {n : Nat} {e : CallEnd} : Due c w n e →
      v.calls = (w.endCall n e).calls →
      v.session.map Session.brief = w.session.map Session.brief →
      Carries c w v
  | opens {w v : World} {n : Nat} {call : Call}
      {programs : List (String × Program)}
      {warnings : List (String × List WarningReport)} :
      w.calls[n]? = some call →
      scriptPrograms c.config call.script = .ok (programs, warnings) →
      v.calls = w.calls →
      v.session.map Session.brief = some
        ⟨n, call.cast.map fun id => (id, given programs id), warnings⟩ →
      Carries c w v
  | trans {w u v : World} : Carries c w u → Carries c u v → Carries c w v

/-- What goes on and then leaves ends its call. -/
theorem Carries.leave {n : Nat} {e : CallEnd} (h : Continues w x)
    (hdue : Due c w n e) : Carries c w (x.leave n e) :=
  .ends hdue (congrArg (List.modify · n _) h.calls) h.brief

/-- What goes on and then finishes returns a result with the warnings of
    the session. -/
theorem Carries.finishCall {s : Session} (r : SessionResult)
    (hses : w.session = some s) (h : Continues w x) :
    Carries c w (x.finishCall s r) :=
  .leave (h.alter (fun s => { s with result := some _ }) (fun _ => rfl) rfl
    rfl) (.result hses rfl)

variable [Arithmetic]

theorem carries_beginCall {n : Nat} {call : Call}
    (hcall : w.calls[n]? = some call) (h : Continues w x) :
    Carries c w (x.beginCall c n call) := by
  have hends : ∀ e, Due c w n e → Carries c w (x.endCall n e) :=
    fun e he => .ends he (congrArg (List.modify · n _) h.calls) h.brief
  cases beginCall_cases c x n call with
  | ends hrefused heq =>
      rw [heq]
      cases hrefused with
      | killed => exact hends _ (Due.turned_away c w n).2
      | uncompiled _ hfault => exact hends _ (.fault hcall hfault)
      | rejected => exact hends _ (Due.turned_away c w n).1
  | opens _ hscript _ _ heq =>
      refine .opens hcall hscript (by rw [heq]; exact h.calls) ?_
      rw [heq]
      simp [Session.brief, freshTasks, given, opened]
  | @passes programs warnings lines _ hscript _ hnobody heq =>
      -- the session is opened, and at once the call returns its result
      rw [heq]
      refine .trans (.opens hcall hscript (v := { x with
        session := some (x.passed n programs warnings)
        reported := lines }) h.calls ?_) (.leave (.refl _) ?_)
      · rw [hnobody]
        rfl
      · exact .result (s := x.passed n programs warnings) rfl rfl

/-- A call goes on with the handler, or returns when that is done. -/
theorem carries_handle {s : Session} (r : SessionResult) (e : Errand)
    (hses : w.session = some s) (h : Continues w x) :
    Carries c w (x.handle s r e) := by
  rcases handle_spec x s r e with ⟨-, lines, heq⟩ | ⟨seconds, rests, -, heq⟩
  · rw [heq]
    exact .finishCall r hses (h.same rfl rfl)
  · rw [heq]
    refine .goesOn (.sleep ?_ _ _)
    exact h.alter
      (fun s => { s with handling := some { e with rests := rests } })
      (fun _ => rfl) rfl rfl

theorem carries_handled {s : Session} (hses : w.session = some s)
    (h : Continues w x) : Carries c w (x.handled s) := by
  unfold World.handled
  split
  · exact .leave h (.other nofun nofun)
  · split
    · exact carries_handle _ _ hses h
    · exact .goesOn h

theorem carries_announce {s : Session} (r : SessionResult)
    (hses : w.session = some s) (h : Continues w x) :
    Carries c w (x.announce c s r) := by
  have hfired : Continues w
      (x.withSession fun s => { s with completionFired := true }) :=
    h.alter (fun s => { s with completionFired := true }) (fun _ => rfl) rfl
      rfl
  unfold announce
  simp only
  split
  · exact .leave hfired (.other nofun nofun)
  · split
    · exact .finishCall r hses (hfired.same rfl rfl)
    · exact carries_handle r _ hses (hfired.same rfl rfl)

theorem carries_join {s : Session} (hses : w.session = some s)
    (h : Continues w x) : Carries c w (x.join c s) := by
  have hlowered : Continues w
      (x.withSession fun s => { s with running := false }) :=
    h.alter (fun s => { s with running := false }) (fun _ => rfl) rfl rfl
  unfold World.join
  split
  · exact .leave (hlowered.same rfl rfl) (.other nofun nofun)
  · unfold afterJoin
    simp only
    split
    · exact .leave (hlowered.same rfl rfl) (.other nofun nofun)
    · split
      · exact carries_announce _ hses (hlowered.alter
          (fun s => { s with result := some _ }) (fun _ => rfl) rfl rfl)
      · exact .finishCall _ hses (hlowered.alter
          (fun s => { s with result := some _ }) (fun _ => rfl) rfl rfl)

/-- Every step does one of the three. -/
theorem carries_step (w : World) : Carries c w (w.step c) := by
  have hself := Continues.refl w
  unfold World.step
  split
  · split
    · exact .goesOn (hself.same rfl rfl)
    · split
      · exact .goesOn (hself.attend _ _ _)
      · exact .goesOn (hself.same rfl rfl)
      · exact .goesOn (hself.actTask _ _ _)
  · split
    · rename_i j rest _
      have htaken : Continues w { w with round := rest } := hself.same rfl rfl
      cases runJob_taken c { w with round := rest } j with
      | idles _ heq =>
          rw [heq]
          exact .goesOn htaken
      | begins hcall heq =>
          rw [heq]
          exact carries_beginCall hcall htaken
      | agent _ heq =>
          rw [heq]
          exact .goesOn (htaken.turnTask _ _)
      | notices _ heq =>
          rw [heq]
          exact .goesOn (htaken.notice _)
      | joins hses heq =>
          rw [heq]
          exact carries_join hses htaken
      | handled hses heq =>
          rw [heq]
          exact carries_handled hses htaken
      | asks heq =>
          rw [heq]
          exact .goesOn (htaken.same rfl rfl)
      | releases heq =>
          rw [heq]
          exact .goesOn (htaken.same rfl rfl)
      | wakes heq =>
          rw [heq]
          exact .goesOn (htaken.same rfl rfl)
    · exact .goesOn (hself.same rfl rfl)

/-! ## The invariant -/

/-- A brief is what the script of its call compiles to. -/
def IsTold (c : Coordinator) (w : World) (b : Brief) : Prop :=
  ∃ call programs, w.calls[b.call]? = some call
    ∧ scriptPrograms c.config call.script = .ok (programs, b.warnings)
    ∧ b.parts = call.cast.map fun id => (id, given programs id)

/-- What the end of a call says of its script: a result carries the warnings
    to which the script compiles, and a fault of compilation is its own. -/
def Tells (c : Coordinator) (script : Script) : CallEnd → Prop
  | .returned r => ∃ programs,
      scriptPrograms c.config script = .ok (programs, r.warnings)
  | .uncompiled f => scriptPrograms c.config script = .error f
  | _ => True

/-- Sessions run, and calls report, that to which their scripts compile. -/
structure Briefed (c : Coordinator) (w : World) : Prop where
  session : ∀ s, w.session = some s → IsTold c w s.brief
  calls : ∀ (n : Nat) (call : Call), w.calls[n]? = some call →
    ∀ e, call.ending = some e → Tells c call.script e

omit [Arithmetic] in
/-- A brief stays what it was while no script changes. -/
theorem IsTold.endCall {b : Brief} {n : Nat} {e : CallEnd}
    (h : IsTold c w b) : IsTold c (w.endCall n e) b := by
  obtain ⟨call, programs, hcall, hscript, hparts⟩ := h
  refine ⟨if n = b.call then { call with ending := some e } else call,
    programs, ?_, ?_, ?_⟩
  · show (w.calls.modify n _)[b.call]? = _
    rw [List.getElem?_modify, hcall]
    by_cases hn : n = b.call <;> simp [hn]
  · split <;> exact hscript
  · split <;> exact hparts

omit [Arithmetic] in
/-- What is due tells of the script. -/
theorem Briefed.tells (h : Briefed c w) {n : Nat} {e : CallEnd}
    (hdue : Due c w n e) {call : Call} (hcall : w.calls[n]? = some call) :
    Tells c call.script e := by
  cases hdue with
  | @result s r hses hr =>
      obtain ⟨call', programs, hcall', hscript, -⟩ := h.session s hses
      have hsame : call' = call := Option.some.inj (hcall'.symm.trans hcall)
      exact ⟨programs, hsame ▸ hr ▸ hscript⟩
  | fault hcall' hscript =>
      have hsame := Option.some.inj (hcall'.symm.trans hcall)
      exact hsame ▸ hscript
  | other hresult hfault =>
      cases e with
      | returned r => exact absurd rfl (hresult r)
      | uncompiled f => exact absurd rfl (hfault f)
      | _ => trivial

omit [Arithmetic] in
/-- A session with the same brief was told the same. -/
theorem Briefed.told (h : Briefed c w) {s : Session}
    (hbrief : v.session.map Session.brief = w.session.map Session.brief)
    (hs : v.session = some s) : IsTold c w s.brief := by
  rw [hs, Option.map_some] at hbrief
  obtain ⟨s', hs', hsame⟩ := Option.map_eq_some_iff.1 hbrief.symm
  exact hsame ▸ h.session s' hs'

omit [Arithmetic] in
/-- Whatever is done to calls and sessions keeps them briefed. -/
theorem Briefed.carries (h : Briefed c w) (hstep : Carries c w v) :
    Briefed c v := by
  induction hstep with
  | goesOn hgoes =>
      refine ⟨fun s hs => ?_, hgoes.calls ▸ h.calls⟩
      obtain ⟨call, programs, hcall, hrest⟩ := h.told hgoes.brief hs
      exact ⟨call, programs, by rw [hgoes.calls, hcall], hrest⟩
  | @ends w v n e hdue hcalls hsame =>
      refine ⟨fun s hs => ?_, fun k call hk e' he' => ?_⟩
      · obtain ⟨call, programs, hcall, hrest⟩ :=
          (h.told hsame hs).endCall (n := n) (e := e)
        exact ⟨call, programs, by rw [hcalls, hcall], hrest⟩
      · rw [hcalls] at hk
        have hk : (w.calls.modify n _)[k]? = some call := hk
        rw [List.getElem?_modify] at hk
        obtain ⟨call₀, hcall₀, rfl⟩ := Option.map_eq_some_iff.1 hk
        by_cases hn : n = k
        · subst hn
          simp only [if_true, Option.some.injEq] at he' ⊢
          exact he' ▸ h.tells hdue hcall₀
        · simp only [hn, if_false] at he' ⊢
          exact h.calls k call₀ hcall₀ e' he'
  | @opens w v n call programs warnings hcall hscript hcalls hopened =>
      refine ⟨fun s hs => ?_, hcalls ▸ h.calls⟩
      rw [hs, Option.map_some, Option.some.injEq] at hopened
      rw [hopened]
      exact ⟨call, programs, by rw [hcalls]; exact hcall, hscript, rfl⟩
  | trans _ _ ih₁ ih₂ => exact ih₂ (ih₁ h)

/-- A run of the event loop keeps calls and sessions briefed. -/
theorem Briefed.runUntil (horizon : Time) (fuel : Nat)
    (h : Briefed c w) : Briefed c (w.runUntil c horizon fuel) := by
  induction fuel generalizing w with
  | zero => exact h
  | succ fuel ih =>
      unfold World.runUntil
      split
      · exact h
      · exact ih (h.carries (carries_step w))

/-- The scripts of all calls, each with its cast. -/
def scripts (w : World) : List (Script × List String) :=
  w.calls.map fun call => (call.script, call.cast)

omit [Arithmetic] in
/-- Scripts stay what they are, and a session once opened stays there,
    until another one opens. -/
theorem Carries.lasts (h : Carries c w v) :
    v.scripts = w.scripts
      ∧ (w.session.isSome = true → v.session.isSome = true) := by
  have hthere : ∀ {w v : World},
      v.session.map Session.brief = w.session.map Session.brief →
      w.session.isSome = true → v.session.isSome = true := by
    intro w v heq hs
    have := congrArg Option.isSome heq
    simpa [hs] using this
  induction h with
  | goesOn h => exact ⟨by rw [scripts, h.calls, scripts], hthere h.brief⟩
  | @ends w v n e _ hcalls hbrief =>
      refine ⟨?_, hthere hbrief⟩
      unfold scripts
      rw [hcalls]
      refine List.ext_getElem? fun k => ?_
      show ((w.calls.modify n _).map _)[k]? = _
      rw [List.getElem?_map, List.getElem?_modify, List.getElem?_map]
      cases w.calls[k]? with
      | none => rfl
      | some call => by_cases hn : n = k <;> simp [hn]
  | opens _ _ hcalls hopened =>
      refine ⟨by rw [scripts, hcalls, scripts], fun _ => ?_⟩
      have := congrArg Option.isSome hopened
      simpa using this
  | trans _ _ ih₁ ih₂ =>
      exact ⟨ih₂.1.trans ih₁.1, fun hs => ih₂.2 (ih₁.2 hs)⟩

/-- So they do in a run of the event loop. -/
theorem lasts_runUntil (horizon : Time) (fuel : Nat) (w : World) :
    (w.runUntil c horizon fuel).scripts = w.scripts
      ∧ (w.session.isSome = true →
        (w.runUntil c horizon fuel).session.isSome = true) := by
  induction fuel generalizing w with
  | zero => exact ⟨rfl, fun h => h⟩
  | succ fuel ih =>
      unfold World.runUntil
      split
      · exact ⟨rfl, fun h => h⟩
      · obtain ⟨hscripts, hses⟩ := (carries_step (c := c) w).lasts
        obtain ⟨hscripts', hses'⟩ := ih (w.step c)
        exact ⟨hscripts'.trans hscripts, fun h => hses' (hses h)⟩

end World

end BlockStage
