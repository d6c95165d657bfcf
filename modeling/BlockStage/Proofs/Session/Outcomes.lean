import BlockStage.Proofs.Session.Turns

/-! # Outcomes — what each part of the event loop can do

    For each part of the loop one lemma says all that can come of it and
    when: of a call that begins (`beginCall_cases`), of a snapshot that is
    due (`observe_cases`) and of the observer that is shown it
    (`attend_cases`), of the turn of an agent (`turnTask_cases`), of a call
    that is woken (`join_parts`, `handled_parts`), of a score (`score_cons`)
    and of a turn as such (`runJob_taken`).  What turns keep is read off
    these lemmas, and not off the loop. -/

namespace BlockStage

namespace World

variable {w : World}

/-! ## Agents under their names -/

/-- Agents changed under the names they have keep these names. -/
theorem names_keep {f : String × Agent → String × Agent}
    (hf : ∀ b, (f b).1 = b.1) (agents : List (String × Agent)) :
    (agents.map f).map (·.1) = agents.map (·.1) := by
  rw [List.map_map]
  exact List.map_congr_left fun b _ => hf b

/-- Agents changed under the names they have. -/
theorem lookup_keep {f : String × Agent → String × Agent}
    (hf : ∀ b, (f b).1 = b.1) (agents : List (String × Agent))
    (name : String) :
    (agents.map f).lookup name
      = (agents.lookup name).map fun a => (f (name, a)).2 := by
  induction agents with
  | nil => rfl
  | cons b rest ih =>
      obtain ⟨key, a⟩ := b
      have hkey : f (key, a) = (key, (f (key, a)).2) :=
        Prod.ext (hf _) rfl
      rw [List.map_cons, hkey, List.lookup_cons, List.lookup_cons]
      by_cases hname : name = key
      · subst hname
        simp
      · have hne : (name == key) = false := by simpa using hname
        rw [hne]
        exact ih

/-! ## The score -/

/-- The agents once one of them has got its flag. -/
def raiseFlag (id : String) (agents : List (String × Agent)) :
    List (String × Agent) :=
  agents.map fun b =>
    if b.1 = id then (id, { b.2 with goalReached := .bool true }) else b

theorem lookup_raiseFlag (id : String) (agents : List (String × Agent))
    (name : String) :
    (raiseFlag id agents).lookup name = (agents.lookup name).map fun a =>
      if name = id then { a with goalReached := .bool true } else a := by
  rw [raiseFlag, lookup_keep (fun b => by split <;> simp_all)]
  congr 1
  funext a
  split <;> rfl

theorem raiseFlag_names (id : String) (agents : List (String × Agent)) :
    (raiseFlag id agents).map (·.1) = agents.map (·.1) :=
  names_keep (fun b => by split <;> simp_all) agents

/-- What scoring makes of the first name: it passes over it, it stops there
    with an error, or it counts it and goes on with its flag up. -/
inductive Scoring (goal : Option GoalRegion)
    (failed : List (String × String)) (agents : List (String × Agent))
    (id : String) (ids : List String) : Prop
  | passes
      (same : score goal failed agents (id :: ids)
        = score goal failed agents ids)
      (why : (failed.lookup id).isSome = true ∨ ∀ g a, goal = some g →
        agents.lookup id = some a → g.contains a.position = .ok false)
  | raises {g : GoalRegion} {a : Agent} {f : OperandFault}
      (region : goal = some g) (there : agents.lookup id = some a)
      (spared : failed.lookup id = none)
      (fails : g.contains a.position = .error f)
      (stops : score goal failed agents (id :: ids)
        = (agents, .error (.operand f)))
  | counts {g : GoalRegion} {a : Agent} (region : goal = some g)
      (there : agents.lookup id = some a)
      (spared : failed.lookup id = none)
      (inside : g.contains a.position = .ok true)
      (flags : score goal failed agents (id :: ids)
        = ((score goal failed (raiseFlag id agents) ids).1,
          (score goal failed (raiseFlag id agents) ids).2.map (id :: ·)))

/-- Scoring does nothing else. -/
theorem score_cons (goal : Option GoalRegion)
    (failed : List (String × String)) (agents : List (String × Agent))
    (id : String) (ids : List String) :
    Scoring goal failed agents id ids := by
  cases hgoal : goal with
  | none => exact .passes rfl (.inr nofun)
  | some g =>
  cases ha : agents.lookup id with
  | none =>
      refine .passes (by simp only [score, ha]) (.inr fun _ _ _ hno => ?_)
      rw [ha] at hno
      cases hno
  | some a =>
  cases hfailed : failed.lookup id with
  | some text =>
      exact .passes (by simp [score, ha, hfailed]) (.inl (by simp [hfailed]))
  | none =>
  cases hin : g.contains a.position with
  | error f =>
      exact .raises rfl ha hfailed hin (by simp [score, ha, hfailed, hin])
  | ok inside =>
  cases inside with
  | true =>
      exact .counts rfl ha hfailed hin
        (by simp [score, ha, hfailed, hin, raiseFlag])
  | false =>
      refine .passes (by simp [score, ha, hfailed, hin]) (.inr ?_)
      rintro _ b ⟨⟩ hb
      obtain rfl := Option.mem_unique ha hb
      exact hin

/-- Scoring sets flags and changes no name. -/
theorem score_names (goal : Option GoalRegion)
    (failed : List (String × String)) (ids : List String)
    (agents : List (String × Agent)) :
    (score goal failed agents ids).1.map (·.1) = agents.map (·.1) := by
  induction ids generalizing agents with
  | nil => rfl
  | cons id ids ih =>
      cases score_cons goal failed agents id ids with
      | passes hsame =>
          rw [hsame]
          exact ih agents
      | raises _ _ _ _ hstops => rw [hstops]
      | counts _ _ _ _ hflags =>
          rw [hflags]
          exact (ih _).trans (raiseFlag_names id agents)

/-! ## Snapshots -/

/-- A cancellation lowers the flag, which may have been down. -/
theorem cancel_spec (w : World) :
    ∃ lines, w.cancel
      = { w with
          session := w.session.map fun s => { s with running := false }
          reported := lines } := by
  unfold World.cancel
  split
  · exact ⟨_, rfl⟩
  · rename_i hdown
    refine ⟨w.reported, ?_⟩
    have hsame : (w.session.map fun s => { s with running := false })
        = w.session := by
      cases hses : w.session with
      | none => rfl
      | some s =>
          simp only [isRunning, hses, Option.map_some, Option.getD_some,
            Bool.not_eq_true] at hdown
          rw [Option.map_some, ← hdown]
    rw [hsame]

/-- A world in which a snapshot has been shown and the observer has lowered
    the flag, if it does. -/
def exhibit (c : Coordinator) (w : World) (snapshot : Snapshot) : World :=
  if (c.observer.reaction (w.shown.length + 1)).stops then
    { w with shown := ⟨w.now, snapshot⟩ :: w.shown }.cancel
  else { w with shown := ⟨w.now, snapshot⟩ :: w.shown }

/-- A snapshot shown changes only what is shown, the flag and the log. -/
theorem exhibit_spec (c : Coordinator) (w : World) (snapshot : Snapshot) :
    ∃ lines, w.exhibit c snapshot
      = { w with
          shown := ⟨w.now, snapshot⟩ :: w.shown
          session := w.session.map fun s =>
            { s with
              running := s.running
                && !(c.observer.reaction (w.shown.length + 1)).stops }
          reported := lines } := by
  unfold exhibit
  split
  · rename_i hstops
    obtain ⟨lines, heq⟩ :=
      cancel_spec { w with shown := ⟨w.now, snapshot⟩ :: w.shown }
    exact ⟨lines, by simp [heq, hstops]⟩
  · rename_i hstops
    exact ⟨w.reported, by simp [hstops]⟩

/-! ## Calls that begin -/

/-- Lines about strangers change nothing else. -/
theorem strangers_spec (ps : List (String × Program)) (w : World) :
    ∃ lines, ps.foldl (fun w p => w.report .warning
      ("program for unknown agent " ++ p.1 ++ " ignored")) w
        = { w with reported := lines } := by
  induction ps generalizing w with
  | nil => exact ⟨w.reported, rfl⟩
  | cons p ps ih => exact ih _

/-- The agents of a cast before their first turns. -/
def freshTasks (cast : List String) (programs : List (String × Program)) :
    List AgentTask :=
  cast.map fun id =>
    { agentId := id, program := (programs.lookup id).getD [],
      walker := none, showing := none, doomed := false, ending := none }

theorem freshTasks_ids (cast : List String)
    (programs : List (String × Program)) :
    (freshTasks cast programs).map (·.agentId) = cast := by
  rw [freshTasks, List.map_map]
  exact List.map_id _

/-- The session of a call that begins. -/
def opened (w : World) (n : Nat) (cast : List String)
    (programs : List (String × Program))
    (warnings : List (String × List WarningReport)) : Session :=
  { call := n, tasks := freshTasks cast programs, joined := 0,
    running := true, startedAt := w.now, warnings := warnings,
    result := none, completionFired := false, handling := none }

/-- A session without agents is scored: nobody has reached the goal, and the
    call returns. -/
theorem afterJoin_nobody [Arithmetic] (c : Coordinator) (w : World)
    {s : Session} (hses : w.session = some s) (htasks : s.tasks = [])
    (hup : s.running = true) {r : SessionResult}
    (hr : r = { resultOf s [] [] false (w.now.sub s.startedAt) with
      warnings := s.warnings }) :
    ∃ lines, w.afterJoin c s
      = { w with
          session := some { s with running := false, result := some r }
          reported := lines }.leave s.call (.returned r) := by
  have hscore : score c.goal (s.tasks.filterMap failure?)
      (w.withSession fun s => { s with running := false }).agents
      (s.tasks.map (·.agentId)) = (w.agents, .ok []) := by
    rw [htasks]
    rfl
  have hmissed : ∀ failed cancelled elapsed,
      (resultOf s [] failed cancelled elapsed).allReached = false := by
    simp [resultOf, htasks]
  unfold World.afterJoin
  dsimp only
  rw [hscore]
  dsimp only
  split
  · rename_i hall
    rw [hmissed] at hall
    cases hall
  · rw [hup]
    unfold World.finishCall
    simp only [withSession, report, hses, htasks, Option.map_some]
    exact ⟨_, by rw [hr]; rfl⟩

/-- The result of a session without agents. -/
def emptyResult [Arithmetic] (w : World) (n : Nat)
    (programs : List (String × Program))
    (warnings : List (String × List WarningReport)) : SessionResult :=
  { resultOf (w.opened n [] programs warnings) [] [] false
      (w.now.sub w.now) with warnings := warnings }

/-- A session without agents, once it is over. -/
def passed [Arithmetic] (w : World) (n : Nat)
    (programs : List (String × Program))
    (warnings : List (String × List WarningReport)) : Session :=
  { w.opened n [] programs warnings with
    running := false, result := some (w.emptyResult n programs warnings) }

/-- What a launch does: the agents get their turns, and a session without
    agents is scored at once. -/
theorem launch_spec [Arithmetic] (c : Coordinator) (w : World) (n : Nat)
    (cast : List String) (programs : List (String × Program))
    (warnings : List (String × List WarningReport)) :
    (cast ≠ [] ∧ ∃ lines, w.launch c n cast programs warnings
      = { w with
          idle := false
          agents := w.agents.map fun (a : String × Agent) =>
            if cast.contains a.1 then (a.1, a.2.reset) else a
          session := some (w.opened n cast programs warnings)
          reported := lines
          ready := w.ready ++ (List.range cast.length).map .agent })
    ∨ (cast = [] ∧ ∃ lines, w.launch c n cast programs warnings
      = { w with
          session := some (w.passed n programs warnings)
          reported := lines }.leave n
            (.returned (w.emptyResult n programs warnings))) := by
  obtain ⟨lines, hlines⟩ := strangers_spec
    (programs.filter fun p => ¬ cast.contains p.1) w
  unfold launch
  simp only [hlines]
  cases cast with
  | cons id ids => exact .inl ⟨nofun, _, rfl⟩
  | nil =>
      have hsame : (w.agents.map fun (a : String × Agent) =>
          if ([] : List String).contains a.1 then (a.1, a.2.reset) else a)
          = w.agents := by simp
      refine .inr ⟨rfl, ?_⟩
      dsimp only
      rw [hsame]
      exact afterJoin_nobody c _ (s := w.opened n [] programs warnings) rfl
        rfl rfl rfl

/-- Why a call ends in the turn in which it was to begin: its host has
    killed it, its forests cannot be compiled, or a session is in flight. -/
inductive Refused (c : Coordinator) (w : World) (call : Call) :
    CallEnd → Prop
  | killed (doomed : call.doomed = true) : Refused c w call .killed
  | uncompiled {f : BlockFault} (spared : call.doomed = false)
      (fault : scriptPrograms c.config call.script = .error f) :
      Refused c w call (.uncompiled f)
  | rejected (spared : call.doomed = false) (busy : w.idle = false) :
      Refused c w call .rejected

/-- What comes of a call that begins: it is refused and ends, or a session
    is launched for it, or its session has no agents and is over at once. -/
inductive CallBegun [Arithmetic] (c : Coordinator) (w : World) (n : Nat)
    (call : Call) (v : World) : Prop
  | ends {e : CallEnd} (refused : Refused c w call e)
      (heq : v = w.endCall n e)
  | opens {programs : List (String × Program)}
      {warnings : List (String × List WarningReport)}
      {lines : List LogLine} (spared : call.doomed = false)
      (compiles : scriptPrograms c.config call.script
        = .ok (programs, warnings))
      (idle : w.idle = true) (somebody : call.cast ≠ [])
      (heq : v = { w with
        idle := false
        agents := w.agents.map fun (a : String × Agent) =>
          if call.cast.contains a.1 then (a.1, a.2.reset) else a
        session := some (w.opened n call.cast programs warnings)
        reported := lines
        ready := w.ready ++ (List.range call.cast.length).map .agent })
  | passes {programs : List (String × Program)}
      {warnings : List (String × List WarningReport)}
      {lines : List LogLine} (spared : call.doomed = false)
      (compiles : scriptPrograms c.config call.script
        = .ok (programs, warnings))
      (idle : w.idle = true) (nobody : call.cast = [])
      (heq : v = { w with
        session := some (w.passed n programs warnings)
        reported := lines }.leave n
          (.returned (w.emptyResult n programs warnings)))

/-- There is nothing else that a call that begins can do. -/
theorem beginCall_cases [Arithmetic] (c : Coordinator) (w : World) (n : Nat)
    (call : Call) : CallBegun c w n call (w.beginCall c n call) := by
  unfold World.beginCall
  split
  · exact .ends (.killed ‹_›) rfl
  · have hspared : call.doomed = false := by simpa using ‹¬ call.doomed›
    split
    · exact .ends (.uncompiled hspared ‹_›) rfl
    · rename_i programs warnings hcompiles
      split
      · rename_i hidle
        rcases launch_spec c w n call.cast programs warnings with
          ⟨hcast, lines, heq⟩ | ⟨hcast, lines, heq⟩
        · exact .opens hspared hcompiles hidle hcast heq
        · exact .passes hspared hcompiles hidle hcast heq
      · exact .ends (.rejected hspared (by simpa using ‹¬ w.idle›)) rfl

/-! ## Turns of agents -/

/-- What comes of the turn of an agent: nothing if its part is over, and
    else its part ends before it has set out, or it acts, after it has set
    out if it has not yet. -/
inductive TurnTaken (c : Coordinator) (w : World) (i : Nat) (t : AgentTask)
    (v : World) : Prop
  | ended (ended : t.ending.isSome = true) (heq : v = w)
  | dies {e : AgentEnd} (goes : t.ending = none)
      (why : (t.doomed = true ∧ e = .killed)
        ∨ (t.doomed = false ∧ t.walker = none ∧ ∃ f,
          checkCeiling c.config.loopCeiling = .error f ∧ e = .failed f))
      (heq : v = w.endTask i e)
  | goesOn {walker : Walker} (goes : t.ending = none)
      (spared : t.doomed = false) (walks : t.walker = some walker)
      (heq : v = { w with active := some i })
  | setsOut {ceiling : Value} (goes : t.ending = none)
      (spared : t.doomed = false) (waits : t.walker = none)
      (accepted : checkCeiling c.config.loopCeiling = .ok ceiling)
      (heq : v = { w.withTask i fun t =>
        { t with walker := some (.start t.program) } with active := some i })

/-- There is nothing else that can come of it. -/
theorem turnTask_cases (c : Coordinator) (w : World) (i : Nat)
    (t : AgentTask) : TurnTaken c w i t (w.turnTask c i t) := by
  unfold World.turnTask
  split
  · exact .ended ‹_› rfl
  · have hgoes : t.ending = none := by simpa using ‹¬ t.ending.isSome›
    split
    · exact .dies hgoes (.inl ⟨‹_›, rfl⟩) rfl
    · have hspared : t.doomed = false := by simpa using ‹¬ t.doomed›
      split
      · exact .goesOn hgoes hspared ‹_› rfl
      · split
        · exact .dies hgoes (.inr ⟨hspared, ‹_›, _, ‹_›, rfl⟩) rfl
        · exact .setsOut hgoes hspared ‹_› ‹_› rfl

/-- One more end noticed; the last one wakes the call. -/
theorem notice_spec (w : World) (s : Session) :
    w.notice s = { w with
      session := w.session.map fun s => { s with joined := s.joined + 1 }
      ready := w.ready
        ++ if s.tasks.length ≤ s.joined + 1 then [.join] else [] } := by
  unfold World.notice
  simp only
  split
  · rfl
  · rw [List.append_nil]
    rfl

variable [Arithmetic] {c : Coordinator}

/-! ## Signals of agents -/

/-- A snapshot is shown, and the observer starts on it. -/
theorem observe_eq {a : Agent} {i : Nat} {id : String}
    (hmode : c.observer.mode ≠ .absent) :
    w.observe c i id a = match Snapshot.ofAgent a with
      | .error ms => w.failTask i id (.badSnapshot ms)
      | .ok snapshot => (w.exhibit c snapshot).withTask i fun t => { t with
          showing :=
            some (c.observer.reaction (w.shown.length + 1)).toErrand } := by
  unfold World.observe
  split
  · exact absurd ‹_› hmode
  · cases Snapshot.ofAgent a <;> rfl

/-- What comes of a snapshot that is due: nothing if nobody looks, a fault
    if the agent cannot be shown, and else it is exhibited, and the observer
    starts on it. -/
inductive Observed (c : Coordinator) (w : World) (i : Nat) (id : String)
    (a : Agent) (v : World) : Prop
  | unseen (absent : c.observer.mode = .absent) (heq : v = w)
  | unshown {ms : List Misfit} (present : c.observer.mode ≠ .absent)
      (fault : Snapshot.ofAgent a = .error ms)
      (heq : v = w.failTask i id (.badSnapshot ms))
  | exhibited {snapshot : Snapshot} (present : c.observer.mode ≠ .absent)
      (shown : Snapshot.ofAgent a = .ok snapshot)
      (heq : v = (w.exhibit c snapshot).withTask i fun t => { t with
        showing :=
          some (c.observer.reaction (w.shown.length + 1)).toErrand })

/-- There is nothing else that can come of it. -/
theorem observe_cases (c : Coordinator) (w : World) (i : Nat) (id : String)
    (a : Agent) : Observed c w i id a (w.observe c i id a) := by
  by_cases hmode : c.observer.mode = .absent
  · refine .unseen hmode ?_
    unfold World.observe
    rw [hmode]
  · rw [observe_eq hmode]
    cases hsnap : Snapshot.ofAgent a with
    | error ms => exact .unshown hmode hsnap rfl
    | ok snapshot => exact .exhibited hmode hsnap rfl

/-- What the observer does next about a snapshot that it is shown: it
    sleeps, or it is done and the agent goes on or fails with it. -/
inductive Attended (w : World) (i : Nat) (t : AgentTask) (e : Errand)
    (v : World) : Prop
  | rests {seconds : Scalar} {rests : List Scalar}
      (sleepy : e.rests = seconds :: rests)
      (heq : v = (w.withTask i fun t =>
        { t with showing := some { e with rests := rests } }).suspend i t
          seconds)
  | done (rested : e.rests = []) (kind : e.fails = false)
      (heq : v = w.withTask i fun t => { t with showing := none })
  | fails (rested : e.rests = []) (rude : e.fails = true)
      (heq : v = (w.withTask i fun t =>
        { t with showing := none }).failTask i t.agentId .observerFailed)

/-- There is nothing else that it can do. -/
theorem attend_cases (w : World) (i : Nat) (t : AgentTask) (e : Errand) :
    Attended w i t e (w.attend i t e) := by
  unfold World.attend
  split
  · rename_i hrests
    simp only
    split
    · exact .fails hrests ‹_› rfl
    · exact .done hrests (Bool.eq_false_iff.2 ‹_›) rfl
  · exact .rests ‹_› rfl

/-- A sleep moves on nothing but its own turn. -/
theorem sleep_spec (w : World) (seconds : Scalar) (j : Job) :
    ∃ timers ready,
      w.sleep seconds j = { w with timers := timers, ready := ready } := by
  unfold sleep
  split
  · exact ⟨_, _, rfl⟩
  · exact ⟨_, _, rfl⟩

/-- An agent that gives up its turn moves on nothing but its own turn. -/
theorem suspend_spec (w : World) (i : Nat) (t : AgentTask)
    (seconds : Scalar) :
    ∃ timers ready, w.suspend i t seconds
      = { w with active := none, timers := timers, ready := ready } :=
  sleep_spec { w with active := none } _ (.agent i)

/-! ## Calls that are woken -/

/-- The same world but for the session, its agents and what has been
    told. -/
structure Retold (w v : World) : Prop where
  now : v.now = w.now
  idle : v.idle = w.idle
  active : v.active = w.active
  round : v.round = w.round
  ready : v.ready = w.ready
  timers : v.timers = w.timers
  waiters : v.waiters = w.waiters
  calls : v.calls = w.calls

omit [Arithmetic] in
theorem Retold.refl (w : World) : Retold w w :=
  ⟨rfl, rfl, rfl, rfl, rfl, rfl, rfl, rfl⟩

omit [Arithmetic] in
/-- It stays so whatever is told. -/
theorem Retold.tell {v : World} (h : Retold w v)
    (agents : List (String × Agent)) (session : Option Session)
    (shown : List Event) (completed : List Completion)
    (reported : List LogLine) :
    Retold w { v with
      agents := agents, session := session, shown := shown
      completed := completed, reported := reported } :=
  ⟨h.now, h.idle, h.active, h.round, h.ready, h.timers, h.waiters, h.calls⟩

/-- What comes of a call that is woken: once its session has been scored, it
    leaves with an end or sleeps while its handler does. -/
inductive Woken (w : World) (n : Nat) (v : World) : Prop
  | stays (heq : v = w)
  | leaves {u : World} {e : CallEnd} (heq : v = u.leave n e)
      (retold : Retold w u)
  | sleeps {u : World} {seconds : Scalar} (heq : v = u.sleep seconds .handled)
      (retold : Retold w u)

/-- A call that returns leaves. -/
theorem Woken.finishes {u : World} (s : Session) (r : SessionResult)
    (h : Retold w u) : Woken w s.call (u.finishCall s r) :=
  .leaves rfl (h.tell ..)

/-- What the handler does next: it records the completion and the call
    returns, whether it raises an error or not, or it sleeps. -/
theorem handle_spec (w : World) (s : Session) (r : SessionResult)
    (e : Errand) :
    (e.rests = [] ∧ ∃ lines, w.handle s r e
        = { w.record (completionOf s r) with reported := lines }.finishCall
          s r)
      ∨ ∃ seconds rests, e.rests = seconds :: rests ∧ w.handle s r e
        = (w.withSession fun s =>
            { s with handling := some { e with rests := rests } }).sleep
              seconds .handled := by
  unfold World.handle
  split
  · rename_i hrests
    refine .inl ⟨hrests, ?_⟩
    simp only
    split
    · exact ⟨_, rfl⟩
    · exact ⟨w.reported, rfl⟩
  · exact .inr ⟨_, _, ‹_›, rfl⟩

/-- A call whose handler goes on leaves or sleeps. -/
theorem Woken.handles {u : World} (s : Session) (r : SessionResult)
    (e : Errand) (h : Retold w u) : Woken w s.call (u.handle s r e) := by
  rcases handle_spec u s r e with ⟨-, lines, heq⟩ | ⟨_, _, -, heq⟩
  · rw [heq]
    exact .finishes s r (h.tell ..)
  · exact .sleeps heq (h.tell ..)

/-- A call that announces its completion leaves or waits for its handler. -/
theorem Woken.announces {u : World} (s : Session) (r : SessionResult)
    (h : Retold w u) : Woken w s.call (u.announce c s r) := by
  unfold World.announce
  simp only
  split
  · exact .leaves rfl (h.tell ..)
  · split
    · exact .finishes s r (h.tell ..)
    · exact .handles s r _ (h.tell ..)

/-- The handler wakes a call. -/
theorem handled_parts (w : World) (s : Session) :
    Woken w s.call (w.handled s) := by
  have hself := Retold.refl w
  unfold World.handled
  split
  · exact .leaves rfl hself
  · split
    · exact .handles s _ _ hself
    · exact .stays rfl

/-- The join wakes a call. -/
theorem join_parts (c : Coordinator) (w : World) (s : Session) :
    Woken w s.call (w.join c s) := by
  have hself := Retold.refl w
  unfold World.join
  split
  · exact .leaves rfl (hself.tell ..)
  · unfold World.afterJoin
    simp only
    split
    · exact .leaves rfl (hself.tell ..)
    · split
      · exact .announces s _ (hself.tell ..)
      · exact .finishes s _ (hself.tell ..)

/-! ## Turns -/

theorem step_act {i : Nat} {t : AgentTask} {a : Agent}
    (ha : w.active = some i) (ht : w.task? i = some t)
    (hshow : t.showing = none) (hagent : w.agent? t.agentId = some a) :
    w.step c = w.actTask c i t a := by
  simp only [World.step, ha, ht, hshow, hagent]

theorem step_attend {i : Nat} {t : AgentTask} {e : Errand}
    (ha : w.active = some i) (ht : w.task? i = some t)
    (hshow : t.showing = some e) : w.step c = w.attend i t e := by
  simp only [World.step, ha, ht, hshow]

theorem step_turn {j : Job} {rest : List Job} (ha : w.active = none)
    (hround : w.round = j :: rest) :
    w.step c = { w with round := rest }.runJob c j := by
  unfold World.step
  split
  · rename_i i hi
    rw [ha] at hi
    cases hi
  · rw [hround]

theorem step_round (ha : w.active = none) (hround : w.round = []) :
    w.step c = w.nextRound := by
  unfold World.step
  split
  · rename_i i hi
    rw [ha] at hi
    cases hi
  · rw [hround]

theorem runJob_begin {n : Nat} {call : Call} (h : w.calls[n]? = some call) :
    w.runJob c (.begin n) = w.beginCall c n call := by
  simp only [World.runJob, h]

theorem runJob_agent {i : Nat} {t : AgentTask} (h : w.task? i = some t) :
    w.runJob c (.agent i) = w.turnTask c i t := by
  simp only [World.runJob, h]

theorem runJob_noticed {s : Session} (h : w.session = some s) :
    w.runJob c .noticed = w.notice s := by
  simp only [World.runJob, h]

theorem runJob_join {s : Session} (h : w.session = some s) :
    w.runJob c .join = w.join c s := by
  simp only [World.runJob, h]

theorem runJob_handled {s : Session} (h : w.session = some s) :
    w.runJob c .handled = w.handled s := by
  simp only [World.runJob, h]

/-- What comes of a turn: what it is for is done, if there is still
    something to do. -/
inductive Taken (c : Coordinator) (w v : World) : Job → Prop
  | idles {j : Job} (plain : j.proper.isWaiters = false) (heq : v = w) :
      Taken c w v j
  | begins {n : Nat} {call : Call} (there : w.calls[n]? = some call)
      (heq : v = w.beginCall c n call) : Taken c w v (.begin n)
  | agent {i : Nat} {t : AgentTask} (there : w.task? i = some t)
      (heq : v = w.turnTask c i t) : Taken c w v (.agent i)
  | notices {s : Session} (there : w.session = some s)
      (heq : v = w.notice s) : Taken c w v .noticed
  | joins {s : Session} (there : w.session = some s)
      (heq : v = w.join c s) : Taken c w v .join
  | handled {s : Session} (there : w.session = some s)
      (heq : v = w.handled s) : Taken c w v .handled
  | asks {k : Nat}
      (heq : v = w.setWaiter k (if w.idle then .released else .waits)) :
      Taken c w v (.ask k)
  | releases {k : Nat} (heq : v = w.setWaiter k .released) :
      Taken c w v (.release k)
  | wakes {sleeper : Job} (heq : v = w.enqueue sleeper) :
      Taken c w v (.wake sleeper)

/-- There is nothing else that can come of it. -/
theorem runJob_taken (c : Coordinator) (w : World) (j : Job) :
    Taken c w (w.runJob c j) j := by
  unfold World.runJob
  split
  · split
    · exact .idles rfl rfl
    · exact .begins ‹_› rfl
  · split
    · exact .idles rfl rfl
    · exact .agent ‹_› rfl
  · split
    · exact .idles rfl rfl
    · exact .notices ‹_› rfl
  · split
    · exact .idles rfl rfl
    · exact .joins ‹_› rfl
  · split
    · exact .idles rfl rfl
    · exact .handled ‹_› rfl
  · exact .asks rfl
  · exact .releases rfl
  · exact .wakes rfl

end World

end BlockStage
