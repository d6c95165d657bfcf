import BlockStage.Proofs.Run.Solo
import BlockStage.Proofs.Session.Calls
import BlockStage.Proofs.Session.Exclusion

/-! # Moves — what a deed does to the session in flight

    Most deeds leave the session in flight alone.  The others are few: one
    of its agents acts, sets out or ends, the observer goes on with a
    snapshot, the flag is lowered, its call is killed, the host changes an
    agent, or the call goes on after the join.
    `Moves` lists them with all that they change of the session, of the
    agents and of what was shown; `Orderly.moves` says that there are no
    others. -/

namespace BlockStage

/-- How an agent's part ends when its run does: a doomed one that comes to
    its end has been killed. -/
def Outcome.toEnd (doomed : Bool) : Outcome → AgentEnd
  | .failed f => .failed f
  | _ => if doomed then .killed else .returned

/-- A part ends as the run does, unless it was doomed. -/
theorem Outcome.toEnd_cases (doomed : Bool) (o : Outcome) :
    o.toEnd doomed = o.toEnd false
      ∨ doomed = true ∧ o.toEnd doomed = .killed := by
  cases doomed with
  | false => exact .inl rfl
  | true => cases o <;> first | exact .inl rfl | exact .inr ⟨rfl, rfl⟩

/-- An observer that is done with a snapshot as soon as it has seen it. -/
def Observer.prompt (o : Observer) : Observer :=
  ⟨o.mode, fun k => ⟨⟨[], false⟩, (o.reaction k).stops⟩⟩

/-- What an observer has to do once a snapshot has been shown, if one has
    been. -/
def Observer.errand? (o : Observer) (count : Nat) :
    List Event → Option Errand
  | [] => none
  | _ :: _ => some (o.reaction (count + 1)).toErrand

/-- Whatever the observer has to do about an act it has to do about a
    snapshot. -/
theorem Observer.errand?_eq_some {o : Observer} {count : Nat}
    {shown : List Event} {e : Errand} (h : o.errand? count shown = some e) :
    shown ≠ [] ∧ e = (o.reaction (count + 1)).toErrand := by
  cases shown with
  | nil => cases h
  | cons x xs => exact ⟨nofun, (Option.some.inj h).symm⟩

/-- What is left of an errand when the observer goes on with it, unless it
    ends in an error. -/
inductive Errand.Leaves (e : Errand) : Option Errand → Prop
  | done (rested : e.rests = []) (kind : e.fails = false) : Leaves e none
  | rests {seconds : Scalar} {rests : List Scalar}
      (sleepy : e.rests = seconds :: rests) :
      Leaves e (some { e with rests := rests })

namespace World

/-- The agents, what was shown and what was announced stay as they are, and
    the session stays in flight. -/
structure Keeps (w v : World) : Prop where
  agents : v.agents = w.agents
  shown : v.shown = w.shown
  completed : v.completed = w.completed
  idle : v.idle = false

theorem Keeps.refl {w : World} (h : w.idle = false) : Keeps w w :=
  ⟨rfl, rfl, rfl, h⟩

/-- What a turn that leaves everybody's part alone is good for: nobody was
    acting, and if it was a turn of the session then an agent acts from now
    on, or one more end is counted. -/
structure Counts (w : World) (s : Session) (d : Deed) (v : World) (k : Nat) :
    Prop where
  le : s.joined ≤ k
  still : d = .turn → w.active = none
  turn : ∀ j rest, d = .turn → w.round = j :: rest → j.isSessions = true →
    v.active.isSome = true ∨ s.joined < k

/-- A deed that is no turn takes no turn of the session. -/
theorem Counts.host {w v : World} {s : Session} {d : Deed} (hd : d ≠ .turn) :
    Counts w s d v s.joined :=
  ⟨Nat.le_refl _, fun hno => absurd hno hd, fun _ _ hno => absurd hno hd⟩

/-! ## Verdicts -/

variable {w : World} {s : Session}

/-- What a change does to one part is all that it does. -/
theorem modify_congr {i : Nat} {t : AgentTask} {f g : AgentTask → AgentTask}
    (htask : s.tasks[i]? = some t) (h : f t = g t) :
    s.tasks.modify i f = s.tasks.modify i g := by
  refine List.ext_getElem? fun k => ?_
  rw [List.getElem?_modify, List.getElem?_modify]
  by_cases hik : i = k
  · subst hik
    simp [htask, h]
  · simp [hik]

/-- An end that is none changes nothing. -/
theorem modify_unended {i : Nat} {t : AgentTask}
    (htask : s.tasks[i]? = some t) (hend : t.ending = none)
    (hshow : t.showing = none) :
    s.tasks.modify i (fun t => { t with showing := none, ending := none })
      = s.tasks := by
  refine (modify_congr (g := id) htask ?_).trans (List.modify_id i s.tasks)
  rw [← hend, ← hshow]
  rfl

/-- The fields that a verdict decides. -/
structure Judged (c : Coordinator) (w : World) (s : Session) (i : Nat)
    (doomed : Bool) (e : Verdict) (v : World) : Prop where
  agents : v.agents = w.agents
  shown : v.shown = e.shown ++ w.shown
  completed : v.completed = w.completed
  idle : v.idle = w.idle
  session : v.session = some { s with
    tasks := s.tasks.modify i fun t => { t with
      showing := c.observer.errand? w.shown.length e.shown
      ending := e.outcome.map (Outcome.toEnd doomed) }
    running := e.running }

theorem judged_end {c : Coordinator} {i : Nat} {doomed : Bool} {o : Outcome}
    (hses : w.session = some s) :
    Judged c w s i doomed ⟨some o, [], s.running⟩
      (w.endTask i (o.toEnd doomed)) := by
  refine ⟨rfl, rfl, rfl, rfl, ?_⟩
  simp only [endTask, withTask, withSession, enqueue, hses]
  rfl

theorem judged_none {c : Coordinator} {i : Nat} {t : AgentTask}
    {doomed : Bool} (hses : w.session = some s)
    (htask : s.tasks[i]? = some t) (hend : t.ending = none)
    (hshow : t.showing = none) :
    Judged c w s i doomed ⟨none, [], s.running⟩ w := by
  refine ⟨rfl, rfl, rfl, rfl, ?_⟩
  simp only [Option.map_none, Observer.errand?,
    modify_unended htask hend hshow, hses]

theorem judged_fail {c : Coordinator} {i : Nat} {id : String} {f : RunFault}
    {doomed : Bool} (hses : w.session = some s) :
    Judged c w s i doomed ⟨some (.failed f), [], s.running⟩
      (w.failTask i id f) := by
  refine ⟨rfl, rfl, rfl, rfl, ?_⟩
  simp only [failTask, report, endTask, withTask, withSession, enqueue, hses]
  rfl

variable [Arithmetic] {c : Coordinator}

/-! ## The list -/

/-- The score of a session whose agents have all ended. -/
def scored (c : Coordinator) (w : World) (s : Session) :
    List (String × Agent) × Except RunFault (List String) :=
  score c.goal (s.tasks.filterMap failure?) w.agents
    (s.tasks.map (·.agentId))

/-- The result of a session scored now. -/
def resultNow (w : World) (s : Session) (reached : List String) :
    SessionResult :=
  resultOf s reached (s.tasks.filterMap failure?) (!s.running)
    (w.now.sub s.startedAt)

/-- How a call ends after the join, and with which agents. -/
inductive Settles (c : Coordinator) (w : World) (s : Session) :
    CallEnd → List (String × Agent) → Prop
  | killed : w.isDoomed s = true → Settles c w s .killed w.agents
  | unscored {agents : List (String × Agent)} {f : RunFault} :
      w.isDoomed s = false → Job.handled ∉ w.turns →
      w.scored c s = (agents, .error f) →
      Settles c w s (.failed f) agents
  | untimed {agents : List (String × Agent)} {reached : List String} :
      w.isDoomed s = false → Job.handled ∉ w.turns →
      w.scored c s = (agents, .ok reached) →
      (w.resultNow s reached).allReached = true →
      ¬ (Scalar.finite 0).le (w.now.sub s.startedAt) →
      Settles c w s
        (.failed (.badDuration (.real (w.now.sub s.startedAt)))) agents
  | returned {agents : List (String × Agent)} {reached : List String} :
      w.isDoomed s = false → Job.handled ∉ w.turns →
      w.scored c s = (agents, .ok reached) →
      Settles c w s
        (.returned { w.resultNow s reached with warnings := s.warnings })
        agents
  | handled {r : SessionResult} :
      w.isDoomed s = false → Job.handled ∈ w.turns → s.result = some r →
      Settles c w s (.returned { r with warnings := s.warnings }) w.agents

/-- A call ends with the agents as they are, or as the score leaves them. -/
theorem Settles.agents {e : CallEnd} {agents : List (String × Agent)}
    (h : Settles c w s e agents) :
    agents = w.agents ∨ agents = (w.scored c s).1 := by
  cases h with
  | killed => exact .inl rfl
  | handled => exact .inl rfl
  | unscored _ _ hscore => exact .inr (by rw [hscore])
  | untimed _ _ hscore => exact .inr (by rw [hscore])
  | returned _ _ hscore => exact .inr (by rw [hscore])

/-- A call that ends, right before it does: what has become of its session,
    and what has been recorded of it. -/
inductive Parting (c : Coordinator) (w : World) (s : Session) :
    CallEnd → World → Prop
  | killed {x : World} {running : Bool} :
      x.session = some { s with running := running } →
      x.calls = w.calls → x.agents = w.agents → x.completed = w.completed →
      Parting c w s .killed x
  | unscored {x : World} {f : RunFault} : Job.handled ∉ w.turns →
      x.session = some { s with running := false } →
      x.calls = w.calls → x.completed = w.completed →
      Parting c w s (.failed f) x
  | untimed {x : World} {f : RunFault} :
      ¬ (Scalar.finite 0).le (w.now.sub s.startedAt) →
      x.calls = w.calls → x.completed = w.completed →
      Parting c w s (.failed f) x
  | missed {x : World} {reached : List String} :
      w.isDoomed s = false → Job.handled ∉ w.turns →
      w.scored c s = (x.agents, .ok reached) →
      (w.resultNow s reached).allReached = false →
      x.session = some { s with
        running := false
        result := some { w.resultNow s reached with
          warnings := s.warnings } } →
      x.calls = w.calls → x.completed = w.completed →
      Parting c w s
        (.returned { w.resultNow s reached with warnings := s.warnings }) x
  | announced {x : World} {reached : List String} :
      w.isDoomed s = false → Job.handled ∉ w.turns →
      w.scored c s = (x.agents, .ok reached) →
      (w.resultNow s reached).allReached = true →
      x.session = some { s with
        running := false
        result := some { w.resultNow s reached with warnings := s.warnings }
        completionFired := true } →
      x.calls = w.calls →
      (c.handler = .absent ∧ x.completed = w.completed
        ∨ c.handler ≠ .absent ∧ x.completed
          = ⟨w.now, completionOf s (w.resultNow s reached)⟩
            :: w.completed) →
      Parting c w s
        (.returned { w.resultNow s reached with warnings := s.warnings }) x
  | handled {x : World} {r : SessionResult} : s.result = some r →
      x.session = some { s with
        result := some { r with warnings := s.warnings } } →
      x.calls = w.calls → x.agents = w.agents →
      x.completed = ⟨w.now, completionOf s r⟩ :: w.completed →
      Parting c w s (.returned { r with warnings := s.warnings }) x

/-- Who acts after a signal: nobody after a sleep, and else nobody or the
    agent who did. -/
structure Hands (w v : World) (signal : Signal) : Prop where
  keeps : signal = .proceed → v.active = w.active
  rests : ∀ seconds, signal = .sleep seconds → v.active = none
  only : v.active = none ∨ v.active = w.active

/-- What a deed does to the session in flight. -/
inductive Moves (c : Coordinator) (w : World) (s : Session) :
    Deed → World → Prop
  | stays {d : Deed} {v : World} {k : Nat} :
      (∀ n, d = .kill n → n ≠ s.call) → Keeps w v →
      v.session = some { s with joined := k } →
      Counts w s d v k → Moves c w s d v
  | lowers {v : World} :
      Keeps w v → v.session = some { s with running := false } →
      Moves c w s .cancel v
  | puts {name : String} {a : Agent} :
      Moves c w s (.put name a) (w.setAgent name a)
  | dooms {v : World} :
      Keeps w v → v.session = some (doomFirst s.tasks.length s) →
      Moves c w s (.kill s.call) v
  | acts {v : World} {i : Nat} {t : AgentTask} {walker : Walker}
      {a : Agent} {n : Step} {e : Verdict} :
      w.active = some i → s.tasks[i]? = some t →
      t.walker = some walker → t.ending = none → t.showing = none →
      w.agent? t.agentId = some a →
      n = walker.step (scene c) w.now s.running a →
      e = verdict c.observer.prompt w.shown.length w.now n.agent s.running
        n.signal →
      v.agents = (w.setAgent t.agentId n.agent).agents →
      v.shown = e.shown ++ w.shown → v.completed = w.completed →
      v.idle = false →
      v.session = some { s with
        tasks := s.tasks.modify i fun u => { u with
          walker := some n.walker
          showing := c.observer.errand? w.shown.length e.shown
          ending := e.outcome.map (Outcome.toEnd t.doomed) }
        running := e.running } →
      Hands w v n.signal → Moves c w s .turn v
  | attends {v : World} {i : Nat} {t : AgentTask} {walker : Walker}
      {e : Errand} {showing : Option Errand} :
      w.active = some i → s.tasks[i]? = some t →
      t.walker = some walker → t.ending = none → t.showing = some e →
      e.Leaves showing → Keeps w v →
      v.session = some { s with
        tasks := s.tasks.modify i fun t => { t with showing := showing } } →
      (showing = none → v.active = w.active) →
      (showing ≠ none → v.active = none) → Moves c w s .turn v
  | stumbles {v : World} {i : Nat} {t : AgentTask} {walker : Walker}
      {e : Errand} :
      w.active = some i → s.tasks[i]? = some t →
      t.walker = some walker → t.ending = none → t.showing = some e →
      e.rests = [] → e.fails = true → Keeps w v →
      v.session = some { s with
        tasks := s.tasks.modify i fun t => { t with
          showing := none, ending := some (.failed .observerFailed) } } →
      v.active = none → Moves c w s .turn v
  | setsOut {v : World} {i : Nat} {t : AgentTask} {ceiling : Value} :
      s.tasks[i]? = some t → t.walker = none → t.ending = none →
      t.doomed = false → checkCeiling c.config.loopCeiling = .ok ceiling →
      Keeps w v →
      v.session = some { s with
        tasks := s.tasks.modify i fun t =>
          { t with walker := some (.start t.program) } } →
      w.active = none → Moves c w s .turn v
  | dies {v : World} {i : Nat} {t : AgentTask} {e : AgentEnd} :
      s.tasks[i]? = some t → t.ending = none →
      (t.doomed = true ∧ e = .killed)
        ∨ (t.doomed = false ∧ t.walker = none ∧ ∃ f,
          checkCeiling c.config.loopCeiling = .error f ∧ e = .failed f) →
      Keeps w v →
      v.session = some { s with
        tasks := s.tasks.modify i fun t => { t with
          showing := none, ending := some e } } →
      w.active = none → Moves c w s .turn v
  | dozes {v : World} {agents : List (String × Agent)}
      {reached : List String} {errand : Errand} {seconds : Scalar}
      {rests : List Scalar} :
      (∀ b ∈ s.ended, b = true) → w.isDoomed s = false →
      Job.handled ∉ w.turns → w.scored c s = (agents, .ok reached) →
      v.agents = agents → v.shown = w.shown → v.completed = w.completed →
      v.idle = false →
      v.session = some { s with
        running := false, result := some (w.resultNow s reached)
        completionFired := true
        handling := some { errand with rests := rests } } →
      (w.resultNow s reached).allReached = true →
      c.handler = .present errand → errand.rests = seconds :: rests →
      Moves c w s .turn v
  | drowses {v : World} {r : SessionResult} {errand : Errand}
      {seconds : Scalar} {rests : List Scalar} :
      (∀ b ∈ s.ended, b = true) → w.isDoomed s = false →
      Job.handled ∈ w.turns → s.result = some r →
      s.handling = some errand → errand.rests = seconds :: rests →
      Keeps w v →
      v.session = some { s with
        handling := some { errand with rests := rests } } →
      Moves c w s .turn v
  | leaves {v : World} {s' : Session} {e : CallEnd} :
      (∀ b ∈ s.ended, b = true) → Settles c w s e v.agents →
      v.shown = w.shown → v.idle = true →
      v.session = some s' → s'.call = s.call → s'.tasks = s.tasks →
      s'.warnings = s.warnings →
      v.calls = w.calls.modify s.call
        (fun c => { c with ending := some e }) →
      (∃ x, Parting c w s e x ∧ v = x.leave s.call e) →
      Moves c w s .turn v

/-! ## The agent who acts -/

/-- What the world makes of a signal is the verdict on it. -/
theorem judged_answer {i : Nat} {t u : AgentTask} (a : Agent)
    (signal : Signal) (hses : w.session = some s)
    (htask : s.tasks[i]? = some t) (hend : t.ending = none)
    (hshow : t.showing = none) :
    Judged c w s i u.doomed
      (verdict c.observer.prompt w.shown.length w.now a s.running signal)
      (w.answer c i u a signal) := by
  cases signal with
  | proceed => exact judged_none hses htask hend hshow
  | sleep seconds =>
      obtain ⟨timers, ready, heq⟩ := suspend_spec w i u seconds
      have hnone : Judged c w s i u.doomed ⟨none, [], s.running⟩ w :=
        judged_none hses htask hend hshow
      show Judged c w s i u.doomed ⟨none, [], s.running⟩
        (w.suspend i u seconds)
      rw [heq]
      exact ⟨rfl, rfl, rfl, rfl, hnone.session⟩
  | finish => exact judged_end (o := .finished) hses
  | halt => exact judged_end (o := .halted) hses
  | fail f => exact judged_fail hses
  | emit =>
      show Judged c w s i _ _ (w.observe c i u.agentId a)
      rcases verdict_emit c.observer.prompt w.shown.length w.now a s.running
        with ⟨hmode, hverdict⟩ | ⟨hmode, ms, hms, hverdict⟩
          | ⟨hmode, snapshot, hsnapshot, hverdict⟩
      · have hmode : c.observer.mode = .absent := hmode
        have hsame : w.observe c i u.agentId a = w := by
          unfold observe
          rw [hmode]
        rw [hsame, hverdict]
        exact judged_none hses htask hend hshow
      · rw [hverdict, observe_eq hmode, hms]
        exact judged_fail hses
      · rw [hverdict, observe_eq hmode, hsnapshot]
        obtain ⟨lines, heq⟩ := exhibit_spec c w snapshot
        dsimp only
        rw [heq, hses]
        refine ⟨rfl, rfl, rfl, rfl, ?_⟩
        simp only [withTask, withSession, Option.map_some]
        rw [modify_congr htask (g := fun t => { t with
          showing :=
            some (c.observer.reaction (w.shown.length + 1)).toErrand
          ending := none }) (by rw [← hend])]
        rfl

/-- Whatever the answer to a signal is, nobody acts after it but the agent
    who did. -/
theorem hands_answer {i : Nat} {t : AgentTask} (a : Agent) (signal : Signal) :
    Hands w (w.answer c i t a signal) signal := by
  cases signal with
  | proceed => exact ⟨fun _ => rfl, nofun, .inr rfl⟩
  | sleep seconds =>
      obtain ⟨timers, ready, heq⟩ := suspend_spec w i t seconds
      have hnone : (w.answer c i t a (.sleep seconds)).active = none := by
        show (w.suspend i t seconds).active = none
        rw [heq]
      exact ⟨nofun, fun _ _ => hnone, .inl hnone⟩
  | finish => exact ⟨nofun, nofun, .inl rfl⟩
  | halt => exact ⟨nofun, nofun, .inl rfl⟩
  | fail f => exact ⟨nofun, nofun, .inl rfl⟩
  | emit =>
      refine ⟨nofun, nofun, ?_⟩
      show (w.observe c i t.agentId a).active = none
        ∨ (w.observe c i t.agentId a).active = w.active
      cases observe_cases c w i t.agentId a with
      | unseen _ heq => rw [heq]; exact .inr rfl
      | unshown _ _ heq => rw [heq]; exact .inl rfl
      | exhibited _ _ heq =>
          obtain ⟨lines, hexhibit⟩ := exhibit_spec c w _
          rw [heq, hexhibit]
          exact .inr rfl

/-- What a turn does while an agent acts: the agent does its next act, and
    the world passes its verdict on it, or the observer goes on with the
    snapshot that it is shown, or raises an error about it. -/
inductive ActTurn (c : Coordinator) (w : World) (s : Session) (i : Nat)
    (t : AgentTask) (walker : Walker) (v : World) : Prop
  | acts {a : Agent} {n : Step} {e : Verdict} (unshown : t.showing = none)
      (known : w.agent? t.agentId = some a)
      (step : n = walker.step (scene c) w.now s.running a)
      (judged : e = verdict c.observer.prompt w.shown.length w.now n.agent
        s.running n.signal)
      (agents : v.agents = (w.setAgent t.agentId n.agent).agents)
      (shown : v.shown = e.shown ++ w.shown)
      (completed : v.completed = w.completed) (idle : v.idle = false)
      (session : v.session = some { s with
        tasks := s.tasks.modify i fun u => { u with
          walker := some n.walker
          showing := c.observer.errand? w.shown.length e.shown
          ending := e.outcome.map (Outcome.toEnd t.doomed) }
        running := e.running }) (hands : Hands w v n.signal)
  | attends {e : Errand} {showing : Option Errand}
      (shown : t.showing = some e) (leaves : e.Leaves showing)
      (keeps : Keeps w v)
      (session : v.session = some { s with
        tasks := s.tasks.modify i fun t => { t with showing := showing } })
      (goes : showing = none → v.active = w.active)
      (rests : showing ≠ none → v.active = none)
  | stumbles {e : Errand} (shown : t.showing = some e)
      (rested : e.rests = []) (rude : e.fails = true) (keeps : Keeps w v)
      (session : v.session = some { s with
        tasks := s.tasks.modify i fun t => { t with
          showing := none, ending := some (.failed .observerFailed) } })
      (gone : v.active = none)

section

variable {i : Nat} {t : AgentTask} {walker : Walker}

/-- What the observer does about a snapshot is of this kind. -/
theorem actTurn_attend {e : Errand} (hidle : w.idle = false)
    (hses : w.session = some s) (hshow : t.showing = some e) :
    ActTurn c w s i t walker (w.attend i t e) := by
  cases attend_cases w i t e with
  | rests hsleepy heq =>
      rw [heq]
      obtain ⟨timers, ready, heq⟩ := suspend_spec _ i t _
      rw [heq]
      refine .attends hshow (.rests hsleepy) ⟨rfl, rfl, rfl, hidle⟩ ?_
        (fun hno => by cases hno) fun _ => rfl
      simp only [withTask, withSession, hses]
      rfl
  | done hrested hkind heq =>
      rw [heq]
      refine .attends hshow (.done hrested hkind) ⟨rfl, rfl, rfl, hidle⟩ ?_
        (fun _ => rfl) fun hno => absurd rfl hno
      simp only [withTask, withSession, hses]
      rfl
  | fails hrested hrude heq =>
      rw [heq]
      refine .stumbles hshow hrested hrude ⟨rfl, rfl, rfl, hidle⟩ ?_ rfl
      simp only [World.failTask, report, World.endTask, withTask,
        withSession, enqueue, hses, Option.map_some, List.modify_modify_eq]
      rfl

/-- And so is what the agent does. -/
theorem actTurn_act {a : Agent} (hidle : w.idle = false)
    (hses : w.session = some s) (htask : s.tasks[i]? = some t)
    (hwalk : t.walker = some walker) (hend : t.ending = none)
    (hshow : t.showing = none) (hagent : w.agent? t.agentId = some a) :
    ActTurn c w s i t walker (w.actTask c i t a) := by
  have hrun : w.isRunning = s.running := by simp [isRunning, hses]
  simp only [World.actTask, hwalk, hrun]
  generalize hn : walker.step (scene c) w.now s.running a = n
  -- the world in which the signal is answered
  have hbase : ∀ u : World, u.agents = (w.setAgent t.agentId n.agent).agents →
      u.shown = w.shown → u.completed = w.completed → u.idle = w.idle →
      u.now = w.now → u.active = w.active →
      u.session = some { s with tasks := s.tasks.modify i fun t =>
        { t with walker := some n.walker } } →
      ActTurn c w s i t walker (u.answer c i t n.agent n.signal) := by
    intro u hagents hshown hcompleted huidle hnow hactive husess
    have htask' : (s.tasks.modify i fun t =>
        { t with walker := some n.walker })[i]?
        = some { t with walker := some n.walker } := by
      rw [List.getElem?_modify_eq, htask]
      rfl
    have hj := judged_answer (c := c) (u := t) n.agent n.signal
      husess htask' hend hshow
    have hsession := hj.session
    rw [hshown, hnow] at hj hsession
    refine .acts hshow hagent hn.symm rfl (hj.agents.trans hagents)
      (hshown ▸ hj.shown) (hj.completed.trans hcompleted)
      (hj.idle.trans (huidle.trans hidle)) ?_ ?_
    · rw [hsession, List.modify_modify_eq]
      rfl
    · obtain ⟨hkeeps, hrests, honly⟩ :=
        hands_answer (c := c) (w := u) (i := i) (t := t) n.agent n.signal
      rw [hactive] at hkeeps honly
      exact ⟨hkeeps, hrests, honly⟩
  refine hbase _ rfl rfl rfl rfl rfl rfl ?_
  simp only [withTask, withSession, setAgent, hses]
  rfl

/-- A turn does nothing else while an agent acts. -/
theorem Orderly.act_turn (h : Orderly w) (hact : w.active = some i)
    (hses : w.session = some s) (htask : s.tasks[i]? = some t)
    (hwalk : t.walker = some walker) :
    ActTurn c w s i t walker (w.after c .turn) := by
  obtain ⟨s', t', -, a, hidle, hses', htask', -, hend, hget, hagent⟩ :=
    h.actor hact
  obtain rfl := Option.mem_unique hses hses'
  obtain rfl := Option.mem_unique htask htask'
  cases hshow : t.showing with
  | some e =>
      have hstep : w.after c .turn = w.attend i t e :=
        step_attend hact hget hshow
      rw [hstep]
      exact actTurn_attend hidle hses hshow
  | none =>
      have hstep : w.after c .turn = w.actTask c i t a :=
        step_act hact hget hshow hagent
      rw [hstep]
      exact actTurn_act hidle hses htask hwalk hend hshow hagent

end

/-- So it is one of the moves of the session. -/
theorem Orderly.moves_act (h : Orderly w) {i : Nat}
    (hact : w.active = some i) (hses : w.session = some s) :
    Moves c w s .turn (w.after c .turn) := by
  obtain ⟨s', t, walker, a, -, hses', htask, hwalk, hend, -⟩ := h.actor hact
  obtain rfl := Option.mem_unique hses hses'
  cases h.act_turn (c := c) hact hses htask hwalk with
  | acts hshow ha hn he hagents hshown hcomp hi hs hhands =>
      exact .acts hact htask hwalk hend hshow ha hn he hagents hshown hcomp
        hi hs hhands
  | attends hshow hleaves hk hs hgoes hrests =>
      exact .attends hact htask hwalk hend hshow hleaves hk hs hgoes hrests
  | stumbles hshow hrested hrude hk hs hgone =>
      exact .stumbles hact htask hwalk hend hshow hrested hrude hk hs hgone

/-! ## Turns -/

/-- A turn of an agent begins. -/
theorem Orderly.moves_agent (h : Orderly w) {i : Nat} {rest : List Job}
    (hact : w.active = none) (hround : w.round = .agent i :: rest)
    (hidle : w.idle = false) (hses : w.session = some s) :
    Moves c w s .turn ({ w with round := rest }.runJob c (.agent i)) := by
  obtain ⟨t, htask, hend⟩ := h.goesOn hround hidle hses
  have hget : ({ w with round := rest } : World).task? i = some t := by
    simp [task?, hses, htask]
  rw [runJob_agent hget]
  cases turnTask_cases c { w with round := rest } i t with
  | ended hover =>
      rw [hend] at hover
      cases hover
  | dies _ hwhy heq =>
      rw [heq]
      refine .dies htask hend hwhy ⟨rfl, rfl, rfl, hidle⟩ ?_ hact
      simp only [World.endTask, withTask, withSession, enqueue, hses]
      rfl
  | goesOn _ _ _ heq =>
      rw [heq]
      exact .stays (k := s.joined) (fun _ hd => by cases hd)
        ⟨rfl, rfl, rfl, hidle⟩ hses
        ⟨Nat.le_refl _, fun _ => hact, fun _ _ _ _ _ => .inl rfl⟩
  | setsOut _ hdoom hwalk hceiling heq =>
      rw [heq]
      refine .setsOut htask hwalk hend hdoom hceiling
        ⟨rfl, rfl, rfl, hidle⟩ ?_ hact
      simp only [withTask, withSession, hses]
      rfl

/-- A call that leaves. -/
theorem moves_leave {u : World} {e : CallEnd} (s' : Session)
    {agents : List (String × Agent)} (hover : ∀ b ∈ s.ended, b = true)
    (he : Settles c w s e agents) (ha : u.agents = agents)
    (hv : u.shown = w.shown) (hs : u.session = some s')
    (hcall : s'.call = s.call) (htasks : s'.tasks = s.tasks)
    (hwarn : s'.warnings = s.warnings)
    (hc : u.calls = w.calls) (hp : Parting c w s e u) :
    Moves c w s .turn (u.leave s.call e) := by
  have he' : Settles c w s e (u.leave s.call e).agents := by
    show Settles c w s e u.agents
    rw [ha]
    exact he
  refine .leaves hover he' hv rfl hs hcall htasks hwarn ?_ ⟨u, hp, rfl⟩
  show u.calls.modify _ _ = _
  rw [hc]

/-- The announcement sends the call to sleep or ends it. -/
theorem moves_announce {agents : List (String × Agent)}
    {reached : List String} {v : World}
    (hover : ∀ b ∈ s.ended, b = true) (hidle : w.idle = false)
    (hdoom : w.isDoomed s = false) (hnone : Job.handled ∉ w.turns)
    (hscore : w.scored c s = (agents, .ok reached))
    (hall : (w.resultNow s reached).allReached = true)
    (hs : v.session = some { s with
      running := false, result := some (w.resultNow s reached) })
    (ha : v.agents = agents) (hv : v.shown = w.shown)
    (hcomp : v.completed = w.completed) (hnow : v.now = w.now)
    (hi : v.idle = w.idle) (hc : v.calls = w.calls) :
    Moves c w s .turn (v.announce c s (w.resultNow s reached)) := by
  have hfired : (v.withSession fun s =>
      { s with completionFired := true }).session
      = some { s with
          running := false, result := some (w.resultNow s reached)
          completionFired := true } := by
    rw [withSession, hs]
    rfl
  have hdone : ∀ u : World, u.agents = v.agents → u.shown = v.shown →
      u.calls = v.calls → u.session = (v.withSession fun s =>
        { s with completionFired := true }).session →
      (c.handler = .absent ∧ u.completed = w.completed
        ∨ c.handler ≠ .absent ∧ u.completed
          = ⟨w.now, completionOf s (w.resultNow s reached)⟩
            :: w.completed) →
      Moves c w s .turn (u.finishCall s (w.resultNow s reached)) := by
    intro u hua hus huc huses hrecords
    have hses : (u.withSession fun s' => { s' with
          result := some { w.resultNow s reached with
            warnings := s.warnings } }).session = some { s with
        running := false
        result := some { w.resultNow s reached with warnings := s.warnings }
        completionFired := true } := by
      rw [withSession, huses, hfired]
      rfl
    have hscore' : w.scored c s = (u.agents, .ok reached) := by
      rw [hua, ha]
      exact hscore
    exact moves_leave _ hover (.returned hdoom hnone hscore)
      (hua.trans ha) (hus.trans hv) hses rfl rfl rfl (huc.trans hc)
      (.announced hdoom hnone hscore' hall hses (huc.trans hc) hrecords)
  unfold World.announce
  simp only
  split
  · rename_i hbad
    have hbad : ¬ (Scalar.finite 0).le (w.now.sub s.startedAt) := hbad
    exact moves_leave _ hover (.untimed hdoom hnone hscore hall hbad) ha hv
      hfired rfl rfl rfl hc (.untimed hbad hc hcomp)
  · split
    · rename_i hhandler
      exact hdone _ rfl rfl rfl rfl (.inl ⟨hhandler, hcomp⟩)
    · rename_i errand hhandler
      rcases handle_spec
        ((v.withSession fun s => { s with completionFired := true }).report
          .info "all agents reached the goal") s (w.resultNow s reached)
        errand with ⟨-, lines, heq⟩ | ⟨seconds, rests, hsleepy, heq⟩
      · rw [heq]
        refine hdone _ rfl rfl rfl rfl (.inr ⟨by simp [hhandler], ?_⟩)
        rw [← hcomp, ← hnow]
        rfl
      · obtain ⟨timers, ready, hsleep⟩ := sleep_spec _ seconds .handled
        rw [heq, hsleep]
        refine .dozes hover hdoom hnone hscore ha hv hcomp
          (hi.trans hidle) ?_ hall hhandler hsleepy
        simp only [withSession, report, hs]
        rfl

/-- The call goes on after the join. -/
theorem Orderly.moves_join (h : Orderly w) {rest : List Job}
    (hround : w.round = .join :: rest) (hidle : w.idle = false)
    (hses : w.session = some s) :
    Moves c w s .turn ({ w with round := rest }.runJob c .join) := by
  have hbooks := (h.flight hidle hses).books
  have hturn : w.turns = Job.join ::ₘ ({ w with round := rest }).turns :=
    turns_round hround
  rw [hturn] at hbooks
  obtain ⟨hover, hgone⟩ := hbooks.last (.inl rfl)
  have hnone : Job.handled ∉ w.turns := by
    rw [hturn, Multiset.mem_cons]
    rintro (hno | hmem)
    · cases hno
    · exact Multiset.count_eq_zero.1 (hgone .handled rfl) hmem
  rw [runJob_join (w := { w with round := rest }) hses]
  unfold World.join
  split
  · rename_i hdoom
    have hdoom : w.isDoomed s = true := hdoom
    have hlowered : ((({ w with round := rest } : World).withSession fun s =>
        { s with running := false }).report .info
          "session task cancelled").session
        = some { s with running := false } := by
      simp only [withSession, report, hses]
      rfl
    exact moves_leave _ hover (.killed hdoom) rfl rfl hlowered rfl rfl rfl rfl
      (.killed hlowered rfl rfl rfl)
  · rename_i hdoom
    have hdoom : w.isDoomed s = false := Bool.eq_false_iff.2 hdoom
    unfold World.afterJoin
    simp only
    have hscored : w.scored c s = score c.goal (s.tasks.filterMap failure?)
      w.agents (s.tasks.map (·.agentId)) := rfl
    split
    · rename_i agents f hscore
      have hlowered : (({ w with round := rest } : World).withSession fun s =>
          { s with running := false }).session
          = some { s with running := false } := by
        simp only [withSession, hses]
        rfl
      exact moves_leave _ hover
        (.unscored hdoom hnone (hscored.trans hscore)) rfl rfl hlowered rfl
        rfl rfl rfl (.unscored hnone hlowered rfl rfl)
    · rename_i agents reached hscore
      have hscore' := hscored.trans hscore
      split
      · rename_i hall
        refine moves_announce hover hidle hdoom hnone hscore' hall ?_ rfl rfl
          rfl rfl rfl rfl
        simp only [withSession, report, hses]
        rfl
      · rename_i hmissed
        refine moves_leave { s with
            running := false
            result := some { w.resultNow s reached with
              warnings := s.warnings } } hover
          (.returned hdoom hnone hscore') rfl rfl ?_ rfl rfl rfl rfl
          (.missed hdoom hnone hscore' (Bool.eq_false_iff.2 hmissed) ?_ rfl rfl)
        all_goals
          simp only [withSession, report, hses]
          rfl

/-- The handler wakes up. -/
theorem Orderly.moves_handled (h : Orderly w) {rest : List Job}
    (hround : w.round = .handled :: rest) (hidle : w.idle = false)
    (hses : w.session = some s) :
    Moves c w s .turn ({ w with round := rest }.runJob c .handled) := by
  have hfl := h.flight hidle hses
  have hbooks := hfl.books
  have hturn : w.turns = Job.handled ::ₘ ({ w with round := rest }).turns :=
    turns_round hround
  have hmem : Job.handled ∈ w.turns := by
    rw [hturn]
    exact Multiset.mem_cons_self _ _
  rw [hturn] at hbooks
  obtain ⟨hover, -⟩ := hbooks.last (.inr rfl)
  rw [runJob_handled (w := { w with round := rest }) hses]
  unfold World.handled
  split
  · rename_i hdoom
    have hdoom : w.isDoomed s = true := hdoom
    exact moves_leave s hover (.killed hdoom) rfl rfl hses rfl rfl rfl rfl
      (.killed (show _ = some { s with running := s.running } from hses)
        rfl rfl rfl)
  · rename_i hdoom
    have hdoom : w.isDoomed s = false := Bool.eq_false_iff.2 hdoom
    split
    · rename_i r errand hresult hhandling
      rcases handle_spec { w with round := rest } s r errand with
        ⟨-, lines, heq⟩ | ⟨seconds, rests, hsleepy, heq⟩
      · rw [heq]
        refine moves_leave
          { s with result := some { r with warnings := s.warnings } } hover
          (.handled hdoom hmem hresult) rfl rfl ?_ rfl rfl rfl rfl
          (.handled hresult ?_ rfl rfl rfl)
        all_goals
          simp only [withSession, World.record, hses]
          rfl
      · obtain ⟨timers, ready, hsleep⟩ := sleep_spec _ seconds .handled
        rw [heq, hsleep]
        refine .drowses hover hdoom hmem hresult hhandling hsleepy
          ⟨rfl, rfl, rfl, hidle⟩ ?_
        simp only [withSession, hses]
        rfl
    · rename_i hnone
      obtain ⟨hresult, -, hhandling⟩ := hfl.scored hmem
      obtain ⟨r, hr⟩ := Option.isSome_iff_exists.1 hresult
      obtain ⟨e, he⟩ := Option.isSome_iff_exists.1 hhandling
      exact absurd he (hnone r e hr)

/-- A turn of the event loop. -/
theorem Orderly.moves_turn (h : Orderly w) (hidle : w.idle = false)
    (hses : w.session = some s) : Moves c w s .turn (w.after c .turn) := by
  have hstays : ∀ (v : World) (joined : Nat), w.after c .turn = v →
      Keeps w v → v.session = some { s with joined := joined } →
      Counts w s .turn v joined → Moves c w s .turn (w.after c .turn) := by
    rintro v joined rfl hk hs hc
    exact .stays (fun _ hd => by cases hd) hk hs hc
  cases hact : w.active with
  | some i => exact h.moves_act hact hses
  | none =>
      cases hround : w.round with
      | nil =>
          refine hstays _ s.joined (step_round hact hround)
            ⟨rfl, rfl, rfl, hidle⟩ hses
            ⟨Nat.le_refl _, fun _ => hact, ?_⟩
          intro j rest _ hno
          rw [hround] at hno
          cases hno
      | cons j rest =>
          have hstep := step_turn (c := c) hact hround
          -- a turn that is none of the session's counts no end
          have hother : j.isSessions = false → ∀ v : World,
              Counts w s .turn v s.joined := by
            intro hj v
            refine ⟨Nat.le_refl _, fun _ => hact, fun j' rest' _ heq hj' => ?_⟩
            rw [hround] at heq
            cases heq
            rw [hj] at hj'
            cases hj'
          cases j with
          | begin n =>
              obtain ⟨call, hcall, -⟩ := h.beginner hround
              exact hstays _ s.joined (refuses hact hround hcall hidle)
                ⟨rfl, rfl, rfl, hidle⟩ hses (hother rfl _)
          | agent i =>
              show Moves c w s .turn (w.step c)
              rw [hstep]
              exact h.moves_agent hact hround hidle hses
          | noticed =>
              rw [runJob_noticed (w := { w with round := rest }) hses]
                at hstep
              refine hstays _ (s.joined + 1) hstep ?_ ?_
                ⟨Nat.le_succ _, fun _ => hact,
                  fun _ _ _ _ _ => .inr (Nat.lt_succ_self _)⟩
              · rw [notice_spec]
                exact ⟨rfl, rfl, rfl, hidle⟩
              · rw [notice_spec]
                simp only [hses, Option.map_some]
          | join =>
              show Moves c w s .turn (w.step c)
              rw [hstep]
              exact h.moves_join hround hidle hses
          | handled =>
              show Moves c w s .turn (w.step c)
              rw [hstep]
              exact h.moves_handled hround hidle hses
          | ask k =>
              exact hstays _ s.joined hstep ⟨rfl, rfl, rfl, hidle⟩ hses
                  (hother rfl _)
          | release k =>
              exact hstays _ s.joined hstep ⟨rfl, rfl, rfl, hidle⟩ hses
                  (hother rfl _)
          | wake sleeper =>
              exact hstays _ s.joined hstep ⟨rfl, rfl, rfl, hidle⟩ hses
                  (hother rfl _)

/-- What a deed does to the session in flight: there is nothing else. -/
theorem Orderly.moves (h : Orderly w) (hidle : w.idle = false)
    (hses : w.session = some s) (d : Deed) :
    Moves c w s d (w.after c d) := by
  cases d with
  | turn => exact h.moves_turn hidle hses
  | elapse t =>
      exact .stays (k := s.joined) (fun _ hd => by cases hd)
        ⟨rfl, rfl, rfl, hidle⟩ hses (.host nofun)
  | call script cast =>
      exact .stays (k := s.joined) (fun _ hd => by cases hd)
        ⟨rfl, rfl, rfl, hidle⟩ hses (.host nofun)
  | awaitIdle =>
      exact .stays (k := s.joined) (fun _ hd => by cases hd)
        ⟨rfl, rfl, rfl, hidle⟩ hses (.host nofun)
  | cancel =>
      obtain ⟨lines, heq⟩ := cancel_spec w
      show Moves c w s .cancel w.cancel
      rw [heq, hses]
      exact .lowers ⟨rfl, rfl, rfl, hidle⟩ rfl
  | kill n =>
      show Moves c w s (.kill n) (w.killCall n)
      rcases h.killCall_spec n with ⟨hshut, heq⟩ | ⟨-, hcur, heq⟩ |
        ⟨s', timers, ready, -, hses', hcall, heq, -⟩
      · have hne : n ≠ s.call := by
          rintro rfl
          rw [(h.flight hidle hses).call] at hshut
          cases hshut
        rw [heq]
        exact .stays (k := s.joined)
          (fun k hk => by cases hk; exact hne) (.refl hidle) hses
          (.host nofun)
      · have hne : n ≠ s.call := by
          rintro rfl
          exact hcur (by simp [current, hidle, hses])
        rw [heq]
        exact .stays (k := s.joined)
          (fun k hk => by cases hk; exact hne) ⟨rfl, rfl, rfl, hidle⟩ hses
          (.host nofun)
      · rw [hses] at hses'
        cases hses'
        rw [heq, ← hcall]
        exact .dooms ⟨rfl, rfl, rfl, hidle⟩ rfl
  | put name a => exact .puts

/-- No move changes whose session it is. -/
theorem Moves.call {v : World} {d : Deed} (h : Moves c w s d v)
    (hses : w.session = some s) :
    ∃ s', v.session = some s' ∧ s'.call = s.call := by
  cases h with
  | stays _ _ hs => exact ⟨_, hs, rfl⟩
  | lowers _ hs => exact ⟨_, hs, rfl⟩
  | puts => exact ⟨s, hses, rfl⟩
  | dooms _ hs => exact ⟨_, hs, rfl⟩
  | acts _ _ _ _ _ _ _ _ _ _ _ _ hs => exact ⟨_, hs, rfl⟩
  | attends _ _ _ _ _ _ _ hs => exact ⟨_, hs, rfl⟩
  | stumbles _ _ _ _ _ _ _ _ hs => exact ⟨_, hs, rfl⟩
  | setsOut _ _ _ _ _ _ hs => exact ⟨_, hs, rfl⟩
  | dies _ _ _ _ hs => exact ⟨_, hs, rfl⟩
  | dozes _ _ _ _ _ _ _ _ hs => exact ⟨_, hs, rfl⟩
  | drowses _ _ _ _ _ _ _ hs => exact ⟨_, hs, rfl⟩
  | leaves _ _ _ _ hs hcall => exact ⟨_, hs, hcall⟩

/-! ## What a move does to one part -/

/-- What a deed makes of the part of one agent. -/
inductive Alters (c : Coordinator) (w : World) (s : Session)
    (t : AgentTask) : AgentTask → Prop
  | stays : Alters c w s t t
  | dooms : Alters c w s t { t with doomed := true }
  | acts {walker : Walker} {a : Agent} {n : Step} {e : Verdict}
      (walks : t.walker = some walker) (goes : t.ending = none)
      (unshown : t.showing = none) (known : w.agent? t.agentId = some a)
      (step : n = walker.step (scene c) w.now s.running a)
      (judged : e = verdict c.observer.prompt w.shown.length w.now n.agent
        s.running n.signal) :
      Alters c w s t { t with
        walker := some n.walker
        showing := c.observer.errand? w.shown.length e.shown
        ending := e.outcome.map (Outcome.toEnd t.doomed) }
  | attends {walker : Walker} {e : Errand} {showing : Option Errand}
      (walks : t.walker = some walker) (goes : t.ending = none)
      (shown : t.showing = some e) (leaves : e.Leaves showing) :
      Alters c w s t { t with showing := showing }
  | stumbles {walker : Walker} {e : Errand} (walks : t.walker = some walker)
      (goes : t.ending = none) (shown : t.showing = some e)
      (rude : e.fails = true) :
      Alters c w s t { t with
        showing := none, ending := some (.failed .observerFailed) }
  | setsOut {ceiling : Value} (waits : t.walker = none)
      (goes : t.ending = none)
      (accepted : checkCeiling c.config.loopCeiling = .ok ceiling) :
      Alters c w s t { t with walker := some (.start t.program) }
  | dies {e : AgentEnd} (goes : t.ending = none)
      (why : e = .killed ∧ t.doomed = true ∨ ∃ f,
        checkCeiling c.config.loopCeiling = .error f ∧ e = .failed f) :
      Alters c w s t { t with showing := none, ending := some e }

/-- Nobody joins or leaves a session, and each part is altered by itself. -/
theorem Moves.alters {v : World} {d : Deed} {s' : Session}
    (h : Moves c w s d v) (hses : w.session = some s)
    (hs' : v.session = some s') :
    s'.tasks.length = s.tasks.length
      ∧ ∀ {i : Nat} {t' : AgentTask}, s'.tasks[i]? = some t' →
        ∃ t, s.tasks[i]? = some t ∧ Alters c w s t t' := by
  have hkeep : ∀ u : Session, v.session = some u → u.tasks = s.tasks →
      s'.tasks.length = s.tasks.length
        ∧ ∀ {i : Nat} {t' : AgentTask}, s'.tasks[i]? = some t' →
          ∃ t, s.tasks[i]? = some t ∧ Alters c w s t t' := by
    intro u hu htasks
    obtain rfl := Option.mem_unique hs' hu
    rw [htasks]
    exact ⟨rfl, fun ht' => ⟨_, ht', .stays⟩⟩
  have hmodify : ∀ (i : Nat) (t : AgentTask) (f : AgentTask → AgentTask)
      (u : Session), v.session = some u → u.tasks = s.tasks.modify i f →
      s.tasks[i]? = some t → Alters c w s t (f t) →
      s'.tasks.length = s.tasks.length
        ∧ ∀ {i : Nat} {t' : AgentTask}, s'.tasks[i]? = some t' →
          ∃ t, s.tasks[i]? = some t ∧ Alters c w s t t' := by
    intro i t f u hu htasks ht hf
    obtain rfl := Option.mem_unique hs' hu
    rw [htasks]
    refine ⟨List.length_modify .., fun ht' => ?_⟩
    rcases modify_getElem? ht' with ⟨rfl, x, hx, rfl⟩ | ⟨-, hx⟩
    · obtain rfl := Option.mem_unique ht hx
      exact ⟨t, ht, hf⟩
    · exact ⟨_, hx, .stays⟩
  cases h with
  | stays _ _ hs => exact hkeep _ hs rfl
  | lowers _ hs => exact hkeep _ hs rfl
  | puts => exact hkeep _ hses rfl
  | dozes _ _ _ _ _ _ _ _ hs => exact hkeep _ hs rfl
  | drowses _ _ _ _ _ _ _ hs => exact hkeep _ hs rfl
  | leaves _ _ _ _ hs _ htasks => exact hkeep _ hs htasks
  | dooms _ hs =>
      obtain rfl := Option.mem_unique hs' hs
      refine ⟨by simp [doomFirst], fun ht' => ?_⟩
      obtain ⟨t, ht, rfl | rfl⟩ := doomFirst_getElem? ht'
      · exact ⟨_, ht, .stays⟩
      · exact ⟨t, ht, .dooms⟩
  | acts _ ht hwalk hend hshow ha hn he _ _ _ _ hs =>
      exact hmodify _ _ _ _ hs rfl ht (.acts hwalk hend hshow ha hn he)
  | attends _ ht hwalk hend hshow hleaves _ hs =>
      exact hmodify _ _ _ _ hs rfl ht (.attends hwalk hend hshow hleaves)
  | stumbles _ ht hwalk hend hshow _ hrude _ hs =>
      exact hmodify _ _ _ _ hs rfl ht (.stumbles hwalk hend hshow hrude)
  | setsOut ht hwalk hend _ hceiling _ hs =>
      exact hmodify _ _ _ _ hs rfl ht (.setsOut hwalk hend hceiling)
  | dies ht hend hwhy _ hs =>
      refine hmodify _ _ _ _ hs rfl ht (.dies hend ?_)
      rcases hwhy with ⟨hdoom, rfl⟩ | ⟨-, -, hfails⟩
      · exact .inl ⟨rfl, hdoom⟩
      · exact .inr hfails

/-- Every part that is there has come of one that was there. -/
theorem Moves.altered {v : World} {d : Deed} {s' : Session}
    (h : Moves c w s d v) (hses : w.session = some s)
    (hs' : v.session = some s') {t' : AgentTask} (ht' : t' ∈ s'.tasks) :
    ∃ t ∈ s.tasks, Alters c w s t t' := by
  obtain ⟨i, hi⟩ := List.mem_iff_getElem?.1 ht'
  obtain ⟨t, ht, halters⟩ := (h.alters hses hs').2 hi
  exact ⟨t, List.mem_of_getElem? ht, halters⟩

/-- A call that has ended stays as it ended. -/
theorem Orderly.shut_after (h : Orderly w) {n : Nat}
    (hshut : w.isShut n = true) (d : Deed) :
    (w.after c d).isShut n = true := by
  unfold isShut at hshut ⊢
  cases hcall : w.calls[n]? with
  | none => simp [hcall] at hshut
  | some call =>
      obtain ⟨call', hcall', -, -, -, -, hend⟩ :=
        h.grows (c := c) d n call hcall
      rw [hcall] at hshut
      rw [hcall']
      have hsome : call.ending.isSome = true := by simpa using hshut
      simpa [hend hsome] using hsome

/-- The call of a session is in flight until it has ended. -/
theorem Orderly.known_after (h : Orderly w) {n : Nat} {d : Deed}
    (hd : w.Admits d) (hn : w.current = some n ∨ w.isShut n = true) :
    (w.after c d).current = some n ∨ (w.after c d).isShut n = true := by
  rcases hn with hcur | hshut
  · obtain ⟨hidle, s, hs, rfl⟩ := current_eq_some.1 hcur
    have hmoves := h.moves (c := c) hidle hs d
    have ho' : Orderly (w.after c d) := h.after hd
    obtain ⟨s', hs', hcall⟩ := hmoves.call hs
    cases hi : (w.after c d).idle with
    | false => exact .inl (current_eq_some.2 ⟨hi, s', hs', hcall⟩)
    | true =>
        have hshut := ((ho'.resting hi).2 s' hs').2.2
        rw [hcall] at hshut
        exact .inr hshut
  · exact .inr (h.shut_after hshut d)

omit [Arithmetic] in
/-- Once its call has ended a session is not in flight. -/
theorem Orderly.shut_idle (h : Orderly w) (hses : w.session = some s)
    (hshut : w.isShut s.call = true) : w.idle = true := by
  by_contra hno
  have hopen := (h.flight (by simpa using hno) hses).call
  rw [isOpen_of_isShut hshut] at hopen
  cases hopen

/-- Once the call of a session has ended, the session stays as it is until
    another one begins. -/
theorem Orderly.rests (h : Orderly w) {n : Nat} (hshut : w.isShut n = true)
    {d : Deed} (hd : w.Admits d) {s' : Session}
    (hs' : (w.after c d).session = some s') (hcall : s'.call = n) :
    w.idle = true ∧ (w.after c d).idle = true ∧ w.session = some s' := by
  have ho' : Orderly (w.after c d) := h.after hd
  subst hcall
  have hidle' := ho'.shut_idle hs' (h.shut_after hshut d)
  cases hidle : w.idle with
  | false =>
      obtain ⟨s, hs, -⟩ := h.flying hidle
      obtain ⟨u, hu, heq⟩ := (h.moves (c := c) hidle hs d).call hs
      obtain rfl := Option.mem_unique hs' hu
      have := h.shut_idle hs (heq ▸ hshut)
      rw [hidle] at this
      cases this
  | true =>
      obtain ⟨htouch, -⟩ := h.untouched (c := c) hidle (d := d)
      refine ⟨rfl, hidle', ?_⟩
      rcases htouch.session with hsame | ⟨s, hs, hopen⟩
      · exact hsame.symm.trans hs'
      · obtain rfl := Option.mem_unique hs' hs
        rw [isOpen_of_isShut hshut] at hopen
        cases hopen

/-- What every move of a session keeps, and every deed once its call has
    ended, holds of it along a course until another session begins. -/
theorem Course.since {u v : World} {ds : List Deed}
    (hcourse : Course c u ds v) (hu : Reachable c u) {n : Nat}
    (hn : u.current = some n ∨ u.isShut n = true)
    {Q : World → Session → Prop}
    (h : ∀ s, u.session = some s → s.call = n → Q u s)
    (moves : ∀ (x : World) (es : List Deed) (d : Deed) (s s' : Session),
      Course c u es x → (∀ e ∈ es, e ∈ ds) → d ∈ ds → x.Admits d →
      x.session = some s → s.call = n → x.idle = false → Q x s →
      (x.after c d).session = some s' → Moves c x s d (x.after c d) →
      Q (x.after c d) s')
    (rests : ∀ (x : World) (d : Deed) (s : Session), Reachable c x →
      d ∈ ds → x.session = some s → s.call = n → x.idle = true →
      (x.after c d).idle = true → Q x s → Q (x.after c d) s) {s : Session}
    (hses : v.session = some s) (hcall : s.call = n) : Q v s := by
  suffices hkeep : (v.current = some n ∨ v.isShut n = true)
      ∧ ∀ s, v.session = some s → s.call = n → Q v s from
    hkeep.2 s hses hcall
  clear hses hcall
  induction hcourse with
  | nil => exact ⟨hn, h⟩
  | @snoc x es d hes hd ih =>
      have hreach := hu.course hes
      have ho := hreach.orderly
      have hmem : d ∈ es ++ [d] :=
        List.mem_append_right _ (List.mem_singleton_self d)
      obtain ⟨hknown, hx⟩ := ih
        (fun x es' d' s s' hc hsub hd' => moves x es' d' s s' hc
          (fun e he => List.mem_append_left _ (hsub e he))
          (List.mem_append_left _ hd'))
        fun x d' s hr hd' => rests x d' s hr (List.mem_append_left _ hd')
      refine ⟨ho.known_after hd hknown, fun s' hs' hcall => ?_⟩
      rcases hknown with hcur | hshut
      · obtain ⟨hidle, s, hs, hn'⟩ := current_eq_some.1 hcur
        exact moves _ es d s s' hes (fun e he => List.mem_append_left _ he)
          hmem hd hs hn' hidle (hx s hs hn') hs' (ho.moves hidle hs d)
      · obtain ⟨hidle, hidle', hs⟩ := ho.rests hshut hd hs' hcall
        exact rests x d s' hreach hmem hs hcall hidle hidle' (hx s' hs hcall)

/-- What every move of a session keeps, and only depends on the session and
    on what was shown, holds of it along a course until another session
    begins. -/
theorem Course.session {u v : World} {ds : List Deed}
    (hcourse : Course c u ds v)
    (hu : Reachable c u) {n : Nat}
    (hn : u.current = some n ∨ u.isShut n = true)
    {Q : Session → List Event → Prop}
    (h : ∀ s, u.session = some s → s.call = n → Q s u.shown)
    (moves : ∀ (x : World) (es : List Deed) (d : Deed) (s s' : Session),
      Course c u es x → (∀ e ∈ es, e ∈ ds) → d ∈ ds → x.Admits d →
      x.session = some s → s.call = n → x.idle = false → Q s x.shown →
      (x.after c d).session = some s' → Moves c x s d (x.after c d) →
      Q s' (x.after c d).shown) {s : Session} (hses : v.session = some s)
    (hcall : s.call = n) : Q s v.shown := by
  refine hcourse.since hu hn (Q := fun x s => Q s x.shown) h moves ?_ hses
    hcall
  intro x d s hx _ _ _ hidle _ hQ
  obtain ⟨htouch, -⟩ := hx.orderly.untouched (c := c) hidle (d := d)
  rw [htouch.shown]
  exact hQ

/-- What holds of every session that opens, and is kept by every move,
    holds of every session in flight. -/
theorem Reachable.flights {P : World → Session → Prop} (h : Reachable c w)
    (opens : ∀ (u v : World) (n : Nat) (cast : List String)
      (programs : List (String × Program))
      (warnings : List (String × List WarningReport)),
      P v (u.opened n cast programs warnings))
    (moves : ∀ (u : World) (d : Deed) (s s' : Session), Reachable c u →
      u.Admits d → u.session = some s → u.idle = false → P u s →
      (u.after c d).session = some s' → Moves c u s d (u.after c d) →
      P (u.after c d) s')
    (hidle : w.idle = false) (hses : w.session = some s) : P w s := by
  obtain ⟨agents, ds, hcourse⟩ := h
  refine (hcourse.keeps (P := fun u => Reachable c u ∧ (u.idle = false →
    ∀ s, u.session = some s → P u s))
    ⟨⟨agents, [], .nil _⟩, fun hno => by cases hno⟩ ?_).2 hidle s hses
  rintro u d ⟨hreach, hu⟩ hd -
  have ho := hreach.orderly
  refine ⟨hreach.course (.single hd), fun hflies s' hs' => ?_⟩
  cases hi : u.idle with
  | false =>
      obtain ⟨s, hs, -⟩ := ho.flying hi
      exact moves u d s s' hreach hd hs hi (hu hi s hs) hs' (ho.moves hi hs d)
  | true =>
      obtain ⟨rfl, n, call, rest, programs, warnings, hround, hcall,
        hspared, hprograms, hcast⟩ := ho.opens hi hflies
      obtain ⟨lines, heq⟩ := ho.begins_turn hi hround hcall hspared
        hprograms hcast
      have hopened : (u.after c .turn).session
          = some (u.opened n call.cast programs warnings) := by rw [heq]
      rw [hopened] at hs'
      exact Option.some.inj hs' ▸ opens _ _ _ _ _ _

/-- Nobody is shown before it has set out. -/
theorem Reachable.unshown (h : Reachable c w) (hidle : w.idle = false)
    (hses : w.session = some s) :
    ∀ t ∈ s.tasks, t.walker = none → t.showing = none := by
  refine h.flights (P := fun _ s => ∀ t ∈ s.tasks, t.walker = none →
    t.showing = none) ?_ ?_ hidle hses
  · intro u v n cast programs warnings t ht _
    obtain ⟨id, -, rfl⟩ := List.mem_map.1
      (show t ∈ freshTasks cast programs from ht)
    rfl
  · intro u d s s' _ _ hs _ hold hs' hmoves t' ht' hno
    obtain ⟨t, ht, halters⟩ := hmoves.altered hs hs' ht'
    cases halters with
    | stays => exact hold _ ht hno
    | dooms => exact hold t ht hno
    | acts => cases hno
    | attends hwalk => rw [hwalk] at hno; cases hno
    | stumbles => rfl
    | setsOut => cases hno
    | dies => rfl

end World

end BlockStage
