import BlockStage.Compile.Forest
import BlockStage.Run.Solo
import BlockStage.Session.Result

/-! # Sessions — many agents on one clock

    A coordinator runs the programs of many agents at once on one thread:
    the agents take turns, and each turn lasts until its agent sleeps, or
    the observer that it shows a snapshot to does, or it is over.  The
    world holds the clock, the queue of turns to come, the sleepers, the
    agents, the session in flight or last finished, and everything that can
    be seen from outside. -/

namespace BlockStage

/-- How the handler of completions behaves. -/
inductive HandlerMode where
  /-- There is none. -/
  | absent
  /-- It sleeps, if it does, then it records the completion, and then it may
      raise an error. -/
  | present (errand : Errand)
deriving DecidableEq

/-- What a coordinator is made with. -/
structure Coordinator where
  /-- The settings of the stage. -/
  config : Config
  /-- The goal, if there is one. -/
  goal : Option GoalRegion
  /-- The observer of all agents. -/
  observer : Observer
  /-- The handler of completions. -/
  handler : HandlerMode

/-- What compilation needs to know of the settings. -/
def Config.target (c : Config) : Target :=
  ⟨c.mode.isGrid, c.loopCeiling⟩

/-- What an agent is to run: blocks or their written form. -/
inductive Forest where
  | nodes (blocks : List Block)
  | source (v : Value)

/-- What a call to the coordinator brings along. -/
inductive Script where
  /-- A program for each of some agents. -/
  | programs (ps : List (String × Program))
  /-- A forest for each of some agents, to be compiled. -/
  | forests (fs : List (String × Forest))

/-- How an agent's part of a session ended. -/
inductive AgentEnd where
  /-- At the end of its program or at a check. -/
  | returned
  /-- With a fault. -/
  | failed (f : RunFault)
  /-- By the end of the call it belonged to. -/
  | killed

/-- An agent's part of a session. -/
structure AgentTask where
  /-- The name the host knows the agent by. -/
  agentId : String
  /-- The program it was given. -/
  program : Program
  /-- What is left to do, once it has begun. -/
  walker : Option Walker
  /-- What the observer still has to do, while it is shown a snapshot. -/
  showing : Option Errand
  /-- Whether it must end when it next gives up its turn. -/
  doomed : Bool
  /-- How it ended, once it has. -/
  ending : Option AgentEnd

/-- One session. -/
structure Session where
  /-- The number of the call that it belongs to. -/
  call : Nat
  /-- The parts of its agents, in their order. -/
  tasks : List AgentTask
  /-- How many ends the join has noticed. -/
  joined : Nat
  /-- The running flag. -/
  running : Bool
  /-- When it started. -/
  startedAt : Time
  /-- The compile warnings that its result will carry. -/
  warnings : List (String × List WarningReport)
  /-- Its result, once it has one. -/
  result : Option SessionResult
  /-- Whether the completion was announced. -/
  completionFired : Bool
  /-- What the handler of the completion still has to do, once it has been
      called. -/
  handling : Option Errand

/-- How a call to the coordinator ended. -/
inductive CallEnd where
  /-- With the result of its session. -/
  | returned (r : SessionResult)
  /-- At once, because another session was in flight. -/
  | rejected
  /-- At once, because a forest could not be compiled. -/
  | uncompiled (f : BlockFault)
  /-- With a fault while the result was made. -/
  | failed (f : RunFault)
  /-- By its host. -/
  | killed

/-- A call to the coordinator, running as a task of its host. -/
structure Call where
  /-- What is to be run. -/
  script : Script
  /-- The agents that take part, in their order. -/
  cast : List String
  /-- Whether it must end at its next turn. -/
  doomed : Bool
  /-- How it ended, once it has. -/
  ending : Option CallEnd

/-- How far a waiter for idleness has come. -/
inductive Waiter where
  /-- It has not asked yet whether it has to wait. -/
  | asks
  /-- It waits. -/
  | waits
  /-- It has been told to go on. -/
  | woken
  /-- It waits no longer. -/
  | released
deriving DecidableEq

/-- Turns to come. -/
inductive Job where
  /-- A call begins. -/
  | begin (call : Nat)
  /-- An agent of the session goes on. -/
  | agent (index : Nat)
  /-- The join notices the end of one agent. -/
  | noticed
  /-- The call goes on after the join. -/
  | join
  /-- The handler goes on after a sleep. -/
  | handled
  /-- A waiter for idleness looks whether it has to wait. -/
  | ask (waiter : Nat)
  /-- A waiter for idleness goes on. -/
  | release (waiter : Nat)
  /-- A sleeper is woken. -/
  | wake (sleeper : Job)

/-- A sleep that is to end. -/
structure Timer where
  /-- When it is to end. -/
  due : Time
  /-- The turn that its end makes possible. -/
  sleeper : Job

/-- An announced completion and when the handler recorded it. -/
structure Completion where
  /-- When it was recorded. -/
  time : Time
  /-- What was announced. -/
  event : CompletionEvent
deriving DecidableEq

/-- Everything there is while a host uses a coordinator. -/
structure World where
  /-- The clock. -/
  now : Time
  /-- The agent whose turn it is. -/
  active : Option Nat
  /-- The turns of this round that are still to come. -/
  round : List Job
  /-- The turns of the next round. -/
  ready : List Job
  /-- The sleeps to come, the first to end first. -/
  timers : List Timer
  /-- All agents, those of other sessions included, each under the name
      the host knows it by. -/
  agents : List (String × Agent)
  /-- The session in flight or last finished. -/
  session : Option Session
  /-- Whether no session is in flight. -/
  idle : Bool
  /-- All calls, by number. -/
  calls : List Call
  /-- All waiters for idleness, by number. -/
  waiters : List Waiter
  /-- The snapshots shown so far, the latest first. -/
  shown : List Event
  /-- The completions recorded so far, the latest first. -/
  completed : List Completion
  /-- The lines reported so far, the latest first. -/
  reported : List LogLine

namespace World

/-- A world in which nothing has happened. -/
def initial (agents : List (String × Agent)) : World where
  now := .finite 0
  active := none
  round := []
  ready := []
  timers := []
  agents := agents
  session := none
  idle := true
  calls := []
  waiters := []
  shown := []
  completed := []
  reported := []

/-- The agent of a name. -/
def agent? (w : World) (id : String) : Option Agent :=
  w.agents.lookup id

/-- The agent of a name replaced. -/
def setAgent (w : World) (id : String) (a : Agent) : World :=
  { w with
    agents := w.agents.map fun b => if b.1 = id then (id, a) else b }

/-- A line reported by the coordinator. -/
def report (w : World) (level : Level) (what : String) : World :=
  { w with reported := ⟨level, .coordinator, .ok what⟩ :: w.reported }

/-- A turn put at the end of the next round. -/
def enqueue (w : World) (j : Job) : World :=
  { w with ready := w.ready ++ [j] }

/-- The session changed, if there is one. -/
def withSession (w : World) (f : Session → Session) : World :=
  { w with session := w.session.map f }

/-- Whether a session is in flight with its running flag up. -/
def isRunning (w : World) : Bool :=
  (w.session.map (·.running)).getD false

/-- One agent's part of the session changed. -/
def withTask (w : World) (i : Nat) (f : AgentTask → AgentTask) : World :=
  w.withSession fun s => { s with tasks := s.tasks.modify i f }

/-- A call changed. -/
def withCall (w : World) (n : Nat) (f : Call → Call) : World :=
  { w with calls := w.calls.modify n f }

/-- The end of a call. -/
def endCall (w : World) (n : Nat) (e : CallEnd) : World :=
  w.withCall n fun c => { c with ending := some e }

/-- The snapshots in the order in which they were shown. -/
def events (w : World) : List Event := w.shown.reverse

/-- The completions in the order in which they were recorded. -/
def completions (w : World) : List Completion := w.completed.reverse

/-- The lines in the order in which they were reported. -/
def log (w : World) : List LogLine := w.reported.reverse

end World

end BlockStage
