import BlockStage.Session.Schedule

/-! # What a host can do

    A host starts calls, lets time pass, asks for cancellation, kills its
    calls, waits for idleness and puts agents where it likes.  A kill dooms
    a call wherever it is: before it has begun, while it waits for its
    agents, who are then doomed with it, or in the sleep of the handler. -/

namespace BlockStage

namespace World

/-- A new call, which begins in the next round. -/
def call (w : World) (script : Script) (cast : List String) : World :=
  let new : Call := ⟨script, cast, false, none⟩
  { w with calls := w.calls ++ [new] }.enqueue (.begin w.calls.length)

/-- A new waiter for idleness, which asks in the next round. -/
def awaitIdle (w : World) : World :=
  { w with waiters := w.waiters ++ [Waiter.asks] }.enqueue
    (.ask w.waiters.length)

/-- Whether a timer wakes an agent of the session. -/
def wakesAgent (i : Nat) (t : Timer) : Bool :=
  match t.sleeper with
  | .agent j => i = j
  | _ => false

/-- Whether a timer wakes the call in the sleep of its handler. -/
def wakesHandler (t : Timer) : Bool :=
  match t.sleeper with
  | .handled => true
  | _ => false

/-- A sleep broken off, if there is one: its turn comes in the next
    round. -/
def rouse (w : World) (wakes : Timer → Bool) (j : Job) : World :=
  if w.timers.any wakes then
    { w with timers := w.timers.filter fun t => !wakes t }.enqueue j
  else w

/-- The end of an agent's part at its next turn, which comes at once if
    the agent sleeps, or the observer that it has shown a snapshot to. -/
def doomTask (w : World) (i : Nat) : World :=
  match w.task? i with
  | none => w
  | some t =>
      if t.ending.isSome then w
      else
        (w.withTask i fun t => { t with doomed := true }).rouse
          (wakesAgent i) (.agent i)

/-- The end of a call at its next turn, and of what it waits for. -/
def killCall (w : World) (n : Nat) : World :=
  match w.calls[n]? with
  | none => w
  | some c =>
      if c.ending.isSome then w
      else
        let w := w.withCall n fun c => { c with doomed := true }
        match w.session with
        | none => w
        | some s =>
            if s.call = n then
              let w := (List.range s.tasks.length).foldl doomTask w
              w.rouse wakesHandler .handled
            else w

/-- The end of every call. -/
def kill (w : World) : World :=
  (List.range w.calls.length).foldl killCall w

/-- The last waiter has been released. -/
def lastWaiterReleased (w : World) : Bool :=
  w.waiters.getLast? = some .released

end World

end BlockStage
