import BlockStage.Session.Host

/-! # Courses — everything that can happen around a coordinator

    A course is a sequence of deeds.  The event loop takes its smallest
    step, time passes, or the host does one of the things it can do: it
    starts a call, waits for idleness, asks for cancellation, kills a call,
    or changes an agent.  The host lives on the same thread, so it acts
    between two turns or from inside its own observer, while that is shown
    a snapshot; time may pass at any moment.

    Nothing about the order of deeds is fixed, so what holds along every
    course holds for every host and for every duration of every step. -/

namespace BlockStage

/-- One thing that can happen. -/
inductive Deed where
  /-- The event loop takes its smallest step. -/
  | turn
  /-- Time passes, until the clock shows a moment. -/
  | elapse (moment : Time)
  /-- The host starts a call. -/
  | call (script : Script) (cast : List String)
  /-- The host waits for idleness. -/
  | awaitIdle
  /-- The host asks for cancellation. -/
  | cancel
  /-- The host kills a call. -/
  | kill (call : Nat)
  /-- The host puts an agent where it likes. -/
  | put (name : String) (a : Agent)

namespace World

variable [Arithmetic]

/-- The world after a deed. -/
def after (c : Coordinator) (w : World) : Deed → World
  | .turn => w.step c
  | .elapse t => { w with now := t }
  | .call script cast => w.call script cast
  | .awaitIdle => w.awaitIdle
  | .cancel => w.cancel
  | .kill n => w.killCall n
  | .put name a => w.setAgent name a

/-- Whether the host can act: between two turns, or while the observer is
    shown a snapshot of the agent whose turn it is. -/
def hostActs (w : World) : Bool :=
  match w.active with
  | none => true
  | some i => ((w.task? i).bind (·.showing)).isSome

/-- Whether a deed can be done: the clock never runs backwards and always
    shows a moment, so that a sleep without an end is never over; a host
    acts when it can, and it sends known agents onto the stage, each of
    them once. -/
def Admits (w : World) : Deed → Prop
  | .turn => w.active = none → w.round.isEmpty → w.nextTime.isFinite = true
  | .elapse t => w.now.le t = true ∧ t.isFinite = true
  | .call _ cast =>
      w.hostActs = true ∧ cast.Nodup
        ∧ ∀ id ∈ cast, id ∈ w.agents.map (·.1)
  | .awaitIdle => w.hostActs = true
  | .cancel => w.hostActs = true
  | .kill _ => w.hostActs = true
  | .put _ _ => w.hostActs = true

instance (w : World) : (d : Deed) → Decidable (w.Admits d)
  | .turn => inferInstanceAs (Decidable (w.active = none →
      w.round.isEmpty → w.nextTime.isFinite = true))
  | .elapse t => inferInstanceAs
      (Decidable (w.now.le t = true ∧ t.isFinite = true))
  | .call _ cast => inferInstanceAs (Decidable (w.hostActs = true
      ∧ cast.Nodup ∧ ∀ id ∈ cast, id ∈ w.agents.map (·.1)))
  | .awaitIdle => inferInstanceAs (Decidable (w.hostActs = true))
  | .cancel => inferInstanceAs (Decidable (w.hostActs = true))
  | .kill _ => inferInstanceAs (Decidable (w.hostActs = true))
  | .put _ _ => inferInstanceAs (Decidable (w.hostActs = true))

omit [Arithmetic] in
/-- The host can act between two turns. -/
theorem hostActs_between {w : World} (h : w.active = none) :
    w.hostActs = true := by
  simp only [hostActs, h]

omit [Arithmetic] in
/-- While turns are to come in a round, one can be taken. -/
theorem admits_turn {w : World} {j : Job} {rest : List Job}
    (h : w.round = j :: rest) : w.Admits .turn := by
  intro _ hempty
  rw [h] at hempty
  cases hempty

/-- Deeds done one after the other, `none` if one of them cannot be. -/
def follow (c : Coordinator) (w : World) : List Deed → Option World
  | [] => some w
  | d :: ds => if w.Admits d then (w.after c d).follow c ds else none

/-- One world leads to another by a sequence of deeds. -/
inductive Course (c : Coordinator) : World → List Deed → World → Prop
  | nil (w : World) : Course c w [] w
  | snoc {w v : World} {ds : List Deed} (d : Deed) :
      Course c w ds v → v.Admits d → Course c w (ds ++ [d]) (v.after c d)

/-- Worlds that some host can bring about. -/
def Reachable (c : Coordinator) (w : World) : Prop :=
  ∃ agents ds, Course c (initial agents) ds w

variable {c : Coordinator} {w u v : World} {ds es : List Deed}

/-- A course of one deed. -/
theorem Course.single {d : Deed} (h : w.Admits d) :
    Course c w [d] (w.after c d) :=
  .snoc d (.nil w) h

/-- Courses follow one another. -/
theorem Course.trans (h : Course c w ds u) (g : Course c u es v) :
    Course c w (ds ++ es) v := by
  induction g with
  | nil => rw [List.append_nil]; exact h
  | snoc d _ hd ih =>
      rw [← List.append_assoc]
      exact .snoc d ih hd

/-- Deeds that can be done make a course. -/
theorem Course.follow (h : w.follow c ds = some v) : Course c w ds v := by
  induction ds generalizing w with
  | nil =>
      cases h
      exact .nil _
  | cons d ds ih =>
      unfold World.follow at h
      split at h
      · rename_i hd
        exact (Course.single hd).trans (ih h)
      · cases h

/-- Deeds that can be done lead to the world they are followed to. -/
theorem Course.followed (u : World) (h : (w.follow c ds).isSome = true) :
    Course c w ds ((w.follow c ds).getD u) := by
  obtain ⟨v, hv⟩ := Option.isSome_iff_exists.1 h
  rw [hv]
  exact Course.follow hv

/-- What every deed keeps holds all along a course. -/
theorem Course.keeps {P : World → Prop} (h : Course c w ds v) (hw : P w)
    (step : ∀ u d, P u → u.Admits d → d ∈ ds → P (u.after c d)) : P v := by
  induction h with
  | nil => exact hw
  | snoc d _ hd ih =>
      have hu := ih fun x e hx he hmem =>
        step x e hx he (List.mem_append_left _ hmem)
      exact step _ d hu hd
        (List.mem_append_right _ (List.mem_singleton.2 rfl))

/-- A course goes on from a reachable world to a reachable one. -/
theorem Reachable.course (h : Reachable c w) (g : Course c w ds v) :
    Reachable c v := by
  obtain ⟨agents, es, he⟩ := h
  exact ⟨agents, es ++ ds, he.trans g⟩

end World

end BlockStage
