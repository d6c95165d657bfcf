import BlockStage.Proofs.Session.Upkeep

/-! # Queues — nothing that waits is lost

    A turn leaves the clock and the rest of the round alone and only adds
    turns and sleeps; the host adds turns, and a sleep that it breaks off
    leads to a turn.  Only the start of a round moves turns about. -/

namespace BlockStage

namespace World

/-! ## What turns leave alone -/

/-- The clock and the rest of the round stay as they are, turns are only
    added at the end, sleeps are only added, and no waiter is taken back. -/
structure Adds (w v : World) : Prop where
  now : v.now = w.now
  round : v.round = w.round
  ready : w.ready <+: v.ready
  timers : ∀ t ∈ w.timers, t ∈ v.timers
  waiters : w.waiters.length ≤ v.waiters.length

namespace Adds

variable {u w v : World}

theorem refl (w : World) : Adds w w :=
  ⟨rfl, rfl, List.prefix_rfl, fun _ h => h, Nat.le_refl _⟩

theorem trans (h : Adds u w) (g : Adds w v) : Adds u v := by
  exact ⟨g.now.trans h.now, g.round.trans h.round,
    h.ready.trans g.ready, fun t ht => g.timers t (h.timers t ht),
    h.waiters.trans g.waiters⟩

/-- Nothing is touched that waits. -/
theorem of_eq (hn : v.now = w.now) (hr : v.round = w.round)
    (hq : v.ready = w.ready) (ht : v.timers = w.timers)
    (hk : v.waiters = w.waiters) : Adds w v :=
  ⟨hn, hr, hq ▸ List.prefix_rfl, fun _ h => ht ▸ h, by rw [hk]⟩

theorem enqueue (w : World) (j : Job) : Adds w (w.enqueue j) :=
  ⟨rfl, rfl, List.prefix_append _ _, fun _ h => h, Nat.le_refl _⟩

/-- A waiter comes further. -/
theorem setWaiter (w : World) (k : Nat) (state : Waiter) :
    Adds w (w.setWaiter k state) :=
  ⟨rfl, rfl, List.prefix_rfl, fun _ h => h, (List.length_set).ge⟩

theorem becomeIdle (w : World) : Adds w w.becomeIdle :=
  ⟨rfl, rfl, List.prefix_append _ _, fun _ h => h, (List.length_map _).ge⟩

/-- A call that leaves lets the waiters go on. -/
theorem leave (w : World) (n : Nat) (e : CallEnd) : Adds w (w.leave n e) :=
  (of_eq rfl rfl rfl rfl rfl : Adds w (w.endCall n e)).trans (becomeIdle _)

theorem endTask (w : World) (i : Nat) (e : AgentEnd) :
    Adds w (w.endTask i e) :=
  ⟨rfl, rfl, List.prefix_append _ _, fun _ h => h, Nat.le_refl _⟩

theorem failTask (w : World) (i : Nat) (id : String) (f : RunFault) :
    Adds w (w.failTask i id f) :=
  ⟨rfl, rfl, List.prefix_append _ _, fun _ h => h, Nat.le_refl _⟩

theorem cancel (w : World) : Adds w w.cancel := by
  obtain ⟨lines, heq⟩ := cancel_spec w
  rw [heq]
  exact of_eq rfl rfl rfl rfl rfl

theorem beginCall [Arithmetic] {c : Coordinator} (w : World) (n : Nat) (call : Call) :
    Adds w (w.beginCall c n call) := by
  cases beginCall_cases c w n call with
  | ends _ heq =>
      rw [heq]
      exact of_eq rfl rfl rfl rfl rfl
  | opens _ _ _ _ heq =>
      rw [heq]
      exact ⟨rfl, rfl, List.prefix_append _ _, fun _ h => h, Nat.le_refl _⟩
  | passes _ _ _ _ heq =>
      rw [heq]
      refine trans ?_ (leave _ _ _)
      exact of_eq rfl rfl rfl rfl rfl

theorem turnTask {c : Coordinator} (w : World) (i : Nat) (t : AgentTask) :
    Adds w (w.turnTask c i t) := by
  cases turnTask_cases c w i t with
  | ended _ heq =>
      rw [heq]
      exact refl w
  | dies _ _ heq =>
      rw [heq]
      exact endTask w i _
  | goesOn _ _ _ heq =>
      rw [heq]
      exact of_eq rfl rfl rfl rfl rfl
  | setsOut _ _ _ _ heq =>
      rw [heq]
      exact of_eq rfl rfl rfl rfl rfl

/-- One more end noticed. -/
theorem notice (w : World) (s : Session) : Adds w (w.notice s) := by
  rw [notice_spec]
  exact ⟨rfl, rfl, List.prefix_append _ _, fun _ h => h, Nat.le_refl _⟩

section

variable [Arithmetic] {c : Coordinator}

theorem sleep (w : World) (seconds : Scalar) (j : Job) :
    Adds w (w.sleep seconds j) := by
  unfold World.sleep
  split
  · exact enqueue w j
  · refine ⟨rfl, rfl, List.prefix_rfl, fun t ht => ?_, Nat.le_refl _⟩
    exact (insertTimer_perm _ _).mem_iff.2 (List.mem_cons_of_mem _ ht)

theorem suspend (w : World) (i : Nat) (t : AgentTask) (seconds : Scalar) :
    Adds w (w.suspend i t seconds) :=
  (of_eq rfl rfl rfl rfl rfl : Adds w { w with active := none }).trans
    (sleep _ _ _)

/-- A signal of an agent. -/
theorem answer (w : World) (i : Nat) (t : AgentTask) (a : Agent)
    (signal : Signal) : Adds w (w.answer c i t a signal) := by
  cases signal with
  | proceed => exact refl w
  | finish => exact endTask w i _
  | halt => exact endTask w i _
  | fail f => exact failTask w i _ f
  | sleep seconds => exact suspend w i t seconds
  | emit =>
      show Adds w (w.observe c i t.agentId a)
      cases observe_cases c w i t.agentId a with
      | unseen _ heq =>
          rw [heq]
          exact refl w
      | unshown _ _ heq =>
          rw [heq]
          exact failTask w i _ _
      | @exhibited snapshot _ _ heq =>
          obtain ⟨lines, hexhibit⟩ := exhibit_spec c w snapshot
          rw [heq, hexhibit]
          exact of_eq rfl rfl rfl rfl rfl

/-- What the observer does next. -/
theorem attend (w : World) (i : Nat) (t : AgentTask) (e : Errand) :
    Adds w (w.attend i t e) := by
  have htask : ∀ f, Adds w (w.withTask i f) :=
    fun _ => of_eq rfl rfl rfl rfl rfl
  cases attend_cases w i t e with
  | rests _ heq =>
      rw [heq]
      exact (htask _).trans (suspend _ i t _)
  | done _ _ heq =>
      rw [heq]
      exact htask _
  | fails _ _ heq =>
      rw [heq]
      exact (htask _).trans (failTask _ i _ _)

/-- A call that is woken. -/
theorem woken {n : Nat} (h : Woken w n v) : Adds w v := by
  cases h with
  | stays heq =>
      rw [heq]
      exact refl w
  | leaves heq hu =>
      rw [heq]
      exact (of_eq hu.now hu.round hu.ready hu.timers hu.waiters).trans
        (leave _ _ _)
  | sleeps heq hu =>
      rw [heq]
      exact (of_eq hu.now hu.round hu.ready hu.timers hu.waiters).trans
        (sleep _ _ _)

/-- A turn that is taken. -/
theorem runJob (w : World) (j : Job) : Adds w (w.runJob c j) := by
  cases runJob_taken c w j with
  | idles _ heq =>
      rw [heq]
      exact refl w
  | begins _ heq =>
      rw [heq]
      exact beginCall _ _ _
  | agent _ heq =>
      rw [heq]
      exact turnTask _ _ _
  | notices _ heq =>
      rw [heq]
      exact notice _ _
  | joins _ heq =>
      rw [heq]
      exact woken (join_parts _ _ _)
  | handled _ heq =>
      rw [heq]
      exact woken (handled_parts _ _)
  | asks heq =>
      rw [heq]
      exact setWaiter _ _ _
  | releases heq =>
      rw [heq]
      exact setWaiter _ _ _
  | wakes heq =>
      rw [heq]
      exact enqueue _ _

/-- An act of the agent whose turn it is. -/
theorem act {w : World} {i : Nat} (ha : w.active = some i) :
    Adds w (w.step c) := by
  unfold World.step
  rw [ha]
  dsimp only
  split
  · exact of_eq rfl rfl rfl rfl rfl
  · split
    · exact attend _ _ _ _
    · exact of_eq rfl rfl rfl rfl rfl
    · unfold World.actTask
      split
      · exact of_eq rfl rfl rfl rfl rfl
      · refine trans ?_ (answer _ _ _ _ _)
        exact of_eq rfl rfl rfl rfl rfl

/-- A turn that is taken is taken out of the round. -/
theorem turn {w : World} {j : Job} {rest : List Job}
    (ha : w.active = none) (hround : w.round = j :: rest) :
    Adds { w with round := rest } (w.after c .turn) := by
  show Adds _ (w.step c)
  rw [step_turn ha hround]
  exact Adds.runJob _ j

end

end Adds

/-! ## What the host leaves alone -/

/-- Whose turn it is and the round stay, turns are only added at the end, no
    waiter is lost, and a sleep that is broken off leads to a turn. -/
structure Waits (w v : World) : Prop where
  active : v.active = w.active
  round : v.round = w.round
  ready : w.ready <+: v.ready
  timers : ∀ t ∈ w.timers, t ∈ v.timers ∨ t.sleeper ∈ v.ready
  waiters : w.waiters.length ≤ v.waiters.length

namespace Waits

variable {u w v : World}

theorem of_eq (ha : v.active = w.active) (hr : v.round = w.round)
    (hq : v.ready = w.ready) (ht : v.timers = w.timers)
    (hk : v.waiters = w.waiters) : Waits w v :=
  ⟨ha, hr, hq ▸ List.prefix_rfl, fun _ h => .inl (ht ▸ h), by rw [hk]⟩

theorem trans (h : Waits u w) (g : Waits w v) : Waits u v := by
  refine ⟨g.active.trans h.active, g.round.trans h.round,
    h.ready.trans g.ready, fun t ht => ?_, h.waiters.trans g.waiters⟩
  rcases h.timers t ht with ht | hj
  · exact g.timers t ht
  · exact .inr (g.ready.subset hj)

theorem enqueue (w : World) (j : Job) : Waits w (w.enqueue j) :=
  ⟨rfl, rfl, List.prefix_append _ _, fun _ h => .inl h, Nat.le_refl _⟩

/-- A sleep broken off. -/
theorem rouse (w : World) {p : Timer → Bool} {j : Job}
    (hp : ∀ t, p t = true → t.sleeper = j) : Waits w (w.rouse p j) := by
  unfold World.rouse
  split
  · refine ⟨rfl, rfl, List.prefix_append _ _, fun t ht => ?_, Nat.le_refl _⟩
    cases hpt : p t with
    | false => exact .inl (List.mem_filter.2 ⟨ht, by simp [hpt]⟩)
    | true =>
        refine .inr (List.mem_append_right _ ?_)
        rw [hp t hpt]
        exact List.mem_singleton_self j
  · exact of_eq rfl rfl rfl rfl rfl

theorem doomTask (w : World) (i : Nat) : Waits w (w.doomTask i) := by
  unfold World.doomTask
  split
  · exact of_eq rfl rfl rfl rfl rfl
  · split
    · exact of_eq rfl rfl rfl rfl rfl
    · refine trans ?_ (rouse _ fun _ => sleeper_of_wakesAgent)
      exact of_eq rfl rfl rfl rfl rfl

theorem doomTasks (is : List Nat) (w : World) :
    Waits w (is.foldl World.doomTask w) := by
  induction is generalizing w with
  | nil => exact of_eq rfl rfl rfl rfl rfl
  | cons i is ih => exact (doomTask w i).trans (ih _)

/-- A call killed. -/
theorem killCall (w : World) (n : Nat) : Waits w (w.killCall n) := by
  unfold World.killCall
  split
  · exact of_eq rfl rfl rfl rfl rfl
  · split
    · exact of_eq rfl rfl rfl rfl rfl
    · dsimp only
      split
      · exact of_eq rfl rfl rfl rfl rfl
      · split
        · refine trans (trans ?_ (doomTasks _ _))
            (rouse _ fun _ => sleeper_of_wakesHandler)
          exact of_eq rfl rfl rfl rfl rfl
        · exact of_eq rfl rfl rfl rfl rfl

variable [Arithmetic] {c : Coordinator}

/-- Only the event loop takes turns. -/
theorem after {d : Deed} (hd : d ≠ .turn) : Waits w (w.after c d) := by
  cases d with
  | turn => exact absurd rfl hd
  | elapse t => exact of_eq rfl rfl rfl rfl rfl
  | call script cast =>
      refine trans ?_ (enqueue _ _)
      exact of_eq rfl rfl rfl rfl rfl
  | awaitIdle =>
      refine trans ?_ (enqueue _ _)
      refine ⟨rfl, rfl, List.prefix_rfl, fun _ h => .inl h, ?_⟩
      rw [List.length_append]
      exact Nat.le_add_right _ _
  | cancel =>
      obtain ⟨lines, heq⟩ := cancel_spec w
      show Waits w w.cancel
      rw [heq]
      exact of_eq rfl rfl rfl rfl rfl
  | kill n => exact killCall w n
  | put name a => exact of_eq rfl rfl rfl rfl rfl

end Waits

end World

end BlockStage
