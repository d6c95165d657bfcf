import BlockStage.Proofs.Session.Upkeep

/-! # Calls — made once and ended once

    A call that was made stays, with what it was made for, and once it has
    ended nothing changes how.  Only an open call is ever ended: one that
    begins, or the one whose session is in flight.  The agents and the
    observer leave all calls alone (`Orderly.act_apart`). -/

namespace BlockStage

namespace World

variable {w v : World}

/-- A doomed call is one that was made. -/
theorem doomed_call {u : World} {n : Nat}
    (h : ((u.calls[n]?).map (·.doomed)).getD false = true) :
    ∃ call, u.calls[n]? = some call ∧ call.doomed = true := by
  cases hcall : u.calls[n]? with
  | none => rw [hcall] at h; cases h
  | some call => exact ⟨call, rfl, by simpa [hcall] using h⟩

/-- Calls are never taken back, one that has ended stays as it is, and only
    some are doomed. -/
def Grows (dooms : Nat → Prop) (w v : World) : Prop :=
  ∀ (k : Nat) (call : Call), w.calls[k]? = some call →
    ∃ call' : Call, v.calls[k]? = some call' ∧ call'.script = call.script
      ∧ call'.cast = call.cast
      ∧ (call.doomed = true → call'.doomed = true)
      ∧ (call'.doomed = true → call.doomed = true ∨ dooms k)
      ∧ (call.ending.isSome = true → call'.ending = call.ending)

variable {dooms : Nat → Prop}

theorem Grows.of_eq (h : v.calls = w.calls) : Grows dooms w v :=
  fun _ call hk =>
    ⟨call, h ▸ hk, rfl, rfl, fun hd => hd, fun hd => .inl hd, fun _ => rfl⟩

/-- An open call ends. -/
theorem grows_end {n : Nat} {e : CallEnd} (hopen : w.isOpen n = true)
    (h : v.calls = w.calls.modify n fun c => { c with ending := some e }) :
    Grows dooms w v := by
  intro k call hk
  rw [h, List.getElem?_modify, hk]
  by_cases hnk : n = k
  · subst hnk
    simp only [isOpen, hk, Option.map_some, Option.getD_some,
      Option.isNone_iff_eq_none] at hopen
    refine ⟨{ call with ending := some e }, by simp, rfl, rfl,
      fun hd => hd, fun hd => .inl hd, ?_⟩
    intro hend
    rw [hopen] at hend
    cases hend
  · exact ⟨call, by simp [hnk], rfl, rfl, fun hd => hd, fun hd => .inl hd,
      fun _ => rfl⟩

theorem grows_doom {n : Nat} (hn : dooms n)
    (h : v.calls = w.calls.modify n fun c => { c with doomed := true }) :
    Grows dooms w v := by
  intro k call hk
  rw [h, List.getElem?_modify, hk]
  by_cases hnk : n = k
  · subst hnk
    exact ⟨{ call with doomed := true }, by simp, rfl, rfl,
      fun _ => rfl, fun _ => .inr hn, fun _ => rfl⟩
  · exact ⟨call, by simp [hnk], rfl, rfl, fun hd => hd, fun hd => .inl hd,
      fun _ => rfl⟩

/-! ## What agents leave alone -/

/-- The calls and the waiters stay as they are, and a session in flight
    stays so. -/
structure Apart (w v : World) : Prop where
  calls : v.calls = w.calls
  waiters : v.waiters = w.waiters
  idle : v.idle = w.idle

theorem Apart.trans {u : World} (h : Apart w v) (g : Apart v u) : Apart w u :=
  ⟨g.calls.trans h.calls, g.waiters.trans h.waiters, g.idle.trans h.idle⟩

theorem apart_cancel (w : World) : Apart w w.cancel := by
  obtain ⟨lines, heq⟩ := cancel_spec w
  rw [heq]
  exact ⟨rfl, rfl, rfl⟩

theorem apart_turnTask {c : Coordinator} (w : World) (i : Nat)
    (t : AgentTask) : Apart w (w.turnTask c i t) := by
  cases turnTask_cases c w i t with
  | ended _ heq =>
      rw [heq]
      exact ⟨rfl, rfl, rfl⟩
  | dies _ _ heq =>
      rw [heq]
      exact ⟨rfl, rfl, rfl⟩
  | goesOn _ _ _ heq =>
      rw [heq]
      exact ⟨rfl, rfl, rfl⟩
  | setsOut _ _ _ _ heq =>
      rw [heq]
      exact ⟨rfl, rfl, rfl⟩

variable [Arithmetic] {c : Coordinator}

theorem apart_sleep (w : World) (seconds : Scalar) (j : Job) :
    Apart w (w.sleep seconds j) := by
  obtain ⟨timers, ready, heq⟩ := sleep_spec w seconds j
  rw [heq]
  exact ⟨rfl, rfl, rfl⟩

theorem apart_suspend (w : World) (i : Nat) (t : AgentTask)
    (seconds : Scalar) : Apart w (w.suspend i t seconds) := by
  obtain ⟨timers, ready, heq⟩ := suspend_spec w i t seconds
  rw [heq]
  exact ⟨rfl, rfl, rfl⟩

theorem apart_answer (w : World) (i : Nat) (t : AgentTask) (a : Agent)
    (signal : Signal) : Apart w (w.answer c i t a signal) := by
  cases signal with
  | sleep seconds => exact apart_suspend _ _ _ _
  | emit =>
      show Apart w (w.observe c i t.agentId a)
      cases observe_cases c w i t.agentId a with
      | unseen _ heq =>
          rw [heq]
          exact ⟨rfl, rfl, rfl⟩
      | unshown _ _ heq =>
          rw [heq]
          exact ⟨rfl, rfl, rfl⟩
      | @exhibited snapshot _ _ heq =>
          obtain ⟨lines, hexhibit⟩ := exhibit_spec c w snapshot
          rw [heq, hexhibit]
          exact ⟨rfl, rfl, rfl⟩
  | _ => exact ⟨rfl, rfl, rfl⟩

theorem apart_attend (w : World) (i : Nat) (t : AgentTask) (e : Errand) :
    Apart w (w.attend i t e) := by
  cases attend_cases w i t e with
  | rests _ heq =>
      rw [heq]
      refine .trans ?_ (apart_suspend _ _ _ _)
      exact ⟨rfl, rfl, rfl⟩
  | done _ _ heq =>
      rw [heq]
      exact ⟨rfl, rfl, rfl⟩
  | fails _ _ heq =>
      rw [heq]
      exact ⟨rfl, rfl, rfl⟩

theorem apart_actTask (w : World) (i : Nat) (t : AgentTask) (a : Agent) :
    Apart w (w.actTask c i t a) := by
  unfold World.actTask
  split
  · exact ⟨rfl, rfl, rfl⟩
  · refine .trans ?_ (apart_answer _ _ _ _ _)
    exact ⟨rfl, rfl, rfl⟩

/-- The turn of the agent who acts is nobody else's. -/
theorem Orderly.act_apart (h : Orderly w) {i : Nat}
    (ha : w.active = some i) : Apart w (w.after c .turn) := by
  obtain ⟨s, t, walker, a, -, -, -, -, -, hget, hagent⟩ := h.actor ha
  show Apart w (w.step c)
  cases hshow : t.showing with
  | none =>
      rw [step_act ha hget hshow hagent]
      exact apart_actTask _ _ _ _
  | some e =>
      rw [step_attend ha hget hshow]
      exact apart_attend _ _ _ _

/-- A call that is woken ends, or none does. -/
theorem Woken.calls {n : Nat} (h : Woken w n v) :
    v.calls = w.calls
      ∨ ∃ e, v.calls = w.calls.modify n fun c => { c with ending := some e } := by
  cases h with
  | stays heq => exact .inl (by rw [heq])
  | @leaves u e heq hu =>
      refine .inr ⟨e, ?_⟩
      rw [heq, ← hu.calls]
      rfl
  | sleeps heq hu =>
      refine .inl ?_
      rw [heq, (apart_sleep _ _ _).calls, hu.calls]

/-- The first turn of the round ends no call but an open one. -/
theorem Orderly.grows_runJob {j : Job} {rest : List Job} (h : Orderly w)
    (hround : w.round = j :: rest) :
    Grows dooms w ({ w with round := rest }.runJob c j) := by
  have hleaves : ∀ (u : World) (s : Session), w.idle = false →
      w.session = some s → Woken { w with round := rest } s.call u →
      Grows dooms w u := by
    intro u s hidle hses hu
    rcases hu.calls with hc | ⟨e, hc⟩
    · exact .of_eq hc
    · exact grows_end (h.flight hidle hses).call hc
  cases j with
  | begin n =>
      obtain ⟨call, hcall, hend⟩ := h.beginner hround
      have hopen : w.isOpen n = true := by simp [isOpen, hcall, hend]
      rw [runJob_begin (w := { w with round := rest }) hcall]
      cases beginCall_cases c { w with round := rest } n call with
      | ends _ heq =>
          rw [heq]
          exact grows_end hopen rfl
      | opens _ _ _ _ heq =>
          rw [heq]
          exact .of_eq rfl
      | passes _ _ _ _ heq =>
          rw [heq]
          exact grows_end hopen rfl
  | agent i =>
      obtain ⟨hidle, s, hses⟩ := h.inFlight hround rfl
      obtain ⟨t, htask, -⟩ := h.goesOn hround hidle hses
      have hget : ({ w with round := rest } : World).task? i = some t := by
        simp [task?, hses, htask]
      rw [runJob_agent hget]
      exact .of_eq (apart_turnTask _ _ _).calls
  | noticed =>
      obtain ⟨hidle, s, hses⟩ := h.inFlight hround rfl
      rw [runJob_noticed (w := { w with round := rest }) hses]
      rw [notice_spec]
      exact .of_eq rfl
  | join =>
      obtain ⟨hidle, s, hses⟩ := h.inFlight hround rfl
      rw [runJob_join (w := { w with round := rest }) hses]
      exact hleaves _ s hidle hses (join_parts _ _ _)
  | handled =>
      obtain ⟨hidle, s, hses⟩ := h.inFlight hround rfl
      rw [runJob_handled (w := { w with round := rest }) hses]
      exact hleaves _ s hidle hses (handled_parts _ _)
  | ask k => exact .of_eq rfl
  | release k => exact .of_eq rfl
  | wake sleeper => exact .of_eq rfl

/-- No deed takes a call back or changes how one has ended, and only a kill
    dooms one. -/
theorem Orderly.grows (h : Orderly w) (d : Deed) :
    Grows (fun n => d = .kill n) w (w.after c d) := by
  cases d with
  | turn =>
      cases ha : w.active with
      | some i => exact .of_eq (h.act_apart ha).calls
      | none =>
          show Grows _ w (w.step c)
          cases hround : w.round with
          | cons j rest =>
              rw [step_turn ha hround]
              exact h.grows_runJob hround
          | nil =>
              rw [step_round ha hround]
              exact .of_eq rfl
  | elapse t => exact .of_eq rfl
  | call script cast =>
      intro k call hk
      refine ⟨call, ?_, rfl, rfl, fun hd => hd, fun hd => .inl hd,
        fun _ => rfl⟩
      show (w.calls ++ [_])[k]? = some call
      rw [List.getElem?_append_left (List.getElem?_eq_some_iff.1 hk).1, hk]
  | awaitIdle => exact .of_eq rfl
  | cancel => exact .of_eq (apart_cancel w).calls
  | kill n =>
      rcases h.killCall_spec n with ⟨-, heq⟩ | ⟨-, -, heq⟩ |
        ⟨s, timers, ready, -, -, -, heq, -⟩
      · exact .of_eq (by rw [show w.after c (.kill n) = w from heq])
      · exact grows_doom (n := n) rfl (by
          rw [show w.after c (.kill n) = _ from heq]; rfl)
      · exact grows_doom (n := n) rfl (by
          rw [show w.after c (.kill n) = _ from heq])
  | put name a => exact .of_eq rfl

end World

end BlockStage
