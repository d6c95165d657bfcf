import BlockStage.Proofs.Run.LastFrame
import BlockStage.Proofs.Session.Clock
import BlockStage.Proofs.Session.Liveness

/-! # Animated sessions — on the canvas, too, they come to their end

    No deed adds to the effort that a session has left, and one that begins
    an animation takes off it (`Proceeds`).  Hence there comes a time from
    which on no animation begins any more; when the clock has gone on long
    enough after it, every frame is the last of its animation, every act
    lowers what its agent has left to do, and so the call of the session
    ends (`Execution.Fair.shuts_lasting`). -/

namespace BlockStage

open Act

/-- What an agent has left to do in its part of a session. -/
def AgentTask.todo (t : AgentTask) : List Act :=
  (t.walker.getD (.start t.program)).todo

/-- The effort that an agent has left in a session. -/
def AgentTask.effort (ceiling : Value) (t : AgentTask) : Nat :=
  if t.ending.isSome then 0 else efforts ceiling t.todo

/-- The effort that a session has left. -/
def Session.effort (ceiling : Value) (s : Session) : Nat :=
  (s.tasks.map (·.effort ceiling)).sum

/-- Every animation that is left in a part began no later than at a
    moment. -/
def AgentTask.Begun (moment : Rat) (t : AgentTask) : Prop :=
  t.ending = none → Act.Begun moment t.todo

/-- Every animation that is left in a session began no later than at a
    moment. -/
def Session.Begun (moment : Rat) (s : Session) : Prop :=
  ∀ t ∈ s.tasks, t.Begun moment

/-- Numbers none of which grows do not grow as a whole, and if they stay the
    same as a whole then each of them does. -/
theorem sum_forall₂ {α : Type} {R : α → α → Prop} {f : α → Nat}
    {xs ys : List α} (h : List.Forall₂ R xs ys)
    (hle : ∀ x y, R x y → f y ≤ f x) :
    (ys.map f).sum ≤ (xs.map f).sum
      ∧ ((ys.map f).sum = (xs.map f).sum →
        List.Forall₂ (fun x y => R x y ∧ f y = f x) xs ys) := by
  induction h with
  | nil => exact ⟨Nat.le_refl _, fun _ => .nil⟩
  | @cons x y xs ys hxy _ ih =>
      obtain ⟨hsum, hsame⟩ := ih
      have hfirst := hle x y hxy
      simp only [List.map_cons, List.sum_cons]
      refine ⟨by omega, fun heq => ?_⟩
      exact .cons ⟨hxy, by omega⟩ (hsame (by omega))

/-- What comes of a list member by member comes of some member of it. -/
theorem forall₂_mem_right {α : Type} {R : α → α → Prop} {xs ys : List α}
    (h : List.Forall₂ R xs ys) {y : α} (hy : y ∈ ys) :
    ∃ x ∈ xs, R x y := by
  induction h with
  | nil => cases hy
  | @cons x z xs ys hxz _ ih =>
      rcases List.mem_cons.1 hy with rfl | hy
      · exact ⟨x, List.mem_cons_self .., hxz⟩
      · obtain ⟨u, hu, hR⟩ := ih hy
        exact ⟨u, List.mem_cons_of_mem _ hu, hR⟩

variable [Arithmetic]

/-- What a deed makes of an agent's part: it is over, or its run stays where
    it is or advances. -/
inductive Proceeds (c : Coordinator) (now : Time) (t : AgentTask) :
    AgentTask → Prop
  | ends {t' : AgentTask} : t'.ending.isSome = true → Proceeds c now t t'
  | stays {t' : AgentTask} : t'.ending = t.ending → t'.todo = t.todo →
      Proceeds c now t t'
  | advances {t' : AgentTask} {a b : Agent} {signal : Signal} :
      t.ending = none → t'.ending = none →
      Advance (World.scene c) now a t.todo b t'.todo signal →
      Proceeds c now t t'

namespace Proceeds

variable {c : Coordinator} {now : Time} {t t' : AgentTask} {m : Rat}

theorem effort_le (h : Proceeds c now t t') :
    t'.effort c.config.loopCeiling ≤ t.effort c.config.loopCeiling := by
  unfold AgentTask.effort
  cases h with
  | ends hend =>
      rw [if_pos hend]
      exact Nat.zero_le _
  | stays hend htodo => rw [hend, htodo]
  | advances hend hend' hadv =>
      rw [hend, hend']
      exact hadv.efforts_le

/-- No animation begins later than the moment of the deed. -/
theorem begun (h : Proceeds c now t t') (hnow : now.isFinite = true)
    (hle : now.value ≤ m) (hbegun : t.Begun m) : t'.Begun m := by
  intro hnone
  cases h with
  | ends hend =>
      rw [hnone] at hend
      cases hend
  | stays hend htodo => exact htodo ▸ hbegun (hend ▸ hnone)
  | advances hend _ hadv => exact hadv.begun hnow hle (hbegun hend)

/-- No animation begins with a deed that takes nothing off the effort. -/
theorem begun_still (h : Proceeds c now t t')
    (hstill : t'.effort c.config.loopCeiling
      = t.effort c.config.loopCeiling)
    (hbegun : t.Begun m) : t'.Begun m := by
  intro hnone
  cases h with
  | ends hend =>
      rw [hnone] at hend
      cases hend
  | stays hend htodo => exact htodo ▸ hbegun (hend ▸ hnone)
  | advances hend hend' hadv =>
      unfold AgentTask.effort at hstill
      rw [hend, hend'] at hstill
      exact hadv.begun_still hstill (hbegun hend)

end Proceeds

namespace World

variable {c : Coordinator} {w v : World} {s s' : Session} {m : Rat}

/-- Whatever a deed makes of a part, its run goes no other way. -/
theorem Alters.proceeds {t t' : AgentTask} (h : Alters c w s t t') :
    Proceeds c w.now t t' := by
  cases h with
  | stays => exact .stays rfl rfl
  | dooms => exact .stays rfl rfl
  | @acts walker a n e hwalk hend _ _ hn he =>
      have hgoes := Walker.step_advances (scene c) w.now w.now s.running a
        walker c.observer.prompt w.shown.length
      rw [← hn, ← he] at hgoes
      cases hout : e.outcome with
      | some o => exact .ends rfl
      | none =>
          rcases hgoes with hover | hadv
          · rw [hout] at hover
            cases hover
          · have htodo : t.todo = walker.todo := by
              rw [AgentTask.todo, hwalk]
              rfl
            exact .advances hend rfl (htodo ▸ hadv)
  | attends => exact .stays rfl rfl
  | stumbles => exact .ends rfl
  | setsOut hwalk =>
      refine .stays rfl ?_
      simp only [AgentTask.todo, hwalk]
      rfl
  | dies => exact .ends rfl

/-- What a deed makes of the parts of a session. -/
theorem Moves.proceeds {d : Deed} (h : Moves c w s d v)
    (hses : w.session = some s) (hs' : v.session = some s') :
    List.Forall₂ (Proceeds c w.now) s.tasks s'.tasks := by
  obtain ⟨hlen, hparts⟩ := h.alters hses hs'
  refine List.forall₂_iff_get.2 ⟨hlen.symm, fun i hi hi' => ?_⟩
  obtain ⟨t, ht, halters⟩ := hparts (List.getElem?_eq_getElem hi')
  obtain rfl := Option.mem_unique ht (List.getElem?_eq_getElem hi)
  exact halters.proceeds

/-- No deed adds to the effort left in a session. -/
theorem Moves.effort_le {d : Deed} (h : Moves c w s d v)
    (hses : w.session = some s) (hs' : v.session = some s') :
    s'.effort c.config.loopCeiling ≤ s.effort c.config.loopCeiling :=
  (sum_forall₂ (h.proceeds hses hs') fun _ _ => Proceeds.effort_le).1

/-- No animation begins with a deed that takes nothing off the effort left
    in a session. -/
theorem Moves.begun_still {d : Deed} (h : Moves c w s d v)
    (hses : w.session = some s) (hs' : v.session = some s')
    (hstill : s'.effort c.config.loopCeiling
      = s.effort c.config.loopCeiling)
    (hbegun : s.Begun m) : s'.Begun m := by
  have hparts := (sum_forall₂ (h.proceeds hses hs')
    fun _ _ => Proceeds.effort_le).2 hstill
  intro t' ht'
  obtain ⟨t, ht, hproceeds, heq⟩ := forall₂_mem_right hparts ht'
  exact hproceeds.begun_still heq (hbegun t ht)

/-- In every session in flight the animations left began no later than
    now. -/
theorem Reachable.begun (h : Reachable c w) (hidle : w.idle = false)
    (hses : w.session = some s) : s.Begun w.now.value := by
  refine h.flights (P := fun u s => s.Begun u.now.value) ?_ ?_ hidle hses
  · intro u v n cast programs warnings t ht
    obtain ⟨id, -, rfl⟩ := List.mem_map.1
      (show t ∈ freshTasks cast programs from ht)
    exact fun _ => begun_start _
  · intro u d s s' hu hd hs _ hbegun hs' hmoves
    have hfin := hu.timely.now
    obtain ⟨hfin', hle⟩ := hu.orderly.now_after (c := c) hfin hd
    have hle := (Scalar.le_iff hfin hfin').1 hle
    intro t' ht'
    obtain ⟨t, ht, hproceeds⟩ :=
      forall₂_mem_right (hmoves.proceeds hs hs') ht'
    exact hproceeds.begun hfin hle fun hend => (hbegun t ht hend).mono hle

/-- Once the animations left began long enough ago, every act lowers what
    its agent has left to do. -/
theorem Orderly.lowering_lasting {span : Rat} (h : Orderly w)
    (hnow : w.now.isFinite = true) (hlasts : (scene c).Lasts span)
    (hbegun : ∀ s, w.session = some s → s.Begun m)
    (hspan : span ≤ w.now.value - m) : Lowering c w := by
  intro i s t walker a hact hs ht hwalk _
  obtain ⟨u, x, y, -, -, hu, hx, hy, hend, -⟩ := h.actor hact
  obtain rfl := Option.mem_unique hs hu
  obtain rfl := Option.mem_unique ht hx
  rcases Walker.step_advances (scene c) w.now w.now s.running a walker
    c.observer.prompt w.shown.length with hover | hadv
  · exact .inl hover
  · refine .inr (hadv.cost_lt_lasting hlasts hnow ?_ hspan)
    have htodo := hbegun s hs t (List.mem_of_getElem? ht) hend
    rwa [AgentTask.todo, hwalk] at htodo

/-! ## Fair executions -/

/-- The effort left in the session of a world. -/
def effortLeft (c : Coordinator) (w : World) : Nat :=
  (w.session.map (·.effort c.config.loopCeiling)).getD 0

/-- The clock of an execution never runs backwards. -/
theorem Execution.now_mono (e : Execution c w) (hw : Reachable c w)
    {k l : Nat} (h : k ≤ l) :
    (e.world k).now.value ≤ (e.world l).now.value := by
  induction l, h using Nat.le_induction with
  | base => exact le_refl _
  | succ l _ ih =>
      have hl := hw.course (e.course l)
      obtain ⟨hfin, hle⟩ :=
        hl.orderly.now_after (c := c) hl.timely.now (e.admits l)
      rw [e.next]
      exact ih.trans ((Scalar.le_iff hl.timely.now hfin).1 hle)

/-- The clock goes on until a call has ended. -/
def Execution.Ticks (e : Execution c w) (n : Nat) : Prop :=
  ∀ moment : Rat, ∃ k, moment ≤ (e.world k).now.value
    ∨ (e.world k).isShut n = true

/-- **Every session whose animations last only so long comes to its end.**
    In a fair execution the call of the session in flight ends if the clock
    goes on until it does. -/
theorem Execution.Fair.shuts_lasting {e : Execution c w} (hf : e.Fair)
    (hw : Reachable c w) {span : Rat} (hlasts : (scene c).Lasts span)
    {n : Nat} (hn : w.current = some n ∨ w.isShut n = true)
    (hticks : e.Ticks n) :
    ∃ k, (e.world k).isShut n = true := by
  by_contra hno
  push Not at hno
  have hreach : ∀ k, Reachable c (e.world k) := fun k =>
    hw.course (e.course k)
  have hcur : ∀ k, (e.world k).current = some n := by
    intro k
    induction k with
    | zero =>
        rw [e.start]
        exact hn.resolve_right (e.start ▸ hno 0)
    | succ k ih =>
        refine Or.resolve_right ?_ (hno (k + 1))
        rw [e.next]
        exact (hreach k).orderly.known_after (e.admits k) (.inl ih)
  have hflies : ∀ k, (e.world k).idle = false
      ∧ ∃ s, (e.world k).session = some s
        ∧ effortLeft c (e.world k) = s.effort c.config.loopCeiling := by
    intro k
    obtain ⟨hidle, s, hs, -⟩ := current_eq_some.1 (hcur k)
    refine ⟨hidle, s, hs, ?_⟩
    rw [effortLeft, hs]
    rfl
  have hmoves : ∀ k s, (e.world k).session = some s →
      Moves c (e.world k) s (e.deed k) (e.world (k + 1)) := by
    intro k s hs
    rw [e.next]
    exact (hreach k).orderly.moves (hflies k).1 hs (e.deed k)
  -- there comes a time from which on no animation begins
  obtain ⟨k₁, -, hstill⟩ : ∃ k₁, 0 ≤ k₁
      ∧ ∀ k, k₁ ≤ k →
        effortLeft c (e.world k) = effortLeft c (e.world k₁) := by
    refine eventually_still fun k _ => ?_
    obtain ⟨-, s, hs, heq⟩ := hflies k
    obtain ⟨-, s', hs', heq'⟩ := hflies (k + 1)
    rw [heq, heq']
    exact (hmoves k s hs).effort_le hs hs'
  have hbegun : ∀ k, k₁ ≤ k → ∀ s, (e.world k).session = some s →
      s.Begun (e.world k₁).now.value := by
    intro k hk
    induction k, hk using Nat.le_induction with
    | base => exact fun s hs => (hreach k₁).begun (hflies k₁).1 hs
    | succ k hk ih =>
        intro s' hs'
        obtain ⟨-, s, hs, heq⟩ := hflies k
        obtain ⟨-, s'', hs'', heq'⟩ := hflies (k + 1)
        obtain rfl := Option.mem_unique hs'' hs'
        refine (hmoves k s hs).begun_still hs hs'' ?_ (ih s hs)
        rw [← heq, ← heq', hstill k hk, hstill (k + 1) (by omega)]
  -- when the clock has gone on, every frame is the last
  obtain ⟨k₂, hk₂⟩ := hticks ((e.world k₁).now.value + span)
  have hk₂ := hk₂.resolve_right (hno k₂)
  have hlow : ∀ k, max k₁ k₂ ≤ k → (e.world k).current = some n →
      Lowering c (e.world k) := by
    intro k hk _
    have hlate := e.now_mono hw ((le_max_right k₁ k₂).trans hk)
    refine (hreach k).orderly.lowering_lasting (hreach k).timely.now hlasts
      (hbegun k ((le_max_left k₁ k₂).trans hk)) ?_
    linarith
  obtain ⟨k, -, hends⟩ := hf.ends hw hlow
  exact hends (hcur k)

end World

end BlockStage
