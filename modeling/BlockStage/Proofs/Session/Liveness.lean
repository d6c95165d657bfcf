import BlockStage.Proofs.Session.Execution
import BlockStage.Proofs.Session.Moves
import Mathlib.Data.Prod.Lex
import Mathlib.Order.WellFounded

/-! # Liveness — a session comes to its end

    What is left of a session is counted: what its agents have left to do,
    the ends that are to be noticed, and the result that is to be made, and
    after all that what the observer and the handler have left to do of
    what they are at.  No deed adds to it as long as each act lowers what
    its agent has left to do, and every turn that is taken for the session
    lowers it, or an agent acts next.  Since every turn to come is taken at
    last in a fair execution, the call of the session ends in it. -/

namespace BlockStage

/-- What an agent has left to do in a session. -/
def AgentTask.work (ceiling : Value) (t : AgentTask) : Nat :=
  match t.ending, t.walker with
  | some _, _ => 0
  | none, none => Act.cost ceiling (Walker.start t.program).todo + 2
  | none, some walker => Act.cost ceiling walker.todo + 1

/-- What the agents of a session and its call have left to do. -/
def Session.work (ceiling : Value) (s : Session) : Nat :=
  (s.tasks.map (·.work ceiling)).sum + (s.tasks.length - s.joined)
    + if s.result.isSome then 0 else 1

/-- What somebody who has been called has left to do. -/
def Errand.left : Option Errand → Nat
  | none => 0
  | some e => e.rests.length + 1

/-- What the observer and the handler have left to do of what they are
    at. -/
def Session.errands (s : Session) : Nat :=
  (s.tasks.map fun t => Errand.left t.showing).sum + Errand.left s.handling

/-- What is left of a session: the errands count only after all else, for
    an act may bring an errand of any length. -/
def Session.left (ceiling : Value) (s : Session) : Nat ×ₗ Nat :=
  toLex (s.work ceiling, s.errands)

/-- A sum in which one number changes. -/
theorem sum_modify {α : Type} {l : List α} {i : Nat} {x : α} (g : α → Nat)
    (f : α → α) (h : l[i]? = some x) :
    ((l.modify i f).map g).sum + g x = (l.map g).sum + g (f x) := by
  induction l generalizing i with
  | nil => cases h
  | cons y l ih =>
      cases i with
      | zero =>
          obtain rfl := Option.some.inj h
          simp only [List.modify_zero_cons, List.map_cons, List.sum_cons]
          omega
      | succ i =>
          have := ih (i := i) h
          simp only [List.modify_succ_cons, List.map_cons, List.sum_cons]
          omega

/-- A number that only goes down stands still at last. -/
theorem eventually_still {α : Type} [LinearOrder α] [WellFoundedLT α]
    {f : Nat → α} {k₀ : Nat}
    (h : ∀ k, k₀ ≤ k → f (k + 1) ≤ f k) :
    ∃ k₁, k₀ ≤ k₁ ∧ ∀ k, k₁ ≤ k → f k = f k₁ := by
  let g : Nat → α := fun i => f (k₀ + i)
  have hdown : ∀ i,
      f (k₀ + (Function.argmin g + i)) ≤ g (Function.argmin g) := by
    intro i
    induction i with
    | zero => exact le_refl _
    | succ i ih => exact le_trans (h _ (Nat.le_add_right _ _)) ih
  refine ⟨k₀ + Function.argmin g, by omega, fun k hk => ?_⟩
  obtain ⟨i, rfl⟩ := Nat.exists_eq_add_of_le hk
  rw [Nat.add_assoc]
  exact le_antisymm (hdown i)
    (Function.argmin_le g (Function.argmin g + i))

/-- What is left of the session of a world. -/
def workLeft (c : Coordinator) (w : World) : Nat ×ₗ Nat :=
  (w.session.map (·.left c.config.loopCeiling)).getD (toLex (0, 0))

/-- The kill of a call leaves everybody what they have to do. -/
theorem left_doomFirst {ceiling : Value} {k : Nat} {s : Session} :
    (World.doomFirst k s).left ceiling = s.left ceiling := by
  have hsame : ∀ {f : AgentTask → Nat},
      (∀ t, f { t with doomed := true } = f t) →
      (World.doomFirst k s).tasks.map f = s.tasks.map f := by
    intro f hf
    have hdoom : ∀ t, f (World.doom t) = f t := by
      intro t
      unfold World.doom
      split
      · rfl
      · exact hf t
    rw [World.doomFirst, List.map_append, List.map_map, Function.comp_def]
    simp only [hdoom]
    rw [← List.map_append, List.take_append_drop]
  have hlen : (World.doomFirst k s).tasks.length = s.tasks.length := by
    have := congrArg List.length (hsame (f := fun _ => 0) fun _ => rfl)
    simpa using this
  rw [Session.left, Session.work, Session.errands, hsame fun _ => rfl, hlen,
    hsame fun _ => rfl]
  rfl

namespace World

variable {w v : World} {s s' : Session} {ceiling : Value}

/-- No more ends are counted than there are. -/
theorem Flight.joined_le (h : Flight w s) :
    s.joined ≤ s.tasks.length := by
  have hn := h.books.notices
  rw [Session.ended, List.length_map] at hn
  omega

/-- One agent has less to do, and nothing else changes but the flag. -/
theorem left_modify {i : Nat} {t : AgentTask} {f : AgentTask → AgentTask}
    (ht : s.tasks[i]? = some t) (hf : (f t).work ceiling < t.work ceiling)
    (running : Bool) :
    ({ s with tasks := s.tasks.modify i f, running := running }).left ceiling
      < s.left ceiling := by
  have hsum := sum_modify (·.work ceiling) f ht
  refine Prod.Lex.toLex_lt_toLex.2 (.inl ?_)
  simp only [Session.work, List.length_modify]
  omega

/-- The observer of one agent has less to do, and nothing else changes. -/
theorem left_modify_showing {i : Nat} {t : AgentTask}
    {showing : Option Errand} (ht : s.tasks[i]? = some t)
    (hless : Errand.left showing < Errand.left t.showing) :
    ({ s with
        tasks := s.tasks.modify i fun t =>
          { t with showing := showing } }).left ceiling
      < s.left ceiling := by
  have hsum := sum_modify (fun t => Errand.left t.showing)
    (fun t => { t with showing := showing }) ht
  have hwork := sum_modify (·.work ceiling)
    (fun t => { t with showing := showing }) ht
  have hsame : ({ t with showing := showing } : AgentTask).work ceiling
      = t.work ceiling := rfl
  refine Prod.Lex.toLex_lt_toLex.2 (.inr ⟨?_, ?_⟩)
  · simp only [Session.work, List.length_modify]
    omega
  · dsimp only at hsum
    simp only [Session.errands]
    omega

/-- Nobody has a frame left to show. -/
def Grounded (s : Session) : Prop :=
  ∀ t ∈ s.tasks, ∀ walker, t.walker = some walker →
    Act.Grounded walker.todo

variable [Arithmetic] {c : Coordinator}

/-- The act to come ends the part of the agent whose turn it is, or leaves
    it less to do. -/
def Lowering (c : Coordinator) (w : World) : Prop :=
  ∀ i s t walker a, w.active = some i → w.session = some s →
    s.tasks[i]? = some t → t.walker = some walker →
    w.agent? t.agentId = some a →
    (verdict c.observer.prompt w.shown.length w.now
        (walker.step (scene c) w.now s.running a).agent s.running
        (walker.step (scene c) w.now s.running a).signal).outcome.isSome
      = true
      ∨ Act.cost c.config.loopCeiling
          (walker.step (scene c) w.now s.running a).walker.todo
        < Act.cost c.config.loopCeiling walker.todo

/-- What a deed does to what is left of a session: it lowers it, or leaves
    it as it is; and a turn leaves it only if nobody was acting and if, when
    it was a turn of the session, an agent acts from now on. -/
theorem Moves.headway {d : Deed} (h : Moves c w s d v) (hw : Flight w s)
    (hses : w.session = some s) (hidle : v.idle = false) (hv : Flight v s')
    (hs' : v.session = some s') (hlow : Lowering c w) :
    s'.left c.config.loopCeiling < s.left c.config.loopCeiling
      ∨ s'.left c.config.loopCeiling = s.left c.config.loopCeiling
        ∧ (d = .turn → w.active = none)
        ∧ ∀ j rest, d = .turn → w.round = j :: rest →
          j.isSessions = true → v.active.isSome = true := by
  cases h with
  | @stays _ _ k _ _ hs hcounts =>
      obtain rfl := Option.mem_unique hs hs'
      have hle : k ≤ s.tasks.length := hv.joined_le
      have hge := hcounts.le
      by_cases hk : s.joined < k
      · refine .inl (Prod.Lex.toLex_lt_toLex.2 (.inl ?_))
        simp only [Session.work]
        omega
      · have heq : k = s.joined := by omega
        subst heq
        refine .inr ⟨rfl, hcounts.still, fun j rest hd hround hj => ?_⟩
        rcases hcounts.turn j rest hd hround hj with hact | hlt
        · exact hact
        · exact absurd hlt (Nat.lt_irrefl _)
  | lowers _ hs =>
      obtain rfl := Option.mem_unique hs hs'
      exact .inr ⟨rfl, nofun, nofun⟩
  | puts =>
      obtain rfl := Option.mem_unique hses hs'
      exact .inr ⟨rfl, nofun, nofun⟩
  | dooms _ hs =>
      obtain rfl := Option.mem_unique hs hs'
      exact .inr ⟨left_doomFirst, nofun, nofun⟩
  | @acts _ i t walker a m e hact ht hwalk hend _ ha hm he _ _ _ _ hs =>
      obtain rfl := Option.mem_unique hs hs'
      refine .inl (left_modify ht ?_ _)
      have hless := hlow i s t walker a hact hses ht hwalk ha
      rw [← hm, ← he] at hless
      simp only [AgentTask.work, hend, hwalk]
      cases hout : e.outcome with
      | some o => simp
      | none =>
          rw [hout] at hless
          rcases hless with hno | hless
          · cases hno
          · simpa using hless
  | @attends _ i t _ e showing _ ht _ _ hshow hleaves _ hs =>
      obtain rfl := Option.mem_unique hs hs'
      refine .inl (left_modify_showing ht ?_)
      rw [hshow]
      cases hleaves with
      | done => exact Nat.succ_pos _
      | rests hsleepy => simp [Errand.left, hsleepy]
  | @stumbles _ i t walker e _ ht hwalk hend _ _ _ _ hs =>
      obtain rfl := Option.mem_unique hs hs'
      refine .inl (left_modify ht ?_ _)
      simp only [AgentTask.work, hend, hwalk]
      omega
  | @setsOut _ i t _ ht hwalk hend _ _ _ hs =>
      obtain rfl := Option.mem_unique hs hs'
      refine .inl (left_modify ht ?_ _)
      simp only [AgentTask.work, hend, hwalk]
      omega
  | @dies _ i t e ht hend _ _ hs =>
      obtain rfl := Option.mem_unique hs hs'
      refine .inl (left_modify ht ?_ _)
      simp only [AgentTask.work, hend]
      split <;> simp_all
  | dozes _ _ hnone _ _ _ _ _ hs =>
      obtain rfl := Option.mem_unique hs hs'
      have hfresh : s.result.isSome = false := by
        rw [Bool.eq_false_iff]
        exact fun hno => hnone (hw.fresh hno)
      refine .inl (Prod.Lex.toLex_lt_toLex.2 (.inl ?_))
      simp [Session.work, hfresh]
  | drowses _ _ _ _ hhandling hsleepy _ hs =>
      obtain rfl := Option.mem_unique hs hs'
      refine .inl (Prod.Lex.toLex_lt_toLex.2 (.inr ⟨rfl, ?_⟩))
      simp [Session.errands, Errand.left, hhandling, hsleepy]
  | leaves _ _ _ hrest =>
      rw [hrest] at hidle
      cases hidle

/-! ## Fair executions -/

/-- In a fair execution the call of a session ends, if from some time on
    every act lowers what its agent has left to do. -/
theorem Execution.Fair.ends {e : Execution c w} (hf : e.Fair)
    (hw : Reachable c w) {n k₀ : Nat}
    (hlow : ∀ k, k₀ ≤ k → (e.world k).current = some n →
      Lowering c (e.world k)) :
    ∃ k, k₀ ≤ k ∧ (e.world k).current ≠ some n := by
  by_contra hno
  push Not at hno
  have hreach : ∀ k, Reachable c (e.world k) := fun k =>
    hw.course (e.course k)
  have hflies : ∀ k, k₀ ≤ k → (e.world k).idle = false
      ∧ ∃ s, (e.world k).session = some s ∧ Flight (e.world k) s := by
    intro k hk
    obtain ⟨hidle, s, hs, -⟩ := current_eq_some.1 (hno k hk)
    exact ⟨hidle, s, hs, (hreach k).orderly.flight hidle hs⟩
  -- what a deed does to what is left
  have hstep : ∀ k, k₀ ≤ k →
      workLeft c (e.world (k + 1)) < workLeft c (e.world k)
        ∨ workLeft c (e.world (k + 1)) = workLeft c (e.world k)
          ∧ (e.deed k = .turn → (e.world k).active = none)
          ∧ ∀ j rest, e.deed k = .turn → (e.world k).round = j :: rest →
            j.isSessions = true → (e.world (k + 1)).active.isSome = true := by
    intro k hk
    obtain ⟨hidle, s, hs, hfl⟩ := hflies k hk
    obtain ⟨hidle', s', hs', hfl'⟩ := hflies (k + 1) (by omega)
    have hmoves := (hreach k).orderly.moves (c := c) hidle hs (e.deed k)
    rw [← e.next] at hmoves
    have hw : workLeft c (e.world k) = s.left c.config.loopCeiling := by
      rw [workLeft, hs]
      rfl
    have hw' : workLeft c (e.world (k + 1))
        = s'.left c.config.loopCeiling := by
      rw [workLeft, hs']
      rfl
    rw [hw, hw']
    exact hmoves.headway hfl hs hidle' hfl' hs' (hlow k hk (hno k hk))
  -- there comes a time from which on nothing lowers it any more
  obtain ⟨k₁, hk₁, hleast⟩ : ∃ k₁, k₀ ≤ k₁
      ∧ ∀ k, k₁ ≤ k → workLeft c (e.world k) = workLeft c (e.world k₁) := by
    refine eventually_still fun k hk => ?_
    rcases hstep k hk with hlt | ⟨heq, -⟩
    · exact le_of_lt hlt
    · exact le_of_eq heq
  have hrest : ∀ k, k₁ ≤ k →
      (e.deed k = .turn → (e.world k).active = none)
        ∧ ∀ j rest, e.deed k = .turn → (e.world k).round = j :: rest →
          j.isSessions = true → (e.world (k + 1)).active.isSome = true := by
    intro k hk
    rcases hstep k (by omega) with hlt | ⟨-, hrest⟩
    · rw [hleast k hk, hleast (k + 1) (by omega)] at hlt
      exact absurd hlt (lt_irrefl _)
    · exact hrest
  -- from then on nobody acts, for an act would lower it
  have hquiet : ∀ k, k₁ ≤ k → (e.world k).active = none := by
    intro k hk
    obtain ⟨m, hm, hturn, hwaits⟩ := hf.next_turn k
    rw [← hwaits.active]
    exact (hrest m (by omega)).1 hturn
  -- but some turn of the session is taken at last
  obtain ⟨hidle, s, hs, hfl⟩ := hflies k₁ hk₁
  obtain ⟨j, hj, hsessions⟩ := hfl.books.exists_turn
  obtain ⟨m, hm, hturn, -, rest, hround⟩ :=
    hf.turn_taken (fun k hk => ⟨k, Nat.le_refl k, hquiet k hk⟩)
      (Nat.le_refl k₁) hj fun i hi => by
        rw [hquiet k₁ (Nat.le_refl k₁)] at hi
        cases hi
  have hacts := (hrest m hm).2 j rest hturn hround hsessions
  rw [hquiet (m + 1) (by omega)] at hacts
  cases hacts

/-! ## On the grid -/

/-- On the grid no move leaves a frame to show. -/
theorem Moves.grounded {d : Deed} (h : Moves c w s d v)
    (hmode : c.config.mode ≠ .canvas) (hses : w.session = some s)
    (hs' : v.session = some s') (hg : Grounded s) : Grounded s' := by
  intro t' ht' x hx
  obtain ⟨t, ht, halters⟩ := h.altered hses hs' ht'
  cases halters with
  | stays => exact hg _ ht x hx
  | dooms => exact hg t ht x hx
  | attends => exact hg t ht x hx
  | stumbles => exact hg t ht x hx
  | acts hwalk _ _ _ hn _ =>
      obtain rfl := Option.some.inj hx
      rw [hn]
      exact Walker.step_grounded (s := scene c) hmode (hg t ht _ hwalk)
  | setsOut =>
      obtain rfl := Option.some.inj hx
      exact Walker.start_grounded _
  | dies => exact hg t ht x hx

/-- On the grid nobody in flight ever has a frame left to show. -/
theorem Reachable.grounded (h : Reachable c w)
    (hmode : c.config.mode ≠ .canvas) (hidle : w.idle = false)
    (hses : w.session = some s) : Grounded s := by
  refine h.flights (P := fun _ s => Grounded s) ?_ ?_ hidle hses
  · intro u v n cast programs warnings t ht walker hwalk
    obtain ⟨id, -, rfl⟩ := List.mem_map.1
      (show t ∈ freshTasks cast programs from ht)
    cases hwalk
  · intro u d s s' _ _ hs _ hg hs' hmoves
    exact hmoves.grounded hmode hs hs' hg

/-- **On the grid every session comes to its end.**  In a fair execution
    the call of the session in flight ends, whatever its agents are given
    to run and whatever the host does meanwhile. -/
theorem Execution.Fair.shuts {e : Execution c w} (hf : e.Fair)
    (hw : Reachable c w) (hmode : c.config.mode ≠ .canvas) {n : Nat}
    (hn : w.current = some n ∨ w.isShut n = true) :
    ∃ k, (e.world k).isShut n = true := by
  have hknown : ∀ k, (e.world k).current = some n
      ∨ (e.world k).isShut n = true := by
    intro k
    induction k with
    | zero => rwa [e.start]
    | succ k ih =>
        rw [e.next]
        exact (hw.course (e.course k)).orderly.known_after (e.admits k) ih
  have hlow : ∀ k, 0 ≤ k → (e.world k).current = some n →
      Lowering c (e.world k) := by
    intro k _ hcur i s t walker a _ hs ht hwalk _
    obtain ⟨hidle, -⟩ := current_eq_some.1 hcur
    have hg := (hw.course (e.course k)).grounded hmode hidle hs t
      (List.mem_of_getElem? ht) walker hwalk
    exact Walker.step_cost (s := scene c) fun act rest htodo =>
      hg act (htodo ▸ List.mem_cons_self ..)
  obtain ⟨k, -, hk⟩ := hf.ends hw hlow
  exact ⟨k, (hknown k).resolve_left hk⟩

end World

end BlockStage
