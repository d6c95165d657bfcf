import BlockStage.Proofs.Session.Animation

/-! # Waiters — whoever waits for idleness goes on at last

    A waiter asks once whether it has to wait.  If no session is in flight
    it goes on at once; else it waits until a session is over, and is told
    to go on then.  What a deed does to the waiters is said once
    (`Orderly.tends`).  So whoever has not asked yet, or has been told to go
    on, has the turn for it to come, and nobody waits while no session is in
    flight (`Reachable.tended`).  In a fair execution everybody goes on at
    last, for every session comes to its end and no agent acts for ever
    (`Execution.Fair.released`). -/

namespace BlockStage

namespace World

variable {u v w : World} {j : Job} {k m n : Nat} {state : Waiter}

/-! ## Turns of waiters -/

/-- What happens in a turn takes no turn of a waiter away. -/
theorem Adds.turns (h : Adds u v) (hw : j.isWaiters = true)
    (hj : j ∈ u.turns) : j ∈ v.turns := by
  rw [mem_turns] at hj ⊢
  rcases hj with ⟨i, -, rfl⟩ | ⟨x, hx, rfl⟩ | ⟨x, hx, rfl⟩ | ⟨t, ht, rfl⟩
  · cases hw
  · exact .inr (.inl ⟨x, h.round ▸ hx, rfl⟩)
  · exact .inr (.inr (.inl ⟨x, h.ready.subset hx, rfl⟩))
  · exact .inr (.inr (.inr ⟨t, h.timers t ht, rfl⟩))

/-- The host takes no turn away. -/
theorem Waits.turns (h : Waits u v) (hj : j ∈ u.turns) : j ∈ v.turns := by
  rw [mem_turns] at hj ⊢
  rcases hj with ⟨i, hi, rfl⟩ | ⟨x, hx, rfl⟩ | ⟨x, hx, rfl⟩ | ⟨t, ht, rfl⟩
  · exact .inl ⟨i, h.active.trans hi, rfl⟩
  · exact .inr (.inl ⟨x, h.round ▸ hx, rfl⟩)
  · exact .inr (.inr (.inl ⟨x, h.ready.subset hx, rfl⟩))
  · rcases h.timers t ht with ht | hx
    · exact .inr (.inr (.inr ⟨t, ht, rfl⟩))
    · exact .inr (.inr (.inl ⟨_, hx, rfl⟩))

/-- A turn that stands among those of the next round is to come. -/
theorem mem_turns_ready (hj : j ∈ w.ready) : j.proper ∈ w.turns :=
  mem_turns.2 (.inr (.inr (.inl ⟨j, hj, rfl⟩)))

/-- A coordinator that becomes free tells everyone to go on who waits. -/
theorem becomeIdle_releases (hk : w.waiters[k]? = some .waits) :
    .release k ∈ w.becomeIdle.turns := by
  refine mem_turns_ready (j := .release k) ?_
  refine List.mem_append_right _ (List.mem_map_of_mem ?_)
  refine List.mem_filter.2 ⟨?_, decide_eq_true hk⟩
  exact List.mem_range.2 (List.getElem?_eq_some_iff.1 hk).1

/-! ## What a deed does to the waiters -/

/-- All turns of waiters stay, but for those excepted. -/
def KeepsTurns (w v : World) (except : Job → Prop) : Prop :=
  ∀ j ∈ w.turns, j.isWaiters = true → ¬ except j → j ∈ v.turns

/-- What a deed does to the waiters: nothing, or a new one comes, or one of
    them asks or goes on, or those who wait are told to go on. -/
inductive Tends (w v : World) : Prop
  | keeps (waiters : v.waiters = w.waiters)
      (flies : w.idle = false → v.idle = false)
      (turns : KeepsTurns w v fun _ => False)
  | comes (waiters : v.waiters = w.waiters ++ [.asks])
      (flies : v.idle = w.idle) (turns : KeepsTurns w v fun _ => False)
      (asks : .ask w.waiters.length ∈ v.turns)
  | asks {m : Nat} (waiters : v.waiters
        = w.waiters.set m (if w.idle then .released else .waits))
      (flies : v.idle = w.idle) (turns : KeepsTurns w v (· = .ask m))
  | goesOn {m : Nat} (waiters : v.waiters = w.waiters.set m .released)
      (flies : v.idle = w.idle) (turns : KeepsTurns w v (· = .release m))
  | wakes (waiters : v.waiters = w.waiters.map Waiter.wake)
      (rests : v.idle = true) (turns : KeepsTurns w v fun _ => False)
      (releases : ∀ k, w.waiters[k]? = some .waits → .release k ∈ v.turns)

variable [Arithmetic] {c : Coordinator}

/-- What comes of a call that is woken, for the waiters. -/
theorem Woken.tends (h : Woken u n v) (hw : u.waiters = w.waiters)
    (hidle : u.idle = w.idle) (hturns : KeepsTurns w v fun _ => False) :
    Tends w v := by
  cases h with
  | stays heq =>
      rw [heq] at hturns ⊢
      exact .keeps hw (fun hno => hidle.trans hno) hturns
  | leaves heq hx =>
      subst heq
      refine .wakes ?_ rfl hturns fun k hk => ?_
      · exact congrArg (List.map Waiter.wake) (hx.waiters.trans hw)
      · exact becomeIdle_releases (hx.waiters.trans hw ▸ hk)
  | sleeps heq hx =>
      have hapart := heq ▸ apart_sleep _ _ _
      refine .keeps (hapart.waiters.trans (hx.waiters.trans hw)) ?_ hturns
      exact fun hno => hapart.idle.trans (hx.idle.trans (hidle.trans hno))

/-- A turn that is no agent's, or the beginning of one. -/
theorem tends_runJob {rest : List Job}
    (ha : w.active = none) (hround : w.round = j :: rest) :
    Tends w (w.after c .turn) := by
  have hstep : w.after c .turn = { w with round := rest }.runJob c j :=
    step_turn ha hround
  -- every turn is still to come but the one that is taken
  have hkeeps : KeepsTurns w (w.after c .turn) (· = j.proper) := by
    intro x hx hwait hne
    rw [turns_round hround] at hx
    exact (Adds.turn ha hround).turns hwait
      ((Multiset.mem_cons.1 hx).resolve_left hne)
  have hothers : j.proper.isWaiters = false →
      KeepsTurns w (w.after c .turn) fun _ => False := by
    intro hother x hx hwait _
    refine hkeeps x hx hwait fun hno => ?_
    rw [hno, hother] at hwait
    cases hwait
  rw [hstep] at hkeeps hothers ⊢
  cases runJob_taken c { w with round := rest } j with
  | idles hplain heq =>
      have hkept := hothers hplain
      rw [heq] at hkept ⊢
      exact .keeps rfl (fun hno => hno) hkept
  | @begins n call _ heq =>
      have hkept := hothers rfl
      rw [heq] at hkept ⊢
      cases beginCall_cases c { w with round := rest } n call with
      | ends _ heq =>
          rw [heq] at hkept ⊢
          exact .keeps rfl (fun hno => hno) hkept
      | opens _ _ _ _ heq =>
          rw [heq] at hkept ⊢
          exact .keeps rfl (fun _ => rfl) hkept
      | passes _ _ _ _ heq =>
          rw [heq] at hkept ⊢
          exact .wakes rfl rfl hkept fun k hk =>
            becomeIdle_releases (w := endCall _ n _) hk
  | @agent i t _ heq =>
      have hkept := hothers rfl
      rw [heq] at hkept ⊢
      have hapart := apart_turnTask (c := c) { w with round := rest } i t
      exact .keeps hapart.waiters (fun hno => hapart.idle.trans hno) hkept
  | notices _ heq =>
      have hkept := hothers rfl
      rw [heq, notice_spec] at hkept ⊢
      exact .keeps rfl (fun hno => hno) hkept
  | joins _ heq => exact (heq ▸ join_parts _ _ _).tends rfl rfl (hothers rfl)
  | handled _ heq => exact (heq ▸ handled_parts _ _).tends rfl rfl (hothers rfl)
  | asks heq =>
      rw [heq] at hkeeps ⊢
      exact .asks rfl rfl hkeeps
  | releases heq =>
      rw [heq] at hkeeps ⊢
      exact .goesOn rfl rfl hkeeps
  | wakes heq =>
      rw [heq]
      refine .keeps rfl (fun hno => hno) fun x hx _ _ => ?_
      rw [turns_round hround] at hx
      rw [turns_enqueue]
      exact hx

/-- A deed does nothing else to them. -/
theorem Orderly.tends (h : Orderly w) (d : Deed) : Tends w (w.after c d) := by
  by_cases hturn : d = .turn
  · subst hturn
    cases ha : w.active with
    | some i =>
        have hapart := h.act_apart (c := c) ha
        exact .keeps hapart.waiters (fun hno => hapart.idle.trans hno)
          fun j hj hwait _ => (Adds.act ha).turns hwait hj
    | none =>
        cases hround : w.round with
        | cons j rest => exact tends_runJob ha hround
        | nil =>
            have hstep : w.after c .turn = w.nextRound := step_round ha hround
            rw [hstep]
            refine .keeps rfl (fun hno => hno) fun j hj _ _ => ?_
            rw [turns_nextRound hround]
            exact hj
  have hkept : KeepsTurns w (w.after c d) fun _ => False :=
    fun j hj _ _ => (Waits.after hturn).turns hj
  cases d with
  | turn => exact absurd rfl hturn
  | elapse t => exact .keeps rfl (fun hno => hno) hkept
  | call script cast => exact .keeps rfl (fun hno => hno) hkept
  | awaitIdle =>
      refine .comes rfl rfl hkept (mem_turns_ready (j := .ask _) ?_)
      exact List.mem_append_right _ (List.mem_singleton_self _)
  | cancel =>
      have hapart := apart_cancel w
      exact .keeps hapart.waiters (fun hno => hapart.idle.trans hno) hkept
  | kill n =>
      have hsame : (w.killCall n).waiters = w.waiters
          ∧ (w.killCall n).idle = w.idle := by
        rcases h.killCall_spec n with ⟨-, heq⟩ | ⟨-, -, heq⟩ |
          ⟨_, _, _, -, -, -, heq, -⟩
        · rw [heq]
          exact ⟨rfl, rfl⟩
        · rw [heq]
          exact ⟨rfl, rfl⟩
        · rw [heq]
          exact ⟨rfl, rfl⟩
      exact .keeps hsame.1 (fun hno => hsame.2.trans hno) hkept
  | put name a => exact .keeps rfl (fun hno => hno) hkept

/-! ## The invariant -/

/-- Everybody who has not asked yet, or was told to go on, has the turn for
    it to come, and nobody waits while no session is in flight. -/
structure Tended (w : World) : Prop where
  asks : ∀ k, w.waiters[k]? = some .asks → .ask k ∈ w.turns
  woken : ∀ k, w.waiters[k]? = some .woken → .release k ∈ w.turns
  waits : ∀ k : Nat, w.waiters[k]? = some .waits → w.idle = false

omit [Arithmetic] in
/-- How far a waiter has come when one of them has come further. -/
theorem waiter_set {old : List Waiter} {new : Waiter}
    (hk : (old.set m new)[k]? = some state) :
    m = k ∧ state = new ∨ m ≠ k ∧ old[k]? = some state := by
  rw [List.getElem?_set] at hk
  split at hk
  · split at hk
    · exact .inl ⟨‹_›, (Option.some.inj hk).symm⟩
    · cases hk
  · exact .inr ⟨‹_›, hk⟩

omit [Arithmetic] in
/-- How far a waiter has come when a new one has. -/
theorem waiter_append {old : List Waiter} {new : Waiter}
    (hk : (old ++ [new])[k]? = some state) :
    old[k]? = some state ∨ k = old.length ∧ state = new := by
  by_cases hlt : k < old.length
  · exact .inl (by rwa [List.getElem?_append_left hlt] at hk)
  · have hlen := (List.getElem?_eq_some_iff.1 hk).1
    rw [List.length_append, List.length_singleton] at hlen
    obtain rfl : k = old.length := by omega
    exact .inr ⟨rfl, by simpa using hk.symm⟩

omit [Arithmetic] in
/-- No deed breaks it. -/
theorem Tends.tended (h : Tends w v) (hw : Tended w) : Tended v := by
  cases h with
  | keeps hwaiters hflies hturns =>
      refine ⟨fun k hk => ?_, fun k hk => ?_, fun k hk => ?_⟩
      · exact hturns _ (hw.asks k (hwaiters ▸ hk)) rfl id
      · exact hturns _ (hw.woken k (hwaiters ▸ hk)) rfl id
      · exact hflies (hw.waits k (hwaiters ▸ hk))
  | comes hwaiters hidle hturns hasks =>
      refine ⟨fun k hk => ?_, fun k hk => ?_, fun k hk => ?_⟩
      · rcases waiter_append (hwaiters ▸ hk) with hk | ⟨rfl, -⟩
        · exact hturns _ (hw.asks k hk) rfl id
        · exact hasks
      · rcases waiter_append (hwaiters ▸ hk) with hk | ⟨-, hno⟩
        · exact hturns _ (hw.woken k hk) rfl id
        · cases hno
      · rcases waiter_append (hwaiters ▸ hk) with hk | ⟨-, hno⟩
        · exact hidle.trans (hw.waits k hk)
        · cases hno
  | asks hwaiters hidle hturns =>
      refine ⟨fun k hk => ?_, fun k hk => ?_, fun k hk => ?_⟩
      · rcases waiter_set (hwaiters ▸ hk) with ⟨-, hno⟩ | ⟨hne, hk⟩
        · split at hno <;> cases hno
        · exact hturns _ (hw.asks k hk) rfl fun heq =>
            hne (Job.ask.inj heq).symm
      · rcases waiter_set (hwaiters ▸ hk) with ⟨-, hno⟩ | ⟨-, hk⟩
        · split at hno <;> cases hno
        · exact hturns _ (hw.woken k hk) rfl nofun
      · rcases waiter_set (hwaiters ▸ hk) with ⟨-, hno⟩ | ⟨-, hk⟩
        · -- whoever asks while no session is in flight does not wait
          cases hw : w.idle with
          | false => exact hidle.trans hw
          | true => rw [if_pos hw] at hno; cases hno
        · exact hidle.trans (hw.waits k hk)
  | goesOn hwaiters hidle hturns =>
      refine ⟨fun k hk => ?_, fun k hk => ?_, fun k hk => ?_⟩
      · rcases waiter_set (hwaiters ▸ hk) with ⟨-, hno⟩ | ⟨-, hk⟩
        · cases hno
        · exact hturns _ (hw.asks k hk) rfl nofun
      · rcases waiter_set (hwaiters ▸ hk) with ⟨-, hno⟩ | ⟨hne, hk⟩
        · cases hno
        · exact hturns _ (hw.woken k hk) rfl fun heq =>
            hne (Job.release.inj heq).symm
      · rcases waiter_set (hwaiters ▸ hk) with ⟨-, hno⟩ | ⟨-, hk⟩
        · cases hno
        · exact hidle.trans (hw.waits k hk)
  | wakes hwaiters hrests hturns hreleases =>
      have hold : ∀ {k : Nat} {state : Waiter}, v.waiters[k]? = some state →
          ∃ old, w.waiters[k]? = some old ∧ Waiter.wake old = state := by
        intro k state hk
        rw [hwaiters, List.getElem?_map] at hk
        exact Option.map_eq_some_iff.1 hk
      refine ⟨fun k hk => ?_, fun k hk => ?_, fun k hk => ?_⟩
      · obtain ⟨old, hk, heq⟩ := hold hk
        cases old with
        | asks => exact hturns _ (hw.asks k hk) rfl id
        | _ => cases heq
      · obtain ⟨old, hk, heq⟩ := hold hk
        cases old with
        | waits => exact hreleases k hk
        | woken => exact hturns _ (hw.woken k hk) rfl id
        | _ => cases heq
      · obtain ⟨old, -, heq⟩ := hold hk
        cases old <;> cases heq

omit [Arithmetic] in
/-- Whoever waits goes on waiting, or is told to go on, or does. -/
theorem Tends.waiting (h : Tends w v) (hk : w.waiters[k]? = some .waits) :
    v.waiters[k]? = some .waits ∨ v.waiters[k]? = some .woken
      ∨ v.waiters[k]? = some .released := by
  have hlt := (List.getElem?_eq_some_iff.1 hk).1
  cases h with
  | keeps hwaiters => exact .inl (hwaiters ▸ hk)
  | comes hwaiters =>
      exact .inl (by rw [hwaiters, List.getElem?_append_left hlt, hk])
  | @asks m hwaiters =>
      rw [hwaiters, List.getElem?_set, hk]
      by_cases hm : m = k
      · rw [if_pos hm, if_pos (hm ▸ hlt)]
        cases w.idle
        · exact .inl rfl
        · exact .inr (.inr rfl)
      · exact .inl (if_neg hm)
  | @goesOn m hwaiters =>
      rw [hwaiters, List.getElem?_set, hk]
      by_cases hm : m = k
      · exact .inr (.inr (by rw [if_pos hm, if_pos (hm ▸ hlt)]))
      · exact .inl (if_neg hm)
  | wakes hwaiters =>
      exact .inr (.inl (by rw [hwaiters, List.getElem?_map, hk]; rfl))

omit [Arithmetic] in
/-- When a session is over whoever waits is told to go on. -/
theorem Tends.lets_go (h : Tends w v) (hflies : w.idle = false)
    (hrests : v.idle = true) (hk : w.waiters[k]? = some .waits) :
    v.waiters[k]? = some .woken ∧ .release k ∈ v.turns := by
  have hno : v.idle = false → v.waiters[k]? = some .woken
      ∧ .release k ∈ v.turns := by
    intro hidle
    rw [hidle] at hrests
    cases hrests
  cases h with
  | keeps _ hstill => exact hno (hstill hflies)
  | comes _ hidle => exact hno (hidle.trans hflies)
  | asks _ hidle => exact hno (hidle.trans hflies)
  | goesOn _ hidle => exact hno (hidle.trans hflies)
  | wakes hwaiters _ _ hreleases =>
      refine ⟨?_, hreleases k hk⟩
      rw [hwaiters, List.getElem?_map, hk]
      rfl

/-- In every world that a host can bring about everybody is tended. -/
theorem Reachable.tended (h : Reachable c w) : Tended w := by
  obtain ⟨agents, ds, hcourse⟩ := h
  refine (hcourse.keeps (P := fun u => Orderly u ∧ Tended u)
    ⟨.initial agents, nofun, nofun, nofun⟩ ?_).2
  rintro u d ⟨ho, hu⟩ hd -
  exact ⟨ho.after hd, (ho.tends d).tended hu⟩

/-! ## Sessions that end -/

namespace Execution

variable {e : Execution c w}

/-- Every session of an execution comes to its end. -/
def Concludes (e : Execution c w) : Prop :=
  ∀ k n, (e.world k).current = some n →
    ∃ m, k ≤ m ∧ (e.world m).isShut n = true

/-- A call that has ended stays so. -/
theorem shut_mono (e : Execution c w) (hw : Reachable c w) {l : Nat}
    (h : k ≤ l) (hshut : (e.world k).isShut n = true) :
    (e.world l).isShut n = true := by
  induction l, h using Nat.le_induction with
  | base => exact hshut
  | succ l _ ih =>
      rw [e.next]
      exact (hw.course (e.course l)).orderly.shut_after ih (e.deed l)

/-- No waiter is taken back. -/
theorem waiters_mono (e : Execution c w) {l : Nat} (h : k ≤ l) :
    (e.world k).waiters.length ≤ (e.world l).waiters.length := by
  induction l, h using Nat.le_induction with
  | base => exact Nat.le_refl _
  | succ l _ ih =>
      refine ih.trans ?_
      rw [e.next]
      by_cases hturn : e.deed l = .turn
      · rw [hturn]
        cases hact : (e.world l).active with
        | some i => exact (Adds.act (c := c) hact).waiters
        | none =>
            cases hround : (e.world l).round with
            | cons j rest => exact (Adds.turn (c := c) hact hround).waiters
            | nil =>
                have hstep : (e.world l).after c .turn
                    = (e.world l).nextRound := step_round hact hround
                rw [hstep]
                exact Nat.le_refl _
      · exact (Waits.after hturn).waiters

/-- The clock that goes on until a call has ended goes on later, too. -/
theorem Ticks.drop (h : e.Ticks n) (hw : Reachable c w) (k : Nat) :
    (e.drop k).Ticks n := by
  intro moment
  obtain ⟨i, hi⟩ := h moment
  have hle := Nat.le_add_left i k
  exact ⟨i, hi.imp (fun hlate => hlate.trans (e.now_mono hw hle))
    (e.shut_mono hw hle)⟩

/-- On the canvas animations last only so long, and the clock goes on until
    the call in flight has ended. -/
def Animates (e : Execution c w) : Prop :=
  c.config.mode = .canvas → (∃ span, (scene c).Lasts span)
    ∧ ∀ k n, (e.world k).current = some n → e.Ticks n

/-- In a fair execution every session comes to its end. -/
theorem Fair.concludes (hf : e.Fair) (hw : Reachable c w)
    (hticks : e.Animates) : e.Concludes := by
  intro k n hcur
  have hk := hw.course (e.course k)
  obtain ⟨i, hi⟩ : ∃ i, ((e.drop k).world i).isShut n = true := by
    by_cases hmode : c.config.mode = .canvas
    · obtain ⟨⟨span, hlasts⟩, hclock⟩ := hticks hmode
      exact (hf.drop k).shuts_lasting hk hlasts (.inl hcur)
        ((hclock k n hcur).drop hw k)
    · exact (hf.drop k).shuts hk hmode (.inl hcur)
  exact ⟨k + i, Nat.le_add_right k i, hi⟩

/-- A session that comes to its end does so by some deed. -/
theorem Concludes.rests (h : e.Concludes) (hw : Reachable c w)
    (hflies : (e.world k).idle = false) :
    ∃ m, k ≤ m ∧ (e.world m).idle = false
      ∧ (e.world (m + 1)).idle = true := by
  obtain ⟨s, hs, -⟩ := (hw.course (e.course k)).orderly.flying hflies
  obtain ⟨m, hm, hshut⟩ := h k s.call (current_eq_some.2 ⟨hflies, s, hs, rfl⟩)
  by_contra hno
  push Not at hno
  -- or else the session would stay in flight
  have hstays : ∀ l, k ≤ l → (e.world l).current = some s.call := by
    intro l hl
    induction l, hl using Nat.le_induction with
    | base => exact current_eq_some.2 ⟨hflies, s, hs, rfl⟩
    | succ l hl ih =>
        obtain ⟨hidle, s', hs', hcall⟩ := current_eq_some.1 ih
        have hmoves := (hw.course (e.course l)).orderly.moves (c := c) hidle
          hs' (e.deed l)
        rw [← e.next] at hmoves
        obtain ⟨s'', hs'', hcall'⟩ := hmoves.call hs'
        exact current_eq_some.2 ⟨by simpa using hno l hl hidle, s'', hs'',
          hcall'.trans hcall⟩
  obtain ⟨hidle, s', hs', hcall⟩ := current_eq_some.1 (hstays m hm)
  have hrests :=
    (hw.course (e.course m)).orderly.shut_idle hs' (hcall ▸ hshut)
  rw [hidle] at hrests
  cases hrests

/-- When every session comes to its end no agent acts for ever. -/
theorem Concludes.free (h : e.Concludes) (hw : Reachable c w) (k : Nat) :
    ∃ m, k ≤ m ∧ (e.world m).active = none := by
  cases hact : (e.world k).active with
  | none => exact ⟨k, Nat.le_refl k, hact⟩
  | some i =>
      have hflies := ((hw.course (e.course k)).orderly.acting i hact).1
      obtain ⟨m, hm, -, hrest⟩ := h.rests hw hflies
      exact ⟨m + 1, by omega,
        (hw.course (e.course (m + 1))).orderly.still hrest⟩

/-- The turn of a waiter that is taken brings the waiter as far as it
    says. -/
theorem takes_waiter {l : Nat} {x : Job} {state : Waiter}
    (hlen : k < (e.world l).waiters.length) (htakes : e.Takes l x)
    (hset : ∀ u : World, u.idle = (e.world l).idle →
      u.runJob c x = u.setWaiter k state) :
    (e.world (l + 1)).waiters[k]? = some state := by
  obtain ⟨hturn, hact, rest, hround⟩ := htakes
  rw [e.next, hturn]
  show ((e.world l).step c).waiters[k]? = some state
  rw [step_turn hact hround, hset { e.world l with round := rest } rfl]
  exact List.getElem?_set_self hlen

/-- **Everyone who waits for idleness goes on.**  In a fair execution in
    which every session comes to its end every waiter goes on at last. -/
theorem Fair.released (hf : e.Fair) (hw : Reachable c w)
    (hends : e.Concludes) {i : Nat}
    (hk : k < (e.world i).waiters.length) :
    ∃ m, i ≤ m ∧ (e.world m).waiters[k]? = some .released := by
  by_contra hno
  push Not at hno
  have hlen : ∀ m, i ≤ m → k < (e.world m).waiters.length := fun m hm =>
    hk.trans_le (e.waiters_mono hm)
  have htended : ∀ m, Tended (e.world m) :=
    fun m => (hw.course (e.course m)).tended
  have htaken : ∀ m, i ≤ m → ∀ x : Job, x ∈ (e.world m).turns →
      (∀ l, x ≠ .agent l) → ∃ l, m ≤ l ∧ e.Takes l x := fun m _ x hx hother =>
    hf.turn_taken (fun l _ => hends.free hw l) (Nat.le_refl m) hx
      fun l _ => hother l
  -- nobody is told to go on, for it would go on
  have hwoken : ∀ m, i ≤ m → (e.world m).waiters[k]? ≠ some .woken := by
    intro m hm hstate
    obtain ⟨l, hl, htakes⟩ :=
      htaken m hm _ ((htended m).woken k hstate) nofun
    exact hno (l + 1) (by omega)
      (e.takes_waiter (hlen l (by omega)) htakes fun u _ => rfl)
  -- at some time it waits
  obtain ⟨m, hm, hwaits⟩ : ∃ m, i ≤ m
      ∧ (e.world m).waiters[k]? = some .waits := by
    obtain ⟨state, hstate⟩ : ∃ state, (e.world i).waiters[k]? = some state :=
      ⟨_, List.getElem?_eq_getElem hk⟩
    cases state with
    | waits => exact ⟨i, Nat.le_refl i, hstate⟩
    | woken => exact absurd hstate (hwoken i (Nat.le_refl i))
    | released => exact absurd hstate (hno i (Nat.le_refl i))
    | asks =>
        obtain ⟨l, hl, htakes⟩ :=
          htaken i (Nat.le_refl i) _ ((htended i).asks k hstate) nofun
        have hstate : (e.world (l + 1)).waiters[k]?
            = some (if (e.world l).idle then .released else .waits) :=
          e.takes_waiter (hlen l hl) htakes fun u hidle => by
            rw [← hidle]
            rfl
        refine ⟨l + 1, by omega, ?_⟩
        split at hstate
        · exact absurd hstate (hno (l + 1) (by omega))
        · exact hstate
  -- and it goes on waiting, past the end of the session
  have hgoes : ∀ l, m ≤ l → (e.world l).waiters[k]? = some .waits := by
    intro l hl
    induction l, hl using Nat.le_induction with
    | base => exact hwaits
    | succ l hl ih =>
        have htends := (hw.course (e.course l)).orderly.tends (c := c)
          (e.deed l)
        rw [← e.next] at htends
        rcases htends.waiting ih with h | h | h
        · exact h
        · exact absurd h (hwoken (l + 1) (by omega))
        · exact absurd h (hno (l + 1) (by omega))
  obtain ⟨l, hl, -, hrest⟩ := hends.rests hw ((htended m).waits k hwaits)
  have hflies := (htended (l + 1)).waits k (hgoes (l + 1) (by omega))
  rw [hrest] at hflies
  cases hflies

end Execution

end World

end BlockStage
