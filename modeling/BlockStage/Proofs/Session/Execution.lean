import BlockStage.Proofs.Session.Queue

/-! # Executions — courses without an end

    An execution is a course that never stops.  It is fair if the event
    loop goes on taking turns and every sleep is over at some time; how
    long anything takes is left open.  As long as no agent goes on acting
    for ever, whatever waits in a fair execution has its turn at last: a
    turn in the round moves to its head, a turn for the next round gets into
    the round when this one is over, and a sleep leads to one of the two. -/

namespace BlockStage

namespace World

variable [Arithmetic] {c : Coordinator} {w : World}

/-- Deeds without an end, each of which can be done. -/
structure Execution (c : Coordinator) (w : World) where
  /-- The world after so many deeds. -/
  world : Nat → World
  /-- The deeds, in their order. -/
  deed : Nat → Deed
  start : world 0 = w
  admits : ∀ k, (world k).Admits (deed k)
  next : ∀ k, world (k + 1) = (world k).after c (deed k)

namespace Execution

/-- The first deeds of an execution. -/
def deeds (e : Execution c w) (k : Nat) : List Deed :=
  (List.range k).map e.deed

/-- The first deeds of an execution are a course. -/
theorem course (e : Execution c w) (k : Nat) :
    Course c w (e.deeds k) (e.world k) := by
  induction k with
  | zero =>
      rw [e.start]
      exact .nil w
  | succ k ih =>
      rw [e.next, deeds, List.range_succ, List.map_append, List.map_singleton]
      exact .snoc _ ih (e.admits k)

theorem mem_deeds {e : Execution c w} {k : Nat} {d : Deed}
    (h : d ∈ e.deeds k) : ∃ i, e.deed i = d := by
  obtain ⟨i, -, hi⟩ := List.mem_map.1 h
  exact ⟨i, hi⟩

/-- A turn at the head of the round is taken. -/
def Takes (e : Execution c w) (k : Nat) (j : Job) : Prop :=
  e.deed k = .turn ∧ (e.world k).active = none
    ∧ ∃ rest, (e.world k).round = j :: rest

/-- Turns are taken again and again, and every sleep is over at some
    time. -/
structure Fair (e : Execution c w) : Prop where
  turns : ∀ k, ∃ m, k ≤ m ∧ e.deed m = .turn
  sleeps : ∀ k, ∀ t ∈ (e.world k).timers,
    ∃ m, k ≤ m ∧ t ∉ (e.world m).timers

namespace Fair

variable {e : Execution c w} (hf : e.Fair)

include hf

/-- The next turn that is taken, and what waits until then. -/
theorem next_turn (k : Nat) :
    ∃ m, k ≤ m ∧ e.deed m = .turn ∧ Waits (e.world k) (e.world m) := by
  classical
  obtain ⟨n, hn, hturn⟩ := hf.turns k
  -- by induction on how far the turn that is known of is away
  obtain ⟨i, rfl⟩ := Nat.exists_eq_add_of_le hn
  clear hn
  induction i generalizing k with
  | zero => exact ⟨k, Nat.le_refl _, hturn, .of_eq rfl rfl rfl rfl rfl⟩
  | succ i ih =>
      by_cases hnow : e.deed k = .turn
      · exact ⟨k, Nat.le_refl _, hnow, .of_eq rfl rfl rfl rfl rfl⟩
      · have heq : k + (i + 1) = k + 1 + i := by omega
        obtain ⟨m, hm, hmt, hwaits⟩ := ih (k + 1) (heq ▸ hturn)
        refine ⟨m, by omega, hmt, ?_⟩
        have hstep : Waits (e.world k) (e.world (k + 1)) := by
          rw [e.next]
          exact Waits.after hnow
        exact hstep.trans hwaits

variable {k₀ : Nat}
  (hfree : ∀ k, k₀ ≤ k → ∃ m, k ≤ m ∧ (e.world m).active = none)

include hfree

/-- The next turn that is taken while nobody acts: until then the round
    stays as it is, and what waits goes on waiting. -/
theorem free_turn {k : Nat} (hk : k₀ ≤ k) :
    ∃ m, k ≤ m ∧ e.deed m = .turn ∧ (e.world m).active = none
      ∧ (e.world m).round = (e.world k).round
      ∧ (e.world k).ready <+: (e.world m).ready := by
  obtain ⟨n, hn, hnone⟩ := hfree k hk
  -- by induction on how far the moment at which nobody acts is away
  obtain ⟨i, rfl⟩ := Nat.exists_eq_add_of_le hn
  clear hn
  induction i generalizing k with
  | zero =>
      obtain ⟨m, hm, hturn, hwaits⟩ := hf.next_turn k
      exact ⟨m, hm, hturn, hwaits.active.trans hnone, hwaits.round,
        hwaits.ready⟩
  | succ i ih =>
      have heq : k + (i + 1) = k + 1 + i := by omega
      obtain ⟨m, hm, hturn, hquiet, hround, hready⟩ :=
        ih (k := k + 1) (by omega) (heq ▸ hnone)
      by_cases hnow : e.deed k = .turn
      · cases hact : (e.world k).active with
        | none => exact ⟨k, Nat.le_refl _, hnow, hact, rfl, List.prefix_rfl⟩
        | some j =>
            have hadds : Adds (e.world k) (e.world (k + 1)) := by
              rw [e.next, hnow]
              exact Adds.act hact
            exact ⟨m, by omega, hturn, hquiet, hround.trans hadds.round,
              hadds.ready.trans hready⟩
      · have hwaits : Waits (e.world k) (e.world (k + 1)) := by
          rw [e.next]
          exact Waits.after hnow
        exact ⟨m, by omega, hturn, hquiet, hround.trans hwaits.round,
          hwaits.ready.trans hready⟩

/-- The head of the round is taken, and nothing else of it. -/
theorem takes {k : Nat} (hk : k₀ ≤ k) {j : Job} {rest : List Job}
    (hround : (e.world k).round = j :: rest) :
    ∃ m, k ≤ m ∧ (e.world m).round = j :: rest ∧ e.deed m = .turn
      ∧ (e.world m).active = none
      ∧ (e.world k).ready <+: (e.world m).ready
      ∧ (e.world (m + 1)).round = rest
      ∧ (e.world m).ready <+: (e.world (m + 1)).ready := by
  obtain ⟨m, hm, hturn, hquiet, hsame, hready⟩ := hf.free_turn hfree hk
  have hround' : (e.world m).round = j :: rest := hsame.trans hround
  have hadds := Adds.turn (c := c) hquiet hround'
  rw [← hturn, ← e.next] at hadds
  exact ⟨m, hm, hround', hturn, hquiet, hready, hadds.round, hadds.ready⟩

/-- A turn in the round is taken at last. -/
theorem round_taken {k : Nat} (hk : k₀ ≤ k) {j : Job}
    (hj : j ∈ (e.world k).round) : ∃ m, k ≤ m ∧ e.Takes m j := by
  generalize hl : (e.world k).round = l at hj
  induction l generalizing k with
  | nil => cases hj
  | cons x rest ih =>
      obtain ⟨m, hm, hround, hturn, hquiet, -, hnext, -⟩ :=
        hf.takes hfree hk hl
      rcases List.mem_cons.1 hj with rfl | hj
      · exact ⟨m, hm, hturn, hquiet, rest, hround⟩
      · obtain ⟨m', hm', hrest⟩ := ih (k := m + 1) (by omega) hnext hj
        exact ⟨m', by omega, hrest⟩

/-- A round is over at last, and then the next one begins. -/
theorem ready_enters {k : Nat} (hk : k₀ ≤ k) {j : Job}
    (hj : j ∈ (e.world k).ready) :
    ∃ m, k ≤ m ∧ j ∈ (e.world m).round := by
  generalize hl : (e.world k).round = l
  induction l generalizing k with
  | nil =>
      obtain ⟨m, hm, hturn, hquiet, hsame, hready⟩ := hf.free_turn hfree hk
      refine ⟨m + 1, by omega, ?_⟩
      have hstep : e.world (m + 1) = (e.world m).nextRound := by
        rw [e.next, hturn]
        exact step_round hquiet (hsame.trans hl)
      rw [hstep]
      exact List.mem_append_left _ (hready.subset hj)
  | cons x rest ih =>
      obtain ⟨m, hm, -, -, -, hready, hnext, hready'⟩ :=
        hf.takes hfree hk hl
      obtain ⟨m', hm', hmem⟩ :=
        ih (k := m + 1) (by omega) (hready'.subset (hready.subset hj)) hnext
      exact ⟨m', by omega, hmem⟩

/-- A turn that waits in this round or for the next one is taken at last:
    a sleeper that is woken takes its own. -/
theorem waiting_taken {k : Nat} (hk : k₀ ≤ k) {j : Job}
    (hj : j ∈ (e.world k).round ∨ j ∈ (e.world k).ready) :
    ∃ m, k ≤ m ∧ e.Takes m j.proper := by
  have hround : ∃ m, k ≤ m ∧ e.Takes m j := by
    rcases hj with hj | hj
    · exact hf.round_taken hfree hk hj
    · obtain ⟨m, hm, hmem⟩ := hf.ready_enters hfree hk hj
      obtain ⟨m', hm', hrest⟩ := hf.round_taken hfree (by omega) hmem
      exact ⟨m', by omega, hrest⟩
  induction j generalizing k with
  | wake sleeper ih =>
      obtain ⟨m, hm, htakes⟩ := hround
      obtain ⟨hturn, hquiet, rest, htaken⟩ := htakes
      have hwoken : sleeper ∈ (e.world (m + 1)).ready := by
        rw [e.next, hturn]
        show sleeper ∈ ((e.world m).step c).ready
        rw [step_turn hquiet htaken]
        exact List.mem_append_right _ (List.mem_singleton_self _)
      obtain ⟨m₁, hm₁, hmem⟩ := hf.ready_enters hfree (by omega) hwoken
      obtain ⟨m₂, hm₂, hrest⟩ := hf.round_taken hfree (by omega) hmem
      obtain ⟨m', hm', hdone⟩ := ih (k := m + 1) (by omega) (.inr hwoken)
        ⟨m₂, by omega, hrest⟩
      exact ⟨m', by omega, hdone⟩
  | _ => exact hround

/-- A sleeper takes its turn at last. -/
theorem sleeper_taken {k : Nat} (hk : k₀ ≤ k) {t : Timer}
    (ht : t ∈ (e.world k).timers) :
    ∃ m, k ≤ m ∧ e.Takes m t.sleeper.proper := by
  obtain ⟨n, hn, hgone⟩ := hf.sleeps k t ht
  obtain ⟨i, rfl⟩ := Nat.exists_eq_add_of_le hn
  clear hn
  induction i generalizing k with
  | zero => exact absurd ht hgone
  | succ i ih =>
      by_cases hstill : t ∈ (e.world (k + 1)).timers
      · have heq : k + (i + 1) = k + 1 + i := by omega
        obtain ⟨m, hm, hdone⟩ := ih (by omega) hstill (heq ▸ hgone)
        exact ⟨m, by omega, hdone⟩
      · -- the sleep was broken off, or its end has begun a round
        have hwait : t.sleeper ∈ (e.world (k + 1)).ready
            ∨ .wake t.sleeper ∈ (e.world (k + 1)).round := by
          rw [e.next] at hstill ⊢
          by_cases hturn : e.deed k = .turn
          · rw [hturn] at hstill ⊢
            cases hact : (e.world k).active with
            | some i =>
                exact absurd ((Adds.act (c := c) hact).timers t ht) hstill
            | none =>
                cases hround : (e.world k).round with
                | cons j rest =>
                    exact absurd ((Adds.turn (c := c) hact hround).timers t
                      ht) hstill
                | nil =>
                    have hstep : (e.world k).after c .turn
                        = (e.world k).nextRound := step_round hact hround
                    rw [hstep] at hstill ⊢
                    rw [← List.takeWhile_append_dropWhile
                      (p := isDue (e.world k).nextTime)
                      (l := (e.world k).timers)] at ht
                    rcases List.mem_append.1 ht with hdue | hlater
                    · exact .inr (List.mem_append_right _
                        (List.mem_map.2 ⟨t, hdue, rfl⟩))
                    · exact absurd hlater hstill
          · rcases (Waits.after (c := c) hturn).timers t ht with hno | hyes
            · exact absurd hno hstill
            · exact .inl hyes
        rcases hwait with hready | hround
        · obtain ⟨m, hm, hdone⟩ :=
            hf.waiting_taken hfree (by omega) (.inr hready)
          exact ⟨m, by omega, hdone⟩
        · obtain ⟨m, hm, hdone⟩ :=
            hf.waiting_taken hfree (by omega) (.inl hround)
          exact ⟨m, by omega, hdone⟩

/-- Every turn to come, but that of an agent who is acting, is taken at
    last. -/
theorem turn_taken {k : Nat} (hk : k₀ ≤ k) {j : Job}
    (hj : j ∈ (e.world k).turns)
    (hother : ∀ i, (e.world k).active = some i → j ≠ .agent i) :
    ∃ m, k ≤ m ∧ e.Takes m j := by
  simp only [World.turns, Multiset.mem_add, Multiset.mem_coe,
    List.mem_map] at hj
  rcases hj with ((hj | hj) | hj) | hj
  · obtain ⟨i, hi, rfl⟩ := hj
    exact absurd rfl (hother i (Option.mem_toList.1 hi))
  · obtain ⟨x, hx, rfl⟩ := hj
    exact hf.waiting_taken hfree hk (.inl hx)
  · obtain ⟨x, hx, rfl⟩ := hj
    exact hf.waiting_taken hfree hk (.inr hx)
  · obtain ⟨t, ht, rfl⟩ := hj
    exact hf.sleeper_taken hfree hk ht

end Fair

/-! ## There are fair executions -/

/-- When nothing waits a turn does nothing. -/
theorem step_still (ha : w.active = none) (hr : w.round = [])
    (hq : w.ready = []) (ht : w.timers = []) : w.step c = w := by
  obtain ⟨now, active, round, ready, timers, agents, session, idle, calls,
    waiters, shown, completed, reported⟩ := w
  subst ha hr hq ht
  rfl

/-- Nothing waits, so that nothing happens any more. -/
def stay (w : World) (ha : w.active = none) (hr : w.round = [])
    (hq : w.ready = []) (ht : w.timers = []) (hn : w.now.isFinite = true) :
    Execution c w where
  world _ := w
  deed _ := .turn
  start := rfl
  admits _ := fun _ _ => by
    rw [nextTime, hq, ht]
    exact hn
  next _ := (step_still ha hr hq ht).symm

/-- What an execution is from a later world on. -/
def drop (e : Execution c w) (k : Nat) : Execution c (e.world k) where
  world i := e.world (k + i)
  deed i := e.deed (k + i)
  start := rfl
  admits i := e.admits (k + i)
  next i := e.next (k + i)

/-- What has happened before does not matter. -/
theorem Fair.drop {e : Execution c w} (hf : e.Fair) (k : Nat) :
    (e.drop k).Fair where
  turns i := by
    obtain ⟨m, hm, hturn⟩ := hf.turns (k + i)
    obtain ⟨l, rfl⟩ := Nat.exists_eq_add_of_le (show k ≤ m by omega)
    exact ⟨l, by omega, hturn⟩
  sleeps i t ht := by
    obtain ⟨m, hm, hgone⟩ := hf.sleeps (k + i) t ht
    obtain ⟨l, rfl⟩ := Nat.exists_eq_add_of_le (show k ≤ m by omega)
    exact ⟨l, by omega, hgone⟩

/-- A deed before an execution. -/
def cons {d : Deed} (hd : w.Admits d) (e : Execution c (w.after c d)) :
    Execution c w where
  world
    | 0 => w
    | k + 1 => e.world k
  deed
    | 0 => d
    | k + 1 => e.deed k
  start := rfl
  admits
    | 0 => hd
    | k + 1 => e.admits k
  next
    | 0 => e.start
    | k + 1 => e.next k

/-- One deed more does not matter. -/
theorem Fair.cons {d : Deed} {hd : w.Admits d}
    {e : Execution c (w.after c d)} (hf : e.Fair) :
    (Execution.cons hd e).Fair where
  turns k := by
    obtain ⟨m, hm, hturn⟩ := hf.turns k
    exact ⟨m + 1, by omega, hturn⟩
  sleeps k t ht := by
    cases k with
    | zero =>
        by_cases hstill : t ∈ (e.world 0).timers
        · obtain ⟨m, -, hgone⟩ := hf.sleeps 0 t hstill
          exact ⟨m + 1, by omega, hgone⟩
        · exact ⟨1, by omega, hstill⟩
    | succ k =>
        obtain ⟨m, hm, hgone⟩ := hf.sleeps k t ht
        exact ⟨m + 1, by omega, hgone⟩

end Execution

/-- A course to a world in which nothing waits can go on fairly, with turns
    alone. -/
theorem Course.continues {ds : List Deed} {v : World} (h : Course c w ds v)
    (ha : v.active = none) (hr : v.round = []) (hq : v.ready = [])
    (ht : v.timers = []) (hn : v.now.isFinite = true) :
    ∃ e : Execution c w, e.Fair ∧ ∀ k, e.deed k ∈ ds ∨ e.deed k = .turn := by
  have hback : ∀ {w v : World} {ds : List Deed} {P : Deed → Prop},
      Course c w ds v → (∀ d ∈ ds, P d) →
      (∃ e : Execution c v, e.Fair ∧ ∀ k, P (e.deed k)) →
      ∃ e : Execution c w, e.Fair ∧ ∀ k, P (e.deed k) := by
    intro w v ds P h hds
    induction h with
    | nil => exact id
    | snoc d _ hd ih =>
        rintro ⟨e, hf, hdeeds⟩
        refine ih (fun x hx => hds x (List.mem_append_left _ hx))
          ⟨.cons hd e, hf.cons, fun k => ?_⟩
        cases k with
        | zero =>
            exact hds d (List.mem_append_right _ (List.mem_singleton.2 rfl))
        | succ k => exact hdeeds k
  refine hback (P := fun d => d ∈ ds ∨ d = .turn) h (fun d hd => .inl hd)
    ⟨.stay v ha hr hq ht hn, ⟨?_, ?_⟩, fun _ => .inr rfl⟩
  · exact fun k => ⟨k, Nat.le_refl _, rfl⟩
  · intro k t hmem
    have hmem : t ∈ v.timers := hmem
    rw [ht] at hmem
    cases hmem

/-- Whether nothing waits, and the clock shows a moment. -/
def nothingWaits (w : World) : Bool :=
  w.active.isNone && w.round.isEmpty && w.ready.isEmpty && w.timers.isEmpty
    && w.now.isFinite

/-- Where so many turns leave nothing waiting there is a fair execution of
    turns alone. -/
theorem turns_to_rest (k : Nat)
    (h : (w.follow c (List.replicate k .turn)).any nothingWaits = true) :
    ∃ e : Execution c w, e.Fair ∧ ∀ i, e.deed i = .turn := by
  obtain ⟨v, hv, hrest⟩ : ∃ v, w.follow c (List.replicate k .turn) = some v
      ∧ v.nothingWaits = true := by
    cases hv : w.follow c (List.replicate k .turn) with
    | none => rw [hv] at h; cases h
    | some v => exact ⟨v, rfl, by simpa [hv] using h⟩
  simp only [nothingWaits, Bool.and_eq_true, Option.isNone_iff_eq_none,
    List.isEmpty_iff] at hrest
  obtain ⟨⟨⟨⟨ha, hr⟩, hq⟩, ht⟩, hn⟩ := hrest
  obtain ⟨e, hf, hdeeds⟩ := (Course.follow hv).continues ha hr hq ht hn
  exact ⟨e, hf, fun i => (hdeeds i).elim List.eq_of_mem_replicate id⟩

end World

end BlockStage
