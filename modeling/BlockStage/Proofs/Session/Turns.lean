import BlockStage.Proofs.Session.Course
import Mathlib.Algebra.Order.Group.Multiset
import Mathlib.Tactic.Abel

/-! # Turns to come — where everybody's next turn is kept

    A turn to come stands in the round, among those of the next round, or
    at the end of a sleep; the turn of the agent who is acting is still to
    come too, as long as it goes on.  `World.turns` gathers them from all
    these places, and each part of the event loop does something simple to
    the collection: most only move a turn from one place to another. -/

namespace BlockStage

deriving instance DecidableEq for Job

namespace Job

/-- The turn that a turn comes down to: a sleeper who is woken takes its
    own. -/
def proper : Job → Job
  | .wake sleeper => sleeper.proper
  | j => j

/-- Whether a turn belongs to a waiter for idleness. -/
def isWaiters : Job → Bool
  | .ask _ => true
  | .release _ => true
  | _ => false

/-- Whether a turn belongs to a session: to an agent of it or to its call
    after the agents have set out. -/
def isSessions : Job → Bool
  | .agent _ => true
  | .noticed => true
  | .join => true
  | .handled => true
  | _ => false

end Job

namespace World

/-- All turns to come, wherever they are kept. -/
def turns (w : World) : Multiset Job :=
  (w.active.toList.map Job.agent : Multiset Job)
    + (w.round.map Job.proper : Multiset Job)
    + (w.ready.map Job.proper : Multiset Job)
    + (w.timers.map fun t => t.sleeper.proper : Multiset Job)

variable {w : World}

/-- Where a turn to come is kept. -/
theorem mem_turns {j : Job} :
    j ∈ w.turns ↔ (∃ i, w.active = some i ∧ .agent i = j)
      ∨ (∃ x ∈ w.round, x.proper = j) ∨ (∃ x ∈ w.ready, x.proper = j)
      ∨ ∃ t ∈ w.timers, t.sleeper.proper = j := by
  simp only [turns, Multiset.mem_add, Multiset.mem_coe, List.mem_map,
    Option.mem_toList, or_assoc]

/-- A world with the same turns kept in the same places has the same turns
    to come. -/
theorem turns_congr {v : World} (ha : v.active = w.active)
    (hr : v.round = w.round) (hq : v.ready = w.ready)
    (ht : v.timers = w.timers) : v.turns = w.turns := by
  simp only [turns, ha, hr, hq, ht]

/-! ## Moving turns -/

/-- A turn put into the next round. -/
theorem turns_enqueue (w : World) (j : Job) :
    (w.enqueue j).turns = j.proper ::ₘ w.turns := by
  simp only [turns, enqueue, List.map_append, List.map_cons, List.map_nil,
    ← Multiset.coe_add]
  rw [show ((([j.proper] : List Job) : Multiset Job)) = {j.proper} from rfl,
    ← Multiset.singleton_add]
  abel

/-- Turns put into the next round. -/
theorem turns_ready (w : World) (js : List Job) :
    ({ w with ready := w.ready ++ js }).turns
      = (js.map Job.proper : Multiset Job) + w.turns := by
  simp only [turns, List.map_append, ← Multiset.coe_add]
  abel

/-- The first turn of the round is taken out. -/
theorem turns_round {j : Job} {rest : List Job}
    (h : w.round = j :: rest) :
    w.turns = j.proper ::ₘ ({ w with round := rest }).turns := by
  simp only [turns, h, List.map_cons, ← Multiset.cons_coe]
  simp only [← Multiset.singleton_add]
  abel

/-- The agent who is acting stops. -/
theorem turns_active {i : Nat} (h : w.active = some i) :
    w.turns = .agent i ::ₘ ({ w with active := none }).turns := by
  simp only [turns, h, Option.toList, List.map_cons, List.map_nil]
  rw [← Multiset.singleton_add, Multiset.coe_nil, Multiset.coe_singleton]
  abel

/-- Where a timer is put does not matter. -/
theorem insertTimer_perm (t : Timer) (ts : List Timer) :
    (insertTimer t ts).Perm (t :: ts) := by
  induction ts with
  | nil => exact List.Perm.refl _
  | cons u us ih =>
      simp only [insertTimer]
      split
      · exact List.Perm.refl _
      · exact (ih.cons u).trans (List.Perm.swap t u us)

/-- A sleep broken off only moves the turn of the sleeper, if there is no
    more than one. -/
theorem turns_rouse {p : Timer → Bool} {j : Job}
    (hj : ∀ t, p t = true → t.sleeper.proper = j.proper)
    (hone : w.turns.count j.proper ≤ 1) :
    (w.rouse p j).turns = w.turns := by
  unfold rouse
  split
  · rename_i hany
    -- the sleepers that are woken are all of them `j`, hence just one
    have hsplit : (w.timers.map fun t => t.sleeper.proper : Multiset Job)
        = ((w.timers.filter p).map fun t => t.sleeper.proper
            : Multiset Job)
          + ((w.timers.filter fun t => !p t).map
            fun t => t.sleeper.proper : Multiset Job) := by
      rw [Multiset.coe_add, ← List.map_append]
      refine Multiset.coe_eq_coe.2 (List.Perm.map _ ?_)
      exact (List.filter_append_perm p w.timers).symm
    have hall : (w.timers.filter p).map (fun t => t.sleeper.proper)
        = List.replicate (w.timers.filter p).length j.proper := by
      refine List.eq_replicate_iff.2 ⟨List.length_map _, ?_⟩
      intro k hk
      obtain ⟨t, ht, rfl⟩ := List.mem_map.1 hk
      exact hj t (List.mem_filter.1 ht).2
    have hpos : 0 < (w.timers.filter p).length := by
      obtain ⟨t, ht, hw⟩ := List.any_eq_true.1 hany
      exact List.length_pos_of_mem (List.mem_filter.2 ⟨ht, hw⟩)
    have hle : (w.timers.filter p).length ≤ 1 := by
      refine Nat.le_trans ?_ hone
      simp only [turns, hsplit, hall, Multiset.count_add,
        Multiset.coe_count, List.count_replicate_self]
      omega
    have hlen : (w.timers.filter p).length = 1 := by omega
    rw [turns_enqueue]
    simp only [turns, hsplit, hall, hlen, List.replicate_one,
      Multiset.coe_singleton, ← Multiset.singleton_add]
    abel
  · rfl

variable [Arithmetic]

/-- Whoever goes to sleep has a turn to come. -/
theorem turns_sleep (w : World) (seconds : Scalar) (j : Job) :
    (w.sleep seconds j).turns = j.proper ::ₘ w.turns := by
  unfold sleep
  split
  · exact turns_enqueue w j
  · have hp := (insertTimer_perm ⟨w.now.add seconds, j⟩ w.timers).map
      fun t => t.sleeper.proper
    simp only [turns, Multiset.coe_eq_coe.2 hp, List.map_cons,
      ← Multiset.cons_coe]
    simp only [← Multiset.singleton_add]
    abel

/-- The agent who acts gives up its turn and has another one to come. -/
theorem turns_suspend {i : Nat} {t : AgentTask} {seconds : Scalar}
    (h : w.active = some i) : (w.suspend i t seconds).turns = w.turns := by
  rw [suspend, turns_sleep, turns_active h]
  rfl

/-- A new round only moves turns. -/
theorem turns_nextRound (h : w.round = []) : w.nextRound.turns = w.turns := by
  have hsplit : (w.timers.map fun t => t.sleeper.proper)
      = ((w.timers.takeWhile (isDue w.nextTime)).map
          fun t => t.sleeper.proper)
        ++ (w.timers.dropWhile (isDue w.nextTime)).map
          fun t => t.sleeper.proper := by
    rw [← List.map_append, List.takeWhile_append_dropWhile]
  have hwake : ((w.timers.takeWhile (isDue w.nextTime)).map
        fun t => Job.wake t.sleeper).map Job.proper
      = (w.timers.takeWhile (isDue w.nextTime)).map
        fun t => t.sleeper.proper := by
    rw [List.map_map]
    rfl
  simp only [turns, nextRound, h, hsplit, List.map_append, hwake,
    List.map_nil, ← Multiset.coe_add, Multiset.coe_nil]
  abel

end World

end BlockStage
