import BlockStage.Proofs.Run.Unrolling
import Mathlib.Algebra.Group.Int.Defs

/-! # Unrolled programs — a program runs as its unrolled form

    Steps that only one of two runs takes are never taken for ever, and so
    whatever a run comes to its unrolled run comes to, and the other way
    round.  The one thing that tells them apart is the number of loops cut
    short, which is that of the loops entered with a count above the
    ceiling (`Solo.run_unrolled`). -/

namespace BlockStage

open Instruction Act

namespace Unrolls

variable [Arithmetic] {s : Scene} {o : Observer} {ceiling : Int}
  {r u : Solo}

/-- Whatever a run comes to, its unrolled run comes to. -/
theorem run_forth (hc : s.ceiling = .int ceiling) (h : Unrolls ceiling r u)
    (k : Nat) :
    ∃ j, Unrolls ceiling (Solo.run s o k r) (Solo.run s o j u) := by
  refine Solo.run_follows h ?_ k
  intro r u h hnone
  rcases h.step hc hnone with hboth | ⟨hsingle, -⟩
  · exact ⟨1, by rw [Solo.run_succ]; exact hboth⟩
  · exact ⟨0, hsingle⟩

/-- A run catches up with every step of its unrolled run: steps that the
    unrolled run does not take lower the cost of what is left to do. -/
theorem catches_up (hc : s.ceiling = .int ceiling)
    (h : Unrolls ceiling r u) (hnone : r.outcome = none) :
    ∃ m, Unrolls ceiling (Solo.run s o m r) (u.step s o) := by
  generalize hn : cost s.ceiling r.walker.todo = n
  induction n using Nat.strongRecOn generalizing r with
  | ind n ih =>
      rcases h.step (o := o) hc hnone with hboth | ⟨hsingle, hcost⟩
      · refine ⟨1, ?_⟩
        rw [Solo.run_succ]
        exact hboth
      · have hgoes : (r.step s o).outcome = none :=
          hsingle.outcome.symm.trans (h.outcome.trans hnone)
        obtain ⟨m, hm⟩ := ih _ (hn ▸ hcost) hsingle hgoes rfl
        refine ⟨m + 1, ?_⟩
        rw [Solo.run, hnone]
        exact hm

/-- Whatever an unrolled run comes to, the run comes to. -/
theorem run_back (hc : s.ceiling = .int ceiling) (h : Unrolls ceiling r u)
    (j : Nat) :
    ∃ k, Unrolls ceiling (Solo.run s o k r) (Solo.run s o j u) := by
  refine Solo.run_follows (R := fun u r => Unrolls ceiling r u) h ?_ j
  intro u r h hnone
  exact h.catches_up hc (h.outcome.symm.trans hnone)

end Unrolls

/-! ## Loops cut short -/

namespace Act

/-- Loops whose count is above a ceiling. -/
def exceeds (ceiling : Int) : Act → Bool
  | perform (.repeatTimes (.num (.int k)) _) => ceiling < k
  | perform (.repeatBounded (.num (.int k)) _) => ceiling < k
  | _ => false

/-- Loops with counts are cut short when their counts are above the
    ceiling. -/
theorem isCut_counted {ceiling : Int} {act : Act}
    (h : act.Every CountedLoop) :
    act.isCut (.int ceiling) = act.exceeds ceiling := by
  have hcount : ∀ k : Int, 0 ≤ k →
      isCut.cuts (.int ceiling) (.int k) = decide (ceiling < k) := by
    intro k hk
    unfold isCut.cuts
    rw [grant_int, if_neg (Int.not_lt.2 hk)]
    by_cases hcut : ceiling < k
    · rw [if_pos hcut]
      exact (decide_eq_true hcut).symm
    · rw [if_neg hcut]
      exact (decide_eq_false hcut).symm
  cases act with
  | perform i =>
      cases i with
      | repeatTimes v body =>
          obtain ⟨k, rfl, hk⟩ := h.1
          exact hcount k hk
      | repeatBounded v body =>
          obtain ⟨k, rfl, hk⟩ := h.1
          exact hcount k hk
      | _ => rfl
  | _ => rfl

end Act

namespace Solo

/-- Whether the next act of a run enters a loop whose count is above a
    ceiling. -/
def enters (ceiling : Int) (r : Solo) : Bool :=
  r.outcome.isNone && r.walker.todo.head?.any (Act.exceeds ceiling)

variable [Arithmetic] {s : Scene} {o : Observer} {ceiling : Int} {r : Solo}

/-- How many loops with counts above a ceiling are entered within so many
    steps. -/
def entries (s : Scene) (o : Observer) (ceiling : Int) (r : Solo)
    (k : Nat) : Nat :=
  (List.range k).countP fun i => (run s o i r).enters ceiling

/-- Loops are cut short whenever they are entered with a count above the
    ceiling, and then only. -/
theorem run_truncations (hc : s.ceiling = .int ceiling)
    (hcounted : Act.EveryOf CountedLoop r.walker.todo) (k : Nat) :
    (run s o k r).walker.truncations
        = r.walker.truncations + entries s o ceiling r k
      ∧ Act.EveryOf CountedLoop (run s o k r).walker.todo := by
  induction k with
  | zero => exact ⟨rfl, hcounted⟩
  | succ k ih =>
      obtain ⟨ih, hevery⟩ := ih
      rw [entries, List.range_succ, List.countP_append, ← entries, run_succ,
        List.countP_singleton]
      cases hnone : (run s o k r).outcome with
      | some outcome =>
          rw [step_over (by rw [hnone]; rfl)]
          refine ⟨?_, hevery⟩
          simp [enters, hnone, ih]
      | none =>
          obtain ⟨-, hwalker, -⟩ := step_spec (s := s) (o := o) hnone
          rw [hwalker]
          refine ⟨?_, Walker.step_everyOf hevery⟩
          cases htodo : (run s o k r).walker.todo with
          | nil =>
              have hnext : ((run s o k r).next s).walker
                  = (run s o k r).walker := by
                unfold next Walker.step
                rw [htodo]
              rw [hnext, ih]
              simp [enters, htodo]
          | cons act rest =>
              have hact := (Act.everyOf_cons.1 (htodo ▸ hevery)).1
              have hstep : ((run s o k r).next s).walker.truncations
                  = (run s o k r).walker.truncations
                    + if act.isCut s.ceiling then 1 else 0 :=
                Walker.step_truncations _ act htodo
              rw [hc, Act.isCut_counted hact] at hstep
              rw [hstep, ih]
              simp [enters, hnone, htodo, Nat.add_assoc]

end Solo

/-- A program whose loops have counts runs as its unrolled form does:
    whatever one of the two runs comes to, the other comes to, with the
    same agent, the same snapshots at the same times, the same clock and the
    same end.  The unrolled run cuts no loop short; the run cuts short as
    many as it enters with a count above the ceiling. -/
theorem Solo.run_unrolled [Arithmetic] {s : Scene} {ceiling : Int}
    (hc : s.ceiling = .int ceiling) (o : Observer) {p : Program}
    (hp : EveryOf CountedLoop p) (a : Agent) (running : Bool) :
    (∀ k, ∃ j, (Solo.run s o k (.start p a running)).Alike
        (Solo.run s o j
          (.start (Instruction.unrollAll ceiling p) a running)))
      ∧ (∀ j, ∃ k, (Solo.run s o k (.start p a running)).Alike
        (Solo.run s o j
          (.start (Instruction.unrollAll ceiling p) a running)))
      ∧ (∀ j, (Solo.run s o j (.start (Instruction.unrollAll ceiling p) a
        running)).walker.truncations = 0)
      ∧ ∀ k, (Solo.run s o k (.start p a running)).walker.truncations
        = Solo.entries s o ceiling (.start p a running) k := by
  have hstart : Unrolls ceiling (.start p a running)
      (.start (Instruction.unrollAll ceiling p) a running) := by
    refine ⟨⟨rfl, rfl, rfl, rfl, rfl, rfl⟩, ?_, rfl, ?_⟩
    · exact congrArg (fun todo => .place :: .check :: todo)
        (unrollAll_body p).symm
    · exact Walker.start_everyOf hp
  refine ⟨fun k => ?_, fun j => ?_, fun j => ?_, fun k => ?_⟩
  · obtain ⟨j, hj⟩ := hstart.run_forth hc k
    exact ⟨j, hj.toAlike⟩
  · obtain ⟨k, hk⟩ := hstart.run_back hc j
    exact ⟨k, hk.toAlike⟩
  · obtain ⟨k, hk⟩ := hstart.run_back (o := o) hc j
    exact hk.uncut
  · rw [(Solo.run_truncations hc (Walker.start_everyOf hp) k).1]
    exact Nat.zero_add _

attribute [local instance] Arithmetic.binary64

/-- A grid on which no loop may have more than two passes. -/
def twoPasses : Scene :=
  ⟨.standard, none, .int 2⟩

/-- A loop within a loop, both with more passes than two. -/
def nestedLoops : Program :=
  [.repeatTimes (.int 3) [.move 1, .repeatBounded (.int 7) [.turnRight 90]]]

/-- The loops above two passes unroll to two copies each, and are entered
    three times. -/
theorem run_unrolled_nested :
    EveryOf CountedLoop nestedLoops
      ∧ (∃ k, (Solo.run twoPasses (.quiet .present) k
          (.start nestedLoops (.atStart (.str "a") [0, 0] 90)
            true)).walker.truncations = 3)
      ∧ ∀ k, ∃ j, (Solo.run twoPasses (.quiet .present) k
          (.start nestedLoops (.atStart (.str "a") [0, 0] 90) true)).Alike
        (Solo.run twoPasses (.quiet .present) j
          (.start (Instruction.unrollAll 2 nestedLoops)
            (.atStart (.str "a") [0, 0] 90) true)) := by
  have hcounted : EveryOf CountedLoop nestedLoops :=
    ⟨⟨⟨3, rfl, by decide⟩, trivial,
      ⟨⟨7, rfl, by decide⟩, trivial, trivial⟩, trivial⟩, trivial⟩
  obtain ⟨hforth, -, -, hcuts⟩ := Solo.run_unrolled (s := twoPasses) rfl
    (.quiet .present) hcounted (.atStart (.str "a") [0, 0] 90) true
  refine ⟨hcounted, ⟨80, ?_⟩, hforth⟩
  rw [hcuts]
  decide +kernel

end BlockStage
