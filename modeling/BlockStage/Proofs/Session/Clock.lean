import BlockStage.Proofs.Number.Binary64
import BlockStage.Proofs.Session.Moves
import BlockStage.Proofs.Session.Queue

/-! # The clock — time during a session

    The clock always shows a moment and never runs backwards, so that a
    session in flight has taken no less than no time. -/

namespace BlockStage

namespace World

section

variable [Arithmetic] {c : Coordinator} {w v : World}

/-- Only the start of a round moves the clock. -/
theorem now_step (w : World) :
    (w.step c).now = w.now
      ∨ w.active = none ∧ w.round = [] ∧ (w.step c).now = w.nextTime := by
  cases ha : w.active with
  | some i => exact .inl (Adds.act ha).now
  | none =>
      cases hround : w.round with
      | cons j rest => exact .inl (Adds.turn (c := c) ha hround).now
      | nil =>
          refine .inr ⟨rfl, rfl, ?_⟩
          rw [step_round ha hround]
          rfl

/-- The clock shows a moment, and a session in flight began no later. -/
structure Timely (w : World) : Prop where
  now : w.now.isFinite = true
  started : w.idle = false → ∀ s, w.session = some s →
    s.startedAt.isFinite = true ∧ s.startedAt.le w.now = true

/-- What the host does takes no time. -/
theorem Orderly.now_host (h : Orderly w) {d : Deed} (hturn : d ≠ .turn)
    (hpass : ∀ t, d ≠ .elapse t) : (w.after c d).now = w.now := by
  cases d with
  | turn => exact absurd rfl hturn
  | elapse t => exact absurd rfl (hpass t)
  | cancel => exact (Adds.cancel w).now
  | kill n =>
      show (w.killCall n).now = w.now
      rcases h.killCall_spec n with ⟨-, heq⟩ | ⟨-, -, heq⟩ |
        ⟨s, timers, ready, -, -, -, heq, -⟩
      · rw [heq]
      · rw [heq]
        rfl
      · rw [heq]
  | call script cast => rfl
  | awaitIdle => rfl
  | put name a => rfl

/-- The clock goes on to a moment. -/
theorem Orderly.now_after (h : Orderly w) (hw : w.now.isFinite = true)
    {d : Deed} (hd : w.Admits d) :
    (w.after c d).now.isFinite = true
      ∧ w.now.le (w.after c d).now = true := by
  have hsame : (w.after c d).now = w.now →
      (w.after c d).now.isFinite = true
        ∧ w.now.le (w.after c d).now = true := by
    intro heq
    rw [heq]
    exact ⟨hw, Scalar.le_self hw⟩
  cases d with
  | turn =>
      rcases now_step (c := c) w with heq | ⟨ha, hround, heq⟩
      · exact hsame heq
      · have hfin : w.nextTime.isFinite = true :=
          hd ha (by rw [hround]; rfl)
        show (w.step c).now.isFinite = true
          ∧ w.now.le (w.step c).now = true
        rw [heq]
        refine ⟨hfin, ?_⟩
        revert hfin
        unfold World.nextTime
        split
        · split
          · rename_i hlt
            intro hfin
            rw [Scalar.lt_iff hw hfin] at hlt
            exact (Scalar.le_iff hw hfin).2 hlt.le
          · exact fun _ => Scalar.le_self hw
        · exact fun _ => Scalar.le_self hw
  | elapse t => exact ⟨hd.2, hd.1⟩
  | _ => exact hsame (h.now_host nofun nofun)

/-- A session keeps the moment at which it began. -/
theorem Moves.started {s s' : Session} {d : Deed} (h : Moves c w s d v)
    (hses : w.session = some s) (hidle : v.idle = false)
    (hs' : v.session = some s') : s'.startedAt = s.startedAt := by
  have hkeep : ∀ u : Session, v.session = some u →
      u.startedAt = s.startedAt → s'.startedAt = s.startedAt := by
    intro u hu heq
    rw [hu] at hs'
    exact Option.some.inj hs' ▸ heq
  cases h with
  | stays _ _ hs => exact hkeep _ hs rfl
  | lowers _ hs => exact hkeep _ hs rfl
  | puts => exact hkeep _ hses rfl
  | dooms _ hs => exact hkeep _ hs rfl
  | acts _ _ _ _ _ _ _ _ _ _ _ _ hs => exact hkeep _ hs rfl
  | attends _ _ _ _ _ _ _ hs => exact hkeep _ hs rfl
  | stumbles _ _ _ _ _ _ _ _ hs => exact hkeep _ hs rfl
  | setsOut _ _ _ _ _ _ hs => exact hkeep _ hs rfl
  | dies _ _ _ _ hs => exact hkeep _ hs rfl
  | dozes _ _ _ _ _ _ _ _ hs => exact hkeep _ hs rfl
  | drowses _ _ _ _ _ _ _ hs => exact hkeep _ hs rfl
  | leaves _ _ _ hrest => rw [hrest] at hidle; cases hidle

/-- In every world that a host can bring about the clock shows a moment,
    and a session in flight began no later. -/
theorem Reachable.timely (h : Reachable c w) : Timely w := by
  obtain ⟨agents, ds, hcourse⟩ := h
  refine (hcourse.keeps (P := fun w => Orderly w ∧ Timely w)
    ⟨.initial agents, rfl, fun hno => by cases hno⟩ ?_).2
  rintro u d ⟨ho, ht⟩ hd -
  refine ⟨ho.after hd, (ho.now_after ht.now hd).1, ?_⟩
  intro hflies s' hs'
  obtain ⟨hfin, hle⟩ := ho.now_after (c := c) ht.now hd
  cases hidle : u.idle with
  | false =>
      obtain ⟨s, hs, -⟩ := ho.flying hidle
      obtain ⟨hstart, hbefore⟩ := ht.started hidle s hs
      rw [(ho.moves hidle hs d).started hs hflies hs']
      exact ⟨hstart, Scalar.le_trans hstart ht.now hfin hbefore hle⟩
  | true =>
      obtain ⟨rfl, n, call, rest, programs, warnings, hround, hcall,
        hspared, hprograms, hcast⟩ := ho.opens hidle hflies
      obtain ⟨lines, heq⟩ := ho.begins_turn hidle hround hcall hspared
        hprograms hcast
      rw [heq] at hs' ⊢
      cases hs'
      exact ⟨ht.now, Scalar.le_self ht.now⟩

/-- Where nothing is rounded below zero but what is below zero, no session
    takes less than no time. -/
theorem Timely.elapsed_rounded {s : Session}
    (hround : ∀ q : Rat, 0 ≤ q →
      (Scalar.finite 0).le (Arithmetic.round q) = true)
    (h : Timely w) (hidle : w.idle = false) (hses : w.session = some s) :
    (Scalar.finite 0).le (w.now.sub s.startedAt) = true := by
  obtain ⟨hfin, hle⟩ := h.started hidle s hses
  obtain ⟨hneg, hvalue⟩ := Scalar.neg_value hfin
  rcases Scalar.add_finite h.now hneg with heq | ⟨heq, -⟩
  · rw [Scalar.sub, heq]
    refine hround _ ?_
    rw [hvalue, ← sub_eq_add_neg, sub_nonneg]
    exact (Scalar.le_iff hfin h.now).1 hle
  · rw [Scalar.sub, heq]
    rfl

end

section

attribute [local instance] Arithmetic.binary64

/-- On the clock of doubles no session takes less than no time. -/
theorem Timely.elapsed {w : World} {s : Session} (h : Timely w)
    (hidle : w.idle = false) (hses : w.session = some s) :
    (Scalar.finite 0).le (w.now.sub s.startedAt) = true :=
  h.elapsed_rounded (fun _ => Binary64.zero_le_nearest) hidle hses

end

end World

end BlockStage
