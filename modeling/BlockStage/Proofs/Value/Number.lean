import BlockStage.Proofs.Number.Order
import BlockStage.Value.Arithmetic
import Mathlib.Data.Rat.Floor

/-! # Values that are numbers — what comparing and bounding them gives

    A value that can be compared with a number is a number, and a value
    that is brought between two numbers becomes one of the three. -/

namespace BlockStage

/-- A calculation in two parts has a result if both parts have. -/
theorem bind_ok {ε α β : Type} {x : Except ε α} {f : α → Except ε β} {y : β}
    (h : x >>= f = .ok y) : ∃ a, x = .ok a ∧ f a = .ok y := by
  cases x with
  | ok a => exact ⟨a, rfl, h⟩
  | error e => cases h

/-- A result that is changed has a result before. -/
theorem map_eq_ok {ε α β : Type} {f : α → β} {e : Except ε α} {y : β}
    (h : e.map f = .ok y) : ∃ x, e = .ok x ∧ y = f x := by
  cases e with
  | error => cases h
  | ok x => exact ⟨x, rfl, (Except.ok.inj h).symm⟩

/-- What is there has not failed. -/
theorem ok_of_toOption {ε α : Type} {e : Except ε α} {x : α}
    (h : e.toOption = some x) : e = .ok x := by
  cases e with
  | error f => cases h
  | ok y => exact congrArg Except.ok (Option.some.inj h)

namespace Num

/-- A number brought between two others is one of the three, and not beyond
    the other two. -/
theorem clamp_cases (v low high : Num) :
    v.clamp low high = low
      ∨ (v.clamp low high = high ∧ low.lt high = true)
      ∨ (v.clamp low high = v ∧ low.lt v = true ∧ v.lt high = true) := by
  unfold clamp Num.min Num.max
  by_cases hhigh : v.lt high = true
  · rw [if_pos hhigh]
    by_cases hlow : low.lt v = true
    · exact .inr (.inr ⟨if_pos hlow, hlow, hhigh⟩)
    · exact .inl (if_neg hlow)
  · rw [if_neg hhigh]
    by_cases hlow : low.lt high = true
    · exact .inr (.inl ⟨if_pos hlow, hlow⟩)
    · exact .inl (if_neg hlow)

/-- The whole part of a number strictly between two counts. -/
theorem whole_between {n : Num} {low high x : Int}
    (hlow : (int low).lt n = true) (hhigh : n.lt (int high) = true)
    (hx : n.whole = .ok x) (hpos : 0 ≤ low) : low ≤ x ∧ x ≤ high := by
  cases n with
  | int m =>
      rw [lt_int, decide_eq_true_eq] at hlow hhigh
      cases hx
      omega
  | real y =>
      cases y with
      | finite q =>
          have hl : (low : Rat) < q :=
            (Scalar.lt_iff (x := .finite low) (y := .finite q) rfl rfl).1 hlow
          have hh : q < (high : Rat) :=
            (Scalar.lt_iff (x := .finite q) (y := .finite high) rfl rfl).1
              hhigh
          cases hx
          have hq : 0 ≤ q.num := by
            rw [Rat.num_nonneg]
            exact le_trans (by exact_mod_cast hpos) hl.le
          have hw : wholePart q = ⌊q⌋ := by
            rw [wholePart, Int.tdiv_eq_ediv_of_nonneg hq, Rat.floor_def']
          rw [hw]
          exact ⟨Int.le_floor.2 hl.le, (Int.floor_lt.2 hh).le⟩
      | negZero =>
          have : ((low : Int) : Rat) < 0 :=
            (Scalar.lt_iff (x := .finite low) (y := .negZero) rfl rfl).1 hlow
          have : low < 0 := by exact_mod_cast this
          omega
      | inf negative => cases hx
      | nan => cases hx

end Num

namespace Value

/-- Values that count as numbers can be compared. -/
theorem relate_numbers {k : Comparison} {u v : Value} {m n : Num}
    (hu : u.number? = some m) (hv : v.number? = some n) :
    relate k u v = .ok (k.numbers m n) := by
  cases u with
  | num x =>
      cases hu
      cases v with
      | num y =>
          cases hv
          exact relate_num _ _ _
      | bool b => cases hv; simp [relate, number?]
      | _ => cases hv
  | bool b =>
      cases hu
      cases v with
      | num y => cases hv; simp [relate, number?]
      | bool b => cases hv; simp [relate, number?]
      | _ => cases hv
  | _ => cases hu

/-- Only numbers stand in an order with a number. -/
theorem relate_number {c : Comparison} {v : Value} {n : Num} {b : Bool}
    (h : relate c v (num n) = .ok b) :
    ∃ m, v.number? = some m ∧ b = c.numbers m n := by
  cases v with
  | num m =>
      rw [relate_num] at h
      cases h
      exact ⟨m, rfl, rfl⟩
  | bool t =>
      simp only [relate, number?] at h
      cases h
      exact ⟨_, rfl, rfl⟩
  | _ => simp [relate, number?] at h

/-- A number stands in an order with numbers only. -/
theorem relate_number_left {c : Comparison} {v : Value} {n : Num} {b : Bool}
    (h : relate c (num n) v = .ok b) :
    ∃ m, v.number? = some m ∧ b = c.numbers n m := by
  cases v with
  | num m =>
      rw [relate_num] at h
      cases h
      exact ⟨m, rfl, rfl⟩
  | bool t =>
      simp only [relate, number?] at h
      cases h
      exact ⟨_, rfl, rfl⟩
  | _ => simp [relate, number?] at h

/-- What is brought between two numbers is a number. -/
theorem clamp_number {v w : Value} {low high : Num}
    (h : v.clamp (num low) (num high) = .ok w) :
    ∃ n, v.number? = some n ∧ w.number? = some (n.clamp low high) := by
  cases hlt : v.lt (num high) with
  | error f => simp [clamp, Value.min, hlt, bind, Except.bind] at h
  | ok b =>
      obtain ⟨n, hn, rfl⟩ := relate_number hlt
      refine ⟨n, hn, ?_⟩
      have hgt : ∀ (u : Value) (m : Num), u.number? = some m →
          (num low).max u = .ok w → w.number? = some (low.max m) := by
        intro u m hm hw
        have hrel : u.gt (num low) = .ok (low.lt m) := by
          cases u with
          | num k =>
              cases hm
              exact relate_num _ _ _
          | bool t =>
              cases hm
              simp [gt, relate, number?, Comparison.numbers]
          | _ => cases hm
        simp only [Value.max, hrel, bind, Except.bind, pure,
          Except.pure] at hw
        unfold Num.max
        split at hw
        · rename_i hlow
          cases hw
          rw [if_pos hlow, hm]
        · rename_i hlow
          cases hw
          rw [if_neg hlow]
          rfl
      have hnumbers : Comparison.below.numbers n high = n.lt high := rfl
      simp only [clamp, Value.min, hlt, hnumbers, bind, Except.bind, pure,
        Except.pure] at h
      unfold Num.clamp Num.min
      by_cases hhigh : n.lt high = true
      · rw [if_pos hhigh] at h ⊢
        exact hgt v n hn h
      · rw [if_neg hhigh] at h ⊢
        exact hgt (num high) high rfl h

end Value

end BlockStage
