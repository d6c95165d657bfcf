import BlockStage.Proofs.Compile.Ceiling

/-! # Measures — what a number field makes of a number

    A field reads a number as a measure, and a count may be rounded for
    that (`Num.reading`).  Between bounds of no more than 53 bits this
    makes no difference: a number below the least value is read below it,
    one above the greatest value above it, and all others are read exactly
    (`Num.reading_cases`).  So a field keeps a number without a problem
    only if it lies between the bounds and fits the field, and whatever has
    a problem becomes another number (`NumberDomain.coerce_silent`,
    `NumberDomain.coerce_loud`). -/

namespace BlockStage

/-! ## Equal and smaller measures -/

namespace Scalar

variable {x y : Scalar} {q r : Rat}

/-- Compared the other way round, measures compare the other way. -/
theorem compare?_swap (x y : Scalar) :
    y.compare? x = (x.compare? y).map Ordering.swap := by
  have hfinite : x.isFinite = true → y.isFinite = true →
      y.compare? x = (x.compare? y).map Ordering.swap := by
    intro hx hy
    rw [compare?_finite hx hy, compare?_finite hy hx]
    rcases lt_trichotomy x.value y.value with h | h | h
    · simp [h, h.not_gt, h.ne']
    · simp [h]
    · simp [h, h.not_gt, h.ne']
  cases x with
  | nan => cases y <;> rfl
  | inf a =>
      cases y with
      | inf b => cases a <;> cases b <;> rfl
      | _ => cases a <;> rfl
  | finite q =>
      cases y with
      | nan => rfl
      | inf b => cases b <;> rfl
      | _ => exact hfinite rfl rfl
  | negZero =>
      cases y with
      | nan => rfl
      | inf b => cases b <;> rfl
      | _ => exact hfinite rfl rfl

/-- Of two measures of which one is below the other neither equals the
    other. -/
theorem not_same_of_lt (h : x.lt y = true) :
    x.same y = false ∧ y.same x = false := by
  have hcompare : x.compare? y = some .lt := beq_iff_eq.1 h
  constructor
  · rw [same, hcompare]
    rfl
  · rw [same, compare?_swap x y, hcompare]
    rfl

/-- What is at most a measure is not above it. -/
theorem not_lt_of_le (h : x.le y = true) : y.lt x = false := by
  rw [lt, compare?_swap x y]
  rcases Bool.or_eq_true_iff.1 h with h | h
  · rw [beq_iff_eq.1 h]
    rfl
  · rw [beq_iff_eq.1 h]
    rfl

/-- What is below a ratio is below a greater one. -/
theorem lt_mono (h : x.lt (finite q) = true) (hle : q ≤ r) :
    x.lt (finite r) = true := by
  have hfinite : x.isFinite = true → x.lt (finite r) = true := fun hx =>
    (lt_iff hx rfl).2 (((lt_iff hx (y := finite q) rfl).1 h).trans_le hle)
  cases x with
  | finite _ => exact hfinite rfl
  | negZero => exact hfinite rfl
  | inf negative => cases negative <;> first | contradiction | rfl
  | nan => cases h

/-- Finite measures are equal if they have the same value. -/
theorem same_iff (hx : x.isFinite = true) (hy : y.isFinite = true) :
    x.same y = true ↔ x.value = y.value := by
  unfold same
  rw [compare?_finite hx hy]
  rcases lt_trichotomy x.value y.value with h | h | h
  · simp [h, h.ne]
  · simp [h]
  · simp [h.not_gt, h.ne']

/-- Every measure but one equals itself. -/
theorem same_self (h : x ≠ nan) : x.same x = true := by
  cases x with
  | nan => exact absurd rfl h
  | inf negative => cases negative <;> rfl
  | finite q => exact (same_iff rfl rfl).2 rfl
  | negZero => exact (same_iff rfl rfl).2 rfl

theorem same_comm (x y : Scalar) : x.same y = y.same x := by
  rw [same, same, compare?_swap x y]
  cases x.compare? y with
  | none => rfl
  | some order => cases order <;> rfl

end Scalar

/-! ## Numbers as they are read -/

namespace Num

open Binary64

/-- The measure that a number is read as. -/
def reading : Num → Scalar
  | int k => nearest k
  | real x => x

variable {n low : Num} {q : Rat} {high : Int}

/-- A number is read as a number. -/
theorem reading_ne_nan (h : n.exact ≠ .nan) : n.reading ≠ .nan := by
  cases n with
  | real x => exact h
  | int k =>
      show nearest k ≠ .nan
      rcases nearest_cases (k : Rat) with hk | ⟨r, hk, -⟩
      · rw [hk]
        nofun
      · rw [hk]
        nofun

/-- A number below a positive ratio is read below it, one above a small
    count above it, and every other number is read exactly. -/
theorem reading_cases (n : Num) (hlow : low.exact = .finite q) (hpos : 0 < q)
    (hle : q ≤ high) (hbits : high < 2 ^ 53) :
    (n.lt low = true ∧ (real n.reading).lt low = true)
      ∨ ((int high).lt n = true ∧ (int high).lt (real n.reading) = true
          ∧ (real n.reading).lt low = false)
      ∨ (n.reading = n.exact ∧ n.lt low = false
          ∧ (int high).lt n = false) := by
  by_cases heq : n.reading = n.exact
  · have hread : (real n.reading).exact = n.exact := heq
    by_cases hbelow : n.lt low = true
    · exact .inl ⟨hbelow, by rwa [lt, hread]⟩
    · have hbelow := Bool.eq_false_iff.2 hbelow
      by_cases habove : (int high).lt n = true
      · exact .inr (.inl ⟨habove, by rwa [lt, hread], by rwa [lt, hread]⟩)
      · exact .inr (.inr ⟨heq, hbelow, Bool.eq_false_iff.2 habove⟩)
  cases n with
  | real x => exact absurd rfl heq
  | int k =>
      -- only counts of more than 53 bits are not read exactly
      have hlarge : ¬ |k| ≤ 2 ^ 53 := fun hsmall => heq (nearest_whole hsmall)
      have hhigh : 0 ≤ high := by
        have : (0 : Rat) ≤ high := hpos.le.trans hle
        exact_mod_cast this
      by_cases habove : high < k
      · have hread := nearest_above hhigh habove hbits
        refine .inr (.inl ⟨?_, hread, ?_⟩)
        · rw [lt_int, decide_eq_true habove]
        · show (nearest k).lt low.exact = false
          rw [hlow]
          exact Scalar.lt_asymm hread hle
      · have hneg : (k : Rat) < 0 := by
          rw [abs_le] at hlarge
          exact_mod_cast (show k < 0 by omega)
        refine .inl ⟨?_, ?_⟩
        · show (Scalar.finite k).lt low.exact = true
          rw [hlow]
          exact (Scalar.lt_iff rfl rfl).2 (hneg.trans hpos)
        · show (nearest k).lt low.exact = true
          rw [hlow]
          rcases nearest_cases (k : Rat) with hk | ⟨r, hk, -, hr⟩
          · rw [hk, decide_eq_true hneg]
            rfl
          · rw [hk]
            exact (Scalar.lt_iff rfl rfl).2 ((hr hneg.le).trans_lt hpos)

end Num

namespace Value

/-- The number that a value denotes, if it denotes one: a number is written
    as it is or in a text; truth values are none. -/
def denoted? : Value → Option Num
  | num n => if n.exact = .nan then none else some n
  | str s =>
      (Reading.readMeasure? (Text.trim s)).bind fun x =>
        if x = .nan then none else some (.real x)
  | _ => none

variable {raw : Value} {n : Num}

/-- What denotes a number is read as that number. -/
theorem read?_denoted (h : raw.denoted? = some n) :
    NumberDomain.read? raw = some n.reading ∧ n.exact ≠ .nan := by
  cases raw with
  | num m =>
      rw [denoted?] at h
      split at h
      · cases h
      · rename_i hnan
        cases h
        exact ⟨by cases n <;> rfl, hnan⟩
  | str s =>
      rw [denoted?, Option.bind_eq_some_iff] at h
      obtain ⟨x, hx, h⟩ := h
      split at h
      · cases h
      · rename_i hnan
        cases h
        refine ⟨?_, hnan⟩
        rw [NumberDomain.read?, hx]
        rfl
  | _ => simp [denoted?] at h

/-- What denotes no number is not read as one. -/
theorem read?_undenoted (h : raw.denoted? = none) :
    ∀ x, NumberDomain.read? raw = some x → x = .nan := by
  intro x hx
  cases raw with
  | num m =>
      rw [denoted?] at h
      split at h
      · rename_i hnan
        cases m with
        | int k => cases hnan
        | real y =>
            cases hx
            exact hnan
      · cases h
  | str s =>
      rw [NumberDomain.read?] at hx
      rw [denoted?, hx, Option.bind_some] at h
      split at h
      · assumption
      · cases h
  | _ => simp [NumberDomain.read?] at hx

end Value

/-! ## Numbers in fields -/

namespace NumberDomain

variable {d : NumberDomain} {ceiling raw : Value} {n : Num} {x : Scalar}
  {high : Int}

/-- A domain with a positive least value and a small count as its
    greatest. -/
structure Held (d : NumberDomain) (ceiling : Value) (high : Int) : Prop where
  /-- The least of whole values is a count. -/
  whole : d.whole = true → ∃ low, d.minimum = .int low
  /-- The least value is a positive ratio, and not above the greatest. -/
  low : ∃ q, d.minimum.exact = .finite q ∧ 0 < q ∧ q ≤ high
  /-- The greatest value has no more than 53 bits. -/
  bits : high < 2 ^ 53
  /-- The greatest value is a count. -/
  limit : (d.limit ceiling).number? = some (.int high)

/-- A measure that lies beyond neither bound is only settled. -/
theorem coerce_inside (h : read? raw = some x) (hx : x ≠ .nan)
    (hlow : (Num.real x).lt d.minimum = false)
    (hhigh : ∀ m, (d.limit ceiling).number? = some m →
      m.lt (.real x) = false) :
    d.coerce ceiling raw = d.settle raw (.real x, none) := by
  have hexceeded : d.exceeded? ceiling x = none := by
    refine Option.filter_eq_none_iff.2 fun m hm => ?_
    exact Bool.eq_false_iff.1 (hhigh m hm)
  rw [coerce_read h hx]
  unfold bound
  rw [if_neg (by rw [hlow]; exact Bool.false_ne_true), hexceeded]

/-- What a field makes of a number: one below the least value becomes that,
    one above the greatest becomes that, and every other one is settled
    exactly. -/
theorem coerce_denoted (hd : d.Held ceiling high)
    (h : raw.denoted? = some n) :
    (n.lt d.minimum = true ∧ d.coerce ceiling raw
        = d.settle raw (d.minimum, some (.below raw d.minimum)))
      ∨ ((Num.int high).lt n = true ∧ d.coerce ceiling raw
          = d.settle raw (.int high, some (.above raw (d.limit ceiling))))
      ∨ (n.lt d.minimum = false ∧ (Num.int high).lt n = false
          ∧ d.coerce ceiling raw = d.settle raw (.real n.exact, none)) := by
  obtain ⟨hread, hnan⟩ := Value.read?_denoted h
  obtain ⟨q, hq, hpos, hle⟩ := hd.low
  have hne := Num.reading_ne_nan hnan
  rcases Num.reading_cases n hq hpos hle hd.bits with
    ⟨hbelow, hlt⟩ | ⟨habove, hgt, hlow⟩ | ⟨heq, hlow, hhigh⟩
  · refine .inl ⟨hbelow, ?_⟩
    rw [coerce_read hread hne]
    unfold bound
    rw [if_pos hlt]
  · refine .inr (.inl ⟨habove, ?_⟩)
    have hexceeded : d.exceeded? ceiling n.reading = some (.int high) :=
      Option.filter_eq_some_iff.2 ⟨hd.limit, hgt⟩
    rw [coerce_read hread hne]
    unfold bound
    rw [if_neg (by rw [hlow]; exact Bool.false_ne_true), hexceeded]
  · refine .inr (.inr ⟨hlow, hhigh, ?_⟩)
    rw [heq] at hread
    refine coerce_inside hread hnan hlow fun m hm => ?_
    rw [hd.limit] at hm
    cases hm
    exact hhigh

/-- Settling keeps a problem, and a bound. -/
theorem settle_problem {m : Num} {p : FieldProblem}
    (hm : d.whole = true → ∃ k, m = .int k) :
    d.settle raw (m, some p) = (m, some p) := by
  unfold settle
  split
  · rename_i hwhole
    obtain ⟨k, rfl⟩ := hm hwhole
    have hcount : nearestWhole (.int k) = k := roundEven_int k
    simp [hcount]
  · rfl

/-- A number that a field keeps without a problem is the number that is
    written. -/
theorem coerce_silent (hd : d.Held ceiling high)
    (h : raw.denoted? = some n) (hnone : (d.coerce ceiling raw).2 = none) :
    (d.coerce ceiling raw).1.same n = true := by
  rcases coerce_denoted hd h with ⟨-, heq⟩ | ⟨-, heq⟩ | ⟨-, -, heq⟩
  · rw [heq, settle_problem hd.whole] at hnone
    cases hnone
  · rw [heq, settle_problem fun _ => ⟨high, rfl⟩] at hnone
    cases hnone
  · rw [heq] at hnone ⊢
    unfold settle at hnone ⊢
    split
    · rename_i hwhole
      rw [if_pos hwhole] at hnone
      dsimp only at hnone
      split at hnone
      · cases hnone
      · rename_i hsame
        have hsame : n.exact.same (.finite (nearestWhole (.real n.exact)))
            = true := by
          simpa [Num.same, Num.exact] using hsame
        exact (Scalar.same_comm ..).trans hsame
    · exact Scalar.same_self (Value.read?_denoted h).2

/-- A number that a field has a problem with becomes another one: the least
    value if it is below that, the greatest if it is above that, or a count
    if it equals none. -/
theorem coerce_loud (hd : d.Held ceiling high) (h : raw.denoted? = some n)
    {p : FieldProblem} (hsome : (d.coerce ceiling raw).2 = some p) :
    (n.lt d.minimum = true ∧ (d.coerce ceiling raw).1 = d.minimum)
      ∨ ((Num.int high).lt n = true ∧ (d.coerce ceiling raw).1 = .int high)
      ∨ ((∃ k, (d.coerce ceiling raw).1 = .int k)
          ∧ ∀ j : Int, (Num.int j).same n = false) := by
  rcases coerce_denoted hd h with ⟨hlow, heq⟩ | ⟨hhigh, heq⟩ | ⟨-, -, heq⟩
  · rw [heq, settle_problem hd.whole]
    exact .inl ⟨hlow, rfl⟩
  · rw [heq, settle_problem fun _ => ⟨high, rfl⟩]
    exact .inr (.inl ⟨hhigh, rfl⟩)
  · rw [heq] at hsome ⊢
    unfold settle at hsome ⊢
    split
    · rename_i hwhole
      refine .inr (.inr ⟨⟨_, rfl⟩, fun j => ?_⟩)
      rw [if_pos hwhole] at hsome
      dsimp only at hsome
      split at hsome
      · rename_i hother
        -- a number that equals a count is rounded to that count
        refine Bool.eq_false_iff.2 fun hj => hother.2 ?_
        have hj : n.exact.same (.finite j) = true :=
          (Scalar.same_comm ..).trans hj
        have hrounded : nearestWhole (.real n.exact) = j := by
          show roundEven n.exact.value = j
          rw [(Scalar.same_finite hj).2]
          exact roundEven_int j
        rw [hrounded]
        exact hj
      · cases hsome
    · rename_i hwhole
      rw [if_neg hwhole] at hsome
      cases hsome

/-- A value that denotes no number becomes the default, with a problem. -/
theorem coerce_undenoted (h : raw.denoted? = none) (hnull : raw ≠ .null) :
    d.coerce ceiling raw = (d.default, some (.notNumber raw d.default)) := by
  have hread := Value.read?_undenoted h
  unfold coerce
  split
  · exact absurd rfl hnull
  · split
    · rfl
    · rfl
    · rename_i x hnan heq
      exact absurd (hread x heq) hnan

/-- So it is not the number that is written. -/
theorem coerce_changed (hd : d.Held ceiling high)
    (h : raw.denoted? = some n) {p : FieldProblem}
    (hsome : (d.coerce ceiling raw).2 = some p) :
    (d.coerce ceiling raw).1.same n = false := by
  rcases coerce_loud hd h hsome with ⟨hlow, heq⟩ | ⟨hhigh, heq⟩ |
    ⟨⟨k, heq⟩, hnone⟩
  · rw [heq]
    exact (Scalar.not_same_of_lt hlow).2
  · rw [heq]
    exact (Scalar.not_same_of_lt hhigh).1
  · rw [heq]
    exact hnone k

end NumberDomain

end BlockStage
