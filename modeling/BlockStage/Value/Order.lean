import BlockStage.Value.Operand

/-! # The order of values

    Numbers and truth values are compared exactly by what they count,
    texts by their characters, lists by the first items that differ.
    Values of other kinds have no order.  `Value.clamp` brings a value
    between two bounds and keeps whichever of the three it chooses as it
    is; on numbers it is `Num.clamp`, as `clamp_num` says. -/

namespace BlockStage

/-- How two values are compared. -/
inductive Comparison where
  | below
  | atMost
  | above
deriving DecidableEq

namespace Comparison

/-- The sign of a comparison. -/
def sign : Comparison → String
  | below => "<"
  | atMost => "<="
  | above => ">"

/-- Whether an order is the one asked for. -/
def accepts : Comparison → Ordering → Bool
  | below, o => o == .lt
  | atMost, o => o != .gt
  | above, o => o == .gt

/-- The comparison of two numbers. -/
def numbers : Comparison → Num → Num → Bool
  | below, a, b => a.lt b
  | atMost, a, b => a.le b
  | above, a, b => b.lt a

/-- The comparison of two texts. -/
def texts (c : Comparison) (s t : String) : Bool :=
  c.accepts (if s < t then .lt else if s = t then .eq else .gt)

/-- The comparison of two sizes. -/
def sizes (c : Comparison) (m n : Nat) : Bool :=
  c.accepts (compare m n)

end Comparison

namespace Value

mutual

/-- Equal as values: a truth value equals the number it counts as, and the
    members of objects may stand in any order. -/
def same : Value → Value → Bool
  | null, null => true
  | str s, str t => s = t
  | list xs, list ys => sameItems xs ys
  | object ms, object ns => ms.length = ns.length && sameMembers ms ns
  | a, b =>
      match a.number?, b.number? with
      | some m, some n => m.same n
      | _, _ => false

/-- Equal items in the same order. -/
def sameItems : List Value → List Value → Bool
  | [], [] => true
  | x :: xs, y :: ys => x.same y && sameItems xs ys
  | _, _ => false

/-- Whether each member has an equal one under its name. -/
def sameMembers : List (String × Value) → Members → Bool
  | [], _ => true
  | (name, v) :: ms, ns =>
      (match Members.get? ns name with
        | some w => v.same w
        | none => false)
        && sameMembers ms ns

end

mutual

/-- Whether two values stand in an order, if their kinds have one. -/
def relate (c : Comparison) : Value → Value → Except OperandFault Bool
  | str s, str t => .ok (c.texts s t)
  | list xs, list ys => relateItems c xs ys
  | a, b =>
      match a.number?, b.number? with
      | some m, some n => .ok (c.numbers m n)
      | _, _ => .error (.incomparable c.sign a.typeName b.typeName)

/-- Whether two lists stand in an order: the first items that differ
    decide, and a list stands above its own beginnings. -/
def relateItems (c : Comparison) :
    List Value → List Value → Except OperandFault Bool
  | x :: xs, y :: ys =>
      if x.same y then relateItems c xs ys else relate c x y
  | xs, ys => .ok (c.sizes xs.length ys.length)

end

/-- Strictly below. -/
def lt (a b : Value) : Except OperandFault Bool := relate .below a b

/-- Below or equal. -/
def le (a b : Value) : Except OperandFault Bool := relate .atMost a b

/-- Strictly above. -/
def gt (a b : Value) : Except OperandFault Bool := relate .above a b

/-- The smaller of two; the first when neither is. -/
def min (a b : Value) : Except OperandFault Value := do
  if ← b.lt a then return b else return a

/-- The larger of two; the first when neither is. -/
def max (a b : Value) : Except OperandFault Value := do
  if ← b.gt a then return b else return a

/-- A value brought between two bounds, the lower one winning. -/
def clamp (value low high : Value) : Except OperandFault Value := do
  low.max (← high.min value)

/-- Numbers are compared as numbers. -/
theorem relate_num (c : Comparison) (m n : Num) :
    relate c (num m) (num n) = .ok (c.numbers m n) := by
  simp [relate, number?]

/-- Numbers are brought between bounds as numbers. -/
theorem clamp_num (value low high : Num) :
    clamp (num value) (num low) (num high)
      = .ok (num (value.clamp low high)) := by
  unfold clamp min lt
  rw [relate_num]
  by_cases h : value.lt high
  · by_cases g : low.lt value <;>
      simp [bind, Except.bind, pure, Except.pure, Comparison.numbers, h,
        max, gt, relate_num, Num.clamp, Num.min, Num.max, g]
  · by_cases g : low.lt high <;>
      simp [bind, Except.bind, pure, Except.pure, Comparison.numbers, h,
        max, gt, relate_num, Num.clamp, Num.min, Num.max, g]

end Value

end BlockStage
