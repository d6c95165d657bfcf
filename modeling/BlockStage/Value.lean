import BlockStage.Number.Format
import BlockStage.Number.Reading
import BlockStage.Text.Quoted

/-! # Values — what a field, a file or a message may hold

    A value is nothing, a truth value, a number, a text, a list or an
    object whose members keep the order in which they were written.
    `Value.text` writes a value the way messages quote it.  Counts of more
    than 4300 digits have no written form; `Value.legible` tells whether a
    value can be written out. -/

namespace BlockStage

/-- A value of any shape. -/
inductive Value where
  | null
  | bool (b : Bool)
  | num (n : Num)
  | str (s : String)
  | list (items : List Value)
  | object (members : List (String × Value))
deriving Inhabited

/-- Named values in the order in which the names first appeared. -/
abbrev Members := List (String × Value)

namespace Members

/-- The value under a name. -/
def get? (ms : Members) (name : String) : Option Value :=
  (ms.find? fun m => m.1 = name).map (·.2)

/-- A value put under a name: a known name keeps its place. -/
def put : Members → String → Value → Members
  | [], name, v => [(name, v)]
  | m :: ms, name, v =>
      if m.1 = name then (name, v) :: ms else m :: put ms name v

/-- Members put one after the other. -/
def putAll (ms : Members) (news : Members) : Members :=
  news.foldl (fun acc m => acc.put m.1 m.2) ms

/-- Members of which each name keeps its first place and last value. -/
def ofPairs (pairs : Members) : Members :=
  putAll [] pairs

/-- The value last put under a name is found there. -/
theorem get?_put_self (ms : Members) (name : String) (v : Value) :
    (ms.put name v).get? name = some v := by
  induction ms with
  | nil => simp [put, get?]
  | cons m ms ih =>
      by_cases h : m.1 = name
      · simp [put, get?, h]
      · simp only [get?, put, h, if_false, List.find?_cons,
          decide_false] at ih ⊢
        exact ih

/-- Other names keep their values. -/
theorem get?_put_of_ne (ms : Members) {name other : String} (v : Value)
    (hne : other ≠ name) :
    (ms.put name v).get? other = ms.get? other := by
  induction ms with
  | nil => simp [put, get?, hne.symm]
  | cons m ms ih =>
      obtain ⟨known, w⟩ := m
      by_cases h : known = name
      · have hm : known ≠ other := fun e => hne (e.symm.trans h)
        simp [put, get?, h, hne.symm]
      · by_cases ho : known = other
        · subst ho
          simp [put, get?, h]
        · simp only [get?, put, h, if_false, List.find?_cons, ho,
            decide_false] at ih ⊢
          exact ih

end Members

namespace Value

/-- A count as a value. -/
def int (n : Int) : Value := .num (.int n)

/-- A measure as a value. -/
def real (x : Scalar) : Value := .num (.real x)

instance (n : Nat) : OfNat Value n := ⟨.int n⟩

/-- The member of an object under a name. -/
def get? : Value → String → Option Value
  | object ms, name => Members.get? ms name
  | _, _ => none

/-- A text, or nothing. -/
def ofText? : Option String → Value
  | none => null
  | some s => str s

mutual

/-- A value as messages quote it. -/
def text : Value → String
  | null => "None"
  | bool b => if b then "True" else "False"
  | num n => n.text
  | str s => Text.quoted s
  | list items => "[" ++ ", ".intercalate (itemTexts items) ++ "]"
  | object ms => "\x7b" ++ ", ".intercalate (memberTexts ms) ++ "\x7d"

/-- The items of a list, each as messages quote it. -/
def itemTexts : List Value → List String
  | [] => []
  | v :: vs => v.text :: itemTexts vs

/-- The members of an object, each as messages quote it. -/
def memberTexts : List (String × Value) → List String
  | [] => []
  | (name, v) :: ms => (Text.quoted name ++ ": " ++ v.text) :: memberTexts ms

end

/-- Counts that can be written out. -/
def legibleInt (n : Int) : Bool :=
  n.natAbs < Nat.pow 10 Reading.digitLimit

mutual

/-- Whether a value can be written out: no count in it, at any depth, has
    too many digits. -/
def legible : Value → Bool
  | num (.int n) => legibleInt n
  | list items => itemsLegible items
  | object ms => membersLegible ms
  | _ => true

/-- Whether every item can be written out. -/
def itemsLegible : List Value → Bool
  | [] => true
  | v :: vs => v.legible && itemsLegible vs

/-- Whether every member can be written out. -/
def membersLegible : List (String × Value) → Bool
  | [] => true
  | (_, v) :: ms => v.legible && membersLegible ms

end

/-- Counts of more than 64 bits. -/
def isHuge (n : Int) : Bool :=
  Nat.pow 2 64 ≤ n.natAbs

/-- A field's value in a complaint: a count of more than 64 bits is only
    described. -/
def shown : Value → String
  | num (.int n) =>
      if isHuge n then
        if 0 < n then "a very large integer" else "a very large negative integer"
      else toString n
  | v => v.text

/-- Whether `shown` has a text for a value; one that is only described
    always has. -/
def showable : Value → Bool
  | num _ => true
  | v => v.legible

/-- A value as it stands in running text: a text as it is. -/
def plain : Value → String
  | str s => s
  | v => v.text

/-- Whether a value counts as true: nothing, zero and whatever is empty do
    not. -/
def holds : Value → Bool
  | null => false
  | bool b => b
  | num n => !n.same 0
  | str s => s ≠ ""
  | list items => !items.isEmpty
  | object ms => !ms.isEmpty

/-- The parts of a value that has parts: the items of a list, the
    characters of a text, the names of an object. -/
def parts? : Value → Option (List Value)
  | list items => some items
  | str s => some (s.toList.map fun c => str (.singleton c))
  | object ms => some (ms.map fun m => str m.1)
  | _ => none

/-- What a value is called in a complaint about operands. -/
def typeName : Value → String
  | null => "NoneType"
  | bool _ => "bool"
  | num (.int _) => "int"
  | num (.real _) => "float"
  | str _ => "str"
  | list _ => "list"
  | object _ => "dict"

/-- The number a value counts as; truth values count as one and zero. -/
def number? : Value → Option Num
  | num n => some n
  | bool b => some (.int (if b then 1 else 0))
  | _ => none

end Value

end BlockStage
