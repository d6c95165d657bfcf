import BlockStage.Value.Pairs

/-! # Blocks

    A block has a kind, named fields and, if it is compound, a body of
    further blocks in the order in which they run.  The kind is kept as it
    was written: any value may stand there, and only texts can name a
    kind. -/

namespace BlockStage

/-- One block of a program, as written. -/
structure Block where
  /-- What was written as its kind. -/
  kind : Value
  /-- Its fields. -/
  fields : Members
  /-- The blocks it holds, if it holds any. -/
  body : Option (List Block)
deriving Inhabited

namespace Block

mutual

/-- A block as an object. -/
def toValue : Block → Value
  | ⟨kind, fields, none⟩ =>
      .object [("kind", kind), ("fields", .object fields)]
  | ⟨kind, fields, some blocks⟩ =>
      .object [("kind", kind), ("fields", .object fields),
        ("body", .list (toValues blocks))]

/-- Blocks as objects. -/
def toValues : List Block → List Value
  | [] => []
  | b :: bs => b.toValue :: toValues bs

end

/-- Why an object cannot be read as a block. -/
inductive Unreadable where
  /-- It is no object. -/
  | notAnObject
  /-- It has no kind. -/
  | noKind
  /-- Its fields are neither an object nor a list of pairs. -/
  | badFields (f : PairsFault)
  /-- Its body is no list. -/
  | badBody
deriving DecidableEq

/-- The fields of a block: nothing that counts as true, an object, or a
    list of pairs. -/
def readFields : Option Value → Except Unreadable Members
  | none => .ok []
  | some v => if v.holds then v.members.mapError .badFields else .ok []

mutual

/-- A block read strictly: the first defect is reported. -/
def ofValue : Value → Except Unreadable Block
  | .object ms =>
      match Members.get? ms "kind" with
      | none => .error .noKind
      | some kind => do
          let fields ← readFields (Members.get? ms "fields")
          let body ← bodyOf ms
          return ⟨kind, fields, body⟩
  | _ => .error .notAnObject

/-- The body among the members of an object. -/
def bodyOf : List (String × Value) → Except Unreadable (Option (List Block))
  | [] => .ok none
  | (name, v) :: ms => if name = "body" then readBody v else bodyOf ms

/-- A body: nothing, or a list of blocks. -/
def readBody : Value → Except Unreadable (Option (List Block))
  | .null => .ok none
  | .list items => (ofValues items).map some
  | .str s => if s = "" then .ok (some []) else .error .notAnObject
  | .object ms =>
      match ms with
      | [] => .ok (some [])
      | _ => .error .notAnObject
  | _ => .error .badBody

/-- Blocks read strictly, in order. -/
def ofValues : List Value → Except Unreadable (List Block)
  | [] => .ok []
  | v :: vs => do
      let b ← ofValue v
      let bs ← ofValues vs
      return b :: bs

end

end Block

end BlockStage
