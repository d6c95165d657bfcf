import BlockStage.Value.Order

/-! # Objects written as lists of pairs

    Where an object is expected, a list of pairs will do: each pair is a
    list, a text or an object of two parts, a name and a value.  A name
    may be any value that can stand as a key; equal names are one, and the
    later value counts.  Names that are no texts are spelled as they are
    written in JSON. -/

namespace BlockStage

/-- Why a value cannot be read as an object. -/
inductive PairsFault where
  /-- It has no parts, or a part of it has none, or a name is no key. -/
  | notPairs
  /-- A part of it has another number of parts than a pair. -/
  | notAPair (index parts : Nat)
deriving DecidableEq

/-- The wording of a fault. -/
def PairsFault.message : PairsFault → String
  | .notPairs => "not a list of pairs"
  | .notAPair index parts =>
      "dictionary update sequence element #" ++ toString index
        ++ " has length " ++ toString parts ++ "; 2 is required"

namespace Value

/-- Pairs with a value put under a name: an equal name keeps its place and
    its spelling. -/
def putPair (name v : Value) : List (Value × Value) → List (Value × Value)
  | [] => [(name, v)]
  | p :: ps =>
      if p.1.same name then (p.1, v) :: ps else p :: putPair name v ps

/-- Items read as pairs, the first one at index `i`, put one after the
    other. -/
def putPairs (i : Nat) (pairs : List (Value × Value)) :
    List Value → Except PairsFault (List (Value × Value))
  | [] => .ok pairs
  | item :: items =>
      match item.parts? with
      | none => .error .notPairs
      | some [name, v] =>
          match name.key with
          | .error _ => .error .notPairs
          | .ok name => putPairs (i + 1) (putPair name v pairs) items
      | some parts => .error (.notAPair i parts.length)

/-- A name as it is spelled in JSON. -/
def keyText : Value → String
  | null => "null"
  | bool b => if b then "true" else "false"
  | num (.real .nan) => "NaN"
  | num (.real (.inf negative)) =>
      if negative then "-Infinity" else "Infinity"
  | v => v.plain

/-- The members of an object, which may be written as a list of pairs. -/
def members : Value → Except PairsFault Members
  | object ms => .ok ms
  | v =>
      match v.parts? with
      | none => .error .notPairs
      | some items => do
          let pairs ← putPairs 0 [] items
          return .ofPairs (pairs.map fun p => (p.1.keyText, p.2))

end Value

end BlockStage
