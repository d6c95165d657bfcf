import BlockStage.Block.Canonical

/-! # Field domains — which values a field may take

    A number field has a least and a greatest value, a default and
    possibly whole values only; a greatest value left open is the loop
    ceiling.  A choice field has a list of words, a text field a greatest
    length.  Some editor blocks have ranges of their own, which replace
    the ranges of their kind. -/

namespace BlockStage

/-- The values of a number field. -/
structure NumberDomain where
  /-- The least value. -/
  minimum : Num
  /-- The greatest value; open means the loop ceiling. -/
  maximum : Option Num
  /-- The value of a field left out. -/
  default : Num
  /-- Whether only whole values are allowed. -/
  whole : Bool
deriving DecidableEq

/-- The values of a field. -/
inductive Domain where
  | number (d : NumberDomain)
  | choice (choices : List String) (default : String)
  | text (default : String) (maxLength : Nat)
deriving DecidableEq

/-- Field names and their domains, in the order in which they are
    checked. -/
abbrev Domains := List (String × Domain)

/-- Whole numbers from `low` to `high`. -/
def wholeRange (low : Int) (high : Option Int) (default : Int) : Domain :=
  .number ⟨.int low, high.map .int, .int default, true⟩

/-- The shortest wait, in seconds. -/
def shortestWait : Num := .real (Binary64.nearest (1 / 10))

namespace Kind

/-- The fields of a kind. -/
def domains : Kind → Domains
  | move => [("distance", wholeRange 1 (some 100) 1)]
  | turn =>
      [("degrees", wholeRange 1 (some 360) 90),
        ("direction", .choice ["right", "left"] "right")]
  | wait => [("seconds", .number ⟨shortestWait, some 10, 1, false⟩)]
  | say => [("text", .text "Selesai" 200)]
  | repeatTimes => [("count", wholeRange 1 none 2)]
  | ifCondition =>
      [("condition", .choice ["goal-reached", "true", "false"] "false")]
  | repeatForever => []
  | ifGoalReached => []
  | start => []

end Kind

/-- The ranges that editor blocks set for themselves. -/
def editorDomains : List (String × Domains) :=
  [("gerak_maju", [("distance", wholeRange 1 (some 100) 10)]),
    ("kontrol_ulangi", [("count", wholeRange 1 none 10)]),
    ("robot_maju", [("distance", wholeRange 1 (some 20) 1)]),
    ("robot_putar", [("degrees", wholeRange 45 (some 360) 90)]),
    ("robot_ulangi", [("count", wholeRange 1 (some 50) 2)])]

namespace Domains

/-- Domains with some of them replaced: a known name keeps its place. -/
def replace (ds : Domains) (news : Domains) : Domains :=
  ds.map (fun d => (d.1, (news.lookup d.1).getD d.2))
    ++ news.filter fun n => (ds.lookup n.1).isNone

/-- The domains of a kind, with the ranges of the editor name the block
    was written under. -/
def of (kind : Option Kind) (source : String) : Domains :=
  let base := (kind.map Kind.domains).getD []
  match editorDomains.lookup source with
  | some own => base.replace own
  | none => base

end Domains

end BlockStage
