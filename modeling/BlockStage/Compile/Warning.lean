import BlockStage.Block.Coercion

/-! # Compile warnings

    A warning names its cause and the place of the block in the forest: the
    index of the block at the top, then the index within its body, and so
    on down.  Code, wording and details all follow from the cause. -/

namespace BlockStage

/-- The place of a block: indices from the top of the forest down. -/
abbrev Path := List Nat

/-- A place in writing. -/
def Path.text (p : Path) : String :=
  "/body/".intercalate (p.map toString)

/-- Why a block was not compiled as written. -/
inductive Complaint where
  /-- The forest is no list. -/
  | programNotAList
  /-- The item is no object with a text as its kind. -/
  | notABlock
  /-- The fields are no object. -/
  | fieldsNotAnObject
  /-- The body is no list. -/
  | bodyNotAList
  /-- The kind is unknown. -/
  | unknownKind (kind : Value)
  /-- A simple block has a body. -/
  | unexpectedBody (kind : Kind)
  /-- A field was changed. -/
  | field (c : FieldComplaint)
  /-- A turn on the grid was brought to quarter turns. -/
  | turnSnapped (degrees snapped : Int)
  /-- A loop without end was given one. -/
  | foreverBounded (ceiling : Value)
  /-- A condition never holds. -/
  | alwaysFalse

namespace Complaint

/-- The code of a warning. -/
def code : Complaint → String
  | programNotAList => "MALFORMED_PROGRAM"
  | notABlock => "MALFORMED_BLOCK"
  | fieldsNotAnObject => "MALFORMED_BLOCK"
  | bodyNotAList => "MALFORMED_BLOCK"
  | unknownKind _ => "UNKNOWN_BLOCK"
  | unexpectedBody _ => "UNEXPECTED_BODY"
  | field _ => "INVALID_FIELD_VALUE"
  | turnSnapped _ _ => "INVALID_FIELD_VALUE"
  | foreverBounded _ => "FOREVER_LOOP_BOUNDED"
  | alwaysFalse => "CONDITION_ALWAYS_FALSE"

/-- The wording of a warning. -/
def message : Complaint → String
  | programNotAList => "Program must be a list of blocks"
  | notABlock => "Block must be an object with a string 'kind'"
  | fieldsNotAnObject => "'fields' must be an object"
  | bodyNotAList => "'body' must be a list"
  | unknownKind kind =>
      "Unknown block kind '" ++ kind.plain ++ "' skipped"
  | unexpectedBody kind => kind.name ++ " cannot contain nested blocks"
  | field c => c.message
  | turnSnapped degrees snapped =>
      "turn.degrees: grid turns must be multiples of 90; "
        ++ toString degrees ++ " snapped to " ++ toString snapped
  | foreverBounded ceiling =>
      "Forever loop stops after " ++ ceiling.plain ++ " iterations"
  | alwaysFalse => "Condition is always false; body never runs"

/-- The details of a warning, if it has any. -/
def details : Complaint → Option Members
  | unknownKind kind => some [("kind", kind)]
  | field c =>
      some [("field", .str c.field), ("value", c.raw), ("coerced", c.coerced)]
  | turnSnapped degrees snapped =>
      some [("field", .str "degrees"), ("value", .int degrees),
        ("coerced", .int snapped)]
  | foreverBounded ceiling => some [("max_iterations", ceiling)]
  | _ => none

end Complaint

/-- A complaint about the block at a place. -/
structure Warning where
  /-- Where the block stands. -/
  path : Path
  /-- What is the matter with it. -/
  complaint : Complaint

namespace Warning

/-- The code of a warning. -/
def code (w : Warning) : String := w.complaint.code

/-- The wording of a warning. -/
def message (w : Warning) : String := w.complaint.message

/-- The three members by which a report names a warning. -/
def summary (w : Warning) : Value :=
  .object [("code", .str w.code), ("message", .str w.message),
    ("path", .str w.path.text)]

end Warning

end BlockStage
