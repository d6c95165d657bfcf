import BlockStage.Block.Basic
import BlockStage.Block.Kind

/-! # Editor names — other names for the same blocks

    The editor writes fourteen blocks under names of its own, with field
    names of their own.  `Block.canonical?` gives such a block its kind,
    renames its fields and adds the fields its name implies; of two fields
    that end up under one name the later counts. -/

namespace BlockStage

/-- What an editor name stands for. -/
structure Alias where
  /-- The kind of the block. -/
  kind : Kind
  /-- The editor's field names and the names they stand for. -/
  renames : List (String × String)
  /-- Fields the name itself fixes, unless the block sets them. -/
  implied : Members

/-- The editor names of the canvas chapter and of the robot manual. -/
def aliases : List (String × Alias) :=
  [("gerak_maju", ⟨.move, [("STEPS", "distance")], []⟩),
    ("putar_kanan",
      ⟨.turn, [("DEGREES", "degrees")], [("direction", .str "right")]⟩),
    ("putar_kiri",
      ⟨.turn, [("DEGREES", "degrees")], [("direction", .str "left")]⟩),
    ("tunggu", ⟨.wait, [("SECONDS", "seconds")], []⟩),
    ("kontrol_ulangi", ⟨.repeatTimes, [("TIMES", "count")], []⟩),
    ("kontrol_selamanya", ⟨.repeatForever, [], []⟩),
    ("kontrol_jika", ⟨.ifCondition, [("CONDITION", "condition")], []⟩),
    ("kejadian_mulai", ⟨.start, [], []⟩),
    ("robot_mulai", ⟨.start, [], []⟩),
    ("robot_maju", ⟨.move, [("N", "distance")], []⟩),
    ("robot_putar",
      ⟨.turn, [("DEG", "degrees")], [("direction", .str "right")]⟩),
    ("robot_ulangi", ⟨.repeatTimes, [("N", "count")], []⟩),
    ("robot_jika_finish", ⟨.ifGoalReached, [], []⟩),
    ("robot_bilang", ⟨.say, [("TEXT", "text")], []⟩)]

/-- What an editor name stands for, if it is one. -/
def alias? (name : String) : Option Alias :=
  aliases.lookup name

namespace Alias

/-- The name a field of an aliased block stands under. -/
def rename (a : Alias) (name : String) : String :=
  (a.renames.lookup name).getD name

/-- The fields of an aliased block under their proper names. -/
def translate (a : Alias) (fields : Members) : Members :=
  a.implied.putAll (fields.map fun m => (a.rename m.1, m.2))

end Alias

namespace Block

/-- The kind and proper fields of a block whose kind is known by name. -/
def resolve? (kind : Value) (fields : Members) : Option (Kind × Members) :=
  match kind with
  | .str name =>
      match Kind.ofName? name with
      | some k => some (k, fields)
      | none => (alias? name).map fun a => (a.kind, a.translate fields)
  | _ => none

/-- The block under its proper kind and field names, the body untouched;
    `none` for unknown kinds. -/
def canonical? (b : Block) : Option Block :=
  match b.kind with
  | .str name =>
      match Kind.ofName? name with
      | some _ => some b
      | none =>
          (alias? name).map fun a =>
            ⟨.str a.kind.name, a.translate b.fields, b.body⟩
  | _ => none

/-- What is structurally wrong with a block of a proper kind. -/
def structureErrors (b : Block) : List String :=
  match b.kind, b.body with
  | .str name, body =>
      match Kind.ofName? name with
      | none => ["Unknown block kind: " ++ name]
      | some k =>
          if body.isSome ∧ ¬ k.isCompound then
            [name ++ " cannot contain nested blocks"]
          else []
  | kind, _ => ["Unknown block kind: " ++ kind.plain]

end Block

end BlockStage
