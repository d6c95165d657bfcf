import BlockStage.Compile.Warning

/-! # Block forests read with tolerance

    A forest comes as a list, or as an object with the list under
    `blocks`.  An item that is no block leaves a placeholder behind, so
    that the places of its neighbours stay what they were; fields and
    bodies of the wrong shape are left out. -/

namespace BlockStage

/-- The kind of a placeholder, which compiles to nothing. -/
def placeholderKind : String := "__malformed__"

/-- What stands in for an item that is no block. -/
def placeholder : Block := ⟨.str placeholderKind, [], none⟩

/-- The fields of an item; `none` when they are neither an object nor
    missing. -/
def sourceFields? : Option Value → Option Members
  | none => some []
  | some .null => some []
  | some (.object ms) => some ms
  | some _ => none

/-- A body that was read, with the warnings it gave. -/
structure SourceBody where
  /-- The blocks, if the item holds any. -/
  blocks : Option (List Block)
  /-- What was wrong with it. -/
  warnings : List Warning

mutual

/-- One item of a forest, at its place. -/
def sourceBlock (path : Path) : Value → Block × List Warning
  | .object ms =>
      match Members.get? ms "kind" with
      | some (.str kind) =>
          let fields? := sourceFields? (Members.get? ms "fields")
          let body := sourceBodyOf path ms
          let fieldWarnings : List Warning :=
            if fields?.isNone then [⟨path, .fieldsNotAnObject⟩] else []
          (⟨.str kind, fields?.getD [], body.blocks⟩,
            fieldWarnings ++ body.warnings)
      | _ => (placeholder, [⟨path, .notABlock⟩])
  | _ => (placeholder, [⟨path, .notABlock⟩])

/-- The body among the members of an item. -/
def sourceBodyOf (path : Path) : List (String × Value) → SourceBody
  | [] => ⟨none, []⟩
  | (name, v) :: ms =>
      if name = "body" then sourceBody path v else sourceBodyOf path ms

/-- A body: nothing, or a list of items. -/
def sourceBody (path : Path) : Value → SourceBody
  | .null => ⟨none, []⟩
  | .list items =>
      let (blocks, warnings) := sourceBlocks path 0 items
      ⟨some blocks, warnings⟩
  | _ => ⟨none, [⟨path, .bodyNotAList⟩]⟩

/-- The items of a list, the first one at index `i` under a place. -/
def sourceBlocks (parent : Path) (i : Nat) :
    List Value → List Block × List Warning
  | [] => ([], [])
  | v :: vs =>
      let (b, own) := sourceBlock (parent ++ [i]) v
      let (bs, others) := sourceBlocks parent (i + 1) vs
      (b :: bs, own ++ others)

end

/-- The list of a forest, which may stand under `blocks`. -/
def sourceItems? : Value → Option (List Value)
  | .object ms =>
      match Members.get? ms "blocks" with
      | some (.list items) => some items
      | _ => none
  | .list items => some items
  | _ => none

end BlockStage
