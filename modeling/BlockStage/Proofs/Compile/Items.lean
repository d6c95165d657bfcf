import BlockStage.Proofs.Compile.Places

/-! # Items — what is read of a written forest

    An item of a written forest is read as one block, wherever it stands
    (`sourceBlock_eq`), and the warnings of reading are gathered from the
    items that are read (`readingWarnings_gathered`).  The items inside an
    item that are compiled are read as the blocks inside its block
    (`readBlock_inside`), so both passes find the same things at the same
    places, and what a compiled list is warned of is said of an item at the
    path of the warning (`mem_compileSource_iff`). -/

namespace BlockStage

/-- The kind of a proper or an editor name. -/
def Kind.ofWritten? (name : String) : Option Kind :=
  (Kind.ofName? name).or ((alias? name).map (·.kind))

/-- The kind of a block, under its proper or an editor name. -/
def Block.kind? (b : Block) : Option Kind :=
  (Block.resolve? b.kind b.fields).map (·.1)

namespace Value

/-! ## Items as they are written -/

/-- The text that is written as the kind of an item. -/
def kindName? (v : Value) : Option String :=
  match v.get? "kind" with
  | some (.str s) => some s
  | _ => none

/-- The list that is written as the body of an item. -/
def bodyItems? (v : Value) : Option (List Value) :=
  match v.get? "body" with
  | some (.list items) => some items
  | _ => none

/-- The kind of an item, under its proper or an editor name. -/
def kind? (v : Value) : Option Kind :=
  v.kindName?.bind Kind.ofWritten?

/-- The items in the body of an item. -/
def bodyItems (v : Value) : List Value :=
  v.bodyItems?.getD []

/-- The items that are read with an item: those in its body, if it is an
    object with a text as its kind. -/
def readItems (v : Value) : List Value :=
  if v.kindName?.isSome then v.bodyItems else []

/-- The items that are compiled with an item: those in its body, if its
    kind is compound. -/
def visitedItems (v : Value) : List Value :=
  match v.kind? with
  | some k => if k.isCompound then v.bodyItems else []
  | none => []

/-- What reading says of the body of an item: nothing, if there is none or
    if it is a list. -/
def bodyDefects (v : Value) : List Complaint :=
  match v.get? "body" with
  | none => []
  | some .null => []
  | some (.list _) => []
  | some _ => [.bodyNotAList]

/-- What reading says of an item itself. -/
def defects (v : Value) : List Complaint :=
  if v.kindName?.isNone then [.notABlock]
  else
    (if (sourceFields? (v.get? "fields")).isNone then [.fieldsNotAnObject]
      else []) ++ v.bodyDefects

/-- The block that an item is read as. -/
def readBlock (v : Value) : Block := (sourceBlock [] v).1

/-- The warnings of reading an item. -/
def readingWarnings (v : Value) : List Warning := (sourceBlock [] v).2

end Value

open Value

/-! ## Reading is local -/

/-- The body that is read is the one that a look-up finds. -/
theorem sourceBodyOf_eq (path : Path) (ms : Members) :
    sourceBodyOf path ms
      = match Members.get? ms "body" with
        | none => ⟨none, []⟩
        | some v => sourceBody path v := by
  induction ms with
  | nil => rfl
  | cons m ms ih =>
      obtain ⟨name, v⟩ := m
      unfold sourceBodyOf
      by_cases h : name = "body"
      · simp [h, Members.get?]
      · rw [if_neg h, ih]
        simp [h, Members.get?]

mutual

/-- An item is read as the same block at every place, with the place in
    front of the paths of the warnings. -/
theorem sourceBlock_eq (place : Path) : ∀ v : Value,
    sourceBlock place v
      = (v.readBlock, v.readingWarnings.map (.within place))
  | .object ms => by
      have hbody := sourceBodyOf_within place ms
      unfold readBlock readingWarnings sourceBlock
      split
      · rw [hbody]
        dsimp only
        rw [List.map_append]
        congr 2
        split <;> simp [Warning.within]
      · simp [Warning.within]
  | .null => by simp [readBlock, readingWarnings, sourceBlock, Warning.within]
  | .bool _ => by
      simp [readBlock, readingWarnings, sourceBlock, Warning.within]
  | .num _ => by
      simp [readBlock, readingWarnings, sourceBlock, Warning.within]
  | .str _ => by
      simp [readBlock, readingWarnings, sourceBlock, Warning.within]
  | .list _ => by
      simp [readBlock, readingWarnings, sourceBlock, Warning.within]

/-- So is the body among some members. -/
theorem sourceBodyOf_within (place : Path) : ∀ ms : List (String × Value),
    sourceBodyOf place ms
      = ⟨(sourceBodyOf [] ms).blocks,
          (sourceBodyOf [] ms).warnings.map (.within place)⟩
  | [] => rfl
  | (name, v) :: ms => by
      unfold sourceBodyOf
      split
      · exact sourceBody_within place v
      · exact sourceBodyOf_within place ms

/-- So is a body. -/
theorem sourceBody_within (place : Path) : ∀ v : Value,
    sourceBody place v
      = ⟨(sourceBody [] v).blocks,
          (sourceBody [] v).warnings.map (.within place)⟩
  | .list items => by
      unfold sourceBody
      rw [sourceBlocks_eq place 0 items, sourceBlocks_eq [] 0 items]
      simp [Warning.within]
  | .null => rfl
  | .bool _ => by simp [sourceBody, Warning.within]
  | .num _ => by simp [sourceBody, Warning.within]
  | .str _ => by simp [sourceBody, Warning.within]
  | .object _ => by simp [sourceBody, Warning.within]

/-- The items of a list are read one by one. -/
theorem sourceBlocks_eq (place : Path) (i : Nat) : ∀ vs : List Value,
    sourceBlocks place i vs
      = (vs.map readBlock,
          (gather readingWarnings i vs).map (.within place))
  | [] => rfl
  | v :: vs => by
      unfold sourceBlocks
      rw [sourceBlock_eq (place ++ [i]) v, sourceBlocks_eq place (i + 1) vs]
      simp [gather, Warning.within_within]

end

/-- The items of a forest are read one by one. -/
theorem sourceForest_eq (vs : List Value) :
    sourceBlocks [] 0 vs = (vs.map readBlock, gather readingWarnings 0 vs) := by
  have hnil : Warning.within [] = id := rfl
  rw [sourceBlocks_eq, hnil, List.map_id]

/-! ## Items as blocks -/

/-- A look-up in an object is a look-up among its members. -/
theorem get?_object (ms : Members) (name : String) :
    get? (.object ms) name = Members.get? ms name := rfl

/-- A text as the kind of an item stands among the members of an object. -/
theorem kindName?_eq_some_iff {v : Value} {name : String} :
    v.kindName? = some name ↔ v.get? "kind" = some (.str name) := by
  unfold kindName?
  split
  · rename_i s hkind
    rw [hkind]
    simp
  · rename_i hno
    constructor
    · intro h
      cases h
    · intro h
      exact absurd h (hno name)

/-- A list as the body of an item stands among the members of an
    object. -/
theorem bodyItems?_eq_some_iff {v : Value} {items : List Value} :
    v.bodyItems? = some items ↔ v.get? "body" = some (.list items) := by
  unfold bodyItems?
  split
  · rename_i own hbody
    rw [hbody]
    simp
  · rename_i hno
    exact ⟨nofun, fun h => absurd h (hno items)⟩

/-- An item without a text as its kind is read as a placeholder, with one
    warning. -/
theorem sourceBlock_unnamed {v : Value} (h : v.kindName? = none) :
    sourceBlock [] v = (placeholder, [⟨[], .notABlock⟩]) := by
  cases v with
  | object ms =>
      unfold sourceBlock
      split
      · rename_i name hkind
        have hnamed : kindName? (.object ms) = some name :=
          kindName?_eq_some_iff.2 hkind
        rw [hnamed] at h
        cases h
      · rfl
  | _ => rfl

/-- The body of an object is read item by item. -/
theorem sourceBodyOf_root (ms : Members) :
    sourceBodyOf [] ms
      = ⟨(bodyItems? (.object ms)).map (·.map readBlock),
          (bodyDefects (.object ms)).map (.mk [])
            ++ gather readingWarnings 0 (bodyItems (.object ms))⟩ := by
  rw [sourceBodyOf_eq]
  unfold bodyItems bodyItems? bodyDefects
  rw [get?_object]
  cases Members.get? ms "body" with
  | none => rfl
  | some body =>
      cases body with
      | list items =>
          simp only [sourceBody, sourceForest_eq]
          rfl
      | _ => rfl

/-- An item with a text as its kind is read as a block of that kind, with
    the fields and the body that are written; the warnings are what is said
    of the item, and those about the items in its body. -/
theorem sourceBlock_named {v : Value} {name : String}
    (h : v.kindName? = some name) :
    sourceBlock [] v
      = (⟨.str name, (sourceFields? (v.get? "fields")).getD [],
            v.bodyItems?.map (·.map readBlock)⟩,
          v.defects.map (.mk []) ++ gather readingWarnings 0 v.bodyItems) := by
  have hkind := kindName?_eq_some_iff.1 h
  cases v with
  | object ms =>
      have hkind : Members.get? ms "kind" = some (.str name) := hkind
      unfold sourceBlock defects
      rw [h, get?_object]
      simp only [hkind, sourceBodyOf_root]
      congr 1
      rw [← List.append_assoc, Option.isNone_some, if_neg Bool.false_ne_true,
        List.map_append]
      congr 2
      split <;> rfl
  | _ => cases hkind

/-- The block that an item with a text as its kind is read as. -/
theorem readBlock_named {v : Value} {name : String}
    (h : v.kindName? = some name) :
    v.readBlock = ⟨.str name, (sourceFields? (v.get? "fields")).getD [],
      v.bodyItems?.map (·.map readBlock)⟩ :=
  congrArg Prod.fst (sourceBlock_named h)

/-- The kind of a block is found by its name alone. -/
theorem resolve?_kind (name : String) (fields : Members) :
    (Block.resolve? (.str name) fields).map (·.1)
      = Kind.ofWritten? name := by
  unfold Block.resolve? Kind.ofWritten?
  dsimp only
  cases Kind.ofName? name with
  | some k => rfl
  | none => cases alias? name <;> rfl

/-- The kind of the block that an item is read as is the kind of the
    item. -/
theorem readBlock_kind (v : Value) : v.readBlock.kind? = v.kind? := by
  unfold Block.kind? kind?
  cases h : v.kindName? with
  | none =>
      rw [readBlock, sourceBlock_unnamed h]
      rfl
  | some name =>
      rw [readBlock_named h]
      exact resolve?_kind name _

/-- The blocks inside the block of an item are those of the items that are
    compiled with it. -/
theorem readBlock_inside (v : Value) :
    v.readBlock.inside = v.visitedItems.map readBlock := by
  have hbody : ∀ k, v.kind? = some k →
      v.readBlock.body.getD [] = v.bodyItems.map readBlock := by
    intro k hk
    obtain ⟨name, hname, -⟩ := Option.bind_eq_some_iff.1 hk
    unfold bodyItems
    rw [readBlock_named hname]
    cases v.bodyItems? <;> rfl
  have hkind := readBlock_kind v
  unfold Block.kind? at hkind
  unfold Block.inside visitedItems
  cases hresolve : Block.resolve? v.readBlock.kind v.readBlock.fields with
  | none =>
      rw [hresolve] at hkind
      rw [← hkind]
      rfl
  | some r =>
      rw [hresolve] at hkind
      rw [← hkind]
      dsimp only [Option.map_some]
      split
      · exact hbody r.1 hkind.symm
      · rfl

/-! ## Warnings of a list -/

/-- Reading gathers warnings from the items that it goes through. -/
theorem readingWarnings_gathered :
    Gathered readItems defects readingWarnings := by
  intro v w
  unfold readItems
  cases h : v.kindName? with
  | none =>
      have hdefects : v.defects = [.notABlock] := by
        unfold defects
        rw [h]
        rfl
      rw [readingWarnings, sourceBlock_unnamed h, hdefects]
      show w ∈ [Complaint.notABlock].map (.mk []) ↔ _ ∨ w ∈ []
      rw [mem_map_mk, or_iff_left List.not_mem_nil]
  | some name =>
      rw [readingWarnings, sourceBlock_named h, List.mem_append, mem_map_mk]
      rfl

variable {t : Target} {items : List Value} {compiled : Compiled}

/-- What a list compiles to is what the blocks that are read compile to,
    after the warnings of reading. -/
theorem compileSource_list (h : compileSource t (.list items) = .ok compiled) :
    compileForest? t (items.map readBlock)
        = .ok (compileForest t (items.map readBlock))
      ∧ compiled.program = (compileForest t (items.map readBlock)).program
      ∧ compiled.warnings = gather readingWarnings 0 items
          ++ (compileForest t (items.map readBlock)).warnings := by
  have h : (compileForest? t (sourceBlocks [] 0 items).1).map
      (fun c => (⟨c.program,
        (sourceBlocks [] 0 items).2 ++ c.warnings⟩ : Compiled))
        = .ok compiled := h
  rw [sourceForest_eq] at h
  cases hforest : compileForest? t (items.map readBlock) with
  | error f =>
      rw [hforest] at h
      cases h
  | ok own =>
      obtain ⟨-, rfl⟩ := compileForest?_eq_ok_iff.1 hforest
      rw [hforest] at h
      cases h
      exact ⟨rfl, rfl, rfl⟩

/-- A compiled list is warned of what reading says of the items that are
    read and of what the compiler says of the items that are compiled, each
    time at the place of the item. -/
theorem mem_compileSource_iff
    (h : compileSource t (.list items) = .ok compiled) (w : Warning) :
    w ∈ compiled.warnings ↔
      (∃ v, itemAt? readItems items w.path = some v ∧ w.complaint ∈ v.defects)
        ∨ ∃ v, itemAt? visitedItems items w.path = some v
            ∧ w.complaint ∈ v.readBlock.complaints t := by
  obtain ⟨-, -, hwarnings⟩ := compileSource_list h
  rw [hwarnings, List.mem_append, readingWarnings_gathered.mem_gather,
    mem_compileForest_iff, itemAt?_map readBlock_inside]
  simp only [Option.map_eq_some_iff]
  constructor
  · rintro (hread | ⟨b, ⟨v, hv, rfl⟩, hc⟩)
    · exact .inl hread
    · exact .inr ⟨v, hv, hc⟩
  · rintro (hread | ⟨v, hv, hc⟩)
    · exact .inl hread
    · exact .inr ⟨_, ⟨v, hv, rfl⟩, hc⟩

end BlockStage
