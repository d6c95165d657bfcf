import BlockStage.Compile.Forest

/-! # Reading — strict and tolerant readers build the same forest

    A forest is read strictly, block by block, or with tolerance, where
    whatever has the wrong shape is left out with a warning.  Both read
    back what is written (`ofValue_toValue`, `sourceBlocks_toValues`), and
    where the tolerant reader has nothing to warn of, the strict one reads
    the same blocks (`ofValues_source`).  Compilation itself never speaks
    of malformed blocks, so the warnings of a compiled forest tell which
    case it is. -/

namespace BlockStage

/-! ## Blocks written and read back -/

namespace Block

/-- Written members are read back. -/
theorem readFields_object (ms : Members) :
    readFields (some (.object ms)) = .ok ms := by
  cases ms <;> rfl

mutual

/-- A block that is written is read back. -/
theorem ofValue_toValue : ∀ b : Block, ofValue b.toValue = .ok b
  | ⟨kind, fields, none⟩ => by
      show (do
        let fields ← readFields (some (.object fields))
        return (⟨kind, fields, none⟩ : Block)) = _
      rw [readFields_object]
      rfl
  | ⟨kind, fields, some blocks⟩ => by
      show (do
        let fields ← readFields (some (.object fields))
        let body ← (ofValues (toValues blocks)).map some
        return (⟨kind, fields, body⟩ : Block)) = _
      rw [readFields_object, ofValues_toValues blocks]
      rfl

/-- Blocks that are written are read back. -/
theorem ofValues_toValues : ∀ bs : List Block,
    ofValues (toValues bs) = .ok bs
  | [] => rfl
  | b :: bs => by
      show (do
        let b ← ofValue b.toValue
        let bs ← ofValues (toValues bs)
        return b :: bs) = _
      rw [ofValue_toValue b, ofValues_toValues bs]
      rfl

end

mutual

/-- Whether a block and all that it holds have texts as their kinds. -/
def isNamed : Block → Bool
  | ⟨.str _, _, none⟩ => true
  | ⟨.str _, _, some blocks⟩ => allNamed blocks
  | _ => false

/-- Whether all blocks, those in bodies included, have texts as their
    kinds. -/
def allNamed : List Block → Bool
  | [] => true
  | b :: bs => b.isNamed && allNamed bs

end

/-- Blocks are read in order if each of them can be read. -/
theorem ofValues_ok {vs : List Value} {bs : List Block}
    (h : ofValues vs = .ok bs) : vs.map ofValue = bs.map .ok := by
  induction vs generalizing bs with
  | nil =>
      cases h
      rfl
  | cons v vs ih =>
      unfold ofValues at h
      cases hv : ofValue v with
      | error f =>
          rw [hv] at h
          cases h
      | ok b =>
          cases hvs : ofValues vs with
          | error f =>
              rw [hv, hvs] at h
              cases h
          | ok others =>
              rw [hv, hvs] at h
              cases h
              rw [List.map_cons, List.map_cons, hv, ih hvs]

end Block

mutual

/-- A block that is written is read with tolerance as it was. -/
theorem sourceBlock_toValue (path : Path) : ∀ b : Block,
    b.isNamed = true → sourceBlock path b.toValue = (b, [])
  | ⟨.str kind, fields, none⟩, _ => rfl
  | ⟨.str kind, fields, some blocks⟩, h => by
      show ((⟨.str kind, fields,
          some (sourceBlocks path 0 (Block.toValues blocks)).1⟩ : Block),
        [] ++ (sourceBlocks path 0 (Block.toValues blocks)).2) = _
      rw [sourceBlocks_toValues path 0 blocks h]
      rfl

/-- Blocks that are written are read with tolerance as they were. -/
theorem sourceBlocks_toValues (parent : Path) (i : Nat) :
    ∀ bs : List Block, Block.allNamed bs = true →
      sourceBlocks parent i (Block.toValues bs) = (bs, [])
  | [], _ => rfl
  | b :: bs, h => by
      obtain ⟨hb, hbs⟩ := Bool.and_eq_true_iff.1 h
      show ((sourceBlock (parent ++ [i]) b.toValue).1
          :: (sourceBlocks parent (i + 1) (Block.toValues bs)).1,
        (sourceBlock (parent ++ [i]) b.toValue).2
          ++ (sourceBlocks parent (i + 1) (Block.toValues bs)).2) = _
      rw [sourceBlock_toValue (parent ++ [i]) b hb,
        sourceBlocks_toValues parent (i + 1) bs hbs]
      rfl

end

/-! ## Nothing to warn of -/

/-- Fields that the tolerant reader accepts are the ones that the strict
    reader reads. -/
theorem readFields_source {v? : Option Value} {ms : Members}
    (h : sourceFields? v? = some ms) : Block.readFields v? = .ok ms := by
  unfold sourceFields? at h
  split at h
  · cases h
    rfl
  · cases h
    rfl
  · cases h
    exact Block.readFields_object _
  · cases h

mutual

/-- An item of which there is nothing to warn is a block, and the strict
    reader reads the same one. -/
theorem ofValue_source (path : Path) : ∀ v : Value,
    (sourceBlock path v).2 = [] →
      Block.ofValue v = .ok (sourceBlock path v).1
  | .object ms, h => by
      unfold sourceBlock at h ⊢
      unfold Block.ofValue
      split at h
      · rename_i kind hkind
        obtain ⟨hfields, hbody⟩ := List.append_eq_nil_iff.1 h
        cases hread : sourceFields? (Members.get? ms "fields") with
        | none =>
            rw [hread] at hfields
            cases hfields
        | some fields =>
            simp only [hkind]
            rw [readFields_source hread, bodyOf_source path ms hbody]
            rfl
      · cases h
  | .null, h => by cases h
  | .bool _, h => by cases h
  | .num _, h => by cases h
  | .str _, h => by cases h
  | .list _, h => by cases h

/-- Members of which there is nothing to warn hold a body that the strict
    reader reads as well. -/
theorem bodyOf_source (path : Path) : ∀ ms : List (String × Value),
    (sourceBodyOf path ms).warnings = [] →
      Block.bodyOf ms = .ok (sourceBodyOf path ms).blocks
  | [], _ => rfl
  | (name, v) :: ms, h => by
      unfold sourceBodyOf at h ⊢
      unfold Block.bodyOf
      split at h
      · rename_i hname
        rw [if_pos hname, if_pos hname]
        exact readBody_source path v h
      · rename_i hname
        rw [if_neg hname, if_neg hname]
        exact bodyOf_source path ms h

/-- A body of which there is nothing to warn is read strictly as well. -/
theorem readBody_source (path : Path) : ∀ v : Value,
    (sourceBody path v).warnings = [] →
      Block.readBody v = .ok (sourceBody path v).blocks
  | .list items, h => by
      show (Block.ofValues items).map some
        = .ok (some (sourceBlocks path 0 items).1)
      rw [ofValues_source path 0 items h]
      rfl
  | .null, _ => rfl
  | .bool _, h => by cases h
  | .num _, h => by cases h
  | .str _, h => by cases h
  | .object _, h => by cases h

/-- Items of which there is nothing to warn are blocks, and the strict
    reader reads the same ones. -/
theorem ofValues_source (parent : Path) (i : Nat) : ∀ vs : List Value,
    (sourceBlocks parent i vs).2 = [] →
      Block.ofValues vs = .ok (sourceBlocks parent i vs).1
  | [], _ => rfl
  | v :: vs, h => by
      obtain ⟨hown, hothers⟩ := List.append_eq_nil_iff.1 h
      show (do
        let b ← Block.ofValue v
        let bs ← Block.ofValues vs
        return b :: bs) = _
      rw [ofValue_source (parent ++ [i]) v hown,
        ofValues_source parent (i + 1) vs hothers]
      rfl

end

/-! ## Who speaks of malformed blocks -/

/-- The code of the warnings about items that are no blocks. -/
def malformedCode : String := "MALFORMED_BLOCK"

mutual

/-- The reader warns of nothing but malformed blocks. -/
theorem sourceBlock_code (path : Path) : ∀ v : Value,
    ∀ w ∈ (sourceBlock path v).2, w.code = malformedCode
  | .object ms => by
      intro w hw
      unfold sourceBlock at hw
      split at hw
      · rcases List.mem_append.1 hw with hw | hw
        · split at hw
          · obtain rfl := List.mem_singleton.1 hw
            rfl
          · cases hw
        · exact sourceBodyOf_code path ms w hw
      · obtain rfl := List.mem_singleton.1 hw
        rfl
  | .null => by
      intro w hw
      obtain rfl := List.mem_singleton.1 hw
      rfl
  | .bool _ => by
      intro w hw
      obtain rfl := List.mem_singleton.1 hw
      rfl
  | .num _ => by
      intro w hw
      obtain rfl := List.mem_singleton.1 hw
      rfl
  | .str _ => by
      intro w hw
      obtain rfl := List.mem_singleton.1 hw
      rfl
  | .list _ => by
      intro w hw
      obtain rfl := List.mem_singleton.1 hw
      rfl

/-- So it does about the body among some members. -/
theorem sourceBodyOf_code (path : Path) : ∀ ms : List (String × Value),
    ∀ w ∈ (sourceBodyOf path ms).warnings, w.code = malformedCode
  | [] => nofun
  | (name, v) :: ms => by
      intro w hw
      unfold sourceBodyOf at hw
      split at hw
      · exact sourceBody_code path v w hw
      · exact sourceBodyOf_code path ms w hw

/-- So it does about a body. -/
theorem sourceBody_code (path : Path) : ∀ v : Value,
    ∀ w ∈ (sourceBody path v).warnings, w.code = malformedCode
  | .list items => sourceBlocks_code path 0 items
  | .null => nofun
  | .bool _ => by
      intro w hw
      obtain rfl := List.mem_singleton.1 hw
      rfl
  | .num _ => by
      intro w hw
      obtain rfl := List.mem_singleton.1 hw
      rfl
  | .str _ => by
      intro w hw
      obtain rfl := List.mem_singleton.1 hw
      rfl
  | .object _ => by
      intro w hw
      obtain rfl := List.mem_singleton.1 hw
      rfl

/-- So it does about the items of a list. -/
theorem sourceBlocks_code (parent : Path) (i : Nat) : ∀ vs : List Value,
    ∀ w ∈ (sourceBlocks parent i vs).2, w.code = malformedCode
  | [] => nofun
  | v :: vs => by
      intro w hw
      rcases List.mem_append.1 hw with hw | hw
      · exact sourceBlock_code (parent ++ [i]) v w hw
      · exact sourceBlocks_code parent (i + 1) vs w hw

end

/-- What a block of a known kind gives never says that it is malformed. -/
theorem instructionsOf_code (t : Target) (path : Path) (kind : Kind)
    (values : Members) (body : Program) :
    ∀ w ∈ (instructionsOf t path kind values body).warnings,
      w.code ≠ malformedCode := by
  have hturn : ∀ degrees, ∀ w ∈ (turnDegrees t path degrees).2,
      w.code ≠ malformedCode := by
    intro degrees w hw
    unfold turnDegrees at hw
    split at hw
    · split at hw
      · cases hw
      · obtain rfl := List.mem_singleton.1 hw
        exact (by decide : "INVALID_FIELD_VALUE" ≠ malformedCode)
    · cases hw
  cases kind with
  | start | move | wait | say | repeatTimes | ifGoalReached =>
      intro w hw
      cases hw
  | turn =>
      intro w hw
      unfold instructionsOf at hw
      dsimp only at hw
      split at hw <;> exact hturn _ w hw
  | repeatForever =>
      intro w hw
      obtain rfl := List.mem_singleton.1 hw
      exact (by decide : "FOREVER_LOOP_BOUNDED" ≠ malformedCode)
  | ifCondition =>
      intro w hw
      unfold instructionsOf at hw
      dsimp only at hw
      split at hw
      · cases hw
      · cases hw
      · obtain rfl := List.mem_singleton.1 hw
        exact (by decide : "CONDITION_ALWAYS_FALSE" ≠ malformedCode)

mutual

/-- The compiler never says that a block is malformed. -/
theorem compileBlock_code (t : Target) (path : Path) : ∀ b : Block,
    ∀ w ∈ (compileBlock t path b).warnings, w.code ≠ malformedCode
  | ⟨kind, fields, body⟩ => by
      intro w hw
      unfold compileBlock at hw
      split at hw
      · cases hw
      · split at hw
        · obtain rfl := List.mem_singleton.1 hw
          exact (by decide : "UNKNOWN_BLOCK" ≠ malformedCode)
        · rename_i k proper _
          have hinner : ∀ w ∈ (match body with
              | none => Compiled.empty
              | some blocks =>
                  if k.isCompound then compileBlocks t path 0 blocks
                  else .empty).warnings, w.code ≠ malformedCode := by
            cases body with
            | none => nofun
            | some blocks =>
                dsimp only
                split
                · exact compileBlocks_code t path 0 blocks
                · nofun
          rcases List.mem_append.1 hw with hw | hw
          · rcases List.mem_append.1 hw with hw | hw
            · rcases List.mem_append.1 hw with hw | hw
              · split at hw
                · obtain rfl := List.mem_singleton.1 hw
                  exact (by decide : "UNEXPECTED_BODY" ≠ malformedCode)
                · cases hw
              · obtain ⟨f, -, rfl⟩ := List.mem_map.1 hw
                exact (by decide : "INVALID_FIELD_VALUE" ≠ malformedCode)
            · exact hinner w hw
          · exact instructionsOf_code _ _ _ _ _ w hw

/-- So it does about blocks in order. -/
theorem compileBlocks_code (t : Target) (parent : Path) (i : Nat) :
    ∀ bs : List Block,
      ∀ w ∈ (compileBlocks t parent i bs).warnings, w.code ≠ malformedCode
  | [] => nofun
  | b :: bs => by
      intro w hw
      rcases List.mem_append.1 hw with hw | hw
      · exact compileBlock_code t (parent ++ [i]) b w hw
      · exact compileBlocks_code t parent (i + 1) bs w hw

end

/-! ## The ways into the compiler -/

/-- Whether nothing that was compiled is said to be malformed. -/
def Compiled.Clean (c : Compiled) : Prop :=
  ∀ w ∈ c.warnings, w.code ≠ malformedCode

variable {t : Target} {items : List Value} {blocks : List Block}
  {compiled : Compiled}

/-- Where there is nothing to warn of, reading and compiling is compiling
    what was read. -/
theorem compileSource_quiet (h : (sourceBlocks [] 0 items).2 = []) :
    compileSource t (.list items)
      = compileForest? t (sourceBlocks [] 0 items).1 := by
  show (compileForest? t (sourceBlocks [] 0 items).1).map
    (fun c => (⟨c.program,
      (sourceBlocks [] 0 items).2 ++ c.warnings⟩ : Compiled)) = _
  rw [h]
  cases compileForest? t (sourceBlocks [] 0 items).1 <;> rfl

/-- A written forest compiles to what the forest compiles to. -/
theorem compileSource_toValues (h : Block.allNamed blocks = true) :
    compileSource t (.list (Block.toValues blocks))
      = compileForest? t blocks := by
  have hread := sourceBlocks_toValues [] 0 blocks h
  rw [compileSource_quiet (by rw [hread]), hread]

/-- A forest is compiled cleanly only if the reader has nothing to warn
    of. -/
theorem Compiled.Clean.quiet
    (h : compileSource t (.list items) = .ok compiled)
    (hclean : compiled.Clean) : (sourceBlocks [] 0 items).2 = [] := by
  have h : (compileForest? t (sourceBlocks [] 0 items).1).map
      (fun c => (⟨c.program,
        (sourceBlocks [] 0 items).2 ++ c.warnings⟩ : Compiled))
        = .ok compiled := h
  cases hforest : compileForest? t (sourceBlocks [] 0 items).1 with
  | error f =>
      rw [hforest] at h
      cases h
  | ok own =>
      rw [hforest] at h
      cases h
      refine List.eq_nil_iff_forall_not_mem.2 fun w hw => ?_
      exact hclean w (List.mem_append_left _ hw)
        (sourceBlocks_code [] 0 items w hw)

/-- Items that are compiled cleanly are blocks one and all, and these
    blocks compile to the same. -/
theorem Compiled.Clean.reads
    (h : compileSource t (.list items) = .ok compiled)
    (hclean : compiled.Clean) :
    ∃ blocks, items.map Block.ofValue = blocks.map .ok
      ∧ compileForest? t blocks = .ok compiled := by
  have hquiet := hclean.quiet h
  exact ⟨_, Block.ofValues_ok (ofValues_source [] 0 items hquiet),
    (compileSource_quiet hquiet).symm.trans h⟩

end BlockStage
