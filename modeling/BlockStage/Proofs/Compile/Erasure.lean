import BlockStage.Proofs.Compile.Domain
import BlockStage.Proofs.Compile.Items
import BlockStage.Proofs.Compile.Totality

/-! # Erasure — blocks that leave no trace in the program

    Some blocks give nothing, whatever stands in them: placeholders, blocks
    of unknown kind, and conditions that never hold.  Others give just what
    their bodies give: start blocks, and conditions that always hold.
    `Block.erase` takes the former out of a forest and puts the bodies of
    the latter in their places, at every depth; a body that a simple block
    carries along is dropped.

    The program stays the same (`erase_program`), and each block that is
    left gives one instruction, whose body comes from the block's body
    (`Mirrors`), so that program and forest have the same size
    (`Mirrors.size`). -/

namespace BlockStage

/-! ## What becomes of a block -/

/-- What becomes of a block in a program. -/
inductive Fate where
  /-- It gives nothing. -/
  | dropped
  /-- It gives what its body gives. -/
  | spliced
  /-- It gives an instruction. -/
  | kept
deriving DecidableEq

namespace Block

/-- The condition among the proper fields of a block, brought into its
    domain. -/
def condition (fields : Members) : String :=
  (Domain.coerceChoice ["goal-reached", "true", "false"] "false"
    ((fields.get? "condition").getD .null)).1

/-- What becomes of a block: without a known kind it is dropped, a start
    block is spliced, and a condition is spliced, kept or dropped as it
    always holds, depends on the goal or never holds. -/
def fate (b : Block) : Fate :=
  match resolve? b.kind b.fields with
  | none => .dropped
  | some (.start, _) => .spliced
  | some (.ifCondition, fields) =>
      match condition fields with
      | "goal-reached" => .kept
      | "true" => .spliced
      | _ => .dropped
  | some _ => .kept

/-- Whether a block is of a compound kind. -/
def isCompound (b : Block) : Bool :=
  b.kind?.any Kind.isCompound

mutual

/-- What is left of a block. -/
def erase : Block → List Block
  | ⟨kind, fields, body⟩ =>
      let inner :=
        match body with
        | none => none
        | some blocks => some (eraseAll blocks)
      match fate ⟨kind, fields, body⟩ with
      | .dropped => []
      | .spliced => inner.getD []
      | .kept =>
          [⟨kind, fields,
            if isCompound ⟨kind, fields, body⟩ then inner else none⟩]

/-- What is left of some blocks, in order. -/
def eraseAll : List Block → List Block
  | [] => []
  | b :: bs => erase b ++ eraseAll bs

end

mutual

/-- The number of a block and all blocks in its body. -/
def size : Block → Nat
  | ⟨_, _, none⟩ => 1
  | ⟨_, _, some blocks⟩ => 1 + totalSize blocks

/-- The number of some blocks and all blocks in their bodies. -/
def totalSize : List Block → Nat
  | [] => 0
  | b :: bs => b.size + totalSize bs

end

/-- Blocks are erased one by one. -/
theorem eraseAll_eq (bs : List Block) : eraseAll bs = bs.flatMap erase := by
  induction bs with
  | nil => rfl
  | cons b bs ih => rw [eraseAll, ih, List.flatMap_cons]

/-- The block that is left of a block that is kept. -/
def trimmed (b : Block) : Block :=
  ⟨b.kind, b.fields, if b.isCompound then b.body.map eraseAll else none⟩

/-- What is left of a block, by its fate. -/
theorem erase_eq (b : Block) :
    b.erase = match b.fate with
      | .dropped => []
      | .spliced => eraseAll (b.body.getD [])
      | .kept => [b.trimmed] := by
  obtain ⟨kind, fields, body⟩ := b
  unfold erase trimmed
  cases fate ⟨kind, fields, body⟩ with
  | dropped => rfl
  | spliced => cases body <;> rfl
  | kept => cases body <;> rfl

/-- Sizes are counted body by body. -/
theorem size_eq (b : Block) : b.size = 1 + totalSize (b.body.getD []) := by
  obtain ⟨kind, fields, body⟩ := b
  cases body <;> rfl

/-- The blocks inside a block are its body if it is compound, and none
    else. -/
theorem inside_eq (b : Block) :
    b.inside = if b.isCompound then b.body.getD [] else [] := by
  unfold inside isCompound kind?
  cases resolve? b.kind b.fields <;> rfl

/-- A block that is spliced is compound. -/
theorem inside_spliced {b : Block} (h : b.fate = .spliced) :
    b.inside = b.body.getD [] := by
  unfold fate at h
  unfold inside
  split at h
  · cases h
  · rename_i hresolve
    rw [hresolve]
    rfl
  · rename_i hresolve
    rw [hresolve]
    rfl
  · cases h

/-- What is inside the block that is left is what is left of what is
    inside. -/
theorem inside_trimmed (b : Block) :
    b.trimmed.inside = eraseAll b.inside ∧
      b.trimmed.body.getD [] = eraseAll b.inside := by
  have hcompound : b.trimmed.isCompound = b.isCompound := rfl
  rw [inside_eq, inside_eq, hcompound]
  unfold trimmed
  cases b.isCompound with
  | false => exact ⟨rfl, rfl⟩
  | true => cases b.body <;> exact ⟨rfl, rfl⟩

end Block

/-! ## What a block yields, by its fate -/

variable {t : Target}

/-- The field of a condition that is coerced has the condition for its
    value. -/
theorem domain_condition (source : String) :
    (Domains.of (some .ifCondition) source).lookup "condition"
      = some (.choice ["goal-reached", "true", "false"] "false") := by
  obtain ⟨own, hown, heq⟩ := Domains.of_eq .ifCondition source
  rw [heq]
  simp only [editorDomains, List.map_cons, List.map_nil, List.mem_cons,
    List.not_mem_nil, or_false] at hown
  rcases hown with rfl | rfl | rfl | rfl | rfl | rfl <;> rfl

/-- The body of an instruction. -/
def Instruction.body : Instruction → Program
  | .repeatTimes _ body => body
  | .repeatBounded _ body => body
  | .ifGoalReached body => body
  | _ => []

/-- An instruction counts for one, and its body for itself. -/
theorem Instruction.size_eq (i : Instruction) :
    i.size = 1 + Instruction.totalSize i.body := by
  cases i <;> rfl

/-- What a block yields: nothing if it is dropped, its body if it is
    spliced, and else one instruction, around its body if the block is
    compound. -/
theorem Block.yield_fate (b : Block) (body : Program) :
    match b.fate with
    | .dropped => b.yield t body = []
    | .spliced => b.yield t body = body
    | .kept => ∃ i, b.yield t body = [i]
        ∧ i.body = if b.isCompound then body else [] := by
  obtain ⟨kind, fields, blocks⟩ := b
  unfold Block.fate Block.yield Block.known? Block.isCompound Block.kind?
  cases Block.resolve? kind fields with
  | none => rfl
  | some r =>
      obtain ⟨k, proper⟩ := r
      dsimp only [Option.map_some]
      cases k with
      | start => rfl
      | ifCondition =>
          have hfield :
              ((coerceFields Kind.ifCondition.name
                (Domains.of (some .ifCondition) (sourceName kind))
                t.ceiling proper).values.get? "condition").getD .null
                = .str (Block.condition proper) :=
            coerceFields_field proper (domain_condition (sourceName kind))
          simp only [instructionsOf, hfield]
          generalize Block.condition proper = condition
          by_cases hgoal : condition = "goal-reached"
          · subst hgoal
            exact ⟨_, rfl, rfl⟩
          · by_cases htrue : condition = "true"
            · subst htrue
              rfl
            · simp [hgoal, htrue]
      | turn =>
          simp only [instructionsOf]
          split <;> exact ⟨_, rfl, rfl⟩
      | _ => exact ⟨_, rfl, rfl⟩

/-! ## Erasure keeps the program -/

/-- The program of a forest is made block by block. -/
theorem compileForest_program (bs : List Block) :
    (compileForest t bs).program
      = bs.flatMap fun b => (compileBlock t [] b).program := by
  unfold compileForest
  generalize 0 = i
  induction bs generalizing i with
  | nil => rfl
  | cons b bs ih =>
      rw [compileBlocks, compileBlock_within, Compiled.append_program, ih,
        List.flatMap_cons]
      rfl

/-- What a block yields comes from what is inside it. -/
theorem compileBlock_yield (b : Block) :
    (compileBlock t [] b).program
      = b.yield t (compileForest t b.inside).program := by
  rw [compileBlock_eq]

open Block

/-- Blocks that keep their programs when they are erased do so together. -/
theorem eraseAll_program_of (bs : List Block)
    (h : ∀ b ∈ bs, (compileForest t b.erase).program
      = (compileBlock t [] b).program) :
    (compileForest t (eraseAll bs)).program
      = (compileForest t bs).program := by
  induction bs with
  | nil => rfl
  | cons b bs ih =>
      obtain ⟨hb, hbs⟩ := List.forall_mem_cons.1 h
      rw [eraseAll, compileForest_append]
      show (compileForest t b.erase).program
        ++ (compileForest t (eraseAll bs)).program = _
      rw [hb, ih hbs, compileForest_program (b :: bs), List.flatMap_cons,
        ← compileForest_program]

/-- What is left of a block compiles to the program of the block. -/
theorem erase_program (b : Block) :
    (compileForest t b.erase).program = (compileBlock t [] b).program := by
  induction b using Block.induct with
  | step kind fields body ih =>
      have hinside := eraseAll_program_of (t := t)
        (inside ⟨kind, fields, body⟩)
        (fun b hb => ih b (mem_body hb))
      have hfate := yield_fate (t := t) ⟨kind, fields, body⟩
        (compileForest t (inside ⟨kind, fields, body⟩)).program
      rw [erase_eq, compileBlock_yield]
      cases h : fate ⟨kind, fields, body⟩ with
      | dropped =>
          rw [h] at hfate
          exact hfate.symm
      | spliced =>
          rw [h] at hfate
          rw [inside_spliced h] at hinside hfate ⊢
          exact hinside.trans hfate.symm
      | kept =>
          have htrimmed :
              (compileBlock t [] (trimmed ⟨kind, fields, body⟩)).program
                = Block.yield t ⟨kind, fields, body⟩
                  (compileForest t (inside ⟨kind, fields, body⟩)).program := by
            rw [compileBlock_yield, (inside_trimmed _).1, hinside]
            rfl
          rw [compileForest_program, List.flatMap_singleton, htrimmed]

/-! ## Erasure keeps what can be compiled -/

/-- Blocks of which nothing that is left has a fault leave nothing that has
    one. -/
theorem eraseAll_faultless_of {bs : List Block}
    (h : ∀ b ∈ bs, blocksFault? t b.erase = none) :
    blocksFault? t (eraseAll bs) = none := by
  rw [eraseAll_eq, blocksFault?_eq_none_iff]
  intro x hx
  obtain ⟨b, hb, hx⟩ := List.mem_flatMap.1 hx
  exact blocksFault?_eq_none_iff.1 (h b hb) x hx

/-- Nothing that is left of a block has a fault if the block has none. -/
theorem erase_faultless (b : Block) (h : blockFault? t b = none) :
    blocksFault? t b.erase = none := by
  induction b using Block.induct with
  | step kind fields body ih =>
      obtain ⟨hown, hinside⟩ := (blockFault?_eq_none_iff _).1 h
      have hleft : blocksFault? t (eraseAll (inside ⟨kind, fields, body⟩))
          = none :=
        eraseAll_faultless_of fun b hb =>
          ih b (mem_body hb) (blocksFault?_eq_none_iff.1 hinside b hb)
      rw [erase_eq]
      cases hfate : fate ⟨kind, fields, body⟩ with
      | dropped => rfl
      | spliced =>
          rw [inside_spliced hfate] at hleft
          exact hleft
      | kept =>
          rw [blocksFault?_eq_none_iff, List.forall_mem_singleton,
            blockFault?_eq_none_iff, (inside_trimmed _).1]
          exact ⟨hown, hleft⟩

/-! ## Forest and program side by side -/

/-- Blocks and instructions in one order and one nesting: each block
    compiles to its instruction alone, and the blocks in its body to those
    in the instruction's. -/
inductive Mirrors (t : Target) : List Block → Program → Prop
  | nil : Mirrors t [] []
  | cons {b : Block} {bs : List Block} {i : Instruction} {is : Program}
      {warnings : List Warning} :
      compileForest? t [b] = .ok ⟨[i], warnings⟩ →
      Mirrors t (b.body.getD []) i.body → Mirrors t bs is →
      Mirrors t (b :: bs) (i :: is)

namespace Mirrors

variable {bs cs : List Block} {is js : Program}

theorem append (h : Mirrors t bs is) (h' : Mirrors t cs js) :
    Mirrors t (bs ++ cs) (is ++ js) := by
  induction h with
  | nil => exact h'
  | cons hown hbody _ _ ih => exact .cons hown hbody ih

/-- There are as many instructions as blocks, those in bodies included. -/
theorem size (h : Mirrors t bs is) :
    Instruction.totalSize is = totalSize bs := by
  induction h with
  | nil => rfl
  | cons _ _ _ hbody hrest =>
      rw [Instruction.totalSize, totalSize, Instruction.size_eq,
        Block.size_eq, hbody, hrest]

/-- Blocks of which each mirrors its program when it is erased do so
    together. -/
theorem eraseAll_of
    (h : ∀ b ∈ bs, Mirrors t b.erase (compileBlock t [] b).program) :
    Mirrors t (eraseAll bs) (compileForest t bs).program := by
  rw [compileForest_program]
  induction bs with
  | nil => exact .nil
  | cons b bs ih =>
      obtain ⟨hb, hbs⟩ := List.forall_mem_cons.1 h
      exact hb.append (ih hbs)

end Mirrors

/-- What is left of a block mirrors the program of the block. -/
theorem erase_mirrors (b : Block) (h : blockFault? t b = none) :
    Mirrors t b.erase (compileBlock t [] b).program := by
  induction b using Block.induct with
  | step kind fields body ih =>
      obtain ⟨-, hinside⟩ := (blockFault?_eq_none_iff _).1 h
      have hbody : Mirrors t (eraseAll (inside ⟨kind, fields, body⟩))
          (compileForest t (inside ⟨kind, fields, body⟩)).program :=
        .eraseAll_of fun b hb => ih b (mem_body hb)
          (blocksFault?_eq_none_iff.1 hinside b hb)
      have hfate := yield_fate (t := t) ⟨kind, fields, body⟩
        (compileForest t (inside ⟨kind, fields, body⟩)).program
      have hprogram := erase_program (t := t) ⟨kind, fields, body⟩
      have hfaultless := erase_faultless ⟨kind, fields, body⟩ h
      rw [erase_eq] at hprogram hfaultless ⊢
      rw [compileBlock_yield] at hprogram ⊢
      cases hf : fate ⟨kind, fields, body⟩ with
      | dropped =>
          rw [hf] at hfate
          rw [hfate]
          exact .nil
      | spliced =>
          rw [hf] at hfate
          rw [hfate]
          rw [inside_spliced hf] at hbody ⊢
          exact hbody
      | kept =>
          rw [hf] at hfate hprogram hfaultless
          obtain ⟨i, hi, hib⟩ := hfate
          rw [hi] at hprogram ⊢
          have hcompiles :
              compileForest? t [trimmed ⟨kind, fields, body⟩]
                = .ok ⟨[i], (compileForest t
                    [trimmed ⟨kind, fields, body⟩]).warnings⟩ :=
            compileForest?_eq_ok_iff.2
              ⟨hfaultless, Compiled.ext hprogram.symm rfl⟩
          refine .cons hcompiles ?_ .nil
          · rw [(inside_trimmed _).2, hib]
            split
            · exact hbody
            · rename_i hsimple
              rw [inside_eq, if_neg hsimple]
              exact .nil

/-- Erasing the blocks that leave no trace does not change what a forest
    compiles to.  Forests that can be written out compile; whenever a
    forest compiles, what is left of it compiles to the same program; and
    every block that is left gives exactly one instruction, in the same
    order and nesting, so that there are as many instructions as blocks. -/
theorem compile_eraseAll (c : Config) (blocks : List Block) :
    (∀ n : Int, c.loopCeiling = .int n → Value.legibleInt n = true →
      allLegible blocks = true →
      ∃ compiled, compileForest? c.target blocks = .ok compiled)
    ∧ ∀ compiled, compileForest? c.target blocks = .ok compiled →
      ∃ erased, compileForest? c.target (eraseAll blocks) = .ok erased
        ∧ erased.program = compiled.program
        ∧ Mirrors c.target (eraseAll blocks) erased.program
        ∧ Instruction.totalSize erased.program
          = totalSize (eraseAll blocks) := by
  refine ⟨fun n hn hlegible hblocks => ⟨_, compileForest?_eq_ok_iff.2
    ⟨blocksFault?_legible hn hlegible blocks hblocks, rfl⟩⟩,
    fun compiled h => ?_⟩
  obtain ⟨hnone, rfl⟩ := compileForest?_eq_ok_iff.1 h
  have hnone := blocksFault?_eq_none_iff.1 hnone
  have hleft : blocksFault? c.target (eraseAll blocks) = none :=
    eraseAll_faultless_of fun b hb => erase_faultless b (hnone b hb)
  have hprogram := eraseAll_program_of (t := c.target) blocks
    fun b _ => erase_program b
  have hmirrors : Mirrors c.target (eraseAll blocks)
      (compileForest c.target blocks).program :=
    .eraseAll_of fun b hb => erase_mirrors b (hnone b hb)
  refine ⟨_, compileForest?_eq_ok_iff.2 ⟨hleft, rfl⟩, hprogram, ?_, ?_⟩
  · rw [hprogram]
    exact hmirrors
  · rw [hprogram]
    exact hmirrors.size

/-- A hat over a loop under an editor name, in which there are a condition
    that always holds around a step and a block of unknown kind, and a
    condition that never holds; then a step with a body of its own, and a
    placeholder. -/
def layeredForest : List Block :=
  [⟨.str "kejadian_mulai", [], some
      [⟨.str "robot_ulangi", [("N", .int 3)], some
        [⟨.str "if-condition", [("condition", .str " TRUE ")], some
            [⟨.str "move", [], none⟩, ⟨.str "terbang", [], none⟩]⟩,
          ⟨.str "kontrol_jika", [("CONDITION", .bool false)], some
            [⟨.str "say", [], none⟩]⟩]⟩]⟩,
    ⟨.str "move", [("distance", .int 2)], some
      [⟨.str "turn", [], none⟩]⟩,
    placeholder]

/-- Of such a forest the loop and the two steps are left. -/
theorem compile_eraseAll_layered :
    Config.standard.loopCeiling = .int 100
    ∧ Value.legibleInt 100 = true
    ∧ allLegible layeredForest = true
    ∧ ∃ compiled erased,
        compileForest? Config.standard.target layeredForest = .ok compiled
        ∧ compileForest? Config.standard.target (eraseAll layeredForest)
          = .ok erased
        ∧ erased.program = compiled.program
        ∧ Mirrors Config.standard.target (eraseAll layeredForest)
            erased.program
        ∧ Instruction.totalSize erased.program = 3 := by
  have hlegible : Value.legibleInt 100 = true := by decide +kernel
  have hforest : allLegible layeredForest = true := by decide +kernel
  obtain ⟨hcompiles, herases⟩ :=
    compile_eraseAll Config.standard layeredForest
  obtain ⟨compiled, hcompiled⟩ := hcompiles 100 rfl hlegible hforest
  obtain ⟨erased, herased, hsame, hmirrors, hsize⟩ :=
    herases compiled hcompiled
  have hcount : totalSize (eraseAll layeredForest) = 3 := by decide +kernel
  exact ⟨rfl, hlegible, hforest, compiled, erased, hcompiled, herased, hsame,
    hmirrors, hsize.trans hcount⟩

end BlockStage
