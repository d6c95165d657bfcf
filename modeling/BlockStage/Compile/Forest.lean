import BlockStage.Compile.Source
import BlockStage.Program.Instruction

/-! # Compiling a forest of blocks

    Every block gives its instructions and its warnings; a list of blocks
    gives them one after the other.  Bodies come before the instruction
    that holds them.  Start blocks and conditions that always hold give
    their bodies, conditions that never hold and blocks of unknown kind
    give nothing.

    Compilation looks at two settings only, `Target`: whether turns are
    quarter turns, and the loop ceiling. -/

namespace BlockStage

/-- What compilation needs to know of the stage. -/
structure Target where
  /-- Whether turns are brought to quarter turns. -/
  quarterTurns : Bool
  /-- The loop ceiling. -/
  ceiling : Value

/-- Instructions and warnings. -/
structure Compiled where
  /-- The instructions. -/
  program : Program
  /-- The warnings, in the order in which they arose. -/
  warnings : List Warning

namespace Compiled

/-- Nothing at all. -/
def empty : Compiled := ⟨[], []⟩

/-- One after the other. -/
def append (a b : Compiled) : Compiled :=
  ⟨a.program ++ b.program, a.warnings ++ b.warnings⟩

instance : Append Compiled := ⟨append⟩

@[simp] theorem append_program (a b : Compiled) :
    (a ++ b).program = a.program ++ b.program := rfl

@[simp] theorem append_warnings (a b : Compiled) :
    (a ++ b).warnings = a.warnings ++ b.warnings := rfl

end Compiled

/-- The degrees of a turn on the grid: the nearest quarter turns, at least
    one; halves go to the even number of quarters. -/
def quarterTurn (degrees : Int) : Int :=
  max 90 (roundEven ((degrees : Rat) / 90) * 90)

/-- The degrees of a turn, with a warning if the grid changes them. -/
def turnDegrees (t : Target) (path : Path) (degrees : Value) :
    Value × List Warning :=
  match degrees with
  | .num (.int d) =>
      if ¬ t.quarterTurns ∨ d % 90 = 0 then (degrees, [])
      else (.int (quarterTurn d), [⟨path, .turnSnapped d (quarterTurn d)⟩])
  | _ => (degrees, [])

/-- What a block of a known kind gives, from its coerced fields and the
    program of its body. -/
def instructionsOf (t : Target) (path : Path) (kind : Kind)
    (values : Members) (body : Program) : Compiled :=
  let field := fun name => (values.get? name).getD .null
  match kind with
  | .start => ⟨body, []⟩
  | .move => ⟨[.move (field "distance")], []⟩
  | .turn =>
      let (degrees, warnings) := turnDegrees t path (field "degrees")
      match field "direction" with
      | .str "left" => ⟨[.turnLeft degrees], warnings⟩
      | _ => ⟨[.turnRight degrees], warnings⟩
  | .wait => ⟨[.wait (field "seconds")], []⟩
  | .say => ⟨[.say (field "text")], []⟩
  | .repeatTimes => ⟨[.repeatTimes (field "count") body], []⟩
  | .repeatForever =>
      ⟨[.repeatBounded t.ceiling body], [⟨path, .foreverBounded t.ceiling⟩]⟩
  | .ifGoalReached => ⟨[.ifGoalReached body], []⟩
  | .ifCondition =>
      match field "condition" with
      | .str "goal-reached" => ⟨[.ifGoalReached body], []⟩
      | .str "true" => ⟨body, []⟩
      | _ => ⟨[], [⟨path, .alwaysFalse⟩]⟩

/-- The name a block was written under. -/
def sourceName : Value → String
  | .str s => s
  | _ => ""

mutual

/-- One block at its place. -/
def compileBlock (t : Target) (path : Path) : Block → Compiled
  | ⟨kind, fields, body⟩ =>
      if sourceName kind = placeholderKind then .empty
      else
        match Block.resolve? kind fields with
        | none => ⟨[], [⟨path, .unknownKind kind⟩]⟩
        | some (k, proper) =>
            let coerced := coerceFields k.name
              (Domains.of (some k) (sourceName kind)) t.ceiling proper
            let bodyWarnings : List Warning :=
              if body.isSome ∧ ¬ k.isCompound then
                [⟨path, .unexpectedBody k⟩]
              else []
            let inner :=
              match body with
              | none => Compiled.empty
              | some blocks =>
                  if k.isCompound then compileBlocks t path 0 blocks
                  else .empty
            let own := instructionsOf t path k coerced.values inner.program
            ⟨own.program,
              bodyWarnings
                ++ coerced.complaints.map (fun c => ⟨path, .field c⟩)
                ++ inner.warnings ++ own.warnings⟩

/-- Blocks in order, the first one at index `i` under a place. -/
def compileBlocks (t : Target) (parent : Path) (i : Nat) :
    List Block → Compiled
  | [] => .empty
  | b :: bs =>
      compileBlock t (parent ++ [i]) b ++ compileBlocks t parent (i + 1) bs

end

mutual

/-- What keeps a block from being compiled: first its own fields, then its
    body, then a loop ceiling that has to be shown. -/
def blockFault? (t : Target) : Block → Option BlockFault
  | ⟨kind, fields, body⟩ =>
      if sourceName kind = placeholderKind then none
      else
        match kind.key with
        | .error f => some (.operand f)
        | .ok _ =>
            match Block.resolve? kind fields with
            | none => if kind.legible then none else some .illegible
            | some (k, proper) =>
                let own := fieldsFault?
                  (Domains.of (some k) (sourceName kind)) t.ceiling proper
                let inner :=
                  match body with
                  | none => none
                  | some blocks =>
                      if k.isCompound then blocksFault? t blocks else none
                let after :=
                  if k = .repeatForever ∧ ¬ t.ceiling.legible then
                    some .illegible
                  else none
                own <|> inner <|> after

/-- What keeps the first of some blocks from being compiled. -/
def blocksFault? (t : Target) : List Block → Option BlockFault
  | [] => none
  | b :: bs =>
      match blockFault? t b with
      | some f => some f
      | none => blocksFault? t bs

end

/-- A forest of blocks, compiled. -/
def compileForest (t : Target) (blocks : List Block) : Compiled :=
  compileBlocks t [] 0 blocks

/-- A forest of blocks, compiled unless it holds a value that cannot be
    dealt with. -/
def compileForest? (t : Target) (blocks : List Block) :
    Except BlockFault Compiled :=
  match blocksFault? t blocks with
  | some f => .error f
  | none => .ok (compileForest t blocks)

/-- A forest as it was written, compiled: the warnings of reading come
    first. -/
def compileSource (t : Target) (source : Value) :
    Except BlockFault Compiled :=
  match sourceItems? source with
  | none => .ok ⟨[], [⟨[], .programNotAList⟩]⟩
  | some items =>
      let (blocks, warnings) := sourceBlocks [] 0 items
      (compileForest? t blocks).map fun c =>
        ⟨c.program, warnings ++ c.warnings⟩

end BlockStage
