import BlockStage.Session.World

/-! # Locality — a block compiles to the same wherever it stands

    What a block gives is put together from what it says and yields of its
    own and from what the blocks inside it give (`compileBlock_program`,
    `compileBlock_warnings`).  Its place enters into nothing but the paths
    of its warnings, where it stands in front (`compileBlock_within`), and
    so a forest compiles to what its blocks compile to on their own, put
    one after the other (`compileBlocks_eq`). -/

namespace BlockStage

/-! ## Places in writing -/

namespace Path

variable {p q : Path}

/-- A place inside a place is written behind it. -/
theorem text_append (hp : p ≠ []) (hq : q ≠ []) :
    Path.text (p ++ q) = p.text ++ "/body/" ++ q.text := by
  unfold text
  rw [List.map_append]
  exact String.intercalate_append_of_ne_nil (by simpa using hp)
    (by simpa using hq)

/-- What is written of a place behind its first index. -/
def textBelow : Path → String
  | [] => ""
  | i :: p => "/body/" ++ text (i :: p)

/-- A place is written with its first index in front. -/
theorem text_cons (i : Nat) (p : Path) :
    text (i :: p) = toString i ++ textBelow p := by
  cases p with
  | nil => simp [text, textBelow]
  | cons j p =>
      rw [← List.singleton_append, text_append (by simp) (by simp),
        String.append_assoc]
      rfl

end Path

/-! ## Warnings seen from elsewhere -/

namespace Warning

/-- A warning about a block inside the block at a place. -/
def within (place : Path) (w : Warning) : Warning :=
  ⟨place ++ w.path, w.complaint⟩

/-- A warning about a forest that is put behind `n` blocks: the first index
    goes up by `n`. -/
def shift (n : Nat) : Warning → Warning
  | ⟨[], c⟩ => ⟨[], c⟩
  | ⟨i :: p, c⟩ => ⟨(i + n) :: p, c⟩

theorem within_within (p q : Path) :
    within p ∘ within q = within (p ++ q) := by
  funext w
  simp [within]

theorem within_mk (place : Path) : within place ∘ mk [] = mk place := by
  funext c
  simp [within]

theorem shift_within (n i : Nat) (p : Path) :
    shift n ∘ within (i :: p) = within ((i + n) :: p) := rfl

end Warning

/-! ## Blocks inside blocks -/

namespace Block

/-- What holds of a block whenever it holds of the blocks in its body holds
    of every block. -/
@[elab_as_elim]
theorem induct {motive : Block → Prop}
    (step : ∀ kind fields body, (∀ b ∈ body.getD [], motive b) →
      motive ⟨kind, fields, body⟩) (b : Block) : motive b := by
  refine Block.rec (motive_1 := motive)
    (motive_2 := fun body => ∀ b ∈ body.getD [], motive b)
    (motive_3 := fun bs => ∀ b ∈ bs, motive b)
    step nofun (fun _ h => h) nofun
    (fun _ _ hb hbs => List.forall_mem_cons.2 ⟨hb, hbs⟩) b

/-- A block of a known kind: its kind, and its fields in their domains. -/
def known? (t : Target) (b : Block) : Option (Kind × Coerced) :=
  (resolve? b.kind b.fields).map fun r =>
    (r.1, coerceFields r.1.name (Domains.of (some r.1) (sourceName b.kind))
      t.ceiling r.2)

/-- The blocks inside a block, which are compiled with it: the body of a
    compound kind. -/
def inside (b : Block) : List Block :=
  match resolve? b.kind b.fields with
  | some (k, _) => if k.isCompound then b.body.getD [] else []
  | none => []

/-- What is said of a block before its body is compiled. -/
def complaintsBefore (t : Target) (b : Block) : List Complaint :=
  if sourceName b.kind = placeholderKind then []
  else
    match b.known? t with
    | none => [.unknownKind b.kind]
    | some (k, fields) =>
        (if b.body.isSome ∧ ¬ k.isCompound then [.unexpectedBody k] else [])
          ++ fields.complaints.map .field

/-- What is said of a block after its body was compiled. -/
def complaintsAfter (t : Target) (b : Block) : List Complaint :=
  match b.known? t with
  | none => []
  | some (k, fields) =>
      (instructionsOf t [] k fields.values []).warnings.map (·.complaint)

/-- The instructions of a block with a program for its body. -/
def yield (t : Target) (b : Block) (body : Program) : Program :=
  match b.known? t with
  | none => []
  | some (k, fields) => (instructionsOf t [] k fields.values body).program

end Block

variable {t : Target}

/-- A placeholder has no known kind. -/
theorem Block.resolve?_placeholder {kind : Value} (fields : Members)
    (h : sourceName kind = placeholderKind) :
    Block.resolve? kind fields = none := by
  cases kind with
  | str s =>
      obtain rfl : s = placeholderKind := h
      have hname : Kind.ofName? placeholderKind = none := by decide
      have halias : alias? placeholderKind = none := by decide
      simp [resolve?, hname, halias]
  | _ =>
      have hempty : "" ≠ placeholderKind := by decide
      exact absurd h hempty

/-- The instructions of a kind are the same at every place. -/
theorem instructionsOf_program (path : Path) (kind : Kind) (values : Members)
    (body : Program) :
    (instructionsOf t path kind values body).program
      = (instructionsOf t [] kind values body).program := by
  have hturn : ∀ degrees, (turnDegrees t path degrees).1
      = (turnDegrees t [] degrees).1 := by
    intro degrees
    unfold turnDegrees
    split
    · split <;> rfl
    · rfl
  cases kind with
  | turn =>
      simp only [instructionsOf, hturn]
      split <;> rfl
  | ifCondition =>
      simp only [instructionsOf]
      split <;> rfl
  | _ => rfl

/-- What is said of a kind concerns the place of the block, and does not
    depend on the program of its body. -/
theorem instructionsOf_warnings (path : Path) (kind : Kind)
    (values : Members) (body : Program) :
    (instructionsOf t path kind values body).warnings
      = ((instructionsOf t [] kind values []).warnings.map
          (·.complaint)).map (.mk path) := by
  have hturn : ∀ degrees, (turnDegrees t path degrees).2
      = ((turnDegrees t [] degrees).2.map (·.complaint)).map (.mk path) := by
    intro degrees
    unfold turnDegrees
    split
    · split <;> rfl
    · rfl
  cases kind with
  | turn =>
      simp only [instructionsOf]
      split <;> exact hturn _
  | ifCondition =>
      simp only [instructionsOf]
      split <;> rfl
  | _ => rfl

/-- A block yields its instructions from the program of the blocks inside
    it. -/
theorem compileBlock_program (path : Path) (b : Block) :
    (compileBlock t path b).program
      = b.yield t (compileBlocks t path 0 b.inside).program := by
  obtain ⟨kind, fields, body⟩ := b
  unfold compileBlock Block.yield Block.known? Block.inside
  split
  · rename_i hplaceholder
    rw [Block.resolve?_placeholder fields hplaceholder]
    rfl
  · cases Block.resolve? kind fields with
    | none => rfl
    | some r =>
        obtain ⟨k, proper⟩ := r
        simp only [Option.map_some]
        rw [instructionsOf_program]
        cases body with
        | none => cases k.isCompound <;> rfl
        | some blocks => cases k.isCompound <;> rfl

/-- What is said of a block stands around what is said of the blocks inside
    it. -/
theorem compileBlock_warnings (path : Path) (b : Block) :
    (compileBlock t path b).warnings
      = (b.complaintsBefore t).map (.mk path)
        ++ (compileBlocks t path 0 b.inside).warnings
        ++ (b.complaintsAfter t).map (.mk path) := by
  obtain ⟨kind, fields, body⟩ := b
  unfold compileBlock Block.complaintsBefore Block.complaintsAfter
    Block.known? Block.inside
  split
  · rename_i hplaceholder
    rw [Block.resolve?_placeholder fields hplaceholder]
    rfl
  · cases Block.resolve? kind fields with
    | none => rfl
    | some r =>
        obtain ⟨k, proper⟩ := r
        simp only [Option.map_some]
        rw [instructionsOf_warnings]
        cases body with
        | none => cases k.isCompound <;> simp [compileBlocks, Compiled.empty]
        | some blocks =>
            cases k.isCompound <;> simp [compileBlocks, Compiled.empty]

/-! ## Forests seen from elsewhere -/

attribute [ext] Compiled

namespace Compiled

/-- What was compiled, seen as inside a place. -/
def within (place : Path) (c : Compiled) : Compiled :=
  ⟨c.program, c.warnings.map (.within place)⟩

/-- What was compiled, put behind `n` blocks. -/
def shift (n : Nat) (c : Compiled) : Compiled :=
  ⟨c.program, c.warnings.map (.shift n)⟩

end Compiled

namespace Compiled

variable (a b c : Compiled) (place : Path)

@[simp] theorem within_program : (a.within place).program = a.program := rfl

@[simp] theorem within_warnings :
    (a.within place).warnings = a.warnings.map (.within place) := rfl

theorem append_assoc : a ++ b ++ c = a ++ (b ++ c) :=
  Compiled.ext (List.append_assoc ..) (List.append_assoc ..)

theorem within_append :
    (a ++ b).within place = a.within place ++ b.within place :=
  congrArg (mk _) List.map_append

theorem shift_append (n : Nat) :
    (a ++ b).shift n = a.shift n ++ b.shift n :=
  congrArg (mk _) List.map_append

theorem within_within (inner : Path) :
    (a.within inner).within place = a.within (place ++ inner) := by
  simp [within, Warning.within_within]

theorem shift_within (n i : Nat) :
    (a.within (i :: place)).shift n = a.within ((i + n) :: place) := by
  simp [within, shift, Warning.shift_within]

end Compiled

namespace Block

/-- The blocks inside a block are in its body. -/
theorem mem_body {x b : Block} (h : x ∈ b.inside) : x ∈ b.body.getD [] := by
  unfold inside at h
  split at h
  · split at h
    · exact h
    · cases h
  · cases h

end Block

/-- Blocks of which each compiles to the same everywhere compile to the
    same everywhere. -/
theorem compileBlocks_within_of (bs : List Block)
    (h : ∀ b ∈ bs, ∀ place,
      compileBlock t place b = (compileBlock t [] b).within place)
    (place : Path) (i : Nat) :
    compileBlocks t place i bs = (compileBlocks t [] i bs).within place := by
  induction bs generalizing i with
  | nil => rfl
  | cons b bs ih =>
      obtain ⟨hb, hbs⟩ := List.forall_mem_cons.1 h
      rw [compileBlocks, compileBlocks, Compiled.within_append,
        ih hbs (i + 1), hb (place ++ [i]), List.nil_append, hb [i],
        Compiled.within_within]

/-- A block at a place compiles to what it compiles to on its own, with
    the place in front of the paths of its warnings. -/
theorem compileBlock_within (b : Block) (place : Path) :
    compileBlock t place b = (compileBlock t [] b).within place := by
  induction b using Block.induct generalizing place with
  | step kind fields body ih =>
      have hinner := compileBlocks_within_of (t := t)
        (Block.inside ⟨kind, fields, body⟩)
        (fun b hb => ih b (Block.mem_body hb)) place 0
      have hprogram := compileBlock_program (t := t) place
        ⟨kind, fields, body⟩
      have hwarnings := compileBlock_warnings (t := t) place
        ⟨kind, fields, body⟩
      rw [hinner] at hprogram hwarnings
      ext1
      · rw [hprogram, Compiled.within_program, Compiled.within_program,
          compileBlock_program []]
      · rw [hwarnings, Compiled.within_warnings, Compiled.within_warnings,
          compileBlock_warnings []]
        simp [Warning.within_mk]

/-- So do blocks in order. -/
theorem compileBlocks_within (bs : List Block) (place : Path) (i : Nat) :
    compileBlocks t place i bs = (compileBlocks t [] i bs).within place :=
  compileBlocks_within_of bs (fun b _ => compileBlock_within b) place i

/-- Blocks further behind have greater first indices, and else compile to
    the same. -/
theorem compileBlocks_shift (bs : List Block) (i n : Nat) :
    compileBlocks t [] (i + n) bs = (compileBlocks t [] i bs).shift n := by
  induction bs generalizing i with
  | nil => rfl
  | cons b bs ih =>
      rw [compileBlocks, compileBlocks, Compiled.shift_append,
        List.nil_append, List.nil_append, compileBlock_within b [i + n], compileBlock_within b [i],
        Compiled.shift_within, ← ih (i + 1), Nat.add_right_comm]

/-- Blocks that follow others are compiled behind them. -/
theorem compileBlocks_append (place : Path) (i : Nat) (xs ys : List Block) :
    compileBlocks t place i (xs ++ ys)
      = compileBlocks t place i xs
        ++ compileBlocks t place (i + xs.length) ys := by
  induction xs generalizing i with
  | nil => rfl
  | cons x xs ih =>
      rw [List.cons_append, compileBlocks, compileBlocks, ih,
        List.length_cons, Compiled.append_assoc, Nat.add_assoc i 1,
        Nat.add_comm 1]

/-- A block can be compiled if it could without its body and the blocks
    inside it can. -/
theorem blockFault?_eq_none_iff (b : Block) :
    blockFault? t b = none
      ↔ blockFault? t { b with body := none } = none
        ∧ blocksFault? t b.inside = none := by
  obtain ⟨kind, fields, body⟩ := b
  unfold blockFault? Block.inside
  split
  · rename_i hplaceholder
    rw [Block.resolve?_placeholder fields hplaceholder]
    simp [blocksFault?]
  · cases kind.key with
    | error f => simp
    | ok _ =>
        cases Block.resolve? kind fields with
        | none => simp [blocksFault?]
        | some r =>
            obtain ⟨k, proper⟩ := r
            cases body with
            | none => simp [blocksFault?]
            | some blocks =>
                by_cases hcompound : k.isCompound = true
                · simp [hcompound, and_comm, and_left_comm]
                · simp [hcompound, blocksFault?]

/-- A forest has no fault if none of its blocks has one. -/
theorem blocksFault?_eq_none_iff {bs : List Block} :
    blocksFault? t bs = none ↔ ∀ b ∈ bs, blockFault? t b = none := by
  induction bs with
  | nil => exact ⟨fun _ => nofun, fun _ => rfl⟩
  | cons b bs ih =>
      rw [List.forall_mem_cons, ← ih, blocksFault?]
      cases blockFault? t b <;> simp

/-- The first fault of two forests put together. -/
theorem blocksFault?_append (xs ys : List Block) :
    blocksFault? t (xs ++ ys)
      = (blocksFault? t xs <|> blocksFault? t ys) := by
  induction xs with
  | nil => rfl
  | cons x xs ih =>
      rw [List.cons_append, blocksFault?, blocksFault?, ih]
      cases blockFault? t x <;> rfl

/-! ## Forests put together, and forests inside blocks -/

/-- A forest without faults is compiled, and only such a forest is. -/
theorem compileForest?_eq_ok_iff {bs : List Block} {compiled : Compiled} :
    compileForest? t bs = .ok compiled
      ↔ blocksFault? t bs = none ∧ compiled = compileForest t bs := by
  unfold compileForest?
  cases blocksFault? t bs with
  | some f => simp
  | none => simp [eq_comm]

/-- A forest behind another compiles to what the two compile to, the second
    one behind the blocks of the first. -/
theorem compileForest_append (xs ys : List Block) :
    compileForest t (xs ++ ys)
      = compileForest t xs ++ (compileForest t ys).shift xs.length := by
  have hshift := compileBlocks_shift (t := t) ys 0 xs.length
  unfold compileForest
  rw [compileBlocks_append, hshift]

/-- So it does with the faults that keep forests from being compiled, of
    which the first counts. -/
theorem compileForest?_append (xs ys : List Block) :
    compileForest? t (xs ++ ys) = (do
      let a ← compileForest? t xs
      let b ← compileForest? t ys
      return a ++ b.shift xs.length) := by
  unfold compileForest?
  rw [blocksFault?_append, compileForest_append]
  cases blocksFault? t xs with
  | some f => rfl
  | none => cases blocksFault? t ys <;> rfl

/-- The warnings of a forest concern blocks at places in it. -/
theorem compileBlocks_path (bs : List Block) (i : Nat) :
    ∀ w ∈ (compileBlocks t [] i bs).warnings, w.path ≠ [] := by
  induction bs generalizing i with
  | nil => nofun
  | cons b bs ih =>
      intro w hw
      rw [compileBlocks, compileBlock_within] at hw
      rcases List.mem_append.1 hw with hw | hw
      · obtain ⟨own, -, rfl⟩ := List.mem_map.1 hw
        exact List.append_ne_nil_of_left_ne_nil (by simp) _
      · exact ih (i + 1) w hw

/-- A block compiles to what it says and yields of its own, with what the
    forest inside it compiles to on its own in between. -/
theorem compileBlock_eq (place : Path) (b : Block) :
    compileBlock t place b
      = ⟨b.yield t (compileForest t b.inside).program,
          (b.complaintsBefore t).map (.mk place)
            ++ (compileForest t b.inside).warnings.map (.within place)
            ++ (b.complaintsAfter t).map (.mk place)⟩ := by
  ext1
  · rw [compileBlock_program, compileBlocks_within]
    rfl
  · rw [compileBlock_warnings, compileBlocks_within]
    rfl

namespace Block

variable {b : Block} {k : Kind} {fields : Coerced} {body : List Block}

/-- A compound block holds the blocks of its body. -/
theorem inside_compound (hk : b.known? t = some (k, fields))
    (hcompound : k.isCompound = true) (hbody : b.body = some body) :
    b.inside = body := by
  obtain ⟨⟨own, proper⟩, hresolve, heq⟩ := Option.map_eq_some_iff.1 hk
  cases heq
  simp [inside, hresolve, hcompound, hbody]

end Block

/-- Compilation is local.  Two forests, put one behind the other, compile to
    what each compiles to on its own, where the first index of every path
    of the second goes up by the length of the first.  And what a compound
    block at a place makes of its body is what the body makes as a forest:
    the block's instructions are made from the program of that forest, and
    between what is said of the block itself stand the warnings of that
    forest, with the place in front of their paths. -/
theorem compiles_locally (c : Config) :
    (∀ xs ys : List Block,
      compileForest? c.target (xs ++ ys) = (do
        let a ← compileForest? c.target xs
        let b ← compileForest? c.target ys
        return (⟨a.program ++ b.program,
          a.warnings ++ b.warnings.map (.shift xs.length)⟩ : Compiled)))
    ∧ (∀ (bs : List Block) (compiled : Compiled),
        compileForest? c.target bs = .ok compiled →
        ∀ w ∈ compiled.warnings, ∃ i below,
          w.path.text = toString i ++ Path.textBelow below
          ∧ ∀ n, (w.shift n).path.text
              = toString (i + n) ++ Path.textBelow below
            ∧ (w.shift n).complaint = w.complaint)
    ∧ ∀ (b : Block) (k : Kind) (fields : Coerced) (body : List Block)
        (place : Path),
        b.known? c.target = some (k, fields) → k.isCompound = true →
        b.body = some body → place ≠ [] →
        (blockFault? c.target b = none →
          ∃ inner, compileForest? c.target body = .ok inner)
        ∧ ∀ inner, compileForest? c.target body = .ok inner →
          compileBlock c.target place b
            = ⟨b.yield c.target inner.program,
                (b.complaintsBefore c.target).map (.mk place)
                  ++ inner.warnings.map (.within place)
                  ++ (b.complaintsAfter c.target).map (.mk place)⟩
          ∧ ∀ w ∈ inner.warnings,
              (w.within place).path.text
                = place.text ++ "/body/" ++ w.path.text
              ∧ (w.within place).complaint = w.complaint := by
  refine ⟨fun xs ys => ?_, fun bs compiled h w hw => ?_,
    fun b k fields body place hk hcompound hbody hplace =>
      ⟨fun hfault => ?_, fun inner hinner => ?_⟩⟩
  · exact compileForest?_append xs ys
  · obtain ⟨-, rfl⟩ := compileForest?_eq_ok_iff.1 h
    obtain ⟨path, complaint⟩ := w
    cases path with
    | nil => exact absurd rfl (compileBlocks_path bs 0 _ hw)
    | cons i below =>
        exact ⟨i, below, Path.text_cons i below,
          fun n => ⟨Path.text_cons (i + n) below, rfl⟩⟩
  · have hnone := ((blockFault?_eq_none_iff b).1 hfault).2
    rw [Block.inside_compound hk hcompound hbody] at hnone
    exact ⟨_, compileForest?_eq_ok_iff.2 ⟨hnone, rfl⟩⟩
  · obtain ⟨-, rfl⟩ := compileForest?_eq_ok_iff.1 hinner
    refine ⟨?_, fun w hw => ⟨?_, rfl⟩⟩
    · rw [compileBlock_eq, Block.inside_compound hk hcompound hbody]
    · exact Path.text_append hplace (compileBlocks_path body 0 w hw)

/-- A body with a block of unknown kind and a step that is too long. -/
def wordyBody : List Block :=
  [⟨.str "terbang", [], none⟩,
    ⟨.str "move", [("distance", .int 500)], none⟩]

/-- A loop under an editor name around such a body. -/
def wordyLoop : Block :=
  ⟨.str "kontrol_ulangi", [("TIMES", .int 3)], some wordyBody⟩

/-- Such a loop in the body of a third block compiles locally. -/
theorem compiles_locally_wordy :
    ∃ k fields inner,
      wordyLoop.known? Config.standard.target = some (k, fields)
      ∧ k.isCompound = true
      ∧ wordyLoop.body = some wordyBody
      ∧ ([2, 0] : Path) ≠ []
      ∧ blockFault? Config.standard.target wordyLoop = none
      ∧ compileForest? Config.standard.target wordyBody = .ok inner
      ∧ inner.warnings.map (·.path.text) = ["0", "1"]
      ∧ (compileBlock Config.standard.target [2, 0] wordyLoop).warnings.map
          (·.path.text)
        = ["2/body/0/body/0", "2/body/0/body/1"] := by
  obtain ⟨-, -, hlocal⟩ := compiles_locally Config.standard
  have hfault : blockFault? Config.standard.target wordyLoop = none :=
    Option.isNone_iff_eq_none.1 (by decide +kernel)
  obtain ⟨hcompiles, hsame⟩ := hlocal wordyLoop .repeatTimes _ wordyBody
    [2, 0] rfl rfl rfl (by decide)
  obtain ⟨inner, hinner⟩ := hcompiles hfault
  obtain ⟨hloop, -⟩ := hsame inner hinner
  refine ⟨_, _, inner, rfl, rfl, rfl, by decide, hfault, hinner, ?_, ?_⟩
  · obtain ⟨-, rfl⟩ := compileForest?_eq_ok_iff.1 hinner
    decide +kernel
  · rw [hloop]
    obtain ⟨-, rfl⟩ := compileForest?_eq_ok_iff.1 hinner
    decide +kernel

end BlockStage
