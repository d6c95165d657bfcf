import BlockStage.Compile.Forest
import BlockStage.Program.Codec
import BlockStage.Proofs.Value.Number

/-! # Round trips — what is written of a program is read, and nothing else

    Every program that is written is read back as it was.  Conversely, the
    reader accepts just the objects that name a known operation and have all
    of its operands, and so on down through the bodies (`IsWritten`); what it
    forgets of them are the members that the operation does not have
    (`trim`), so that writing a program that was read gives what was read,
    trimmed.

    Reading and writing follow the values all the way down.  How deep bodies
    may be nested is a limit of its own, `shallow`, that whoever reads or
    writes a whole program sets.

    Compilation gives nothing but instructions, so a compiled program that
    is not nested too deep is among those that are read back. -/

namespace BlockStage

/-- The members under some names, in the order of these names. -/
def Members.only (ms : Members) (names : List String) : Members :=
  names.filterMap fun name => (ms.get? name).map fun v => (name, v)

/-- The items of what is read as a list: an empty text and an empty object
    have none. -/
def Value.items? : Value → Option (List Value)
  | list items => some items
  | str s => if s = "" then some [] else none
  | object ms =>
      match ms with
      | [] => some []
      | _ => none
  | _ => none

namespace Instruction

/-- The operation that an object names. -/
def operation (ms : Members) : Value :=
  (ms.get? "op").getD .null

/-- The names of the operands that an operation has, if there is such an
    operation. -/
def operandNames? : Value → Option (List String)
  | .str "move" => some ["distance"]
  | .str "turn_right" => some ["degrees"]
  | .str "turn_left" => some ["degrees"]
  | .str "wait" => some ["seconds"]
  | .str "say" => some ["text"]
  | .str "repeat" => some ["count", "body"]
  | .str "repeat_bounded" => some ["max_iterations", "body"]
  | .str "if_goal_reached" => some ["body"]
  | _ => none

/-- A value is an object that names a known operation and has all operands
    of this operation; if a body is among them, all its items are such
    values. -/
inductive IsWritten : Value → Prop
  | simple {ms : Members} {names : List String} :
      operandNames? (operation ms) = some names → "body" ∉ names →
      (∀ name ∈ names, (ms.get? name).isSome = true) →
      IsWritten (.object ms)
  | compound {ms : Members} {names : List String} {items : List Value} :
      operandNames? (operation ms) = some names → "body" ∈ names →
      (∀ name ∈ names, (ms.get? name).isSome = true) →
      (ms.get? "body").bind Value.items? = some items →
      (∀ v ∈ items, IsWritten v) →
      IsWritten (.object ms)

mutual

/-- A value with only the members that its operation has, and so on down
    through its body. -/
def trim : Value → Value
  | .object ms =>
      .object (Members.only (trimBodies ms)
        ("op" :: (operandNames? (operation ms)).getD []))
  | v => v

/-- Members of which those called a body are trimmed. -/
def trimBodies : List (String × Value) → List (String × Value)
  | [] => []
  | (name, v) :: ms =>
      (name, if name = "body" then trimBody v else v) :: trimBodies ms

/-- A body with all its items trimmed. -/
def trimBody : Value → Value
  | .list items => .list (trimAll items)
  | _ => .list []

/-- Values trimmed one by one. -/
def trimAll : List Value → List Value
  | [] => []
  | v :: vs => trim v :: trimAll vs

end

theorem trimAll_eq (vs : List Value) : trimAll vs = vs.map trim := by
  induction vs with
  | nil => rfl
  | cons v vs ih => rw [trimAll, ih, List.map_cons]

/-! ## Written and read back -/

mutual

/-- An instruction that is written is read back. -/
theorem ofValue_toValue : ∀ i : Instruction, i.isGenuine = true →
    ofValue i.toValue = .ok i
  | move _, _ => rfl
  | turnRight _, _ => rfl
  | turnLeft _, _ => rfl
  | wait _, _ => rfl
  | say _, _ => rfl
  | repeatTimes count body, h => by
      show (do
        let body ← ofValues (toValues body)
        return repeatTimes count body) = _
      rw [ofValues_toValues body h]
      rfl
  | repeatBounded limit body, h => by
      show (do
        let body ← ofValues (toValues body)
        return repeatBounded limit body) = _
      rw [ofValues_toValues body h]
      rfl
  | ifGoalReached body, h => by
      show (ofValues (toValues body)).map ifGoalReached = _
      rw [ofValues_toValues body h]
      rfl

/-- A program that is written is read back. -/
theorem ofValues_toValues : ∀ p : Program, allGenuine p = true →
    ofValues (toValues p) = .ok p
  | [], _ => rfl
  | i :: is, h => by
      obtain ⟨hi, his⟩ := Bool.and_eq_true_iff.1 h
      show (do
        let i ← ofValue i.toValue
        let is ← ofValues (toValues is)
        return i :: is) = _
      rw [ofValue_toValue i hi, ofValues_toValues is his]
      rfl

end

/-- A whole program is read back unless it is nested too deep. -/
theorem readProgram_toValues {p : Program} (h : allGenuine p = true)
    (hdepth : greatestDepth p ≤ depthLimit) :
    readProgram (.list (toValues p)) = .ok p := by
  show (do shallow (← ofValues (toValues p))) = _
  rw [ofValues_toValues p h]
  exact if_neg (Nat.not_lt.2 hdepth)

/-! ## Read and written again

    What the reader finds in an object is looked up by name, and of these
    members only a body is read further. -/

/-- Trimming bodies leaves the other members. -/
theorem get?_trimBodies {name : String} (hne : name ≠ "body") :
    ∀ ms : Members, Members.get? (trimBodies ms) name = ms.get? name
  | [] => rfl
  | (other, v) :: ms => by
      by_cases h : other = name
      · have hb : other ≠ "body" := fun e => hne (h.symm.trans e)
        simp [trimBodies, Members.get?, h, hne]
      · have ih := get?_trimBodies hne ms
        simp only [Members.get?] at ih
        simp [trimBodies, Members.get?, h, ih]

/-- Trimming bodies trims the body. -/
theorem get?_trimBodies_body : ∀ ms : Members,
    Members.get? (trimBodies ms) "body" = (ms.get? "body").map trimBody
  | [] => rfl
  | (other, v) :: ms => by
      by_cases h : other = "body"
      · simp [trimBodies, Members.get?, h]
      · have ih := get?_trimBodies_body ms
        simp only [Members.get?] at ih
        simp [trimBodies, Members.get?, h, ih]

/-- An operand is read if and only if it is there. -/
theorem operand_ok {ms : Members} {name : String} {v : Value} :
    operand ms name = .ok v ↔ ms.get? name = some v := by
  unfold operand
  cases ms.get? name <;> simp

/-- The body is read if and only if it is there and can be read. -/
theorem bodyOf_ok {p : Program} : ∀ {ms : Members},
    bodyOf ms = .ok p ↔
      ∃ body, ms.get? "body" = some body ∧ readBody body = .ok p
  | [] => by simp [bodyOf, Members.get?]
  | (other, v) :: ms => by
      by_cases h : other = "body"
      · simp [bodyOf, Members.get?, h]
      · have ih : bodyOf ms = .ok p ↔ _ := bodyOf_ok
        simp only [Members.get?] at ih
        simp [bodyOf, Members.get?, h, ih]

/-- A value is read as an instruction that, written again, is the value
    trimmed. -/
structure ReadsAs (v : Value) (i : Instruction) : Prop where
  written : IsWritten v
  genuine : i.isGenuine = true
  trimmed : i.toValue = trim v

/-- Values are read as a program that, written again, is the values
    trimmed. -/
structure ReadsAll (vs : List Value) (p : Program) : Prop where
  written : ∀ v ∈ vs, IsWritten v
  genuine : allGenuine p = true
  trimmed : toValues p = trimAll vs

/-- An object names its operation if it names one at all. -/
theorem get?_op {ms : Members} {s : String} (h : operation ms = .str s) :
    ms.get? "op" = some (.str s) := by
  unfold operation at h
  cases hg : ms.get? "op" with
  | none => simp [hg] at h
  | some v => simpa [hg] using h

/-- An instruction without a body: its object has the operation and one
    operand. -/
theorem readsAs_simple {ms : Members} {s name : String} {v : Value}
    {i : Instruction} (hop : operation ms = .str s)
    (hnames : operandNames? (.str s) = some [name]) (hne : name ≠ "body")
    (hv : ms.get? name = some v) (hg : i.isGenuine = true)
    (hi : i.toValue = .object [("op", .str s), (name, v)]) :
    ReadsAs (.object ms) i where
  written := by
    refine .simple (hop ▸ hnames) (by simpa using hne.symm) ?_
    simp [hv]
  genuine := hg
  trimmed := by
    rw [hi, trim, hop, hnames]
    simp [Members.only, get?_trimBodies, get?_op hop, hv, hne]

/-- An instruction with a body: its object has the operation, the other
    operands and the body. -/
theorem readsAs_compound {ms : Members} {s : String}
    (names : List String) {body : Value} {items : List Value} {p : Program}
    {i : Instruction} (hop : operation ms = .str s)
    (hnames : operandNames? (.str s) = some (names ++ ["body"]))
    (hne : "body" ∉ names) (hv : ∀ name ∈ names, (ms.get? name).isSome = true)
    (hb : ms.get? "body" = some body) (hitems : body.items? = some items)
    (ht : trimBody body = .list (toValues p))
    (hw : ∀ v ∈ items, IsWritten v) (hg : i.isGenuine = true)
    (hi : i.toValue = .object (ms.only ("op" :: names)
      ++ [("body", .list (toValues p))])) :
    ReadsAs (.object ms) i where
  written := by
    refine .compound (hop ▸ hnames) (by simp) ?_ (by simp [hb, hitems]) hw
    intro name hname
    rcases List.mem_append.1 hname with h | h
    · exact hv name h
    · simp [List.mem_singleton.1 h, hb]
  genuine := hg
  trimmed := by
    have hkeep : Members.only (trimBodies ms) ("op" :: names)
        = ms.only ("op" :: names) := by
      refine List.filterMap_congr fun name hname => ?_
      rw [get?_trimBodies]
      rintro rfl
      simp [hne] at hname
    have hbody : Members.only (trimBodies ms) ["body"]
        = [("body", .list (toValues p))] := by
      simp [Members.only, get?_trimBodies_body, hb, ht]
    rw [hi, trim, hop, hnames, Option.getD_some, ← List.cons_append, ← hkeep,
      ← hbody, Members.only, Members.only, Members.only,
      List.filterMap_append]

mutual

/-- What is read as an instruction is written, and comes back trimmed. -/
theorem ofValue_readsAs : ∀ (v : Value) (i : Instruction),
    ofValue v = .ok i → ReadsAs v i
  | .object ms, i, h => by
      have hbodies := bodyOf_reads ms
      unfold ofValue at h
      -- one goal for each operation, and one for an operation that is none
      split at h
      case h_1 | h_2 | h_3 | h_4 | h_5 =>
        rename_i hop
        obtain ⟨v, hv, rfl⟩ := map_eq_ok h
        exact readsAs_simple hop rfl (by decide) (operand_ok.1 hv) rfl rfl
      case h_6 hop =>
        obtain ⟨count, hv, h⟩ := bind_ok h
        obtain ⟨p, hp, h⟩ := bind_ok h
        cases h
        obtain ⟨body, items, hb, hitems, ht, hr⟩ := hbodies p hp
        have hv := operand_ok.1 hv
        exact readsAs_compound ["count"] hop rfl (by decide)
          (by simp [hv]) hb hitems ht hr.written hr.genuine
          (by simp [toValue, Members.only, get?_op hop, hv])
      case h_7 hop =>
        obtain ⟨p, hp, h⟩ := bind_ok h
        obtain ⟨limit, hv, h⟩ := bind_ok h
        cases h
        obtain ⟨body, items, hb, hitems, ht, hr⟩ := hbodies p hp
        have hv := operand_ok.1 hv
        exact readsAs_compound ["max_iterations"] hop rfl
          (by decide) (by simp [hv]) hb hitems ht hr.written hr.genuine
          (by simp [toValue, Members.only, get?_op hop, hv])
      case h_8 hop =>
        obtain ⟨p, hp, rfl⟩ := map_eq_ok h
        obtain ⟨body, items, hb, hitems, ht, hr⟩ := hbodies p hp
        exact readsAs_compound [] hop rfl (by decide) (by simp) hb
          hitems ht hr.written hr.genuine
          (by simp [toValue, Members.only, get?_op hop])
      case h_9 => cases h

/-- What is read as the body of an object is its body. -/
theorem bodyOf_reads : ∀ (ms : List (String × Value)) (p : Program),
    bodyOf ms = .ok p →
      ∃ body items, Members.get? ms "body" = some body ∧
        body.items? = some items ∧ trimBody body = .list (toValues p) ∧
        ReadsAll items p
  | (name, v) :: ms, p, h => by
      by_cases hn : name = "body"
      · simp only [bodyOf, hn, if_true] at h
        obtain ⟨items, hitems, ht, hr⟩ := readBody_reads v p h
        exact ⟨v, items, by simp [Members.get?, hn], hitems, ht, hr⟩
      · simp only [bodyOf, hn, if_false] at h
        obtain ⟨body, items, hb, hrest⟩ := bodyOf_reads ms p h
        simp only [Members.get?] at hb
        exact ⟨body, items, by simpa [Members.get?, hn] using hb, hrest⟩

/-- What is read as a body comes back as the trimmed items. -/
theorem readBody_reads : ∀ (v : Value) (p : Program), readBody v = .ok p →
    ∃ items, v.items? = some items ∧ trimBody v = .list (toValues p) ∧
      ReadsAll items p
  | .list items, p, h => by
      have hr := ofValues_readsAll items p h
      exact ⟨items, rfl, by rw [trimBody, hr.trimmed], hr⟩
  | .str s, p, h => by
      by_cases hs : s = ""
      · simp only [readBody, hs, if_true] at h
        cases h
        exact ⟨[], by simp [Value.items?, hs], rfl, by simp, rfl, rfl⟩
      · simp [readBody, hs] at h
  | .object [], p, h => by
      cases h
      exact ⟨[], rfl, rfl, by simp, rfl, rfl⟩

/-- What is read as a program is written, and comes back trimmed. -/
theorem ofValues_readsAll : ∀ (vs : List Value) (p : Program),
    ofValues vs = .ok p → ReadsAll vs p
  | [], p, h => by
      cases h
      exact ⟨by simp, rfl, rfl⟩
  | v :: vs, p, h => by
      obtain ⟨i, hi, h⟩ := bind_ok h
      obtain ⟨is, his, h⟩ := bind_ok h
      cases h
      have hv := ofValue_readsAs v i hi
      have hvs := ofValues_readsAll vs is his
      refine ⟨?_, ?_, ?_⟩
      · simpa using ⟨hv.written, hvs.written⟩
      · rw [allGenuine, hv.genuine, hvs.genuine]; rfl
      · rw [toValues, trimAll, hv.trimmed, hvs.trimmed]

end

/-! ## What is accepted -/

/-- Values that can be read one by one can be read. -/
theorem ofValues_of_each {vs : List Value}
    (h : ∀ v ∈ vs, ∃ i, ofValue v = .ok i) : ∃ p, ofValues vs = .ok p := by
  induction vs with
  | nil => exact ⟨[], rfl⟩
  | cons v vs ih =>
      obtain ⟨i, hi⟩ := h v List.mem_cons_self
      obtain ⟨is, his⟩ := ih fun w hw => h w (List.mem_cons_of_mem v hw)
      exact ⟨i :: is, by simp only [ofValues, hi, his]; rfl⟩

/-- A body can be read if its items can. -/
theorem readBody_of_items {body : Value} {items : List Value} {p : Program}
    (hitems : body.items? = some items) (hp : ofValues items = .ok p) :
    readBody body = .ok p := by
  match body, hitems with
  | .list items, rfl => exact hp
  | .str s, h =>
      by_cases hs : s = ""
      · simp only [Value.items?, hs, if_true, Option.some.injEq] at h
        simp only [readBody, hs, if_true, ← hp, ← h, ofValues]
      · simp [Value.items?, hs] at h
  | .object [], rfl => exact hp

/-- The operations without a body. -/
theorem operandNames_simple {op : Value} {names : List String}
    (h : operandNames? op = some names) (hbody : "body" ∉ names) :
    (op = .str "move" ∧ names = ["distance"]) ∨
    (op = .str "turn_right" ∧ names = ["degrees"]) ∨
    (op = .str "turn_left" ∧ names = ["degrees"]) ∨
    (op = .str "wait" ∧ names = ["seconds"]) ∨
    (op = .str "say" ∧ names = ["text"]) := by
  unfold operandNames? at h
  split at h <;> cases h <;> simp at hbody ⊢

/-- The operations with a body. -/
theorem operandNames_compound {op : Value} {names : List String}
    (h : operandNames? op = some names) (hbody : "body" ∈ names) :
    (op = .str "repeat" ∧ names = ["count", "body"]) ∨
    (op = .str "repeat_bounded" ∧ names = ["max_iterations", "body"]) ∨
    (op = .str "if_goal_reached" ∧ names = ["body"]) := by
  unfold operandNames? at h
  split at h <;> cases h <;> simp at hbody ⊢

/-- Operands that are there can be read. -/
theorem operand_of_isSome {ms : Members} {names : List String}
    (h : ∀ name ∈ names, (ms.get? name).isSome = true) :
    ∀ name ∈ names, ∃ v, operand ms name = .ok v := by
  intro name hname
  obtain ⟨v, hv⟩ := Option.isSome_iff_exists.1 (h name hname)
  exact ⟨v, operand_ok.2 hv⟩

/-- What is written can be read. -/
theorem IsWritten.read {v : Value} (h : IsWritten v) :
    ∃ i, ofValue v = .ok i := by
  induction h with
  | simple hknown hbody hall =>
      have hread := operand_of_isSome hall
      obtain ⟨hop, rfl⟩ | ⟨hop, rfl⟩ | ⟨hop, rfl⟩ | ⟨hop, rfl⟩ | ⟨hop, rfl⟩ :=
        operandNames_simple hknown hbody
      all_goals
        obtain ⟨v, hv⟩ := hread _ List.mem_cons_self
        unfold operation at hop
        exact ⟨_, by simp only [ofValue, hop, hv]; rfl⟩
  | compound hknown hbody hall hitems _ ih =>
      obtain ⟨p, hp⟩ := ofValues_of_each ih
      obtain ⟨body, hb, hitems⟩ := Option.bind_eq_some_iff.1 hitems
      have hp := bodyOf_ok.2 ⟨body, hb, readBody_of_items hitems hp⟩
      have hread := operand_of_isSome hall
      obtain ⟨hop, rfl⟩ | ⟨hop, rfl⟩ | ⟨hop, rfl⟩ :=
        operandNames_compound hknown hbody
      all_goals
        obtain ⟨v, hv⟩ := hread _ List.mem_cons_self
        unfold operation at hop
        exact ⟨_, by simp only [ofValue, hop, hv, hp]; rfl⟩

/-- Values can be read as a program if and only if each is written. -/
theorem ofValues_isOk_iff {vs : List Value} :
    (∃ p, ofValues vs = .ok p) ↔ ∀ v ∈ vs, IsWritten v :=
  ⟨fun ⟨p, hp⟩ => (ofValues_readsAll vs p hp).written,
    fun h => ofValues_of_each fun v hv => (h v hv).read⟩

/-- Writing and reading programs are exact in both directions.  A program
    that is written is read back.  Values are read as a program if and only
    if each is an object that names a known operation with all its operands,
    down through the bodies; and written again, the program is these values
    without the members that their operations do not have. -/
theorem serialization_exact :
    (∀ p : Program, allGenuine p = true → ofValues (toValues p) = .ok p) ∧
    (∀ vs : List Value,
      (∃ p, ofValues vs = .ok p) ↔ ∀ v ∈ vs, IsWritten v) ∧
    (∀ (vs : List Value) (p : Program), ofValues vs = .ok p →
      allGenuine p = true ∧ toValues p = vs.map trim) := by
  refine ⟨ofValues_toValues, fun vs => ofValues_isOk_iff, ?_⟩
  intro vs p hp
  have hread := ofValues_readsAll vs p hp
  exact ⟨hread.genuine, hread.trimmed.trans (trimAll_eq vs)⟩

/-- A loop around a walk and a talk, with a comment that no operation
    has. -/
def annotatedLoop : List Value :=
  [.object [("op", .str "repeat"), ("comment", .str "twice"),
    ("body", .list
      [.object [("op", .str "move"), ("distance", 1), ("speed", .null)],
        .object [("text", .str "here"), ("op", .str "say")]]),
    ("count", 2)]]

/-- The loop as a program. -/
def loopProgram : Program :=
  [.repeatTimes 2 [.move 1, .say (.str "here")]]

/-- The loop is read as a program, and the program is read back; what is
    written of it lacks the comment and the speed. -/
theorem annotatedLoop_read :
    ofValues (toValues loopProgram) = .ok loopProgram ∧
    (∀ v ∈ annotatedLoop, IsWritten v) ∧
    toValues loopProgram = annotatedLoop.map trim :=
  have hread : ofValues annotatedLoop = .ok loopProgram := rfl
  ⟨serialization_exact.1 loopProgram rfl,
    (serialization_exact.2.1 annotatedLoop).1 ⟨loopProgram, hread⟩,
    (serialization_exact.2.2 annotatedLoop loopProgram hread).2⟩

/-! ## Compiled programs -/

theorem allGenuine_append (p q : Program) :
    allGenuine (p ++ q) = (allGenuine p && allGenuine q) := by
  induction p with
  | nil => rfl
  | cons i p ih => simp only [List.cons_append, allGenuine, ih, Bool.and_assoc]

variable {t : Target}

/-- What a block of a known kind gives are instructions, if its body gives
    instructions. -/
theorem instructionsOf_genuine (path : Path) (k : Kind) (values : Members)
    {body : Program} (hbody : allGenuine body = true) :
    allGenuine (instructionsOf t path k values body).program = true := by
  have hheld : ∀ i : Instruction, i.isGenuine = true →
      allGenuine [i] = true := fun i hi => by rw [allGenuine, hi]; rfl
  cases k with
  | start => exact hbody
  | turn =>
      unfold instructionsOf
      dsimp only
      split <;> rfl
  | repeatTimes => exact hheld (.repeatTimes _ body) hbody
  | repeatForever => exact hheld (.repeatBounded _ body) hbody
  | ifGoalReached => exact hheld (.ifGoalReached body) hbody
  | ifCondition =>
      unfold instructionsOf
      dsimp only
      split
      · exact hheld (.ifGoalReached body) hbody
      · exact hbody
      · rfl
  | _ => rfl

mutual

/-- What a block gives are instructions. -/
theorem compileBlock_genuine (path : Path) : ∀ b : Block,
    allGenuine (compileBlock t path b).program = true
  | ⟨kind, fields, body⟩ => by
      unfold compileBlock
      split
      · rfl
      · split
        · rfl
        · refine instructionsOf_genuine path _ _ ?_
          cases body with
          | none => rfl
          | some blocks =>
              dsimp only
              split
              · exact compileBlocks_genuine path 0 blocks
              · rfl

/-- What blocks in order give are instructions. -/
theorem compileBlocks_genuine (parent : Path) (i : Nat) : ∀ bs : List Block,
    allGenuine (compileBlocks t parent i bs).program = true
  | [] => rfl
  | b :: bs => by
      show allGenuine ((compileBlock t (parent ++ [i]) b).program
        ++ (compileBlocks t parent (i + 1) bs).program) = true
      rw [allGenuine_append, compileBlock_genuine (parent ++ [i]) b,
        compileBlocks_genuine parent (i + 1) bs]
      rfl

end

/-- Whatever is compiled gives nothing but instructions. -/
theorem compileSource_genuine {source : Value} {compiled : Compiled}
    (h : compileSource t source = .ok compiled) :
    allGenuine compiled.program = true := by
  unfold compileSource at h
  split at h
  · cases h
    rfl
  · obtain ⟨own, hown, rfl⟩ := map_eq_ok h
    unfold compileForest? at hown
    split at hown
    · cases hown
    · cases hown
      exact compileBlocks_genuine [] 0 _

/-- A compiled program that is not nested too deep is read back from what
    is written of it. -/
theorem readProgram_compiled {source : Value} {compiled : Compiled}
    (h : compileSource t source = .ok compiled)
    (hdepth : greatestDepth compiled.program ≤ depthLimit) :
    readProgram (.list (toValues compiled.program)) = .ok compiled.program :=
  readProgram_toValues (compileSource_genuine h) hdepth

end Instruction

end BlockStage
