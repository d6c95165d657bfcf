import BlockStage.Proofs.Compile.Fields
import BlockStage.Proofs.Compile.Measures

/-! # Changes — no number is changed in silence, and none is said to be

    Each number field of a block ends up in the one instruction that the
    block gives (`number_compiled`).  On its way it passes through its
    domain and, if it is a turn on the grid, through `turnDegrees`; each of
    the two says so whenever it changes the number, and only then
    (`coerce_told`, `turn_told`).  So a forest that compiles warns of a
    number field exactly if the instruction holds another number than the
    one that is written, and the last of its warnings names the number in
    the instruction (`changes_told`). -/

namespace BlockStage

variable {t : Target} {n : Int} {b : Block} {name : String}
  {d : NumberDomain} {raw : Value} {k : Kind}

/-- What an instruction works with. -/
def Instruction.operand? : Instruction → Option Value
  | move v => some v
  | turnRight v => some v
  | turnLeft v => some v
  | wait v => some v
  | say v => some v
  | repeatTimes v _ => some v
  | repeatBounded v _ => some v
  | ifGoalReached _ => none
  | foreign _ => none

/-! ## Number fields -/

/-- Whether a domain is one of numbers. -/
def Domain.isNumber : Domain → Bool
  | number _ => true
  | _ => false

namespace Kind

/-- The number field of a kind, if it has one. -/
def numberField? : Kind → Option String
  | move => some "distance"
  | turn => some "degrees"
  | wait => some "seconds"
  | repeatTimes => some "count"
  | _ => none

/-- What becomes of the number of a kind in its domain: that of a turn may
    be brought to quarter turns. -/
def finish (t : Target) (k : Kind) (v : Value) : Value × List Warning :=
  if k = turn then turnDegrees t [] v else (v, [])

end Kind

/-- A field with a number domain is the number field of the kind. -/
theorem Domains.of_number {source : String}
    (hkind : Kind.ofWritten? source = some k)
    (h : (Domains.of (some k) source).lookup name = some (.number d)) :
    k.numberField? = some name := by
  have hall : (Domains.of (some k) source).all (fun f => !f.2.isNumber
      || (k.domains.lookup f.1).isNone
      || k.numberField? == some f.1) = true := by
    refine Domains.of_holds (P := fun ds => ds.all (fun f => !f.2.isNumber
      || (k.domains.lookup f.1).isNone
      || k.numberField? == some f.1) = true) k source ?_
    cases k <;> decide +kernel
  have hmem := mem_of_lookup h
  have hdeclared := Domains.of_declared hkind name
    (List.mem_map_of_mem hmem)
  have hname := List.all_eq_true.1 hall _ hmem
  simp only [Domain.isNumber, Bool.not_true,
    Option.isNone_eq_false_iff.2 hdeclared, Bool.false_or, beq_iff_eq] at hname
  exact hname

/-- The kind of a block that is known was written. -/
theorem Block.kind_written {fields : Members}
    (h : resolve? b.kind b.fields = some (k, fields)) :
    Kind.ofWritten? (sourceName b.kind) = some k := by
  obtain ⟨kind, own, body⟩ := b
  cases kind with
  | str s =>
      have hkind := resolve?_kind s own
      rw [h] at hkind
      exact hkind.symm
  | _ => cases h

/-- A kind with a number field gives one instruction, which works with that
    number. -/
theorem instructionsOf_number (hk : k.numberField? = some name)
    (values : Members) (body : Program) :
    ∃ i, (instructionsOf t [] k values body).program = [i]
      ∧ i.operand? = some (k.finish t ((values.get? name).getD .null)).1
      ∧ (instructionsOf t [] k values body).warnings
          = (k.finish t ((values.get? name).getD .null)).2 := by
  cases k with
  | turn =>
      cases hk
      simp only [instructionsOf]
      split
      · exact ⟨_, rfl, rfl, rfl⟩
      · exact ⟨_, rfl, rfl, rfl⟩
  | move =>
      cases hk
      exact ⟨_, rfl, rfl, rfl⟩
  | wait =>
      cases hk
      exact ⟨_, rfl, rfl, rfl⟩
  | repeatTimes =>
      cases hk
      exact ⟨_, rfl, rfl, rfl⟩
  | _ => cases hk

/-- A block with a number field gives one instruction, which works with what
    becomes of the number in its domain and after it; and what is said of
    the field is said of these two. -/
theorem number_compiled (h : b.declared? name = some (.number d, raw))
    (place : Path) :
    ∃ k i, Kind.ofWritten? (sourceName b.kind) = some k
      ∧ (Domains.of (some k) (sourceName b.kind)).lookup name
          = some (.number d)
      ∧ (compileBlock t place b).program = [i]
      ∧ i.operand? = some (k.finish t (.num (d.coerce t.ceiling raw).1)).1
      ∧ b.changes t name
          = ((d.coerce t.ceiling raw).2.toList.map
                fun _ => Value.num (d.coerce t.ceiling raw).1)
            ++ ((k.finish t (.num (d.coerce t.ceiling raw).1)).2.map
                (·.complaint)).filterMap (Complaint.change? name) := by
  have hchanges := changes_declared (t := t) h
  obtain ⟨k, fields, hresolve, hlookup, rfl⟩ :=
    Block.declared?_eq_some_iff.1 h
  have hkind := Block.kind_written hresolve
  have hknown := Block.known?_resolved (t := t) hresolve
  have hfield := Domains.of_number hkind hlookup
  have hvalue := @coerceFields_field k.name _ _ t.ceiling _ fields hlookup
  obtain ⟨i, hprogram, hoperand, -⟩ := instructionsOf_number (t := t) hfield
    (coerceFields k.name (Domains.of (some k) (sourceName b.kind)) t.ceiling
      fields).values (compileBlocks t place 0 b.inside).program
  obtain ⟨-, -, -, hwarnings⟩ := instructionsOf_number (t := t) hfield
    (coerceFields k.name (Domains.of (some k) (sourceName b.kind)) t.ceiling
      fields).values []
  rw [hvalue] at hoperand hwarnings
  refine ⟨k, i, hkind, hlookup, ?_, hoperand, ?_⟩
  · rw [compileBlock_program, Block.yield, hknown]
    exact hprogram
  · rw [hchanges, Block.complaintsAfter, hknown]
    dsimp only
    rw [hwarnings]
    rfl

/-! ## Ranges of number fields -/

/-- Whole values from one to a small count are held. -/
theorem Domain.WholeWithin.held {ceiling : Value} {high : Int}
    (h : (Domain.number d).WholeWithin ceiling 1 high)
    (hbits : high < 2 ^ 53) : ∃ m, d.Held ceiling m := by
  obtain ⟨low, m, _, maximum, heq, hlimit, hlow, hle, hhigh, -⟩ := h
  cases heq
  refine ⟨m, fun _ => ⟨low, rfl⟩, ⟨low, rfl, ?_, ?_⟩, by omega, hlimit⟩
  · exact_mod_cast hlow
  · exact_mod_cast hle

/-- All number fields are, under a small ceiling. -/
theorem number_held (ht : t.ceiling = .int n) (hlow : 1 ≤ n)
    (hhigh : n < 2 ^ 53) {source : String}
    (hfield : k.numberField? = some name)
    (h : (Domains.of (some k) source).lookup name = some (.number d)) :
    ∃ m, d.Held t.ceiling m := by
  cases k with
  | move =>
      cases hfield
      obtain ⟨_, hown, hd⟩ := domain_distance t.ceiling source
      cases hown.symm.trans h
      exact hd.held (by decide)
  | turn =>
      cases hfield
      obtain ⟨_, hown, hd⟩ := domain_degrees t.ceiling source
      cases hown.symm.trans h
      exact hd.held (by decide)
  | wait =>
      cases hfield
      cases (domain_seconds source).symm.trans h
      refine ⟨10, nofun, ⟨shortestWait.exact.value, ?_⟩, by decide, rfl⟩
      decide +kernel
  | repeatTimes =>
      cases hfield
      obtain ⟨_, hown, hd⟩ :=
        domain_count t.ceiling source (by rw [ht]; rfl) hlow
      cases hown.symm.trans h
      exact hd.held (by omega)
  | _ => cases hfield

/-- The degrees of a turn lie between at most a quarter turn and exactly a
    full one. -/
theorem degrees_range {source : String}
    (h : (Domains.of (some .turn) source).lookup "degrees"
      = some (.number d)) :
    ∃ low dflt : Int, d = ⟨.int low, some 360, .int dflt, true⟩
      ∧ 1 ≤ low ∧ low ≤ 90 := by
  obtain ⟨own, hown, heq⟩ := Domains.of_eq .turn source
  rw [heq] at h
  simp only [editorDomains, List.map_cons, List.map_nil, List.mem_cons,
    List.not_mem_nil, or_false] at hown
  rcases hown with rfl | rfl | rfl | rfl | rfl | rfl <;>
    · cases h
      exact ⟨_, _, rfl, by decide, by decide⟩

/-! ## What is said -/

/-- A domain has a problem with a value exactly if it makes another number
    of it. -/
theorem coerce_told {ceiling : Value} {m : Int} (hd : d.Held ceiling m)
    (hnull : raw ≠ .null) :
    (d.coerce ceiling raw).2 ≠ none ↔
      ∀ n, raw.denoted? = some n →
        (d.coerce ceiling raw).1.same n = false := by
  constructor
  · intro hproblem n hn
    obtain ⟨p, hp⟩ := Option.ne_none_iff_exists'.1 hproblem
    exact NumberDomain.coerce_changed hd hn hp
  · intro hother hnone
    cases hn : raw.denoted? with
    | none =>
        rw [NumberDomain.coerce_undenoted hn hnull] at hnone
        cases hnone
    | some n =>
        have hsame := NumberDomain.coerce_silent hd hn hnone
        rw [hother n hn] at hsame
        cases hsame

/-- A turn that is brought to quarter turns is no longer what was
    written. -/
theorem turn_told {low dflt j : Int} {ceiling : Value}
    (hlow : 1 ≤ low) (hquarter : low ≤ 90)
    (hvalue : (NumberDomain.coerce ⟨.int low, some 360, .int dflt, true⟩
      ceiling raw).1 = .int j)
    (hj : j % 90 ≠ 0) {n : Num} (hn : raw.denoted? = some n) :
    (Num.int (quarterTurn j)).same n = false := by
  have hd : NumberDomain.Held ⟨.int low, some 360, .int dflt, true⟩ ceiling
      360 := by
    refine ⟨fun _ => ⟨low, rfl⟩, ⟨low, rfl, ?_, ?_⟩, by decide, rfl⟩
    · exact_mod_cast hlow
    · exact_mod_cast (show low ≤ 360 by omega)
  have hmod : quarterTurn j % 90 = 0 := by
    unfold quarterTurn
    omega
  cases hproblem : (NumberDomain.coerce ⟨.int low, some 360, .int dflt, true⟩
      ceiling raw).2 with
  | none =>
      -- the number that was kept is a different count
      have hsame := NumberDomain.coerce_silent hd hn hproblem
      rw [hvalue] at hsame
      refine Bool.eq_false_iff.2 fun hq => ?_
      have hkept := (Scalar.same_finite ((Scalar.same_comm ..).trans hsame)).2
      have hturned := (Scalar.same_finite ((Scalar.same_comm ..).trans hq)).2
      have heq : j = quarterTurn j := by
        exact_mod_cast hkept.symm.trans hturned
      omega
  | some p =>
      rcases NumberDomain.coerce_loud hd hn hproblem with
        ⟨hbelow, heq⟩ | ⟨-, heq⟩ | ⟨-, hnone⟩
      · have hle : low ≤ quarterTurn j := by
          unfold quarterTurn
          omega
        have hlt : n.exact.lt (.finite (quarterTurn j)) = true :=
          Scalar.lt_mono (q := low) hbelow (by exact_mod_cast hle)
        exact (Scalar.not_same_of_lt hlt).2
      · rw [hvalue] at heq
        cases heq
        exact absurd rfl hj
      · exact hnone _

/-- What is said of a number field is what has become of it: the instruction
    works with another number than the one that is written exactly if
    something is said, and then it works with what is said last. -/
theorem number_told (ht : t.ceiling = .int n) (hlow : 1 ≤ n)
    (hhigh : n < 2 ^ 53) (h : b.declared? name = some (.number d, raw))
    (hnull : raw ≠ .null) (place : Path) :
    ∃ i m, (compileBlock t place b).program = [i]
      ∧ i.operand? = some (.num m)
      ∧ (b.changes t name ≠ [] ↔
          ∀ n, raw.denoted? = some n → m.same n = false)
      ∧ ∀ v, (b.changes t name).getLast? = some v → v = .num m := by
  obtain ⟨k, i, hkind, hlookup, hprogram, hoperand, hchanges⟩ :=
    number_compiled (t := t) h place
  have hfield := Domains.of_number hkind hlookup
  obtain ⟨high, hd⟩ := number_held ht hlow hhigh hfield hlookup
  have hdomain := coerce_told hd hnull
  refine ⟨i, ?_⟩
  by_cases hkept : k.finish t (.num (d.coerce t.ceiling raw).1)
      = (.num (d.coerce t.ceiling raw).1, [])
  · refine ⟨(d.coerce t.ceiling raw).1, hprogram, ?_, ?_, ?_⟩
    · rw [hoperand, hkept]
    · rw [hchanges, hkept, ← hdomain]
      cases (d.coerce t.ceiling raw).2 <;> simp
    · rw [hchanges, hkept]
      cases (d.coerce t.ceiling raw).2 <;> simp
  -- otherwise it is the number of a turn, brought to quarter turns
  · obtain rfl : k = .turn := by
      by_contra hother
      exact hkept (if_neg hother)
    cases hfield
    obtain ⟨_, hown, hwithin⟩ := domain_degrees t.ceiling (sourceName b.kind)
    cases hown.symm.trans hlookup
    obtain ⟨j, hvalue, -⟩ := hwithin.coerce raw
    have hvalue : (d.coerce t.ceiling raw).1 = .int j := Value.num.inj hvalue
    obtain ⟨low, dflt, rfl, hpos, hquarter⟩ := degrees_range hlookup
    rw [hvalue] at hkept hoperand hchanges
    have hfinish : Kind.finish t .turn (.num (.int j))
        = if ¬ t.quarterTurns ∨ j % 90 = 0 then (.num (.int j), [])
          else (.int (quarterTurn j),
            [⟨[], .turnSnapped j (quarterTurn j)⟩]) := rfl
    rw [hfinish] at hkept hoperand hchanges
    have hsnapped : ¬ (¬ t.quarterTurns = true ∨ j % 90 = 0) :=
      fun hsame => hkept (if_pos hsame)
    rw [if_neg hsnapped] at hoperand hchanges
    refine ⟨.int (quarterTurn j), hprogram, hoperand, ?_, ?_⟩
    · refine iff_of_true ?_ fun n hn => turn_told hpos hquarter hvalue ?_ hn
      · rw [hchanges]
        simp [change?_turnSnapped]
      · exact fun hmod => hsnapped (.inr hmod)
    · rw [hchanges]
      simp [change?_turnSnapped, Value.int, eq_comm]

/-! ## Compiled forests -/

/-- Whether warnings tell truly of the numbers of a block at a place: it
    gives one instruction, a number field is said to have been changed
    exactly if the instruction works with another number than the one that
    is written, and the value it is last said to have been given is the one
    the instruction works with. -/
def Block.Told (t : Target) (place : Path) (ws : List Warning)
    (b : Block) : Prop :=
  ∀ name d raw, b.declared? name = some (.number d, raw) → raw ≠ .null →
    ∃ i m, (compileBlock t place b).program = [i]
      ∧ i.operand? = some (.num m)
      ∧ (changesOf ws place name ≠ [] ↔
          ∀ n, raw.denoted? = some n → m.same n = false)
      ∧ ∀ v, (changesOf ws place name).getLast? = some v → v = .num m

/-- Under a small loop ceiling the warnings of whatever compiles tell truly
    of the numbers of all blocks that are compiled, whether the forest is
    given as blocks or as it was written.  What keeps a forest from being
    compiled is a declared field that cannot be shown, and nothing else. -/
theorem changes_told (c : Config) (hc : c.loopCeiling = .int n)
    (hlow : 1 ≤ n) (hhigh : n < 2 ^ 53) :
    (∀ blocks compiled, compileForest? c.target blocks = .ok compiled →
      ∀ place b, itemAt? Block.inside blocks place = some b →
        b.Told c.target place compiled.warnings)
    ∧ (∀ source compiled, compileSource c.target source = .ok compiled →
      ∀ place v, source.Visits place v →
        v.readBlock.Told c.target place compiled.warnings)
    ∧ (∀ blocks, (∀ place b, itemAt? Block.inside blocks place = some b →
          ∃ name, b.kind = .str name) →
        ((∃ compiled, compileForest? c.target blocks = .ok compiled) ↔
          ∀ place b, itemAt? Block.inside blocks place = some b →
            b.IsShowable))
    ∧ ∀ source, (∃ compiled, compileSource c.target source = .ok compiled) ↔
        ∀ place v, source.Visits place v → v.readBlock.IsShowable := by
  have ht : c.target.ceiling = .int n := hc
  have hlegible : Value.legibleInt n = true := by
    refine Value.legibleInt_small ?_
    have hsmall : |(n : Rat)| ≤ 2 ^ 60 := by
      rw [abs_of_nonneg (by exact_mod_cast (show 0 ≤ n by omega))]
      exact_mod_cast (show n ≤ 2 ^ 60 by omega)
    exact (Num.short_small hsmall).size
  refine ⟨?_, ?_, ?_, ?_⟩
  · intro blocks compiled h place b hb name d raw hdeclared hnull
    obtain ⟨-, rfl⟩ := compileForest?_eq_ok_iff.1 h
    rw [changesOf_compileForest hb]
    exact number_told ht hlow hhigh hdeclared hnull place
  · intro source compiled h place v hv name d raw hdeclared hnull
    rw [changesOf_compileSource h hv]
    exact number_told ht hlow hhigh hdeclared hnull place
  · intro blocks hkinds
    exact compileForest?_shown ht hlegible hkinds
  · intro source
    exact compileSource_shown ht hlegible source

/-- A loop of two and a half passes around a turn that is no quarter turn
    and a wait of five seconds. -/
def crookedLoop : List Block :=
  [⟨.str "kontrol_ulangi", [("TIMES", .str " 2.5 ")], some
    [⟨.str "robot_putar", [("DEG", .int 100)], none⟩,
      ⟨.str "wait", [("seconds", .int 5)], none⟩]⟩]

/-- On the grid the first two numbers are changed, with a warning each, and
    the wait is left as it is. -/
theorem changes_told_crooked :
    Config.standard.loopCeiling = .int 100 ∧ (1 : Int) ≤ 100
      ∧ (100 : Int) < 2 ^ 53
      ∧ ∃ compiled,
        compileForest? Config.standard.target crookedLoop = .ok compiled
          ∧ (changesOf compiled.warnings [0] "count").map Value.text = ["2"]
          ∧ (changesOf compiled.warnings [0, 0] "degrees").map Value.text
            = ["90"]
          ∧ (changesOf compiled.warnings [0, 1] "seconds").map Value.text = []
          ∧ ∀ place b, itemAt? Block.inside crookedLoop place = some b →
              b.Told Config.standard.target place compiled.warnings := by
  have hfault : blocksFault? Config.standard.target crookedLoop = none :=
    Option.isNone_iff_eq_none.1 (by decide +kernel)
  have hcompiles := compileForest?_eq_ok_iff.2 ⟨hfault, rfl⟩
  refine ⟨rfl, by decide, by decide, _, hcompiles, by decide +kernel,
    by decide +kernel, by decide +kernel, ?_⟩
  obtain ⟨hforests, -⟩ :=
    changes_told Config.standard rfl (by decide) (by decide)
  exact hforests crookedLoop _ hcompiles

/-- A step whose length is a list with a number of thousands of digits. -/
def listedLength : Value :=
  .list [.object [("kind", .str "move"),
    ("fields", .object [("distance", .list [.int (10 ^ 5000)])])]]

/-- What is written there denotes no number, and yet nothing says that it
    was changed: the forest does not compile at all. -/
theorem compileSource_listed :
    (∃ v d raw, listedLength.Visits [0] v
        ∧ v.readBlock.declared? "distance" = some (.number d, raw)
        ∧ raw ≠ .null ∧ raw.denoted? = none)
      ∧ ¬ ∃ compiled,
        compileSource Config.standard.target listedLength = .ok compiled := by
  refine ⟨⟨_, _, _, ⟨_, rfl, rfl⟩, rfl, nofun, rfl⟩, ?_⟩
  rintro ⟨compiled, h⟩
  have hnone : (compileSource Config.standard.target
      listedLength).toOption.isNone = true := by
    decide +kernel
  rw [h] at hnone
  cases hnone

end BlockStage
