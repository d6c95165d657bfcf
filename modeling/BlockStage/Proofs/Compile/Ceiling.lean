import BlockStage.Proofs.Compile.Domain
import BlockStage.Proofs.Compile.Items
import BlockStage.Proofs.Number.Finite
import BlockStage.Proofs.Run.Frame
import BlockStage.Proofs.Run.Journey

/-! # The loop ceiling — compiled loops are not cut short

    The count of a loop is brought below the ceiling when the loop is
    compiled, with a warning if it was above (`Block.overrun_complaint`), and
    the guard of a run then has nothing to cut short
    (`Solo.Journey.uncut`).  Two sorts of loops escape: an editor name may
    have a range of its own, and where no count can be read a fixed one is
    made up (`Block.Exempt`).  `compileSource_ceiling` says this of all that
    can be compiled. -/

namespace BlockStage

open Instruction Value

/-- Loops with counts of some sort, and loops without end that end after
    `n` passes. -/
def Instruction.Loop (n : Int) (Counted : Int → Prop) : Instruction → Prop
  | repeatTimes v _ => ∃ k : Int, v = .int k ∧ Counted k
  | repeatBounded v _ => v = .int n
  | _ => True

/-! ## The counts of loops -/

/-- The editor name of the loop with a range of its own. -/
def ownRangeName : String := "robot_ulangi"

/-- The counts that a loop written under a name may have. -/
def countDomain (source : String) : NumberDomain :=
  ⟨1, if source = ownRangeName then some 50 else none,
    if source = "kontrol_ulangi" then 10 else 2, true⟩

/-- The domain of the counts under every name. -/
theorem domain_count_eq (source : String) :
    (Domains.of (some .repeatTimes) source).lookup "count"
      = some (.number (countDomain source)) := by
  unfold Domains.of
  cases h : editorDomains.lookup source with
  | none =>
      obtain ⟨hkontrol, hrobot⟩ :
          source ≠ "kontrol_ulangi" ∧ source ≠ ownRangeName := by
        constructor <;>
          · rintro rfl
            cases h
      unfold countDomain
      rw [if_neg hkontrol, if_neg hrobot]
      rfl
  | some own =>
      have hmem : (source, own) ∈ editorDomains := mem_of_lookup h
      simp only [editorDomains, List.mem_cons, List.not_mem_nil, or_false,
        Prod.mk.injEq] at hmem
      rcases hmem with ⟨rfl, rfl⟩ | ⟨rfl, rfl⟩ | ⟨rfl, rfl⟩ | ⟨rfl, rfl⟩ |
        ⟨rfl, rfl⟩ <;> rfl

/-- The greatest count of a loop under a name, for a ceiling. -/
def greatestCount (n : Int) (source : String) : Int :=
  if source = ownRangeName then 50 else n

theorem greatestCount_pos {n : Int} (hn : 1 ≤ n) (source : String) :
    1 ≤ greatestCount n source := by
  unfold greatestCount
  split
  · decide
  · exact hn

/-- A measure above a ratio is not below a smaller one. -/
theorem Scalar.lt_asymm {q r : Rat} {x : Scalar}
    (h : (finite q).lt x = true) (hle : r ≤ q) :
    x.lt (finite r) = false := by
  refine Bool.eq_false_iff.2 fun hlt => ?_
  have hfinite : x.isFinite = true → False := by
    intro hx
    have hlow := (lt_iff (x := finite q) rfl hx).1 h
    have hhigh := (lt_iff hx (y := finite r) rfl).1 hlt
    exact absurd (hlow.trans hhigh) (not_lt.2 hle)
  cases x with
  | finite x => exact hfinite rfl
  | negZero => exact hfinite rfl
  | inf negative => cases negative <;> contradiction
  | nan => cases h

namespace NumberDomain

variable {n : Int} {source : String} {raw : Value} {x : Scalar}

theorem countDomain_limit (n : Int) (source : String) :
    (countDomain source).limit (.int n)
      = .int (greatestCount n source) := by
  unfold limit countDomain greatestCount
  dsimp only
  split <;> rfl

/-- A value that is read as a measure is brought between the bounds and
    settled. -/
theorem coerce_read {d : NumberDomain} {ceiling : Value}
    (h : read? raw = some x) (hx : x ≠ .nan) :
    d.coerce ceiling raw = d.settle raw (d.bound ceiling raw x) := by
  unfold coerce
  split
  · cases h
  · rw [h]
    split
    · contradiction
    · rename_i heq
      exact absurd (Option.some.inj heq) hx
    · rename_i heq
      rw [Option.some.inj heq]

/-- A value that is read as no measure becomes the default. -/
theorem coerce_unread {d : NumberDomain} {ceiling : Value}
    (h : ∀ x, read? raw = some x → x = .nan) :
    (d.coerce ceiling raw).1 = d.default := by
  unfold coerce
  split
  · rfl
  · split
    · rfl
    · rfl
    · rename_i x hno heq
      exact absurd (h x heq) hno

/-- A measure above the greatest count gives that count, with a problem. -/
theorem coerce_overrun (hn : 1 ≤ n) (h : read? raw = some x)
    (hx : (Scalar.finite (greatestCount n source)).lt x = true) :
    (countDomain source).coerce (.int n) raw
      = (.int (greatestCount n source),
          some (.above raw (.int (greatestCount n source)))) := by
  have hnan : x ≠ .nan := by
    rintro rfl
    cases hx
  have hlow : (Num.real x).lt (countDomain source).minimum = false :=
    Scalar.lt_asymm hx (by exact_mod_cast greatestCount_pos hn source)
  have hexceeded : (countDomain source).exceeded? (.int n) x
      = some (.int (greatestCount n source)) := by
    unfold exceeded?
    rw [countDomain_limit]
    exact Option.filter_eq_some_iff.2 ⟨rfl, hx⟩
  -- the limit is a whole number, so settling for one changes nothing
  have hwhole : nearestWhole (.int (greatestCount n source))
      = greatestCount n source := roundEven_int _
  have hbound : (countDomain source).bound (.int n) raw x
      = (.int (greatestCount n source),
          some (.above raw (.int (greatestCount n source)))) := by
    unfold bound
    rw [if_neg (by rw [hlow]; exact Bool.false_ne_true), hexceeded,
      countDomain_limit]
  rw [coerce_read h hnan, hbound]
  have hcounts : (countDomain source).whole = true := rfl
  unfold settle
  rw [if_pos hcounts]
  dsimp only
  rw [hwhole]
  rfl

/-- Whatever is written becomes a count from one to the greatest, or a small
    one if no number can be read. -/
theorem coerce_count (hn : 1 ≤ n) (source : String) (raw : Value) :
    ∃ k : Int, ((countDomain source).coerce (.int n) raw).1 = .int k ∧ 1 ≤ k
      ∧ (k ≤ greatestCount n source
        ∨ k ≤ 10 ∧ ∀ x, read? raw = some x → x = .nan) := by
  by_cases hread : ∃ x, read? raw = some x ∧ x ≠ .nan
  · obtain ⟨x, hread, hx⟩ := hread
    have hhigh : ((countDomain source).limit (.int n)).number?
        = some (.int (greatestCount n source)) := by
      rw [countDomain_limit]
      rfl
    rw [coerce_read hread hx]
    obtain ⟨k, hk, hlow, hle⟩ := settle_whole raw rfl rfl hhigh
      (greatestCount_pos hn source) hx
    exact ⟨k, hk, hlow, .inl hle⟩
  · have hunread : ∀ x, read? raw = some x → x = .nan := fun x hx =>
      not_not.1 fun hno => hread ⟨x, hx, hno⟩
    rw [coerce_unread hunread]
    unfold countDomain
    dsimp only
    split
    · exact ⟨10, rfl, by decide, .inr ⟨by decide, hunread⟩⟩
    · exact ⟨2, rfl, by decide, .inr ⟨by decide, hunread⟩⟩

end NumberDomain

/-! ## Loops -/

/-- What had to be changed in a field is complained of. -/
theorem coerceFields_complains {kind name : String} {ds : Domains}
    {ceiling : Value} {d : Domain} {fields : Members}
    {problem : FieldProblem} (h : ds.lookup name = some d)
    (hproblem : (d.coerce ceiling ((fields.get? name).getD .null)).2
      = some problem) :
    ⟨kind, name, (fields.get? name).getD .null,
        (d.coerce ceiling ((fields.get? name).getD .null)).1, problem⟩
      ∈ (coerceFields kind ds ceiling fields).complaints := by
  induction ds with
  | nil => cases h
  | cons own ds ih =>
      obtain ⟨other, o⟩ := own
      rw [List.lookup_cons] at h
      split at h
      · rename_i heq
        obtain rfl := beq_iff_eq.1 heq
        obtain rfl := Option.some.inj h
        exact List.mem_append_left _ (List.mem_map.2
          ⟨problem, Option.mem_toList.2 hproblem, rfl⟩)
      · exact List.mem_append_right _ (ih h)

namespace Block

variable {t : Target} {b : Block} {n k : Int} {raw : Value}

/-- What is written as the count of a loop. -/
def count? (b : Block) : Option Value :=
  match resolve? b.kind b.fields with
  | some (.repeatTimes, fields) => some ((fields.get? "count").getD .null)
  | _ => none

/-- A block gives a loop of so many passes. -/
def Loops (t : Target) (b : Block) (k : Int) : Prop :=
  b.yield t [] = [.repeatTimes (.int k) []]

/-- Loops that are not held to the ceiling: those with a range of their own,
    and those of whose count no number can be read. -/
inductive Exempt (b : Block) : Prop
  | ownRange : sourceName b.kind = ownRangeName → Exempt b
  | unread {raw : Value} : b.count? = some raw →
      (∀ x, NumberDomain.read? raw = some x → x = .nan) → Exempt b

/-- A block with a count gives a loop of as many passes as are made of the
    count, and complains of what had to be changed for that. -/
theorem count_spec (h : b.count? = some raw) (body : Program) :
    b.yield t body
        = [.repeatTimes (.num ((countDomain (sourceName b.kind)).coerce
            t.ceiling raw).1) body]
      ∧ ∀ problem,
          ((countDomain (sourceName b.kind)).coerce t.ceiling raw).2
            = some problem →
          .field ⟨"repeat-n", "count", raw, .num ((countDomain
            (sourceName b.kind)).coerce t.ceiling raw).1, problem⟩
              ∈ b.complaints t := by
  unfold count? at h
  split at h
  · rename_i fields hresolve
    obtain rfl := Option.some.inj h
    have hknown : b.known? t = some (.repeatTimes, coerceFields "repeat-n"
        (Domains.of (some .repeatTimes) (sourceName b.kind)) t.ceiling
        fields) := by
      unfold known?
      rw [hresolve]
      rfl
    have hlookup := domain_count_eq (sourceName b.kind)
    constructor
    · unfold yield
      rw [hknown]
      show [Instruction.repeatTimes (((coerceFields _ _ _ _).values.get?
        "count").getD .null) body] = _
      rw [coerceFields_field fields hlookup]
      rfl
    · intro problem hproblem
      have hname : sourceName b.kind ≠ placeholderKind := by
        intro hplaceholder
        rw [resolve?_placeholder b.fields hplaceholder] at hresolve
        cases hresolve
      refine List.mem_append_left _ ?_
      unfold complaintsBefore
      rw [if_neg hname, hknown]
      exact List.mem_append_right _ (List.mem_map_of_mem
        (coerceFields_complains hlookup hproblem))
  · cases h

/-- What a loop without a count yields, and what other blocks yield, has no
    loops with counts but those in the body. -/
theorem yield_uncounted (ht : t.ceiling = .int n) (h : b.count? = none)
    {Counted : Int → Prop} {body : Program}
    (hbody : EveryOf (Loop n Counted) body) :
    EveryOf (Loop n Counted) (b.yield t body) := by
  unfold count? at h
  unfold yield known?
  cases hresolve : resolve? b.kind b.fields with
  | none => trivial
  | some r =>
      obtain ⟨kind, fields⟩ := r
      rw [hresolve] at h
      dsimp only [Option.map_some]
      cases kind with
      | repeatTimes => cases h
      | start => exact hbody
      | repeatForever => exact ⟨⟨ht, hbody⟩, trivial⟩
      | ifGoalReached => exact ⟨⟨trivial, hbody⟩, trivial⟩
      | ifCondition =>
          unfold instructionsOf
          dsimp only
          split
          · exact ⟨⟨trivial, hbody⟩, trivial⟩
          · exact hbody
          · trivial
      | turn =>
          unfold instructionsOf
          dsimp only
          split <;> exact ⟨trivial, trivial⟩
      | _ => exact ⟨trivial, trivial⟩

/-- The loops that a block yields are its own and those in its body. -/
theorem yield_loop (ht : t.ceiling = .int n) (hn : 1 ≤ n)
    {Counted : Int → Prop} (hcounted : ∀ k, b.Loops t k → Counted k)
    {body : Program} (hbody : EveryOf (Loop n Counted) body) :
    EveryOf (Loop n Counted) (b.yield t body) := by
  cases h : b.count? with
  | none => exact yield_uncounted ht h hbody
  | some raw =>
      obtain ⟨k, hk, -⟩ :=
        NumberDomain.coerce_count hn (sourceName b.kind) raw
      have hyield : ∀ body, b.yield t body = [.repeatTimes (.int k) body] := by
        intro body
        rw [(count_spec h body).1, ht, hk]
        rfl
      rw [hyield]
      exact ⟨⟨⟨k, rfl, hcounted k (hyield [])⟩, hbody⟩, trivial⟩

/-- A loop has a count from one to the ceiling, unless it is exempt from
    that. -/
theorem Loops.bounds (ht : t.ceiling = .int n) (hn : 1 ≤ n)
    (h : b.Loops t k) : 1 ≤ k ∧ (k ≤ n ∨ k ≤ 50 ∧ b.Exempt) := by
  cases hcount : b.count? with
  | none =>
      -- nothing that counts is yielded without a count
      have hno : EveryOf (Loop n fun _ => False) (b.yield t []) :=
        yield_uncounted ht hcount trivial
      rw [h] at hno
      obtain ⟨-, -, hno⟩ := hno.1.1
      exact hno.elim
  | some raw =>
      obtain ⟨j, hj, hpos, hle⟩ :=
        NumberDomain.coerce_count hn (sourceName b.kind) raw
      have hyield := (count_spec (t := t) hcount []).1
      rw [ht, hj, h] at hyield
      cases hyield
      refine ⟨hpos, ?_⟩
      rcases hle with hle | ⟨hle, hunread⟩
      · unfold greatestCount at hle
        split at hle
        · exact .inr ⟨hle, .ownRange ‹_›⟩
        · exact .inl hle
      · exact .inr ⟨by omega, .unread hcount hunread⟩

/-- Whether a value is read as a count above a limit: as a measure above
    it, which whole counts are if the limit has no more than 53 bits. -/
inductive Overruns (limit : Int) : Value → Prop
  | measured {raw : Value} {x : Scalar} : NumberDomain.read? raw = some x →
      (Scalar.finite limit).lt x = true → Overruns limit raw
  | whole {k : Int} : limit < k → limit < 2 ^ 53 → Overruns limit (.int k)

/-- A loop whose count is above the greatest one is complained of. -/
theorem overrun_complaint (ht : t.ceiling = .int n) (hn : 1 ≤ n)
    (h : b.count? = some raw)
    (hover : Overruns (greatestCount n (sourceName b.kind)) raw) :
    .field ⟨"repeat-n", "count", raw,
        .int (greatestCount n (sourceName b.kind)),
        .above raw (.int (greatestCount n (sourceName b.kind)))⟩
      ∈ b.complaints t := by
  obtain ⟨x, hread, hx⟩ : ∃ x, NumberDomain.read? raw = some x
      ∧ (Scalar.finite (greatestCount n (sourceName b.kind))).lt x
        = true := by
    cases hover with
    | measured hread hx => exact ⟨_, hread, hx⟩
    | whole hlt hbits =>
        have hpos := greatestCount_pos hn (sourceName b.kind)
        exact ⟨_, rfl, Binary64.nearest_above (by omega) hlt hbits⟩
  have hcoerce := NumberDomain.coerce_overrun hn hread hx
  have hcomplaint := (count_spec (t := t) h []).2
  rw [ht, hcoerce] at hcomplaint
  exact hcomplaint _ rfl

end Block

/-! ## Compiled programs -/

section Compiled

variable {t : Target} {P : Instruction → Prop}

/-- What holds of all instructions of single blocks holds of all that blocks
    in order give. -/
theorem compileBlocks_everyOf {bs : List Block}
    (h : ∀ b ∈ bs, EveryOf P (compileBlock t [] b).program) (i : Nat) :
    EveryOf P (compileBlocks t [] i bs).program := by
  induction bs generalizing i with
  | nil => trivial
  | cons b bs ih =>
      obtain ⟨hb, hbs⟩ := List.forall_mem_cons.1 h
      rw [compileBlocks, compileBlock_within]
      refine everyOf_iff.2 fun x hx => ?_
      rcases List.mem_append.1 hx with hx | hx
      · exact everyOf_iff.1 hb x hx
      · exact everyOf_iff.1 (ih hbs (i + 1)) x hx

/-- What holds of all that the blocks below a block yield, if it holds of
    what they yield it from, holds of all that the block compiles to. -/
theorem compileBlock_everyOf (b : Block)
    (h : ∀ place x, itemBelow? Block.inside b place = some x →
      ∀ body, EveryOf P body → EveryOf P (x.yield t body)) :
    EveryOf P (compileBlock t [] b).program := by
  induction b using Block.induct with
  | step kind fields body ih =>
      rw [compileBlock_eq]
      -- the block yields from its body, whose blocks stand further in
      refine h [] _ rfl _ (compileBlocks_everyOf (fun x hx => ?_) 0)
      obtain ⟨i, hi⟩ := List.mem_iff_getElem?.1 hx
      refine ih x (Block.mem_body hx) fun place y hy => ?_
      exact h (i :: place) y (Option.bind_eq_some_iff.2 ⟨x, hi, hy⟩)

/-- So it is with the blocks of a forest. -/
theorem compileForest_everyOf {bs : List Block}
    (h : ∀ place b, itemAt? Block.inside bs place = some b →
      ∀ body, EveryOf P body → EveryOf P (b.yield t body)) :
    EveryOf P (compileForest t bs).program := by
  refine compileBlocks_everyOf (fun b hb => ?_) 0
  obtain ⟨i, hi⟩ := List.mem_iff_getElem?.1 hb
  refine compileBlock_everyOf b fun place x hx => ?_
  exact h (i :: place) x (Option.bind_eq_some_iff.2 ⟨b, hi, hx⟩)

end Compiled

/-- Whether an item stands at a place of a written forest and is compiled
    with it. -/
def Value.Visits (source : Value) (place : Path) (v : Value) : Prop :=
  ∃ items, sourceItems? source = some items
    ∧ itemAt? visitedItems items place = some v

variable {t : Target} {n : Int} {source : Value} {compiled : Compiled}

/-- A forest compiles to what the list of its items compiles to. -/
theorem compileSource_items {items : List Value}
    (hitems : sourceItems? source = some items) :
    compileSource t source = compileSource t (.list items) := by
  unfold compileSource
  rw [hitems]
  rfl

/-- The loops of a compiled program are those of the items it was compiled
    from. -/
theorem compileSource_loops (ht : t.ceiling = .int n) (hn : 1 ≤ n)
    (h : compileSource t source = .ok compiled) {Counted : Int → Prop}
    (hcounted : ∀ place v k, source.Visits place v →
      v.readBlock.Loops t k → Counted k) :
    EveryOf (Loop n Counted) compiled.program := by
  unfold Value.Visits at hcounted
  cases hitems : sourceItems? source with
  | none =>
      unfold compileSource at h
      rw [hitems] at h
      cases h
      trivial
  | some items =>
      rw [compileSource_items hitems] at h
      obtain ⟨-, hprogram, -⟩ := compileSource_list h
      rw [hprogram]
      refine compileForest_everyOf fun place b hb body hbody => ?_
      rw [itemAt?_map readBlock_inside] at hb
      obtain ⟨v, hv, rfl⟩ := Option.map_eq_some_iff.1 hb
      exact Block.yield_loop ht hn
        (fun k => hcounted place v k ⟨items, hitems, hv⟩) hbody

/-- A visited loop whose count is above the greatest one is warned of at its
    place. -/
theorem compileSource_overrun (ht : t.ceiling = .int n) (hn : 1 ≤ n)
    (h : compileSource t source = .ok compiled) {place : Path} {v raw : Value}
    (hv : source.Visits place v) (hcount : v.readBlock.count? = some raw)
    (hover : Block.Overruns (greatestCount n (sourceName v.readBlock.kind))
      raw) :
    ∃ w ∈ compiled.warnings, w.path = place ∧ w.code = "INVALID_FIELD_VALUE"
      ∧ w.complaint.details = some [("field", .str "count"), ("value", raw),
        ("coerced",
          .int (greatestCount n (sourceName v.readBlock.kind)))] := by
  obtain ⟨items, hitems, hv⟩ := hv
  rw [compileSource_items hitems] at h
  have hcomplaint := Block.overrun_complaint ht hn hcount hover
  exact ⟨⟨place, _⟩, (mem_compileSource_iff h _).2 (.inr ⟨v, hv, hcomplaint⟩),
    rfl, rfl, rfl⟩

/-! ## The guard -/

/-- A loop with a count up to the ceiling is not cut short. -/
theorem Act.isCut_held {n : Int} {act : Act}
    (h : act.Every (Loop n fun k => 0 ≤ k ∧ k ≤ n)) (hn : 0 ≤ n) :
    act.isCut (.int n) = false := by
  have hcuts : ∀ k : Int, 0 ≤ k → k ≤ n →
      isCut.cuts (.int n) (.int k) = false := by
    intro k hk hle
    unfold isCut.cuts
    rw [grant_int, if_neg (Int.not_lt.2 hk), if_neg (Int.not_lt.2 hle)]
  cases act with
  | perform i =>
      cases i with
      | repeatTimes v body =>
          obtain ⟨k, rfl, hk, hle⟩ := h.1
          exact hcuts k hk hle
      | repeatBounded v body =>
          obtain rfl : v = .int n := h.1
          exact hcuts n hn le_rfl
      | _ => rfl
  | _ => rfl

/-- On no journey of a program whose loops have counts up to the ceiling is
    a loop cut short. -/
theorem Solo.Journey.uncut [Arithmetic] {s : Scene} {o : Observer}
    {p : Program} {a : Agent} {running : Bool} {q : Solo} {n : Int}
    (hs : s.ceiling = .int n) (hn : 0 ≤ n)
    (hp : EveryOf (Loop n fun k => 0 ≤ k ∧ k ≤ n) p)
    (h : Journey s o (Solo.start p a running) q) :
    q.walker.truncations = 0
      ∧ Act.EveryOf (Loop n fun k => 0 ≤ k ∧ k ≤ n) q.walker.todo := by
  induction h with
  | starts => exact ⟨rfl, Walker.start_everyOf hp⟩
  | flagged _ _ ih => exact ih
  | later _ _ ih => exact ih
  | @acts q _ hnone ih =>
      obtain ⟨hcut, hevery⟩ := ih
      obtain ⟨-, hwalker, -⟩ := step_spec (s := s) (o := o) hnone
      rw [hwalker]
      refine ⟨?_, Walker.step_everyOf hevery⟩
      cases htodo : q.walker.todo with
      | nil =>
          have hnext : (q.next s).walker = q.walker := by
            unfold next Walker.step
            rw [htodo]
          rw [hnext, hcut]
      | cons act rest =>
          have hact := (Act.everyOf_cons.1 (htodo ▸ hevery)).1
          have hstep : (q.next s).walker.truncations
              = q.walker.truncations + if act.isCut s.ceiling then 1 else 0 :=
            Walker.step_truncations _ act htodo
          rw [hstep, hcut, hs, Act.isCut_held hact hn]
          rfl

/-- Of whatever can be compiled under a ceiling from one on:

    Every loop is that of an item, and has a count from one to the ceiling
    unless it is exempt, in which case its count is at most fifty.  A count
    above the greatest one of its name is warned of at the place of the
    loop.  If the exempt loops have counts up to the ceiling as well, no
    loop is ever cut short, whoever runs the program. -/
theorem compileSource_ceiling [Arithmetic] (c : Config)
    (hc : c.loopCeiling = .int n) (hn : 1 ≤ n)
    (h : compileSource c.target source = .ok compiled) :
    EveryOf (Loop n fun k => ∃ place v, source.Visits place v
        ∧ v.readBlock.Loops c.target k) compiled.program
      ∧ (∀ place v, source.Visits place v →
        (∀ k, v.readBlock.Loops c.target k →
            1 ≤ k ∧ (k ≤ n ∨ k ≤ 50 ∧ v.readBlock.Exempt))
          ∧ ∀ raw, v.readBlock.count? = some raw →
            Block.Overruns (greatestCount n (sourceName v.readBlock.kind))
              raw →
            ∃ w ∈ compiled.warnings, w.path = place
              ∧ w.code = "INVALID_FIELD_VALUE"
              ∧ w.complaint.details = some [("field", .str "count"),
                ("value", raw), ("coerced",
                  .int (greatestCount n (sourceName v.readBlock.kind)))])
      ∧ ((∀ place v k, source.Visits place v → v.readBlock.Exempt →
            v.readBlock.Loops c.target k → k ≤ n) →
          ∀ (s : Scene), s.ceiling = c.loopCeiling →
            ∀ (o : Observer) (a : Agent) (running : Bool) (q : Solo),
              Solo.Journey s o (Solo.start compiled.program a running) q →
                q.walker.truncations = 0) := by
  have ht : c.target.ceiling = .int n := hc
  refine ⟨?_, fun place v hv => ⟨fun k hk => hk.bounds ht hn, ?_⟩, ?_⟩
  · exact compileSource_loops ht hn h fun place v k hv hk => ⟨place, v, hv, hk⟩
  · exact fun raw hcount hover => compileSource_overrun ht hn h hv hcount hover
  · intro hexempt s hs o a running q hq
    -- then no loop of the program is exempt from the ceiling
    have hheld : EveryOf (Loop n fun k => 0 ≤ k ∧ k ≤ n) compiled.program := by
      refine compileSource_loops ht hn h fun place v k hv hk => ?_
      obtain ⟨hpos, hle⟩ := hk.bounds ht hn
      rcases hle with hle | ⟨-, hown⟩
      · exact ⟨by omega, hle⟩
      · exact ⟨by omega, hexempt place v k hv hown hk⟩
    exact (hq.uncut (hs.trans hc) (by omega) hheld).1

attribute [local instance] Arithmetic.binary64

/-- Settings with a ceiling. -/
def Config.under (n : Int) : Config :=
  { Config.standard with loopCeiling := .int n }

/-- A loop with a measureless count, around one with a range of its own that
    asks for more than that, around one without a count. -/
def greedyLoops : Value :=
  .list [.object [("kind", .str "kontrol_ulangi"),
    ("fields", .object [("TIMES", .str " 1e400 ")]),
    ("body", .list [.object [("kind", .str ownRangeName),
      ("fields", .object [("N", .int 80)]),
      ("body", .list [.object [("kind", .str "repeat-n"),
        ("body", .list [.object [("kind", .str "move")]])]])]])]]

/-- Under a ceiling of sixty the first two are warned of, and a run cuts none
    of the three short. -/
theorem compileSource_ceiling_greedy :
    (Config.under 60).loopCeiling = .int 60 ∧ (1 : Int) ≤ 60
      ∧ ∃ compiled,
        compileSource (Config.under 60).target greedyLoops = .ok compiled
          ∧ compiled.warnings.map (fun w => (w.path.text, w.message))
            = [("0", "repeat-n.count: ' 1e400 ' above maximum 60"),
              ("0/body/0", "repeat-n.count: 80 above maximum 50")]
          ∧ ∀ k a, (Solo.run ⟨Config.under 60, none, .int 60⟩ (.quiet .present) k
            (.start compiled.program a true)).walker.truncations = 0 := by
  refine ⟨rfl, by decide, ?_⟩
  have hwarnings : (compileSource (Config.under 60).target
      greedyLoops).toOption.map
        (fun compiled => compiled.warnings.map
          fun w => (w.path.text, w.message))
      = some [("0", "repeat-n.count: ' 1e400 ' above maximum 60"),
        ("0/body/0", "repeat-n.count: 80 above maximum 50")] := by
    decide +kernel
  cases h : compileSource (Config.under 60).target greedyLoops with
  | error f =>
      rw [h] at hwarnings
      cases hwarnings
  | ok compiled =>
      rw [h] at hwarnings
      refine ⟨compiled, rfl, Option.some.inj hwarnings, fun k a => ?_⟩
      obtain ⟨-, hloops, huncut⟩ :=
        compileSource_ceiling (n := 60) (Config.under 60) rfl (by decide) h
      refine huncut (fun place v k hv _ hk => ?_) _ rfl _ a true _ (.run k)
      obtain ⟨-, hle | ⟨hle, -⟩⟩ := (hloops place v hv).1 k hk
      · exact hle
      · omega

/-- A loop of thirty passes with a range of its own. -/
def thirtyPasses : Value :=
  .list [.object [("kind", .str ownRangeName),
    ("fields", .object [("N", .int 30)]), ("body", .list [])]]

/-- Under a ceiling of ten it compiles to a loop of thirty passes without a
    warning, and the run cuts it short. -/
theorem compileSource_ceiling_thirty :
    compileSource (Config.under 10).target thirtyPasses
        = .ok ⟨[.repeatTimes (.int 30) []], []⟩
      ∧ ¬ EveryOf (Loop 10 fun k => 1 ≤ k ∧ k ≤ 10)
        [.repeatTimes (.int 30) []]
      ∧ (Solo.run ⟨Config.under 10, none, .int 10⟩ (.quiet .present) 3
        (.start [.repeatTimes (.int 30) []]
          (.atStart (.str "a") [.int 0, .int 0] 90) true)).walker.truncations = 1 := by
  refine ⟨rfl, ?_, ?_⟩
  · rintro ⟨⟨⟨k, hk, -, hle⟩, -⟩, -⟩
    cases hk
    exact absurd hle (by decide)
  · decide +kernel

end BlockStage
