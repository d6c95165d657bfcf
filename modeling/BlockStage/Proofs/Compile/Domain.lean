import BlockStage.Compile.Forest
import BlockStage.Proofs.Number.Order
import BlockStage.Proofs.Number.Rounding
import BlockStage.Proofs.Run.Every
import BlockStage.Session.World

/-! # Domains — every compiled instruction can be used

    Whatever stands in a field, its coerced value lies in the domain of the
    field: a default, or a value between the bounds (`coerce_whole`,
    `coerce_wait`, `coerceText_length`).  The domains of a kind keep their
    ranges under every editor name, and so the operands of all compiled
    instructions lie in fixed ranges (`compileBlocks_inDomain`). -/

namespace BlockStage

/-! ## Measures between bounds -/

namespace Scalar

variable {x : Scalar} {low high : Int}

/-- A measure that is neither below one count nor above another has a value
    between the two. -/
theorem value_between (hx : x ≠ nan) (hlow : x.lt (finite low) = false)
    (hhigh : (finite high).lt x = false) :
    low ≤ x.value ∧ x.value ≤ high := by
  have hfinite : x.isFinite = true →
      (low : Rat) ≤ x.value ∧ x.value ≤ high := by
    intro hfin
    constructor
    · by_contra hlt
      rw [(lt_iff hfin (y := finite low) rfl).2 (not_le.1 hlt)] at hlow
      cases hlow
    · by_contra hlt
      rw [(lt_iff (x := finite high) rfl hfin).2 (not_le.1 hlt)] at hhigh
      cases hhigh
  cases x with
  | finite q => exact hfinite rfl
  | negZero => exact hfinite rfl
  | inf negative => cases negative <;> contradiction
  | nan => exact absurd rfl hx

/-- Of two measures one is below the other or they are in the other
    order. -/
theorem le_of_not_lt {y : Scalar} (hx : x ≠ nan) (hy : y ≠ nan)
    (h : x.lt y = false) : y.le x = true := by
  have hfinite : x.isFinite = true → y.isFinite = true →
      y.le x = true := by
    intro hxf hyf
    refine (le_iff hyf hxf).2 (not_lt.1 fun hlt => ?_)
    rw [(lt_iff hxf hyf).2 hlt] at h
    cases h
  cases x with
  | nan => exact absurd rfl hx
  | inf a =>
      cases y with
      | nan => exact absurd rfl hy
      | inf b => cases a <;> cases b <;> first | rfl | contradiction
      | finite q => cases a <;> first | rfl | contradiction
      | negZero => cases a <;> first | rfl | contradiction
  | finite q =>
      cases y with
      | nan => exact absurd rfl hy
      | inf b => cases b <;> first | rfl | contradiction
      | finite r => exact hfinite rfl rfl
      | negZero => exact hfinite rfl rfl
  | negZero =>
      cases y with
      | nan => exact absurd rfl hy
      | inf b => cases b <;> first | rfl | contradiction
      | finite r => exact hfinite rfl rfl
      | negZero => exact hfinite rfl rfl

end Scalar

/-! ## Numbers in their domains -/

namespace NumberDomain

variable {d : NumberDomain}

/-- A coerced number is the default, or a measure that was brought between
    the bounds and settled. -/
theorem coerce_cases (d : NumberDomain) (ceiling raw : Value) :
    (d.coerce ceiling raw).1 = d.default
      ∨ ∃ x, x ≠ .nan
        ∧ d.coerce ceiling raw = d.settle raw (d.bound ceiling raw x) := by
  unfold coerce
  split
  · exact .inl rfl
  · split
    · exact .inl rfl
    · exact .inl rfl
    · rename_i x hx _
      exact .inr ⟨x, hx, rfl⟩

/-- A measure brought between bounds is the least value, the greatest
    value, or the measure itself, which then lies beyond neither. -/
theorem bound_cases (d : NumberDomain) (ceiling raw : Value) (x : Scalar) :
    (d.bound ceiling raw x).1 = d.minimum
      ∨ (d.limit ceiling).number? = some (d.bound ceiling raw x).1
      ∨ (d.bound ceiling raw x).1 = .real x
        ∧ (Num.real x).lt d.minimum = false
        ∧ ∀ n, (d.limit ceiling).number? = some n →
            n.lt (.real x) = false := by
  unfold bound
  split
  · exact .inl rfl
  · rename_i hlow
    split
    · rename_i n hn
      exact .inr (.inl (Option.filter_eq_some_iff.1 hn).1)
    · rename_i hnone
      refine .inr (.inr ⟨rfl, Bool.eq_false_iff.2 hlow, fun n hn => ?_⟩)
      have hnot := Option.filter_eq_none_iff.1 hnone n hn
      exact Bool.eq_false_iff.2 hnot

/-- A measure that is settled in a field of whole values becomes a count
    between the bounds. -/
theorem settle_whole {ceiling : Value} (raw : Value) {low high : Int}
    (hwhole : d.whole = true)
    (hlow : d.minimum = .int low)
    (hhigh : (d.limit ceiling).number? = some (.int high))
    (hle : low ≤ high) {x : Scalar} (hx : x ≠ .nan) :
    ∃ k : Int, (d.settle raw (d.bound ceiling raw x)).1 = .int k
      ∧ low ≤ k ∧ k ≤ high := by
  have hsettle : (d.settle raw (d.bound ceiling raw x)).1
      = .int (nearestWhole (d.bound ceiling raw x).1) := by
    unfold settle
    rw [if_pos hwhole]
  rw [hsettle]
  refine ⟨_, rfl, ?_⟩
  have hcount : ∀ n : Int, nearestWhole (.int n) = n := roundEven_int
  rcases d.bound_cases ceiling raw x with h | h | ⟨h, hmin, hmax⟩
  · rw [h, hlow, hcount]
    exact ⟨le_rfl, hle⟩
  · rw [hhigh] at h
    rw [← Option.some.inj h, hcount]
    exact ⟨hle, le_rfl⟩
  · rw [h]
    rw [hlow] at hmin
    obtain ⟨hl, hh⟩ := Scalar.value_between hx hmin (hmax _ hhigh)
    exact roundEven_between hl hh

/-- A coerced number of a field of whole values is the default or a count
    between the bounds. -/
theorem coerce_whole {ceiling : Value} (raw : Value) {low high : Int}
    (hwhole : d.whole = true)
    (hlow : d.minimum = .int low)
    (hhigh : (d.limit ceiling).number? = some (.int high))
    (hle : low ≤ high) :
    (d.coerce ceiling raw).1 = d.default
      ∨ ∃ k : Int, (d.coerce ceiling raw).1 = .int k ∧ low ≤ k ∧ k ≤ high := by
  rcases d.coerce_cases ceiling raw with h | ⟨x, hx, h⟩
  · exact .inl h
  · right
    rw [h]
    exact settle_whole raw hwhole hlow hhigh hle hx

/-- A coerced number of a field of measures is the default or a number
    between the bounds. -/
theorem coerce_measured (ceiling raw : Value) {n : Num}
    (hwhole : d.whole = false)
    (hmin : d.minimum.exact ≠ .nan) (hhigh : (d.limit ceiling).number? = some n)
    (hmax : n.exact ≠ .nan) (hle : d.minimum.le n = true)
    (hself : d.minimum.le d.minimum = true ∧ n.le n = true) :
    (d.coerce ceiling raw).1 = d.default
      ∨ d.minimum.le (d.coerce ceiling raw).1 = true
        ∧ (d.coerce ceiling raw).1.le n = true := by
  rcases d.coerce_cases ceiling raw with h | ⟨x, hx, h⟩
  · exact .inl h
  · right
    have hsettle : (d.settle raw (d.bound ceiling raw x)).1
        = (d.bound ceiling raw x).1 := by
      unfold settle
      rw [if_neg (by rw [hwhole]; exact Bool.false_ne_true)]
    rw [h, hsettle]
    rcases d.bound_cases ceiling raw x with h | h | ⟨h, hlow, hup⟩
    · rw [h]
      exact ⟨hself.1, hle⟩
    · rw [hhigh] at h
      rw [← Option.some.inj h]
      exact ⟨hle, hself.2⟩
    · rw [h]
      exact ⟨Scalar.le_of_not_lt hx hmin hlow,
        Scalar.le_of_not_lt hmax hx (hup n hhigh)⟩

/-- A coerced wait lies between the shortest and ten seconds. -/
theorem coerce_wait (ceiling raw : Value) :
    shortestWait.le
        (coerce ⟨shortestWait, some 10, 1, false⟩ ceiling raw).1 = true
      ∧ (coerce ⟨shortestWait, some 10, 1, false⟩ ceiling raw).1.le 10
        = true := by
  have hmeasured := coerce_measured (d := ⟨shortestWait, some 10, 1, false⟩)
    ceiling raw rfl (by decide +kernel) rfl (by decide +kernel)
    (by decide +kernel) (by decide +kernel)
  rcases hmeasured with h | h
  · rw [h]
    decide +kernel
  · exact h

end NumberDomain

/-! ## Fields in their domains -/

namespace Domain

variable {d : Domain} {ceiling : Value}

/-- A domain of whole values with default and bounds within a range. -/
def WholeWithin (ceiling : Value) (low high : Int) (d : Domain) : Prop :=
  ∃ (l h dflt : Int) (maximum : Option Num),
    d = .number ⟨.int l, maximum, .int dflt, true⟩
      ∧ ((maximum.map Value.num).getD ceiling).number? = some (.int h)
      ∧ low ≤ l ∧ l ≤ h ∧ h ≤ high ∧ low ≤ dflt ∧ dflt ≤ high

/-- Whatever stands in such a field becomes a count of the range. -/
theorem WholeWithin.coerce {low high : Int}
    (h : WholeWithin ceiling low high d) (raw : Value) :
    ∃ k : Int, (d.coerce ceiling raw).1 = .int k ∧ low ≤ k ∧ k ≤ high := by
  obtain ⟨l, h, dflt, maximum, rfl, hmax, hl, hle, hh, hd, hd'⟩ := h
  rcases NumberDomain.coerce_whole
      (d := ⟨.int l, maximum, .int dflt, true⟩) raw rfl rfl hmax hle with
    heq | ⟨k, heq, hk, hk'⟩
  · exact ⟨dflt, congrArg Value.num heq, hd, hd'⟩
  · exact ⟨k, congrArg Value.num heq, hl.trans hk, hk'.trans hh⟩

/-- A coerced text is no longer than its limit. -/
theorem coerceText_length {default : String} {limit : Nat}
    (h : default.length ≤ limit) (raw : Value) :
    (coerceText default limit raw).1.length ≤ limit := by
  have hcut : ∀ s : String,
      (if limit < s.length then (String.ofList (s.toList.take limit),
          some (FieldProblem.tooLong limit))
        else (s, none)).1.length ≤ limit := by
    intro s
    split
    · simp
    · rename_i hshort
      exact not_lt.1 hshort
  unfold coerceText
  split
  · exact h
  · exact hcut _

end Domain

/-- A coerced field has the value that its domain makes of what was
    written. -/
theorem coerceFields_get? (kind : String) (ds : Domains) (ceiling : Value)
    (fields : Members) (name : String) :
    (coerceFields kind ds ceiling fields).values.get? name
      = (ds.lookup name).map fun d =>
          (d.coerce ceiling ((fields.get? name).getD .null)).1 := by
  induction ds with
  | nil => rfl
  | cons d ds ih =>
      obtain ⟨own, d⟩ := d
      unfold Members.get? at ih ⊢
      by_cases h : own = name
      · subst h
        simp [coerceFields, Members.get?]
      · have hne : (name == own) = false := beq_false_of_ne (Ne.symm h)
        simp [coerceFields, h, List.lookup_cons, hne, ih, Members.get?]

/-- What is looked up under a name stands in the list under that name. -/
theorem mem_of_lookup {α : Type} {ps : List (String × α)} {name : String}
    {x : α} (h : ps.lookup name = some x) : (name, x) ∈ ps := by
  obtain ⟨before, after, rfl, -⟩ := List.lookup_eq_some_iff.1 h
  simp

/-- The domains of a kind are its own, or those with the ranges of an
    editor name put in. -/
theorem Domains.of_eq (k : Kind) (source : String) :
    ∃ own ∈ [] :: editorDomains.map (·.2),
      Domains.of (some k) source = k.domains.replace own := by
  unfold Domains.of
  cases h : editorDomains.lookup source with
  | none =>
      refine ⟨[], List.mem_cons_self .., ?_⟩
      simp [Domains.replace]
  | some own =>
      exact ⟨own, List.mem_cons_of_mem _
        (List.mem_map_of_mem (mem_of_lookup h)), rfl⟩

/-- What holds of the domains of a kind and stays true under the ranges of
    every editor name holds under any name. -/
theorem Domains.of_holds {P : Domains → Prop} (k : Kind) (source : String)
    (h : ∀ own ∈ [] :: editorDomains.map (·.2), P (k.domains.replace own)) :
    P (Domains.of (some k) source) := by
  obtain ⟨own, hown, heq⟩ := Domains.of_eq k source
  rw [heq]
  exact h own hown

section Ranges

variable (ceiling : Value) (source : String)

/-- Distances lie between one and a hundred. -/
theorem domain_distance :
    ∃ d, (Domains.of (some .move) source).lookup "distance" = some d
      ∧ d.WholeWithin ceiling 1 100 := by
  obtain ⟨own, hown, heq⟩ := Domains.of_eq .move source
  rw [heq]
  simp only [editorDomains, List.map_cons, List.map_nil, List.mem_cons,
    List.not_mem_nil, or_false] at hown
  rcases hown with rfl | rfl | rfl | rfl | rfl | rfl <;>
    exact ⟨_, rfl, _, _, _, _, rfl, rfl, by decide⟩

/-- Degrees lie between one and a full turn. -/
theorem domain_degrees :
    ∃ d, (Domains.of (some .turn) source).lookup "degrees" = some d
      ∧ d.WholeWithin ceiling 1 360 := by
  obtain ⟨own, hown, heq⟩ := Domains.of_eq .turn source
  rw [heq]
  simp only [editorDomains, List.map_cons, List.map_nil, List.mem_cons,
    List.not_mem_nil, or_false] at hown
  rcases hown with rfl | rfl | rfl | rfl | rfl | rfl <;>
    exact ⟨_, rfl, _, _, _, _, rfl, rfl, by decide⟩

/-- Counts of passes lie between one and the ceiling, or fifty if that is
    more. -/
theorem domain_count {n : Int} (hc : ceiling.number? = some (.int n))
    (hn : 1 ≤ n) :
    ∃ d, (Domains.of (some .repeatTimes) source).lookup "count" = some d
      ∧ d.WholeWithin ceiling 1 (max n 50) := by
  obtain ⟨own, hown, heq⟩ := Domains.of_eq .repeatTimes source
  rw [heq]
  simp only [editorDomains, List.map_cons, List.map_nil, List.mem_cons,
    List.not_mem_nil, or_false] at hown
  rcases hown with rfl | rfl | rfl | rfl | rfl | rfl
  case inr.inr.inr.inr.inr =>
    exact ⟨_, rfl, _, _, _, _, rfl, rfl, by omega⟩
  all_goals exact ⟨_, rfl, _, _, _, _, rfl, hc, by omega⟩

/-- Waits have the domain of their kind. -/
theorem domain_seconds :
    (Domains.of (some .wait) source).lookup "seconds"
      = some (.number ⟨shortestWait, some 10, 1, false⟩) := by
  obtain ⟨own, hown, heq⟩ := Domains.of_eq .wait source
  rw [heq]
  simp only [editorDomains, List.map_cons, List.map_nil, List.mem_cons,
    List.not_mem_nil, or_false] at hown
  rcases hown with rfl | rfl | rfl | rfl | rfl | rfl <;> rfl

/-- Texts have the domain of their kind. -/
theorem domain_text :
    (Domains.of (some .say) source).lookup "text"
      = some (.text "Selesai" 200) := by
  obtain ⟨own, hown, heq⟩ := Domains.of_eq .say source
  rw [heq]
  simp only [editorDomains, List.map_cons, List.map_nil, List.mem_cons,
    List.not_mem_nil, or_false] at hown
  rcases hown with rfl | rfl | rfl | rfl | rfl | rfl <;> rfl

end Ranges

/-! ## Turns on the grid -/

/-- A turn brought to quarter turns is one to four of them. -/
theorem quarterTurn_mem {d : Int} (hlow : 1 ≤ d) (hhigh : d ≤ 360) :
    quarterTurn d ∈ [90, 180, 270, 360] := by
  have hl : (1 : Rat) ≤ d := by exact_mod_cast hlow
  have hh : (d : Rat) ≤ 360 := by exact_mod_cast hhigh
  obtain ⟨hzero, hfour⟩ : 0 ≤ roundEven ((d : Rat) / 90)
      ∧ roundEven ((d : Rat) / 90) ≤ 4 := by
    refine roundEven_between ?_ ?_
    · push_cast
      linarith
    · push_cast
      linarith
  unfold quarterTurn
  simp only [List.mem_cons, List.not_mem_nil, or_false]
  omega

/-! ## Instructions in their domains -/

/-- A turn: a count of degrees up to a full turn, on the grid a count of
    quarter turns. -/
def Value.IsTurn (t : Target) (v : Value) : Prop :=
  ∃ d : Int, v = .int d ∧ 1 ≤ d ∧ d ≤ 360
    ∧ (t.quarterTurns = true → d ∈ [90, 180, 270, 360])

namespace Instruction

/-- Whether the operand of an instruction lies in its domain, for loops
    that end after `n` passes at the latest. -/
def InDomain (t : Target) (n : Int) : Instruction → Prop
  | move v => ∃ d : Int, v = .int d ∧ 1 ≤ d ∧ d ≤ 100
  | turnRight v => v.IsTurn t
  | turnLeft v => v.IsTurn t
  | wait v => ∃ m : Num, v = .num m ∧ shortestWait.le m = true
      ∧ m.le 10 = true
  | say v => ∃ s : String, v = .str s ∧ s.length ≤ 200
  | repeatTimes v _ => ∃ k : Int, v = .int k ∧ 1 ≤ k ∧ k ≤ max n 50
  | repeatBounded v _ => v = t.ceiling
  | ifGoalReached _ => True
  | foreign _ => False

end Instruction

open Instruction

variable {t : Target} {n : Int}

/-- The degrees of a compiled turn make a turn. -/
theorem turnDegrees_isTurn (path : Path) {d : Int} (hlow : 1 ≤ d)
    (hhigh : d ≤ 360) : (turnDegrees t path (.int d)).1.IsTurn t := by
  show Value.IsTurn t (if ¬ t.quarterTurns = true ∨ d % 90 = 0 then
      ((.int d : Value), ([] : List Warning))
    else (.int (quarterTurn d),
      [⟨path, .turnSnapped d (quarterTurn d)⟩])).1
  split
  · rename_i hkept
    refine ⟨d, rfl, hlow, hhigh, fun hquarter => ?_⟩
    have hmod := hkept.resolve_left (not_not.2 hquarter)
    simp only [List.mem_cons, List.not_mem_nil, or_false]
    omega
  · have hmem := quarterTurn_mem hlow hhigh
    refine ⟨quarterTurn d, rfl, ?_, ?_, fun _ => hmem⟩ <;>
      · simp only [List.mem_cons, List.not_mem_nil, or_false] at hmem
        omega

/-- The field of a coerced block that has a domain. -/
theorem coerceFields_field {kind name : String} {ds : Domains}
    {ceiling : Value} {d : Domain} (fields : Members)
    (h : ds.lookup name = some d) :
    ((coerceFields kind ds ceiling fields).values.get? name).getD .null
      = (d.coerce ceiling ((fields.get? name).getD .null)).1 := by
  rw [coerceFields_get?, h]
  rfl

/-- What a block of a known kind gives lies in the domains, if its body
    does. -/
theorem instructionsOf_inDomain (hc : t.ceiling.number? = some (.int n))
    (hn : 1 ≤ n) (path : Path) (k : Kind) (kind source : String)
    (fields : Members) {body : Program} (hbody : EveryOf (InDomain t n) body) :
    EveryOf (InDomain t n) (instructionsOf t path k
      (coerceFields kind (Domains.of (some k) source) t.ceiling fields).values
      body).program := by
  cases k with
  | start => exact hbody
  | move =>
      obtain ⟨d, hlook, hd⟩ := domain_distance t.ceiling source
      refine ⟨?_, trivial⟩
      show ∃ x : Int, ((coerceFields _ _ _ _).values.get? "distance").getD
        .null = .int x ∧ 1 ≤ x ∧ x ≤ 100
      rw [coerceFields_field fields hlook]
      exact hd.coerce _
  | turn =>
      obtain ⟨d, hlook, hd⟩ := domain_degrees t.ceiling source
      obtain ⟨x, hx, hlow, hhigh⟩ :=
        hd.coerce ((fields.get? "degrees").getD .null)
      have hturn := turnDegrees_isTurn (t := t) path hlow hhigh
      unfold instructionsOf
      dsimp only
      rw [coerceFields_field fields hlook, hx]
      split
      · exact ⟨hturn, trivial⟩
      · exact ⟨hturn, trivial⟩
  | wait =>
      refine ⟨?_, trivial⟩
      show ∃ m : Num, ((coerceFields _ _ _ _).values.get? "seconds").getD
        .null = .num m ∧ shortestWait.le m = true ∧ m.le 10 = true
      rw [coerceFields_field fields (domain_seconds source)]
      exact ⟨_, rfl, NumberDomain.coerce_wait t.ceiling _⟩
  | say =>
      refine ⟨?_, trivial⟩
      show ∃ s : String, ((coerceFields _ _ _ _).values.get? "text").getD
        .null = .str s ∧ s.length ≤ 200
      rw [coerceFields_field fields (domain_text source)]
      exact ⟨_, rfl, Domain.coerceText_length (by decide +kernel) _⟩
  | repeatTimes =>
      obtain ⟨d, hlook, hd⟩ := domain_count t.ceiling source hc hn
      refine ⟨⟨?_, hbody⟩, trivial⟩
      show ∃ x : Int, ((coerceFields _ _ _ _).values.get? "count").getD
        .null = .int x ∧ 1 ≤ x ∧ x ≤ max n 50
      rw [coerceFields_field fields hlook]
      exact hd.coerce _
  | repeatForever => exact ⟨⟨rfl, hbody⟩, trivial⟩
  | ifGoalReached => exact ⟨⟨trivial, hbody⟩, trivial⟩
  | ifCondition =>
      unfold instructionsOf
      dsimp only
      split
      · exact ⟨⟨trivial, hbody⟩, trivial⟩
      · exact hbody
      · trivial

mutual

/-- All that a block gives lies in the domains. -/
theorem compileBlock_inDomain (hc : t.ceiling.number? = some (.int n))
    (hn : 1 ≤ n) (path : Path) : ∀ b : Block,
    EveryOf (InDomain t n) (compileBlock t path b).program
  | ⟨kind, fields, body⟩ => by
      unfold compileBlock
      split
      · trivial
      · split
        · trivial
        · rename_i k proper _
          refine instructionsOf_inDomain hc hn path k _ _ _ ?_
          cases body with
          | none => trivial
          | some blocks =>
              dsimp only
              split
              · exact compileBlocks_inDomain hc hn path 0 blocks
              · trivial

/-- All that blocks in order give lies in the domains. -/
theorem compileBlocks_inDomain (hc : t.ceiling.number? = some (.int n))
    (hn : 1 ≤ n) (parent : Path) (i : Nat) : ∀ bs : List Block,
    EveryOf (InDomain t n) (compileBlocks t parent i bs).program
  | [] => trivial
  | b :: bs => by
      refine everyOf_iff.2 fun x hx => ?_
      rcases List.mem_append.1 hx with hx | hx
      · exact everyOf_iff.1
          (compileBlock_inDomain hc hn (parent ++ [i]) b) x hx
      · exact everyOf_iff.1
          (compileBlocks_inDomain hc hn parent (i + 1) bs) x hx

end

/-- Whatever is handed over for compilation, the program that comes of it
    has no instruction, at any depth, whose operand is outside its
    domain. -/
theorem compileSource_inDomain (c : Config)
    (hc : c.loopCeiling.number? = some (.int n)) (hn : 1 ≤ n) (source : Value)
    {compiled : Compiled}
    (h : compileSource c.target source = .ok compiled) :
    EveryOf (InDomain c.target n) compiled.program := by
  unfold compileSource at h
  split at h
  · cases h
    trivial
  · unfold compileForest? at h
    dsimp only at h
    split at h
    · cases h
    · cases h
      exact compileBlocks_inDomain hc hn [] 0 _

/-- A loop under an editor name, with no number as its count, around a turn
    by more degrees than can be measured and a wait in writing. -/
def junkSource : Value :=
  .object [("blocks", .list [.object [("kind", .str "robot_ulangi"),
    ("fields", .object [("N", .real .nan)]),
    ("body", .list [
      .object [("kind", .str "robot_putar"),
        ("fields", .object [("DEG", .int (10 ^ 400))])],
      .object [("kind", .str "tunggu"),
        ("fields", .object [("SECONDS", .str " 1_0e9 ")])]])]])]

/-- Such a source compiles to instructions in their domains. -/
theorem compileSource_inDomain_junk :
    Config.standard.loopCeiling.number? = some (.int 100)
      ∧ (1 : Int) ≤ 100
      ∧ ∃ compiled,
          compileSource Config.standard.target junkSource = .ok compiled
            ∧ compiled.program.length = 1
            ∧ EveryOf (InDomain Config.standard.target 100)
                compiled.program := by
  refine ⟨rfl, by decide, ?_⟩
  have hlength : ((compileSource Config.standard.target junkSource).toOption.map
      fun compiled => compiled.program.length) = some 1 := by
    decide +kernel
  cases h : compileSource Config.standard.target junkSource with
  | error f =>
      rw [h] at hlength
      cases hlength
  | ok compiled =>
      rw [h] at hlength
      exact ⟨compiled, rfl, Option.some.inj hlength,
        compileSource_inDomain Config.standard rfl (by decide) junkSource h⟩

end BlockStage
