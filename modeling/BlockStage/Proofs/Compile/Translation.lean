import BlockStage.Proofs.Compile.Measures
import BlockStage.Proofs.Compile.Totality

/-! # Translation — editor names are nothing but names

    `Block.translate` puts every block of a forest under its proper name, at
    every depth.  A block keeps its kind and its fields by that
    (`resolve?_proper`), but it loses the ranges that its editor name may
    have of its own.  They make no difference to a number that lies in both
    ranges (`Narrows.coerce`, `Narrows.fault?`), and so such forests
    compile to the same program with the same warnings, or fail in the same
    way (`compile_translateAll`). -/

namespace BlockStage

variable {t : Target} {b : Block} {ceiling raw : Value}

/-! ## Blocks under their proper names -/

namespace Members

/-- Of members put one after the other the last one under a name counts. -/
theorem get?_putAll (ms news : Members) (name : String) :
    (ms.putAll news).get? name
      = ((news.reverse.find? fun m => m.1 = name).map (·.2)).or
          (ms.get? name) := by
  induction news generalizing ms with
  | nil => rfl
  | cons new news ih =>
      show ((ms.put new.1 new.2).putAll news).get? name = _
      rw [ih, List.reverse_cons, List.find?_append]
      cases news.reverse.find? fun m => m.1 = name with
      | some m => rfl
      | none =>
          by_cases h : new.1 = name
          · subst h
            simp [get?_put_self]
          · simp [get?_put_of_ne ms new.2 (Ne.symm h), h]

end Members

/-- The value of the last field that stands for a name in an aliased
    block. -/
def Alias.last? (a : Alias) (fields : Members) (name : String) :
    Option Value :=
  (fields.reverse.find? fun f => a.rename f.1 = name).map (·.2)

/-- The field of that name has this value, or the one that is implied. -/
theorem Alias.translate_get? (a : Alias) (fields : Members) (name : String) :
    (a.translate fields).get? name
      = (a.last? fields name).or (a.implied.get? name) := by
  rw [translate, Members.get?_putAll, ← List.map_reverse, List.find?_map]
  simp [last?, Function.comp_def]

/-- An editor name is the name of no kind. -/
theorem alias?_unnamed {name : String} {a : Alias}
    (h : alias? name = some a) : Kind.ofName? name = none := by
  have hall : aliases.all (fun p => (Kind.ofName? p.1).isNone) = true := by
    decide +kernel
  exact Option.isNone_iff_eq_none.1
    (List.all_eq_true.1 hall (name, a) (mem_of_lookup h))

namespace Block

/-- A block under the proper name of its kind and its fields; one of
    unknown kind stays as it is. -/
def proper (b : Block) : Block := b.canonical?.getD b

mutual

/-- A block and all that it holds under their proper names. -/
def translate : Block → Block
  | ⟨kind, fields, none⟩ => proper ⟨kind, fields, none⟩
  | ⟨kind, fields, some blocks⟩ =>
      proper ⟨kind, fields, some (translateAll blocks)⟩

/-- Blocks and all that they hold under their proper names. -/
def translateAll : List Block → List Block
  | [] => []
  | b :: bs => b.translate :: translateAll bs

end

theorem translateAll_eq (bs : List Block) :
    translateAll bs = bs.map translate := by
  induction bs with
  | nil => rfl
  | cons b bs ih => rw [translateAll, ih, List.map_cons]

/-- A block under an editor name. -/
theorem proper_alias {name : String} {a : Alias} (fields : Members)
    (body : Option (List Block)) (h : alias? name = some a) :
    proper ⟨.str name, fields, body⟩
      = ⟨.str a.kind.name, a.translate fields, body⟩ := by
  simp [proper, canonical?, alias?_unnamed h, h]

/-- All other blocks stay as they are. -/
theorem proper_other (h : alias? (sourceName b.kind) = none) :
    b.proper = b := by
  obtain ⟨kind, fields, body⟩ := b
  cases kind with
  | str name =>
      have h : alias? name = none := h
      unfold proper canonical?
      cases hname : Kind.ofName? name <;> simp [hname, h]
  | _ => rfl

/-- A translated block is the block under its proper name, with its body
    translated. -/
theorem translate_eq (b : Block) :
    b.translate = { b.proper with body := b.body.map translateAll } := by
  obtain ⟨kind, fields, body⟩ := b
  have hbody : ∀ body : Option (List Block), proper ⟨kind, fields, body⟩
      = { proper ⟨kind, fields, none⟩ with body := body } := by
    intro body
    unfold proper canonical?
    cases kind with
    | str name =>
        cases hname : Kind.ofName? name with
        | some k => simp [hname]
        | none => cases halias : alias? name <;> simp [hname, halias]
    | _ => rfl
  cases body with
  | none => rw [translate, hbody none]; rfl
  | some blocks =>
      rw [translate, hbody (some (translateAll blocks)), hbody (some blocks)]
      rfl

end Block

/-! ## Ranges -/

namespace NumberDomain

variable {range base : NumberDomain} {n : Num} {x : Scalar}

/-- Whether a number lies between the bounds of a range; the ceiling bounds
    a range that is open. -/
def Holds (d : NumberDomain) (ceiling : Value) (n : Num) : Prop :=
  d.minimum.le n = true
    ∧ ∃ m, (d.limit ceiling).number? = some m ∧ n.le m = true

/-- Whether a range agrees with another one on what lies in both: it has
    the same bounds, or bounds so small that what lies between them is read
    exactly. -/
def Narrows (range base : NumberDomain) : Prop :=
  range.whole = base.whole
    ∧ (range.minimum = base.minimum ∧ range.maximum = base.maximum
      ∨ ∃ low high : Int, range.minimum = .int low
          ∧ range.maximum = some (.int high)
          ∧ 1 ≤ low ∧ low ≤ high ∧ high < 2 ^ 53)

/-- A number in a range with small bounds is read exactly. -/
theorem Holds.reading {low high : Int} (h : range.Holds ceiling n)
    (hmin : range.minimum = .int low)
    (hmax : range.maximum = some (.int high)) (hlow : 1 ≤ low)
    (hle : low ≤ high) (hbits : high < 2 ^ 53) : n.reading = n.exact := by
  obtain ⟨hleast, m, hm, hgreatest⟩ := h
  rw [hmin] at hleast
  rw [limit, hmax] at hm
  cases hm
  have hleast : n.lt (.int low) = false := Scalar.not_lt_of_le hleast
  have hpos : (0 : Rat) < low := by exact_mod_cast hlow
  rcases Num.reading_cases n (show (Num.int low).exact = .finite low from rfl)
      hpos (by exact_mod_cast hle) hbits with
    ⟨hbelow, -⟩ | ⟨habove, -⟩ | ⟨hread, -⟩
  · cases hleast.symm.trans hbelow
  · cases (Scalar.not_lt_of_le hgreatest).symm.trans habove
  · exact hread

/-- A number that is read exactly and lies in a range is only settled
    there. -/
theorem Holds.coerce (h : range.Holds ceiling n)
    (hraw : raw.denoted? = some n) (hread : n.reading = n.exact) :
    range.coerce ceiling raw = range.settle raw (.real n.exact, none) := by
  obtain ⟨hleast, m, hm, hgreatest⟩ := h
  obtain ⟨hsome, hnan⟩ := Value.read?_denoted hraw
  rw [hread] at hsome
  refine coerce_inside hsome hnan (Scalar.not_lt_of_le hleast) ?_
  intro k hk
  cases hm.symm.trans hk
  exact Scalar.not_lt_of_le hgreatest

/-- Nothing but the lack of a whole part keeps it from being settled. -/
theorem Holds.measureFault? (h : range.Holds ceiling n) :
    range.measureFault? ceiling n.exact
      = if range.whole then
          match (Num.real n.exact).whole with
          | .ok _ => none
          | .error f => some (.operand (.number f))
        else none := by
  obtain ⟨hleast, m, hm, hgreatest⟩ := h
  have hlow : (Num.real n.exact).lt range.minimum = false :=
    Scalar.not_lt_of_le hleast
  have hhigh : m.lt (.real n.exact) = false := Scalar.not_lt_of_le hgreatest
  have hgt : (Value.real n.exact).gt (range.limit ceiling) = .ok false := by
    rw [← hhigh]
    cases hlimit : range.limit ceiling with
    | num k =>
        rw [hlimit] at hm
        cases hm
        exact Value.relate_num ..
    | bool b =>
        rw [hlimit] at hm
        cases hm
        simp [Value.gt, Value.real, Value.relate, Value.number?,
          Comparison.numbers]
    | _ =>
        rw [hlimit] at hm
        cases hm
  unfold NumberDomain.measureFault?
  rw [if_neg (by rw [hlow]; exact Bool.false_ne_true), hgt]
  cases hwhole : (Num.real n.exact).whole <;> simp [hwhole]

/-- A range makes the same of a number that lies in both as the range it
    agrees with. -/
theorem Narrows.coerce (h : range.Narrows base)
    (hraw : raw.denoted? = some n) (hrange : range.Holds ceiling n)
    (hbase : base.Holds ceiling n) :
    range.coerce ceiling raw = base.coerce ceiling raw := by
  obtain ⟨hwhole, ⟨hmin, hmax⟩ | ⟨low, high, hmin, hmax, hlow, hle, hbits⟩⟩
    := h
  · obtain ⟨hread, hnan⟩ := Value.read?_denoted hraw
    have hne := Num.reading_ne_nan hnan
    rw [coerce_read hread hne, coerce_read hread hne]
    unfold settle bound exceeded? limit
    rw [hwhole, hmin, hmax]
  · have hread := hrange.reading hmin hmax hlow hle hbits
    rw [hrange.coerce hraw hread, hbase.coerce hraw hread]
    unfold settle
    rw [hwhole]

/-- It also has the same faults with it. -/
theorem Narrows.fault? (h : range.Narrows base)
    (hraw : raw.denoted? = some n) (hrange : range.Holds ceiling n)
    (hbase : base.Holds ceiling n) :
    range.fault? ceiling raw = base.fault? ceiling raw := by
  obtain ⟨hread, -⟩ := Value.read?_denoted hraw
  have hfault : ∀ d : NumberDomain, d.fault? ceiling raw
      = if n.reading = .nan then none
        else d.measureFault? ceiling n.reading := by
    intro d
    unfold NumberDomain.fault?
    split
    · cases hread
    · rw [hread]
      cases n.reading <;> rfl
  rw [hfault, hfault]
  obtain ⟨hwhole, ⟨hmin, hmax⟩ | ⟨low, high, hmin, hmax, hlow, hle, hbits⟩⟩
    := h
  · unfold measureFault? exceeded? limit
    rw [hwhole, hmin, hmax]
  · rw [hrange.reading hmin hmax hlow hle hbits, hrange.measureFault?,
      hbase.measureFault?, hwhole]

end NumberDomain

/-! ## Fields in other ranges -/

theorem Domain.coerce_number (d : NumberDomain) (ceiling raw : Value) :
    (number d).coerce ceiling raw
      = (.num (d.coerce ceiling raw).1, (d.coerce ceiling raw).2) := rfl

theorem Domain.fault?_number (d : NumberDomain) (ceiling raw : Value) :
    (number d).fault? ceiling raw
      = if ¬ raw.showable then some .illegible
        else d.fault? ceiling raw := rfl

section Fields

variable {ds news : Domains} {kind : String} {fields : Members}

/-- Domains that make the same of the fields of a block give the same. -/
theorem coerceFields_replace
    (h : ∀ d ∈ ds, ∀ new, news.lookup d.1 = some new →
      new.coerce ceiling ((fields.get? d.1).getD .null)
        = d.2.coerce ceiling ((fields.get? d.1).getD .null)) :
    coerceFields kind (ds.map fun d => (d.1, (news.lookup d.1).getD d.2))
        ceiling fields
      = coerceFields kind ds ceiling fields := by
  induction ds with
  | nil => rfl
  | cons d ds ih =>
      obtain ⟨hd, hds⟩ := List.forall_mem_cons.1 h
      have hsame : ((news.lookup d.1).getD d.2).coerce ceiling
            ((fields.get? d.1).getD .null)
          = d.2.coerce ceiling ((fields.get? d.1).getD .null) := by
        cases hnew : news.lookup d.1 with
        | none => rfl
        | some new => exact hd new hnew
      rw [List.map_cons, coerceFields, ih hds]
      dsimp only
      rw [hsame]
      rfl

/-- And domains that have the same faults with them have the same fault. -/
theorem fieldsFault?_replace
    (h : ∀ d ∈ ds, ∀ new, news.lookup d.1 = some new →
      new.fault? ceiling ((fields.get? d.1).getD .null)
        = d.2.fault? ceiling ((fields.get? d.1).getD .null)) :
    fieldsFault? (ds.map fun d => (d.1, (news.lookup d.1).getD d.2))
        ceiling fields
      = fieldsFault? ds ceiling fields := by
  induction ds with
  | nil => rfl
  | cons d ds ih =>
      obtain ⟨hd, hds⟩ := List.forall_mem_cons.1 h
      have hsame : ((news.lookup d.1).getD d.2).fault? ceiling
            ((fields.get? d.1).getD .null)
          = d.2.fault? ceiling ((fields.get? d.1).getD .null) := by
        cases hnew : news.lookup d.1 with
        | none => rfl
        | some new => exact hd new hnew
      have ih := ih hds
      unfold fieldsFault? at ih ⊢
      rw [List.map_cons, List.findSome?_cons, List.findSome?_cons, ih]
      dsimp only
      rw [hsame]

end Fields

/-- The ranges of an editor name replace ranges of its kind, with which they
    agree; the name itself fixes none of these fields. -/
theorem editor_ranges {name : String} {a : Alias} {own : Domains}
    (ha : alias? name = some a) (hown : editorDomains.lookup name = some own) :
    Domains.of (some a.kind) name
        = a.kind.domains.map (fun d => (d.1, (own.lookup d.1).getD d.2))
      ∧ ∀ d ∈ a.kind.domains, ∀ new, own.lookup d.1 = some new →
        ∃ range base, new = .number range ∧ d.2 = .number base
          ∧ a.kind.domains.lookup d.1 = some (.number base)
          ∧ a.implied.get? d.1 = none ∧ range.Narrows base := by
  have hmem : (name, own) ∈ editorDomains := mem_of_lookup hown
  simp only [editorDomains, List.mem_cons, List.not_mem_nil, or_false,
    Prod.mk.injEq] at hmem
  rcases hmem with ⟨rfl, rfl⟩ | ⟨rfl, rfl⟩ | ⟨rfl, rfl⟩ | ⟨rfl, rfl⟩ |
    ⟨rfl, rfl⟩
  case inr.inr.inr.inl =>
    cases ha
    refine ⟨rfl, fun d hd new hnew => ?_⟩
    rcases List.mem_cons.1 hd with rfl | hd
    · cases hnew
      exact ⟨_, _, rfl, rfl, rfl, rfl, rfl, .inr ⟨45, 360, by decide⟩⟩
    · obtain rfl := List.mem_singleton.1 hd
      cases hnew
  all_goals
    cases ha
    refine ⟨rfl, fun d hd new hnew => ?_⟩
    obtain rfl := List.mem_singleton.1 hd
    cases hnew
    refine ⟨_, _, rfl, rfl, rfl, rfl, rfl, ?_⟩
  · exact .inl ⟨rfl, rfl⟩
  · exact .inl ⟨rfl, rfl⟩
  · exact .inr ⟨1, 20, by decide⟩
  · exact .inr ⟨1, 50, by decide⟩

/-! ## Translated blocks -/

/-- Whether each number field for which the editor name of a block has a
    range of its own holds a number that lies in that range and in the one
    of the kind.  The field may stand under either name, and the last one
    counts. -/
def Block.InRanges (ceiling : Value) (b : Block) : Prop :=
  ∀ a own field range base, alias? (sourceName b.kind) = some a →
    editorDomains.lookup (sourceName b.kind) = some own →
    own.lookup field = some (.number range) →
    a.kind.domains.lookup field = some (.number base) →
    ∃ raw n, a.last? b.fields field = some raw ∧ raw.denoted? = some n
      ∧ range.Holds ceiling n ∧ base.Holds ceiling n

namespace Block

/-- Only texts name something else. -/
theorem alias?_written {a : Alias}
    (h : alias? (sourceName b.kind) = some a) :
    ∃ name, b.kind = .str name ∧ alias? name = some a := by
  cases hkind : b.kind with
  | str name =>
      rw [hkind] at h
      exact ⟨name, rfl, h⟩
  | _ =>
      rw [hkind] at h
      have hempty : alias? "" = none := by decide
      cases hempty.symm.trans h

/-- An aliased block under its proper name. -/
theorem proper_aliased {a : Alias}
    (h : alias? (sourceName b.kind) = some a) :
    b.proper = ⟨.str a.kind.name, a.translate b.fields, b.body⟩ := by
  obtain ⟨name, hkind, ha⟩ := alias?_written h
  obtain ⟨kind, fields, body⟩ := b
  obtain rfl : kind = .str name := hkind
  exact proper_alias fields body ha

/-- Its kind and its fields. -/
theorem resolve?_aliased {a : Alias}
    (h : alias? (sourceName b.kind) = some a) :
    resolve? b.kind b.fields = some (a.kind, a.translate b.fields) := by
  obtain ⟨name, hkind, ha⟩ := alias?_written h
  rw [hkind]
  simp [resolve?, alias?_unnamed ha, ha]

/-- A block has the same kind and the same fields under its proper name. -/
theorem resolve?_proper (b : Block) :
    resolve? b.proper.kind b.proper.fields = resolve? b.kind b.fields := by
  cases h : alias? (sourceName b.kind) with
  | none => rw [proper_other h]
  | some a =>
      rw [proper_aliased h, resolve?_aliased h]
      simp [resolve?, Kind.ofName?_name]

/-- What an editor name has a range of its own for, in a block whose numbers
    lie in both ranges. -/
theorem InRanges.narrows {a : Alias} {own : Domains}
    (hb : b.InRanges ceiling) (ha : alias? (sourceName b.kind) = some a)
    (hown : editorDomains.lookup (sourceName b.kind) = some own) :
    ∀ d ∈ a.kind.domains, ∀ new, own.lookup d.1 = some new →
      ∃ range base n, new = .number range ∧ d.2 = .number base
        ∧ range.Narrows base
        ∧ (((a.translate b.fields).get? d.1).getD .null).denoted? = some n
        ∧ range.Holds ceiling n ∧ base.Holds ceiling n := by
  intro d hd new hnew
  obtain ⟨-, hranges⟩ := editor_ranges ha hown
  obtain ⟨range, base, rfl, hbase, hlookup, himplied, hnarrows⟩ :=
    hranges d hd new hnew
  obtain ⟨raw, n, hlast, hraw, hrange, hinside⟩ :=
    hb a own d.1 range base ha hown hnew hlookup
  refine ⟨range, base, n, rfl, hbase, hnarrows, ?_, hrange, hinside⟩
  rw [Alias.translate_get?, hlast]
  exact hraw

/-- The domains of a block under its proper name make the same of its
    fields, and have the same faults with them, as those of its editor
    name. -/
theorem InRanges.fields {k : Kind} {fields : Members}
    (hb : b.InRanges ceiling)
    (h : resolve? b.kind b.fields = some (k, fields)) :
    coerceFields k.name (Domains.of (some k) (sourceName b.proper.kind))
          ceiling fields
        = coerceFields k.name (Domains.of (some k) (sourceName b.kind))
          ceiling fields
      ∧ fieldsFault? (Domains.of (some k) (sourceName b.proper.kind))
          ceiling fields
        = fieldsFault? (Domains.of (some k) (sourceName b.kind))
          ceiling fields := by
  cases ha : alias? (sourceName b.kind) with
  | none =>
      rw [proper_other ha]
      exact ⟨rfl, rfl⟩
  | some a =>
      cases (resolve?_aliased ha).symm.trans h
      have hproper : Domains.of (some a.kind) (sourceName b.proper.kind)
          = a.kind.domains := by
        rw [proper_aliased ha]
        cases a.kind <;> rfl
      rw [hproper]
      cases hown : editorDomains.lookup (sourceName b.kind) with
      | none =>
          have hkept : Domains.of (some a.kind) (sourceName b.kind)
              = a.kind.domains := by
            rw [Domains.of, hown]
            rfl
          rw [hkept]
          exact ⟨rfl, rfl⟩
      | some own =>
          have hnarrows := hb.narrows ha hown
          rw [(editor_ranges ha hown).1]
          constructor
          · refine (coerceFields_replace fun d hd new hnew => ?_).symm
            obtain ⟨range, base, n, rfl, hbase, hagree, hraw, hrange, hin⟩ :=
              hnarrows d hd new hnew
            rw [hbase, Domain.coerce_number, Domain.coerce_number,
              hagree.coerce hraw hrange hin]
          · refine (fieldsFault?_replace fun d hd new hnew => ?_).symm
            obtain ⟨range, base, n, rfl, hbase, hagree, hraw, hrange, hin⟩ :=
              hnarrows d hd new hnew
            rw [hbase, Domain.fault?_number, Domain.fault?_number,
              hagree.fault? hraw hrange hin]

/-- What a block without an editor name is translated to. -/
theorem translate_other (h : alias? (sourceName b.kind) = none) :
    b.translate = { b with body := b.body.map translateAll } := by
  rw [translate_eq, proper_other h]

/-- What a block with an editor name is translated to. -/
theorem translate_aliased {a : Alias}
    (h : alias? (sourceName b.kind) = some a) :
    b.translate = ⟨.str a.kind.name, a.translate b.fields,
      b.body.map translateAll⟩ := by
  rw [translate_eq, proper_aliased h]

/-- Translation keeps the kind and the fields of a block. -/
theorem resolve?_translate (b : Block) :
    resolve? b.translate.kind b.translate.fields
      = resolve? b.kind b.fields := by
  rw [translate_eq]
  exact resolve?_proper b

/-- The blocks inside a block are translated with it. -/
theorem inside_translate (b : Block) :
    b.translate.inside = b.inside.map translate := by
  have hbody : b.translate.body.getD [] = (b.body.getD []).map translate := by
    rw [translate_eq]
    cases b.body with
    | none => rfl
    | some blocks => exact translateAll_eq blocks
  rw [inside, inside, resolve?_translate]
  cases resolve? b.kind b.fields with
  | none => rfl
  | some r =>
      dsimp only
      split
      · exact hbody
      · rfl

/-- Neither an editor name nor the name of a kind is that of a
    placeholder. -/
theorem placeholder_translate (b : Block) :
    sourceName b.translate.kind = placeholderKind
      ↔ sourceName b.kind = placeholderKind := by
  cases h : alias? (sourceName b.kind) with
  | none => rw [translate_other h]
  | some a =>
      rw [translate_aliased h]
      have hkind : sourceName (.str a.kind.name) ≠ placeholderKind := by
        cases a.kind <;> decide
      refine iff_of_false hkind fun hplaceholder => ?_
      rw [hplaceholder] at h
      have hnone : alias? placeholderKind = none := by decide
      cases hnone.symm.trans h

variable (hb : b.InRanges t.ceiling)

include hb

/-- Nor does it matter for what its fields become. -/
theorem known?_translate : b.translate.known? t = b.known? t := by
  rw [known?, known?, resolve?_translate]
  cases h : resolve? b.kind b.fields with
  | none => rfl
  | some r =>
      have hkind : b.translate.kind = b.proper.kind := by rw [translate_eq]
      rw [Option.map_some, Option.map_some, hkind, (hb.fields h).1]

theorem yield_translate (body : Program) :
    b.translate.yield t body = b.yield t body := by
  rw [yield, yield, known?_translate hb]

theorem complaintsAfter_translate :
    b.translate.complaintsAfter t = b.complaintsAfter t := by
  rw [complaintsAfter, complaintsAfter, known?_translate hb]

theorem complaintsBefore_translate :
    b.translate.complaintsBefore t = b.complaintsBefore t := by
  have hbody : b.translate.body.isSome = b.body.isSome := by
    rw [translate_eq]
    exact Option.isSome_map
  rw [complaintsBefore, complaintsBefore, known?_translate hb, hbody]
  refine if_congr (placeholder_translate b) rfl ?_
  cases h : b.known? t with
  | some r => rfl
  | none =>
      -- a block of unknown kind keeps its name
      cases ha : alias? (sourceName b.kind) with
      | none => rw [translate_other ha]
      | some a =>
          rw [known?, resolve?_aliased ha] at h
          cases h

end Block

/-! ## Translated forests -/

/-- Blocks that compile to the same as others do so together. -/
theorem compileBlocks_map {f : Block → Block} {bs : List Block}
    (h : ∀ b ∈ bs, compileBlock t [] (f b) = compileBlock t [] b)
    (place : Path) (i : Nat) :
    compileBlocks t place i (bs.map f) = compileBlocks t place i bs := by
  induction bs generalizing i with
  | nil => rfl
  | cons b bs ih =>
      obtain ⟨hb, hbs⟩ := List.forall_mem_cons.1 h
      rw [List.map_cons, compileBlocks, compileBlocks, ih hbs,
        compileBlock_within (f b), hb, ← compileBlock_within]

/-- Blocks that have the same fault as others do so together. -/
theorem blocksFault?_map {f : Block → Block} {bs : List Block}
    (h : ∀ b ∈ bs, blockFault? t (f b) = blockFault? t b) :
    blocksFault? t (bs.map f) = blocksFault? t bs := by
  induction bs with
  | nil => rfl
  | cons b bs ih =>
      obtain ⟨hb, hbs⟩ := List.forall_mem_cons.1 h
      rw [List.map_cons, blocksFault?, blocksFault?, ih hbs, hb]

/-- What keeps a block from being compiled, by the blocks inside it. -/
theorem blockFault?_inside (b : Block) :
    blockFault? t b
      = if sourceName b.kind = placeholderKind then none
        else
          match b.kind.key with
          | .error f => some (.operand f)
          | .ok _ =>
              match Block.resolve? b.kind b.fields with
              | none => if b.kind.legible then none else some .illegible
              | some (k, proper) =>
                  fieldsFault? (Domains.of (some k) (sourceName b.kind))
                      t.ceiling proper
                    <|> blocksFault? t b.inside
                    <|> if k = .repeatForever ∧ ¬ t.ceiling.legible then
                        some .illegible
                      else none := by
  obtain ⟨kind, fields, body⟩ := b
  rw [blockFault?, Block.inside]
  refine if_congr Iff.rfl rfl ?_
  cases kind.key with
  | error f => rfl
  | ok _ =>
      cases Block.resolve? kind fields with
      | none => rfl
      | some r =>
          cases body with
          | none => simp [blocksFault?]
          | some blocks => cases hk : r.1.isCompound <;> simp [hk, blocksFault?]

section Forests

variable (h : ∀ place x, itemBelow? Block.inside b place = some x →
  x.InRanges t.ceiling)

include h

/-- A block whose numbers lie in both ranges, wherever there are two,
    compiles to the same under its proper name. -/
theorem compileBlock_translate :
    compileBlock t [] b.translate = compileBlock t [] b := by
  induction b using Block.induct with
  | step kind fields body ih =>
      have hown := h [] _ rfl
      have hinside : compileForest t
            (Block.translate ⟨kind, fields, body⟩).inside
          = compileForest t (Block.inside ⟨kind, fields, body⟩) := by
        rw [Block.inside_translate]
        refine compileBlocks_map (fun x hx => ?_) [] 0
        obtain ⟨i, hi⟩ := List.mem_iff_getElem?.1 hx
        refine ih x (Block.mem_body hx) fun place y hy => ?_
        exact h (i :: place) y (Option.bind_eq_some_iff.2 ⟨x, hi, hy⟩)
      rw [compileBlock_eq, compileBlock_eq, hinside,
        Block.yield_translate hown, Block.complaintsBefore_translate hown,
        Block.complaintsAfter_translate hown]

/-- And it is kept from being compiled by the same. -/
theorem blockFault?_translate :
    blockFault? t b.translate = blockFault? t b := by
  induction b using Block.induct with
  | step kind fields body ih =>
      have hown := h [] _ rfl
      have hinside : blocksFault? t
            (Block.translate ⟨kind, fields, body⟩).inside
          = blocksFault? t (Block.inside ⟨kind, fields, body⟩) := by
        rw [Block.inside_translate]
        refine blocksFault?_map fun x hx => ?_
        obtain ⟨i, hi⟩ := List.mem_iff_getElem?.1 hx
        refine ih x (Block.mem_body hx) fun place y hy => ?_
        exact h (i :: place) y (Option.bind_eq_some_iff.2 ⟨x, hi, hy⟩)
      rw [blockFault?_inside, blockFault?_inside, hinside,
        Block.resolve?_translate]
      refine if_congr (Block.placeholder_translate _) rfl ?_
      have hkind : (Block.translate ⟨kind, fields, body⟩).kind
          = (Block.proper ⟨kind, fields, body⟩).kind := by
        rw [Block.translate_eq]
      cases ha : alias? (sourceName kind) with
      | none =>
          rw [hkind, Block.proper_other ha]
      | some a =>
          obtain ⟨name, hname, -⟩ :=
            Block.alias?_written (b := ⟨kind, fields, body⟩) ha
          obtain rfl : kind = .str name := hname
          have hresolve :=
            Block.resolve?_aliased (b := ⟨.str name, fields, body⟩) ha
          have hfields := (hown.fields hresolve).2
          rw [Block.proper_aliased ha] at hfields
          rw [hkind, Block.proper_aliased ha, hresolve]
          simp only [Value.key]
          rw [hfields]

end Forests

/-- Editor names are nothing but names.  If in every block that is compiled
    each number for which the editor name has a range of its own lies in
    that range and in the one of the kind, a forest under its proper names
    compiles to the same program with the same warnings, in the same order
    and at the same places, or is kept from being compiled by the same. -/
theorem compile_translateAll (c : Config) (blocks : List Block)
    (h : ∀ place b, itemAt? Block.inside blocks place = some b →
      b.InRanges c.loopCeiling) :
    compileForest? c.target (Block.translateAll blocks)
      = compileForest? c.target blocks := by
  have hbelow : ∀ b ∈ blocks, ∀ place x,
      itemBelow? Block.inside b place = some x →
      x.InRanges c.target.ceiling := by
    intro b hb place x hx
    obtain ⟨i, hi⟩ := List.mem_iff_getElem?.1 hb
    exact h (i :: place) x (Option.bind_eq_some_iff.2 ⟨b, hi, hx⟩)
  have hfaults : blocksFault? c.target (Block.translateAll blocks)
      = blocksFault? c.target blocks := by
    rw [Block.translateAll_eq]
    exact blocksFault?_map fun b hb => blockFault?_translate (hbelow b hb)
  have hcompiled : compileForest c.target (Block.translateAll blocks)
      = compileForest c.target blocks := by
    rw [Block.translateAll_eq]
    exact compileBlocks_map
      (fun b hb => compileBlock_translate (hbelow b hb)) [] 0
  rw [compileForest?, compileForest?, hfaults, hcompiled]

/-- A step under an editor name, whose length is written twice. -/
def doubledStep : Block :=
  ⟨.str "robot_maju", [("distance", .int 500), ("N", .int 15)],
    some [placeholder]⟩

/-- A loop under an editor name around such a step. -/
def editorLoop : Block :=
  ⟨.str "kontrol_ulangi", [("TIMES", .str " 2.5 ")], some [doubledStep]⟩

/-- The last length of the step counts, and lies in both ranges; the count
    of the loop is rounded, with a warning, under its proper name too. -/
theorem compile_translateAll_doubled :
    (∀ place b, itemAt? Block.inside [editorLoop] place = some b →
        b.InRanges Config.standard.loopCeiling)
      ∧ compileForest? Config.standard.target
            (Block.translateAll [editorLoop])
          = compileForest? Config.standard.target [editorLoop]
      ∧ (compileForest? Config.standard.target
            (Block.translateAll [editorLoop])).toOption.map
          (fun compiled => compiled.warnings.map
            fun w => (w.path.text, w.message))
          = some [("0",
              "repeat-n.count: ' 2.5 ' is not a whole number; rounded to 2"),
            ("0/body/0", "move cannot contain nested blocks")] := by
  have hloop : editorLoop.InRanges Config.standard.loopCeiling := by
    intro a own field range base ha hown hrange hbase
    cases ha
    cases hown
    obtain rfl : field = "count" := by
      by_contra hother
      rw [List.lookup_cons, beq_false_of_ne hother] at hrange
      cases hrange
    cases hrange
    cases hbase
    exact ⟨_, .real (.finite (5 / 2)), rfl, by decide +kernel,
      ⟨by decide +kernel, _, rfl, by decide +kernel⟩,
      ⟨by decide +kernel, _, rfl, by decide +kernel⟩⟩
  have hstep : doubledStep.InRanges Config.standard.loopCeiling := by
    intro a own field range base ha hown hrange hbase
    cases ha
    cases hown
    obtain rfl : field = "distance" := by
      by_contra hother
      rw [List.lookup_cons, beq_false_of_ne hother] at hrange
      cases hrange
    cases hrange
    cases hbase
    exact ⟨_, .int 15, rfl, rfl, ⟨by decide, _, rfl, by decide⟩,
      ⟨by decide, _, rfl, by decide⟩⟩
  have hforest : ∀ place b,
      itemAt? Block.inside [editorLoop] place = some b →
        b.InRanges Config.standard.loopCeiling := by
    intro place b hb
    match place, hb with
    | [0], hb =>
        cases hb
        exact hloop
    | [0, 0], hb =>
        cases hb
        exact hstep
  exact ⟨hforest,
    compile_translateAll Config.standard [editorLoop] hforest,
    by decide +kernel⟩

end BlockStage
