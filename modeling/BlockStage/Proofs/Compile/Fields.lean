import BlockStage.Proofs.Compile.Ceiling
import BlockStage.Proofs.Compile.Culprits
import BlockStage.Proofs.Compile.Totality

/-! # Fields — what is said of one field of one block

    A compiled forest says of a place what is said of the block there, in
    that order (`saidAt_compileForest`), and of a declared field of the
    block that its domain changed it, if it did, and then whatever is said
    of it after the body (`changes_declared`).  Nothing but a declared
    field that cannot be shown keeps a block of a written kind from being
    compiled (`compileForest?_shown`). -/

namespace BlockStage

variable {α : Type} {t : Target}

/-! ## Warnings of one place -/

/-- What warnings say of one place, in their order. -/
def saidAt (ws : List Warning) (place : Path) : List Complaint :=
  ws.filterMap fun w => if w.path = place then some w.complaint else none

@[simp] theorem saidAt_append (xs ys : List Warning) (place : Path) :
    saidAt (xs ++ ys) place = saidAt xs place ++ saidAt ys place :=
  List.filterMap_append

/-- What is said of a block itself is said of no other place. -/
theorem saidAt_own (cs : List Complaint) (place : Path) :
    saidAt (cs.map (.mk [])) place = if place = [] then cs else [] := by
  unfold saidAt
  rw [List.filterMap_map]
  cases place with
  | nil => exact List.filterMap_some
  | cons i p => exact List.filterMap_eq_nil_iff.2 fun _ _ => rfl

/-- What is said inside an item is said of places below its index. -/
theorem saidAt_within (ws : List Warning) (i : Nat) (place : Path) :
    saidAt (ws.map (.within [i])) place
      = if place.head? = some i then saidAt ws place.tail else [] := by
  unfold saidAt
  rw [List.filterMap_map]
  cases place with
  | nil => exact List.filterMap_eq_nil_iff.2 fun _ _ => rfl
  | cons j p =>
      by_cases h : j = i
      · subst h
        simp only [List.head?_cons, if_true, List.tail_cons]
        refine List.filterMap_congr fun w _ => ?_
        by_cases hpath : w.path = p <;> simp [Warning.within, hpath]
      · simp [Warning.within, h, Ne.symm h]

/-- Gathered warnings say nothing of the place of the whole, or of items in
    front of the first one. -/
theorem saidAt_gather_nil {warnings : α → List Warning} (xs : List α)
    {i : Nat} {place : Path} (h : ∀ k, place.head? = some k → k < i) :
    saidAt (gather warnings i xs) place = [] := by
  induction xs generalizing i with
  | nil => rfl
  | cons x xs ih =>
      have hne : place.head? ≠ some i := fun heq => (h i heq).false
      rw [gather, saidAt_append, saidAt_within, if_neg hne,
        ih fun k hk => (h k hk).trans (Nat.lt_succ_self i)]
      rfl

/-- Of a place below an index they say what is said below that item. -/
theorem saidAt_gather (warnings : α → List Warning) (xs : List α)
    (i j : Nat) (place : Path) :
    saidAt (gather warnings i xs) ((i + j) :: place)
      = (xs[j]?.map fun x => saidAt (warnings x) place).getD [] := by
  induction xs generalizing i j with
  | nil => rfl
  | cons x xs ih =>
      rw [gather, saidAt_append, saidAt_within]
      cases j with
      | zero =>
          rw [saidAt_gather_nil xs (by simp)]
          simp
      | succ j =>
          have hplace : i + (j + 1) = i + 1 + j := by omega
          have hne : i + 1 + j ≠ i := by omega
          rw [hplace, ih]
          simp [hne]

/-- A compiled block says of a place in it what is said of the block
    there. -/
theorem saidAt_compileBlock (b : Block) (place : Path) :
    saidAt (compileBlock t [] b).warnings place
      = ((itemBelow? Block.inside b place).map
          (Block.complaints t)).getD [] := by
  induction place generalizing b with
  | nil =>
      rw [compileBlock_warnings, compileBlocks_warnings, saidAt_append,
        saidAt_append, saidAt_own, saidAt_own,
        saidAt_gather_nil _ (by simp)]
      simp [itemBelow?, Block.complaints]
  | cons i place ih =>
      have hinside := saidAt_gather
        (fun b => (compileBlock t [] b).warnings) b.inside 0 i place
      rw [Nat.zero_add] at hinside
      rw [compileBlock_warnings, compileBlocks_warnings, saidAt_append,
        saidAt_append, saidAt_own, saidAt_own, if_neg (by simp),
        if_neg (by simp), List.nil_append, List.append_nil, hinside,
        itemBelow?]
      cases b.inside[i]? with
      | none => rfl
      | some x => exact ih x

/-- A compiled forest says of a place what is said of the block there. -/
theorem saidAt_compileForest (bs : List Block) (place : Path) :
    saidAt (compileForest t bs).warnings place
      = ((itemAt? Block.inside bs place).map (Block.complaints t)).getD [] := by
  unfold compileForest
  rw [compileBlocks_warnings]
  cases place with
  | nil => exact saidAt_gather_nil bs (by simp)
  | cons i place =>
      have hgather := saidAt_gather
        (fun b => (compileBlock t [] b).warnings) bs 0 i place
      rw [Nat.zero_add] at hgather
      rw [hgather, itemAt?]
      cases bs[i]? with
      | none => rfl
      | some x => exact saidAt_compileBlock x place

/-! ## Changes of a field -/

/-- The value that a field was given, if it is said to have been changed. -/
def Complaint.change? (name : String) (c : Complaint) : Option Value :=
  match c.code, c.details with
  | "INVALID_FIELD_VALUE", some details =>
      match Members.get? details "field" with
      | some (.str changed) =>
          if changed = name then Members.get? details "coerced" else none
      | _ => none
  | _, _ => none

/-- The values that warnings say a field of the block at a place was given,
    one after the other. -/
def changesOf (ws : List Warning) (place : Path) (name : String) :
    List Value :=
  (saidAt ws place).filterMap (Complaint.change? name)

/-- The values that are said to have been given to a field of a block. -/
def Block.changes (t : Target) (b : Block) (name : String) : List Value :=
  (b.complaints t).filterMap (Complaint.change? name)

theorem change?_field (name : String) (f : FieldComplaint) :
    (Complaint.field f).change? name
      = if f.field = name then some f.coerced else none := rfl

theorem change?_turnSnapped (name : String) (degrees snapped : Int) :
    (Complaint.turnSnapped degrees snapped).change? name
      = if "degrees" = name then some (.int snapped) else none := rfl

/-- The changes that a forest is warned of at the place of a block are those
    of the block. -/
theorem changesOf_compileForest {bs : List Block} {place : Path} {b : Block}
    (h : itemAt? Block.inside bs place = some b) (name : String) :
    changesOf (compileForest t bs).warnings place name = b.changes t name := by
  unfold changesOf
  rw [saidAt_compileForest, h]
  rfl

/-- What reading says is never that a field was changed. -/
theorem saidAt_reading {items : List Value} {place : Path} {c : Complaint}
    (h : c ∈ saidAt (gather Value.readingWarnings 0 items) place)
    (name : String) : c.change? name = none := by
  obtain ⟨w, hw, hsaid⟩ := List.mem_filterMap.1 h
  obtain ⟨v, -, hdefect⟩ := (readingWarnings_gathered.mem_gather items w).1 hw
  have hdefects : ∀ c ∈ v.defects, c.change? name = none := by
    unfold Value.defects Value.bodyDefects
    split
    · simp [Complaint.change?, Complaint.code]
    · split <;> split <;> simp [Complaint.change?, Complaint.code]
  split at hsaid
  · cases hsaid
    exact hdefects _ hdefect
  · cases hsaid

/-- What is said of a compiled item of a written forest is what reading
    says of it, and then what is said of its block. -/
theorem saidAt_compileSource {source : Value} {compiled : Compiled}
    (h : compileSource t source = .ok compiled) {place : Path} {v : Value}
    (hv : source.Visits place v) :
    ∃ read, (∀ c ∈ read, ∀ name, c.change? name = none)
      ∧ saidAt compiled.warnings place
          = read ++ v.readBlock.complaints t := by
  obtain ⟨items, hitems, hv⟩ := hv
  rw [compileSource_items hitems] at h
  obtain ⟨-, -, hwarnings⟩ := compileSource_list h
  refine ⟨saidAt (gather Value.readingWarnings 0 items) place,
    fun c hc => saidAt_reading hc, ?_⟩
  rw [hwarnings, saidAt_append, saidAt_compileForest,
    itemAt?_map readBlock_inside, hv]
  rfl

/-- So the changes that are told of it are those of its block. -/
theorem changesOf_compileSource {source : Value} {compiled : Compiled}
    (h : compileSource t source = .ok compiled) {place : Path} {v : Value}
    (hv : source.Visits place v) (name : String) :
    changesOf compiled.warnings place name = v.readBlock.changes t name := by
  obtain ⟨read, hread, hsaid⟩ := saidAt_compileSource h hv
  have hnone : read.filterMap (Complaint.change? name) = [] :=
    List.filterMap_eq_nil_iff.2 fun c hc => hread c hc name
  unfold changesOf
  rw [hsaid, List.filterMap_append, hnone]
  rfl

/-! ## Declared fields -/

/-- A declared field of a block: its domain, and what is written there. -/
def Block.declared? (b : Block) (name : String) : Option (Domain × Value) :=
  (resolve? b.kind b.fields).bind fun r =>
    ((Domains.of (some r.1) (sourceName b.kind)).lookup name).map fun d =>
      (d, (r.2.get? name).getD .null)

/-- A declared field is declared for the kind of the block. -/
theorem Block.declared?_eq_some_iff {b : Block} {name : String} {d : Domain}
    {raw : Value} :
    b.declared? name = some (d, raw) ↔
      ∃ k fields, resolve? b.kind b.fields = some (k, fields)
        ∧ (Domains.of (some k) (sourceName b.kind)).lookup name = some d
        ∧ (fields.get? name).getD .null = raw := by
  simp [declared?, Option.bind_eq_some_iff, Prod.exists]

/-- The kind of a block, and its fields in their domains. -/
theorem Block.known?_resolved {b : Block} {k : Kind} {fields : Members}
    (h : resolve? b.kind b.fields = some (k, fields)) :
    b.known? t = some (k, coerceFields k.name
      (Domains.of (some k) (sourceName b.kind)) t.ceiling fields) := by
  unfold known?
  rw [h]
  rfl

/-- No field is declared twice, also under the editor's names. -/
theorem Domains.of_nodup (k : Kind) (source : String) :
    ((Domains.of (some k) source).map (·.1)).Nodup := by
  refine Domains.of_holds (P := fun ds => (ds.map (·.1)).Nodup) k source ?_
  cases k <;> decide +kernel

/-- Coercion says of a field that is not declared nothing. -/
theorem coerceFields_undeclared {kind name : String} {ds : Domains}
    {ceiling : Value} {fields : Members} (h : name ∉ ds.map (·.1)) :
    ((coerceFields kind ds ceiling fields).complaints.map
      Complaint.field).filterMap (Complaint.change? name) = [] := by
  refine List.filterMap_eq_nil_iff.2 fun c hc => ?_
  obtain ⟨f, hf, rfl⟩ := List.mem_map.1 hc
  have hne : f.field ≠ name := fun heq =>
    h (heq ▸ coerceFields_declared kind ds ceiling fields f hf)
  rw [change?_field, if_neg hne]

/-- Coercion says of a declared field that its domain changed it, if it
    did. -/
theorem coerceFields_changes {kind name : String} {ds : Domains}
    {ceiling : Value} {fields : Members} {d : Domain}
    (hnodup : (ds.map (·.1)).Nodup) (h : ds.lookup name = some d) :
    ((coerceFields kind ds ceiling fields).complaints.map
        Complaint.field).filterMap (Complaint.change? name)
      = (d.coerce ceiling ((fields.get? name).getD .null)).2.toList.map
          fun _ => (d.coerce ceiling ((fields.get? name).getD .null)).1 := by
  induction ds with
  | nil => cases h
  | cons own ds ih =>
      obtain ⟨other, o⟩ := own
      obtain ⟨hfresh, hnodup⟩ := List.nodup_cons.1 hnodup
      rw [coerceFields]
      simp only [List.map_append, List.filterMap_append, List.map_map]
      rw [List.lookup_cons] at h
      split at h
      · rename_i heq
        obtain rfl := beq_iff_eq.1 heq
        obtain rfl := Option.some.inj h
        rw [coerceFields_undeclared hfresh, List.append_nil]
        generalize o.coerce ceiling _ = result
        cases result.2 with
        | none => rfl
        | some problem => simp [change?_field]
      · rename_i hne
        have hne : other ≠ name := fun heq => by
          rw [heq, beq_self_eq_true] at hne
          cases hne
        rw [ih hnodup h]
        generalize o.coerce ceiling _ = result
        cases result.2 with
        | none => rfl
        | some problem => simp [change?_field, hne]

/-- What coercion says of a field is the problem of its domain with it. -/
theorem coerceFields_problem {kind : String} {ds : Domains} {ceiling : Value}
    {fields : Members} (hnodup : (ds.map (·.1)).Nodup) {f : FieldComplaint}
    (hf : f ∈ (coerceFields kind ds ceiling fields).complaints) {d : Domain}
    (h : ds.lookup f.field = some d) :
    f.kind = kind
      ∧ (d.coerce ceiling ((fields.get? f.field).getD .null)).2
          = some f.problem := by
  induction ds with
  | nil => cases hf
  | cons own ds ih =>
      obtain ⟨other, o⟩ := own
      obtain ⟨hfresh, hnodup⟩ := List.nodup_cons.1 hnodup
      rcases List.mem_append.1 hf with hown | hrest
      · obtain ⟨problem, hproblem, rfl⟩ := List.mem_map.1 hown
        rw [List.lookup_cons_self] at h
        cases h
        exact ⟨rfl, Option.mem_toList.1 hproblem⟩
      · have hmem := coerceFields_declared _ _ _ _ f hrest
        have hne : f.field ≠ other := fun heq => hfresh (heq ▸ hmem)
        rw [List.lookup_cons, beq_false_of_ne hne] at h
        exact ih hnodup hrest h

/-- What is said of a declared field of a block: that its domain changed it,
    if it did, and whatever is said of it after the body. -/
theorem changes_declared {b : Block} {name : String} {d : Domain}
    {raw : Value} (h : b.declared? name = some (d, raw)) :
    b.changes t name
      = ((d.coerce t.ceiling raw).2.toList.map
            fun _ => (d.coerce t.ceiling raw).1)
        ++ (b.complaintsAfter t).filterMap (Complaint.change? name) := by
  obtain ⟨k, fields, hresolve, hlookup, rfl⟩ := Block.declared?_eq_some_iff.1 h
  have hname : sourceName b.kind ≠ placeholderKind := by
    intro hplaceholder
    rw [Block.resolve?_placeholder b.fields hplaceholder] at hresolve
    cases hresolve
  unfold Block.changes Block.complaints Block.complaintsBefore
  rw [if_neg hname, Block.known?_resolved hresolve, List.filterMap_append]
  dsimp only
  rw [List.filterMap_append,
    coerceFields_changes (Domains.of_nodup k _) hlookup]
  congr 1
  split <;> rfl

/-! ## Fields that can be shown -/

/-- Whether all declared fields of a block can be shown. -/
def Block.IsShowable (b : Block) : Prop :=
  ∀ name d raw, b.declared? name = some (d, raw) → raw.showable = true

variable {n : Int}

/-- Fields can be brought into bounded domains if those that are declared
    can be shown, and only then. -/
theorem fieldsFault?_eq_none_iff (hc : t.ceiling = .int n)
    (hn : Value.legibleInt n = true) {ds : Domains}
    (hbounded : ∀ d ∈ ds, d.2.isBounded = true) (fields : Members) :
    fieldsFault? ds t.ceiling fields = none ↔
      ∀ name d, ds.lookup name = some d →
        ((fields.get? name).getD .null).showable = true := by
  unfold fieldsFault?
  rw [List.findSome?_eq_none_iff]
  constructor
  · intro h name d hlookup
    have hnone := h (name, d) (mem_of_lookup hlookup)
    unfold Domain.fault? at hnone
    split at hnone
    · cases hnone
    · rename_i hshown
      exact not_not.1 hshown
  · intro h d hd
    have hlookup : (ds.lookup d.1).isSome = true := by
      simpa [List.lookup_isSome_iff] using ⟨d.2, hd⟩
    obtain ⟨own, hown⟩ := Option.isSome_iff_exists.1 hlookup
    exact Domain.fault?_showable hc hn (hbounded d hd) (h d.1 own hown)

/-- A block of a written kind can be compiled without its body if its
    declared fields can be shown, and only then. -/
theorem blockFault?_bare_iff (hc : t.ceiling = .int n)
    (hn : Value.legibleInt n = true) {b : Block} {name : String}
    (hkind : b.kind = .str name) :
    blockFault? t { b with body := none } = none ↔ b.IsShowable := by
  obtain ⟨kind, fields, body⟩ := b
  obtain rfl : kind = .str name := hkind
  have hceiling : t.ceiling.legible = true := by
    rw [hc]
    exact hn
  unfold blockFault? Block.IsShowable
  simp only [Block.declared?_eq_some_iff]
  split
  · rename_i hplaceholder
    rw [Block.resolve?_placeholder fields hplaceholder]
    simp
  · simp only [Value.key]
    cases hresolve : Block.resolve? (.str name) fields with
    | none => simp [Value.legible]
    | some r =>
        obtain ⟨k, proper⟩ := r
        have hfields := fieldsFault?_eq_none_iff hc hn
          (Domains.of_bounded k (sourceName (.str name))) proper
        simp only [hceiling, not_true_eq_false, and_false, if_false,
          Option.orElse_eq_orElse, Option.orElse_eq_or, Option.or_none,
          hfields]
        constructor
        · rintro h field d raw ⟨_, _, heq, hlookup, rfl⟩
          cases heq
          exact h field d hlookup
        · intro h field d hlookup
          exact h field d _ ⟨k, proper, rfl, hlookup, rfl⟩

/-- Blocks can be compiled if each block at a place among them can without
    its body. -/
theorem blocksFault?_places {bs : List Block} :
    blocksFault? t bs = none ↔
      ∀ place b, itemAt? Block.inside bs place = some b →
        blockFault? t { b with body := none } = none := by
  have hbelow : ∀ b : Block, blockFault? t b = none ↔
      ∀ place x, itemBelow? Block.inside b place = some x →
        blockFault? t { x with body := none } = none := by
    intro b
    induction b using Block.induct with
    | step kind fields body ih =>
        rw [blockFault?_eq_none_iff, blocksFault?_eq_none_iff]
        constructor
        · rintro ⟨hown, hinside⟩ place x hx
          cases place with
          | nil =>
              cases hx
              exact hown
          | cons i place =>
              obtain ⟨y, hy, hx⟩ := Option.bind_eq_some_iff.1 hx
              have hmem := List.mem_of_getElem? hy
              exact (ih y (Block.mem_body hmem)).1 (hinside y hmem) place x hx
        · refine fun h => ⟨h [] _ rfl, fun y hy => ?_⟩
          obtain ⟨i, hi⟩ := List.mem_iff_getElem?.1 hy
          refine (ih y (Block.mem_body hy)).2 fun place x hx => ?_
          exact h (i :: place) x (Option.bind_eq_some_iff.2 ⟨y, hi, hx⟩)
  rw [blocksFault?_eq_none_iff]
  constructor
  · intro h place x hx
    cases place with
    | nil => cases hx
    | cons i place =>
        obtain ⟨b, hb, hx⟩ := Option.bind_eq_some_iff.1 hx
        exact (hbelow b).1 (h b (List.mem_of_getElem? hb)) place x hx
  · intro h b hb
    obtain ⟨i, hi⟩ := List.mem_iff_getElem?.1 hb
    refine (hbelow b).2 fun place x hx => ?_
    exact h (i :: place) x (Option.bind_eq_some_iff.2 ⟨b, hi, hx⟩)

/-- A forest of written kinds compiles if the declared fields of all its
    blocks can be shown, and only then. -/
theorem compileForest?_shown (hc : t.ceiling = .int n)
    (hn : Value.legibleInt n = true) {bs : List Block}
    (hkinds : ∀ place b, itemAt? Block.inside bs place = some b →
      ∃ name, b.kind = .str name) :
    (∃ compiled, compileForest? t bs = .ok compiled) ↔
      ∀ place b, itemAt? Block.inside bs place = some b → b.IsShowable := by
  have hfaults : (∃ compiled, compileForest? t bs = .ok compiled)
      ↔ blocksFault? t bs = none := by
    simp [compileForest?_eq_ok_iff]
  rw [hfaults, blocksFault?_places]
  refine forall_congr' fun place => forall_congr' fun b =>
    forall_congr' fun hb => ?_
  obtain ⟨name, hname⟩ := hkinds place b hb
  exact blockFault?_bare_iff hc hn hname

/-- What is read has a written kind. -/
theorem Value.readBlock_kind_text (v : Value) :
    ∃ name, v.readBlock.kind = .str name := by
  cases h : v.kindName? with
  | none =>
      rw [readBlock, sourceBlock_unnamed h]
      exact ⟨_, rfl⟩
  | some name =>
      rw [readBlock_named h]
      exact ⟨_, rfl⟩

/-- So it is with what is written, where what is compiled counts. -/
theorem compileSource_shown (hc : t.ceiling = .int n)
    (hn : Value.legibleInt n = true) (source : Value) :
    (∃ compiled, compileSource t source = .ok compiled) ↔
      ∀ place v, source.Visits place v → v.readBlock.IsShowable := by
  unfold Value.Visits
  cases hitems : sourceItems? source with
  | none =>
      unfold compileSource
      rw [hitems]
      simp
  | some items =>
      have hsame : (∃ compiled, compileSource t source = .ok compiled)
          ↔ ∃ compiled,
            compileForest? t (items.map Value.readBlock) = .ok compiled := by
        rw [compileSource_items hitems]
        constructor
        · rintro ⟨compiled, h⟩
          exact ⟨_, (compileSource_list h).1⟩
        · rintro ⟨compiled, h⟩
          refine ⟨⟨compiled.program, (sourceBlocks [] 0 items).2
            ++ compiled.warnings⟩, ?_⟩
          show (compileForest? t (sourceBlocks [] 0 items).1).map _ = _
          rw [sourceForest_eq]
          dsimp only
          rw [h]
          rfl
      rw [hsame, compileForest?_shown hc hn fun place b hb => ?_]
      · simp only [itemAt?_map readBlock_inside,
          Option.map_eq_some_iff, Option.some.injEq, exists_eq_left']
        exact ⟨fun h place v hv => h place _ ⟨v, hv, rfl⟩,
          fun h place b ⟨v, hv, heq⟩ => heq ▸ h place v hv⟩
      · rw [itemAt?_map readBlock_inside] at hb
        obtain ⟨v, -, rfl⟩ := Option.map_eq_some_iff.1 hb
        exact v.readBlock_kind_text

end BlockStage
