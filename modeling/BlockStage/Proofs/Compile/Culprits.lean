import BlockStage.Proofs.Compile.Items

/-! # Culprits — every warning points at its cause

    What is said of a block says what is the matter with it
    (`complaints_say`), and what reading says of an item likewise.  A
    warning of a compiled list therefore points at the item that is its
    cause (`compileSource_points`), and the other way round an item that
    has no kind cannot be left out without a warning at its place, unless
    it bears the name of a placeholder (`compileSource_reports`). -/

namespace BlockStage

open Value

variable {t : Target}

/-! ## What is said of a block -/

/-- The complaints that may be made about a block. -/
inductive Block.Says (t : Target) (b : Block) : Complaint → Prop
  | unknown : b.kind? = none → sourceName b.kind ≠ placeholderKind →
      Says t b (.unknownKind b.kind)
  | unexpected {k : Kind} : b.kind? = some k → k.isCompound = false →
      b.body.isSome = true → Says t b (.unexpectedBody k)
  | field {k : Kind} {f : FieldComplaint} : b.kind? = some k →
      f.field ∈ (Domains.of (some k) (sourceName b.kind)).map (·.1) →
      Says t b (.field f)
  | snapped {degrees snapped : Int} : b.kind? = some .turn →
      Says t b (.turnSnapped degrees snapped)
  | bounded : b.kind? = some .repeatForever →
      Says t b (.foreverBounded t.ceiling)
  | never : b.kind? = some .ifCondition → Says t b .alwaysFalse

/-- Only declared fields are complained of. -/
theorem coerceFields_declared (kind : String) (ds : Domains) (ceiling : Value)
    (fields : Members) :
    ∀ f ∈ (coerceFields kind ds ceiling fields).complaints,
      f.field ∈ ds.map (·.1) := by
  induction ds with
  | nil => nofun
  | cons d ds ih =>
      obtain ⟨name, d⟩ := d
      intro f hf
      rcases List.mem_append.1 hf with hf | hf
      · obtain ⟨problem, -, rfl⟩ := List.mem_map.1 hf
        exact List.mem_cons_self ..
      · exact List.mem_cons_of_mem _ (ih f hf)

/-- What a kind says after its body. -/
theorem instructionsOf_says {b : Block} {k : Kind} (hk : b.kind? = some k)
    (values : Members) :
    ∀ c ∈ (instructionsOf t [] k values []).warnings.map (·.complaint),
      b.Says t c := by
  have hturn : ∀ degrees, k = .turn →
      ∀ c ∈ (turnDegrees t [] degrees).2.map (·.complaint), b.Says t c := by
    rintro degrees rfl c hc
    unfold turnDegrees at hc
    split at hc
    · split at hc
      · cases hc
      · obtain rfl := List.mem_singleton.1 hc
        exact .snapped hk
    · cases hc
  intro c hc
  cases k with
  | turn =>
      simp only [instructionsOf] at hc
      split at hc <;> exact hturn _ rfl c hc
  | repeatForever =>
      obtain rfl := List.mem_singleton.1 hc
      exact .bounded hk
  | ifCondition =>
      simp only [instructionsOf] at hc
      split at hc
      · cases hc
      · cases hc
      · obtain rfl := List.mem_singleton.1 hc
        exact .never hk
  | _ => cases hc

/-- What is said of a block is one of these. -/
theorem complaints_say (b : Block) :
    ∀ c ∈ b.complaints t, b.Says t c := by
  intro c hc
  have hkind : ∀ {k fields}, b.known? t = some (k, fields) →
      b.kind? = some k ∧ ∃ proper, fields = coerceFields k.name
        (Domains.of (some k) (sourceName b.kind)) t.ceiling proper := by
    intro k fields hk
    obtain ⟨⟨own, proper⟩, hresolve, heq⟩ := Option.map_eq_some_iff.1 hk
    cases heq
    exact ⟨congrArg _ hresolve, proper, rfl⟩
  rcases List.mem_append.1 hc with hc | hc
  · unfold Block.complaintsBefore at hc
    split at hc
    · cases hc
    · rename_i hname
      split at hc
      · rename_i hnone
        obtain rfl := List.mem_singleton.1 hc
        refine .unknown ?_ hname
        unfold Block.kind?
        rw [Option.map_eq_none_iff.1 hnone]
        rfl
      · rename_i k fields hk
        obtain ⟨hown, proper, rfl⟩ := hkind hk
        rcases List.mem_append.1 hc with hc | hc
        · split at hc
          · rename_i hbody
            obtain rfl := List.mem_singleton.1 hc
            exact .unexpected hown (Bool.eq_false_iff.2 hbody.2) hbody.1
          · cases hc
        · obtain ⟨f, hf, rfl⟩ := List.mem_map.1 hc
          exact .field hown (coerceFields_declared _ _ _ _ f hf)
  · unfold Block.complaintsAfter at hc
    split at hc
    · cases hc
    · rename_i k fields hk
      exact instructionsOf_says (hkind hk).1 _ c hc

/-- The fields that a name has ranges for are declared by its kind. -/
theorem Domains.of_declared {name : String} {k : Kind}
    (h : Kind.ofWritten? name = some k) :
    ∀ field ∈ (Domains.of (some k) name).map (·.1),
      (k.domains.lookup field).isSome = true := by
  have hown : ∀ ds : Domains, ∀ field ∈ ds.map (·.1),
      (ds.lookup field).isSome = true := by
    intro ds field hfield
    obtain ⟨d, hd, rfl⟩ := List.mem_map.1 hfield
    simpa [List.lookup_isSome_iff] using ⟨d.2, hd⟩
  -- the ranges of an editor name are those of fields of its kind
  have heditor : editorDomains.all (fun e =>
      (Kind.ofWritten? e.1).all fun k =>
        ((Domains.of (some k) e.1).map (·.1)).all fun field =>
          (k.domains.lookup field).isSome) = true := by
    decide +kernel
  cases hlookup : editorDomains.lookup name with
  | none =>
      unfold Domains.of
      rw [hlookup]
      exact hown k.domains
  | some own =>
      obtain ⟨before, after, heq, -⟩ := List.lookup_eq_some_iff.1 hlookup
      have hname := List.all_eq_true.1 heditor (name, own) (by simp [heq])
      rw [h] at hname
      exact List.all_eq_true.1 hname

/-! ## The cause of a warning -/

/-- Whether an item is no object with a text as its kind, has fields that
    are no object, or has a body that is no list. -/
def Value.IsMalformed (v : Value) : Prop :=
  (∀ ms, v ≠ .object ms)
    ∨ (∀ s, v.get? "kind" ≠ some (.str s))
    ∨ (∃ x, v.get? "fields" = some x ∧ x ≠ .null ∧ ∀ ms, x ≠ .object ms)
    ∨ ∃ x, v.get? "body" = some x ∧ x ≠ .null ∧ ∀ items, x ≠ .list items

/-- Whether an item is the cause of a warning, told by its code and its
    details. -/
def Warning.PointsAt (w : Warning) (v : Value) : Prop :=
  match w.code with
  | "MALFORMED_BLOCK" => v.IsMalformed
  | "UNKNOWN_BLOCK" =>
      ∃ name, w.complaint.details = some [("kind", .str name)]
        ∧ v.get? "kind" = some (.str name)
        ∧ Kind.ofName? name = none ∧ alias? name = none
  | "UNEXPECTED_BODY" =>
      (∃ k, v.kind? = some k ∧ k.isCompound = false)
        ∧ ∃ items, v.get? "body" = some (.list items)
  | "INVALID_FIELD_VALUE" =>
      ∃ k details field, v.kind? = some k
        ∧ w.complaint.details = some details
        ∧ Members.get? details "field" = some (.str field)
        ∧ (k.domains.lookup field).isSome = true
  | "FOREVER_LOOP_BOUNDED" => v.kind? = some .repeatForever
  | "CONDITION_ALWAYS_FALSE" => v.kind? = some .ifCondition
  | _ => False

/-- What reading says of an item is about that item. -/
theorem defects_point {v : Value} {w : Warning}
    (h : w.complaint ∈ v.defects) : w.PointsAt v := by
  obtain ⟨p, c⟩ := w
  unfold defects at h
  split at h
  · rename_i hnone
    obtain rfl := List.mem_singleton.1 h
    refine .inr (.inl fun s hs => ?_)
    rw [kindName?_eq_some_iff.2 hs] at hnone
    cases hnone
  · rcases List.mem_append.1 h with h | h
    · split at h
      · rename_i hfields
        obtain rfl := List.mem_singleton.1 h
        refine .inr (.inr (.inl ?_))
        unfold sourceFields? at hfields
        split at hfields
        · cases hfields
        · cases hfields
        · cases hfields
        · rename_i x hnull hobject hget
          exact ⟨x, hget, hnull, hobject⟩
      · cases h
    · unfold bodyDefects at h
      split at h
      · cases h
      · cases h
      · cases h
      · rename_i x hnull hlist hget
        obtain rfl := List.mem_singleton.1 h
        exact .inr (.inr (.inr ⟨x, hget, hnull, hlist⟩))

/-- What the compiler says of the block that an item is read as is about
    that item. -/
theorem complaints_point {v : Value} {w : Warning}
    (h : w.complaint ∈ v.readBlock.complaints t) : w.PointsAt v := by
  obtain ⟨p, c⟩ := w
  have hkind := readBlock_kind v
  have hnamed : ∀ {k}, v.readBlock.kind? = some k →
      v.kind? = some k ∧ ∃ name, v.kindName? = some name
        ∧ Kind.ofWritten? name = some k := by
    intro k hk
    rw [hkind] at hk
    exact ⟨hk, Option.bind_eq_some_iff.1 hk⟩
  cases complaints_say _ _ h with
  | unknown hnone hname =>
      cases hown : v.kindName? with
      | none =>
          rw [readBlock, sourceBlock_unnamed hown] at hname
          exact absurd rfl hname
      | some name =>
          have hwritten : Kind.ofWritten? name = none := by
            rw [hkind, kind?, hown] at hnone
            exact hnone
          obtain ⟨hproper, halias⟩ := Option.or_eq_none_iff.1 hwritten
          rw [readBlock_named hown]
          exact ⟨name, rfl, kindName?_eq_some_iff.1 hown, hproper,
            Option.map_eq_none_iff.1 halias⟩
  | unexpected hk hsimple hbody =>
      obtain ⟨hown, name, hname, -⟩ := hnamed hk
      refine ⟨⟨_, hown, hsimple⟩, ?_⟩
      rw [readBlock_named hname, Option.isSome_map] at hbody
      obtain ⟨items, hitems⟩ := Option.isSome_iff_exists.1 hbody
      exact ⟨items, bodyItems?_eq_some_iff.1 hitems⟩
  | field hk hfield =>
      obtain ⟨hown, name, hname, hwritten⟩ := hnamed hk
      rw [readBlock_named hname] at hfield
      exact ⟨_, _, _, hown, rfl, rfl,
        Domains.of_declared hwritten _ hfield⟩
  | snapped hk => exact ⟨_, _, "degrees", (hnamed hk).1, rfl, rfl, rfl⟩
  | bounded hk => exact (hnamed hk).1
  | never hk => exact (hnamed hk).1

/-! ## Compiled lists -/

/-- The items that are read are in the bodies. -/
theorem readItems_body (v : Value) :
    v.readItems = v.bodyItems ∨ v.readItems = [] := by
  unfold readItems
  split
  · exact .inl rfl
  · exact .inr rfl

/-- The items that are compiled are read. -/
theorem visitedItems_read (v : Value) :
    v.visitedItems = v.readItems ∨ v.visitedItems = [] := by
  unfold visitedItems
  cases hk : v.kind? with
  | none => exact .inr rfl
  | some k =>
      obtain ⟨name, hname, -⟩ := Option.bind_eq_some_iff.1 hk
      have hread : v.readItems = v.bodyItems := by
        unfold readItems
        rw [hname]
        rfl
      dsimp only
      split
      · exact .inl hread.symm
      · exact .inr rfl

/-- Every warning of a compiled list leads, by its path, to an item that is
    the cause of the warning. -/
theorem compileSource_points (c : Config) {items : List Value}
    {compiled : Compiled}
    (h : compileSource c.target (.list items) = .ok compiled) :
    ∀ w ∈ compiled.warnings,
      ∃ v, itemAt? bodyItems items w.path = some v ∧ w.PointsAt v := by
  intro w hw
  rcases (mem_compileSource_iff h w).1 hw with ⟨v, hv, hc⟩ | ⟨v, hv, hc⟩
  · exact ⟨v, itemAt?_mono readItems_body hv, defects_point hc⟩
  · exact ⟨v, itemAt?_mono readItems_body (itemAt?_mono visitedItems_read hv),
      complaints_point hc⟩

/-- A loop without end whose fields are no object, around an item that is no
    block, a condition that never holds, and a block of unknown kind. -/
def brokenLoop : List Value :=
  [.object [("kind", .str "kontrol_selamanya"), ("fields", .int 5),
    ("body", .list [.int 7,
      .object [("kind", .str "if-condition"), ("body", .list [.object []])],
      .object [("kind", .str "terbang")]])]]

/-- A list that holds nothing else compiles, and its six warnings lead to
    their causes. -/
theorem compileSource_points_broken :
    ∃ compiled,
      compileSource Config.standard.target (.list brokenLoop) = .ok compiled
      ∧ compiled.warnings.map (fun w => (w.code, w.path.text))
        = [("MALFORMED_BLOCK", "0"), ("MALFORMED_BLOCK", "0/body/0"),
          ("MALFORMED_BLOCK", "0/body/1/body/0"),
          ("CONDITION_ALWAYS_FALSE", "0/body/1"),
          ("UNKNOWN_BLOCK", "0/body/2"), ("FOREVER_LOOP_BOUNDED", "0")]
      ∧ ∀ w ∈ compiled.warnings,
          ∃ v, itemAt? bodyItems brokenLoop w.path = some v
            ∧ w.PointsAt v := by
  have hwarnings :
      (compileSource Config.standard.target (.list brokenLoop)).toOption.map
        (fun compiled => compiled.warnings.map
          fun w => (w.code, w.path.text))
        = some [("MALFORMED_BLOCK", "0"), ("MALFORMED_BLOCK", "0/body/0"),
          ("MALFORMED_BLOCK", "0/body/1/body/0"),
          ("CONDITION_ALWAYS_FALSE", "0/body/1"),
          ("UNKNOWN_BLOCK", "0/body/2"), ("FOREVER_LOOP_BOUNDED", "0")] := by
    decide +kernel
  cases h : compileSource Config.standard.target (.list brokenLoop) with
  | error f =>
      rw [h] at hwarnings
      cases hwarnings
  | ok compiled =>
      rw [h] at hwarnings
      exact ⟨compiled, rfl, Option.some.inj hwarnings,
        compileSource_points Config.standard h⟩

/-- An item that has no kind and is come upon in compilation is reported at
    its place, unless it bears the name of a placeholder. -/
theorem compileSource_reports (c : Config) {items : List Value}
    {compiled : Compiled}
    (h : compileSource c.target (.list items) = .ok compiled) {place : Path}
    {v : Value} (hv : itemAt? visitedItems items place = some v)
    (hkind : v.kind? = none) (hname : v.kindName? ≠ some placeholderKind) :
    ∃ w ∈ compiled.warnings, w.path = place
      ∧ (w.code = "MALFORMED_BLOCK" ∨ w.code = "UNKNOWN_BLOCK") := by
  cases hown : v.kindName? with
  | none =>
      refine ⟨⟨place, .notABlock⟩, ?_, rfl, .inl rfl⟩
      refine (mem_compileSource_iff h _).2 (.inl ⟨v, ?_, ?_⟩)
      · exact itemAt?_mono visitedItems_read hv
      · unfold defects
        rw [hown]
        exact List.mem_singleton_self _
  | some name =>
      refine ⟨⟨place, .unknownKind (.str name)⟩, ?_, rfl, .inr rfl⟩
      refine (mem_compileSource_iff h _).2 (.inr ⟨v, hv, ?_⟩)
      have hnone : v.readBlock.known? c.target = none := by
        rw [← readBlock_kind, Block.kind?, Option.map_eq_none_iff] at hkind
        rw [Block.known?, hkind]
        rfl
      have hother : sourceName v.readBlock.kind ≠ placeholderKind := by
        rw [readBlock_named hown]
        exact fun heq => hname (hown.trans (congrArg some heq))
      unfold Block.complaints Block.complaintsBefore
      rw [if_neg hother, hnone, readBlock_named hown]
      exact List.mem_cons_self ..

/-- In the body of the loop the block of unknown kind is reported. -/
theorem compileSource_reports_broken :
    ∃ compiled v,
      compileSource Config.standard.target (.list brokenLoop) = .ok compiled
      ∧ itemAt? visitedItems brokenLoop [0, 2] = some v
      ∧ v.kind? = none ∧ v.kindName? ≠ some placeholderKind
      ∧ ∃ w ∈ compiled.warnings, w.path = [0, 2]
        ∧ (w.code = "MALFORMED_BLOCK" ∨ w.code = "UNKNOWN_BLOCK") := by
  have hcompiles : (compileSource Config.standard.target
      (.list brokenLoop)).toOption.isSome = true := by
    decide +kernel
  cases h : compileSource Config.standard.target (.list brokenLoop) with
  | error f =>
      rw [h] at hcompiles
      cases hcompiles
  | ok compiled =>
      have hname : kindName? (.object [("kind", .str "terbang")])
          ≠ some placeholderKind := by
        decide +kernel
      exact ⟨compiled, _, rfl, rfl, rfl, hname,
        compileSource_reports Config.standard h rfl rfl hname⟩

/-- An object with the name of a placeholder as its kind is left out without
    a word. -/
theorem compileSource_placeholder_silent :
    ∃ compiled v,
      compileSource Config.standard.target
          (.list [.object [("kind", .str placeholderKind)]]) = .ok compiled
      ∧ itemAt? visitedItems [.object [("kind", .str placeholderKind)]] [0]
          = some v
      ∧ v.kind? = none
      ∧ ¬ ∃ w ∈ compiled.warnings, w.path = [0]
          ∧ (w.code = "MALFORMED_BLOCK" ∨ w.code = "UNKNOWN_BLOCK") := by
  have hcompiles : compileSource Config.standard.target
      (.list [.object [("kind", .str placeholderKind)]])
        = .ok ⟨[], []⟩ := by
    rfl
  exact ⟨_, _, hcompiles, rfl, rfl, fun ⟨w, hw, _⟩ => by cases hw⟩

end BlockStage
