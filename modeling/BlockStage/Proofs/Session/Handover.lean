import BlockStage.Proofs.Run.Solo
import BlockStage.Proofs.Session.Likeness

/-! # Handing over — the three ways in agree

    A call brings its forests as blocks, as a written list, or as a written
    object with the list under `blocks`.  Forests that are the same in this
    sense (`Forest.Same`) compile to the same, and so the session is the
    same whichever way they come: worlds stay alike all along a course. -/

namespace BlockStage

/-- Forests that are the same, handed over in different ways: blocks and
    what is written for them; a written list that compiles cleanly and the
    blocks that the strict reader finds in it; a written list and an object
    that holds it. -/
inductive Forest.Same (t : Target) : Forest → Forest → Prop
  | refl (f : Forest) : Same t f f
  | symm {f g : Forest} : Same t f g → Same t g f
  | trans {f g h : Forest} : Same t f g → Same t g h → Same t f h
  | written {blocks : List Block} : Block.allNamed blocks = true →
      Same t (.nodes blocks) (.source (.list (Block.toValues blocks)))
  | read {items : List Value} {blocks : List Block} {compiled : Compiled} :
      compileSource t (.list items) = .ok compiled → compiled.Clean →
      items.map Block.ofValue = blocks.map .ok →
      Same t (.source (.list items)) (.nodes blocks)
  | wrapped {items : List Value} {ms : Members} :
      Members.get? ms "blocks" = some (.list items) →
      Same t (.source (.list items)) (.source (.object ms))

namespace World

variable {c : Config} {f g : Forest}

/-- Forests that are the same compile to the same. -/
theorem compileFor_same (h : f.Same c.target g) :
    compileFor c f = compileFor c g := by
  induction h with
  | refl => rfl
  | symm _ ih => exact ih.symm
  | trans _ _ ih₁ ih₂ => exact ih₁.trans ih₂
  | written hnamed => exact (compileSource_toValues hnamed).symm
  | @read items blocks compiled hcompiles hclean hreads =>
      obtain ⟨blocks', hreads', hsame⟩ := hclean.reads hcompiles
      have hblocks : blocks = blocks' :=
        List.map_injective_iff.2 (fun _ _ => Except.ok.inj)
          (hreads.symm.trans hreads')
      rw [hblocks]
      exact hcompiles.trans hsame.symm
  | @wrapped items ms hget =>
      have hitems : sourceItems? (.object ms) = some items := by
        simp only [sourceItems?, hget]
      show compileSource c.target (.list items)
        = compileSource c.target (.object ms)
      unfold compileSource
      rw [hitems]
      rfl

/-- Scripts with the same forests for the same agents are alike. -/
theorem script_same {fs gs : List (String × Forest)}
    (h : List.Forall₂ (fun f g => f.1 = g.1 ∧ f.2.Same c.target g.2) fs gs) :
    (Script.forests fs).Like c (.forests gs) := by
  have hcompiled : (gs.mapM fun g => do return (g.1, ← compileFor c g.2))
      = fs.mapM fun f => do return (f.1, ← compileFor c f.2) := by
    induction h with
    | nil => rfl
    | cons hfg hrest ih =>
        rw [List.mapM_cons, List.mapM_cons, ih, hfg.1,
          compileFor_same hfg.2]
  exact ⟨congrArg (· >>= _) hcompiled⟩

/-- What is written for a block is read back as the block.  What is written
    for a forest compiles to the forest's program and warnings.  A list that
    compiles without a word about malformed blocks holds blocks only, and
    these compile to the same.  And a session takes the same course
    whichever way its forests are handed over. -/
theorem handed_over [Arithmetic] (c : Coordinator) :
    (∀ b : Block, Block.ofValue b.toValue = .ok b)
    ∧ (∀ (t : Target) (blocks : List Block),
        Block.allNamed blocks = true →
        compileSource t (.list (Block.toValues blocks))
          = compileForest? t blocks)
    ∧ (∀ (t : Target) (items : List Value) (compiled : Compiled),
        compileSource t (.list items) = .ok compiled → compiled.Clean →
        ∃ blocks, items.map Block.ofValue = blocks.map .ok
          ∧ compileForest? t blocks = .ok compiled)
    ∧ ∀ fs gs : List (String × Forest),
        List.Forall₂ (fun f g => f.1 = g.1 ∧ f.2.Same c.config.target g.2)
          fs gs →
        ∀ (w v : World) (cast : List String) (ds : List Deed),
          Course c w (.call (.forests fs) cast :: ds) v →
          ∃ v', Course c w (.call (.forests gs) cast :: ds) v'
            ∧ Like c.config (fun _ => true) v v' := by
  refine ⟨Block.ofValue_toValue, fun _ _ => compileSource_toValues,
    fun _ _ _ h hclean => hclean.reads h, fun fs gs hsame w v cast ds h => ?_⟩
  have hdeeds : List.Forall₂ (Deed.Like c.config)
      (.call (.forests fs) cast :: ds) (.call (.forests gs) cast :: ds) :=
    .cons (.call cast (script_same hsame))
      (List.forall₂_same.2 fun d _ => .same d)
  exact (Like.refl w).course rfl (.refl c.handler) h hdeeds

attribute [local instance] Arithmetic.binary64

/-- A step and a loop without end around a turn. -/
def nestedForest : List Block :=
  [⟨.str "move", [("distance", .int 2)], none⟩,
    ⟨.str "repeat-forever", [], some
      [⟨.str "turn", [("degrees", .int 90)], none⟩]⟩]

/-- A coordinator on the grid whose loops end after two passes. -/
def nestedCoordinator : Coordinator :=
  ⟨{ Config.standard with loopCeiling := 2 }, none, .quiet .present, .absent⟩

/-- A forest with a loop runs for twenty turns, handed over as blocks and
    as an object. -/
theorem handed_over_nested :
    Block.allNamed nestedForest = true
    ∧ (∃ compiled,
        compileSource nestedCoordinator.config.target
          (.list (Block.toValues nestedForest)) = .ok compiled
        ∧ compiled.Clean
        ∧ ∃ blocks, (Block.toValues nestedForest).map Block.ofValue
            = blocks.map .ok
          ∧ compileForest? nestedCoordinator.config.target blocks
            = .ok compiled)
    ∧ ∃ v v', Course nestedCoordinator
          (.initial [("a", .atStart (.str "a") [0, 0] 90)])
          (.call (.forests [("a", .nodes nestedForest)]) ["a"]
            :: List.replicate 20 .turn) v
        ∧ Course nestedCoordinator
          (.initial [("a", .atStart (.str "a") [0, 0] 90)])
          (.call (.forests [("a", .source (.object
            [("blocks", .list (Block.toValues nestedForest))]))]) ["a"]
            :: List.replicate 20 .turn) v'
        ∧ Like nestedCoordinator.config (fun _ => true) v v' := by
  obtain ⟨-, hwritten, hreads, hruns⟩ := handed_over nestedCoordinator
  have hcompiles : ∃ compiled,
      compileForest? nestedCoordinator.config.target nestedForest
        = .ok compiled ∧ compiled.Clean := by
    have hfault : blocksFault? nestedCoordinator.config.target nestedForest
        = none := Option.isNone_iff_eq_none.1 (by decide +kernel)
    refine ⟨compileForest nestedCoordinator.config.target nestedForest, ?_,
      fun w hw => compileBlocks_code _ _ _ _ w hw⟩
    unfold compileForest?
    rw [hfault]
  obtain ⟨compiled, hcompiled, hclean⟩ := hcompiles
  rw [← hwritten _ _ rfl] at hcompiled
  have hcourse := Course.followed (c := nestedCoordinator)
    (w := .initial [("a", .atStart (.str "a") [0, 0] 90)]) (.initial [])
    (show (World.follow nestedCoordinator
        (.initial [("a", .atStart (.str "a") [0, 0] 90)])
        (.call (.forests [("a", .nodes nestedForest)]) ["a"]
          :: List.replicate 20 .turn)).isSome = true by decide +kernel)
  obtain ⟨v', hv', hlike⟩ := hruns [("a", .nodes nestedForest)]
    [("a", .source (.object
      [("blocks", .list (Block.toValues nestedForest))]))]
    (.cons ⟨rfl, .trans (.written rfl) (.wrapped rfl)⟩ .nil) _ _ _ _ hcourse
  exact ⟨rfl, ⟨compiled, hcompiled, hclean,
    hreads _ _ _ hcompiled hclean⟩, _, v', hcourse, hv', hlike⟩

end World

end BlockStage
