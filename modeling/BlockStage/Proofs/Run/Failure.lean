import BlockStage.Proofs.Run.Publication
import BlockStage.Proofs.Run.Replay
import BlockStage.Proofs.Stage.Quarters

/-! # Failures — what fails leaves nothing behind

    On a grid whose cells and pauses can be calculated a run can fail where
    an instruction begins, and there only: at the instruction itself, at the
    first step of a move and at the sleep of a wait.  Nothing has been shown
    then, no time has passed and the agent is as it was (`Solo.Blames`).
    What has been done before is what the instructions without a body did
    that were begun before, and all of these went through (`Phase`). -/

namespace BlockStage

open Act

/-- A grid on which everything but what instructions bring along can be
    calculated. -/
structure Scene.Firm [Arithmetic] (s : Scene) (columns rows : Int) :
    Prop extends s.Measured columns rows where
  pauses : ∀ ms, ms = s.config.stepMs ∨ ms = s.config.turnMs
      ∨ ms = s.config.sayMs →
    ∃ seconds, Walker.pauseSeconds ms = .ok seconds

/-- Acts that cannot fail: those that are left to do of an instruction that
    has had an effect. -/
def Act.Sure [Arithmetic] (s : Scene) (a : Agent) : Act → Prop
  | emit => True
  | check => True
  | hush => True
  | pause ms => ∃ seconds, Walker.pauseSeconds ms = .ok seconds
  | stride _ => ∀ x y : Int, ∃ p,
      gridStep s.config [.int x, .int y] a.heading = .ok p
  | _ => False

/-- Acts that only decide which instruction comes next, or begin one. -/
def Act.isControl : Act → Bool
  | perform _ => true
  | pass _ _ => true
  | _ => false

/-- Acts with which an instruction that has had no effect yet may fail. -/
inductive Act.Risky : List Act → Prop
  | stride {n : Nat} : Risky [.stride n]
  | pause {ms : Value} : Risky [.pause ms, .emit, .check]

section

variable [Arithmetic] {s : Scene} {now : Time} {a b : Agent}
  {next : List Act} {signal : Signal} {columns rows : Int}

/-! ## One act -/

/-- What advances does not fail. -/
theorem Advance.unfailing {todo : List Act}
    (h : Advance s now a todo b next signal) (f : RunFault) :
    signal ≠ .fail f := by
  cases h <;> exact nofun

/-- It depends on where the agent looks, and on nothing else of it, whether
    an act can fail. -/
theorem Act.Sure.congr {act : Act} (h : act.Sure s a)
    (hheading : b.heading = a.heading) : act.Sure s b := by
  cases act with
  | stride left =>
      show ∀ x y : Int, ∃ p, gridStep s.config [.int x, .int y] b.heading
        = .ok p
      rw [hheading]
      exact h
  | _ => exact h

/-- What is left to do of an instruction is carried on by acts that cannot
    fail either. -/
theorem Act.Sure.advance {act : Act} (h : act.Sure s a)
    (hs : s.Firm columns rows) (hadv : Advance s now a [act] b next signal) :
    b.heading = a.heading ∧ ∀ x ∈ next, x.Sure s b := by
  cases hadv with
  | check => exact ⟨rfl, nofun⟩
  | emit => exact ⟨rfl, nofun⟩
  | pause => exact ⟨rfl, nofun⟩
  | hush => exact ⟨rfl, nofun⟩
  | lastStride => exact ⟨rfl, nofun⟩
  | nextStride _ hb =>
      obtain ⟨g, rfl⟩ := Agent.latchGoal_ok hb
      refine ⟨rfl, ?_⟩
      simp only [List.forall_mem_cons, List.not_mem_nil, false_implies,
        implies_true, and_true]
      exact ⟨trivial, hs.pauses _ (.inl rfl), trivial, h⟩
  | _ => exact h.elim

/-- What an instruction without a body leaves to do: it has had no effect
    yet, or nothing of it can fail any more. -/
theorem Advance.leaf {i : Instruction} (hi : i.isLeaf = true)
    (hs : s.Firm columns rows)
    (h : Advance s now a [.perform i] b next signal) :
    signal = .proceed ∧ (b = a ∧ Risky next ∨ ∀ x ∈ next, x.Sure s b) := by
  cases h with
  | glideOff hmode => exact absurd hmode hs.mode
  | swingOff hmode => exact absurd hmode hs.mode
  | strideOff => exact ⟨rfl, .inl ⟨rfl, .stride⟩⟩
  | wait => exact ⟨rfl, .inl ⟨rfl, .pause⟩⟩
  | quarters =>
      refine ⟨rfl, .inr ?_⟩
      simp only [List.forall_mem_cons, List.not_mem_nil, false_implies,
        implies_true, and_true]
      exact ⟨trivial, hs.pauses _ (.inr (.inl rfl)), trivial⟩
  | say =>
      refine ⟨rfl, .inr ?_⟩
      simp only [List.forall_mem_cons, List.not_mem_nil, false_implies,
        implies_true, and_true]
      exact ⟨trivial, hs.pauses _ (.inr (.inr rfl)), trivial, trivial,
        trivial⟩
  | loop hi' => rcases hi' with rfl | rfl <;> cases hi
  | atGoal => cases hi
  | notAtGoal => cases hi

/-- Loops, passes and conditions do nothing that can be seen. -/
theorem Advance.control {act : Act} (hact : act.isControl = true)
    (hleaf : ∀ i, act = .perform i → i.isLeaf = false)
    (h : Advance s now a [act] b next signal) :
    signal = .proceed ∧ b = a ∧ ∀ x ∈ next, x.isControl = true := by
  have hbody : ∀ (body : List Instruction) (rest : List Act),
      (∀ x ∈ rest, x.isControl = true) →
      ∀ x ∈ body.map perform ++ rest, x.isControl = true := by
    intro body rest hrest x hx
    rcases List.mem_append.1 hx with hx | hx
    · obtain ⟨i, -, rfl⟩ := List.mem_map.1 hx
      rfl
    · exact hrest x hx
  cases h with
  | loop => exact ⟨rfl, rfl, by simp [isControl]⟩
  | atGoal => exact ⟨rfl, rfl, hbody _ _ nofun⟩
  | notAtGoal => exact ⟨rfl, rfl, nofun⟩
  | lastPass => exact ⟨rfl, rfl, nofun⟩
  | nextPass => exact ⟨rfl, rfl, hbody _ _ (by simp [isControl])⟩
  | glideOff => cases hleaf _ rfl
  | strideOff => cases hleaf _ rfl
  | swingOff _ hi =>
      rcases hi with rfl | ⟨e, rfl, -⟩ <;> cases hleaf _ rfl
  | quarters _ hi =>
      rcases hi with rfl | ⟨e, rfl, -⟩ <;> cases hleaf _ rfl
  | wait => cases hleaf _ rfl
  | say => cases hleaf _ rfl
  | _ => cases hact

/-- What had no effect yet either has none or can no longer fail. -/
theorem Act.Risky.advance {act : Act} {rest : List Act}
    (h : Risky (act :: rest)) (hs : s.Firm columns rows)
    (hadv : Advance s now a [act] b next signal) :
    ∀ x ∈ next ++ rest, x.Sure s b := by
  cases h with
  | @stride n =>
      rw [List.append_nil]
      cases n with
      | zero =>
          cases hadv
          exact nofun
      | succ n =>
          -- the heading that leads somewhere will do so again
          have hsure : (Act.stride (n + 1)).Sure s a := by
            cases hadv with
            | nextStride hstep => exact gridStep_again hs.counted hstep
          exact (hsure.advance hs hadv).2
  | pause =>
      cases hadv
      simp only [List.nil_append, List.forall_mem_cons, List.not_mem_nil,
        false_implies, implies_true, and_true]
      exact ⟨trivial, trivial⟩

/-! ## Runs that can be shown -/

namespace Solo

variable {o : Observer} {r r₀ : Solo} {act : Act} {rest : List Act}
  {f : RunFault}

/-- What a run keeps while it goes on: its agent stands on a cell, and can be
    shown if somebody looks. -/
structure Able (s : Scene) (o : Observer) (columns rows : Int) (r : Solo) :
    Prop where
  fit : Fit s.config r.walker.todo
  spoken : EveryOf Instruction.IsSpoken r.walker.todo
  cell : r.agent.OnCell columns rows
  readable : o.mode = .absent ∨ r.agent.Readable

/-- A run that goes on has advanced. -/
theorem step_advances (hnone : r.outcome = none)
    (hgo : (r.step s o).outcome = none) :
    Advance s r.now r.agent r.walker.todo (r.next s).agent
      (r.next s).walker.todo (r.next s).signal := by
  obtain ⟨-, -, -, -, houtcome⟩ := step_spec (s := s) (o := o) hnone
  rcases Walker.step_advances s r.now r.now r.running r.agent r.walker o
    r.shown.length with hover | hadv
  · change (r.nextVerdict s o).outcome.isSome = true at hover
    rw [← houtcome, hgo] at hover
    cases hover
  · exact hadv

/-- A run that goes on has advanced by its first act. -/
theorem only_advances (hr : r.walker.todo = act :: rest)
    (hnone : r.outcome = none) (hgo : (r.step s o).outcome = none) :
    Advance s r.now r.agent [act] (r.only s act).agent
      (r.only s act).walker.todo (r.only s act).signal := by
  obtain ⟨-, -, -, -, houtcome⟩ := step_spec (s := s) (o := o) hnone
  rcases Walker.step_advances s r.now r.now r.running r.agent ⟨[act], 0⟩ o
    r.shown.length with hover | hadv
  · have hsame : (r.nextVerdict s o).outcome.isSome = true := by
      unfold nextVerdict
      rw [next_only hr]
      exact hover
    rw [← houtcome, hgo] at hsame
    cases hsame
  · exact hadv

/-- A run that goes on stays able. -/
theorem Able.step (hs : s.Firm columns rows) (h : Able s o columns rows r)
    (hnone : r.outcome = none) (hgo : (r.step s o).outcome = none) :
    Able s o columns rows (r.step s o) := by
  have hadv := step_advances hnone hgo
  obtain ⟨hagent, hwalker, -⟩ := step_spec (s := s) (o := o) hnone
  refine ⟨?_, ?_, ?_, ?_⟩
  · rw [hwalker]
    exact (hadv.fit hs.mode (.inl h.fit)).1
  · rw [hwalker]
    exact Walker.step_everyOf h.spoken
  · rw [hagent]
    exact hadv.onCell hs.toMeasured (.inl ⟨h.fit, h.cell⟩)
  · rw [hagent]
    exact h.readable.imp_right fun ha =>
      hadv.readable hs.toMeasured (.inl h.fit) h.spoken ha

/-- A run whose next act does not fail does not fail with it. -/
theorem Able.unfailed (hs : s.Firm columns rows)
    (ho : ∀ k, (o.reaction k).fails = false)
    (h : Able s o columns rows r) (hnone : r.outcome = none)
    (hsig : ∀ f, (r.next s).signal ≠ .fail f) :
    (r.step s o).outcome ≠ some (.failed f) := by
  obtain ⟨-, -, -, -, houtcome⟩ := step_spec (s := s) (o := o) hnone
  rw [houtcome]
  cases next_cases s o r with
  | finishes _ _ _ hverdict =>
      rw [hverdict]
      exact nofun
  | halts _ _ _ _ hverdict =>
      rw [hverdict]
      exact nofun
  | fails hno => exact absurd hno (hsig _)
  | advances hadv =>
      unfold nextVerdict
      by_cases hemit : (r.next s).signal = .emit
      · rw [hemit]
        rcases verdict_emit o r.shown.length r.now (r.next s).agent r.running
          with ⟨-, heq⟩ | ⟨hmode, ms, hno, -⟩ | ⟨-, snapshot, -, heq⟩
        · rw [heq]
          exact nofun
        · -- whoever can be shown here can be shown there
          have ha : (r.next s).agent.Readable :=
            hadv.readable hs.toMeasured (.inl h.fit) h.spoken
              (h.readable.resolve_left hmode)
          obtain ⟨snapshot, hsnap⟩ := ha.snapshot hs.toMeasured
            (hadv.onCell hs.toMeasured (.inl ⟨h.fit, h.cell⟩))
          rw [hsnap] at hno
          cases hno
        · rw [heq, ho]
          exact nofun
      · rw [hadv.unshown hemit]
        exact nofun

/-- A run whose next act fails ends with that, and nothing has happened. -/
theorem Able.fails (hs : s.Firm columns rows)
    (h : Able s o columns rows r) (hnone : r.outcome = none)
    (hsig : (r.next s).signal = .fail f) :
    (r.step s o).outcome = some (.failed f)
      ∧ (r.step s o).agent = r.agent ∧ (r.step s o).now = r.now
      ∧ (r.step s o).shown = r.shown := by
  have hsame : (r.next s).agent = r.agent := by
    cases next_cases s o r with
    | finishes _ hagent => exact hagent
    | halts _ _ hagent => exact hagent
    | fails _ _ hfalters =>
        exact Placed.falters hs.toMeasured h.fit hfalters
    | advances hadv => exact absurd hsig (hadv.unfailing f)
  rw [step_eq hnone, hsig]
  exact ⟨rfl, hsame, rfl, rfl⟩

/-- Acts that cannot fail do not. -/
theorem Able.sure (hs : s.Firm columns rows) (h : Able s o columns rows r)
    (hr : r.walker.todo = act :: rest) (hsure : act.Sure s r.agent) :
    (r.next s).signal ≠ .fail f := by
  obtain ⟨p, hp, hpos⟩ := h.cell
  unfold next Walker.step
  rw [hr]
  cases act with
  | emit => exact nofun
  | hush => exact nofun
  | check =>
      dsimp only
      split
      · exact nofun
      · exact nofun
  | pause ms =>
      obtain ⟨seconds, hms⟩ := hsure
      dsimp only
      rw [hms]
      exact nofun
  | stride left =>
      cases left with
      | zero => exact nofun
      | succ left =>
          obtain ⟨x, y, rfl, -⟩ := hp
          obtain ⟨q, hq⟩ := hsure x y
          obtain ⟨u, v, rfl, -⟩ := gridStep_isCell hs.counted hq
          dsimp only
          rw [hpos, show Point.position (.int x, .int y)
            = [.int x, .int y] from rfl, hq]
          obtain ⟨b, hb⟩ : ∃ b, Agent.latchGoal { r.agent with
              position := Point.position (.int u, .int v) } s.goal = .ok b :=
            Agent.latchGoal_numbers hs.goal rfl rfl rfl
          show (r.walker.moveTo s r.agent _ _).signal ≠ _
          unfold Walker.moveTo Walker.arrive
          dsimp only
          rw [hb]
          exact nofun
  | _ => exact hsure.elim

/-- A run that fails has failed at its next act, and nothing has happened. -/
theorem Able.blame (hs : s.Firm columns rows)
    (ho : ∀ k, (o.reaction k).fails = false)
    (h : Able s o columns rows r) (hnone : r.outcome = none)
    (hf : (r.step s o).outcome = some (.failed f)) :
    (r.next s).signal = .fail f ∧ (r.step s o).agent = r.agent
      ∧ (r.step s o).now = r.now ∧ (r.step s o).shown = r.shown := by
  by_cases hsig : ∃ g, (r.next s).signal = .fail g
  · obtain ⟨g, hsig⟩ := hsig
    obtain ⟨hg, hsame⟩ := h.fails hs hnone hsig
    rw [hf] at hg
    cases hg
    exact ⟨hsig, hsame⟩
  · push Not at hsig
    exact absurd hf (h.unfailed hs ho hnone hsig)

/-- Where a run goes on at once nobody notices. -/
theorem step_proceeds (hnone : r.outcome = none)
    (hsig : (r.next s).signal = .proceed) :
    (r.step s o).now = r.now ∧ (r.step s o).running = r.running
      ∧ (r.step s o).shown = r.shown := by
  rw [step_eq hnone, hsig]
  exact ⟨rfl, rfl, rfl⟩

/-! ## Where a run may fail -/

variable {running : Bool} {k : Nat}

/-- The instruction that a run is about to begin after some steps fails, at
    once or with the first act it leaves to do if it has no body, and nothing
    has happened then; and what the instructions begun before have done is
    what they do on their own. -/
structure Blames (s : Scene) (o : Observer) (a : Agent) (running : Bool)
    (r₀ : Solo) (k : Nat) (f : RunFault) : Prop where
  goes : (run s o k r₀).outcome = none
  begins : ∃ i rest, (run s o k r₀).walker.todo = .perform i :: rest
    ∧ ((run s o (k + 1) r₀).outcome = some (.failed f) ∨ i.isLeaf = true)
  fails : (run s o (k + 2) r₀).outcome = some (.failed f)
  agent : (run s o (k + 2) r₀).agent = (run s o k r₀).agent
  now : (run s o (k + 2) r₀).now = (run s o k r₀).now
  shown : (run s o (k + 2) r₀).shown = (run s o k r₀).shown
  replays : Replays s o a running (begun s o r₀ k) [] (run s o k r₀)

/-- How far a run has come after some steps: nothing can fail that is left
    to do of the instruction begun last, or this has had no effect yet. -/
inductive Phase (s : Scene) (o : Observer) (a : Agent) (running : Bool)
    (r₀ : Solo) (k : Nat) : Prop
  | sure {head tail : List Act} :
      (run s o k r₀).walker.todo = head ++ tail →
      (∀ x ∈ head, x.Sure s (run s o k r₀).agent) →
      (∀ x ∈ tail, x.isControl = true) →
      Replays s o a running (begun s o r₀ k) head (run s o k r₀) →
      Phase s o a running r₀ k
  | risky {j : Nat} {head tail : List Act} : k = j + 1 →
      (run s o j r₀).outcome = none →
      (∃ i rest, (run s o j r₀).walker.todo = .perform i :: rest
        ∧ i.isLeaf = true) →
      (run s o k r₀).agent = (run s o j r₀).agent →
      (run s o k r₀).now = (run s o j r₀).now →
      (run s o k r₀).shown = (run s o j r₀).shown →
      Replays s o a running (begun s o r₀ j) [] (run s o j r₀) →
      (run s o k r₀).walker.todo = head ++ tail → Risky head →
      (∀ x ∈ tail, x.isControl = true) →
      Replays s o a running (begun s o r₀ k) head (run s o k r₀) →
      Phase s o a running r₀ k

/-- No instruction begins with an act of another kind. -/
theorem begun_succ (hr : (run s o k r₀).walker.todo = act :: rest)
    (hact : ∀ i, act = .perform i → i.isLeaf = false) :
    begun s o r₀ (k + 1) = begun s o r₀ k := by
  rw [begun, leaf?_none hr hact]
  exact List.append_nil _

/-- An instruction without a body begins. -/
theorem begun_leaf {i : Instruction}
    (hr : (run s o k r₀).walker.todo = .perform i :: rest)
    (hnone : (run s o k r₀).outcome = none) (hi : i.isLeaf = true) :
    begun s o r₀ (k + 1) = begun s o r₀ k ++ [i] := by
  rw [begun, leaf?_some hnone hr hi]
  rfl

/-- A run that fails at the act that begins an instruction. -/
theorem Blames.at_once (hs : s.Firm columns rows)
    (ho : ∀ k, (o.reaction k).fails = false)
    (hable : Able s o columns rows (run s o k r₀))
    (hnone : (run s o k r₀).outcome = none) {i : Instruction}
    (hr : (run s o k r₀).walker.todo = .perform i :: rest)
    (hreplays : Replays s o a running (begun s o r₀ k) [] (run s o k r₀))
    (hf : (run s o (k + 1) r₀).outcome = some (.failed f)) :
    Blames s o a running r₀ k f := by
  have hlast : run s o (k + 2) r₀ = run s o (k + 1) r₀ :=
    run_over (by rw [hf]; rfl) (Nat.le_succ _)
  obtain ⟨-, hagent, hnow, hshown⟩ :=
    hable.blame hs ho hnone (by rw [← run_succ]; exact hf)
  rw [← run_succ, ← hlast] at hagent hnow hshown
  exact ⟨hnone, ⟨i, rest, hr, .inl hf⟩, hlast ▸ hf, hagent, hnow, hshown,
    hreplays⟩

/-- A step takes a run on from where no instruction is in the middle. -/
theorem Phase.between (hs : s.Firm columns rows)
    (ho : ∀ k, (o.reaction k).fails = false)
    (hable : Able s o columns rows (run s o k r₀))
    (hnone : (run s o k r₀).outcome = none)
    (hr : (run s o k r₀).walker.todo = act :: rest)
    (hact : act.isControl = true) (hrest : ∀ x ∈ rest, x.isControl = true)
    (hreplays : Replays s o a running (begun s o r₀ k) [] (run s o k r₀)) :
    ((run s o (k + 1) r₀).outcome = none → Phase s o a running r₀ (k + 1))
      ∧ ∀ f, (run s o (k + 1) r₀).outcome = some (.failed f) →
        ∃ j, Blames s o a running r₀ j f := by
  obtain ⟨hagent, hwalker, -⟩ := step_spec (s := s) (o := o) hnone
  refine ⟨fun hgo => ?_, fun f hf => ?_⟩
  · rw [run_succ] at hgo
    have hadv := only_advances hr hnone hgo
    rw [next_only hr] at hagent hwalker
    by_cases hleaf : ∃ i, act = .perform i ∧ i.isLeaf = true
    · -- an instruction begins
      obtain ⟨i, rfl, hi⟩ := hleaf
      have hbegins := hreplays.begins (s := s) (o := o) hnone hr
      rw [← begun_leaf hr hnone hi, ← run_succ] at hbegins
      obtain ⟨hsig, hrisky | hsure⟩ := hadv.leaf hi hs
      · obtain ⟨hsame, hrisky⟩ := hrisky
        obtain ⟨hnow, -, hshown⟩ := step_proceeds (s := s) (o := o) hnone
          (by rw [next_only hr]; exact hsig)
        rw [← run_succ] at hagent hwalker hnow hshown
        exact .risky rfl hnone ⟨i, rest, hr, hi⟩ (hagent.trans hsame) hnow
          hshown hreplays (by rw [hwalker]; rfl) hrisky hrest hbegins
      · rw [← run_succ] at hagent hwalker
        exact .sure (by rw [hwalker]; rfl) (by rw [hagent]; exact hsure)
          hrest hbegins
    · -- which instruction comes next is decided
      have hnever : ∀ i, act = .perform i → i.isLeaf = false := by
        intro i hi
        by_contra hno
        exact hleaf ⟨i, hi, by simpa using hno⟩
      obtain ⟨hsig, hsame, hcontrol⟩ := hadv.control hact hnever
      obtain ⟨hnow, hrunning, hshown⟩ := step_proceeds (s := s) (o := o) hnone
        (by rw [next_only hr]; exact hsig)
      have hidles := hreplays.idles
        ⟨(hagent.trans hsame).symm, hnow.symm, hrunning.symm, hshown.symm,
          hnone.trans hgo.symm⟩
      rw [← begun_succ hr hnever, ← run_succ] at hidles
      rw [← run_succ] at hwalker
      refine @Phase.sure _ s o a running r₀ (k + 1) [] _
        (by rw [hwalker]; rfl) nofun ?_ hidles
      intro x hx
      rcases List.mem_append.1 hx with hx | hx
      · exact hcontrol x hx
      · exact hrest x hx
  · cases act with
    | perform i => exact ⟨k, .at_once hs ho hable hnone hr hreplays hf⟩
    | pass left body =>
        -- a pass is nothing that can fail
        rw [run_succ] at hf
        have hsig := (hable.blame hs ho hnone hf).1
        unfold next Walker.step at hsig
        rw [hr] at hsig
        cases left <;> cases hsig
    | _ => cases hact

/-- A step takes a run on within an instruction that nothing can fail of any
    more. -/
theorem Phase.within {head tail : List Act} (hs : s.Firm columns rows)
    (ho : ∀ k, (o.reaction k).fails = false)
    (hable : Able s o columns rows (run s o k r₀))
    (hnone : (run s o k r₀).outcome = none)
    (htodo : (run s o k r₀).walker.todo = act :: (head ++ tail))
    (hsure : ∀ x ∈ act :: head, x.Sure s (run s o k r₀).agent)
    (hcontrol : ∀ x ∈ tail, x.isControl = true)
    (hreplays : Replays s o a running (begun s o r₀ k) (act :: head)
      (run s o k r₀)) :
    ((run s o (k + 1) r₀).outcome = none → Phase s o a running r₀ (k + 1))
      ∧ ∀ f, (run s o (k + 1) r₀).outcome ≠ some (.failed f) := by
  obtain ⟨hact, hhead⟩ := List.forall_mem_cons.1 hsure
  obtain ⟨hagent, hwalker, -⟩ := step_spec (s := s) (o := o) hnone
  rw [next_only htodo, ← run_succ] at hagent hwalker
  refine ⟨fun hgo => ?_, fun f hf => ?_⟩
  · rw [run_succ] at hgo
    obtain ⟨hheading, hnext⟩ :=
      hact.advance hs (only_advances htodo hnone hgo)
    have hgoes := hreplays.goesOn (s := s) (o := o) hnone htodo
    rw [← begun_succ htodo (by rintro i rfl; exact hact.elim), ← run_succ]
      at hgoes
    refine .sure (by rw [hwalker, List.append_assoc]; rfl) ?_ hcontrol hgoes
    intro x hx
    rw [hagent]
    rcases List.mem_append.1 hx with hx | hx
    · exact hnext x hx
    · exact (hhead x hx).congr hheading
  · rw [run_succ] at hf
    exact absurd (hable.blame hs ho hnone hf).1 (hable.sure hs htodo hact)

/-- With its first act an instruction has passed all that can fail of it, or
    fails without having had an effect. -/
theorem Phase.risks {j : Nat} {head tail : List Act}
    (hs : s.Firm columns rows) (ho : ∀ k, (o.reaction k).fails = false)
    (hable : Able s o columns rows (run s o (j + 1) r₀))
    (hbefore : (run s o j r₀).outcome = none)
    (hbegins : ∃ i rest, (run s o j r₀).walker.todo = .perform i :: rest
      ∧ i.isLeaf = true)
    (hagent : (run s o (j + 1) r₀).agent = (run s o j r₀).agent)
    (hnow : (run s o (j + 1) r₀).now = (run s o j r₀).now)
    (hshown : (run s o (j + 1) r₀).shown = (run s o j r₀).shown)
    (hreplays : Replays s o a running (begun s o r₀ j) [] (run s o j r₀))
    (hnone : (run s o (j + 1) r₀).outcome = none)
    (htodo : (run s o (j + 1) r₀).walker.todo = head ++ tail)
    (hrisky : Risky head) (hcontrol : ∀ x ∈ tail, x.isControl = true)
    (hgoes : Replays s o a running (begun s o r₀ (j + 1)) head
      (run s o (j + 1) r₀)) :
    ((run s o (j + 2) r₀).outcome = none → Phase s o a running r₀ (j + 2))
      ∧ ∀ f, (run s o (j + 2) r₀).outcome = some (.failed f) →
        Blames s o a running r₀ j f := by
  obtain ⟨act, head, rfl⟩ : ∃ act rest, head = act :: rest := by
    cases hrisky <;> exact ⟨_, _, rfl⟩
  rw [List.cons_append] at htodo
  refine ⟨fun hgo => ?_, fun f hf => ?_⟩
  · obtain ⟨hagent', hwalker, -⟩ := step_spec (s := s) (o := o) hnone
    rw [next_only htodo, ← run_succ] at hagent' hwalker
    rw [run_succ] at hgo
    have hsure := hrisky.advance hs (only_advances htodo hnone hgo)
    have hnext := hgoes.goesOn (s := s) (o := o) hnone htodo
    rw [← begun_succ htodo (by rintro i rfl; cases hrisky), ← run_succ]
      at hnext
    refine .sure (by rw [hwalker, List.append_assoc]; rfl) ?_ hcontrol hnext
    rw [hagent']
    exact hsure
  · obtain ⟨-, hagent', hnow', hshown'⟩ :=
      hable.blame hs ho hnone (by rw [← run_succ]; exact hf)
    rw [← run_succ] at hagent' hnow' hshown'
    obtain ⟨i, rest, hi, hleaf⟩ := hbegins
    exact ⟨hbefore, ⟨i, rest, hi, .inr hleaf⟩, hf, hagent'.trans hagent,
      hnow'.trans hnow, hshown'.trans hshown, hreplays⟩

/-- A step takes a run on, or an instruction that has had no effect fails
    with it. -/
theorem Phase.step (hs : s.Firm columns rows)
    (ho : ∀ k, (o.reaction k).fails = false)
    (hable : Able s o columns rows (run s o k r₀))
    (h : Phase s o a running r₀ k) (hnone : (run s o k r₀).outcome = none) :
    ((run s o (k + 1) r₀).outcome = none → Phase s o a running r₀ (k + 1))
      ∧ ∀ f, (run s o (k + 1) r₀).outcome = some (.failed f) →
        ∃ j, Blames s o a running r₀ j f := by
  cases h with
  | @sure head tail htodo hsure hcontrol hreplays =>
      cases head with
      | nil =>
          cases tail with
          | nil =>
              have hover : (run s o (k + 1) r₀).outcome = some .finished := by
                rw [run_succ, step_eq hnone]
                unfold next Walker.step
                rw [htodo]
                rfl
              rw [hover]
              exact ⟨nofun, nofun⟩
          | cons act rest =>
              obtain ⟨hact, hrest⟩ := List.forall_mem_cons.1 hcontrol
              exact Phase.between hs ho hable hnone htodo hact hrest hreplays
      | cons act head =>
          obtain ⟨hgoes, hnever⟩ := Phase.within hs ho hable hnone htodo
            hsure hcontrol hreplays
          exact ⟨hgoes, fun f hf => absurd hf (hnever f)⟩
  | @risky j head tail hk hbefore hbegins hagent hnow hshown hreplays htodo
      hrisky hcontrol hgoes =>
      subst hk
      obtain ⟨hlasts, hfails⟩ := Phase.risks hs ho hable hbefore hbegins
        hagent hnow hshown hreplays hnone htodo hrisky hcontrol hgoes
      exact ⟨hlasts, fun f hf => ⟨j, hfails f hf⟩⟩

/-! ## The run as a whole -/

variable {p : Program} {point : Point}

/-- A run whose agent has been brought onto the grid can be shown, and no
    instruction has begun. -/
theorem Phase.starts (hs : s.Firm columns rows)
    (hp : Instruction.EveryOf Instruction.IsSpoken p)
    (ha : o.mode = .absent ∨ a.Readable)
    (hplaced : clampPosition s.config a.position = .ok point) :
    Able s o columns rows (run s o 1 (.start p a running))
      ∧ Phase s o a running (.start p a running) 1 := by
  obtain ⟨-, htodo, -, hnone⟩ :=
    start_placed (s := s) (o := o) (p := p) running hplaced
  obtain ⟨hagent, hwalker, -⟩ :=
    step_spec (s := s) (o := o) (r := .start p a running) rfl
  have hadv := step_advances (s := s) (o := o) (r := .start p a running) rfl
    hnone
  have hfresh := Walker.start_fresh p
  have hspoken := Walker.start_everyOf hp
  refine ⟨⟨?_, ?_, ?_, ?_⟩, @Phase.sure _ s o a running _ 1 [.check]
    _ htodo ?_ ?_
    ⟨1, fun more => ?_⟩⟩
  · exact hwalker ▸ (hadv.fit hs.mode (.inr hfresh)).1
  · exact hwalker ▸ Walker.step_everyOf hspoken
  · exact hagent ▸ hadv.onCell hs.toMeasured (.inr hfresh)
  · exact ha.imp_right fun ha =>
      hagent ▸ hadv.readable hs.toMeasured (.inr hfresh) hspoken ha
  · exact List.forall_mem_singleton.2 trivial
  · intro x hx
    obtain ⟨i, -, rfl⟩ := List.mem_map.1 hx
    rfl
  · -- bringing an agent onto the grid does not depend on the program
    have hsame : (Solo.start p a running).Matches (.start more a running) :=
      ⟨rfl, rfl, rfl, rfl, rfl⟩
    obtain ⟨-, hmore, -⟩ :=
      start_placed (s := s) (o := o) (p := more) running hplaced
    exact ⟨(hsame.step rfl rfl rfl).1, hmore⟩

/-- A run goes on from there, or fails at the beginning of an
    instruction. -/
theorem Phase.lasts (hs : s.Firm columns rows)
    (ho : ∀ k, (o.reaction k).fails = false)
    (hp : Instruction.EveryOf Instruction.IsSpoken p)
    (ha : o.mode = .absent ∨ a.Readable)
    (hplaced : clampPosition s.config a.position = .ok point) (k : Nat) :
    ((run s o (k + 1) (.start p a running)).outcome = none →
        Able s o columns rows (run s o (k + 1) (.start p a running))
          ∧ Phase s o a running (.start p a running) (k + 1))
      ∧ ∀ f, (run s o (k + 1) (.start p a running)).outcome
          = some (.failed f) →
        ∃ j, Blames s o a running (.start p a running) j f := by
  induction k with
  | zero =>
      refine ⟨fun _ => Phase.starts hs hp ha hplaced, fun f hf => ?_⟩
      obtain ⟨-, -, -, hnone⟩ :=
        start_placed (s := s) (o := o) (p := p) running hplaced
      rw [run_succ] at hf
      cases hnone.symm.trans hf
  | succ k ih =>
      cases hgoes : (run s o (k + 1) (.start p a running)).outcome with
      | none =>
          obtain ⟨hable, hphase⟩ := ih.1 hgoes
          obtain ⟨hon, hoff⟩ := hphase.step hs ho hable hgoes
          refine ⟨fun hgo => ⟨?_, hon hgo⟩, hoff⟩
          rw [run_succ] at hgo ⊢
          exact hable.step hs hgoes hgo
      | some outcome =>
          rw [run_over (by rw [hgoes]; rfl) (Nat.le_succ (k + 1)), hgoes]
          exact ⟨nofun, fun f hf => ih.2 f (hgoes.trans hf)⟩

/-- A run whose agent cannot be brought onto the grid is over at once. -/
theorem start_unplaced (running : Bool) {e : OperandFault}
    (hunplaced : clampPosition s.config a.position = .error e) :
    (run s o 1 (.start p a running)).agent = a
      ∧ (run s o 1 (.start p a running)).now = .finite 0
      ∧ (run s o 1 (.start p a running)).shown = []
      ∧ (run s o 1 (.start p a running)).outcome.isSome = true := by
  have hnext : (Solo.start p a running).next s
      = (Walker.start p).failed a [] (.operand e) := by
    unfold next
    show Walker.goOnWith _ _ _ (operate (clampPosition s.config a.position)) _
      = _
    rw [hunplaced]
    rfl
  rw [show run s o 1 (.start p a running)
      = (Solo.start p a running).step s o from run_succ 0,
    step_eq rfl, hnext]
  exact ⟨rfl, rfl, rfl, rfl⟩

/-- Whether a run has failed. -/
def hasFailed (r : Solo) : Bool :=
  match r.outcome with
  | some (.failed _) => true
  | _ => false

omit [Arithmetic] in
theorem hasFailed_iff {r : Solo} :
    r.hasFailed = true ↔ ∃ f, r.outcome = some (.failed f) := by
  unfold hasFailed
  constructor
  · intro h
    split at h
    · rename_i f heq
      exact ⟨f, heq⟩
    · cases h
  · rintro ⟨f, hf⟩
    rw [hf]

/-- A run that is over is the same whenever it is looked at. -/
theorem run_once {r : Solo} {j : Nat}
    (hk : (run s o k r).outcome.isSome = true)
    (hj : (run s o j r).outcome.isSome = true) : run s o k r = run s o j r := by
  rcases Nat.le_total k j with hle | hle
  · exact (run_over hk hle).symm
  · exact run_over hj hle

/-- What fails leaves nothing behind.  Where everything but what the
    instructions bring along can be calculated and nobody who looks raises
    an error, a run that fails does so where an instruction begins, at once
    or with the first act that the instruction leaves to do: the agent, the
    clock and the snapshots are what they were before this instruction, and
    what the program of the instructions without a body that were begun
    before, and went through, makes of them.  (Or the agent could not even be
    brought onto the grid, and nothing has happened at all.) -/
theorem failed_run_leaves (hs : s.Firm columns rows)
    (ho : ∀ k, (o.reaction k).fails = false)
    (hp : Instruction.EveryOf Instruction.IsSpoken p)
    (ha : o.mode = .absent ∨ a.Readable)
    (running : Bool) {n : Nat}
    (hf : (run s o n (.start p a running)).outcome = some (.failed f)) :
    let final := run s o n (.start p a running)
    ((∃ e, clampPosition s.config a.position = .error e)
        ∧ final.agent = a ∧ final.now = .finite 0 ∧ final.shown = [])
      ∨ ∃ k i rest, let before := run s o k (.start p a running)
        before.outcome = none ∧ before.walker.todo = .perform i :: rest
          ∧ (run s o (k + 1) (.start p a running) = final
            ∨ i.isLeaf = true ∧ run s o (k + 2) (.start p a running) = final)
          ∧ final.agent = before.agent ∧ final.now = before.now
          ∧ final.shown = before.shown
          ∧ ∃ m, let done := run s o m (.start
              (begun s o (.start p a running) k) a running)
            done.outcome = some .finished ∧ done.agent = final.agent
              ∧ done.now = final.now ∧ done.shown = final.shown := by
  intro final
  cases hplaced : clampPosition s.config a.position with
  | error e =>
      obtain ⟨hagent, hnow, hshown, hover⟩ :=
        start_unplaced (s := s) (o := o) (p := p) running hplaced
      have hfinal : final = run s o 1 (.start p a running) :=
        run_once (by rw [hf]; rfl) hover
      rw [hfinal]
      exact .inl ⟨⟨e, rfl⟩, hagent, hnow, hshown⟩
  | ok point =>
      obtain ⟨n, rfl⟩ : ∃ k, n = k + 1 := by
        cases n with
        | zero => cases hf
        | succ n => exact ⟨n, rfl⟩
      obtain ⟨k, hblames⟩ :=
        (Phase.lasts hs ho hp ha hplaced n).2 f hf
      have hfinal : final = run s o (k + 2) (.start p a running) :=
        run_once (by rw [hf]; rfl) (by rw [hblames.fails]; rfl)
      obtain ⟨i, rest, htodo, hwhen⟩ := hblames.begins
      obtain ⟨m, hfinished, hagent, hnow, hshown⟩ :=
        hblames.replays.finishes hblames.goes
      rw [hfinal]
      refine .inr ⟨k, i, rest, hblames.goes, htodo, ?_, hblames.agent,
        hblames.now, hblames.shown, m, hfinished,
        hagent.trans hblames.agent.symm, hnow.trans hblames.now.symm,
        hshown.trans hblames.shown.symm⟩
      refine hwhen.imp (fun hover => ?_) fun hleaf => ⟨hleaf, rfl⟩
      exact (run_over (by rw [hover]; rfl) (Nat.le_succ _)).symm

end Solo

end

namespace Solo

attribute [local instance] Arithmetic.binary64

/-- A grid of doubles is firm if its columns and rows are below the bound and
    the times to sleep for can be calculated. -/
theorem firm_doubles {s : Scene} {columns rows : Int}
    (hmode : s.config.mode ≠ .canvas) (hc : s.config.Counted columns rows)
    (hcolumns : (columns : Rat) < Binary64.bound)
    (hrows : (rows : Rat) < Binary64.bound)
    (hgoal : ∀ g, s.goal = some g → g.isNumeric = true)
    (hpauses : ∀ ms, ms = s.config.stepMs ∨ ms = s.config.turnMs
        ∨ ms = s.config.sayMs →
      ∃ seconds, Walker.pauseSeconds ms = .ok seconds) :
    s.Firm columns rows where
  toMeasured := measured_doubles hmode hc hcolumns hrows hgoal
  pauses := hpauses

/-- Two steps around a corner, and then a text and a move that is none, both
    in a loop. -/
def stumbling : Program :=
  [.repeatTimes 2 [.move 1, .turnRight 90],
    .repeatTimes 3 [.say (.str "hi"), .move 0]]

/-- A run of it after some steps. -/
def stumbler (k : Nat) : Solo :=
  run openGrid (.quiet .present) k
    (.start stumbling (.atStart (.str "a") [0, 0] 90) true)

/-- The run fails at the second move that it comes to in the loop, which is
    none, with the snapshots of the instructions before it: two steps, two
    turns, and a text put up and taken down. -/
theorem failed_run_leaves_stumbling :
    (stumbler 60).hasFailed = true ∧ (stumbler 60).shown.length = 6
      ∧ ∃ k i rest, (stumbler k).walker.todo = .perform i :: rest
        ∧ (stumbler 60).shown = (stumbler k).shown
        ∧ ∃ m, (run openGrid (.quiet .present) m (.start
            (begun openGrid (.quiet .present) (stumbler 0) k)
              (.atStart (.str "a") [0, 0] 90) true)).shown
          = (stumbler 60).shown := by
  have hs : openGrid.Firm 10 10 := by
    refine firm_doubles nofun ⟨rfl, rfl⟩ (by decide +kernel)
      (by decide +kernel) nofun ?_
    have hpauses : ∀ ms ∈ [openGrid.config.stepMs, openGrid.config.turnMs,
        openGrid.config.sayMs],
        (Walker.pauseSeconds ms).toOption.isSome = true := by
      decide +kernel
    intro ms hms
    have hsome := hpauses ms (by simpa using hms)
    cases h : Walker.pauseSeconds ms with
    | ok seconds => exact ⟨seconds, rfl⟩
    | error f =>
        rw [h] at hsome
        cases hsome
  have hspoken : Instruction.EveryOf Instruction.IsSpoken stumbling :=
    ⟨⟨trivial, trivial, trivial, trivial⟩,
      ⟨trivial, ⟨_, rfl⟩, trivial, trivial⟩, trivial⟩
  have hreadable : (Agent.atStart (.str "a") [0, 0] 90).Readable := by
    obtain ⟨x, hx⟩ := hs.headings 90 rfl
    exact ⟨⟨_, rfl⟩, ⟨x, Lenient.measure_int hx⟩, .inl rfl, _, rfl⟩
  have hfailed : (stumbler 60).hasFailed = true := by decide +kernel
  have hlength : (stumbler 60).shown.length = 6 := by decide +kernel
  obtain ⟨f, hf⟩ := hasFailed_iff.1 hfailed
  rcases failed_run_leaves hs (o := .quiet .present) (fun _ => rfl) hspoken
    (.inr hreadable) true hf with ⟨-, -, -, hshown⟩ |
    ⟨k, i, rest, -, htodo, -, -, -, hshown, m, -, -, -, hdone⟩
  · rw [show (stumbler 60).shown = [] from hshown] at hlength
    cases hlength
  · exact ⟨hfailed, hlength, k, i, rest, htodo, hshown, m, hdone⟩

/-- A grid on which a step takes longer than can be measured. -/
def endlessStride : Scene :=
  ⟨{ Config.standard with stepMs := .int (10 ^ 400) }, none, .int 100⟩

/-- A run of one step on it. -/
def strider (k : Nat) : Solo :=
  run endlessStride (.quiet .present) k
    (.start [.move 1] (.atStart (.str "a") [0, 0] 90) true)

/-- The step fails after its agent has moved and has been shown, although
    nothing had been shown before the move began. -/
theorem failed_run_leaves_endless :
    (strider 10).hasFailed = true
      ∧ (strider 10).agent.position ≠ [0, 0]
      ∧ ¬ ∃ k i rest, (strider k).walker.todo = .perform i :: rest
        ∧ (strider 10).shown = (strider k).shown := by
  have hfailed : (strider 10).hasFailed = true := by decide +kernel
  have hlength : (strider 10).shown.length = 1 := by decide +kernel
  have hmoved : (strider 10).agent.position.any Value.holds = true := by
    decide +kernel
  refine ⟨hfailed, fun hstart => ?_, ?_⟩
  · rw [hstart] at hmoved
    cases hmoved
  rintro ⟨k, i, rest, htodo, hshown⟩
  have hlate : ∀ j < 11, (strider j).shown.length = 1 →
      (strider j).walker.todo.head?.all (!·.isControl) = true := by
    decide +kernel
  -- a run that is over stays as it was
  obtain ⟨j, hj, hsame⟩ : ∃ j < 11, strider k = strider j := by
    rcases Nat.lt_or_ge k 11 with hk | hk
    · exact ⟨k, hk, rfl⟩
    · obtain ⟨f, hf⟩ := hasFailed_iff.1 hfailed
      exact ⟨10, by decide, run_over (by
        rw [show (run endlessStride _ 10 _).outcome = _ from hf]; rfl)
          (by omega)⟩
  rw [hsame] at htodo hshown
  have hcontrol := hlate j hj (hshown ▸ hlength)
  rw [htodo] at hcontrol
  cases hcontrol

end Solo

end BlockStage
