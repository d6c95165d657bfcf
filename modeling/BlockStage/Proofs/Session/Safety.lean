import BlockStage.Proofs.Session.Soundness

/-! # Safe calls — what compiles cannot go wrong

    On a stage with spacious settings every source that can be written out
    compiles to a program at which no agent fails (`runsWell_of_spacious`).
    A call that begins safely fails nobody, and nothing but a kill keeps it
    from returning a result without failures; in every fair execution it
    does return one, on the grid because every act lowers what is left to
    do, on the canvas because the animations last only so long
    (`BeginsSafely.goes_well`). -/

namespace BlockStage

open Instruction

namespace World

section

variable [Arithmetic] {c : Coordinator} {w v : World} {n : Nat}
  {cast : List String} {fs : List (String × Forest)}

/-- What a source compiles to never fails when an agent runs it on its own
    from where the stage allows it, if the observer raises no error. -/
def RunsWell (c : Coordinator) (source : Value) : Prop :=
  ∃ compiled, compileSource c.config.target source = .ok compiled
    ∧ ∀ a : Agent, a.Readable → c.config.Allows a.position a.heading →
      ∀ o : Observer, (∀ k, (o.reaction k).fails = false) →
      ∀ (running : Bool) (fuel : Nat) (f : RunFault),
        (Solo.run (scene c) o fuel
          (.start compiled.program a running)).outcome ≠ some (.failed f)

variable [Arithmetic.Doubles]

/-- On a stage with spacious settings every source that can be written out
    runs well. -/
theorem runsWell_of_spacious {columns rows ceiling : Int}
    (h : c.config.Spacious columns rows ceiling)
    (hgoal : ∀ g, c.goal = some g → g.isNumeric = true) {source : Value}
    (hsource : source.legible = true) : RunsWell c source := by
  obtain ⟨compiled, hcompiled, hdomain⟩ := compileSource_legible
    (t := c.config.target) h.loops h.legible_ceiling h.positive hsource
  refine ⟨compiled, hcompiled, fun a ha hallows o hsink running fuel f => ?_⟩
  obtain ⟨g, hroomy, rfl, hstarts⟩ := h.roomy a hgoal hallows
  refine Solo.run_sound hroomy hsink (Sound.start ha hstarts hdomain) ?_ fuel f
  intro f hf
  cases hf

namespace BeginsSafely

/-- Unless it is killed, such a call ends in a result without failures, if
    it ends. -/
theorem returns (h : BeginsSafely c w n cast fs) {ds : List Deed}
    (hcourse : Course c (w.after c .turn) ds v)
    (hput : ∀ d ∈ ds, LeavesAlone cast d) (hkill : .kill n ∉ ds)
    {e : CallEnd} (he : v.ending? n = some e) :
    ∃ r, e = .returned r ∧ r.failed = [] := by
  obtain ⟨-, hguarded⟩ := h.course hcourse hput
  obtain ⟨call₀, hcall₀, -, hspared₀, -⟩ := h.call
  obtain ⟨call, hcall, hspared⟩ := h.reachable.spared_turn h.turn
    ⟨call₀, hcall₀, hspared₀⟩ hcourse hkill
  rw [ending?, hcall] at he
  rcases hguarded.ended call e hcall he with hwell | ⟨-, hdoom⟩
  · exact hwell
  · rw [hspared] at hdoom
    cases hdoom

/-- In every fair execution such a call ends. -/
theorem shuts (h : BeginsSafely c w n cast fs)
    {e : Execution c (w.after c .turn)} (hf : e.Fair)
    (hticks : c.config.mode = .canvas → e.Ticks n) :
    ∃ k, (e.world k).isShut n = true := by
  obtain ⟨hreach, hguarded⟩ := h.opening
  by_cases hmode : c.config.mode = .canvas
  · obtain ⟨columns, rows, ceiling, hset⟩ := h.settings
    obtain ⟨span, hlasts⟩ := Scene.lasts (s := scene c)
      (hset.timings _ (by simp [scene])) (hset.timings _ (by simp [scene]))
    exact hf.shuts_lasting hreach hlasts hguarded.known (hticks hmode)
  · exact hf.shuts hreach hmode hguarded.known

/-- **What compiles cannot go wrong.**  Around a call that begins safely
    every source that can be written out runs well, whatever the host does
    to others nobody ever fails, the call ends in nothing but a result
    without failures unless it is killed, and in every fair execution it
    does end, on the canvas if the clock goes on. -/
theorem goes_well (h : BeginsSafely c w n cast fs) :
    (∀ source : Value, source.legible = true → RunsWell c source)
      ∧ (∀ (ds : List Deed) (v : World), Course c (w.after c .turn) ds v →
        (∀ d ∈ ds, LeavesAlone cast d) →
        (v.current = some n ∨ v.isShut n = true)
          ∧ (∀ s, v.session = some s → s.call = n → Unfailed s)
          ∧ (.kill n ∉ ds → ∀ e, v.ending? n = some e →
            ∃ r, e = .returned r ∧ r.failed = []))
      ∧ ∀ e : Execution c (w.after c .turn), e.Fair →
        (c.config.mode = .canvas → e.Ticks n) →
        (∀ k, LeavesAlone cast (e.deed k)) → (∀ k, e.deed k ≠ .kill n) →
        ∃ k r, (e.world k).ending? n = some (.returned r)
          ∧ r.failed = [] := by
  refine ⟨fun source hsource => ?_, fun ds v hcourse hput => ?_,
    fun e hf hticks hput hkill => ?_⟩
  · obtain ⟨columns, rows, ceiling, hset⟩ := h.settings
    exact runsWell_of_spacious hset h.goal hsource
  · obtain ⟨-, hguarded⟩ := h.course hcourse hput
    exact ⟨hguarded.known, hguarded.unfailed,
      fun hkill e he => h.returns hcourse hput hkill he⟩
  · obtain ⟨k, hshut⟩ := h.shuts hf hticks
    obtain ⟨x, hx⟩ := ending?_shut hshut
    obtain ⟨r, rfl, hr⟩ := h.returns (e.course k)
      (fun d hd => by
        obtain ⟨i, rfl⟩ := Execution.mem_deeds hd
        exact hput i)
      (fun hd => by
        obtain ⟨i, hi⟩ := Execution.mem_deeds hd
        exact hkill i hi) hx
    exact ⟨k, r, hx, hr⟩

end BeginsSafely

end

/-! ## Junk on the grid, a long way on the canvas -/

/-- The standard settings, with a unit step within the range of doubles. -/
theorem standard_ranged {mode : Mode} {unit : Value}
    (hmode : mode = .grid ∨ mode = .canvas) (hunit : unit.InRange) :
    { Config.standard with
      mode := mode, unitStepPixels := unit }.Ranged 10 10 100 := by
  have hcount : ∀ k : Int, |(k : Rat)| ≤ 2 ^ 11 → (Value.int k).InRange := by
    refine fun k hk => ⟨.int k, rfl, rfl, hk.trans ?_⟩
    unfold Binary64.greatest Binary64.lastHalf
    decide +kernel
  have hsmall : ∀ k : Int, k ≤ 100 → (k : Rat) < Binary64.bound := by
    intro k hk
    refine lt_of_le_of_lt (b := ((100 : Int) : Rat)) (by exact_mod_cast hk) ?_
    unfold Binary64.bound Binary64.lastHalf
    decide +kernel
  refine ⟨hmode, ⟨rfl, rfl⟩, hsmall _ (by decide), hsmall _ (by decide), rfl,
    by decide, hsmall _ (by decide), ?_, ⟨_, rfl, rfl, ?_⟩, hunit,
    hcount _ ?_, hcount _ ?_, hcount _ ?_⟩
  · simp only [List.forall_mem_cons]
    refine ⟨hcount _ ?_, hcount _ ?_, hcount _ ?_, hcount _ ?_, hcount _ ?_,
      nofun⟩
    all_goals decide +kernel
  · unfold Binary64.greatest Binary64.lastHalf
    decide +kernel
  all_goals decide +kernel

section

attribute [local instance] Arithmetic.cubed

/-- The standard settings, a corner of the grid as the goal, and an observer
    that yields after every snapshot. -/
def calmCoordinator : Coordinator :=
  ⟨.standard, some (.cell 9 9),
    ⟨.present, fun _ => ⟨⟨[.finite 0], false⟩, false⟩⟩, .absent⟩

/-- Blocks for two agents, the ones of the first one in writing: a loop
    without a number around a turn by more degrees than can be measured, and
    a move without a field. -/
def oddForests : List (String × Forest) :=
  [("a", .source junkSource), ("b", .nodes [⟨.str "move", [], none⟩])]

/-- The world in which the call of the two begins; one of them starts beside
    the grid. -/
def beforeOdd : World :=
  ((initial [("a", .atStart (.str "a") [0, 0] 90),
    ("b", .atStart (.str "b") [12, .real .nan] 180)]).follow calmCoordinator
    [.call (.forests oddForests) ["a", "b"], .turn]).getD (.initial [])

/-- The call of the two returns a result without failures. -/
theorem goes_well_odd :
    BeginsSafely calmCoordinator beforeOdd 0 ["a", "b"] oddForests
      ∧ RunsWell calmCoordinator junkSource
      ∧ ∃ e : Execution calmCoordinator
          (beforeOdd.after calmCoordinator .turn),
        e.Fair ∧ ∃ k r, (e.world k).ending? 0 = some (.returned r)
          ∧ r.failed = [] := by
  have hdoubles : Arithmetic.Doubles := Arithmetic.cubed_doubles
  have hb : BeginsSafely calmCoordinator beforeOdd 0 ["a", "b"]
      oddForests := by
    refine ⟨⟨_, _, Course.followed _ (by decide +kernel)⟩, rfl, ⟨[], rfl⟩,
      ⟨_, rfl, rfl, rfl, rfl⟩, by decide +kernel, ⟨10, 10, 100, ?_⟩, ?_, ?_,
      fun _ _ => rfl⟩
    · refine { standard_ranged (.inl rfl) ⟨_, rfl, rfl, ?_⟩ with
        waits := nofun, lengths := nofun }
      unfold Binary64.greatest Binary64.lastHalf
      decide +kernel
    · rintro g ⟨⟩
      rfl
    · intro id hid a ha
      simp only [List.mem_cons, List.not_mem_nil, or_false] at hid
      rcases hid with rfl | rfl
      · cases ha
        exact ⟨⟨_, rfl⟩, .onGrid rfl rfl ⟨_, rfl, rfl⟩⟩
      · cases ha
        exact ⟨⟨_, rfl⟩, .onGrid rfl rfl ⟨_, rfl, rfl⟩⟩
  obtain ⟨hruns, -, hends⟩ := hb.goes_well
  refine ⟨hb, hruns _ (by decide +kernel), ?_⟩
  -- from the beginning the session goes on to the end of its call
  obtain ⟨e, hf, hturns⟩ := turns_to_rest (c := calmCoordinator)
    (w := beforeOdd.after calmCoordinator .turn) 80 (by decide +kernel)
  refine ⟨e, hf, hends e hf nofun ?_ ?_⟩
  · intro k name a hput
    rw [hturns k] at hput
    cases hput
  · intro k hkill
    rw [hturns k] at hkill
    cases hkill

end

section

attribute [local instance] Arithmetic.binary64

/-- A unit step so long that a hundred of them cannot be measured, although
    one of them can. -/
def farCoordinator : Coordinator :=
  ⟨{ Config.standard with
      mode := .canvas, unitStepPixels := .int (10 ^ 307) }, none,
    .quiet .present, .absent⟩

/-- A move by a hundred steps, in writing. -/
def farSource : Value :=
  .list [.object [("kind", .str "move"),
    ("fields", .object [("distance", 100)])]]

/-- The world in which the call begins that has an agent go so far. -/
def beforeFar : World :=
  ((initial [("a", .atStart (.str "a") [200, 300] 90)]).follow farCoordinator
    [.call (.forests [("a", .source farSource)]) ["a"], .turn]).getD
      (.initial [])

/-- The world after the call has ended. -/
def afterFar : World :=
  (beforeFar.follow farCoordinator (List.replicate 10 .turn)).getD
    (.initial [])

/-- Settings within the range of doubles are not enough: the steps are
    counts, and a hundred of them are multiplied without rounding, so that
    the agent fails and the result says so. -/
theorem fails_far :
    farCoordinator.config.Ranged 10 10 100 ∧ farSource.legible = true
      ∧ Reachable farCoordinator beforeFar ∧ beforeFar.idle = true
      ∧ beforeFar.round = [.begin 0]
      ∧ Course farCoordinator beforeFar (List.replicate 10 .turn) afterFar
      ∧ ∃ r, afterFar.ending? 0 = some (.returned r)
        ∧ r.failed.map Prod.fst = ["a"] := by
  have hranged : farCoordinator.config.Ranged 10 10 100 := by
    refine standard_ranged (.inr rfl) ⟨_, rfl, rfl, ?_⟩
    unfold Binary64.greatest Binary64.lastHalf
    decide +kernel
  have hfails : ((afterFar.ending? 0).bind CallEnd.result?).map
      (·.failed.map Prod.fst) = some ["a"] := by
    decide +kernel
  refine ⟨hranged, by decide +kernel,
    ⟨_, _, Course.followed _ (by decide +kernel)⟩, rfl, rfl,
    Course.followed _ (by decide +kernel), ?_⟩
  obtain ⟨r, hr, hfailed⟩ := Option.map_eq_some_iff.1 hfails
  exact ⟨r, ending?_result.1 hr, hfailed⟩

end

end World

end BlockStage
