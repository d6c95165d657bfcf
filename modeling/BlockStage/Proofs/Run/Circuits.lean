import BlockStage.Proofs.Run.Failure
import BlockStage.Proofs.Run.Legs
import BlockStage.Proofs.Run.Strides

/-! # Circuits — four times round leads back

    A body that turns the agent by quarters, but not all round, leads it
    back to where it started when it is run four times, wherever that is and
    whichever way it looks, as long as no step is stopped by the edge
    (`Solo.four_times_round`).  Only angles beyond what doubles hold are an
    obstacle: they cannot be turned by, or not without rounding. -/

namespace BlockStage

open Instruction Act

/-! ## Quarter turns that are not rounded -/

/-- A value that is a count. -/
def Value.IsCount (v : Value) : Prop := ∃ n : Int, v = .int n

/-- Which count it is. -/
theorem Value.IsCount.eq_int {v : Value} {n : Int} (h : v.IsCount)
    (hv : v.Denotes n) : v = .int n := by
  obtain ⟨m, rfl⟩ := h
  obtain ⟨k, hk, -, hvalue⟩ := hv
  cases hk
  have hvalue : (m : Rat) = n := hvalue
  obtain rfl : m = n := by exact_mod_cast hvalue
  rfl

/-- Quarter turns that are added to a heading without rounding: few enough
    for doubles to hold the sum, or a count added to a count. -/
structure Value.Quarters (heading d : Value) (n : Int) : Prop where
  denotes : d.Denotes n
  quarters : (90 : Int) ∣ n
  kept : |n| ≤ 2 ^ 53 - 270
    ∨ heading.IsCount ∧ d = .int n ∧ |(n : Rat)| < Binary64.bound

namespace Value.Quarters

variable {heading d e : Value} {n : Int}

/-- They are within the range of doubles. -/
theorem size (h : Value.Quarters heading d n) :
    |(n : Rat)| < Binary64.bound := by
  rcases h.kept with hsmall | ⟨-, -, hsize⟩
  · have hlarge := Binary64.lastHalf_large
    have hcast : |(n : Rat)| ≤ 2 ^ 53 - 270 := by exact_mod_cast hsmall
    unfold Binary64.bound
    linarith
  · exact hsize

/-- It only matters whether the heading is a count. -/
theorem congr {heading' : Value} (h : Value.Quarters heading d n)
    (hcount : heading.IsCount → heading'.IsCount) :
    Value.Quarters heading' d n :=
  ⟨h.denotes, h.quarters, h.kept.imp_right fun ⟨hh, hd⟩ => ⟨hcount hh, hd⟩⟩

/-- The opposite turn. -/
theorem neg (h : Value.Quarters heading e n) (hd : e.neg = .ok d) :
    Value.Quarters heading d (-n) := by
  refine ⟨?_, (dvd_neg).2 h.quarters, ?_⟩
  · obtain ⟨w, hw, hwn⟩ := h.denotes.neg
    rw [hd] at hw
    cases hw
    rw [Int.cast_neg]
    exact hwn
  · rw [abs_neg, Int.cast_neg, abs_neg]
    refine h.kept.imp_right ?_
    rintro ⟨hh, rfl, hsize⟩
    cases hd
    exact ⟨hh, rfl, hsize⟩

/-- The degrees that it counts. -/
theorem degreesOf_eq (h : Value.Quarters heading d n) : degreesOf d = n := by
  obtain ⟨m, rfl, hm⟩ := h.denotes
  have hwhole : (Value.num m).whole = .ok n := by
    show Value.calculate m.whole = _
    rw [hm.whole, wholePart_int]
    rfl
  rw [degreesOf, hwhole]

attribute [local instance] Arithmetic.binary64

/-- It is a finite number that can be measured. -/
theorem reads (h : Value.Quarters heading d n) :
    ∃ m x, d.finiteNumber? = .ok (some m) ∧ m.measure = .ok x
      ∧ d.isFinite = .ok true := by
  have hsize := h.size
  obtain ⟨m, rfl, hfin, hvalue⟩ := h.denotes
  obtain ⟨x, hx, hxfin⟩ : ∃ x, m.measure = .ok x ∧ x.isFinite = true := by
    cases m with
    | int i =>
        have hvalue : (i : Rat) = n := hvalue
        rw [← hvalue] at hsize
        obtain ⟨r, hr⟩ := Num.measure_int hsize
        exact ⟨_, hr, rfl⟩
    | real x => exact ⟨x, rfl, hfin⟩
  have hfinite : m.isFinite = .ok true := by
    rw [Num.isFinite, hx]
    exact congrArg Except.ok hxfin
  refine ⟨m, x, ?_, hx, ?_⟩
  · show (Value.calculate m.isFinite >>= _) = _
    rw [hfinite]
    rfl
  · show Value.calculate m.isFinite = _
    rw [hfinite]
    rfl

/-- Added to one of the four headings it gives what both stand for. -/
theorem sum {q : Int} (h : Value.Quarters heading d n)
    (hh : heading.Denotes (90 * q : Int)) (hlow : 0 ≤ q) (hhigh : q ≤ 3) :
    ∃ w, heading.add d = .ok w ∧ w.Denotes (90 * q + n : Int) := by
  rcases h.kept with hsmall | ⟨hcount, rfl, -⟩
  · -- doubles hold the heading, the angle and the sum
    have hkept : ∀ k : Int, |k| ≤ 2 ^ 53 →
        Arithmetic.round (k : Rat) = .finite k :=
      fun k hk => Binary64.nearest_whole hk
    obtain ⟨hleft, hright⟩ := abs_le.1 hsmall
    obtain ⟨u, rfl, hu⟩ := hh
    obtain ⟨v, rfl, hv⟩ := h.denotes
    have hq := hkept (90 * q) (abs_le.2 ⟨by omega, by omega⟩)
    have hn := hkept n (abs_le.2 ⟨by omega, by omega⟩)
    have hsum := hkept (90 * q + n) (abs_le.2 ⟨by omega, by omega⟩)
    rw [Int.cast_add] at hsum
    obtain ⟨w, hw, hwq⟩ := hu.add_kept hv hq hn hsum
    refine ⟨.num w, Value.add_num hw, w, rfl, ?_⟩
    rw [Int.cast_add]
    exact hwq
  · -- counts are added as counts
    obtain rfl := hcount.eq_int hh
    exact ⟨.int (90 * q + n), rfl, Value.denotes_int _⟩

/-- A turn by them goes on by as many quarters. -/
theorem turns {q : Int} (h : Value.Quarters heading d n)
    (hh : heading.Denotes (90 * q : Int)) (hlow : 0 ≤ q) (hhigh : q ≤ 3) :
    gridTurn heading d = .ok (90 * ((q + n / 90) % 4)) := by
  obtain ⟨m, x, -, -, hfinite⟩ := h.reads
  obtain ⟨w, hw, hwq⟩ := h.sum hh hlow hhigh
  obtain ⟨k, hk⟩ := h.quarters
  rw [gridTurn_denotes hfinite h.denotes hw hwq, if_pos h.quarters,
    wholePart_int, if_pos ((dvd_mul_right ..).add h.quarters)]
  congr 1
  omega

end Value.Quarters

/-! ## Bodies to walk -/

attribute [local instance] Arithmetic.binary64

/-- A wait that can be slept. -/
structure Value.Sleeps (c : Config) (v : Value) : Prop where
  number : ∃ n, v.finiteNumber? = .ok (some n) ∧ n.lt 0 = false
  pause : ∃ ms seconds, Walker.waitMs c v = .ok ms
    ∧ Walker.pauseSeconds ms = .ok seconds

/-- An instruction that is no condition and has an operand that can be used:
    whole steps, quarter turns, a wait that can be slept, a text, or a count
    that is not negative. -/
def Instruction.Walkable (s : Scene) (heading : Value) :
    Instruction → Prop
  | move d => ∃ n, d.IsWhole n
  | turnRight d => ∃ n, Value.Quarters heading d n
  | turnLeft d => ∃ n, Value.Quarters heading d n
  | wait v => v.Sleeps s.config
  | say text => ∃ t, text = .str t
  | repeatTimes v _ => CountedLoop.Counts v
  | repeatBounded v _ => CountedLoop.Counts v
  | _ => False

/-- Acts that cannot fail where a step can be taken, and instructions, which
    may. -/
def Act.Ready : Act → Prop
  | place => False
  | pause ms => ∃ seconds, Walker.pauseSeconds ms = .ok seconds
  | glide _ _ _ => False
  | swing _ _ _ => False
  | awaitFrame => False
  | _ => True

section

variable {s : Scene} {now : Time} {a b : Agent} {todo next rest : List Act}
  {signal : Signal} {columns rows ceiling : Int} {heading : Value}

theorem Instruction.Walkable.spoken {i : Instruction}
    (h : i.Walkable s heading) : i.IsSpoken := by
  cases i with
  | say => exact h
  | _ => trivial

/-- It turns by quarters. -/
theorem Instruction.Walkable.quarters {i : Instruction}
    (h : i.Walkable s heading) : (90 : Int) ∣ i.degrees := by
  cases i with
  | turnRight d =>
      obtain ⟨n, hn⟩ := h
      show (90 : Int) ∣ degreesOf d
      rw [hn.degreesOf_eq]
      exact hn.quarters
  | turnLeft d =>
      obtain ⟨n, hn⟩ := h
      show (90 : Int) ∣ -degreesOf d
      rw [hn.degreesOf_eq]
      exact (dvd_neg).2 hn.quarters
  | _ => exact dvd_zero _

/-- The angle that a turn works with. -/
theorem Instruction.Walkable.angle {i : Instruction} {d : Value}
    (h : i.Walkable s heading)
    (hi : i = .turnRight d ∨ ∃ e, i = .turnLeft e ∧ e.neg = .ok d) :
    Value.Quarters heading d i.degrees := by
  rcases hi with rfl | ⟨e, rfl, hneg⟩
  · obtain ⟨n, hn⟩ := h
    rw [show (turnRight d).degrees = n from hn.degreesOf_eq]
    exact hn
  · obtain ⟨n, hn⟩ := h
    rw [show (turnLeft e).degrees = -n from congrArg Neg.neg hn.degreesOf_eq]
    exact hn.neg hneg

/-- A body in front of what is ready. -/
theorem Act.ready_body (body : List Instruction)
    (h : ∀ x ∈ rest, x.Ready) : ∀ x ∈ body.map perform ++ rest, x.Ready := by
  intro x hx
  rcases List.mem_append.1 hx with hx | hx
  · obtain ⟨i, -, rfl⟩ := List.mem_map.1 hx
    trivial
  · exact h x hx

/-- What is left to do stays ready. -/
theorem Advance.ready (h : Advance s now a todo b next signal)
    (hs : s.Firm columns rows)
    (hw : EveryOf (Walkable s heading) todo)
    (hr : ∀ x ∈ todo, x.Ready) : ∀ x ∈ next, x.Ready := by
  cases h with
  | place => exact (hr _ (List.mem_cons_self ..)).elim
  | glides => exact (hr _ (List.mem_cons_self ..)).elim
  | swings => exact (hr _ (List.mem_cons_self ..)).elim
  | glideOff hmode => exact absurd hmode hs.mode
  | swingOff hmode => exact absurd hmode hs.mode
  | atGoal => exact ((everyOf_cons.1 hw).1.head).elim
  | nextPass =>
      obtain ⟨-, hrest⟩ := List.forall_mem_cons.1 hr
      exact ready_body _ (List.forall_mem_cons.2 ⟨trivial, hrest⟩)
  | wait hms =>
      obtain ⟨ms, seconds, hms', hseconds⟩ := (everyOf_cons.1 hw).1.head.pause
      obtain rfl : ms = _ := Except.ok.inj (hms'.symm.trans hms)
      obtain ⟨-, hrest⟩ := List.forall_mem_cons.1 hr
      simp only [List.forall_mem_cons]
      exact ⟨⟨seconds, hseconds⟩, trivial, trivial, hrest⟩
  | quarters =>
      obtain ⟨-, hrest⟩ := List.forall_mem_cons.1 hr
      simp only [List.forall_mem_cons]
      exact ⟨trivial, hs.pauses _ (.inr (.inl rfl)), trivial, hrest⟩
  | say =>
      obtain ⟨-, hrest⟩ := List.forall_mem_cons.1 hr
      simp only [List.forall_mem_cons]
      exact ⟨trivial, hs.pauses _ (.inr (.inr rfl)), trivial, trivial,
        trivial, hrest⟩
  | nextStride =>
      obtain ⟨-, hrest⟩ := List.forall_mem_cons.1 hr
      simp only [List.forall_mem_cons]
      exact ⟨trivial, hs.pauses _ (.inl rfl), trivial, trivial, hrest⟩
  | strideOff =>
      obtain ⟨-, hrest⟩ := List.forall_mem_cons.1 hr
      exact List.forall_mem_cons.2 ⟨trivial, hrest⟩
  | loop =>
      obtain ⟨-, hrest⟩ := List.forall_mem_cons.1 hr
      exact List.forall_mem_cons.2 ⟨trivial, hrest⟩
  | _ => exact (List.forall_mem_cons.1 hr).2

/-- Only its place and heading matter. -/
theorem Agent.Faces.congr {c : Cell} {q : Int} (h : a.Faces c q)
    (hp : b.position = a.position) (hh : b.heading = a.heading) :
    b.Faces c q :=
  ⟨hp.trans h.position, hh ▸ h.heading, h.low, h.high⟩

/-- The cell is one of the grid if the agent stands on such a cell. -/
theorem Agent.Faces.inGrid {c : Cell} {q : Int} (h : a.Faces c q)
    (hcell : a.OnCell columns rows) : c.InGrid columns rows := by
  obtain ⟨z, ⟨x, y, rfl, hgrid⟩, hpos⟩ := hcell
  have hsame : c.position = Cell.position (x, y) :=
    h.position.symm.trans hpos
  obtain rfl : c = (x, y) := by
    simpa [Cell.position, Value.int, Prod.ext_iff] using hsame
  exact hgrid

/-- An advance that is not stopped by the edge goes along the route: what has
    been gone and what is to come make up the same leg as before. -/
theorem Advance.faces_on (h : Advance s now a todo b next signal)
    (hs : s.Firm columns rows) (hceiling : s.ceiling = .int ceiling)
    (hw : EveryOf (Walkable s heading) todo)
    (hr : ∀ x ∈ todo, x.Ready) (hcell : a.OnCell columns rows)
    (hcount : heading.IsCount → a.heading.IsCount)
    (hfree : ∀ left rest, todo = .stride (left + 1) :: rest →
      b.position ≠ a.position) {c : Cell} {q : Int} (hf : a.Faces c q) :
    (heading.IsCount → b.heading.IsCount)
      ∧ ∃ d p, b.Faces d p ∧ d.pose p * route ceiling next
        = c.pose q * route ceiling todo := by
  -- the agent may stay where it is and look as it does
  have hstays : b.position = a.position → b.heading = a.heading →
      route ceiling next = route ceiling todo →
      (heading.IsCount → b.heading.IsCount)
        ∧ ∃ d p, b.Faces d p ∧ d.pose p * route ceiling next
          = c.pose q * route ceiling todo := by
    intro hp hh hroute
    refine ⟨hh ▸ hcount, c, q, hf.congr hp hh, ?_⟩
    rw [hroute]
  cases h with
  | place => exact (hr _ (List.mem_cons_self ..)).elim
  | glides => exact (hr _ (List.mem_cons_self ..)).elim
  | swings => exact (hr _ (List.mem_cons_self ..)).elim
  | awaitFrame => exact (hr _ (List.mem_cons_self ..)).elim
  | glideOff hmode => exact absurd hmode hs.mode
  | swingOff hmode => exact absurd hmode hs.mode
  | atGoal => exact ((everyOf_cons.1 hw).1.head).elim
  | notAtGoal => exact ((everyOf_cons.1 hw).1.head).elim
  | check => exact hstays rfl rfl (route_idle rfl rfl).symm
  | emit => exact hstays rfl rfl (route_idle rfl rfl).symm
  | pause => exact hstays rfl rfl (route_idle rfl rfl).symm
  | hush => exact hstays rfl rfl (route_idle rfl rfl).symm
  | lastStride => exact hstays rfl rfl route_stride_zero.symm
  | lastPass => exact hstays rfl rfl (route_last_pass _).symm
  | nextPass => exact hstays rfl rfl (route_pass _ _)
  | wait =>
      refine hstays rfl rfl ?_
      rw [route_idle rfl rfl, route_idle rfl rfl, route_idle rfl rfl]
      exact (route_still (.inl ⟨_, rfl⟩)).symm
  | say =>
      refine hstays rfl rfl ?_
      rw [route_idle rfl rfl, route_idle rfl rfl, route_idle rfl rfl,
        route_idle rfl rfl, route_idle rfl rfl]
      exact (route_still (.inr ⟨_, rfl⟩)).symm
  | @strideOff rest d n _ hd =>
      refine hstays rfl rfl ?_
      rw [route_single rfl, route_single rfl]
      show Leg.ahead n.toNat * _ = Leg.ahead (stepsOf d) * _
      rw [stepsOf, hd]
  | loop hi hg hn =>
      obtain ⟨k, hk, hpos⟩ : CountedLoop.Counts _ := by
        rcases hi with rfl | rfl
        · exact (everyOf_cons.1 hw).1.head
        · exact (everyOf_cons.1 hw).1.head
      rw [hceiling] at hg
      exact hstays rfl rfl (route_loop hk hpos hi hg hn).symm
  | @quarters rest i d h _ hi hturn =>
      have hwalk : i.Walkable s heading := (everyOf_cons.1 hw).1.head
      have hturns := ((hwalk.angle hi).congr hcount).turns hf.heading hf.low
        hf.high
      rw [hturn] at hturns
      cases hturns
      refine ⟨fun _ => ⟨_, rfl⟩, c, (q + i.degrees / 90) % 4,
        ⟨hf.position, Value.denotes_int _, by omega, by omega⟩, ?_⟩
      have hleg : route ceiling (.perform i :: rest)
          = .turning (clockwise ^ (i.degrees / 90)) * route ceiling rest := by
        rcases hi with rfl | ⟨e, rfl, -⟩
        · exact route_single rfl
        · exact route_single rfl
      rw [route_idle rfl rfl, route_idle rfl rfl, route_idle rfl rfl, hleg,
        ← mul_assoc, Cell.pose_turning]
  | @nextStride _ rest left p hstep hb =>
      obtain ⟨g, rfl⟩ := Agent.latchGoal_ok hb
      obtain ⟨d, hd, hpose⟩ := hf.stride hs.counted (hf.inGrid hcell) hstep
        (hfree _ _ rfl)
      refine ⟨hcount, d, q, ⟨hd, hf.heading, hf.low, hf.high⟩, ?_⟩
      rw [route_idle rfl rfl, route_idle rfl rfl, route_idle rfl rfl,
        route_stride_succ, hpose, mul_assoc]

/-- Instructions to walk go through. -/
theorem Walker.unfailing_walkable {w : Walker} {running : Bool}
    (hmode : s.config.mode ≠ .canvas) (hceiling : s.ceiling = .int ceiling)
    (hcount : heading.IsCount → a.heading.IsCount)
    {c : Cell} {q : Int} (hf : a.Faces c q) {i : Instruction}
    (hi : i.Walkable s heading) (htodo : w.todo = .perform i :: rest) :
    (w.step s now running a).Unfailing := by
  have hperform : w.step s now running a = w.perform s now a rest i := by
    simp only [step, htodo]
  -- a turn on the grid only needs its quarters
  have hturn : ∀ {d n}, Value.Quarters heading d n →
      (w.turn s now a rest d).Unfailing := by
    intro d n hd
    obtain ⟨m, -, hm, -⟩ := hd.reads
    obtain ⟨log, hlog⟩ : ∃ log, w.turn s now a rest d = _ :=
      turn_grid hmode hm
    have hturns := (hd.congr hcount).turns hf.heading hf.low hf.high
    rw [hlog]
    exact unfailing_goOnWith hturns unfailing_goOn
  cases i with
  | move d =>
      obtain ⟨n, hn⟩ := hi
      obtain ⟨log, hlog⟩ := step_move_whole (a := a) hmode hn
      rw [hlog now running w rest htodo]
      exact unfailing_goOn
  | turnRight d =>
      obtain ⟨n, hn⟩ := hi
      rw [hperform]
      exact hturn hn
  | turnLeft d =>
      obtain ⟨n, hn⟩ := hi
      obtain ⟨e, he, -⟩ := hn.denotes.neg
      rw [hperform]
      exact unfailing_goOnWith (operate_eq he) (hturn (hn.neg he))
  | wait v =>
      obtain ⟨n, hn, hpositive⟩ := hi.number
      obtain ⟨ms, seconds, hms, -⟩ := hi.pause
      rw [hperform]
      exact unfailing_wait hn hpositive hms
  | say text =>
      rw [hperform]
      exact unfailing_goOn
  | repeatTimes v body =>
      obtain ⟨k, rfl, hk⟩ := hi
      rw [hperform]
      exact unfailing_loop hceiling hk
  | repeatBounded v body =>
      obtain ⟨k, rfl, hk⟩ := hi
      rw [hperform]
      exact unfailing_loop hceiling hk
  | ifGoalReached body => exact hi.elim
  | foreign v => exact hi.elim

end

/-! ## Runs -/

namespace Solo

variable {s : Scene} {o : Observer} {r : Solo} {columns rows ceiling : Int}
  {heading : Value} {target : Leg}

/-- No step of a run is stopped by the edge. -/
def Unstopped (s : Scene) (o : Observer) (r : Solo) : Prop :=
  ∀ k left rest, (run s o k r).outcome = none →
    (run s o k r).walker.todo = .stride (left + 1) :: rest →
    (run s o (k + 1) r).agent.position ≠ (run s o k r).agent.position

theorem Unstopped.step (h : r.Unstopped s o) (hnone : r.outcome = none) :
    (r.step s o).Unstopped s o := by
  have hlater : ∀ k, run s o k (r.step s o) = run s o (k + 1) r := by
    intro k
    rw [run, hnone]
  intro k left rest hgoes htodo
  rw [hlater] at hgoes htodo
  rw [hlater, hlater]
  exact h (k + 1) left rest hgoes htodo

/-- A run on its way along its route: where its agent stands and looks and
    what is left of the route make up the leg that it set out for. -/
structure Circuit (s : Scene) (o : Observer) (columns rows ceiling : Int)
    (heading : Value) (target : Leg) (r : Solo) : Prop where
  able : Able s o columns rows r
  walkable : EveryOf (Walkable s heading) r.walker.todo
  ready : ∀ x ∈ r.walker.todo, x.Ready
  up : r.running = true
  free : r.Unstopped s o
  count : heading.IsCount → r.agent.heading.IsCount
  faces : ∃ c q, r.agent.Faces c q
    ∧ c.pose q * route ceiling r.walker.todo = target

namespace Circuit

/-- No act of such a run fails. -/
theorem unfailing (h : Circuit s o columns rows ceiling heading target r)
    (hs : s.Firm columns rows) (hceiling : s.ceiling = .int ceiling)
    (f : RunFault) : (r.next s).signal ≠ .fail f := by
  obtain ⟨c, q, hf, -⟩ := h.faces
  have hready := h.ready
  have hwalkable := h.walkable
  cases htodo : r.walker.todo with
  | nil =>
      have hfinish : (r.next s).signal = .finish := by
        simp only [next, Walker.step, htodo]
      rw [hfinish]
      intro hno
      cases hno
  | cons act rest =>
      rw [htodo] at hready hwalkable
      have hact : act.Ready := (List.forall_mem_cons.1 hready).1
      -- acts that are no instructions do not fail if they are ready
      have hsure : act.Sure s r.agent → (r.next s).signal ≠ .fail f :=
        fun hsure => h.able.sure hs htodo hsure
      cases act with
      | perform i =>
          have hi : i.Every (Walkable s heading) :=
            (everyOf_cons.1 hwalkable).1
          exact Walker.unfailing_walkable hs.mode hceiling h.count hf hi.head
            htodo f
      | pass left body =>
          have hproceed : (r.next s).signal = .proceed := by
            cases left <;> simp only [next, Walker.step, htodo, Walker.goOn]
          rw [hproceed]
          intro hno
          cases hno
      | stride left =>
          exact hsure fun x y => gridStep_ok hs.counted x y hf.isCardinal
      | check => exact hsure trivial
      | emit => exact hsure trivial
      | hush => exact hsure trivial
      | pause ms => exact hsure hact
      | _ => exact hact.elim

/-- A step takes such a run on, or it has come to its end, at the end of its
    route. -/
theorem step (h : Circuit s o columns rows ceiling heading target r)
    (hs : s.Firm columns rows) (hceiling : s.ceiling = .int ceiling)
    (ho : ∀ k, (o.reaction k).fails = false ∧ (o.reaction k).stops = false)
    (hnone : r.outcome = none) :
    (r.step s o).outcome = none
        ∧ Circuit s o columns rows ceiling heading target (r.step s o)
      ∨ (r.step s o).outcome = some .finished
        ∧ (heading.IsCount → (r.step s o).agent.heading.IsCount)
        ∧ ∃ c q, (r.step s o).agent.Faces c q ∧ c.pose q = target := by
  obtain ⟨hagent, hwalker, -, hrunning, houtcome⟩ :=
    step_spec (s := s) (o := o) hnone
  obtain ⟨c, q, hf, htarget⟩ := h.faces
  cases next_cases s o r with
  | finishes hempty hsame _ hverdict =>
      -- nothing is left of the route
      rw [hagent, hsame, houtcome, hverdict]
      rw [hempty] at htarget
      exact .inr ⟨rfl, h.count, c, q, hf, (mul_one _).symm.trans htarget⟩
  | halts hdown =>
      rw [h.up] at hdown
      cases hdown
  | fails hsig => exact absurd hsig (h.unfailing hs hceiling _)
  | advances hadv =>
    have hgoes : (r.step s o).outcome = none := by
      have hlasts : (r.nextVerdict s o).outcome = none
          ∨ ∃ f, (r.nextVerdict s o).outcome = some (.failed f) := hadv.lasts
      rcases hlasts with hnone' | ⟨f, hfailed⟩
      · exact houtcome.trans hnone'
      · exact absurd (houtcome.trans hfailed)
          (h.able.unfailed hs (fun k => (ho k).1) hnone
            (h.unfailing hs hceiling))
    have hfree : ∀ left rest, r.walker.todo = .stride (left + 1) :: rest →
        (r.next s).agent.position ≠ r.agent.position := by
      intro left rest htodo
      rw [← hagent]
      have hmoves := h.free 0 left rest hnone htodo
      rwa [run_succ] at hmoves
    obtain ⟨hcount, d, p, hd, hroute⟩ := hadv.faces_on hs hceiling h.walkable
      h.ready h.able.cell h.count hfree hf
    refine .inl ⟨hgoes, h.able.step hs hnone hgoes, ?_, ?_, ?_,
      h.free.step hnone, ?_, ?_⟩
    · rw [hwalker]
      exact hadv.everyOf h.walkable
    · rw [hwalker]
      exact hadv.ready hs h.walkable h.ready
    · rcases verdict_running o r.shown.length r.now (r.next s).agent r.running
        (r.next s).signal with hsame | ⟨-, hstops, -⟩
      · exact (hrunning.trans hsame).trans h.up
      · rw [(ho _).2] at hstops
        cases hstops
    · rw [hagent]
      exact hcount
    · rw [hagent, hwalker]
      exact ⟨d, p, hd, hroute.trans htarget⟩

/-- How such a run ends. -/
theorem ends (h : Circuit s o columns rows ceiling heading target r)
    (hs : s.Firm columns rows) (hceiling : s.ceiling = .int ceiling)
    (ho : ∀ k, (o.reaction k).fails = false ∧ (o.reaction k).stops = false)
    (hnone : r.outcome = none) :
    ∃ k, (run s o k r).outcome = some .finished
      ∧ (heading.IsCount → (run s o k r).agent.heading.IsCount)
      ∧ ∃ c q, (run s o k r).agent.Faces c q ∧ c.pose q = target := by
  have hgrounded : Act.Grounded r.walker.todo := by
    intro act hact
    have hready : act.Ready := h.ready act hact
    cases act with
    | glide => exact hready.elim
    | swing => exact hready.elim
    | _ => rfl
  let Arrives (q : Solo) : Prop := q.outcome = some .finished
    ∧ (heading.IsCount → q.agent.heading.IsCount)
    ∧ ∃ c p, q.agent.Faces c p ∧ c.pose p = target
  -- it is on its way or has arrived, and it does not go on for ever
  have hall : ∀ k, (run s o k r).outcome = none
        ∧ Circuit s o columns rows ceiling heading target (run s o k r)
      ∨ Arrives (run s o k r) := by
    intro k
    refine run_keeps (P := fun q => q.outcome = none
      ∧ Circuit s o columns rows ceiling heading target q ∨ Arrives q)
      (.inl ⟨hnone, h⟩) ?_ k
    rintro q (⟨-, hq⟩ | ⟨hover, -⟩) hgoes
    · exact hq.step hs hceiling ho hgoes
    · rw [hgoes] at hover
      cases hover
  have hover := run_ends (s := s) (o := o) hs.mode hgrounded
  refine ⟨Act.cost s.ceiling r.walker.todo + 1, ?_⟩
  rcases hall (Act.cost s.ceiling r.walker.todo + 1) with ⟨hgoes, -⟩ | harrives
  · rw [hgoes] at hover
    cases hover
  · exact harrives

end Circuit

/-- An index that a number stands for is the one that it is brought to. -/
theorem cellIndex_denotes {u : Num} {x last : Int} (hu : u.Denotes x)
    (hlow : 0 ≤ x) (hhigh : x ≤ max 0 last) :
    cellIndex (.num u) (.int last) = .ok x := by
  have hclamp : (u.clamp (.int 0) (.int last)).Denotes (x : Rat) := by
    have hconfined : confined ((0 : Int) : Rat) (last : Rat) (x : Rat) = x := by
      have hsame : max 0 (min last x) = x := by omega
      unfold confined
      rw [← Int.cast_min, ← Int.cast_max, hsame]
    have hboth := hu.clamp (Num.denotes_int 0) (Num.denotes_int last)
    rwa [hconfined] at hboth
  unfold cellIndex
  rw [show (Value.num u).clamp 0 (.int last)
      = .ok (.num (u.clamp (.int 0) (.int last))) from
    Value.clamp_num u (.int 0) (.int last)]
  show Value.calculate (u.clamp (.int 0) (.int last)).whole = _
  rw [hclamp.whole, wholePart_int]
  rfl

/-- A place within the grid is brought onto the cell that it is. -/
theorem clampPosition_inGrid {c : Config} (hmode : c.mode ≠ .canvas)
    (hc : c.Counted columns rows) {u v : Num} {cell : Cell}
    (hu : u.Denotes cell.1) (hv : v.Denotes cell.2)
    (hcell : cell.InGrid columns rows) :
    clampPosition c [.num u, .num v] = .ok (.int cell.1, .int cell.2) := by
  obtain ⟨hx, hx', hy, hy'⟩ := hcell
  have hgrid : clampPosition c [.num u, .num v]
      = clampToGrid c [.num u, .num v] := by
    unfold clampPosition
    split
    · exact absurd ‹_› hmode
    · rfl
  rw [hgrid]
  unfold clampToGrid
  rw [hc.columns, hc.rows]
  rw [show (Value.int columns).sub 1 = .ok (.int (columns - 1)) from rfl,
    show (Value.int rows).sub 1 = .ok (.int (rows - 1)) from rfl]
  simp only [Value.pairOf, bind, Except.bind, pure, Except.pure,
    cellIndex_denotes hu hx hx', cellIndex_denotes hv hy hy']

/-- A run of a body four times over. -/
def fourTimes (body : List Instruction) (a : Agent) : Solo :=
  .start [.repeatTimes 4 body] a true

/-- Once its agent has been placed, a run of a body four times over is on its
    way, and what it sets out for is where it is. -/
theorem fourTimes_sets_out (hs : s.Firm columns rows) (hfour : 4 ≤ ceiling)
    {mode : ObserverMode} {a : Agent} (ha : mode = .absent ∨ a.Readable) {start : Cell}
    (hplaced : clampPosition s.config a.position
      = .ok (.int start.1, .int start.2)) {q : Int}
    (hheading : a.heading.Denotes (90 * q : Int)) (hlow : 0 ≤ q) (hhigh : q ≤ 3)
    {body : List Instruction}
    (hbody : Instruction.EveryOf (Walkable s a.heading) body)
    (hnet : ¬ (360 : Int) ∣ netTurn ceiling body)
    (hfree : (fourTimes body a).Unstopped s (.quiet mode)) :
    ((fourTimes body a).step s (.quiet mode)).outcome = none
      ∧ Circuit s (.quiet mode) columns rows ceiling a.heading (start.pose q)
        ((fourTimes body a).step s (.quiet mode)) := by
  have hspoken : Instruction.EveryOf IsSpoken [.repeatTimes 4 body] :=
    ⟨⟨trivial, hbody.imp fun _ hi => hi.spoken⟩, trivial⟩
  have hwalkable : Instruction.EveryOf (Walkable s a.heading)
      [.repeatTimes 4 body] :=
    ⟨⟨⟨4, rfl, by decide⟩, hbody⟩,
      trivial⟩
  obtain ⟨hagent, htodo, -, hnone⟩ := start_placed (s := s) (o := .quiet mode)
    (p := [.repeatTimes 4 body]) true hplaced
  have hagent : ((fourTimes body a).step s (.quiet mode)).agent
      = { a with position := start.position } := hagent
  have hable : Able s (.quiet mode) columns rows
      ((fourTimes body a).step s (.quiet mode)) := by
    have hstarts : Able s (.quiet mode) columns rows
        (run s (.quiet mode) 1 (fourTimes body a)) :=
      (Phase.starts hs hspoken ha hplaced).1
    rwa [run_succ] at hstarts
  have htodo : ((fourTimes body a).step s (.quiet mode)).walker.todo
      = [.check, .perform (.repeatTimes 4 body)] := htodo
  refine ⟨hnone, hable, ?_, ?_, quiet_running rfl rfl, hfree.step rfl, ?_,
    start, q, ?_, ?_⟩
  · rw [htodo]
    exact everyOf_cons.2 ⟨trivial, everyOf_cons.2 ⟨hwalkable.1, nofun⟩⟩
  · rw [htodo]
    simp only [List.forall_mem_cons]
    exact ⟨trivial, trivial, nofun⟩
  · rw [hagent]
    exact id
  · rw [hagent]
    exact ⟨rfl, hheading, hlow, hhigh⟩
  · -- four times the body is no leg at all
    have hcopies : (repeatTimes 4 body).unroll ceiling
        = copies 4 (Instruction.unrollAll ceiling body) := by
      show copies (min 4 ceiling).toNat _ = _
      rw [Int.min_eq_left hfour]
      rfl
    have hquarters : ∀ i ∈ Instruction.unrollAll ceiling body,
        (90 : Int) ∣ i.degrees := fun i hi =>
      (EveryOf.unrollAll (fun _ hno => hno) ceiling hbody i hi).quarters
    have hround : legs (Instruction.unrollAll ceiling body) ^ 4 = 1 :=
      legs_pow_four hquarters hnet
    have hroute : route ceiling [.check, .perform (.repeatTimes 4 body)]
        = 1 := by
      rw [route_idle rfl rfl]
      show route ceiling ([repeatTimes 4 body].map perform) = 1
      rw [route_body, Instruction.unrollAll, Instruction.unrollAll,
        List.append_nil, hcopies, legs_copies, hround]
    rw [htodo, hroute, mul_one]

/-- Four times round.  Take a body of steps, turns by quarters, waits, texts
    and loops of them, and an agent that looks along one of the four
    headings.  If the turns of one execution of the body, its loops cut
    down to the ceiling, do not go all round, and if no step of the four
    executions is stopped by the edge, then these come to their end with the
    agent on the cell that it was brought onto at the start, and looking as
    it did. -/
theorem four_times_round (hs : s.Firm columns rows)
    (hceiling : s.ceiling = .int ceiling) (hfour : 4 ≤ ceiling)
    (mode : ObserverMode) {a : Agent} (ha : mode = .absent ∨ a.Readable) {u v : Num}
    (hpos : a.position = [.num u, .num v]) {h : Int}
    (hheading : a.heading.Denotes h) (hcardinal : isCardinal h = true)
    {body : List Instruction}
    (hbody : Instruction.EveryOf (Walkable s a.heading) body)
    (hnet : ¬ (360 : Int) ∣ netTurn ceiling body)
    (hfree : (fourTimes body a).Unstopped s (.quiet mode)) :
    ∃ start : Cell, clampPosition s.config a.position
        = .ok (.int start.1, .int start.2)
      ∧ (∀ cell : Cell, u.Denotes cell.1 → v.Denotes cell.2 →
        cell.InGrid columns rows → start = cell)
      ∧ ∃ k, let final := run s (.quiet mode) k (fourTimes body a)
        final.outcome = some .finished
          ∧ final.agent.position = start.position
          ∧ final.agent.heading.Denotes h
          ∧ (a.heading.IsCount → final.agent.heading = a.heading) := by
  obtain ⟨start, hplaced, -⟩ := clampPosition_cell hs.mode hs.counted u v
  obtain ⟨q, rfl, hlow, hhigh⟩ : ∃ q : Int, h = 90 * q ∧ 0 ≤ q ∧ q ≤ 3 := by
    unfold isCardinal at hcardinal
    rw [decide_eq_true_eq] at hcardinal
    exact ⟨h / 90, by omega, by omega, by omega⟩
  obtain ⟨hnone, hcircuit⟩ := fourTimes_sets_out hs hfour ha
    (hpos ▸ hplaced) hheading hlow hhigh hbody hnet hfree
  obtain ⟨k, hfinished, hcount, c, p, hfaces, hpose⟩ :=
    hcircuit.ends hs hceiling (fun _ => ⟨rfl, rfl⟩) hnone
  obtain ⟨rfl, rfl⟩ := Cell.pose_inj hfaces.low hfaces.high hlow hhigh hpose
  refine ⟨c, hpos ▸ hplaced, ?_, k + 1, ?_⟩
  · intro cell hu hv hcell
    have hsame := (clampPosition_inGrid hs.mode hs.counted hu hv hcell).symm.trans
      hplaced
    obtain ⟨hcolumn, hrow⟩ := Prod.mk.inj (Except.ok.inj hsame)
    exact Prod.ext (by simpa [Value.int] using hcolumn.symm)
      (by simpa [Value.int] using hrow.symm)
  · have hrun : run s (.quiet mode) (k + 1) (fourTimes body a)
        = run s (.quiet mode) k ((fourTimes body a).step s (.quiet mode)) := rfl
    intro final
    have hfinal : final = run s (.quiet mode) k
      ((fourTimes body a).step s (.quiet mode)) := hrun
    rw [hfinal]
    refine ⟨hfinished, hfaces.position, hfaces.heading, fun hint => ?_⟩
    exact ((hcount hint).eq_int hfaces.heading).trans
      (hint.eq_int hheading).symm

/-! ## Runs that can be followed -/

/-- The column and the row of an agent. -/
def indices (r : Solo) : List (Option Int) :=
  r.agent.position.map fun v => v.count.toOption

/-- Whether a step comes next. -/
def strides (r : Solo) : Bool :=
  match r.outcome, r.walker.todo with
  | none, .stride (_ + 1) :: _ => true
  | _, _ => false

/-- No step of a run is stopped if none is until the run is over. -/
theorem unstopped_of_over {n : Nat}
    (hover : (run s o n r).outcome.isSome = true)
    (hmoves : ∀ k < n, (run s o k r).strides = true →
      (run s o (k + 1) r).indices ≠ (run s o k r).indices) :
    r.Unstopped s o := by
  intro k left rest hgoes htodo hstopped
  by_cases hk : k < n
  · have hstrides : (run s o k r).strides = true := by
      unfold strides
      rw [hgoes, htodo]
    exact hmoves k hk hstrides (congrArg (List.map _) hstopped)
  · rw [run_over hover (Nat.not_lt.1 hk)] at hgoes
    rw [hgoes] at hover
    cases hover

/-- The standard grid with at most five passes of a loop. -/
def fivePasses : Scene := ⟨.standard, none, .int 5⟩

/-- A step, and then five turns to the left where nine are asked for. -/
def wheeling : List Instruction := [.move 1, .repeatTimes 9 [.turnLeft 90]]

/-- An agent in the middle of the standard grid, looking east. -/
def centred : Agent := .atStart (.str "a") [4, 4] 90

/-- The run of it four times over. -/
def wheeler (k : Nat) : Solo :=
  run fivePasses (.quiet .present) k (fourTimes wheeling centred)

/-- It turns by 450 degrees each time and comes back to the middle. -/
theorem four_times_round_wheeling :
    netTurn 5 wheeling = -450
      ∧ ∃ k, (wheeler k).outcome = some .finished
        ∧ (wheeler k).agent.position = Cell.position (4, 4)
        ∧ (wheeler k).agent.heading = .int 90 := by
  have hs : fivePasses.Firm 10 10 := by
    refine firm_doubles nofun ⟨rfl, rfl⟩ (by decide +kernel)
      (by decide +kernel) nofun ?_
    have hpauses : ∀ ms ∈ [fivePasses.config.stepMs,
        fivePasses.config.turnMs, fivePasses.config.sayMs],
        (Walker.pauseSeconds ms).toOption.isSome = true := by
      decide +kernel
    intro ms hms
    have hsome := hpauses ms (by simpa using hms)
    cases h : Walker.pauseSeconds ms with
    | ok seconds => exact ⟨seconds, rfl⟩
    | error f =>
        rw [h] at hsome
        cases hsome
  have hreadable : centred.Readable := by
    obtain ⟨x, hx⟩ := hs.headings 90 rfl
    exact ⟨⟨_, rfl⟩, ⟨x, Lenient.measure_int hx⟩, .inl rfl, _, rfl⟩
  have hbody : Instruction.EveryOf (Walkable fivePasses 90) wheeling :=
    ⟨⟨1, .inl rfl, le_rfl, by decide +kernel⟩,
      ⟨⟨9, rfl, by decide⟩,
        ⟨90, Value.denotes_int 90, dvd_rfl, .inl (by decide)⟩, trivial⟩,
      trivial⟩
  have hnet : netTurn 5 wheeling = -450 := by decide +kernel
  have hfree : (fourTimes wheeling centred).Unstopped fivePasses
      (.quiet .present) :=
    unstopped_of_over (n := 150) (by decide +kernel) (by decide +kernel)
  obtain ⟨start, -, hstart, k, hfinished, hposition, -, hheading⟩ :=
    four_times_round hs rfl (by decide) .present (a := centred)
      (.inr hreadable) (u := 4) (v := 4) rfl (h := 90)
      (Value.denotes_int 90) rfl hbody (by rw [hnet]; decide) hfree
  have hcell := hstart (4, 4) (Num.denotes_int 4) (Num.denotes_int 4)
    (by unfold Cell.InGrid; decide)
  rw [hcell] at hposition
  exact ⟨hnet, k, hfinished, hposition, hheading ⟨90, rfl⟩⟩

/-- A turn to the right, and one to the left that goes all round, but is
    beyond the range of doubles. -/
def overturning : List Instruction :=
  [.turnRight 90, .turnLeft (.int (36 * 10 ^ 310))]

/-- An agent in the corner of the standard grid, looking north. -/
def cornerward : Agent := .atStart (.str "a") [0, 0] 0

/-- An agent beyond the edge of the standard grid, looking north. -/
def outward : Agent := .atStart (.str "a") [20, 0] 0

/-- Turns by quarters that do not go all round, none of them stopped by an
    edge: with one of them beyond the range of doubles the run does not come
    to its end, and from beyond the edge it does not end where it started. -/
theorem four_times_round_huge :
    ((∀ i ∈ overturning, (90 : Int) ∣ i.degrees)
      ∧ ¬ (360 : Int) ∣ netTurn 100 overturning
      ∧ (fourTimes overturning cornerward).Unstopped tenByTen (.quiet .present)
      ∧ ¬ ∃ k, (run tenByTen (.quiet .present) k
        (fourTimes overturning cornerward)).outcome = some .finished)
    ∧ (¬ (360 : Int) ∣ netTurn 100 [.turnRight 90]
      ∧ (fourTimes [.turnRight 90] outward).Unstopped tenByTen (.quiet .present)
      ∧ ∃ k, (run tenByTen (.quiet .present) k
          (fourTimes [.turnRight 90] outward)).outcome = some .finished
        ∧ (run tenByTen (.quiet .present) k
          (fourTimes [.turnRight 90] outward)).indices
          ≠ (fourTimes [.turnRight 90] outward).indices) := by
  refine ⟨⟨by decide +kernel, by decide +kernel,
    unstopped_of_over (n := 30) (by decide +kernel) (by decide +kernel), ?_⟩,
    by decide +kernel,
    unstopped_of_over (n := 40) (by decide +kernel) (by decide +kernel), 40,
    isFinished_iff.1 (by decide +kernel), by decide +kernel⟩
  rintro ⟨k, hfinished⟩
  have hfailed : (run tenByTen (.quiet .present) 30
      (fourTimes overturning cornerward)).hasFailed = true := by
    decide +kernel
  obtain ⟨f, hf⟩ := hasFailed_iff.1 hfailed
  have honce : run tenByTen (.quiet .present) k (fourTimes overturning cornerward)
      = run tenByTen (.quiet .present) 30 (fourTimes overturning cornerward) :=
    run_once (by rw [hfinished]; rfl) (by rw [hf]; rfl)
  rw [honce, hf] at hfinished
  cases hfinished

end Solo

end BlockStage
