import BlockStage.Proofs.Run.Progress

/-! # Soundness — compiled programs cannot go wrong

    Every step leaves a sound run sound (`Advance.sound`), and since no
    step of a sound run fails, a run that begins soundly never does
    (`Solo.run_sound`). -/

namespace BlockStage

open Instruction Act

variable [Arithmetic] {s : Scene} {g : Room} {now : Time} {a b : Agent}
  {todo next rest : List Act} {signal : Signal}

/-! ## One step -/

/-- Setting out leaves an agent standing somewhere. -/
theorem Agent.Starts.stands (hs : s.Roomy g) (ha : a.Starts s g) {p : Point}
    (hp : clampPosition s.config a.position = .ok p) :
    { a with position := p.position }.Stands s g := by
  unfold clampPosition at hp
  cases ha with
  | onGrid hmode hpos hcardinal =>
      split at hp
      · exact absurd ‹_› hmode
      · exact .onGrid hmode ⟨p, clampToGrid_isCell hs.counted hp, rfl⟩
          hcardinal
  | @onCanvas u v q hmode hpos hq hdrawn hrange =>
      rw [hpos, hmode] at hp
      have hp : insetPoint s.config (.num u, .num v) = .ok p := hp
      rw [hq] at hp
      cases hp
      exact .onCanvas hmode rfl hdrawn hrange

section

variable [Arithmetic.Doubles]

omit [Arithmetic] [Arithmetic.Doubles] in
/-- A turn in its domain, in either direction, is at most a full turn. -/
theorem turn_within {t : Target} {n : Int} {i : Instruction} {d : Value}
    (hi : i.Every (InDomain t n))
    (hd : i = .turnRight d ∨ ∃ e, i = .turnLeft e ∧ e.neg = .ok d) :
    ∃ k : Int, d = .int k ∧ |(k : Rat)| ≤ 360 := by
  have hi := hi.head
  rcases hd with rfl | ⟨e, rfl, hneg⟩
  · obtain ⟨k, rfl, hlow, hhigh, -⟩ := hi
    exact ⟨k, rfl, Num.abs_few (by omega) hhigh⟩
  · obtain ⟨k, rfl, hlow, hhigh, -⟩ := hi
    cases hneg
    exact ⟨-k, rfl, Num.abs_few (by omega) (by omega)⟩

/-- A frame of a turn leaves a heading within the range of doubles. -/
theorem swings_inRange (hs : s.Roomy g) {start finish heading : Value}
    {started : Time} {progress : Num} (harc : start.Arc finish)
    (hprogress : progressAt s.config.turnMs started now = .ok progress)
    (hheading : interpolate start finish (.num progress) = .ok heading) :
    heading.InRange := by
  obtain ⟨x, hx⟩ := progressAt_ok hs.turns started now
  rw [hx] at hprogress
  cases hprogress
  obtain ⟨v, hv, hrange⟩ := harc.turns x
  rw [hv] at hheading
  cases hheading
  exact hrange

/-- A frame of a move leaves an agent on the canvas. -/
theorem glides_drawn (hs : s.Roomy g) {start finish p : Point}
    {started : Time} {progress : Num} (hmode : s.config.mode = .canvas)
    (hstart : start.Drawn g.across g.down)
    (hfinish : finish.Drawn g.across g.down)
    (hprogress : progressAt s.config.moveMs started now = .ok progress)
    (hp : Walker.between start finish progress = .ok p) :
    p.Drawn g.across g.down := by
  have hd := hs.drawable hmode
  obtain ⟨x, hx⟩ := progressAt_ok hs.moves started now
  rw [hx] at hprogress
  cases hprogress
  obtain ⟨u, hu⟩ := hstart.1.between hd.across hfinish.1 x
  obtain ⟨v, hv⟩ := hstart.2.between hd.down hfinish.2 x
  unfold Walker.between at hp
  rw [hu, hv] at hp
  cases hp
  exact ⟨.real u, .real v⟩

namespace Advance

/-- Every advance of a sound run leaves its agent readable. -/
theorem sound_readable (h : Advance s now a todo b next signal)
    (hs : s.Roomy g) (hsound : Sound s g a todo) : b.Readable := by
  obtain ⟨ha, hdomain, hplaced⟩ := hsound
  cases h with
  | place => exact ⟨ha.name, ha.heading, ha.message, ha.goal⟩
  | quarters _ _ hturn =>
      exact ⟨ha.name, (Value.isCardinal_int (gridTurn_isCardinal hturn)).read,
        ha.message, ha.goal⟩
  | say =>
      obtain ⟨t, rfl, -⟩ := (everyOf_cons.1 hdomain).1
      exact ⟨ha.name, ha.heading, .inr ⟨t, rfl⟩, ha.goal⟩
  | nextStride _ hb =>
      refine Agent.Readable.latch ?_ hb
      exact ⟨ha.name, ha.heading, ha.message, ha.goal⟩
  | hush => exact ⟨ha.name, ha.heading, .inl rfl, ha.goal⟩
  | glides _ _ hb =>
      refine Agent.Readable.latch ?_ hb
      exact ⟨ha.name, ha.heading, ha.message, ha.goal⟩
  | swings hprogress hheading =>
      obtain ⟨-, hfits⟩ := hplaced.goes nofun
      have hrange := swings_inRange hs (fitsAll_cons.1 hfits).1.2 hprogress
        hheading
      exact ⟨ha.name, hrange.read, ha.message, ha.goal⟩
  | _ => exact ha

/-- An agent that stands somewhere stands somewhere after an advance. -/
theorem stands_advance (h : Advance s now a todo b next signal)
    (hs : s.Roomy g) (hstands : a.Stands s g) (hfits : FitsAll s g todo) :
    b.Stands s g := by
  cases h with
  | place => exact (fitsAll_cons.1 hfits).1.elim
  | say => exact hstands.congr rfl rfl
  | hush => exact hstands.congr rfl rfl
  | quarters hmode _ hturn =>
      exact .onGrid hmode (hstands.cell hmode).1
        (Value.isCardinal_int (gridTurn_isCardinal hturn))
  | nextStride hstep hb =>
      have hmode : s.config.mode ≠ .canvas := (fitsAll_cons.1 hfits).1
      obtain ⟨reached, rfl⟩ := Agent.latchGoal_ok hb
      exact .onGrid hmode ⟨_, gridStep_isCell hs.counted hstep, rfl⟩
        (hstands.cell hmode).2
  | glides hprogress hp hb =>
      obtain ⟨hmode, hstart, hfinish⟩ := (fitsAll_cons.1 hfits).1
      obtain ⟨reached, rfl⟩ := Agent.latchGoal_ok hb
      obtain ⟨-, -, -, hrange⟩ := hstands.point hmode
      exact .onCanvas hmode rfl
        (glides_drawn hs hmode hstart hfinish hprogress hp) hrange
  | swings hprogress hheading =>
      obtain ⟨hmode, harc⟩ := (fitsAll_cons.1 hfits).1
      obtain ⟨_, hpos, hdrawn, -⟩ := hstands.point hmode
      exact .onCanvas hmode hpos hdrawn
        (swings_inRange hs harc hprogress hheading)
  | _ => exact hstands

/-- What an advance leaves to do can be calculated for an agent that stood
    somewhere. -/
theorem fits_advance (h : Advance s now a todo b next signal)
    (hs : s.Roomy g)
    (hdomain : EveryOf (InDomain s.config.target g.ceiling) todo)
    (hstands : a.Stands s g) (hfits : FitsAll s g todo) :
    FitsAll s g next := by
  cases todo with
  | nil => cases h
  | cons act rest =>
  obtain ⟨hact, hrest⟩ := fitsAll_cons.1 hfits
  cases h with
  | place => exact hact.elim
  | glideOff hmode hstart htarget =>
      -- it heads for a point of the canvas
      obtain ⟨d, rfl, hlow, hhigh⟩ := (everyOf_cons.1 hdomain).1
      obtain ⟨p, hpos, hdrawn, hrange⟩ := hstands.point hmode
      rw [hpos] at hstart htarget
      cases hstart
      obtain ⟨q, hq, hinside⟩ :=
        (hs.drawable hmode).target hdrawn hrange hlow hhigh
      rw [hq] at htarget
      cases htarget
      exact fitsAll_cons.2 ⟨⟨hmode, hdrawn, hinside⟩,
        fitsAll_cons.2 ⟨trivial, hrest⟩⟩
  | strideOff hmode => exact fitsAll_cons.2 ⟨hmode, hrest⟩
  | swingOff hmode hi hfinish =>
      obtain ⟨k, rfl, hk⟩ := turn_within (everyOf_cons.1 hdomain).1 hi
      obtain ⟨-, -, -, hrange⟩ := hstands.point hmode
      obtain ⟨finish, heq, harc⟩ := hrange.arc hk
      rw [heq] at hfinish
      cases hfinish
      exact fitsAll_cons.2 ⟨⟨hmode, harc⟩, fitsAll_cons.2 ⟨trivial, hrest⟩⟩
  | quarters =>
      exact fitsAll_cons.2 ⟨trivial, fitsAll_cons.2
        ⟨hs.pauses _ (.inr (.inl rfl)), fitsAll_cons.2 ⟨trivial, hrest⟩⟩⟩
  | wait hms =>
      obtain ⟨m, rfl, hlow, hhigh⟩ := (everyOf_cons.1 hdomain).1
      obtain ⟨ms, seconds, hms', hseconds⟩ := hs.waits m hlow hhigh
      rw [hms'] at hms
      cases hms
      exact fitsAll_cons.2 ⟨⟨seconds, hseconds⟩, fitsAll_cons.2
        ⟨trivial, fitsAll_cons.2 ⟨trivial, hrest⟩⟩⟩
  | say =>
      exact fitsAll_cons.2 ⟨trivial, fitsAll_cons.2
        ⟨hs.pauses _ (.inr (.inr rfl)), fitsAll_cons.2 ⟨trivial,
          fitsAll_cons.2 ⟨trivial, fitsAll_cons.2 ⟨trivial, hrest⟩⟩⟩⟩⟩
  | atGoal => exact fitsAll_body _ hrest
  | nextPass => exact fitsAll_body _ (fitsAll_cons.2 ⟨trivial, hrest⟩)
  | loop => exact fitsAll_cons.2 ⟨trivial, hrest⟩
  | nextStride =>
      exact fitsAll_cons.2 ⟨trivial, fitsAll_cons.2
        ⟨hs.pauses _ (.inl rfl), fitsAll_cons.2 ⟨trivial,
          fitsAll_cons.2 ⟨hact, hrest⟩⟩⟩⟩
  | glides =>
      exact fitsAll_cons.2 ⟨trivial, fitsAll_afterFrame hact hrest⟩
  | swings =>
      exact fitsAll_cons.2 ⟨trivial, fitsAll_afterFrame hact hrest⟩
  | _ => exact hrest

/-- Every advance of a sound run leaves its agent standing somewhere, with
    nothing left to do that cannot be calculated. -/
theorem sound_placed (h : Advance s now a todo b next signal)
    (hs : s.Roomy g) (hsound : Sound s g a todo) :
    b.Stands s g ∧ FitsAll s g next := by
  obtain ⟨-, hdomain, hplaced⟩ := hsound
  cases hplaced with
  | starts hstarts hfits =>
      cases h with
      | place hp => exact ⟨hstarts.stands hs hp, hfits⟩
  | stands hstands hfits =>
      exact ⟨stands_advance h hs hstands hfits,
        fits_advance h hs hdomain hstands hfits⟩

/-- Every advance of a sound run leaves it sound. -/
theorem sound (h : Advance s now a todo b next signal) (hs : s.Roomy g)
    (hsound : Sound s g a todo) : Sound s g b next := by
  obtain ⟨hstands, hfits⟩ := h.sound_placed hs hsound
  exact ⟨h.sound_readable hs hsound, h.everyOf hsound.domain,
    .stands hstands hfits⟩

end Advance

/-! ## Sound runs stay sound -/

namespace Sound

variable {w : Walker}

omit [Arithmetic.Doubles] in
/-- A program in its domains sets out soundly. -/
theorem start {p : Program} (ha : a.Readable) (hstarts : a.Starts s g)
    (hp : EveryOf (InDomain s.config.target g.ceiling) p) :
    Sound s g a (Walker.start p).todo := by
  refine ⟨ha, Walker.start_everyOf hp, .starts hstarts ?_⟩
  refine fitsAll_cons.2 ⟨trivial, ?_⟩
  rw [← List.append_nil (p.map Act.perform)]
  exact fitsAll_body p fun _ hno => by cases hno

/-- A step leaves a sound run sound, and what it asks for ends no run by a
    fault if the observer raises no error. -/
theorem step (now : Time) (running : Bool) (hs : s.Roomy g)
    (h : Sound s g a w.todo) :
    Sound s g (w.step s now running a).agent
        (w.step s now running a).walker.todo
      ∧ ∀ (o : Observer) (count : Nat) (now' : Time) (running' : Bool)
          (f : RunFault), (o.reaction (count + 1)).fails = false →
        (verdict o count now' (w.step s now running a).agent running'
          (w.step s now running a).signal).outcome ≠ some (.failed f) := by
  rcases Walker.step_cases s now running a w with ⟨-, heq⟩ |
    ⟨-, rest, log, -, heq⟩ | ⟨f, hsig, -⟩ | hadv
  · rw [heq]
    exact ⟨h, fun _ _ _ _ _ _ => nofun⟩
  · rw [heq]
    exact ⟨h, fun _ _ _ _ _ _ => nofun⟩
  · exact absurd hsig (h.unfailing hs f)
  · refine ⟨hadv.sound hs h, fun o count now' running' f hsink => ?_⟩
    by_cases hemit : (w.step s now running a).signal = .emit
    · -- the agent can be shown where it stands
      obtain ⟨hstands, -⟩ := hadv.sound_placed hs h
      obtain ⟨snapshot, hsnap⟩ :=
        hstands.snapshot hs (hadv.sound_readable hs h)
      rw [hemit]
      rcases verdict_emit o count now' (w.step s now running a).agent
        running' with ⟨-, heq⟩ | ⟨-, ms, hno, -⟩ | ⟨-, snapshot', -, heq⟩
      · rw [heq]
        exact nofun
      · rw [hsnap] at hno
        cases hno
      · rw [heq, hsink]
        exact nofun
    · rw [hadv.unshown hemit]
      exact nofun

end Sound

/-- A sound run on its own never fails, whatever its observer does short of
    raising an error. -/
theorem Solo.run_sound {o : Observer} {r : Solo} (hs : s.Roomy g)
    (hsink : ∀ k, (o.reaction k).fails = false)
    (h : Sound s g r.agent r.walker.todo)
    (hout : ∀ f, r.outcome ≠ some (.failed f)) (fuel : Nat) (f : RunFault) :
    (Solo.run s o fuel r).outcome ≠ some (.failed f) := by
  suffices hrun : Sound s g (run s o fuel r).agent
      (run s o fuel r).walker.todo
        ∧ ∀ f, (run s o fuel r).outcome ≠ some (.failed f) from hrun.2 f
  induction fuel with
  | zero => exact ⟨h, hout⟩
  | succ fuel ih =>
      obtain ⟨hsound, hfine⟩ := ih
      rw [run_succ]
      generalize run s o fuel r = r at hsound hfine
      cases hnone : r.outcome with
      | some e =>
          rw [step_over (by rw [hnone]; rfl)]
          exact ⟨hsound, hfine⟩
      | none =>
          obtain ⟨hagent, hwalker, -, -, houtcome⟩ :=
            step_spec (s := s) (o := o) hnone
          obtain ⟨hnext, hverdict⟩ :=
            hsound.step r.now r.running hs
          rw [hagent, hwalker, houtcome]
          exact ⟨hnext, fun f => hverdict o _ _ _ f (hsink _)⟩

end

end BlockStage
