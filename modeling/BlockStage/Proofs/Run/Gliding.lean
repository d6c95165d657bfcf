import BlockStage.Proofs.Run.Motion

/-! # Gliding — moves and turns on the canvas land exactly

    On the canvas an agent is shown at eased shares of its way that never
    fall, the last of which is all of it.  Whatever other runs do in the
    meantime, the frames of an animation follow one another in the phases of
    a `Sweep`, and no step, no flag and no delay leads out of them
    (`Sweep.Phase.stretch`).  So on exact numbers each coordinate and the
    heading go monotonically from where they are to where they are meant to
    be, and end there (`canvas_motions_exact`). -/

namespace BlockStage

/-! ## Runs among others -/

namespace Solo

variable [Arithmetic] {s : Scene} {o : Observer} {r : Solo}

/-- A run whose next turn comes some seconds later. -/
def delayed (r : Solo) (seconds : Rat) : Solo :=
  { r with now := r.now.add (.finite seconds) }

/-- All that a run can come to among others before it gets to some acts: it
    acts, the flag is lowered or raised at any time, and after it has shown a
    snapshot or slept its next turn may come later. -/
inductive Stretch (s : Scene) (o : Observer) (later : List Act) (r : Solo) :
    Solo → Prop
  | starts : Stretch s o later r r
  | acts {q : Solo} : Stretch s o later r q →
      q.walker.todo ≠ later → Stretch s o later r (q.step s o)
  | rests {q : Solo} {seconds : Rat} : Stretch s o later r q →
      q.walker.todo ≠ later → (q.next s).signal ≠ .proceed → 0 ≤ seconds →
      Stretch s o later r ((q.step s o).delayed seconds)
  | flagged {q : Solo} (running : Bool) : Stretch s o later r q →
      Stretch s o later r { q with running := running }

end Solo

/-- An observer that attends to every snapshot, and whose sleeps come to an
    end. -/
structure Observer.Returns (o : Observer) : Prop extends o.Attends where
  ends : ∀ k, ∀ seconds ∈ (o.reaction k).rests, seconds.isFinite = true

/-- After some sleeps it is later, or as late as before. -/
theorem Time.after_rests [Arithmetic] [Arithmetic.Exact] {rests : List Scalar}
    (h : ∀ seconds ∈ rests, seconds.isFinite = true) (t : Rat) :
    ∃ later, t ≤ later
      ∧ rests.foldl Time.after (.finite t) = .finite later := by
  induction rests generalizing t with
  | nil => exact ⟨t, le_rfl, rfl⟩
  | cons seconds rests ih =>
      obtain ⟨next, hnext, hafter⟩ : ∃ next, t ≤ next
          ∧ Time.after (.finite t) seconds = .finite next := by
        by_cases hbrief : seconds.le (.finite 0) = true
        · exact ⟨t, le_rfl, if_pos hbrief⟩
        · cases seconds with
          | finite q =>
              have hpos : 0 < q := by
                by_contra hno
                exact hbrief ((Scalar.Denotes.le_iff Scalar.denotes_finite
                  Scalar.denotes_finite).2 (not_lt.1 hno))
              exact ⟨t + q, by linarith, Time.after_exact hpos⟩
          | negZero => exact absurd rfl hbrief
          | _ => cases h _ (List.mem_cons_self ..)
      obtain ⟨later, hlater, hrests⟩ :=
        ih (fun x hx => h x (List.mem_cons_of_mem _ hx)) next
      refine ⟨later, hnext.trans hlater, ?_⟩
      rw [List.foldl_cons, hafter]
      exact hrests

/-! ## The phases of an animation -/

/-- An animation of a run. -/
structure Sweep where
  /-- What it changes. -/
  motion : Motion
  /-- The agent before it. -/
  agent : Agent
  /-- The pose that it leads from. -/
  start : Pose
  /-- The pose that it leads to. -/
  finish : Pose
  /-- How long it takes, in milliseconds. -/
  duration : Rat
  /-- When it began. -/
  began : Rat
  /-- The snapshots before it, the latest first. -/
  before : List Event
  /-- What is left to do after it. -/
  later : List Act

namespace Sweep

variable {w : Sweep} {es : List Rat} {t : Rat}

/-- The eased share of the way at a moment. -/
def height (w : Sweep) (t : Rat) : Rat :=
  eased (shareOf w.duration ((t - w.began) * 1000))

/-- The act that shows its frames. -/
def frame (w : Sweep) : Act := w.motion.frame (.finite w.began)

/-- What follows a frame that is shown at a moment. -/
def following (w : Sweep) (t : Rat) : List Act :=
  Walker.afterFrame
    (.real (.finite (shareOf w.duration ((t - w.began) * 1000)))) w.frame
    w.later

theorem height_mono {t' : Rat} (h : t ≤ t') : w.height t ≤ w.height t' :=
  eased_mono (shareOf_mono (by linarith))

theorem height_unit : 0 ≤ w.height t ∧ w.height t ≤ 1 := eased_unit _

/-- The frame that shows all of the duration shows all of the way, and
    nothing of it follows. -/
theorem following_cases (w : Sweep) (t : Rat) :
    (w.height t = 1 ∧ w.following t = w.later)
      ∨ (0 < w.duration ∧ (t - w.began) * 1000 < w.duration
        ∧ w.following t = .awaitFrame :: w.frame :: w.later) := by
  have hle : shareOf w.duration ((t - w.began) * 1000) ≤ 1 := by
    unfold shareOf
    split
    · exact le_rfl
    · exact min_le_right ..
  unfold following Walker.afterFrame
  by_cases hdone : 1 ≤ shareOf w.duration ((t - w.began) * 1000)
  · refine .inl ⟨?_, if_pos (isComplete_exact.2 hdone)⟩
    rw [height, le_antisymm hle hdone, eased_one]
  · refine .inr ⟨?_, ?_, if_neg (mt isComplete_exact.1 hdone)⟩
    · by_contra hno
      exact hdone (by rw [shareOf, if_pos (not_lt.1 hno)])
    · by_contra hno
      refine hdone ?_
      unfold shareOf
      split
      · exact le_rfl
      · rename_i hpos
        exact le_min ((one_le_div (not_le.1 hpos)).2 (not_lt.1 hno)) le_rfl

/-- A frame is not left over for later, -/
theorem frame_before (w : Sweep) : w.frame :: w.later ≠ w.later :=
  List.cons_ne_self _ _

/-- nor is a wait for one, -/
theorem wait_before (w : Sweep) :
    .awaitFrame :: w.frame :: w.later ≠ w.later := by
  intro h
  have hlength := congrArg List.length h
  simp only [List.length_cons] at hlength
  omega

/-- nor is a snapshot. -/
theorem due_before (w : Sweep) (t : Rat) :
    .emit :: w.following t ≠ w.later := by
  rcases w.following_cases t with ⟨-, hlast⟩ | ⟨-, -, hwait⟩
  · rw [hlast]
    exact List.cons_ne_self _ _
  · intro h
    have hlength := congrArg List.length h
    rw [hwait] at hlength
    simp only [List.length_cons] at hlength
    omega

variable [Arithmetic]

/-- An animation of numbers that denote ratios, with frames some time apart
    if it takes any. -/
structure Sound (w : Sweep) (s : Scene) : Prop where
  goal : ∀ g, s.goal = some g → g.isNumeric = true
  lasts : (w.motion.lasts s.config).Denotes w.duration
  leads : w.motion.Leads w.start w.finish
  pauses : 0 < w.duration → ∃ interval, 0 < interval
    ∧ s.config.frameMs.Denotes interval

/-- An agent at a share of the way. -/
abbrev Reaches (w : Sweep) (e : Rat) (a : Agent) : Prop :=
  w.motion.Reaches w.start w.finish w.agent e a

/-- A run that has shown its agent at some shares of the way. -/
structure Tells (w : Sweep) (es : List Rat) (t : Rat) (q : Solo) : Prop where
  outcome : q.outcome = none
  now : q.now = .finite t
  since : w.began ≤ t
  agent : ∃ e, w.Reaches e q.agent
  shown : ∃ events : List Event, q.shown = events.reverse ++ w.before
    ∧ List.Forall₂ (fun e (event : Event) =>
      event.snapshot.Shows (w.start.toward w.finish e)) es events
  rising : es.Pairwise (· ≤ ·)
  unit : ∀ e ∈ es, 0 ≤ e ∧ e ≤ 1
  past : ∀ e ∈ es, e ≤ w.height t
  first : ∀ e ∈ es.head?, e = w.height w.began

/-- How far an animation has come: its next frame is to be calculated, is to
    be shown, or is waited for, or it has landed. -/
inductive Phase (w : Sweep) (q : Solo) : Prop
  | looks {es : List Rat} {t : Rat} : w.Tells es t q →
      (es = [] → t = w.began) → q.walker.todo = w.frame :: w.later →
      Phase w q
  | due {es : List Rat} {t : Rat} : w.Tells es t q →
      (es = [] → t = w.began) → w.Reaches (w.height t) q.agent →
      q.walker.todo = .emit :: w.following t → Phase w q
  | waits {es : List Rat} {t : Rat} : w.Tells es t q → es ≠ [] →
      0 < w.duration → q.walker.todo = .awaitFrame :: w.frame :: w.later →
      Phase w q
  | lands {es : List Rat} {t : Rat} : w.Tells (es ++ [1]) t q →
      w.Reaches 1 q.agent → q.walker.todo = w.later → Phase w q

variable {s : Scene} {o : Observer} {q : Solo}

/-- The flag makes no difference. -/
theorem Tells.flagged (h : w.Tells es t q) (running : Bool) :
    w.Tells es t { q with running := running } :=
  ⟨h.outcome, h.now, h.since, h.agent, h.shown, h.rising, h.unit, h.past,
    h.first⟩

/-- The flag leads out of no phase. -/
theorem Phase.flagged (h : w.Phase q) (running : Bool) :
    w.Phase { q with running := running } := by
  cases h with
  | looks h hfirst htodo => exact .looks (h.flagged running) hfirst htodo
  | due h hfirst hreach htodo =>
      exact .due (h.flagged running) hfirst hreach htodo
  | waits h hsome hpos htodo =>
      exact .waits (h.flagged running) hsome hpos htodo
  | lands h hreach htodo => exact .lands (h.flagged running) hreach htodo

variable [Arithmetic.Exact]

/-- A later turn is a turn at a later moment. -/
theorem Tells.delayed (h : w.Tells es t q) {seconds : Rat}
    (hseconds : 0 ≤ seconds) :
    w.Tells es (t + seconds) (q.delayed seconds) := by
  have hnow : (q.delayed seconds).now = .finite (t + seconds) := by
    unfold Solo.delayed
    rw [h.now]
    exact Arithmetic.Exact.round_eq _
  exact ⟨h.outcome, hnow, by linarith [h.since], h.agent, h.shown, h.rising,
    h.unit, fun e he => (h.past e he).trans (height_mono (by linarith)),
    h.first⟩

/-- The next frame is calculated. -/
theorem Tells.looks (h : w.Tells es t q) (hw : w.Sound s)
    (htodo : q.walker.todo = w.frame :: w.later) :
    w.Tells es t (q.step s o)
      ∧ w.Reaches (w.height t) (q.step s o).agent
      ∧ (q.step s o).walker.todo = .emit :: w.following t
      ∧ (q.next s).signal = .proceed := by
  obtain ⟨e, he⟩ := h.agent
  obtain ⟨c, hstep, hc⟩ := he.next hw.leads hw.goal hw.lasts h.since htodo
    q.running
  rw [← h.now] at hstep
  rw [Solo.step_goOn h.outcome hstep]
  exact ⟨⟨h.outcome, h.now, h.since, ⟨_, hc⟩, h.shown, h.rising, h.unit,
    h.past, h.first⟩, hc, rfl, congrArg Step.signal hstep⟩

/-- The frame is shown. -/
theorem Tells.due (h : w.Tells es t q) (ho : o.Returns)
    (hfirst : es = [] → t = w.began) (hreach : w.Reaches (w.height t) q.agent)
    {rest : List Act} (htodo : q.walker.todo = .emit :: rest) :
    ∃ later, t ≤ later ∧ w.Tells (es ++ [w.height t]) later (q.step s o)
      ∧ (q.step s o).agent = q.agent
      ∧ (q.step s o).walker.todo = rest := by
  obtain ⟨z, hz, hstep⟩ := Solo.step_shows (s := s) ho.toAttends h.outcome
    hreach.showable htodo
  obtain ⟨events, hshown, hshows⟩ := h.shown
  -- the observer may take its time
  obtain ⟨later, hlater, hafter⟩ :=
    Time.after_rests (ho.ends (q.shown.length + 1)) t
  rw [← h.now] at hafter
  rw [hstep]
  refine ⟨later, hlater, ⟨h.outcome, hafter, h.since.trans hlater, h.agent,
    ⟨events ++ [⟨q.now, z⟩], ?_, ?_⟩, ?_, ?_, ?_, ?_⟩, rfl, rfl⟩
  · show _ :: q.shown = _
    rw [hshown]
    simp
  · exact List.rel_append hshows (.cons (hreach.holds.shows hz) .nil)
  · exact List.pairwise_append.2 ⟨h.rising, List.pairwise_singleton ..,
      fun e he _ hlast => List.mem_singleton.1 hlast ▸ h.past e he⟩
  · intro e he
    rcases List.mem_append.1 he with he | he
    · exact h.unit e he
    · exact List.mem_singleton.1 he ▸ height_unit
  · intro e he
    refine le_trans ?_ (height_mono hlater)
    rcases List.mem_append.1 he with he | he
    · exact h.past e he
    · exact (List.mem_singleton.1 he).le
  · intro e he
    cases es with
    | nil =>
        cases he
        rw [hfirst rfl]
    | cons e₀ es => exact h.first e he

/-- The next frame is waited for. -/
theorem Tells.waits (h : w.Tells es t q) {interval : Rat} {rest : List Act}
    (hpos : 0 < interval) (hinterval : s.config.frameMs.Denotes interval)
    (htodo : q.walker.todo = .awaitFrame :: rest) :
    w.Tells es (t + interval / 1000) (q.step s o)
      ∧ (q.step s o).walker.todo = rest := by
  have hnext : q.next s = ⟨q.agent, { q.walker with todo := rest }, [],
      .sleep (.finite (interval / 1000))⟩ := by
    unfold Solo.next Walker.step
    rw [htodo]
    simp only [hinterval.seconds hpos, operate, Except.mapError,
      Walker.goOnWith]
  have hlater : q.now.after (.finite (interval / 1000))
      = .finite (t + interval / 1000) := by
    rw [h.now]
    exact Time.after_exact (by positivity)
  have hle : t ≤ t + interval / 1000 := by
    linarith [div_pos hpos (show (0 : Rat) < 1000 by norm_num)]
  rw [Solo.step_sleep h.outcome hnext]
  exact ⟨⟨h.outcome, hlater, h.since.trans hle, h.agent, h.shown, h.rising,
    h.unit, fun e he => (h.past e he).trans (height_mono hle), h.first⟩, rfl⟩

/-- No step leads out of the phases before the animation has landed, and none
    after which the next turn comes later. -/
theorem Phase.step (h : w.Phase q) (hw : w.Sound s) (ho : o.Returns)
    (hmore : q.walker.todo ≠ w.later) :
    w.Phase (q.step s o)
      ∧ ((q.next s).signal ≠ .proceed → ∀ seconds, 0 ≤ seconds →
        w.Phase ((q.step s o).delayed seconds)) := by
  cases h with
  | looks h hfirst htodo =>
      obtain ⟨hnext, hreach, hdo, hsignal⟩ := h.looks (o := o) hw htodo
      exact ⟨.due hnext hfirst hreach hdo, fun hno => absurd hsignal hno⟩
  | @due es t h hfirst hreach htodo =>
      obtain ⟨later, -, hnext, hagent, hdo⟩ :=
        h.due (s := s) ho hfirst hreach htodo
      rcases w.following_cases t with ⟨hone, hlast⟩ | ⟨hpos, -, hwait⟩
      · rw [hone] at hnext hreach
        rw [hlast] at hdo
        rw [← hagent] at hreach
        exact ⟨.lands hnext hreach hdo, fun _ seconds hseconds =>
          .lands (hnext.delayed hseconds) hreach hdo⟩
      · rw [hwait] at hdo
        exact ⟨.waits hnext (by simp) hpos hdo, fun _ seconds hseconds =>
          .waits (hnext.delayed hseconds) (by simp) hpos hdo⟩
  | waits h hsome hpos htodo =>
      obtain ⟨interval, hpause, hinterval⟩ := hw.pauses hpos
      obtain ⟨hnext, hdo⟩ := h.waits (o := o) hpause hinterval htodo
      exact ⟨.looks hnext (absurd · hsome) hdo, fun _ seconds hseconds =>
        .looks (hnext.delayed hseconds) (absurd · hsome) hdo⟩
  | lands _ _ htodo => exact absurd htodo hmore

/-- Whatever happens to a run that is about to begin an animation, it is in
    one of the phases from its next act on until it lands. -/
theorem Phase.stretch {r : Solo} (hw : w.Sound s) (ho : o.Returns)
    (hbegins : ∀ running, w.Phase ({ r with running := running }.step s o)
      ∧ ({ r with running := running }.next s).signal = .proceed)
    (h : Solo.Stretch s o w.later r q) :
    (∃ running, q = { r with running := running }) ∨ w.Phase q := by
  induction h with
  | starts => exact .inl ⟨r.running, rfl⟩
  | acts _ hmore ih =>
      rcases ih with ⟨running, rfl⟩ | hphase
      · exact .inr (hbegins running).1
      · exact .inr (hphase.step hw ho hmore).1
  | rests _ hmore hsignal hseconds ih =>
      rcases ih with ⟨running, rfl⟩ | hphase
      · exact absurd (hbegins running).2 hsignal
      · exact .inr ((hphase.step hw ho hmore).2 hsignal _ hseconds)
  | flagged running _ ih =>
      rcases ih with ⟨old, rfl⟩ | hphase
      · exact .inl ⟨running, rfl⟩
      · exact .inr (hphase.flagged running)

/-- A run on its own calculates its next frame and shows it. -/
theorem Tells.frame {r : Solo} (h : w.Tells es t q) (hw : w.Sound s)
    (ho : o.Returns) (hfirst : es = [] → t = w.began)
    (htodo : q.walker.todo = w.frame :: w.later)
    (hr : Solo.Stretch s o w.later r q) :
    ∃ later, t ≤ later
      ∧ w.Tells (es ++ [w.height t]) later (Solo.run s o 2 q)
      ∧ (Solo.run s o 2 q).walker.todo = w.following t
      ∧ Solo.Stretch s o w.later r (Solo.run s o 2 q) := by
  obtain ⟨hnext, hreach, hdue, -⟩ := h.looks (o := o) hw htodo
  obtain ⟨later, hlater, hshown, -, hdo⟩ :=
    hnext.due (s := s) ho hfirst hreach hdue
  have htwo : Solo.run s o 2 q = (q.step s o).step s o := by
    rw [Solo.run_succ, Solo.run_succ]
    rfl
  have hacts : Solo.Stretch s o w.later r (q.step s o) :=
    hr.acts (by rw [htodo]; exact w.frame_before)
  rw [htwo]
  exact ⟨later, hlater, hshown, hdo,
    hacts.acts (by rw [hdue]; exact w.due_before t)⟩

/-- A run on its own that is about to calculate a frame lands after as many
    more as there are intervals left. -/
theorem Tells.lands {r : Solo} (hw : w.Sound s) (ho : o.Returns)
    {interval : Rat} (hpauses : 0 < w.duration →
      0 < interval ∧ s.config.frameMs.Denotes interval)
    {n : Nat} (hleft : w.duration - (t - w.began) * 1000 ≤ n * interval)
    (h : w.Tells es t q) (hfirst : es = [] → t = w.began)
    (htodo : q.walker.todo = w.frame :: w.later)
    (hr : Solo.Stretch s o w.later r q) :
    ∃ k, Solo.Stretch s o w.later r (Solo.run s o k q)
      ∧ (Solo.run s o k q).walker.todo = w.later := by
  induction n generalizing q es t with
  | zero =>
      obtain ⟨-, -, -, hdo, hstretch⟩ := h.frame hw ho hfirst htodo hr
      rcases w.following_cases t with ⟨-, hlast⟩ | ⟨-, hless, -⟩
      · exact ⟨2, hstretch, hdo.trans hlast⟩
      · rw [Nat.cast_zero, zero_mul] at hleft
        linarith
  | succ n ih =>
      obtain ⟨later, hlater, hshown, hdo, hstretch⟩ :=
        h.frame hw ho hfirst htodo hr
      rcases w.following_cases t with ⟨-, hlast⟩ | ⟨hpos, -, hwait⟩
      · exact ⟨2, hstretch, hdo.trans hlast⟩
      · rw [hwait] at hdo
        obtain ⟨hinterval, hms⟩ := hpauses hpos
        obtain ⟨hnext, hlook⟩ := hshown.waits (o := o) hinterval hms hdo
        have hmore : (Solo.run s o 2 q).walker.todo ≠ w.later := by
          rw [hdo]
          exact w.wait_before
        rw [← Solo.run_succ] at hnext hlook
        obtain ⟨k, hk, hlands⟩ := ih (by push_cast at hleft; linarith) hnext
          (by simp) hlook (Solo.run_succ (s := s) (o := o) 2 ▸
            hstretch.acts hmore)
        rw [← Solo.run_add] at hk hlands
        exact ⟨3 + k, hk, hlands⟩

omit [Arithmetic.Exact] in
/-- What a run that has landed or is on its way has shown. -/
theorem Phase.tells (h : w.Phase q) :
    ∃ es t, w.Tells es t q
      ∧ (q.walker.todo = w.later → es.getLast? = some 1
        ∧ w.Reaches 1 q.agent) := by
  cases h with
  | looks h _ htodo =>
      exact ⟨_, _, h, fun hno => absurd (htodo.symm.trans hno) w.frame_before⟩
  | @due es t h _ _ htodo =>
      exact ⟨_, _, h, fun hno =>
        absurd (htodo.symm.trans hno) (w.due_before t)⟩
  | waits h _ _ htodo =>
      exact ⟨_, _, h, fun hno => absurd (htodo.symm.trans hno) w.wait_before⟩
  | lands h hreach _ => exact ⟨_, _, h, fun _ => ⟨by simp, hreach⟩⟩

/-- What a run has shown of an animation by the time it has come to another
    state: poses that head from one to another, from the first of them on if
    the animation takes any time, and to the last of them once it has
    landed. -/
structure Shown (start finish : Pose) (lasting : Prop) (later : List Act)
    (r q : Solo) (poses : List Pose) : Prop where
  outcome : q.outcome = none
  shown : ∃ events : List Event, q.shown = events.reverse ++ r.shown
    ∧ List.Forall₂ (fun pose (event : Event) => event.snapshot.Shows pose)
      poses events
  x : Heads start.x finish.x (poses.map (·.x))
  y : Heads start.y finish.y (poses.map (·.y))
  heading : Heads start.heading finish.heading (poses.map (·.heading))
  first : lasting → ∀ pose ∈ poses.head?, pose = start
  lands : q.walker.todo = later →
    poses.getLast? = some finish ∧ q.agent.Holds finish

omit [Arithmetic.Exact] in
/-- What has been shown at some shares of the way. -/
theorem Tells.poses (h : w.Tells es t q) {r : Solo}
    (hbefore : w.before = r.shown)
    (hlands : q.walker.todo = w.later → es.getLast? = some 1
      ∧ w.Reaches 1 q.agent) :
    Shown w.start w.finish (0 < w.duration) w.later r q
      (es.map (w.start.toward w.finish)) := by
  obtain ⟨events, hevents, hshows⟩ := h.shown
  have hheads := heads_shares h.rising h.unit
  refine ⟨h.outcome, ⟨events, hbefore ▸ hevents,
    List.forall₂_map_left_iff.2 hshows⟩, ?_, ?_, ?_, ?_, ?_⟩
  · rw [List.map_map]
    exact hheads w.start.x w.finish.x
  · rw [List.map_map]
    exact hheads w.start.y w.finish.y
  · rw [List.map_map]
    exact hheads w.start.heading w.finish.heading
  · intro hpos pose hpose
    rw [List.head?_map] at hpose
    obtain ⟨e, he, rfl⟩ := Option.mem_map.1 hpose
    have hzero : w.height w.began = 0 := by
      unfold height shareOf
      rw [if_neg (not_le.2 hpos), sub_self, zero_mul, zero_div,
        min_eq_left zero_le_one, eased_zero]
    rw [h.first e he, hzero, Pose.toward_zero]
  · intro hdone
    obtain ⟨hlast, hreach⟩ := hlands hdone
    refine ⟨?_, by simpa using hreach.holds⟩
    rw [List.getLast?_map, hlast, Option.map_some, Pose.toward_one]

/-- An animation that a run is about to begin: whatever happens, the run shows
    poses on the way and keeps the rest of its agent, and on its own it
    lands. -/
theorem Sound.animates (hw : w.Sound s) (ho : o.Returns) {r : Solo}
    (hnone : r.outcome = none) (hnow : r.now = .finite w.began)
    (hholds : r.agent.Holds w.start) (hshow : r.agent.Showable)
    (hagent : w.agent = r.agent) (hbefore : w.before = r.shown)
    (hmore : r.walker.todo ≠ w.later) {log : List LogLine}
    (hstep : ∀ running, r.walker.step s r.now running r.agent
      = r.walker.goOn r.agent (w.frame :: w.later) log) :
    (∃ k, Solo.Stretch s o w.later r (Solo.run s o k r)
        ∧ (Solo.run s o k r).walker.todo = w.later)
      ∧ ∀ q, Solo.Stretch s o w.later r q →
        w.motion.Keeps r.agent q.agent ∧ ∃ poses,
          Shown w.start w.finish (0 < w.duration) w.later r q poses
          ∧ ∀ pose ∈ poses, ∃ e, (0 ≤ e ∧ e ≤ 1)
            ∧ pose = w.start.toward w.finish e := by
  have hreach : w.Reaches 0 r.agent := by
    show w.motion.Reaches w.start w.finish w.agent 0 r.agent
    rw [hagent]
    exact Motion.reaches_start hholds hshow
  have hbegins : ∀ running,
      w.Tells [] w.began ({ r with running := running }.step s o)
        ∧ ({ r with running := running }.step s o).walker.todo
          = w.frame :: w.later
        ∧ ({ r with running := running }.next s).signal = .proceed := by
    intro running
    have hnext : Solo.next s { r with running := running }
        = r.walker.goOn r.agent (w.frame :: w.later) log := hstep running
    rw [Solo.step_goOn (r := { r with running := running }) hnone hnext]
    refine ⟨⟨hnone, hnow, le_rfl, ⟨0, hreach⟩, ⟨[], ?_, .nil⟩, .nil, nofun,
      nofun, nofun⟩, rfl, congrArg Step.signal hnext⟩
    exact hbefore.symm
  constructor
  · obtain ⟨hfirst, hdo, -⟩ := hbegins r.running
    obtain ⟨interval, n, hpauses, hleft⟩ : ∃ (interval : Rat) (n : Nat),
        (0 < w.duration → 0 < interval ∧ s.config.frameMs.Denotes interval)
          ∧ w.duration ≤ n * interval := by
      by_cases hpos : 0 < w.duration
      · obtain ⟨interval, hinterval, hms⟩ := hw.pauses hpos
        exact ⟨interval, ⌈w.duration / interval⌉₊, fun _ => ⟨hinterval, hms⟩,
          (div_le_iff₀ hinterval).1 (Nat.le_ceil _)⟩
      · exact ⟨0, 0, fun hno => absurd hno hpos, by
          simpa using not_lt.1 hpos⟩
    obtain ⟨k, hk, hlands⟩ := hfirst.lands hw ho hpauses
      (by rwa [sub_self, zero_mul, sub_zero]) (fun _ => rfl) hdo
      (Solo.Stretch.starts.acts hmore)
    have hrun : Solo.run s o (1 + k) r = Solo.run s o k (r.step s o) := by
      rw [Solo.run_add, Solo.run_succ]
      rfl
    rw [← hrun] at hk hlands
    exact ⟨1 + k, hk, hlands⟩
  · intro q hq
    rcases Phase.stretch hw ho (fun running =>
      ⟨.looks (hbegins running).1 (fun _ => rfl) (hbegins running).2.1,
        (hbegins running).2.2⟩) hq with ⟨running, rfl⟩ | hphase
    · refine ⟨?_, [], ⟨hnone, ⟨[], rfl, .nil⟩, ?_, ?_, ?_, nofun, ?_⟩, nofun⟩
      · exact hagent ▸ hreach.keeps
      · exact heads_shares .nil nofun _ _
      · exact heads_shares .nil nofun _ _
      · exact heads_shares .nil nofun _ _
      · exact fun hdone => absurd hdone hmore
    · obtain ⟨es, t, htells, hlands⟩ := hphase.tells
      obtain ⟨e, he⟩ := htells.agent
      refine ⟨?_, _, htells.poses hbefore hlands, ?_⟩
      · rw [← hagent]
        exact he.keeps
      · intro pose hpose
        obtain ⟨e, he, rfl⟩ := List.mem_map.1 hpose
        exact ⟨e, htells.unit e he, rfl⟩

end Sweep

/-! ## Moves and turns -/

/-- A run about to perform an instruction, its agent in a pose. -/
structure Solo.Performs [Arithmetic] (i : Instruction) (p : Pose)
    (rest : List Act) (r : Solo) : Prop where
  outcome : r.outcome = none
  now : ∃ t, r.now = .finite t
  holds : r.agent.Holds p
  showable : r.agent.Showable
  todo : r.walker.todo = .perform i :: rest

section

variable [Arithmetic] [Arithmetic.Exact] {s : Scene} {g : Surface}
  {o : Observer} {r : Solo} {p : Pose} {rest : List Act}

/-- A move shows the agent on its way to the end of the move, between the
    margins and with the same heading, and ends there. -/
theorem Solo.Performs.glides {v : Value} {distance : Rat}
    (hr : r.Performs (.move v) p rest) (hc : s.config.Denotes g)
    (hgoal : ∀ g, s.goal = some g → g.isNumeric = true) (ho : o.Returns)
    (hcos : ∀ q, (Arithmetic.cos (.finite q)).isFinite = true)
    (hsin : ∀ q, (Arithmetic.sin (.finite q)).isFinite = true)
    (hpauses : 0 < g.moveMs → 0 < g.frameMs) (hinside : g.Holds p.x p.y)
    (hv : v.Denotes distance) (hpos : 0 < distance) :
    (∃ k, Solo.Stretch s o (.check :: rest) r (Solo.run s o k r)
        ∧ (Solo.run s o k r).walker.todo = .check :: rest)
      ∧ ∀ q, Solo.Stretch s o (.check :: rest) r q →
        q.agent.heading = r.agent.heading ∧ ∃ poses,
          Sweep.Shown p (g.moved p distance) (0 < g.moveMs) (.check :: rest) r
            q poses
          ∧ ∀ pose ∈ poses, g.Holds pose.x pose.y := by
  obtain ⟨t, hnow⟩ := hr.now
  obtain ⟨start, finish, log, hstep, hleads⟩ := step_move hc hcos hsin
    hr.holds hv hpos hr.todo r.now
  rw [hnow] at hstep
  let w : Sweep := ⟨.glide start finish, r.agent, p, g.moved p distance,
    g.moveMs, t, r.shown, .check :: rest⟩
  have hw : w.Sound s := ⟨hgoal, hc.moveMs, hleads, fun hlasts =>
    ⟨g.frameMs, hpauses hlasts, hc.frameMs⟩⟩
  obtain ⟨hlands, hshows⟩ := hw.animates ho hr.outcome hnow hr.holds
    hr.showable rfl rfl (by rw [hr.todo]; exact nofun)
    (by rw [hnow]; exact hstep)
  refine ⟨hlands, fun q hq => ?_⟩
  obtain ⟨⟨place, goal, hkeeps⟩, poses, hshown, hway⟩ := hshows q hq
  refine ⟨by rw [hkeeps], poses, hshown, fun pose hpose => ?_⟩
  obtain ⟨e, he, rfl⟩ := hway pose hpose
  have hend := g.inset_holds
    (p.x + (Arithmetic.cos (angleOf p.heading)).value * (distance * g.unit))
    (p.y + (Arithmetic.sin (angleOf p.heading)).value * (distance * g.unit))
  exact ⟨toward_within hinside.1 hend.1 he, toward_within hinside.2 hend.2 he⟩

/-- A turn shows the agent on its way to the end of the turn, at the same
    place, and ends there. -/
theorem Solo.Performs.swings {i : Instruction} {degrees : Rat}
    (hr : r.Performs i p rest) (hc : s.config.Denotes g)
    (hgoal : ∀ g, s.goal = some g → g.isNumeric = true) (ho : o.Returns)
    (hpauses : 0 < g.turnMs → 0 < g.frameMs) (hi : i.Turns degrees) :
    (∃ k, Solo.Stretch s o (.check :: rest) r (Solo.run s o k r)
        ∧ (Solo.run s o k r).walker.todo = .check :: rest)
      ∧ ∀ q, Solo.Stretch s o (.check :: rest) r q →
        q.agent.position = r.agent.position ∧ ∃ poses,
          Sweep.Shown p (p.turned degrees) (0 < g.turnMs) (.check :: rest) r q
            poses
          ∧ ∀ pose ∈ poses, pose.x = p.x ∧ pose.y = p.y := by
  obtain ⟨t, hnow⟩ := hr.now
  obtain ⟨finish, log, hstep, hleads⟩ := step_turn hc hr.holds hi
    hr.todo r.now
  rw [hnow] at hstep
  let w : Sweep := ⟨.swing r.agent.heading finish, r.agent, p,
    p.turned degrees, g.turnMs, t, r.shown, .check :: rest⟩
  have hw : w.Sound s := ⟨hgoal, hc.turnMs, hleads, fun hlasts =>
    ⟨g.frameMs, hpauses hlasts, hc.frameMs⟩⟩
  obtain ⟨hlands, hshows⟩ := hw.animates ho hr.outcome hnow hr.holds
    hr.showable rfl rfl (by rw [hr.todo]; exact nofun)
    (by rw [hnow]; exact hstep)
  refine ⟨hlands, fun q hq => ?_⟩
  obtain ⟨⟨heading, hkeeps⟩, poses, hshown, hway⟩ := hshows q hq
  refine ⟨by rw [hkeeps], poses, hshown, fun pose hpose => ?_⟩
  obtain ⟨e, he, rfl⟩ := hway pose hpose
  simp [w, Pose.toward, Pose.turned]

/-- A run brings its agent onto the canvas before the first instruction. -/
theorem Solo.start_performs {i : Instruction} {is : Program} {a : Agent}
    (hc : s.config.Denotes g) (hholds : a.Holds p) (hshow : a.Showable) :
    (Solo.run s o 2 (.start (i :: is) a true)).Performs i
      ⟨(g.inset p.x p.y).1, (g.inset p.x p.y).2, p.heading⟩
      (is.map .perform) := by
  obtain ⟨u, v, hplace, hu, hv⟩ := hholds.place
  obtain ⟨point, hpoint, hx, hy⟩ := insetPoint_exact hc hu hv
  obtain ⟨zx, hzx, -⟩ := Lenient.measure_denotes hx
  obtain ⟨zy, hzy, -⟩ := Lenient.measure_denotes hy
  have hplaced : clampPosition s.config a.position = .ok point := by
    unfold clampPosition
    rw [hc.mode, hplace]
    exact hpoint
  have hrun : Solo.run s o 2 (.start (i :: is) a true)
      = ((Solo.start (i :: is) a true).step s o).step s o := by
    rw [Solo.run_succ, Solo.run_succ]
    rfl
  rw [hrun, Solo.start_step true hplaced]
  exact ⟨rfl, ⟨0, rfl⟩, ⟨⟨_, _, rfl, hx, hy⟩, hholds.heading⟩,
    hshow.moved hzx hzy, rfl⟩

end

/-- On exact numbers, and whatever sine and cosine are, moves and turns on the
    canvas are monotone, stay within bounds and land exactly.  A run brings
    its agent onto the canvas before its first instruction.  From a place
    there a move shows it on the way to its end, which has been brought onto
    the canvas once; every coordinate heads for its end monotonically and
    never past it, and all places keep the margin as far as there is room.  A
    turn shows the agent on the way to the heading it turns to, in the same
    manner, and at the same place.  If the animation takes any time, the first
    snapshot shows the pose at its start; the last shows the pose at its end.
    None of this depends on the flag, on how long the observer sleeps or on
    how late the turns of the run come, and on its own the run comes to the
    end of the animation. -/
theorem canvas_motions_exact [Arithmetic] [Arithmetic.Exact] {s : Scene}
    {g : Surface} {o : Observer}
    (hcos : ∀ q, (Arithmetic.cos (.finite q)).isFinite = true)
    (hsin : ∀ q, (Arithmetic.sin (.finite q)).isFinite = true)
    (hc : s.config.Denotes g)
    (hgoal : ∀ g, s.goal = some g → g.isNumeric = true) (ho : o.Returns) :
    (∀ (i : Instruction) (is : Program) (a : Agent) (p : Pose), a.Holds p →
        a.Showable →
        (Solo.run s o 2 (.start (i :: is) a true)).Performs i
            ⟨(g.inset p.x p.y).1, (g.inset p.x p.y).2, p.heading⟩
            (is.map .perform)
          ∧ g.Holds (g.inset p.x p.y).1 (g.inset p.x p.y).2)
      ∧ (∀ (r : Solo) (p : Pose) (rest : List Act) (v : Value)
          (distance : Rat), r.Performs (.move v) p rest → g.Holds p.x p.y →
          v.Denotes distance → 0 < distance →
          (0 < g.moveMs → 0 < g.frameMs) →
          (∃ k, Solo.Stretch s o (.check :: rest) r (Solo.run s o k r)
              ∧ (Solo.run s o k r).walker.todo = .check :: rest)
            ∧ ∀ q, Solo.Stretch s o (.check :: rest) r q →
              q.agent.heading = r.agent.heading ∧ ∃ poses,
                Sweep.Shown p (g.moved p distance) (0 < g.moveMs)
                  (.check :: rest) r q poses
                ∧ ∀ pose ∈ poses, g.Holds pose.x pose.y)
      ∧ ∀ (r : Solo) (p : Pose) (rest : List Act) (i : Instruction)
          (degrees : Rat), r.Performs i p rest → i.Turns degrees →
          (0 < g.turnMs → 0 < g.frameMs) →
          (∃ k, Solo.Stretch s o (.check :: rest) r (Solo.run s o k r)
              ∧ (Solo.run s o k r).walker.todo = .check :: rest)
            ∧ ∀ q, Solo.Stretch s o (.check :: rest) r q →
              q.agent.position = r.agent.position ∧ ∃ poses,
                Sweep.Shown p (p.turned degrees) (0 < g.turnMs)
                  (.check :: rest) r q poses
                ∧ ∀ pose ∈ poses, pose.x = p.x ∧ pose.y = p.y := by
  refine ⟨?_, ?_, ?_⟩
  · exact fun i is a p hholds hshow =>
      ⟨Solo.start_performs hc hholds hshow, g.inset_holds p.x p.y⟩
  · exact fun r p rest v distance hr hinside hv hpos hpauses =>
      hr.glides hc hgoal ho hcos hsin hpauses hinside hv hpos
  · exact fun r p rest i degrees hr hi hpauses =>
      hr.swings hc hgoal ho hpauses hi

/-- A canvas of the usual size with a goal on it. -/
def wideCanvas : Scene :=
  ⟨{ Config.standard with mode := .canvas }, some (.cell 300 200), .int 100⟩

/-- What it measures. -/
def wideSurface : Surface := ⟨480, 400, 20, 3, 300, 168, 16⟩

section

attribute [local instance] Arithmetic.level

/-- Ten steps to the right from the middle of a canvas, under an observer
    that lowers the flag at once: the move is shown to its end all the
    same. -/
theorem canvas_motions_exact_right :
    ∃ (r : Solo) (k : Nat) (poses : List Pose),
      r = Solo.run wideCanvas ⟨.present, fun _ => ⟨⟨[], false⟩, true⟩⟩ 2
          (.start [.move 10] (.atStart (.str "a") [240, 200] 90) true)
        ∧ Sweep.Shown ⟨240, 200, 90⟩ ⟨270, 200, 90⟩ (0 < wideSurface.moveMs)
          [.check] r
          (Solo.run wideCanvas ⟨.present, fun _ => ⟨⟨[], false⟩, true⟩⟩ k r) poses
        ∧ poses.getLast? = some ⟨270, 200, 90⟩
        ∧ ∀ pose ∈ poses, wideSurface.Holds pose.x pose.y := by
  have hexact : Arithmetic.Exact := Arithmetic.exact_exact _ _
  have hint : ∀ i : Int, (Value.int i).Denotes i := Value.denotes_int
  have hc : wideCanvas.config.Denotes wideSurface := by
    refine ⟨rfl, ?_, ?_, ?_, Value.denotes_real Scalar.denotes_finite, ?_, ?_,
      ?_⟩
    · exact_mod_cast hint 480
    · exact_mod_cast hint 400
    · exact_mod_cast hint 20
    · exact_mod_cast hint 300
    · exact_mod_cast hint 168
    · exact_mod_cast hint 16
  obtain ⟨hstart, hmove, -⟩ := canvas_motions_exact (s := wideCanvas)
    (o := ⟨.present, fun _ => ⟨⟨[], false⟩, true⟩⟩) (fun _ => rfl) (fun _ => rfl) hc
    (by rintro _ ⟨⟩; rfl) ⟨⟨nofun, fun _ => rfl⟩, nofun⟩
  have hholds : (Agent.atStart (.str "a") [240, 200] 90).Holds
      ⟨240, 200, 90⟩ := by
    refine ⟨⟨240, 200, rfl, ?_, ?_⟩, ?_⟩
    · exact_mod_cast hint 240
    · exact_mod_cast hint 200
    · exact_mod_cast hint 90
  obtain ⟨hr, hinside⟩ := hstart (.move 10) [] _ _ hholds ⟨_, rfl⟩
  have hinset : wideSurface.inset 240 200 = (240, 200) := by
    norm_num [Surface.inset, confined, wideSurface]
  have hmoved : wideSurface.moved ⟨240, 200, 90⟩ 10 = ⟨270, 200, 90⟩ := by
    have hright : (Arithmetic.cos (angleOf 90)).value = 1 := rfl
    have hlevel : (Arithmetic.sin (angleOf 90)).value = 0 := rfl
    unfold Surface.moved Surface.target
    rw [hright, hlevel]
    norm_num [Surface.inset, confined, wideSurface]
  simp only [hinset] at hr hinside
  obtain ⟨⟨k, hk, hlands⟩, hshows⟩ := hmove _ _ _ 10 10 hr hinside
    (by exact_mod_cast hint 10) (by norm_num)
    (fun _ => by norm_num [wideSurface])
  obtain ⟨-, poses, hshown, hinside⟩ := hshows _ hk
  rw [hmoved] at hshown
  exact ⟨_, k, poses, rfl, hshown, (hshown.lands hlands).1, hinside⟩

end

end BlockStage
