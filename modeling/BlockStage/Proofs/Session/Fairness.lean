import BlockStage.Proofs.Session.Attention

/-! # Fairness — nobody keeps the others waiting

    The turns to come stand in a queue: what is left of the round, then
    the next round.  Turns are taken from its head and added at its end, so
    whoever stands in it while another agent acts has its turn before that
    agent has one again (`Precedes`). -/

namespace BlockStage

open Act

namespace World

variable {u v w : World} {n i j k : Nat}

/-! ## The queue -/

/-- Agent `j` stands in the queue of turns to come, before agent `i` if that
    one does. -/
def Precedes (w : World) (j i : Nat) : Prop :=
  ∃ before behind, w.round ++ w.ready = before ++ .agent j :: behind
    ∧ .agent i ∉ before

/-- Agent `k` is in a sleep that takes time: a timer keeps its turn, or it
    has just woken up and its turn has not come into the queue yet. -/
def Asleep (w : World) (k : Nat) : Prop :=
  (∃ t ∈ w.timers, t.sleeper.proper = .agent k)
    ∨ ∃ sleeper, .wake sleeper ∈ w.round ++ w.ready
      ∧ sleeper.proper = .agent k

/-- What only adds turns at the end of the queue leaves everybody's place in
    it. -/
theorem Precedes.extend (h : w.Precedes j i) (hround : v.round = w.round)
    (hready : w.ready <+: v.ready) : v.Precedes j i := by
  obtain ⟨before, behind, heq, hnot⟩ := h
  obtain ⟨more, hmore⟩ := hready
  refine ⟨before, behind ++ more, ?_, hnot⟩
  rw [hround, ← hmore, ← List.append_assoc, heq]
  simp

/-- While an agent acts it does not stand in the queue. -/
theorem Orderly.unqueued (h : Orderly w) (hact : w.active = some i) :
    .agent i ∉ w.round ++ w.ready := by
  obtain ⟨s, -, -, -, hidle, hs, -⟩ := h.actor hact
  -- its one turn is the one that it is taking
  have hone := (h.flight hidle hs).books.agents i
  rw [turns_active hact, Multiset.count_cons_self] at hone
  have hzero : Multiset.count (Job.agent i)
      ({ w with active := none } : World).turns = 0 := by
    split at hone <;> omega
  intro hmem
  refine Multiset.count_eq_zero.1 hzero (mem_turns.2 ?_)
  rcases List.mem_append.1 hmem with hmem | hmem
  · exact .inr (.inl ⟨_, hmem, rfl⟩)
  · exact .inr (.inr (.inl ⟨_, hmem, rfl⟩))

/-- Whoever has not ended, does not act and is not asleep stands in the
    queue. -/
theorem Orderly.queued (h : Orderly w) (hidle : w.idle = false) {s : Session}
    {t : AgentTask} (hs : w.session = some s) (ht : s.tasks[j]? = some t)
    (hend : t.ending = none) (hact : w.active ≠ some j)
    (hawake : ¬ w.Asleep j) : .agent j ∈ w.round ++ w.ready := by
  have hj : .agent j ∈ w.turns := by
    rw [← Multiset.count_pos, (h.flight hidle hs).books.agents j, if_pos]
    · exact Nat.zero_lt_one
    · simp [Session.ended, ht, hend]
  have hproper : ∀ x ∈ w.round ++ w.ready, x.proper = .agent j →
      .agent j ∈ w.round ++ w.ready := by
    intro x hx heq
    cases x with
    | wake sleeper => exact absurd (.inr ⟨sleeper, hx, heq⟩) hawake
    | _ => exact heq ▸ hx
  rcases mem_turns.1 hj with ⟨k, hk, heq⟩ | ⟨x, hx, heq⟩ | ⟨x, hx, heq⟩ |
    ⟨t, ht, heq⟩
  · cases heq
    exact absurd hk hact
  · exact hproper x (List.mem_append_left _ hx) heq
  · exact hproper x (List.mem_append_right _ hx) heq
  · exact absurd (.inl ⟨t, ht, heq⟩) hawake

/-- While an agent acts, whoever else has not ended and is not asleep is
    ahead of it. -/
theorem Orderly.precedes (h : Orderly w) {s : Session} {t : AgentTask}
    (hact : w.active = some i) (hs : w.session = some s) (hne : j ≠ i)
    (ht : s.tasks[j]? = some t) (hend : t.ending = none)
    (hawake : ¬ w.Asleep j) : w.Precedes j i := by
  have hother : w.active ≠ some j := by
    rw [hact]
    exact fun hno => hne (Option.some.inj hno).symm
  obtain ⟨before, behind, heq⟩ := List.append_of_mem
    (h.queued (h.acting i hact).1 hs ht hend hother hawake)
  exact ⟨before, behind, heq, fun hno =>
    h.unqueued hact (heq ▸ List.mem_append_left _ hno)⟩

/-! ## Whose turn it is -/

section

variable [Arithmetic] {c : Coordinator}

variable {ds : List Deed}

/-- While nobody acts a turn is taken from the head of the queue: it is that
    of the agent ahead, or everybody keeps its place and the agent behind
    does not come to act. -/
theorem Precedes.turn (h : w.Precedes j i) (ha : w.active = none) :
    (∃ rest, w.round = .agent j :: rest)
      ∨ (w.after c .turn).Precedes j i
        ∧ (w.after c .turn).active ≠ some i := by
  obtain ⟨before, behind, heq, hnot⟩ := h
  cases hround : w.round with
  | nil =>
      right
      show (w.step c).Precedes j i ∧ (w.step c).active ≠ some i
      rw [step_round ha hround]
      rw [hround, List.nil_append] at heq
      obtain ⟨more, hmore⟩ : ∃ more, w.nextRound.round = w.ready ++ more :=
        ⟨_, rfl⟩
      have hnone : w.nextRound.ready = [] := rfl
      refine ⟨⟨before, behind ++ more, ?_, hnot⟩, ?_⟩
      · rw [hmore, hnone, List.append_nil, heq]
        simp
      · show w.active ≠ some i
        rw [ha]
        exact nofun
  | cons x rest =>
      rw [hround, List.cons_append] at heq
      cases before with
      | nil =>
          obtain ⟨rfl, -⟩ := List.cons.inj heq
          exact .inl ⟨rest, rfl⟩
      | cons y before =>
          right
          rw [List.cons_append] at heq
          obtain ⟨rfl, htail⟩ := List.cons.inj heq
          have hadds := Adds.turn (c := c) ha hround
          refine ⟨Precedes.extend (w := { w with round := rest })
            ⟨before, behind, htail, fun hno =>
              hnot (List.mem_cons_of_mem _ hno)⟩ hadds.round hadds.ready, ?_⟩
          intro hno
          change (w.step c).active = some i at hno
          rw [step_turn ha hround] at hno
          rcases active_runJob (c := c) (w := { w with round := rest })
            (x := x) ha with hnone | ⟨k, -, rfl, hk, -⟩
          · rw [hnone] at hno
            cases hno
          · rw [hk] at hno
            cases hno
            exact hnot (List.mem_cons_self ..)

/-- On a course an agent's turn is taken. -/
def TakesTurn (c : Coordinator) (w : World) (ds : List Deed) (v : World)
    (j : Nat) : Prop :=
  ∃ es fs u, ds = es ++ .turn :: fs ∧ Course c w es u ∧ u.active = none
    ∧ (∃ rest, u.round = .agent j :: rest)
    ∧ Course c (u.after c .turn) fs v

/-- A turn taken in the first part of a course is taken in the whole. -/
theorem TakesTurn.within {x : World} {es : List Deed}
    (h : TakesTurn c w ds v j) (g : Course c v es x) :
    TakesTurn c w (ds ++ es) x j := by
  obtain ⟨as, bs, u, rfl, has, hnone, hround, hbs⟩ := h
  exact ⟨as, bs ++ es, u, by simp, has, hnone, hround, hbs.trans g⟩

/-- A turn taken in the rest of a course is taken in the whole. -/
theorem TakesTurn.behind {x : World} {es : List Deed}
    (h : TakesTurn c w ds v j) (g : Course c x es w) :
    TakesTurn c x (es ++ ds) v j := by
  obtain ⟨as, bs, u, rfl, has, hnone, hround, hbs⟩ := h
  exact ⟨es ++ as, bs, u, by simp, g.trans has, hnone, hround, hbs⟩

/-- The agent ahead has its turn, or is still ahead; and then the agent
    behind does not act, unless it did from the first. -/
theorem Precedes.course (h : w.Precedes j i) (hw : Reachable c w)
    (hcourse : Course c w ds v) :
    TakesTurn c w ds v j
      ∨ v.Precedes j i ∧ (w.active ≠ some i → v.active ≠ some i) := by
  induction hcourse with
  | nil => exact .inr ⟨h, fun hno => hno⟩
  | @snoc x es d hes hd ih =>
      rcases ih with htakes | ⟨hprec, hnot⟩
      · exact .inl (htakes.within (.single hd))
      by_cases hturn : d = .turn
      · subst hturn
        cases hact : x.active with
        | none =>
            rcases hprec.turn (c := c) hact with hround | ⟨hprec, hnot⟩
            · exact .inl ⟨es, [], x, rfl, hes, hact, hround, .nil _⟩
            · exact .inr ⟨hprec, fun _ => hnot⟩
        | some k =>
            have hadds := Adds.act (c := c) hact
            refine .inr ⟨hprec.extend hadds.round hadds.ready, fun hi => ?_⟩
            rcases (hw.course hes).orderly.active_act (c := c) hact with
              hnone | hsome
            · rw [hnone]
              exact nofun
            · rw [hsome, ← hact]
              exact hnot hi
      · have hwaits := Waits.after (w := x) (c := c) hturn
        refine .inr ⟨hprec.extend hwaits.round hwaits.ready, fun hi => ?_⟩
        rw [hwaits.active]
        exact hnot hi

/-! ## Fairness -/

/-- Agents set out only with a ceiling that the loop guard accepts. -/
theorem Reachable.ceiling {s : Session} (h : Reachable c w)
    (hidle : w.idle = false) (hs : w.session = some s) {t : AgentTask}
    (ht : t ∈ s.tasks) (hwalk : t.walker ≠ none) :
    ∃ ceiling, checkCeiling c.config.loopCeiling = .ok ceiling := by
  refine h.flights (P := fun _ s => ∀ t ∈ s.tasks, t.walker ≠ none →
    ∃ ceiling, checkCeiling c.config.loopCeiling = .ok ceiling)
    ?_ ?_ hidle hs t ht hwalk
  · intro u v n cast programs warnings t ht hwalk
    obtain ⟨id, -, rfl⟩ := List.mem_map.1
      (show t ∈ freshTasks cast programs from ht)
    exact absurd rfl hwalk
  · intro u d s s' hu hd hs hi hok hs' hmoves t ht hwalk
    obtain ⟨r, hr, halters⟩ := hmoves.altered hs hs' ht
    cases halters with
    | stays => exact hok _ hr hwalk
    | dooms => exact hok r hr hwalk
    | acts hw' =>
        refine hok r hr ?_
        rw [hw']
        exact nofun
    | attends hw' =>
        refine hok r hr ?_
        rw [hw']
        exact nofun
    | stumbles hw' =>
        refine hok r hr ?_
        rw [hw']
        exact nofun
    | setsOut _ _ hceiling => exact ⟨_, hceiling⟩
    | dies => exact hok r hr hwalk

/-- A call that was made known before and is in flight later was in flight
    already. -/
theorem Course.in_flight (h : Course c w ds v) (ho : Orderly w)
    (hn : w.current = some n ∨ w.isShut n = true)
    (hv : v.current = some n) : w.current = some n := by
  refine hn.resolve_right fun hshut => ?_
  obtain ⟨ho', hshut'⟩ := h.keeps (P := fun u => Orderly u
    ∧ u.isShut n = true) ⟨ho, hshut⟩
    fun _ _ hu hd _ => ⟨hu.1.after hd, hu.1.shut_after hu.2 _⟩
  obtain ⟨hfly, s, hs, rfl⟩ := current_eq_some.1 hv
  have hidle := ho'.shut_idle hs hshut'
  rw [hfly] at hidle
  cases hidle

/-- An agent whose turn is taken acts, if another agent of its session still
    does later. -/
theorem TakesTurn.acts {todo : List Act} (h : TakesTurn c w ds v j)
    (hw : Reachable c w) (hn : w.current = some n ∨ w.isShut n = true)
    (hv : v.AtWork n i todo) :
    ∃ u, Visits c w ds v u ∧ u.active = some j := by
  obtain ⟨es, fs, u, rfl, hes, hnone, ⟨rest, hround⟩, hfs⟩ := h
  have hu := hw.course hes
  have hd : u.Admits .turn := admits_turn hround
  have hu' := hu.course (.single hd)
  have hrv := hu'.course hfs
  obtain ⟨hidle, s, hs⟩ := hu.orderly.inFlight hround rfl
  obtain ⟨t, ht, hend⟩ := hu.orderly.goesOn hround hidle hs
  obtain ⟨hcur, s', t', walker, hs', hcall', ht', hwalk', -, -⟩ :=
    hv.acting hrv.orderly
  have hfly := (current_eq_some.1 hcur).1
  have huv : Course c u (.turn :: fs) v := (Course.single hd).trans hfs
  -- it is the same session
  have hcall : s'.call = s.call := by
    have hcur' := huv.in_flight hu.orderly (hes.known hw.orderly hn) hcur
    obtain ⟨-, r, hr, hrcall⟩ := current_eq_some.1 hcur'
    rw [hs] at hr
    rw [hcall', Option.some.inj hr, hrcall]
  refine ⟨u.after c .turn, ⟨es ++ [.turn], fs, by simp, hes.snoc _ hd, hfs⟩,
    ?_⟩
  have htask : ({ u with round := rest } : World).task? j = some t := by
    simp [task?, hs, ht]
  show (u.step c).active = some j
  rw [step_turn hnone hround, runJob_agent htask]
  -- it has not ended, it is not doomed, and the loop guard is fine
  have hspared : t.doomed = false := by
    by_contra hdoomed
    have hfl := hu.orderly.flight hidle hs
    have hdoom := hfl.doomed t (List.mem_of_getElem? ht) (by rw [hend]; rfl)
    have hspent : Spent s := fun r hr hopen => by
      rw [hfl.doomed r hr (by rw [hopen]; rfl), ← hdoom]
      exact Bool.eq_true_of_not_eq_false hdoomed
    -- else everybody would have to end, and nobody would act any more
    have hstill := huv.stilled hu (hes.known hw.orderly hn) (fun r hr _ => by
      obtain rfl := Option.mem_unique hs hr
      exact hspent) hnone hs' hcall'
    rw [hv.active] at hstill
    cases hstill.1
  obtain ⟨ceiling, hceiling⟩ := hrv.ceiling hfly hs'
    (List.mem_of_getElem? ht') (by rw [hwalk']; exact Option.some_ne_none _)
  unfold World.turnTask
  rw [hend, hspared, hceiling]
  cases t.walker <;> rfl

/-- **Nobody keeps the others waiting.**  When an agent has begun an
    instruction that takes a turn of its own, it begins no other one before
    it has given up its turn, so that the host can act; whoever else of its
    session has not ended and is in no sleep that takes time acts before
    that; and the host has not asked for cancellation meanwhile, for else
    the agent would have begun no other one.  On the canvas, unless the
    observer yields, this supposes that time passes between turns only. -/
theorem Reachable.gives_way (hzero : Arithmetic.round 0 = .finite 0)
    (hw : Reachable c w) {x y : Instruction} (hx : w.SetsAbout n i x)
    (hlingers : x.Lingers c.config c.observer)
    (hcourse : Course c (w.after c .turn) ds v)
    (hpunctual : c.config.mode = .canvas → ¬ c.observer.Yields →
      Punctual c (w.after c .turn) ds)
    (hy : v.SetsAbout n i y) :
    (∃ u, Visits c (w.after c .turn) ds v u ∧ u.active = none)
      ∧ (∀ j t, j ≠ i → w.task? j = some t → t.ending = none →
        ¬ w.Asleep j →
        ∃ u, Visits c (w.after c .turn) ds v u ∧ u.active = some j)
      ∧ .cancel ∉ ds := by
  have hd : w.Admits .turn := fun hno => by
    rw [hx.choose_spec.active] at hno
    cases hno
  have hw' := hw.course (.single hd)
  have hgives := hx.pauses hzero (hx.unshown hw) hlingers hw hcourse
    hpunctual hy (hy.unshown (hw'.course hcourse))
  obtain ⟨rest, hxw⟩ := hx
  have hknown := hw.orderly.known_after (c := c) hd
    (.inl (hxw.acting hw.orderly).1)
  refine ⟨hgives, ?_, hy.uncancelled hw' hknown hcourse⟩
  intro j t hne htask hend hawake
  obtain ⟨u, ⟨es, fs, rfl, hes, hfs⟩, hnone⟩ := hgives
  obtain ⟨s, hs, ht⟩ := Option.bind_eq_some_iff.1 htask
  have hprec := hw.orderly.precedes hxw.active hs hne ht hend hawake
  have hadds := Adds.act (c := c) hxw.active
  have hprec' : (w.after c .turn).Precedes j i :=
    hprec.extend hadds.round hadds.ready
  obtain ⟨rest', hyv⟩ := hy
  -- either it is its turn before the agent gives up its own, or after that
  have htakes : TakesTurn c (w.after c .turn) (es ++ fs) v j := by
    rcases hprec'.course hw' hes with htakes | ⟨hprec, -⟩
    · exact htakes.within hfs
    · rcases hprec.course (hw'.course hes) hfs with htakes | ⟨-, hno⟩
      · exact htakes.behind hes
      · refine absurd hyv.active (hno ?_)
        rw [hnone]
        exact nofun
  exact htakes.acts hw' hknown hyv

end

/-! ## Two agents that turn -/

section

attribute [local instance] Arithmetic.cubed

/-- A coordinator that takes all delays out, with somebody looking on. -/
def hastyCoordinator (mode : Mode) : Coordinator :=
  ⟨{ Config.instant with mode := mode }, none,
    ⟨.present, fun _ => ⟨⟨[], false⟩, false⟩⟩, .absent⟩

/-- One agent is about to make the first of two turns, and another one has
    not acted yet. -/
def firstTurn (mode : Mode) : World :=
  ((initial [("a", .atStart (.str "a") [0, 0] 90),
    ("b", .atStart (.str "b") [0, 0] 90)]).follow (hastyCoordinator mode)
    (.call (.programs [("a", [.turnRight 90, .turnRight 90]),
      ("b", [.turnRight 90])]) ["a", "b"]
      :: List.replicate 6 .turn)).getD (.initial [])

/-- The world so many steps of the event loop after it has begun it. -/
def afterTurn (mode : Mode) (k : Nat) : World :=
  (((firstTurn mode).after (hastyCoordinator mode) .turn).follow
    (hastyCoordinator mode) (List.replicate k .turn)).getD (.initial [])

/-- The call in whose session an agent is about to begin an instruction, and
    the place of the agent. -/
def beginning? (w : World) : Option (Nat × Nat) := do
  let i ← w.active
  let s ← w.session
  let t ← s.tasks[i]?
  let walker ← t.walker
  match walker.todo with
  | .perform _ :: _ => some (s.call, i)
  | _ => none

theorem setsAbout_of_beginning (h : w.beginning? = some (n, i)) :
    ∃ x, w.SetsAbout n i x := by
  obtain ⟨k, hk, h⟩ := Option.bind_eq_some_iff.1 h
  obtain ⟨s, hs, h⟩ := Option.bind_eq_some_iff.1 h
  obtain ⟨t, ht, h⟩ := Option.bind_eq_some_iff.1 h
  obtain ⟨walker, hwalk, h⟩ := Option.bind_eq_some_iff.1 h
  split at h
  · rename_i x rest htodo
    cases h
    exact ⟨x, rest, hk, s, t, walker, hs, rfl, ht, hwalk, htodo⟩
  · cases h

/-- On the grid the other one acts before it begins the second. -/
theorem gives_way_turning :
    Reachable (hastyCoordinator .grid) (firstTurn .grid)
      ∧ (firstTurn .grid).SetsAbout 0 0 (.turnRight 90)
      ∧ (∃ y, (afterTurn .grid 13).SetsAbout 0 0 y)
      ∧ ∃ u, Visits (hastyCoordinator .grid)
          ((firstTurn .grid).after (hastyCoordinator .grid) .turn)
          (List.replicate 13 .turn) (afterTurn .grid 13) u
        ∧ u.active = some 1 := by
  have hreach : Reachable (hastyCoordinator .grid) (firstTurn .grid) :=
    ⟨_, _, Course.followed _ (by decide +kernel)⟩
  have hfirst : (firstTurn .grid).SetsAbout 0 0 (.turnRight 90) :=
    ⟨_, rfl, _, _, _, rfl, rfl, rfl, rfl, rfl⟩
  obtain ⟨y, hsecond⟩ : ∃ y, (afterTurn .grid 13).SetsAbout 0 0 y :=
    setsAbout_of_beginning (by decide +kernel)
  have hcourse : Course (hastyCoordinator .grid)
      ((firstTurn .grid).after (hastyCoordinator .grid) .turn)
      (List.replicate 13 .turn) (afterTurn .grid 13) :=
    Course.followed _ (by decide +kernel)
  obtain ⟨-, hothers, -⟩ := hreach.gives_way (by decide +kernel) hfirst nofun
    hcourse nofun hsecond
  refine ⟨hreach, hfirst, ⟨y, hsecond⟩, hothers 1 _ (by decide) rfl rfl ?_⟩
  rintro (⟨t, ht, -⟩ | ⟨sleeper, hmem, -⟩)
  · cases ht
  · cases List.mem_singleton.1 hmem

/-- On the canvas it begins the second right after the first, and nobody
    else acts in between: a turn that lasts no time is over with its first
    frame and does not sleep after it. -/
theorem gives_no_way_turning :
    Reachable (hastyCoordinator .canvas) (firstTurn .canvas)
      ∧ (firstTurn .canvas).SetsAbout 0 0 (.turnRight 90)
      ∧ (∃ y, (afterTurn .canvas 4).SetsAbout 0 0 y)
      ∧ Course (hastyCoordinator .canvas)
          ((firstTurn .canvas).after (hastyCoordinator .canvas) .turn)
          (List.replicate 4 .turn) (afterTurn .canvas 4)
      ∧ (∃ t, (firstTurn .canvas).task? 1 = some t ∧ t.ending = none)
      ∧ ∀ u, Visits (hastyCoordinator .canvas)
          ((firstTurn .canvas).after (hastyCoordinator .canvas) .turn)
          (List.replicate 4 .turn) (afterTurn .canvas 4) u →
        u.active = some 0 := by
  refine ⟨⟨_, _, Course.followed _ (by decide +kernel)⟩,
    ⟨_, rfl, _, _, _, rfl, rfl, rfl, rfl, rfl⟩,
    setsAbout_of_beginning (by decide +kernel),
    Course.followed _ (by decide +kernel), ⟨_, rfl, rfl⟩, ?_⟩
  rintro u ⟨es, fs, hcut, hes, -⟩
  have hturns : es = List.replicate es.length .turn :=
    (List.append_eq_replicate_iff.1 hcut.symm).2.1
  have hfew : es.length ≤ 4 := by
    have := congrArg List.length hcut
    rw [List.length_replicate, List.length_append] at this
    omega
  have hall : ∀ k ≤ 4, ((List.replicate k Deed.turn).foldl
      (World.after (hastyCoordinator .canvas))
      ((firstTurn .canvas).after (hastyCoordinator .canvas) .turn)).active
        = some 0 := by
    decide +kernel
  rw [hes.eq_foldl, hturns]
  exact hall _ hfew

end

end World

end BlockStage
