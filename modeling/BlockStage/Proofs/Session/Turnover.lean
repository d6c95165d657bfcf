import BlockStage.Proofs.Run.Respite
import BlockStage.Proofs.Session.Clock

/-! # Turnover — who acts, and how others come to act

    An agent goes on acting only as long as its acts ask for nothing that
    takes its turn away, and the observer does not sleep either
    (`Orderly.works_on`).  Instructions that take a turn of their own do
    ask for it, so that no agent begins two of them without a moment in
    between at which nobody acts (`Course.pauses`).  And once nobody acts in
    a session that must end, nobody acts in it any more (`Course.stilled`).
    -/

namespace BlockStage

open Act

namespace World

variable [Arithmetic] {c : Coordinator} {u v w : World} {ds es : List Deed}
  {n i j : Nat} {todo : List Act}

/-! ## Along a course -/

/-- A course leads to one world. -/
theorem Course.eq_foldl (h : Course c w ds v) :
    v = ds.foldl (World.after c) w := by
  induction h with
  | nil => rfl
  | snoc d _ _ ih => rw [List.foldl_append, ← ih]; rfl

/-- A world that a course visits on its way from one world to another. -/
def Visits (c : Coordinator) (w : World) (ds : List Deed) (v u : World) :
    Prop :=
  ∃ es fs, ds = es ++ fs ∧ Course c w es u ∧ Course c u fs v

/-- A course visits the world it leads to. -/
theorem Course.visits_last (h : Course c w ds v) : Visits c w ds v v :=
  ⟨ds, [], (List.append_nil ds).symm, h, .nil v⟩

/-- A course visits the world it comes from. -/
theorem Course.visits_first (h : Course c w ds v) : Visits c w ds v w :=
  ⟨[], ds, rfl, .nil w, h⟩

/-- What the first part of a course visits the whole visits. -/
theorem Visits.within {x : World} (h : Visits c w ds v u)
    (g : Course c v es x) : Visits c w (ds ++ es) x u := by
  obtain ⟨as, bs, rfl, has, hbs⟩ := h
  exact ⟨as, bs ++ es, List.append_assoc as bs es, has, hbs.trans g⟩

/-- A course is cut at each of its deeds. -/
theorem Course.at_deed {d : Deed} (h : Course c w ds v) (hd : d ∈ ds) :
    ∃ as bs u, ds = as ++ d :: bs ∧ Course c w as u ∧ u.Admits d
      ∧ Course c (u.after c d) bs v := by
  induction h with
  | nil => cases hd
  | @snoc x es e hes he ih =>
      rcases List.mem_append.1 hd with hd | hd
      · obtain ⟨as, bs, u, rfl, has, hadmits, hbs⟩ := ih hd
        exact ⟨as, bs ++ [e], u, by simp, has, hadmits, .snoc e hbs he⟩
      · obtain rfl := List.mem_singleton.1 hd
        exact ⟨es, [], x, rfl, hes, he, .nil _⟩

/-- Time passes only while nobody acts. -/
def Punctual (c : Coordinator) (w : World) (ds : List Deed) : Prop :=
  ∀ es t fs u, ds = es ++ .elapse t :: fs → Course c w es u →
    u.active = none

/-- Part of a punctual course is punctual. -/
theorem Punctual.init (h : Punctual c w (ds ++ es)) : Punctual c w ds :=
  fun as t bs u heq => h as t (bs ++ es) u (by rw [heq]; simp)

/-! ## Who acts -/

/-- An agent acts in the session of a call, with so much left to do. -/
structure AtWork (w : World) (n i : Nat) (todo : List Act) : Prop where
  active : w.active = some i
  part : ∃ s t walker, w.session = some s ∧ s.call = n
    ∧ s.tasks[i]? = some t ∧ t.walker = some walker ∧ walker.todo = todo

/-- What the observer still has to do while it is shown a snapshot of an
    agent, if it is. -/
def errandAbout (w : World) (i : Nat) : Option Errand :=
  (w.task? i).bind (·.showing)

omit [Arithmetic] in
theorem errandAbout_eq {s : Session} {t : AgentTask}
    (hs : w.session = some s) (ht : s.tasks[i]? = some t) :
    w.errandAbout i = t.showing := by
  simp [errandAbout, task?, hs, ht]

omit [Arithmetic] in
/-- While an agent acts the host acts only from inside the observer. -/
theorem errandAbout_host (hhost : w.hostActs = true)
    (hact : w.active = some i) : ∃ e, w.errandAbout i = some e := by
  simp only [hostActs, hact] at hhost
  exact Option.isSome_iff_exists.1 hhost

omit [Arithmetic] in
/-- Whoever acts takes part in the session in flight. -/
theorem AtWork.acting (h : w.AtWork n i todo) (ho : Orderly w) :
    w.current = some n ∧ ∃ s t walker, w.session = some s ∧ s.call = n
      ∧ s.tasks[i]? = some t ∧ t.walker = some walker ∧ walker.todo = todo
      ∧ t.ending = none := by
  obtain ⟨s, t, walker, hs, hcall, ht, hwalk, htodo⟩ := h.part
  obtain ⟨hidle, s', t', -, hs', ht', -, hend⟩ := ho.acting i h.active
  obtain rfl := Option.mem_unique hs hs'
  obtain rfl := Option.mem_unique ht ht'
  exact ⟨current_eq_some.2 ⟨hidle, s, hs, hcall⟩, s, t, walker, hs, hcall,
    ht, hwalk, htodo, hend⟩

omit [Arithmetic] in
/-- There is one list of what an agent has left to do. -/
theorem AtWork.unique {others : List Act} (h : w.AtWork n i todo)
    (g : w.AtWork n i others) : todo = others := by
  obtain ⟨s, t, walker, hs, -, ht, hwalk, rfl⟩ := h.part
  obtain ⟨s', t', walker', hs', -, ht', hwalk', rfl⟩ := g.part
  obtain rfl := Option.mem_unique hs hs'
  obtain rfl := Option.mem_unique ht ht'
  rw [hwalk] at hwalk'
  rw [Option.some.inj hwalk']

/-- What the observer has to do after an act: something about a snapshot if
    one was due and there is an observer, and nothing else. -/
inductive Engages (c : Coordinator) : Signal → Option Errand → Prop
  | proceeds : Engages c .proceed none
  | unseen : c.observer.mode = .absent → Engages c .emit none
  | shows {k : Nat} : c.observer.mode ≠ .absent →
      Engages c .emit (some (c.observer.reaction k).toErrand)

/-- It has nothing else to do about an act that neither ends the run nor
    sleeps. -/
theorem engages {count : Nat} {now : Time} {a : Agent} {running : Bool}
    {signal : Signal} {e : Verdict}
    (he : e = verdict c.observer.prompt count now a running signal)
    (hout : e.outcome = none) (hawake : ∀ seconds, signal ≠ .sleep seconds) :
    Engages c signal (c.observer.errand? count e.shown) := by
  subst he
  cases signal with
  | proceed => exact .proceeds
  | sleep seconds => exact absurd rfl (hawake seconds)
  | finish => cases hout
  | halt => cases hout
  | fail f => cases hout
  | emit =>
      rcases verdict_emit c.observer.prompt count now a running with
        ⟨habsent, heq⟩ | ⟨-, ms, -, heq⟩ | ⟨hseen, snapshot, -, heq⟩
      · rw [heq]
        exact .unseen habsent
      · rw [heq] at hout
        cases hout
      · rw [heq]
        exact .shows hseen

/-- What comes of a turn while an agent acts: it gives up its turn, or the
    observer is done with the snapshot that it was shown, or the agent has
    done its first act. -/
inductive WorksOn (c : Coordinator) (w : World) (n i : Nat)
    (todo : List Act) (v : World) : Prop
  | pauses (pauses : v.active = none)
  | beheld {e : Errand} (about : w.errandAbout i = some e)
      (rested : e.rests = []) (kind : e.fails = false)
      (done : v.errandAbout i = none) (goes : v.AtWork n i todo)
  | acts {a b : Agent} {next : List Act} {signal : Signal}
      (free : w.errandAbout i = none)
      (advances : Advance (scene c) w.now a todo b next signal)
      (engages : Engages c signal (v.errandAbout i)) (goes : v.AtWork n i next)

/-- Nothing else comes of it. -/
theorem Orderly.works_on (ho : Orderly w) (h : w.AtWork n i todo) :
    WorksOn c w n i todo (w.after c .turn) := by
  obtain ⟨-, s, t, walker, hs, rfl, ht, hwalk, rfl, -⟩ := h.acting ho
  have hturn : w.Admits .turn := fun hno => by
    rw [h.active] at hno
    cases hno
  have hv := ho.after (c := c) hturn
  have habout := errandAbout_eq hs ht
  have hone : ∀ {f : AgentTask → AgentTask}, (s.tasks.modify i f)[i]?
      = some (f t) := by
    intro f
    rw [List.getElem?_modify_eq, ht]
    rfl
  have hcomes := ho.act_turn (c := c) h.active hs ht hwalk
  generalize w.after c .turn = v at hcomes hv ⊢
  cases hcomes with
  | stumbles _ _ _ _ _ hnone => exact .pauses hnone
  | attends hshow hleaves _ hs' hkeeps hrests =>
      cases hleaves with
      | rests => exact .pauses (hrests nofun)
      | done hrested hkind =>
          exact .beheld (habout.trans hshow) hrested hkind
            (errandAbout_eq hs' hone)
            ⟨(hkeeps rfl).trans h.active, _, _, walker, hs', rfl, hone,
              hwalk, rfl⟩
  | @acts a m e hshow _ hn he _ _ _ _ hs' hhands =>
      rcases hhands.only with hnone | hsame
      · exact .pauses hnone
      -- whoever still acts has not ended, so it has advanced
      obtain ⟨-, s', t', -, hs'', ht', -, hgoes⟩ :=
        hv.acting i (hsame.trans h.active)
      obtain rfl := Option.mem_unique hs' hs''
      obtain rfl := Option.mem_unique hone ht'
      have hout := Option.map_eq_none_iff.1 hgoes
      have hadv := Walker.step_advances (scene c) w.now w.now s.running a
        walker c.observer.prompt w.shown.length
      rw [← hn, ← he, hout] at hadv
      refine .acts (habout.trans hshow) (hadv.resolve_left nofun) ?_
        ⟨hsame.trans h.active, _, _, _, hs', rfl, hone, rfl, rfl⟩
      rw [errandAbout_eq hs' hone]
      refine engages he hout fun seconds hsleep => ?_
      have hnone := hhands.rests seconds hsleep
      rw [hsame, h.active] at hnone
      cases hnone

/-- Whoever acts goes on, or nobody acts. -/
theorem Orderly.active_act (ho : Orderly w) (hact : w.active = some i) :
    (w.after c .turn).active = none ∨ (w.after c .turn).active = some i := by
  obtain ⟨s, t, walker, -, -, hs, ht, hwalk, -⟩ := ho.actor hact
  cases ho.works_on (c := c) (n := s.call)
    ⟨hact, s, t, walker, hs, rfl, ht, hwalk, rfl⟩ with
  | pauses hnone => exact .inl hnone
  | beheld _ _ _ _ hgoes => exact .inr hgoes.active
  | acts _ _ _ hgoes => exact .inr hgoes.active

/-- What the host does leaves alone what the agent who acts has to do. -/
theorem Orderly.works_host (ho : Orderly w) (h : w.AtWork n i todo)
    {d : Deed} (hturn : d ≠ .turn) :
    (w.after c d).AtWork n i todo
      ∧ (w.after c d).errandAbout i = w.errandAbout i := by
  obtain ⟨hcur, s, t, walker, hs, rfl, ht, hwalk, rfl, -⟩ := h.acting ho
  obtain ⟨hidle, -⟩ := current_eq_some.1 hcur
  have hmoves := ho.moves (c := c) hidle hs d
  have hact := (Waits.after (w := w) (c := c) hturn).active.trans h.active
  generalize w.after c d = v at hmoves hact ⊢
  suffices hpart : ∃ s' t', v.session = some s' ∧ s'.call = s.call
      ∧ s'.tasks[i]? = some t' ∧ t'.walker = t.walker
      ∧ t'.showing = t.showing by
    obtain ⟨s', t', hs', hcall, ht', hwalk', hshow⟩ := hpart
    rw [errandAbout_eq hs' ht', errandAbout_eq hs ht]
    exact ⟨⟨hact, s', t', walker, hs', hcall, ht', hwalk'.trans hwalk, rfl⟩,
      hshow⟩
  cases hmoves with
  | stays _ _ hs' => exact ⟨_, t, hs', rfl, ht, rfl, rfl⟩
  | lowers _ hs' => exact ⟨_, t, hs', rfl, ht, rfl, rfl⟩
  | puts => exact ⟨s, t, hs, rfl, ht, rfl, rfl⟩
  | dooms _ hs' =>
      refine ⟨_, doom t, hs', rfl, ?_, ?_⟩
      · rw [doomFirst_all, List.getElem?_map, ht]
        rfl
      · unfold doom
        split <;> exact ⟨rfl, rfl⟩
  | _ => exact absurd rfl hturn

/-- Whoever is at work after the host has done something was at work
    before. -/
theorem Orderly.worked (ho : Orderly w) (hcur : w.current = some n)
    {d : Deed} (hturn : d ≠ .turn) (h : (w.after c d).AtWork n i todo) :
    w.AtWork n i todo := by
  have hact := (Waits.after (w := w) (c := c) hturn).active.symm.trans
    h.active
  obtain ⟨s, t, walker, -, -, hs, ht, hwalk, -⟩ := ho.actor hact
  obtain ⟨-, s', hs', hcall⟩ := current_eq_some.1 hcur
  obtain rfl := Option.mem_unique hs hs'
  have hold : w.AtWork n i walker.todo :=
    ⟨hact, s, t, walker, hs, hcall, ht, hwalk, rfl⟩
  rw [h.unique (ho.works_host (c := c) hold hturn).1]
  exact hold

/-- An agent has acts left that give up its turn, once the observer is done
    with what it is shown. -/
def Pends (c : Coordinator) (w : World) (i : Nat) (todo : List Act) : Prop :=
  (∀ e, w.errandAbout i = some e → e.rests = [] ∧ e.fails = false) →
    Pausing c.config c.observer w.now todo

/-- An agent with acts left that give up its turn gives it up, or still has
    such acts left. -/
theorem Pends.turn (hzero : Arithmetic.round 0 = .finite 0)
    (hw : Reachable c w) (h : w.AtWork n i todo) (hp : Pends c w i todo) :
    (w.after c .turn).active = none
      ∨ ∃ next, (w.after c .turn).AtWork n i next
        ∧ Pends c (w.after c .turn) i next := by
  have hnow : (w.after c .turn).now = w.now :=
    (Adds.act (c := c) h.active).now
  cases hw.orderly.works_on (c := c) h with
  | pauses hnone => exact .inl hnone
  | beheld habout hrested hkind _ hgoes =>
      refine .inr ⟨todo, hgoes, fun _ => ?_⟩
      rw [hnow]
      refine hp fun e he => ?_
      obtain rfl := Option.mem_unique habout he
      exact ⟨hrested, hkind⟩
  | @acts a b next signal hfree hadv hengages hgoes =>
      have hpausing := hp fun e he => by
        rw [hfree] at he
        cases he
      refine .inr ⟨next, hgoes, fun hdone => ?_⟩
      rw [hnow]
      rcases hadv.pausing hzero hw.timely.now hpausing with
        ⟨seconds, rfl⟩ | ⟨rfl, hpresent, hyields⟩ | hnext
      · generalize World.errandAbout _ i = about at hengages
        cases hengages
      · -- an observer that yields is not done
        generalize habout : World.errandAbout _ i = about at hengages
        cases hengages with
        | unseen habsent => rw [hpresent] at habsent; cases habsent
        | @shows k =>
            obtain ⟨hrested, hkind⟩ := hdone _ habout
            exact absurd hrested (hyields k hkind)
      · exact hnext

/-- An agent with acts left that give up its turn gives it up, or still has
    such acts left. -/
theorem Course.pauses (hzero : Arithmetic.round 0 = .finite 0)
    (hcourse : Course c w ds v) (hw : Reachable c w)
    (hpunctual : c.config.mode = .canvas → ¬ c.observer.Yields →
      Punctual c w ds)
    (h : w.AtWork n i todo) (hp : Pends c w i todo) :
    (∃ u, Visits c w ds v u ∧ u.active = none)
      ∨ ∃ todo, v.AtWork n i todo ∧ Pends c v i todo := by
  induction hcourse with
  | nil => exact .inr ⟨todo, h, hp⟩
  | @snoc x es d hes hd ih =>
      rcases ih fun hcanvas hlook => (hpunctual hcanvas hlook).init with
        ⟨u, hu, hnone⟩ | ⟨todo, h, hp⟩
      · exact .inl ⟨u, hu.within (.single hd), hnone⟩
      have hx : Reachable c x := hw.course hes
      by_cases hturn : d = .turn
      · subst hturn
        rcases hp.turn hzero hx h with hnone | hgoes
        · exact .inl ⟨_, (hes.snoc _ hd).visits_last, hnone⟩
        · exact .inr hgoes
      obtain ⟨hgoes, habout⟩ := hx.orderly.works_host (c := c) h hturn
      refine .inr ⟨todo, hgoes, fun hdone => ?_⟩
      rw [habout] at hdone
      refine (hp hdone).anytime fun hcanvas hlook => ?_
      refine hx.orderly.now_host hturn ?_
      -- time passes only while nobody acts
      rintro t rfl
      have := hpunctual hcanvas hlook es t [] x rfl hes
      rw [h.active] at this
      cases this

/-- An agent about to begin an instruction in the session of a call. -/
def SetsAbout (w : World) (n i : Nat) (x : Instruction) : Prop :=
  ∃ rest, w.AtWork n i (.perform x :: rest)

/-- After an agent has begun an instruction that takes a turn of its own,
    it does not begin another one before it has given up its turn. -/
theorem SetsAbout.pauses {x y : Instruction}
    (hzero : Arithmetic.round 0 = .finite 0)
    (hx : w.SetsAbout n i x) (hfree : w.errandAbout i = none)
    (hlingers : x.Lingers c.config c.observer)
    (hw : Reachable c w) (hcourse : Course c (w.after c .turn) ds v)
    (hpunctual : c.config.mode = .canvas → ¬ c.observer.Yields →
      Punctual c (w.after c .turn) ds)
    (hy : v.SetsAbout n i y) (hdone : v.errandAbout i = none) :
    ∃ u, Visits c (w.after c .turn) ds v u ∧ u.active = none := by
  obtain ⟨rest, hx⟩ := hx
  have hturn : Course c w [.turn] (w.after c .turn) := .single fun hno => by
    rw [hx.active] at hno
    cases hno
  have hnow : (w.after c .turn).now = w.now :=
    (Adds.act (c := c) hx.active).now
  cases hw.orderly.works_on (c := c) hx with
  | pauses hnone => exact ⟨_, hcourse.visits_first, hnone⟩
  | beheld habout => rw [hfree] at habout; cases habout
  | acts _ hadv _ hnext =>
      rcases hcourse.pauses hzero (hw.course hturn) hpunctual hnext
        (fun _ => hnow ▸ hadv.lingers hlingers) with hgone | ⟨todo, hv, hp⟩
      · exact hgone
      -- acts that give up the turn do not start with an instruction
      · obtain ⟨rest, hy⟩ := hy
        have hpausing := hp fun e he => by
          rw [hdone] at he
          cases he
        rw [hv.unique hy] at hpausing
        cases hpausing

/-! ## Sessions that must end -/

omit [Arithmetic] in
/-- The turn of an agent makes it act only if its part goes on and need not
    end. -/
theorem active_turnTask (w : World) (k : Nat) (t : AgentTask)
    (h : w.active = none) :
    (w.turnTask c k t).active = none
      ∨ (w.turnTask c k t).active = some k ∧ t.ending = none
        ∧ t.doomed = false := by
  cases turnTask_cases c w k t with
  | ended _ heq =>
      rw [heq]
      exact .inl h
  | dies _ _ heq =>
      rw [heq]
      exact .inl rfl
  | goesOn hgoes hspared _ heq =>
      rw [heq]
      exact .inr ⟨rfl, hgoes, hspared⟩
  | setsOut hgoes hspared _ _ heq =>
      rw [heq]
      exact .inr ⟨rfl, hgoes, hspared⟩

/-- A call that begins makes nobody act. -/
theorem active_beginCall (w : World) (n : Nat) (call : Call) :
    (w.beginCall c n call).active = w.active := by
  cases beginCall_cases c w n call with
  | ends _ heq =>
      rw [heq]
      rfl
  | opens _ _ _ _ heq => rw [heq]
  | passes _ _ _ _ heq =>
      rw [heq]
      rfl

theorem active_sleep (w : World) (seconds : Scalar) (j : Job) :
    (w.sleep seconds j).active = w.active := by
  obtain ⟨timers, ready, heq⟩ := sleep_spec w seconds j
  rw [heq]

/-- A call that is woken leaves alone who acts. -/
theorem Woken.active {v : World} (h : Woken w n v) : v.active = w.active := by
  cases h with
  | stays heq => rw [heq]
  | leaves heq hu =>
      rw [heq]
      exact hu.active
  | sleeps heq hu => rw [heq, active_sleep, hu.active]

/-- A turn makes nobody act but the agent whose it is, and only if its part
    goes on and need not end. -/
theorem active_runJob {w : World} {x : Job} (h : w.active = none) :
    (w.runJob c x).active = none
      ∨ ∃ k t, x = .agent k ∧ (w.runJob c x).active = some k
        ∧ w.task? k = some t ∧ t.ending = none ∧ t.doomed = false := by
  cases runJob_taken c w x with
  | @agent k t hget heq =>
      rw [heq]
      exact (active_turnTask w k t h).imp_right
        fun ⟨hk, hgoes, hspared⟩ => ⟨k, t, rfl, hk, hget, hgoes, hspared⟩
  | idles _ heq =>
      rw [heq]
      exact .inl h
  | begins _ heq =>
      rw [heq]
      exact .inl ((active_beginCall _ _ _).trans h)
  | notices _ heq =>
      rw [heq, notice_spec]
      exact .inl h
  | joins _ heq =>
      rw [heq]
      exact .inl ((join_parts _ _ _).active.trans h)
  | handled _ heq =>
      rw [heq]
      exact .inl ((handled_parts _ _).active.trans h)
  | asks heq =>
      rw [heq]
      exact .inl h
  | releases heq =>
      rw [heq]
      exact .inl h
  | wakes heq =>
      rw [heq]
      exact .inl h

/-- Everybody has ended or must end at the next turn. -/
def Spent (s : Session) : Prop :=
  ∀ t ∈ s.tasks, t.ending = none → t.doomed = true

omit [Arithmetic] in
/-- The kill of a call dooms everybody who has not ended. -/
theorem spent_doomFirst (s : Session) :
    Spent (doomFirst s.tasks.length s) := by
  intro t ht hend
  obtain ⟨-, -, -, -, hdoomed⟩ := mem_doomFirst ht
  exact hdoomed (by rw [hend]; rfl)

variable {s s' : Session} {d : Deed}

/-- Whoever has ended or must end stays so. -/
theorem Moves.spent (h : Moves c w s d v) (hs : w.session = some s)
    (hs' : v.session = some s') (hspent : Spent s) : Spent s' := by
  intro t' ht' hend
  obtain ⟨t, ht, halters⟩ := h.altered hs hs' ht'
  cases halters with
  | stays => exact hspent _ ht hend
  | dooms => rfl
  | acts _ hgoes => exact hspent t ht hgoes
  | attends _ hgoes => exact hspent t ht hgoes
  | stumbles => cases hend
  | setsOut _ hgoes => exact hspent t ht hgoes
  | dies => cases hend

/-- Only an agent who acts is shown. -/
theorem Moves.unshown (h : Moves c w s d v)
    (hact : d = .turn → w.active = none) : v.shown = w.shown := by
  have hnobody : ∀ {i : Nat}, d = .turn → w.active ≠ some i := by
    intro i hturn hno
    rw [hact hturn] at hno
    cases hno
  cases h with
  | stays _ hk => exact hk.shown
  | lowers hk => exact hk.shown
  | puts => rfl
  | dooms hk => exact hk.shown
  | acts hno => exact absurd hno (hnobody rfl)
  | attends hno => exact absurd hno (hnobody rfl)
  | stumbles hno => exact absurd hno (hnobody rfl)
  | setsOut _ _ _ _ _ hk => exact hk.shown
  | dies _ _ _ hk => exact hk.shown
  | dozes _ _ _ _ _ hshown => exact hshown
  | drowses _ _ _ _ _ _ hk => exact hk.shown
  | leaves _ _ hshown => exact hshown

/-- Nobody comes to act in a session that must end. -/
theorem active_spent (hs : w.session = some s) (hspent : Spent s)
    (hact : w.active = none) (d : Deed) :
    (w.after c d).active = none := by
  by_cases hturn : d = .turn
  · subst hturn
    show (w.step c).active = none
    cases hround : w.round with
    | nil =>
        rw [step_round hact hround]
        exact hact
    | cons x rest =>
        rw [step_turn hact hround]
        rcases active_runJob (c := c) (w := { w with round := rest }) (x := x)
          hact with hnone | ⟨k, t, -, -, hget, hend, hspared⟩
        · exact hnone
        · have hmem : t ∈ s.tasks := by
            have : s.tasks[k]? = some t := by simpa [task?, hs] using hget
            exact List.mem_of_getElem? this
          rw [hspent t hmem hend] at hspared
          cases hspared
  · rw [(Waits.after (c := c) hturn).active, hact]

/-- Once nobody acts in a session that must end, nobody acts or is shown in
    it any more. -/
theorem Course.stilled (hcourse : Course c w ds v) (hw : Reachable c w)
    (hn : w.current = some n ∨ w.isShut n = true)
    (hspent : ∀ s, w.session = some s → s.call = n → Spent s)
    (hact : w.active = none) (hs : v.session = some s) (hcall : s.call = n) :
    v.active = none ∧ v.shown = w.shown := by
  refine (hcourse.since hw hn (Q := fun x s => Spent s ∧ x.active = none
    ∧ x.shown = w.shown) (fun s hs hcall => ⟨hspent s hs hcall, hact, rfl⟩)
    ?_ ?_ hs hcall).2
  · rintro x es d s₁ s₂ - - - - hs₁ - - ⟨hspent, hact, hshown⟩ hs₂ hmoves
    exact ⟨hmoves.spent hs₁ hs₂ hspent, active_spent hs₁ hspent hact d,
      (hmoves.unshown fun _ => hact).trans hshown⟩
  · rintro x d s₁ hx - hs₁ - hidle - ⟨hspent, hact, hshown⟩
    obtain ⟨htouch, -⟩ := hx.orderly.untouched (c := c) hidle (d := d)
    exact ⟨hspent, active_spent hs₁ hspent hact d,
      htouch.shown.trans hshown⟩

end World

end BlockStage
