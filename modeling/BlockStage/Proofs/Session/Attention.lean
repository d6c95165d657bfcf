import BlockStage.Proofs.Session.Animation
import BlockStage.Proofs.Session.Turnover

/-! # Attention — whoever goes on looks at the flag first

    Before an agent begins anything, it looks at the flag; and between the
    look and the beginning nobody else has a turn, and nothing is shown, so
    that the flag is still up then (`Reachable.heeds`).  Hence no
    instruction of a session begins any more after a host has asked for
    cancellation (`SetsAbout.uncancelled`), nor does one while the observer
    is busy with a snapshot of its agent (`SetsAbout.unshown`). -/

namespace BlockStage

open Act

namespace World

variable [Arithmetic] {c : Coordinator} {u v w : World} {ds : List Deed}
  {n i : Nat} {s : Session}

/-- A look at the flag comes before everything that an agent has not begun,
    unless the agent acts, is not being shown, and the flag is up. -/
def Heeds (w : World) (s : Session) : Prop :=
  ∀ k t, s.tasks[k]? = some t → t.ending = none →
    Guarded t.todo ∨ w.active = some k ∧ t.showing = none
      ∧ Steady t.todo ∧ s.running = true

omit [Arithmetic] in
/-- While an agent does not act, or is being shown, a look at the flag comes
    before everything. -/
theorem Heeds.guarded (h : Heeds w s) {k : Nat} {t : AgentTask}
    (ht : s.tasks[k]? = some t) (hend : t.ending = none)
    (hrests : w.active = some k → t.showing ≠ none) : Guarded t.todo := by
  rcases h k t ht hend with hg | ⟨hact, hshow, -⟩
  · exact hg
  · exact absurd hshow (hrests hact)

/-- The agent who acts goes on to something that it has not begun only after
    it has looked at the flag, and with the flag up. -/
theorem step_heeds {running : Bool} {a : Agent} {walker : Walker}
    {now : Time} {o : Observer} {count : Nat} {step : Step}
    (hstep : step = walker.step (scene c) now running a)
    (hgoes : (verdict o count now step.agent running
      step.signal).outcome = none)
    (h : Guarded walker.todo ∨ Steady walker.todo ∧ running = true) :
    Guarded step.walker.todo ∨ step.signal = .proceed
      ∧ Steady step.walker.todo ∧ running = true := by
  have hadv : Advance (scene c) now a walker.todo step.agent
      step.walker.todo step.signal := by
    rcases Walker.step_advances (scene c) now now running a walker o count
      with hover | hadv
    · rw [← hstep, hgoes] at hover
      cases hover
    · exact hstep ▸ hadv
  rcases h with hg | ⟨hs, hup⟩
  · rcases hadv.stays_guarded hg with hnext | ⟨hs, hsig, rest, htodo⟩
    · exact .inl hnext
    · cases running with
      | true => exact .inr ⟨hsig, hs, rfl⟩
      | false =>
          -- with the flag down the look ends the run
          rw [hstep] at hsig
          exact absurd hsig (Walker.check_stops htodo)
  · obtain ⟨hsig, hnext⟩ := hadv.begins_guarded hs
    exact hnext.imp id fun hnext => ⟨hsig, hnext, hup⟩

/-- The agent who acts heeds the flag after its act, and so do the others,
    who do nothing meanwhile. -/
theorem Heeds.acts {t : AgentTask} {walker : Walker} {a : Agent}
    {step : Step} {e : Verdict} {f : Outcome → AgentEnd} (h : Heeds w s)
    (hact : w.active = some i)
    (ht : s.tasks[i]? = some t) (hwalk : t.walker = some walker)
    (hend : t.ending = none)
    (hstep : step = walker.step (scene c) w.now s.running a)
    (he : e = verdict c.observer.prompt w.shown.length w.now step.agent
      s.running step.signal)
    (hproceed : step.signal = .proceed → v.active = w.active) :
    Heeds v { s with
      tasks := s.tasks.modify i fun t => { t with
        walker := some step.walker
        showing := c.observer.errand? w.shown.length e.shown
        ending := e.outcome.map f }
      running := e.running } := by
  intro k r hr hrend
  rcases modify_getElem? hr with ⟨rfl, r', -, rfl⟩ | ⟨hne, hr'⟩
  · have hout : e.outcome = none := by simpa using hrend
    have hold : Guarded walker.todo
        ∨ Steady walker.todo ∧ s.running = true := by
      have htodo : t.todo = walker.todo := by
        rw [AgentTask.todo, hwalk]
        rfl
      rcases h i t ht hend with hg | ⟨-, -, hsteady, hup⟩
      · exact .inl (htodo ▸ hg)
      · exact .inr ⟨htodo ▸ hsteady, hup⟩
    rcases step_heeds hstep (he ▸ hout) hold with hg | ⟨hsig, hsteady, hup⟩
    · exact .inl hg
    · rw [hsig] at he
      subst he
      exact .inr ⟨(hproceed hsig).trans hact, rfl, hsteady, hup⟩
  · rcases h k r hr' hrend with hg | ⟨hno, -⟩
    · exact .inl hg
    · rw [hact] at hno
      exact absurd (Option.some.inj hno) hne

/-- A look at the flag goes on to come before whatever an agent has not
    begun, whatever move the session makes. -/
theorem Moves.heeds {d : Deed} {s' : Session} (hs : w.session = some s)
    (hd : w.Admits d) (hheeds : Heeds w s)
    (hs' : (w.after c d).session = some s')
    (hmoves : Moves c w s d (w.after c d)) : Heeds (w.after c d) s' := by
  intro k t ht hend
  -- whoever rests, or is being shown, still heeds the flag if left alone
  have hstill : ∀ r : AgentTask, s.tasks[k]? = some r → r.ending = none →
      t.todo = r.todo → (w.active = some k → r.showing ≠ none) →
      Guarded t.todo ∨ (w.after c d).active = some k ∧ t.showing = none
        ∧ Steady t.todo ∧ s'.running = true := by
    intro r hr hrend htodo hrests
    exact .inl (htodo ▸ hheeds.guarded hr hrend hrests)
  -- the host acts while nobody does, or from inside the observer
  have hhost : w.hostActs = true → ∀ r : AgentTask,
      s.tasks[k]? = some r → w.active = some k → r.showing ≠ none := by
    intro hfree r hr hact hno
    obtain ⟨e, he⟩ := errandAbout_host hfree hact
    rw [errandAbout_eq hs hr, hno] at he
    cases he
  have hrests : w.active = none → ∀ r : AgentTask,
      w.active = some k → r.showing ≠ none := by
    intro hnone r hact
    rw [hnone] at hact
    cases hact
  have hover : (∀ b ∈ s.ended, b = true) → s.tasks[k]? = some t →
      False := by
    intro hall htask
    have hb := hall _ (List.mem_map_of_mem (List.mem_of_getElem? htask))
    rw [hend] at hb
    cases hb
  cases hmoves with
  | stays _ _ hs'' hcounts =>
      obtain rfl := Option.mem_unique hs' hs''
      by_cases hturn : d = .turn
      · exact hstill t ht hend rfl (hrests (hcounts.still hturn) t)
      · rw [(Waits.after (w := w) (c := c) hturn).active]
        exact hheeds k t ht hend
  | lowers _ hs'' =>
      obtain rfl := Option.mem_unique hs' hs''
      exact hstill t ht hend rfl (hhost hd t ht)
  | puts =>
      rw [show (w.after c (.put _ _)).session = w.session from rfl, hs]
        at hs'
      obtain rfl := Option.some.inj hs'
      exact hstill t ht hend rfl (hhost hd t ht)
  | dooms _ hs'' =>
      obtain rfl := Option.mem_unique hs' hs''
      obtain ⟨r, hr, rfl | rfl⟩ := doomFirst_getElem? ht
      · exact hstill t hr hend rfl (hhost hd t hr)
      · exact hstill r hr hend rfl (hhost hd r hr)
  | acts hact hr hwalk hrend _ _ hstep he _ _ _ _ hs'' hhands =>
      obtain rfl := Option.mem_unique hs' hs''
      exact hheeds.acts hact hr hwalk hrend hstep he hhands.keeps k t ht
        hend
  | @attends _ i r _ _ _ hact hr _ hrend hshow _ _ hs'' =>
      obtain rfl := Option.mem_unique hs' hs''
      rcases modify_getElem? ht with ⟨rfl, r', hr', rfl⟩ | ⟨hne, hr'⟩
      · obtain rfl := Option.mem_unique hr hr'
        exact hstill r hr hrend rfl fun _ => by rw [hshow]; exact nofun
      · refine hstill t hr' hend rfl fun hno => absurd ?_ hne
        exact Option.some.inj (hact.symm.trans hno)
  | @stumbles _ i r _ _ hact _ _ _ _ _ _ _ hs'' =>
      obtain rfl := Option.mem_unique hs' hs''
      rcases modify_getElem? ht with ⟨rfl, r', -, rfl⟩ | ⟨hne, hr'⟩
      · cases hend
      · refine hstill t hr' hend rfl fun hno => absurd ?_ hne
        exact Option.some.inj (hact.symm.trans hno)
  | @setsOut _ i r _ hr hwalk hrend _ _ _ hs'' hnone =>
      obtain rfl := Option.mem_unique hs' hs''
      rcases modify_getElem? ht with ⟨rfl, r', hr', rfl⟩ | ⟨-, hr'⟩
      · obtain rfl := Option.mem_unique hr hr'
        refine hstill r hr hrend ?_ (hrests hnone r)
        simp only [AgentTask.todo, hwalk]
        rfl
      · exact hstill t hr' hend rfl (hrests hnone t)
  | @dies _ i r _ _ _ _ _ hs'' hnone =>
      obtain rfl := Option.mem_unique hs' hs''
      rcases modify_getElem? ht with ⟨rfl, r', -, rfl⟩ | ⟨-, hr'⟩
      · cases hend
      · exact hstill t hr' hend rfl (hrests hnone t)
  | dozes hall _ _ _ _ _ _ _ hs'' =>
      obtain rfl := Option.mem_unique hs' hs''
      exact (hover hall ht).elim
  | drowses hall _ _ _ _ _ _ hs'' =>
      obtain rfl := Option.mem_unique hs' hs''
      exact (hover hall ht).elim
  | leaves hall _ _ _ hs'' _ htasks =>
      obtain rfl := Option.mem_unique hs' hs''
      exact (hover hall (htasks ▸ ht)).elim

/-- In every session in flight a look at the flag comes before whatever an
    agent has not begun. -/
theorem Reachable.heeds (h : Reachable c w) (hidle : w.idle = false)
    (hses : w.session = some s) : Heeds w s := by
  refine h.flights (P := Heeds) ?_ ?_ hidle hses
  · intro u v n cast programs warnings k t ht _
    obtain ⟨id, -, rfl⟩ := List.mem_map.1
      (show t ∈ freshTasks cast programs from List.mem_of_getElem? ht)
    exact .inl (guarded_start _)
  · intro u d s s' _ hd hs _ hheeds hs' hmoves
    exact hmoves.heeds hs hd hheeds hs'

/-- While an instruction is to begin its agent is not being shown. -/
theorem SetsAbout.unshown {x : Instruction} (hx : w.SetsAbout n i x)
    (hw : Reachable c w) : w.errandAbout i = none := by
  obtain ⟨rest, hx⟩ := hx
  obtain ⟨hcur, s, t, walker, hs, -, ht, hwalk, htodo, hend⟩ :=
    hx.acting hw.orderly
  have htodo : t.todo = .perform x :: rest := by
    rw [AgentTask.todo, hwalk]
    exact htodo
  rw [errandAbout_eq hs ht]
  rcases hw.heeds (current_eq_some.1 hcur).1 hs i t ht hend with
    hg | ⟨-, hshow, -⟩
  · rw [htodo] at hg
    cases hg.tail.1
  · exact hshow

/-! ## Cancellation -/

/-- No move raises the flag. -/
theorem Moves.stays_down {d : Deed} {s' : Session} (h : Moves c w s d v)
    (ho : Orderly v) (hses : w.session = some s)
    (hs' : v.session = some s') (hdown : s.running = false) :
    s'.running = false := by
  have hkeep : ∀ u : Session, v.session = some u → u.running = false →
      s'.running = false := by
    intro u hu hflag
    rw [hs'] at hu
    exact Option.some.inj hu ▸ hflag
  cases h with
  | stays _ _ hs => exact hkeep _ hs hdown
  | lowers _ hs => exact hkeep _ hs rfl
  | puts => exact hkeep _ hses hdown
  | dooms _ hs => exact hkeep _ hs hdown
  | attends _ _ _ _ _ _ _ hs => exact hkeep _ hs hdown
  | stumbles _ _ _ _ _ _ _ _ hs => exact hkeep _ hs hdown
  | acts _ _ _ _ _ _ _ he _ _ _ _ hs =>
      refine hkeep _ hs ?_
      rw [he]
      rcases verdict_running c.observer.prompt w.shown.length w.now _
        s.running _ with heq | ⟨hup, -⟩
      · exact heq.trans hdown
      · rw [hdown] at hup
        cases hup
  | setsOut _ _ _ _ _ _ hs => exact hkeep _ hs hdown
  | dies _ _ _ _ hs => exact hkeep _ hs hdown
  | dozes _ _ _ _ _ _ _ _ hs => exact hkeep _ hs rfl
  | drowses _ _ _ _ _ _ _ hs => exact hkeep _ hs hdown
  | leaves _ _ _ hidle => exact ((ho.resting hidle).2 s' hs').2.1

/-- The call of a session is in flight along a course until it has ended. -/
theorem Course.known (h : Course c w ds v) (ho : Orderly w)
    (hn : w.current = some n ∨ w.isShut n = true) :
    v.current = some n ∨ v.isShut n = true :=
  (h.keeps (P := fun u => Orderly u
    ∧ (u.current = some n ∨ u.isShut n = true)) ⟨ho, hn⟩
    fun _ _ hu hd _ => ⟨hu.1.after hd, hu.1.known_after hd hu.2⟩).2

/-- No instruction of a session begins any more after a host has asked for
    cancellation. -/
theorem SetsAbout.uncancelled {x : Instruction} (hx : v.SetsAbout n i x)
    (hw : Reachable c w) (hn : w.current = some n ∨ w.isShut n = true)
    (hcourse : Course c w ds v) : .cancel ∉ ds := by
  intro hmem
  obtain ⟨es, fs, u, rfl, hes, hd, hfs⟩ := hcourse.at_deed hmem
  have hu := hw.course hes
  have hu' := hu.course (.single hd)
  have hv := hu'.course hfs
  obtain ⟨rest, hx⟩ := hx
  obtain ⟨hcur, s, t, walker, hs, hcall, ht, hwalk, htodo, hend⟩ :=
    hx.acting hv.orderly
  have hidle := (current_eq_some.1 hcur).1
  -- the flag has been down ever since
  have hdown : s.running = false := by
    refine hfs.session hu'
      (hu.orderly.known_after hd (hes.known hw.orderly hn))
      (Q := fun s _ => s.running = false) ?_ ?_ hs hcall
    · intro r hr _
      obtain ⟨lines, heq⟩ := cancel_spec u
      change u.cancel.session = some r at hr
      rw [heq] at hr
      obtain ⟨r', -, rfl⟩ := Option.map_eq_some_iff.1 hr
      rfl
    · intro y gs d r r' hgs hsub hmem hadmits hr _ _ hdown hr' hmoves
      exact hmoves.stays_down ((hu'.course hgs).orderly.after hadmits) hr hr'
        hdown
  have htodo : t.todo = .perform x :: rest := by
    rw [AgentTask.todo, hwalk]
    exact htodo
  rcases hv.heeds hidle hs i t ht hend with hg | ⟨-, -, -, hup⟩
  · rw [htodo] at hg
    cases hg.tail.1
  · rw [hdown] at hup
    cases hup

end World

end BlockStage
