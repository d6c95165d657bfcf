import BlockStage.Proofs.Run.Poise
import BlockStage.Proofs.Session.Moves
import BlockStage.Proofs.Session.Queue

/-! # Repose — who has given up the turn

    On the grid whoever is not acting has given up its turn, and a flag
    falls only while nobody acts or while the observer is shown the agent
    who acts.  So with the flag down everybody is poised: it shows at most
    one snapshot more before the next check. -/

namespace BlockStage

open Act

namespace World

/-- Every agent has left to do what it may; whoever is not acting, or is
    acting with the flag down, is poised or has just set out; and whoever is
    being shown has just been. -/
def Reposed (c : Coordinator) (w : World) (s : Session) : Prop :=
  ∀ i t walker, s.tasks[i]? = some t → t.walker = some walker →
    t.ending = none →
    (Fit c.config walker.todo ∨ Fresh walker.todo)
      ∧ (w.active ≠ some i ∨ s.running = false →
        Poised c.config walker.todo ∨ Fresh walker.todo)
      ∧ (t.showing.isSome = true → Beheld c.config walker.todo)

variable {c : Coordinator} {w v : World} {s s' : Session}

/-- Everybody is poised whom the observer is shown, and everybody but the
    one who acts. -/
theorem Reposed.poised (h : Reposed c w s) {i : Nat} {t : AgentTask}
    {walker : Walker} (ht : s.tasks[i]? = some t)
    (hwalk : t.walker = some walker) (hend : t.ending = none)
    (hfree : w.active = some i → t.showing.isSome = true) :
    Poised c.config walker.todo ∨ Fresh walker.todo := by
  obtain ⟨-, hpoised, hbeheld⟩ := h i t walker ht hwalk hend
  by_cases hact : w.active = some i
  · exact .inl (hbeheld (hfree hact)).poised
  · exact hpoised (.inl hact)

/-- While the host can act everybody is poised. -/
theorem Reposed.still (h : Reposed c w s) (hses : w.session = some s)
    (hacts : w.hostActs = true) {v : World} {s' : Session}
    (htasks : s'.tasks = s.tasks) : Reposed c v s' := by
  intro i t walker ht hwalk hend
  rw [htasks] at ht
  obtain ⟨hfit, -, hbeheld⟩ := h i t walker ht hwalk hend
  have hfree := h.poised ht hwalk hend fun hact => by
    simpa [hostActs, hact, task?, hses, ht] using hacts
  exact ⟨hfit, fun _ => hfree, hbeheld⟩

/-- A change of one agent's part, while no other one acts. -/
theorem Reposed.modify (h : Reposed c w s) {i : Nat}
    (hact : ∀ j, w.active = some j → j = i) {f : AgentTask → AgentTask}
    (hs' : s'.tasks = s.tasks.modify i f)
    (hf : ∀ t walker, s.tasks[i]? = some t → (f t).walker = some walker →
      (f t).ending = none →
      (Fit c.config walker.todo ∨ Fresh walker.todo)
        ∧ (Poised c.config walker.todo ∨ Fresh walker.todo)
        ∧ ((f t).showing.isSome = true → Beheld c.config walker.todo)) :
    Reposed c v s' := by
  intro j t walker ht hwalk hend
  rw [hs'] at ht
  rcases modify_getElem? ht with ⟨rfl, u, hu, rfl⟩ | ⟨hij, hu⟩
  · obtain ⟨hfit, hpoised, hbeheld⟩ := hf u walker hu hwalk hend
    exact ⟨hfit, fun _ => hpoised, hbeheld⟩
  · obtain ⟨hfit, hpoised, hbeheld⟩ := h j t walker hu hwalk hend
    have hfree := hpoised (.inl fun hno => hij (hact j hno).symm)
    exact ⟨hfit, fun _ => hfree, hbeheld⟩

/-- Nobody is left when everybody has ended. -/
theorem Reposed.over (hover : ∀ b ∈ s.ended, b = true)
    (htasks : s'.tasks = s.tasks) : Reposed c v s' := by
  intro i t walker ht _ hend
  rw [htasks] at ht
  have hno := hover _ (List.mem_map.2 ⟨t, List.mem_of_getElem? ht, rfl⟩)
  rw [hend] at hno
  cases hno

variable [Arithmetic]

/-- An act leaves everybody poised but, with the flag up, the agent who goes
    on acting. -/
theorem Reposed.acts (h : Reposed c w s) (hmode : c.config.mode ≠ .canvas)
    {i : Nat} {t : AgentTask} {walker : Walker} {a : Agent} {n : Step}
    {e : Verdict} (hact : w.active = some i) (ht : s.tasks[i]? = some t)
    (hwalk : t.walker = some walker) (hend : t.ending = none)
    (hn : n = walker.step (scene c) w.now s.running a)
    (he : e = verdict c.observer.prompt w.shown.length w.now n.agent
      s.running n.signal)
    (hs' : s'.tasks = s.tasks.modify i fun u => { u with
      walker := some n.walker
      showing := c.observer.errand? w.shown.length e.shown
      ending := e.outcome.map (Outcome.toEnd t.doomed) })
    (hrunning : s'.running = e.running)
    (hkeep : n.signal = .proceed → v.active = w.active) :
    Reposed c v s' := by
  intro j u x hu hx hgoes
  rw [hs'] at hu
  rcases modify_getElem? hu with ⟨rfl, t', ht', rfl⟩ | ⟨hij, hu⟩
  rotate_left
  · -- the others had given up their turns before
    obtain ⟨hfit, hpoised, hbeheld⟩ := h j u x hu hx hgoes
    have hfree := hpoised
      (.inl (by rw [hact]; exact fun heq => hij (Option.some.inj heq)))
    exact ⟨hfit, fun _ => hfree, hbeheld⟩
  obtain rfl := Option.mem_unique ht ht'
  obtain rfl := Option.some.inj hx
  have hout : e.outcome = none := by simpa using hgoes
  obtain ⟨hfit, hpoised, -⟩ := h i t walker ht hwalk hend
  -- whoever has not ended has advanced
  have hadv : Advance (scene c) w.now a walker.todo n.agent n.walker.todo
      n.signal := by
    have hgoes := Walker.step_advances (scene c) w.now w.now s.running a
      walker c.observer.prompt w.shown.length
    rw [← hn, ← he, hout] at hgoes
    exact hgoes.resolve_left nofun
  obtain ⟨hfit', hpoised', hbeheld'⟩ := hadv.fit hmode hfit
  refine ⟨.inl hfit', fun hgives => ?_, fun hshown => hbeheld' ?_⟩
  rotate_left
  · -- whoever is being shown had a snapshot due
    by_contra hno
    rw [he, hadv.unshown hno] at hshown
    cases hshown
  by_cases hproceed : n.signal = .proceed
  · -- the agent goes on acting, so the flag was down before
    have hdown : s.running = false := by
      rcases hgives with hno | hdown
      · exact absurd ((hkeep hproceed).trans hact) hno
      · rw [hrunning, he, hproceed] at hdown
        exact hdown
    have hno : ∀ rest, walker.todo ≠ .check :: rest := by
      intro rest htodo
      rw [hn, hdown] at hproceed
      exact Walker.check_stops htodo hproceed
    exact .inl (hadv.winds (hpoised (.inr hdown)) hno).1
  · exact .inl (hpoised' hproceed)

/-- Every move leaves a session reposed. -/
theorem Moves.reposed {d : Deed} (h : Moves c w s d v)
    (hmode : c.config.mode ≠ .canvas) (hses : w.session = some s)
    (hs' : v.session = some s') (hkeep : d ≠ .turn → v.active = w.active)
    (hcancel : d = .cancel → w.hostActs = true)
    (hunshown : ∀ t ∈ s.tasks, t.walker = none → t.showing = none)
    (hr : Reposed c w s) : Reposed c v s' := by
  cases h with
  | stays _ _ hs hcounts =>
      obtain rfl := Option.mem_unique hs hs'
      by_cases hd : d = .turn
      · exact hr.still hses (hostActs_between (hcounts.still hd)) rfl
      · intro i t walker
        rw [hkeep hd]
        exact hr i t walker
  | lowers _ hs =>
      obtain rfl := Option.mem_unique hs hs'
      exact hr.still hses (hcancel rfl) rfl
  | puts =>
      obtain rfl := Option.mem_unique hses hs'
      exact hr
  | dooms _ hs =>
      obtain rfl := Option.mem_unique hs hs'
      intro i t walker ht hwalk hend
      rw [hkeep nofun]
      obtain ⟨u, hu, rfl | rfl⟩ := doomFirst_getElem? ht
      · exact hr i _ walker hu hwalk hend
      · exact hr i u walker hu hwalk hend
  | acts hact ht hwalk hend _ _ hn he _ _ _ _ hs hhands =>
      obtain rfl := Option.mem_unique hs hs'
      exact hr.acts hmode hact ht hwalk hend hn he rfl rfl hhands.keeps
  | @attends _ i t walker e showing hact ht hwalk _ hshow _ _ hs =>
      obtain rfl := Option.mem_unique hs hs'
      refine hr.modify (fun j hj => Option.some.inj (hj.symm.trans hact)) rfl
        fun u x hu hx hgoes => ?_
      obtain rfl := Option.mem_unique ht hu
      obtain ⟨hfit, -, hbeheld⟩ := hr i t x ht hx hgoes
      have hbeheld := hbeheld (by rw [hshow]; rfl)
      exact ⟨hfit, .inl hbeheld.poised, fun _ => hbeheld⟩
  | stumbles hact _ _ _ _ _ _ _ hs =>
      obtain rfl := Option.mem_unique hs hs'
      exact hr.modify (fun j hj => Option.some.inj (hj.symm.trans hact)) rfl
        fun _ _ _ _ hno => by cases hno
  | @setsOut _ i t _ ht hno _ _ _ _ hs hact =>
      obtain rfl := Option.mem_unique hs hs'
      refine hr.modify (fun j hj => by rw [hact] at hj; cases hj) rfl
        fun u walker hu hwalk _ => ?_
      obtain rfl := Option.mem_unique ht hu
      obtain rfl := Option.some.inj hwalk
      refine ⟨.inr (Walker.start_fresh _), .inr (Walker.start_fresh _),
        fun hshown => ?_⟩
      rw [hunshown t (List.mem_of_getElem? ht) hno] at hshown
      cases hshown
  | dies _ _ _ _ hs hact =>
      obtain rfl := Option.mem_unique hs hs'
      exact hr.modify (fun j hj => by rw [hact] at hj; cases hj) rfl
        fun _ _ _ _ hno => by cases hno
  | dozes hover _ _ _ _ _ _ _ hs =>
      obtain rfl := Option.mem_unique hs hs'
      exact .over hover rfl
  | drowses hover _ _ _ _ _ _ hs =>
      obtain rfl := Option.mem_unique hs hs'
      exact .over hover rfl
  | leaves hover _ _ _ hs _ htasks =>
      obtain rfl := Option.mem_unique hs hs'
      exact .over hover htasks

/-- On the grid every session in flight is reposed. -/
theorem Reachable.reposed (h : Reachable c w)
    (hmode : c.config.mode ≠ .canvas) (hidle : w.idle = false)
    (hses : w.session = some s) : Reposed c w s := by
  refine h.flights (P := Reposed c) ?_ ?_ hidle hses
  · intro u v n cast programs warnings i t walker ht hwalk
    obtain ⟨id, -, rfl⟩ := List.mem_map.1
      (show t ∈ freshTasks cast programs from List.mem_of_getElem? ht)
    cases hwalk
  · intro u d s s' hu hd hs hflies hr hs' hmoves
    exact hmoves.reposed hmode hs hs' (fun hno => (Waits.after hno).active)
      (fun hc => by subst hc; exact hd) (hu.unshown hflies hs) hr

end World

end BlockStage
