import BlockStage.Proofs.Session.Endings
import BlockStage.Proofs.Session.Liveness

/-! # Independence — a session is its agents' runs alone

    On the grid, if nobody cancels or kills it and the observer only looks
    on, a session does to each agent what a run of the agent's program
    alone does, and its result can be read off the ends of those runs:
    whatever the other agents do, however long anything takes, and
    whatever happened before. -/

namespace BlockStage

/-- The fault with which a run ended, if it did. -/
def Solo.fault? (r : Solo) : Option RunFault :=
  match r.outcome with
  | some (.failed f) => some f
  | _ => none

namespace World

/-! ## Scores -/

/-- The names of those whose runs failed, with what their faults say. -/
def faultsOf (runs : List (String × Solo)) : List (String × String) :=
  runs.filterMap fun p => p.2.fault?.map fun f => (p.1, f.message)

/-- The names of those whose runs did not fail and ended in the goal.  The
    first place that cannot be compared with the goal is a fault. -/
def arrivals (goal : Option GoalRegion) :
    List (String × Solo) → Except RunFault (List String)
  | [] => .ok []
  | (name, r) :: runs =>
      match goal, r.fault? with
      | some g, none => do
          let inside ← operate (g.contains r.agent.position)
          let others ← arrivals goal runs
          return if inside then name :: others else others
      | _, _ => arrivals goal runs

/-- The result that runs alone give. -/
def resultOfRuns (runs : List (String × Solo)) (reached : List String)
    (warnings : List (String × List WarningReport)) (elapsed : Scalar) :
    SessionResult where
  reachedCount := reached.length
  totalAgents := runs.length
  allReached := 0 < runs.length ∧ reached.length = runs.length
  reached := reached
  failed := faultsOf runs
  elapsedSeconds := .real elapsed
  cancelled := false
  warnings := warnings

/-- Scoring looks at who failed and at where the others stand. -/
theorem score_runs (goal : Option GoalRegion)
    (failed : List (String × String)) (runs : List (String × Solo))
    {agents : List (String × Agent)}
    (h : ∀ p ∈ runs, (failed.lookup p.1).isSome = p.2.fault?.isSome
      ∧ ∃ a, agents.lookup p.1 = some a
        ∧ a.position = p.2.agent.position) :
    (score goal failed agents (runs.map (·.1))).2 = arrivals goal runs := by
  induction runs generalizing agents with
  | nil => rfl
  | cons p runs ih =>
      obtain ⟨name, r⟩ := p
      obtain ⟨hfault, a, ha, hplace⟩ := h _ (List.mem_cons_self ..)
      have hrest : ∀ q ∈ runs,
          (failed.lookup q.1).isSome = q.2.fault?.isSome
            ∧ ∃ a, agents.lookup q.1 = some a
              ∧ a.position = q.2.agent.position :=
        fun q hq => h q (List.mem_cons_of_mem _ hq)
      have ha : agents.lookup name = some a := ha
      have hfault : (failed.lookup name).isSome = r.fault?.isSome := hfault
      have hplace : a.position = r.agent.position := hplace
      rw [List.map_cons]
      unfold score arrivals
      cases goal with
      | none => exact ih hrest
      | some g =>
          rw [ha]
          dsimp only
          cases hf : r.fault? with
          | some f =>
              rw [if_pos (by rw [hfault, hf]; rfl)]
              exact ih hrest
          | none =>
              rw [if_neg (by rw [hfault, hf]; exact Bool.false_ne_true), hplace]
              dsimp only
              cases g.contains r.agent.position with
              | error f => rfl
              | ok inside =>
                  cases inside with
                  | false =>
                      refine (ih hrest).trans ?_
                      cases arrivals (some g) runs <;> rfl
                  | true =>
                      refine (congrArg (Except.map (name :: ·))
                        (ih fun q hq => ?_)).trans ?_
                      · obtain ⟨hq', b, hb, hbp⟩ := hrest q hq
                        refine ⟨hq', _, (lookup_raiseFlag ..).trans
                          (congrArg _ hb), ?_⟩
                        dsimp only
                        split <;> exact hbp
                      · cases arrivals (some g) runs <;> rfl

/-- Who failed, by name. -/
theorem lookup_faults {tasks : List AgentTask} {t : AgentTask}
    (hnodup : (tasks.map (·.agentId)).Nodup) (ht : t ∈ tasks) :
    ((tasks.filterMap failure?).lookup t.agentId).isSome
      = (failure? t).isSome := by
  induction tasks with
  | nil => cases ht
  | cons u tasks ih =>
      obtain ⟨hnot, hrest⟩ := List.nodup_cons.1 hnodup
      have hid : ∀ x p, failure? x = some p → p.1 = x.agentId := by
        intro x p hx
        unfold failure? at hx
        split at hx
        · cases hx
          rfl
        · cases hx
      rcases List.mem_cons.1 ht with rfl | ht
      · cases hf : failure? t with
        | some p =>
            rw [List.filterMap_cons_some hf]
            obtain ⟨name, text⟩ := p
            have := hid _ _ hf
            simp only at this
            subst this
            simp
        | none =>
            rw [List.filterMap_cons_none hf]
            have hnone : (tasks.filterMap failure?).lookup t.agentId
                = none := by
              rw [List.lookup_eq_none_iff]
              intro p hp
              obtain ⟨x, hx, hxp⟩ := List.mem_filterMap.1 hp
              have hne : t.agentId ≠ x.agentId := fun heq =>
                hnot (List.mem_map.2 ⟨x, hx, heq.symm⟩)
              rw [hid _ _ hxp]
              simpa using hne
            rw [hnone]
            rfl
      · have hne : t.agentId ≠ u.agentId := fun heq =>
          hnot (List.mem_map.2 ⟨t, ht, heq⟩)
        cases hf : failure? u with
        | some p =>
            rw [List.filterMap_cons_some hf]
            obtain ⟨name, text⟩ := p
            have := hid _ _ hf
            simp only at this
            subst this
            rw [List.lookup_cons, show (t.agentId == u.agentId) = false by
              simpa using hne]
            exact ih hrest ht
        | none =>
            rw [List.filterMap_cons_none hf]
            exact ih hrest ht

section

variable [Arithmetic] {c : Coordinator} {w v : World} {n : Nat}
  {cast : List String} {programs : List (String × Program)}
  {warnings : List (String × List WarningReport)} {cut : Bool}
  {s : Session}

/-- The runs of a cast alone, each to its end. -/
def runsAlone (c : Coordinator) (w : World)
    (programs : List (String × Program)) (cast : List String) :
    List (String × Solo) :=
  cast.map fun id =>
    (id, wholly c (given programs id) ((w.agent? id).getD default))

/-- A part that has ended without being cut short or killed has been
    through the whole run. -/
theorem Part.whole {a₀ a : Agent} {t : AgentTask} {shown : List Snapshot}
    {k : Nat} (h : Part c a₀ false t a shown (alone c t.program a₀ k))
    (hmode : c.config.mode ≠ .canvas) (hspared : t.ending ≠ some .killed)
    (hend : t.ending.isSome = true) :
    Part c a₀ false t a shown (wholly c t.program a₀)
      ∧ ∃ o, (wholly c t.program a₀).outcome = some o
        ∧ t.ending = some (o.toEnd false) := by
  cases h.stands with
  | waits _ hno => rw [hno] at hend; cases hend
  | runs _ hno => rw [hno] at hend; cases hend
  | ends ho he =>
      rw [← alone_over hmode (by rw [ho]; rfl)]
      exact ⟨h, _, ho, he⟩
  | stopped hno => cases hno
  | killed _ hno => exact absurd hno hspared

/-- How an agent's part ended says how its run did. -/
theorem failure_fault {c : Coordinator} {p : Program} {a₀ : Agent}
    {t : AgentTask} {o : Outcome}
    (ho : (wholly c p a₀).outcome = some o)
    (he : t.ending = some (o.toEnd false)) :
    failure? t = (wholly c p a₀).fault?.map
      fun f => (t.agentId, f.message) := by
  unfold failure? Solo.fault?
  rw [he, ho]
  cases o <;> rfl

/-- What the runs alone say about a session that is about to be scored
    uncut. -/
theorem Closing.scored {u : World}
    (h : Closing c w n cast programs warnings false u s)
    (hcast : cast.Nodup) (hmode : c.config.mode ≠ .canvas) :
    s.tasks.filterMap failure? = faultsOf (runsAlone c w programs cast)
      ∧ (u.scored c s).2 = arrivals c.goal (runsAlone c w programs cast)
      ∧ s.tasks.length = (runsAlone c w programs cast).length := by
  have hm := h.mirrors
  have hspared : ∀ t ∈ s.tasks, t.ending ≠ some .killed := by
    intro t ht hkill
    have := (h.reachable.orderly.flight h.flying hm.session).killed t ht hkill
    rw [h.spared] at this
    cases this
  -- each agent has been through its whole run
  have hwhole : ∀ t ∈ s.tasks, ∃ a,
      u.agent? t.agentId = some a
        ∧ a.position = (wholly c (World.given programs t.agentId)
          ((w.agent? t.agentId).getD default)).agent.position
        ∧ failure? t = (wholly c (World.given programs t.agentId)
          ((w.agent? t.agentId).getD default)).fault?.map
            fun f => (t.agentId, f.message) := by
    intro t ht
    obtain ⟨i, hi⟩ := List.mem_iff_getElem?.1 ht
    obtain ⟨news, -, hparts⟩ := hm.parts
    obtain ⟨a₀, a, k, ha₀, ha, hp⟩ := hparts i t hi
    obtain ⟨hp', o, ho, he⟩ := hp.whole hmode (hspared t ht)
      (h.ended _ (List.mem_map.2 ⟨t, ht, rfl⟩))
    rw [ha₀, Option.getD_some, ← hm.given ht]
    exact ⟨a, ha, hp'.position, failure_fault ho he⟩
  have hruns : runsAlone c w programs cast
      = s.tasks.map fun t => (t.agentId, wholly c
        (World.given programs t.agentId)
        ((w.agent? t.agentId).getD default)) := by
    rw [runsAlone, ← hm.ids, List.map_map]
    rfl
  refine ⟨?_, ?_, ?_⟩
  · rw [faultsOf, hruns, List.filterMap_map]
    refine List.filterMap_congr fun t ht => ?_
    obtain ⟨a, -, -, hf⟩ := hwhole t ht
    exact hf
  · rw [World.scored, ← score_runs c.goal (s.tasks.filterMap failure?)
      (runsAlone c w programs cast)]
    · rw [hruns, List.map_map]
      rfl
    · intro p hp
      rw [hruns] at hp
      obtain ⟨t, ht, rfl⟩ := List.mem_map.1 hp
      obtain ⟨a, ha, hplace, hf⟩ := hwhole t ht
      refine ⟨?_, a, ha, hplace⟩
      rw [lookup_faults (hm.ids ▸ hcast) ht, hf, Option.isSome_map]
  · rw [hruns, List.length_map]

/-! ## Independence -/

/-- What a session does to an agent, compared with the run of its program
    alone: no snapshot but those of the run, in their order, and in the end
    all of them, the same place, heading and message, and the same end. -/
structure Alike (c : Coordinator) (p : Program) (a₀ : Agent)
    (news : List Event) (t : AgentTask) (a : Agent) : Prop where
  shown : a₀.shownIn news <+: (wholly c p a₀).events.map (·.snapshot)
  ended : t.ending.isSome = true →
    a₀.shownIn news = (wholly c p a₀).events.map (·.snapshot)
      ∧ a.position = (wholly c p a₀).agent.position
      ∧ a.heading = (wholly c p a₀).agent.heading
      ∧ a.message = (wholly c p a₀).agent.message
      ∧ ∃ o, (wholly c p a₀).outcome = some o ∧ t.ending = some (o.toEnd false)

/-- A part that nobody cuts short is like the run alone. -/
theorem Part.alike {a₀ a : Agent} {t : AgentTask} {news : List Event}
    {k : Nat}
    (h : Part c a₀ false t a (a₀.shownIn news) (alone c t.program a₀ k))
    (hmode : c.config.mode ≠ .canvas) (hspared : t.ending ≠ some .killed) :
    Alike c t.program a₀ news.reverse t a := by
  constructor
  · rw [Agent.shownIn_reverse, h.shown, Solo.events, List.map_reverse,
      List.reverse_prefix]
    exact (alone_shown hmode).map _
  · intro hend
    obtain ⟨hp, hend'⟩ := h.whole hmode hspared hend
    refine ⟨?_, hp.position, hp.heading, hp.message, hend'⟩
    rw [Agent.shownIn_reverse, hp.shown, Solo.events, List.map_reverse]

/-- What the runs alone make of a call. -/
def OwesToRuns (c : Coordinator) (runs : List (String × Solo))
    (warnings : List (String × List WarningReport)) (e : CallEnd) : Prop :=
  match arrivals c.goal runs with
  | .error f => e = .failed f
  | .ok reached => ∃ elapsed,
      e = .returned (resultOfRuns runs reached warnings elapsed)

end

section

attribute [local instance] Arithmetic.binary64

variable {c : Coordinator} {w v : World} {n : Nat} {cast : List String}
  {programs : List (String × Program)}
  {warnings : List (String × List WarningReport)}

/-- A call that nobody cancels or kills ends in what the runs alone say. -/
theorem Ends.owes {e : CallEnd}
    (h : Ends c w n cast programs warnings false e) (hcast : cast.Nodup)
    (hmode : c.config.mode ≠ .canvas) (hspared : e ≠ .killed) :
    OwesToRuns c (runsAlone c w programs cast) warnings e := by
  unfold OwesToRuns
  cases h with
  | killed => exact absurd rfl hspared
  | unscored hc hscore =>
      obtain ⟨-, harrive, -⟩ := hc.scored hcast hmode
      rw [hscore] at harrive
      rw [← harrive]
  | untimed hc hbad =>
      exact absurd (hc.reachable.timely.elapsed hc.flying hc.mirrors.session)
        hbad
  | @returned u s agents reached hc hscore =>
      obtain ⟨hfaults, harrive, hlen⟩ := hc.scored hcast hmode
      rw [hscore] at harrive
      rw [← harrive]
      refine ⟨u.now.sub s.startedAt, ?_⟩
      rw [resultNow, resultOf, resultOfRuns, hfaults, hc.running, hlen]
      rfl
  | passed hnobody =>
      subst hnobody
      exact ⟨_, rfl⟩

/-- **A session is its agents' runs alone.**  On the grid, whatever
    happened before, whichever agents take part, whatever they are given to
    run and wherever the goal is: if a call that begins a session is
    neither cancelled nor killed and the observer only looks on, however long
    it sleeps over a snapshot, then at every moment each agent has shown a
    beginning of what it shows alone, and when it has ended it has shown all
    of it, has ended as alone, and stands, looks and speaks as at the end of
    its run alone; when the call ends it returns the result that the runs
    alone give, or fails if a place they end at cannot be compared with the
    goal; and in every fair execution it does end.  How long an observer
    sleeps makes no difference to the runs alone either. -/
theorem Begins.independent (hb : Begins c w n cast programs warnings)
    (hmode : c.config.mode ≠ .canvas)
    (hsink : ∀ k, w.shown.length < k → (c.observer.reaction k).fails = false
      ∧ (c.observer.reaction k).stops = false)
    {ds : List Deed} (hcourse : Course c (w.after c .turn) ds v)
    (hput : ∀ name a, .put name a ∈ ds → name ∉ cast)
    (hcancel : .cancel ∉ ds) (hkill : .kill n ∉ ds) :
    (∀ s, v.session = some s → s.call = n →
      s.tasks.map (·.agentId) = cast
        ∧ (v.idle = true → ∀ t ∈ s.tasks, t.ending.isSome = true)
        ∧ ∃ news, v.events = w.events ++ news
          ∧ ∀ t ∈ s.tasks, ∃ a₀ a, w.agent? t.agentId = some a₀
            ∧ v.agent? t.agentId = some a
            ∧ Alike c (World.given programs t.agentId) a₀ news t a)
      ∧ (∀ call e, v.calls[n]? = some call → call.ending = some e →
        OwesToRuns c (runsAlone c w programs cast) warnings e)
      ∧ (∀ e : Execution c v, e.Fair →
        ∃ k, (e.world k).isShut n = true)
      ∧ ∀ (p : Program) (a₀ : Agent) (o : Observer),
        o.mode = c.observer.mode →
        (∀ k, (o.reaction k).fails = false
          ∧ (o.reaction k).stops = false) →
        ∃ r, r = Solo.run (scene c) o
            (Act.cost c.config.loopCeiling (Walker.start p).todo + 1)
            (outset c p a₀)
          ∧ r.agent = (wholly c p a₀).agent
          ∧ r.outcome = (wholly c p a₀).outcome
          ∧ r.events.map (·.snapshot)
            = (wholly c p a₀).events.map (·.snapshot) := by
  obtain ⟨hreach, cut, hm, hcut⟩ := hb.course hmode
    (fun k hk => (hsink k hk).1) hcourse hput
  -- nothing lowers the flag
  have huncut : cut = false := by
    rw [Bool.eq_false_iff]
    intro hup
    obtain ⟨d, hd, rfl | ⟨k, hk, hstops⟩⟩ := hcut hup
    · exact hcancel hd
    · rw [(hsink k hk).2] at hstops
      cases hstops
  subst huncut
  obtain ⟨call, hcall, hspared⟩ := hb.spared hcourse hkill
  refine ⟨fun s hs hn => ?_, fun call' e hcall' he => ?_,
    fun e hf => hf.shuts hreach hmode hm.known,
    fun p a₀ o => wholly_gentle hmode p a₀⟩
  · have hp := hm.present s hs hn
    have hunkilled : ∀ t ∈ s.tasks, t.ending ≠ some .killed := by
      intro t ht hdead
      obtain ⟨call', hcall', hdoomed⟩ := hm.killed s hs hn t ht hdead
      obtain rfl := Option.mem_unique hcall hcall'
      rw [hspared] at hdoomed
      cases hdoomed
    refine ⟨hp.ids, fun hidle t ht => ?_, ?_⟩
    · exact ((hreach.orderly.resting hidle).2 s hs).1 _
        (List.mem_map.2 ⟨t, ht, rfl⟩)
    · obtain ⟨news, hnews, hparts⟩ := hp.parts
      refine ⟨news.reverse, ?_, fun t ht => ?_⟩
      · rw [World.events, World.events, hnews, List.reverse_append]
      · obtain ⟨i, hi⟩ := List.mem_iff_getElem?.1 ht
        obtain ⟨a₀, a, k, ha₀, ha, hpart⟩ := hparts i t hi
        rw [← hp.given ht]
        exact ⟨a₀, a, ha₀, ha, hpart.alike hmode (hunkilled t ht)⟩
  · obtain rfl := Option.mem_unique hcall hcall'
    obtain ⟨hends, hkilled⟩ := hm.ended _ hcall e he
    refine hends.owes hb.known.1 hmode ?_
    intro hdead
    rw [hkilled hdead] at hspared
    cases hspared

/-! ## Two agents -/

/-- A coordinator with the standard settings and an observer that only looks
    on. -/
def watchedCoordinator : Coordinator :=
  ⟨.standard, none, .quiet .present, .absent⟩

/-- One agent is to move no step at all, which it cannot, and the other one
    step. -/
def unevenPair : List (String × Program) :=
  [("a", [.move 0]), ("b", [.move 1])]

/-- The world in which the call of the two begins. -/
def pairBegins : World :=
  ((initial [("a", .atStart (.str "a") [0, 0] 90),
    ("b", .atStart (.str "b") [0, 0] 0)]).follow watchedCoordinator
    [.call (.programs unevenPair) ["a", "b"], .turn]).getD (.initial [])

/-- The world after so many turns. -/
def pairAfter (k : Nat) : World :=
  ((pairBegins.after watchedCoordinator .turn).follow watchedCoordinator
    (List.replicate k .turn)).getD (.initial [])

/-- One of two agents fails at once, and the other one walks on as it does
    alone; and there is a fair execution in which they do. -/
theorem independent_pair :
    Begins watchedCoordinator pairBegins 0 ["a", "b"] unevenPair []
      ∧ (∃ call elapsed, (pairAfter 30).calls[0]? = some call
        ∧ call.ending = some (.returned (resultOfRuns
          (runsAlone watchedCoordinator pairBegins unevenPair ["a", "b"])
          [] [] elapsed)))
      ∧ ∃ e : Execution watchedCoordinator
          (pairBegins.after watchedCoordinator .turn),
        e.Fair ∧ ∃ k, (e.world k).isShut 0 = true := by
  have hb : Begins watchedCoordinator pairBegins 0 ["a", "b"] unevenPair
      [] := by
    refine ⟨⟨_, _, Course.followed _ (by decide +kernel)⟩, rfl, ⟨[], rfl⟩,
      ⟨_, rfl, rfl, rfl, rfl⟩,
      distinct_pair rfl rfl (by decide)⟩
  have hturns : ∀ d ∈ List.replicate 30 Deed.turn, d = .turn :=
    fun d hd => List.eq_of_mem_replicate hd
  have hcourse := Course.followed (c := watchedCoordinator)
    (w := pairBegins.after watchedCoordinator .turn) (.initial [])
    (show (World.follow watchedCoordinator
        (pairBegins.after watchedCoordinator .turn)
        (List.replicate 30 .turn)).isSome = true by decide +kernel)
  obtain ⟨-, hends, -, -⟩ := Begins.independent hb nofun (fun _ _ => ⟨rfl, rfl⟩)
    hcourse (fun _ _ hno => by cases hturns _ hno)
    (fun hno => by cases hturns _ hno) (fun hno => by cases hturns _ hno)
  refine ⟨hb, ?_, ?_⟩
  · have hended : ((pairAfter 30).calls[0]?.bind (·.ending)).isSome
        = true := by
      decide +kernel
    obtain ⟨e, he⟩ := Option.isSome_iff_exists.1 hended
    obtain ⟨call, hcall, hending⟩ := Option.bind_eq_some_iff.1 he
    obtain ⟨elapsed, rfl⟩ := hends call e hcall hending
    exact ⟨call, elapsed, hcall, hending⟩
  · obtain ⟨e, hf, -⟩ := turns_to_rest (c := watchedCoordinator)
      (w := pairBegins.after watchedCoordinator .turn) 30 (by decide +kernel)
    obtain ⟨-, -, hshuts, -⟩ := Begins.independent hb nofun (fun _ _ => ⟨rfl, rfl⟩)
      (.nil _) nofun nofun nofun
    exact ⟨e, hf, hshuts e hf⟩

end

end World

end BlockStage
