import BlockStage.Proofs.Session.Endings
import BlockStage.Proofs.Session.Likeness
import BlockStage.Proofs.Value.Number

/-! # Completion — what a result says, and to whom

    A session is scored once, when everybody has ended, and its result says
    who stands in the goal (`Tally`).  The handler of completions is called
    for a result that all have reached and for no other, and what it records
    it records before the call returns (`Reachable.records`). -/

namespace BlockStage

/-- The agents of a session, in their order. -/
def Session.cast (s : Session) : List String :=
  s.tasks.map (·.agentId)

/-- What is announced of a result. -/
def SessionResult.completion (r : SessionResult) : CompletionEvent :=
  ⟨r.reachedCount.toNat, r.totalAgents.toNat, r.elapsedSeconds.exact⟩

/-- What a handler has recorded of a call, from how the call has ended. -/
def HandlerMode.records (h : HandlerMode) :
    Option CallEnd → List CompletionEvent
  | some (.returned r) =>
      if r.allReached = true ∧ h ≠ .absent then [r.completion] else []
  | _ => []

/-- The result that a call has returned, if it has returned one. -/
def CallEnd.result? : CallEnd → Option SessionResult
  | returned r => some r
  | _ => none

namespace World

/-- How a call has ended, if it has. -/
def ending? (w : World) (n : Nat) : Option CallEnd :=
  w.calls[n]?.bind (·.ending)

/-- A call that is shut has ended in something. -/
theorem ending?_shut {w : World} {n : Nat} (h : w.isShut n = true) :
    ∃ e, w.ending? n = some e := by
  unfold isShut at h
  unfold ending?
  cases hcall : w.calls[n]? with
  | none =>
      rw [hcall] at h
      cases h
  | some call =>
      rw [hcall] at h
      exact Option.isSome_iff_exists.1 h

/-- A call has returned a result exactly if it has ended with that. -/
theorem ending?_result {w : World} {n : Nat} {r : SessionResult} :
    (w.ending? n).bind CallEnd.result? = some r
      ↔ w.ending? n = some (.returned r) := by
  rw [Option.bind_eq_some_iff]
  constructor
  · rintro ⟨e, he, hr⟩
    cases e with
    | returned r' =>
        cases hr
        exact he
    | _ => cases hr
  · intro h
    exact ⟨_, h, rfl⟩

/-! ## The score -/

/-- Whether an agent stands in the goal. -/
def stands (goal : Option GoalRegion) (agents : List (String × Agent))
    (id : String) : Bool :=
  match goal, agents.lookup id with
  | some g, some a =>
      match g.contains a.position with
      | .ok inside => inside
      | .error _ => false
  | _, _ => false

/-- Whoever has only got a flag stands where it stood. -/
theorem stands_congr {goal : Option GoalRegion}
    {agents agents' : List (String × Agent)} {id : String} {f : Agent → Agent}
    (hf : ∀ a, (f a).position = a.position)
    (h : agents'.lookup id = (agents.lookup id).map f) :
    stands goal agents' id = stands goal agents id := by
  unfold stands
  rw [h]
  cases agents.lookup id with
  | none => rfl
  | some a =>
      cases goal with
      | none => rfl
      | some g =>
          dsimp only [Option.map_some]
          rw [hf]

/-- Whoever is found outside the goal does not stand in it. -/
theorem stands_out {goal : Option GoalRegion}
    {agents : List (String × Agent)} {id : String}
    (h : ∀ g a, goal = some g → agents.lookup id = some a →
      g.contains a.position = .ok false) : stands goal agents id = false := by
  unfold stands
  split
  · rename_i g a hagent
    rw [h g a rfl hagent]
  · rfl

/-- Whoever stands in the goal is there. -/
theorem stands_there {goal : Option GoalRegion}
    {agents : List (String × Agent)} {id : String}
    (h : stands goal agents id = true) : ∃ a, agents.lookup id = some a := by
  unfold stands at h
  split at h
  · rename_i g a hagent
    exact ⟨a, hagent⟩
  · cases h

theorem lookup_isNone {α : Type} {l : List (String × α)} {id : String} :
    (l.lookup id).isNone = true ↔ id ∉ l.map (·.1) := by
  rw [Option.isNone_iff_eq_none, List.lookup_eq_none_iff, List.mem_map]
  constructor
  · rintro h ⟨b, hb, rfl⟩
    simpa using h b hb
  · intro h b hb
    simpa using fun heq => h ⟨b, hb, heq.symm⟩

/-- The score counts those who did not fail and stand in the goal, in their
    order, and gives them their flag. -/
theorem score_ok {goal : Option GoalRegion} {failed : List (String × String)}
    {ids : List String} {agents agents' : List (String × Agent)}
    {reached : List String}
    (h : score goal failed agents ids = (agents', .ok reached)) :
    reached = ids.filter (fun id =>
        (failed.lookup id).isNone && stands goal agents id)
      ∧ ∀ id, agents'.lookup id = (agents.lookup id).map fun a =>
        if id ∈ reached then { a with goalReached := .bool true } else a := by
  induction ids generalizing agents agents' reached with
  | nil =>
      cases h
      exact ⟨rfl, fun id => by simp⟩
  | cons id ids ih =>
      cases score_cons goal failed agents id ids with
      | passes hsame hwhy =>
          rw [hsame] at h
          obtain ⟨hreached, hagents⟩ := ih h
          have hno : ((failed.lookup id).isNone && stands goal agents id)
              = false := by
            rcases hwhy with hfailed | hout
            · simp [Option.isSome_iff_ne_none.1 hfailed]
            · rw [stands_out hout, Bool.and_false]
          refine ⟨?_, hagents⟩
          rw [List.filter_cons_of_neg (by rw [hno]; exact Bool.false_ne_true)]
          exact hreached
      | raises _ _ _ _ hstops =>
          rw [hstops] at h
          cases h
      | counts hgoal hagent hnone hin hflags =>
          -- the agent is counted and flagged before the next one
          rw [hflags] at h
          obtain ⟨hagents', hrest⟩ := Prod.mk.inj h
          obtain ⟨reached', hreached', rfl⟩ := map_eq_ok hrest
          obtain ⟨hreached, hagents⟩ := ih (Prod.ext hagents' hreached')
          have hflag := lookup_raiseFlag id agents
          have hstands : stands goal agents id = true := by
            simp [stands, hgoal, hagent, hin]
          refine ⟨?_, fun name => ?_⟩
          · rw [List.filter_cons_of_pos (by rw [hstands, hnone]; rfl),
              hreached]
            congr 1
            refine List.filter_congr fun name _ => ?_
            congr 1
            exact stands_congr (fun a => by split <;> rfl) (hflag name)
          · rw [hagents, hflag, Option.map_map]
            congr 1
            funext b
            by_cases hname : name = id
            · subst hname
              by_cases hmem : name ∈ reached' <;> simp [hmem]
            · simp [hname]

/-! ## What a result says -/

/-- Once everybody has ended nobody is left to be doomed. -/
theorem doomFirst_ended {k : Nat} {s : Session}
    (h : ∀ t ∈ s.tasks, t.ending.isSome = true) : doomFirst k s = s := by
  have hsame : (s.tasks.take k).map doom = s.tasks.take k :=
    (List.map_congr_left fun t ht =>
      if_pos (h t (List.mem_of_mem_take ht))).trans (List.map_id _)
  unfold doomFirst
  rw [hsame, List.take_append_drop]

variable [Arithmetic] {c : Coordinator} {w v : World} {s s' : Session}
  {kept : String → Prop} {r : SessionResult}

/-- A result tells the truth about its session: all have ended by themselves,
    and it says who has failed, who stands in the goal and has its flag, how
    many these are and whether these are all.  Only agents that are `kept` by
    the host are known to be where the session left them. -/
structure Tally (c : Coordinator) (v : World) (s : Session)
    (kept : String → Prop) (r : SessionResult) : Prop where
  settled : ∀ t ∈ s.tasks, t.ending.isSome = true
  unkilled : ∀ t ∈ s.tasks, t.ending ≠ some .killed
  failed : r.failed = s.tasks.filterMap failure?
  known : ∀ f ∈ r.failed, f.1 ∈ s.cast
  sublist : r.reached.Sublist s.cast
  reached : ∀ id ∈ s.cast, kept id → (id ∈ r.reached
    ↔ id ∉ r.failed.map (·.1) ∧ stands c.goal v.agents id = true)
  flagged : ∀ id ∈ r.reached, kept id → ∃ a, v.agent? id = some a
    ∧ a.goalReached = .bool true
  count : r.reachedCount = r.reached.length
  total : r.totalAgents = s.cast.length
  bound : r.reachedCount ≤ r.totalAgents
  all : r.allReached = true ↔ s.cast ≠ [] ∧ r.reached = s.cast

omit [Arithmetic] in
/-- Whoever takes part and is not among those that failed has come
    through. -/
theorem Tally.through (h : Tally c v s kept r) {t : AgentTask}
    (ht : t ∈ s.tasks) (hfine : t.agentId ∉ r.failed.map (·.1)) :
    t.ending = some .returned := by
  obtain ⟨e, he⟩ := Option.isSome_iff_exists.1 (h.settled t ht)
  cases e with
  | returned => exact he
  | killed => exact absurd he (h.unkilled t ht)
  | failed f =>
      refine absurd ?_ hfine
      rw [h.failed]
      refine List.mem_map.2 ⟨(t.agentId, f.message), ?_, rfl⟩
      exact List.mem_filterMap.2 ⟨t, ht, by rw [failure?, he]⟩

theorem resultNow_total (w : World) (s : Session) (reached : List String) :
    (w.resultNow s reached).totalAgents = s.cast.length :=
  congrArg Int.ofNat (List.length_map _).symm

/-- The result of a session that is scored when everybody has ended. -/
theorem tally_now {reached : List String} (hf : Flight w s)
    (hspared : w.isDoomed s = false) (hover : ∀ b ∈ s.ended, b = true)
    (hscore : w.scored c s = (v.agents, .ok reached)) :
    Tally c v s kept (w.resultNow s reached) := by
  obtain ⟨hreached, hagents⟩ := score_ok hscore
  have hsub : reached.Sublist s.cast := hreached ▸ List.filter_sublist
  have hlen : s.cast.length = s.tasks.length := List.length_map _
  have hstands : ∀ id, stands c.goal v.agents id = stands c.goal w.agents id :=
    fun id => stands_congr (fun a => by split <;> rfl) (hagents id)
  have hmem : ∀ id, id ∈ reached ↔ id ∈ s.cast
      ∧ id ∉ (s.tasks.filterMap failure?).map (·.1)
      ∧ stands c.goal v.agents id = true := by
    intro id
    rw [hreached, List.mem_filter, Bool.and_eq_true, hstands, lookup_isNone]
    rfl
  exact
    { settled := fun t ht => hover _ (List.mem_map_of_mem ht)
      unkilled := by
        intro t ht hkill
        have hdoomed := hf.killed t ht hkill
        rw [hspared] at hdoomed
        cases hdoomed
      failed := rfl
      known := by
        intro f hf
        obtain ⟨t, ht, hfail⟩ := List.mem_filterMap.1 hf
        have hid : f.1 = t.agentId := by
          unfold failure? at hfail
          split at hfail
          · exact (congrArg Prod.fst (Option.some.inj hfail)).symm
          · cases hfail
        rw [hid]
        exact List.mem_map_of_mem ht
      sublist := hsub
      reached := fun id hid _ => (hmem id).trans (and_iff_right hid)
      flagged := by
        intro id hid _
        have hid : id ∈ reached := hid
        obtain ⟨a, ha⟩ := stands_there (hstands id ▸ ((hmem id).1 hid).2.2)
        refine ⟨{ a with goalReached := .bool true }, ?_, rfl⟩
        rw [agent?, hagents id, ha, Option.map_some, if_pos hid]
      count := rfl
      total := resultNow_total w s reached
      bound := by
        show (reached.length : Int) ≤ (s.tasks.length : Int)
        have := hsub.length_le
        omega
      all := by
        show decide (0 < s.tasks.length ∧ reached.length = s.tasks.length)
          = true ↔ _
        rw [decide_eq_true_iff, ← hlen, List.length_pos_iff]
        exact and_congr_right fun _ =>
          ⟨hsub.eq_of_length, fun heq => congrArg List.length heq⟩ }

omit [Arithmetic] in
/-- A result stays true of a session whose agents are left alone. -/
theorem Tally.same (h : Tally c w s kept r) (htasks : s'.tasks = s.tasks)
    (hagents : ∀ id, kept id → v.agent? id = w.agent? id) :
    Tally c v s' kept r := by
  have hcast : s'.cast = s.cast := congrArg (List.map _) htasks
  refine ⟨htasks ▸ h.settled, htasks ▸ h.unkilled, htasks ▸ h.failed,
    hcast ▸ h.known,
    hcast ▸ h.sublist, fun id hid hkept => ?_, fun id hid hkept => ?_,
    h.count, hcast ▸ h.total, h.bound, hcast ▸ h.all⟩
  · have hstands : stands c.goal v.agents id = stands c.goal w.agents id :=
      stands_congr (f := fun a => a) (fun _ => rfl)
        ((hagents id hkept).trans Option.map_id'.symm)
    rw [hstands]
    exact h.reached id (hcast ▸ hid) hkept
  · rw [hagents id hkept]
    exact h.flagged id hid hkept

omit [Arithmetic] in
/-- Warnings are no part of what a result says about its session. -/
theorem Tally.warned (h : Tally c w s kept r)
    (warnings : List (String × List WarningReport)) :
    Tally c w s kept { r with warnings := warnings } :=
  ⟨h.settled, h.unkilled, h.failed, h.known, h.sublist, h.reached, h.flagged, h.count,
    h.total, h.bound, h.all⟩

/-! ## What a deed does to results and completions -/

/-- A deed that leaves the result of the session in flight alone, and records
    nothing. -/
structure Passes (w : World) (s : Session) (d : Deed) (v : World)
    (s' : Session) : Prop where
  idle : v.idle = false
  completed : v.completed = w.completed
  session : v.session = some s'
  call : s'.call = s.call
  result : s'.result = s.result
  fired : s'.completionFired = s.completionFired
  cast : s'.cast = s.cast
  /-- Once everybody has ended only the host changes agents. -/
  settled : (∀ t ∈ s.tasks, t.ending.isSome = true) → s'.tasks = s.tasks
    ∧ ∀ id, (∀ a, d ≠ .put id a) → v.agent? id = w.agent? id

/-- A deed that scores the session and sends its call to sleep in the
    handler. -/
structure Dozes (c : Coordinator) (w : World) (s : Session) (v : World)
    (reached : List String) : Prop where
  settled : ∀ b ∈ s.ended, b = true
  spared : w.isDoomed s = false
  fresh : Job.handled ∉ w.turns
  score : w.scored c s = (v.agents, .ok reached)
  all : (w.resultNow s reached).allReached = true
  there : c.handler ≠ .absent
  idle : v.idle = false
  completed : v.completed = w.completed
  session : ∃ handling, v.session = some { s with
    running := false, result := some (w.resultNow s reached)
    completionFired := true, handling := handling }

omit [Arithmetic] in
/-- An agent that the host puts somewhere is none of the others. -/
theorem agent?_put {id name : String} {a : Agent} (h : id ≠ name) :
    (w.setAgent name a).agent? id = w.agent? id := by
  unfold agent? setAgent
  rw [lookup_keep (fun b => by split <;> simp_all)]
  simp [h]

omit [Arithmetic] in
/-- A change of one part changes nobody's name. -/
theorem cast_modify {i : Nat} {f : AgentTask → AgentTask}
    (h : s'.tasks = s.tasks.modify i f)
    (hf : ∀ t, (f t).agentId = t.agentId) : s'.cast = s.cast := by
  refine List.ext_getElem? fun k => ?_
  simp only [Session.cast, h, List.getElem?_map, List.getElem?_modify]
  cases s.tasks[k]? with
  | none => simp
  | some t => by_cases hik : i = k <;> simp [hik, hf]

/-- Every deed leaves the result of the session in flight alone, or scores
    the session and lets its call sleep in the handler, or ends the call. -/
theorem Moves.sorts {d : Deed} (h : Moves c w s d v)
    (hses : w.session = some s) (hidle : w.idle = false) :
    (∃ s', Passes w s d v s') ∨ (∃ reached, Dozes c w s v reached)
      ∨ ∃ e x, (∀ b ∈ s.ended, b = true) ∧ Parting c w s e x
        ∧ v = x.leave s.call e := by
  -- nobody's part changes while everybody has ended
  have hopen : ∀ {i : Nat} {t : AgentTask}, s.tasks[i]? = some t →
      t.ending = none → ¬ ∀ t ∈ s.tasks, t.ending.isSome = true := by
    intro i t ht hend hall
    have := hall t (List.mem_of_getElem? ht)
    rw [hend] at this
    cases this
  cases h with
  | @stays _ _ k _ hk hs _ =>
      exact .inl ⟨_, hk.idle, hk.completed, hs, rfl, rfl, rfl, rfl,
        fun _ => ⟨rfl, fun id _ => by rw [agent?, hk.agents]; rfl⟩⟩
  | lowers hk hs =>
      exact .inl ⟨_, hk.idle, hk.completed, hs, rfl, rfl, rfl, rfl,
        fun _ => ⟨rfl, fun id _ => by rw [agent?, hk.agents]; rfl⟩⟩
  | @puts name a =>
      refine .inl ⟨s, hidle, rfl, hses, rfl, rfl, rfl, rfl,
        fun _ => ⟨rfl, fun id hid => ?_⟩⟩
      have hne : id ≠ name := by
        rintro rfl
        exact hid a rfl
      exact agent?_put hne
  | dooms hk hs =>
      refine .inl ⟨_, hk.idle, hk.completed, hs, rfl, rfl, rfl, ?_,
        fun hall => ⟨by rw [doomFirst_ended hall],
          fun id _ => by rw [agent?, hk.agents]; rfl⟩⟩
      have hdoom : ∀ t, (doom t).agentId = t.agentId := by
        intro t
        unfold doom
        split <;> rfl
      simp only [Session.cast, doomFirst_all, List.map_map]
      exact List.map_congr_left fun t _ => hdoom t
  | acts _ ht _ hend _ _ _ _ _ _ hcomp hi hs =>
      exact .inl ⟨_, hi, hcomp, hs, rfl, rfl, rfl,
        cast_modify rfl fun _ => rfl, fun hall => absurd hall (hopen ht hend)⟩
  | attends _ ht _ hend _ _ hk hs =>
      exact .inl ⟨_, hk.idle, hk.completed, hs, rfl, rfl, rfl,
        cast_modify rfl fun _ => rfl, fun hall => absurd hall (hopen ht hend)⟩
  | stumbles _ ht _ hend _ _ _ hk hs =>
      exact .inl ⟨_, hk.idle, hk.completed, hs, rfl, rfl, rfl,
        cast_modify rfl fun _ => rfl, fun hall => absurd hall (hopen ht hend)⟩
  | setsOut ht _ hend _ _ hk hs =>
      exact .inl ⟨_, hk.idle, hk.completed, hs, rfl, rfl, rfl,
        cast_modify rfl fun _ => rfl, fun hall => absurd hall (hopen ht hend)⟩
  | dies ht hend _ hk hs =>
      exact .inl ⟨_, hk.idle, hk.completed, hs, rfl, rfl, rfl,
        cast_modify rfl fun _ => rfl, fun hall => absurd hall (hopen ht hend)⟩
  | dozes hover hspared hnone hscore ha _ hcomp hi hs hall hthere =>
      exact .inr (.inl ⟨_, hover, hspared, hnone, ha ▸ hscore, hall,
        by rw [hthere]; nofun, hi, hcomp, _, hs⟩)
  | drowses _ _ _ _ _ _ hk hs =>
      exact .inl ⟨_, hk.idle, hk.completed, hs, rfl, rfl, rfl, rfl,
        fun _ => ⟨rfl, fun id _ => by rw [agent?, hk.agents]; rfl⟩⟩
  | leaves hover _ _ _ _ _ _ _ _ hparts =>
      obtain ⟨x, hp, hv⟩ := hparts
      exact .inr (.inr ⟨_, x, hover, hp, hv⟩)

omit [Arithmetic] in
/-- What is announced of a result says what the result says. -/
theorem completionOf_eq (h : r.totalAgents = s.cast.length) :
    completionOf s r = r.completion := by
  have hlen : s.cast.length = s.tasks.length := List.length_map _
  unfold completionOf SessionResult.completion
  rw [h, hlen]
  rfl

/-- A session in flight has a result only while its call sleeps in the
    handler, and then all have reached the goal. -/
theorem Reachable.dozing (h : Reachable c w) (hidle : w.idle = false)
    (hses : w.session = some s) (hr : s.result = some r) :
    r.allReached = true ∧ c.handler ≠ .absent
      ∧ r.totalAgents = s.cast.length := by
  refine h.flights (P := fun u s => u.idle = false → ∀ r,
    s.result = some r → r.allReached = true ∧ c.handler ≠ .absent
      ∧ r.totalAgents = s.cast.length) ?_ ?_ hidle hses hidle r hr
  · intro u v n cast programs warnings _ r hr
    cases hr
  · intro u d s s' _ _ hs hi hP hs' hmoves hi' r hr
    rcases hmoves.sorts hs hi with ⟨s'', hp⟩ | ⟨reached, hd⟩ |
      ⟨e, x, -, -, heq⟩
    · rw [hp.session] at hs'
      obtain rfl := Option.some.inj hs'
      rw [hp.cast]
      exact hP hi r (hp.result ▸ hr)
    · obtain ⟨handling, hs''⟩ := hd.session
      obtain rfl := Option.mem_unique hs' hs''
      obtain rfl := Option.some.inj hr
      exact ⟨hd.all, hd.there, resultNow_total u s reached⟩
    · rw [heq] at hi'
      cases hi'

/-- Something recorded by the handler: everybody in the session in flight has
    ended, all have reached the goal, and the call is about to return the
    result that is announced. -/
structure Records (w v : World) (s : Session) (r : SessionResult)
    (x : World) : Prop where
  flying : w.idle = false
  session : w.session = some s
  settled : ∀ t ∈ s.tasks, t.ending.isSome = true
  returns : v = x.leave s.call (.returned r)
  opened : x.isOpen s.call = true
  all : r.allReached = true
  recorded : x.completed = ⟨w.now, r.completion⟩ :: w.completed

/-- The handler records nothing, or it records what is announced of the
    result of the session in flight before the call returns this result. -/
theorem Reachable.records (h : Reachable c w) (d : Deed) :
    (w.after c d).completed = w.completed
      ∨ ∃ s r x, Records w (w.after c d) s r x := by
  have ho := h.orderly
  cases hidle : w.idle with
  | true => exact .inl (ho.untouched hidle (d := d)).1.completed
  | false =>
      obtain ⟨s, hs, hfl⟩ := ho.flying hidle
      rcases (ho.moves (c := c) hidle hs d).sorts hs hidle with
        ⟨s', hp⟩ | ⟨reached, hd⟩ | ⟨e, x, hover, hp, heq⟩
      · exact .inl hp.completed
      · exact .inl hd.completed
      · have hsettled : ∀ t ∈ s.tasks, t.ending.isSome = true :=
          fun t ht => hover _ (List.mem_map_of_mem ht)
        rw [heq]
        cases hp with
        | killed _ _ _ hcomp => exact .inl hcomp
        | unscored _ _ _ hcomp => exact .inl hcomp
        | untimed _ _ hcomp => exact .inl hcomp
        | missed _ _ _ _ _ _ hcomp => exact .inl hcomp
        | announced _ _ _ hall _ hcalls hcomp =>
            rcases hcomp with ⟨-, hcomp⟩ | ⟨-, hcomp⟩
            · exact .inl hcomp
            · refine .inr ⟨s, _, x, hidle, hs, hsettled, rfl, ?_, hall, ?_⟩
              · exact (isOpen_congr hcalls _).trans hfl.call
              · rw [hcomp, completionOf_eq (resultNow_total w s _)]
                rfl
        | handled hr _ hcalls _ hcomp =>
            obtain ⟨hall, -, htotal⟩ := h.dozing hidle hs hr
            refine .inr ⟨s, _, x, hidle, hs, hsettled, rfl, ?_, hall, ?_⟩
            · exact (isOpen_congr hcalls _).trans hfl.call
            · rw [hcomp, completionOf_eq htotal]
              rfl

end World

end BlockStage
