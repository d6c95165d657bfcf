import BlockStage.Proofs.Session.Orderly
import BlockStage.Proofs.Session.Outcomes

/-! # Upkeep — orderly worlds stay orderly

    The event loop and the host are gone through part by part, from a
    signal of the agent who acts up to the deeds of a course.  Each part
    is one of the changes that the invariant is known to survive, and
    hence every reachable world is orderly. -/

namespace BlockStage

namespace World

variable {w v : World}

/-! ## The names of the agents -/

theorem names_setAgent (w : World) (id : String) (a : Agent) :
    (w.setAgent id a).names = w.names :=
  names_keep (fun b => by split <;> simp_all) w.agents

/-- Whoever is known by name is there. -/
theorem agent?_of_mem {id : String} (h : id ∈ w.names) :
    ∃ a, w.agent? id = some a := by
  obtain ⟨b, hb, rfl⟩ := List.mem_map.1 h
  cases hl : w.agents.lookup b.1 with
  | some a => exact ⟨a, hl⟩
  | none =>
      have := List.lookup_eq_none_iff.1 hl b hb
      simp at this

/-! ## The agent who acts -/

theorem Orderly.cancel (h : Orderly w) : Orderly w.cancel := by
  obtain ⟨lines, heq⟩ := cancel_spec w
  rw [heq]
  exact h.lasting .lower (fun _ h => h) rfl rfl rfl rfl rfl fun _ _ => rfl

/-- Who acts has a part in the session in flight. -/
theorem Orderly.actor (h : Orderly w) {i : Nat} (ha : w.active = some i) :
    ∃ s t walker a, w.idle = false ∧ w.session = some s
      ∧ s.tasks[i]? = some t ∧ t.walker = some walker ∧ t.ending = none
      ∧ w.task? i = some t ∧ w.agent? t.agentId = some a := by
  obtain ⟨hidle, s, t, walker, hses, htask, hwalk, hend⟩ := h.acting i ha
  obtain ⟨a, hagent⟩ := agent?_of_mem
    ((h.flight hidle hses).known t (List.mem_of_getElem? htask))
  exact ⟨s, t, walker, a, hidle, hses, htask, hwalk, hend,
    by simp [task?, hses, htask], hagent⟩

/-- The part of the agent who acts ends, by a kill only if it is doomed. -/
theorem Orderly.endTask {i : Nat} {e : AgentEnd} (h : Orderly w)
    (ha : w.active = some i)
    (he : e = .killed → ∀ t, w.task? i = some t → t.doomed = true) :
    Orderly (w.endTask i e) := by
  obtain ⟨s, t, -, -, hidle, hses, htask, -, hend, hget, -⟩ := h.actor ha
  refine h.ends (i := i) (e := e) (s := s)
    (f := fun t => { t with showing := none, ending := some e }) hidle hses
    (turns_active ha) (fun _ => rfl) (fun _ => rfl) (fun hk => ?_) ?_ rfl rfl
    rfl rfl ?_
  · rw [← (h.flight hidle hses).doomed t (List.mem_of_getElem? htask)
      (by rw [hend]; rfl)]
    exact he hk t hget
  · simp [World.endTask, withTask, withSession, enqueue, hses]
  · rw [World.endTask, turns_enqueue]
    rfl

/-- The agent who acts fails. -/
theorem Orderly.failTask {i : Nat} {id : String} {f : RunFault}
    (h : Orderly w) (ha : w.active = some i) :
    Orderly (w.failTask i id f) :=
  Orderly.endTask (w := w.report .error _)
    (h.congr rfl rfl rfl rfl rfl fun _ _ => rfl) ha nofun

/-- The agent who acts comes to the end of its part. -/
theorem Orderly.comeThrough {i : Nat} {t : AgentTask} (h : Orderly w)
    (ha : w.active = some i)
    (ht : ∀ u, w.task? i = some u → u.doomed = t.doomed) :
    Orderly (w.comeThrough i t) := by
  refine h.endTask ha fun hk u hu => ?_
  rw [ht u hu]
  cases hdoom : t.doomed with
  | true => rfl
  | false =>
      rw [hdoom] at hk
      cases hk

/-- What is left for the observer of the agent who acts changes. -/
theorem Orderly.shows {i : Nat} {showing : Option Errand} (h : Orderly w)
    (ha : w.active = some i) :
    Orderly (w.withTask i fun t => { t with showing := showing }) := by
  obtain ⟨s, t, walker, a, hidle, hses, htask, hwalk, hend, -⟩ := h.actor ha
  refine h.alters (i := i) (s := s) (t := t)
    (f := fun t => { t with showing := showing }) hidle hses htask hend
    (fun _ => rfl) (fun _ => rfl) (fun _ => rfl) ?_ rfl rfl
    (.inr ⟨ha, walker, hwalk⟩) rfl rfl
  simp [withTask, withSession, hses]

theorem Orderly.exhibit {c : Coordinator} (h : Orderly w)
    (snapshot : Snapshot) : Orderly (w.exhibit c snapshot) := by
  obtain ⟨lines, heq⟩ := exhibit_spec c w snapshot
  rw [heq]
  have hlasting : Lasting fun s => { s with
      running := s.running
        && !(c.observer.reaction (w.shown.length + 1)).stops } :=
    ⟨fun _ => rfl, fun _ => rfl, fun _ => rfl, fun _ hs => hs,
      fun _ hs => by simp [hs], fun _ hs => hs⟩
  exact h.lasting hlasting (fun _ h => h) rfl rfl rfl rfl rfl fun _ _ => rfl

/-! ## Turns -/

/-- The turn of an agent begins. -/
theorem Orderly.turnTask {i : Nat} {rest : List Job} {s : Session}
    {t : AgentTask} (h : Orderly w) (ha : w.active = none)
    (hround : w.round = .agent i :: rest) (hidle : w.idle = false)
    (hses : w.session = some s) (htask : s.tasks[i]? = some t)
    (hend : t.ending = none) :
    Orderly ({ w with round := rest }.turnTask c i t) := by
  have hturn := turns_round hround
  have hfl := h.flight hidle hses
  have hdoomed : t.doomed = w.isDoomed s :=
    hfl.doomed t (List.mem_of_getElem? htask) (by rw [hend]; rfl)
  have hends : ∀ e, (e = .killed → t.doomed = true) →
      Orderly ({ w with round := rest }.endTask i e) := by
    intro e hkill
    refine h.ends (i := i) (e := e) (s := s)
      (f := fun t => { t with showing := none, ending := some e }) hidle hses
      hturn (fun _ => rfl) (fun _ => rfl)
      (fun hk => hdoomed ▸ hkill hk) ?_ rfl rfl rfl rfl ?_
    · simp [World.endTask, withTask, withSession, enqueue, hses]
    · rw [World.endTask, turns_enqueue]
      exact congrArg _ (turns_congr ha.symm rfl rfl rfl)
  have hwakes : w.turns = { w with round := rest, active := some i }.turns := by
    rw [hturn, turns_active (w := { w with round := rest, active := some i })
      rfl]
    exact congrArg _ (turns_congr ha rfl rfl rfl)
  cases turnTask_cases c { w with round := rest } i t with
  | ended hover =>
      rw [hend] at hover
      cases hover
  | dies _ hwhy heq =>
      rw [heq]
      refine hends _ fun he => ?_
      rcases hwhy with ⟨hdoom, -⟩ | ⟨-, -, f, -, hfails⟩
      · exact hdoom
      · rw [hfails] at he
        cases he
  | @goesOn walker _ _ hwalk heq =>
      rw [heq]
      refine h.alters (i := i) (s := s) (t := t) (f := fun t => t) hidle hses
        htask hend (fun _ => rfl) (fun _ => rfl) (fun _ => rfl) ?_ rfl rfl
        (.inr ⟨rfl, walker, hwalk⟩) rfl hwakes.symm
      have hsame : s.tasks.modify i (fun t => t) = s.tasks :=
        List.modify_id i s.tasks
      rw [hsame]
      exact hses
  | setsOut _ _ _ _ heq =>
      rw [heq]
      refine h.alters (i := i) (s := s) (t := t)
        (f := fun t => { t with walker := some (.start t.program) })
        hidle hses htask hend (fun _ => rfl) (fun _ => rfl)
        (fun _ => rfl) ?_ rfl rfl (.inr ⟨rfl, _, rfl⟩) rfl hwakes.symm
      simp [withTask, withSession, hses]

/-! ## Calls that begin -/

/-- A call that has its first turn is there and open. -/
theorem Orderly.beginner {n : Nat} {rest : List Job} (h : Orderly w)
    (hround : w.round = .begin n :: rest) :
    ∃ call, w.calls[n]? = some call ∧ call.ending = none := by
  have hb := h.begins n
  rw [turns_round hround, show (Job.begin n).proper = .begin n from rfl,
    Multiset.count_cons_self] at hb
  have hopen : w.isOpen n = true := by
    by_contra hno
    simp [hno] at hb
  unfold isOpen at hopen
  cases hcall : w.calls[n]? with
  | none => simp [hcall] at hopen
  | some call => exact ⟨call, rfl, by simpa [hcall] using hopen⟩

/-- A call leaves and the coordinator is free. -/
theorem turns_leave (w : World) (n : Nat) (e : CallEnd) {j : Job}
    (hj : j.isWaiters = false) :
    (w.leave n e).turns.count j = w.turns.count j := by
  have hmove := turns_ready (w.endCall n e)
    (((List.range w.waiters.length).filter fun k =>
      w.waiters[k]? = some .waits).map .release)
  rw [show (w.leave n e).turns = _ from
    (turns_congr rfl rfl rfl rfl).trans hmove, Multiset.count_add]
  have hnone : (((List.range w.waiters.length).filter fun k =>
      w.waiters[k]? = some .waits).map Job.release |>.map Job.proper
        : Multiset Job).count j = 0 := by
    refine Multiset.count_eq_zero.2 fun hmem => ?_
    obtain ⟨k, hk, rfl⟩ := List.mem_map.1 (Multiset.mem_coe.1 hmem)
    obtain ⟨n, -, rfl⟩ := List.mem_map.1 hk
    cases hj
  rw [hnone, Nat.zero_add]
  rfl

/-- A call begins. -/
theorem Orderly.beginCall [Arithmetic] {c : Coordinator} {n : Nat}
    {call : Call} {rest : List Job} (h : Orderly w) (ha : w.active = none)
    (hround : w.round = .begin n :: rest)
    (hcall : w.calls[n]? = some call) :
    Orderly ({ w with round := rest }.beginCall c n call) := by
  have hturn := turns_round hround
  cases beginCall_cases c { w with round := rest } n call with
  | ends _ heq =>
      rw [heq]
      exact h.closes hturn rfl rfl rfl ha rfl rfl
  | passes _ _ hidle _ heq =>
      rw [heq]
      exact h.passes hturn hidle rfl rfl rfl rfl rfl rfl ha rfl
        fun j hj => turns_leave _ _ _ hj
  | opens hspared _ hidle hcast heq =>
      rw [heq]
      obtain ⟨hnodup, hknown⟩ := h.casts call (List.mem_of_getElem? hcall)
      refine h.launches (n := n) hturn hidle rfl ?_ rfl rfl ?_ ?_ ?_ rfl rfl
        rfl ha ?_ ?_
      · simpa [opened, freshTasks] using hcast
      · intro t ht
        obtain ⟨id, -, rfl⟩ := List.mem_map.1 ht
        exact ⟨rfl, rfl⟩
      · intro t ht
        obtain ⟨id, hid, rfl⟩ := List.mem_map.1 ht
        exact hknown id hid
      · simp only [isDoomed, opened, hcall, Option.map_some,
          Option.getD_some]
        exact hspared
      · simp only [names, List.map_map]
        refine List.map_congr_left fun a _ => ?_
        simp only [Function.comp_apply]
        split <;> rfl
      · have hmove := turns_ready { w with round := rest }
          ((List.range call.cast.length).map .agent)
        refine (turns_congr rfl rfl rfl rfl).trans (hmove.trans ?_)
        congr 1
        simp [launchTurns, opened, freshTasks, Job.proper, List.map_map,
          Function.comp_def]

/-! ## Who has a turn -/

/-- A turn of a session comes only while one is in flight. -/
theorem Orderly.inFlight {j : Job} {rest : List Job} (h : Orderly w)
    (hround : w.round = j :: rest) (hj : j.isSessions = true) :
    w.idle = false ∧ ∃ s, w.session = some s := by
  have hmem : j ∈ w.turns := by
    rw [turns_round hround]
    cases j <;> first | exact Multiset.mem_cons_self _ _ | cases hj
  have hidle : w.idle = false := by
    by_contra hidle
    have := (h.resting (by simpa using hidle)).1 j hj
    rw [Multiset.count_eq_zero] at this
    exact this hmem
  obtain ⟨s, hs, -⟩ := h.flying hidle
  exact ⟨hidle, s, hs⟩

/-- Whoever has a turn of an agent has not ended. -/
theorem Orderly.goesOn {i : Nat} {rest : List Job} (h : Orderly w)
    {s : Session} (hround : w.round = .agent i :: rest)
    (hidle : w.idle = false) (hses : w.session = some s) :
    ∃ t, s.tasks[i]? = some t ∧ t.ending = none := by
  have hone := (h.flight hidle hses).books.agents i
  rw [turns_round hround, show (Job.agent i).proper = .agent i from rfl,
    Multiset.count_cons_self] at hone
  have hover : s.ended[i]? = some false := by
    by_contra hne
    rw [if_neg hne] at hone
    omega
  simp only [Session.ended, List.getElem?_map] at hover
  cases htask : s.tasks[i]? with
  | none => simp [htask] at hover
  | some t => exact ⟨t, rfl, by simpa [htask] using hover⟩

/-! ## Calls that end -/

/-- The call of the session in flight takes its last turn. -/
theorem Orderly.leave {f : Session → Session} {j : Job} {rest : List Job}
    {e : CallEnd} (h : Orderly w) {s : Session} (ha : w.active = none)
    (hround : w.round = j :: rest) (hj : j = .join ∨ j = .handled)
    (hidle : w.idle = false) (hses : w.session = some s)
    (hf : Lasting f) (hdown : (f s).running = false)
    (hs : v.session = some (f s)) (hc : v.calls = w.calls)
    (hact : v.active = w.active) (hn : v.names = w.names)
    (ht : v.turns = { w with round := rest }.turns) :
    Orderly (v.leave s.call e) := by
  have hturn : w.turns = j ::ₘ { w with round := rest }.turns := by
    have := turns_round hround
    rcases hj with rfl | rfl <;> exact this
  refine h.leaves (s := s) (f := f) (j := j) (e := e) hidle hses hj hturn hf hdown
    hs rfl ?_ ?_ hn ?_
  · show v.calls.modify _ _ = _
    rw [hc]
  · exact hact.trans ha
  · intro k hk
    rw [turns_leave v s.call e hk, ht]

/-- One more end is noticed. -/
theorem Orderly.notice {rest : List Job} (h : Orderly w) {s : Session}
    (ha : w.active = none) (hround : w.round = .noticed :: rest)
    (hidle : w.idle = false) (hses : w.session = some s) :
    Orderly ({ w with round := rest }.notice s) := by
  rw [notice_spec]
  refine h.counts (s := s) hidle hses (turns_round hround)
    (by simp [hses]) rfl rfl ha rfl ?_
  refine (turns_ready { w with round := rest } _).trans ?_
  split <;> rfl

/-! ## Calls that are killed -/

/-- The host kills a call. -/
theorem Orderly.killCall (h : Orderly w) (n : Nat) :
    Orderly (w.killCall n) := by
  rcases h.killCall_spec n with ⟨-, heq⟩ | ⟨hopen, hcur, heq⟩ |
    ⟨s, timers, ready, hidle, hses, hcall, heq, hturns⟩
  · rw [heq]
    exact h
  · exact h.dooms (n := n) (by rw [heq]; rfl) hcur (by rw [heq]; rfl)
      (by rw [heq]; rfl) (by rw [heq]; rfl) (by rw [heq]; rfl)
      (by rw [heq]; rfl)
  · exact h.doomsSession (s := s) hidle hses (by rw [heq, hcall])
      (by rw [heq]) (by rw [heq]) (by rw [heq]) (by rw [heq]; rfl) hturns

variable [Arithmetic] {c : Coordinator}

/-! ## Signals -/

/-- The agent who acts gives up its turn. -/
theorem Orderly.suspend {i : Nat} {t : AgentTask} {seconds : Scalar}
    (h : Orderly w) (ha : w.active = some i) :
    Orderly (w.suspend i t seconds) := by
  have hturns : (w.suspend i t seconds).turns = w.turns := turns_suspend ha
  obtain ⟨timers, ready, heq⟩ := suspend_spec w i t seconds
  rw [heq] at hturns ⊢
  exact h.suspends rfl rfl rfl rfl rfl hturns

/-- The agent who acts is observed. -/
theorem Orderly.observe {i : Nat} {id : String} {a : Agent}
    (h : Orderly w) (ha : w.active = some i) :
    Orderly (w.observe c i id a) := by
  cases observe_cases c w i id a with
  | unseen _ heq =>
      rw [heq]
      exact h
  | unshown _ _ heq =>
      rw [heq]
      exact h.failTask ha
  | @exhibited snapshot _ _ heq =>
      have hact : (w.exhibit c snapshot).active = some i := by
        obtain ⟨lines, heq⟩ := exhibit_spec c w snapshot
        rw [heq]
        exact ha
      rw [heq]
      exact (h.exhibit _).shows hact

/-- The observer goes on with a snapshot of the agent who acts. -/
theorem Orderly.attend {i : Nat} {t : AgentTask} {e : Errand}
    (h : Orderly w) (ha : w.active = some i) :
    Orderly (w.attend i t e) := by
  cases attend_cases w i t e with
  | rests _ heq =>
      rw [heq]
      exact (h.shows ha).suspend ha
  | done _ _ heq =>
      rw [heq]
      exact h.shows ha
  | fails _ _ heq =>
      rw [heq]
      exact (h.shows ha).failTask ha

/-- A signal of the agent who acts is answered. -/
theorem Orderly.answer {i : Nat} {t : AgentTask} {a : Agent}
    {signal : Signal} (h : Orderly w) (ha : w.active = some i)
    (ht : ∀ u, w.task? i = some u → u.doomed = t.doomed) :
    Orderly (w.answer c i t a signal) := by
  cases signal with
  | proceed => exact h
  | emit => exact h.observe ha
  | sleep seconds => exact h.suspend ha
  | finish => exact h.comeThrough ha ht
  | halt => exact h.comeThrough ha ht
  | fail f => exact h.failTask ha

/-- The agent who acts does one act. -/
theorem Orderly.actTask {i : Nat} {s : Session} {t : AgentTask} {a : Agent}
    (h : Orderly w) (ha : w.active = some i) (hses : w.session = some s)
    (htask : s.tasks[i]? = some t) : Orderly (w.actTask c i t a) := by
  obtain ⟨s', t', walker, -, hidle, hses', htask', hwalk, hend, -⟩ :=
    h.actor ha
  rw [hses] at hses'
  cases hses'
  rw [htask] at htask'
  cases htask'
  simp only [World.actTask, hwalk]
  generalize walker.step (scene c) w.now w.isRunning a = next
  refine Orderly.answer ?_ (i := i) ha fun u hu => ?_
  · refine h.alters (i := i) (s := s) (t := t)
      (f := fun t => { t with walker := some next.walker }) hidle hses htask
      hend (fun _ => rfl) (fun _ => rfl) (fun _ => rfl) ?_ rfl rfl
      (.inr ⟨ha, _, rfl⟩) (names_setAgent w _ _) rfl
    simp [withTask, withSession, setAgent, hses]
  · have hmine : ({ (w.setAgent t.agentId next.agent).withTask i
        (fun t => { t with walker := some next.walker }) with
        reported := next.log.reverse ++ w.reported }).task? i
        = some { t with walker := some next.walker } := by
      simp [task?, withTask, withSession, setAgent, hses, htask]
    obtain rfl := Option.mem_unique hmine hu
    rfl

/-! ## The join -/

/-- The handler goes on, and the call waits for it or leaves. -/
theorem Orderly.handle {f : Session → Session} {j : Job} {rest : List Job}
    {e : Errand} (h : Orderly w) {s : Session} {r : SessionResult}
    (ha : w.active = none) (hround : w.round = j :: rest)
    (hj : j = .join ∨ j = .handled) (hidle : w.idle = false)
    (hses : w.session = some s) (hf : Lasting f)
    (hdown : (f s).running = false) (hresult : (f s).result.isSome = true)
    (hs : v.session = some (f s)) (hi : v.idle = w.idle)
    (hc : v.calls = w.calls) (hact : v.active = w.active)
    (hn : v.names = w.names) (ht : v.turns = { w with round := rest }.turns) :
    Orderly (v.handle s r e) := by
  have hturn : w.turns = j ::ₘ { w with round := rest }.turns := by
    have := turns_round hround
    rcases hj with rfl | rfl <;> exact this
  rcases handle_spec v s r e with
    ⟨-, lines, heq⟩ | ⟨seconds, rests, -, heq⟩
  · have hdone : Lasting fun s => { f s with
        result := some { r with warnings := s.warnings } } :=
      ⟨hf.call, hf.tasks, hf.joined, fun _ _ => rfl, hf.running, hf.handling⟩
    rw [heq]
    exact h.leave ha hround hj hidle hses hdone hdown
      (by simp [withSession, World.record, hs]) hc hact hn ht
  · have hwaits : Lasting fun s => { f s with
        handling := some { e with rests := rests } } :=
      ⟨hf.call, hf.tasks, hf.joined, hf.result, hf.running, fun _ _ => rfl⟩
    rw [heq]
    generalize hu : (v.withSession fun s =>
      { s with handling := some { e with rests := rests } }) = u
    have hturns := turns_sleep u seconds .handled
    obtain ⟨timers, ready, heq⟩ := sleep_spec u seconds .handled
    rw [heq] at hturns ⊢
    subst hu
    refine h.dozes (s := s) hidle hses hj hturn hwaits hresult hdown rfl ?_
      hi hc (hact.trans ha) hn (hturns.trans ?_)
    · simp [withSession, hs]
    · exact congrArg _ ht

/-- The completion is announced, and the handler sets out on it. -/
theorem Orderly.announce {f : Session → Session} {rest : List Job}
    (h : Orderly w) {s : Session} {r : SessionResult}
    (ha : w.active = none) (hround : w.round = .join :: rest)
    (hidle : w.idle = false) (hses : w.session = some s)
    (hf : Lasting f) (hdown : (f s).running = false)
    (hresult : (f s).result.isSome = true)
    (hs : v.session = some (f s)) (hi : v.idle = w.idle)
    (hc : v.calls = w.calls) (hact : v.active = w.active)
    (hn : v.names = w.names) (ht : v.turns = { w with round := rest }.turns) :
    Orderly (v.announce c s r) := by
  have hfired : Lasting fun s => { f s with completionFired := true } :=
    ⟨hf.call, hf.tasks, hf.joined, hf.result, hf.running, hf.handling⟩
  unfold World.announce
  simp only
  split
  · exact h.leave ha hround (.inl rfl) hidle hses hfired hdown
      (by simp [withSession, hs]) hc hact hn ht
  · split
    · have hdone : Lasting fun s => { f s with
          completionFired := true
          result := some { r with warnings := s.warnings } } :=
        ⟨hf.call, hf.tasks, hf.joined, fun _ _ => rfl, hf.running,
          hf.handling⟩
      exact h.leave ha hround (.inl rfl) hidle hses hdone hdown
        (by simp [withSession, report, hs]) hc hact hn ht
    · exact h.handle ha hround (.inl rfl) hidle hses hfired hdown hresult
        (by simp [withSession, report, hs]) hi hc hact hn ht

/-- The handler wakes up. -/
theorem Orderly.handled {rest : List Job} (h : Orderly w) {s : Session}
    (ha : w.active = none) (hround : w.round = .handled :: rest)
    (hidle : w.idle = false) (hses : w.session = some s) :
    Orderly ({ w with round := rest }.handled s) := by
  have hmem : Job.handled ∈ w.turns := by
    rw [turns_round hround]
    exact Multiset.mem_cons_self _ _
  obtain ⟨hresult, hdown, hhandling⟩ := (h.flight hidle hses).scored hmem
  unfold World.handled
  split
  · exact h.leave ha hround (.inr rfl) hidle hses .id hdown hses rfl rfl rfl
      rfl
  · split
    · exact h.handle ha hround (.inr rfl) hidle hses .id hdown hresult hses
        rfl rfl rfl rfl rfl
    · rename_i hnone
      obtain ⟨r, hr⟩ := Option.isSome_iff_exists.1 hresult
      obtain ⟨e, he⟩ := Option.isSome_iff_exists.1 hhandling
      exact absurd he (hnone r e hr)

/-- The call goes on after the join. -/
theorem Orderly.afterJoin {rest : List Job} (h : Orderly w) {s : Session}
    (ha : w.active = none) (hround : w.round = .join :: rest)
    (hidle : w.idle = false) (hses : w.session = some s) :
    Orderly ({ w with round := rest }.afterJoin c s) := by
  unfold World.afterJoin
  simp only
  have hnames := score_names c.goal (s.tasks.filterMap failure?)
    (s.tasks.map (·.agentId)) w.agents
  split
  · rename_i agents f hscore
    rw [show (({ w with round := rest } : World).withSession fun s =>
      { s with running := false }).agents = w.agents from rfl] at hscore
    rw [hscore] at hnames
    exact h.leave ha hround (.inl rfl) hidle hses .lower rfl
      (by simp [withSession, hses]) rfl rfl hnames rfl
  · rename_i agents reached hscore
    rw [show (({ w with round := rest } : World).withSession fun s =>
      { s with running := false }).agents = w.agents from rfl] at hscore
    rw [hscore] at hnames
    generalize resultOf s reached _ _ _ = r
    have hresult : Lasting fun s => { s with
        running := false, result := some r } :=
      ⟨fun _ => rfl, fun _ => rfl, fun _ => rfl, fun _ _ => rfl,
        fun _ _ => rfl, fun _ hs => hs⟩
    have hdone : Lasting fun s => { s with
        running := false, result := some { r with warnings := s.warnings } } :=
      ⟨fun _ => rfl, fun _ => rfl, fun _ => rfl, fun _ _ => rfl,
        fun _ _ => rfl, fun _ hs => hs⟩
    split
    · exact h.announce ha hround hidle hses hresult rfl rfl
        (by simp [withSession, report, hses]) rfl rfl rfl hnames rfl
    · exact h.leave ha hround (.inl rfl) hidle hses hdone rfl
        (by simp [withSession, report, hses]) rfl rfl hnames rfl

/-- The join wakes the call. -/
theorem Orderly.join {rest : List Job} (h : Orderly w) {s : Session}
    (ha : w.active = none) (hround : w.round = .join :: rest)
    (hidle : w.idle = false) (hses : w.session = some s) :
    Orderly ({ w with round := rest }.join c s) := by
  unfold World.join
  split
  · exact h.leave ha hround (.inl rfl) hidle hses .lower rfl
      (by simp [withSession, report, hses]) rfl rfl rfl rfl
  · exact h.afterJoin ha hround hidle hses

/-! ## The event loop -/

/-- The first turn of the round is taken. -/
theorem Orderly.runJob {j : Job} {rest : List Job} (h : Orderly w)
    (ha : w.active = none) (hround : w.round = j :: rest) :
    Orderly ({ w with round := rest }.runJob c j) := by
  have hturn := turns_round hround
  have hwaiter : ∀ u : World, j.isWaiters = true → u.session = w.session →
      u.idle = w.idle → u.calls = w.calls → u.active = w.active →
      u.names = w.names → u.turns = { w with round := rest }.turns →
      Orderly u := by
    intro u hj hs hi hc hact hn ht
    refine h.congr hs hi hc hact hn fun k hk => ?_
    rw [ht, hturn, Multiset.count_cons_of_ne]
    cases j with
    | ask n => rintro rfl; cases hk
    | release n => rintro rfl; cases hk
    | _ => cases hj
  cases j with
  | begin n =>
      obtain ⟨call, hcall, -⟩ := h.beginner hround
      rw [runJob_begin (w := { w with round := rest }) hcall]
      exact h.beginCall ha hround hcall
  | agent i =>
      obtain ⟨hidle, s, hses⟩ := h.inFlight hround rfl
      obtain ⟨t, htask, hend⟩ := h.goesOn hround hidle hses
      have hget : ({ w with round := rest } : World).task? i = some t := by
        simp [task?, hses, htask]
      rw [runJob_agent hget]
      exact h.turnTask ha hround hidle hses htask hend
  | noticed =>
      obtain ⟨hidle, s, hses⟩ := h.inFlight hround rfl
      rw [runJob_noticed (w := { w with round := rest }) hses]
      exact h.notice ha hround hidle hses
  | join =>
      obtain ⟨hidle, s, hses⟩ := h.inFlight hround rfl
      rw [runJob_join (w := { w with round := rest }) hses]
      exact h.join ha hround hidle hses
  | handled =>
      obtain ⟨hidle, s, hses⟩ := h.inFlight hround rfl
      rw [runJob_handled (w := { w with round := rest }) hses]
      exact h.handled ha hround hidle hses
  | ask k => exact hwaiter _ rfl rfl rfl rfl rfl rfl rfl
  | release k => exact hwaiter _ rfl rfl rfl rfl rfl rfl rfl
  | wake sleeper =>
      refine h.congr rfl rfl rfl rfl rfl fun k _ => ?_
      rw [show (({ w with round := rest } : World).runJob c
        (.wake sleeper)).turns = _ from turns_enqueue _ sleeper, hturn]
      rfl

/-- The event loop keeps worlds orderly. -/
theorem Orderly.step (h : Orderly w) : Orderly (w.step c) := by
  cases ha : w.active with
  | some i =>
      obtain ⟨s, t, walker, a, hidle, hses, htask, -, -, hget, hagent⟩ :=
        h.actor ha
      cases hshow : t.showing with
      | none =>
          rw [step_act ha hget hshow hagent]
          exact h.actTask ha hses htask
      | some e =>
          rw [step_attend ha hget hshow]
          exact h.attend ha
  | none =>
      cases hround : w.round with
      | cons j rest =>
          rw [step_turn ha hround]
          exact h.runJob ha hround
      | nil =>
          rw [step_round ha hround]
          exact h.congr rfl rfl rfl rfl rfl fun _ _ => by
            rw [turns_nextRound hround]

/-! ## Deeds -/

/-- Every deed keeps worlds orderly. -/
theorem Orderly.after {d : Deed} (h : Orderly w) (hd : w.Admits d) :
    Orderly (w.after c d) := by
  cases d with
  | turn => exact h.step
  | elapse t => exact h.congr rfl rfl rfl rfl rfl fun _ _ => rfl
  | call script cast =>
      obtain ⟨-, hnodup, hknown⟩ := hd
      exact h.calls rfl hnodup hknown rfl rfl rfl rfl rfl
        (turns_enqueue _ _)
  | awaitIdle =>
      refine h.congr rfl rfl rfl rfl rfl fun k hk => ?_
      rw [show (w.after c .awaitIdle).turns = _ from turns_enqueue _ _,
        Multiset.count_cons_of_ne]
      · rfl
      · rintro rfl
        cases hk
  | cancel => exact h.cancel
  | kill n => exact h.killCall n
  | put name a =>
      exact h.congr rfl rfl rfl rfl (names_setAgent w name a) fun _ _ => rfl

/-- Reachable worlds are orderly. -/
theorem Reachable.orderly (h : Reachable c w) : Orderly w := by
  obtain ⟨agents, ds, hcourse⟩ := h
  exact hcourse.keeps (.initial agents) fun u d hu hd _ => hu.after hd

end World

end BlockStage
