import BlockStage.Proofs.Session.Books

/-! # Orderly worlds — the invariant of the event loop

    A world is orderly if the books of the session in flight are balanced,
    if no turn of a session is left while none is in flight, and if exactly
    the calls that have neither begun nor ended have a first turn to come.
    This module says what each kind of change does to an orderly world; the
    next one goes through the event loop and the host with it. -/

namespace BlockStage

/-- Which agents of a session have ended. -/
def Session.ended (s : Session) : List Bool :=
  s.tasks.map (·.ending.isSome)

namespace World

/-- The names of all agents. -/
def names (w : World) : List String := w.agents.map (·.1)

/-- Whether a call was made and has not ended. -/
def isOpen (w : World) (n : Nat) : Bool :=
  (w.calls[n]?.map (·.ending.isNone)).getD false

/-- Whether a call was made and has ended. -/
def isShut (w : World) (n : Nat) : Bool :=
  (w.calls[n]?.map (·.ending.isSome)).getD false

/-- The call whose session is in flight. -/
def current (w : World) : Option Nat :=
  if w.idle then none else w.session.map (·.call)

/-- A session in flight, with its books in balance. -/
structure Flight (w : World) (s : Session) : Prop where
  /-- Its call has not ended. -/
  call : w.isOpen s.call = true
  /-- Everybody has one turn, and every end its notice. -/
  books : Balanced w.turns s.ended s.joined
  /-- Its agents are agents of this world. -/
  known : ∀ t ∈ s.tasks, t.agentId ∈ w.names
  /-- The call sleeps in its handler only with a result, with the flag down
      and with something left for the handler to do. -/
  scored : .handled ∈ w.turns →
    s.result.isSome = true ∧ s.running = false ∧ s.handling.isSome = true
  /-- The agents that have not ended are doomed with their call. -/
  doomed : ∀ t ∈ s.tasks, t.ending.isNone = true → t.doomed = w.isDoomed s
  /-- Agents are killed only with their call. -/
  killed : ∀ t ∈ s.tasks, t.ending = some .killed → w.isDoomed s = true
  /-- There is a result only while the call sleeps in its handler. -/
  fresh : s.result.isSome = true → .handled ∈ w.turns

/-- The invariant of the event loop. -/
structure Orderly (w : World) : Prop where
  /-- Calls send known agents onto the stage, each of them once. -/
  casts : ∀ call ∈ w.calls,
    call.cast.Nodup ∧ ∀ id ∈ call.cast, id ∈ w.names
  /-- Calls that have neither begun nor ended will begin. -/
  begins : ∀ n, w.turns.count (.begin n)
    = if w.isOpen n = true ∧ w.current ≠ some n then 1 else 0
  /-- Only an agent of a session in flight acts, until it has ended. -/
  acting : ∀ i, w.active = some i → w.idle = false
    ∧ ∃ s t walker, w.session = some s ∧ s.tasks[i]? = some t
      ∧ t.walker = some walker ∧ t.ending = none
  /-- While no session is in flight nothing of one is left. -/
  resting : w.idle = true →
    (∀ j, j.isSessions = true → w.turns.count j = 0)
      ∧ ∀ s, w.session = some s → (∀ b ∈ s.ended, b = true)
        ∧ s.running = false ∧ w.isShut s.call = true
  /-- A session in flight has its books in balance. -/
  flying : w.idle = false → ∃ s, w.session = some s ∧ Flight w s

/-- A world in which nothing has happened is orderly. -/
theorem Orderly.initial (agents : List (String × Agent)) :
    Orderly (.initial agents) where
  casts call h := by cases h
  begins n := by simp [turns, World.initial, isOpen]
  acting i h := by cases h
  resting _ := ⟨fun j _ => by simp [turns, World.initial],
    fun s h => by cases h⟩
  flying h := by cases h

variable {w v : World}

theorem isOpen_congr (h : v.calls = w.calls) (n : Nat) :
    v.isOpen n = w.isOpen n := by
  simp only [isOpen, h]

theorem isShut_congr (h : v.calls = w.calls) (n : Nat) :
    v.isShut n = w.isShut n := by
  simp only [isShut, h]

/-- No call is both open and shut. -/
theorem isOpen_of_isShut {n : Nat} (h : w.isShut n = true) :
    w.isOpen n = false := by
  unfold isShut at h
  unfold isOpen
  cases hcall : w.calls[n]? with
  | none => rfl
  | some c => simpa [hcall, ← Option.isNone_eq_false_iff] using h

theorem isDoomed_congr {s t : Session} (h : v.calls = w.calls)
    (hs : t.call = s.call) : v.isDoomed t = w.isDoomed s := by
  simp only [isDoomed, h, hs]

theorem current_congr {f : Session → Session} (hi : v.idle = w.idle)
    (hs : v.session = w.session.map f) (hf : ∀ s, (f s).call = s.call) :
    v.current = w.current := by
  simp only [current, hi, hs, Option.map_map]
  congr 2
  exact funext hf

/-- In an orderly world the session in flight is the one there is. -/
theorem Orderly.flight (h : Orderly w) {s : Session}
    (hi : w.idle = false) (hs : w.session = some s) : Flight w s := by
  obtain ⟨t, ht, hf⟩ := h.flying hi
  rw [hs] at ht
  cases ht
  exact hf

/-! ## Changes within a session -/

/-- A change of a session that leaves its agents and its count alone. -/
structure Lasting (f : Session → Session) : Prop where
  call : ∀ s, (f s).call = s.call
  tasks : ∀ s, (f s).tasks = s.tasks
  joined : ∀ s, (f s).joined = s.joined
  result : ∀ s, s.result.isSome = true → (f s).result.isSome = true
  running : ∀ s, s.running = false → (f s).running = false
  handling : ∀ s, s.handling.isSome = true →
    (f s).handling.isSome = true

/-- A session goes on if its parts are ones that it had before, as far as the
    invariant looks. -/
theorem Flight.goesOn {s s' : Session} (hf : Flight w s)
    (hopen : v.isOpen s'.call = true) (hdoom : v.isDoomed s' = w.isDoomed s)
    (hn : v.names = w.names)
    (hparts : ∀ t ∈ s'.tasks, ∃ u ∈ s.tasks, t.agentId = u.agentId
      ∧ t.ending = u.ending ∧ t.doomed = u.doomed)
    (hbooks : Balanced v.turns s'.ended s'.joined)
    (hscored : .handled ∈ v.turns → s'.result.isSome = true
      ∧ s'.running = false ∧ s'.handling.isSome = true)
    (hfresh : s'.result.isSome = true → .handled ∈ v.turns) :
    Flight v s' where
  call := hopen
  books := hbooks
  known t ht := by
    obtain ⟨u, hu, hid, -⟩ := hparts t ht
    rw [hn, hid]
    exact hf.known u hu
  scored := hscored
  doomed t ht hgoing := by
    obtain ⟨u, hu, -, hend, hsame⟩ := hparts t ht
    rw [hdoom, hsame]
    exact hf.doomed u hu (hend ▸ hgoing)
  killed t ht hkill := by
    obtain ⟨u, hu, -, hend, -⟩ := hparts t ht
    rw [hdoom]
    exact hf.killed u hu (hend ▸ hkill)
  fresh := hfresh

/-- A lasting change lets a session go on while its turns are the same. -/
theorem Flight.lasting {f : Session → Session} {s : Session}
    (hfl : Flight w s) (hf : Lasting f) (hopen : v.isOpen s.call = true)
    (hdoom : v.isDoomed s = w.isDoomed s) (hn : v.names = w.names)
    (hturns : ∀ j, j.isSessions = true → v.turns.count j = w.turns.count j)
    (hfresh : (f s).result.isSome = true → s.result.isSome = true) :
    Flight v (f s) := by
  have hhandled : .handled ∈ v.turns ↔ .handled ∈ w.turns := by
    rw [← Multiset.count_pos, ← Multiset.count_pos, hturns _ rfl]
  refine hfl.goesOn (by rw [hf.call]; exact hopen)
    ((isDoomed_congr rfl (hf.call s)).trans hdoom) hn ?_ ?_ ?_ ?_
  · rw [hf.tasks]
    exact fun t ht => ⟨t, ht, rfl, rfl, rfl⟩
  · simp only [Session.ended, hf.tasks, hf.joined]
    exact hfl.books.congr hturns
  · intro hmem
    obtain ⟨hresult, hdown, hhandling⟩ := hfl.scored (hhandled.1 hmem)
    exact ⟨hf.result s hresult, hf.running s hdown,
      hf.handling s hhandling⟩
  · exact fun hresult => hhandled.2 (hfl.fresh (hfresh hresult))

/-- The same calls and the same agents: casts are as they were. -/
theorem Orderly.casts_congr (h : Orderly w) (hc : v.calls = w.calls)
    (hn : v.names = w.names) :
    ∀ call ∈ v.calls, call.cast.Nodup ∧ ∀ id ∈ call.cast, id ∈ v.names := by
  rw [hc, hn]
  exact h.casts

/-- The session there is, in flight or over, keeps its turns and its call,
    and changes only in a lasting way: calls may be made, end or be doomed
    beside it. -/
theorem Orderly.keeps {f : Session → Session} (h : Orderly w)
    (hf : Lasting f)
    (hfresh : ∀ s, (f s).result.isSome = true → s.result.isSome = true)
    (hs : v.session = w.session.map f) (hi : v.idle = w.idle)
    (hn : v.names = w.names)
    (hcasts : ∀ call ∈ v.calls,
      call.cast.Nodup ∧ ∀ id ∈ call.cast, id ∈ v.names)
    (hbegins : ∀ n, v.turns.count (.begin n)
      = if v.isOpen n = true ∧ w.current ≠ some n then 1 else 0)
    (hact : ∀ i, v.active = some i → w.active = some i)
    (hturns : ∀ j, j.isSessions = true → v.turns.count j = w.turns.count j)
    (hshut : ∀ k, w.isShut k = true → v.isShut k = true)
    (hcall : ∀ s, w.idle = false → w.session = some s →
      v.isOpen s.call = true ∧ v.isDoomed s = w.isDoomed s) : Orderly v where
  casts := hcasts
  begins n := by
    rw [hbegins, current_congr hi hs hf.call]
  acting i hi' := by
    obtain ⟨hidle, s, t, walker, hses, htask, hrest⟩ := h.acting i (hact i hi')
    refine ⟨hi ▸ hidle, f s, t, walker, ?_, ?_, hrest⟩
    · rw [hs, hses]
      rfl
    · rw [hf.tasks]
      exact htask
  resting hidle := by
    obtain ⟨hnone, hover⟩ := h.resting (hi ▸ hidle)
    refine ⟨fun j hj => (hturns j hj).trans (hnone j hj), fun s hses => ?_⟩
    rw [hs] at hses
    obtain ⟨r, hr, rfl⟩ := Option.map_eq_some_iff.1 hses
    obtain ⟨hall, hdown, hover⟩ := hover r hr
    refine ⟨by simpa only [Session.ended, hf.tasks] using hall,
      hf.running r hdown, ?_⟩
    rw [hf.call]
    exact hshut _ hover
  flying hidle := by
    rw [hi] at hidle
    obtain ⟨s, hses, hfl⟩ := h.flying hidle
    obtain ⟨hopen, hdoom⟩ := hcall s hidle hses
    exact ⟨f s, by rw [hs, hses]; rfl,
      hfl.lasting hf hopen hdoom hn hturns (hfresh s)⟩

/-- A session in flight goes on, with turns of its own that may change: what
    is to be shown then is that it is still in flight, and who acts. -/
theorem Orderly.flies {s s' : Session} (h : Orderly w)
    (hidle : w.idle = false) (hses : w.session = some s)
    (hs : v.session = some s') (hcall : s'.call = s.call)
    (hi : v.idle = w.idle)
    (hcasts : ∀ call ∈ v.calls,
      call.cast.Nodup ∧ ∀ id ∈ call.cast, id ∈ v.names)
    (hopen : ∀ n, v.isOpen n = w.isOpen n)
    (hbegins : ∀ n, v.turns.count (.begin n) = w.turns.count (.begin n))
    (hacts : ∀ i, v.active = some i → ∃ t walker, s'.tasks[i]? = some t
      ∧ t.walker = some walker ∧ t.ending = none)
    (hf : Flight v s') : Orderly v where
  casts := hcasts
  begins n := by
    have hcur : v.current = w.current := by
      simp only [current, hi, hs, hses, hcall, Option.map_some]
    rw [hbegins, hopen, hcur]
    exact h.begins n
  acting i hact := by
    obtain ⟨t, walker, htask, hrest⟩ := hacts i hact
    exact ⟨hi ▸ hidle, s', t, walker, hs, htask, hrest⟩
  resting hrest := by
    rw [hi, hidle] at hrest
    cases hrest
  flying _ := ⟨s', hs, hf⟩

/-- A lasting change of the session, and of all that the invariant does not
    look at. -/
theorem Orderly.lasting {f : Session → Session} (h : Orderly w)
    (hf : Lasting f)
    (hfresh : ∀ s, (f s).result.isSome = true → s.result.isSome = true)
    (hs : v.session = w.session.map f)
    (hi : v.idle = w.idle) (hc : v.calls = w.calls)
    (ha : v.active = w.active) (hn : v.names = w.names)
    (ht : ∀ j, j.isWaiters = false → v.turns.count j = w.turns.count j) :
    Orderly v := by
  refine h.keeps hf hfresh hs hi hn (h.casts_congr hc hn) (fun n => ?_)
    (fun i hact => ha ▸ hact) (fun j hj => ?_) (fun k hk => ?_)
    (fun s hidle hses => ⟨?_, isDoomed_congr hc rfl⟩)
  · rw [ht _ rfl, isOpen_congr hc]
    exact h.begins n
  · exact ht j (by cases j <;> first | rfl | cases hj)
  · rw [isShut_congr hc]
    exact hk
  · rw [isOpen_congr hc]
    exact (h.flight hidle hses).call

theorem Lasting.id : Lasting fun s => s :=
  ⟨fun _ => rfl, fun _ => rfl, fun _ => rfl, fun _ h => h, fun _ h => h,
    fun _ h => h⟩

theorem Lasting.lower : Lasting fun s => { s with running := false } :=
  ⟨fun _ => rfl, fun _ => rfl, fun _ => rfl, fun _ h => h, fun _ _ => rfl,
    fun _ h => h⟩

/-- A change of what the invariant does not look at. -/
theorem Orderly.congr (h : Orderly w) (hs : v.session = w.session)
    (hi : v.idle = w.idle) (hc : v.calls = w.calls)
    (ha : v.active = w.active) (hn : v.names = w.names)
    (ht : ∀ j, j.isWaiters = false → v.turns.count j = w.turns.count j) :
    Orderly v :=
  h.lasting .id (fun _ h => h) (by rw [hs]; simp) hi hc ha hn ht

/-- The agent who acts stops for a while. -/
theorem Orderly.suspends (h : Orderly w) (hs : v.session = w.session)
    (hi : v.idle = w.idle) (hc : v.calls = w.calls)
    (ha : v.active = none) (hn : v.names = w.names)
    (ht : v.turns = w.turns) : Orderly v := by
  refine h.keeps .id (fun _ hr => hr) (by rw [hs]; simp) hi hn
    (h.casts_congr hc hn) (fun n => ?_) (fun i hact => ?_)
    (fun j _ => by rw [ht]) (fun k hk => ?_)
    (fun s hidle hses => ⟨?_, isDoomed_congr hc rfl⟩)
  · rw [ht, isOpen_congr hc]
    exact h.begins n
  · rw [ha] at hact
    cases hact
  · rw [isShut_congr hc]
    exact hk
  · rw [isOpen_congr hc]
    exact (h.flight hidle hses).call

/-! ## Changes of one agent's part -/

/-- The agents of a session after a change of one of them. -/
theorem mem_modify {tasks : List AgentTask} {i : Nat}
    {f : AgentTask → AgentTask} {t : AgentTask}
    (h : t ∈ tasks.modify i f) :
    t ∈ tasks ∨ ∃ u, tasks[i]? = some u ∧ t = f u := by
  obtain ⟨k, hk, rfl⟩ := List.mem_iff_getElem.1 h
  rw [List.length_modify] at hk
  rw [List.getElem_modify]
  split
  · rename_i hik
    subst hik
    exact Or.inr ⟨_, List.getElem?_eq_getElem hk, rfl⟩
  · exact Or.inl (List.getElem_mem hk)

/-- A task after a change of one of them. -/
theorem modify_getElem? {s : Session} {i j : Nat}
    {f : AgentTask → AgentTask} {t : AgentTask}
    (h : (s.tasks.modify i f)[j]? = some t) :
    (i = j ∧ ∃ u, s.tasks[j]? = some u ∧ t = f u)
      ∨ (i ≠ j ∧ s.tasks[j]? = some t) := by
  rw [List.getElem?_modify] at h
  by_cases hij : i = j
  · obtain ⟨u, hu, hf⟩ := Option.map_eq_some_iff.1 h
    exact .inl ⟨hij, u, hu, by rw [← hf, if_pos hij]⟩
  · obtain ⟨u, hu, hf⟩ := Option.map_eq_some_iff.1 h
    rw [if_neg hij] at hf
    exact .inr ⟨hij, hu.trans (congrArg some hf)⟩

/-- A change that ends nobody leaves the ends as they are. -/
theorem ended_modify {s : Session} {i : Nat} {f : AgentTask → AgentTask}
    (hf : ∀ t, (f t).ending = t.ending) :
    ({ s with tasks := s.tasks.modify i f }).ended = s.ended := by
  refine List.ext_getElem? fun k => ?_
  simp only [Session.ended, List.getElem?_map, List.getElem?_modify]
  cases s.tasks[k]? with
  | none => simp
  | some t => by_cases hik : i = k <;> simp [hik, hf]

/-- A change that ends an agent. -/
theorem ended_modify_end {s : Session} {i : Nat} {f : AgentTask → AgentTask}
    (hf : ∀ t, (f t).ending.isSome = true) :
    ({ s with tasks := s.tasks.modify i f }).ended = s.ended.set i true := by
  refine List.ext_getElem? fun k => ?_
  simp only [Session.ended, List.getElem?_map, List.getElem?_modify,
    List.getElem?_set, List.length_map]
  by_cases hik : i = k
  · subst hik
    by_cases hlt : i < s.tasks.length
    · simp [hlt, hf]
    · simp [hlt]
  · simp [hik]

/-- The part of an agent that goes on changes, and it may be the one who
    acts from now on, if it has set out. -/
theorem Orderly.alters {i : Nat} {f : AgentTask → AgentTask}
    (h : Orderly w) {s : Session} {t : AgentTask}
    (hidle : w.idle = false) (hses : w.session = some s)
    (htask : s.tasks[i]? = some t) (hend : t.ending = none)
    (hid : ∀ t, (f t).agentId = t.agentId)
    (hfend : ∀ t, (f t).ending = t.ending)
    (hfdoom : ∀ t, (f t).doomed = t.doomed)
    (hs : v.session = some { s with tasks := s.tasks.modify i f })
    (hi : v.idle = w.idle) (hc : v.calls = w.calls)
    (ha : v.active = none
      ∨ v.active = some i ∧ ∃ x, (f t).walker = some x)
    (hn : v.names = w.names) (ht : v.turns = w.turns) : Orderly v := by
  have hfl := h.flight hidle hses
  refine h.flies hidle hses hs rfl hi (h.casts_congr hc hn)
    (isOpen_congr hc) (fun n => by rw [ht]) (fun k hk => ?_) ?_
  · rcases ha with ha | ⟨ha, x, hwalk⟩
    · rw [ha] at hk
      cases hk
    · rw [ha] at hk
      cases hk
      refine ⟨f t, x, ?_, hwalk, (hfend t).trans hend⟩
      rw [List.getElem?_modify_eq, htask]
      rfl
  · refine hfl.goesOn ?_ (isDoomed_congr hc rfl) hn (fun u hu => ?_) ?_
      (ht ▸ hfl.scored) (ht ▸ hfl.fresh)
    · rw [isOpen_congr hc]
      exact hfl.call
    · rcases mem_modify hu with hu | ⟨u', hu', rfl⟩
      · exact ⟨u, hu, rfl, rfl, rfl⟩
      · exact ⟨u', List.mem_of_getElem? hu', hid u', hfend u', hfdoom u'⟩
    · rw [ht, ended_modify hfend]
      exact hfl.books

/-- An agent ends: its turn is used up and a notice is sent. -/
theorem Orderly.ends {i : Nat} {f : AgentTask → AgentTask} {e : AgentEnd}
    {rest : Multiset Job} (h : Orderly w) {s : Session}
    (hidle : w.idle = false) (hses : w.session = some s)
    (hturn : w.turns = .agent i ::ₘ rest)
    (hid : ∀ t, (f t).agentId = t.agentId)
    (hfend : ∀ t, (f t).ending = some e)
    (hkill : e = .killed → w.isDoomed s = true)
    (hs : v.session = some { s with tasks := s.tasks.modify i f })
    (hi : v.idle = w.idle) (hc : v.calls = w.calls)
    (ha : v.active = none) (hn : v.names = w.names)
    (ht : v.turns = .noticed ::ₘ rest) : Orderly v := by
  have hfl := h.flight hidle hses
  have hcount : ∀ j, j ≠ .agent i → j ≠ .noticed →
      v.turns.count j = w.turns.count j := by
    intro j hj hj'
    rw [ht, hturn, Multiset.count_cons_of_ne hj,
      Multiset.count_cons_of_ne hj']
  have hhandled : .handled ∈ v.turns ↔ .handled ∈ w.turns := by
    rw [← Multiset.count_pos, ← Multiset.count_pos,
      hcount _ (by simp) (by simp)]
  have hdoom : v.isDoomed { s with tasks := s.tasks.modify i f }
      = w.isDoomed s := isDoomed_congr hc rfl
  refine h.flies hidle hses hs rfl hi (h.casts_congr hc hn)
    (isOpen_congr hc) (fun n => hcount _ (by simp) (by simp))
    (fun k hk => by rw [ha] at hk; cases hk) ?_
  exact
    { call := by
        rw [isOpen_congr hc]
        exact hfl.call
      books := by
        have hb := hfl.books
        rw [hturn] at hb
        rw [ht, ended_modify_end (fun t => by rw [hfend]; rfl)]
        exact hb.ends
      known := by
        intro u hu
        rw [hn]
        rcases mem_modify hu with hu | ⟨u', hu', rfl⟩
        · exact hfl.known u hu
        · rw [hid]
          exact hfl.known u' (List.mem_of_getElem? hu')
      scored := fun hmem => hfl.scored (hhandled.1 hmem)
      doomed := by
        intro u hu hgoing
        rw [hdoom]
        rcases mem_modify hu with hu | ⟨u', hu', rfl⟩
        · exact hfl.doomed u hu hgoing
        · rw [hfend] at hgoing
          cases hgoing
      killed := by
        intro u hu hdead
        rw [hdoom]
        rcases mem_modify hu with hu | ⟨u', hu', rfl⟩
        · exact hfl.killed u hu hdead
        · rw [hfend] at hdead
          exact hkill (Option.some.inj hdead)
      fresh := fun hresult => hhandled.2 (hfl.fresh hresult) }

/-! ## The call after the join -/

/-- One more end is counted. -/
theorem Orderly.counts {rest : Multiset Job} (h : Orderly w) {s : Session}
    (hidle : w.idle = false) (hses : w.session = some s)
    (hturn : w.turns = .noticed ::ₘ rest)
    (hs : v.session = some { s with joined := s.joined + 1 })
    (hi : v.idle = w.idle) (hc : v.calls = w.calls)
    (ha : v.active = none) (hn : v.names = w.names)
    (ht : v.turns = if s.tasks.length ≤ s.joined + 1 then .join ::ₘ rest
      else rest) : Orderly v := by
  have hfl := h.flight hidle hses
  have hcount : ∀ j, j ≠ .noticed → j ≠ .join →
      v.turns.count j = w.turns.count j := by
    intro j hj hj'
    rw [ht, hturn, Multiset.count_cons_of_ne hj]
    split
    · rw [Multiset.count_cons_of_ne hj']
    · rfl
  have hhandled : .handled ∈ v.turns ↔ .handled ∈ w.turns := by
    rw [← Multiset.count_pos, ← Multiset.count_pos,
      hcount _ (by simp) (by simp)]
  refine h.flies hidle hses hs rfl hi (h.casts_congr hc hn)
    (isOpen_congr hc) (fun n => hcount _ (by simp) (by simp))
    (fun k hk => by rw [ha] at hk; cases hk) ?_
  refine hfl.goesOn ?_ (isDoomed_congr hc rfl) hn
    (fun u hu => ⟨u, hu, rfl, rfl, rfl⟩) ?_
    (fun hmem => hfl.scored (hhandled.1 hmem))
    (fun hresult => hhandled.2 (hfl.fresh hresult))
  · rw [isOpen_congr hc]
    exact hfl.call
  · -- the last notice wakes the call
    have hb := hfl.books
    have hlen : s.ended.length = s.tasks.length := List.length_map _
    rw [hturn] at hb
    rw [ht]
    split
    · exact hb.countedLast (by omega)
    · exact hb.counted (by omega)

/-- The call goes to sleep after the join. -/
theorem Orderly.dozes {f : Session → Session} {rest : Multiset Job}
    {j : Job} (h : Orderly w) {s : Session}
    (hidle : w.idle = false) (hses : w.session = some s)
    (hj : j = .join ∨ j = .handled) (hturn : w.turns = j ::ₘ rest)
    (hf : Lasting f) (hresult : (f s).result.isSome = true)
    (hdown : (f s).running = false)
    (hhandling : (f s).handling.isSome = true) (hs : v.session = some (f s))
    (hi : v.idle = w.idle) (hc : v.calls = w.calls)
    (ha : v.active = none) (hn : v.names = w.names)
    (ht : v.turns = .handled ::ₘ rest) : Orderly v := by
  have hfl := h.flight hidle hses
  refine h.flies hidle hses hs (hf.call s) hi (h.casts_congr hc hn)
    (isOpen_congr hc) (fun n => ?_)
    (fun k hk => by rw [ha] at hk; cases hk) ?_
  · rw [ht, hturn, Multiset.count_cons_of_ne (by simp),
      Multiset.count_cons_of_ne (by rcases hj with rfl | rfl <;> simp)]
  · refine hfl.goesOn ?_ (isDoomed_congr hc (hf.call s)) hn ?_ ?_
      (fun _ => ⟨hresult, hdown, hhandling⟩)
      (fun _ => ht ▸ Multiset.mem_cons_self _ _)
    · rw [isOpen_congr hc, hf.call]
      exact hfl.call
    · rw [hf.tasks]
      exact fun t ht => ⟨t, ht, rfl, rfl, rfl⟩
    · have hb := hfl.books
      rw [hturn] at hb
      rw [ht]
      simp only [Session.ended, hf.tasks, hf.joined]
      exact hb.sleeps hj

/-- Whether a call is open after the end of one. -/
theorem isOpen_end {n : Nat} {e : CallEnd}
    (hc : v.calls = w.calls.modify n fun c => { c with ending := some e })
    (k : Nat) : v.isOpen k = (decide (k ≠ n) && w.isOpen k) := by
  simp only [isOpen, hc, List.getElem?_modify]
  by_cases hk : k = n
  · subst hk
    cases w.calls[k]? <;> simp
  · cases w.calls[k]? <;> simp [hk, Ne.symm hk]

/-- A call is shut after its end. -/
theorem isShut_end {n : Nat} {e : CallEnd}
    (hc : v.calls = w.calls.modify n fun c => { c with ending := some e })
    (hopen : w.isOpen n = true) : v.isShut n = true := by
  simp only [isOpen] at hopen
  simp only [isShut, hc, List.getElem?_modify]
  cases hcall : w.calls[n]? with
  | none => simp [hcall] at hopen
  | some c => simp

/-- The end of a call shuts no other. -/
theorem isShut_mono {f : Call → Call} {n k : Nat}
    (hf : ∀ c, c.ending.isSome = true → (f c).ending.isSome = true)
    (hc : v.calls = w.calls.modify n f) (hk : w.isShut k = true) :
    v.isShut k = true := by
  simp only [isShut, hc, List.getElem?_modify] at hk ⊢
  cases hcall : w.calls[k]? with
  | none => simp [hcall] at hk
  | some c =>
      have hend : c.ending.isSome = true := by simpa [hcall] using hk
      by_cases hnk : n = k
      · simp [hnk, hf c hend]
      · simp [hnk, hend]

/-- The end of a call leaves the casts as they are. -/
theorem casts_modify {n : Nat} {f : Call → Call} (h : Orderly w)
    (hf : ∀ c, (f c).cast = c.cast) (hc : v.calls = w.calls.modify n f)
    (hn : v.names = w.names) :
    ∀ call ∈ v.calls, call.cast.Nodup ∧ ∀ id ∈ call.cast, id ∈ v.names := by
  intro call hcall
  rw [hn]
  rw [hc] at hcall
  obtain ⟨k, hk, rfl⟩ := List.mem_iff_getElem.1 hcall
  rw [List.length_modify] at hk
  rw [List.getElem_modify]
  have := h.casts _ (List.getElem_mem hk)
  split
  · rw [hf]
    exact this
  · exact this

/-- A change of one call dooms the session of no other. -/
theorem isDoomed_modify_ne {n : Nat} {f : Call → Call} {s : Session}
    (hc : v.calls = w.calls.modify n f) (hne : s.call ≠ n) :
    v.isDoomed s = w.isDoomed s := by
  simp only [isDoomed, hc, List.getElem?_modify, Ne.symm hne, if_false]
  cases w.calls[s.call]? <;> rfl

/-- The session in flight is one of the current call. -/
theorem call_ne_of_current_ne {n : Nat} {s : Session} (hidle : w.idle = false)
    (hses : w.session = some s) (hcur : w.current ≠ some n) :
    s.call ≠ n := by
  intro heq
  apply hcur
  simp [current, hidle, hses, heq]

/-- The session is over and the coordinator free. -/
theorem Orderly.leaves {f : Session → Session} {rest : Multiset Job}
    {j : Job} {e : CallEnd} (h : Orderly w) {s : Session}
    (hidle : w.idle = false) (hses : w.session = some s)
    (hj : j = .join ∨ j = .handled) (hturn : w.turns = j ::ₘ rest)
    (hf : Lasting f) (hdown : (f s).running = false)
    (hs : v.session = some (f s)) (hi : v.idle = true)
    (hc : v.calls = w.calls.modify s.call fun c => { c with ending := some e })
    (ha : v.active = none) (hn : v.names = w.names)
    (ht : ∀ j, j.isWaiters = false → v.turns.count j = rest.count j) :
    Orderly v where
  casts := casts_modify h (by intro _; rfl) hc hn
  begins n := by
    have hb := h.begins n
    rw [hturn, Multiset.count_cons_of_ne (by rcases hj with rfl | rfl <;> simp)]
      at hb
    have hbefore : w.current = some s.call := by
      simp [current, hidle, hses]
    have hafter : v.current = none := by simp [current, hi]
    rw [ht _ rfl, hb, isOpen_end hc, hbefore, hafter]
    by_cases hk : n = s.call
    · simp [hk]
    · simp [hk, Ne.symm hk]
  acting k hk := by
    rw [ha] at hk
    cases hk
  resting _ := by
    have hfl := h.flight hidle hses
    have hb := hfl.books
    rw [hturn] at hb
    obtain ⟨hall, hnone⟩ := hb.last hj
    refine ⟨fun k hk => ?_, fun t hses' => ?_⟩
    · rw [ht k (by cases k <;> first | rfl | cases hk)]
      exact hnone k hk
    · rw [hs] at hses'
      cases hses'
      refine ⟨by simpa only [Session.ended, hf.tasks] using hall, hdown, ?_⟩
      rw [hf.call]
      exact isShut_end hc hfl.call
  flying hno := by
    rw [hi] at hno
    cases hno

/-! ## Calls that begin -/

/-- A call ends without having had a session. -/
theorem Orderly.closes {rest : Multiset Job} {n : Nat} {e : CallEnd}
    (h : Orderly w) (hturn : w.turns = .begin n ::ₘ rest)
    (hs : v.session = w.session) (hi : v.idle = w.idle)
    (hc : v.calls = w.calls.modify n fun c => { c with ending := some e })
    (ha : v.active = none) (hn : v.names = w.names)
    (ht : v.turns = rest) : Orderly v := by
  have hmine := h.begins n
  rw [hturn, Multiset.count_cons_self] at hmine
  have hother : w.current ≠ some n := by
    intro heq
    simp [heq] at hmine
  have hcount : ∀ j, j ≠ .begin n → v.turns.count j = w.turns.count j := by
    intro j hj
    rw [ht, hturn, Multiset.count_cons_of_ne hj]
  refine h.keeps .id (fun _ hr => hr) (by rw [hs]; simp) hi hn
    (casts_modify h (by intro _; rfl) hc hn) (fun k => ?_)
    (fun i hact => by rw [ha] at hact; cases hact)
    (fun j hj => hcount j (by rintro rfl; cases hj))
    (fun k hk => isShut_mono (fun _ _ => rfl) hc hk)
    (fun s hidle hses => ?_)
  · rw [isOpen_end hc]
    by_cases hk : k = n
    · -- its one turn to begin is used up
      subst hk
      have hzero : rest.count (.begin k) = 0 := by
        split at hmine <;> omega
      simp [ht, hzero]
    · rw [hcount _ (by simpa using hk)]
      simpa [hk] using h.begins k
  · have hne := call_ne_of_current_ne hidle hses hother
    refine ⟨?_, isDoomed_modify_ne hc hne⟩
    rw [isOpen_end hc]
    simp [hne, (h.flight hidle hses).call]

/-- The turns of a session at its launch: one for each agent. -/
def launchTurns (s : Session) : Multiset Job :=
  ((List.range s.tasks.length).map Job.agent : Multiset Job)

/-- A launch queues turns of agents only. -/
theorem of_mem_launchTurns {s : Session} {j : Job}
    (h : j ∈ launchTurns s) : ∃ i, j = .agent i := by
  obtain ⟨i, -, rfl⟩ := List.mem_map.1 (Multiset.mem_coe.1 h)
  exact ⟨i, rfl⟩

/-- The books balance at the launch of a session. -/
theorem balanced_launch {rest : Multiset Job} {s : Session}
    (hsome : s.tasks ≠ []) (hjoined : s.joined = 0)
    (hfresh : ∀ t ∈ s.tasks, t.ending = none)
    (hzero : ∀ j, j.isSessions = true → rest.count j = 0) :
    Balanced (launchTurns s + rest) s.ended s.joined := by
  have hgoing : s.ended = List.replicate s.tasks.length false := by
    refine List.eq_replicate_iff.2 ⟨List.length_map _, fun b hb => ?_⟩
    obtain ⟨t, htask, rfl⟩ := List.mem_map.1 hb
    rw [hfresh t htask]
    rfl
  rw [hgoing, hjoined]
  exact .launch (by simpa using hsome) hzero

/-- A call that begins while no session is in flight is open, no turn to
    begin is left for it, and no turn of a session is. -/
theorem Orderly.beginning {rest : Multiset Job} {n : Nat} (h : Orderly w)
    (hturn : w.turns = .begin n ::ₘ rest) (hidle : w.idle = true) :
    w.isOpen n = true ∧ rest.count (.begin n) = 0
      ∧ ∀ j, j.isSessions = true → rest.count j = 0 := by
  have hmine := h.begins n
  rw [hturn, Multiset.count_cons_self] at hmine
  have hcur : w.current = none := by simp [current, hidle]
  have hopen : w.isOpen n = true := by
    by_contra hno
    simp [hno] at hmine
  refine ⟨hopen, ?_, fun j hj => ?_⟩
  · simp [hopen, hcur] at hmine
    exact Multiset.count_eq_zero.2 hmine
  · have hnone := (h.resting hidle).1 j hj
    rw [hturn, Multiset.count_cons_of_ne (by rintro rfl; cases hj)] at hnone
    exact hnone

/-- A session without agents is over as soon as it has begun. -/
theorem Orderly.passes {rest : Multiset Job} {n : Nat} {e : CallEnd}
    (h : Orderly w) {s : Session} (hturn : w.turns = .begin n ::ₘ rest)
    (hidle : w.idle = true) (hcall : s.call = n) (hnobody : s.tasks = [])
    (hdown : s.running = false) (hs : v.session = some s)
    (hi : v.idle = true)
    (hc : v.calls = w.calls.modify n fun c => { c with ending := some e })
    (ha : v.active = none) (hn : v.names = w.names)
    (ht : ∀ j, j.isWaiters = false → v.turns.count j = rest.count j) :
    Orderly v where
  casts := casts_modify h (by intro _; rfl) hc hn
  begins k := by
    obtain ⟨-, hone, -⟩ := h.beginning hturn hidle
    have hcur : v.current = none := by simp [current, hi]
    have hbefore : w.current = none := by simp [current, hidle]
    rw [ht _ rfl, isOpen_end hc, hcur]
    by_cases hk : k = n
    · simp [hk, hone]
    · have hb := h.begins k
      rw [hturn, Multiset.count_cons_of_ne (by simpa using hk), hbefore] at hb
      simpa [hk] using hb
  acting k hk := by
    rw [ha] at hk
    cases hk
  resting _ := by
    obtain ⟨hopen, -, hzero⟩ := h.beginning hturn hidle
    refine ⟨fun j hj => ?_, fun t hses => ?_⟩
    · rw [ht j (by cases j <;> first | rfl | cases hj)]
      exact hzero j hj
    · rw [hs] at hses
      cases hses
      refine ⟨by simp [Session.ended, hnobody], hdown, ?_⟩
      rw [hcall]
      exact isShut_end hc hopen
  flying hno := by
    rw [hi] at hno
    cases hno

/-- A session is launched. -/
theorem Orderly.launches {rest : Multiset Job} {n : Nat} (h : Orderly w)
    {s : Session} (hturn : w.turns = .begin n ::ₘ rest)
    (hidle : w.idle = true) (hcall : s.call = n) (hsome : s.tasks ≠ [])
    (hresult : s.result = none) (hjoined : s.joined = 0)
    (hfresh : ∀ t ∈ s.tasks, t.ending = none ∧ t.doomed = false)
    (hknown : ∀ t ∈ s.tasks, t.agentId ∈ w.names)
    (hdoom : w.isDoomed s = false)
    (hs : v.session = some s) (hi : v.idle = false)
    (hc : v.calls = w.calls) (ha : v.active = none)
    (hn : v.names = w.names) (ht : v.turns = launchTurns s + rest) :
    Orderly v := by
  have hcur : w.current = none := by simp [current, hidle]
  have hnext : v.current = some n := by simp [current, hi, hs, hcall]
  -- nothing is left of the session before
  obtain ⟨hopen, hone, hzero⟩ := h.beginning hturn hidle
  have hnobegin : ∀ k, (launchTurns s).count (.begin k) = 0 := by
    intro k
    refine Multiset.count_eq_zero.2 fun hmem => ?_
    obtain ⟨i, hj⟩ := of_mem_launchTurns hmem
    cases hj
  have hnohandled : .handled ∉ v.turns := by
    rw [ht, Multiset.mem_add]
    rintro (hmem | hmem)
    · obtain ⟨i, hj⟩ := of_mem_launchTurns hmem
      cases hj
    · rw [← Multiset.count_pos, hzero _ rfl] at hmem
      cases hmem
  have hfl : Flight v s :=
    { call := by
        rw [isOpen_congr hc, hcall]
        exact hopen
      books := ht ▸ balanced_launch hsome hjoined
        (fun t hm => (hfresh t hm).1) hzero
      known := hn ▸ hknown
      scored := fun hmem => absurd hmem hnohandled
      doomed := by
        intro t htask _
        rw [isDoomed_congr (w := w) hc rfl, hdoom]
        exact (hfresh t htask).2
      killed := by
        intro t htask hkill
        rw [(hfresh t htask).1] at hkill
        cases hkill
      fresh := by
        intro hsome
        rw [hresult] at hsome
        cases hsome }
  exact
    { casts := h.casts_congr hc hn
      begins := by
        intro k
        rw [ht, Multiset.count_add, hnobegin, Nat.zero_add,
          isOpen_congr hc, hnext]
        by_cases hk : k = n
        · subst hk
          simp [hone]
        · have hb := h.begins k
          rw [hturn, Multiset.count_cons_of_ne (by simpa using hk),
            hcur] at hb
          rw [hb]
          simp [Ne.symm hk]
      acting := by
        intro k hk
        rw [ha] at hk
        cases hk
      resting := by
        intro hrest
        rw [hi] at hrest
        cases hrest
      flying := fun _ => ⟨s, hs, hfl⟩ }

/-! ## What the host changes -/

/-- A new call is made. -/
theorem Orderly.calls {new : Call} (h : Orderly w)
    (hopen : new.ending = none) (hcast : new.cast.Nodup)
    (hknown : ∀ id ∈ new.cast, id ∈ w.names)
    (hs : v.session = w.session) (hi : v.idle = w.idle)
    (hc : v.calls = w.calls ++ [new]) (ha : v.active = w.active)
    (hn : v.names = w.names)
    (ht : v.turns = .begin w.calls.length ::ₘ w.turns) : Orderly v := by
  have hget : ∀ k, k ≠ w.calls.length → v.calls[k]? = w.calls[k]? := by
    intro k hk
    rw [hc, List.getElem?_append]
    split
    · rfl
    · rw [List.getElem?_eq_none (by simp; omega),
        List.getElem?_eq_none (by omega)]
  have hcount : ∀ j, j ≠ .begin w.calls.length →
      v.turns.count j = w.turns.count j := by
    intro j hj
    rw [ht, Multiset.count_cons_of_ne hj]
  -- the new number is nobody's so far
  have hno : w.isOpen w.calls.length = false := by simp [isOpen]
  have hflies : ∀ s, w.idle = false → w.session = some s →
      s.call ≠ w.calls.length := by
    intro s hidle hses heq
    have hfl := (h.flight hidle hses).call
    rw [heq, hno] at hfl
    cases hfl
  refine h.keeps .id (fun _ hr => hr) (by rw [hs]; simp) hi hn ?_
    (fun k => ?_) (fun i hact => ha ▸ hact)
    (fun j hj => hcount j (by rintro rfl; cases hj)) (fun k hk => ?_)
    (fun s hidle hses => ?_)
  · intro call hcall
    rw [hn]
    rw [hc, List.mem_append, List.mem_singleton] at hcall
    rcases hcall with hcall | rfl
    · exact h.casts call hcall
    · exact ⟨hcast, hknown⟩
  · by_cases hk : k = w.calls.length
    · subst hk
      have hb := h.begins w.calls.length
      simp only [hno] at hb
      have hnew : v.isOpen w.calls.length = true := by
        simp [isOpen, hc, hopen]
      have hne : w.current ≠ some w.calls.length := by
        intro heq
        unfold current at heq
        split at heq
        · cases heq
        · rename_i hidle
          obtain ⟨s, hses, hcall⟩ := Option.map_eq_some_iff.1 heq
          exact hflies s (by simpa using hidle) hses hcall
      rw [ht, Multiset.count_cons_self, hb, hnew]
      simp [hne]
    · rw [hcount _ (by simpa using hk)]
      simp only [isOpen, hget k hk]
      exact h.begins k
  · have hne : k ≠ w.calls.length := by
      intro heq
      simp [isShut, heq] at hk
    simpa only [isShut, hget _ hne] using hk
  · have hne := hflies s hidle hses
    simp only [isOpen, isDoomed, hget _ hne]
    exact ⟨(h.flight hidle hses).call, trivial⟩

/-- An agent's part after the end of its call was decided. -/
def doom (t : AgentTask) : AgentTask :=
  if t.ending.isSome then t else { t with doomed := true }

/-- A session whose first agents are doomed. -/
def doomFirst (k : Nat) (s : Session) : Session :=
  { s with tasks := (s.tasks.take k).map doom ++ s.tasks.drop k }

theorem ended_doomFirst (k : Nat) (s : Session) :
    (doomFirst k s).ended = s.ended := by
  have hdoom : ∀ t, (doom t).ending = t.ending := by
    intro t
    unfold doom
    split <;> rfl
  simp only [Session.ended, doomFirst, List.map_append, List.map_map]
  rw [show (fun t : AgentTask => t.ending.isSome) ∘ doom
    = fun t => t.ending.isSome from funext fun t => by simp [hdoom]]
  rw [← List.map_append, List.take_append_drop]

/-- One more agent is doomed. -/
theorem doomFirst_succ {k : Nat} {s : Session} {t : AgentTask}
    (hk : s.tasks[k]? = some t) :
    doomFirst (k + 1) s
      = { doomFirst k s with
          tasks := (doomFirst k s).tasks.modify k doom } := by
  obtain ⟨hlt, hval⟩ := List.getElem?_eq_some_iff.1 hk
  simp only [doomFirst]
  congr 1
  have hlen : ((s.tasks.take k).map doom).length = k := by simp; omega
  refine List.ext_getElem? fun j => ?_
  rw [List.getElem?_modify, List.getElem?_append, List.getElem?_append]
  simp only [List.length_map, List.length_take, List.getElem?_map,
    List.getElem?_take, List.getElem?_drop]
  rcases Nat.lt_trichotomy j k with hj | hj | hj
  · rw [if_pos (by omega), if_pos (by omega), if_pos (by omega),
      if_pos (by omega)]
    simp [show k ≠ j by omega]
  · subst hj
    rw [if_pos (by omega), if_pos (by omega), if_neg (by omega)]
    simp [show j + (j - min j s.tasks.length) = j by omega]
  · rw [if_neg (by omega), if_neg (by omega)]
    rw [show k + 1 + (j - min (k + 1) s.tasks.length) = j by omega,
      show k + (j - min k s.tasks.length) = j by omega]
    simp [show k ≠ j by omega]

theorem sleeper_of_wakesAgent {i : Nat} {t : Timer}
    (h : wakesAgent i t = true) : t.sleeper = .agent i := by
  unfold wakesAgent at h
  split at h
  · rename_i k hk
    rw [hk, of_decide_eq_true h]
  · cases h

theorem sleeper_of_wakesHandler {t : Timer} (h : wakesHandler t = true) :
    t.sleeper = .handled := by
  unfold wakesHandler at h
  split at h
  · assumption
  · cases h

/-- A sleep broken off changes the timers and the next round. -/
theorem rouse_spec (w : World) (wakes : Timer → Bool) (j : Job) :
    ∃ timers ready, w.rouse wakes j
      = { w with timers := timers, ready := ready } := by
  unfold rouse
  split
  · exact ⟨_, _, rfl⟩
  · exact ⟨w.timers, w.ready, rfl⟩

/-- Dooming one agent changes its part and moves its turn. -/
theorem doomTask_spec {i : Nat} {s : Session} {t : AgentTask}
    (hses : w.session = some s) (htask : s.tasks[i]? = some t)
    (hone : w.turns.count (.agent i) ≤ 1) :
    ∃ timers ready, w.doomTask i
        = { w with
            session := some { s with tasks := s.tasks.modify i doom }
            timers := timers, ready := ready }
      ∧ (w.doomTask i).turns = w.turns := by
  have hget : w.task? i = some t := by simp [task?, hses, htask]
  simp only [doomTask, hget]
  by_cases hend : t.ending.isSome = true
  · rw [if_pos hend]
    have hsame : s.tasks.modify i doom = s.tasks := by
      refine List.ext_getElem? fun j => ?_
      rw [List.getElem?_modify]
      by_cases hij : i = j
      · subst hij
        simp [htask, doom, hend]
      · simp [hij]
    refine ⟨w.timers, w.ready, ?_, rfl⟩
    rw [hsame, ← hses]
  · rw [if_neg hend]
    have hmod : s.tasks.modify i (fun t => { t with doomed := true })
        = s.tasks.modify i doom := by
      refine List.ext_getElem? fun j => ?_
      rw [List.getElem?_modify, List.getElem?_modify]
      by_cases hij : i = j
      · subst hij
        simp [htask, doom, hend]
      · simp [hij]
    have hturns := turns_rouse (p := wakesAgent i) (j := .agent i)
      (w := w.withTask i fun t => { t with doomed := true })
      (fun u hu => by rw [sleeper_of_wakesAgent hu]) hone
    rw [hturns]
    obtain ⟨timers, ready, heq⟩ := rouse_spec
      (w.withTask i fun t => { t with doomed := true }) (wakesAgent i)
      (.agent i)
    refine ⟨timers, ready, ?_, rfl⟩
    rw [heq]
    simp only [withTask, withSession, hses, Option.map_some, hmod]

/-- Dooming the first agents of a session. -/
theorem doomTasks_spec {s : Session} (hses : w.session = some s)
    (hone : ∀ i, w.turns.count (.agent i) ≤ 1) :
    ∀ k ≤ s.tasks.length, ∃ timers ready,
      (List.range k).foldl doomTask w
          = { w with
              session := some (doomFirst k s)
              timers := timers, ready := ready }
        ∧ ((List.range k).foldl doomTask w).turns = w.turns := by
  intro k
  induction k with
  | zero =>
      intro _
      refine ⟨w.timers, w.ready, ?_, rfl⟩
      simp only [List.range_zero, List.foldl_nil, doomFirst, List.take_zero,
        List.map_nil, List.nil_append, List.drop_zero]
      rw [← hses]
  | succ k ih =>
      intro hk
      obtain ⟨timers, ready, heq, hturns⟩ := ih (by omega)
      obtain ⟨t, ht⟩ : ∃ t, s.tasks[k]? = some t :=
        ⟨_, List.getElem?_eq_getElem (by omega)⟩
      have htask : (doomFirst k s).tasks[k]? = some t := by
        simp only [doomFirst, List.getElem?_append, List.length_map,
          List.length_take, List.getElem?_drop]
        rw [if_neg (by omega), ← ht]
        congr 1
        omega
      rw [List.range_succ, List.foldl_append, List.foldl_cons, List.foldl_nil]
      obtain ⟨timers', ready', heq', hturns'⟩ := doomTask_spec
        (w := (List.range k).foldl doomTask w) (by rw [heq]) htask
        (by rw [hturns]; exact hone k)
      refine ⟨timers', ready', ?_, hturns'.trans hturns⟩
      rw [heq', heq, doomFirst_succ ht]

/-- A call is doomed. -/
theorem isOpen_doom {n : Nat}
    (hc : v.calls = w.calls.modify n fun c => { c with doomed := true })
    (k : Nat) : v.isOpen k = w.isOpen k := by
  simp only [isOpen, hc, List.getElem?_modify]
  by_cases hk : n = k
  · subst hk
    cases w.calls[n]? <;> simp
  · cases w.calls[k]? <;> simp [hk]

/-- Whoever has a turn of a session in flight has just one. -/
theorem Flight.turn_le_one {s : Session} (hfl : Flight w s) (i : Nat) :
    w.turns.count (.agent i) ≤ 1 := by
  rw [hfl.books.agents i]
  split <;> omega

theorem Flight.handled_le_one {s : Session} (hfl : Flight w s) :
    w.turns.count .handled ≤ 1 := by
  have := hfl.books.calls
  split at this <;> omega

/-- The call whose session is in flight is killed: it is doomed, so are the
    agents that go on, and whoever of them sleeps has its turn at once. -/
theorem Flight.killCall {s : Session} (hfl : Flight w s)
    (hses : w.session = some s) :
    ∃ timers ready, w.killCall s.call
        = { w with
            calls := w.calls.modify s.call fun c => { c with doomed := true }
            session := some (doomFirst s.tasks.length s)
            timers := timers, ready := ready }
      ∧ (w.killCall s.call).turns = w.turns := by
  obtain ⟨c, hcall, hend⟩ : ∃ c, w.calls[s.call]? = some c
      ∧ c.ending = none := by
    have hopen := hfl.call
    unfold isOpen at hopen
    cases hcall : w.calls[s.call]? with
    | none => simp [hcall] at hopen
    | some c => exact ⟨c, rfl, by simpa [hcall] using hopen⟩
  have hses' : (w.withCall s.call fun c =>
      { c with doomed := true }).session = some s := hses
  -- first the agents, each with its turn, then the call in its handler
  obtain ⟨timers, ready, heq, hturns⟩ := doomTasks_spec
    (w := w.withCall s.call fun c => { c with doomed := true })
    hses hfl.turn_le_one s.tasks.length (Nat.le_refl _)
  obtain ⟨timers', ready', heq'⟩ := rouse_spec
    ((List.range s.tasks.length).foldl doomTask
      (w.withCall s.call fun c => { c with doomed := true }))
    wakesHandler .handled
  have hturns' := turns_rouse (p := wakesHandler) (j := .handled)
    (w := (List.range s.tasks.length).foldl doomTask
      (w.withCall s.call fun c => { c with doomed := true }))
    (fun u hu => by rw [sleeper_of_wakesHandler hu])
    (by rw [hturns]; exact hfl.handled_le_one)
  unfold World.killCall
  simp only [hcall, hend, Option.isSome_none, Bool.false_eq_true, if_false,
    hses', if_true]
  refine ⟨timers', ready', ?_, hturns'.trans hturns⟩
  rw [heq', heq]
  rfl

/-- A call that is open but not in flight is killed: it alone is doomed. -/
theorem Orderly.killCall_other {n : Nat} (h : Orderly w)
    (hopen : w.isOpen n = true) (hcur : w.current ≠ some n) :
    w.killCall n = w.withCall n fun c => { c with doomed := true } := by
  -- a session of that call would be over, and then so would be the call
  have hother : ∀ s, w.session = some s → s.call ≠ n := by
    rintro s hses rfl
    have hidle : w.idle = true := by
      by_contra hno
      apply hcur
      simp [current, hno, hses]
    have hshut := isOpen_of_isShut ((h.resting hidle).2 s hses).2.2
    rw [hopen] at hshut
    cases hshut
  have hses' : (w.withCall n fun c =>
      { c with doomed := true }).session = w.session := rfl
  unfold World.killCall
  unfold isOpen at hopen
  cases hcall : w.calls[n]? with
  | none => simp [hcall] at hopen
  | some c =>
      have hend : c.ending = none := by simpa [hcall] using hopen
      simp only [hend, Option.isSome_none, Bool.false_eq_true, if_false,
        hses']
      cases hses : w.session with
      | none => rfl
      | some s => exact if_neg (hother s hses)

/-- What a kill does: nothing if the call is over or was never made; else
    the call is doomed, and so are the agents of its session, of which it
    moves the turns. -/
theorem Orderly.killCall_spec (h : Orderly w) (n : Nat) :
    (w.isOpen n = false ∧ w.killCall n = w)
      ∨ (w.isOpen n = true ∧ w.current ≠ some n
        ∧ w.killCall n = w.withCall n fun c => { c with doomed := true })
      ∨ ∃ s timers ready, w.idle = false ∧ w.session = some s ∧ s.call = n
        ∧ w.killCall n
          = { w with
              calls := w.calls.modify n fun c => { c with doomed := true }
              session := some (doomFirst s.tasks.length s)
              timers := timers, ready := ready }
        ∧ (w.killCall n).turns = w.turns := by
  cases hopen : w.isOpen n with
  | false =>
      refine .inl ⟨rfl, ?_⟩
      unfold isOpen at hopen
      unfold World.killCall
      cases hcall : w.calls[n]? with
      | none => rfl
      | some c =>
          have hend : c.ending.isSome = true := by
            simpa [hcall, ← Option.isSome_eq_false_iff] using hopen
          exact if_pos hend
  | true =>
      by_cases hcur : w.current = some n
      · refine .inr (.inr ?_)
        unfold current at hcur
        split at hcur
        · cases hcur
        · rename_i hidle
          obtain ⟨s, hses, rfl⟩ := Option.map_eq_some_iff.1 hcur
          have hidle : w.idle = false := by simpa using hidle
          obtain ⟨timers, ready, heq, hturns⟩ :=
            (h.flight hidle hses).killCall hses
          exact ⟨s, timers, ready, hidle, hses, rfl, heq, hturns⟩
      · exact .inr (.inl ⟨rfl, hcur, h.killCall_other hopen hcur⟩)

/-- A call that is not in flight is doomed. -/
theorem Orderly.dooms {n : Nat} (h : Orderly w)
    (hc : v.calls = w.calls.modify n fun c => { c with doomed := true })
    (hcur : w.current ≠ some n) (hs : v.session = w.session)
    (hi : v.idle = w.idle) (hact : v.active = w.active)
    (hn : v.names = w.names) (ht : v.turns = w.turns) : Orderly v := by
  refine h.keeps .id (fun _ hr => hr) (by rw [hs]; simp) hi hn
    (casts_modify h (by intro _; rfl) hc hn) (fun k => ?_)
    (fun i hi => hact ▸ hi) (fun j _ => by rw [ht])
    (fun k hk => isShut_mono (f := fun c => { c with doomed := true })
      (fun _ hend => hend) hc hk)
    (fun s hidle hses => ⟨?_, ?_⟩)
  · rw [ht, isOpen_doom hc]
    exact h.begins k
  · rw [isOpen_doom hc]
    exact (h.flight hidle hses).call
  · exact isDoomed_modify_ne hc (call_ne_of_current_ne hidle hses hcur)

/-- The kill of a call dooms every agent of its session. -/
theorem doomFirst_all (s : Session) :
    (doomFirst s.tasks.length s).tasks = s.tasks.map doom := by
  simp [doomFirst]

/-- The agents of a session that are not over are doomed with it. -/
theorem mem_doomFirst {s : Session} {t : AgentTask}
    (h : t ∈ (doomFirst s.tasks.length s).tasks) :
    ∃ u ∈ s.tasks, t.agentId = u.agentId ∧ t.ending = u.ending
      ∧ (t.ending.isNone = true → t.doomed = true) := by
  rw [doomFirst_all] at h
  obtain ⟨u, hu, rfl⟩ := List.mem_map.1 h
  refine ⟨u, hu, ?_⟩
  unfold doom
  split
  · rename_i hend
    refine ⟨rfl, rfl, fun hopen => ?_⟩
    rw [Option.isNone_iff_eq_none] at hopen
    rw [hopen] at hend
    cases hend
  · exact ⟨rfl, rfl, fun _ => rfl⟩

/-- Doomed tasks are the tasks themselves, marked. -/
theorem doomFirst_getElem? {s : Session} {i : Nat}
    {t : AgentTask}
    (h : (doomFirst s.tasks.length s).tasks[i]? = some t) :
    ∃ u, s.tasks[i]? = some u ∧ (t = u ∨ t = { u with doomed := true }) := by
  rw [doomFirst_all, List.getElem?_map] at h
  obtain ⟨u, hu, rfl⟩ := Option.map_eq_some_iff.1 h
  refine ⟨u, hu, ?_⟩
  unfold doom
  split
  · exact .inl rfl
  · exact .inr rfl

/-- The call in flight is doomed and its agents with it. -/
theorem Orderly.doomsSession (h : Orderly w) {s : Session}
    (hidle : w.idle = false) (hses : w.session = some s)
    (hc : v.calls
      = w.calls.modify s.call fun c => { c with doomed := true })
    (hs : v.session = some (doomFirst s.tasks.length s))
    (hi : v.idle = w.idle) (ha : v.active = w.active)
    (hn : v.names = w.names) (ht : v.turns = w.turns) : Orderly v := by
  have hfl := h.flight hidle hses
  have hdoom : v.isDoomed (doomFirst s.tasks.length s) = true := by
    have hopen := hfl.call
    simp only [isOpen] at hopen
    simp only [isDoomed, doomFirst, hc, List.getElem?_modify]
    cases hcall : w.calls[s.call]? with
    | none => simp [hcall] at hopen
    | some c => simp
  refine h.flies hidle hses hs rfl hi (casts_modify h (by intro _; rfl) hc hn)
    (isOpen_doom hc) (fun n => by rw [ht]) (fun i hact => ?_) ?_
  · -- who acts goes on, doomed
    obtain ⟨-, s', t, walker, hses', htask, hwalk, hend⟩ :=
      h.acting i (ha ▸ hact)
    obtain rfl := Option.mem_unique hses hses'
    refine ⟨doom t, walker, ?_, ?_, ?_⟩
    · simp [doomFirst, htask]
    · simpa [doom, hend] using hwalk
    · simp [doom, hend]
  exact
    { call := by
        rw [isOpen_doom hc]
        exact hfl.call
      books := by
        rw [ht, ended_doomFirst]
        exact hfl.books
      known := by
        intro t htask
        obtain ⟨u, hu, hid, -⟩ := mem_doomFirst htask
        rw [hn, hid]
        exact hfl.known u hu
      scored := ht ▸ hfl.scored
      doomed := by
        intro t htask hgoing
        obtain ⟨u, -, -, -, hmust⟩ := mem_doomFirst htask
        rw [hdoom]
        exact hmust hgoing
      killed := fun _ _ _ => hdoom
      fresh := ht ▸ hfl.fresh }

end World

end BlockStage
