import BlockStage.Proofs.Session.Completion

/-! # Accounts — the books of every session

    `Accounted` says what there is to say about the result of a session and
    the completions recorded of it.  A session that has just begun satisfies
    it, and every deed keeps it, up to the moment at which another session
    begins (`Starts.course`).  So does the handler that raises an error:
    apart from a line in the log it makes no difference
    (`Course.raises`, `Course.spares`). -/

namespace BlockStage

namespace World

section

variable [Arithmetic] {c : Coordinator} {w v : World} {s s' : Session}
  {kept : String → Prop} {r : SessionResult}

/-- A call is about to begin a session: no other one is in flight, its first
    turn is the next to be taken, it has not been killed, and what it brings
    can be compiled.  No session begins in another way. -/
structure Starts (c : Coordinator) (w : World) (n : Nat)
    (cast : List String) : Prop where
  reachable : Reachable c w
  idle : w.idle = true
  turn : ∃ rest, w.round = .begin n :: rest
  call : ∃ call, w.calls[n]? = some call ∧ call.cast = cast
    ∧ call.doomed = false ∧ ∃ programs warnings,
      scriptPrograms c.config call.script = .ok (programs, warnings)

/-- A call that begins a session starts one. -/
theorem Begins.starts {n : Nat} {cast : List String}
    {programs : List (String × Program)}
    {warnings : List (String × List WarningReport)}
    (hb : Begins c w n cast programs warnings) : Starts c w n cast := by
  obtain ⟨call, hcall, hsame, hspared, hprograms⟩ := hb.call
  exact ⟨hb.reachable, hb.idle, hb.turn, call, hcall, hsame, hspared, _, _,
    hprograms⟩

/-- The books of a session that began at `w`: its result tells the truth,
    its handler has been called just if all have reached the goal, its call
    returns no other result, and of this session the handler has recorded
    what it has to. -/
structure Accounted (c : Coordinator) (w : World) (kept : String → Prop)
    (v : World) (s : Session) : Prop where
  result : ∀ r, s.result = some r → Tally c v s kept r
  called : s.completionFired = true
    ↔ ∃ r, s.result = some r ∧ r.allReached = true
  returned : ∀ r, v.ending? s.call = some (.returned r) → s.result = some r
  recorded : ∃ news, v.completed = news ++ w.completed
    ∧ news.map (·.event) = c.handler.records (v.ending? s.call)

variable {d : Deed}

omit [Arithmetic] in
theorem ending?_open {n : Nat} (h : v.isOpen n = true) :
    v.ending? n = none := by
  unfold isOpen at h
  unfold ending?
  cases hcall : v.calls[n]? with
  | none => rfl
  | some call =>
      rw [hcall] at h
      exact Option.isNone_iff_eq_none.1 h

omit [Arithmetic] in
theorem ending?_leave {n : Nat} {e : CallEnd} (h : v.isOpen n = true) :
    (v.leave n e).ending? n = some e := by
  show ((v.calls.modify n fun c => { c with ending := some e })[n]?).bind
    (·.ending) = _
  unfold isOpen at h
  rw [List.getElem?_modify]
  cases hcall : v.calls[n]? with
  | none => rw [hcall] at h; cases h
  | some call => simp

/-- A call that has ended stays as it ended. -/
theorem Orderly.ending?_after (h : Orderly v) {n : Nat}
    (hshut : v.isShut n = true) (d : Deed) : (v.after c d).ending? n = v.ending? n := by
  unfold isShut at hshut
  unfold ending?
  cases hcall : v.calls[n]? with
  | none => rw [hcall] at hshut; cases hshut
  | some call =>
      obtain ⟨call', hcall', -, -, -, -, hsame⟩ :=
        h.grows (c := c) d n call hcall
      rw [hcall] at hshut
      rw [hcall']
      exact hsame hshut

omit [Arithmetic] in
/-- Nothing is recorded of a session in flight. -/
theorem Accounted.silent (h : Accounted c w kept v s)
    (hopen : v.isOpen s.call = true) : v.completed = w.completed := by
  obtain ⟨news, hnews, hevents⟩ := h.recorded
  rw [ending?_open hopen] at hevents
  obtain rfl := List.map_eq_nil_iff.1 hevents
  exact hnews

omit [Arithmetic] in
/-- A session that has no result yet has announced nothing. -/
theorem Accounted.fresh (h : Accounted c w kept v s) (hf : Flight v s)
    (hnone : Job.handled ∉ v.turns) :
    s.result = none ∧ s.completionFired = false := by
  have hresult : s.result = none := by
    by_contra hno
    exact hnone (hf.fresh (Option.isSome_iff_ne_none.2 hno))
  refine ⟨hresult, Bool.eq_false_iff.2 fun hfired => ?_⟩
  obtain ⟨r, hr, -⟩ := h.called.1 hfired
  rw [hresult] at hr
  cases hr

omit [Arithmetic] in
/-- A deed that leaves the result alone keeps the books. -/
theorem Accounted.passes (h : Accounted c w kept v s) (hf : Flight v s)
    {u : World} (hp : Passes v s d u s') (hf' : Flight u s')
    (hkept : ∀ id, kept id → ∀ a, d ≠ .put id a) :
    Accounted c w kept u s' := by
  have hopen := ending?_open hf'.call
  refine ⟨fun r hr => ?_, ?_, fun r hr => ?_, [], ?_, by rw [hopen]; rfl⟩
  · have ht := h.result r (hp.result ▸ hr)
    obtain ⟨htasks, hagents⟩ := hp.settled ht.settled
    exact ht.same htasks fun id hid => hagents id (hkept id hid)
  · rw [hp.fired, hp.result]
    exact h.called
  · rw [hopen] at hr
    cases hr
  · exact hp.completed.trans (h.silent hf.call)

/-- The books are kept when the call goes to sleep in the handler. -/
theorem Accounted.dozes (h : Accounted c w kept v s) (hf : Flight v s)
    {u : World} {reached : List String} (hd : Dozes c v s u reached)
    (hs' : u.session = some s') (hf' : Flight u s') :
    Accounted c w kept u s' := by
  obtain ⟨handling, hs''⟩ := hd.session
  obtain rfl := Option.mem_unique hs' hs''
  have hopen := ending?_open hf'.call
  have htally : Tally c u s kept (v.resultNow s reached) :=
    tally_now hf hd.spared hd.settled hd.score
  refine ⟨fun r hr => ?_, ⟨fun _ => ⟨_, rfl, hd.all⟩, fun _ => rfl⟩,
    fun r hr => ?_, [], ?_, by rw [hopen]; rfl⟩
  · obtain rfl := Option.some.inj hr
    exact htally.same rfl fun _ _ => rfl
  · rw [hopen] at hr
    cases hr
  · exact hd.completed.trans (h.silent hf.call)

omit [Arithmetic] in
/-- The books are kept when the call ends without a result. -/
theorem Accounted.away (h : Accounted c w kept v s) (hf : Flight v s)
    {x : World} {e : CallEnd} {running : Bool}
    (hno : ∀ r, e ≠ .returned r) (hs' : s' = { s with running := running })
    (hcalls : x.calls = v.calls) (hcomp : x.completed = v.completed)
    (hagents : ∀ r, s.result = some r → x.agents = v.agents) :
    Accounted c w kept (x.leave s.call e) s' := by
  subst hs'
  have hend : (x.leave s.call e).ending? s.call = some e :=
    ending?_leave ((isOpen_congr hcalls _).trans hf.call)
  refine ⟨fun r hr => ?_, h.called, fun r hr => ?_, [], ?_, ?_⟩
  · refine (h.result r hr).same rfl fun id _ => ?_
    show x.agents.lookup id = _
    rw [hagents r hr]
    rfl
  · rw [hend] at hr
    exact absurd (Option.some.inj hr) (hno r)
  · exact hcomp.trans (h.silent hf.call)
  · rw [hend]
    cases e with
    | returned r => exact absurd rfl (hno r)
    | _ => rfl

omit [Arithmetic] in
/-- The books are kept when the call returns a result. -/
theorem Accounted.back (h : Accounted c w kept v s) (hf : Flight v s)
    {x : World} (hcall : s'.call = s.call) (hcalls : x.calls = v.calls)
    (hresult : s'.result = some r) (htally : Tally c x s' kept r)
    (hcalled : s'.completionFired = true ↔ r.allReached = true)
    (hrecords : ∃ news, x.completed = news ++ v.completed
      ∧ news.map (·.event) = c.handler.records (some (.returned r))) :
    Accounted c w kept (x.leave s.call (.returned r)) s' := by
  have hend : (x.leave s.call (.returned r)).ending? s'.call
      = some (.returned r) := by
    rw [hcall]
    exact ending?_leave ((isOpen_congr hcalls _).trans hf.call)
  refine ⟨fun r' hr => ?_, ?_, fun r' hr => ?_, ?_⟩
  · obtain rfl := Option.mem_unique hresult hr
    exact htally.same rfl fun _ _ => rfl
  · rw [hcalled, hresult]
    exact ⟨fun hall => ⟨r, rfl, hall⟩,
      fun ⟨r', hr, hall⟩ => Option.some.inj hr ▸ hall⟩
  · rw [hend] at hr
    rw [hresult, CallEnd.returned.inj (Option.some.inj hr)]
  · obtain ⟨news, hnews, hevents⟩ := hrecords
    refine ⟨news, ?_, by rw [hend]; exact hevents⟩
    rw [← h.silent hf.call]
    exact hnews

/-- The books are kept when the call ends. -/
theorem Accounted.leaves (h : Accounted c w kept v s) (hv : Reachable c v)
    (hidle : v.idle = false) (hses : v.session = some s)
    (hclock : (Scalar.finite 0).le (v.now.sub s.startedAt) = true)
    (hover : ∀ b ∈ s.ended, b = true) {e : CallEnd} {x : World}
    (hp : Parting c v s e x) (hs' : x.session = some s') :
    Accounted c w kept (x.leave s.call e) s' := by
  have hf := hv.orderly.flight hidle hses
  cases hp with
  | killed hs hcalls hagents hcomp =>
      rw [hs] at hs'
      exact h.away hf nofun (Option.some.inj hs').symm hcalls hcomp
        fun _ _ => hagents
  | unscored hnone hs hcalls hcomp =>
      rw [hs] at hs'
      refine h.away hf nofun (Option.some.inj hs').symm hcalls hcomp
        fun r hr => ?_
      rw [(h.fresh hf hnone).1] at hr
      cases hr
  | untimed hbad => exact absurd hclock hbad
  | missed hspared hnone hscore hmissed hs hcalls hcomp =>
      obtain rfl := Option.mem_unique hs hs'
      refine h.back hf rfl hcalls rfl
        (((tally_now hf hspared hover hscore).warned _).same rfl
          fun _ _ => rfl) ?_ ⟨[], hcomp, ?_⟩
      · show s.completionFired = true ↔ _
        rw [(h.fresh hf hnone).2, show SessionResult.allReached _ = false from
          hmissed]
      · exact (if_neg fun hno =>
          Bool.false_ne_true (hmissed.symm.trans hno.1)).symm
  | announced hspared hnone hscore hall hs hcalls hcomp =>
      obtain rfl := Option.mem_unique hs hs'
      refine h.back hf rfl hcalls rfl
        (((tally_now hf hspared hover hscore).warned _).same rfl
          fun _ _ => rfl)
        ⟨fun _ => hall, fun _ => rfl⟩ ?_
      rcases hcomp with ⟨habsent, hcomp⟩ | ⟨hthere, hcomp⟩
      · exact ⟨[], hcomp, (if_neg fun hno => hno.2 habsent).symm⟩
      · refine ⟨[_], hcomp, ?_⟩
        rw [completionOf_eq (resultNow_total v s _)]
        exact (if_pos ⟨hall, hthere⟩).symm
  | handled hr hs hcalls hagents hcomp =>
      obtain rfl := Option.mem_unique hs hs'
      obtain ⟨hall, hthere, htotal⟩ := hv.dozing hidle hses hr
      refine h.back hf rfl hcalls rfl
        (((h.result _ hr).warned _).same rfl fun id _ => ?_)
        ⟨fun _ => hall, fun _ => h.called.2 ⟨_, hr, hall⟩⟩ ⟨[_], hcomp, ?_⟩
      · show x.agents.lookup id = _
        rw [hagents]
        rfl
      · rw [completionOf_eq htotal]
        exact (if_pos ⟨hall, hthere⟩).symm

/-- The books are empty when a session has just been opened. -/
theorem Opened.accounted {n : Nat} {cast : List String}
    {programs : List (String × Program)}
    {warnings : List (String × List WarningReport)}
    (h : Opened c w n cast programs warnings v) (hs : v.session = some s) :
    s.cast = cast ∧ Accounted c w kept v s := by
  have hopen : v.ending? (w.opened n cast programs warnings).call = none :=
    ending?_open h.isOpen
  obtain rfl := h.eq_opened hs
  refine ⟨freshTasks_ids _ _, nofun, ?_, fun r hr => ?_, [], h.completed,
    by rw [hopen]; rfl⟩
  · exact ⟨nofun, fun ⟨r, hr, _⟩ => by cases hr⟩
  · rw [hopen] at hr
    cases hr

/-- The books of a session without agents are closed at once: nobody is
    counted, and nothing is announced. -/
theorem Passed.accounted {n : Nat} {programs : List (String × Program)}
    {warnings : List (String × List WarningReport)}
    (h : Passed c w n programs warnings v) {call : Call}
    (hcall : w.calls[n]? = some call) (hs : v.session = some s) :
    s.cast = [] ∧ Accounted c w kept v s := by
  have hend : v.ending? (w.passed n programs warnings).call
      = some (.returned (w.emptyResult n programs warnings)) := by
    show (v.calls[n]?).bind _ = _
    rw [h.calls, List.getElem?_modify_eq, hcall]
    rfl
  obtain rfl := h.eq_passed hs
  refine ⟨rfl, fun r hr => ?_, ⟨nofun, ?_⟩, fun r hr => ?_, [],
    h.completed, by rw [hend]; rfl⟩
  · obtain rfl := Option.some.inj hr
    exact
      { settled := nofun
        unkilled := nofun
        failed := rfl
        known := nofun
        sublist := .slnil
        reached := nofun
        flagged := nofun
        count := rfl
        total := rfl
        bound := Int.le_refl 0
        all := ⟨nofun, fun hno => absurd rfl hno.1⟩ }
  · rintro ⟨r, hr, hall⟩
    obtain rfl := Option.some.inj hr
    cases hall
  · rw [hend] at hr
    exact congrArg some (CallEnd.returned.inj (Option.some.inj hr))

/-- The books are in order when a session has just begun. -/
theorem Starts.opening {n : Nat} {cast : List String}
    (h : Starts c w n cast) :
    Reachable c (w.after c .turn)
      ∧ ((w.after c .turn).current = some n
        ∨ (w.after c .turn).isShut n = true)
      ∧ ∀ s, (w.after c .turn).session = some s →
        s.cast = cast ∧ Accounted c w kept (w.after c .turn) s := by
  obtain ⟨call, hcall, rfl, hspared, programs, warnings, hprograms⟩ := h.call
  by_cases hcast : call.cast = []
  · have hpassed := h.reachable.passed h.idle h.turn hcall hspared hprograms
      hcast
    refine ⟨hpassed.reachable, .inr (hpassed.isShut hcall), fun s hs => ?_⟩
    rw [hcast]
    exact hpassed.accounted hcall hs
  · have hopened := h.reachable.opened h.idle h.turn hcall hspared hprograms
      hcast
    exact ⟨hopened.reachable, .inl hopened.current,
      fun s hs => hopened.accounted hs⟩

/-- The books of a session whose call has ended stay as they are until
    another one begins. -/
theorem Accounted.rests (h : Accounted c w kept v s) (ho : Orderly v)
    {d : Deed} (hidle : v.idle = true) (hidle' : (v.after c d).idle = true)
    (hshut : v.isShut s.call = true)
    (hkept : ∀ id, kept id → ∀ a, d ≠ .put id a) :
    Accounted c w kept (v.after c d) s := by
  obtain ⟨htouch, hagents⟩ := ho.untouched (c := c) hidle (d := d)
  have hend : (v.after c d).ending? s.call = v.ending? s.call :=
    ho.ending?_after hshut d
  refine ⟨fun r hr => (h.result r hr).same rfl fun id hid => ?_, h.called,
    by rw [hend]; exact h.returned, ?_⟩
  · by_cases hput : ∃ name a, d = .put name a
    · obtain ⟨name, a, rfl⟩ := hput
      have hne : id ≠ name := by
        rintro rfl
        exact hkept id hid a rfl
      exact agent?_put hne
    · have hput : ∀ name a, d ≠ .put name a := fun name a heq =>
        hput ⟨name, a, heq⟩
      show (v.after c d).agents.lookup id = _
      rw [hagents hidle' hput]
      rfl
  · rw [hend, htouch.completed]
    exact h.recorded

/-- Every deed keeps the books of a session in flight. -/
theorem Accounted.moves (h : Accounted c w kept v s) (hv : Reachable c v)
    (hclock : (Scalar.finite 0).le (v.now.sub s.startedAt) = true)
    {d : Deed} (hd : v.Admits d)
    (hkept : ∀ id, kept id → ∀ a, d ≠ .put id a) {cast : List String}
    (hcast : s.cast = cast) (hs : v.session = some s)
    (hidle : v.idle = false) (hs' : (v.after c d).session = some s')
    (hmoves : Moves c v s d (v.after c d)) :
    s'.cast = cast ∧ Accounted c w kept (v.after c d) s' := by
  have hf := hv.orderly.flight hidle hs
  have ho' : Orderly (v.after c d) := hv.orderly.after hd
  rcases hmoves.sorts hs hidle with ⟨s'', hp⟩ | ⟨reached, hz⟩ |
    ⟨e, x, hover, hp, heq⟩
  · have hsame := hp.session
    obtain rfl := Option.mem_unique hs' hsame
    exact ⟨hp.cast.trans hcast,
      h.passes hf hp (ho'.flight hp.idle hs') hkept⟩
  · obtain ⟨handling, hsame⟩ := hz.session
    refine ⟨?_, h.dozes hf hz hs' (ho'.flight hz.idle hs')⟩
    obtain rfl := Option.mem_unique hs' hsame
    exact hcast
  · have htasks := (hmoves.left (by rw [heq]; rfl) hidle).2.1 s' hs'
    rw [heq] at hs' ⊢
    refine ⟨?_, h.leaves hv hidle hs hclock hover hp hs'⟩
    exact (congrArg (List.map _) htasks).trans hcast

end

section

attribute [local instance] Arithmetic.binary64

variable {c : Coordinator} {w v : World} {s : Session}

/-- From the beginning of a session until the beginning of the next one its
    books are kept, whatever happens. -/
theorem Starts.course {n : Nat} {cast : List String} {ds : List Deed}
    (h : Starts c w n cast) (hcourse : Course c (w.after c .turn) ds v)
    (hs : v.session = some s) (hcall : s.call = n) :
    s.cast = cast
      ∧ Accounted c w (fun id => ∀ a, .put id a ∉ ds) v s := by
  obtain ⟨hreach, hknown, hopening⟩ := h.opening
  have hkept : ∀ d ∈ ds, ∀ id, (∀ a, .put id a ∉ ds) → ∀ a, d ≠ .put id a := by
    rintro d hd id hkept a rfl
    exact hkept a hd
  refine hcourse.since hreach hknown (Q := fun x s => s.cast = cast
    ∧ Accounted c w (fun id => ∀ a, .put id a ∉ ds) x s)
    (fun s hs _ => hopening s hs) ?_ ?_ hs hcall
  · rintro x es d s s' hes - hd hadmits hs - hidle ⟨hcast, hbooks⟩ hs' hmoves
    have hx : Reachable c x := hreach.course hes
    exact hbooks.moves hx (hx.timely.elapsed hidle hs) hadmits (hkept d hd)
      hcast hs hidle hs' hmoves
  · rintro x d s hx hd hs - hidle hidle' ⟨hcast, hbooks⟩
    obtain ⟨-, -, hshut⟩ := (hx.orderly.resting hidle).2 s hs
    exact ⟨hcast, hbooks.rests hx.orderly hidle hidle' hshut (hkept d hd)⟩

/-! ## Handlers that raise errors -/

/-- Worlds in which the agents, what was shown and recorded, how calls have
    ended and the session are the same, but for what the handler still has
    to do. -/
structure Agrees (v u : World) : Prop where
  session : u.session.map (fun s => { s with handling := none })
    = v.session.map fun s => { s with handling := none }
  agents : u.agents = v.agents
  shown : u.shown = v.shown
  completed : u.completed = v.completed
  endings : ∀ n, u.ending? n = v.ending? n

theorem Like.agrees {config : Config} {counts : LogLine → Bool} {u : World}
    (h : Like config counts v u) : Agrees v u := by
  refine ⟨?_, h.agents, by cases h; rfl, by cases h; rfl, fun n => ?_⟩
  · rcases h.session with ⟨hv, hu⟩ | ⟨s, _, hv, hu, ⟨-⟩⟩
    · rw [hv, hu]
    · rw [hv, hu]
      rfl
  · unfold ending?
    rcases h.call? n with ⟨hv, hu⟩ | ⟨_, _, hv, hu, hk⟩
    · rw [hv, hu]
    · cases hk
      rw [hv, hu]
      rfl

/-- With a handler that raises an error, at once or after it has slept, the
    same happens as with one that does not, and the other way round. -/
theorem raises_alike (c : Coordinator) (rests : List Scalar) (w : World)
    (ds : List Deed) :
    (∀ v, Course { c with handler := .present ⟨rests, false⟩ } w ds v →
        ∃ u, Course { c with handler := .present ⟨rests, true⟩ } w ds u
          ∧ Agrees v u)
      ∧ ∀ u, Course { c with handler := .present ⟨rests, true⟩ } w ds u →
        ∃ v, Course { c with handler := .present ⟨rests, false⟩ } w ds v
          ∧ Agrees v u := by
  -- no line of the log counts
  have hlike : Like c.config (fun _ => false) w w := .refl w
  have hraises : HandlerMode.Like (fun _ => false)
      (.present ⟨rests, false⟩) (.present ⟨rests, true⟩) :=
    .present (.raises rests rfl)
  constructor
  · intro v hv
    obtain ⟨u, hu, huv⟩ := hlike.course
      (k := { c with handler := .present ⟨rests, false⟩ }) rfl hraises hv
      (List.forall₂_same.2 fun d _ => .same d)
    exact ⟨u, hu, huv.agrees⟩
  · intro u hu
    obtain ⟨v, hv, hvu⟩ := hlike.courseBack
      (k := { c with handler := .present ⟨rests, false⟩ }) rfl hraises hu
    exact ⟨v, hv, hvu.agrees⟩

/-! ## All sessions of a coordinator -/

/-- **Scoring and completion.**  The books of every session are kept from its
    beginning until the next one begins: its result says truly who is in the
    goal, its handler is called once if these are all and never otherwise, and
    its call returns this result.  No session comes in any other way than by
    such a beginning.  The handler records nothing but this, while everybody
    has ended and before the call returns.  And whether it raises an error or
    not, at once or after it has slept, makes no difference. -/
theorem scored_and_announced (c : Coordinator) :
    (∀ (w v : World) (n : Nat) (cast : List String) (ds : List Deed)
        (s : Session), Starts c w n cast →
        Course c (w.after c .turn) ds v → v.session = some s → s.call = n →
        s.cast = cast ∧ cast.Nodup
          ∧ Accounted c w (fun id => ∀ a, .put id a ∉ ds) v s)
      ∧ (∀ (w : World) (d : Deed), Reachable c w → w.idle = true →
        (w.after c d).idle = false ∨ (w.after c d).session ≠ w.session →
        d = .turn ∧ ∃ n cast, Starts c w n cast)
      ∧ (∀ (w : World) (d : Deed), Reachable c w →
        (w.after c d).completed = w.completed
          ∨ ∃ s r x, Records w (w.after c d) s r x)
      ∧ ∀ (rests : List Scalar) (w : World) (ds : List Deed),
        (∀ v, Course { c with handler := .present ⟨rests, false⟩ } w ds v →
          ∃ u, Course { c with handler := .present ⟨rests, true⟩ } w ds u
            ∧ Agrees v u)
        ∧ ∀ u, Course { c with handler := .present ⟨rests, true⟩ } w ds u →
          ∃ v, Course { c with handler := .present ⟨rests, false⟩ } w ds v
            ∧ Agrees v u := by
  refine ⟨fun w v n cast ds s h hcourse hs hcall => ?_,
    fun w d h hidle hbegins => ?_, fun w d h => h.records d, raises_alike c⟩
  rotate_left
  · cases h.orderly.idles (c := c) hidle d with
    | stays hstill _ _ hsame =>
        rcases hbegins with hflies | hother
        · rw [hstill] at hflies
          cases hflies
        · exact absurd hsame hother
    | opens hturn hround hcall hspared hprograms =>
        exact ⟨hturn, _, _, h, hidle, ⟨_, hround⟩, _, hcall, rfl, hspared, _,
          _, hprograms⟩
    | passes hturn hround hcall hspared hprograms =>
        exact ⟨hturn, _, _, h, hidle, ⟨_, hround⟩, _, hcall, rfl, hspared, _,
          _, hprograms⟩
  obtain ⟨hcast, hbooks⟩ := h.course hcourse hs hcall
  obtain ⟨call, hmem, hsame, -⟩ := h.call
  refine ⟨hcast, ?_, hbooks⟩
  rw [← hsame]
  exact (h.reachable.orderly.casts call (List.mem_of_getElem? hmem)).1

/-- A coordinator whose goal is the corner of the grid, with a handler that
    takes a second and raises an error then. -/
def cornerCoordinator : Coordinator :=
  ⟨.standard, some (.cell 0 0), .quiet .absent,
    .present ⟨[.finite 1], true⟩⟩

/-- Two agents in and above the corner, and the call that is about to run
    them. -/
def beforePair : World :=
  ((World.initial [("a", .atStart (.str "a") [0, 0] 90),
      ("b", .atStart (.str "b") [0, 1] 180)]).follow cornerCoordinator
    [.call (.programs [("b", [.move 1])]) ["a", "b"], .turn]).getD
      (.initial [])

/-- The pair after the handler has recorded its completion. -/
def afterPair : World :=
  ((beforePair.after cornerCoordinator .turn).follow cornerCoordinator
    (List.replicate 29 .turn)).getD beforePair

/-- One agent stays in the goal, the other one steps into it, and their
    completion is recorded once. -/
theorem scored_and_announced_pair :
    Starts cornerCoordinator beforePair 0 ["a", "b"]
      ∧ Course cornerCoordinator (beforePair.after cornerCoordinator .turn)
        (List.replicate 29 .turn) afterPair
      ∧ (∃ s, afterPair.session = some s ∧ s.cast = ["a", "b"]
        ∧ Accounted cornerCoordinator beforePair (fun _ => True) afterPair s)
      ∧ afterPair.completions.map (fun e =>
        (e.event.reachedCount, e.event.totalAgents)) = [(2, 2)] := by
  have hstarts : Starts cornerCoordinator beforePair 0 ["a", "b"] :=
    ⟨⟨_, _, Course.followed _ (by decide +kernel)⟩, by decide +kernel,
      ⟨[], rfl⟩, _, rfl, rfl, rfl, _, _, rfl⟩
  have hcourse : Course cornerCoordinator
      (beforePair.after cornerCoordinator .turn) (List.replicate 29 .turn)
      afterPair := Course.followed _ (by decide +kernel)
  refine ⟨hstarts, hcourse, ?_, by decide +kernel⟩
  have hsession : afterPair.session.map (·.call) = some 0 := by
    decide +kernel
  obtain ⟨s, hs, hcall⟩ := Option.map_eq_some_iff.1 hsession
  obtain ⟨hcast, -, hbooks⟩ := (scored_and_announced cornerCoordinator).1 _ _ _
    _ _ s hstarts hcourse hs hcall
  have hput : ∀ id a, Deed.put id a ∉ List.replicate 29 Deed.turn := by
    intro id a hmem
    cases List.eq_of_mem_replicate hmem
  exact ⟨s, hs, hcast, (funext fun id => eq_true (hput id) :
    (fun id => ∀ a, Deed.put id a ∉ List.replicate 29 Deed.turn)
      = fun _ => True) ▸ hbooks⟩

end

end World

end BlockStage
