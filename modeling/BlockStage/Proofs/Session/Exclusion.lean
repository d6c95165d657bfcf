import BlockStage.Proofs.Session.Upkeep

/-! # Exclusion — one session at a time, and quiet in between

    At most one call has a session in flight.  A call that begins
    meanwhile is turned away and leaves everything as it was.  While no
    session is in flight nothing is shown, nothing is announced, and only
    the host changes agents: nothing of a session outlives it, whether it
    ended by itself, was cancelled or was killed. -/

namespace BlockStage

namespace World

variable {w : World}

/-- A call in flight: it has begun and has not ended. -/
def InFlight (w : World) (n : Nat) : Prop :=
  w.isOpen n = true ∧ Job.begin n ∉ w.turns

/-- The call in flight is the one whose session is. -/
theorem Orderly.inFlight_iff (h : Orderly w) (n : Nat) :
    w.InFlight n ↔ w.current = some n := by
  have hb := h.begins n
  constructor
  · rintro ⟨hopen, hnone⟩
    rw [Multiset.count_eq_zero.2 hnone] at hb
    by_contra hcur
    rw [if_pos ⟨hopen, hcur⟩] at hb
    cases hb
  · intro hcur
    have hopen : w.isOpen n = true := by
      have hcase := hcur
      unfold current at hcase
      split at hcase
      · cases hcase
      · rename_i hidle
        obtain ⟨s, hs, hcall⟩ := Option.map_eq_some_iff.1 hcase
        rw [← hcall]
        exact (h.flight (by simpa using hidle) hs).call
    rw [if_neg (fun hno => hno.2 hcur)] at hb
    exact ⟨hopen, Multiset.count_eq_zero.1 hb⟩

theorem current_eq_some {n : Nat} :
    w.current = some n
      ↔ w.idle = false ∧ ∃ s, w.session = some s ∧ s.call = n := by
  unfold current
  by_cases hidle : w.idle = true
  · simp [hidle]
  · simp [hidle]

/-- While no session is in flight nobody acts. -/
theorem Orderly.still (h : Orderly w) (hidle : w.idle = true) :
    w.active = none := by
  cases ha : w.active with
  | none => rfl
  | some i =>
      have := (h.acting i ha).1
      rw [hidle] at this
      cases this

/-- While no session is in flight all turns are those of calls to begin
    and of waiters. -/
theorem Orderly.noTurns (h : Orderly w) (hidle : w.idle = true) :
    ∀ j ∈ w.turns, j.isSessions = false := by
  intro j hmem
  cases hj : j.isSessions with
  | false => rfl
  | true =>
      have := (h.resting hidle).1 j hj
      rw [Multiset.count_eq_zero] at this
      exact absurd hmem this

/-- A kill while no session is in flight only dooms a call to begin. -/
theorem Orderly.killsBefore (h : Orderly w) (hidle : w.idle = true)
    (n : Nat) : ∃ calls, w.killCall n = { w with calls := calls } := by
  rcases h.killCall_spec n with ⟨-, heq⟩ | ⟨-, -, heq⟩ |
    ⟨_, _, _, hno, -⟩
  · exact ⟨w.calls, heq⟩
  · exact ⟨_, heq⟩
  · rw [hidle] at hno
    cases hno

section

variable [Arithmetic] {c : Coordinator}

/-- How a call ends that begins while a session is in flight. -/
def refusal (c : Coordinator) (call : Call) : CallEnd :=
  if call.doomed then .killed
  else
    match scriptPrograms c.config call.script with
    | .error f => .uncompiled f
    | .ok _ => .rejected

/-- A call that begins while a session is in flight is refused, and nothing
    else happens. -/
theorem refuses {n : Nat} {call : Call} {rest : List Job}
    (ha : w.active = none) (hround : w.round = .begin n :: rest)
    (hcall : w.calls[n]? = some call) (hidle : w.idle = false) :
    w.after c .turn
      = { w with round := rest }.endCall n (refusal c call) := by
  have hstep : w.after c .turn
      = { w with round := rest }.beginCall c n call :=
    (step_turn ha hround).trans
      (runJob_begin (w := { w with round := rest }) hcall)
  rw [hstep]
  unfold beginCall refusal
  split
  · rfl
  · split
    · rename_i hbad
      simp only [hbad]
    · rename_i hok
      simp only [hok, hidle]
      rfl

/-- What stays as it is while no session is in flight. -/
structure Untouched (w v : World) : Prop where
  /-- Nothing is shown. -/
  shown : v.shown = w.shown
  /-- Nothing is announced. -/
  completed : v.completed = w.completed
  /-- The last session stays as it ended, unless a call that had not ended
      begins another one. -/
  session : v.session = w.session
    ∨ ∃ s, v.session = some s ∧ w.isOpen s.call = true

/-- What a deed does while no session is in flight: it leaves the stage, the
    last session and, unless the host changes one, all agents alone, or it
    is the first turn of a call and a session begins, which is over at once
    if it has no agents. -/
inductive Idles (c : Coordinator) (w : World) (d : Deed) (v : World) : Prop
  | stays (idle : v.idle = true) (shown : v.shown = w.shown)
      (completed : v.completed = w.completed) (session : v.session = w.session)
      (agents : (∀ name a, d ≠ .put name a) → v.agents = w.agents)
  | opens {n : Nat} {call : Call} {rest : List Job}
      {programs : List (String × Program)}
      {warnings : List (String × List WarningReport)}
      (turn : d = .turn) (round : w.round = .begin n :: rest)
      (called : w.calls[n]? = some call) (spared : call.doomed = false)
      (compiles : scriptPrograms c.config call.script
        = .ok (programs, warnings))
      (somebody : call.cast ≠ []) (flies : v.idle = false)
      (shown : v.shown = w.shown) (completed : v.completed = w.completed)
      (session : v.session = some (w.opened n call.cast programs warnings))
  | passes {n : Nat} {call : Call} {rest : List Job}
      {programs : List (String × Program)}
      {warnings : List (String × List WarningReport)}
      {lines : List LogLine}
      (turn : d = .turn) (round : w.round = .begin n :: rest)
      (called : w.calls[n]? = some call) (spared : call.doomed = false)
      (compiles : scriptPrograms c.config call.script
        = .ok (programs, warnings))
      (nobody : call.cast = [])
      (heq : v = { w with
        round := rest
        session := some (w.passed n programs warnings)
        reported := lines }.leave n
          (.returned (w.emptyResult n programs warnings)))

theorem Idles.quiet {d : Deed} {v : World} (heq : w.after c d = v)
    (hidle : v.idle = true) (hshown : v.shown = w.shown)
    (hcompleted : v.completed = w.completed)
    (hsession : v.session = w.session) (hagents : v.agents = w.agents) :
    Idles c w d (w.after c d) := by
  subst heq
  exact .stays hidle hshown hcompleted hsession fun _ => hagents

/-- There is nothing else that a turn can do then: nobody acts, and all
    turns are those of calls to begin and of waiters. -/
theorem Orderly.idles_turn (h : Orderly w) (hidle : w.idle = true) :
    Idles c w .turn (w.after c .turn) := by
  have ha := h.still hidle
  cases hround : w.round with
  | nil => exact .quiet (step_round ha hround) hidle rfl rfl rfl rfl
  | cons j rest =>
      have hstep : w.after c .turn = { w with round := rest }.runJob c j :=
        step_turn ha hround
      cases j with
      | begin n =>
          obtain ⟨call, hcall, -⟩ := h.beginner hround
          rw [runJob_begin (w := { w with round := rest }) hcall] at hstep
          cases beginCall_cases c { w with round := rest } n call with
          | ends _ heq =>
              exact .quiet (hstep.trans heq) hidle rfl rfl rfl rfl
          | opens hspared hcompiles _ hcast heq =>
              rw [hstep, heq]
              exact .opens rfl hround hcall hspared hcompiles hcast rfl rfl
                rfl rfl
          | passes hspared hcompiles _ hcast heq =>
              rw [hstep, heq]
              exact .passes rfl hround hcall hspared hcompiles hcast rfl
      | ask k => exact .quiet hstep hidle rfl rfl rfl rfl
      | release k => exact .quiet hstep hidle rfl rfl rfl rfl
      | wake sleeper => exact .quiet hstep hidle rfl rfl rfl rfl
      | _ =>
          have := (h.inFlight hround rfl).1
          rw [hidle] at this
          cases this

/-- Nor can any other deed. -/
theorem Orderly.idles (h : Orderly w) (hidle : w.idle = true) (d : Deed) :
    Idles c w d (w.after c d) := by
  cases d with
  | turn => exact h.idles_turn hidle
  | elapse t => exact .quiet rfl hidle rfl rfl rfl rfl
  | call script cast => exact .quiet rfl hidle rfl rfl rfl rfl
  | awaitIdle => exact .quiet rfl hidle rfl rfl rfl rfl
  | cancel =>
      -- the flag of the last session is down, so nothing is cancelled
      have hdown : w.isRunning = false := by
        unfold isRunning
        cases hs : w.session with
        | none => rfl
        | some s => exact ((h.resting hidle).2 s hs).2.1
      have heq : w.after c .cancel = w := by
        simp [World.after, World.cancel, hdown]
      exact .quiet heq hidle rfl rfl rfl rfl
  | kill n =>
      obtain ⟨calls, heq⟩ := h.killsBefore hidle n
      exact .quiet heq hidle rfl rfl rfl rfl
  | put name a =>
      exact .stays hidle rfl rfl rfl fun hno => absurd rfl (hno name a)

/-- A deed while no session is in flight, when the host does not touch an
    agent: no agent changes unless a session begins. -/
theorem Orderly.untouched (h : Orderly w) (hidle : w.idle = true)
    {d : Deed} :
    Untouched w (w.after c d)
      ∧ ((w.after c d).idle = true → (∀ name a, d ≠ .put name a) →
        (w.after c d).agents = w.agents) := by
  have hopen : ∀ {n : Nat} {rest : List Job},
      w.round = .begin n :: rest → w.isOpen n = true := fun hround =>
    (h.beginning (turns_round hround) hidle).1
  cases h.idles (c := c) hidle d with
  | stays _ hshown hcompleted hsession hagents =>
      exact ⟨⟨hshown, hcompleted, .inl hsession⟩, fun _ => hagents⟩
  | opens _ hround _ _ _ _ hflies hshown hcompleted hsession =>
      refine ⟨⟨hshown, hcompleted, .inr ⟨_, hsession, hopen hround⟩⟩,
        fun hno => ?_⟩
      rw [hflies] at hno
      cases hno
  | passes _ hround _ _ _ _ heq =>
      rw [heq]
      exact ⟨⟨rfl, rfl, .inr ⟨_, rfl, hopen hround⟩⟩, fun _ _ => rfl⟩

/-- A call that begins while no session is in flight launches one. -/
theorem Orderly.launches_turn (h : Orderly w) (hidle : w.idle = true)
    {n : Nat} {rest : List Job} {call : Call}
    {programs : List (String × Program)}
    {warnings : List (String × List WarningReport)}
    (hround : w.round = .begin n :: rest) (hcall : w.calls[n]? = some call)
    (hspared : call.doomed = false)
    (hprograms : scriptPrograms c.config call.script
      = .ok (programs, warnings)) :
    w.after c .turn
      = { w with round := rest }.launch c n call.cast programs warnings := by
  show w.step c = _
  rw [step_turn (h.still hidle) hround,
    runJob_begin (w := { w with round := rest }) hcall]
  unfold World.beginCall
  rw [hspared, if_neg Bool.false_ne_true, hprograms]
  dsimp only
  rw [if_pos hidle]

/-- If it has agents its session is in flight then. -/
theorem Orderly.begins_turn (h : Orderly w) (hidle : w.idle = true) {n : Nat}
    {rest : List Job} {call : Call} {programs : List (String × Program)}
    {warnings : List (String × List WarningReport)}
    (hround : w.round = .begin n :: rest) (hcall : w.calls[n]? = some call)
    (hspared : call.doomed = false)
    (hprograms : scriptPrograms c.config call.script
      = .ok (programs, warnings)) (hcast : call.cast ≠ []) :
    ∃ lines, w.after c .turn
      = { w with
          round := rest
          idle := false
          agents := w.agents.map fun (a : String × Agent) =>
            if call.cast.contains a.1 then (a.1, a.2.reset) else a
          session := some (w.opened n call.cast programs warnings)
          reported := lines
          ready := w.ready ++ (List.range call.cast.length).map .agent } := by
  rw [h.launches_turn hidle hround hcall hspared hprograms]
  rcases launch_spec c { w with round := rest } n call.cast programs warnings
    with ⟨-, lines, heq⟩ | ⟨hno, -⟩
  · exact ⟨lines, heq⟩
  · exact absurd hno hcast

/-- If it has none its session is over then. -/
theorem Orderly.passes_turn (h : Orderly w) (hidle : w.idle = true) {n : Nat}
    {rest : List Job} {call : Call} {programs : List (String × Program)}
    {warnings : List (String × List WarningReport)}
    (hround : w.round = .begin n :: rest) (hcall : w.calls[n]? = some call)
    (hspared : call.doomed = false)
    (hprograms : scriptPrograms c.config call.script
      = .ok (programs, warnings)) (hcast : call.cast = []) :
    ∃ lines, w.after c .turn
      = { w with
          round := rest
          session := some (w.passed n programs warnings)
          reported := lines }.leave n
            (.returned (w.emptyResult n programs warnings)) := by
  rw [h.launches_turn hidle hround hcall hspared hprograms]
  rcases launch_spec c { w with round := rest } n call.cast programs warnings
    with ⟨hno, -⟩ | ⟨-, lines, heq⟩
  · exact absurd hcast hno
  · exact ⟨lines, heq⟩

/-- A session with agents begins with the first turn of a call, and in no
    other way. -/
theorem Orderly.opens (h : Orderly w) (hidle : w.idle = true) {d : Deed}
    (hflies : (w.after c d).idle = false) :
    d = .turn ∧ ∃ n call rest programs warnings,
      w.round = .begin n :: rest ∧ w.calls[n]? = some call
        ∧ call.doomed = false
        ∧ scriptPrograms c.config call.script = .ok (programs, warnings)
        ∧ call.cast ≠ [] := by
  cases h.idles (c := c) hidle d with
  | stays hstill =>
      rw [hflies] at hstill
      cases hstill
  | opens hturn hround hcall hspared hprograms hcast =>
      exact ⟨hturn, _, _, _, _, _, hround, hcall, hspared, hprograms, hcast⟩
  | passes _ _ _ _ _ _ heq =>
      rw [heq] at hflies
      cases hflies

/-- **Mutual exclusion and idle frame.**  In every world that a host can
    bring about: at most one call is in flight, the one whose session is;
    a call that begins meanwhile ends at once, killed if its host has
    killed it, with the fault of its forests if they cannot be compiled,
    and rejected otherwise, and nothing else happens.  While no call is in
    flight the last session is over, its flag is down, no turn of it is
    left, and no deed shows or announces anything or changes an agent,
    unless the host changes one or a session begins. -/
theorem Reachable.exclusive (h : Reachable c w) :
    (∀ n k, w.InFlight n → w.InFlight k → n = k)
      ∧ (∀ n, w.InFlight n
        ↔ w.idle = false ∧ ∃ s, w.session = some s ∧ s.call = n)
      ∧ (∀ n call rest, w.active = none → w.round = .begin n :: rest →
        w.calls[n]? = some call → (∃ k, w.InFlight k) →
        w.after c .turn
          = { w with round := rest }.endCall n (refusal c call))
      ∧ ((∀ n, ¬ w.InFlight n) →
        w.active = none ∧ (∀ j ∈ w.turns, j.isSessions = false)
          ∧ (∀ s, w.session = some s → s.running = false
            ∧ ∀ t ∈ s.tasks, t.ending.isSome = true)
          ∧ ∀ d, Untouched w (w.after c d)
            ∧ ((w.after c d).idle = true → (∀ name a, d ≠ .put name a) →
              (w.after c d).agents = w.agents)) := by
  have ho := h.orderly
  have hin : ∀ n, w.InFlight n
      ↔ w.idle = false ∧ ∃ s, w.session = some s ∧ s.call = n :=
    fun n => (ho.inFlight_iff n).trans current_eq_some
  refine ⟨?_, hin, ?_, ?_⟩
  · intro n k hn hk
    rw [ho.inFlight_iff] at hn hk
    exact Option.some.inj (hn.symm.trans hk)
  · rintro n call rest ha hround hcall ⟨k, hk⟩
    exact refuses ha hround hcall ((hin k).1 hk).1
  · intro hnone
    have hidle : w.idle = true := by
      by_contra hno
      have hno : w.idle = false := by simpa using hno
      obtain ⟨s, hs, -⟩ := ho.flying hno
      exact hnone s.call ((hin s.call).2 ⟨hno, s, hs, rfl⟩)
    refine ⟨ho.still hidle, ho.noTurns hidle, fun s hs => ?_,
      fun d => ho.untouched hidle⟩
    obtain ⟨hover, hdown, -⟩ := (ho.resting hidle).2 s hs
    refine ⟨hdown, fun t ht => hover _ ?_⟩
    exact List.mem_map.2 ⟨t, ht, rfl⟩

end

/-! ## Two calls at once -/

attribute [local instance] Arithmetic.binary64

/-- A coordinator with the standard settings, no goal and nobody looking
    on. -/
def plainCoordinator : Coordinator :=
  ⟨.standard, none, ⟨.absent, fun _ => ⟨⟨[], false⟩, false⟩⟩, .absent⟩

/-- An agent in the corner of the grid. -/
def cornered : World := .initial [("a", .atStart (.str "a") [0, 0] 90)]

/-- A call that waits a second, and another call made before the first has
    begun; the first one begins. -/
def twoCalls (second : Script) : List Deed :=
  [.call (.programs [("a", [.wait 1])]) ["a"], .call second ["a"],
    .turn, .turn]

/-- The world after them. -/
def afterTwoCalls (second : Script) : World :=
  (cornered.follow plainCoordinator (twoCalls second)).getD cornered

/-- The same program once more. -/
def waitAgain : Script := .programs [("a", [.wait 1])]

/-- A block whose kind is no text and cannot be looked up. -/
def kindless : Script := .forests [("a", .nodes [⟨.list [], [], none⟩])]

/-- The second call begins while the first one is in flight and is
    rejected. -/
theorem exclusive_busy :
    Reachable plainCoordinator (afterTwoCalls waitAgain)
      ∧ (afterTwoCalls waitAgain).after plainCoordinator .turn
        = { afterTwoCalls waitAgain with round := [] }.endCall 1
            .rejected := by
  have hcourse : Course plainCoordinator cornered (twoCalls waitAgain)
      (afterTwoCalls waitAgain) := Course.follow rfl
  have hreach : Reachable plainCoordinator (afterTwoCalls waitAgain) :=
    ⟨_, _, hcourse⟩
  obtain ⟨-, hin, hrefuse, -⟩ := Reachable.exclusive hreach
  have hflight : (afterTwoCalls waitAgain).InFlight 0 :=
    (hin 0).2 ⟨rfl, _, rfl, rfl⟩
  refine ⟨hreach, ?_⟩
  exact hrefuse 1 ⟨waitAgain, ["a"], false, none⟩ [] rfl rfl rfl ⟨0, hflight⟩

/-- Not every call that begins while a session is in flight is rejected:
    forests are compiled first, and one that cannot be compiled ends its
    call with its own fault. -/
theorem rejected_after_compilation :
    Reachable plainCoordinator (afterTwoCalls kindless)
      ∧ (afterTwoCalls kindless).InFlight 0
      ∧ ((afterTwoCalls kindless).after plainCoordinator .turn).calls[1]?
        = some ⟨kindless, ["a"], false,
          some (.uncompiled (.operand (.notAKey "list")))⟩ := by
  have hcourse : Course plainCoordinator cornered (twoCalls kindless)
      (afterTwoCalls kindless) := Course.follow rfl
  have hreach : Reachable plainCoordinator (afterTwoCalls kindless) :=
    ⟨_, _, hcourse⟩
  refine ⟨hreach, ?_, rfl⟩
  rw [hreach.orderly.inFlight_iff]
  rfl

end World

end BlockStage
