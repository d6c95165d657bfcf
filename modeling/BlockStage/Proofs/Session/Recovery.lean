import BlockStage.Proofs.Session.Containment
import BlockStage.Proofs.Session.Soundness
import BlockStage.Proofs.Session.Waiters

/-! # Recovery — a coordinator is free again after every session

    However the call of a session ends, by a result that tells of failures,
    by a cancellation or by a kill, the coordinator is at rest afterwards:
    its flag is down, nobody acts, everyone who waited is told to go on, and
    the next call that begins opens a session (`Reachable.atRest`,
    `Reachable.recovers`).  What cannot be compiled ends its call before
    there is a session, and the coordinator stays at rest. -/

namespace BlockStage

/-- What a call could not compile, if it has ended so. -/
def CallEnd.fault? : CallEnd → Option BlockFault
  | uncompiled f => some f
  | _ => none

namespace World

section

variable [Arithmetic] {c : Coordinator} {v w : World} {n : Nat}
  {call : Call}

/-- A coordinator at rest, ready for the next call. -/
structure AtRest (c : Coordinator) (v : World) : Prop where
  idle : v.idle = true
  lowered : v.isRunning = false
  /-- Nobody's run goes on. -/
  ended : ∀ s, v.session = some s → ∀ t ∈ s.tasks, t.ending.isSome = true
  turns : ∀ j ∈ v.turns, j.isSessions = false
  /-- Nobody waits for idleness: whoever has not gone on yet has a turn to
      come in which it asks, or in which it goes on. -/
  waiters : ∀ k state, v.waiters[k]? = some state →
    state = .asks ∧ .ask k ∈ v.turns ∨ state = .woken ∧ .release k ∈ v.turns
      ∨ state = .released
  /-- Whoever asks goes on at once. -/
  answers : ∀ k, (∃ rest, v.round = .ask k :: rest) → k < v.waiters.length →
    (v.after c .turn).waiters[k]? = some .released
  /-- A call that begins, and was not killed before, opens a session; if it
      has no agents, that session is over at once, with a result. -/
  accepts : ∀ n call programs warnings, (∃ rest, v.round = .begin n :: rest) →
    v.calls[n]? = some call → call.doomed = false →
    scriptPrograms c.config call.script = .ok (programs, warnings) →
    (v.after c .turn).current = some n
      ∨ call.cast = [] ∧ ∃ r, (v.after c .turn).ending? n = some (.returned r)

/-- While no session is in flight the coordinator is at rest. -/
theorem Reachable.atRest (h : Reachable c v) (hidle : v.idle = true) :
    AtRest c v where
  idle := hidle
  lowered := by
    unfold isRunning
    cases hs : v.session with
    | none => rfl
    | some s => exact ((h.orderly.resting hidle).2 s hs).2.1
  ended s hs t ht :=
    ((h.orderly.resting hidle).2 s hs).1 _ (List.mem_map.2 ⟨t, ht, rfl⟩)
  turns := h.orderly.noTurns hidle
  waiters k state hk := by
    cases state with
    | asks => exact .inl ⟨rfl, h.tended.asks k hk⟩
    | waits =>
        have hflies := h.tended.waits k hk
        rw [hidle] at hflies
        cases hflies
    | woken => exact .inr (.inl ⟨rfl, h.tended.woken k hk⟩)
    | released => exact .inr (.inr rfl)
  answers k hturn hk := by
    obtain ⟨rest, hround⟩ := hturn
    show (v.step c).waiters[k]? = some .released
    rw [step_turn (h.orderly.still hidle) hround]
    show (v.waiters.set k (if v.idle then .released else .waits))[k]? = _
    rw [if_pos hidle, List.getElem?_set_self hk]
  accepts n call _ _ hturn hcall hspared hprograms := by
    by_cases hcast : call.cast = []
    · have hpassed := h.passed hidle hturn hcall hspared hprograms hcast
      obtain ⟨e, he⟩ := ending?_shut (hpassed.isShut hcall)
      obtain ⟨call', hcall', hend⟩ := Option.bind_eq_some_iff.1 he
      rw [hpassed.ending hcall'] at hend
      exact .inr ⟨hcast, _, he.trans hend.symm⟩
    · exact .inl
        (h.opened hidle hturn hcall hspared hprograms hcast).current

/-- The deed with which a session is over ends its call, leaves the
    coordinator at rest and tells everyone to go on who waits. -/
theorem Reachable.recovers (h : Reachable c v) (hcur : v.current = some n)
    {d : Deed} (hd : v.Admits d) (hleft : (v.after c d).current ≠ some n) :
    (v.after c d).isShut n = true ∧ AtRest c (v.after c d)
      ∧ ∀ k, v.waiters[k]? = some .waits →
        (v.after c d).waiters[k]? = some .woken
          ∧ .release k ∈ (v.after c d).turns := by
  have ho := h.orderly
  have hshut := (ho.known_after hd (.inl hcur)).resolve_left hleft
  obtain ⟨hidle, s, hs, rfl⟩ := current_eq_some.1 hcur
  obtain ⟨s', hs', hcall⟩ := (ho.moves (c := c) hidle hs d).call hs
  have h' : Reachable c (v.after c d) := h.course (.single hd)
  have hrest := h'.orderly.shut_idle hs' (hcall ▸ hshut)
  exact ⟨hshut, h'.atRest hrest,
    fun _ => (ho.tends (c := c) d).lets_go hidle hrest⟩

/-- What becomes of a call that begins while no session is in flight, if it
    does not start one: it was killed before, or it cannot be compiled. -/
theorem Reachable.begins (h : Reachable c w) (hidle : w.idle = true)
    (hturn : ∃ rest, w.round = .begin n :: rest)
    (hcall : w.calls[n]? = some call) :
    Starts c w n call.cast
      ∨ AtRest c (w.after c .turn)
        ∧ (call.doomed = true ∧ (w.after c .turn).ending? n = some .killed
          ∨ ∃ fs f, call.script = .forests fs
            ∧ scriptPrograms c.config (.forests fs) = .error f
            ∧ (w.after c .turn).ending? n = some (.uncompiled f)) := by
  obtain ⟨rest, hround⟩ := hturn
  have hreach : Reachable c (w.after c .turn) :=
    h.course (.single (admits_turn hround))
  have hstep : w.after c .turn
      = ({ w with round := rest } : World).beginCall c n call :=
    (step_turn (h.orderly.still hidle) hround).trans
      (runJob_begin (w := { w with round := rest }) hcall)
  cases beginCall_cases c { w with round := rest } n call with
  | opens hspared hprograms =>
      exact .inl ⟨h, hidle, ⟨rest, hround⟩, call, hcall, rfl, hspared, _, _,
        hprograms⟩
  | passes hspared hprograms =>
      exact .inl ⟨h, hidle, ⟨rest, hround⟩, call, hcall, rfl, hspared, _, _,
        hprograms⟩
  | @ends e hrefused heq =>
      have hrest : AtRest c (w.after c .turn) :=
        hreach.atRest (by rw [hstep, heq]; exact hidle)
      have hends : (w.after c .turn).ending? n = some e := by
        rw [hstep, heq]
        show ((w.calls.modify n fun c => { c with ending := some e })[n]?).bind
          (·.ending) = _
        simp [hcall]
      refine .inr ⟨hrest, ?_⟩
      cases hrefused with
      | killed hdoom => exact .inl ⟨hdoom, hends⟩
      | uncompiled _ hprograms =>
          cases hscript : call.script with
          | programs ps =>
              rw [hscript] at hprograms
              cases hprograms
          | forests fs =>
              exact .inr ⟨fs, _, rfl, hscript ▸ hprograms, hends⟩
      | rejected _ hbusy =>
          have hbusy : w.idle = false := hbusy
          rw [hidle] at hbusy
          cases hbusy

/-! ## All calls of a coordinator -/

/-- Faults stay where they arise: a coordinator returns results that tell of
    them. -/
structure Contains (c : Coordinator) : Prop where
  /-- A call that begins while no session is in flight starts one, unless it
      was killed before or brings forests that cannot be compiled. -/
  begins : ∀ w n call, Reachable c w → w.idle = true →
    (∃ rest, w.round = .begin n :: rest) → w.calls[n]? = some call →
    Starts c w n call.cast
      ∨ AtRest c (w.after c .turn)
        ∧ (call.doomed = true ∧ (w.after c .turn).ending? n = some .killed
          ∨ ∃ fs f, call.script = .forests fs
            ∧ scriptPrograms c.config (.forests fs) = .error f
            ∧ (w.after c .turn).ending? n = some (.uncompiled f))
  /-- Forests that can be written out can be compiled. -/
  compiles : ∀ ceiling : Int, c.config.loopCeiling = .int ceiling →
    Value.legibleInt ceiling = true → 1 ≤ ceiling →
    ∀ fs : List (String × Forest), (∀ f ∈ fs, f.2.isLegible = true) →
    ∃ programs warnings,
      scriptPrograms c.config (.forests fs) = .ok (programs, warnings)
  /-- A call that starts a session ends in nothing but a result, unless it
      is killed. -/
  returns : ∀ w n cast ds v, Starts c w n cast →
    Course c (w.after c .turn) ds v → (∀ d ∈ ds, LeavesAlone cast d) →
    (v.current = some n ∨ v.isShut n = true)
      ∧ ∀ e, v.ending? n = some e →
        (∃ r, e = .returned r) ∨ e = .killed ∧ .kill n ∈ ds
  /-- It does end, in every fair execution. -/
  returned : ∀ w n cast (e : Execution c (w.after c .turn)),
    Starts c w n cast → e.Fair → e.Animates →
    (∀ k, LeavesAlone cast (e.deed k)) → (∀ k, e.deed k ≠ .kill n) →
    ∃ k r, (e.world k).ending? n = some (.returned r)
  /-- Whoever's run raises an error is reported as failed. -/
  reported : ∀ u v n id f ds r, Reachable c u → u.current = some n →
    Raises c u id f → Course c (u.after c .turn) ds v →
    v.ending? n = some (.returned r) → (id, f.message) ∈ r.failed

/-- However a session ends, the coordinator is free again. -/
structure Recovers (c : Coordinator) : Prop where
  /-- While no session is in flight it is at rest. -/
  rests : ∀ v, Reachable c v → v.idle = true → AtRest c v
  /-- When a session is over everyone is told to go on who waits. -/
  lets_go : ∀ v d n, Reachable c v → v.current = some n → v.Admits d →
    (v.after c d).current ≠ some n →
    (v.after c d).isShut n = true ∧ AtRest c (v.after c d)
      ∧ ∀ k, v.waiters[k]? = some .waits →
        (v.after c d).waiters[k]? = some .woken
          ∧ .release k ∈ (v.after c d).turns
  /-- In every fair execution each session is over at last, and each waiter
      goes on. -/
  released : ∀ w (e : Execution c w), Reachable c w → e.Fair → e.Animates →
    e.Concludes ∧ ∀ i k, k < (e.world i).waiters.length →
      ∃ m, i ≤ m ∧ (e.world m).waiters[k]? = some .released

/-- **Faults are contained, and the coordinator recovers from them.**  With a
    goal of numbers, or none, and whatever the agents are to run, whenever the
    observer raises an error, whatever the handler does, and whenever the host
    cancels or kills: a call that starts a session returns a result unless it
    is killed, the result tells whose run raised an error, and on every way
    out the coordinator is at rest again, everyone who waits goes on and the
    next call is accepted. -/
theorem contained_and_recovered [Arithmetic.Doubles]
    (hgoal : ∀ g, c.goal = some g → g.isNumeric = true) :
    Contains c ∧ Recovers c := by
  have hreturns : ∀ w n cast ds v, Starts c w n cast →
      Course c (w.after c .turn) ds v → (∀ d ∈ ds, LeavesAlone cast d) →
      (v.current = some n ∨ v.isShut n = true)
        ∧ ∀ e, v.ending? n = some e →
          (∃ r, e = .returned r) ∨ e = .killed ∧ .kill n ∈ ds :=
    fun _ _ _ _ _ h hcourse hput => h.returns hgoal hcourse hput
  refine ⟨⟨fun _ _ _ h => h.begins, ?_, hreturns, ?_, ?_⟩,
    ⟨fun _ h => h.atRest, fun _ _ _ h hcur hd => h.recovers hcur hd, ?_⟩⟩
  · intro ceiling hloops hlegible hpositive fs hfs
    obtain ⟨programs, warnings, hok, -⟩ :=
      scriptPrograms_legible hloops hlegible hpositive hfs
    exact ⟨programs, warnings, hok⟩
  · intro w n cast e h hf hticks hput hkill
    -- the session comes to its end, which is a result if nobody kills it
    obtain ⟨hreach, hknown, -⟩ := h.landed
    obtain ⟨k, hshut⟩ : ∃ k, (e.world k).isShut n = true := by
      rw [← e.start] at hknown
      rcases hknown with hcur | hshut
      · obtain ⟨k, -, hshut⟩ := hf.concludes hreach hticks 0 n hcur
        exact ⟨k, hshut⟩
      · exact ⟨0, hshut⟩
    obtain ⟨x, hx⟩ := ending?_shut hshut
    obtain ⟨r, rfl⟩ | ⟨-, hkilled⟩ := (hreturns w n cast _ _ h (e.course k)
      (fun d hd => by
        obtain ⟨i, rfl⟩ := Execution.mem_deeds hd
        exact hput i)).2 x hx
    · exact ⟨k, r, hx⟩
    · obtain ⟨i, hi⟩ := Execution.mem_deeds hkilled
      exact absurd hi (hkill i)
  · exact fun u v n id f ds r hu hcur h hcourse hr =>
      h.reported hu hcur hcourse hr
  · intro w e hw hf hticks
    have hends := hf.concludes hw hticks
    exact ⟨hends, fun i k hk => hf.released hw hends hk⟩

end

/-! ## Junk, an observer that raises an error, and a number too long -/

section

attribute [local instance] Arithmetic.cubed

/-- A coordinator whose observer yields before it raises an error at the
    first snapshot, and whose handler would do the same. -/
def clumsyCoordinator : Coordinator :=
  ⟨.standard, some (.cell 9 9),
    ⟨.present, fun k => ⟨⟨[.finite 0], k = 1⟩, false⟩⟩,
    .present ⟨[.finite 0], true⟩⟩

/-- The call of two agents is about to begin, one of which is given what is
    no instruction; somebody waits for idleness. -/
def beforeFaults : World :=
  ((initial [("a", .atStart (.str "a") [0, 0] 90),
    ("b", .atStart (.str "b") [3, 4] 180)]).follow clumsyCoordinator
    [.call (.programs [("a", [.foreign (.str "junk")]), ("b", [.move 1])])
      ["a", "b"], .awaitIdle, .turn]).getD (.initial [])

/-- The world in which the one comes to what is no instruction. -/
def atFault : World :=
  (beforeFaults.follow clumsyCoordinator (List.replicate 6 .turn)).getD
    (.initial [])

/-- The world in which the call has ended and the waiter was released. -/
def afterFaults : World :=
  ((atFault.after clumsyCoordinator .turn).follow clumsyCoordinator
    (List.replicate 17 .turn)).getD (.initial [])

/-- Both of them fail, the result tells of it, and the coordinator is at
    rest again; in a fair execution the waiter is released. -/
theorem contained_and_recovered_clumsy :
    Starts clumsyCoordinator beforeFaults 0 ["a", "b"]
      ∧ (∃ r, afterFaults.ending? 0 = some (.returned r)
        ∧ ("a", "Unknown instruction: 'junk'") ∈ r.failed)
      ∧ AtRest clumsyCoordinator afterFaults
      ∧ ∃ e : Execution clumsyCoordinator
          (beforeFaults.after clumsyCoordinator .turn),
        e.Fair ∧ (∃ k r, (e.world k).ending? 0 = some (.returned r))
          ∧ ∃ m, (e.world m).waiters[0]? = some .released := by
  have hdoubles : Arithmetic.Doubles := Arithmetic.cubed_doubles
  obtain ⟨hcontains, hrecovers⟩ :=
    contained_and_recovered (c := clumsyCoordinator) (by rintro g ⟨⟩; rfl)
  have hreach : Reachable clumsyCoordinator beforeFaults :=
    ⟨_, _, Course.followed _ (by decide +kernel)⟩
  have hstarts : Starts clumsyCoordinator beforeFaults 0 ["a", "b"] :=
    ⟨hreach, rfl, ⟨_, rfl⟩, _, rfl, rfl, rfl, _, _, rfl⟩
  have hmiddle : Reachable clumsyCoordinator atFault :=
    hreach.course (Course.followed _ (by decide +kernel))
  have hraises : Raises clumsyCoordinator atFault "a"
      (.about .notAnInstruction (.str "junk")) :=
    .acting rfl rfl rfl rfl rfl rfl rfl rfl rfl
  have hlast : Course clumsyCoordinator
      (atFault.after clumsyCoordinator .turn) (List.replicate 17 .turn)
      afterFaults := Course.followed _ (by decide +kernel)
  have hended : ((afterFaults.ending? 0).bind CallEnd.result?).isSome
      = true := by
    decide +kernel
  refine ⟨hstarts, ?_, ?_, ?_⟩
  · obtain ⟨r, hr⟩ := Option.isSome_iff_exists.1 hended
    have hr := ending?_result.1 hr
    exact ⟨r, hr, hcontains.reported _ _ 0 _ _ _ r hmiddle rfl hraises hlast
      hr⟩
  · exact hrecovers.rests _
      ((hmiddle.course (.single (by decide +kernel))).course hlast)
      (by decide +kernel)
  -- from the beginning the session goes on to the end of its call
  obtain ⟨e, hf, hturns⟩ := turns_to_rest (c := clumsyCoordinator)
    (w := beforeFaults.after clumsyCoordinator .turn) 23 (by decide +kernel)
  refine ⟨e, hf, ?_, ?_⟩
  · refine hcontains.returned _ 0 _ e hstarts hf nofun ?_ ?_
    · intro k name a hput
      rw [hturns k] at hput
      cases hput
    · intro k hkill
      rw [hturns k] at hkill
      cases hkill
  · obtain ⟨m, -, hm⟩ := (hrecovers.released _ e
      (hreach.course (.single (by decide +kernel))) hf nofun).2 0 0 (by
        rw [e.start]
        decide +kernel)
    exact ⟨m, hm⟩

/-- Blocks for an agent, in writing, that say a list with a number of
    thousands of digits in it. -/
def hugeScript : Script :=
  .forests [("a", .source (.list [.object [("kind", .str "say"),
    ("fields", .object [("text", .list [.int (10 ^ 5000)])])]]))]

/-- The world in which the call begins that brings them. -/
def beforeHuge : World :=
  ((initial [("a", .atStart (.str "a") [0, 0] 90)]).follow plainCoordinator
    [.call hugeScript ["a"], .turn]).getD (.initial [])

/-- Not every call that begins while no session is in flight, and that
    nobody kills, returns a result: it ends with the fault of what it brings
    if there is too long a number within a list that is to be said. -/
theorem uncompiled_huge :
    Reachable plainCoordinator beforeHuge ∧ beforeHuge.idle = true
      ∧ beforeHuge.round = [.begin 0]
      ∧ beforeHuge.calls[0]? = some ⟨hugeScript, ["a"], false, none⟩
      ∧ ∃ f, (beforeHuge.after plainCoordinator .turn).ending? 0
        = some (.uncompiled f) := by
  have hended : (((beforeHuge.after plainCoordinator .turn).ending? 0).bind
      CallEnd.fault?).isSome = true := by
    decide +kernel
  refine ⟨⟨_, _, Course.followed _ (by decide +kernel)⟩, rfl, rfl, rfl, ?_⟩
  obtain ⟨f, hf⟩ := Option.isSome_iff_exists.1 hended
  obtain ⟨e, he, hfault⟩ := Option.bind_eq_some_iff.1 hf
  cases e with
  | uncompiled f => exact ⟨f, he⟩
  | _ => cases hfault

end

end World

end BlockStage
