import BlockStage.Proofs.Compile.Reading
import BlockStage.Proofs.Session.Course
import Mathlib.Data.List.Forall2

/-! # Likeness — what makes no difference to a session

    Nothing that happens around a coordinator depends on how the scripts of
    its calls are written, as long as they compile to the same, nor on what
    has been reported, nor on whether the handler of completions raises an
    error, at once or after it has slept, once it has recorded one.  `Like`
    relates worlds that differ in these matters only; every deed keeps it
    (`Like.after`), and so does every course (`Like.course`). -/

namespace BlockStage

/-! ## What may differ -/

/-- The line about a handler that raises an error. -/
def handlerLine : LogLine :=
  ⟨.error, .coordinator, .ok "completion handler failed"⟩

/-- What two handlers still have to do, if all that they differ in is
    whether they raise an error in the end, and the line about that does not
    count. -/
inductive Errand.Like (counts : LogLine → Bool) : Errand → Errand → Prop
  | same (e : Errand) : Like counts e e
  | raises (rests : List Scalar) : counts handlerLine = false →
      Like counts ⟨rests, false⟩ ⟨rests, true⟩

/-- Handlers that behave alike, apart from lines that do not count. -/
inductive HandlerMode.Like (counts : LogLine → Bool) :
    HandlerMode → HandlerMode → Prop
  | absent : Like counts .absent .absent
  | present {e e' : Errand} : e.Like counts e' →
      Like counts (.present e) (.present e')

/-- A handler is like itself. -/
theorem HandlerMode.Like.refl {counts : LogLine → Bool} (h : HandlerMode) :
    h.Like counts h := by
  cases h with
  | absent => exact .absent
  | present e => exact .present (.same e)

/-- Sessions that differ in what their handlers still have to do only. -/
inductive Session.Like (counts : LogLine → Bool) : Session → Session → Prop
  | mk (s : Session) {handling : Option Errand} :
      Option.Rel (Errand.Like counts) s.handling handling →
      Like counts s { s with handling := handling }

/-- A session is like itself. -/
theorem Session.Like.refl {counts : LogLine → Bool} (s : Session) :
    s.Like counts s := by
  refine .mk s ?_
  cases s.handling with
  | none => exact .none
  | some e => exact .some (.same e)

/-- Scripts that compile to the same. -/
structure Script.Like (c : Config) (s s' : Script) : Prop where
  programs : World.scriptPrograms c s' = World.scriptPrograms c s

/-- Calls that differ in how their scripts are written only. -/
inductive Call.Like (c : Config) : Call → Call → Prop
  | mk (k : Call) {s : Script} : k.script.Like c s →
      Like c k { k with script := s }

/-- Deeds that differ in how the scripts of calls are written only. -/
inductive Deed.Like (c : Config) : Deed → Deed → Prop
  | same (d : Deed) : Like c d d
  | call {s s' : Script} (cast : List String) : s.Like c s' →
      Like c (.call s cast) (.call s' cast)

namespace World

/-- Worlds that differ in how the scripts of calls are written, in what the
    handler still has to do and in lines that do not count only. -/
inductive Like (c : Config) (counts : LogLine → Bool) :
    World → World → Prop
  | mk (w : World) {calls : List Call} {lines : List LogLine}
      {session : Option Session} :
      List.Forall₂ (Call.Like c) w.calls calls →
      lines.filter counts = w.reported.filter counts →
      Option.Rel (Session.Like counts) w.session session →
      Like c counts w
        { w with calls := calls, reported := lines, session := session }

variable {c : Config} {counts : LogLine → Bool} {w v : World}
  {s s' : Session}

/-- A world is like itself. -/
theorem Like.refl (w : World) : Like c counts w w := by
  refine .mk w (List.forall₂_same.2 fun k _ => .mk k ⟨rfl⟩) rfl ?_
  cases w.session with
  | none => exact .none
  | some s => exact .some (.refl s)

/-! ## The parts of a world -/

namespace Like

/-- Lines that count stay the same when one is added. -/
theorem alterLines {lines lines' : List LogLine} (l : LogLine)
    (h : lines'.filter counts = lines.filter counts) :
    (l :: lines').filter counts = (l :: lines).filter counts := by
  simp only [List.filter_cons, h]

/-- Calls stay like each other when one of them is changed alike. -/
theorem alterCalls {calls calls' : List Call} {n : Nat} {f : Call → Call}
    (h : List.Forall₂ (Call.Like c) calls calls')
    (hf : ∀ k k', Call.Like c k k' → Call.Like c (f k) (f k')) :
    List.Forall₂ (Call.Like c) (calls.modify n f) (calls'.modify n f) := by
  induction h generalizing n with
  | nil => simp
  | cons hk hrest ih =>
      cases n with
      | zero => exact .cons (hf _ _ hk) hrest
      | succ n => exact .cons hk ih

theorem report (h : Like c counts w v) (level : Level) (what : String) :
    Like c counts (w.report level what) (v.report level what) := by
  cases h with
  | mk hcalls hlines hses =>
      exact .mk (w.report level what) hcalls (alterLines _ hlines) hses

/-- A line that does not count makes no difference. -/
theorem uncounted (h : Like c counts w v) {l : LogLine}
    (hl : counts l = false) :
    Like c counts w { v with reported := l :: v.reported } := by
  cases h with
  | mk hcalls hlines hses =>
      refine .mk w hcalls ?_ hses
      simp only [List.filter_cons, hl, hlines]
      rfl

theorem enqueue (h : Like c counts w v) (j : Job) :
    Like c counts (w.enqueue j) (v.enqueue j) := by
  cases h with
  | mk hcalls hlines hses => exact .mk (w.enqueue j) hcalls hlines hses

/-- Sessions that are changed alike stay alike. -/
theorem withSession (h : Like c counts w v) {f f' : Session → Session}
    (hf : ∀ s s', s.Like counts s' → (f s).Like counts (f' s')) :
    Like c counts (w.withSession f) (v.withSession f') := by
  cases h with
  | mk hcalls hlines hses =>
      refine .mk (w.withSession f) hcalls hlines ?_
      show Option.Rel _ (w.session.map f) (Option.map f' _)
      generalize w.session = x at hses
      cases hses with
      | none => exact .none
      | some hs => exact .some (hf _ _ hs)

/-- A change that is not about the handler keeps sessions alike. -/
theorem alterSession (h : Like c counts w v) {f : Session → Session}
    (hf : ∀ s handling, f { s with handling := handling }
      = { f s with handling := handling } := by intros; rfl)
    (hkeep : ∀ s, (f s).handling = s.handling := by intros; rfl) :
    Like c counts (w.withSession f) (v.withSession f) := by
  refine h.withSession ?_
  intro s s' hs
  cases hs with
  | @mk handling hrel =>
      rw [hf s handling]
      refine .mk (f s) ?_
      rw [hkeep]
      exact hrel

theorem setAgent (h : Like c counts w v) (id : String) (a : Agent) :
    Like c counts (w.setAgent id a) (v.setAgent id a) := by
  cases h with
  | mk hcalls hlines hses => exact .mk (w.setAgent id a) hcalls hlines hses

theorem withActive (h : Like c counts w v) (i : Option Nat) :
    Like c counts { w with active := i } { v with active := i } := by
  cases h with
  | mk hcalls hlines hses => exact .mk { w with active := i } hcalls hlines hses

theorem withAgents (h : Like c counts w v)
    (agents : List (String × Agent)) :
    Like c counts { w with agents := agents }
      { v with agents := agents } := by
  cases h with
  | mk hcalls hlines hses => exact .mk { w with agents := agents } hcalls hlines hses

theorem record (h : Like c counts w v) (e : CompletionEvent) :
    Like c counts (w.record e) (v.record e) := by
  cases h with
  | mk hcalls hlines hses => exact .mk (w.record e) hcalls hlines hses

theorem sleep [Arithmetic] (h : Like c counts w v) (seconds : Scalar)
    (sleeper : Job) :
    Like c counts (w.sleep seconds sleeper) (v.sleep seconds sleeper) := by
  unfold World.sleep
  split
  · exact h.enqueue sleeper
  · cases h with
    | mk hcalls hlines hses => exact .mk { w with timers := _ } hcalls hlines hses

theorem withRound (h : Like c counts w v) (jobs : List Job) :
    Like c counts { w with round := jobs } { v with round := jobs } := by
  cases h with
  | mk hcalls hlines hses => exact .mk { w with round := jobs } hcalls hlines hses

theorem withReady (h : Like c counts w v) (jobs : List Job) :
    Like c counts { w with ready := w.ready ++ jobs }
      { v with ready := v.ready ++ jobs } := by
  cases h with
  | mk hcalls hlines hses =>
      exact .mk { w with ready := w.ready ++ jobs } hcalls hlines hses

theorem withNow (h : Like c counts w v) (now : Time) :
    Like c counts { w with now := now } { v with now := now } := by
  cases h with
  | mk hcalls hlines hses => exact .mk { w with now := now } hcalls hlines hses

theorem withLines (h : Like c counts w v) (lines : List LogLine) :
    Like c counts { w with reported := lines ++ w.reported }
      { v with reported := lines ++ v.reported } := by
  cases h with
  | mk hcalls hlines hses =>
      exact .mk { w with reported := lines ++ w.reported } hcalls
        (by simp only [List.filter_append, hlines]) hses

theorem endCall (h : Like c counts w v) (n : Nat) (e : CallEnd) :
    Like c counts (w.endCall n e) (v.endCall n e) := by
  cases h with
  | mk hcalls hlines hses =>
      refine .mk (w.endCall n e) (alterCalls hcalls ?_) hlines hses
      intro _ _ hk
      cases hk with
      | mk hs => exact .mk _ hs

theorem doomCall (h : Like c counts w v) (n : Nat) :
    Like c counts (w.withCall n fun k => { k with doomed := true })
      (v.withCall n fun k => { k with doomed := true }) := by
  cases h with
  | mk hcalls hlines hses =>
      refine .mk (w.withCall n fun k => { k with doomed := true })
        (alterCalls hcalls ?_) hlines hses
      intro _ _ hk
      cases hk with
      | mk hs => exact .mk _ hs

theorem becomeIdle (h : Like c counts w v) :
    Like c counts w.becomeIdle v.becomeIdle := by
  cases h with
  | mk hcalls hlines hses => exact .mk w.becomeIdle hcalls hlines hses

theorem setWaiter (h : Like c counts w v) (k : Nat) (state : Waiter) :
    Like c counts (w.setWaiter k state) (v.setWaiter k state) := by
  cases h with
  | mk hcalls hlines hses => exact .mk (w.setWaiter k state) hcalls hlines hses

theorem rouse (h : Like c counts w v) (wakes : Timer → Bool) (j : Job) :
    Like c counts (w.rouse wakes j) (v.rouse wakes j) := by
  cases h with
  | mk hcalls hlines hses =>
      unfold World.rouse
      dsimp only
      split
      · exact .mk (World.enqueue { w with timers := _ } j) hcalls hlines hses
      · exact .mk w hcalls hlines hses

/-! ## What is read off a world -/

theorem session (h : Like c counts w v) :
    (w.session = none ∧ v.session = none)
      ∨ ∃ s s', w.session = some s ∧ v.session = some s'
        ∧ s.Like counts s' := by
  cases h with
  | mk hcalls hlines hses =>
      rename_i calls lines session
      generalize hw : w.session = x at hses
      cases hses with
      | none => exact .inl ⟨rfl, rfl⟩
      | some hs => exact .inr ⟨_, _, rfl, rfl, hs⟩

/-- The same part of each agent. -/
theorem task? (h : Like c counts w v) (i : Nat) :
    v.task? i = w.task? i := by
  unfold World.task?
  rcases h.session with ⟨hw, hv⟩ | ⟨s, _, hw, hv, ⟨-⟩⟩
  · rw [hw, hv]
  · rw [hw, hv]
    rfl

theorem agents (h : Like c counts w v) : v.agents = w.agents := by
  cases h; rfl

theorem now (h : Like c counts w v) : v.now = w.now := by cases h; rfl

theorem isRunning (h : Like c counts w v) : v.isRunning = w.isRunning := by
  unfold World.isRunning
  rcases h.session with ⟨hw, hv⟩ | ⟨s, _, hw, hv, ⟨-⟩⟩
  · rw [hw, hv]
  · rw [hw, hv]
    rfl

/-- The same call, but for its script. -/
theorem call? (h : Like c counts w v) (n : Nat) :
    (w.calls[n]? = none ∧ v.calls[n]? = none)
      ∨ ∃ k k', w.calls[n]? = some k ∧ v.calls[n]? = some k'
        ∧ k.Like c k' := by
  cases h with
  | mk hcalls hlines hses =>
      rename_i calls lines session
      have hlen := hcalls.length_eq
      rcases Nat.lt_or_ge n w.calls.length with hn | hn
      · refine .inr ⟨w.calls[n], calls.get ⟨n, by omega⟩, ?_, ?_, ?_⟩
        · exact List.getElem?_eq_getElem hn
        · exact List.getElem?_eq_getElem (show n < calls.length by omega)
        · exact hcalls.get hn (by omega)
      · exact .inl ⟨List.getElem?_eq_none hn,
          List.getElem?_eq_none (show calls.length ≤ n from hlen ▸ hn)⟩

theorem isDoomed (h : Like c counts w v) (hs : s.Like counts s') :
    v.isDoomed s' = w.isDoomed s := by
  cases hs
  unfold World.isDoomed
  rcases h.call? s.call with ⟨hw, hv⟩ | ⟨_, _, hw, hv, hk⟩
  · rw [hw, hv]
  · cases hk
    rw [hw, hv]
    rfl

/-! ## What happens to alike worlds -/

theorem cancel (h : Like c counts w v) : Like c counts w.cancel v.cancel := by
  unfold World.cancel
  rw [h.isRunning]
  split
  · exact (h.report _ _).alterSession
  · exact h

theorem withTask (h : Like c counts w v) (i : Nat)
    (f : AgentTask → AgentTask) :
    Like c counts (w.withTask i f) (v.withTask i f) :=
  h.alterSession

theorem endTask (h : Like c counts w v) (i : Nat) (e : AgentEnd) :
    Like c counts (w.endTask i e) (v.endTask i e) :=
  ((h.withTask i _).withActive none).enqueue _

theorem failTask (h : Like c counts w v) (i : Nat) (id : String)
    (f : RunFault) :
    Like c counts (w.failTask i id f) (v.failTask i id f) :=
  (h.report _ _).endTask i _

theorem suspend [Arithmetic] (h : Like c counts w v) (i : Nat)
    (t : AgentTask) (seconds : Scalar) :
    Like c counts (w.suspend i t seconds) (v.suspend i t seconds) :=
  (h.withActive none).sleep _ _

theorem attend [Arithmetic] (h : Like c counts w v) (i : Nat)
    (t : AgentTask) (e : Errand) :
    Like c counts (w.attend i t e) (v.attend i t e) := by
  unfold World.attend
  split
  · dsimp only
    split
    · exact (h.withTask i _).failTask _ _ _
    · exact h.withTask i _
  · exact (h.withTask i _).suspend _ _ _

theorem leave (h : Like c counts w v) (n : Nat) (e : CallEnd) :
    Like c counts (w.leave n e) (v.leave n e) :=
  (h.endCall n e).becomeIdle

theorem finishCall (h : Like c counts w v) (hs : s.Like counts s')
    (r : SessionResult) :
    Like c counts (w.finishCall s r) (v.finishCall s' r) := by
  cases hs
  exact Like.leave (h.alterSession) _ _

theorem abandon (h : Like c counts w v) (hs : s.Like counts s') :
    Like c counts (w.abandon s) (v.abandon s') := by
  cases hs
  exact Like.leave
    (Like.report (h.alterSession) _ _) _ _

/-- A handler that raises an error leaves a line and nothing else. -/
theorem handle [Arithmetic] (h : Like c counts w v) (hs : s.Like counts s')
    (r : SessionResult) {e e' : Errand} (he : e.Like counts e') :
    Like c counts (w.handle s r e) (v.handle s' r e') := by
  have hrecord : completionOf s' r = completionOf s r := by
    cases hs
    rfl
  obtain ⟨rests, fails⟩ := e
  cases rests with
  | nil =>
      cases he with
      | same =>
          unfold World.handle
          dsimp only
          rw [hrecord]
          split
          · exact ((h.record _).report _ _).finishCall hs r
          · exact (h.record _).finishCall hs r
      | raises _ hcounts =>
          unfold World.handle
          dsimp only
          rw [hrecord]
          exact ((h.record _).uncounted hcounts).finishCall hs r
  | cons seconds rests =>
      have hsleeps : ∀ {x x' : Errand}, x.Like counts x' →
          Like c counts
            ((w.withSession fun s => { s with handling := some x }).sleep
              seconds .handled)
            ((v.withSession fun s => { s with handling := some x' }).sleep
              seconds .handled) := by
        intro x x' hx
        refine Like.sleep (h.withSession ?_) _ _
        rintro s _ ⟨-⟩
        exact .mk { s with handling := some x } (.some hx)
      cases he with
      | same => exact hsleeps (.same _)
      | raises _ hcounts => exact hsleeps (.raises rests hcounts)

theorem handled [Arithmetic] (h : Like c counts w v)
    (hs : s.Like counts s') :
    Like c counts (w.handled s) (v.handled s') := by
  unfold World.handled
  rw [h.isDoomed hs]
  have hresult : s'.result = s.result := by
    cases hs
    rfl
  have hcall : s'.call = s.call := by
    cases hs
    rfl
  have hrel : Option.Rel (Errand.Like counts) s.handling s'.handling := by
    cases hs
    assumption
  rw [hresult, hcall]
  split
  · exact h.leave _ _
  · generalize s.handling = x, s'.handling = x' at hrel
    cases s.result with
    | none => exact h
    | some r =>
        cases hrel with
        | none => exact h
        | some he => exact h.handle hs r he

theorem notice (h : Like c counts w v) (hs : s.Like counts s') :
    Like c counts (w.notice s) (v.notice s') := by
  cases hs
  unfold World.notice
  dsimp only
  split
  · exact Like.enqueue (h.alterSession) _
  · exact h.alterSession

section Turns

variable [Arithmetic] {k : Coordinator} {h' : HandlerMode}

theorem observe (h : Like c counts w v) (i : Nat) (id : String)
    (a : Agent) :
    Like c counts (w.observe k i id a) (v.observe k i id a) := by
  unfold World.observe
  split
  · exact h
  · split
    · exact h.failTask _ _ _
    · rename_i snapshot _
      have hshows : Like c counts
          { w with shown := ⟨w.now, snapshot⟩ :: w.shown }
          { v with shown := ⟨v.now, snapshot⟩ :: v.shown } := by
        cases h with
        | mk hcalls hlines hses =>
            exact .mk { w with shown := ⟨w.now, snapshot⟩ :: w.shown }
              hcalls hlines hses
      have hlen : v.shown.length = w.shown.length := by cases h; rfl
      simp only [List.length_cons, hlen]
      generalize k.observer.reaction (w.shown.length + 1) = reaction
      have hstops : Like c counts
          (if reaction.stops then
            World.cancel { w with shown := ⟨w.now, snapshot⟩ :: w.shown }
            else { w with shown := ⟨w.now, snapshot⟩ :: w.shown })
          (if reaction.stops then
            World.cancel { v with shown := ⟨v.now, snapshot⟩ :: v.shown }
            else { v with shown := ⟨v.now, snapshot⟩ :: v.shown }) := by
        split
        · exact hshows.cancel
        · exact hshows
      exact hstops.withTask i _

theorem answer (h : Like c counts w v) (i : Nat) (t : AgentTask) (a : Agent)
    (signal : Signal) :
    Like c counts (w.answer k i t a signal) (v.answer k i t a signal) := by
  cases signal with
  | proceed => exact h
  | emit => exact h.observe i _ a
  | sleep seconds => exact h.suspend i t seconds
  | finish => exact h.endTask _ _
  | halt => exact h.endTask _ _
  | fail f => exact h.failTask _ _ _

theorem actTask (h : Like c counts w v) (i : Nat) (t : AgentTask)
    (a : Agent) :
    Like c counts (w.actTask k i t a) (v.actTask k i t a) := by
  unfold World.actTask
  split
  · exact h.withActive none
  · dsimp only
    rw [h.now, h.isRunning]
    exact Like.answer (((h.setAgent _ _).withTask i _).withLines _) _ _ _ _

omit [Arithmetic] in
theorem turnTask (h : Like c counts w v) (i : Nat) (t : AgentTask) :
    Like c counts (w.turnTask k i t) (v.turnTask k i t) := by
  unfold World.turnTask
  split
  · exact h
  · split
    · exact h.endTask _ _
    · split
      · exact h.withActive _
      · split
        · exact h.endTask _ _
        · exact (h.withTask i _).withActive _

theorem announce (hh : k.handler.Like counts h') (h : Like c counts w v)
    (hs : s.Like counts s') (r : SessionResult) :
    Like c counts (w.announce k s r)
      (v.announce { k with handler := h' } s' r) := by
  have hcall : s'.call = s.call := by
    cases hs
    rfl
  have hfires : Like c counts
      (w.withSession fun s => { s with completionFired := true })
      (v.withSession fun s => { s with completionFired := true }) :=
    h.alterSession
  unfold World.announce
  dsimp only
  rw [hcall]
  split
  · exact hfires.leave _ _
  · have hfired := hfires.report .info "all agents reached the goal"
    obtain ⟨config, goal, observer, handler⟩ := k
    dsimp only at hh ⊢
    cases hh with
    | absent => exact hfired.finishCall hs r
    | present he => exact hfired.handle hs r he

theorem afterJoin (hh : k.handler.Like counts h') (h : Like c counts w v)
    (hs : s.Like counts s') :
    Like c counts (w.afterJoin k s)
      (v.afterJoin { k with handler := h' } s') := by
  have hlower : Like c counts
      (w.withSession fun s => { s with running := false })
      (v.withSession fun s => { s with running := false }) :=
    h.alterSession
  have hagents := hlower.agents
  cases hs with
  | @mk handling hrel =>
      have hs : s.Like counts { s with handling := handling } := .mk s hrel
      unfold World.afterJoin
      dsimp only
      rw [hagents]
      split
      · exact (hlower.withAgents _).leave _ _
      · rename_i agents reached _
        have hscored := hlower.withAgents agents
        cases h with
        | mk hcalls hlines hses =>
            split <;> rename_i hall <;> split <;> rename_i hall'
            · exact announce hh (Like.report hscored.alterSession _ _) hs _
            · exact absurd hall hall'
            · exact absurd hall' hall
            · exact finishCall (Like.report hscored.alterSession _ _) hs _

theorem join (hh : k.handler.Like counts h') (h : Like c counts w v)
    (hs : s.Like counts s') :
    Like c counts (w.join k s) (v.join { k with handler := h' } s') := by
  unfold World.join
  rw [h.isDoomed hs]
  split
  · exact h.abandon hs
  · exact h.afterJoin hh hs

/-- A session that is set up is set up alike, and so is one without agents,
    which is scored at once. -/
theorem launch (hh : k.handler.Like counts h') (h : Like c counts w v)
    (n : Nat) (cast : List String) (programs : List (String × Program))
    (warnings : List (String × List WarningReport)) :
    Like c counts (w.launch k n cast programs warnings)
      (v.launch { k with handler := h' } n cast programs warnings) := by
  have hreports : ∀ (ps : List (String × Program)) (w v : World),
      Like c counts w v →
      Like c counts (ps.foldl (fun w p => w.report .warning
          ("program for unknown agent " ++ p.1 ++ " ignored")) w)
        (ps.foldl (fun w p => w.report .warning
          ("program for unknown agent " ++ p.1 ++ " ignored")) v) := by
    intro ps
    induction ps with
    | nil => exact fun _ _ h => h
    | cons p ps ih => exact fun _ _ h => ih _ _ (h.report _ _)
  have h := hreports (programs.filter fun p => ¬ cast.contains p.1) w v h
  revert h
  unfold World.launch
  dsimp only
  generalize List.foldl _ w _ = w'
  generalize List.foldl _ v _ = v'
  intro h
  have hset : ∀ s : Session, Like c counts
      (World.report
        { w' with
          idle := false
          agents := w'.agents.map fun (a : String × Agent) =>
            if cast.contains a.1 then (a.1, a.2.reset) else a
          session := some s } .info
        ("session started with " ++ toString cast.length ++ " agents"))
      (World.report
        { v' with
          idle := false
          agents := v'.agents.map fun (a : String × Agent) =>
            if cast.contains a.1 then (a.1, a.2.reset) else a
          session := some s } .info
        ("session started with " ++ toString cast.length ++ " agents")) := by
    intro s
    refine Like.report ?_ _ _
    cases h with
    | mk hcalls hlines hses =>
        exact .mk { w' with
          idle := false
          agents := w'.agents.map fun (a : String × Agent) =>
            if cast.contains a.1 then (a.1, a.2.reset) else a
          session := some s } hcalls hlines (.some (.refl s))
  -- the clocks show the same
  cases h
  split
  · exact (hset _).afterJoin hh (.refl _)
  · exact (hset _).withReady _

theorem beginCall (hc : k.config = c) (hh : k.handler.Like counts h')
    (h : Like c counts w v) (n : Nat) {call call' : Call}
    (hcall : call.Like c call') :
    Like c counts (w.beginCall k n call)
      (v.beginCall { k with handler := h' } n call') := by
  subst hc
  have hidle : v.idle = w.idle := by cases h; rfl
  cases hcall with
  | mk hs =>
      unfold World.beginCall
      dsimp only
      split
      · exact h.endCall _ _
      · rw [hs.programs]
        split
        · exact h.endCall _ _
        · rw [hidle]
          split
          · exact h.launch hh _ _ _ _
          · exact h.endCall _ _

theorem runJob (hc : k.config = c) (hh : k.handler.Like counts h')
    (h : Like c counts w v) (j : Job) :
    Like c counts (w.runJob k j)
      (v.runJob { k with handler := h' } j) := by
  unfold World.runJob
  cases j with
  | begin n =>
      dsimp only
      rcases h.call? n with ⟨hw, hv⟩ | ⟨_, _, hw, hv, hcall⟩
      · rw [hw, hv]
        exact h
      · rw [hw, hv]
        exact h.beginCall hc hh n hcall
  | agent i =>
      dsimp only
      rw [h.task?]
      split
      · exact h
      · exact h.turnTask _ _
  | noticed =>
      dsimp only
      rcases h.session with ⟨hw, hv⟩ | ⟨s, s', hw, hv, hs⟩
      · rw [hw, hv]
        exact h
      · rw [hw, hv]
        exact h.notice hs
  | join =>
      dsimp only
      rcases h.session with ⟨hw, hv⟩ | ⟨s, s', hw, hv, hs⟩
      · rw [hw, hv]
        exact h
      · rw [hw, hv]
        exact h.join hh hs
  | handled =>
      dsimp only
      rcases h.session with ⟨hw, hv⟩ | ⟨s, s', hw, hv, hs⟩
      · rw [hw, hv]
        exact h
      · rw [hw, hv]
        exact h.handled hs
  | ask n =>
      have hidle : v.idle = w.idle := by cases h; rfl
      dsimp only
      rw [hidle]
      exact h.setWaiter n _
  | release n => exact h.setWaiter n _
  | wake sleeper => exact h.enqueue sleeper

theorem nextRound (h : Like c counts w v) :
    Like c counts w.nextRound v.nextRound := by
  cases h with
  | mk hcalls hlines hses => exact .mk w.nextRound hcalls hlines hses

theorem step (hc : k.config = c) (hh : k.handler.Like counts h')
    (h : Like c counts w v) :
    Like c counts (w.step k) (v.step { k with handler := h' }) := by
  have hactive : v.active = w.active := by cases h; rfl
  have hround : v.round = w.round := by cases h; rfl
  have hagent : ∀ id, v.agent? id = w.agent? id := by
    cases h
    exact fun _ => rfl
  unfold World.step
  rw [hactive]
  split
  · rw [h.task?]
    split
    · exact h.withActive none
    · rw [hagent]
      split
      · exact h.attend _ _ _
      · exact h.withActive none
      · exact h.actTask _ _ _
  · rw [hround]
    split
    · cases h with
      | mk hcalls hlines hses =>
          exact runJob hc hh ((Like.mk w hcalls hlines hses).withRound _) _
    · exact h.nextRound

end Turns

/-! ## What a host does to alike worlds -/

theorem doomTask (h : Like c counts w v) (i : Nat) :
    Like c counts (w.doomTask i) (v.doomTask i) := by
  unfold World.doomTask
  rw [h.task?]
  split
  · exact h
  · split
    · exact h
    · exact (h.withTask i _).rouse _ _

theorem killCall (h : Like c counts w v) (n : Nat) :
    Like c counts (w.killCall n) (v.killCall n) := by
  have hdooms : ∀ (is : List Nat) (w v : World), Like c counts w v →
      Like c counts (is.foldl World.doomTask w)
        (is.foldl World.doomTask v) := by
    intro is
    induction is with
    | nil => exact fun _ _ h => h
    | cons i is ih => exact fun _ _ h => ih _ _ (h.doomTask i)
  unfold World.killCall
  rcases h.call? n with ⟨hw, hv⟩ | ⟨_, _, hw, hv, hcall⟩
  · rw [hw, hv]
    exact h
  · rw [hw, hv]
    cases hcall
    dsimp only
    split
    · exact h
    · have hdoom := h.doomCall n
      rcases hdoom.session with ⟨hw', hv'⟩ | ⟨s, _, hw', hv', ⟨-⟩⟩
      · rw [hw', hv']
        exact hdoom
      · rw [hw', hv']
        dsimp only
        split
        · exact (hdooms _ _ _ hdoom).rouse _ _
        · exact hdoom

theorem call {s s' : Script} (h : Like c counts w v) (hs : s.Like c s')
    (cast : List String) :
    Like c counts (w.call s cast) (v.call s' cast) := by
  cases h with
  | mk hcalls hlines hses =>
      unfold World.call
      dsimp only
      rw [← hcalls.length_eq]
      refine enqueue (.mk { w with calls := w.calls ++ _ } ?_ hlines hses) _
      exact List.rel_append hcalls (.cons (.mk _ hs) .nil)

theorem awaitIdle (h : Like c counts w v) :
    Like c counts w.awaitIdle v.awaitIdle := by
  cases h with
  | mk hcalls hlines hses => exact .mk w.awaitIdle hcalls hlines hses

section Deeds

variable [Arithmetic] {k : Coordinator} {h' : HandlerMode} {d d' : Deed}
  {ds ds' : List Deed}

/-- Alike deeds keep worlds alike. -/
theorem after (hc : k.config = c) (hh : k.handler.Like counts h')
    (h : Like c counts w v) (hd : d.Like c d') :
    Like c counts (w.after k d) (v.after { k with handler := h' } d') := by
  cases hd with
  | call cast hs => exact h.call hs cast
  | same =>
      cases d with
      | turn => exact h.step hc hh
      | elapse t => exact h.withNow t
      | call s cast => exact h.call ⟨rfl⟩ cast
      | awaitIdle => exact h.awaitIdle
      | cancel => exact h.cancel
      | kill n => exact h.killCall n
      | put name a => exact h.setAgent name a

omit [Arithmetic] in
theorem hostActs (h : Like c counts w v) : v.hostActs = w.hostActs := by
  have hactive : v.active = w.active := by cases h; rfl
  unfold World.hostActs
  rw [hactive]
  split
  · rfl
  · rw [h.task?]

omit [Arithmetic] in
/-- Alike worlds admit alike deeds, and no others. -/
theorem admits (h : Like c counts w v) (hd : d.Like c d') :
    w.Admits d ↔ v.Admits d' := by
  have hacts := h.hostActs
  have hagents := h.agents
  cases hd with
  | call cast hs =>
      unfold World.Admits
      rw [hacts, hagents]
  | same =>
      cases d with
      | turn => cases h; exact Iff.rfl
      | elapse t => cases h; exact Iff.rfl
      | _ => unfold World.Admits; simp only [hacts, hagents]

omit [Arithmetic] in
/-- The last of some deeds is like the last of alike ones. -/
theorem likeSnoc (h : List.Forall₂ (Deed.Like c) (ds ++ [d]) ds') :
    ∃ es e, ds' = es ++ [e] ∧ List.Forall₂ (Deed.Like c) ds es
      ∧ d.Like c e := by
  induction ds generalizing ds' with
  | nil =>
      cases h with
      | cons hd hnil =>
          cases hnil
          exact ⟨[], _, rfl, .nil, hd⟩
  | cons d₀ ds ih =>
      cases h with
      | cons hd₀ hrest =>
          obtain ⟨es, e, rfl, hes, he⟩ := ih hrest
          exact ⟨_ :: es, e, rfl, .cons hd₀ hes, he⟩

/-- What happens around a coordinator happens as well with scripts written
    in other ways and with a handler that raises errors. -/
theorem course (hc : k.config = c) (hh : k.handler.Like counts h')
    {u : World} (h : Like c counts w v) (hcourse : Course k w ds u)
    (hds : List.Forall₂ (Deed.Like c) ds ds') :
    ∃ u', Course { k with handler := h' } v ds' u'
      ∧ Like c counts u u' := by
  induction hcourse generalizing ds' with
  | nil =>
      cases hds
      exact ⟨v, .nil v, h⟩
  | snoc d hcourse hd ih =>
      obtain ⟨es, e, rfl, hes, he⟩ := likeSnoc hds
      obtain ⟨u', hu', hlike⟩ := ih hes
      exact ⟨_, .snoc e hu' ((hlike.admits he).1 hd), hlike.after hc hh he⟩

/-- What happens with a handler that raises errors happens as well with one
    that does not. -/
theorem courseBack (hc : k.config = c) (hh : k.handler.Like counts h')
    {u' : World} (h : Like c counts w v)
    (hcourse : Course { k with handler := h' } v ds u') :
    ∃ u, Course k w ds u ∧ Like c counts u u' := by
  induction hcourse with
  | nil => exact ⟨w, .nil w, h⟩
  | snoc d _ hd ih =>
      obtain ⟨u, hu, hlike⟩ := ih
      exact ⟨_, .snoc d hu ((hlike.admits (.same d)).2 hd),
        hlike.after hc hh (.same d)⟩

end Deeds

end Like

end World

end BlockStage
