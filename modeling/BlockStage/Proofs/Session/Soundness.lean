import BlockStage.Proofs.Compile.Totality
import BlockStage.Proofs.Run.Settings
import BlockStage.Proofs.Run.Soundness
import BlockStage.Proofs.Session.Animation
import BlockStage.Proofs.Session.Cancellation
import BlockStage.Proofs.Session.Parts

/-! # Safe sessions — nobody fails in a session of compiled programs

    A session that a call opens with forests that can be written out, on a
    stage with spacious settings, goes wrong nowhere: the
    run of every agent stays sound until it ends (`Secured`), and what the
    call ends in is a result without failures, unless it is killed
    (`Guarded`).  Every deed keeps both (`Moves.secured`,
    `Guarded.course`). -/

namespace BlockStage

open Act Instruction

/-- Whether a forest has texts as the kinds of its blocks and can be written
    out. -/
def Forest.isLegible : Forest → Bool
  | .nodes blocks => Block.allLegible blocks
  | .source v => v.legible

/-- Counts from one on are accepted as ceilings. -/
theorem checkCeiling_positive {n : Int} (h : 1 ≤ n) :
    checkCeiling (.int n) = .ok (.int n) := by
  have hlt : (Value.int n).lt 1 = .ok false := by
    have hnot : (Num.int n).lt (.int 1) = false := by
      rw [Num.lt_int, decide_eq_false_iff_not]
      omega
    show Value.relate .below (.num (.int n)) (.num (.int 1)) = _
    rw [Value.relate_num]
    exact congrArg Except.ok hnot
  unfold checkCeiling
  rw [hlt]
  rfl

namespace World

/-! ## Programs of forests that can be written out -/

section

variable {c : Config} {n : Int}

theorem compileFor_legible (hc : c.loopCeiling = .int n)
    (hn : Value.legibleInt n = true) (hpos : 1 ≤ n) {f : Forest}
    (h : f.isLegible = true) :
    ∃ compiled, compileFor c f = .ok compiled
      ∧ EveryOf (InDomain c.target n) compiled.program := by
  cases f with
  | source v => exact compileSource_legible (t := c.target) hc hn hpos h
  | nodes blocks =>
      have hnone := blocksFault?_legible (t := c.target) hc hn blocks h
      refine ⟨compileForest c.target blocks, ?_,
        compileBlocks_inDomain (t := c.target)
          (show c.loopCeiling.number? = _ by rw [hc]; rfl) hpos [] 0 blocks⟩
      show compileForest? c.target blocks = _
      unfold compileForest?
      rw [hnone]

/-- Forests that can be written out give every agent a program in its
    domains. -/
theorem scriptPrograms_legible (hc : c.loopCeiling = .int n)
    (hn : Value.legibleInt n = true) (hpos : 1 ≤ n)
    {fs : List (String × Forest)} (h : ∀ f ∈ fs, f.2.isLegible = true) :
    ∃ programs warnings,
      scriptPrograms c (.forests fs) = .ok (programs, warnings)
        ∧ ∀ id, EveryOf (InDomain c.target n) (given programs id) := by
  obtain ⟨compiled, hcompiled, hall⟩ : ∃ compiled,
      (fs.mapM fun f => do return (f.1, ← compileFor c f.2)) = .ok compiled
        ∧ ∀ p ∈ compiled,
          EveryOf (InDomain c.target n) (p : String × Compiled).2.program := by
    induction fs with
    | nil => exact ⟨[], rfl, nofun⟩
    | cons f fs ih =>
        obtain ⟨hf, hrest⟩ := List.forall_mem_cons.1 h
        obtain ⟨own, hown, hdomain⟩ := compileFor_legible hc hn hpos hf
        obtain ⟨others, hothers, hdomains⟩ := ih hrest
        refine ⟨(f.1, own) :: others, ?_,
          List.forall_mem_cons.2 ⟨hdomain, hdomains⟩⟩
        rw [List.mapM_cons, hown, hothers]
        rfl
  refine ⟨_, _, congrArg (· >>= _) hcompiled, fun id => ?_⟩
  unfold given
  cases hlook : (compiled.map fun p => (p.1, p.2.program)).lookup id with
  | none => trivial
  | some program =>
      obtain ⟨l₁, l₂, heq, -⟩ := List.lookup_eq_some_iff.1 hlook
      have hmem : (id, program)
          ∈ compiled.map fun p => (p.1, p.2.program) := by
        rw [heq]
        simp
      obtain ⟨p, hp, hpeq⟩ := List.mem_map.1 hmem
      obtain ⟨-, rfl⟩ := Prod.mk.inj hpeq
      exact hall p hp

end

variable [Arithmetic] {c : Coordinator} {w v : World} {n : Nat}
  {cast : List String} {s s' : Session} {t : AgentTask} {a : Agent}

/-! ## The invariant -/

/-- A part that cannot go wrong: its run is sound, begun or not, up to its
    end. -/
structure Secure (c : Coordinator) (t : AgentTask) (a : Agent) : Prop where
  sound : ∃ g todo, (scene c).Roomy g ∧ Sound (scene c) g a todo
    ∧ (t.ending = none → todo = t.todo)
  unfailed : ∀ f, t.ending ≠ some (.failed f)
  kind : ∀ e, t.showing = some e → e.fails = false

/-- A session of parts that cannot go wrong. -/
abbrev Secured (c : Coordinator) (cast : List String) (v : World)
    (s : Session) : Prop :=
  Parts (Secure c) cast v s

/-- Nobody has failed. -/
def Unfailed (s : Session) : Prop :=
  ∀ t ∈ s.tasks, ∀ f, t.ending ≠ some (.failed f)

theorem Secured.unfailed (h : Secured c cast v s) : Unfailed s := by
  intro t ht
  obtain ⟨a, -, ha⟩ := h.parts t ht
  exact ha.unfailed

omit [Arithmetic] in
/-- If nobody has failed there is nothing to report of failures. -/
theorem Unfailed.failures (h : Unfailed s) :
    s.tasks.filterMap failure? = [] := by
  refine List.filterMap_eq_nil_iff.2 fun t ht => ?_
  unfold failure?
  split
  · rename_i f hf
    exact absurd hf (h t ht f)
  · rfl

/-- A part in flight goes on soundly. -/
theorem Secure.flying (h : Secure c t a) (hend : t.ending = none) :
    ∃ g, (scene c).Roomy g ∧ Sound (scene c) g a t.todo := by
  obtain ⟨g, todo, hroomy, hsound, htodo⟩ := h.sound
  exact ⟨g, hroomy, htodo hend ▸ hsound⟩

/-- Numbers tell where an agent stands whose part cannot go wrong. -/
theorem Secure.numbers (h : Secure c t a) :
    ∃ u v : Num, a.position = [.num u, .num v] := by
  obtain ⟨g, todo, hroomy, hsound, -⟩ := h.sound
  cases hsound.placed with
  | starts hstarts =>
      cases hstarts with
      | onGrid _ hpos => exact ⟨_, _, hpos⟩
      | onCanvas _ hpos => exact ⟨_, _, hpos⟩
  | stands hstands =>
      obtain ⟨u, v, hpos, -, -⟩ := hstands.coordinates hroomy
      exact ⟨u, v, hpos⟩

variable [Arithmetic.Doubles]

/-- A part that cannot go wrong goes on so, if the observer raises no error
    at the next snapshot: the ceiling is accepted, and the run of an agent
    is sound. -/
theorem secure_persists
    (hsink : (c.observer.reaction (v.shown.length + 1)).fails = false) :
    Persists c v s (Secure c) where
  doomed _ _ h := ⟨h.sound, h.unfailed, h.kind⟩
  setsOut t a hwalk hend h := by
    obtain ⟨g, hroomy, hsound⟩ := h.flying hend
    rw [AgentTask.todo, hwalk] at hsound
    exact ⟨⟨g, _, hroomy, hsound, fun _ => rfl⟩, h.unfailed, h.kind⟩
  dies t a e hend hwhy h := by
    obtain ⟨g, todo, hroomy, hsound, -⟩ := h.sound
    rcases hwhy with rfl | ⟨f, hceiling, -⟩
    · exact ⟨⟨g, todo, hroomy, hsound, fun hno => by cases hno⟩,
        (fun _ hno => by cases hno), fun _ hno => by cases hno⟩
    · have hloops : c.config.loopCeiling = .int g.ceiling := hroomy.loops
      rw [hloops, checkCeiling_positive hroomy.positive] at hceiling
      cases hceiling
  acts t a walker n e hwalk hend _ hn he h := by
    obtain ⟨g, hroomy, hsound⟩ := h.flying hend
    rw [AgentTask.todo, hwalk, Option.getD_some] at hsound
    obtain ⟨hnext, hverdict⟩ := hsound.step v.now s.running hroomy
    rw [← hn] at hnext hverdict
    refine ⟨⟨g, n.walker.todo, hroomy, hnext, fun _ => rfl⟩, fun f hf => ?_,
      fun errand hshown => ?_⟩
    · obtain ⟨o, ho, hfailed⟩ := Option.map_eq_some_iff.1 hf
      rcases Outcome.toEnd_cases t.doomed o with heq | ⟨-, heq⟩
      · cases o with
        | finished => cases heq.symm.trans hfailed
        | halted => cases heq.symm.trans hfailed
        | failed f' =>
            exact hverdict c.observer.prompt v.shown.length v.now s.running f'
              rfl (he ▸ ho)
      · cases heq.symm.trans hfailed
    · obtain ⟨-, rfl⟩ := Observer.errand?_eq_some hshown
      exact hsink
  attends t a e showing _ hshown hleaves h := by
    refine ⟨h.sound, h.unfailed, fun errand hnext => ?_⟩
    cases hleaves with
    | done => cases hnext
    | rests =>
        obtain rfl := Option.some.inj hnext
        exact h.kind e hshown
  stumbles t a e _ hshown hrude h := by
    rw [h.kind e hshown] at hrude
    cases hrude

/-- Every deed leaves a session secure until it is scored, and nobody fails
    in it. -/
theorem Moves.secured {d : Deed} (hm : Moves c v s d w) (hfl : Flight v s)
    (hs : v.session = some s) (hcast : cast.Nodup)
    (hsink : ∀ k, v.shown.length < k → (c.observer.reaction k).fails = false)
    (hput : ∀ name a, d = .put name a → name ∉ cast)
    (hsec : s.result = none → Secured c cast v s) (hun : Unfailed s) :
    ∃ s', w.session = some s' ∧ Unfailed s'
      ∧ (w.idle = false → s'.result = none → Secured c cast w s') := by
  obtain ⟨s', hs', -⟩ := hm.call hs
  have hkeeps : w.idle = false → s'.result = none → Secured c cast w s' :=
    fun hidle hr =>
      hm.parts (secure_persists (hsink _ (Nat.lt_succ_self _))) hfl hs hcast
        hput hsec hidle hs' hr
  refine ⟨s', hs', ?_, hkeeps⟩
  have hsame : ∀ u : Session, w.session = some u → Unfailed u →
      Unfailed s' := by
    intro u hu hun
    rw [hs'] at hu
    exact Option.some.inj hu ▸ hun
  -- while somebody acts the session is yet to be scored
  have hopen : ∀ (u : Session) (i : Nat) (t : AgentTask),
      s.tasks[i]? = some t → t.ending = none → w.idle = false →
      w.session = some u → u.result = s.result → Unfailed s' := by
    intro u i t ht hend hidle hu hr
    obtain rfl := Option.mem_unique hs' hu
    exact (hkeeps hidle (hr.trans (hfl.unscored ht hend))).unfailed
  cases hm with
  | stays _ _ hu => exact hsame _ hu hun
  | lowers _ hu => exact hsame _ hu hun
  | puts => exact hsame _ hs hun
  | dooms _ hu =>
      refine hsame _ hu fun t ht => ?_
      obtain ⟨i, hi⟩ := List.mem_iff_getElem?.1 ht
      obtain ⟨u, hu, rfl | rfl⟩ := doomFirst_getElem? hi
      · exact hun _ (List.mem_of_getElem? hu)
      · exact hun u (List.mem_of_getElem? hu)
  | acts _ ht _ hend _ _ _ _ _ _ _ hi hu =>
      exact hopen _ _ _ ht hend hi hu rfl
  | attends _ ht _ hend _ _ hk hu => exact hopen _ _ _ ht hend hk.idle hu rfl
  | stumbles _ ht _ hend _ _ _ hk hu =>
      exact hopen _ _ _ ht hend hk.idle hu rfl
  | setsOut ht _ hend _ _ hk hu => exact hopen _ _ _ ht hend hk.idle hu rfl
  | dies ht hend _ hk hu => exact hopen _ _ _ ht hend hk.idle hu rfl
  | dozes _ _ _ _ _ _ _ _ hu => exact hsame _ hu hun
  | drowses _ _ _ _ _ _ _ hu => exact hsame _ hu hun
  | leaves _ _ _ _ hu _ htasks =>
      exact hsame _ hu fun t ht => hun t (htasks ▸ ht)

omit [Arithmetic.Doubles] in
/-- A secure session can be scored. -/
theorem Secured.scores (h : Secured c cast v s)
    (hgoal : ∀ g, c.goal = some g → g.isNumeric = true) :
    ∃ reached, (v.scored c s).2 = .ok reached := by
  refine score_numbers hgoal _ _ fun id hid _ a ha => ?_
  obtain ⟨t, ht, rfl⟩ := List.mem_map.1 hid
  obtain ⟨b, hb, hsecure⟩ := h.parts t ht
  have ha : v.agent? t.agentId = some a := ha
  obtain rfl := Option.mem_unique hb ha
  obtain ⟨x, y, hpos⟩ := hsecure.numbers
  exact ⟨_, _, hpos, rfl, rfl⟩

/-! ## Along a course -/

/-- A call that went well: it returned a result without failures, or was
    killed. -/
def EndsWell (call : Call) (e : CallEnd) : Prop :=
  (∃ r, e = .returned r ∧ r.failed = []) ∨ e = .killed ∧ call.doomed = true

/-- A call whose session is secure while it is in flight, fails nobody, and
    ends well. -/
structure Guarded (c : Coordinator) (w : World) (n : Nat)
    (cast : List String) (v : World) : Prop where
  /-- The call is in flight or has ended. -/
  known : v.current = some n ∨ v.isShut n = true
  shown : v.current = some n → w.shown.length ≤ v.shown.length
  secured : v.idle = false → ∀ s, v.session = some s → s.call = n →
    s.result = none → Secured c cast v s
  unfailed : ∀ s, v.session = some s → s.call = n → Unfailed s
  /-- A result that is there already reports no failures. -/
  result : ∀ s r, v.session = some s → s.call = n → v.idle = false →
    s.result = some r → r.failed = []
  ended : ∀ call e, v.calls[n]? = some call → call.ending = some e →
    EndsWell call e

omit [Arithmetic.Doubles] in
/-- Snapshots are never taken back. -/
theorem Moves.shown_le {d : Deed} (h : Moves c v s d w) :
    v.shown.length ≤ w.shown.length := by
  cases h with
  | stays _ hk => exact (congrArg List.length hk.shown).ge
  | lowers hk => exact (congrArg List.length hk.shown).ge
  | puts => exact Nat.le_refl _
  | dooms hk => exact (congrArg List.length hk.shown).ge
  | acts _ _ _ _ _ _ _ _ _ hshown =>
      rw [hshown, List.length_append]
      omega
  | attends _ _ _ _ _ _ hk => exact (congrArg List.length hk.shown).ge
  | stumbles _ _ _ _ _ _ _ hk => exact (congrArg List.length hk.shown).ge
  | setsOut _ _ _ _ _ hk => exact (congrArg List.length hk.shown).ge
  | dies _ _ _ hk => exact (congrArg List.length hk.shown).ge
  | dozes _ _ _ _ _ hshown => exact (congrArg List.length hshown).ge
  | drowses _ _ _ _ _ _ hk => exact (congrArg List.length hk.shown).ge
  | leaves _ _ hshown => exact (congrArg List.length hshown).ge

/-- What the call of a session in which nobody fails settles for is a result
    without failures, unless the call was killed. -/
theorem Settles.well {e : CallEnd} {agents : List (String × Agent)}
    (he : Settles c v s e agents) (h : Guarded c w n cast v)
    (hgoal : ∀ g, c.goal = some g → g.isNumeric = true) (hv : Reachable c v)
    (hidle : v.idle = false) (hs : v.session = some s) (hcall : s.call = n) :
    (∃ r, e = .returned r ∧ r.failed = [])
      ∨ e = .killed ∧ v.isDoomed s = true := by
  -- while there is no handler to wait for, there is no result
  have hfresh : Job.handled ∉ v.turns → Secured c cast v s := by
    intro hnone
    refine h.secured hidle s hs hcall ?_
    by_contra hno
    exact hnone ((hv.orderly.flight hidle hs).fresh
      (Option.isSome_iff_ne_none.2 hno))
  cases he with
  | killed hdoom => exact .inr ⟨rfl, hdoom⟩
  | unscored _ hnone hscore =>
      obtain ⟨reached, hreached⟩ := (hfresh hnone).scores hgoal
      rw [hscore] at hreached
      cases hreached
  | untimed _ _ _ _ hbad =>
      refine absurd (hv.timely.elapsed_rounded (fun q hq => ?_) hidle hs) hbad
      rw [Arithmetic.Doubles.round_eq]
      exact Binary64.zero_le_nearest hq
  | returned =>
      exact .inl ⟨_, rfl, (h.unfailed s hs hcall).failures⟩
  | handled _ _ hr =>
      have hnone := h.result s _ hs hcall hidle hr
      exact .inl ⟨_, rfl, hnone⟩

/-- While its call is in flight, a deed keeps a session guarded. -/
theorem Guarded.flies (h : Guarded c w n cast v) (hcast : cast.Nodup)
    (hgoal : ∀ g, c.goal = some g → g.isNumeric = true)
    (hsink : ∀ k, w.shown.length < k → (c.observer.reaction k).fails = false)
    (hv : Reachable c v) (hcur : v.current = some n) {d : Deed}
    (hd : v.Admits d) (hput : LeavesAlone cast d) :
    Guarded c w n cast (v.after c d) := by
  have ho := hv.orderly
  have ho' : Orderly (v.after c d) := ho.after hd
  obtain ⟨hidle, s, hs, hcall⟩ := current_eq_some.1 hcur
  have hfl := ho.flight hidle hs
  have hmoves := ho.moves (c := c) hidle hs d
  have hshown := h.shown hcur
  obtain ⟨s', hs', hcall'⟩ := hmoves.call hs
  obtain ⟨s'', hs'', hun, hsec⟩ := hmoves.secured hfl hs hcast
    (fun k hk => hsink k (Nat.lt_of_le_of_lt hshown hk)) hput
    (h.secured hidle s hs hcall) (h.unfailed s hs hcall)
  have hopen : v.isOpen n = true := hcall ▸ hfl.call
  refine ⟨ho.known_after hd (.inl hcur),
    fun _ => hshown.trans hmoves.shown_le, ?_, ?_, ?_, ?_⟩
  · intro hflies x hx _ hr
    obtain rfl := Option.mem_unique hs'' hx
    exact hsec hflies hr
  · intro x hx _
    rw [hs''] at hx
    exact Option.some.inj hx ▸ hun
  · intro x r hx _ hflies hr
    rcases hmoves.result hs hflies hx hr with
      hr | ⟨-, -, -, agents, reached, -, rfl⟩
    · exact h.result s r hs hcall hidle hr
    · exact (h.unfailed s hs hcall).failures
  · intro call e hget he
    cases hi : (v.after c d).idle with
    | false =>
        -- a call in flight has no end yet
        have hstill := (ho'.flight hi hs').call
        rw [hcall', hcall] at hstill
        simp [isOpen, hget, he] at hstill
    | true =>
        obtain ⟨-, -, e', hsettles, hcalls⟩ := hmoves.left hi hidle
        have hwell := hsettles.well h hgoal hv hidle hs hcall
        rw [hcalls, hcall, List.getElem?_modify_eq] at hget
        obtain ⟨call₀, hcall₀, rfl⟩ := Option.map_eq_some_iff.1 hget
        obtain rfl := Option.some.inj he
        refine hwell.imp id fun hkilled => ⟨hkilled.1, ?_⟩
        have hdoom := hkilled.2
        simpa [isDoomed, hcall, hcall₀] using hdoom

omit [Arithmetic.Doubles] in
/-- After its call has ended, a deed keeps a session guarded. -/
theorem Guarded.rests (h : Guarded c w n cast v) (hv : Reachable c v)
    (hshut : v.isShut n = true) {d : Deed} (hd : v.Admits d) :
    Guarded c w n cast (v.after c d) := by
  have ho := hv.orderly
  have ho' : Orderly (v.after c d) := ho.after hd
  have hshut' := ho.shut_after (c := c) hshut d
  have hrests : ∀ s, (v.after c d).session = some s → s.call = n →
      (v.after c d).idle = true ∧ v.session = some s := by
    intro s hs hcall
    obtain ⟨-, hi, hs⟩ := ho.rests hshut hd hs hcall
    exact ⟨hi, hs⟩
  have hflies : ∀ s, (v.after c d).session = some s → s.call = n →
      (v.after c d).idle = false → False := by
    intro s hs hcall hi
    rw [(hrests s hs hcall).1] at hi
    cases hi
  refine ⟨.inr hshut', fun hcur => ?_,
    fun hi s hs hcall => (hflies s hs hcall hi).elim,
    fun s hs hcall => h.unfailed s (hrests s hs hcall).2 hcall,
    fun s r hs hcall hi => (hflies s hs hcall hi).elim, ?_⟩
  · obtain ⟨hi, s, hs, hcall⟩ := current_eq_some.1 hcur
    exact (hflies s hs hcall hi).elim
  · intro call' e hcall' he
    cases hcall : v.calls[n]? with
    | none => simp [isShut, hcall] at hshut
    | some call =>
        obtain ⟨call'', hcall'', -, -, hdoom, -, hend⟩ :=
          ho.grows (c := c) d n call hcall
        obtain rfl := Option.mem_unique hcall'' hcall'
        have hsome : call.ending.isSome = true := by
          simpa [isShut, hcall] using hshut
        rw [hend hsome] at he
        exact (h.ended call e hcall he).imp id fun hkilled =>
          ⟨hkilled.1, hdoom hkilled.2⟩

/-- Along every course a session stays guarded. -/
theorem Guarded.course (h : Guarded c w n cast v) (hcast : cast.Nodup)
    (hgoal : ∀ g, c.goal = some g → g.isNumeric = true)
    (hsink : ∀ k, w.shown.length < k → (c.observer.reaction k).fails = false)
    (hv : Reachable c v) {u : World} {ds : List Deed}
    (hcourse : Course c v ds u) (hput : ∀ d ∈ ds, LeavesAlone cast d) :
    Guarded c w n cast u := by
  refine (hcourse.keeps (P := fun x => Reachable c x
    ∧ Guarded c w n cast x) ⟨hv, h⟩ ?_).2
  rintro x d ⟨hx, hg⟩ hd hmem
  refine ⟨hx.course (.single hd), ?_⟩
  rcases hg.known with hcur | hshut
  · exact hg.flies hcast hgoal hsink hx hcur hd (hput d hmem)
  · exact hg.rests hx hshut hd

/-! ## Sessions that begin -/

/-- A call is about to begin a session in which nothing can go wrong: its
    forests can be written out, settings and starts leave room for what is
    calculated from them, and the observer raises no error. -/
structure BeginsSafely (c : Coordinator) (w : World) (n : Nat)
    (cast : List String) (fs : List (String × Forest)) : Prop where
  reachable : Reachable c w
  idle : w.idle = true
  turn : ∃ rest, w.round = .begin n :: rest
  call : ∃ call, w.calls[n]? = some call ∧ call.cast = cast
    ∧ call.doomed = false ∧ call.script = .forests fs
  legible : ∀ f ∈ fs, f.2.isLegible = true
  settings : ∃ columns rows ceiling, c.config.Spacious columns rows ceiling
  goal : ∀ g, c.goal = some g → g.isNumeric = true
  agents : ∀ id ∈ cast, ∀ a, w.agent? id = some a →
    (∃ name, a.id = .str name)
      ∧ c.config.Allows a.startPosition a.startHeading
  sink : ∀ k, w.shown.length < k → (c.observer.reaction k).fails = false

namespace BeginsSafely

variable {fs : List (String × Forest)}

omit [Arithmetic.Doubles] in
/-- The cast of such a call: known agents, each of them once. -/
theorem known (h : BeginsSafely c w n cast fs) :
    cast.Nodup ∧ ∀ id ∈ cast, id ∈ w.names := by
  obtain ⟨call, hcall, rfl, -, -⟩ := h.call
  exact h.reachable.orderly.casts call (List.mem_of_getElem? hcall)

omit [Arithmetic.Doubles] in
/-- Its forests compile, to programs in their domains. -/
theorem compiles (h : BeginsSafely c w n cast fs) :
    ∃ programs warnings ceiling, c.config.loopCeiling = .int ceiling
      ∧ scriptPrograms c.config (.forests fs) = .ok (programs, warnings)
      ∧ ∀ id, EveryOf (InDomain c.config.target ceiling)
        (given programs id) := by
  obtain ⟨columns, rows, ceiling, hset⟩ := h.settings
  obtain ⟨programs, warnings, hscript, hdomain⟩ :=
    scriptPrograms_legible hset.loops hset.legible_ceiling hset.positive
      h.legible
  exact ⟨programs, warnings, ceiling, hset.loops, hscript, hdomain⟩

/-- An agent sets out soundly with a program in its domains. -/
theorem secure (h : BeginsSafely c w n cast fs) {id : String}
    (hid : id ∈ cast) (ha : w.agent? id = some a) {ceiling : Int}
    (hloops : c.config.loopCeiling = .int ceiling) {p : Program}
    (hp : EveryOf (InDomain c.config.target ceiling) p) :
    Secure c ⟨id, p, none, none, false, none⟩ a.reset := by
  obtain ⟨columns, rows, ceiling', hset⟩ := h.settings
  obtain rfl : ceiling = ceiling' := by
    have heq := hloops.symm.trans hset.loops
    exact Num.int.inj (Value.num.inj heq)
  obtain ⟨⟨name, hname⟩, hallows⟩ := h.agents id hid a ha
  obtain ⟨g, hroomy, hceiling, hstarts⟩ :=
    hset.roomy a.reset h.goal hallows
  have hread : ∃ x, Lenient.measure a.reset.heading = .ok x := by
    cases hstarts with
    | onGrid _ _ hcardinal => exact hcardinal.read
    | onCanvas _ _ _ _ hrange => exact hrange.read
  refine ⟨⟨g, _, hroomy, Sound.start ⟨⟨name, hname⟩, hread, .inl rfl,
    false, rfl⟩ hstarts ?_, fun _ => rfl⟩, nofun, nofun⟩
  rw [hceiling]
  exact hp

/-- When the session has just begun it is guarded. -/
theorem opening (h : BeginsSafely c w n cast fs) :
    Reachable c (w.after c .turn)
      ∧ Guarded c w n cast (w.after c .turn) := by
  obtain ⟨call, hcall, hcast, hspared, hscript⟩ := h.call
  obtain ⟨programs, warnings, ceiling, hloops, hprograms, hdomain⟩ :=
    h.compiles
  rw [← hscript] at hprograms
  subst hcast
  by_cases hcast : call.cast = []
  · have hpassed := h.reachable.passed h.idle h.turn hcall hspared hprograms
      hcast
    have hidle := hpassed.idle
    refine ⟨hpassed.reachable, .inr (hpassed.isShut hcall), fun hcur => ?_,
      fun hflies => ?_, fun s hs _ => ?_, fun s r _ _ hflies => ?_,
      fun call' e hcall' he => ?_⟩
    · rw [(current_eq_some.1 hcur).1] at hidle
      cases hidle
    · rw [hflies] at hidle
      cases hidle
    · obtain rfl := hpassed.eq_passed hs
      exact nofun
    · rw [hflies] at hidle
      cases hidle
    · rw [hpassed.ending hcall'] at he
      exact .inl ⟨_, (Option.some.inj he).symm, rfl⟩
  · have hopened := h.reachable.opened h.idle h.turn hcall hspared hprograms
      hcast
    have hsecured : Secured c call.cast (w.after c .turn)
        (w.opened n call.cast programs warnings) :=
      hopened.parts h.known.2 fun id hid _ ha =>
        h.secure hid ha hloops (hdomain id)
    refine ⟨hopened.reachable, .inl hopened.current,
      fun _ => (congrArg List.length hopened.shown).ge, ?_, ?_, ?_, ?_⟩
    · intro _ s hs _ _
      obtain rfl := hopened.eq_opened hs
      exact hsecured
    · intro s hs _
      obtain rfl := hopened.eq_opened hs
      exact hsecured.unfailed
    · intro s r hs _ _ hr
      obtain rfl := hopened.eq_opened hs
      cases hr
    · intro call' e hcall' he
      rw [hopened.unended hcall'] at he
      cases he

/-- Along every course from its beginning such a session is guarded. -/
theorem course (h : BeginsSafely c w n cast fs) {v : World} {ds : List Deed}
    (hcourse : Course c (w.after c .turn) ds v)
    (hput : ∀ d ∈ ds, LeavesAlone cast d) :
    Reachable c v ∧ Guarded c w n cast v := by
  obtain ⟨hreach, hguarded⟩ := h.opening
  exact ⟨hreach.course hcourse,
    hguarded.course h.known.1 h.goal h.sink hreach hcourse hput⟩

end BeginsSafely

end World

end BlockStage
