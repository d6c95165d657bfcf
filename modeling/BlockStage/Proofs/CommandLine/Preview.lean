import BlockStage.CommandLine.Reply
import BlockStage.Proofs.Program.RoundTrip
import BlockStage.Proofs.Session.Brief
import BlockStage.Proofs.Value.Number

/-! # Previews — what is compiled is what is run

    The two commands set up a stage in different ways, find the names of
    the agents in different places and compile at different moments.  Still
    the forests are the same, and so is all that compilation looks at
    (`Config.target_congr`).

    What the command to compile shows is read back from the document that
    it writes: the program of an agent with the reader of programs, a
    warning by its three members (`shownProgram`, `shownWarnings`).  So read,
    the document has for each agent the program that the session of the
    other command was told to run, and the warnings that its result carries
    (`Shows`).  No document is written if some forest cannot be compiled,
    which ends the other command too, if some program is nested too deep to
    be written, or if the text holds surrogates on their own; the last two
    leave the other command as it is (`Agrees`). -/

namespace BlockStage

/-- What each result keeps of its argument, the results keep of the
    arguments. -/
theorem mapM_keeps {ε α β γ : Type} {f : α → Except ε β} {p : β → γ}
    {q : α → γ} (h : ∀ x y, f x = .ok y → p y = q x) {xs : List α} :
    ∀ {ys : List β}, xs.mapM f = .ok ys → ys.map p = xs.map q := by
  induction xs with
  | nil =>
      intro ys hys
      cases hys
      rfl
  | cons x xs ih =>
      intro ys hys
      rw [List.mapM_cons] at hys
      obtain ⟨y, hy, hys⟩ := bind_ok hys
      obtain ⟨ys, hrest, hys⟩ := bind_ok hys
      cases hys
      rw [List.map_cons, List.map_cons, h x y hy, ih hrest]

/-! ## Forests one by one -/

/-- The forests of some agents, compiled one after the other. -/
def compileAll (t : Target) (fs : Members) :
    Except BlockFault (List (String × Compiled)) :=
  fs.mapM fun f => do return (f.1, ← compileSource t f.2)

/-- Each agent with its program. -/
def programsOf (shown : List (String × Compiled)) :
    List (String × Program) :=
  shown.map fun p => (p.1, p.2.program)

/-- Each agent that has warnings, with its warnings. -/
def warningsOf (shown : List (String × Compiled)) :
    List (String × List Warning) :=
  (shown.filter fun p => ¬ p.2.warnings.isEmpty).map fun p =>
    (p.1, p.2.warnings)

/-- Compiling keeps the names of the agents. -/
theorem compileAll_ids {t : Target} {fs : Members}
    {shown : List (String × Compiled)} (h : compileAll t fs = .ok shown) :
    shown.map (·.1) = fs.map (·.1) := by
  refine mapM_keeps (fun f p hp => ?_) h
  obtain ⟨own, -, hp⟩ := bind_ok hp
  cases hp
  rfl

/-- Each of them is compiled from its forest. -/
theorem compileAll_mem {t : Target} {fs : Members}
    {shown : List (String × Compiled)} (h : compileAll t fs = .ok shown) :
    ∀ p ∈ shown, ∃ source, compileSource t source = .ok p.2 := by
  have hpairs : shown.map (fun p => (.ok p.2 : Except BlockFault Compiled))
      = fs.map fun f => compileSource t f.2 := by
    refine mapM_keeps (fun f p hp => ?_) h
    obtain ⟨own, hown, hp⟩ := bind_ok hp
    cases hp
    exact hown.symm
  intro p hp
  obtain ⟨f, -, hf⟩ := List.mem_map.1
    (hpairs ▸ List.mem_map_of_mem hp : Except.ok p.2 ∈ fs.map _)
  exact ⟨f.2, hf⟩

/-- The forests of a script are compiled one after the other. -/
theorem scriptPrograms_sources (c : Config) (fs : Members) :
    World.scriptPrograms c (.forests (fs.map fun f => (f.1, .source f.2)))
      = (compileAll c.target fs).map fun shown =>
        (programsOf shown,
          (warningsOf shown).map fun w => (w.1, w.2.map Warning.report)) := by
  have hsources : (fs.map fun f => (f.1, Forest.source f.2)).mapM
      (fun f : String × Forest => do
        return (f.1, ← World.compileFor c f.2))
        = compileAll c.target fs := by
    rw [List.mapM_map]
    rfl
  unfold World.scriptPrograms
  dsimp only
  rw [hsources]
  cases compileAll c.target fs with
  | error f => rfl
  | ok shown =>
      simp [Except.map, programsOf, warningsOf, List.map_map,
        Function.comp_def, bind, Except.bind, pure, Except.pure]

/-- Each agent is given its own program. -/
theorem given_programsOf {shown : List (String × Compiled)}
    (h : (shown.map (·.1)).Nodup) :
    (shown.map (·.1)).map (fun id => (id, World.given (programsOf shown) id))
      = programsOf shown := by
  rw [List.map_map]
  refine List.map_congr_left fun p hp => ?_
  obtain ⟨before, after, rfl⟩ := List.append_of_mem hp
  have hlookup : (programsOf (before ++ p :: after)).lookup p.1
      = some p.2.program := by
    refine List.lookup_eq_some_iff.2
      ⟨programsOf before, programsOf after, by simp [programsOf], ?_⟩
    intro q hq
    obtain ⟨r, hr, rfl⟩ := List.mem_map.1 hq
    rw [List.map_append, List.nodup_append] at h
    have hne := h.2.2 r.1 (List.mem_map_of_mem hr) p.1 (by simp)
    simpa using hne.symm
  simp only [Function.comp_apply, World.given, hlookup, Option.getD_some]

namespace Value

/-- The member of an object under a name. -/
def member (v : Value) (name : String) : Value :=
  match v with
  | .object ms => (Members.get? ms name).getD .null
  | _ => .null

/-- The text that a value is. -/
def asText? : Value → Option String
  | .str s => some s
  | _ => none

end Value

namespace Reply

/-! ## What is shown of a forest -/

/-- The program that is shown of an agent, read back from its plain
    objects. -/
def shownProgram (v : Value) : Except ProgramFault Program :=
  Instruction.readProgram (v.member "program")

/-- The code, the wording and the place that are shown of a warning. -/
def shownWarning (v : Value) : Option (String × String × String) := do
  return (← (v.member "code").asText?, ← (v.member "message").asText?,
    ← (v.member "path").asText?)

/-- What is shown of the warnings of an agent, one by one. -/
def shownWarnings (v : Value) :
    Option (List (String × String × String)) :=
  match v.member "warnings" with
  | .list items => items.mapM shownWarning
  | _ => none

/-- A warning is shown with its code, its wording and its place. -/
theorem shownWarning_summary (w : Warning) :
    shownWarning w.summary = some (w.code, w.message, w.path.text) := rfl

/-- All warnings of a compiled forest are shown. -/
theorem shownWarnings_compiled (c : Compiled) :
    shownWarnings (compiledValue c)
      = some (c.warnings.map fun w => (w.code, w.message, w.path.text)) := by
  show (c.warnings.map Warning.summary).mapM shownWarning = _
  induction c.warnings with
  | nil => rfl
  | cons w ws ih =>
      rw [List.map_cons, List.mapM_cons, shownWarning_summary, ih]
      rfl

/-- The program of a compiled forest is shown, if it is not nested too
    deep. -/
theorem shownProgram_compiled {t : Target} {source : Value} {c : Compiled}
    (h : compileSource t source = .ok c)
    (hdepth : Instruction.greatestDepth c.program ≤ Instruction.depthLimit) :
    shownProgram (compiledValue c) = .ok c.program :=
  Instruction.readProgram_compiled h hdepth

/-- What the command to compile shows of a forest. -/
def preview (t : Target) (f : String × Value) :
    Except CommandFault (String × Value) := do
  let own ← (compileSource t f.2).mapError .compiling
  return (f.1, compiledValue (← writable own))

/-- A document is written on lines of its own. -/
theorem document_ok {v : Value}
    (h : Text.unwritable? (Json.document v) = none) :
    document v = .ok (Json.document v ++ "\n") := by
  unfold document
  dsimp only
  rw [h]

/-- A document is refused where its text holds surrogates on their own. -/
theorem document_error {v : Value} {place : Text.Unwritable}
    (h : Text.unwritable? (Json.document v) = some place) :
    document v = .error (.unwritable place) := by
  unfold document
  dsimp only
  rw [h]

/-- A program that is nested too deep cannot be written. -/
theorem writable_deep {c : Compiled}
    (h : Instruction.depthLimit < Instruction.greatestDepth c.program) :
    writable c = .error .programTooDeep := by
  unfold writable Instruction.shallow
  rw [if_pos h]
  rfl

/-- Any other program can. -/
theorem writable_shallow {c : Compiled}
    (h : Instruction.greatestDepth c.program ≤ Instruction.depthLimit) :
    writable c = .ok c := by
  unfold writable Instruction.shallow
  rw [if_neg (Nat.not_lt.2 h)]
  rfl

/-- A forest that can be compiled is shown if its program can be
    written. -/
theorem preview_compiled {t : Target} {f : String × Value} {own : Compiled}
    (h : compileSource t f.2 = .ok own) :
    preview t f = (writable own).map fun c => (f.1, compiledValue c) := by
  unfold preview
  rw [h]
  show (writable own >>= fun c => Except.ok (f.1, compiledValue c)) = _
  cases writable own <;> rfl

/-- How compiling forests to show them comes out. -/
inductive Previews (t : Target) (fs : Members) :
    Except CommandFault Members → Prop
  /-- All are shown as they were compiled. -/
  | shown {shown : List (String × Compiled)}
      (compiled : compileAll t fs = .ok shown)
      (shallow : ∀ p ∈ shown, Instruction.greatestDepth p.2.program
        ≤ Instruction.depthLimit) :
      Previews t fs (.ok (shown.map fun p => (p.1, compiledValue p.2)))
  /-- Some forest cannot be compiled. -/
  | uncompiled {f : BlockFault} (fault : compileAll t fs = .error f) :
      Previews t fs (.error (.compiling f))
  /-- Some forest compiles to a program that is nested too deep. -/
  | tooDeep {f : String × Value} {own : Compiled} (mem : f ∈ fs)
      (compiled : compileSource t f.2 = .ok own)
      (deep : Instruction.depthLimit
        < Instruction.greatestDepth own.program) :
      Previews t fs (.error .programTooDeep)

/-- Forests are compiled one after the other until one of them cannot be
    shown. -/
theorem previews (t : Target) (fs : Members) :
    Previews t fs (fs.mapM (preview t)) := by
  induction fs with
  | nil => exact @Previews.shown t [] [] rfl nofun
  | cons f fs ih =>
      have hall : compileAll t (f :: fs) = (do
          let own ← compileSource t f.2
          let shown ← compileAll t fs
          return (f.1, own) :: shown) := by
        unfold compileAll
        rw [List.mapM_cons]
        cases compileSource t f.2 <;> rfl
      have hshow : (f :: fs).mapM (preview t) = (do
          let v ← preview t f
          let vs ← fs.mapM (preview t)
          return v :: vs) := List.mapM_cons
      cases hown : compileSource t f.2 with
      | error fault =>
          rw [hown] at hall
          have hpreview : preview t f = .error (.compiling fault) := by
            unfold preview
            rw [hown]
            rfl
          rw [hshow, hpreview]
          exact .uncompiled hall
      | ok own =>
          rw [hown] at hall
          by_cases hdeep : Instruction.depthLimit
              < Instruction.greatestDepth own.program
          · have hpreview : preview t f = .error .programTooDeep := by
              rw [preview_compiled hown, writable_deep hdeep]
              rfl
            rw [hshow, hpreview]
            exact .tooDeep (List.mem_cons_self ..) hown hdeep
          · have hpreview : preview t f = .ok (f.1, compiledValue own) := by
              rw [preview_compiled hown,
                writable_shallow (Nat.le_of_not_lt hdeep)]
              rfl
            rw [hshow, hpreview]
            generalize fs.mapM (preview t) = rest at ih ⊢
            cases ih with
            | @shown shown hcompiled hshallow =>
                rw [hcompiled] at hall
                refine @Previews.shown t _ ((f.1, own) :: shown) hall ?_
                rintro p (_ | ⟨_, hp⟩)
                · exact Nat.le_of_not_lt hdeep
                · exact hshallow p hp
            | uncompiled hfault =>
                rw [hfault] at hall
                exact .uncompiled hall
            | tooDeep hmem hcompiled hdeep =>
                exact .tooDeep (List.mem_cons_of_mem _ hmem) hcompiled hdeep

section

variable [Arithmetic]

namespace Performance

variable {settings : Config} {a : Arguments}
  {folder : FileName → Except FileFault String} {name : FileName}
  {perf : Performance}

/-- What both commands find out before they compile anything. -/
structure Loads (settings : Config) (a : Arguments)
    (folder : FileName → Except FileFault String) (name : FileName)
    (perf : Performance) (t : Target) : Prop where
  target : perf.coordinator.config.target = t
  ids : perf.forests.map (·.1) = perf.agents.map (·.1)
  nodup : (perf.agents.map (·.1)).Nodup
  shows : compileMembers settings a folder name
    = perf.forests.mapM (preview t)

/-- The script of a prepared session. -/
def script (perf : Performance) : Script :=
  .forests (perf.forests.map fun f => (f.1, .source f.2))

/-- The world before the session of a command begins. -/
def opening (perf : Performance) : World :=
  (World.initial perf.agents).call perf.script (perf.agents.map (·.1))

omit [Arithmetic] in
/-- The call of a command is the only one. -/
theorem opening_briefed (perf : Performance) :
    perf.opening.Briefed perf.coordinator where
  session s hs := by cases hs
  calls n call hcall e he := by
    cases n with
    | zero =>
        cases hcall
        cases he
    | succ n => cases hcall

/-- The world in which the call of a command begins. -/
def beginning (perf : Performance) : World :=
  { perf.opening.nextRound with round := [] }

/-- The call begins in the second step. -/
theorem play_begins (perf : Performance) (fuel : Nat) :
    perf.play (fuel + 2)
      = (perf.beginning.beginCall perf.coordinator 0
          ⟨perf.script, perf.agents.map (·.1), false, none⟩).runUntil
            perf.coordinator (.inf false) fuel := rfl

/-- A world in which nothing more happens stays as it is. -/
theorem runUntil_settled {c : Coordinator} {horizon : Time} {w : World}
    (h : w.isSettled horizon = true) (fuel : Nat) :
    w.runUntil c horizon fuel = w := by
  cases fuel with
  | zero => rfl
  | succ fuel => exact if_pos h

/-- Forests that cannot be compiled end the call at once. -/
theorem play_uncompiled (perf : Performance) {f : BlockFault}
    (h : World.scriptPrograms perf.coordinator.config perf.script
      = .error f) (fuel : Nat) :
    (perf.play (fuel + 2)).calls.head?.bind (·.ending)
      = some (.uncompiled f) := by
  have hbegins : perf.beginning.beginCall perf.coordinator 0
      ⟨perf.script, perf.agents.map (·.1), false, none⟩
        = perf.beginning.endCall 0 (.uncompiled f) := by
    unfold World.beginCall
    simp only [Bool.false_eq_true, if_false, h]
  rw [play_begins, hbegins, runUntil_settled rfl]
  rfl

/-- While a session is played, the call of the command stays the only
    one. -/
theorem play_call (perf : Performance) (fuel : Nat) :
    ∃ call : Call, (perf.play fuel).calls = [call]
      ∧ call.script = perf.script ∧ call.cast = perf.agents.map (·.1) := by
  have hscripts : (perf.play fuel).scripts
      = [(perf.script, perf.agents.map (·.1))] :=
    (World.lasts_runUntil (.inf false) fuel perf.opening).1
  unfold World.scripts at hscripts
  obtain ⟨call, hcalls, heq⟩ := List.map_eq_singleton_iff.1 hscripts
  exact ⟨call, hcalls, congrArg (·.1) heq, congrArg (·.2) heq⟩

/-- Forests that can be compiled open a session. -/
theorem play_opens {programs : List (String × Program)}
    {warnings : List (String × List WarningReport)}
    (h : World.scriptPrograms perf.coordinator.config perf.script
      = .ok (programs, warnings)) (fuel : Nat) :
    ∃ s, (perf.play (fuel + 2)).session = some s := by
  refine Option.isSome_iff_exists.1 ?_
  rw [play_begins]
  refine (World.lasts_runUntil _ fuel _).2 ?_
  unfold World.beginCall
  simp only [Bool.false_eq_true, if_false, h]
  rw [if_pos (show perf.beginning.idle = true from rfl)]
  obtain ⟨-, lines, heq⟩ | ⟨-, lines, heq⟩ := World.launch_spec
    perf.coordinator perf.beginning 0 (perf.agents.map (·.1)) programs
    warnings
  · rw [heq]
    rfl
  · rw [heq]
    rfl

/-- The code, the wording and the place of a warning in a result. -/
def named (w : WarningReport) : String × String × String :=
  (w.code, w.message, w.path)

/-- What a session runs and what its result says are what was compiled. -/
structure Executes (w : World) (shown : List (String × Compiled)) :
    Prop where
  programs : ∃ s, w.session = some s
    ∧ s.tasks.map (fun t => (t.agentId, t.program)) = programsOf shown
  warnings : ∀ r, w.calls.head?.bind (·.ending) = some (.returned r) →
    r.warnings.map (fun p => (p.1, p.2.map named))
      = (warningsOf shown).map fun p => (p.1, p.2.map fun w =>
          (w.code, w.message, w.path.text))

/-- A session runs what its forests compile to. -/
theorem executes (perf : Performance) {shown : List (String × Compiled)}
    (hcompiled : compileAll perf.coordinator.config.target perf.forests
      = .ok shown)
    (hids : perf.forests.map (·.1) = perf.agents.map (·.1))
    (hnodup : (perf.agents.map (·.1)).Nodup) (fuel : Nat) :
    Executes (perf.play (fuel + 2)) shown := by
  have hscript := scriptPrograms_sources perf.coordinator.config perf.forests
  rw [hcompiled] at hscript
  have hbriefed : (perf.play (fuel + 2)).Briefed perf.coordinator :=
    (opening_briefed perf).runUntil _ _
  obtain ⟨call, hcalls, hown, hcast⟩ := play_call perf (fuel + 2)
  refine ⟨?_, fun r hr => ?_⟩
  · obtain ⟨s, hs⟩ := play_opens hscript fuel
    obtain ⟨call', programs, hcall', htold, hparts⟩ := hbriefed.session s hs
    rw [hcalls] at hcall'
    obtain rfl : call' = call := by
      simpa using List.mem_of_getElem? hcall'
    rw [hown, script, hscript] at htold
    obtain ⟨rfl, -⟩ := Prod.mk.inj (Except.ok.inj htold)
    refine ⟨s, hs, hparts.trans ?_⟩
    rw [hcast, ← hids, ← compileAll_ids hcompiled]
    exact given_programsOf
      (by rw [compileAll_ids hcompiled, hids]; exact hnodup)
  · rw [hcalls] at hr
    obtain ⟨programs, htold⟩ := hbriefed.calls 0 call
      (by rw [hcalls]; rfl) _ hr
    rw [hown, script, hscript] at htold
    obtain ⟨-, hwarnings⟩ := Prod.mk.inj (Except.ok.inj htold)
    rw [← hwarnings, List.map_map]
    refine List.map_congr_left fun p _ => ?_
    simp only [Function.comp_apply, List.map_map]
    rfl

/-! ## What is shown is what is executed -/

/-- A document shows what a session executes: for each agent on the stage,
    in order, the program that the session was told, and warnings of which
    its result carries those of the agents that have any. -/
structure Shows (perf : Performance) (doc : Members) (w : World) : Prop where
  agents : doc.map (·.1) = perf.agents.map (·.1)
  programs : ∃ s, w.session = some s
    ∧ doc.map (fun p => (p.1, shownProgram p.2))
      = s.tasks.map fun t => (t.agentId, .ok t.program)
  warnings : ∃ shown : List (String × List (String × String × String)),
    doc.map (fun p => (p.1, shownWarnings p.2))
      = shown.map (fun p => (p.1, some p.2))
    ∧ ∀ r, w.calls.head?.bind (·.ending) = some (.returned r) →
        r.warnings.map (fun p => (p.1, p.2.map named))
          = shown.filter fun p => ¬ p.2.isEmpty

omit [Arithmetic] in
/-- A session that runs what was compiled runs what is shown of it, unless
    a program is nested too deep to be shown. -/
theorem Executes.shows {t : Target} {w : World}
    {shown : List (String × Compiled)} (h : Executes w shown)
    (hids : shown.map (·.1) = perf.agents.map (·.1))
    (hcompiled : ∀ p ∈ shown, ∃ source, compileSource t source = .ok p.2)
    (hshallow : ∀ p ∈ shown, Instruction.greatestDepth p.2.program
      ≤ Instruction.depthLimit) :
    Shows perf (shown.map fun p => (p.1, compiledValue p.2)) w := by
  obtain ⟨s, hs, hprograms⟩ := h.programs
  refine ⟨?_, ⟨s, hs, ?_⟩, shown.map fun p => (p.1, p.2.warnings.map fun w =>
    (w.code, w.message, w.path.text)), ?_, fun r hr => ?_⟩
  · rw [List.map_map]
    exact hids
  · calc (shown.map fun p => (p.1, compiledValue p.2)).map
          (fun p => (p.1, shownProgram p.2))
        = shown.map fun p => (p.1, .ok p.2.program) := by
          rw [List.map_map]
          refine List.map_congr_left fun p hp => ?_
          obtain ⟨source, hsource⟩ := hcompiled p hp
          exact congrArg (Prod.mk p.1)
            (shownProgram_compiled hsource (hshallow p hp))
      _ = (programsOf shown).map fun p => (p.1, .ok p.2) := by
          rw [programsOf, List.map_map]
          rfl
      _ = s.tasks.map fun t => (t.agentId, .ok t.program) := by
          rw [← hprograms, List.map_map]
          rfl
  · rw [List.map_map, List.map_map]
    exact List.map_congr_left fun p _ =>
      congrArg (Prod.mk p.1) (shownWarnings_compiled p.2)
  · rw [h.warnings r hr, warningsOf, List.map_map, List.filter_map]
    refine congrArg (List.map _) (List.filter_congr fun p _ => ?_)
    simp

/-- How the answer of the command to compile goes with what the other
    command does in the meantime. -/
inductive Agrees (perf : Performance) (w : World) :
    Except CommandFault String → Prop
  /-- A document is written that shows what is executed. -/
  | prints {doc : Members} (shows : Shows perf doc w)
      (writable : Text.unwritable? (Json.document (.object doc)) = none) :
      Agrees perf w (.ok (Json.document (.object doc) ++ "\n"))
  /-- The document would show what is executed, but its text holds
      surrogates on their own. -/
  | unwritable {doc : Members} {place : Text.Unwritable}
      (shows : Shows perf doc w)
      (found : Text.unwritable? (Json.document (.object doc)) = some place) :
      Agrees perf w (.error (.unwritable place))
  /-- A program is nested too deep to be shown; if all forests can be
      compiled, they are executed all the same. -/
  | tooDeep {f : String × Value} {own : Compiled} (mem : f ∈ perf.forests)
      (compiled : compileSource perf.coordinator.config.target f.2 = .ok own)
      (deep : Instruction.depthLimit
        < Instruction.greatestDepth own.program)
      (executes : ∀ shown,
        compileAll perf.coordinator.config.target perf.forests = .ok shown →
        Executes w shown) :
      Agrees perf w (.error .programTooDeep)
  /-- Some forest cannot be compiled, for either command. -/
  | uncompiled {f : BlockFault}
      (ends : w.calls.head?.bind (·.ending) = some (.uncompiled f)) :
      Agrees perf w (.error (.compiling f))

section

variable {w : World} {doc : Members}

omit [Arithmetic] in
/-- A document that shows what is executed is written, if it can be. -/
theorem Shows.written (h : Shows perf doc w) :
    Agrees perf w (document (.object doc)) := by
  cases hfound : Text.unwritable? (Json.document (.object doc)) with
  | none => exact document_ok hfound ▸ .prints h hfound
  | some place => exact document_error hfound ▸ .unwritable h hfound

omit [Arithmetic] in
/-- Where a document is written or refused for its text, it shows what is
    executed. -/
theorem Agrees.shows {v : Value} (h : Agrees perf w (document v)) :
    ∃ doc, document v = document (.object doc) ∧ Shows perf doc w := by
  have hmade : document v ≠ .error .programTooDeep
      ∧ ∀ f, document v ≠ .error (.compiling f) := by
    cases hfound : Text.unwritable? (Json.document v) with
    | none =>
        rw [document_ok hfound]
        exact ⟨nofun, nofun⟩
    | some place =>
        rw [document_error hfound]
        exact ⟨nofun, nofun⟩
  generalize document v = answer at h hmade
  cases h with
  | prints hshows hfound => exact ⟨_, (document_ok hfound).symm, hshows⟩
  | unwritable hshows hfound =>
      exact ⟨_, (document_error hfound).symm, hshows⟩
  | tooDeep => exact absurd rfl hmade.1
  | uncompiled => exact absurd rfl (hmade.2 _)

end

/-- Whoever observes it, a session that was loaded executes what the
    command to compile shows. -/
theorem Loads.agrees {t : Target}
    (h : Loads settings a folder name perf t) (o : Observer) (fuel : Nat) :
    Agrees perf
      ({ perf with coordinator := { perf.coordinator with observer := o } }.play
        (fuel + 2)) (compileOutput settings a folder name) := by
  set watched : Performance :=
    { perf with coordinator := { perf.coordinator with observer := o } }
  have hexecutes : ∀ shown, compileAll perf.coordinator.config.target
      perf.forests = .ok shown → Executes (watched.play (fuel + 2)) shown :=
    fun shown hshown => watched.executes hshown h.ids h.nodup fuel
  have hpreviews := previews perf.coordinator.config.target perf.forests
  unfold compileOutput
  rw [h.shows, ← h.target]
  generalize perf.forests.mapM (preview _) = outcome at hpreviews ⊢
  cases hpreviews with
  | @shown shown hcompiled hshallow =>
      have hshows := (hexecutes shown hcompiled).shows
        ((compileAll_ids hcompiled).trans h.ids) (compileAll_mem hcompiled)
        hshallow
      generalize shown.map (fun p => (p.1, compiledValue p.2)) = doc
        at hshows ⊢
      exact hshows.written
  | @uncompiled f hfault =>
      have hscript := scriptPrograms_sources perf.coordinator.config
        perf.forests
      rw [hfault] at hscript
      exact .uncompiled (watched.play_uncompiled hscript fuel)
  | tooDeep hmem hcompiled hdeep =>
      exact .tooDeep hmem hcompiled hdeep hexecutes

end Performance

end

namespace Performance

attribute [local instance] Arithmetic.binary64

end Performance

end Reply

end BlockStage
