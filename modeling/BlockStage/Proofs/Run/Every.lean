import BlockStage.Proofs.Run.Advance

/-! # Every instruction — what holds all through a program

    A property of single instructions is asked of an instruction and of all
    instructions in its bodies.  A run never has an instruction left to do
    that its program does not have. -/

namespace BlockStage

namespace Instruction

mutual

/-- A property of an instruction and of all in its bodies. -/
def Every (P : Instruction → Prop) : Instruction → Prop
  | repeatTimes v body => P (repeatTimes v body) ∧ EveryOf P body
  | repeatBounded v body => P (repeatBounded v body) ∧ EveryOf P body
  | ifGoalReached body => P (ifGoalReached body) ∧ EveryOf P body
  | i => P i

/-- A property of all instructions of a program and of its bodies. -/
def EveryOf (P : Instruction → Prop) : List Instruction → Prop
  | [] => True
  | i :: is => i.Every P ∧ EveryOf P is

end

variable {P : Instruction → Prop} {i : Instruction} {is : List Instruction}

theorem everyOf_iff : EveryOf P is ↔ ∀ i ∈ is, i.Every P := by
  induction is with
  | nil => simp [EveryOf]
  | cons i is ih => simp [EveryOf, ih]

/-- The property of the instruction itself. -/
theorem Every.head (h : i.Every P) : P i := by
  cases i with
  | repeatTimes v body => exact h.1
  | repeatBounded v body => exact h.1
  | ifGoalReached body => exact h.1
  | _ => exact h

mutual

/-- What a property implies holds wherever the property does. -/
theorem Every.imp {P Q : Instruction → Prop} (hpq : ∀ i, P i → Q i) :
    ∀ {i : Instruction}, i.Every P → i.Every Q
  | repeatTimes _ _, h => ⟨hpq _ h.1, EveryOf.imp hpq h.2⟩
  | repeatBounded _ _, h => ⟨hpq _ h.1, EveryOf.imp hpq h.2⟩
  | ifGoalReached _, h => ⟨hpq _ h.1, EveryOf.imp hpq h.2⟩
  | move _, h => hpq _ h
  | turnRight _, h => hpq _ h
  | turnLeft _, h => hpq _ h
  | wait _, h => hpq _ h
  | say _, h => hpq _ h
  | foreign _, h => hpq _ h

theorem EveryOf.imp {P Q : Instruction → Prop} (hpq : ∀ i, P i → Q i) :
    ∀ {is : List Instruction}, EveryOf P is → EveryOf Q is
  | [], _ => trivial
  | _ :: _, h => ⟨Every.imp hpq h.1, EveryOf.imp hpq h.2⟩

end

end Instruction

namespace Act

variable {P : Instruction → Prop} {todo rest : List Act}

/-- A property of all instructions that an act leads to. -/
def Every (P : Instruction → Prop) : Act → Prop
  | perform i => i.Every P
  | pass _ body => Instruction.EveryOf P body
  | _ => True

/-- A property of all instructions that are left to do. -/
def EveryOf (P : Instruction → Prop) (todo : List Act) : Prop :=
  ∀ act ∈ todo, act.Every P

theorem everyOf_cons {act : Act} :
    EveryOf P (act :: rest) ↔ act.Every P ∧ EveryOf P rest :=
  List.forall_mem_cons

/-- A body in front of other things to do. -/
theorem everyOf_body {body : List Instruction}
    (hb : Instruction.EveryOf P body) (h : EveryOf P rest) :
    EveryOf P (body.map perform ++ rest) := by
  intro act hact
  rcases List.mem_append.1 hact with hact | hact
  · obtain ⟨i, hi, rfl⟩ := List.mem_map.1 hact
    exact Instruction.everyOf_iff.1 hb i hi
  · exact h act hact

end Act

open Act

/-- What holds of all instructions that are left to do goes on to hold. -/
theorem Advance.everyOf [Arithmetic] {P : Instruction → Prop} {s : Scene}
    {now : Time} {a b : Agent} {todo next : List Act} {signal : Signal}
    (h : Advance s now a todo b next signal) (hp : EveryOf P todo) :
    EveryOf P next := by
  have hframe : ∀ {progress again rest}, again.Every P → EveryOf P rest →
      EveryOf P (Walker.afterFrame progress again rest) := by
    intro progress again rest ha hr
    unfold Walker.afterFrame
    split
    · exact hr
    · exact everyOf_cons.2 ⟨trivial, everyOf_cons.2 ⟨ha, hr⟩⟩
  have hrest : ∀ {act rest}, todo = act :: rest →
      act.Every P ∧ EveryOf P rest := by
    rintro act rest rfl
    exact everyOf_cons.1 hp
  cases h with
  | loop hi =>
      obtain ⟨hact, hr⟩ := hrest rfl
      refine everyOf_cons.2 ⟨?_, hr⟩
      rcases hi with rfl | rfl
      · exact hact.2
      · exact hact.2
  | atGoal =>
      obtain ⟨hact, hr⟩ := hrest rfl
      exact everyOf_body hact.2 hr
  | nextPass =>
      obtain ⟨hact, hr⟩ := hrest rfl
      exact everyOf_body hact (everyOf_cons.2 ⟨hact, hr⟩)
  | glides => exact everyOf_cons.2 ⟨trivial, hframe trivial (hrest rfl).2⟩
  | swings => exact everyOf_cons.2 ⟨trivial, hframe trivial (hrest rfl).2⟩
  | _ =>
      have hr := (hrest rfl).2
      simp only [EveryOf, List.forall_mem_cons, Act.Every, true_and]
      exact hr

/-- A program sets out with its own instructions. -/
theorem Walker.start_everyOf {P : Instruction → Prop} {p : Program}
    (h : Instruction.EveryOf P p) : EveryOf P (start p).todo := by
  refine everyOf_cons.2 ⟨trivial, everyOf_cons.2 ⟨trivial, ?_⟩⟩
  rw [← List.append_nil (p.map Act.perform)]
  exact everyOf_body h (fun _ hno => by cases hno)

/-- What holds of all instructions that are left to do holds after a
    step. -/
theorem Walker.step_everyOf [Arithmetic] {P : Instruction → Prop}
    {s : Scene} {now : Time} {running : Bool} {a : Agent} {w : Walker}
    (hp : EveryOf P w.todo) :
    EveryOf P (w.step s now running a).walker.todo := by
  rcases step_cases s now running a w with ⟨-, heq⟩ |
    ⟨-, rest, log, -, heq⟩ | ⟨f, -, htodo, -⟩ | hadv
  · rw [heq]
    exact hp
  · rw [heq]
    exact hp
  · rw [htodo]
    exact hp
  · exact hadv.everyOf hp

end BlockStage
