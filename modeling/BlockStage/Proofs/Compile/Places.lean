import BlockStage.Proofs.Compile.Locality

/-! # Places — where the warnings of a forest come from

    A place is a path down a forest: an index, then an index among the
    items inside the item found so far, and so on.  What counts as inside
    is a parameter (`itemAt?`), so that one forest can be walked as it was
    written, as it is read and as it is compiled.

    Warnings that are gathered item by item, those of the items inside
    between an item's own, are exactly the complaints of the items found at
    their paths (`mem_gathered_iff`).  The warnings of the compiler are
    gathered like that (`mem_compileForest_iff`). -/

namespace BlockStage

variable {α β : Type}

/-! ## Items at places -/

/-- The item at a place below an item. -/
def itemBelow? (inside : α → List α) (x : α) : Path → Option α
  | [] => some x
  | i :: p => (inside x)[i]?.bind fun y => itemBelow? inside y p

/-- The item at a place of a forest; no item is at no place. -/
def itemAt? (inside : α → List α) (xs : List α) : Path → Option α
  | [] => none
  | i :: p => xs[i]?.bind fun x => itemBelow? inside x p

section Walks

variable {inside : α → List α}

/-- Forests of the same shape have corresponding items at all places. -/
theorem itemBelow?_map {f : α → β} {other : β → List β}
    (h : ∀ x, other (f x) = (inside x).map f) (x : α) (p : Path) :
    itemBelow? other (f x) p = (itemBelow? inside x p).map f := by
  induction p generalizing x with
  | nil => rfl
  | cons i p ih =>
      rw [itemBelow?, itemBelow?, h, List.getElem?_map]
      cases (inside x)[i]? with
      | none => rfl
      | some y => exact ih y

theorem itemAt?_map {f : α → β} {other : β → List β}
    (h : ∀ x, other (f x) = (inside x).map f) (xs : List α) (p : Path) :
    itemAt? other (xs.map f) p = (itemAt? inside xs p).map f := by
  cases p with
  | nil => rfl
  | cons i p =>
      rw [itemAt?, itemAt?, List.getElem?_map]
      cases xs[i]? with
      | none => rfl
      | some x => exact itemBelow?_map h x p

/-- A walk that leaves some items alone finds nothing but what a walk
    through all of them finds. -/
theorem itemBelow?_mono {outer : α → List α}
    (h : ∀ x, inside x = outer x ∨ inside x = []) {x y : α} {p : Path}
    (hy : itemBelow? inside x p = some y) : itemBelow? outer x p = some y := by
  induction p generalizing x with
  | nil => exact hy
  | cons i p ih =>
      obtain ⟨z, hz, hy⟩ := Option.bind_eq_some_iff.1 hy
      rcases h x with heq | heq
      · rw [heq] at hz
        exact Option.bind_eq_some_iff.2 ⟨z, hz, ih hy⟩
      · rw [heq] at hz
        cases hz

theorem itemAt?_mono {outer : α → List α}
    (h : ∀ x, inside x = outer x ∨ inside x = []) {xs : List α} {y : α}
    {p : Path} (hy : itemAt? inside xs p = some y) :
    itemAt? outer xs p = some y := by
  cases p with
  | nil => cases hy
  | cons i p =>
      obtain ⟨x, hx, hy⟩ := Option.bind_eq_some_iff.1 hy
      exact Option.bind_eq_some_iff.2 ⟨x, hx, itemBelow?_mono h hy⟩

end Walks

/-! ## Gathered warnings -/

/-- The warnings of some items, the first one at index `i`. -/
def gather (warnings : α → List Warning) (i : Nat) : List α → List Warning
  | [] => []
  | x :: xs => (warnings x).map (.within [i]) ++ gather warnings (i + 1) xs

/-- Warnings about one place. -/
theorem mem_map_mk {cs : List Complaint} {w : Warning} :
    w ∈ cs.map (.mk []) ↔ w.path = [] ∧ w.complaint ∈ cs := by
  obtain ⟨p, c⟩ := w
  rw [List.mem_map]
  constructor
  · rintro ⟨c', hc, heq⟩
    cases heq
    exact ⟨rfl, hc⟩
  · rintro ⟨rfl, hc⟩
    exact ⟨c, hc, rfl⟩

/-- A warning of a list of items is about the item at its first index, or
    about an item inside that. -/
theorem mem_gather_iff {warnings : α → List Warning} (xs : List α)
    (i : Nat) (w : Warning) :
    w ∈ gather warnings i xs ↔
      ∃ j x own, xs[j]? = some x ∧ own ∈ warnings x
        ∧ w = own.within [i + j] := by
  induction xs generalizing i with
  | nil => simp [gather]
  | cons x xs ih =>
      unfold gather
      rw [List.mem_append, List.mem_map, ih]
      constructor
      · rintro (⟨own, hown, rfl⟩ | ⟨j, y, own, hj, hown, rfl⟩)
        · exact ⟨0, x, own, rfl, hown, rfl⟩
        · exact ⟨j + 1, y, own, hj, hown, by rw [Nat.add_assoc, Nat.add_comm 1]⟩
      · rintro ⟨j, y, own, hj, hown, rfl⟩
        cases j with
        | zero =>
            obtain rfl := Option.some.inj hj
            exact .inl ⟨own, hown, rfl⟩
        | succ j =>
            exact .inr ⟨j, y, own, hj, hown,
              by rw [Nat.add_assoc, Nat.add_comm 1]⟩

section Gathered

variable {inside : α → List α} {warnings : α → List Warning}
  {complaints : α → List Complaint}

/-- Warnings gathered item by item: an item's own, which are about its
    place, and those of the items inside it. -/
def Gathered (inside : α → List α) (complaints : α → List Complaint)
    (warnings : α → List Warning) : Prop :=
  ∀ x w, w ∈ warnings x ↔
    (w.path = [] ∧ w.complaint ∈ complaints x)
      ∨ w ∈ gather warnings 0 (inside x)

/-- Gathered warnings are the complaints of the items at their places. -/
theorem Gathered.mem_iff (h : Gathered inside complaints warnings) (x : α)
    (w : Warning) :
    w ∈ warnings x ↔
      ∃ y, itemBelow? inside x w.path = some y ∧ w.complaint ∈ complaints y := by
  obtain ⟨p, c⟩ := w
  induction p generalizing x with
  | nil =>
      rw [h, mem_gather_iff]
      constructor
      · rintro (⟨-, hc⟩ | ⟨j, y, own, -, -, heq⟩)
        · exact ⟨x, rfl, hc⟩
        · cases heq
      · rintro ⟨y, hy, hc⟩
        cases hy
        exact .inl ⟨rfl, hc⟩
  | cons i p ih =>
      rw [h, mem_gather_iff]
      constructor
      · rintro (⟨hno, -⟩ | ⟨j, y, own, hj, hown, heq⟩)
        · cases hno
        · obtain ⟨q, c'⟩ := own
          simp only [Warning.within, Nat.zero_add, List.singleton_append,
            Warning.mk.injEq, List.cons.injEq] at heq
          obtain ⟨⟨rfl, rfl⟩, rfl⟩ := heq
          obtain ⟨z, hz, hc⟩ := (ih y).1 hown
          exact ⟨z, Option.bind_eq_some_iff.2 ⟨y, hj, hz⟩, hc⟩
      · rintro ⟨z, hz, hc⟩
        obtain ⟨y, hy, hz⟩ := Option.bind_eq_some_iff.1 hz
        refine .inr ⟨i, y, ⟨p, c⟩, hy, (ih y).2 ⟨z, hz, hc⟩, ?_⟩
        rw [Nat.zero_add]
        rfl

/-- So they are in a forest. -/
theorem Gathered.mem_gather (h : Gathered inside complaints warnings)
    (xs : List α) (w : Warning) :
    w ∈ gather warnings 0 xs ↔
      ∃ y, itemAt? inside xs w.path = some y ∧ w.complaint ∈ complaints y := by
  rw [mem_gather_iff]
  constructor
  · rintro ⟨j, x, own, hj, hown, rfl⟩
    obtain ⟨y, hy, hc⟩ := (h.mem_iff x own).1 hown
    refine ⟨y, ?_, hc⟩
    show itemAt? inside xs ((0 + j) :: own.path) = some y
    rw [Nat.zero_add]
    exact Option.bind_eq_some_iff.2 ⟨x, hj, hy⟩
  · rintro ⟨y, hy, hc⟩
    obtain ⟨p, c⟩ := w
    cases p with
    | nil => cases hy
    | cons i p =>
        obtain ⟨x, hx, hy⟩ := Option.bind_eq_some_iff.1 hy
        refine ⟨i, x, ⟨p, c⟩, hx, (h.mem_iff x _).2 ⟨y, hy, hc⟩, ?_⟩
        rw [Nat.zero_add]
        rfl

end Gathered

/-! ## The warnings of the compiler -/

variable {t : Target}

/-- What is said of a block itself, before and after its body. -/
def Block.complaints (t : Target) (b : Block) : List Complaint :=
  b.complaintsBefore t ++ b.complaintsAfter t

/-- The warnings of blocks in order are gathered from the blocks. -/
theorem compileBlocks_warnings (i : Nat) (bs : List Block) :
    (compileBlocks t [] i bs).warnings
      = gather (fun b => (compileBlock t [] b).warnings) i bs := by
  induction bs generalizing i with
  | nil => rfl
  | cons b bs ih =>
      rw [compileBlocks, compileBlock_within, Compiled.append_warnings, ih]
      rfl

/-- The compiler gathers warnings from the blocks that it goes through. -/
theorem compileBlock_gathered :
    Gathered Block.inside (Block.complaints t)
      fun b => (compileBlock t [] b).warnings := by
  intro b w
  dsimp only
  rw [compileBlock_warnings, compileBlocks_warnings, List.mem_append,
    List.mem_append, mem_map_mk, mem_map_mk, Block.complaints,
    List.mem_append, or_right_comm, and_or_left]

/-- The warnings of a compiled forest are the complaints about the blocks at
    their places. -/
theorem mem_compileForest_iff (bs : List Block) (w : Warning) :
    w ∈ (compileForest t bs).warnings ↔
      ∃ b, itemAt? Block.inside bs w.path = some b
        ∧ w.complaint ∈ b.complaints t := by
  unfold compileForest
  rw [compileBlocks_warnings]
  exact compileBlock_gathered.mem_gather bs w

end BlockStage
