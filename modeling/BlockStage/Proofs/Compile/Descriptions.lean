import BlockStage.Proofs.Compile.Fields
import BlockStage.Proofs.Compile.Measures

/-! # Descriptions — counts that are not written out

    A count of more than 64 bits is described in words where it is the
    value of a field (`huge_described`).  A list or an object is quoted as
    it is, with all its counts in digits (`Value.spells_inner`), and if one
    of them has too many digits for that, nothing is compiled. -/

namespace BlockStage

open Value

/-! ## Digits in texts -/

/-- The digits of a text. -/
def digitsIn (s : String) : List Char := s.toList.filter Char.isDigit

@[simp] theorem digitsIn_append (s u : String) :
    digitsIn (s ++ u) = digitsIn s ++ digitsIn u := by
  simp [digitsIn]

/-- Whether a text writes out a count in decimal digits. -/
def Spells (s : String) (k : Int) : Prop :=
  (toString k.natAbs).toList <:+: s.toList

variable {s u : String} {k : Int}

/-- The digits of a count are digits. -/
theorem digitsIn_natAbs (k : Int) :
    digitsIn (toString k.natAbs) = (toString k.natAbs).toList := by
  refine List.filter_eq_self.2 fun c hc => ?_
  rw [Nat.toString_eq_ofList_toDigits, String.toList_ofList] at hc
  exact Nat.isDigit_of_mem_toDigits (by decide) (by decide) hc

/-- What is written out stands among the digits. -/
theorem Spells.digits (h : Spells s k) :
    (toString k.natAbs).toList <:+: digitsIn s := by
  rw [← digitsIn_natAbs]
  exact h.filter Char.isDigit

/-- A count of more than 64 bits has at least twenty digits. -/
theorem huge_digits (h : isHuge k = true) :
    20 ≤ (toString k.natAbs).toList.length := by
  have hlarge : 2 ^ 64 ≤ k.natAbs := of_decide_eq_true h
  rw [Nat.toString_eq_ofList_toDigits, String.toList_ofList]
  by_contra hshort
  have hsmall : k.natAbs < 10 ^ 19 :=
    (Nat.length_toDigits_le_iff (by decide) (by decide)).1 (by omega)
  omega

/-- A text with fewer digits writes out none. -/
theorem not_spells (hs : (digitsIn s).length < 20) (h : isHuge k = true) :
    ¬ Spells s k := fun hspells =>
  absurd (huge_digits h) (by have := hspells.digits.length_le; omega)

/-- The digits in the text of a count are those of its size. -/
theorem digitsIn_toString (k : Int) :
    digitsIn (toString k) = (toString k.natAbs).toList := by
  cases k with
  | ofNat m => exact digitsIn_natAbs (Int.ofNat m)
  | negSucc m =>
      have hsign : toString (Int.negSucc m)
          = "-" ++ toString (Int.negSucc m).natAbs := rfl
      have hminus : digitsIn "-" = [] := by decide
      rw [hsign, digitsIn_append, hminus, List.nil_append]
      exact digitsIn_natAbs (Int.negSucc m)

/-- The text of a count writes it out, whatever its sign. -/
theorem spells_toString (k : Int) : Spells (toString k) k := by
  cases k with
  | ofNat m => exact List.infix_rfl
  | negSucc m =>
      have hsign : toString (Int.negSucc m)
          = "-" ++ toString (Int.negSucc m).natAbs := rfl
      unfold Spells
      rw [hsign, String.toList_append]
      exact (List.suffix_append _ _).isInfix

/-- A text with no digits but those of a count writes out no other count. -/
theorem Spells.of_digits {n : Int} (h : Spells s k)
    (hs : digitsIn s = digitsIn (toString n)) : Spells (toString n) k := by
  have hinfix := h.digits
  rw [hs, digitsIn_toString] at hinfix
  exact hinfix.trans (spells_toString n)

/-! ## Counts in values -/

namespace Value

mutual

/-- The counts in a value, at any depth. -/
def counts : Value → List Int
  | num (.int k) => [k]
  | list items => itemCounts items
  | object ms => memberCounts ms
  | _ => []

/-- The counts in the items of a list. -/
def itemCounts : List Value → List Int
  | [] => []
  | v :: vs => v.counts ++ itemCounts vs

/-- The counts in the members of an object. -/
def memberCounts : List (String × Value) → List Int
  | [] => []
  | (_, v) :: ms => v.counts ++ memberCounts ms

end

/-- The counts inside a list or an object. -/
def innerCounts : Value → List Int
  | list items => itemCounts items
  | object ms => memberCounts ms
  | _ => []

mutual

/-- A value can be written out if all counts in it can. -/
theorem legible_iff : ∀ v : Value,
    v.legible = true ↔ ∀ k ∈ v.counts, legibleInt k = true
  | num (.int k) => by simp [legible, counts]
  | list items => itemsLegible_iff items
  | object ms => membersLegible_counts ms
  | null => by simp [legible, counts]
  | bool _ => by simp [legible, counts]
  | num (.real _) => by simp [legible, counts]
  | str _ => by simp [legible, counts]

/-- So can the items of a list. -/
theorem itemsLegible_iff : ∀ vs : List Value,
    itemsLegible vs = true ↔ ∀ k ∈ itemCounts vs, legibleInt k = true
  | [] => by simp [itemsLegible, itemCounts]
  | v :: vs => by
      rw [itemsLegible, itemCounts, Bool.and_eq_true, legible_iff v,
        itemsLegible_iff vs, List.forall_mem_append]

/-- So can the members of an object. -/
theorem membersLegible_counts : ∀ ms : List (String × Value),
    membersLegible ms = true ↔ ∀ k ∈ memberCounts ms, legibleInt k = true
  | [] => by simp [membersLegible, memberCounts]
  | (_, v) :: ms => by
      rw [membersLegible, memberCounts, Bool.and_eq_true, legible_iff v,
        membersLegible_counts ms, List.forall_mem_append]

end

/-- A value can be shown if all counts inside it can be written out. -/
theorem showable_iff (v : Value) :
    v.showable = true ↔ ∀ k ∈ v.innerCounts, legibleInt k = true := by
  cases v with
  | num m => simp [showable, innerCounts]
  | list items => exact legible_iff (list items)
  | object ms => exact legible_iff (object ms)
  | null => simp [showable, legible, innerCounts]
  | bool b => simp [showable, legible, innerCounts]
  | str s => simp [showable, legible, innerCounts]

/-- What stands in one of some texts stands in all of them put together. -/
theorem infix_intercalate (sep : String) {texts : List String}
    {part : String} (h : part ∈ texts) :
    part.toList <:+: (sep.intercalate texts).toList := by
  induction texts with
  | nil => cases h
  | cons first rest ih =>
      cases rest with
      | nil =>
          obtain rfl := List.mem_singleton.1 h
          rw [String.intercalate_singleton]
      | cons second rest =>
          rw [String.intercalate_cons_of_ne_nil (by simp),
            String.toList_append, String.toList_append]
          rcases List.mem_cons.1 h with rfl | h
          · exact (List.prefix_append ..).isInfix.trans
              (List.prefix_append ..).isInfix
          · exact (ih h).trans (List.suffix_append ..).isInfix

mutual

/-- The text of a value writes out all counts in it. -/
theorem spells_text : ∀ v : Value, ∀ k ∈ v.counts, Spells v.text k
  | num (.int j), k, h => by
      rw [counts, List.mem_singleton] at h
      rw [h]
      exact spells_toString j
  | list items, k, h => by
      obtain ⟨part, hpart, hk⟩ := spells_itemTexts items k h
      exact (hk.trans (infix_intercalate ", " hpart)).trans
        ⟨['['], [']'], by simp [text]⟩
  | object ms, k, h => by
      obtain ⟨part, hpart, hk⟩ := spells_memberTexts ms k h
      exact (hk.trans (infix_intercalate ", " hpart)).trans
        ⟨['\x7b'], ['\x7d'], by simp [text]⟩

/-- One of the texts of the items does. -/
theorem spells_itemTexts : ∀ vs : List Value, ∀ k ∈ itemCounts vs,
    ∃ part ∈ itemTexts vs, Spells part k
  | v :: vs, k, h => by
      rcases List.mem_append.1 h with h | h
      · exact ⟨_, List.mem_cons_self .., spells_text v k h⟩
      · obtain ⟨part, hpart, hk⟩ := spells_itemTexts vs k h
        exact ⟨part, List.mem_cons_of_mem _ hpart, hk⟩

/-- One of the texts of the members does. -/
theorem spells_memberTexts : ∀ ms : List (String × Value),
    ∀ k ∈ memberCounts ms, ∃ part ∈ memberTexts ms, Spells part k
  | (name, v) :: ms, k, h => by
      rcases List.mem_append.1 h with h | h
      · refine ⟨_, List.mem_cons_self .., (spells_text v k h).trans ?_⟩
        rw [String.toList_append]
        exact (List.suffix_append _ _).isInfix
      · obtain ⟨part, hpart, hk⟩ := spells_memberTexts ms k h
        exact ⟨part, List.mem_cons_of_mem _ hpart, hk⟩

end

/-- A list or an object is shown with all counts inside it in digits. -/
theorem spells_inner {v : Value} (h : k ∈ v.innerCounts) :
    Spells v.shown k := by
  cases v with
  | list items => exact spells_text (list items) k h
  | object ms => exact spells_text (object ms) k h
  | _ => cases h

end Value

/-! ## Huge counts in their domains -/

/-- What a count of more than 64 bits is called. -/
def describe (k : Int) : String :=
  if 0 < k then "a very large integer" else "a very large negative integer"

theorem shown_huge (h : isHuge k = true) : (Value.int k).shown = describe k :=
  if_pos h

theorem digitsIn_describe (k : Int) : digitsIn (describe k) = [] := by
  unfold describe
  split <;> decide

/-- Whether there are few digits in what a domain says of itself, and room
    for descriptions in it. -/
def Domain.isTerse : Domain → Bool
  | number d =>
      (digitsIn d.minimum.text).length < 20
        && d.maximum.all fun m => (digitsIn m.text).length < 20
  | choice choices default =>
      (digitsIn (list (choices.map .str)).text).length
        + (digitsIn (Text.quoted default)).length < 20
  | text _ limit => 29 ≤ limit

/-- All fields are terse, also under the editor's names, and their names
    have no digits. -/
theorem Domains.of_terse (k : Kind) (source : String) :
    ∀ d ∈ Domains.of (some k) source,
      digitsIn d.1 = [] ∧ d.2.isTerse = true := by
  refine Domains.of_holds (P := fun ds => ∀ d ∈ ds,
    digitsIn d.1 = [] ∧ d.2.isTerse = true) k source ?_
  cases k <;> decide +kernel

variable {n : Int} {p : FieldProblem}

/-- A huge count is a whole number, so all that a number field can have
    against it is its size. -/
theorem NumberDomain.coerce_huge {d : NumberDomain}
    (hd : (Domain.number d).isBounded = true)
    (h : (d.coerce (.int n) (.int k)).2 = some p) :
    p = .below (.int k) d.minimum
      ∨ p = .above (.int k) (d.limit (.int n)) := by
  obtain ⟨hmin, hmax⟩ := Bool.and_eq_true_iff.1 hd
  obtain ⟨m, hm⟩ : ∃ m : Int, (d.limit (.int n)).number? = some (.int m) := by
    unfold limit
    cases hmaximum : d.maximum with
    | none => exact ⟨n, rfl⟩
    | some j =>
        rw [hmaximum, Option.all_some] at hmax
        cases j with
        | real x => cases hmax
        | int j => exact ⟨j, rfl⟩
  have hkept : ∀ m p, (d.settle (.int k) (m, some p)).2 = some p := by
    intro m p
    unfold settle
    split <;> rfl
  have hread : read? (.int k) = some (Binary64.nearest k) := rfl
  have hfinite : (Num.int k).exact ≠ .nan := fun hnan => by cases hnan
  have hne : Binary64.nearest k ≠ .nan := Num.reading_ne_nan hfinite
  rw [coerce_read hread hne] at h
  unfold bound at h
  split at h
  · rw [hkept] at h
    exact .inl (Option.some.inj h).symm
  rename_i hlow
  split at h
  · rw [hkept] at h
    exact .inr (Option.some.inj h).symm
  rename_i hnone
  exfalso
  rcases Binary64.nearest_count k with ⟨negative, hinf⟩ | ⟨j, hj⟩
  -- an infinity lies beyond one of the bounds
  · rw [hinf] at hlow hnone
    cases negative with
    | true =>
        refine hlow ?_
        rcases Scalar.isFinite_iff.1 hmin with ⟨q, hq⟩ | hq <;>
          · rw [Num.lt, hq]
            rfl
    | false =>
        have hno := Option.filter_eq_none_iff.1 hnone _ hm
        exact hno rfl
  -- a count is its own nearest whole number
  · rw [hj] at h
    have hrounded : nearestWhole (.real (.finite j)) = j := roundEven_int j
    have hsame : (Num.real (.finite j)).same (.int j) = true :=
      Scalar.same_self fun hnan => by cases hnan
    unfold settle at h
    split at h
    · dsimp only at h
      rw [hrounded, hsame] at h
      cases h
    · cases h

/-- A value below the least one is quoted first. -/
theorem FieldProblem.message_below (raw : Value) (minimum : Num) :
    (below raw minimum).message
      = raw.shown ++ (" below minimum " ++ minimum.text) :=
  String.append_assoc

/-- So is a value above the greatest one. -/
theorem FieldProblem.message_above (raw maximum : Value) :
    (above raw maximum).message
      = raw.shown ++ (" above maximum " ++ maximum.plain) :=
  String.append_assoc

/-- So is a value that is none of the words. -/
theorem FieldProblem.message_notChoice (raw : Value) (choices : List String)
    (default : String) :
    (notChoice raw choices default).message
      = raw.shown ++ (" not one of " ++ (list (choices.map .str)).text
          ++ "; using " ++ Text.quoted default) := by
  show raw.shown ++ " not one of " ++ (list (choices.map .str)).text
      ++ "; using " ++ Text.quoted default = _
  simp only [String.append_assoc]

/-- What is quoted first stands in the text. -/
theorem describe_in_quoted (hk : isHuge k = true) (rest : String) :
    (describe k).toList <:+: ((Value.int k).shown ++ rest).toList := by
  rw [shown_huge hk, String.toList_append]
  exact (List.prefix_append ..).isInfix

/-- It has no digits, so only the rest of the text has any. -/
theorem digitsIn_shown (hk : isHuge k = true) (rest : String) :
    digitsIn ((Value.int k).shown ++ rest) = digitsIn rest := by
  rw [shown_huge hk, digitsIn_append, digitsIn_describe, List.nil_append]

/-- A text field keeps a description whole. -/
theorem coerceText_huge {default : String} {limit : Nat}
    (hterse : (Domain.text default limit).isTerse = true)
    (hk : isHuge k = true) :
    Domain.coerceText default limit (.int k) = (describe k, none) := by
  have hroom : 29 ≤ limit := of_decide_eq_true hterse
  have hlength : (describe k).length ≤ 29 := by
    rw [describe]
    split <;> decide
  have hshort : ¬ limit < (Value.int k).shown.length := by
    rw [shown_huge hk]
    omega
  calc
    _ = ((Value.int k).shown, none) := if_neg hshort
    _ = (describe k, none) := by rw [shown_huge hk]

/-- All that a choice can have against a value is that it is none of the
    words. -/
theorem coerceChoice_problem {choices : List String} {default : String}
    {raw : Value}
    (h : (Domain.coerceChoice choices default raw).2 = some p) :
    p = .notChoice (Domain.worded raw) choices default := by
  unfold Domain.coerceChoice at h
  split at h
  · cases h
  dsimp only at h
  split at h
  · cases h
  · exact (Option.some.inj h).symm

/-- It keeps a list or an object as it is quoted, if there is room. -/
theorem coerceText_inner {default : String} {limit : Nat} {raw : Value}
    (hk : k ∈ raw.innerCounts) (hroom : raw.shown.length ≤ limit) :
    Domain.coerceText default limit raw = (raw.shown, none) := by
  have hshort : ¬ limit < raw.shown.length := by omega
  cases raw with
  | list items => exact if_neg hshort
  | object ms => exact if_neg hshort
  | _ => cases hk

/-- What a domain says of a huge count describes it, and writes out no
    count of that size but the loop ceiling. -/
theorem Domain.problem_huge {d : Domain} (hd : d.isBounded = true)
    (hterse : d.isTerse = true) (hk : isHuge k = true)
    (h : (d.coerce (.int n) (.int k)).2 = some p) :
    ((digitsIn p.message).length < 20
        ∨ digitsIn p.message = digitsIn (toString n))
      ∧ (describe k).toList <:+: p.message.toList := by
  cases d with
  | number d =>
      simp only [isTerse, Bool.and_eq_true, decide_eq_true_eq] at hterse
      obtain ⟨hmin, hmax⟩ := hterse
      rcases NumberDomain.coerce_huge hd h with rfl | rfl
      · have hwords : digitsIn " below minimum " = [] := by decide
        rw [FieldProblem.message_below, digitsIn_shown hk, digitsIn_append,
          hwords, List.nil_append]
        exact ⟨.inl hmin, describe_in_quoted hk _⟩
      · have hwords : digitsIn " above maximum " = [] := by decide
        rw [FieldProblem.message_above, digitsIn_shown hk, digitsIn_append,
          hwords, List.nil_append, NumberDomain.limit]
        refine ⟨?_, describe_in_quoted hk _⟩
        cases hmaximum : d.maximum with
        | none => exact .inr rfl
        | some m =>
            rw [hmaximum, Option.all_some, decide_eq_true_eq] at hmax
            exact .inl hmax
  | choice choices default =>
      simp only [isTerse, decide_eq_true_eq] at hterse
      have h : (coerceChoice choices default (.int k)).2 = some p := h
      obtain rfl : p = .notChoice (.int k) choices default :=
        coerceChoice_problem h
      have hnot : digitsIn " not one of " = [] := by decide
      have husing : digitsIn "; using " = [] := by decide
      rw [FieldProblem.message_notChoice, digitsIn_shown hk]
      refine ⟨.inl ?_, describe_in_quoted hk _⟩
      simp only [digitsIn_append, hnot, husing, List.nil_append,
        List.length_append]
      exact hterse
  | text default limit =>
      have h : (coerceText default limit (.int k)).2 = some p := h
      rw [coerceText_huge hterse hk] at h
      cases h

/-- A list or an object is quoted as it is wherever something is said of
    it, but in a text field, which is only said to be too long. -/
theorem Domain.problem_quotes {d : Domain} {raw : Value}
    (htext : ∀ default limit, d ≠ .text default limit)
    (h : (d.coerce (.int n) raw).2 = some p) (hk : k ∈ raw.innerCounts) :
    Spells p.message k := by
  have hquoted : ∀ rest, Spells (raw.shown ++ rest) k := fun rest =>
    (spells_inner hk).trans (by
      rw [String.toList_append]
      exact (List.prefix_append ..).isInfix)
  cases d with
  | number d =>
      obtain rfl : p = .notNumber raw d.default := by
        cases raw with
        | list items => exact (Option.some.inj h).symm
        | object ms => exact (Option.some.inj h).symm
        | _ => cases hk
      show Spells ("expected a number, got " ++ raw.shown ++ "; using "
        ++ d.default.text) k
      rw [String.append_assoc, String.append_assoc]
      refine (hquoted ("; using " ++ d.default.text)).trans ?_
      rw [String.toList_append (s := "expected a number, got ")]
      exact (List.suffix_append ..).isInfix
  | choice choices default =>
      have hworded : Domain.worded raw = raw := by
        cases raw with
        | bool b => cases hk
        | _ => rfl
      rw [coerceChoice_problem h, hworded, FieldProblem.message_notChoice]
      exact hquoted _
  | text default limit => exact absurd rfl (htext default limit)

/-! ## What is said of a field -/

variable {t : Target} {b : Block} {name : String} {d : Domain} {raw : Value}

/-- All declared fields are bounded and terse. -/
theorem Block.declared?_domain (h : b.declared? name = some (d, raw)) :
    d.isBounded = true ∧ d.isTerse = true := by
  obtain ⟨k, fields, -, hlookup, -⟩ := Block.declared?_eq_some_iff.1 h
  have hmem := mem_of_lookup hlookup
  exact ⟨Domains.of_bounded k _ _ hmem, (Domains.of_terse k _ _ hmem).2⟩

/-- Only its domain and the grid change a declared field of a block. -/
theorem complaints_changing (h : b.declared? name = some (d, raw))
    {c : Complaint} (hc : c ∈ b.complaints t)
    (hchange : (c.change? name).isSome) :
    (∃ f, c = .field f ∧ digitsIn f.kind = [] ∧ digitsIn f.field = []
        ∧ (d.coerce t.ceiling raw).2 = some f.problem)
      ∨ ∃ j : Int, 1 ≤ j ∧ j ≤ 360 ∧ c = .turnSnapped j (quarterTurn j) := by
  obtain ⟨k, fields, hresolve, hlookup, rfl⟩ :=
    Block.declared?_eq_some_iff.1 h
  have hknown := Block.known?_resolved (t := t) hresolve
  have hname : sourceName b.kind ≠ placeholderKind := by
    intro hplaceholder
    rw [Block.resolve?_placeholder b.fields hplaceholder] at hresolve
    cases hresolve
  rcases List.mem_append.1 hc with hbefore | hafter
  · rw [Block.complaintsBefore, if_neg hname, hknown] at hbefore
    rcases List.mem_append.1 hbefore with hbody | hfield
    · split at hbody
      · obtain rfl := List.mem_singleton.1 hbody
        cases hchange
      · cases hbody
    · obtain ⟨f, hf, rfl⟩ := List.mem_map.1 hfield
      obtain rfl : f.field = name := by
        rw [change?_field] at hchange
        by_contra hne
        rw [if_neg hne] at hchange
        cases hchange
      obtain ⟨hkind, hproblem⟩ :=
        coerceFields_problem (Domains.of_nodup k _) hf hlookup
      obtain ⟨hdigits, -⟩ := Domains.of_terse k (sourceName b.kind)
        (f.field, d) (mem_of_lookup hlookup)
      refine .inl ⟨f, rfl, ?_, hdigits, hproblem⟩
      rw [hkind]
      cases k <;> decide
  · rw [Block.complaintsAfter, hknown] at hafter
    refine .inr ?_
    cases k with
    | turn =>
        obtain ⟨_, hown, hwithin⟩ :=
          domain_degrees t.ceiling (sourceName b.kind)
        obtain ⟨j, hj, hlow, hhigh⟩ := hwithin.coerce
          ((fields.get? "degrees").getD .null)
        have hfield :=
          @coerceFields_field Kind.turn.name _ _ t.ceiling _ fields hown
        have hsnapped : c ∈ (turnDegrees t [] (.int j)).2.map
            (·.complaint) := by
          simp only [instructionsOf, hfield, hj] at hafter
          split at hafter <;> exact hafter
        unfold turnDegrees at hsnapped
        dsimp only [Value.int] at hsnapped
        split at hsnapped
        · cases hsnapped
        · exact ⟨j, hlow, hhigh, List.mem_singleton.1 hsnapped⟩
    | repeatForever =>
        obtain rfl := List.mem_singleton.1 hafter
        cases hchange
    | ifCondition =>
        simp only [instructionsOf] at hafter
        split at hafter
        · cases hafter
        · cases hafter
        · obtain rfl := List.mem_singleton.1 hafter
          cases hchange
    | _ => cases hafter

/-- The digits in what is said of a field of a kind without digits are those
    of the problem. -/
theorem digitsIn_message {f : FieldComplaint} (hkind : digitsIn f.kind = [])
    (hfield : digitsIn f.field = []) :
    digitsIn f.message = digitsIn f.problem.message := by
  have hdot : digitsIn "." = [] := by decide
  have hcolon : digitsIn ": " = [] := by decide
  simp [FieldComplaint.message, hkind, hfield, hdot, hcolon]

/-- The problem stands at the end of it. -/
theorem problem_in_message (f : FieldComplaint) :
    f.problem.message.toList <:+: f.message.toList := by
  rw [FieldComplaint.message, String.toList_append]
  exact (List.suffix_append ..).isInfix

/-- A count of up to three digits has few of them. -/
theorem digitsIn_small (hk : k.natAbs < 10 ^ 3) :
    (digitsIn (toString k)).length ≤ 3 := by
  rw [digitsIn_toString, Nat.toString_eq_ofList_toDigits,
    String.toList_ofList]
  exact (Nat.length_toDigits_le_iff (by decide) (by decide)).2 hk

/-- So a warning of a snapped turn has few of them. -/
theorem digitsIn_turnSnapped {j : Int} (hlow : 1 ≤ j) (hhigh : j ≤ 360) :
    (digitsIn (Complaint.turnSnapped j (quarterTurn j)).message).length
      < 20 := by
  have hwritten := digitsIn_small (k := j) (by omega)
  have hsnapped : (digitsIn (toString (quarterTurn j))).length ≤ 3 := by
    refine digitsIn_small ?_
    have hmem := quarterTurn_mem hlow hhigh
    simp only [List.mem_cons, List.not_mem_nil, or_false] at hmem
    omega
  have hnote : (digitsIn
      "turn.degrees: grid turns must be multiples of 90; ").length = 2 := by
    decide
  have hwords : digitsIn " snapped to " = [] := by decide
  show (digitsIn ("turn.degrees: grid turns must be multiples of 90; "
    ++ toString j ++ " snapped to " ++ toString (quarterTurn j))).length < 20
  simp only [digitsIn_append, List.length_append, hnote, hwords,
    List.length_nil]
  omega

/-- Whether a domain is one of texts. -/
def Domain.isText : Domain → Bool
  | text .. => true
  | _ => false

/-- A text field is the only field of its kind, and what is said there. -/
theorem text_compiled {default : String} {limit : Nat}
    (h : b.declared? name = some (.text default limit, raw)) (place : Path) :
    (compileBlock t place b).program
      = [.say (.str (Domain.coerceText default limit raw).1)] := by
  obtain ⟨k, fields, hresolve, hlookup, rfl⟩ :=
    Block.declared?_eq_some_iff.1 h
  have hmem := mem_of_lookup hlookup
  obtain ⟨rfl, rfl⟩ : k = .say ∧ name = "text" := by
    have hall : (Domains.of (some k) (sourceName b.kind)).all (fun f =>
        !f.2.isText || (k == .say && f.1 == "text")) = true := by
      refine Domains.of_holds (P := fun ds => ds.all (fun f =>
        !f.2.isText || (k == .say && f.1 == "text")) = true) k _ ?_
      cases k <;> decide +kernel
    simpa [Domain.isText] using List.all_eq_true.1 hall _ hmem
  have hvalue :=
    @coerceFields_field Kind.say.name _ _ t.ceiling _ fields hlookup
  rw [compileBlock_program, Block.yield, Block.known?_resolved hresolve]
  dsimp only [instructionsOf]
  rw [hvalue]
  rfl

/-! ## Compiled forests -/

/-- Whether the huge counts of a block are described where they are values
    of fields, in warnings of its place and in what it says, and are quoted
    with their digits where they are parts of a value. -/
structure Block.Described (t : Target) (n : Int) (place : Path)
    (ws : List Warning) (b : Block) : Prop where
  /-- No warning of a field with a huge count writes it out, unless the loop
      ceiling does. -/
  unspelled : ∀ name d k, b.declared? name = some (d, .int k) →
    isHuge k = true → ∀ c ∈ saidAt ws place, (c.change? name).isSome →
      Spells c.message k → Spells (toString n) k
  /-- A complaint about such a field describes the count. -/
  described : ∀ name d k, b.declared? name = some (d, .int k) →
    isHuge k = true → ∀ f, .field f ∈ saidAt ws place → f.field = name →
      (describe k).toList <:+: f.message.toList
  /-- What is said in place of a text is the description. -/
  said : ∀ name default limit k,
    b.declared? name = some (.text default limit, .int k) →
    isHuge k = true →
      (compileBlock t place b).program = [.say (.str (describe k))]
  /-- A complaint about a field that is no text writes out all counts inside
      its value. -/
  quoted : ∀ name d raw, b.declared? name = some (d, raw) →
    (∀ default limit, d ≠ .text default limit) →
    ∀ f, .field f ∈ saidAt ws place → f.field = name →
      ∀ k ∈ raw.innerCounts, Spells f.message k
  /-- So does what is said in place of a text, if there is room for all of
      it. -/
  saidInFull : ∀ name default limit raw,
    b.declared? name = some (.text default limit, raw) →
    raw.shown.length ≤ limit → ∀ k ∈ raw.innerCounts,
      ∃ s, (compileBlock t place b).program = [.say (.str s)] ∧ Spells s k

/-- They are if all warnings that change a field are warnings of the
    block. -/
theorem Block.described_of_changes (ht : t.ceiling = .int n) {place : Path}
    {ws : List Warning}
    (h : ∀ c ∈ saidAt ws place, ∀ name, (c.change? name).isSome →
      c ∈ b.complaints t) : b.Described t n place ws := by
  -- what is said of a field is the problem of its domain with it
  have hfield : ∀ {name d raw f}, b.declared? name = some (d, raw) →
      .field f ∈ saidAt ws place → f.field = name →
      (d.coerce (.int n) raw).2 = some f.problem := by
    rintro name d raw f hdeclared hf rfl
    have hchange : ((Complaint.field f).change? f.field).isSome := by
      rw [change?_field, if_pos rfl]
      rfl
    rcases complaints_changing hdeclared (h _ hf _ hchange) hchange with
      ⟨own, heq, -, -, hproblem⟩ | ⟨j, -, -, heq⟩
    · cases heq
      rw [← ht]
      exact hproblem
    · cases heq
  refine ⟨?_, ?_, ?_, ?_, ?_⟩
  · intro name d k hdeclared hk c hc hchange hspells
    rcases complaints_changing hdeclared (h c hc _ hchange) hchange with
      ⟨f, rfl, hkind, hname, hproblem⟩ | ⟨j, hlow, hhigh, rfl⟩
    · obtain ⟨hbounded, hterse⟩ := Block.declared?_domain hdeclared
      rw [ht] at hproblem
      have hspells : Spells f.message k := hspells
      rcases (Domain.problem_huge hbounded hterse hk hproblem).1 with
        hfew | hsame
      · rw [← digitsIn_message hkind hname] at hfew
        exact absurd hspells (not_spells hfew hk)
      · rw [← digitsIn_message hkind hname] at hsame
        exact hspells.of_digits hsame
    · exact absurd hspells (not_spells (digitsIn_turnSnapped hlow hhigh) hk)
  · intro name d k hdeclared hk f hf hname
    obtain ⟨hbounded, hterse⟩ := Block.declared?_domain hdeclared
    have hproblem := hfield hdeclared hf hname
    exact (Domain.problem_huge hbounded hterse hk hproblem).2.trans
      (problem_in_message f)
  · intro name default limit k hdeclared hk
    rw [text_compiled hdeclared,
      coerceText_huge (Block.declared?_domain hdeclared).2 hk]
  · intro name d raw hdeclared htext f hf hname k hk
    have hproblem := hfield hdeclared hf hname
    exact (Domain.problem_quotes htext hproblem hk).trans (problem_in_message f)
  · intro name default limit raw hdeclared hroom k hk
    refine ⟨raw.shown, ?_, spells_inner hk⟩
    rw [text_compiled hdeclared, coerceText_inner hk hroom]

/-- Under a loop ceiling that can be written out, all huge counts that are
    values of fields are described in whatever compiles, whether the forest
    is given as blocks or as it was written.  What keeps a forest from being
    compiled is a count with too many digits inside a list or an object, and
    nothing else. -/
theorem huge_described (c : Config) (hc : c.loopCeiling = .int n)
    (hn : legibleInt n = true) :
    (∀ blocks compiled, compileForest? c.target blocks = .ok compiled →
      ∀ place b, itemAt? Block.inside blocks place = some b →
        b.Described c.target n place compiled.warnings)
    ∧ (∀ source compiled, compileSource c.target source = .ok compiled →
      ∀ place v, source.Visits place v →
        v.readBlock.Described c.target n place compiled.warnings)
    ∧ (∀ blocks, (∀ place b, itemAt? Block.inside blocks place = some b →
          ∃ name, b.kind = .str name) →
        ((∃ compiled, compileForest? c.target blocks = .ok compiled) ↔
          ∀ place b, itemAt? Block.inside blocks place = some b →
            ∀ name d raw, b.declared? name = some (d, raw) →
              ∀ k ∈ raw.innerCounts, legibleInt k = true))
    ∧ ∀ source, (∃ compiled, compileSource c.target source = .ok compiled) ↔
        ∀ place v, source.Visits place v →
          ∀ name d raw, v.readBlock.declared? name = some (d, raw) →
            ∀ k ∈ raw.innerCounts, legibleInt k = true := by
  have ht : c.target.ceiling = .int n := hc
  refine ⟨?_, ?_, ?_, ?_⟩
  · intro blocks compiled h place b hb
    obtain ⟨-, rfl⟩ := compileForest?_eq_ok_iff.1 h
    refine Block.described_of_changes ht fun c hc name _ => ?_
    rw [saidAt_compileForest, hb] at hc
    exact hc
  · intro source compiled h place v hv
    obtain ⟨read, hread, hsaid⟩ := saidAt_compileSource h hv
    refine Block.described_of_changes ht fun c hc name hchange => ?_
    rw [hsaid] at hc
    rcases List.mem_append.1 hc with hc | hc
    · rw [hread c hc name] at hchange
      cases hchange
    · exact hc
  · intro blocks hkinds
    rw [compileForest?_shown ht hn hkinds]
    simp only [Block.IsShowable, showable_iff]
  · intro source
    rw [compileSource_shown ht hn source]
    simp only [Block.IsShowable, showable_iff]

/-- A step with a length of thousands of digits, and a negative number to
    say. -/
def hugeForest : List Block :=
  [⟨.str "robot_maju", [("N", .int (10 ^ 5000))], none⟩,
    ⟨.str "say", [("text", .int (-10 ^ 20))], none⟩]

/-- Both compile, and both numbers are described. -/
theorem huge_described_steps :
    Config.standard.loopCeiling = .int 100 ∧ legibleInt 100 = true
      ∧ ∃ compiled,
        compileForest? Config.standard.target hugeForest = .ok compiled
          ∧ (∃ distance, compiled.program
            = [.move distance, .say (.str "a very large negative integer")])
          ∧ compiled.warnings.map Warning.message
            = ["move.distance: a very large integer above maximum 20"]
          ∧ ∀ place b, itemAt? Block.inside hugeForest place = some b →
              b.Described Config.standard.target 100 place
                compiled.warnings := by
  have hfault : blocksFault? Config.standard.target hugeForest = none :=
    Option.isNone_iff_eq_none.1 (by decide +kernel)
  have hcompiles := compileForest?_eq_ok_iff.2 ⟨hfault, rfl⟩
  refine ⟨rfl, by decide +kernel, _, hcompiles, ⟨_, rfl⟩, by decide +kernel,
    ?_⟩
  obtain ⟨hforests, -⟩ :=
    huge_described Config.standard rfl (by decide +kernel)
  exact hforests hugeForest _ hcompiles

/-- A text that is a list with a number of more than 64 bits, and one with a
    number of thousands of digits. -/
def listedText (k : Int) : List Block :=
  [⟨.str "say", [("text", .list [.int k])], none⟩]

/-- It is said as it is quoted, if there is room. -/
theorem listedText_program {limit : Nat} {default : String}
    (h : (Domains.of (some .say) "say").lookup "text"
      = some (.text default limit))
    (hroom : (Value.list [.int k]).shown.length ≤ limit) :
    (compileForest t (listedText k)).program
      = [.say (.str (Value.list [.int k]).shown)] := by
  have hdeclared : Block.declared?
      ⟨.str "say", [("text", .list [.int k])], none⟩ "text"
        = some (.text default limit, .list [.int k]) :=
    Block.declared?_eq_some_iff.2 ⟨.say, _, rfl, h, rfl⟩
  have hinner : k ∈ (Value.list [.int k]).innerCounts :=
    List.mem_singleton.2 rfl
  rw [compileForest, listedText, compileBlocks, Compiled.append_program,
    text_compiled hdeclared, coerceText_inner hinner hroom]
  rfl

/-- The first is said in digits, and the second does not compile. -/
theorem listedText_spelled :
    isHuge (2 ^ 70) = true
      ∧ (∃ compiled s,
        compileForest? Config.standard.target (listedText (2 ^ 70))
            = .ok compiled
          ∧ compiled.program = [.say (.str s)] ∧ Spells s (2 ^ 70))
      ∧ ¬ ∃ compiled,
        compileForest? Config.standard.target (listedText (10 ^ 5000))
          = .ok compiled := by
  refine ⟨by decide, ?_, ?_⟩
  · have hfault : blocksFault? Config.standard.target (listedText (2 ^ 70))
        = none :=
      Option.isNone_iff_eq_none.1 (by decide +kernel)
    exact ⟨_, _, compileForest?_eq_ok_iff.2 ⟨hfault, rfl⟩,
      listedText_program rfl (by decide +kernel),
      spells_inner (List.mem_singleton.2 rfl)⟩
  · rintro ⟨compiled, h⟩
    have hsome : (blocksFault? Config.standard.target
        (listedText (10 ^ 5000))).isSome = true := by
      decide +kernel
    rw [(compileForest?_eq_ok_iff.1 h).1] at hsome
    cases hsome

end BlockStage
