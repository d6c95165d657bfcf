import BlockStage.Proofs.Compile.Domain
import BlockStage.Proofs.Number.Finite

/-! # Totality — whatever can be written out can be compiled

    Reading with tolerance turns a value that can be written out into
    blocks of which the same holds (`sourceBlocks_legible`), and under a
    loop ceiling that is a count nothing keeps such blocks from being
    compiled (`blocksFault?_legible`), for whatever a field holds can be
    held against its domain (`Domain.fault?_showable`). -/

namespace BlockStage

open Instruction

/-! ## Members that can be written out -/

namespace Members

theorem mem_put {ms : Members} {name : String} {v : Value}
    {m : String × Value} (h : m ∈ ms.put name v) :
    m ∈ ms ∨ m = (name, v) := by
  induction ms with
  | nil => exact .inr (List.mem_singleton.1 h)
  | cons own ms ih =>
      unfold put at h
      split at h
      · rcases List.mem_cons.1 h with h | h
        · exact .inr h
        · exact .inl (List.mem_cons_of_mem _ h)
      · rcases List.mem_cons.1 h with rfl | h
        · exact .inl (List.mem_cons_self ..)
        · exact (ih h).imp (List.mem_cons_of_mem _) id

theorem mem_putAll {ms news : Members} {m : String × Value}
    (h : m ∈ ms.putAll news) : m ∈ ms ∨ m ∈ news := by
  induction news generalizing ms with
  | nil => exact .inl h
  | cons new news ih =>
      rcases @ih (ms.put new.1 new.2) h with h | h
      · rcases mem_put h with h | rfl
        · exact .inl h
        · exact .inr (List.mem_cons_self ..)
      · exact .inr (List.mem_cons_of_mem _ h)

theorem get?_mem {ms : Members} {name : String} {v : Value}
    (h : ms.get? name = some v) : ∃ m ∈ ms, m.2 = v := by
  obtain ⟨m, hm, rfl⟩ := Option.map_eq_some_iff.1 h
  exact ⟨m, List.mem_of_find?_eq_some hm, rfl⟩

end Members

namespace Value

/-- Members can be written out if all their values can. -/
theorem membersLegible_iff {ms : List (String × Value)} :
    membersLegible ms = true ↔ ∀ m ∈ ms, m.2.legible = true := by
  induction ms with
  | nil => exact ⟨fun _ => nofun, fun _ => rfl⟩
  | cons m ms ih =>
      obtain ⟨name, v⟩ := m
      unfold membersLegible
      rw [Bool.and_eq_true, ih, List.forall_mem_cons]

/-- A field, or nothing, can be written out if all members can. -/
theorem legible_field {ms : Members} (h : membersLegible ms = true)
    (name : String) : ((ms.get? name).getD .null).legible = true := by
  cases hget : ms.get? name with
  | none => rfl
  | some v =>
      obtain ⟨m, hm, rfl⟩ := Members.get?_mem hget
      exact membersLegible_iff.1 h m hm

/-- What can be written out can be shown. -/
theorem legible_showable {v : Value} (h : v.legible = true) :
    v.showable = true := by
  cases v with
  | num n => rfl
  | _ => exact h

end Value

/-! ## Fields -/

/-- A number field is bounded by finite numbers, the greatest of which is a
    count that can be written out if there is one. -/
def Domain.isBounded : Domain → Bool
  | .number d => d.minimum.exact.isFinite && d.maximum.all fun
      | .int k => Value.legibleInt k
      | .real _ => false
  | _ => true

/-- All fields are bounded, also under the editor's names. -/
theorem Domains.of_bounded (k : Kind) (source : String) :
    ∀ d ∈ Domains.of (some k) source, d.2.isBounded = true := by
  refine List.all_eq_true.1 (Domains.of_holds
    (P := fun ds => ds.all (·.2.isBounded) = true) k source ?_)
  cases k <;> decide +kernel

variable {t : Target} {n : Int}

namespace NumberDomain

/-- A measure that is neither below a finite number nor above a count has a
    whole part. -/
theorem whole_inside {x : Scalar} {minimum : Num} (hx : x ≠ .nan)
    (hmin : minimum.exact.isFinite = true)
    (hlow : (Num.real x).lt minimum = false) {m : Int}
    (hhigh : (Num.int m).lt (.real x) = false) :
    ∃ k, (Num.real x).whole = .ok k := by
  cases x with
  | finite q => exact ⟨_, rfl⟩
  | negZero => exact ⟨_, rfl⟩
  | nan => exact absurd rfl hx
  | inf negative =>
      cases negative with
      | false => cases hhigh
      | true =>
          rcases Scalar.isFinite_iff.1 hmin with ⟨q, hq⟩ | hq
          · simp only [Num.lt, Num.exact] at hlow hq
            rw [hq] at hlow
            cases hlow
          · simp only [Num.lt, Num.exact] at hlow hq
            rw [hq] at hlow
            cases hlow

/-- A measure can be held against a bounded domain. -/
theorem measureFault?_bounded {d : NumberDomain} {ceiling : Value} {m : Int}
    (hmin : d.minimum.exact.isFinite = true)
    (hlimit : d.limit ceiling = .int m)
    (hlegible : Value.legibleInt m = true) {x : Scalar} (hx : x ≠ .nan) :
    d.measureFault? ceiling x = none := by
  have hgt : (Value.real x).gt (d.limit ceiling)
      = .ok ((Num.int m).lt (.real x)) := by
    rw [hlimit]
    exact Value.relate_num _ _ _
  have hnumber : (d.limit ceiling).number? = some (.int m) := by
    rw [hlimit]
    rfl
  have hshown : (d.limit ceiling).legible = true := by
    rw [hlimit]
    exact hlegible
  unfold measureFault?
  split
  · rfl
  · rename_i hlow
    rw [hgt]
    dsimp only
    rw [if_neg (by rw [hshown]; exact fun hno => hno.2 rfl)]
    split
    · unfold exceeded?
      rw [hnumber, Option.filter_some]
      cases habove : (Num.int m).lt (.real x) with
      | true => rfl
      | false =>
          obtain ⟨k, hk⟩ :=
            whole_inside hx hmin (Bool.eq_false_iff.2 hlow) habove
          simp only [Bool.false_eq_true, if_false, hk]
    · rfl

end NumberDomain

/-- Whatever can be shown can be brought into a bounded domain. -/
theorem Domain.fault?_showable {d : Domain} (hc : t.ceiling = .int n)
    (hn : Value.legibleInt n = true) (hd : d.isBounded = true) {raw : Value}
    (hraw : raw.showable = true) : d.fault? t.ceiling raw = none := by
  unfold Domain.fault?
  rw [if_neg (not_not.2 hraw)]
  cases d with
  | choice choices default => rfl
  | text default limit => rfl
  | number d =>
      obtain ⟨hmin, hmax⟩ := Bool.and_eq_true_iff.1 hd
      obtain ⟨m, hlimit, hlegible⟩ : ∃ m : Int,
          d.limit t.ceiling = .int m ∧ Value.legibleInt m = true := by
        unfold NumberDomain.limit
        cases hmaximum : d.maximum with
        | none => exact ⟨n, hc, hn⟩
        | some k =>
            rw [hmaximum, Option.all_some] at hmax
            cases k with
            | real x => cases hmax
            | int k =>
                dsimp only at hmax
                exact ⟨k, rfl, hmax⟩
      show d.fault? t.ceiling raw = none
      unfold NumberDomain.fault?
      split
      · rfl
      · split
        · rfl
        · rfl
        · rename_i x hx _
          exact NumberDomain.measureFault?_bounded hmin hlimit hlegible hx

/-- The fields of a block of a known kind can be brought into their
    domains. -/
theorem fieldsFault?_legible (hc : t.ceiling = .int n)
    (hn : Value.legibleInt n = true) (k : Kind) (source : String)
    {fields : Members} (h : Value.membersLegible fields = true) :
    fieldsFault? (Domains.of (some k) source) t.ceiling fields = none := by
  unfold fieldsFault?
  rw [List.findSome?_eq_none_iff]
  exact fun d hd => Domain.fault?_showable hc hn
    (Domains.of_bounded k source d hd)
    (Value.legible_showable (Value.legible_field h d.1))

/-! ## Blocks -/

namespace Block

mutual

/-- Whether a block and all that it holds have texts as their kinds and
    fields that can be written out. -/
def isLegible : Block → Bool
  | ⟨.str _, fields, none⟩ => Value.membersLegible fields
  | ⟨.str _, fields, some blocks⟩ =>
      Value.membersLegible fields && allLegible blocks
  | _ => false

/-- Whether all blocks are such, those in bodies included. -/
def allLegible : List Block → Bool
  | [] => true
  | b :: bs => b.isLegible && allLegible bs

end

/-- What the name of a block makes of its fields can be written out. -/
theorem resolve?_legible {kind : Value} {fields proper : Members} {k : Kind}
    (h : resolve? kind fields = some (k, proper))
    (hf : Value.membersLegible fields = true) :
    Value.membersLegible proper = true := by
  unfold resolve? at h
  split at h
  · rename_i name
    split at h
    · cases h
      exact hf
    · obtain ⟨a, ha, heq⟩ := Option.map_eq_some_iff.1 h
      obtain ⟨-, rfl⟩ := Prod.mk.inj heq
      -- the fields that a name implies are texts
      have himplied : Value.membersLegible a.implied = true := by
        have hall : aliases.all (fun p => Value.membersLegible p.2.implied)
            = true := by
          decide +kernel
        exact List.all_eq_true.1 hall (name, a) (mem_of_lookup ha)
      refine Value.membersLegible_iff.2 fun m hm => ?_
      rcases Members.mem_putAll hm with hm | hm
      · exact Value.membersLegible_iff.1 himplied m hm
      · obtain ⟨x, hx, rfl⟩ := List.mem_map.1 hm
        exact Value.membersLegible_iff.1 hf x hx
  · cases h

end Block

mutual

/-- An item that can be written out is read as a block of which the same
    holds. -/
theorem sourceBlock_legible (path : Path) : ∀ v : Value,
    v.legible = true → (sourceBlock path v).1.isLegible = true
  | .object ms, h => by
      have hms : Value.membersLegible ms = true := h
      unfold sourceBlock
      split
      · have hfields : Value.membersLegible
            ((sourceFields? (Members.get? ms "fields")).getD []) = true := by
          have hfield := Value.legible_field hms "fields"
          unfold sourceFields?
          split
          · rfl
          · rfl
          · rename_i fields hget
            rw [hget] at hfield
            exact hfield
          · rfl
        have hbody := sourceBodyOf_legible path ms hms
        dsimp only
        cases hblocks : (sourceBodyOf path ms).blocks with
        | none => exact hfields
        | some blocks =>
            exact Bool.and_eq_true_iff.2 ⟨hfields, hbody blocks hblocks⟩
      · rfl
  | .null, _ => rfl
  | .bool _, _ => rfl
  | .num _, _ => rfl
  | .str _, _ => rfl
  | .list _, _ => rfl

/-- The body among members that can be written out. -/
theorem sourceBodyOf_legible (path : Path) : ∀ ms : List (String × Value),
    Value.membersLegible ms = true →
      ∀ blocks, (sourceBodyOf path ms).blocks = some blocks →
        Block.allLegible blocks = true
  | [], _ => nofun
  | (name, v) :: ms, h => by
      obtain ⟨hv, hms⟩ := Bool.and_eq_true_iff.1 h
      unfold sourceBodyOf
      split
      · exact sourceBody_legible path v hv
      · exact sourceBodyOf_legible path ms hms

/-- A body that can be written out. -/
theorem sourceBody_legible (path : Path) : ∀ v : Value, v.legible = true →
    ∀ blocks, (sourceBody path v).blocks = some blocks →
      Block.allLegible blocks = true
  | .list items, h => by
      rintro blocks ⟨⟩
      exact sourceBlocks_legible path 0 items h
  | .null, _ => nofun
  | .bool _, _ => nofun
  | .num _, _ => nofun
  | .str _, _ => nofun
  | .object _, _ => nofun

/-- The items of a list that can be written out. -/
theorem sourceBlocks_legible (parent : Path) (i : Nat) :
    ∀ vs : List Value, Value.itemsLegible vs = true →
      Block.allLegible (sourceBlocks parent i vs).1 = true
  | [], _ => rfl
  | v :: vs, h => by
      obtain ⟨hv, hvs⟩ := Bool.and_eq_true_iff.1 h
      exact Bool.and_eq_true_iff.2
        ⟨sourceBlock_legible (parent ++ [i]) v hv,
          sourceBlocks_legible parent (i + 1) vs hvs⟩

end

/-! ## Compilation -/

mutual

/-- Nothing keeps a block that can be written out from being compiled. -/
theorem blockFault?_legible (hc : t.ceiling = .int n)
    (hn : Value.legibleInt n = true) : ∀ b : Block, b.isLegible = true →
      blockFault? t b = none
  | ⟨.str name, fields, body⟩, h => by
      have hfields : Value.membersLegible fields = true := by
        cases body with
        | none => exact h
        | some blocks => exact (Bool.and_eq_true_iff.1 h).1
      unfold blockFault?
      split
      · rfl
      · dsimp only [Value.key]
        cases hresolve : Block.resolve? (.str name) fields with
        | none => rfl
        | some found =>
            obtain ⟨k, proper⟩ := found
            have hown := fieldsFault?_legible hc hn k (sourceName (.str name))
              (Block.resolve?_legible hresolve hfields)
            have hshown : t.ceiling.legible = true := by
              rw [hc]
              exact hn
            simp only [hown, hshown, not_true_eq_false, and_false, if_false]
            cases body with
            | none => rfl
            | some blocks =>
                have hblocks := blocksFault?_legible hc hn blocks
                  (Bool.and_eq_true_iff.1 h).2
                dsimp only
                rw [hblocks]
                split <;> rfl
  | ⟨.null, _, _⟩, h => by cases h
  | ⟨.bool _, _, _⟩, h => by cases h
  | ⟨.num _, _, _⟩, h => by cases h
  | ⟨.list _, _, _⟩, h => by cases h
  | ⟨.object _, _, _⟩, h => by cases h

/-- Nor blocks of which this holds. -/
theorem blocksFault?_legible (hc : t.ceiling = .int n)
    (hn : Value.legibleInt n = true) : ∀ bs : List Block,
      Block.allLegible bs = true → blocksFault? t bs = none
  | [], _ => rfl
  | b :: bs, h => by
      obtain ⟨hb, hbs⟩ := Bool.and_eq_true_iff.1 h
      unfold blocksFault?
      rw [blockFault?_legible hc hn b hb]
      exact blocksFault?_legible hc hn bs hbs

end

/-- Whatever can be written out compiles, to instructions in their
    domains. -/
theorem compileSource_legible (hc : t.ceiling = .int n)
    (hn : Value.legibleInt n = true) (hpos : 1 ≤ n) {source : Value}
    (h : source.legible = true) :
    ∃ compiled, compileSource t source = .ok compiled
      ∧ EveryOf (InDomain t n) compiled.program := by
  unfold compileSource
  cases hitems : sourceItems? source with
  | none => exact ⟨_, rfl, trivial⟩
  | some items =>
      have hlegible : Value.itemsLegible items = true := by
        unfold sourceItems? at hitems
        split at hitems
        · split at hitems
          · rename_i hget
            cases hitems
            have hblocks := Value.legible_field h "blocks"
            rw [hget] at hblocks
            exact hblocks
          · cases hitems
        · cases hitems
          exact h
        · cases hitems
      have hnone := blocksFault?_legible hc hn _
        (sourceBlocks_legible [] 0 items hlegible)
      dsimp only
      unfold compileForest?
      rw [hnone]
      refine ⟨_, rfl, ?_⟩
      exact compileBlocks_inDomain (by rw [hc]; rfl) hpos [] 0 _

end BlockStage
