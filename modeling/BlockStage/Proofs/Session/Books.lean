import BlockStage.Proofs.Session.Turns

/-! # The books of a session — one turn for everybody, one notice for every end

    While a session is in flight, each of its agents that has not ended has
    exactly one turn to come, and each that has ended has sent exactly one
    notice, which is on its way or was counted.  Once all notices are
    counted the call has exactly one turn to come, and before that none.
    `Balanced` says so in numbers; each event of a session keeps the books
    balanced, and when the call takes its last turn nothing is left. -/

namespace BlockStage

/-- Balanced books: who is `over`, how many ends the join has counted, and
    which turns are still to come. -/
structure Balanced (turns : Multiset Job) (ended : List Bool) (joined : Nat) :
    Prop where
  agents : ∀ i, turns.count (.agent i)
    = if ended[i]? = some false then 1 else 0
  notices : turns.count .noticed + joined + ended.count false = ended.length
  calls : turns.count .join + turns.count .handled
    = if joined = ended.length then 1 else 0

namespace Balanced

variable {turns : Multiset Job} {ended : List Bool} {joined : Nat}

/-- Only turns of the session count. -/
theorem congr {others : Multiset Job} (h : Balanced turns ended joined)
    (hc : ∀ j, j.isSessions = true → others.count j = turns.count j) :
    Balanced others ended joined where
  agents i := by rw [hc _ rfl]; exact h.agents i
  notices := by rw [hc _ rfl]; exact h.notices
  calls := by rw [hc _ rfl, hc _ rfl]; exact h.calls

/-- The books at the start of a session with agents. -/
theorem launch {n : Nat} (hn : n ≠ 0)
    (hc : ∀ j, j.isSessions = true → turns.count j = 0) :
    Balanced (((List.range n).map Job.agent : Multiset Job) + turns)
      (List.replicate n false) 0 where
  agents i := by
    have hinj : Function.Injective Job.agent := fun a b h => by
      injection h
    rw [Multiset.count_add, hc _ rfl, Multiset.coe_count,
      List.count_map_of_injective _ _ hinj, List.count_range]
    by_cases hi : i < n <;> simp [hi]
  notices := by
    have hnone : ((List.range n).map Job.agent).count .noticed = 0 := by
      refine List.count_eq_zero.2 fun hmem => ?_
      obtain ⟨i, -, hi⟩ := List.mem_map.1 hmem
      cases hi
    rw [Multiset.count_add, hc _ rfl, Multiset.coe_count, hnone]
    simp
  calls := by
    have hnone : ∀ j, (∀ i, Job.agent i ≠ j) →
        ((List.range n).map Job.agent).count j = 0 := by
      intro j hj
      refine List.count_eq_zero.2 fun hmem => ?_
      obtain ⟨i, -, hi⟩ := List.mem_map.1 hmem
      exact hj i hi
    rw [Multiset.count_add, Multiset.count_add, hc _ rfl, hc _ rfl,
      Multiset.coe_count, Multiset.coe_count, hnone _ (by simp),
      hnone _ (by simp)]
    simp [hn.symm]

/-- An agent ends: its turn is gone and a notice is on its way. -/
theorem ends {i : Nat}
    (h : Balanced (.agent i ::ₘ turns) ended joined) :
    Balanced (.noticed ::ₘ turns) (ended.set i true) joined := by
  have hone := h.agents i
  rw [Multiset.count_cons_self] at hone
  have hi : ended[i]? = some false := by
    by_contra hne
    rw [if_neg hne] at hone
    omega
  obtain ⟨hlt, hval⟩ := List.getElem?_eq_some_iff.1 hi
  have hgone : turns.count (.agent i) = 0 := by
    rw [if_pos hi] at hone
    omega
  refine ⟨?_, ?_, ?_⟩
  · intro k
    have hk := h.agents k
    rw [Multiset.count_cons] at hk ⊢
    by_cases hik : k = i
    · subst hik
      simp [hgone, hlt]
    · have hne : (Job.agent k) ≠ .agent i := by simpa using hik
      rw [if_neg hne, Nat.add_zero] at hk
      rw [List.getElem?_set_ne (Ne.symm hik), if_neg (by simp), Nat.add_zero]
      exact hk
  · have hn := h.notices
    have hcount := List.count_set (a := true) (b := false) hlt
    have hmem : 0 < ended.count false :=
      List.count_pos_iff.2 (hval ▸ List.getElem_mem hlt)
    rw [Multiset.count_cons_of_ne (by simp)] at hn
    rw [Multiset.count_cons_self, List.length_set, hcount, hval]
    simp at hn ⊢
    omega
  · have hcalls := h.calls
    simpa using hcalls

/-- One notice is counted, and it was not the last. -/
theorem counted (h : Balanced (.noticed ::ₘ turns) ended joined)
    (hmore : ¬ ended.length ≤ joined + 1) :
    Balanced turns ended (joined + 1) := by
  refine ⟨fun i => ?_, ?_, ?_⟩
  · simpa using h.agents i
  · have := h.notices
    rw [Multiset.count_cons_self] at this
    omega
  · have hcalls := h.calls
    have hnow : joined ≠ ended.length := by omega
    have hnext : joined + 1 ≠ ended.length := by omega
    simpa [hnow, hnext] using hcalls

/-- The last notice is counted and wakes the call. -/
theorem countedLast (h : Balanced (.noticed ::ₘ turns) ended joined)
    (hlast : ended.length ≤ joined + 1) :
    Balanced (.join ::ₘ turns) ended (joined + 1) := by
  have hn := h.notices
  rw [Multiset.count_cons_self] at hn
  refine ⟨fun i => ?_, ?_, ?_⟩
  · simpa using h.agents i
  · rw [Multiset.count_cons_of_ne (by simp)]
    omega
  · have hcalls := h.calls
    have hnow : joined ≠ ended.length := by omega
    have hnext : joined + 1 = ended.length := by omega
    simp [hnow] at hcalls
    simp [hnext, hcalls]

/-- The call goes to sleep after the join, for the first time or again. -/
theorem sleeps {j : Job} (hj : j = .join ∨ j = .handled)
    (h : Balanced (j ::ₘ turns) ended joined) :
    Balanced (.handled ::ₘ turns) ended joined := by
  rcases hj with rfl | rfl
  · refine ⟨fun i => ?_, ?_, ?_⟩
    · simpa using h.agents i
    · simpa using h.notices
    · have hcalls := h.calls
      simp at hcalls ⊢
      omega
  · exact h

/-- When the call takes a turn after the join, every agent has ended and
    nothing of the session is left to come. -/
theorem last {j : Job} (hj : j = .join ∨ j = .handled)
    (h : Balanced (j ::ₘ turns) ended joined) :
    (∀ b ∈ ended, b = true)
      ∧ ∀ k, k.isSessions = true → turns.count k = 0 := by
  have hcalls := h.calls
  have hn := h.notices
  have hone : 1 ≤ (j ::ₘ turns).count .join + (j ::ₘ turns).count .handled := by
    rcases hj with rfl | rfl
    · rw [Multiset.count_cons_self]; omega
    · rw [Multiset.count_cons_self Job.handled]; omega
  have hjoined : joined = ended.length := by
    by_contra hne
    rw [if_neg hne] at hcalls
    omega
  have hover : ended.count false = 0 := by omega
  have hall : ∀ b ∈ ended, b = true := by
    intro b hb
    cases b with
    | true => rfl
    | false => exact absurd hb (List.count_eq_zero.1 hover)
  refine ⟨hall, fun k hk => ?_⟩
  rw [if_pos hjoined] at hcalls
  have hsub : ∀ k, turns.count k ≤ (j ::ₘ turns).count k := fun k =>
    Multiset.count_le_count_cons k j turns
  cases k with
  | agent i =>
      have hi := h.agents i
      have hno : ended[i]? ≠ some false := by
        intro hsome
        have := hall false (List.mem_of_getElem? hsome)
        cases this
      rw [if_neg hno] at hi
      have := hsub (.agent i)
      omega
  | noticed =>
      have := hsub .noticed
      omega
  | join =>
      rcases hj with rfl | rfl
      · rw [Multiset.count_cons_self] at hcalls
        omega
      · have := hsub .join
        rw [Multiset.count_cons_self Job.handled] at hcalls
        omega
  | handled =>
      rcases hj with rfl | rfl
      · have := hsub .handled
        rw [Multiset.count_cons_self Job.join] at hcalls
        omega
      · rw [Multiset.count_cons_self] at hcalls
        omega
  | begin n => cases hk
  | ask n => cases hk
  | release n => cases hk
  | wake j => cases hk

/-- Some turn of the session is still to come. -/
theorem exists_turn (h : Balanced turns ended joined) :
    ∃ j ∈ turns, j.isSessions = true := by
  by_contra hnone
  push Not at hnone
  have hzero : ∀ j, j.isSessions = true → turns.count j = 0 := by
    intro j hj
    refine Multiset.count_eq_zero.2 fun hmem => ?_
    exact hnone j hmem hj
  have hn := h.notices
  have hc := h.calls
  rw [hzero _ rfl] at hn
  rw [hzero _ rfl, hzero _ rfl] at hc
  have hjoined : joined ≠ ended.length := by
    intro heq
    rw [if_pos heq] at hc
    omega
  have hpos : 0 < ended.count false := by omega
  obtain ⟨i, hlt, hi⟩ := List.mem_iff_getElem.1 (List.count_pos_iff.1 hpos)
  have ha := h.agents i
  rw [hzero _ rfl, if_pos (List.getElem?_eq_some_iff.2 ⟨hlt, hi⟩)] at ha
  omega

end Balanced

end BlockStage
