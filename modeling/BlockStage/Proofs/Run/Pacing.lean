import BlockStage.Proofs.Run.Observation
import BlockStage.Proofs.Stage.Exact
import Mathlib.Algebra.Order.Floor.Extended
import Mathlib.Data.Rat.Floor

/-! # Pacing — how often an animation calls back, and when

    Nothing but the clock ends an animation.  On exact numbers it calls back
    at its start and after every interval until the duration has passed:
    once more than there are intervals in the duration, a broken one counted
    as a whole (`framesFrom_exact`).

    An animation on the event loop waits between its frames, and also within
    one if what it calls yields.  `Animation` spells these waits out; it
    makes the calls that `framesFrom` lists and returns how many they are
    (`Animation.returns`). -/

namespace BlockStage

/-- How far an animation has come. -/
inductive Pace where
  /-- It is about to look at the clock and to call back. -/
  | looks
  /-- It has called back with a share. -/
  | calls (progress : Num)
  /-- It has returned the number of its calls. -/
  | returned (frames : Nat)
  /-- A calculation had no result. -/
  | failed (f : OperandFault)

/-- An animation with its waits, alone on the event loop. -/
structure Animation where
  /-- The clock. -/
  now : Time
  /-- When it started. -/
  started : Time
  /-- Its calls so far, the latest first. -/
  called : List Frame
  /-- How many of them have come back. -/
  frames : Nat
  /-- The seconds that it has slept, the latest first. -/
  slept : List Scalar
  /-- How far it has come. -/
  pace : Pace
  /-- What it waits for. -/
  wait : Wait

namespace Animation

/-- An animation about to start. -/
def start (now : Time) : Animation :=
  ⟨now, now, [], 0, [], .looks, .nothing⟩

variable [Arithmetic]

/-- What an animation does at its turn: it calls back, which may take a turn
    of its own, or after a call it returns or goes to sleep. -/
def act (durationMs intervalMs : Value) (yields : Bool) (q : Animation) :
    Animation :=
  match q.pace with
  | .looks =>
      match progressAt durationMs q.started q.now with
      | .error f => { q with pace := .failed f }
      | .ok progress =>
          { q with
            called := ⟨q.now, progress⟩ :: q.called
            pace := .calls progress
            wait := if yields then .turn else .nothing }
  | .calls progress =>
      let q := { q with frames := q.frames + 1 }
      if isComplete progress then { q with pace := .returned q.frames }
      else
        match intervalMs.div 1000 with
        | .error f => { q with pace := .failed f }
        | .ok seconds =>
            { q with
              slept := seconds :: q.slept
              pace := .looks
              wait :=
                if seconds.le (.finite 0) then .turn
                else .moment (q.now.add seconds) }
  | _ => q

/-- One step of the event loop: a turn, the next round, or the end of a
    sleep, to which the clock moves on because nothing else is to be done. -/
def step (durationMs intervalMs : Value) (yields : Bool) (q : Animation) :
    Animation :=
  match q.wait with
  | .nothing => q.act durationMs intervalMs yields
  | .turn => { q with wait := .nothing }
  | .moment due =>
      { q with now := if q.now.lt due then due else q.now, wait := .turn }

/-- An animation from a moment on comes to return the number of some calls,
    having slept for some times, and that is all it ever does. -/
def Returns (durationMs intervalMs : Value) (yields : Bool) (started : Time)
    (calls : List Frame) (sleeps : List Scalar) : Prop :=
  ∃ n now, ∀ m ≥ n,
    (step durationMs intervalMs yields)^[m] (start started)
      = ⟨now, started, calls.reverse, calls.length, sleeps.reverse,
        .returned calls.length, .nothing⟩

end Animation

section

variable [Arithmetic] {durationMs intervalMs : Value}

namespace Animation

variable {yields : Bool} {q : Animation}

/-- A call comes back, at once or in the next round. -/
theorem calls_back (intervalMs : Value) (yields : Bool) {progress : Num}
    (hpace : q.pace = .looks) (hwait : q.wait = .nothing)
    (h : progressAt durationMs q.started q.now = .ok progress) :
    ∃ n, (step durationMs intervalMs yields)^[n] q
      = { q with
          called := ⟨q.now, progress⟩ :: q.called
          pace := .calls progress } := by
  obtain ⟨now, started, called, frames, slept, pace, wait⟩ := q
  subst hpace hwait
  cases yields with
  | true => exact ⟨2, by simp [step, act, h]⟩
  | false => exact ⟨1, by simp [step, act, h]⟩

/-- After a call that is not the last, a sleep comes to its end. -/
theorem sleeps_on (durationMs : Value) (yields : Bool) {progress : Num}
    {seconds : Scalar} (hpace : q.pace = .calls progress)
    (hwait : q.wait = .nothing) (hmore : isComplete progress = false)
    (h : intervalMs.div 1000 = .ok seconds) :
    ∃ n, (step durationMs intervalMs yields)^[n] q
      = { q with
          now := q.now.after seconds
          frames := q.frames + 1
          slept := seconds :: q.slept
          pace := .looks } := by
  obtain ⟨now, started, called, frames, slept, pace, wait⟩ := q
  subst hpace hwait
  by_cases hnone : seconds.le (.finite 0) = true
  · exact ⟨2, by simp [step, act, hmore, h, hnone, Time.after]⟩
  · exact ⟨3, by simp [step, act, hmore, h, hnone, Time.after]⟩

/-- What an animation has come to when it returns after some more calls and
    sleeps. -/
def after (q : Animation) (now : Time) (calls : List Frame)
    (sleeps : List Scalar) : Animation :=
  ⟨now, q.started, calls.reverse ++ q.called, q.frames + calls.length,
    sleeps.reverse ++ q.slept, .returned (q.frames + calls.length), .nothing⟩

/-- The calls listed from a moment on are made from there on, and then the
    animation returns; it sleeps before each of them but the first. -/
theorem makes_calls {fuel : Nat} {calls : List Frame} {last : Frame}
    (hpace : q.pace = .looks) (hwait : q.wait = .nothing)
    (h : framesFrom durationMs intervalMs q.started fuel q.now
      = .ok (calls ++ [last]))
    (hlast : isComplete last.progress = true) :
    ∃ n now sleeps, (step durationMs intervalMs yields)^[n] q
        = q.after now (calls ++ [last]) sleeps
      ∧ sleeps.length = calls.length
      ∧ ∀ x ∈ sleeps, intervalMs.div 1000 = .ok x := by
  induction fuel generalizing q calls with
  | zero => simp [framesFrom] at h
  | succ fuel ih =>
      rw [framesFrom] at h
      obtain ⟨progress, hprogress, h⟩ := bind_ok h
      obtain ⟨n, hn⟩ := calls_back intervalMs yields hpace hwait hprogress
      by_cases hdone : isComplete progress = true
      · rw [if_pos hdone] at h
        have hcalls : calls ++ [last] = [⟨q.now, progress⟩] :=
          (Except.ok.inj h).symm
        obtain rfl : calls = [] := by
          have hlength := congrArg List.length hcalls
          rw [List.length_append] at hlength
          exact List.length_eq_zero_iff.1 (by simpa using hlength)
        refine ⟨1 + n, q.now, [], ?_, rfl, nofun⟩
        rw [Function.iterate_add_apply, hn, hcalls]
        simp [step, act, hwait, hdone, after]
      · rw [if_neg hdone] at h
        obtain ⟨seconds, hseconds, h⟩ := bind_ok h
        obtain ⟨rest, hrest, h⟩ := bind_ok h
        have h : ⟨q.now, progress⟩ :: rest = calls ++ [last] :=
          Except.ok.inj h
        -- a call that is not the last is followed by another
        cases calls with
        | nil =>
            obtain rfl := (List.cons.inj h).1
            exact absurd hlast hdone
        | cons first calls =>
            obtain ⟨rfl, rfl⟩ := List.cons.inj h
            obtain ⟨now, started, called, frames, slept, pace, wait⟩ := q
            subst hpace hwait
            obtain ⟨m, hm⟩ := sleeps_on durationMs yields
              (q := ⟨now, started, ⟨now, progress⟩ :: called, frames, slept,
                .calls progress, .nothing⟩)
              rfl rfl (Bool.eq_false_iff.2 hdone) hseconds
            obtain ⟨k, later, sleeps, hk, hlength, hsleeps⟩ := ih
              (q := ⟨now.after seconds, started, ⟨now, progress⟩ :: called,
                frames + 1, seconds :: slept, .looks, .nothing⟩)
              rfl rfl hrest
            refine ⟨k + (m + n), later, seconds :: sleeps, ?_, ?_, ?_⟩
            · rw [Function.iterate_add_apply, Function.iterate_add_apply, hn,
                hm, hk]
              simp [after, Nat.add_assoc, Nat.add_comm 1]
            · simp [hlength]
            · intro x hx
              rcases List.mem_cons.1 hx with rfl | hx
              · exact hseconds
              · exact hsleeps x hx

/-- So it returns the number of the calls that are listed from its start on,
    if the last of them shows all of the duration. -/
theorem returns (yields : Bool) {started : Time} {fuel : Nat}
    {calls : List Frame} {last : Frame}
    (h : framesFrom durationMs intervalMs started fuel started
      = .ok (calls ++ [last]))
    (hlast : isComplete last.progress = true) :
    ∃ sleeps, Returns durationMs intervalMs yields started (calls ++ [last])
        sleeps
      ∧ sleeps.length = calls.length
      ∧ ∀ x ∈ sleeps, intervalMs.div 1000 = .ok x := by
  obtain ⟨n, now, sleeps, hn, hsleeps⟩ := makes_calls (q := start started)
    rfl rfl h hlast
  refine ⟨sleeps, ⟨n, now, fun m hm => ?_⟩, hsleeps⟩
  rw [← Nat.sub_add_cancel hm, Function.iterate_add_apply, hn]
  have hfixed : step durationMs intervalMs yields
      ((start started).after now (calls ++ [last]) sleeps)
        = (start started).after now (calls ++ [last]) sleeps := rfl
  rw [Function.iterate_fixed hfixed]
  simp [after, start]

end Animation

/-! ## The clock -/

/-- The call of an animation after a number of intervals. -/
def callAt (duration interval started : Rat) (k : Nat) : Frame :=
  ⟨.finite (started + k * (interval / 1000)),
    .real (.finite (min (k * interval / duration) 1))⟩

section

variable [Arithmetic.Exact] {duration interval started : Rat}

theorem Time.after_exact {now seconds : Rat} (h : 0 < seconds) :
    Time.after (.finite now) (.finite seconds) = .finite (now + seconds) := by
  have hsum : (Scalar.finite now).add (.finite seconds)
      = .finite (now + seconds) := Arithmetic.Exact.round_eq _
  have hpos : (Scalar.finite seconds).le (.finite 0) = false := by
    rw [Bool.eq_false_iff]
    exact mt (Scalar.Denotes.le_iff Scalar.denotes_finite
      Scalar.denotes_finite).1 (not_le.2 h)
  have hlater : (Scalar.finite now).lt (.finite (now + seconds)) = true :=
    (Scalar.Denotes.lt_iff Scalar.denotes_finite
      Scalar.denotes_finite).2 (lt_add_of_pos_right _ h)
  simp [Time.after, hpos, hsum, hlater]

/-- The seconds of an interval. -/
theorem Value.Denotes.seconds (h : intervalMs.Denotes interval)
    (hpos : 0 < interval) :
    intervalMs.div 1000 = .ok (.finite (interval / 1000)) := by
  obtain ⟨x, hx, hxq⟩ := h.div (Value.denotes_int 1000) (by norm_num)
  obtain rfl := hxq.eq_finite (by positivity)
  exact_mod_cast hx

/-- At each of its calls an animation finds the share of this call. -/
theorem progressAt_call (hd : durationMs.Denotes duration)
    (hduration : 0 < duration) (hinterval : 0 < interval) (k : Nat) :
    progressAt durationMs (.finite started)
        (callAt duration interval started k).time
      = .ok (callAt duration interval started k).progress := by
  have helapsed : (started + k * (interval / 1000) - started) * 1000
      = k * interval := by ring
  unfold callAt
  rw [progressAt_exact hd (le_add_of_nonneg_right (by positivity)), helapsed,
    shareOf, if_neg (not_le.2 hduration)]

omit [Arithmetic] [Arithmetic.Exact] in
/-- The share of a call is all of it once the intervals before it fill the
    duration. -/
theorem callAt_complete (started : Rat) (hduration : 0 < duration)
    (hinterval : 0 < interval) (k : Nat) :
    isComplete (callAt duration interval started k).progress = true
      ↔ ⌈duration / interval⌉₊ ≤ k := by
  unfold callAt
  rw [isComplete_exact, le_min_iff, Nat.ceil_le, one_le_div hduration,
    div_le_iff₀ hinterval]
  exact and_iff_left le_rfl

/-- An interval after a call it is time for the next. -/
theorem after_call (hinterval : 0 < interval) (k : Nat) :
    Time.after (callAt duration interval started k).time
        (.finite (interval / 1000))
      = (callAt duration interval started (k + 1)).time := by
  unfold callAt
  rw [Time.after_exact (by positivity)]
  congr 1
  push_cast
  ring

/-- From one of its calls on, an animation makes this call and those after
    it up to the last. -/
theorem framesFrom_call (started : Rat) (hd : durationMs.Denotes duration)
    (hi : intervalMs.Denotes interval) (hduration : 0 < duration)
    (hinterval : 0 < interval) {m k fuel : Nat}
    (hm : ⌈duration / interval⌉₊ = k + m) (hfuel : m < fuel) :
    framesFrom durationMs intervalMs (.finite started) fuel
        (callAt duration interval started k).time
      = .ok ((List.range' k (m + 1)).map
          (callAt duration interval started)) := by
  have hcomplete := callAt_complete started hduration hinterval
  induction m generalizing k fuel with
  | zero =>
      obtain ⟨fuel, rfl⟩ := Nat.exists_eq_succ_of_ne_zero hfuel.ne'
      rw [framesFrom, progressAt_call hd hduration hinterval]
      simp only [bind, Except.bind, pure, Except.pure]
      rw [if_pos ((hcomplete k).2 hm.le)]
      rfl
  | succ m ih =>
      obtain ⟨fuel, rfl⟩ := Nat.exists_eq_succ_of_ne_zero
        (Nat.ne_zero_of_lt hfuel)
      rw [framesFrom, progressAt_call hd hduration hinterval]
      simp only [bind, Except.bind, pure, Except.pure]
      rw [if_neg (mt (hcomplete k).1 (by omega)), hi.seconds hinterval]
      simp only [after_call hinterval]
      rw [ih (k := k + 1) (by omega) (Nat.lt_of_succ_lt_succ hfuel)]
      rfl

/-- The frames of an animation on exact numbers: one at its start and one
    after every interval until the duration has passed. -/
theorem framesFrom_exact (started : Rat) (hd : durationMs.Denotes duration)
    (hi : intervalMs.Denotes interval) (hduration : 0 < duration)
    (hinterval : 0 < interval) {fuel : Nat}
    (hfuel : ⌈duration / interval⌉₊ < fuel) :
    framesFrom durationMs intervalMs (.finite started) fuel (.finite started)
      = .ok ((List.range (⌈duration / interval⌉₊ + 1)).map
          (callAt duration interval started)) := by
  have h := framesFrom_call started hd hi hduration hinterval (k := 0)
    (Nat.zero_add _).symm hfuel
  rw [← List.range_eq_range'] at h
  simpa [callAt] using h

end

/-- The only frame of an animation that takes no time. -/
theorem framesFrom_nothing {started : Time} {fuel : Nat}
    (h : durationMs.le 0 = .ok true) (hfuel : 0 < fuel) :
    framesFrom durationMs intervalMs started fuel started
      = .ok [⟨started, .real (.finite 1)⟩] := by
  obtain ⟨fuel, rfl⟩ := Nat.exists_eq_succ_of_ne_zero hfuel.ne'
  have hone : isComplete (.real (.finite 1)) = true :=
    isComplete_exact.2 le_rfl
  simp [framesFrom, progressAt, h, hone, bind, Except.bind, pure,
    Except.pure]

/-- An animation on exact numbers comes to its end.  If its duration and its
    interval are above zero, it calls back at its start and after every
    interval until the duration has passed; the shares that it shows never
    fall, are below one but for the last, which is one, and it returns how
    many calls there were.  If its duration is not above zero, it calls back
    once, with a share of one, and never sleeps, whatever the interval.  It
    makes no difference whether what it calls yields. -/
theorem animation_paced [Arithmetic.Exact] (durationMs intervalMs : Value)
    (yields : Bool) :
    (∀ duration interval started : Rat, durationMs.Denotes duration →
      intervalMs.Denotes interval → 0 < duration → 0 < interval →
      Animation.Returns durationMs intervalMs yields (.finite started)
          ((List.range (⌈duration / interval⌉₊ + 1)).map
            (callAt duration interval started))
          (List.replicate ⌈duration / interval⌉₊ (.finite (interval / 1000)))
        ∧ (∀ fuel > ⌈duration / interval⌉₊,
          framesFrom durationMs intervalMs (.finite started) fuel
              (.finite started)
            = .ok ((List.range (⌈duration / interval⌉₊ + 1)).map
                (callAt duration interval started)))
        ∧ (Monotone fun k : Nat => min (k * interval / duration) 1)
        ∧ (∀ k < ⌈duration / interval⌉₊,
          min (k * interval / duration) 1 < 1)
        ∧ min (⌈duration / interval⌉₊ * interval / duration) 1 = 1)
      ∧ ∀ started : Time, durationMs.le 0 = .ok true →
        Animation.Returns durationMs intervalMs yields started
            [⟨started, .real (.finite 1)⟩] []
          ∧ ∀ fuel > 0, framesFrom durationMs intervalMs started fuel started
            = .ok [⟨started, .real (.finite 1)⟩] := by
  constructor
  · intro duration interval started hd hi hduration hinterval
    have hcomplete : ∀ k : Nat, 1 ≤ min (k * interval / duration) 1
        ↔ ⌈duration / interval⌉₊ ≤ k := fun k =>
      isComplete_exact.symm.trans
        (callAt_complete started hduration hinterval k)
    refine ⟨?_, fun fuel hfuel => framesFrom_exact started hd hi hduration
      hinterval hfuel, ?_, ?_, ?_⟩
    · have hlist := framesFrom_exact started hd hi hduration hinterval
        (Nat.lt_succ_self _)
      rw [List.range_succ, List.map_append] at hlist ⊢
      obtain ⟨sleeps, hreturns, hlength, hsleeps⟩ :=
        Animation.returns yields hlist
          ((callAt_complete started hduration hinterval _).2 le_rfl)
      rw [List.length_map, List.length_range] at hlength
      rwa [← List.eq_replicate_iff.2 ⟨hlength, fun x hx =>
        Except.ok.inj ((hsleeps x hx).symm.trans (hi.seconds hinterval))⟩]
    · intro j k hjk
      have hjk : (j : Rat) ≤ k := by exact_mod_cast hjk
      exact min_le_min_right 1 (by gcongr)
    · exact fun k hk => not_le.1 (mt (hcomplete k).1 (not_le.2 hk))
    · exact le_antisymm (min_le_right ..) ((hcomplete _).2 le_rfl)
  · intro started hnone
    refine ⟨?_, fun fuel hfuel => framesFrom_nothing hnone hfuel⟩
    have hlist : framesFrom durationMs intervalMs started 1 started
        = .ok ([] ++ [⟨started, .real (.finite 1)⟩]) :=
      framesFrom_nothing hnone one_pos
    obtain ⟨sleeps, hreturns, hlength, -⟩ := Animation.returns yields hlist
      (isComplete_exact.2 le_rfl)
    rwa [List.length_eq_zero_iff.1 hlength] at hreturns

end

section

attribute [local instance] Arithmetic.level

/-- A tenth of a second in frames of forty milliseconds, for one that
    yields, and no time at all in frames of any length. -/
theorem animation_paced_tenth :
    Animation.Returns (.int 100) (.int 40) true (.finite 0)
        [callAt 100 40 0 0, callAt 100 40 0 1, callAt 100 40 0 2,
          callAt 100 40 0 3]
        [.finite (40 / 1000), .finite (40 / 1000), .finite (40 / 1000)]
      ∧ Animation.Returns (.int 0) (.str "often") false (.finite 0)
        [⟨.finite 0, .real (.finite 1)⟩] [] := by
  have hexact : Arithmetic.Exact := Arithmetic.exact_exact _ _
  have hceil : ⌈(100 : Rat) / 40⌉₊ = 3 :=
    (Nat.ceil_eq_iff (by norm_num)).2 ⟨by norm_num, by norm_num⟩
  have hpaced := (animation_paced (.int 100) (.int 40) true).1 100 40 0
    (Value.denotes_int 100) (Value.denotes_int 40) (by norm_num)
    (by norm_num)
  rw [hceil] at hpaced
  exact ⟨hpaced.1, ((animation_paced (.int 0) (.str "often") false).2
    (.finite 0) rfl).1⟩

end

end BlockStage
