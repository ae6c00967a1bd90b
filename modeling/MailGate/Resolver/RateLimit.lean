import Mathlib.Algebra.Order.Group.Int
import MailGate.Lib.Runs
import MailGate.Lib.Window
import MailGate.Resolver.Handler

/-!
# The rate limit of the resolver

A handler thread reads the monotonic clock, and may then wait for `RATE_LOCK`.  The calls of
`_rate_allowed` therefore obtain the lock in any order of their readings.  A call drops the
times that are a minute old at its own reading; a call with an earlier reading that comes
after it misses them.
-/

namespace MailGate

namespace Resolver

open Runs (Run Taken)

/-! ## Threads that wait for the lock -/

/-- The clock, the threads that wait for the lock, and the limiter. -/
structure LimiterState where
  clock : Time
  /-- The readings of the threads that wait. -/
  waiting : List Time
  /-- `REQUEST_TIMES`. -/
  times : List Time
  /-- The readings for which `_rate_allowed` has returned `True`. -/
  allowed : List Time

/-- What can happen next. -/
inductive LimiterEvent where
  /-- Time goes by. -/
  | tick (now : Time)
  /-- A thread reads the clock. -/
  | read
  /-- A thread obtains the lock with its reading. -/
  | lock (now : Time)

/-- A call of `_rate_allowed` under the lock. -/
def LimiterState.call (s : LimiterState) (now : Time) : LimiterState :=
  let (allowed, times) := rateAllowed now s.times
  { s with times := times, allowed := if allowed then s.allowed ++ [now] else s.allowed }

/-- The steps of the threads; those that wait obtain the lock in any order. -/
inductive LimiterStep : LimiterEvent → LimiterState → LimiterState → Prop where
  | tick (s : LimiterState) (now : Time) (h : s.clock ≤ now) :
      LimiterStep (.tick now) s { s with clock := now }
  | read (s : LimiterState) : LimiterStep .read s { s with waiting := s.waiting ++ [s.clock] }
  | lock (s : LimiterState) (now : Time) (first rest : List Time)
      (h : s.waiting = first ++ now :: rest) :
      LimiterStep (.lock now) s ({ s with waiting := first ++ rest }.call now)

/-- The resolver when it starts. -/
def LimiterState.fresh (clock : Time) : LimiterState := ⟨clock, [], [], []⟩

/-- Every half-open minute holds at most 120 of the readings that were allowed. -/
def LimiterState.Bounded (s : LimiterState) : Prop :=
  ∀ start, (s.allowed.countP fun t => start ≤ t ∧ t < start + Time.minute) ≤ maxRequestsPerMinute

/-- No call has dropped a reading that was allowed less than a minute from `now`. -/
def LimiterState.Remembers (s : LimiterState) (now : Time) : Prop :=
  (s.allowed.filter fun t => now - Time.minute < t ∧ t < now + Time.minute).Subperm s.times

section

variable {s s' : LimiterState} {tr : List (Taken LimiterState LimiterEvent)} {now : Time}

/-- One call keeps the bound if the limiter remembers what is around its reading. -/
lemma LimiterState.Bounded.call (h : s.Bounded) (hlog : s.Remembers now) :
    (s.call now).Bounded := by
  unfold LimiterState.call rateAllowed
  dsimp only
  split
  · exact h
  · rename_i hroom
    exact Window.HalfOpen.append h (Window.around_subperm_dropWhile hlog) (Nat.lt_of_not_ge hroom)

/-- In a run in which every call finds in `REQUEST_TIMES` what was allowed less than a minute
from its reading, no half-open minute ever holds more than 120 allowed readings. -/
theorem calls_bounded (clock : Time) (h : Run LimiterStep (.fresh clock) tr s')
    (hlog : ∀ t ∈ tr, ∀ now, t.label = .lock now → t.before.Remembers now) :
    s'.Bounded ∧ ∀ t ∈ tr, t.after.Bounded := by
  have hfresh : (LimiterState.fresh clock).Bounded := fun start => Nat.zero_le _
  have hkeeps : ∀ t ∈ tr, t.before.Bounded → t.after.Bounded := by
    rintro ⟨before, label, after⟩ ht hbound
    have hstep : LimiterStep label before after := h.step_of_mem _ ht
    have hcall := hlog _ ht
    cases hstep with
    | tick => exact hbound
    | read => exact hbound
    | lock => exact LimiterState.Bounded.call hbound (hcall _ rfl)
  obtain ⟨hend, hall⟩ := h.kept hkeeps hfresh
  exact ⟨hend, fun t ht => (hall t ht).2⟩

/-! ## Calls in the order of their readings -/

/-- What has been dropped was a minute old at the time `cut`. -/
def LimiterState.DroppedBefore (s : LimiterState) (cut : Time) : Prop :=
  ∃ dropped, s.allowed.Perm (dropped ++ s.times) ∧ ∀ t ∈ dropped, t ≤ cut - Time.minute

lemma LimiterState.DroppedBefore.remembers {cut : Time} (h : s.DroppedBefore cut)
    (hcut : cut ≤ now) : s.Remembers now := by
  obtain ⟨dropped, hperm, hold⟩ := h
  have hnone : (dropped.filter fun t => now - Time.minute < t ∧ t < now + Time.minute) = [] := by
    rw [List.filter_eq_nil_iff]
    intro t ht
    have hle : t ≤ now - Time.minute := (hold t ht).trans (sub_le_sub_right hcut _)
    simpa using fun hlt => absurd hle (not_le_of_gt hlt)
  refine (hperm.filter _).subperm.trans ?_
  rw [List.filter_append, hnone, List.nil_append]
  exact List.filter_sublist.subperm

/-- A call drops what is a minute old at its reading. -/
lemma LimiterState.DroppedBefore.call {cut : Time} (h : s.DroppedBefore cut) (hcut : cut ≤ now) :
    (s.call now).DroppedBefore now := by
  obtain ⟨dropped, hperm, hold⟩ := h
  have hsplit : s.allowed.Perm ((dropped ++ s.times.takeWhile fun t => t ≤ now - Time.minute) ++
      s.times.dropWhile fun t => t ≤ now - Time.minute) := by
    rw [List.append_assoc, List.takeWhile_append_dropWhile]
    exact hperm
  refine ⟨dropped ++ s.times.takeWhile fun t => t ≤ now - Time.minute, ?_, fun t ht => ?_⟩
  · unfold LimiterState.call rateAllowed
    dsimp only
    split
    · exact hsplit
    · rw [← List.append_assoc]
      exact hsplit.append_right [now]
  · rcases List.mem_append.1 ht with ht | ht
    · exact (hold t ht).trans (sub_le_sub_right hcut _)
    · simpa using List.mem_takeWhile_imp ht

lemma LimiterState.DroppedBefore.mono {cut cut' : Time} (h : s.DroppedBefore cut)
    (hcut : cut ≤ cut') : s.DroppedBefore cut' := by
  obtain ⟨dropped, hperm, hold⟩ := h
  exact ⟨dropped, hperm, fun t ht => (hold t ht).trans (sub_le_sub_right hcut _)⟩

/-- Where the lock is obtained in the order of the readings, every call finds what it needs. -/
lemma remembers_of_ordered (h : Run LimiterStep s tr s')
    (hstart : ∀ t ∈ tr, ∀ now, t.label = .lock now → s.DroppedBefore now)
    (hordered : tr.Pairwise fun a b =>
      ∀ x y, a.label = .lock x → b.label = .lock y → x ≤ y) :
    ∀ t ∈ tr, ∀ now, t.label = .lock now → t.before.Remembers now := by
  induction h with
  | nil s => simp
  | @cons s s₁ s' l tr hstep hrest ih =>
    rw [List.forall_mem_cons] at hstart
    rw [List.pairwise_cons] at hordered
    refine List.forall_mem_cons.2 ⟨fun now hnow => (hstart.1 now hnow).remembers le_rfl,
      ih ?_ hordered.2⟩
    intro t ht now hnow
    cases hstep with
    | tick => exact hstart.2 t ht now hnow
    | read => exact hstart.2 t ht now hnow
    | lock =>
      have hcall := (hstart.1 _ rfl).call le_rfl
      exact hcall.mono (hordered.1 t ht _ now rfl hnow)

/-- So the limit holds where the lock is obtained in the order of the readings. -/
theorem calls_bounded_of_ordered (clock : Time) (h : Run LimiterStep (.fresh clock) tr s')
    (hordered : tr.Pairwise fun a b =>
      ∀ x y, a.label = .lock x → b.label = .lock y → x ≤ y) :
    s'.Bounded ∧ ∀ t ∈ tr, t.after.Bounded := by
  have hstart : ∀ cut, (LimiterState.fresh clock).DroppedBefore cut :=
    fun cut => ⟨[], List.Perm.nil, by simp⟩
  exact calls_bounded clock h (remembers_of_ordered h (fun _ _ now _ => hstart now) hordered)

end

/-! ## A call that is overtaken -/

/-- Two threads read the clock at 0 and at 5, and the second obtains the lock first. -/
theorem calls_bounded_overtaken :
    ∃ tr s', Run LimiterStep (.fresh 0) tr s' ∧ s'.allowed = [5, 0] ∧ s'.Bounded := by
  have hrun : Run LimiterStep (.fresh 0) _ _ :=
    .cons (.read _) <|
    .cons (.tick _ 5 (by decide)) <|
    .cons (.read _) <|
    .cons (.lock _ 5 [0] [] rfl) <|
    .cons (.lock _ 0 [] [] rfl) (.nil _)
  refine ⟨_, _, hrun, by decide +kernel, (calls_bounded 0 hrun ?_).1⟩
  simp only [List.forall_mem_cons, List.not_mem_nil, false_imp_iff, implies_true, and_true,
    true_and, forall_eq', LimiterEvent.lock.injEq, reduceCtorEq]
  exact ⟨List.nil_subperm, List.filter_sublist.subperm⟩

/-- Many threads read the clock at 0, one after the other. -/
lemma run_busy {n : ℕ} (hn : n ≤ maxRequestsPerMinute) :
    ∃ tr, Run LimiterStep (.fresh 0) tr ⟨0, [], List.replicate n 0, List.replicate n 0⟩ := by
  induction n with
  | zero => exact ⟨[], .nil _⟩
  | succ n ih =>
    obtain ⟨tr, hrun⟩ := ih (Nat.le_of_succ_le hn)
    have hcall : (LimiterState.call ⟨0, [], List.replicate n 0, List.replicate n 0⟩ 0) =
        ⟨0, [], List.replicate (n + 1) 0, List.replicate (n + 1) 0⟩ := by
      have hnone : (List.replicate n (0 : Time)).dropWhile (fun t => t ≤ 0 - Time.minute) =
          List.replicate n 0 := by
        cases n with
        | zero => rfl
        | succ n => rfl
      have hroom : ¬ (List.replicate n (0 : Time)).length ≥ maxRequestsPerMinute := by
        rw [List.length_replicate]
        omega
      unfold LimiterState.call rateAllowed
      dsimp only
      rw [hnone, if_neg hroom, List.replicate_succ']
      rfl
    have hnext : Run LimiterStep ⟨0, [], List.replicate n 0, List.replicate n 0⟩ _ _ :=
      .cons (.read _) <| .cons (.lock _ 0 [] [] rfl) (.nil _)
    exact ⟨_, hcall ▸ hrun.append hnext⟩

/-- After 120 calls at 0, a thread reads the clock at 59 seconds, and another one at 60 seconds.
The second obtains the lock first and drops the 120 times, so that the first is allowed too. -/
theorem calls_not_bounded :
    ¬ ∀ (clock : Time) (tr : List (Taken LimiterState LimiterEvent)) (s' : LimiterState),
      Run LimiterStep (.fresh clock) tr s' → s'.Bounded := by
  intro h
  obtain ⟨tr, hbusy⟩ := run_busy le_rfl
  have hlate : Run LimiterStep
      ⟨0, [], List.replicate maxRequestsPerMinute 0, List.replicate maxRequestsPerMinute 0⟩ _ _ :=
    .cons (.tick _ 59000000 (by decide)) <|
    .cons (.read _) <|
    .cons (.tick _ 60000000 (by decide)) <|
    .cons (.read _) <|
    .cons (.lock _ 60000000 [59000000] [] rfl) <|
    .cons (.lock _ 59000000 [] [] rfl) (.nil _)
  have hbound := h 0 _ _ (hbusy.append hlate) 0
  revert hbound
  decide +kernel

end Resolver

end MailGate
