import Mathlib.Algebra.Order.Group.Int
import MailGate.Api.Authorize
import MailGate.Lib.Runs
import MailGate.Lib.Window

/-!
# The rate limit

A call of `mailgate_api_authorize` reads the clock when it starts, and may then wait for the
lock on the row of its token.  The calls of one token are therefore processed in any order of
their clock readings; still no minute holds more than sixty reads.
-/

namespace MailGate

open Runs (Run Taken)

/-! ## Calls that wait for a lock -/

/-- A call that has read the clock and waits for the lock. -/
structure WaitingCall where
  tokenHash : PyStr
  path : PyStr
  /-- `v_now`. -/
  now : Time
deriving DecidableEq, Repr

/-- The database, the clock, and the calls that wait. -/
structure CallState where
  db : Db
  clock : Time
  waiting : List WaitingCall

/-- What can happen next. -/
inductive CallEvent where
  /-- Time goes by. -/
  | tick (now : Time)
  /-- A call starts and reads the clock. -/
  | start (tokenHash path : PyStr)
  /-- A waiting call gets the lock, runs, and commits. -/
  | run (call : WaitingCall)

/-- The steps of the calls; the calls that wait are served in any order. -/
inductive CallStep : CallEvent → CallState → CallState → Prop where
  | tick (s : CallState) (now : Time) (h : s.clock ≤ now) :
      CallStep (.tick now) s { s with clock := now }
  | start (s : CallState) (tokenHash path : PyStr) :
      CallStep (.start tokenHash path) s
        { s with waiting := s.waiting ++ [⟨tokenHash, path, s.clock⟩] }
  | run (s : CallState) (call : WaitingCall) (first rest : List WaitingCall)
      (h : s.waiting = first ++ call :: rest) :
      CallStep (.run call) s
        { s with
          db := (mailgateApiAuthorize call.tokenHash call.path call.now s.db).2
          waiting := first ++ rest }

/-! ## The bound -/

/-- The times of the recorded reads of the token behind an actor. -/
def readTimes (actor : PyStr) (db : Db) : List Time :=
  (db.audit.filter (isApiRead actor)).map (·.createdAt)

/-- Every closed interval of a minute holds at most sixty reads of the token. -/
def ReadsBounded (actor : PyStr) (db : Db) : Prop :=
  ∀ start, (db.audit.countP fun e =>
    isApiRead actor e && start ≤ e.createdAt && e.createdAt ≤ start + Time.minute) ≤
      rateLimitPerMinute

lemma countP_readTimes (actor : PyStr) (db : Db) (p : Time → Bool) :
    (readTimes actor db).countP p =
      db.audit.countP fun e => isApiRead actor e && p e.createdAt := by
  rw [readTimes, List.countP_map, List.countP_filter]
  refine List.countP_congr ?_
  intro e _
  simp [and_comm]

lemma readsBounded_iff {actor : PyStr} {db : Db} :
    ReadsBounded actor db ↔ Window.Bounded Time.minute rateLimitPerMinute (readTimes actor db) := by
  refine forall_congr' fun start => ?_
  rw [countP_readTimes]
  simp only [Bool.decide_and, Bool.and_assoc]

/-- One call keeps the bound, whatever time it has read. -/
lemma ReadsBounded.authorize {actor : PyStr} {db : Db} (h : ReadsBounded actor db)
    (tokenHash path : PyStr) (now : Time) :
    ReadsBounded actor (mailgateApiAuthorize tokenHash path now db).2 := by
  rcases mailgateApiAuthorize_cases tokenHash path now db with
    ⟨-, hsame⟩ | ⟨token, -, -, hroom, hread⟩
  · rw [hsame]
    exact h
  · rw [hread, readsBounded_iff]
    have hbound := readsBounded_iff.1 h
    by_cases hactor : token.actor = actor
    · have htimes : readTimes actor (recordRead db tokenHash token.actor path now) =
          readTimes actor db ++ [now] := by
        simp [readTimes, recordRead, List.filter_append, isApiRead, apiReadEvent, hactor]
      rw [htimes]
      refine hbound.append ?_
      rw [countP_readTimes, ← hactor]
      exact hroom
    · -- a read of another token
      have htimes : readTimes actor (recordRead db tokenHash token.actor path now) =
          readTimes actor db := by
        simp [readTimes, recordRead, List.filter_append, isApiRead, apiReadEvent, hactor]
      rw [htimes]
      exact hbound

/-- However the calls are interleaved, and in whichever order their clock readings are
processed, no closed interval of a minute holds more than sixty reads of a token. -/
theorem calls_readsBounded {actor : PyStr} {s s' : CallState}
    {tr : List (Taken CallState CallEvent)} (hstart : ReadsBounded actor s.db)
    (h : Run CallStep s tr s') : ReadsBounded actor s'.db := by
  refine h.invariant (I := fun s => ReadsBounded actor s.db) ?_ hstart
  intro l a b hstep hbound
  cases hstep with
  | tick => exact hbound
  | start => exact hbound
  | run => exact hbound.authorize _ _ _

/-! ## Two calls that overtake each other -/

/-- The digest of a token. -/
def sampleHash : PyStr := List.replicate 64 (ofChar 'a')

/-- A token that does not expire. -/
def sampleToken : ApiToken where
  id := 1
  name := py "agent"
  tokenPrefix := py "mg_sample"
  tokenHash := sampleHash
  scope := py "messages:read:approved"
  createdAt := 0
  expiresAt := none
  lastUsedAt := none
  revokedAt := none

/-- A database that holds this token only, and no waiting call. -/
def sampleCalls : CallState where
  db :=
    { users := [py "owner"], mailboxes := [], mailboxSeq := 1, messages := [], attachments := [],
      tokens := [sampleToken], tokenSeq := 2, audit := [], auditSeq := 1 }
  clock := 0
  waiting := []

/-- Two calls read the clock at 0 and at 5, and the second gets the lock first. -/
theorem calls_readsBounded_overtaken :
    ∃ tr s', Run CallStep sampleCalls tr s' ∧ readTimes sampleToken.actor s'.db = [5, 0] ∧
      ReadsBounded sampleToken.actor s'.db := by
  have hrun : Run CallStep sampleCalls _ _ :=
    .cons (.start sampleCalls sampleHash (py "/api/v1/categories")) <|
    .cons (.tick _ 5 (by decide)) <|
    .cons (.start _ sampleHash (py "/api/v1/categories")) <|
    .cons (.run _ _ [⟨sampleHash, py "/api/v1/categories", 0⟩] [] rfl) <|
    .cons (.run _ _ [] [] rfl) (.nil _)
  have hstart : ReadsBounded sampleToken.actor sampleCalls.db := fun start => Nat.zero_le _
  exact ⟨_, _, hrun, by decide +kernel, calls_readsBounded hstart hrun⟩

end MailGate
