import MailGate.Approval
import MailGate.Lib.Pool

/-!
# Decisions

The owner decides on a message from a page that shows the form for quarantined messages only.
The request may come late: from a page that was opened before another decision, or from a
second session.  `message_decide` does not look at the state of the row, so a message is
decided once only as long as every decision is committed while its message is quarantined.
-/

namespace MailGate

open Runs Transaction

/-- A request for `message_decide`, with the number that tells it from the others. -/
structure DecisionRequest where
  number : ℕ
  env : WebEnv
  messageId : Uuid
  decision : Option PyStr

/-- What the request runs. -/
def DecisionRequest.program (r : DecisionRequest) : Prog Db WebExn Page :=
  messageDecide r.env r.messageId r.decision

/-- Requests for decisions side by side, on a database that may fail. -/
abbrev DecisionPool : Type 1 := Pool Db WebExn Page DecisionRequest

/-- A step of the requests. -/
abbrev DecisionStep : Type 1 := Taken DecisionPool (PoolEvent Db DecisionRequest)

/-- A run of requests for decisions, in any interleaving. -/
abbrev DecisionRun : DecisionPool → List DecisionStep → DecisionPool → Prop :=
  Pool.Run (.alone (· = .database)) DecisionRequest.program

/-- The step commits a decision on the message. -/
def Decides (e : DecisionStep) (messageId : Uuid) : Prop :=
  ∃ r ev, e.label = .run r ev ∧ r.messageId = messageId ∧ e.after.state ≠ e.before.state

/-- The message is in the table, in this state. -/
def InState (messageId : Uuid) (state : State) (db : Db) : Prop :=
  ∃ m ∈ db.messages, m.id = messageId ∧ m.state = state.value

/-- Every decision of the run is committed while its message is quarantined. -/
def DecidesQuarantined (tr : List DecisionStep) : Prop :=
  ∀ e ∈ tr, ∀ messageId, Decides e messageId → InState messageId .quarantined e.before.state

/-! ## One decision -/

/-- What a request does to the database: nothing, or the decision that it asks for. -/
def Decision (r : DecisionRequest) (s s' : Db) : Prop :=
  s' = s ∨ ∃ state : State, (state = .approved ∨ state = .rejected) ∧
    r.decision = some state.value ∧
      messageDecideTransaction r.env r.messageId state.value s = .ok ((), s')

lemma program_guarantees (r : DecisionRequest) : r.program.Guarantees (Decision r) := by
  refine guarantees_bind (guarantees_atomic ?_) fun _ => ?_
  · intro s b s' hbody
    split at hbody
    · cases hbody
      exact .inl rfl
    · cases hbody
  · cases hdecision : r.decision with
    | none => trivial
    | some decision =>
      by_cases hmem : decision ∈ [State.approved.value, State.rejected.value]
      · simp only [hmem, if_true]
        refine guarantees_bind (guarantees_atomic ?_) fun _ => trivial
        intro s b s' hbody
        simp only [List.mem_cons, List.not_mem_nil, or_false] at hmem
        rcases hmem with rfl | rfl
        · exact .inr ⟨.approved, .inl rfl, hdecision, hbody⟩
        · exact .inr ⟨.rejected, .inr rfl, hdecision, hbody⟩
      · simp only [hmem, if_false]
        trivial

section Rows

variable {r : DecisionRequest} {s s' : Db} {state : State}

/-- A decision changes the row of its message. -/
lemma messageDecideTransaction_messages
    (h : messageDecideTransaction r.env r.messageId state.value s = .ok ((), s')) :
    r.messageId ∈ s.messages.map (·.id) ∧ s'.messages = s.messages.map fun m =>
      if m.id = r.messageId then { m with state := state.value, decidedAt := some (r.env.clock 0) }
      else m := by
  obtain ⟨s₁, hupd, hsame⟩ := messageDecideTransaction_eq_ok h
  obtain ⟨hrow, -, rfl⟩ := Db.updateDecision_eq_ok.1 hupd
  exact ⟨hrow, hsame.messages⟩

/-- A decision writes an audit event. -/
lemma messageDecideTransaction_ne
    (h : messageDecideTransaction r.env r.messageId state.value s = .ok ((), s')) : s' ≠ s := by
  unfold messageDecideTransaction at h
  split at h
  · cases h
  · rename_i s₁ hupd
    cases h
    obtain ⟨-, -, rfl⟩ := Db.updateDecision_eq_ok.1 hupd
    intro heq
    have hlength := congrArg (fun db : Db => db.audit.length) heq
    simp [Db.writeAudit] at hlength

lemma state_value_inj {a b : State} (h : a.value = b.value) : a = b := by
  cases a <;> cases b <;> first | rfl | (revert h; decide)

end Rows

/-! ## Runs -/

section Steps

variable {p p' : DecisionPool} {tr : List DecisionStep} {messageId : Uuid} {state : State}

/-- The requests of the pool are what is left of requests for decisions. -/
def DecisionPool.Sound (p : DecisionPool) : Prop :=
  p.Holds (fun _ => True) fun r q _ => q.Guarantees (Decision r)

/-- A step that changes the database commits a decision. -/
lemma decision_of_step {e : PoolEvent Db DecisionRequest} (hsound : DecisionPool.Sound p)
    (h : Pool.Step (.alone (· = .database)) DecisionRequest.program e p p') :
    p'.state = p.state ∨
      ∃ r ev, e = .run r ev ∧ ∃ state : State, (state = .approved ∨ state = .rejected) ∧
        messageDecideTransaction r.env r.messageId state.value p.state = .ok ((), p'.state) := by
  cases e with
  | start r =>
    cases h
    exact .inl rfl
  | run r ev =>
    rcases Pool.Step.guarantees hsound h with ⟨-, hsame⟩ | ⟨-, hsame | ⟨state, hstate, -, hbody⟩⟩
    · exact .inl hsame
    · exact .inl hsame
    · exact .inr ⟨r, ev, rfl, state, hstate, hbody⟩
  | env =>
    cases h with
    | env henv => exact henv.elim

/-- What holds between the steps of a run. -/
def DecisionPool.Inv (p : DecisionPool) : Prop := p.Sound ∧ p.state.Valid

lemma inv_of_run (hstart : p.clients = []) (hvalid : p.state.Valid) (h : DecisionRun p tr p') :
    p'.Inv ∧ ∀ e ∈ tr, e.before.Inv ∧ e.after.Inv := by
  have hkeeps : Pool.Keeps (.alone (· = .database)) DecisionRequest.program (fun _ => True)
      fun r q _ => q.Guarantees (Decision r) := Pool.keeps_guarantees program_guarantees
  refine h.kept ?_ ⟨⟨by simp [hstart], trivial, by simp [hstart]⟩, hvalid⟩
  rintro e he ⟨hsound, hbefore⟩
  have hstep := h.step_of_mem e he
  refine ⟨hkeeps.step hsound hstep, ?_⟩
  rcases decision_of_step hsound hstep with hsame | ⟨r, ev, -, state, -, hbody⟩
  · rw [hsame]
    exact hbefore
  · obtain ⟨s₁, hupd, hsame⟩ := messageDecideTransaction_eq_ok hbody
    exact hsame.valid (Db.updateDecision_valid hbefore hupd)

lemma inState_iff {db : Db} (hvalid : db.Valid) {m : Message} (hm : m ∈ db.messages) :
    InState m.id state db ↔ m.state = state.value := by
  constructor
  · rintro ⟨m', hm', hid, hstate⟩
    rw [← List.inj_on_of_nodup_map hvalid.message_ids hm' hm hid]
    exact hstate
  · intro hstate
    exact ⟨m, hm, rfl, hstate⟩

/-- What one step of a run does to the rows, where a decision is committed in time. -/
lemma rows_of_step {e : DecisionStep} (hinv : e.before.Inv)
    (hstep : Pool.Step (.alone (· = .database)) DecisionRequest.program e.label e.before e.after)
    (hcond : ∀ messageId, Decides e messageId → InState messageId .quarantined e.before.state) :
    e.after.state.messages = e.before.state.messages ∨
      ∃ (messageId : Uuid) (state : State) (now : Time),
        (state = .approved ∨ state = .rejected) ∧
        InState messageId .quarantined e.before.state ∧
        e.after.state.messages = e.before.state.messages.map fun m =>
          if m.id = messageId then { m with state := state.value, decidedAt := some now }
          else m := by
  rcases decision_of_step hinv.1 hstep with hsame | ⟨r, ev, hlabel, state, hstate, hbody⟩
  · left
    rw [hsame]
  · right
    obtain ⟨-, hrows⟩ := messageDecideTransaction_messages hbody
    have hdecides : Decides e r.messageId :=
      ⟨r, ev, hlabel, rfl, messageDecideTransaction_ne hbody⟩
    exact ⟨r.messageId, state, _, hstate, hcond _ hdecides, hrows⟩

/-- A message that is not quarantined stays as it is. -/
lemma inState_of_step {e : DecisionStep} (hinv : e.before.Inv)
    (hstep : Pool.Step (.alone (· = .database)) DecisionRequest.program e.label e.before e.after)
    (hcond : ∀ messageId, Decides e messageId → InState messageId .quarantined e.before.state)
    (hstate : state ≠ .quarantined) (h : InState messageId state e.before.state) :
    InState messageId state e.after.state := by
  obtain ⟨m, hm, rfl, hm'⟩ := h
  rcases rows_of_step hinv hstep hcond with hsame | ⟨decided, _, _, -, hquarantined, hrows⟩
  · rw [InState, hsame]
    exact ⟨m, hm, rfl, hm'⟩
  · have hne : m.id ≠ decided := by
      rintro rfl
      rw [inState_iff hinv.2 hm] at hquarantined
      exact hstate (state_value_inj (hm'.symm.trans hquarantined))
    refine ⟨m, ?_, rfl, hm'⟩
    rw [hrows, List.mem_map]
    exact ⟨m, hm, if_neg hne⟩

/-- In every run of requests in which each decision is committed while its message is
quarantined, messages go from quarantined to approved and from quarantined to rejected only,
each is decided at most once, and one that was rejected is not in the view of the agent API
afterwards. -/
theorem decisions_predefined (hstart : p.clients = []) (hvalid : p.state.Valid)
    (h : DecisionRun p tr p') (hcond : DecidesQuarantined tr) :
    (∀ e ∈ tr, ∀ m ∈ e.before.state.messages, ∀ m' ∈ e.after.state.messages, m'.id = m.id →
        m'.state = m.state ∨ m.state = State.quarantined.value ∧
          (m'.state = State.approved.value ∨ m'.state = State.rejected.value)) ∧
      (∀ messageId, tr.Pairwise fun e f => Decides e messageId → ¬ Decides f messageId) ∧
      ∀ e ∈ tr, ∀ messageId, InState messageId .rejected e.before.state →
        ∀ a ∈ p'.state.approvedMessages, a.id ≠ messageId := by
  obtain ⟨hend, hinv⟩ := inv_of_run hstart hvalid h
  have hstep := h.step_of_mem
  have hkept : ∀ {state : State} {messageId : Uuid}, state ≠ .quarantined → ∀ e ∈ tr,
      InState messageId state e.before.state → InState messageId state e.after.state :=
    fun hstate e he => inState_of_step (hinv e he).1 (hstep e he) (hcond e he) hstate
  refine ⟨?_, ?_, ?_⟩
  · intro e he m hm m' hm' hid
    rcases rows_of_step (hinv e he).1 (hstep e he) (hcond e he) with
      hsame | ⟨messageId, state, now, hstate, hquarantined, hrows⟩
    · rw [hsame] at hm'
      rw [List.inj_on_of_nodup_map (hinv e he).1.2.message_ids hm' hm hid]
      exact .inl rfl
    · rw [hrows, List.mem_map] at hm'
      obtain ⟨m₀, hm₀, rfl⟩ := hm'
      have hsame : m₀ = m := by
        refine List.inj_on_of_nodup_map (hinv e he).1.2.message_ids hm₀ hm ?_
        rw [← hid]
        split <;> rfl
      subst hsame
      by_cases hdecided : m₀.id = messageId
      · right
        rw [if_pos hdecided]
        rw [← hdecided, inState_iff (hinv e he).1.2 hm] at hquarantined
        refine ⟨hquarantined, ?_⟩
        rcases hstate with rfl | rfl
        · exact .inl rfl
        · exact .inr rfl
      · left
        rw [if_neg hdecided]
  · intro messageId
    -- a decided message is approved or rejected until the end
    have hlater := h.pairwise (P := fun e => Decides e messageId)
      (I := fun q => InState messageId .approved q.state ∨ InState messageId .rejected q.state)
      ?_ ?_
    · refine hlater.imp_of_mem ?_
      intro e f _ hf hafter hdecides hagain
      obtain ⟨m, hm, rfl, hquarantined⟩ := hcond f hf messageId hagain
      rcases hafter hdecides with hin | hin
      · rw [inState_iff (hinv f hf).1.2 hm, hquarantined] at hin
        exact absurd (state_value_inj hin) (by simp)
      · rw [inState_iff (hinv f hf).1.2 hm, hquarantined] at hin
        exact absurd (state_value_inj hin) (by simp)
    · rintro e he ⟨r, ev, hlabel, rfl, hchanged⟩
      rcases decision_of_step (hinv e he).1.1 (hstep e he) with
        hsame | ⟨r', ev', hlabel', state, hstate, hbody⟩
      · exact absurd hsame hchanged
      · rw [hlabel] at hlabel'
        cases hlabel'
        obtain ⟨hrow, hrows⟩ := messageDecideTransaction_messages hbody
        obtain ⟨m, hm, hid⟩ := List.mem_map.1 hrow
        have hin : InState r.messageId state e.after.state := by
          rw [InState, hrows]
          exact ⟨_, List.mem_map.2 ⟨m, hm, if_pos hid⟩, hid, rfl⟩
        rcases hstate with rfl | rfl
        · exact .inl hin
        · exact .inr hin
    · rintro e he (hin | hin)
      · exact .inl (hkept (by simp) e he hin)
      · exact .inr (hkept (by simp) e he hin)
  · intro e he messageId hrejected a ha heq
    have hlast : InState messageId .rejected p'.state :=
      h.lasts (I := fun q => InState messageId .rejected q.state) (hkept (by simp)) he hrejected
    simp only [Db.approvedMessages, List.mem_map, List.mem_filter, decide_eq_true_eq] at ha
    obtain ⟨m, ⟨hm, happroved⟩, rfl⟩ := ha
    change m.id = messageId at heq
    rw [← heq, inState_iff hend.2 hm, happroved] at hlast
    exact absurd (state_value_inj hlast) (by simp)

end Steps

/-! ## Two pages -/

/-- What is left of a request that has found its message. -/
def DecisionRequest.found (r : DecisionRequest) (state : State) : Prog Db WebExn Page := do
  .atomic (messageDecideTransaction r.env r.messageId state.value)
  return .redirect (py "message-detail")

/-- The same for the decision that the request names. -/
def DecisionRequest.afterFind (r : DecisionRequest) : Prog Db WebExn Page :=
  match r.decision with
  | none => pure .notAllowed
  | some decision =>
      if decision ∈ [State.approved.value, State.rejected.value] then do
        Prog.atomic (messageDecideTransaction r.env r.messageId decision)
        return .redirect (py "message-detail")
      else pure .notAllowed

section Requests

variable {r : DecisionRequest} {s s' : Db} (state : State)
  (first rest : List (Client Db WebExn Page DecisionRequest))

/-- A request finds its message, whatever state it is in. -/
lemma step_find (hrow : r.messageId ∈ s.messages.map (·.id))
    (hdecision : r.decision = some state.value) (hstate : state = .approved ∨ state = .rejected) :
    Pool.Step (.alone (· = .database)) DecisionRequest.program (.run r [.own s s])
      ⟨s, first ++ ⟨r, r.program⟩ :: rest⟩ ⟨s, first ++ ⟨r, r.found state⟩ :: rest⟩ := by
  have hmem : state.value ∈ [State.approved.value, State.rejected.value] := by
    rcases hstate with rfl | rfl
    · simp
    · simp
  have hprogram : r.program =
      .txn (fun db =>
          if r.messageId ∈ db.messages.map (·.id) then .ok ((), db) else .error .http404)
        (fun found => (Prog.done found).bind fun _ => r.afterFind) := rfl
  have hfound : r.found state = r.afterFind := by
    simp only [DecisionRequest.afterFind, hdecision, hmem, if_true]
    rfl
  rw [hprogram, hfound]
  exact .run (r := .ok ()) (.commit (if_pos hrow))

/-- A request that has found its message commits its decision. -/
lemma step_commit
    (hbody : messageDecideTransaction r.env r.messageId state.value s = .ok ((), s')) :
    Pool.Step (.alone (· = .database)) DecisionRequest.program (.run r [.own s s'])
      ⟨s, first ++ ⟨r, r.found state⟩ :: rest⟩
      ⟨s', first ++ ⟨r, pure (.redirect (py "message-detail"))⟩ :: rest⟩ :=
  .run (.commit hbody)

end Requests

/-- A database with one quarantined message. -/
def sampleStored : Db := (Txn.store sampleRecord).next sampleDb

/-- A request on that message. -/
def sampleRequest (number : ℕ) (decision : State) : DecisionRequest :=
  ⟨number, sampleWebEnv, 1, some decision.value⟩

/-- The database after a decision on that message. -/
def sampleDecided (decision : State) (s : Db) : Db :=
  (Txn.messageDecide sampleWebEnv 1 decision.value).next s

lemma sampleStored_valid : sampleStored.Valid :=
  Txn.valid (Txn.step_next (t := .store sampleRecord) (by decide +kernel)) sampleDb_valid

lemma sampleRequest_commits (decision : State) (s : Db)
    (h : ((Txn.messageDecide sampleWebEnv 1 decision.value).exec s).isSome = true) :
    messageDecideTransaction sampleWebEnv 1 decision.value s =
      .ok ((), sampleDecided decision s) := by
  have hstep : (Txn.messageDecide sampleWebEnv 1 decision.value).exec s =
      some (sampleDecided decision s) := Txn.step_next h
  simp only [Txn.exec] at hstep
  split at hstep
  swap
  · cases hstep
  obtain ⟨_, hbody⟩ := Exceptions.toOption_map_snd.1 hstep
  exact hbody

/-- The owner approves a quarantined message. -/
theorem decisions_predefined_approve :
    ∃ (tr : List DecisionStep) (p' : DecisionPool), DecisionRun ⟨sampleStored, []⟩ tr p' ∧
      InState 1 .approved p'.state ∧
      ∀ messageId, tr.Pairwise fun e f => Decides e messageId → ¬ Decides f messageId := by
  have hrow : (1 : Uuid) ∈ sampleStored.messages.map (·.id) := by decide +kernel
  have happrove := sampleRequest_commits .approved sampleStored (by decide +kernel)
  have hrun : DecisionRun ⟨sampleStored, []⟩ _ _ :=
    .cons (.start (l := sampleRequest 0 .approved) (by simp)) <|
    .cons (step_find .approved [] [] hrow rfl (.inl rfl)) <|
    .cons (step_commit .approved [] [] happrove) (.nil _)
  have hquarantined : InState 1 .quarantined sampleStored := by
    unfold InState
    decide +kernel
  have happroved : InState 1 .approved (sampleDecided .approved sampleStored) := by
    unfold InState
    decide +kernel
  refine ⟨_, _, hrun, happroved, (decisions_predefined rfl sampleStored_valid hrun ?_).2.1⟩
  intro e he messageId hdecides
  obtain ⟨r, ev, hlabel, rfl, -⟩ := hdecides
  simp only [List.mem_cons, List.not_mem_nil, or_false] at he
  rcases he with rfl | rfl | rfl
  · cases hlabel
  · cases hlabel
    exact hquarantined
  · cases hlabel
    exact hquarantined

/-- The owner rejects a message, and then approves it from a page that was opened before. -/
theorem decisions_approve_rejected :
    ∃ (tr : List DecisionStep) (p' : DecisionPool),
      DecisionRun ⟨sampleStored, []⟩ tr p' ∧ sampleStored.Valid ∧
        ∃ e ∈ tr, InState 1 .rejected e.before.state ∧
          ∃ a ∈ p'.state.approvedMessages, a.id = 1 := by
  have hfresh : sampleRequest 1 .approved ∉
      [(⟨sampleRequest 0 .rejected, (sampleRequest 0 .rejected).program⟩ :
        Client Db WebExn Page DecisionRequest)].map (·.request) := by
    intro hmem
    have hnumber := congrArg DecisionRequest.number (List.mem_singleton.1 hmem)
    simp [sampleRequest] at hnumber
  have hrow : (1 : Uuid) ∈ sampleStored.messages.map (·.id) := by decide +kernel
  have hreject := sampleRequest_commits .rejected sampleStored (by decide +kernel)
  have happrove := sampleRequest_commits .approved (sampleDecided .rejected sampleStored)
    (by decide +kernel)
  have hrun : DecisionRun ⟨sampleStored, []⟩ _ _ :=
    .cons (.start (l := sampleRequest 0 .rejected) (by simp)) <|
    .cons (.start (l := sampleRequest 1 .approved) hfresh) <|
    .cons (step_find .rejected [] _ hrow rfl (.inr rfl)) <|
    .cons (step_find .approved [_] [] hrow rfl (.inl rfl)) <|
    .cons (step_commit .rejected [] _ hreject) <|
    .cons (step_commit .approved [_] [] happrove) (.nil _)
  have hrejected : InState 1 .rejected (sampleDecided .rejected sampleStored) := by
    unfold InState
    decide +kernel
  refine ⟨_, _, hrun, sampleStored_valid, _,
    .tail _ (.tail _ (.tail _ (.tail _ (.tail _ (.head _))))),
    hrejected, ?_⟩
  decide +kernel

end MailGate
