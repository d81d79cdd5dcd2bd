import LaptopRaft.Properties.Exchange

/-!
# Answers of a higher term during a call of `ReplicateLog`

A call of `ReplicateLog` by a leader, whatever its peers answer: `replicateCall` runs the steps of
the caller, and the answer to each request is supplied by the label.  An answer is observed
together with whether it answers a heartbeat, and so is the value the call returns.

An answer of a higher term should depose the leader.  `ReplicateLog` looks at the term of an answer
only where it has sent an entry; there it gives up its role and returns `0`.  What a heartbeat is
answered is dropped, so that of the answers with a higher term just those count that are topped by
one to an entry request (`deposed_iff`).
-/

namespace LaptopRaft

open ServerMetadata

/-! ## A call and its answers -/

/-- What happens next in a call. -/
inductive CallLabel
  /-- The next peer is sent its request and answers `res`. -/
  | answered (res : LogResponse)
  /-- The connection to the next peer fails. -/
  | fails
  | endRound
deriving DecidableEq

inductive CallEvent
  | received (heartbeat : Bool) (res : LogResponse)
  | returned (value : ℤ)
deriving DecidableEq

namespace LaptopFactory

variable (f : LaptopFactory)

/-- The peer the call is at is sent a heartbeat. -/
def atHeartbeat : Bool :=
  match f.callee with
  | some node => f.metadata.sentTo node = some f.metadata.logSize
  | none => false

/-- The call returns `value`, if it is over. -/
def returnEvents (value : ℤ) : List CallEvent :=
  if f.metaLock = .free then [.returned value] else []

/-- One request and its answer, a failure, or the end of a round.  The `return` in the loop returns
`0`, the one after it `1`. -/
def callAct : CallLabel → Option (LaptopFactory × List CallEvent)
  | .answered res => do
      let sent ← f.sendLogRequest
      let f' ← { sent with wire := .response (.log res) }.recvLogResponse
      some (f', .received f.atHeartbeat res :: f'.returnEvents 0)
  | .fails => f.logLinkFails.map fun f' => (f', [])
  | .endRound => f.endRound.map fun f' => (f', f'.returnEvents 1)

end LaptopFactory

/-- The calls of `ReplicateLog` that begin in `f₀`. -/
def replicateCall (f₀ : LaptopFactory) : TransitionSystem LaptopFactory CallLabel CallEvent where
  init f := ∃ caller accepts,
    f = f₀.enterReplicateLog caller (f₀.metadata.tryReconnect accepts)
  step f l := f.callAct l

/-! ## Steps of a call -/

section Steps

variable {f f' : LaptopFactory} {res : LogResponse} {es : List CallEvent} {l : CallLabel}
  {md md' : ServerMetadata} {node : ServerNode}

/-- The caller goes on only after answers of its own term or a lower one. -/
lemma le_of_recvEntryResponse (h : md.recvEntryResponse node res = some (md', true)) :
    res.currentTerm ≤ md.currentTerm := by
  by_contra hlt
  rw [recvEntryResponse_deposed (not_le.1 hlt)] at h
  simp at h

lemma ServerMetadata.EntryReaction.role (h : EntryReaction md node res md' true) :
    md'.status = md.status ∧ md'.currentTerm = md.currentTerm := by
  cases h with
  | acked hterm hleader hsuccess hsent hack hcommit =>
      rw [commitLog_frame hcommit]
      exact ⟨rfl, rfl⟩
  | backed => exact ⟨rfl, rfl⟩
  | kept => exact ⟨rfl, rfl⟩

/-- The call goes on, and the role has not changed. -/
structure GoesOn (f f' : LaptopFactory) : Prop where
  held : f'.metaLock ≠ .free
  status : f'.metadata.status = f.metadata.status
  currentTerm : f'.metadata.currentTerm = f.metadata.currentTerm

/-- The call ends, and the server is a follower in the term of the answer. -/
structure IsDeposed (res : LogResponse) (f' : LaptopFactory) : Prop where
  free : f'.metaLock = .free
  status : f'.metadata.status = .follower
  currentTerm : f'.metadata.currentTerm = res.currentTerm
  voteReceived : f'.metadata.voteReceived = ∅

lemma failFollower_goesOn {caller : Caller} {loop : ReplicateLoop}
    (h : f.failFollower caller node loop = some f') : GoesOn f f' := by
  obtain ⟨md, hmd, rfl⟩ := Option.map_eq_some_iff.1 h
  obtain ⟨ack, sent, -, -, -, -, rfl⟩ := failNode_cases hmd
  exact ⟨by simp, rfl, rfl⟩

/-- An answer that counts is one to an entry request. -/
def Counts (heartbeat : Bool) (res : LogResponse) : Prop :=
  heartbeat = false ∧ res.followerId ≠ -1

/-- **One answer.** -/
theorem answered_cases (h : f.callAct (.answered res) = some (f', es)) :
    (GoesOn f f' ∧ (Counts f.atHeartbeat res → res.currentTerm ≤ f.metadata.currentTerm) ∧
      es = [.received f.atHeartbeat res]) ∨
    (IsDeposed res f' ∧ Counts f.atHeartbeat res ∧ f.metadata.currentTerm < res.currentTerm ∧
      es = [.received f.atHeartbeat res, .returned 0]) := by
  simp only [LaptopFactory.callAct, Option.bind_eq_bind, Option.bind_eq_some_iff,
    Option.some.injEq, Prod.mk.injEq] at h
  obtain ⟨sent, hsent, f₁, hrecv, rfl, rfl⟩ := h
  have hevents : GoesOn f f₁ → f₁.returnEvents 0 = [] := fun hgo => if_neg hgo.held
  unfold LaptopFactory.sendLogRequest at hsent
  split at hsent
  · rename_i caller node rest new change hlock hquiet
    obtain ⟨req, -, rfl⟩ := Option.map_eq_some_iff.1 hsent
    have hbeat : f.atHeartbeat = decide (f.metadata.sentTo node = some f.metadata.logSize) := by
      simp [LaptopFactory.atHeartbeat, LaptopFactory.callee, hlock]
    simp only [LaptopFactory.recvLogResponse, hlock] at hrecv
    split at hrecv
    · -- no follower's id: the connection has failed
      rename_i hinvalid
      have hgo := failFollower_goesOn hrecv
      have hgo' : GoesOn f f₁ := ⟨hgo.held, hgo.status, hgo.currentTerm⟩
      rw [hevents hgo']
      exact Or.inl ⟨hgo', fun hcounts => absurd hinvalid hcounts.2, rfl⟩
    · rename_i hvalid
      split at hrecv
      · rename_i hcomplete
        obtain rfl := Option.some.inj hrecv
        refine Or.inl ⟨⟨by simp, rfl, rfl⟩, fun hcounts => ?_, rfl⟩
        rw [hbeat, decide_eq_true hcomplete] at hcounts
        exact absurd hcounts.1 (by decide)
      · rename_i hbehind
        obtain ⟨⟨md, goOn⟩, hreact, rfl⟩ := Option.map_eq_some_iff.1 hrecv
        cases goOn with
        | true =>
            obtain ⟨hstatus, hterm⟩ := (recvEntryResponse_cases hreact).role
            exact Or.inl ⟨⟨by simp, hstatus, hterm⟩, fun _ => le_of_recvEntryResponse hreact, rfl⟩
        | false =>
            cases recvEntryResponse_cases hreact with
            | deposed hlt =>
                refine Or.inr ⟨⟨by simp, by simp, by simp, by simp⟩, ⟨?_, hvalid⟩, hlt, ?_⟩
                · rw [hbeat, decide_eq_false hbehind]
                · simp [LaptopFactory.returnEvents]
  · cases hsent

/-- The other steps of a call. -/
lemma unanswered_cases (hl : l = .fails ∨ l = .endRound) (h : f.callAct l = some (f', es)) :
    f'.metadata.status = f.metadata.status ∧ f'.metadata.currentTerm = f.metadata.currentTerm ∧
      ((f'.metaLock ≠ .free ∧ es = []) ∨ (f'.metaLock = .free ∧ es = [.returned 1])) := by
  rcases hl with rfl | rfl
  · obtain ⟨f₁, hf₁, hp⟩ := Option.map_eq_some_iff.1 h
    obtain ⟨rfl, rfl⟩ := Prod.mk.inj hp
    unfold LaptopFactory.logLinkFails at hf₁
    split at hf₁
    · have hgo := failFollower_goesOn hf₁
      exact ⟨hgo.status, hgo.currentTerm, Or.inl ⟨hgo.held, rfl⟩⟩
    · cases hf₁
  · obtain ⟨f₁, hf₁, hp⟩ := Option.map_eq_some_iff.1 h
    obtain ⟨rfl, rfl⟩ := Prod.mk.inj hp
    unfold LaptopFactory.endRound at hf₁
    split at hf₁
    · rename_i caller new change hlock
      by_cases hchange : change = 0
      · simp only [hchange, if_true, Option.some.injEq] at hf₁
        subst hf₁
        exact ⟨by simp, by simp, Or.inr ⟨by simp, by simp [LaptopFactory.returnEvents]⟩⟩
      · simp only [hchange, if_false, Option.some.injEq] at hf₁
        subst hf₁
        exact ⟨rfl, rfl, Or.inl ⟨by simp, by simp [LaptopFactory.returnEvents]⟩⟩
    · cases hf₁

/-- A call that has returned does nothing more. -/
lemma callAct_free (hfree : f.metaLock = .free) : f.callAct l = none := by
  cases l with
  | answered res =>
      simp [LaptopFactory.callAct, LaptopFactory.sendLogRequest, hfree]
  | fails => simp [LaptopFactory.callAct, LaptopFactory.logLinkFails, hfree]
  | endRound => simp [LaptopFactory.callAct, LaptopFactory.endRound, hfree]

end Steps

/-! ## Whole calls -/

section Calls

variable {f₀ f : LaptopFactory} {tr : List CallEvent} {value : ℤ}

/-- The answers to entry requests name no term above `t`. -/
def NoneAbove (t : ℤ) (tr : List CallEvent) : Prop :=
  ∀ heartbeat res, .received heartbeat res ∈ tr → Counts heartbeat res → res.currentTerm ≤ t

/-- How far a leader's call has come. -/
inductive CallState (t : ℤ) (f : LaptopFactory) (tr : List CallEvent) : Prop
  | running (hheld : f.metaLock ≠ .free) (hstatus : f.metadata.status = .leader)
      (hterm : f.metadata.currentTerm = t) (hnone : NoneAbove t tr)
      (hreturned : ∀ value, .returned value ∉ tr)
  | finished (hfree : f.metaLock = .free) (hstatus : f.metadata.status = .leader)
      (hnone : NoneAbove t tr) (hreturned : ∀ value, .returned value ∈ tr → value = 1)
  | deposed {res : LogResponse} (hdeposed : IsDeposed res f)
      (hreceived : .received false res ∈ tr) (hcounts : Counts false res)
      (habove : t < res.currentTerm) (hnone : NoneAbove res.currentTerm tr)
      (hreturned : ∀ value, .returned value ∈ tr → value = 0)

lemma NoneAbove.append {t : ℤ} {es : List CallEvent} (h : NoneAbove t tr)
    (hes : NoneAbove t es) : NoneAbove t (tr ++ es) := by
  intro heartbeat res hmem hcounts
  rcases List.mem_append.1 hmem with hold | hnew
  · exact h heartbeat res hold hcounts
  · exact hes heartbeat res hnew hcounts

lemma NoneAbove.mono {t t' : ℤ} (h : NoneAbove t tr) (hle : t ≤ t') : NoneAbove t' tr :=
  fun heartbeat res hmem hcounts => (h heartbeat res hmem hcounts).trans hle

/-- The call of a leader is running, over, or ended by an answer. -/
theorem CallState.step {t : ℤ} {f' : LaptopFactory} {l : CallLabel} {es : List CallEvent}
    (h : CallState t f tr) (hst : f.callAct l = some (f', es)) : CallState t f' (tr ++ es) := by
  cases h with
  | finished hfree => simp [callAct_free hfree] at hst
  | deposed hdeposed => simp [callAct_free hdeposed.free] at hst
  | running hheld hstatus hterm hnone hreturned =>
      by_cases hl : l = .fails ∨ l = .endRound
      · obtain ⟨hstatus', hterm', hreturn⟩ := unanswered_cases hl hst
        rw [hstatus] at hstatus'
        rw [hterm] at hterm'
        rcases hreturn with ⟨hheld', rfl⟩ | ⟨hfree, rfl⟩
        · rw [List.append_nil]
          exact .running hheld' hstatus' hterm' hnone hreturned
        · refine .finished hfree hstatus' (hnone.append ?_) ?_
          · simp [NoneAbove]
          · intro value hmem
            rcases List.mem_append.1 hmem with hold | hnew
            · exact absurd hold (hreturned value)
            · simpa using hnew
      · obtain ⟨res, rfl⟩ : ∃ res, l = .answered res := by
          cases l with
          | answered res => exact ⟨res, rfl⟩
          | fails => exact absurd (Or.inl rfl) hl
          | endRound => exact absurd (Or.inr rfl) hl
        rcases answered_cases hst with ⟨hgo, hle, rfl⟩ | ⟨hdeposed, hcounts, hlt, rfl⟩
        · rw [hterm] at hle
          refine .running hgo.held (hgo.status.trans hstatus) (hgo.currentTerm.trans hterm)
            (hnone.append ?_) (by simpa using hreturned)
          intro heartbeat res' hmem hcounts
          simp only [List.mem_singleton, CallEvent.received.injEq] at hmem
          obtain ⟨rfl, rfl⟩ := hmem
          exact hle hcounts
        · rw [hterm] at hlt
          refine .deposed hdeposed (by simp [hcounts.1]) ⟨rfl, hcounts.2⟩ hlt
            ((hnone.mono hlt.le).append ?_) ?_
          · intro heartbeat res' hmem _
            simp only [List.mem_cons, CallEvent.received.injEq, reduceCtorEq,
              List.not_mem_nil, or_false] at hmem
            rw [hmem.2]
          · intro value hmem
            simpa [hreturned value] using hmem

/-- A call of `ReplicateLog` by a leader has returned. -/
structure LeaderCall (f₀ f : LaptopFactory) (tr : List CallEvent) (value : ℤ) : Prop where
  leader : f₀.metadata.status = .leader
  run : (replicateCall f₀).Run TransitionSystem.anyStep f tr
  returned : .returned value ∈ tr

lemma LeaderCall.state (h : LeaderCall f₀ f tr value) :
    CallState f₀.metadata.currentTerm f tr := by
  refine h.run.invariant (I := CallState f₀.metadata.currentTerm) ?_ ?_
  · rintro f ⟨caller, accepts, rfl⟩
    refine .running (by simp [LaptopFactory.enterReplicateLog]) ?_ ?_ ?_ (by simp)
    · show (f₀.metadata.tryReconnect accepts).status = .leader
      rw [tryReconnect_eq]
      exact h.leader
    · show (f₀.metadata.tryReconnect accepts).currentTerm = _
      rw [tryReconnect_eq]
    · intro heartbeat res hmem
      cases hmem
  · intro f tr l f' es _ hstate _ hst
    exact hstate.step hst

/-- Every answer of a higher term than the call began with has deposed the caller. -/
def DeposedByAnswers (f₀ f : LaptopFactory) (tr : List CallEvent) (value : ℤ) : Prop :=
  ∀ heartbeat res, .received heartbeat res ∈ tr →
    f₀.metadata.currentTerm < res.currentTerm →
    f.metadata.status = .follower ∧ res.currentTerm ≤ f.metadata.currentTerm ∧
      f.metadata.voteReceived = ∅ ∧ value = 0

/-- Every answer of a higher term is topped by one to an entry request, or is one. -/
def AnswersTopped (f₀ : LaptopFactory) (tr : List CallEvent) : Prop :=
  ∀ heartbeat res, .received heartbeat res ∈ tr →
    f₀.metadata.currentTerm < res.currentTerm →
    ∃ res', .received false res' ∈ tr ∧ res'.followerId ≠ -1 ∧
      res.currentTerm ≤ res'.currentTerm

/-- **A higher term deposes the leader** where it comes with the answer to an entry request. -/
theorem deposed_iff (h : LeaderCall f₀ f tr value) :
    DeposedByAnswers f₀ f tr value ↔ AnswersTopped f₀ tr := by
  cases h.state with
  | running _ _ _ _ hreturned => exact absurd h.returned (hreturned value)
  | finished hfree hstatus hnone hreturned =>
      constructor
      · intro hdeposed heartbeat res hmem habove
        have hfollower := (hdeposed heartbeat res hmem habove).1
        rw [hstatus] at hfollower
        cases hfollower
      · intro htopped heartbeat res hmem habove
        obtain ⟨res', hmem', hvalid, hle⟩ := htopped heartbeat res hmem habove
        have hlow := hnone false res' hmem' ⟨rfl, hvalid⟩
        omega
  | @deposed last hdeposed hreceived hcounts habove hnone hreturned =>
      constructor
      · intro hall heartbeat res hmem hhigh
        have hle := (hall heartbeat res hmem hhigh).2.1
        rw [hdeposed.currentTerm] at hle
        exact ⟨last, hreceived, hcounts.2, hle⟩
      · intro htopped heartbeat res hmem hhigh
        obtain ⟨res', hmem', hvalid, hle⟩ := htopped heartbeat res hmem hhigh
        refine ⟨hdeposed.status, ?_, hdeposed.voteReceived, hreturned value h.returned⟩
        rw [hdeposed.currentTerm]
        exact hle.trans (hnone false res' hmem' ⟨rfl, hvalid⟩)

end Calls

/-- Server 0, leader of term 1, with one peer that it has sent nothing yet. -/
def leaderOfOne (log : List MapOp) : LaptopFactory where
  metadata :=
    { leaderId := 0
      factoryId := 0
      currentTerm := 1
      status := .leader
      logSize := log.length
      sentLength := some [0, 0]
      ackLength := some [0, 0]
      smrLog := log
      neighbors := [⟨0, 1, "", 0⟩]
      nodeSocket := [⟨0, 1, "", 0⟩] }

/-- The peer refuses an entry in term 2. -/
theorem deposed_by_entry : ∃ f tr,
    LeaderCall (leaderOfOne [⟨1, 7, 1⟩]) f tr 0 ∧ .received false ⟨1, 2, 0, 0⟩ ∈ tr ∧
    DeposedByAnswers (leaderOfOne [⟨1, 7, 1⟩]) f tr 0 := by
  obtain ⟨f, tr, hrun, htr⟩ := TransitionSystem.run_of_exec
    (replicateCall (leaderOfOne [⟨1, 7, 1⟩])) TransitionSystem.anyStep _
    ⟨.timeoutThread, [], rfl⟩ [.answered ⟨1, 2, 0, 0⟩]
    (P := fun _ tr => tr = [.received false ⟨1, 2, 0, 0⟩, .returned 0]) (by decide +kernel)
  have hcall : LeaderCall (leaderOfOne [⟨1, 7, 1⟩]) f tr 0 := ⟨rfl, hrun, by simp [htr]⟩
  refine ⟨f, tr, hcall, by simp [htr], (deposed_iff hcall).2 fun heartbeat res hmem _ => ?_⟩
  simp only [htr, List.mem_cons, CallEvent.received.injEq, reduceCtorEq, List.not_mem_nil,
    or_false] at hmem
  exact ⟨⟨1, 2, 0, 0⟩, by simp [htr], by decide, by rw [hmem.2]⟩

/-- The peer refuses a heartbeat in term 2.  The call returns `1`, and the caller is still leader
of term 1. -/
theorem undisturbed_by_heartbeat : ∃ f tr, LeaderCall (leaderOfOne []) f tr 1 ∧
    .received true ⟨1, 2, 0, 0⟩ ∈ tr ∧ f.metadata.status = .leader ∧
    f.metadata.currentTerm = 1 ∧ ¬ DeposedByAnswers (leaderOfOne []) f tr 1 := by
  obtain ⟨f, tr, hrun, htr, hstatus, hterm⟩ := TransitionSystem.run_of_exec
    (replicateCall (leaderOfOne [])) TransitionSystem.anyStep _ ⟨.timeoutThread, [], rfl⟩
    [.answered ⟨1, 2, 0, 0⟩, .endRound]
    (P := fun f tr => tr = [.received true ⟨1, 2, 0, 0⟩, .returned 1] ∧
      f.metadata.status = .leader ∧ f.metadata.currentTerm = 1) (by decide +kernel)
  refine ⟨f, tr, ⟨rfl, hrun, by simp [htr]⟩, by simp [htr], hstatus, hterm, fun hdeposed => ?_⟩
  have hfollower := (hdeposed true ⟨1, 2, 0, 0⟩ (by simp [htr]) (by decide)).1
  rw [hstatus] at hfollower
  cases hfollower

end LaptopRaft
