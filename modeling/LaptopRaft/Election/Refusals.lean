import LaptopRaft.Model.Scenario
import LaptopRaft.Properties.Exchange

/-!
# Which requests are refused

The two handlers on the requests they should refuse, and on a vote request they should grant.

* A request of a lower term than the server's should be refused without effect.  Both handlers
  set the heartbeat flag all the same, and a follower goes over to the lower term
  (`stale_refused_iff`).
* A candidate whose log is recent enough should get the vote of a server that has not voted in
  the term.  But `voted_for` is taken by a candidate that is then refused, and a server that
  learned of the term otherwise has nobody in it: in its own term, only the candidate that
  `voted_for` happens to name is granted the vote (`vote_granted_iff`).
-/

namespace LaptopRaft

/-- The term a request is sent in. -/
def Rpc.currentTerm : Rpc → ℤ
  | .vote msg => msg.currentTerm
  | .log req => req.currentTerm

namespace ServerMetadata

variable {md md' : ServerMetadata} {msg : RequestVoteMessage} {req : LogRequest} {rpc : Rpc}

/-! ## Stale requests -/

/-- The answer is negative and names the server's own term, and nothing has changed. -/
def RefusedWithoutEffect (md : ServerMetadata) : Rpc → Prop
  | .vote msg => ∃ res, md.getVoteResponse msg = some (md, res) ∧ res.voted = 0 ∧
      res.currentTerm = md.currentTerm
  | .log req => ∃ res, md.getLogResponse req = some (md, res) ∧ res.success = 0 ∧
      res.currentTerm = md.currentTerm

/-- The server does not wait for a heartbeat, does not follow whoever asks, and the entries of its
log that the handler reads are there. -/
def Indifferent (md : ServerMetadata) : Rpc → Prop
  | .vote _ => md.heartbeat = true ∧ md.getLastTerm.isSome
  | .log req => md.heartbeat = true ∧ md.status ≠ .follower ∧ (md.canLog req).isSome

lemma setHeartbeat_eq_self : md.setHeartbeat true = md ↔ md.heartbeat = true := by
  constructor
  · intro h
    rw [← h]
    rfl
  · intro h
    rw [← h]
    rfl

lemma adoptCandidate_of_le (hle : msg.currentTerm ≤ md.currentTerm) :
    md.adoptCandidate msg = md :=
  if_neg (not_lt.2 hle)

lemma getVoteResponse_of_lt (hstale : msg.currentTerm < md.currentTerm) {t : ℤ}
    (hlast : md.getLastTerm = some t) :
    md.getVoteResponse msg = some (md.setHeartbeat true, ⟨md.factoryId, md.currentTerm, 0⟩) := by
  rw [getVoteResponse, hlast, adoptCandidate_of_le hstale.le, Option.bind_eq_bind,
    Option.bind_some]
  dsimp only
  rw [if_neg fun h => hstale.ne h.2.1]

lemma getLogResponse_of_not_follows (hno : ¬ Follows md req.currentTerm) {b : Bool}
    (hcan : md.canLog req = some b) :
    md.getLogResponse req =
      some (md.setHeartbeat true, ⟨md.factoryId, md.currentTerm, 0, 0⟩) := by
  have hadopt : md.adoptLeader req = md := if_neg hno
  rw [getLogResponse, hadopt, hcan, Option.bind_eq_bind, Option.bind_some]
  exact if_neg fun h => hno (Or.inl h.1.le)

/-- **A stale request** is refused without effect by a server that happens to have its heartbeat
flag set and, if it is a log request, is not a follower. -/
theorem stale_refused_iff (hstale : rpc.currentTerm < md.currentTerm) :
    RefusedWithoutEffect md rpc ↔ Indifferent md rpc := by
  cases rpc with
  | vote msg =>
      change msg.currentTerm < md.currentTerm at hstale
      constructor
      · rintro ⟨res, hanswer, -, -⟩
        obtain ⟨t, hlast, -⟩ := Option.bind_eq_some_iff.1 hanswer
        rw [getVoteResponse_of_lt hstale hlast] at hanswer
        have hsame := (Prod.mk.inj (Option.some.inj hanswer)).1
        exact ⟨setHeartbeat_eq_self.1 hsame, by rw [hlast]; rfl⟩
      · rintro ⟨hheartbeat, hlast⟩
        obtain ⟨t, hlast⟩ := Option.isSome_iff_exists.1 hlast
        refine ⟨⟨md.factoryId, md.currentTerm, 0⟩, ?_, rfl, rfl⟩
        rw [getVoteResponse_of_lt hstale hlast, setHeartbeat_eq_self.2 hheartbeat]
  | log req =>
      change req.currentTerm < md.currentTerm at hstale
      constructor
      · rintro ⟨res, hanswer, -, -⟩
        -- a follower would be in the term of the request
        have hno : ¬ Follows md req.currentTerm := fun hfollows =>
          hstale.ne' ((getLogResponse_reply hanswer).of_follows hfollows).1
        have hsame := ((getLogResponse_reply hanswer).of_not_follows hno).1
        obtain ⟨b, hcan, -⟩ := Option.bind_eq_some_iff.1 hanswer
        rw [show md.adoptLeader req = md from if_neg hno] at hcan
        exact ⟨setHeartbeat_eq_self.1 hsame.symm, fun hfollower => hno (Or.inr hfollower),
          by rw [hcan]; rfl⟩
      · rintro ⟨hheartbeat, hstatus, hcan⟩
        obtain ⟨b, hcan⟩ := Option.isSome_iff_exists.1 hcan
        have hno : ¬ Follows md req.currentTerm := fun h =>
          h.elim (fun hle => absurd hle (not_le.2 hstale)) hstatus
        refine ⟨⟨md.factoryId, md.currentTerm, 0, 0⟩, ?_, rfl, rfl⟩
        rw [getLogResponse_of_not_follows hno hcan, setHeartbeat_eq_self.2 hheartbeat]

/-- A candidate of term 2 that has just been asked by another one. -/
theorem stale_refused_candidate :
    RefusedWithoutEffect { status := .candidate, currentTerm := 2, heartbeat := true }
      (.log ⟨0, 1, 0, 0, 0, -1, -1, -1⟩) :=
  (stale_refused_iff (by decide)).2 ⟨rfl, by decide, rfl⟩

/-- A leader of term 2 is asked for its vote in term 1, and a follower of term 2 hears of the
leader of term 1. -/
theorem stale_request_heeded :
    ¬ RefusedWithoutEffect { status := .leader, currentTerm := 2 } (.vote ⟨0, 1, 0, 0⟩) ∧
    ¬ RefusedWithoutEffect { currentTerm := 2, heartbeat := true }
      (.log ⟨0, 1, 0, 0, 0, -1, -1, -1⟩) := by
  constructor
  · rintro ⟨res, hanswer, -⟩
    have hflag : true = false := congrArg heartbeat (Prod.mk.inj (Option.some.inj hanswer)).1
    cases hflag
  · rintro ⟨res, hanswer, -⟩
    have hterm : (1 : ℤ) = 2 := congrArg currentTerm (Prod.mk.inj (Option.some.inj hanswer)).1
    omega

/-! ## Votes that are free -/

/-- What `GetVoteResponse` answers to a candidate whose log is recent enough. -/
lemma getVoteResponse_of_asRecent {t : ℤ} (hlast : md.getLastTerm = some t)
    (hrecent : AsRecent msg.lastTerm msg.logSize t md.logSize)
    (hterm : md.currentTerm ≤ msg.currentTerm) :
    (∃ md' res, md.getVoteResponse msg = some (md', res) ∧ res.voted ≠ 0) ↔
      md.currentTerm < msg.currentTerm ∨ md.votedFor = msg.id := by
  have hsize : (md.adoptCandidate msg).logSize = md.logSize := adoptCandidate_logSize msg
  rw [getVoteResponse, hlast, Option.bind_eq_bind, Option.bind_some]
  dsimp only
  rw [hsize]
  rcases hterm.lt_or_eq with hlt | heq
  · have hadopt : md.adoptCandidate msg =
        { md with currentTerm := msg.currentTerm, status := .follower, voteReceived := ∅,
                  votedFor := msg.id } := if_pos hlt
    rw [hadopt, if_pos ⟨hrecent, rfl, rfl⟩]
    exact iff_of_true ⟨_, _, rfl, one_ne_zero⟩ (Or.inl hlt)
  · rw [adoptCandidate_of_le heq.ge]
    constructor
    · rintro ⟨md', res, hanswer, hvoted⟩
      obtain rfl := (Prod.mk.inj (Option.some.inj hanswer)).2
      split at hvoted
      · rename_i hgrant
        exact Or.inr hgrant.2.2
      · exact absurd rfl hvoted
    · rintro (hlt | hfor)
      · exact absurd heq hlt.ne
      · rw [if_pos ⟨hrecent, heq.symm, hfor⟩]
        exact ⟨_, _, rfl, one_ne_zero⟩

end ServerMetadata

open ServerMetadata

section Runs

variable {cfg : Config} {c : Cluster} {tr : List Event} {s : ℤ} {msg : RequestVoteMessage}

/-- A reachable state of a server that has given no vote in the term of the request, and whose
log is not more recent than the candidate's. -/
structure FreeVote (cfg : Config) (c : Cluster) (tr : List Event) (s : ℤ)
    (msg : RequestVoteMessage) : Prop where
  run : (system cfg).Run TransitionSystem.anyStep c tr
  mem : s ∈ cfg.ids
  free : ∀ candidate log, .vote s msg.currentTerm candidate log ∉ tr
  term : (c.server s).metadata.currentTerm ≤ msg.currentTerm
  recent : AsRecent msg.lastTerm msg.logSize (lastTerm (c.server s).metadata.smrLog)
    (c.server s).metadata.logSize

/-- **A free vote** is granted in a term that is new to the server.  In its own term the server
grants it only to the candidate it has put down without a vote. -/
theorem vote_granted_iff (h : FreeVote cfg c tr s msg) :
    (∃ md res, (c.server s).metadata.getVoteResponse msg = some (md, res) ∧ res.voted ≠ 0) ↔
      (c.server s).metadata.currentTerm < msg.currentTerm ∨
        (c.server s).metadata.votedFor = msg.id :=
  getVoteResponse_of_asRecent
    (getLastTerm_eq (wellFormed h.run h.mem).sound.stored.logSize) h.recent h.term

end Runs

/-- Who gives a vote, and in which term. -/
def Event.ballot : Event → Option (ℤ × ℤ)
  | .vote voter term _ _ => some (voter, term)
  | _ => none

lemma not_mem_of_ballot {tr : List Event} {s t : ℤ} (h : ∀ e ∈ tr, e.ballot ≠ some (s, t))
    (candidate : ℤ) (log : List MapOp) : .vote s t candidate log ∉ tr :=
  fun hmem => h _ hmem rfl

/-- The first request of a run is granted. -/
theorem vote_granted_first : ∃ c tr, FreeVote three c tr 1 ⟨0, 1, 0, 0⟩ ∧
    ∃ md res, (c.server 1).metadata.getVoteResponse ⟨0, 1, 0, 0⟩ = some (md, res) ∧
      res.voted ≠ 0 := by
  obtain ⟨c, tr, hrun, hfree, hterm, hlog, hsize⟩ := run_of_play three TransitionSystem.anyStep
    (P := fun c tr => (∀ e ∈ tr, e.ballot ≠ some (1, 1)) ∧
      (c.server 1).metadata.currentTerm = 0 ∧ (c.server 1).metadata.smrLog = [] ∧
      (c.server 1).metadata.logSize = 0)
    (stand 0 ++ [.sendRequestVote 0]) (by decide +kernel)
  have hvote : FreeVote three c tr 1 ⟨0, 1, 0, 0⟩ := by
    refine ⟨hrun, by decide, not_mem_of_ballot hfree, by rw [hterm]; decide, ?_⟩
    rw [hlog, hsize]
    exact Or.inr ⟨rfl, le_rfl⟩
  exact ⟨c, tr, hvote, (vote_granted_iff hvote).2 (Or.inl (by rw [hterm]; decide))⟩

/-- Server 0 replicates an entry to server 1 only.  Server 2 stands in term 1 and again in term 2,
and is refused by server 0; server 1, whose log has the entry, then stands in term 2. -/
def refusedFirst : List Label :=
  stand 0 ++ callVote 0 ++ submit 0 7 1 ++ callLog 0 ++ [.logLinkFails 0, .endRound 0] ++
    callLog 0 ++ [.endRound 0] ++
    stand 2 ++ callVote 2 ++ callVote 2 ++ [.endRequestVote 2, .readStatus 2, .requestVote 2] ++
    callVote 2 ++ timeOut 1 ++ stand 1 ++ [.sendRequestVote 1]

/-- Server 0 has voted for nobody in term 2 and has the same log as server 1, which asks it for
its vote. -/
theorem free_vote_refused : ∃ c tr node, FreeVote three c tr 0 ⟨1, 2, 1, 1⟩ ∧
    node.id = 0 ∧ (c.server 1).wire = .request node (.vote ⟨1, 2, 1, 1⟩) ∧
    ¬ ∃ md res, (c.server 0).metadata.getVoteResponse ⟨1, 2, 1, 1⟩ = some (md, res) ∧
      res.voted ≠ 0 := by
  obtain ⟨c, tr, hrun, hfree, hterm, hlog, hsize, hfor, hwire⟩ :=
    run_of_play three TransitionSystem.anyStep
    (P := fun c tr => (∀ e ∈ tr, e.ballot ≠ some (0, 2)) ∧
      (c.server 0).metadata.currentTerm = 2 ∧ (c.server 0).metadata.smrLog = [⟨1, 7, 1⟩] ∧
      (c.server 0).metadata.logSize = 1 ∧ (c.server 0).metadata.votedFor = 2 ∧
      (c.server 1).wire = .request ⟨0, 0, "", 0⟩ (.vote ⟨1, 2, 1, 1⟩))
    refusedFirst (by decide +kernel)
  have hlast : (c.server 0).metadata.getLastTerm = some 1 := by
    rw [getLastTerm_eq (by rw [hlog, hsize]; rfl), hlog]
    rfl
  have hrecent : AsRecent 1 1 1 (c.server 0).metadata.logSize := by
    rw [hsize]
    exact Or.inr ⟨rfl, le_rfl⟩
  refine ⟨c, tr, ⟨0, 0, "", 0⟩, ⟨hrun, by decide, not_mem_of_ballot hfree, hterm.le, ?_⟩, rfl,
    hwire, fun hgranted => ?_⟩
  · rw [hlog]
    exact hrecent
  · -- neither is the term new, nor is server 1 the candidate that was put down
    rcases (getVoteResponse_of_asRecent hlast hrecent hterm.le).1 hgranted with hlt | heq
    · rw [hterm] at hlt
      exact lt_irrefl 2 hlt
    · rw [hfor] at heq
      exact absurd heq (by decide)

end LaptopRaft
